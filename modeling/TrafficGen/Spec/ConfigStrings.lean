import TrafficGen.ForStd.JsonString
import TrafficGen.Spec.ConfigKeys

/-!
# Strings of a configuration

The two strings of a configuration as string literals of a document. The parser keeps a literal
as it is written, ends it at the first quote that no backslash stands before, takes a key where
its text stands first, be it the value of a string, and counts the braces in strings.

## Key results

- `Undisturbed`: the documents in which none of this matters
- `stored_of_undisturbed`: there every string is stored
- `undisturbed_of_stored`: and, when the other string is plain, only there
-/

namespace TrafficGen

open Json (Token Renders Spaced Encodes)

namespace ConfigParser

/-! ## Literals -/

/-- Every quote of a text has a backslash before it, where `prev` stands in front of the text. -/
def Escaped (prev : Char) (a : List Char) : Prop :=
  ∀ p q, a = p ++ '"' :: q → p.getLastD prev = '\\'

theorem escaped_of_encodes {body s : List Char} (h : Encodes body s) (prev : Char) :
    Escaped prev body := by
  intro p q hbody
  rw [List.getLastD_eq_getLast?, h.quote hbody, Option.getD_some]

theorem Escaped.append_left {prev : Char} {a b : List Char} (h : Escaped prev (a ++ b)) :
    Escaped prev a := by
  intro p q ha
  apply h p (q ++ b)
  rw [ha, List.append_assoc, List.cons_append]

theorem Escaped.append_of_not_mem {prev : Char} {a b : List Char} (h : Escaped prev a)
    (hb : '"' ∉ b) : Escaped prev (a ++ b) := by
  intro p q hab
  match List.append_eq_append_iff.mp hab with
  | .inl ⟨w, _, hw⟩ => exact absurd (hw ▸ List.mem_append_right w List.mem_cons_self) hb
  | .inr ⟨[], _, hw⟩ =>
    rw [List.nil_append] at hw
    exact absurd (hw ▸ List.mem_cons_self) hb
  | .inr ⟨d :: w, ha, hw⟩ =>
    obtain ⟨rfl, -⟩ := List.cons.inj hw
    exact h p w ha

/-- The scan for the closing quote passes over a text whose quotes are escaped. -/
theorem closeQuote_of_escaped {prev : Char} {a : List Char} (h : Escaped prev a) (s : List Char) :
    closeQuote prev (a ++ s) = (closeQuote (a.getLastD prev) s).map (a ++ ·) := by
  induction a generalizing prev with
  | nil => simp
  | cons c a ih =>
    have hrest : Escaped c a := by
      intro p q ha
      have := h (c :: p) q (by rw [ha, List.cons_append])
      rwa [List.getLastD_cons] at this
    have hc : ¬ (c = '"' ∧ prev ≠ '\\') := by
      intro ⟨hquote, hprev⟩
      exact hprev (h [] a (by rw [hquote, List.nil_append]))
    rw [List.cons_append, closeQuote, if_neg hc, ih hrest, List.getLastD_cons, Option.map_map]
    rfl

/-- The string a raw value is taken for. -/
def stringOf (raw : List Char) : Option String :=
  if raw.head? ≠ some '"' ∨ raw.length < 2 then none
  else some (String.ofList (raw.tail.take (raw.length - 2)))

theorem parseString_eq (s : List Char) (k : String) :
    parseString s k = stringOf (findRawValue s k) := rfl

theorem rawValue_quote {ws : List Char} (hws : ∀ c ∈ ws, Json.IsSpace c) (s : List Char) :
    rawValue (ws ++ '"' :: s) = (closeQuote '"' s).elim [] ('"' :: ·) := by
  have hdrop : (ws ++ '"' :: s).dropWhile isSpace = '"' :: s := dropWhile_space_append hws _
  unfold rawValue
  rw [hdrop]
  dsimp only
  rw [if_pos rfl]
  cases closeQuote '"' s with
  | none => rfl
  | some b => rfl

/-- A literal with an escape is stored longer than its string is, or not at all; then the string
    ends in a backslash. -/
theorem stringOf_rawValue {body s : List Char} (h : Encodes body s) (hback : '\\' ∈ body)
    {ws : List Char} (hws : ∀ c ∈ ws, Json.IsSpace c) (t : List Char) :
    (stringOf (rawValue (ws ++ '"' :: (body ++ '"' :: t))) = none ∧ '\\' ∈ s) ∨
      ∃ v, stringOf (rawValue (ws ++ '"' :: (body ++ '"' :: t))) = some v ∧
        s.length < v.toList.length := by
  rw [rawValue_quote hws, closeQuote_of_escaped (escaped_of_encodes h '"')]
  cases hclose : closeQuote (body.getLastD '"') ('"' :: t) with
  | none =>
    have hlast : body.getLastD '"' = '\\' := by
      by_contra hne
      rw [closeQuote, if_pos ⟨rfl, hne⟩] at hclose
      cases hclose
    refine .inl ⟨rfl, h.mem_of_getLast ?_⟩
    rw [List.getLastD_eq_getLast?] at hlast
    cases hbody : body.getLast? with
    | none =>
      rw [hbody] at hlast
      exact absurd hlast (by decide)
    | some d => rw [← hlast, hbody, Option.getD_some]
  | some u =>
    have hlen := h.length_lt hback
    have hu : u ≠ [] := by
      intro hnil
      rw [closeQuote, hnil] at hclose
      split at hclose
      · cases hclose
      · obtain ⟨v, -, hv⟩ := Option.map_eq_some_iff.mp hclose
        cases hv
    have hpos := List.length_pos_of_ne_nil hu
    refine .inr ⟨_, if_neg ?_, ?_⟩
    · simp only [Option.map_some, Option.elim_some, List.head?_cons, ne_eq, not_true_eq_false,
        false_or, List.length_cons, List.length_append]
      omega
    · simp only [Option.map_some, Option.elim_some, List.tail_cons, String.toList_ofList,
        List.length_take, List.length_cons, List.length_append]
      omega

/-- A literal that is cut before its quote is not stored. -/
theorem stringOf_rawValue_cut {a : List Char} (ha : Escaped '"' a) {ws : List Char}
    (hws : ∀ c ∈ ws, Json.IsSpace c) : stringOf (rawValue (ws ++ '"' :: a)) = none := by
  have hclose := closeQuote_of_escaped ha []
  rw [List.append_nil] at hclose
  rw [rawValue_quote hws, hclose]
  rfl

end ConfigParser

namespace AppConfig

open ConfigParser

/-! ## Searching where other members hold anything -/

/-- Only a string holds a quote in its tokens. -/
theorem Describes.quote {c : AppConfig} {m : String × Json} (h : c.Describes m)
    (hstr : ∀ b, .str b ∈ m.2.tokens → '"' ∉ b.toList) : ∀ t ∈ m.2.tokens, '"' ∉ t.inner := by
  have hnat : ∀ n, ∀ t ∈ (Json.nat n).tokens, '"' ∉ t.inner := by
    intro n t ht
    cases List.mem_singleton.mp ht
    exact not_mem_of_isWord (isWord_repr n) (by decide)
  intro t ht
  obtain ⟨k, v⟩ := m
  match h.value with
  | .inl ⟨n, hn⟩ => exact hnat n t (hn ▸ ht)
  | .inr (.inl hv) =>
    rw [hv] at hstr ht
    cases List.mem_singleton.mp ht
    exact hstr _ ht
  | .inr (.inr (.inl ⟨os, hv, hos⟩)) =>
    rw [hv] at ht
    exact (not_mem_tokens_items hos ht).1
  | .inr (.inr (.inr ⟨ns, hv, hns⟩)) =>
    dsimp only at hv hstr
    subst hv
    match Json.mem_tokens_obj ht with
    | .inl ⟨d, hd, heq⟩ =>
      have hquote : '"' ≠ d := fun h => absurd (h ▸ hd) (by decide)
      rw [heq]
      simpa [Token.inner] using hquote
    | .inr ⟨x, hx, .inl heq⟩ =>
      rw [hns.mem_iff, GRPCConfig.members, List.mem_pair] at hx
      have hname : x.1 ∈ topNames ++ grpcNames := by
        cases hx with
        | inl hx => simp [hx, topNames, grpcNames]
        | inr hx => simp [hx, topNames, grpcNames]
      rw [heq]
      exact (isIdent_of_searchNames hname).not_mem (by decide) (by decide)
    | .inr ⟨x, hx, .inr hxt⟩ =>
      have hx' := hx
      rw [hns.mem_iff, GRPCConfig.members, List.mem_pair] at hx'
      cases hx' with
      | inl heq =>
        subst heq
        cases List.mem_singleton.mp hxt
        exact hstr _ ht
      | inr heq =>
        subst heq
        exact hnat _ t hxt

section

variable {c : AppConfig} {ms : List (String × Json)} {jsonStr : String}

/-- A search for a member of the document ends at it, whatever its own value holds. -/
theorem search_member (hdoc : c.Document ms) {before after : List (String × Json)} {k : String}
    {v : Json} (heq : ms = before ++ (k, v) :: after)
    (hfront : ∀ m ∈ ms, m.1 ≠ k → ∀ b, .str b ∈ m.2.tokens → '"' ∉ b.toList ∧ b ≠ k)
    {s : List Char} (h : Renders (Json.obj ms).tokens s) :
    ∃ rest, findRawValue s k = rawValue rest ∧
      Renders (v.tokens ++ Json.tokensAfter after) rest := by
  have hmem : (k, v) ∈ ms := heq ▸ List.mem_append_right _ List.mem_cons_self
  have hname := (hdoc.describes _ hmem).name
  have hbefore : ∀ m ∈ before, c.Describes m ∧ m.1 ≠ k ∧
      ∀ b, .str b ∈ m.2.tokens → '"' ∉ b.toList ∧ b ≠ k := by
    intro m hm
    have hm' : m ∈ ms := heq ▸ List.mem_append_left _ hm
    have hnodup := hdoc.nodup
    rw [heq, List.map_append, List.map_cons] at hnodup
    have hmk : m.1 ≠ k := (List.nodup_append.mp hnodup).2.2 m.1 (List.mem_map_of_mem hm) k
      List.mem_cons_self
    exact ⟨hdoc.describes m hm', hmk, hfront m hm' hmk⟩
  have htokens := Json.tokens_obj_split before k v after
  rw [heq, htokens] at h
  have hspaced := Json.spaced_tokens (.obj (before ++ (k, v) :: after))
  rw [htokens] at hspaced
  apply findRawValue_of_front (isIdent_of_searchNames (List.mem_append_left _ hname)).isName hspaced
    ?_ ?_ h
  · intro t ht
    rcases Json.mem_tokensBefore ht with ⟨d, hd, heq⟩ | ⟨m, hm, heq | ht⟩
    · have hquote : '"' ≠ d := fun h => absurd (h ▸ hd) (by decide)
      rw [heq]
      simpa [Token.inner] using hquote
    · have hident := isIdent_of_searchNames (List.mem_append_left grpcNames (hbefore m hm).1.name)
      rw [heq]
      exact hident.not_mem (by decide) (by decide)
    · exact (hbefore m hm).1.quote (fun b hb => ((hbefore m hm).2.2 b hb).1) t ht
  · intro hk
    rcases Json.mem_tokensBefore hk with ⟨d, _, heq⟩ | ⟨m, hm, heq | ht⟩
    · cases heq
    · exact (hbefore m hm).2.1 (Token.str.inj heq).symm
    · exact ((hbefore m hm).2.2 k ht).2 rfl

/-- The name of the control plane's address is found in what is taken for its object, and the
    text behind its value's quote is the one that was taken. -/
theorem findRawValue_cut {xs : List (String × Json)} {n : Nat}
    (hxs : xs = [] ∨ xs = [("port", .nat n)]) {a s : List Char}
    (h : Renders (Json.tokensBefore xs ++ [.str "listen_address", .punct ':',
      .word (String.ofList ('"' :: a))]) s) :
    ∃ ws ws', (∀ c ∈ ws, Json.IsSpace c) ∧ (∀ c ∈ ws', Json.IsSpace c) ∧
      findRawValue s "listen_address" = rawValue (ws ++ '"' :: (a ++ ws')) := by
  have hname : IsName "listen_address" :=
    (isIdent_of_searchNames (k := "listen_address") (by decide)).isName
  have hword : ∀ w, Spaced (Json.tokensBefore xs ++
      [.str "listen_address", .punct ':', .word w]) := by
    intro w
    have hspaced := Json.spaced_tokens (.obj (xs ++ ("listen_address", .word w) :: []))
    rw [Json.tokens_obj_split] at hspaced
    have hsplit : Json.tokensBefore xs ++ .str "listen_address" :: .punct ':' ::
        ((Json.word w).tokens ++ Json.tokensAfter []) =
        (Json.tokensBefore xs ++ [.str "listen_address", .punct ':', .word w]) ++ [.punct '}'] := by
      simp [Json.tokens, Json.tokensAfter, Json.memberTokens]
    rw [hsplit] at hspaced
    exact (List.isChain_append.mp hspaced).1
  have hport : ∀ m ∈ xs, m = ("port", .nat n) := by
    cases hxs with
    | inl heq => exact heq ▸ List.forall_mem_nil _
    | inr heq => exact heq ▸ List.forall_mem_singleton.mpr rfl
  have hfront : ∀ t ∈ Json.tokensBefore xs, (∃ d, Json.IsPunct d ∧ t = .punct d) ∨
      t = .str "port" ∨ t = .word n.repr := by
    intro t ht
    rcases Json.mem_tokensBefore ht with hpunct | ⟨m, hm, heq | ht⟩
    · exact .inl hpunct
    · rw [hport m hm] at heq
      exact .inr (.inl heq)
    · rw [hport m hm] at ht
      exact .inr (.inr (List.mem_singleton.mp ht))
  have hquote : ∀ t ∈ Json.tokensBefore xs, '"' ∉ t.inner := by
    have hport : '"' ∉ (Token.str "port").inner := by decide
    intro t ht
    rcases hfront t ht with ⟨d, hd, heq⟩ | heq | heq
    · have hquote : '"' ≠ d := fun h => absurd (h ▸ hd) (by decide)
      rw [heq]
      simpa [Token.inner] using hquote
    · exact heq ▸ hport
    · exact heq ▸ not_mem_of_isWord (isWord_repr n) (by decide)
  have hmem : .str "listen_address" ∉ Json.tokensBefore xs := by
    intro hmem
    rcases hfront _ hmem with ⟨_, _, heq⟩ | heq | heq
    · cases heq
    · exact absurd (Token.str.inj heq) (by decide)
    · cases heq
  obtain ⟨rest, hfind, hrest⟩ := findRawValue_of_front hname (hword _) hquote hmem h
  cases hrest with
  | @cons ws _ _ ws' hws hws' =>
    cases hws' with
    | nil hws' =>
      refine ⟨ws, ws', hws, hws', ?_⟩
      rw [hfind]
      simp [Token.chars]

/-- A text that opens or closes a brace behind the first holds one. -/
theorem brace_of_bracesAfter {a : List Char} (h : bracesAfter 1 a ≠ some 1) :
    '{' ∈ a ∨ '}' ∈ a := by
  by_contra hnone
  rw [not_or] at hnone
  exact h (bracesAfter_of_not_mem hnone.1 hnone.2 1)

/-- A brace of a literal is one of its string. -/
theorem brace_of_encodes {body str : List Char} (h : Encodes body str)
    (hbody : '{' ∈ body ∨ '}' ∈ body) : '{' ∈ str ∨ '}' ∈ str :=
  hbody.imp (fun hd => h.mem_of_mem hd (by decide) (by decide) (by decide))
    fun hd => h.mem_of_mem hd (by decide) (by decide) (by decide)

/-- A literal with an escape or with braces that the parser stumbles over is not stored. -/
theorem address_ne_of_parts {xs ys : List (String × Json)} {n : Nat}
    (hxs : xs = [] ∨ xs = [("port", .nat n)]) {body str d : String} {us : List Token}
    {s ws x y r : List Char} (hparts : StringParts xs "listen_address" body ys us s ws x y r)
    (henc : Encodes body.toList str.toList)
    (hd : '\\' ∉ d.toList ∧ '{' ∉ d.toList ∧ '}' ∉ d.toList)
    (hbad : '\\' ∈ body.toList ∨ bracesAfter 1 body.toList = none ∨ rawValue s = []) :
    (if (rawValue s).head? = some '{' then (parseString (rawValue s) "listen_address").getD d
      else d) ≠ str := by
  have hbrace : bracesAfter 1 body.toList ≠ some 1 → d ≠ str := by
    intro hne heq
    cases brace_of_encodes henc (brace_of_bracesAfter hne) with
    | inl h => exact hd.2.1 (heq ▸ h)
    | inr h => exact hd.2.2 (heq ▸ h)
  cases hdepth : bracesAfter 1 body.toList with
  | none =>
    -- the string closes the object's brace: its value ends with the text that was taken
    obtain ⟨a, b, hab, hhead, hrender⟩ := hparts.rawValue_cut hdepth
    obtain ⟨ws, ws', hws, hws', hfind⟩ := findRawValue_cut hxs hrender
    have hescaped : Escaped '"' (a ++ ws') := by
      have hbody := escaped_of_encodes henc '"'
      rw [hab] at hbody
      exact hbody.append_left.append_of_not_mem fun hquote =>
        absurd (hws' _ hquote) (by simp [Json.IsSpace])
    rw [if_pos hhead, parseString_eq, hfind, stringOf_rawValue_cut hescaped hws]
    exact hbrace (by simp [hdepth])
  | some depth =>
    have hraw := hparts.rawValue_eq hdepth
    cases hclose : closeBracket '{' '}' depth ('}' :: r) with
    | none =>
      -- nothing is taken for the object, and the default stays
      have hne : bracesAfter 1 body.toList ≠ some 1 := by
        intro hone
        obtain rfl : depth = 1 := Option.some.inj (hdepth.symm.trans hone)
        rw [closeBracket, if_neg (by decide), if_pos rfl, if_pos rfl] at hclose
        cases hclose
      rw [hraw, hclose, Option.elim_none, if_neg (by simp)]
      exact hbrace hne
    | some b =>
      -- the whole string is taken, and has an escape the parser does not read
      rw [hclose, Option.elim_some] at hraw
      have hback : '\\' ∈ body.toList := by
        rcases hbad with hback | hnone | hnil
        · exact hback
        · cases hdepth.symm.trans hnone
        · cases hraw.symm.trans hnil
      obtain ⟨z, hz⟩ := hparts.quote
      obtain ⟨ws, ws', hws, hws', hfind⟩ := findRawValue_cut hxs (hparts.cut _)
      rw [← hraw, hz] at hfind
      simp only [List.append_assoc, List.cons_append] at hfind
      rw [if_pos (by rw [hraw]; rfl), parseString_eq, hfind]
      cases stringOf_rawValue henc hback hws (z ++ (b ++ ws')) with
      | inl h =>
        rw [h.1, Option.getD_none]
        exact fun heq => hd.1 (heq ▸ h.2)
      | inr h =>
        obtain ⟨v, hv, hlen⟩ := h
        rw [hv]
        intro heq
        exact absurd hlen (by rw [← heq]; exact Nat.lt_irrefl _)

/-- The strings that a search for `k` comes by are no obstacle when those of other members are
    plain. -/
theorem Document.front (hdoc : c.Document ms) {k : String} (hk : k ∈ topNames)
    (hpath : k ≠ "hugepage_path" → "hugepage_path" ∈ ms.map Prod.fst → IsPlain c.hugepagePath)
    (haddress : k ≠ "grpc_config" → "grpc_config" ∈ ms.map Prod.fst →
      IsPlain c.grpcConfig.listenAddress) :
    ∀ m ∈ ms, m.1 ≠ k → ∀ b, .str b ∈ m.2.tokens → '"' ∉ b.toList ∧ b ≠ k := by
  have hdisjoint : ∀ k ∈ topNames, k ∉ grpcNames ++ entryNames := by decide
  have hplain : ∀ {b}, IsPlain b → '"' ∉ b.toList ∧ b ≠ k := fun hb =>
    ⟨fun hquote => (hb.chars _ hquote).1 rfl, fun heq => hb.notName (by
      rw [heq, List.append_assoc]
      exact List.mem_append_left _ hk)⟩
  intro m hm hmk b hb
  match (hdoc.describes m hm).str_mem_tokens hb with
  | .inl hname =>
    have hident : IsIdent b := isIdent_of_mem b (by
      rw [List.append_assoc]
      exact List.mem_append_right _ hname)
    exact ⟨hident.not_mem (by decide) (by decide), fun heq => hdisjoint k hk (heq ▸ hname)⟩
  | .inr (.inl ⟨hmp, heq⟩) =>
    rw [heq]
    exact hplain (hpath (fun h => hmk (hmp.trans h.symm)) (hmp ▸ List.mem_map_of_mem hm))
  | .inr (.inr ⟨hmp, heq⟩) =>
    rw [heq]
    exact hplain (haddress (fun h => hmk (hmp.trans h.symm)) (hmp ▸ List.mem_map_of_mem hm))

/-- A path with an escape is not stored. -/
theorem hugepagePath_ne (hdoc : c.Document ms) (hmem : "hugepage_path" ∈ ms.map Prod.fst)
    (haddress : "grpc_config" ∈ ms.map Prod.fst → IsPlain c.grpcConfig.listenAddress)
    {path : String} (henc : Encodes c.hugepagePath.toList path.toList)
    (hback : '\\' ∈ c.hugepagePath.toList) {s : List Char} (h : Renders (Json.obj ms).tokens s) :
    (parseString s "hugepage_path").getD getDefaultConfig.hugepagePath ≠ path := by
  obtain ⟨⟨k, v⟩, hm, rfl⟩ := List.mem_map.mp hmem
  obtain rfl : v = .str c.hugepagePath := by simpa using (hdoc.describes _ hm).cases
  obtain ⟨before, after, heq⟩ := List.append_of_mem hm
  obtain ⟨rest, hfind, hrest⟩ := search_member hdoc heq
    (hdoc.front (by decide) (fun h => absurd rfl h) fun _ => haddress) h
  rw [parseString_eq, hfind]
  cases hrest with
  | @cons ws _ _ t hws ht =>
    simp only [Token.chars, List.cons_append, List.append_assoc, List.nil_append]
    cases stringOf_rawValue henc hback hws t with
    | inl hnone =>
      have hdefault : '\\' ∉ getDefaultConfig.hugepagePath.toList := by decide
      rw [hnone.1, Option.getD_none]
      exact fun heq => hdefault (heq ▸ hnone.2)
    | inr hlong =>
      obtain ⟨v, hv, hlen⟩ := hlong
      rw [hv]
      intro heq
      exact absurd hlen (by rw [← heq]; exact Nat.lt_irrefl _)

/-- An address with an escape, or whose braces end its object elsewhere, is not stored. -/
theorem address_ne (hdoc : c.Document ms) (hmem : "grpc_config" ∈ ms.map Prod.fst)
    (hpath : "hugepage_path" ∈ ms.map Prod.fst → IsPlain c.hugepagePath) {address : String}
    (henc : Encodes c.grpcConfig.listenAddress.toList address.toList)
    (hbad : '\\' ∈ c.grpcConfig.listenAddress.toList ∨ ¬ c.BracesClosed (ms.map Prod.fst))
    {s : List Char} (h : Renders (Json.obj ms).tokens s) :
    (if (findRawValue s "grpc_config").head? = some '{' then
      (parseString (findRawValue s "grpc_config") "listen_address").getD
        getDefaultConfig.grpcConfig.listenAddress
    else getDefaultConfig.grpcConfig.listenAddress) ≠ address := by
  obtain ⟨⟨k, v⟩, hm, rfl⟩ := List.mem_map.mp hmem
  obtain ⟨ns, rfl, hns⟩ : ∃ ns, v = .obj ns ∧ ns.Perm c.grpcConfig.members := by
    simpa using (hdoc.describes _ hm).cases
  obtain ⟨before, after, heq⟩ := List.append_of_mem hm
  obtain ⟨rest, hfind, hrest⟩ := search_member hdoc heq
    (hdoc.front (by decide) (fun _ => hpath) fun h => absurd rfl h) h
  obtain ⟨xs, ys, -, hxs, ws, x, y, r, hparts⟩ := exists_grpcParts hns hrest
  have hpathBraces : "hugepage_path" ∈ ms.map Prod.fst →
      '{' ∉ c.hugepagePath.toList ∧ '}' ∉ c.hugepagePath.toList := fun hmem =>
    ⟨fun hd => ((hpath hmem).chars _ hd).2.2.1 rfl, fun hd => ((hpath hmem).chars _ hd).2.2.2 rfl⟩
  rw [hfind]
  apply address_ne_of_parts hxs hparts henc (by decide)
  cases hbad with
  | inl hback => exact .inl hback
  | inr hbraces =>
    right
    cases hdepth : bracesAfter 1 c.grpcConfig.listenAddress.toList with
    | none => exact .inl rfl
    | some depth =>
      have hpos := bracesAfter_pos (by decide) hdepth
      have hone : depth ≠ 1 := fun h => hbraces fun _ => .inl (h ▸ hdepth)
      have htwo : depth ≠ 2 := fun h => hbraces fun _ => .inr ⟨h ▸ hdepth, hpathBraces⟩
      obtain ⟨d, rfl⟩ : ∃ d, depth = d + 3 := ⟨depth - 3, by omega⟩
      exact .inr (hparts.rawValue_unclosed hdepth (hdoc.braceNeutral_after heq hpathBraces)
        (tokensAfter_eq after))

end

/-- The configuration whose strings are those that its literals stand for. -/
def decoded (c : AppConfig) (path address : String) : AppConfig :=
  { c with hugepagePath := path, grpcConfig := { c.grpcConfig with listenAddress := address } }

/-- The document's strings are written without escapes, close their braces, and lead no search to
    the member of another name, unless its value is the right one by chance. -/
structure Undisturbed (c : AppConfig) (ms : List (String × Json)) : Prop where
  verbatim : Verbatim ms
  braces : c.BracesClosed (ms.map Prod.fst)
  keys : c.Found ms

section

variable {c : AppConfig} {ms : List (String × Json)} {jsonStr path address : String}

theorem Document.path_mem_tokens (hdoc : c.Document ms)
    (hmem : "hugepage_path" ∈ ms.map Prod.fst) : .str c.hugepagePath ∈ (Json.obj ms).tokens := by
  obtain ⟨⟨k, v⟩, hm, rfl⟩ := List.mem_map.mp hmem
  obtain rfl : v = .str c.hugepagePath := by simpa using (hdoc.describes _ hm).cases
  exact Json.mem_tokens_of_mem hm List.mem_cons_self

theorem Document.address_mem_tokens (hdoc : c.Document ms)
    (hmem : "grpc_config" ∈ ms.map Prod.fst) :
    .str c.grpcConfig.listenAddress ∈ (Json.obj ms).tokens := by
  obtain ⟨⟨k, v⟩, hm, rfl⟩ := List.mem_map.mp hmem
  obtain ⟨ns, rfl, hns⟩ : ∃ ns, v = .obj ns ∧ ns.Perm c.grpcConfig.members := by
    simpa using (hdoc.describes _ hm).cases
  have hmember : ("listen_address", .str c.grpcConfig.listenAddress) ∈ ns :=
    hns.mem_iff.mpr List.mem_cons_self
  exact Json.mem_tokens_of_mem hm (Json.mem_tokens_of_mem hmember List.mem_cons_self)

/-- A quote or a backslash in a literal means that there is a backslash. -/
theorem backslash_of_encodes {body s : List Char} (h : Encodes body s) {d : Char} (hd : d ∈ body)
    (hbad : d = '"' ∨ d = '\\') : '\\' ∈ body := by
  cases hbad with
  | inl hquote =>
    obtain ⟨p, q, rfl⟩ := List.append_of_mem (hquote ▸ hd)
    exact List.mem_append_left _ (List.mem_of_getLast? (h.quote rfl))
  | inr hback => exact hback ▸ hd

/-- Literals without escapes stand for themselves. -/
theorem withDefaults_decoded {names : List String}
    (hpath : "hugepage_path" ∈ names → c.hugepagePath = path)
    (haddress : "grpc_config" ∈ names → c.grpcConfig.listenAddress = address) :
    (c.decoded path address).withDefaults names = c.withDefaults names := by
  unfold withDefaults decoded
  simp only [AppConfig.mk.injEq, true_and, and_true]
  constructor
  · split
    · next hmem => exact (hpath hmem).symm
    · rfl
  · split
    · next hmem => rw [← haddress hmem]
    · rfl

/-- In an undisturbed document the literals are the strings. -/
theorem Verbatim.withDefaults_decoded (hdoc : c.Document ms) (hverb : Verbatim ms)
    (hpath : Encodes c.hugepagePath.toList path.toList)
    (haddress : Encodes c.grpcConfig.listenAddress.toList address.toList) :
    (c.decoded path address).withDefaults (ms.map Prod.fst) = c.withDefaults (ms.map Prod.fst) := by
  apply AppConfig.withDefaults_decoded
  · intro hmem
    have hback : '\\' ∉ c.hugepagePath.toList := fun hd =>
      (hverb _ (hdoc.path_mem_tokens hmem) _ hd).2 rfl
    exact String.toList_inj.mp (hpath.eq_of_no_escape hback)
  · intro hmem
    have hback : '\\' ∉ c.grpcConfig.listenAddress.toList := fun hd =>
      (hverb _ (hdoc.address_mem_tokens hmem) _ hd).2 rfl
    exact String.toList_inj.mp (haddress.eq_of_no_escape hback)

theorem stored_of_undisturbed (hpath : Encodes c.hugepagePath.toList path.toList)
    (haddress : Encodes c.grpcConfig.listenAddress.toList address.toList) (hdoc : c.Document ms)
    (h : Renders (Json.obj ms).tokens jsonStr.toList) (hms : c.Undisturbed ms) :
    parseFromString jsonStr = some ((c.decoded path address).withDefaults (ms.map Prod.fst)) := by
  rw [parseFromString_eq_read hdoc hms.verbatim hms.braces h, (read_target_iff hdoc).mpr hms.keys,
    read_lookup hdoc, hms.verbatim.withDefaults_decoded hdoc hpath haddress]

/-- What is stored, field by field. -/
theorem fields_of_stored {names : List String}
    (hstored : parseFromString jsonStr = some ((c.decoded path address).withDefaults names)) :
    ("hugepage_path" ∈ names →
      (parseString jsonStr.toList "hugepage_path").getD getDefaultConfig.hugepagePath = path) ∧
    ("grpc_config" ∈ names →
      (if (findRawValue jsonStr.toList "grpc_config").head? = some '{' then
        (parseString (findRawValue jsonStr.toList "grpc_config") "listen_address").getD
          getDefaultConfig.grpcConfig.listenAddress
      else getDefaultConfig.grpcConfig.listenAddress) = address) := by
  have hcfg := Option.some.inj hstored
  constructor
  · intro hmem
    have := congrArg AppConfig.hugepagePath hcfg
    simpa [withDefaults, decoded, hmem] using this
  · intro hmem
    have := congrArg (fun c : AppConfig => c.grpcConfig.listenAddress) hcfg
    dsimp only at this
    rw [apply_ite GRPCConfig.listenAddress] at this
    simpa [withDefaults, decoded, hmem] using this

/-- A document that is stored right, one of whose strings is plain, is undisturbed. -/
theorem undisturbed_of_stored (hpath : Encodes c.hugepagePath.toList path.toList)
    (haddress : Encodes c.grpcConfig.listenAddress.toList address.toList) (hdoc : c.Document ms)
    (h : Renders (Json.obj ms).tokens jsonStr.toList)
    (hother : ("hugepage_path" ∈ ms.map Prod.fst → IsPlain c.hugepagePath) ∨
      ("grpc_config" ∈ ms.map Prod.fst → IsPlain c.grpcConfig.listenAddress))
    (hstored :
      parseFromString jsonStr = some ((c.decoded path address).withDefaults (ms.map Prod.fst))) :
    c.Undisturbed ms := by
  obtain ⟨hstoredPath, hstoredAddress⟩ := fields_of_stored hstored
  have hplain : ∀ {b : String}, IsPlain b → ∀ d ∈ b.toList, d ≠ '"' ∧ d ≠ '\\' :=
    fun hb d hd => ⟨(hb.chars d hd).1, (hb.chars d hd).2.1⟩
  have hneutral : ∀ {b : String}, IsPlain b → bracesAfter 1 b.toList = some 1 := fun hb =>
    bracesAfter_of_not_mem (fun hd => (hb.chars _ hd).2.2.1 rfl)
      (fun hd => (hb.chars _ hd).2.2.2 rfl) 1
  have hnoEscape : ∀ {b : List Char}, '\\' ∉ b → (∀ d ∈ b, d = '"' ∨ d = '\\' → '\\' ∈ b) →
      ∀ d ∈ b, d ≠ '"' ∧ d ≠ '\\' := fun hback hb d hd =>
    ⟨fun hq => hback (hb d hd (.inl hq)), fun hq => hback (hb d hd (.inr hq))⟩
  have hverbBraces : Verbatim ms ∧ c.BracesClosed (ms.map Prod.fst) := by
    cases hother with
    | inl hplainPath =>
      have hgood : "grpc_config" ∈ ms.map Prod.fst →
          '\\' ∉ c.grpcConfig.listenAddress.toList ∧ c.BracesClosed (ms.map Prod.fst) := by
        intro hmem
        by_contra hbad
        rw [not_and_or, not_not] at hbad
        exact address_ne hdoc hmem hplainPath haddress hbad h (hstoredAddress hmem)
      refine ⟨hdoc.verbatim (fun hmem => hplain (hplainPath hmem)) fun hmem => ?_,
        fun hmem => (hgood hmem).2 hmem⟩
      exact hnoEscape (hgood hmem).1 fun d hd => backslash_of_encodes haddress hd
    | inr hplainAddress =>
      refine ⟨hdoc.verbatim (fun hmem => ?_) fun hmem => hplain (hplainAddress hmem),
        fun hmem => .inl (hneutral (hplainAddress hmem))⟩
      apply hnoEscape ?_ fun d hd => backslash_of_encodes hpath hd
      intro hback
      exact hugepagePath_ne hdoc hmem hplainAddress hpath hback h (hstoredPath hmem)
  obtain ⟨hverb, hbraces⟩ := hverbBraces
  refine ⟨hverb, hbraces, (read_target_iff hdoc).mp ?_⟩
  rw [parseFromString_eq_read hdoc hverb hbraces h,
    hverb.withDefaults_decoded hdoc hpath haddress, ← read_lookup hdoc] at hstored
  exact Option.some.inj hstored

end

end AppConfig

namespace ConfigParser

open AppConfig

end ConfigParser

end TrafficGen
