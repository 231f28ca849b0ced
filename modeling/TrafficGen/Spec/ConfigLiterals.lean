import TrafficGen.Spec.ConfigStrings

/-!
# Searching past string literals

A search for a quoted key in an object whose strings are any literals. It can end at the quote
that closes a literal, where the literal is the key or has an escaped quote and the key last; it
then goes on to the value of the member written next.

## Key results

- `search_literal`, `skipFree_literal`: the literals a search ends in and those it passes
- `Laid.offers`: a search for `k` offers the value of the member `sought k` picks
-/

namespace TrafficGen.ConfigParser

open Json (Token Renders Spaced IsPunct)

/-! ## One literal -/

/-- A search for `k` ends in the value: it is a literal that is the key, or that has an escaped
    quote and the key last. -/
def stops (k : String) : Json → Bool
  | .str body => ('"' :: k.toList) <:+ ('"' :: body.toList)
  | _ => false

/-- A name that is not a part of an escape. -/
def IsLiteralName (k : String) : Prop := IsName k ∧ '\\' ∉ k.toList

variable {k : String}

/-- Behind a quote of a literal the key and a quote follow only when the key is all that is left
    of it. -/
theorem eq_key_of_prefix (hk : IsLiteralName k) {body u w s : List Char}
    (hbody : Escaped '"' body) (hsplit : '"' :: body = u ++ '"' :: w)
    (h : k.toList ++ ['"'] <+: w ++ '"' :: s) : w = k.toList := by
  have hquote := hk.1.1.1
  by_cases hw : '"' ∈ w
  · obtain ⟨p, q, rfl, hp⟩ := List.eq_append_cons_of_mem hw
    rw [List.append_assoc, List.cons_append] at h
    have hkey := List.eq_of_marked_prefix hquote hp h
    -- the next quote of the literal is escaped, so the key would end in a backslash
    have hlast : p.getLastD '"' = '\\' := by
      cases u with
      | nil => exact hbody p q (List.cons.inj hsplit).2
      | cons d u =>
        have := hbody (u ++ '"' :: p) q (by rw [(List.cons.inj hsplit).2]; simp)
        simpa [List.getLastD_eq_getLast?, List.getLast?_append, List.getLast?_cons] using this
    rw [List.getLastD_eq_getLast?] at hlast
    cases hp' : p.getLast? with
    | none =>
      rw [hp'] at hlast
      exact absurd hlast (by decide)
    | some d =>
      rw [hp', Option.getD_some] at hlast
      exact absurd (hkey ▸ hlast ▸ List.mem_of_getLast? hp') hk.2
  · exact (List.eq_of_marked_prefix hquote hw h).symm

/-- No occurrence of the key starts in a literal that does not stop it. -/
theorem skipFree_literal (hk : IsLiteralName k) {body : String} (hbody : Escaped '"' body.toList)
    (hstops : stops k (.str body) = false) {s : List Char}
    (hs : ¬ k.toList ++ ['"'] <+: s) :
    List.SkipFree (Token.str k).chars (Token.str body).chars s := by
  have hchars : (Token.str body).chars = ('"' :: body.toList) ++ ['"'] := rfl
  rw [hchars]
  apply List.SkipFree.append
  · -- at the opening quote or one inside, the key would be all that is left of the literal
    intro u v huv hv hstart
    cases v with
    | nil => exact hv rfl
    | cons d w =>
      obtain ⟨rfl, hrest⟩ := List.cons_prefix_cons.mp hstart
      have hkey := eq_key_of_prefix hk hbody huv hrest
      have hsuffix : ('"' :: k.toList) <:+ ('"' :: body.toList) := ⟨u, by rw [huv, hkey]⟩
      exact absurd hsuffix (by simpa [stops] using hstops)
  · -- at the closing quote, it would stand behind the literal
    apply List.skipFree_cons.mpr
    refine ⟨?_, List.skipFree_nil _ s⟩
    intro hstart
    exact hs (List.cons_prefix_cons.mp hstart).2

/-- A search ends at the last quote of the key in a literal that stops it. -/
theorem search_literal (hk : IsLiteralName k) {body : String} (hbody : Escaped '"' body.toList)
    (hstops : stops k (.str body) = true) (s : List Char) :
    List.search (Token.str k).chars ((Token.str body).chars ++ s) =
      some ((Token.str k).chars ++ s) := by
  have hsuffix : ('"' :: k.toList) <:+ ('"' :: body.toList) := by simpa [stops] using hstops
  obtain ⟨p, hp⟩ := hsuffix
  have htext : (Token.str body).chars ++ s = p ++ ((Token.str k).chars ++ s) := by
    simp only [Token.chars, ← List.cons_append, ← hp, List.append_assoc]
  -- a key that starts earlier would hold the quote in front of this one
  have hskip : List.SkipFree (Token.str k).chars p ((Token.str k).chars ++ s) := by
    intro u v huv hv hstart
    cases v with
    | nil => exact hv rfl
    | cons d w =>
      obtain ⟨rfl, hrest⟩ := List.cons_prefix_cons.mp hstart
      have hsplit : '"' :: body.toList = u ++ '"' :: (w ++ '"' :: k.toList) := by
        rw [← hp, huv, List.append_assoc, List.cons_append]
      have hkey := eq_key_of_prefix hk hbody hsplit (s := s) (by
        simpa [Token.chars] using hrest)
      have hlen := congrArg List.length hkey
      simp only [List.length_append, List.length_cons] at hlen
      omega
  rw [htext, List.search_skip hskip, List.search_of_prefix (List.prefix_append _ s)]

/-! ## Members laid out as tokens -/

/-- The member whose value a search for `k` ends at: the one `k` names, or the one behind a literal
    that stops it, whichever comes first. -/
def sought (k : String) : List (String × Json) → Option (String × Json)
  | [] => none
  | m :: es => if m.1 = k then some m else if stops k m.2 then es.head? else sought k es

/-- The tokens in which these members are written one behind the other, those of an inner object
    behind the member it is the value of. -/
inductive Laid : List (String × Json) → List Token → Prop
  | nil : Laid [] []
  | punct {c : Char} {es : List (String × Json)} {ts : List Token} (hc : IsPunct c) (hne : c ≠ ':')
      (h : Laid es ts) : Laid es (.punct c :: ts)
  | leaf {n : String} {v : Json} {es : List (String × Json)} {ts : List Token}
      (hinner : membersOf v = []) (hends : Ends ts) (h : Laid es ts) :
      Laid ((n, v) :: es) (.str n :: .punct ':' :: (v.tokens ++ ts))
  | inner {n : String} {ns es : List (String × Json)} {ts : List Token} (hends : Ends ts)
      (h : Laid es ((Json.obj ns).tokens ++ ts)) :
      Laid ((n, .obj ns) :: es) (.str n :: .punct ':' :: ((Json.obj ns).tokens ++ ts))

/-- A search for `k` can pass the value: a literal, or one without strings other than names. -/
def Passes (k : String) : Json → Prop
  | .str body => Escaped '"' body.toList
  | v => ∀ t ∈ v.tokens, '"' ∉ t.inner ∧ t ≠ .str k

theorem followsAny_of_ends {ts : List Token} (h : Ends ts) : FollowsAny ts := by
  obtain ⟨c, us, hc, rfl⟩ := h
  apply followsAny_punct
  rcases hc with rfl | rfl
  all_goals decide

namespace Laid

variable {es : List (String × Json)} {ts : List Token}

theorem spaced (h : Laid es ts) : Spaced ts := by
  induction h with
  | nil => exact List.isChain_nil
  | punct _ _ _ ih => exact Json.spaced_punct_cons.mpr ih
  | leaf _ hends _ ih => exact spaced_member ih (followsAny_of_ends hends)
  | inner _ _ ih =>
    apply List.isChain_cons.mpr
    refine ⟨?_, Json.spaced_punct_cons.mpr ih⟩
    intro u hu
    cases Option.mem_some.mp hu
    exact Json.mayPrecede_punct (by decide) _

/-- The next colon belongs to the first member. -/
theorem offers_head (h : Laid es ts) (hes : ∀ m ∈ es, IsName m.1) {s : List Char}
    (hs : Renders ts s) : Offers (fun _ us => Ends us) (behindColon s) es.head? := by
  induction h generalizing s with
  | nil =>
    cases hs with
    | nil hws =>
      unfold behindColon
      rw [List.search_singleton_eq_none (not_mem_of_space hws Json.not_isSpace_colon)]
      exact .none
  | punct _ hne _ ih =>
    cases hs with
    | @cons ws _ _ rest hws hrest =>
      rw [behindColon_append (not_mem_of_space hws Json.not_isSpace_colon),
        behindColon_append (by simpa [Token.chars] using hne.symm)]
      exact ih hes hrest
  | leaf _ hends _ _ => exact offers_value (hes _ List.mem_cons_self) hends hs
  | inner hends _ _ => exact offers_value (hes _ List.mem_cons_self) hends hs

/-- What a search finds in a literal and behind it. -/
theorem offers_literal (hk : IsLiteralName k) {body : String} (hbody : Escaped '"' body.toList)
    (hends : Ends ts)
    (hhead : ∀ {s}, Renders ts s → Offers (fun _ us => Ends us) (behindColon s) es.head?)
    (hkey : ∀ {s}, Renders ts s → Offers (fun _ us => Ends us) (findRawValue s k) (sought k es))
    {s : List Char} (hs : Renders (.str body :: ts) s) :
    Offers (fun _ us => Ends us) (findRawValue s k)
      (if stops k (.str body) then es.head? else sought k es) := by
  cases hs with
  | @cons ws _ _ rest hws hrest =>
    have hblank : List.SkipFree (Token.str k).chars ws ((Token.str body).chars ++ rest) :=
      List.skipFree_of_not_mem (not_mem_of_space hws Json.not_isSpace_quote) _
    cases hstops : stops k (.str body) with
    | true =>
      have hcolon : ':' ∉ (Token.str k).chars := by simpa [Token.chars] using hk.1.2
      rw [findRawValue_eq, List.search_skip hblank, search_literal hk hbody hstops, if_pos rfl]
      dsimp only
      rw [behindColon_append hcolon]
      exact hhead hrest
    | false =>
      have hbehind : ¬ k.toList ++ ['"'] <+: rest :=
        hrest.head_of_mayPrecede hk.1.1 (fun u hu => followsAny_of_ends hends (.str body) u hu) _
      have hskip := skipFree_literal hk hbody hstops hbehind
      rw [findRawValue_eq, List.search_skip hblank, List.search_skip hskip, if_neg (by simp)]
      exact hkey hrest

/-- A search for `k` offers the value of the member it is after. -/
theorem offers (h : Laid es ts) (hk : IsLiteralName k)
    (hes : ∀ m ∈ es, IsName m.1 ∧ (membersOf m.2 = [] → Passes k m.2)) {s : List Char}
    (hs : Renders ts s) :
    Offers (fun _ us => Ends us) (findRawValue s k) (sought k es) := by
  -- the tokens are passed one part at a time, as far as the search goes
  induction h generalizing s with
  | nil =>
    rw [findRawValue_eq, hs.search_str_eq_none hk.1.1 (List.forall_mem_nil _) List.isChain_nil
      List.not_mem_nil]
    exact .none
  | @punct c es ts hc hne h ih =>
    have hquote : '"' ≠ c := fun h => absurd (h ▸ hc) (by decide)
    obtain ⟨b, hb, hrest⟩ := @findRawValue_skip k hk.1 [.punct c] ts
      (by simpa [Token.inner] using hquote) (by simp) (Json.spaced_punct_cons.mpr h.spaced) s hs
    rw [hb]
    exact ih hes hrest
  | @leaf n v es ts hinner hends h ih =>
    have hspaced := (Laid.leaf (n := n) hinner hends h).spaced
    obtain ⟨⟨hn, hpasses⟩, hes_tail⟩ := List.forall_mem_cons.mp hes
    by_cases hnk : n = k
    · subst hnk
      rw [sought, if_pos rfl]
      exact offers_named hn hends hspaced hs
    · obtain ⟨b, hb, hrest⟩ := findRawValue_name hk.1 hn hnk hspaced hs
      have hother : (∀ t ∈ v.tokens, '"' ∉ t.inner ∧ t ≠ .str k) →
          Offers (fun _ us => Ends us) (findRawValue b k) (sought k es) := by
        intro htokens
        have hspaced' : Spaced (v.tokens ++ ts) :=
          Json.spaced_punct_cons.mp (List.isChain_cons.mp hspaced).2
        obtain ⟨b', hb', hrest'⟩ := findRawValue_skip hk.1 (fun t ht => (htokens t ht).1)
          (fun hmem => (htokens _ hmem).2 rfl) hspaced' hrest
        rw [hb']
        exact ih hes_tail hrest'
      rw [hb, sought, if_neg hnk]
      cases v with
      | str body =>
        -- only here can a search end at what is no name
        exact offers_literal hk (hpasses hinner) hends
          (fun hs => h.offers_head (fun m hm => (hes_tail m hm).1) hs) (fun hs => ih hes_tail hs)
          hrest
      | word w => exact hother (hpasses hinner)
      | arr vs => exact hother (hpasses hinner)
      | obj ns => exact hother (hpasses hinner)
  | @inner n ns es ts hends h ih =>
    have hspaced := (Laid.inner (n := n) hends h).spaced
    obtain ⟨⟨hn, -⟩, hes⟩ := List.forall_mem_cons.mp hes
    by_cases hnk : n = k
    · subst hnk
      rw [sought, if_pos rfl]
      exact offers_named hn hends hspaced hs
    · obtain ⟨b, hb, hrest⟩ := findRawValue_name hk.1 hn hnk hspaced hs
      rw [hb, sought, if_neg hnk]
      exact ih hes hrest

end Laid

/-! ## Objects laid out -/

/-- A member that can be laid out in front of any others. -/
def Layable (m : String × Json) : Prop :=
  ∀ es ts, Ends ts → Laid es ts →
    Laid (m :: (membersOf m.2 ++ es)) (.str m.1 :: .punct ':' :: (m.2.tokens ++ ts))

theorem layable_leaf {m : String × Json} (hinner : membersOf m.2 = []) : Layable m := by
  intro es ts hends h
  rw [hinner, List.nil_append]
  exact .leaf hinner hends h

/-- A run of members in front of others. -/
theorem laid_memberRun {ms : List (String × Json)} (hms : ∀ m ∈ ms, Layable m)
    {es : List (String × Json)} {ts : List Token} (hends : Ends ts) (h : Laid es ts) :
    Laid (entries ms ++ es) (memberRun ms ++ ts) ∧ Ends (memberRun ms ++ ts) := by
  induction ms with
  | nil => exact ⟨h, hends⟩
  | cons m ms ih =>
    rw [List.forall_mem_cons] at hms
    obtain ⟨hrun, hrunEnds⟩ := ih hms.2
    rw [memberRun_cons]
    simp only [List.cons_append, List.append_assoc]
    refine ⟨?_, ',', _, .inl rfl, rfl⟩
    have := Laid.punct (c := ',') (by decide) (by decide) (hms.1 _ _ hrunEnds hrun)
    simpa [entries] using this

/-- An object in front of other tokens. -/
theorem laid_obj {ms : List (String × Json)} (hms : ∀ m ∈ ms, Layable m)
    {es : List (String × Json)} {ts : List Token} (h : Laid es ts) :
    Laid (entries ms ++ es) ((Json.obj ms).tokens ++ ts) := by
  have hclose : Laid es (.punct '}' :: ts) := .punct (by decide) (by decide) h
  cases ms with
  | nil => exact .punct (by decide) (by decide) hclose
  | cons m ms =>
    rw [List.forall_mem_cons] at hms
    obtain ⟨hrun, hrunEnds⟩ := laid_memberRun hms.2 ⟨'}', ts, .inr rfl, rfl⟩ hclose
    rw [tokens_obj_cons]
    have := Laid.punct (c := '{') (by decide) (by decide) (hms.1 _ _ hrunEnds hrun)
    simpa [entries] using this

/-- A member whose value is an object of such members. -/
theorem layable_obj {n : String} {ns : List (String × Json)}
    (hns : ∀ m ∈ ns, membersOf m.2 = []) : Layable (n, .obj ns) := by
  intro es ts hends h
  have hobj := laid_obj (fun m hm => layable_leaf (hns m hm)) h
  rw [entries_eq_self hns] at hobj
  exact .inner hends hobj

end TrafficGen.ConfigParser
