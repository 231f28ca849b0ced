import TrafficGen.Spec.ConfigText

/-!
# Braces in strings

The parser finds the end of an object by counting braces, those inside strings too. A string in
an object leaves the count as it was, closes the object early, or leaves it open into what comes
behind.

## Key results

- `rawValue_closed`, `rawValue_open`, `rawValue_unclosed`, `rawValue_cut`: what is taken for an
  object with a string in it, by what the string does to the count
-/

namespace TrafficGen.ConfigParser

open Json (Token Renders)

/-! ## Counting -/

/-- The braces open behind a text, with `depth` open in front of it, or nothing when the last of
    them is closed inside it. -/
def bracesAfter : Nat → List Char → Option Nat
  | depth, [] => some depth
  | depth, c :: s =>
    if c = '{' then bracesAfter (depth + 1) s
    else if c = '}' then if depth = 1 then none else bracesAfter (depth - 1) s
    else bracesAfter depth s

/-- Text in which the last brace stays open is passed over. -/
theorem closeBracket_of_bracesAfter {depth depth' : Nat} {a : List Char}
    (h : bracesAfter depth a = some depth') (s : List Char) :
    closeBracket '{' '}' depth (a ++ s) = (closeBracket '{' '}' depth' s).map (a ++ ·) := by
  induction a generalizing depth with
  | nil =>
    cases h
    simp
  | cons c a ih =>
    rw [bracesAfter] at h
    rw [List.cons_append, closeBracket]
    split at h
    · next hopen =>
      rw [if_pos hopen, ih h, Option.map_map]
      rfl
    · next hopen =>
      rw [if_neg hopen]
      split at h
      · next hclose =>
        rw [if_pos hclose]
        split at h
        · cases h
        · next hdepth =>
          rw [if_neg hdepth, ih h, Option.map_map]
          rfl
      · next hclose =>
        rw [if_neg hclose, ih h, Option.map_map]
        rfl

/-- Text in which the last brace is closed is cut there. -/
theorem closeBracket_of_bracesAfter_eq_none {depth : Nat} {a : List Char}
    (h : bracesAfter depth a = none) :
    ∃ b c, a = b ++ c ∧ ∀ s, closeBracket '{' '}' depth (a ++ s) = some b := by
  induction a generalizing depth with
  | nil => cases h
  | cons d a ih =>
    rw [bracesAfter] at h
    split at h
    · next hopen =>
      obtain ⟨b, c, rfl, hclose⟩ := ih h
      refine ⟨d :: b, c, rfl, fun s => ?_⟩
      rw [List.cons_append, closeBracket, if_pos hopen, hclose]
      rfl
    · next hopen =>
      split at h
      · next hbrace =>
        split at h
        · next hdepth =>
          refine ⟨[d], a, rfl, fun s => ?_⟩
          rw [List.cons_append, closeBracket, if_neg hopen, if_pos hbrace, if_pos hdepth]
        · next hdepth =>
          obtain ⟨b, c, rfl, hclose⟩ := ih h
          refine ⟨d :: b, c, rfl, fun s => ?_⟩
          rw [List.cons_append, closeBracket, if_neg hopen, if_pos hbrace, if_neg hdepth, hclose]
          rfl
      · next hbrace =>
        obtain ⟨b, c, rfl, hclose⟩ := ih h
        refine ⟨d :: b, c, rfl, fun s => ?_⟩
        rw [List.cons_append, closeBracket, if_neg hopen, if_neg hbrace, hclose]
        rfl

theorem bracesAfter_append (depth : Nat) (a b : List Char) :
    bracesAfter depth (a ++ b) = (bracesAfter depth a).bind (bracesAfter · b) := by
  induction a generalizing depth with
  | nil => rfl
  | cons c a ih =>
    rw [List.cons_append, bracesAfter, bracesAfter]
    split
    · exact ih _
    · split
      · split
        · rfl
        · exact ih _
      · exact ih _

/-- Some brace stays open. -/
theorem bracesAfter_pos {depth depth' : Nat} {a : List Char} (hdepth : 0 < depth)
    (h : bracesAfter depth a = some depth') : 0 < depth' := by
  induction a generalizing depth with
  | nil => exact Option.some.inj h ▸ hdepth
  | cons c a ih =>
    rw [bracesAfter] at h
    split at h
    · exact ih (by omega) h
    · split at h
      · split at h
        · cases h
        · exact ih (by omega) h
      · exact ih hdepth h

theorem bracesAfter_of_not_mem {a : List Char} (hopen : '{' ∉ a) (hclose : '}' ∉ a)
    (depth : Nat) : bracesAfter depth a = some depth := by
  induction a with
  | nil => rfl
  | cons c a ih =>
    rw [List.mem_cons, not_or] at hopen hclose
    rw [bracesAfter, if_neg (Ne.symm hopen.1), if_neg (Ne.symm hclose.1), ih hopen.2 hclose.2]

/-- Tokens whose texts leave as many braces open as there were. -/
def BraceNeutral (ts : List Token) : Prop :=
  ∀ s, Renders ts s → ∀ depth, 0 < depth → bracesAfter depth s = some depth

theorem braceNeutral_of_not_mem {ts : List Token} (hts : ∀ t ∈ ts, '{' ∉ t.chars ∧ '}' ∉ t.chars) :
    BraceNeutral ts := by
  intro s h depth _
  have hspace : ¬ Json.IsSpace '{' ∧ ¬ Json.IsSpace '}' := by simp [Json.IsSpace]
  exact bracesAfter_of_not_mem (h.not_mem hspace.1 fun t ht => (hts t ht).1)
    (h.not_mem hspace.2 fun t ht => (hts t ht).2) depth

theorem BraceNeutral.append {ts us : List Token} (hts : BraceNeutral ts) (hus : BraceNeutral us) :
    BraceNeutral (ts ++ us) := by
  intro s h depth hdepth
  obtain ⟨a, b, rfl, ha, hb⟩ := h.append
  rw [bracesAfter_append, hts a ha depth hdepth, Option.bind_some, hus b hb depth hdepth]

/-- White space opens and closes nothing. -/
theorem bracesAfter_of_space {ws : List Char} (hws : ∀ c ∈ ws, Json.IsSpace c) (depth : Nat) :
    bracesAfter depth ws = some depth := by
  have hopen : '{' ∉ ws := not_mem_of_space hws (by simp [Json.IsSpace])
  have hclose : '}' ∉ ws := not_mem_of_space hws (by simp [Json.IsSpace])
  exact bracesAfter_of_not_mem hopen hclose depth

/-- An object whose inside is neutral is neutral. -/
theorem BraceNeutral.braces {ts : List Token} (hts : BraceNeutral ts) :
    BraceNeutral (.punct '{' :: (ts ++ [.punct '}'])) := by
  intro s h depth hdepth
  cases h with
  | @cons ws _ _ s hws h =>
    obtain ⟨a, b, rfl, ha, hb⟩ := h.append
    cases hb with
    | @cons ws' _ _ b hws' hb =>
      cases hb with
      | nil hws'' =>
        have hinner := hts a ha (depth + 1) (by omega)
        rw [bracesAfter_append, bracesAfter_of_space hws, Option.bind_some]
        show bracesAfter (depth + 1) (a ++ (ws' ++ '}' :: b)) = some depth
        rw [bracesAfter_append, hinner, Option.bind_some, bracesAfter_append,
          bracesAfter_of_space hws', Option.bind_some, bracesAfter, if_neg (by decide),
          if_pos rfl, if_neg (by omega), Nat.add_sub_cancel, bracesAfter_of_space hws'']

theorem BraceNeutral.flatMap {α : Type} {f : α → List Token} {l : List α}
    (h : ∀ a ∈ l, BraceNeutral (f a)) : BraceNeutral (l.flatMap f) := by
  induction l with
  | nil => exact braceNeutral_of_not_mem (List.forall_mem_nil _)
  | cons a l ih =>
    rw [List.forall_mem_cons] at h
    exact h.1.append (ih h.2)

theorem braceNeutral_comma : BraceNeutral [.punct ','] :=
  braceNeutral_of_not_mem (List.forall_mem_singleton.mpr (by decide))

/-- A flat object is neutral. -/
theorem Flat.braceNeutral {ms : List (String × Json)} (hms : Flat ms) :
    BraceNeutral (Json.obj ms).tokens := by
  rw [Json.tokens]
  exact (braceNeutral_of_not_mem hms.tokens).braces

/-- An array of flat objects is neutral. -/
theorem braceNeutral_arr {os : List (List (String × Json))} (hos : ∀ ms ∈ os, Flat ms) :
    BraceNeutral (Json.arr (os.map .obj)).tokens := by
  have hitems : ∀ ts ∈ Json.itemTokens (os.map .obj), BraceNeutral ts := by
    rw [Json.itemTokens_eq_map]
    intro ts hts
    obtain ⟨v, hv, rfl⟩ := List.mem_map.mp hts
    obtain ⟨ms, hms, rfl⟩ := List.mem_map.mp hv
    exact (hos ms hms).braceNeutral
  have hbracket : ∀ {c : Char}, c ≠ '{' → c ≠ '}' → BraceNeutral [.punct c] := by
    intro c hopen hclose
    apply braceNeutral_of_not_mem
    simpa [Token.chars] using ⟨hopen.symm, hclose.symm⟩
  rw [Json.tokens]
  apply (hbracket (c := '[') (by decide) (by decide)).append
  apply BraceNeutral.append ?_ (hbracket (by decide) (by decide))
  cases hlist : Json.itemTokens (os.map .obj) with
  | nil => exact braceNeutral_of_not_mem (List.forall_mem_nil _)
  | cons ts l =>
    rw [hlist, List.forall_mem_cons] at hitems
    have hsplit := Json.intercalate_split [Token.punct ','] ts [] l
    rw [List.nil_append] at hsplit
    rw [hsplit]
    apply hitems.1.append
    exact BraceNeutral.flatMap fun us hus => braceNeutral_comma.append (hitems.2 us hus)

/-! ## An object with a string in it -/

/-- The tokens of the members of a flat object hold no brace. -/
theorem Flat.memberTokens {ms : List (String × Json)} (hms : Flat ms) :
    ∀ ts ∈ Json.memberTokens ms, ∀ t ∈ ts, '{' ∉ t.chars ∧ '}' ∉ t.chars := by
  rw [Json.memberTokens_eq_map]
  intro ts hts t ht
  obtain ⟨m, hm, rfl⟩ := List.mem_map.mp hts
  rw [List.mem_cons, List.mem_cons] at ht
  match ht with
  | .inl heq =>
    subst heq
    simpa [Token.chars] using ⟨(hms m hm).1, (hms m hm).2.1⟩
  | .inr (.inl heq) => subst heq; decide
  | .inr (.inr hvalue) => exact (hms m hm).2.2 t hvalue

/-- The parts of a text of an object with a string in it, and of what is behind it. -/
structure StringParts (ms : List (String × Json)) (k : String) (body : String)
    (ms' : List (String × Json)) (us : List Token) (s ws x y r : List Char) : Prop where
  text : s = ws ++ '{' :: (x ++ (body.toList ++ (y ++ '}' :: r)))
  space : ∀ c ∈ ws, Json.IsSpace c
  before : '{' ∉ x ∧ '}' ∉ x
  after : '{' ∉ y ∧ '}' ∉ y
  quote : ∃ z, y = '"' :: z
  rest : Renders us r
  object : Renders (Json.obj (ms ++ (k, .str body) :: ms')).tokens
    ('{' :: (x ++ (body.toList ++ (y ++ ['}']))))
  cut : ∀ b, Renders (Json.tokensBefore ms ++
    [.str k, .punct ':', .word (String.ofList ('"' :: b))]) ('{' :: (x ++ b))

/-- No brace stands in the members before the string. -/
theorem Flat.not_mem_before {ms : List (String × Json)} (hms : Flat ms) {k : String}
    (hk : '{' ∉ k.toList ∧ '}' ∉ k.toList) :
    ∀ t ∈ (Json.memberTokens ms).flatMap (· ++ [.punct ',']) ++ [.str k, .punct ':'],
      '{' ∉ t.chars ∧ '}' ∉ t.chars := by
  intro t ht
  rw [List.mem_append, List.mem_flatMap] at ht
  rcases ht with ⟨ts, hts, ht⟩ | ht
  · cases List.mem_append.mp ht with
    | inl ht => exact hms.memberTokens ts hts t ht
    | inr ht => cases List.mem_singleton.mp ht; decide
  · cases List.mem_pair.mp ht with
    | inl heq => subst heq; simpa [Token.chars] using hk
    | inr heq => subst heq; decide

/-- Nor in those behind it. -/
theorem Flat.not_mem_after {ms : List (String × Json)} (hms : Flat ms) :
    ∀ t ∈ (Json.memberTokens ms).flatMap ([.punct ','] ++ ·), '{' ∉ t.chars ∧ '}' ∉ t.chars := by
  intro t ht
  rw [List.mem_flatMap] at ht
  obtain ⟨ts, hts, ht⟩ := ht
  cases List.mem_append.mp ht with
  | inl ht => cases List.mem_singleton.mp ht; decide
  | inr ht => exact hms.memberTokens ts hts t ht

theorem exists_stringParts {ms ms' : List (String × Json)} {k body : String} {us : List Token}
    (hms : Flat ms) (hms' : Flat ms') (hk : '{' ∉ k.toList ∧ '}' ∉ k.toList) {s : List Char}
    (h : Renders ((Json.obj (ms ++ (k, .str body) :: ms')).tokens ++ us) s) :
    ∃ ws x y r, StringParts ms k body ms' us s ws x y r := by
  have hopen : ¬ Json.IsSpace '{' := by simp [Json.IsSpace]
  have hclose : ¬ Json.IsSpace '}' := by simp [Json.IsSpace]
  have hbefore := hms.not_mem_before hk
  have hafter := hms'.not_mem_after
  -- what stands between the object's braces, on both sides of the string
  generalize hA : (Json.memberTokens ms).flatMap (· ++ [.punct ',']) ++ [.str k, .punct ':'] = A
    at hbefore
  generalize hB : (Json.memberTokens ms').flatMap ([.punct ','] ++ ·) = B at hafter
  have htokens : (Json.obj (ms ++ (k, .str body) :: ms')).tokens =
      .punct '{' :: (A ++ .str body :: (B ++ [.punct '}'])) := by
    rw [Json.tokens_obj_split, ← hA, ← hB]
    simp [Json.tokensBefore, Json.tokensAfter, Json.tokens]
  have hcut : Json.tokensBefore ms ++ [.str k, .punct ':'] = .punct '{' :: A := by
    rw [← hA]
    simp [Json.tokensBefore]
  rw [htokens] at h
  simp only [List.cons_append, List.append_assoc, List.nil_append] at h
  cases h with
  | @cons ws _ _ s hws hobj =>
    obtain ⟨a, s', rfl, ha, hstr⟩ := hobj.append
    cases hstr with
    | @cons ws' _ _ s' hws' hrun =>
      obtain ⟨b, s'', rfl, hb, hend⟩ := hrun.append
      cases hend with
      | @cons ws'' _ _ r hws'' hr =>
        refine ⟨ws, a ++ (ws' ++ ['"']), '"' :: (b ++ ws''), r, ?_⟩
        constructor
        · simp [Token.chars]
        · exact hws
        · constructor
          · simpa [not_mem_of_space hws' hopen] using ha.not_mem hopen fun t ht => (hbefore t ht).1
          · simpa [not_mem_of_space hws' hclose] using
              ha.not_mem hclose fun t ht => (hbefore t ht).2
        · constructor
          · simpa [not_mem_of_space hws'' hopen] using hb.not_mem hopen fun t ht => (hafter t ht).1
          · simpa [not_mem_of_space hws'' hclose] using
              hb.not_mem hclose fun t ht => (hafter t ht).2
        · exact ⟨_, rfl⟩
        · exact hr
        · rw [htokens]
          have hclosed := hb.concat (Renders.single hws'' (.punct '}'))
          have := @Renders.cons [] (.punct '{') _ _ (List.forall_mem_nil _)
            (ha.concat (@Renders.cons ws' (.str body) _ _ hws' hclosed))
          simpa [Token.chars] using this
        · intro b'
          have := @Renders.cons [] (.punct '{') _ _ (List.forall_mem_nil _)
            (ha.concat (Renders.single hws' (.word (String.ofList ('"' :: b')))))
          rw [← List.cons_append, ← hcut] at this
          simpa [Token.chars] using this

theorem rawValue_brace {ws : List Char} (hws : ∀ c ∈ ws, Json.IsSpace c) (s : List Char) :
    rawValue (ws ++ '{' :: s) = (closeBracket '{' '}' 1 s).elim [] ('{' :: ·) := by
  have hdrop : (ws ++ '{' :: s).dropWhile isSpace = '{' :: s := dropWhile_space_append hws _
  unfold rawValue
  rw [hdrop]
  dsimp only
  rw [if_neg (by decide), if_pos (.inl rfl), if_pos rfl]
  cases closeBracket '{' '}' 1 s with
  | none => rfl
  | some b => rfl

section

variable {ms ms' : List (String × Json)} {k body : String} {us : List Token}
  {s ws x y r : List Char} (h : StringParts ms k body ms' us s ws x y r)
include h

/-- Behind the string as many braces are open as it leaves, up to the object's own. -/
theorem StringParts.rawValue_eq {depth : Nat} (hbody : bracesAfter 1 body.toList = some depth) :
    rawValue s = (closeBracket '{' '}' depth ('}' :: r)).elim []
      fun b => '{' :: (x ++ (body.toList ++ (y ++ b))) := by
  have hx := bracesAfter_of_not_mem h.before.1 h.before.2
  have hy := bracesAfter_of_not_mem h.after.1 h.after.2
  rw [h.text, rawValue_brace h.space, closeBracket_of_bracesAfter (hx 1),
    closeBracket_of_bracesAfter hbody, closeBracket_of_bracesAfter (hy depth)]
  cases closeBracket '{' '}' depth ('}' :: r) with
  | none => rfl
  | some b => rfl

/-- A string that closes the braces it opens: the object is taken. -/
theorem StringParts.rawValue_closed (hbody : bracesAfter 1 body.toList = some 1) :
    Renders (Json.obj (ms ++ (k, .str body) :: ms')).tokens (rawValue s) ∧
      (rawValue s).head? = some '{' := by
  rw [h.rawValue_eq hbody, closeBracket, if_neg (by decide), if_pos rfl, if_pos rfl]
  exact ⟨h.object, rfl⟩

/-- A string that leaves one brace open: the object is taken with all that is behind it, up to the
    brace that closes the object around it. -/
theorem StringParts.rawValue_open (hbody : bracesAfter 1 body.toList = some 2)
    {ts : List Token} (hts : BraceNeutral ts) (hus : us = ts ++ [.punct '}']) :
    Renders ((Json.obj (ms ++ (k, .str body) :: ms')).tokens ++ us) (rawValue s) ∧
      (rawValue s).head? = some '{' := by
  have hrest := h.rest
  rw [hus] at hrest
  obtain ⟨a, b, rfl, ha, hb⟩ := hrest.append
  cases hb with
  | @cons ws' _ _ b hws' hb =>
    have hclose : closeBracket '{' '}' 2 ('}' :: (a ++ (ws' ++ '}' :: b))) =
        some ('}' :: (a ++ (ws' ++ ['}']))) := by
      rw [closeBracket, if_neg (by decide), if_pos rfl, if_neg (by decide),
        closeBracket_of_bracesAfter (hts a ha 1 (by decide)),
        closeBracket_of_bracesAfter (bracesAfter_of_space hws' 1), closeBracket,
        if_neg (by decide), if_pos rfl, if_pos rfl]
      rfl
    have hraw := h.rawValue_eq hbody
    rw [show (Token.punct '}').chars ++ b = '}' :: b from rfl, hclose] at hraw
    rw [hraw, hus]
    refine ⟨?_, rfl⟩
    have := h.object.concat (ha.concat (Renders.single hws' (.punct '}')))
    simpa [Token.chars] using this

/-- A string that leaves more open: nothing is taken. -/
theorem StringParts.rawValue_unclosed {depth : Nat}
    (hbody : bracesAfter 1 body.toList = some (depth + 3)) {ts : List Token}
    (hts : BraceNeutral ts) (hus : us = ts ++ [.punct '}']) : rawValue s = [] := by
  have hrest := h.rest
  rw [hus] at hrest
  obtain ⟨a, b, rfl, ha, hb⟩ := hrest.append
  cases hb with
  | @cons ws' _ _ b hws' hb =>
    cases hb with
    | nil hb =>
      have hclose : closeBracket '{' '}' (depth + 3) ('}' :: (a ++ (ws' ++ '}' :: b))) = none := by
        have hend := closeBracket_of_bracesAfter (bracesAfter_of_space hb (depth + 1)) []
        rw [List.append_nil] at hend
        rw [closeBracket, if_neg (by decide), if_pos rfl, if_neg (by omega),
          closeBracket_of_bracesAfter (hts a ha _ (by omega)),
          closeBracket_of_bracesAfter (bracesAfter_of_space hws' _), closeBracket,
          if_neg (by decide),
          if_pos rfl, if_neg (by omega)]
        show (((Option.map _ (closeBracket '{' '}' (depth + 1) b)).map _).map _).map _ = none
        rw [hend]
        rfl
      have hraw := h.rawValue_eq hbody
      rw [show (Token.punct '}').chars ++ b = '}' :: b from rfl, hclose] at hraw
      exact hraw

/-- A string that closes the object's own brace: the object is cut inside it. -/
theorem StringParts.rawValue_cut (hbody : bracesAfter 1 body.toList = none) :
    ∃ a b, body.toList = a ++ b ∧ (rawValue s).head? = some '{' ∧
      Renders (Json.tokensBefore ms ++ [.str k, .punct ':', .word (String.ofList ('"' :: a))])
        (rawValue s) := by
  obtain ⟨a, b, hab, hclose⟩ := closeBracket_of_bracesAfter_eq_none hbody
  refine ⟨a, b, hab, ?_⟩
  have hx := bracesAfter_of_not_mem h.before.1 h.before.2 1
  rw [h.text, rawValue_brace h.space, closeBracket_of_bracesAfter hx, hclose]
  exact ⟨rfl, h.cut a⟩

end

end TrafficGen.ConfigParser
