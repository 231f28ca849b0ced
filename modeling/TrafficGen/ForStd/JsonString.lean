import TrafficGen.ForStd.HexDigit

/-!
# JSON string literals

`Encodes body s` says that `body`, between quotes, is a literal of the string `s`: each character
stands for itself or is escaped.

## Key results

- `Encodes.eq_of_no_escape`, `Encodes.length_lt`: a body without a backslash is the string, and
  any other is longer
- `Encodes.quote`: a quote in a body stands behind a backslash
- `Encodes.mem_of_mem`, `Encodes.mem_of_getLast`: a brace in a body, and a backslash at its end,
  are in the string
-/

namespace Json

/-- The characters that are escaped by one other character. -/
def shortEscapes : List (Char × Char) :=
  [('"', '"'), ('\\', '\\'), ('/', '/'), ('b', '\x08'), ('f', '\x0c'), ('n', '\n'), ('r', '\r'),
    ('t', '\t')]

/-- Four hexadecimal digits and the number they denote. -/
inductive Hex4 : List Char → Nat → Prop
  | mk {a b c d : Char} {w x y z : Nat} (ha : Hex.value a = some w) (hb : Hex.value b = some x)
      (hc : Hex.value c = some y) (hd : Hex.value d = some z) :
      Hex4 [a, b, c, d] (4096 * w + 256 * x + 16 * y + z)

/-- The ways to write a character. One outside the basic plane can be escaped as two units, a
    high and a low surrogate. -/
inductive EncodesChar : List Char → Char → Prop
  | plain {c : Char} (hquote : c ≠ '"') (hback : c ≠ '\\') (hctl : 0x20 ≤ c.toNat) :
      EncodesChar [c] c
  | short {e c : Char} (he : (e, c) ∈ shortEscapes) : EncodesChar ['\\', e] c
  | unicode {hex : List Char} {n : Nat} (hhex : Hex4 hex n) (hn : n.isValidChar) :
      EncodesChar ('\\' :: 'u' :: hex) (Char.ofNat n)
  | surrogates {hex hex' : List Char} {n n' : Nat} (hhex : Hex4 hex n)
      (hn : 0xd800 ≤ n ∧ n < 0xdc00) (hhex' : Hex4 hex' n') (hn' : 0xdc00 ≤ n' ∧ n' < 0xe000) :
      EncodesChar ('\\' :: 'u' :: (hex ++ '\\' :: 'u' :: hex'))
        (Char.ofNat (0x10000 + 1024 * (n - 0xd800) + (n' - 0xdc00)))

/-- `body` is a literal of `s`, without its quotes. -/
inductive Encodes : List Char → List Char → Prop
  | nil : Encodes [] []
  | cons {u body s : List Char} {c : Char} (hc : EncodesChar u c) (h : Encodes body s) :
      Encodes (u ++ body) (c :: s)

/-! ## One character -/

theorem Hex4.isAlphanum {hex : List Char} {n : Nat} (h : Hex4 hex n) :
    hex ≠ [] ∧ ∀ c ∈ hex, c.isAlphanum = true := by
  cases h with
  | mk ha hb hc hd =>
    simp [Hex.isAlphanum_of_value ha, Hex.isAlphanum_of_value hb, Hex.isAlphanum_of_value hc,
      Hex.isAlphanum_of_value hd]

namespace EncodesChar

variable {u : List Char} {c : Char}

/-- A character stands for itself, or behind a backslash for one other character or in letters
    and digits. -/
theorem cases (h : EncodesChar u c) :
    (u = [c] ∧ c ≠ '"' ∧ c ≠ '\\') ∨ (∃ e, u = ['\\', e] ∧ (e, c) ∈ shortEscapes) ∨
      ∃ v w, u = '\\' :: v ++ w ∧ w ≠ [] ∧ (∀ d ∈ v, d = '\\' ∨ d.isAlphanum = true) ∧
        ∀ d ∈ w, d.isAlphanum = true := by
  have hu : 'u'.isAlphanum = true := by decide
  cases h with
  | plain hquote hback _ => exact .inl ⟨rfl, hquote, hback⟩
  | short he => exact .inr (.inl ⟨_, rfl, he⟩)
  | @unicode hex _ hhex _ =>
    refine .inr (.inr ⟨['u'], hex, rfl, hhex.isAlphanum.1, ?_, hhex.isAlphanum.2⟩)
    simp [hu]
  | @surrogates hex hex' _ _ hhex _ hhex' _ =>
    refine .inr (.inr ⟨'u' :: (hex ++ ['\\', 'u']), hex', by simp, hhex'.isAlphanum.1, ?_,
      hhex'.isAlphanum.2⟩)
    intro d hd
    simp only [List.mem_cons, List.mem_append, List.not_mem_nil, or_false] at hd
    match hd with
    | .inl hd => exact .inr (hd ▸ hu)
    | .inr (.inl hd) => exact .inr (hhex.isAlphanum.2 d hd)
    | .inr (.inr (.inl hd)) => exact .inl hd
    | .inr (.inr (.inr hd)) => exact .inr (hd ▸ hu)

theorem ne_nil (h : EncodesChar u c) : u ≠ [] := by
  match h.cases with
  | .inl ⟨hu, _⟩ => simp [hu]
  | .inr (.inl ⟨e, hu, _⟩) => simp [hu]
  | .inr (.inr ⟨v, w, hu, _⟩) => simp [hu]

/-- Only a character that stands for itself is written without a backslash. -/
theorem eq_of_no_escape (h : EncodesChar u c) (hback : '\\' ∉ u) : u = [c] := by
  match h.cases with
  | .inl ⟨hu, _⟩ => exact hu
  | .inr (.inl ⟨e, hu, _⟩) => simp [hu] at hback
  | .inr (.inr ⟨v, w, hu, _⟩) => simp [hu] at hback

theorem two_le_length (h : EncodesChar u c) (hback : '\\' ∈ u) : 2 ≤ u.length := by
  match h.cases with
  | .inl ⟨hu, _, hne⟩ => exact absurd (List.mem_singleton.mp (hu ▸ hback)) (Ne.symm hne)
  | .inr (.inl ⟨e, hu, _⟩) => simp [hu]
  | .inr (.inr ⟨v, w, hu, hw, _⟩) =>
    have := List.length_pos_of_ne_nil hw
    rw [hu, List.length_append, List.length_cons]
    omega

/-- A character that no escape is written with stands for itself. -/
theorem eq_of_mem (h : EncodesChar u c) {d : Char} (hd : d ∈ u) (halnum : d.isAlphanum = false)
    (hshort : ∀ x ∈ shortEscapes, d ≠ x.1) (hback : d ≠ '\\') : d = c := by
  match h.cases with
  | .inl ⟨hu, _⟩ => exact List.mem_singleton.mp (hu ▸ hd)
  | .inr (.inl ⟨e, hu, he⟩) =>
    rw [hu, List.mem_pair] at hd
    exact (hd.elim hback (hshort _ he)).elim
  | .inr (.inr ⟨v, w, hu, _, hv, hw⟩) =>
    rw [hu, List.mem_append, List.mem_cons] at hd
    match hd with
    | .inl (.inl hd) => exact absurd hd hback
    | .inl (.inr hd) => exact ((hv d hd).elim hback (fun h => by simp [halnum] at h)).elim
    | .inr hd => exact absurd (hw d hd) (by simp [halnum])

/-- A quote stands behind a backslash. -/
theorem quote (h : EncodesChar u c) {p q : List Char} (hu : u = p ++ '"' :: q) :
    p.getLast? = some '\\' := by
  match h.cases with
  | .inl ⟨hc, hquote, _⟩ =>
    have hmem : '"' ∈ u := hu ▸ List.mem_append_right p List.mem_cons_self
    exact absurd (List.mem_singleton.mp (hc ▸ hmem)) (Ne.symm hquote)
  | .inr (.inl ⟨e, he, _⟩) =>
    rw [he] at hu
    match p with
    | [] => exact absurd (List.cons.inj hu).1 (by decide)
    | [d] => rw [(List.cons.inj hu).1]; rfl
    | d :: d' :: p => simp at hu
  | .inr (.inr ⟨v, w, he, _, hv, hw⟩) =>
    have hmem : '"' ∈ u := hu ▸ List.mem_append_right p List.mem_cons_self
    rw [he, List.mem_append, List.mem_cons] at hmem
    match hmem with
    | .inl (.inl hd) => exact absurd hd (by decide)
    | .inl (.inr hd) => exact absurd (hv _ hd) (by decide)
    | .inr hd => exact absurd (hw _ hd) (by decide)

/-- Only a backslash is written with a backslash last. -/
theorem eq_of_getLast (h : EncodesChar u c) (hlast : u.getLast? = some '\\') : c = '\\' := by
  match h.cases with
  | .inl ⟨hu, _⟩ =>
    rw [hu] at hlast
    exact Option.some.inj hlast
  | .inr (.inl ⟨e, hu, he⟩) =>
    have hescapes : ∀ x ∈ shortEscapes, x.1 = '\\' → x.2 = '\\' := by decide
    rw [hu] at hlast
    exact hescapes _ he (Option.some.inj hlast)
  | .inr (.inr ⟨v, w, hu, hne, _, hw⟩) =>
    rw [hu, List.getLast?_append_of_ne_nil _ hne] at hlast
    exact absurd (hw _ (List.mem_of_getLast? hlast)) (by decide)

end EncodesChar

/-! ## Strings -/

namespace Encodes

variable {body s : List Char}

/-- A string without quotes, backslashes and control characters is a literal of itself. -/
theorem refl (s : List Char) (hs : ∀ c ∈ s, c ≠ '"' ∧ c ≠ '\\' ∧ 0x20 ≤ c.toNat) :
    Encodes s s := by
  induction s with
  | nil => exact .nil
  | cons c s ih =>
    rw [List.forall_mem_cons] at hs
    exact @cons [c] s s c (.plain hs.1.1 hs.1.2.1 hs.1.2.2) (ih hs.2)

/-- A body without a backslash is the string. -/
theorem eq_of_no_escape (h : Encodes body s) (hback : '\\' ∉ body) : body = s := by
  induction h with
  | nil => rfl
  | @cons u body s c hc h ih =>
    rw [List.mem_append, not_or] at hback
    rw [hc.eq_of_no_escape hback.1, ih hback.2]
    rfl

theorem length_le (h : Encodes body s) : s.length ≤ body.length := by
  induction h with
  | nil => exact Nat.le_refl 0
  | @cons u body s c hc h ih =>
    have := List.length_pos_of_ne_nil hc.ne_nil
    rw [List.length_cons, List.length_append]
    omega

/-- A body with a backslash is longer than the string. -/
theorem length_lt (h : Encodes body s) (hback : '\\' ∈ body) : s.length < body.length := by
  induction h with
  | nil => cases hback
  | @cons u body s c hc h ih =>
    have hpos := List.length_pos_of_ne_nil hc.ne_nil
    have hle := h.length_le
    rw [List.length_cons, List.length_append]
    cases List.mem_append.mp hback with
    | inl hu =>
      have := hc.two_le_length hu
      omega
    | inr hbody =>
      have := ih hbody
      omega

/-- A quote in a body stands behind a backslash. -/
theorem quote (h : Encodes body s) {p q : List Char} (hbody : body = p ++ '"' :: q) :
    p.getLast? = some '\\' := by
  induction h generalizing p with
  | nil => exact absurd hbody (by simp)
  | @cons u body s c hc h ih =>
    match List.append_eq_append_iff.mp hbody with
    | .inl ⟨w, hp, hw⟩ =>
      have hlast := ih hw
      cases w with
      | nil => cases hlast
      | cons d w =>
        rw [hp, List.getLast?_append_of_ne_nil _ (List.cons_ne_nil d w), hlast]
    | .inr ⟨w, hu, hw⟩ =>
      cases w with
      | nil =>
        -- the quote is the first character behind `u`
        have hlast := ih (p := []) hw.symm
        cases hlast
      | cons d w =>
        obtain ⟨rfl, -⟩ := List.cons.inj hw
        exact hc.quote hu

/-- A brace in a body is in the string. -/
theorem mem_of_mem (h : Encodes body s) {d : Char} (hd : d ∈ body) (halnum : d.isAlphanum = false)
    (hshort : ∀ x ∈ shortEscapes, d ≠ x.1) (hback : d ≠ '\\') : d ∈ s := by
  induction h with
  | nil => cases hd
  | @cons u body s c hc h ih =>
    cases List.mem_append.mp hd with
    | inl hu =>
      rw [hc.eq_of_mem hu halnum hshort hback]
      exact List.mem_cons_self
    | inr hbody => exact List.mem_cons_of_mem c (ih hbody)

/-- A backslash at the end of a body is in the string. -/
theorem mem_of_getLast (h : Encodes body s) (hlast : body.getLast? = some '\\') :
    '\\' ∈ s := by
  induction h with
  | nil => cases hlast
  | @cons u body s c hc h ih =>
    cases body with
    | nil =>
      rw [List.append_nil] at hlast
      exact List.mem_cons.mpr (.inl (hc.eq_of_getLast hlast).symm)
    | cons d body =>
      rw [List.getLast?_append_of_ne_nil _ (List.cons_ne_nil d body)] at hlast
      exact List.mem_cons_of_mem c (ih hlast)

end Encodes

end Json
