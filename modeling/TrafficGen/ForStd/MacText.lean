import TrafficGen.ForStd.HexDigit

/-!
# MAC addresses as text

A MAC address is written as six groups of two hexadecimal digits, with colons between the groups
or with nothing between them. `Denotes` is that notation. `Loose` is what a reader accepts that
takes six numbers of at most two characters and does not look at what it leaves: blanks before
a number, a sign, one digit for two, for some readers a `0x` without digits, anything after the
sixth.
-/

namespace MacText

/-- Two hexadecimal digits and the byte they denote. -/
inductive Group : List Char → UInt8 → Prop
  | mk {a b : Char} {x y : Nat} (ha : Hex.value a = some x) (hb : Hex.value b = some y) :
      Group [a, b] (UInt8.ofNat (16 * x + y))

/-- What may stand between the groups. -/
def IsSeparator (sep : List Char) : Prop := sep = [':'] ∨ sep = []

/-- The text denotes the six bytes. -/
def Denotes (text : List Char) (bytes : List UInt8) : Prop :=
  bytes.length = 6 ∧ ∃ sep groups, IsSeparator sep ∧ List.Forall₂ Group groups bytes ∧
    text = List.intercalate sep groups

theorem Group.isAlphanum {g : List Char} {b : UInt8} (h : Group g b) :
    ∀ c ∈ g, c.isAlphanum = true := by
  cases h with
  | mk ha hb => simp [Hex.isAlphanum_of_value ha, Hex.isAlphanum_of_value hb]

/-- Groups with `sep` between them are written in its characters, letters and digits. -/
theorem chars_intercalate (sep : List Char) {groups : List (List Char)} {bytes : List UInt8}
    (h : List.Forall₂ Group groups bytes) :
    ∀ c ∈ List.intercalate sep groups, c ∈ sep ∨ c.isAlphanum = true := by
  induction h with
  | nil => simp [List.intercalate]
  | @cons g b gs bs hg hgs ih =>
    cases hgs with
    | nil =>
      intro c hc
      have hc : c ∈ g := by simpa [List.intercalate] using hc
      exact .inr (hg.isAlphanum c hc)
    | cons =>
      intro c hc
      rw [List.intercalate_cons_cons, List.append_assoc, List.mem_append, List.mem_append] at hc
      rcases hc with hc | hc | hc
      · exact .inr (hg.isAlphanum c hc)
      · exact .inl hc
      · exact ih c hc

/-- An address is written in colons, letters and digits. -/
theorem Denotes.chars {text : List Char} {bytes : List UInt8} (h : Denotes text bytes) :
    ∀ c ∈ text, c = ':' ∨ c.isAlphanum = true := by
  obtain ⟨-, sep, groups, hsep, hgroups, rfl⟩ := h
  intro c hc
  rcases chars_intercalate sep hgroups c hc with hmem | halnum
  · rcases hsep with rfl | rfl
    · exact .inl (List.mem_singleton.mp hmem)
    · cases hmem
  · exact .inr halnum

/-- It is not empty. -/
theorem Denotes.ne_nil {text : List Char} {bytes : List UInt8} (h : Denotes text bytes) :
    text ≠ [] := by
  obtain ⟨hlen, sep, groups, -, hgroups, rfl⟩ := h
  cases hgroups with
  | nil => cases hlen
  | cons hg hgs =>
    cases hg
    cases hgs with
    | nil => cases hlen
    | cons => simp

/-! ## Loose addresses -/

/-- White space. -/
def IsBlank (c : Char) : Prop := c = ' ' ∨ 9 ≤ c.toNat ∧ c.toNat ≤ 13

/-- A number of the one digit `c` stands before `rest`: no second digit follows, and it is not
the beginning of a `0x`. -/
def Ends (c : Char) (rest : List Char) : Prop :=
  ∀ d ∈ rest.head?, Hex.value d = none ∧ ¬ (c = '0' ∧ (d = 'x' ∨ d = 'X'))

/-- `Field lone0x text b rest`: before `rest`, a number of at most two characters is read from
`text`, as the byte `b`. With `lone0x` a `0x` is read as zero. -/
inductive Field (lone0x : Bool) : List Char → UInt8 → List Char → Prop
  | blank {c : Char} {text rest : List Char} {b : UInt8} (hc : IsBlank c)
      (h : Field lone0x text b rest) : Field lone0x (c :: text) b rest
  | group {g rest : List Char} {b : UInt8} (h : Group g b) : Field lone0x g b rest
  | digit {c : Char} {x : Nat} {rest : List Char} (hc : Hex.value c = some x)
      (hends : Ends c rest) : Field lone0x [c] (UInt8.ofNat x) rest
  | plus {c : Char} {x : Nat} {rest : List Char} (hc : Hex.value c = some x) :
      Field lone0x ['+', c] (UInt8.ofNat x) rest
  | minus {c : Char} {x : Nat} {rest : List Char} (hc : Hex.value c = some x) :
      Field lone0x ['-', c] (0 - UInt8.ofNat x) rest
  | lone {c : Char} {rest : List Char} (hlone : lone0x = true) (hc : c = 'x' ∨ c = 'X') :
      Field lone0x ['0', c] 0 rest

/-- A text that begins with fields with `sep` between them, and goes on in any way. -/
inductive Fields (lone0x : Bool) (sep : List Char) : List Char → List UInt8 → Prop
  | last {text rest : List Char} {b : UInt8} (h : Field lone0x text b rest) :
      Fields lone0x sep (text ++ rest) [b]
  | cons {text rest : List Char} {b : UInt8} {bytes : List UInt8}
      (h : Field lone0x text b (sep ++ rest)) (hs : Fields lone0x sep rest bytes) :
      Fields lone0x sep (text ++ (sep ++ rest)) (b :: bytes)

/-- The text begins with six fields. -/
def Loose (lone0x : Bool) (text : List Char) (bytes : List UInt8) : Prop :=
  bytes.length = 6 ∧ ∃ sep, IsSeparator sep ∧ Fields lone0x sep text bytes

/-- The characters of a loose address. -/
def InField (c : Char) : Prop :=
  IsBlank c ∨ (∃ x, Hex.value c = some x) ∨ c = '+' ∨ c = '-' ∨ c = ':' ∨ c = 'x' ∨ c = 'X'

theorem not_inField_dot : ¬ InField '.' := by
  rintro (hblank | ⟨x, hx⟩ | heq | heq | heq | heq | heq)
  · exact absurd hblank (by unfold IsBlank; decide)
  · cases hx
  all_goals exact absurd heq (by decide)

variable {lone0x : Bool}

/-- A field has a character at least. -/
theorem Field.length_pos {text rest : List Char} {b : UInt8} (h : Field lone0x text b rest) :
    0 < text.length := by
  cases h with
  | group hg => cases hg; simp
  | _ => simp

theorem Field.inField {text rest : List Char} {b : UInt8} (h : Field lone0x text b rest) :
    ∀ c ∈ text, InField c := by
  induction h with
  | blank hc _ ih =>
    intro d hd
    cases hd with
    | head => exact .inl hc
    | tail _ hd => exact ih d hd
  | group hg =>
    cases hg with
    | mk ha hb => simp [InField, ha, hb]
  | digit hc _ => simp [InField, hc]
  | plus hc => simp [InField, hc]
  | minus hc => simp [InField, hc]
  | lone _ hc =>
    intro d hd
    rcases hc with rfl | rfl <;> revert d <;> simp [InField, Hex.value]

/-- Fields take a character for each byte, and only characters of loose addresses. -/
theorem Fields.taken {sep text : List Char} {bytes : List UInt8} (hsep : IsSeparator sep)
    (h : Fields lone0x sep text bytes) :
    ∃ taken rest, text = taken ++ rest ∧ bytes.length ≤ taken.length ∧ ∀ c ∈ taken, InField c := by
  induction h with
  | @last text rest b h =>
    exact ⟨text, rest, rfl, h.length_pos, h.inField⟩
  | @cons text rest b bytes h _ ih =>
    obtain ⟨taken, after, rfl, hlen, hchars⟩ := ih
    have hpos := h.length_pos
    refine ⟨text ++ (sep ++ taken), after, by simp, ?_, ?_⟩
    · simp only [List.length_cons, List.length_append]
      omega
    · intro c hc
      rw [List.mem_append, List.mem_append] at hc
      rcases hc with hc | hc | hc
      · exact h.inField c hc
      · rcases hsep with rfl | rfl
        · rw [List.mem_singleton] at hc
          exact .inr (.inr (.inr (.inr (.inl hc))))
        · cases hc
      · exact hchars c hc

/-- The first six characters of a loose address are characters of loose addresses. -/
theorem Loose.inField {text : List Char} {bytes : List UInt8} (h : Loose lone0x text bytes) :
    ∀ c ∈ text.take 6, InField c := by
  obtain ⟨hlen, sep, hsep, hfields⟩ := h
  obtain ⟨taken, rest, rfl, hle, hchars⟩ := hfields.taken hsep
  intro c hc
  rw [List.take_append_of_le_length (by omega)] at hc
  exact hchars c (List.mem_of_mem_take hc)

/-! ## The notation with dashes -/

theorem ends_dash (c : Char) (rest : List Char) : Ends c ('-' :: rest) := by
  intro d hd
  cases hd
  exact ⟨rfl, fun h => by cases h.2 <;> contradiction⟩

/-- The group between two dashes is read as two numbers: the first dash is the sign of one. -/
theorem Fields.dashed {a b : Char} {x y : Nat} {rest : List Char} {bytes : List UInt8}
    (ha : Hex.value a = some x) (hb : Hex.value b = some y)
    (h : Fields lone0x [] ('-' :: rest) bytes) :
    Fields lone0x [] ('-' :: a :: b :: '-' :: rest)
      ((0 - UInt8.ofNat x) :: UInt8.ofNat y :: bytes) :=
  have hdigit : Fields lone0x [] ([b] ++ ([] ++ '-' :: rest)) (UInt8.ofNat y :: bytes) :=
    .cons (.digit hb (ends_dash b rest)) h
  Fields.cons (.minus ha) hdigit

/-- Six groups with dashes between them are a loose address: three groups and a half give
the six numbers. -/
theorem loose_dashed {groups : List (List Char)} {bytes : List UInt8}
    (h : List.Forall₂ Group groups bytes) (hlen : bytes.length = 6) :
    ∃ bytes', Loose lone0x (List.intercalate ['-'] groups) bytes' := by
  match bytes, hlen, h with
  | [_, _, _, _, _, _], _, .cons h₀ (.cons h₁ (.cons h₂ (.cons h₃ (.cons _ _)))) =>
    cases h₁ with
    | mk ha hb =>
      cases h₂ with
      | mk hc hd =>
        cases h₃ with
        | mk he _ =>
          refine ⟨_, ?_, [], .inr rfl,
            Fields.cons (.group h₀) (.dashed ha hb (.dashed hc hd (.last (.minus he))))⟩
          rfl

end MacText
