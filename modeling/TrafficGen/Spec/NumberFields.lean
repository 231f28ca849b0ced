import Mathlib.Data.Nat.Prime.Basic
import Mathlib.Data.UInt
import TrafficGen.ForStd.JsonNumber
import TrafficGen.Spec.ConfigText

/-!
# Numbers stored in the fields of a configuration

A number is read up to its point or its exponent, then negated in 64 bits when it has a sign, and
then cut to the width of its field. A field holds what was written only when all of this changes
nothing.

## Key results

- `strtoull_number`: what a number is converted to
- `storedAsWritten_iff`: the numbers that fields never get wrong
-/

namespace TrafficGen.ConfigParser

open Json (Number)

/-- The members `parse_uint` reads into fields of 16 bits. -/
def uint16Members : List String :=
  ["port_id", "nb_rx_queues", "nb_tx_queues", "nb_rx_desc", "nb_tx_desc", "queue_id", "port",
    "tx_burst_size", "rx_burst_size"]

/-- The members `parse_uint` reads into fields of 32 bits. -/
def uint32Members : List String :=
  ["num_cores", "mbufs_per_socket", "mbuf_cache_size", "core_id"]

/-- A number is written as the value of the member that a search for `key` finds. -/
inductive WrittenAs (key : String) (v : Number) : List Char → Prop
  | mk {before ws ws' ws'' rest : List Char} {c : Char}
      (hfirst : List.SkipFree (quoted key) before
        (quoted key ++ (ws ++ ':' :: (ws' ++ (v.text ++ (ws'' ++ c :: rest))))))
      (hws : ∀ d ∈ ws, Json.IsSpace d) (hws' : ∀ d ∈ ws', Json.IsSpace d)
      (hws'' : ∀ d ∈ ws'', Json.IsSpace d) (hc : c = ',' ∨ c = '}') :
      WrittenAs key v
        (before ++ (quoted key ++ (ws ++ ':' :: (ws' ++ (v.text ++ (ws'' ++ c :: rest))))))

/-- A field that is given a value by a number is given the number. -/
def StoredAsWritten (field : Option Nat) (v : Number) : Prop := ∀ n, field = some n → v.value = n

/-- The number is its own integer part and fits in `width` bits; or it is the largest one that
    does, with an integer part too large for 64 bits. -/
def FitsIn (width : Nat) (v : Number) : Prop :=
  (v.value = v.intPart ∧ v.intPart < 2 ^ width) ∨
    (2 ^ 64 ≤ v.intPart ∧ v.value = (2 ^ width - 1 : Nat))

/-! ## Reading a number -/

/-- What `strtoull` makes of a number. -/
def converted (v : Number) : UInt64 :=
  if UInt64.size ≤ v.intPart then UInt64.ofNat (UInt64.size - 1)
  else if v.negative then -UInt64.ofNat v.intPart else UInt64.ofNat v.intPart

/-- A number holds no character that ends a raw value or starts another kind of one. -/
theorem isBare_of_mem_text {v : Number} {c : Char} (h : c ∈ v.text) : IsBare c := by
  cases Json.Number.mem_text h with
  | inl hdigit => exact isBare_of_isAlphanum (isAlphanum_of_isDigit hdigit)
  | inr hother =>
    have hall : ∀ c ∈ ['-', '+', '.', 'e', 'E'], IsBare c := by simp [IsBare, isSpace]
    exact hall c hother

theorem text_ne_nil (v : Number) : v.text ≠ [] := by
  unfold Json.Number.text
  simp [v.int_digits.1]

/-- A number that is written as the value of a member is what its search finds. -/
theorem findRawValue_written {key : String} (hkey : ':' ∉ quoted key) {v : Number}
    {json : List Char} (h : WrittenAs key v json) :
    ∃ ws, (∀ d ∈ ws, Json.IsSpace d) ∧ findRawValue json key = v.text ++ ws := by
  cases h with
  | @mk before ws ws' ws'' rest c hfirst hws hws' hws'' hc =>
    have hcolon : ':' ∉ ws := not_mem_of_space hws Json.not_isSpace_colon
    refine ⟨ws'', hws'', ?_⟩
    unfold findRawValue
    rw [List.search_skip hfirst, List.search_of_prefix (List.prefix_append _ _)]
    dsimp only
    rw [List.search_skip (List.skipFree_of_not_mem hkey _), List.search_singleton hcolon]
    exact rawValue_bare (text_ne_nil v) (fun _ => isBare_of_mem_text) hws' hws'' hc

/-- The digits in front of the point. -/
theorem takeWhile_int (v : Number) {s : List Char} (hs : ∀ c ∈ s.head?, c.isDigit = false) :
    (v.int ++ s).takeWhile Char.isDigit = v.int := by
  have hend : s.takeWhile Char.isDigit = [] := by
    cases s with
    | nil => rfl
    | cons c s => exact List.takeWhile_cons_of_neg (by simp [hs c rfl])
  rw [List.takeWhile_append_of_pos v.int_digits.2, hend, List.append_nil]

/-- Behind the digits comes none. -/
theorem head_behind_int (v : Number) {ws : List Char} (hws : ∀ d ∈ ws, Json.IsSpace d) :
    ∀ c ∈ (v.fracText ++ v.expText ++ ws).head?, c.isDigit = false := by
  intro c hc
  unfold Json.Number.fracText at hc
  split at hc
  · unfold Json.Number.expText at hc
    cases hexp : v.exp with
    | none =>
      rw [hexp] at hc
      exact isDigit_of_space (hws c (List.mem_of_head? hc))
    | some e =>
      rw [hexp] at hc
      obtain rfl : e.letter = c := by simpa [Json.Exponent.text] using hc
      cases e.letter_ok with
      | inl h => rw [h]; decide
      | inr h => rw [h]; decide
  · obtain rfl : '.' = c := by simpa using hc
    decide

/-- The digits up to the point are converted, whatever follows them. -/
theorem strtoull_number (v : Number) {ws : List Char} (hws : ∀ d ∈ ws, Json.IsSpace d) :
    strtoull (v.text ++ ws) = some (converted v) := by
  have hdigits := takeWhile_int v (head_behind_int v hws)
  have htext : v.text ++ ws = v.signText ++ (v.int ++ (v.fracText ++ v.expText ++ ws)) := by
    simp only [Json.Number.text, List.append_assoc]
  rw [htext]
  generalize v.fracText ++ v.expText ++ ws = s at hdigits
  unfold Json.Number.signText converted
  cases hneg : v.negative with
  | true =>
    have hdrop : ('-' :: (v.int ++ s)).dropWhile isSpace = '-' :: (v.int ++ s) :=
      List.dropWhile_cons_of_neg (by decide)
    unfold strtoull
    simp only [if_true, List.singleton_append, hdrop, hdigits, if_neg v.int_digits.1]
    exact (apply_ite some _ _ _).symm
  | false =>
    cases hint : v.int with
    | nil => exact absurd hint v.int_digits.1
    | cons c cs =>
      have hc := isAlphanum_of_isDigit (v.int_digits.2 c (hint ▸ List.mem_cons_self))
      rw [hint] at hdigits
      simp only [Bool.false_eq_true, if_false, List.nil_append, List.cons_append] at hdigits ⊢
      rw [strtoull_cons (isSpace_of_isAlphanum hc) (ne_of_isAlphanum hc (by decide))
        (ne_of_isAlphanum hc (by decide)), hdigits, ← hint]
      unfold ofDigits
      rw [if_neg v.int_digits.1]
      exact (apply_ite some _ _ _).symm

/-! ## Cutting to the width of a field -/

/-- A number of `width` bits with zeros behind it is cut to something else, unless it is zero. -/
theorem eq_zero_of_mul_mod {width r k : Nat} (hr : r < 2 ^ width) (hk : k ≠ 0)
    (h : r * 10 ^ k % 2 ^ width = r) : r = 0 := by
  have hpow : 1 ≤ 10 ^ k := Nat.one_le_pow _ _ (by decide)
  have hodd : Odd (10 ^ k - 1) := by
    apply Nat.Even.sub_odd hpow _ odd_one
    exact (by decide : Even 10).pow_of_ne_zero hk
  have hcongr : r ≡ r * 10 ^ k [MOD 2 ^ width] := by
    show r % 2 ^ width = r * 10 ^ k % 2 ^ width
    rw [h, Nat.mod_eq_of_lt hr]
  have hdvd : 2 ^ width ∣ r * (10 ^ k - 1) := by
    rw [Nat.mul_sub, Nat.mul_one]
    exact (Nat.modEq_iff_dvd' (Nat.le_mul_of_pos_right r hpow)).mp hcongr
  -- a power of two and a string of nines have no factor in common
  have hcoprime : Nat.Coprime (2 ^ width) (10 ^ k - 1) :=
    Nat.Coprime.pow_left width (Nat.coprime_two_left.mpr hodd)
  exact Nat.eq_zero_of_dvd_of_lt (hcoprime.dvd_of_dvd_mul_right hdvd) hr

theorem largest_mod {width : Nat} (hwidth : width ≤ 64) :
    (2 ^ 64 - 1) % 2 ^ width = 2 ^ width - 1 := by
  have hsplit : 2 ^ 64 - 1 = 2 ^ width * (2 ^ (64 - width) - 1) + (2 ^ width - 1) := by
    have hpow : 2 ^ 64 = 2 ^ width * 2 ^ (64 - width) := by
      rw [← Nat.pow_add, Nat.add_sub_cancel' hwidth]
    have hlow : 2 ^ width ≤ 2 ^ width * 2 ^ (64 - width) :=
      Nat.le_mul_of_pos_right _ (Nat.two_pow_pos _)
    have hone : 1 ≤ 2 ^ width := Nat.two_pow_pos width
    rw [hpow, Nat.mul_sub, Nat.mul_one]
    omega
  rw [hsplit, Nat.mul_add_mod]
  exact Nat.mod_eq_of_lt (Nat.sub_lt (Nat.two_pow_pos width) Nat.one_pos)

variable {v : Number} {width : Nat}

theorem toNat_converted_of_le (h : 2 ^ 64 ≤ v.intPart) : (converted v).toNat = 2 ^ 64 - 1 := by
  unfold converted
  rw [if_pos (show UInt64.size ≤ v.intPart from h)]
  rfl

theorem toNat_converted (hneg : v.negative = false) (h : v.intPart < 2 ^ 64) :
    (converted v).toNat = v.intPart := by
  unfold converted
  rw [if_neg (show ¬ UInt64.size ≤ v.intPart from Nat.not_le.mpr h), hneg]
  exact UInt64.toNat_ofNat_of_lt h

theorem converted_eq_zero (h : v.intPart = 0) : converted v = 0 := by
  unfold converted
  rw [h]
  cases v.negative
  all_goals rfl

/-- A number that is no larger than 64 bits allow is cut to itself only when it is an integer. -/
theorem intPart_of_value_eq (hsmall : v.intPart < 2 ^ 64)
    (h : v.value = ((converted v).toNat % 2 ^ width : Nat)) :
    v.value = v.intPart ∧ v.intPart < 2 ^ width := by
  have hlt : (converted v).toNat % 2 ^ width < 2 ^ width := Nat.mod_lt _ (Nat.two_pow_pos width)
  cases hneg : v.negative with
  | true =>
    have hzero := v.magnitude_eq_zero_of_negative hneg h
    have hint := Json.Number.intPart_eq_zero hzero
    rw [v.value_of_negative hneg, hzero, hint]
    exact ⟨neg_zero, Nat.two_pow_pos width⟩
  | false =>
    rw [toNat_converted hneg hsmall] at h hlt
    have hmagnitude := (v.value_of_not_negative hneg).symm.trans h
    have hint : v.intPart % 2 ^ width = v.intPart := by
      cases Json.Number.magnitude_eq_natCast hmagnitude with
      | inl hle => exact Nat.le_antisymm (Nat.mod_le _ _) hle
      | inr hpow =>
        -- the digits are those of the value with `k` zeros, and all were converted
        obtain ⟨k, hk⟩ := hpow
        by_cases hk0 : k = 0
        · rw [hk0, pow_zero, Nat.mul_one] at hk
          exact hk.symm
        · have hmod : v.intPart % 2 ^ width * 10 ^ k % 2 ^ width = v.intPart % 2 ^ width := by
            rw [← hk]
          have hzero := eq_zero_of_mul_mod hlt hk0 hmod
          rw [hzero, hk, hzero, Nat.zero_mul]
    rw [hint] at h hlt
    exact ⟨h, hlt⟩

/-- The numbers that are left as they are by the conversion and the cut. -/
theorem value_eq_mod_iff (v : Number) (hwidth : width ≤ 64) :
    v.value = ((converted v).toNat % 2 ^ width : Nat) ↔ FitsIn width v := by
  have hpow : 2 ^ width ≤ 2 ^ 64 := Nat.pow_le_pow_right (by decide) hwidth
  by_cases hbig : 2 ^ 64 ≤ v.intPart
  · -- too large for `strtoull`, with a sign or without
    rw [toNat_converted_of_le hbig, largest_mod hwidth]
    constructor
    · intro h
      exact .inr ⟨hbig, h⟩
    · intro h
      cases h with
      | inl h => exact absurd (Nat.lt_of_lt_of_le h.2 hpow) (Nat.not_lt.mpr hbig)
      | inr h => exact h.2
  · constructor
    · intro h
      exact .inl (intPart_of_value_eq (Nat.not_le.mp hbig) h)
    · intro h
      cases h with
      | inr h => exact absurd h.1 hbig
      | inl h =>
        obtain ⟨hvalue, hlt⟩ := h
        cases hneg : v.negative with
        | true =>
          have hint := Json.Number.intPart_eq_zero (v.magnitude_eq_zero_of_negative hneg hvalue)
          rw [converted_eq_zero hint, hvalue, hint]
          rfl
        | false => rw [toNat_converted hneg (Nat.not_le.mp hbig), Nat.mod_eq_of_lt hlt, hvalue]

/-! ## Stored numbers -/

/-- What `parse_uint` finds for a member. -/
theorem parseUint_written {α : Type} (cut : UInt64 → α) {json : List Char} {key : String}
    (hkey : ':' ∉ quoted key) (h : WrittenAs key v json) :
    parseUint cut json key = some (cut (converted v)) := by
  obtain ⟨ws, hws, hraw⟩ := findRawValue_written hkey h
  unfold parseUint
  rw [hraw, if_neg (List.append_ne_nil_of_left_ne_nil (text_ne_nil v) ws), strtoull_number v hws]
  rfl

theorem storedAsWritten_some {n : Nat} : StoredAsWritten (some n) v ↔ v.value = n := by
  constructor
  · intro h
    exact h n rfl
  · intro h m hm
    cases hm
    exact h

/-- Of the numbers written as the value of a member, a field of 16 or of 32 bits is given no other
    number only for those that are integers of its width, and for ways to write the largest one
    that is. -/
theorem storedAsWritten_iff {json : List Char} {key : String} {v : Number}
    (hwritten : WrittenAs key v json) :
    (key ∈ uint16Members →
      (StoredAsWritten ((parseUint UInt64.toUInt16 json key).map UInt16.toNat) v ↔
        FitsIn 16 v)) ∧
    (key ∈ uint32Members →
      (StoredAsWritten ((parseUint UInt64.toUInt32 json key).map UInt32.toNat) v ↔
        FitsIn 32 v)) := by
  constructor
  · intro hmem
    have hkey : ':' ∉ quoted key := (by decide : ∀ k ∈ uint16Members, ':' ∉ quoted k) key hmem
    rw [parseUint_written _ hkey hwritten, Option.map_some, storedAsWritten_some,
      UInt64.toNat_toUInt16]
    exact value_eq_mod_iff v (by decide)
  · intro hmem
    have hkey : ':' ∉ quoted key := (by decide : ∀ k ∈ uint32Members, ':' ∉ quoted k) key hmem
    rw [parseUint_written _ hkey hwritten, Option.map_some, storedAsWritten_some,
      UInt64.toNat_toUInt32]
    exact value_eq_mod_iff v (by decide)

/-! ### A burst size with a sign -/

/-- An integer of one digit. -/
def oneDigit (negative : Bool) (d : Char) (hd : d.isDigit = true) (hd' : d ≠ '0') : Number where
  negative := negative
  int := [d]
  frac := []
  exp := none
  int_ok := .inr ⟨⟨List.cons_ne_nil _ _, List.forall_mem_singleton.mpr hd⟩,
    fun h => hd' (Option.some.inj h)⟩
  frac_ok := List.forall_mem_nil _

/-- A configuration that sets nothing but the burst size. -/
def burstSizeText (v : Number) : List Char :=
  '{' :: (quoted "tx_burst_size" ++ ':' :: (v.text ++ ['}']))

theorem writtenAs_burstSizeText (v : Number) :
    WrittenAs "tx_burst_size" v (burstSizeText v) := by
  apply @WrittenAs.mk _ _ ['{'] [] [] [] [] '}'
  · exact List.skipFree_of_not_mem (by decide) _
  · exact List.forall_mem_nil _
  · exact List.forall_mem_nil _
  · exact List.forall_mem_nil _
  · exact .inr rfl

theorem value_oneDigit {d : Char} (hd : d.isDigit = true) (hd' : d ≠ '0') :
    (oneDigit false d hd hd').value = (oneDigit false d hd hd').intPart ∧
      (oneDigit true d hd hd').value = -(oneDigit true d hd hd').intPart := by
  simp [Json.Number.value, Json.Number.magnitude, Json.Number.fracPart, Json.Number.exponent,
    oneDigit]

/-- A burst size of 8 is stored. -/
theorem storedAsWritten_eight :
    StoredAsWritten ((parseUint UInt64.toUInt16
      (burstSizeText (oneDigit false '8' (by decide) (by decide))) "tx_burst_size").map
        UInt16.toNat) (oneDigit false '8' (by decide) (by decide)) := by
  apply ((storedAsWritten_iff (writtenAs_burstSizeText _)).1 (by decide)).mpr
  exact .inl ⟨(value_oneDigit _ _).1, by decide⟩

/-- A burst size of -1 is stored as 65535. -/
theorem not_storedAsWritten_minusOne :
    WrittenAs "tx_burst_size" (oneDigit true '1' (by decide) (by decide))
        (burstSizeText (oneDigit true '1' (by decide) (by decide))) ∧
      ¬ StoredAsWritten ((parseUint UInt64.toUInt16
        (burstSizeText (oneDigit true '1' (by decide) (by decide))) "tx_burst_size").map
          UInt16.toNat) (oneDigit true '1' (by decide) (by decide)) := by
  refine ⟨writtenAs_burstSizeText _, ?_⟩
  have hstored : (parseUint UInt64.toUInt16
      (burstSizeText (oneDigit true '1' (by decide) (by decide))) "tx_burst_size").map
        UInt16.toNat = some 65535 := by decide
  rw [hstored, storedAsWritten_some, (value_oneDigit _ _).2]
  have hint : (oneDigit true '1' (by decide) (by decide)).intPart = 1 := by decide
  rw [hint]
  norm_num

end TrafficGen.ConfigParser
