import Mathlib.Algebra.Order.Field.Basic
import Mathlib.Algebra.Order.Field.Power
import Mathlib.Algebra.Order.Ring.Rat
import Mathlib.Tactic.Linarith
import Mathlib.Tactic.Positivity
import TrafficGen.ForStd.JsonGrammar

/-!
# Numbers of JSON

A number as the parts its text is put together from, and the rational it denotes. A number that
denotes a natural number `r` has an integer part of at most `r`, unless it is `r` with its point
moved to the right and moved back by the exponent.

## Key results

- `Number.magnitude_eq_natCast`: the integer parts of the numbers that denote `r`
- `isNumber_iff`: the texts of numbers are those of the grammar
-/

namespace Json

/-! ## The parts of a number -/

structure Exponent where
  letter : Char
  sign : List Char
  digits : List Char
  letter_ok : letter = 'e' ∨ letter = 'E'
  sign_ok : sign = [] ∨ sign = ['+'] ∨ sign = ['-']
  digits_ok : IsDigits digits

namespace Exponent

def text (e : Exponent) : List Char := e.letter :: (e.sign ++ e.digits)

/-- The power of ten it stands for. -/
def value (e : Exponent) : Int :=
  let n : Int := Nat.ofDigitChars 10 e.digits 0
  if e.sign = ['-'] then -n else n

end Exponent

/-- The characters exponents are written with. -/
theorem Exponent.mem_text {e : Exponent} {c : Char} (h : c ∈ e.text) :
    c.isDigit = true ∨ c ∈ ['-', '+', '.', 'e', 'E'] := by
  unfold text at h
  rw [List.mem_cons, List.mem_append] at h
  match h with
  | .inl hletter =>
    apply Or.inr
    cases e.letter_ok with
    | inl hc => simp [hletter, hc]
    | inr hc => simp [hletter, hc]
  | .inr (.inl hsign) =>
    apply Or.inr
    match e.sign_ok with
    | .inl hnil => exact absurd (hnil ▸ hsign) List.not_mem_nil
    | .inr (.inl hplus) => simp [List.mem_singleton.mp (hplus ▸ hsign)]
    | .inr (.inr hminus) => simp [List.mem_singleton.mp (hminus ▸ hsign)]
  | .inr (.inr hdigits) => exact .inl (e.digits_ok.2 c hdigits)

/-- A number. Without a fraction there are no digits for one. -/
structure Number where
  negative : Bool
  int : List Char
  frac : List Char
  exp : Option Exponent
  int_ok : int = ['0'] ∨ IsDigits int ∧ int.head? ≠ some '0'
  frac_ok : ∀ c ∈ frac, c.isDigit = true

namespace Number

variable (v : Number)

def signText : List Char := if v.negative then ['-'] else []

def fracText : List Char := if v.frac = [] then [] else '.' :: v.frac

def expText : List Char := (v.exp.map Exponent.text).getD []

/-- A number as it is written. -/
def text : List Char := v.signText ++ (v.int ++ (v.fracText ++ v.expText))

/-- What the digits in front of the point and of the exponent denote. -/
def intPart : Nat := Nat.ofDigitChars 10 v.int 0

def fracPart : ℚ := Nat.ofDigitChars 10 v.frac 0 / 10 ^ v.frac.length

def exponent : Int := (v.exp.map Exponent.value).getD 0

/-- What a number denotes without its sign. -/
def magnitude : ℚ := (v.intPart + v.fracPart) * 10 ^ v.exponent

/-- What a number denotes. -/
def value : ℚ := if v.negative then -v.magnitude else v.magnitude

end Number

/-! ## The grammar -/

theorem Number.isNumber (v : Number) : IsNumber v.text := by
  apply IsNumber.mk
  · cases hneg : v.negative with
    | true => exact .inr (by rw [signText, hneg]; rfl)
    | false => exact .inl (by rw [signText, hneg]; rfl)
  · exact v.int_ok
  · by_cases hfrac : v.frac = []
    · exact .inl (if_pos hfrac)
    · exact .inr ⟨v.frac, if_neg hfrac, hfrac, v.frac_ok⟩
  · cases hexp : v.exp with
    | none => exact .inl (by rw [expText, hexp]; rfl)
    | some e =>
      refine .inr ⟨e.letter, e.sign, e.digits, ?_, e.letter_ok, e.sign_ok, e.digits_ok⟩
      rw [expText, hexp]
      rfl

/-- The numbers are those of the grammar. -/
theorem isNumber_iff {s : List Char} : IsNumber s ↔ ∃ v : Number, v.text = s := by
  constructor
  · intro h
    cases h with
    | @mk sign int frac exp hsign hint hfrac hexp =>
      obtain ⟨negative, hneg⟩ : ∃ b : Bool, (if b then ['-'] else []) = sign := by
        cases hsign with
        | inl h => exact ⟨false, h.symm⟩
        | inr h => exact ⟨true, h.symm⟩
      obtain ⟨ds, hds, hfracText⟩ : ∃ ds, (∀ c ∈ ds, c.isDigit = true) ∧
          (if ds = [] then [] else '.' :: ds) = frac := by
        cases hfrac with
        | inl h => exact ⟨[], List.forall_mem_nil _, h.symm⟩
        | inr h =>
          obtain ⟨ds, rfl, hne, hds⟩ := h
          exact ⟨ds, hds, if_neg hne⟩
      obtain ⟨e, he⟩ : ∃ e : Option Exponent, (e.map Exponent.text).getD [] = exp := by
        cases hexp with
        | inl h => exact ⟨none, h.symm⟩
        | inr h =>
          obtain ⟨letter, expSign, digits, rfl, hletter, hexpSign, hdigits⟩ := h
          exact ⟨some ⟨letter, expSign, digits, hletter, hexpSign, hdigits⟩, rfl⟩
      refine ⟨⟨negative, int, ds, e, hint, hds⟩, ?_⟩
      simp only [Number.text, Number.signText, Number.fracText, Number.expText, hneg, hfracText, he]
  · intro ⟨v, hv⟩
    exact hv ▸ v.isNumber

/-! ## What a number denotes -/

theorem ofDigitChars_lt {ds : List Char} (hds : ∀ c ∈ ds, c.isDigit = true) :
    Nat.ofDigitChars 10 ds 0 < 10 ^ ds.length := by
  induction ds with
  | nil => exact Nat.one_pos
  | cons c ds ih =>
    obtain ⟨hc, hds⟩ := List.forall_mem_cons.mp hds
    have hdigit : c.toNat - '0'.toNat < 10 := by
      have hle : c.toNat ≤ '9'.toNat := by
        have := (Char.isDigit_iff_toNat.mp hc).2
        simpa using this
      have h0 : '0'.toNat = 48 := rfl
      have h9 : '9'.toNat = 57 := rfl
      omega
    have hrest := ih hds
    have hmul := Nat.mul_le_mul_left (10 ^ ds.length) (Nat.le_of_lt_succ hdigit)
    rw [Nat.ofDigitChars_cons, Nat.ofDigitChars_eq_ofDigitChars_zero, List.length_cons, pow_succ,
      Nat.mul_zero, Nat.zero_add]
    omega

namespace Number

theorem int_digits (v : Number) : IsDigits v.int := by
  cases v.int_ok with
  | inl h =>
    rw [h]
    exact ⟨List.cons_ne_nil _ _, List.forall_mem_singleton.mpr (by decide)⟩
  | inr h => exact h.1

variable {v : Number}

/-- The characters numbers are written with. -/
theorem mem_text {c : Char} (h : c ∈ v.text) :
    c.isDigit = true ∨ c ∈ ['-', '+', '.', 'e', 'E'] := by
  simp only [text, List.mem_append] at h
  match h with
  | .inl hsign =>
    unfold signText at hsign
    split at hsign
    · exact .inr (by simp [List.mem_singleton.mp hsign])
    · exact absurd hsign List.not_mem_nil
  | .inr (.inl hint) => exact .inl (v.int_digits.2 c hint)
  | .inr (.inr (.inl hfrac)) =>
    unfold fracText at hfrac
    split at hfrac
    · exact absurd hfrac List.not_mem_nil
    · cases List.mem_cons.mp hfrac with
      | inl hpoint => exact .inr (by simp [hpoint])
      | inr hdigit => exact .inl (v.frac_ok c hdigit)
  | .inr (.inr (.inr hexp)) =>
    unfold expText at hexp
    cases hv : v.exp with
    | none =>
      rw [hv] at hexp
      exact absurd hexp List.not_mem_nil
    | some e =>
      rw [hv] at hexp
      exact e.mem_text hexp

theorem fracPart_nonneg : 0 ≤ v.fracPart := by
  unfold fracPart
  positivity

theorem fracPart_lt_one : v.fracPart < 1 := by
  unfold fracPart
  rw [div_lt_one (by positivity)]
  exact_mod_cast ofDigitChars_lt v.frac_ok

theorem magnitude_nonneg : 0 ≤ v.magnitude := by
  unfold magnitude
  have := v.fracPart_nonneg
  positivity

/-- A number that denotes nothing has nothing in front of its point. -/
theorem intPart_eq_zero (h : v.magnitude = 0) : v.intPart = 0 := by
  have hpow : (10 : ℚ) ^ v.exponent ≠ 0 := by positivity
  have hsum : (v.intPart : ℚ) + v.fracPart = 0 := (mul_eq_zero.mp h).resolve_right hpow
  have hint : (0 : ℚ) ≤ v.intPart := Nat.cast_nonneg _
  have hzero : (v.intPart : ℚ) = 0 := by linarith [v.fracPart_nonneg]
  exact_mod_cast hzero

/-- The integer part of a number that denotes `r`. -/
theorem magnitude_eq_natCast {r : Nat} (h : v.magnitude = r) :
    v.intPart ≤ r ∨ ∃ k, v.intPart = r * 10 ^ k := by
  have hlow := v.fracPart_nonneg
  have hhigh := v.fracPart_lt_one
  unfold magnitude at h
  obtain ⟨k, hk | hk⟩ := v.exponent.eq_nat_or_neg
  · -- the exponent moves the point to the right
    apply Or.inl
    rw [hk, zpow_natCast] at h
    have hpow : (1 : ℚ) ≤ 10 ^ k := one_le_pow₀ (by norm_num)
    have hsum : (v.intPart : ℚ) + v.fracPart ≤ r :=
      h ▸ le_mul_of_one_le_right (by positivity) hpow
    have hle : (v.intPart : ℚ) ≤ r := by linarith
    exact_mod_cast hle
  · apply Or.inr
    refine ⟨k, ?_⟩
    rw [hk, zpow_neg, zpow_natCast, mul_inv_eq_iff_eq_mul₀ (by positivity)] at h
    -- the fraction is the difference of two integers
    have hle : (v.intPart : ℚ) ≤ r * 10 ^ k := by linarith
    have hlt : (r : ℚ) * 10 ^ k < v.intPart + 1 := by linarith
    have hle' : v.intPart ≤ r * 10 ^ k := by exact_mod_cast hle
    have hlt' : r * 10 ^ k < v.intPart + 1 := by exact_mod_cast hlt
    omega

theorem value_of_negative (h : v.negative = true) : v.value = -v.magnitude := if_pos h

theorem value_of_not_negative (h : v.negative = false) : v.value = v.magnitude := by
  unfold value
  rw [h]
  rfl

/-- A number with a sign denotes a natural number only if that is zero. -/
theorem magnitude_eq_zero_of_negative (h : v.negative = true) {r : Nat} (hr : v.value = r) :
    v.magnitude = 0 := by
  have hr0 : (0 : ℚ) ≤ r := Nat.cast_nonneg r
  rw [value_of_negative h] at hr
  linarith [v.magnitude_nonneg]

end Number

end Json
