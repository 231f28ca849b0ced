import Mathlib.Data.List.Basic

/-!
# Hexadecimal digits

The value of a hexadecimal digit in either letter case.
-/

namespace Hex

/-- The value of a hexadecimal digit. -/
def value (c : Char) : Option Nat :=
  if c.isDigit then some (c.toNat - '0'.toNat)
  else if 'a' ≤ c ∧ c ≤ 'f' then some (c.toNat - 'a'.toNat + 10)
  else if 'A' ≤ c ∧ c ≤ 'F' then some (c.toNat - 'A'.toNat + 10)
  else none

/-- Hexadecimal digits are letters and digits. -/
theorem isAlphanum_of_value {c : Char} {n : Nat} (h : value c = some n) :
    c.isAlphanum = true := by
  unfold value at h
  show ((c.isUpper || c.isLower) || c.isDigit) = true
  rw [Bool.or_eq_true, Bool.or_eq_true]
  split at h
  · next hdigit => exact .inr hdigit
  · split at h
    · next hlower =>
      have hle : c ≤ 'z' := Char.le_trans hlower.2 (by decide)
      exact .inl (.inr (Bool.and_eq_true_iff.mpr
        ⟨decide_eq_true hlower.1, decide_eq_true hle⟩))
    · split at h
      · next hupper =>
        have hle : c ≤ 'Z' := Char.le_trans hupper.2 (by decide)
        exact .inl (.inl (decide_eq_true ⟨hupper.1, hle⟩))
      · cases h

/-- They come after the signs and the blanks. -/
theorem le_toNat_of_value {c : Char} {n : Nat} (h : value c = some n) : 48 ≤ c.toNat := by
  unfold value at h
  split at h
  · next hdigit =>
    have hle : decide (c.val ≥ '0'.val) = true := (Bool.and_eq_true_iff.mp hdigit).1
    exact of_decide_eq_true hle
  · split at h
    · next hlower =>
      have hle : ('a' : Char).toNat ≤ c.toNat := hlower.1
      have ha : ('a' : Char).toNat = 97 := rfl
      omega
    · split at h
      · next hupper =>
        have hle : ('A' : Char).toNat ≤ c.toNat := hupper.1
        have ha : ('A' : Char).toNat = 65 := rfl
        omega
      · cases h

end Hex
