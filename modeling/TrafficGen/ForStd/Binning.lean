import Mathlib.Algebra.Order.Field.Basic
import Mathlib.Data.Int.Log
import Mathlib.Data.Rat.Cast.Order
import Mathlib.Data.Rat.Floor
import Mathlib.Tactic.Linarith
import Mathlib.Tactic.FieldSimp

/-!
# Sorting samples into bins

A list of bounds cuts a line into one bin more than there are bounds: `bin bounds x` is the
number of bounds `x` has reached. A sample that is measured in floating point may be rounded to
the other side of a bound; `Rounding` is what a format promises, `nearest` keeps the promise by
rounding to the nearest number of the format, and `le_round_div_iff` says that a quotient of small
numbers stays on its side of an integer.
-/

/-! ## Bins -/

namespace Binning

variable {α : Type*} [LinearOrder α] {bounds : List α} {x : α} {i : Nat}

/-- The bounds a sample has reached, counted from the lowest up to the first one above it. -/
def bin (bounds : List α) (x : α) : Nat :=
  (bounds.takeWhile (· ≤ x)).length

theorem bin_le_length (bounds : List α) (x : α) : bin bounds x ≤ bounds.length :=
  (List.takeWhile_prefix _).length_le

theorem bin_cons (b : α) (bounds : List α) (x : α) :
    bin (b :: bounds) x = if b ≤ x then bin bounds x + 1 else 0 := by
  rw [bin, List.takeWhile_cons]
  by_cases hb : b ≤ x
  · simp [hb, bin]
  · simp [hb]

/-- Samples on the same side of every bound are in one bin. -/
theorem bin_congr {y : α} (h : ∀ b ∈ bounds, b ≤ x ↔ b ≤ y) : bin bounds x = bin bounds y := by
  induction bounds with
  | nil => rfl
  | cons b bounds ih =>
    rw [List.forall_mem_cons] at h
    rw [bin_cons, bin_cons, ih h.2, if_congr h.1 rfl rfl]

/-- The bin of a sample lies between its bounds. -/
theorem bin_eq_iff (hsorted : bounds.Pairwise (· ≤ ·)) (hi : i ≤ bounds.length) :
    bin bounds x = i ↔
      (∀ j b, i = j + 1 → bounds[j]? = some b → b ≤ x) ∧ (∀ b, bounds[i]? = some b → x < b) := by
  induction bounds generalizing i with
  | nil =>
    obtain rfl : i = 0 := Nat.le_zero.mp hi
    simp [bin]
  | cons b bounds ih =>
    rw [List.pairwise_cons] at hsorted
    rw [bin_cons]
    cases i with
    | zero =>
      split
      · next hb => simpa using hb
      · next hb => simpa using hb
    | succ i =>
      have hi : i ≤ bounds.length := Nat.le_of_succ_le_succ hi
      split
      · next hb =>
        rw [Nat.add_right_cancel_iff, ih hsorted.2 hi, List.getElem?_cons_succ]
        refine and_congr_left fun _ => ?_
        constructor
        · intro hlow j c hj hc
          obtain rfl : j = i := (Nat.succ.inj hj).symm
          cases j with
          | zero => exact Option.some.inj hc ▸ hb
          | succ j => exact hlow j c rfl hc
        · intro hlow j c hj hc
          exact hlow (j + 1) c (congrArg (· + 1) hj) hc
      · next hb =>
        refine iff_of_false (Nat.succ_ne_zero i).symm fun ⟨hlow, _⟩ => hb ?_
        -- the bound below bin `i + 1` is `b` or one after it
        have hlt : i < (b :: bounds).length := Nat.lt_succ_of_le hi
        refine le_trans ?_ (hlow i _ rfl (List.getElem?_eq_getElem hlt))
        cases i with
        | zero => exact le_rfl
        | succ i => exact hsorted.1 _ (List.getElem_mem _)

end Binning

/-! ## Rounding -/

/-- Rounding to a binary format: monotone, and exact on numbers of `precision` bits with up to
    `scale` of them behind the point. -/
structure Rounding (precision scale : Nat) where
  round : Rat → Rat
  mono : ∀ {x y : Rat}, x ≤ y → round x ≤ round y
  exact : ∀ m k : Nat, m ≤ 2 ^ precision → k ≤ scale → round (m / 2 ^ k) = m / 2 ^ k

namespace Rounding

variable {precision scale : Nat}

/-- No rounding at all. -/
def none (precision scale : Nat) : Rounding precision scale where
  round x := x
  mono h := h
  exact _ _ _ _ := rfl

theorem round_natCast (r : Rounding precision scale) {n : Nat} (hn : n ≤ 2 ^ precision) :
    r.round n = n := by
  simpa using r.exact n 0 hn (Nat.zero_le scale)

/-- A rounded quotient reaches an integer exactly when the quotient does, if the format has room
    for a number less than one `k`th below the integer. -/
theorem le_round_div_iff (r : Rounding precision scale) {n b k j : Nat} (hk : 0 < k)
    (hkj : k ≤ 2 ^ j) (hj : j ≤ scale) (hb : b * 2 ^ j ≤ 2 ^ precision) :
    (b : Rat) ≤ r.round (r.round n / k) ↔ b * k ≤ n := by
  have hk0 : (0 : Rat) < k := Nat.cast_pos.mpr hk
  have hbk : b * k ≤ 2 ^ precision := le_trans (Nat.mul_le_mul_left b hkj) hb
  constructor
  · intro h
    by_contra hlt
    have hn : n + 1 ≤ b * k := Nat.lt_of_not_le hlt
    have hscaled : b * k ≤ b * 2 ^ j := Nat.mul_le_mul_left b hkj
    have hj0 : (0 : Rat) < 2 ^ j := pow_pos two_pos j
    -- the last number before `b` with `j` bits behind the point
    have hcast : ((b * 2 ^ j - 1 : Nat) : Rat) / 2 ^ j = b - 1 / 2 ^ j := by
      rw [Nat.cast_sub (by omega), Nat.cast_mul, Nat.cast_pow, sub_div, mul_div_assoc]
      simp
    have hbelow : r.round n / k ≤ ((b * 2 ^ j - 1 : Nat) : Rat) / 2 ^ j := by
      have hquot : (n : Rat) / k ≤ b - 1 / k := by
        rw [div_le_iff₀ hk0, sub_mul, one_div_mul_cancel hk0.ne']
        have : (n : Rat) + 1 ≤ b * k := by exact_mod_cast hn
        linarith
      have hstep : (1 : Rat) / 2 ^ j ≤ 1 / k :=
        one_div_le_one_div_of_le hk0 (by exact_mod_cast hkj)
      rw [r.round_natCast (by omega), hcast]
      linarith
    have hround := r.mono hbelow
    rw [r.exact _ _ (by omega) hj, hcast] at hround
    have : (0 : Rat) < 1 / 2 ^ j := one_div_pos.mpr hj0
    linarith
  · intro h
    have hn : ((b * k : Nat) : Rat) ≤ r.round n := by
      rw [← r.round_natCast hbk]
      exact r.mono (Nat.cast_le.mpr h)
    rw [← r.round_natCast (le_trans (Nat.le_mul_of_pos_right b (Nat.two_pow_pos j)) hb)]
    apply r.mono
    rw [le_div_iff₀ hk0]
    exact_mod_cast hn

/-! ### Rounding to nearest -/

/-- The nearest integer, and the even one of two that are equally near. -/
def toEven (q : Rat) : Int :=
  if q - ⌊q⌋ < 1 / 2 then ⌊q⌋
  else if 1 / 2 < q - ⌊q⌋ then ⌊q⌋ + 1
  else ⌊q⌋ + ⌊q⌋ % 2

theorem toEven_intCast (n : Int) : toEven n = n := by
  simp [toEven]

theorem floor_le_toEven (q : Rat) : ⌊q⌋ ≤ toEven q := by
  rw [toEven]
  split_ifs <;> omega

theorem toEven_le (q : Rat) : toEven q ≤ ⌊q⌋ + 1 := by
  rw [toEven]
  split_ifs <;> omega

theorem toEven_mono {x y : Rat} (h : x ≤ y) : toEven x ≤ toEven y := by
  rcases lt_or_eq_of_le (Int.floor_le_floor h) with hlt | heq
  · exact (toEven_le x).trans (Int.add_one_le_iff.mpr hlt |>.trans (floor_le_toEven y))
  · -- with one floor, what counts is the part behind the point
    have hfract : x - ⌊x⌋ ≤ y - ⌊y⌋ := by
      rw [heq]
      exact sub_le_sub_right h _
    rw [toEven, toEven, heq] at *
    split_ifs <;> first | omega | linarith

variable {x y : Rat}

/-- The exponent of the last bit that is kept of a number. -/
def lastBit (precision scale : Nat) (x : Rat) : Int :=
  max (Int.log 2 x + 1 - precision) (-scale)

/-- A number that is not negative, rounded at its last bit. -/
def roundMagnitude (precision scale : Nat) (x : Rat) : Rat :=
  toEven (x / 2 ^ lastBit precision scale x) * 2 ^ lastBit precision scale x

/-- Multiples of the last bit are not rounded. -/
theorem roundMagnitude_eq_self {n : Int} {e : Int} (hx : x = n * 2 ^ e)
    (he : lastBit precision scale x ≤ e) : roundMagnitude precision scale x = x := by
  obtain ⟨k, rfl⟩ := Int.le.dest he
  have hpos : (0 : Rat) < 2 ^ lastBit precision scale x := zpow_pos two_pos _
  have hquot : x / 2 ^ lastBit precision scale x = ((n * 2 ^ k : Int) : Rat) := by
    rw [div_eq_iff hpos.ne']
    conv_lhs => rw [hx]
    rw [zpow_add₀ two_ne_zero, zpow_natCast]
    push_cast
    ring
  rw [roundMagnitude, hquot, toEven_intCast, ← hquot, div_mul_cancel₀ _ hpos.ne']

theorem roundMagnitude_nonneg (hx : 0 ≤ x) : 0 ≤ roundMagnitude precision scale x := by
  have hquot : 0 ≤ x / 2 ^ lastBit precision scale x := div_nonneg hx (zpow_nonneg two_pos.le _)
  have heven : 0 ≤ toEven (x / 2 ^ lastBit precision scale x) :=
    (Int.floor_nonneg.mpr hquot).trans (floor_le_toEven _)
  exact mul_nonneg (Int.cast_nonneg heven) (zpow_nonneg two_pos.le _)

/-- A power of two that is not below the last bit bounds the rounded number when it bounds the
    number. -/
theorem roundMagnitude_le_zpow {e : Int} (hx : x ≤ 2 ^ e)
    (he : lastBit precision scale x ≤ e) : roundMagnitude precision scale x ≤ 2 ^ e := by
  obtain ⟨k, rfl⟩ := Int.le.dest he
  have hpos : (0 : Rat) < 2 ^ lastBit precision scale x := zpow_pos two_pos _
  rw [zpow_add₀ two_ne_zero, zpow_natCast, mul_comm] at hx ⊢
  have hquot : toEven (x / 2 ^ lastBit precision scale x) ≤ 2 ^ k := by
    rw [← toEven_intCast (2 ^ k)]
    exact toEven_mono (by push_cast; exact (div_le_iff₀ hpos).mpr hx)
  exact mul_le_mul_of_nonneg_right (by exact_mod_cast hquot) hpos.le

theorem zpow_le_roundMagnitude {e : Int} (hx : 2 ^ e ≤ x)
    (he : lastBit precision scale x ≤ e) : 2 ^ e ≤ roundMagnitude precision scale x := by
  obtain ⟨k, rfl⟩ := Int.le.dest he
  have hpos : (0 : Rat) < 2 ^ lastBit precision scale x := zpow_pos two_pos _
  rw [zpow_add₀ two_ne_zero, zpow_natCast, mul_comm] at hx ⊢
  have hquot : 2 ^ k ≤ toEven (x / 2 ^ lastBit precision scale x) := by
    rw [← toEven_intCast (2 ^ k)]
    exact toEven_mono (by push_cast; exact (le_div_iff₀ hpos).mpr hx)
  exact mul_le_mul_of_nonneg_right (by exact_mod_cast hquot) hpos.le

theorem roundMagnitude_mono (hprecision : 0 < precision) (hx : 0 < x) (h : x ≤ y) :
    roundMagnitude precision scale x ≤ roundMagnitude precision scale y := by
  have hlog : Int.log 2 x ≤ Int.log 2 y := Int.log_mono_right hx h
  have hlast : lastBit precision scale x ≤ lastBit precision scale y := by
    simp only [lastBit]
    omega
  rcases lt_or_eq_of_le hlast with hlt | heq
  · -- the power of two at the head of `y` separates the two
    have hbelow : lastBit precision scale y ≤ Int.log 2 y ∧ Int.log 2 x + 1 ≤ Int.log 2 y := by
      simp only [lastBit] at hlt ⊢
      omega
    have hhead : x ≤ 2 ^ Int.log 2 y :=
      (Int.lt_zpow_succ_log_self one_lt_two x).le.trans
        (zpow_le_zpow_right₀ one_le_two hbelow.2)
    exact (roundMagnitude_le_zpow hhead (hlt.le.trans hbelow.1)).trans
      (zpow_le_roundMagnitude (Int.zpow_log_le_self one_lt_two (hx.trans_le h)) hbelow.1)
  · rw [roundMagnitude, roundMagnitude, heq]
    have hpos : (0 : Rat) < 2 ^ lastBit precision scale y := zpow_pos two_pos _
    have hquot := toEven_mono (div_le_div_of_nonneg_right h hpos.le)
    exact mul_le_mul_of_nonneg_right (Int.cast_le.mpr hquot) hpos.le

theorem roundMagnitude_exact (hprecision : 0 < precision) {m k : Nat} (hm : m ≤ 2 ^ precision)
    (hk : k ≤ scale) : roundMagnitude precision scale (m / 2 ^ k) = m / 2 ^ k := by
  have hform : ∀ n : Nat, (n : Rat) / 2 ^ k = (n : Int) * 2 ^ (-k : Int) := fun n => by
    rw [zpow_neg, zpow_natCast, div_eq_mul_inv, Int.cast_natCast]
  rcases Nat.eq_zero_or_pos m with rfl | hpos
  · rw [roundMagnitude]
    simp [toEven]
  · have hpos : (0 : Rat) < m / 2 ^ k := div_pos (by exact_mod_cast hpos) (pow_pos two_pos k)
    rcases lt_or_eq_of_le hm with hlt | rfl
    · -- `m` has at most `precision` bits
      refine roundMagnitude_eq_self (hform m) ?_
      have hlog : Int.log 2 ((m : Rat) / 2 ^ k) < precision - k := by
        rw [← Int.lt_zpow_iff_log_lt one_lt_two hpos, Nat.cast_ofNat, zpow_sub₀ two_ne_zero,
          zpow_natCast, zpow_natCast]
        exact (div_lt_div_iff_of_pos_right (pow_pos two_pos k)).mpr (by exact_mod_cast hlt)
      simp only [lastBit]
      omega
    · have hpow : (((2 ^ precision : Nat) : Rat) / 2 ^ k) = (1 : Int) * 2 ^ (precision - k : Int) := by
        rw [zpow_sub₀ two_ne_zero, zpow_natCast, zpow_natCast]
        push_cast
        ring
      refine roundMagnitude_eq_self hpow ?_
      have hlog : Int.log 2 (((2 ^ precision : Nat) : Rat) / 2 ^ k) = precision - k := by
        rw [hpow, Int.cast_one, one_mul]
        exact Int.log_zpow one_lt_two _
      simp only [lastBit, hlog]
      omega

/-- Rounding to the nearest number of the format, of either sign. -/
def nearest (precision scale : Nat) (hprecision : 0 < precision) : Rounding precision scale where
  round x :=
    if 0 < x then roundMagnitude precision scale x else -roundMagnitude precision scale (-x)
  mono := by
    intro x y h
    split_ifs with hx hy hy
    · exact roundMagnitude_mono hprecision hx h
    · exact absurd (hx.trans_le h) hy
    · have hneg : 0 ≤ roundMagnitude precision scale (-x) :=
        roundMagnitude_nonneg (neg_nonneg.mpr (not_lt.mp hx))
      have hpos : 0 ≤ roundMagnitude precision scale y := roundMagnitude_nonneg hy.le
      linarith
    · rcases eq_or_lt_of_le (not_lt.mp hy) with rfl | hy
      · have hneg : 0 ≤ roundMagnitude precision scale (-x) :=
          roundMagnitude_nonneg (neg_nonneg.mpr (not_lt.mp hx))
        have hzero : roundMagnitude precision scale (-0) = 0 := by
          rw [roundMagnitude]
          simp [toEven]
        linarith
      · exact neg_le_neg (roundMagnitude_mono hprecision (neg_pos.mpr hy) (neg_le_neg h))
  exact m k hm hk := by
    split_ifs with hpos
    · exact roundMagnitude_exact hprecision hm hk
    · obtain rfl : m = 0 := by
        by_contra hm0
        exact hpos (div_pos (by exact_mod_cast Nat.pos_of_ne_zero hm0) (pow_pos two_pos k))
      simp [roundMagnitude, toEven]

example : (nearest 53 1074 (by decide)).round (1 / 10) = 3602879701896397 / 2 ^ 55 := by
  decide +kernel

end Rounding
