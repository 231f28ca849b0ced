import Mathlib.Data.List.Basic

/-!
# Floating-point numbers of two widths

`Float` is the `double` of C and `Float32` its `float`. Core leaves the conversions between the
two opaque; here they round the number that one stands for to the format of the other. The rest
is what needs no error bound: a sum of zeros is a zero, and so a sum above a positive bound has a
positive term.
-/

/-! ## Conversions -/

open Float.Model in
/-- The number in another format, rounded to the nearest one it has. -/
def Float.Model.UnpackedFloat.convert (spec : Format) : UnpackedFloat → UnpackedFloat
  | .finite sign mantissa exponent _ => .round spec sign mantissa exponent
  | x => x

/-- A `float` as a `double`, which is exact. -/
def Float32.widen (x : Float32) : Float :=
  .ofModel (.pack (x.toModel.unpack.convert .binary64))

/-- The `float` nearest to a `double`. -/
def Float.narrow (x : Float) : Float32 :=
  .ofModel (.pack (x.toModel.unpack.convert .binary32))

example : (58.33 : Float).narrow.widen = 58.3300018310546875 := by decide +kernel

namespace Float

variable {x y : Float}

/-! ## Comparisons -/

/-- A zero of either sign. -/
def isZero (x : Float) : Bool :=
  match x.toModel.unpack with
  | .zero _ => true
  | _ => false

theorem isZero_iff : x.isZero = true ↔ ∃ sign, x.toModel.unpack = .zero sign := by
  rw [isZero]
  split
  · next sign h => exact ⟨fun _ => ⟨sign, h⟩, fun _ => rfl⟩
  · next h => exact ⟨nofun, fun ⟨sign, hsign⟩ => absurd hsign (h sign)⟩

theorem isZero_zero : (0 : Float).isZero = true := by
  decide +kernel

theorem lt_iff_compare :
    x < y ↔ x.toModel.unpack.compare y.toModel.unpack = some .lt := by
  change decide (x.toModel.unpack.lt y.toModel.unpack = true) = true ↔ _
  simp [Float.Model.UnpackedFloat.lt]

/-- What is neither above nor below zero is a zero, unless it is no number. -/
theorem isZero_of_not_lt (hnan : x.isNaN = false) (hneg : ¬ x < 0) (hpos : ¬ 0 < x) :
    x.isZero = true := by
  obtain ⟨sign, hzero⟩ := isZero_iff.mp isZero_zero
  rw [lt_iff_compare, hzero] at hneg hpos
  rw [isZero_iff]
  change x.toModel.unpack.isNaN = false at hnan
  cases hx : x.toModel.unpack with
  | notANumber => rw [hx] at hnan; cases hnan
  | zero sign => exact ⟨sign, rfl⟩
  | infinity sign | finite sign =>
    -- the sign says on which side of zero it is
    rw [hx] at hneg hpos
    cases sign with
    | negative => exact absurd rfl hneg
    | positive => exact absurd rfl hpos

/-- A zero of either sign is below what is positive. -/
theorem lt_of_isZero (hx : x.isZero = true) (hy : 0 < y) : x < y := by
  obtain ⟨sign, hzero⟩ := isZero_iff.mp isZero_zero
  obtain ⟨sign', hx⟩ := isZero_iff.mp hx
  rw [lt_iff_compare, hzero] at hy
  rw [lt_iff_compare, hx]
  -- how `y` compares with a zero does not depend on the sign of the zero
  cases hunpack : y.toModel.unpack with
  | notANumber | zero => rw [hunpack] at hy; cases hy
  | infinity sign | finite sign =>
    rw [hunpack] at hy
    cases sign with
    | negative => cases hy
    | positive => rfl

/-- A number that is not below zero and not above a finite one is finite. -/
theorem isFinite_of_bounds (hy : y.isFinite = true) (hnan : x.isNaN = false) (hlo : ¬ x < 0)
    (hhi : ¬ y < x) : x.isFinite = true := by
  obtain ⟨sign, hzero⟩ := isZero_iff.mp isZero_zero
  rw [lt_iff_compare, hzero] at hlo
  rw [lt_iff_compare] at hhi
  change y.toModel.unpack.isFinite = true at hy
  change x.toModel.unpack.isNaN = false at hnan
  change x.toModel.unpack.isFinite = true
  cases hx : x.toModel.unpack with
  | notANumber => rw [hx] at hnan; cases hnan
  | zero sign => rfl
  | finite sign m e _ => rfl
  | infinity sign =>
    cases sign with
    | negative => exact absurd (hx ▸ rfl) hlo
    | positive =>
      -- which is above everything that is finite
      rw [hx] at hhi
      cases hunpack : y.toModel.unpack with
      | notANumber => rw [hunpack] at hy; cases hy
      | infinity sign => rw [hunpack] at hy; cases hy
      | zero | finite => exact absurd (hunpack ▸ rfl) hhi

/-! ## Sums -/

theorem isZero_add (hx : x.isZero = true) (hy : y.isZero = true) : (x + y).isZero = true := by
  obtain ⟨sign, hx⟩ := isZero_iff.mp hx
  obtain ⟨sign', hy⟩ := isZero_iff.mp hy
  change isZero (.ofModel (.pack (.add .binary64 x.toModel.unpack y.toModel.unpack))) = true
  rw [hx, hy]
  cases sign <;> cases sign' <;> decide +kernel

theorem isZero_foldl_add {xs : List Float} (hx : x.isZero = true)
    (h : ∀ y ∈ xs, y.isZero = true) : (xs.foldl (· + ·) x).isZero = true := by
  induction xs generalizing x with
  | nil => exact hx
  | cons y ys ih =>
    rw [List.forall_mem_cons] at h
    exact ih (isZero_add hx h.1) h.2

/-- Terms that are no NaN and not negative, and whose sum is not below a positive bound, are not
    all zero. -/
theorem exists_pos_of_le_sum {xs : List Float} {bound : Float} (hbound : 0 < bound)
    (hnan : ∀ x ∈ xs, x.isNaN = false) (hneg : ∀ x ∈ xs, ¬ x < 0)
    (hsum : ¬ xs.foldl (· + ·) 0 < bound) : ∃ x ∈ xs, 0 < x := by
  by_contra hnone
  have hzero : ∀ x ∈ xs, x.isZero = true := fun x hx =>
    isZero_of_not_lt (hnan x hx) (hneg x hx) fun hpos => hnone ⟨x, hx, hpos⟩
  exact hsum (lt_of_isZero (isZero_foldl_add isZero_zero hzero) hbound)

end Float
