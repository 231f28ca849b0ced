import Mathlib.Algebra.BigOperators.Group.List.Basic

/-!
# Sequence numbers

A segment is a pair of a start and a length, in a group, so that numbers may wrap
around. Segments tile when each starts where the one before it ends. A sender whose
counter moves past every attempt, whether or not the attempt goes out, tiles the space
exactly when the attempts lost between two that go out have length zero in sum
(`tiles_numbered_iff`).
-/

namespace SequenceSpace

variable {α : Type*}

/-- Each segment starts where the one before it ends. -/
def Tiles [Add α] (segs : List (α × α)) : Prop :=
  segs.IsChain fun a b => b.1 = a.1 + a.2

instance [Add α] [DecidableEq α] (segs : List (α × α)) : Decidable (Tiles segs) :=
  inferInstanceAs (Decidable (List.IsChain _ _))

/-- A counter at `q` numbers the segments one after the other and ends at `q'`. -/
def Counted [Add α] : α → List (α × α) → α → Prop
  | q, [], q' => q' = q
  | q, (start, len) :: segs, q' => start = q ∧ Counted (q + len) segs q'

/-- The segments that go out when a counter at `q` numbers every attempt. An attempt is a
    length, and whether it goes out. -/
def numbered [Add α] : α → List (α × Bool) → List (α × α)
  | _, [] => []
  | q, (len, true) :: attempts => (q, len) :: numbered (q + len) attempts
  | q, (len, false) :: attempts => numbered (q + len) attempts

/-- The attempts lost between two that go out have length zero in sum. The first argument is
    the length lost since the last one that went out, `none` before the first. -/
def Gapless [Add α] [Zero α] : Option α → List (α × Bool) → Prop
  | _, [] => True
  | none, (_, true) :: attempts => Gapless (some 0) attempts
  | none, (_, false) :: attempts => Gapless none attempts
  | some gap, (_, true) :: attempts => gap = 0 ∧ Gapless (some 0) attempts
  | some gap, (len, false) :: attempts => Gapless (some (gap + len)) attempts

theorem counted_append [Add α] {q m q' : α} {xs ys : List (α × α)} (hx : Counted q xs m)
    (hy : Counted m ys q') : Counted q (xs ++ ys) q' := by
  induction xs generalizing q with
  | nil =>
    rw [Counted] at hx
    rwa [List.nil_append, ← hx]
  | cons x xs ih => exact ⟨hx.1, ih hx.2⟩

/-- What goes out of a list of counted segments is what the counter numbers. -/
theorem numbered_of_counted [Add α] {q q' : α} {outs : List ((α × α) × Bool)}
    (h : Counted q (outs.map (·.1)) q') :
    (outs.filter (·.2)).map (·.1) = numbered q (outs.map fun x => (x.1.2, x.2)) := by
  induction outs generalizing q with
  | nil => rfl
  | cons x outs ih =>
    obtain ⟨⟨start, len⟩, out⟩ := x
    obtain ⟨rfl, htail⟩ := h
    cases out with
    | false => exact ih htail
    | true => exact congrArg ((start, len) :: ·) (ih htail)

section Group

variable [AddGroup α]

/-- After a segment that went out, when `gap` has been lost since. -/
private theorem tiles_cons_numbered_iff (start len gap : α) (attempts : List (α × Bool)) :
    Tiles ((start, len) :: numbered (start + len + gap) attempts) ↔
      Gapless (some gap) attempts := by
  induction attempts generalizing start len gap with
  | nil => exact iff_of_true (.singleton _) trivial
  | cons x attempts ih =>
    obtain ⟨next, out⟩ := x
    cases out with
    | false => rw [numbered, Gapless, add_assoc, ih]
    | true =>
      -- the next segment starts at `start + len + gap`, and nothing is lost after it yet
      have hnext := ih (start + len + gap) next 0
      rw [add_zero] at hnext
      rw [numbered, Gapless, ← hnext, Tiles, List.isChain_cons_cons, add_eq_left]
      rfl

/-- A counter that moves past every attempt makes the segments that go out tile exactly when
    nothing is lost between two of them. -/
theorem tiles_numbered_iff (q : α) (attempts : List (α × Bool)) :
    Tiles (numbered q attempts) ↔ Gapless none attempts := by
  induction attempts generalizing q with
  | nil => exact iff_of_true .nil trivial
  | cons x attempts ih =>
    obtain ⟨len, out⟩ := x
    cases out with
    | false => rw [numbered, Gapless, ih]
    | true =>
      have hnext := tiles_cons_numbered_iff q len 0 attempts
      rw [add_zero] at hnext
      rw [numbered, Gapless, hnext]

/-- Segments that tile end at the start of the first plus the sum of their lengths. -/
theorem Tiles.end_eq {seg last : α × α} {segs : List (α × α)} (h : Tiles (seg :: segs))
    (hlast : (seg :: segs).getLast? = some last) :
    last.1 + last.2 = seg.1 + ((seg :: segs).map (·.2)).sum := by
  -- the tail tiles from its own first segment, which starts where `seg` ends
  induction segs generalizing seg with
  | nil =>
    rw [List.getLast?_singleton, Option.some.injEq] at hlast
    rw [← hlast, List.map_singleton, List.sum_singleton]
  | cons next segs ih =>
    rw [Tiles, List.isChain_cons_cons] at h
    rw [List.getLast?_cons_cons] at hlast
    rw [ih h.2 hlast, h.1, List.map_cons (a := seg), List.sum_cons, add_assoc]

end Group

end SequenceSpace
