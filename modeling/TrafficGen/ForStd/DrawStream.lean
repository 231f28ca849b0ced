import Mathlib.Data.List.Basic
import Mathlib.Data.List.Count

/-!
# Drawing from a seeded stream

A deterministic generator answers each draw from its state and moves on. `outputs` is what one
stream gives for a sequence of draws, each with its position in the stream, and draws are
`Consecutive` when they are that. Draws made in several segments, each from a generator seeded
anew, are consecutive only if all of them are made in one.
-/

namespace DrawStream

variable {σ κ ν : Type*}

/-- A number drawn, with its position in the stream and what it was drawn for. -/
structure Draw (κ ν : Type*) where
  position : Nat
  kind : κ
  value : ν
deriving DecidableEq, Repr

/-- The state of the generator after some draws. -/
def advance (draw : κ → σ → ν × σ) (s : σ) (kinds : List κ) : σ :=
  kinds.foldl (fun s kind => (draw kind s).2) s

/-- What the stream gives from `position` on. -/
def outputs (draw : κ → σ → ν × σ) : σ → Nat → List κ → List (Draw κ ν)
  | _, _, [] => []
  | s, position, kind :: kinds =>
    ⟨position, kind, (draw kind s).1⟩ :: outputs draw (draw kind s).2 (position + 1) kinds

/-- The draws are what one stream gives from its seed on. -/
def Consecutive (draw : κ → σ → ν × σ) (s : σ) (draws : List (Draw κ ν)) : Prop :=
  draws = outputs draw s 0 (draws.map (·.kind))

variable {draw : κ → σ → ν × σ} {s : σ} {position : Nat}

theorem advance_append (kinds kinds' : List κ) :
    advance draw s (kinds ++ kinds') = advance draw (advance draw s kinds) kinds' :=
  List.foldl_append

theorem outputs_append (kinds kinds' : List κ) :
    outputs draw s position (kinds ++ kinds') = outputs draw s position kinds ++
      outputs draw (advance draw s kinds) (position + kinds.length) kinds' := by
  induction kinds generalizing s position with
  | nil => rfl
  | cons kind kinds ih =>
    rw [List.cons_append, outputs, ih, List.length_cons, Nat.add_right_comm]
    rfl

theorem map_kind_outputs (kinds : List κ) :
    (outputs draw s position kinds).map (·.kind) = kinds := by
  induction kinds generalizing s position with
  | nil => rfl
  | cons kind kinds ih => rw [outputs, List.map_cons, ih]

theorem length_outputs (kinds : List κ) : (outputs draw s position kinds).length = kinds.length := by
  rw [← List.length_map (·.kind), map_kind_outputs]

theorem outputs_eq_nil_iff {kinds : List κ} : outputs draw s position kinds = [] ↔ kinds = [] := by
  rw [← List.length_eq_zero_iff, length_outputs, List.length_eq_zero_iff]

theorem consecutive_outputs (kinds : List κ) : Consecutive draw s (outputs draw s 0 kinds) := by
  rw [Consecutive, map_kind_outputs]

theorem consecutive_nil : Consecutive draw s [] := rfl

/-- The first number of a stream is drawn at its start. -/
theorem Consecutive.position_eq_zero {x : Draw κ ν} {draws : List (Draw κ ν)}
    (h : Consecutive draw s (x :: draws)) : x.position = 0 := by
  rw [Consecutive, List.map_cons, outputs, List.cons.injEq] at h
  rw [h.1]

/-- A number drawn behind others is not. -/
theorem Consecutive.position_ne_zero {x : Draw κ ν} {draws draws' : List (Draw κ ν)}
    (h : Consecutive draw s (draws ++ x :: draws')) (hdraws : draws ≠ []) : x.position ≠ 0 := by
  rw [Consecutive, List.map_append, outputs_append, List.map_cons, outputs] at h
  have hlen : draws.length = (outputs draw s 0 (draws.map (·.kind))).length := by
    rw [length_outputs, List.length_map]
  obtain ⟨-, hx⟩ := List.append_inj h hlen
  rw [List.cons.injEq] at hx
  rw [hx.1, List.length_map]
  have hpos := List.length_pos_of_ne_nil hdraws
  show 0 + draws.length ≠ 0
  omega

/-- So is the first number of several segments. -/
theorem position_of_flatten_eq_cons {segments : List (List (Draw κ ν))}
    (h : ∀ segment ∈ segments, Consecutive draw s segment) {x : Draw κ ν}
    {draws : List (Draw κ ν)} (hflat : segments.flatten = x :: draws) : x.position = 0 := by
  induction segments with
  | nil => cases hflat
  | cons segment segments ih =>
    obtain ⟨hsegment, hrest⟩ := List.forall_mem_cons.mp h
    cases segment with
    | nil => exact ih hrest hflat
    | cons y segment =>
      rw [List.flatten_cons, List.cons_append, List.cons.injEq] at hflat
      rw [← hflat.1]
      exact hsegment.position_eq_zero

/-- Segments drawn from one seed each are consecutive together exactly when at most one of them
    holds a draw. -/
theorem consecutive_flatten_iff {segments : List (List (Draw κ ν))}
    (h : ∀ segment ∈ segments, Consecutive draw s segment) :
    Consecutive draw s segments.flatten ↔ segments.countP (!·.isEmpty) ≤ 1 := by
  induction segments with
  | nil => exact iff_of_true consecutive_nil (Nat.zero_le 1)
  | cons segment segments ih =>
    obtain ⟨hsegment, hrest⟩ := List.forall_mem_cons.mp h
    by_cases hempty : segment = []
    · rw [hempty, List.flatten_cons, List.nil_append, List.countP_cons_of_neg (by simp)]
      exact ih hrest
    · rw [List.flatten_cons, List.countP_cons_of_pos (by simpa using hempty)]
      have hcount : segments.countP (!·.isEmpty) = 0 ↔ segments.flatten = [] := by
        simp [List.countP_eq_zero]
      constructor
      · intro hall
        cases hflat : segments.flatten with
        | nil =>
          have hnone := hcount.mpr hflat
          omega
        | cons x draws =>
          -- a later segment starts its stream again
          rw [hflat] at hall
          exact absurd (position_of_flatten_eq_cons hrest hflat) (hall.position_ne_zero hempty)
      · intro hle
        rw [hcount.mp (by omega), List.append_nil]
        exact hsegment

end DrawStream
