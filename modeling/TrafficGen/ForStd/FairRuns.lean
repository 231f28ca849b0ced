import TrafficGen.ForStd.Run

/-!
# Fair runs

Threads take turns in any order, and `Turn` says which operations are a turn of which thread. A
round is a list of operations in which every thread has a turn. When no operation raises a rank, and
as long as the goal is not reached some thread lowers it whenever it has its turn, the goal is
reached within as many rounds as the rank says (`Ranking.goal_of_rounds`).
-/

namespace Run

variable {σ α ι : Type*} {step : σ → α → σ} {Turn : α → ι → Prop}

/-- A rank that the enabled threads lower. `Inv` is what the steps may rely on. -/
structure Ranking (step : σ → α → σ) (Turn : α → ι → Prop) (Inv Goal : σ → Prop) (rank : σ → Nat)
    (Enabled : σ → ι → Prop) : Prop where
  inv : ∀ s a, Inv s → Inv (step s a)
  /-- The goal is not lost again. -/
  goal : ∀ s a, Inv s → Goal s → Goal (step s a)
  le : ∀ s a, Inv s → rank (step s a) ≤ rank s
  lt : ∀ s a t, Inv s → Enabled s t → Turn a t → rank (step s a) < rank s
  /-- What is not a turn of the thread lowers the rank or leaves the thread enabled. -/
  stable : ∀ s a t, Inv s → Enabled s t → ¬ Turn a t →
    rank (step s a) < rank s ∨ Enabled (step s a) t
  progress : ∀ s, Inv s → ¬ Goal s → ∃ a t, Enabled s t ∧ Turn a t

namespace Ranking

variable {Inv Goal : σ → Prop} {rank : σ → Nat} {Enabled : σ → ι → Prop}
  (h : Ranking step Turn Inv Goal rank Enabled) {s : σ}
include h

theorem inv_run (hs : Inv s) (ops : List α) : Inv (run step s ops) :=
  run_induct hs h.inv ops

theorem rank_run_le (hs : Inv s) (ops : List α) : rank (run step s ops) ≤ rank s := by
  induction ops generalizing s with
  | nil => exact Nat.le_refl _
  | cons a ops ih => exact Nat.le_trans (ih (h.inv s a hs)) (h.le s a hs)

theorem goal_run (hs : Inv s) (hgoal : Goal s) (ops : List α) : Goal (run step s ops) := by
  induction ops generalizing s with
  | nil => exact hgoal
  | cons a ops ih => exact ih (h.inv s a hs) (h.goal s a hs hgoal)

/-- The operations until an enabled thread has its turn lower the rank. -/
theorem rank_run_lt (hs : Inv s) {t : ι} (ht : Enabled s t) {round : List α}
    (hturn : ∃ a ∈ round, Turn a t) : rank (run step s round) < rank s := by
  induction round generalizing s with
  | nil =>
    obtain ⟨a, ha, -⟩ := hturn
    cases ha
  | cons a round ih =>
    have hrest := h.rank_run_le (h.inv s a hs) round
    rw [run_cons]
    by_cases ha : Turn a t
    · exact Nat.lt_of_le_of_lt hrest (h.lt s a t hs ht ha)
    · rcases h.stable s a t hs ht ha with hlt | ht'
      · exact Nat.lt_of_le_of_lt hrest hlt
      · obtain ⟨b, hb, hbt⟩ := hturn
        have hmem : b ∈ round := (List.mem_cons.mp hb).resolve_left fun heq => ha (heq ▸ hbt)
        exact Nat.lt_of_lt_of_le (ih (h.inv s a hs) ht' ⟨b, hmem, hbt⟩) (h.le s a hs)

/-- As many rounds as the rank says reach the goal. -/
theorem goal_of_rounds (hs : Inv s) {rounds : List (List α)}
    (hfair : ∀ round ∈ rounds, ∀ t, ∃ a ∈ round, Turn a t) (henough : rank s ≤ rounds.length) :
    Goal (run step s rounds.flatten) := by
  induction rounds generalizing s with
  | nil =>
    by_contra hgoal
    obtain ⟨a, t, ht, ha⟩ := h.progress s hs hgoal
    -- the rank is zero, and a turn would still lower it
    exact absurd (Nat.lt_of_lt_of_le (h.lt s a t hs ht ha) henough) (Nat.not_lt_zero _)
  | cons round rounds ih =>
    rw [List.flatten_cons, run_append]
    by_cases hgoal : Goal s
    · exact h.goal_run (h.inv_run hs round) (h.goal_run hs hgoal round) _
    · obtain ⟨-, t, ht, -⟩ := h.progress s hs hgoal
      have hlt := h.rank_run_lt hs ht (hfair round List.mem_cons_self t)
      exact ih (h.inv_run hs round) (fun r hr => hfair r (List.mem_cons_of_mem round hr))
        (Nat.le_of_lt_succ (Nat.lt_of_lt_of_le hlt henough))

end Ranking

end Run
