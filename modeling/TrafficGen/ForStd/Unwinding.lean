import TrafficGen.ForStd.Run

/-!
# Operations without a trace

Two runs side by side, the second without the hidden operations of the first. A relation between
their states that a hidden operation keeps, and that makes every other operation report the same
and keeps itself, makes the two runs report the same (`Unwinding.run_filter`).
-/

namespace Run

variable {σ α β : Type*}

/-- Related states stay related, and report the same, whether or not hidden operations are carried
    out. `ok` is what the operations of the first run may rely on. -/
structure Unwinding (step : σ → α → σ) (emit : σ → α → List β) (ok : σ → α → Prop)
    (hidden : α → Bool) (R : σ → σ → Prop) : Prop where
  skip : ∀ s t a, R s t → ok s a → hidden a = true → R (step s a) t ∧ emit s a = []
  both : ∀ s t a, R s t → ok s a → hidden a = false →
    R (step s a) (step t a) ∧ emit s a = emit t a

variable {step : σ → α → σ} {emit : σ → α → List β} {ok : σ → α → Prop} {hidden : α → Bool}
  {R : σ → σ → Prop}

/-- The states after the two runs are related, and the reports are the same. -/
theorem Unwinding.run_filter (h : Unwinding step emit ok hidden R) {s t : σ} (hst : R s t)
    {ops : List α} (hops : Each step ok s ops) :
    R (run step s ops) (run step t (ops.filter (!hidden ·))) ∧
      collect step emit s ops = collect step emit t (ops.filter (!hidden ·)) := by
  induction ops generalizing s t with
  | nil => exact ⟨hst, rfl⟩
  | cons a ops ih =>
    rw [run_cons, collect_cons]
    cases ha : hidden a with
    | true =>
      obtain ⟨hnext, hemit⟩ := h.skip s t a hst hops.1 ha
      rw [List.filter_cons_of_neg (by simp [ha]), hemit, List.nil_append]
      exact ih hnext hops.2
    | false =>
      obtain ⟨hnext, hemit⟩ := h.both s t a hst hops.1 ha
      obtain ⟨hrun, hcollect⟩ := ih hnext hops.2
      rw [List.filter_cons_of_pos (by simp [ha]), run_cons, collect_cons, hemit, hcollect]
      exact ⟨hrun, rfl⟩

end Run
