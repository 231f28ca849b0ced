import TrafficGen.ForStd.Run

/-!
# Steps carried out in smaller steps

One level of a design takes a single step where the level below takes several. When the several
steps report what the single one does, and lead from related states to related states, every run of
the level above has a run of the level below that reports the same (`Simulates.run`).
-/

namespace Run

variable {σ α β : Type*} {step : σ → α → σ} {emit : σ → α → List β}

/-- Some operations lead from `s` to `t`, and report `out`. -/
def Leads (step : σ → α → σ) (emit : σ → α → List β) (s : σ) (out : List β) (t : σ) : Prop :=
  ∃ ops, run step s ops = t ∧ collect step emit s ops = out

namespace Leads

variable {s t u : σ} {out out' : List β}

theorem refl (step : σ → α → σ) (emit : σ → α → List β) (s : σ) : Leads step emit s [] s :=
  ⟨[], rfl, rfl⟩

theorem one (step : σ → α → σ) (emit : σ → α → List β) (s : σ) (a : α) :
    Leads step emit s (emit s a) (step s a) :=
  ⟨[a], rfl, List.append_nil _⟩

theorem trans (h : Leads step emit s out t) (h' : Leads step emit t out' u) :
    Leads step emit s (out ++ out') u := by
  obtain ⟨as, rfl, rfl⟩ := h
  obtain ⟨bs, rfl, rfl⟩ := h'
  exact ⟨as ++ bs, run_append s as bs, collect_append emit s as bs⟩

/-- An operation that reports nothing comes first. -/
theorem cons {a : α} (hemit : emit s a = []) (h : Leads step emit (step s a) out t) :
    Leads step emit s out t := by
  have hone := one step emit s a
  rw [hemit] at hone
  exact hone.trans h

end Leads

variable {τ γ : Type*} {step' : τ → γ → τ} {emit' : τ → γ → List β} {ok : τ → γ → Prop}
  {R : σ → τ → Prop}

/-- Whatever the level above does in one step, the level below can do, and report, too. `ok` is what
    the steps above may rely on. -/
def Simulates (step : σ → α → σ) (emit : σ → α → List β) (step' : τ → γ → τ)
    (emit' : τ → γ → List β) (ok : τ → γ → Prop) (R : σ → τ → Prop) : Prop :=
  ∀ s t e, R s t → ok t e → ∃ s', Leads step emit s (emit' t e) s' ∧ R s' (step' t e)

theorem Simulates.run (h : Simulates step emit step' emit' ok R) {s : σ} {t : τ} (hst : R s t)
    {es : List γ} (hes : Each step' ok t es) :
    ∃ s', Leads step emit s (collect step' emit' t es) s' ∧ R s' (Run.run step' t es) := by
  induction es generalizing s t with
  | nil => exact ⟨s, .refl step emit s, hst⟩
  | cons e es ih =>
    obtain ⟨u, hlead, hu⟩ := h s t e hst hes.1
    obtain ⟨s', hleads, hs'⟩ := ih hu hes.2
    exact ⟨s', hlead.trans hleads, hs'⟩

end Run
