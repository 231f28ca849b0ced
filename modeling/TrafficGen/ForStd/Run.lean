import Mathlib.Data.List.Basic
import Mathlib.Data.List.Induction

/-!
# Runs of a deterministic step function

A run folds a step function over a list of operations. An invariant that each
step preserves holds after every run (`run_induct`). When a property survives a
step exactly under a condition on the state before it, it survives a whole run
exactly when every step meets that condition (`always_iff_each`). An entry that some
operations overwrite and the others leave alone is, after a run, what the last of them
wrote (`entry_run`).
-/

namespace Run

variable {σ α : Type*}

/-- The state after a list of operations. -/
def run (step : σ → α → σ) (s : σ) (ops : List α) : σ :=
  ops.foldl step s

/-- `s` is reached from `init` by some list of operations. -/
def Reachable (step : σ → α → σ) (init : σ → Prop) (s : σ) : Prop :=
  ∃ s₀ ops, init s₀ ∧ run step s₀ ops = s

/-- `P` holds of every state a run passes through, its first and last included. -/
def Always (step : σ → α → σ) (P : σ → Prop) (s : σ) (ops : List α) : Prop :=
  ∀ pre, pre <+: ops → P (run step s pre)

/-- `ok` holds of every operation of a run and the state it is applied to. -/
def Each (step : σ → α → σ) (ok : σ → α → Prop) : σ → List α → Prop
  | _, [] => True
  | s, a :: ops => ok s a ∧ Each step ok (step s a) ops

instance decidableEach (step : σ → α → σ) (ok : σ → α → Prop) [∀ s a, Decidable (ok s a)] :
    ∀ s ops, Decidable (Each step ok s ops)
  | _, [] => inferInstanceAs (Decidable True)
  | s, a :: ops =>
    have : Decidable (Each step ok (step s a) ops) := decidableEach step ok (step s a) ops
    inferInstanceAs (Decidable (ok s a ∧ Each step ok (step s a) ops))

/-- What `emit` reports of each operation of a run and the state it is applied to, in order. -/
def collect {β : Type*} (step : σ → α → σ) (emit : σ → α → List β) : σ → List α → List β
  | _, [] => []
  | s, a :: ops => emit s a ++ collect step emit (step s a) ops

variable {step : σ → α → σ}

@[simp] theorem run_nil (s : σ) : run step s [] = s := rfl

theorem run_cons (s : σ) (a : α) (ops : List α) :
    run step s (a :: ops) = run step (step s a) ops := rfl

theorem run_append (s : σ) (as bs : List α) :
    run step s (as ++ bs) = run step (run step s as) bs := by
  simp only [run, List.foldl_append]

theorem run_flatMap {β : Type*} (f : β → List α) (s : σ) (bs : List β) :
    run step s (bs.flatMap f) = bs.foldl (fun s b => run step s (f b)) s := by
  simp only [run, List.foldl_flatMap]

theorem collect_cons {β : Type*} (emit : σ → α → List β) (s : σ) (a : α) (ops : List α) :
    collect step emit s (a :: ops) = emit s a ++ collect step emit (step s a) ops := rfl

theorem collect_append {β : Type*} (emit : σ → α → List β) (s : σ) (as bs : List α) :
    collect step emit s (as ++ bs) =
      collect step emit s as ++ collect step emit (run step s as) bs := by
  induction as generalizing s with
  | nil => rfl
  | cons a as ih =>
    rw [List.cons_append, collect_cons, collect_cons, ih, run_cons, List.append_assoc]

/-- Reports can be mapped one by one. -/
theorem map_collect {β γ : Type*} (f : β → γ) (emit : σ → α → List β) (s : σ) (ops : List α) :
    (collect step emit s ops).map f = collect step (fun s a => (emit s a).map f) s ops := by
  induction ops generalizing s with
  | nil => rfl
  | cons a ops ih => rw [collect_cons, collect_cons, List.map_append, ih]

/-- What is reported comes from some operation, in some state. -/
theorem exists_of_mem_collect {β : Type*} {emit : σ → α → List β} {s : σ} {ops : List α} {b : β}
    (h : b ∈ collect step emit s ops) : ∃ s' a, a ∈ ops ∧ b ∈ emit s' a := by
  induction ops generalizing s with
  | nil => cases h
  | cons a ops ih =>
    rw [collect_cons] at h
    rcases List.mem_append.mp h with hb | hb
    · exact ⟨s, a, List.mem_cons_self, hb⟩
    · obtain ⟨s', a', ha', hb'⟩ := ih hb
      exact ⟨s', a', List.mem_cons_of_mem a ha', hb'⟩

/-- What holds at the start and survives each step holds after any run. -/
theorem run_induct {P : σ → Prop} {s : σ} (h0 : P s) (hstep : ∀ s a, P s → P (step s a))
    (ops : List α) : P (run step s ops) := by
  induction ops generalizing s with
  | nil => exact h0
  | cons a ops ih => exact ih (hstep s a h0)

/-- What holds initially and survives each step holds in every reachable state. -/
theorem Reachable.induct {init : σ → Prop} {P : σ → Prop} {s : σ}
    (hs : Reachable step init s) (h0 : ∀ s, init s → P s)
    (hstep : ∀ s a, P s → P (step s a)) : P s := by
  obtain ⟨s₀, ops, hinit, rfl⟩ := hs
  exact run_induct (h0 s₀ hinit) hstep ops

theorem Reachable.start {init : σ → Prop} {s : σ} (h : init s) : Reachable step init s :=
  ⟨s, [], h, rfl⟩

/-- Reachability is closed under further runs. -/
theorem Reachable.run {init : σ → Prop} {s : σ} (hs : Reachable step init s) (ops : List α) :
    Reachable step init (run step s ops) := by
  obtain ⟨s₀, as, hinit, rfl⟩ := hs
  exact ⟨s₀, as ++ ops, hinit, run_append s₀ as ops⟩

/-- An entry that each operation overwrites or leaves alone holds, after a run, what was
    written last. `inv` is what the steps may rely on. -/
theorem entry_run {β : Type*} (inv : σ → Prop) (entry : σ → Option β) {write : α → Option β}
    (hinv : ∀ s a, inv s → inv (step s a))
    (hwrite : ∀ s a, inv s → entry (step s a) = (write a).or (entry s))
    {s : σ} (hs : inv s) (ops : List α) :
    entry (run step s ops) = (ops.filterMap write).getLast?.or (entry s) := by
  induction ops generalizing s with
  | nil => rfl
  | cons a ops ih =>
    rw [run_cons, ih (hinv s a hs), hwrite s a hs]
    cases ha : write a with
    | none => rw [List.filterMap_cons_none ha, Option.none_or]
    | some b =>
      -- a later write hides this one
      rw [List.filterMap_cons_some ha, List.getLast?_cons]
      cases (ops.filterMap write).getLast? <;> rfl

/-- What was written last does not depend on the order of the operations when only one of them
    writes. -/
theorem getLast?_filterMap_perm {β : Type*} {write : α → Option β} {ops ops' : List α}
    (hperm : ops.Perm ops') (hone : ops.Pairwise fun a b => write a = none ∨ write b = none) :
    (ops.filterMap write).getLast? = (ops'.filterMap write).getLast? := by
  have hpair : (ops.filterMap write).Pairwise fun _ _ => False := by
    rw [List.pairwise_filterMap]
    refine hone.imp fun h b hb b' hb' => ?_
    rcases h with h | h
    · rw [h] at hb
      cases hb
    · rw [h] at hb'
      cases hb'
  have hwritten := hperm.filterMap write
  cases hl : ops.filterMap write with
  | nil =>
    rw [hl] at hwritten
    rw [List.nil_perm.mp hwritten]
  | cons b bs =>
    rw [hl] at hwritten hpair
    cases bs with
    | nil => rw [List.singleton_perm.mp hwritten]
    | cons b' bs => exact absurd ((List.pairwise_cons.mp hpair).1 b' List.mem_cons_self) id

/-- In good states, what an operation adds to what is reported or `pending` was `owed` before it and
    is not any more, and the state stays good. -/
structure Owing {β γ : Type*} (step : σ → α → σ) (emit : σ → α → List β) (pending : σ → List β)
    (key : β → γ) (owed : σ → List γ) (P : σ → Prop) (ok : α → Prop) : Prop where
  keep : ∀ s a, P s → ok a → P (step s a)
  pay : ∀ s a, P s → ok a → ∃ new, emit s a ++ pending (step s a) = pending s ++ new ∧
    (new.map key ++ owed (step s a)).Sublist (owed s)

/-- A run reports what was pending, and after it only what was owed. -/
theorem Owing.exists_new {β γ : Type*} {emit : σ → α → List β} {pending : σ → List β}
    {key : β → γ} {owed : σ → List γ} {P : σ → Prop} {ok : α → Prop}
    (h : Owing step emit pending key owed P ok) {s : σ} (hs : P s) {ops : List α}
    (hops : ∀ a ∈ ops, ok a) :
    ∃ new, collect step emit s ops ++ pending (run step s ops) = pending s ++ new ∧
      (new.map key ++ owed (run step s ops)).Sublist (owed s) := by
  induction ops generalizing s with
  | nil => exact ⟨[], (List.append_nil _).symm, List.Sublist.refl _⟩
  | cons a ops ih =>
    have ha := hops a List.mem_cons_self
    obtain ⟨new, hnew, howed⟩ := h.pay s a hs ha
    obtain ⟨news, hnews, howeds⟩ :=
      ih (h.keep s a hs ha) fun b hb => hops b (List.mem_cons_of_mem a hb)
    refine ⟨new ++ news, ?_, ?_⟩
    · calc collect step emit s (a :: ops) ++ pending (run step s (a :: ops))
          = emit s a ++ (pending (step s a) ++ news) := by
            rw [collect_cons, run_cons, List.append_assoc, hnews]
        _ = pending s ++ (new ++ news) := by rw [← List.append_assoc, hnew, List.append_assoc]
    · rw [run_cons, List.map_append, List.append_assoc]
      exact (howeds.append_left _).trans howed

/-- What holds at the start of a loop that may fail, and survives each round that succeeds, holds
    when the loop is through. `P` sees the elements taken so far. -/
theorem foldlM_induct {f : σ → α → Option σ} {P : List α → σ → Prop} {s t : σ} (h0 : P [] s)
    (hstep : ∀ done s a s', P done s → f s a = some s' → P (done ++ [a]) s') {l : List α}
    (h : l.foldlM f s = some t) : P l t := by
  induction l using List.reverseRecOn generalizing t with
  | nil =>
    rw [← Option.some.inj h]
    exact h0
  | append_singleton done a ih =>
    rw [List.foldlM_append, Option.bind_eq_bind, Option.bind_eq_some_iff] at h
    obtain ⟨s', hdone, ha⟩ := h
    rw [List.foldlM_cons, Option.bind_eq_bind, Option.bind_eq_some_iff] at ha
    obtain ⟨t', ha, ht⟩ := ha
    rw [← Option.some.inj ht]
    exact hstep done s' a t' (ih hdone) ha

theorem always_nil {P : σ → Prop} {s : σ} : Always step P s [] ↔ P s := by
  constructor
  · intro h; exact h [] List.nil_prefix
  · intro h pre hpre
    rw [List.prefix_nil.mp hpre]
    exact h

theorem always_cons {P : σ → Prop} {s : σ} {a : α} {ops : List α} :
    Always step P s (a :: ops) ↔ P s ∧ Always step P (step s a) ops := by
  constructor
  · intro h
    refine ⟨h [] List.nil_prefix, fun pre hpre => ?_⟩
    exact h (a :: pre) (List.cons_prefix_cons.mpr ⟨rfl, hpre⟩)
  · rintro ⟨hs, h⟩ pre hpre
    cases pre with
    | nil => exact hs
    | cons b pre =>
      obtain ⟨rfl, htail⟩ := List.cons_prefix_cons.mp hpre
      exact h pre htail

theorem each_append {ok : σ → α → Prop} {s : σ} {as bs : List α} :
    Each step ok s (as ++ bs) ↔ Each step ok s as ∧ Each step ok (run step s as) bs := by
  induction as generalizing s with
  | nil => simp [Each]
  | cons a as ih => simp only [List.cons_append, Each, ih, run_cons, and_assoc]

/-- What is ok in every state is ok throughout a run. -/
theorem each_of_forall {ok : σ → α → Prop} {s : σ} {ops : List α}
    (h : ∀ s, ∀ a ∈ ops, ok s a) : Each step ok s ops := by
  induction ops generalizing s with
  | nil => trivial
  | cons a ops ih =>
    exact ⟨h s a List.mem_cons_self, ih fun s a ha => h s a (List.mem_cons_of_mem _ ha)⟩

/-- When, in every state an invariant allows, two conditions agree, and the invariant survives the
    operations that meet them, they agree on whole runs. `fair` is what the runs may rely on. -/
theorem each_iff_each {P : σ → Prop} {fair ok ok' : σ → α → Prop}
    (hiff : ∀ s a, P s → fair s a → (ok s a ↔ ok' s a))
    (hstep : ∀ s a, P s → fair s a → ok' s a → P (step s a)) {s : σ} (hs : P s) {ops : List α}
    (hfair : Each step fair s ops) : Each step ok s ops ↔ Each step ok' s ops := by
  induction ops generalizing s with
  | nil => exact Iff.rfl
  | cons a ops ih =>
    rw [Each, Each, hiff s a hs hfair.1]
    exact and_congr_right fun hok => ih (hstep s a hs hfair.1 hok) hfair.2

/-- If an `ok` step from a good state is good, a run of `ok` steps stays good throughout. -/
theorem always_of_each {P : σ → Prop} {ok : σ → α → Prop}
    (hstep : ∀ s a, P s → ok s a → P (step s a)) {s : σ} (hs : P s) {ops : List α}
    (h : Each step ok s ops) : Always step P s ops := by
  induction ops generalizing s with
  | nil => exact always_nil.mpr hs
  | cons a ops ih => exact always_cons.mpr ⟨hs, ih (hstep s a hs h.1) h.2⟩

theorem Always.imp {P Q : σ → Prop} {s : σ} {ops : List α} (h : Always step P s ops)
    (himp : ∀ s, P s → Q s) : Always step Q s ops :=
  fun pre hpre => himp _ (h pre hpre)

/-- If a step from a good state is good exactly when `ok`, a run from a good state
    stays good throughout exactly when each of its steps is `ok`. -/
theorem always_iff_each {P : σ → Prop} {ok : σ → α → Prop}
    (hstep : ∀ s a, P s → (P (step s a) ↔ ok s a)) {s : σ} (hs : P s) (ops : List α) :
    Always step P s ops ↔ Each step ok s ops := by
  -- the state after the first step is good on both sides: `Always` says so, or `ok` does
  induction ops generalizing s with
  | nil => simp only [always_nil, hs, Each]
  | cons a ops ih =>
    rw [always_cons, Each]
    constructor
    · rintro ⟨-, h⟩
      have hnext : P (step s a) := by simpa only [run_nil] using h [] List.nil_prefix
      exact ⟨(hstep s a hs).mp hnext, (ih hnext).mp h⟩
    · rintro ⟨hok, h⟩
      exact ⟨hs, (ih ((hstep s a hs).mpr hok)).mpr h⟩

end Run
