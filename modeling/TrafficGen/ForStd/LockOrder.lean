import Mathlib.Data.Fintype.BigOperators
import Mathlib.Order.WellFounded
import TrafficGen.ForStd.Run

/-!
# Threads that take mutexes in order

Each thread runs a list of lock operations, and a thread that wants a mutex another one holds waits.
Mutexes have ranks, and a list is `Nested` when a mutex is taken only above those held, and given
back in the opposite order. Then after any schedule some thread can move until all are done
(`exists_invariant`, `Invariant.exists_go`): the mutex a waiting thread asks for ranks above all it
holds, so the threads cannot wait in a circle. Every move leaves less to do (`remaining_go`), so
with finitely many threads some schedule gets everything done (`Invariant.exists_schedule`).

`guarded` is a scope that holds a mutex, and the lemmas on `Nested` follow how lists are put
together.
-/

/-- What a thread does with a mutex. -/
inductive LockOp (μ : Type*) where
  | acquire (m : μ)
  | release (m : μ)
deriving DecidableEq, Repr

namespace LockOp

variable {μ κ : Type*}

/-- A scope that holds `m`. -/
def guarded (m : μ) (ops : List (LockOp μ)) : List (LockOp μ) :=
  .acquire m :: (ops ++ [.release m])

/-! ## Lists that take mutexes in order -/

/-- From the mutexes `held`, the last one taken first, the list takes mutexes of ever higher rank,
    gives back the last one taken, and ends with `held'`. -/
def Nested [LT κ] (rank : μ → κ) : List μ → List (LockOp μ) → List μ → Prop
  | held, [], held' => held = held'
  | held, .acquire m :: ops, held' => (∀ m' ∈ held, rank m' < rank m) ∧
      Nested rank (m :: held) ops held'
  | [], .release _ :: _, _ => False
  | m' :: held, .release m :: ops, held' => m' = m ∧ Nested rank held ops held'

variable [LT κ] {rank : μ → κ}

theorem nested_nil (held : List μ) : Nested rank held [] held := by
  cases held <;> rfl

theorem eq_of_nested_nil {held held' : List μ} (h : Nested rank held [] held') : held = held' := by
  cases held <;> exact h

theorem nested_acquire {held held' : List μ} {m : μ} {ops : List (LockOp μ)} :
    Nested rank held (.acquire m :: ops) held' ↔
      (∀ m' ∈ held, rank m' < rank m) ∧ Nested rank (m :: held) ops held' := by
  cases held <;> rfl

/-- Only the mutex taken last is given back. -/
theorem nested_release {held held' : List μ} {m : μ} {ops : List (LockOp μ)} :
    Nested rank held (.release m :: ops) held' ↔
      ∃ rest, held = m :: rest ∧ Nested rank rest ops held' := by
  cases held with
  | nil => exact ⟨False.elim, fun ⟨_, h, _⟩ => by cases h⟩
  | cons m' held =>
    constructor
    · rintro ⟨rfl, h⟩
      exact ⟨held, rfl, h⟩
    · rintro ⟨rest, heq, h⟩
      obtain ⟨rfl, rfl⟩ := List.cons.inj heq
      exact ⟨rfl, h⟩

theorem Nested.append {held mid held' : List μ} {ops ops' : List (LockOp μ)}
    (h : Nested rank held ops mid) (h' : Nested rank mid ops' held') :
    Nested rank held (ops ++ ops') held' := by
  induction ops generalizing held with
  | nil =>
    rw [eq_of_nested_nil h]
    exact h'
  | cons op ops ih =>
    cases op with
    | acquire m =>
      obtain ⟨hrank, hrest⟩ := nested_acquire.mp h
      exact nested_acquire.mpr ⟨hrank, ih hrest⟩
    | release m =>
      obtain ⟨rest, heq, hrest⟩ := nested_release.mp h
      exact nested_release.mpr ⟨rest, heq, ih hrest⟩

theorem Nested.flatMap {α : Type*} {held : List μ} {f : α → List (LockOp μ)} {l : List α}
    (h : ∀ a ∈ l, Nested rank held (f a) held) : Nested rank held (l.flatMap f) held := by
  induction l with
  | nil => exact nested_nil held
  | cons a l ih =>
    rw [List.flatMap_cons]
    exact (h a List.mem_cons_self).append (ih fun b hb => h b (List.mem_cons_of_mem a hb))

/-- A scope is in order when its mutex ranks above those held, and what is in the scope is. -/
theorem Nested.guarded {held : List μ} {m : μ} {ops : List (LockOp μ)}
    (hrank : ∀ m' ∈ held, rank m' < rank m) (h : Nested rank (m :: held) ops (m :: held)) :
    Nested rank held (guarded m ops) held :=
  nested_acquire.mpr ⟨hrank, h.append (nested_release.mpr ⟨held, rfl, nested_nil held⟩)⟩

end LockOp

/-- Threads: what each has left to do, and who holds each mutex. -/
structure LockState (ι μ : Type*) where
  rest : ι → List (LockOp μ)
  holder : μ → Option ι

namespace LockState

open LockOp Function

variable {ι μ κ : Type*} [DecidableEq ι] [DecidableEq μ]

/-- Nothing is held at first. -/
def start (program : ι → List (LockOp μ)) : LockState ι μ where
  rest := program
  holder := fun _ => none

/-- The next operation of thread `i`, if it has one and need not wait. -/
def go (s : LockState ι μ) (i : ι) : Option (LockState ι μ) :=
  match s.rest i with
  | [] => none
  | .acquire m :: ops =>
    if (s.holder m).isNone then some ⟨update s.rest i ops, update s.holder m (some i)⟩ else none
  | .release m :: ops => some ⟨update s.rest i ops, update s.holder m none⟩

/-- Thread `i` is scheduled; if it cannot go on, nothing happens. -/
def step (s : LockState ι μ) (i : ι) : LockState ι μ := (s.go i).getD s

/-- Every thread has done all it had to do. -/
def Done (s : LockState ι μ) : Prop := ∀ i, s.rest i = []

/-! ## What holds of every reachable state -/

/-- `held` says what each thread holds: nothing is held by two, what is left of each list is in
    order, and what a thread holds it took in order. -/
structure Invariant [LT κ] (rank : μ → κ) (s : LockState ι μ) (held : ι → List μ) : Prop where
  holds : ∀ m i, s.holder m = some i ↔ m ∈ held i
  nested : ∀ i, Nested rank (held i) (s.rest i) []
  nodup : ∀ i, (held i).Nodup

omit [DecidableEq ι] [DecidableEq μ] in
theorem invariant_start [LT κ] {rank : μ → κ} {program : ι → List (LockOp μ)}
    (h : ∀ i, Nested rank [] (program i) []) :
    (start program).Invariant rank fun _ => [] where
  holds m i := by simp [start]
  nested := h
  nodup _ := List.nodup_nil

variable [Preorder κ] {rank : μ → κ} {s s' : LockState ι μ} {held : ι → List μ}

/-- What a thread holds after it has gone on. -/
theorem Invariant.go (h : s.Invariant rank held) {i : ι} (hgo : s.go i = some s') :
    ∃ held', s'.Invariant rank held' := by
  rw [LockState.go] at hgo
  split at hgo
  · cases hgo
  · next m ops hrest =>
    split at hgo
    · next hfree =>
      rw [Option.some.injEq] at hgo
      subst hgo
      have hnested := h.nested i
      rw [hrest, nested_acquire] at hnested
      rw [Option.isNone_iff_eq_none] at hfree
      -- nobody holds a mutex that is free
      have hnot : ∀ j, m ∉ held j := fun j hj => by
        rw [← h.holds m j, hfree] at hj
        cases hj
      refine ⟨update held i (m :: held i), ⟨fun m' j => ?_, fun j => ?_, fun j => ?_⟩⟩
      · by_cases hm : m' = m
        · subst hm
          by_cases hj : j = i
          · subst hj
            simp
          · simp [hj, Ne.symm hj, hnot j]
        · by_cases hj : j = i
          · subst hj
            simp [hm, h.holds]
          · simp [hm, hj, h.holds]
      · by_cases hj : j = i
        · subst hj
          simpa using hnested.2
        · simpa [hj] using h.nested j
      · by_cases hj : j = i
        · subst hj
          simpa using ⟨hnot j, h.nodup j⟩
        · simpa [hj] using h.nodup j
    · cases hgo
  · next m ops hrest =>
    rw [Option.some.injEq] at hgo
    subst hgo
    have hnested := h.nested i
    rw [hrest, nested_release] at hnested
    obtain ⟨rest, hheld, hnested⟩ := hnested
    have hnodup := h.nodup i
    rw [hheld, List.nodup_cons] at hnodup
    -- the mutex given back was held by this thread only
    have hown : ∀ j, m ∈ held j → j = i := fun j hj => by
      have hi : s.holder m = some i := (h.holds m i).mpr (hheld ▸ List.mem_cons_self)
      exact Option.some.inj (((h.holds m j).mpr hj).symm.trans hi)
    refine ⟨update held i rest, ⟨fun m' j => ?_, fun j => ?_, fun j => ?_⟩⟩
    · by_cases hm : m' = m
      · subst hm
        by_cases hj : j = i
        · subst hj
          simp [hnodup.1]
        · simpa [hj] using fun hmem => hj (hown j hmem)
      · by_cases hj : j = i
        · subst hj
          simp [hm, h.holds, hheld]
        · simp [hm, hj, h.holds]
    · by_cases hj : j = i
      · subst hj
        simpa using hnested
      · simpa [hj] using h.nested j
    · by_cases hj : j = i
      · subst hj
        simpa using hnodup.2
      · simpa [hj] using h.nodup j

theorem Invariant.step (h : s.Invariant rank held) (i : ι) :
    ∃ held', (s.step i).Invariant rank held' := by
  rw [LockState.step]
  cases hgo : s.go i with
  | none => exact ⟨held, h⟩
  | some s' => exact h.go hgo

/-- Threads whose lists are in order, after any schedule. -/
theorem exists_invariant {program : ι → List (LockOp μ)}
    (hprogram : ∀ i, Nested rank [] (program i) []) (schedule : List ι) :
    ∃ held, (Run.run LockState.step (start program) schedule).Invariant rank held :=
  Run.run_induct (P := fun s : LockState ι μ => ∃ held, s.Invariant rank held)
    ⟨_, invariant_start hprogram⟩ (fun _ i ⟨_, h⟩ => h.step i) schedule

/-! ## Somebody can go on -/

/-- A thread that has something to do and cannot go on waits for a mutex that ranks above all it
    holds, and another thread holds it. -/
theorem Invariant.waits (h : s.Invariant rank held) {i : ι} (hrest : s.rest i ≠ [])
    (hstuck : s.go i = none) :
    ∃ m j, s.holder m = some j ∧ (∀ m' ∈ held i, rank m' < rank m) ∧ m ∈ held j := by
  rw [LockState.go] at hstuck
  split at hstuck
  · next hnil => exact absurd hnil hrest
  · next m ops hops =>
    split at hstuck
    · cases hstuck
    · next htaken =>
      obtain ⟨j, hj⟩ := Option.ne_none_iff_exists'.mp (by simpa using htaken)
      have hnested := h.nested i
      rw [hops, nested_acquire] at hnested
      exact ⟨m, j, hj, hnested.1, (h.holds m j).mp hj⟩
  · cases hstuck

/-- Not every thread that has something to do waits, when ranks cannot grow for ever. -/
theorem Invariant.exists_go [WellFoundedGT κ] (h : s.Invariant rank held) (hdone : ¬ s.Done) :
    ∃ i, (s.go i).isSome = true := by
  by_contra hnone
  have hstuck : ∀ i, s.go i = none := fun i => by
    by_contra hi
    exact hnone ⟨i, Option.isSome_iff_ne_none.mpr hi⟩
  -- a thread that holds a mutex is not done, so it waits for one of a higher rank
  have hnever : ∀ k, ∀ m i, rank m = k → m ∈ held i → False := by
    intro k
    induction k using WellFoundedGT.induction with
    | ind k ih =>
      intro m i hk hm
      have hrest : s.rest i ≠ [] := fun hnil => by
        have hnested := h.nested i
        rw [hnil] at hnested
        rw [eq_of_nested_nil hnested] at hm
        cases hm
      obtain ⟨m', j, -, habove, hm'⟩ := h.waits hrest (hstuck i)
      exact ih (rank m') (hk ▸ habove m hm) m' j rfl hm'
  obtain ⟨i, hi⟩ := not_forall.mp hdone
  obtain ⟨m, j, -, -, hm⟩ := h.waits hi (hstuck i)
  exact hnever (rank m) m j rfl hm

/-! ## The threads get done -/

variable [Fintype ι]

/-- The operations left to do. -/
def remaining (s : LockState ι μ) : Nat := ∑ i, (s.rest i).length

omit [DecidableEq ι] [DecidableEq μ] in
theorem done_of_remaining_eq_zero (h : s.remaining = 0) : s.Done := fun i =>
  List.length_eq_zero_iff.mp (Finset.sum_eq_zero_iff.mp h i (Finset.mem_univ i))

omit [Preorder κ] in
/-- A thread that goes on has one operation less to do. -/
theorem remaining_go {i : ι} (hgo : s.go i = some s') : s'.remaining + 1 = s.remaining := by
  have hone : ∀ op ops, s.rest i = op :: ops →
      (∑ j, (update s.rest i ops j).length) + 1 = ∑ j, (s.rest j).length := by
    intro op ops hrest
    rw [← Finset.add_sum_erase _ _ (Finset.mem_univ i),
      ← Finset.add_sum_erase _ (fun j => (s.rest j).length) (Finset.mem_univ i), update_self, hrest,
      List.length_cons]
    have hother : ∑ j ∈ Finset.univ.erase i, (update s.rest i ops j).length =
        ∑ j ∈ Finset.univ.erase i, (s.rest j).length :=
      Finset.sum_congr rfl fun j hj => by rw [update_of_ne (Finset.ne_of_mem_erase hj)]
    omega
  rw [go] at hgo
  split at hgo
  · cases hgo
  · next m ops hrest =>
    split at hgo
    · rw [← Option.some.inj hgo]
      exact hone _ ops hrest
    · cases hgo
  · next m ops hrest =>
    rw [← Option.some.inj hgo]
    exact hone _ ops hrest

/-- From a state in which the lists are in order, as many operations as are left, done by threads
    that can go on, get everything done. -/
theorem Invariant.exists_schedule [WellFoundedGT κ] (h : s.Invariant rank held) :
    ∃ schedule : List ι, schedule.length = s.remaining ∧
      (Run.run LockState.step s schedule).Done := by
  generalize hn : s.remaining = n
  induction n generalizing s held with
  | zero => exact ⟨[], rfl, done_of_remaining_eq_zero hn⟩
  | succ n ih =>
    have hdone : ¬ s.Done := fun hdone => by
      have hzero : s.remaining = 0 := Finset.sum_eq_zero fun i _ => by rw [hdone i, List.length_nil]
      omega
    obtain ⟨i, hi⟩ := h.exists_go hdone
    obtain ⟨s', hgo⟩ := Option.isSome_iff_exists.mp hi
    obtain ⟨held', h'⟩ := h.go hgo
    obtain ⟨schedule, hlength, hend⟩ := ih h' (by have := remaining_go hgo; omega)
    refine ⟨i :: schedule, by rw [List.length_cons, hlength], ?_⟩
    rw [Run.run_cons, LockState.step, hgo]
    exact hend

end LockState
