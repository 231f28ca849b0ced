import Mathlib.Data.List.Basic
import TrafficGen.Core.WorkerThread

/-!
# The life cycle of a worker

`start` looks at `running_` only. The worker clears that flag by itself when it returns, so
a second `start` may find a thread that was never joined and replace it, which terminates
the process. And the flag stays set for a while after `stop`, so a `start` in between
returns true although the worker has been told to exit.

## Key results

- `Invariant.step`: what every step keeps as long as `start` is called at the right moment
- `sound_iff_each`: the runs in which nothing goes wrong
- `sound_of_start_once`: a worker started once may be stopped and joined in any order
-/

namespace TrafficGen

/-- The accesses that a `start` in progress still has to make. -/
def CallPc.left : CallPc → Nat
  | .clearing => 3
  | .marking => 2
  | .creating => 1
  | _ => 0

namespace WorkerThread

/-- No thread that could be joined was replaced, and a worker started and not stopped since has
    not been told to exit. -/
def Good (s : WorkerThread) : Prop :=
  s.terminated = false ∧ (s.started = true → s.shouldStop = false)

instance (s : WorkerThread) : Decidable s.Good := inferInstanceAs (Decidable (_ ∧ _))

/-- All is well throughout a run, and while the call in progress at its end is carried through. -/
def Sound (ops : List Act) : Prop :=
  ∀ n, Run.Always step Good {} (ops ++ List.replicate n .proceed)

/-- A call of `start` finds a running worker that has not been told to exit, or no thread left to
    be joined. -/
def StartsFresh (s : WorkerThread) (a : Act) : Prop :=
  a = .start → s.call = .idle →
    if s.running then s.shouldStop = false else s.joinable = false

instance (s : WorkerThread) (a : Act) : Decidable (StartsFresh s a) :=
  inferInstanceAs (Decidable (_ → _))

/-! ## What the steps do -/

variable {s : WorkerThread}

/-- The worker changes neither the thread object nor the stop flag. -/
theorem workerLoop_keeps (s : WorkerThread) (ok : Bool) :
    (s.workerLoop ok).joinable = s.joinable ∧ (s.workerLoop ok).shouldStop = s.shouldStop ∧
      (s.workerLoop ok).call = s.call ∧ (s.workerLoop ok).started = s.started ∧
      (s.workerLoop ok).terminated = s.terminated := by
  cases hthread : s.thread with
  | none => simp [workerLoop, hthread]
  | some t =>
    obtain ⟨joinable, pc⟩ := t
    cases pc with
    | registering | choosingPool | looping | working | leaving | returned =>
      simp [workerLoop, hthread, WorkerThread.joinable]

/-- What holds as long as `start` is called at the right moment. -/
structure Invariant (s : WorkerThread) : Prop where
  good : s.Good
  /-- A `start` in progress has nothing to destroy. -/
  fresh : 0 < s.call.left → s.joinable = false
  /-- It has cleared the flag. -/
  cleared : s.call = .marking ∨ s.call = .creating → s.shouldStop = false

theorem invariant_initial : Invariant {} :=
  ⟨by decide, by decide, by decide⟩

/-- The controlling thread, going on with a call. -/
theorem Invariant.proceed (h : s.Invariant) : s.proceed.Invariant := by
  obtain ⟨⟨halive, hstop⟩, hfresh, hcleared⟩ := h
  cases hcall : s.call with
  | idle =>
    rw [show s.proceed = s by simp only [WorkerThread.proceed, hcall]]
    exact ⟨⟨halive, hstop⟩, hfresh, hcleared⟩
  | clearing =>
    -- `should_stop_` is cleared: the flag is now as a started worker needs it
    have hnone := hfresh (by rw [hcall]; decide)
    simp only [WorkerThread.proceed, hcall]
    exact ⟨⟨halive, fun _ => rfl⟩, fun _ => hnone, fun _ => rfl⟩
  | marking =>
    -- only `running_` changes
    have hnone := hfresh (by rw [hcall]; decide)
    have hclear := hcleared (.inl hcall)
    simp only [WorkerThread.proceed, hcall]
    exact ⟨⟨halive, fun _ => hclear⟩, fun _ => hnone, fun _ => hclear⟩
  | creating =>
    -- the thread object is assigned, and there was none left to be joined
    have hnone := hfresh (by rw [hcall]; decide)
    have hclear := hcleared (.inr hcall)
    simp only [WorkerThread.proceed, hcall, create, hnone]
    exact ⟨⟨halive, fun _ => hclear⟩, by simp [CallPc.left], by simp⟩
  | joining =>
    -- the call goes on waiting, or has joined the thread
    simp only [WorkerThread.proceed, hcall]
    split
    · exact ⟨⟨halive, hstop⟩, by simp [CallPc.left], by simp⟩
    · exact ⟨⟨halive, hstop⟩, hfresh, hcleared⟩
  | unmarking =>
    simp only [WorkerThread.proceed, hcall]
    exact ⟨⟨halive, hstop⟩, by simp [CallPc.left], by simp⟩

/-- A step keeps the invariant, unless it is a `start` at the wrong moment. -/
theorem Invariant.step (h : s.Invariant) (a : Act) (ha : StartsFresh s a) :
    (s.step a).Invariant := by
  have halive := h.good.1
  simp only [WorkerThread.step, halive, Bool.false_eq_true, if_false]
  cases a with
  | start =>
    dsimp only
    split
    · next hidle =>
      have hmoment := ha rfl hidle
      rw [start]
      split
      · next hrunning =>
        -- `start` returns true and changes nothing
        rw [if_pos hrunning] at hmoment
        exact ⟨⟨halive, fun _ => hmoment⟩, h.fresh, h.cleared⟩
      · next hrunning =>
        -- `start` begins, with no thread in its way
        rw [if_neg hrunning] at hmoment
        exact ⟨h.good, fun _ => hmoment, by simp⟩
    · exact h
  | stop =>
    dsimp only
    split
    · next hidle =>
      -- the `start` before it is over, so the flag may be set
      exact ⟨⟨halive, by simp [stop]⟩, h.fresh, by simp [stop, hidle]⟩
    · exact h
  | join =>
    dsimp only
    split
    · rw [join]
      split
      · exact ⟨h.good, by simp [CallPc.left], by simp⟩
      · exact ⟨h.good, by simp [CallPc.left], by simp⟩
    · exact h
  | proceed => exact h.proceed
  | loop ok =>
    -- the worker touches nothing the invariant speaks of
    obtain ⟨hjoinable, hstop, hcall, hstarted, hterminated⟩ := s.workerLoop_keeps ok
    refine ⟨?_, ?_, ?_⟩
    · rw [Good, hstop, hstarted, hterminated]
      exact h.good
    · rw [hcall, hjoinable]
      exact h.fresh
    · rw [hcall, hstop]
      exact h.cleared

/-! ## A start at the wrong moment -/

/-- Within `n` accesses of the call in progress a joinable thread is replaced, if it has not been
    already. -/
def Doomed (s : WorkerThread) (n : Nat) : Prop :=
  s.terminated = true ∨ s.joinable = true ∧ 0 < s.call.left ∧ s.call.left ≤ n

theorem doomed_zero (h : s.Doomed 0) : s.terminated = true := by
  rcases h with h | ⟨-, hpos, hle⟩
  · exact h
  · omega

/-- The next access of the call brings it closer. -/
theorem Doomed.proceed {n : Nat} (h : s.Doomed (n + 1)) : (s.step .proceed).Doomed n := by
  rw [WorkerThread.step]
  rcases h with h | ⟨hjoinable, hpos, hle⟩
  · rw [if_pos h]
    exact .inl h
  · split
    · next h => exact .inl h
    · cases hcall : s.call with
      | clearing =>
        -- two accesses are left, and the thread is still joinable
        have hle : 3 ≤ n + 1 := by simpa [hcall, CallPc.left] using hle
        simp only [WorkerThread.proceed, hcall]
        exact .inr ⟨hjoinable, Nat.two_pos, by show 2 ≤ n; omega⟩
      | marking =>
        have hle : 2 ≤ n + 1 := by simpa [hcall, CallPc.left] using hle
        simp only [WorkerThread.proceed, hcall]
        exact .inr ⟨hjoinable, Nat.one_pos, by show 1 ≤ n; omega⟩
      | creating =>
        -- assigning to a joinable `std::thread` ends the process
        simp only [WorkerThread.proceed, hcall, create, hjoinable, if_true]
        exact .inl rfl
      | idle | joining | unmarking =>
        rw [hcall] at hpos
        exact absurd hpos (by decide)

/-- No other step averts it. -/
theorem Doomed.step {n : Nat} (h : s.Doomed n) (a : Act) : (s.step a).Doomed n := by
  rcases h with h | ⟨hjoinable, hpos, hle⟩
  · have hsame : s.step a = s := if_pos h
    rw [hsame]
    exact .inl h
  · have hbusy : s.call ≠ .idle := by
      rintro hidle
      rw [hidle] at hpos
      exact absurd hpos (by decide)
    cases a with
    | start | stop | join =>
      -- the controlling thread is inside `start` and cannot call anything else
      simp only [WorkerThread.step, if_neg hbusy, ite_self]
      exact .inr ⟨hjoinable, hpos, hle⟩
    | proceed =>
      have hnext : s.Doomed (n - 1 + 1) := .inr ⟨hjoinable, hpos, by omega⟩
      rcases hnext.proceed with hdead | ⟨hj, hp, hl⟩
      · exact .inl hdead
      · exact .inr ⟨hj, hp, by omega⟩
    | loop ok =>
      obtain ⟨hj, -, hcall, -, -⟩ := s.workerLoop_keeps ok
      rw [WorkerThread.step]
      split
      · next hdead => exact .inl hdead
      · exact .inr ⟨hj.trans hjoinable, by rw [hcall]; exact hpos, by rw [hcall]; exact hle⟩

/-- Once the call has been carried through, the process is dead. -/
theorem Doomed.run {n : Nat} (h : s.Doomed n) (ops : List Act) :
    (Run.run WorkerThread.step s (ops ++ List.replicate n .proceed)).terminated = true := by
  have hproceed : ∀ {n} {s : WorkerThread}, s.Doomed n →
      (Run.run WorkerThread.step s (List.replicate n .proceed)).terminated = true := by
    intro n
    induction n with
    | zero => exact fun h => doomed_zero h
    | succ n ih => exact fun h => ih h.proceed
  rw [Run.run_append]
  exact hproceed
    (Run.run_induct (P := fun s : WorkerThread => s.Doomed n) h (fun _ a hs => hs.step a) ops)

/-! ## Runs -/

/-- In a run that stays good, every `start` is called at the right moment. -/
theorem each_of_good (h : s.Invariant) {ops : List Act}
    (hgood : ∀ n, Run.Always WorkerThread.step Good s (ops ++ List.replicate n .proceed)) :
    Run.Each WorkerThread.step StartsFresh s ops := by
  induction ops generalizing s with
  | nil => trivial
  | cons a ops ih =>
    have hfirst : StartsFresh s a := by
      rintro rfl hidle
      have hnext : s.step .start = s.start := by
        simp only [WorkerThread.step, h.good.1, Bool.false_eq_true, if_false, hidle, if_true]
      split
      · next hrunning =>
        -- `start` returns at once
        have hafter : (s.step .start).Good :=
          hgood 0 [.start] (List.cons_prefix_cons.mpr ⟨rfl, List.nil_prefix⟩)
        rw [hnext, start, if_pos hrunning] at hafter
        exact hafter.2 rfl
      · next hrunning =>
        -- a joinable thread would be replaced three accesses later
        by_contra hjoinable
        have hdoomed : (s.step .start).Doomed 3 := by
          rw [hnext, start, if_neg hrunning]
          exact .inr ⟨(Bool.not_eq_false _).mp hjoinable, Nat.succ_pos 2, Nat.le_refl 3⟩
        have hdead := (hgood 3 _ List.prefix_rfl).1
        rw [List.cons_append, Run.run_cons, hdoomed.run ops] at hdead
        cases hdead
    refine ⟨hfirst, ih (h.step a hfirst) fun n => ?_⟩
    exact (Run.always_cons.mp (hgood n)).2

theorem each_replicate_proceed (n : Nat) :
    Run.Each WorkerThread.step StartsFresh s (List.replicate n .proceed) := by
  induction n generalizing s with
  | zero => trivial
  | succ n ih => exact ⟨nofun, ih⟩

/-- **Life cycle.** A run of the controlling thread's calls and the worker's steps, in any order,
    is sound exactly when every `start` finds a running worker that has not been told to exit, or
    no thread left to be joined. -/
theorem sound_iff_each (ops : List Act) :
    Sound ops ↔ Run.Each step StartsFresh {} ops := by
  constructor
  · exact each_of_good invariant_initial
  · intro h n
    refine (Run.always_of_each (fun s a hs ha => hs.step a ha) invariant_initial ?_).imp
      fun s hs => hs.good
    exact Run.each_append.mpr ⟨h, each_replicate_proceed n⟩

/-- What `main` does with each worker: one `start`, then stops and joins only. -/
theorem sound_of_start_once {ops : List Act} (h : .start ∉ ops) : Sound (.start :: ops) := by
  rw [sound_iff_each]
  refine ⟨by decide, ?_⟩
  exact Run.each_of_forall fun s a ha hstart => absurd (hstart ▸ ha) h

/-- The worker finds no pool and returns, and it is started again. -/
def restartedAfterExit : List Act :=
  [.start, .proceed, .proceed, .proceed, .loop true, .loop false, .loop true, .start, .proceed,
    .proceed, .proceed]

/-- The worker is started again before it has noticed that it was stopped. -/
def restartedAfterStop : List Act := [.start, .proceed, .proceed, .proceed, .stop, .start]

/-- The first run replaces a joinable thread; the second ends with a worker that was started and
    is about to exit. -/
theorem not_sound_restarted :
    (Run.run step {} restartedAfterExit).terminated = true ∧ ¬ Sound restartedAfterExit ∧
      (Run.run step {} restartedAfterStop).started = true ∧
      (Run.run step {} restartedAfterStop).shouldStop = true ∧ ¬ Sound restartedAfterStop := by
  have hexit : (Run.run step {} restartedAfterExit).terminated = true := by decide
  have hstarted : (Run.run step {} restartedAfterStop).started = true := by decide
  have hstop : (Run.run step {} restartedAfterStop).shouldStop = true := by decide
  refine ⟨hexit, fun h => ?_, hstarted, hstop, fun h => ?_⟩
  · have hgood := (h 0 restartedAfterExit List.prefix_rfl).1
    rw [hexit] at hgood
    cases hgood
  · have hgood := (h 0 restartedAfterStop List.prefix_rfl).2 hstarted
    rw [hstop] at hgood
    cases hgood

end WorkerThread

end TrafficGen
