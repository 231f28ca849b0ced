import Mathlib.Algebra.BigOperators.Ring.Finset
import Mathlib.Algebra.Order.BigOperators.Group.Finset
import TrafficGen.ForStd.FairRuns
import TrafficGen.Spec.ShutdownOrder

/-!
# The generator comes to an end

A handler stops the server with the mutex that `main` takes for the same. When a signal interrupts
the thread that has the mutex, its handler waits for that very thread, and the mutex is lost. As
long as `grpc::Server::Shutdown` returns to whoever calls it, this is the only thing that keeps
`main` from returning once `g_running` is cleared. In a handler on one of gRPC's threads it does
not, and the mutex stays with that thread.

## Key results

- `Invariant.blocked_resume`: running the threads neither blocks a process nor gets it going again
- `Invariant.kept_step`: the mutex stays with the call that `grpc::Server::Shutdown` does not return
  to, and stays needed
- `returns_unless_blocked`: `main` returns if every thread has its turn often enough and
  `grpc::Server::Shutdown` returns, unless the process is blocked, and then it never does; nor does
  it when `grpc::Server::Shutdown` does not return to the thread that has the mutex
-/

namespace TrafficGen

open Locking (ThreadId)

variable {rpcs workers : Nat}

/-- The handler has not given the mutex back yet. -/
def HandlerPc.needs : HandlerPc → Bool
  | .entered | .locking | .shutting => true
  | .stopping _ => false

/-- `main` has not given the mutex back yet. -/
def MainPc.needs : MainPc workers → Bool
  | .waiting | .locking | .shutting => true
  | _ => false

namespace ProcessState

variable {ports : Nat} {s : ProcessState rpcs workers} {t t' : ThreadId rpcs workers}
  {answer : Answer}

/-! ## Lost mutexes -/

/-- The signal a thread is handling. -/
def innermost (s : ProcessState rpcs workers) (t : ThreadId rpcs workers) : Option Signal :=
  (s.handlers t).head?.map Prod.fst

/-- A signal has interrupted the call that has the mutex. -/
def Lost (s : ProcessState rpcs workers) : Prop :=
  ∃ t who, s.mutex = some (t, who) ∧ s.innermost t ≠ who

/-- `main`, or a handler on its thread or on a worker's, has not given the mutex back yet. -/
def Needed (s : ProcessState rpcs workers) : Prop :=
  s.pc.needs = true ∨ ∃ t, (∀ i, t ≠ .rpc i) ∧ (s.handlers t).any (·.2.needs) = true

/-- The mutex is lost and still needed. -/
def Blocked (s : ProcessState rpcs workers) : Prop := s.Lost ∧ s.Needed

variable {s' : ProcessState rpcs workers} {signum : Signal} {who : Option Signal}
  {call : Signal × HandlerPc} {outer calls : List (Signal × HandlerPc)}

theorem not_lost_of_free (h : s.mutex = none) : ¬ s.Lost := by
  rintro ⟨t, who, hmutex, -⟩
  rw [h] at hmutex
  cases hmutex

theorem not_lost_of_owner (h : s.mutex = some (t, s.innermost t)) : ¬ s.Lost := by
  rintro ⟨t', who, hmutex, hne⟩
  rw [h, Option.some.injEq, Prod.mk.injEq] at hmutex
  obtain ⟨rfl, hwho⟩ := hmutex
  exact hne hwho

theorem lost_congr (hmutex : s'.mutex = s.mutex)
    (hinnermost : ∀ t who, s.mutex = some (t, who) → s'.innermost t = s.innermost t) :
    s'.Lost ↔ s.Lost := by
  simp only [Lost, hmutex]
  exact exists_congr fun t => exists_congr fun who => and_congr_right fun h => by
    rw [hinnermost t who h]

theorem innermost_of_calls (h : s.handlers t = call :: outer) :
    s.innermost t = some call.1 := by
  rw [innermost, h]
  rfl

theorem innermost_setHandlers (calls : List (Signal × HandlerPc))
    (h : calls.head?.map Prod.fst = s.innermost t)
    (t' : ThreadId rpcs workers) : (s.setHandlers t calls).innermost t' = s.innermost t' := by
  by_cases ht : t' = t
  · rw [ht, ← h, innermost, handlers_setHandlers_self]
  · rw [innermost, innermost, handlers_setHandlers_ne s ht]

theorem needed_congr (hpc : s'.pc.needs = s.pc.needs)
    (hcalls : ∀ t, (s'.handlers t).any (·.2.needs) = (s.handlers t).any (·.2.needs)) :
    s'.Needed ↔ s.Needed := by
  simp only [Needed, hpc, hcalls]

theorem any_setHandlers (h : calls.any (·.2.needs) = (s.handlers t).any (·.2.needs))
    (t' : ThreadId rpcs workers) : ((s.setHandlers t calls).handlers t').any (·.2.needs) =
      (s.handlers t').any (·.2.needs) := by
  by_cases ht : t' = t
  · rw [ht, handlers_setHandlers_self, h]
  · rw [handlers_setHandlers_ne s ht]

/-- Nobody can go on with a lost mutex: what runs above its owner waits for it. -/
theorem Invariant.waits_of_lost (h : s.Invariant) (hmutex : s.mutex = some (t, who))
    (hlost : s.innermost t ≠ who) (hcalls : s.handlers t = call :: outer) :
    call.2.waits = true := by
  obtain ⟨-, ⟨habove, -⟩, hmain⟩ := h.guarded.of_calls hcalls
  cases who with
  | none =>
    obtain ⟨ht, hpc⟩ := (h.guarded.main t).mp hmutex
    exact (hmain ht hpc).1
  | some signum =>
    have hmem := (h.guarded.handler t signum).mp hmutex
    rw [hcalls] at hmem
    rcases List.mem_cons.mp hmem with heq | hmem
    · rw [innermost, hcalls, ← heq] at hlost
      exact absurd rfl hlost
    · exact habove _ hmem rfl

/-- A handler with the mutex is the innermost of its thread. -/
theorem Invariant.not_lost_of_shutting (h : s.Invariant)
    (hcalls : s.handlers t = (signum, .shutting) :: outer) : ¬ s.Lost := by
  have hmutex := (h.guarded.handler t signum).mpr (hcalls ▸ List.mem_cons_self)
  exact not_lost_of_owner (t := t) (by rw [hmutex, innermost_of_calls hcalls])

theorem Invariant.not_lost_of_shutting_main (h : s.Invariant) (hcalls : s.handlers .main = [])
    (hpc : s.pc = .shutting) : ¬ s.Lost := by
  have hmutex := (h.guarded.main .main).mpr ⟨rfl, hpc⟩
  exact not_lost_of_owner (t := .main) (by rw [hmutex, innermost, hcalls]; rfl)

/-- A handler that goes on neither loses the mutex nor finds it again. -/
theorem Invariant.lost_signalHandler (h : s.Invariant) {pc : HandlerPc}
    (hcalls : s.handlers t = (signum, pc) :: outer) (answer : Answer) :
    (s.signalHandler t signum pc outer answer).Lost ↔ s.Lost := by
  have hinnermost := innermost_of_calls hcalls
  cases pc with
  | entered =>
    exact lost_congr rfl fun t' _ _ =>
      innermost_setHandlers ((signum, .locking) :: outer) hinnermost.symm t'
  | locking =>
    rw [ProcessState.signalHandler]
    split
    · exact Iff.rfl
    · next hfree =>
      rw [Bool.not_eq_true, Option.isSome_eq_false_iff, Option.isNone_iff_eq_none] at hfree
      refine iff_of_false (not_lost_of_owner (t := t) ?_) (not_lost_of_free hfree)
      simp [innermost]
  | shutting =>
    rw [ProcessState.signalHandler]
    split
    · exact iff_of_false (not_lost_of_free rfl) (h.not_lost_of_shutting hcalls)
    · exact Iff.rfl
  | stopping i =>
    rw [ProcessState.signalHandler]
    split
    · exact lost_congr rfl fun t' _ _ =>
        innermost_setHandlers ((signum, .stopping (i + 1)) :: outer) hinnermost.symm t'
    · refine lost_congr rfl fun t' who hmutex => ?_
      -- the handler is not above the call with the mutex
      have hne : t' ≠ t := by
        rintro rfl
        by_cases hwho : s.innermost t' = who
        · rw [hinnermost] at hwho
          cases h.guarded.shutting_of_owner hcalls (hwho ▸ hmutex)
        · cases h.waits_of_lost hmutex hwho hcalls
      rw [innermost, innermost, handlers_setHandlers_ne s hne]

theorem Invariant.lost_main (h : s.Invariant) (hcalls : s.handlers .main = []) (ports : Nat)
    (answer : Answer) : (s.main ports answer).Lost ↔ s.Lost := by
  cases hpc : s.pc with
  | locking =>
    simp only [ProcessState.main, hpc]
    split
    · exact Iff.rfl
    · next hfree =>
      rw [Bool.not_eq_true, Option.isSome_eq_false_iff, Option.isNone_iff_eq_none] at hfree
      refine iff_of_false (not_lost_of_owner (t := .main) ?_) (not_lost_of_free hfree)
      simp [innermost, hcalls]
  | shutting =>
    simp only [ProcessState.main, hpc]
    split
    · exact iff_of_false (not_lost_of_free rfl) (h.not_lost_of_shutting_main hcalls hpc)
    · exact Iff.rfl
  | waiting | stopping | joining =>
    simp only [ProcessState.main, hpc]
    split <;> exact Iff.rfl
  | awaiting | stoppingPort =>
    simp only [ProcessState.main, hpc]
    exact Iff.rfl
  | returned => simp only [ProcessState.main, hpc]

theorem Invariant.lost_resume (h : s.Invariant) (ports : Nat) (t : ThreadId rpcs workers)
    (answer : Answer) : (s.resume ports t answer).Lost ↔ s.Lost := by
  cases hcalls : s.handlers t with
  | cons call outer =>
    rw [resume_handler hcalls]
    exact h.lost_signalHandler hcalls answer
  | nil =>
    cases t with
    | main =>
      rw [resume_main hcalls]
      exact h.lost_main hcalls ports answer
    | worker w =>
      rw [resume_worker hcalls]
      exact Iff.rfl
    | rpc i => rw [resume_rpc hcalls]

/-! ## Mutexes that are kept -/

/-- Only the call that has the mutex gives it back, when `grpc::Server::Shutdown` has returned to it
    and no handler runs above it. -/
theorem Invariant.mutex_resume (h : s.Invariant) (hmutex : s.mutex = some (t, who)) (ports : Nat)
    (t' : ThreadId rpcs workers) (answer : Answer) :
    (s.resume ports t' answer).mutex = some (t, who) ∨
      t' = t ∧ s.innermost t = who ∧ answer.shutdown = true := by
  -- what has the mutex is the call that says so
  have howner : ∀ t' who', s.mutex = some (t', who') → s.innermost t' = who' →
      t' = t ∧ s.innermost t = who := by
    intro t' who' hmutex' hinnermost
    rw [hmutex, Option.some.injEq, Prod.mk.injEq] at hmutex'
    obtain ⟨rfl, rfl⟩ := hmutex'
    exact ⟨rfl, hinnermost⟩
  cases hcalls : s.handlers t' with
  | cons call outer =>
    obtain ⟨signum, pc⟩ := call
    rw [resume_handler hcalls]
    cases pc with
    | entered => exact .inl hmutex
    | locking =>
      rw [ProcessState.signalHandler, if_pos (by rw [hmutex]; rfl)]
      exact .inl hmutex
    | shutting =>
      rw [ProcessState.signalHandler]
      split
      · next hreturns =>
        have hthis := (h.guarded.handler t' signum).mpr (hcalls ▸ List.mem_cons_self)
        obtain ⟨ht, hwho⟩ := howner t' _ hthis (innermost_of_calls hcalls)
        exact .inr ⟨ht, hwho, hreturns⟩
      · exact .inl hmutex
    | stopping i =>
      rw [ProcessState.signalHandler]
      split
      · exact .inl hmutex
      · exact .inl hmutex
  | nil =>
    cases t' with
    | main =>
      rw [resume_main hcalls]
      cases hpc : s.pc with
      | locking =>
        simp only [ProcessState.main, hpc, hmutex, Option.isSome_some, if_true, true_or]
      | shutting =>
        simp only [ProcessState.main, hpc]
        split
        · next hreturns =>
          have hthis := (h.guarded.main .main).mpr ⟨rfl, hpc⟩
          obtain ⟨ht, hwho⟩ := howner .main none hthis (by rw [innermost, hcalls]; rfl)
          exact .inr ⟨ht, hwho, hreturns⟩
        · exact .inl hmutex
      | waiting | stopping | joining =>
        simp only [ProcessState.main, hpc]
        split
        · exact .inl hmutex
        · exact .inl hmutex
      | awaiting | stoppingPort | returned =>
        simp only [ProcessState.main, hpc]
        exact .inl hmutex
    | worker w =>
      rw [resume_worker hcalls]
      exact .inl hmutex
    | rpc i =>
      rw [resume_rpc hcalls]
      exact .inl hmutex

/-- While the mutex stays where it is, no turn changes whether it is needed. -/
theorem needed_resume (hmutex : s.mutex = some (t, who)) (ports : Nat) (t' : ThreadId rpcs workers)
    (answer : Answer) (hkept : (s.resume ports t' answer).mutex = some (t, who)) :
    (s.resume ports t' answer).Needed ↔ s.Needed := by
  cases hcalls : s.handlers t' with
  | cons call outer =>
    obtain ⟨signum, pc⟩ := call
    rw [resume_handler hcalls] at hkept ⊢
    have hany : ∀ pc', pc'.needs = pc.needs →
        (((signum, pc') :: outer).any (·.2.needs)) = (s.handlers t').any (·.2.needs) := by
      intro pc' hpc'
      rw [hcalls, List.any_cons, List.any_cons, hpc']
    cases pc with
    | entered => exact needed_congr rfl (any_setHandlers (hany .locking rfl))
    | locking => rw [ProcessState.signalHandler, if_pos (by rw [hmutex]; rfl)]
    | shutting =>
      -- it would have given the mutex back
      rw [ProcessState.signalHandler] at hkept ⊢
      split at hkept
      · cases hkept
      · next hreturns => rw [if_neg hreturns]
    | stopping i =>
      rw [ProcessState.signalHandler]
      split
      · exact needed_congr rfl (any_setHandlers (hany (.stopping (i + 1)) rfl))
      · refine needed_congr rfl (any_setHandlers ?_)
        rw [hcalls, List.any_cons]
        rfl
  | nil =>
    cases t' with
    | main =>
      rw [resume_main hcalls] at hkept ⊢
      cases hpc : s.pc with
      | waiting =>
        simp only [ProcessState.main, hpc]
        split
        · exact Iff.rfl
        · exact needed_congr (by rw [hpc]; rfl) fun _ => rfl
      | locking => simp only [ProcessState.main, hpc, hmutex, Option.isSome_some, if_true]
      | shutting =>
        simp only [ProcessState.main, hpc] at hkept ⊢
        split at hkept
        · cases hkept
        · next hreturns => rw [if_neg hreturns]
      | stopping | joining | awaiting | stoppingPort =>
        -- `main` is past the server
        simp only [ProcessState.main, hpc]
        split
        · exact needed_congr (by simp only [hpc, MainPc.needs]) fun _ => rfl
        · exact needed_congr (by simp only [hpc, MainPc.needs]) fun _ => rfl
      | returned => simp only [ProcessState.main, hpc]
    | worker w =>
      rw [resume_worker hcalls]
      exact Iff.rfl
    | rpc i => rw [resume_rpc hcalls]

/-- Running its threads neither blocks a process nor gets it going again. -/
theorem Invariant.blocked_resume (h : s.Invariant) (ports : Nat) (t : ThreadId rpcs workers)
    (answer : Answer) : (s.resume ports t answer).Blocked ↔ s.Blocked := by
  rw [Blocked, Blocked, h.lost_resume]
  refine and_congr_right fun ⟨t', who, hmutex, hne⟩ => ?_
  -- nobody takes a lost mutex or gives it back
  have hkept := (h.mutex_resume hmutex ports t answer).resolve_right fun hback => hne hback.2.1
  exact needed_resume hmutex ports t answer hkept

theorem Needed.signal (h : s.Needed) (t : ThreadId rpcs workers) (signum : Signal) :
    (s.setHandlers t ((signum, .entered) :: s.handlers t)).Needed := by
  refine h.imp_right fun ⟨t', hrpc, hany⟩ => ⟨t', hrpc, ?_⟩
  by_cases ht : t' = t
  · rw [ht, handlers_setHandlers_self]
    rfl
  · rwa [handlers_setHandlers_ne s ht]

/-- No signal gets a blocked process going again. -/
theorem Invariant.blocked_step (h : s.Invariant) (hblocked : s.Blocked) (a : Act rpcs workers) :
    (s.step ports a).Blocked := by
  cases a with
  | run t answer => exact (h.blocked_resume ports t answer).mpr hblocked
  | signal t signum =>
    rw [ProcessState.step]
    split
    · exact hblocked
    · next hfree =>
      rw [not_or] at hfree
      obtain ⟨⟨t', who, hmutex, hne⟩, hneeded⟩ := hblocked
      refine ⟨⟨t', who, hmutex, ?_⟩, hneeded.signal t signum⟩
      by_cases ht : t' = t
      · -- the mutex is not with a handler of this signal
        rw [ht, innermost, handlers_setHandlers_self]
        rintro rfl
        rw [ht] at hmutex
        have hmem := (h.guarded.handler t signum).mp hmutex
        exact hfree.2 (List.mem_map.mpr ⟨_, hmem, rfl⟩)
      · rwa [innermost, handlers_setHandlers_ne s ht]

/-- A call that is not told that `grpc::Server::Shutdown` has returned keeps the mutex. -/
theorem Invariant.kept_step (h : s.Invariant) (hmutex : s.mutex = some (t, who))
    (hneeded : s.Needed) {a : Act rpcs workers} (ha : ∀ dpdk, a ≠ .run t ⟨dpdk, true⟩) :
    (s.step ports a).mutex = some (t, who) ∧ (s.step ports a).Needed := by
  cases a with
  | run t' answer =>
    have hkept := (h.mutex_resume hmutex ports t' answer).resolve_right fun hback => by
      obtain ⟨rfl, -, hreturns⟩ := hback
      exact ha answer.dpdk (by rw [← hreturns])
    exact ⟨hkept, (needed_resume hmutex ports t' answer hkept).mpr hneeded⟩
  | signal t' signum =>
    -- one more handler above the call, or none
    rw [ProcessState.step]
    split
    · exact ⟨hmutex, hneeded⟩
    · exact ⟨hmutex, hneeded.signal t' signum⟩

/-- While the mutex is needed, `main` is not through. -/
theorem Invariant.not_returned (h : s.Invariant) (hneeded : s.Needed) : s.pc ≠ .returned := by
  intro hpc
  have hnone : ∀ t, (∀ i, t ≠ .rpc i) → s.handlers t = [] := by
    intro t hrpc
    refine h.gone t ?_
    cases t with
    | main => simpa [hasReturned] using hpc
    | rpc i => exact absurd rfl (hrpc i)
    | worker w =>
      have hthread := ((h.worker w).joined (by rw [hpc]; trivial)).1
      simp [hasReturned, WorkerThread.returned, hthread]
  rcases hneeded with hpc' | ⟨t, hrpc, hany⟩
  · rw [hpc] at hpc'
    cases hpc'
  · rw [hnone t hrpc] at hany
    cases hany

/-- In a blocked process it never will be. -/
theorem Invariant.not_returned_of_blocked (h : s.Invariant) (hblocked : s.Blocked) (ports : Nat)
    (acts : List (Act rpcs workers)) :
    (Run.run (ProcessState.step ports) s acts).pc ≠ .returned := by
  have hrun : (Run.run (ProcessState.step ports) s acts).Invariant ∧
      (Run.run (ProcessState.step ports) s acts).Blocked :=
    Run.run_induct (P := fun s : ProcessState rpcs workers => s.Invariant ∧ s.Blocked)
      ⟨h, hblocked⟩ (fun s a hs => ⟨hs.1.step a, hs.1.blocked_step hs.2 a⟩) acts
  exact hrun.1.not_returned hrun.2.2

/-- Nor as long as `grpc::Server::Shutdown` does not return to the call that has the mutex. -/
theorem Invariant.not_returned_of_kept (h : s.Invariant) (hmutex : s.mutex = some (t, who))
    (hneeded : s.Needed) (ports : Nat) {acts : List (Act rpcs workers)}
    (hacts : ∀ dpdk, .run t ⟨dpdk, true⟩ ∉ acts) :
    (Run.run (ProcessState.step ports) s acts).pc ≠ .returned := by
  have heach : Run.Each (ProcessState.step ports)
      (fun _ a => ∀ dpdk, a ≠ .run t ⟨dpdk, true⟩) s acts :=
    Run.each_of_forall fun _ a ha dpdk heq => hacts dpdk (heq ▸ ha)
  have halways : Run.Always (ProcessState.step ports)
      (fun s => s.Invariant ∧ s.mutex = some (t, who) ∧ s.Needed) s acts :=
    Run.always_of_each (fun s a hs ha => ⟨hs.1.step a, hs.1.kept_step hs.2.1 hs.2.2 ha⟩)
      ⟨h, hmutex, hneeded⟩ heach
  obtain ⟨hinvariant, -, hneeded⟩ := halways acts (List.prefix_refl acts)
  exact hinvariant.not_returned hneeded

end ProcessState

/-! ## What is left to do -/

/-- The accesses a handler has left. -/
def HandlerPc.left (workers : Nat) : HandlerPc → Nat
  | .entered => workers + 4
  | .locking => workers + 3
  | .shutting => workers + 2
  | .stopping i => workers - i + 1

/-- The accesses of `worker_loop` once it has been told to exit. -/
def LoopPc.left : LoopPc → Nat
  | .registering => 4
  | .choosingPool => 3
  | .working => 3
  | .looping => 2
  | .leaving => 1
  | .returned => 0

/-- The accesses of a `join` in progress. -/
def CallPc.joinLeft : CallPc → Nat
  | .joining => 2
  | .unmarking => 1
  | _ => 0

/-- No more than a worker has left: its loop counts when it has been told to exit. -/
def WorkerThread.left (worker : WorkerThread) : Nat :=
  (if worker.shouldStop then (worker.thread.map fun thread => thread.pc.left).getD 0 else 5) +
    worker.call.joinLeft

/-- The accesses `main` has left, besides those in `join`. -/
def MainPc.left (ports : Nat) : MainPc workers → Nat
  | .waiting => ports + 5 * workers + 6
  | .locking => ports + 5 * workers + 5
  | .shutting => ports + 5 * workers + 4
  | .stopping i => ports + 4 * workers + (workers - i) + 3
  | .joining i => ports + 4 * (workers - i) + 2
  | .awaiting w => ports + 4 * (workers - w - 1) + 3
  | .stoppingPort i => ports - i + 1
  | .returned => 0

namespace ProcessState

variable {ports : Nat} {s : ProcessState rpcs workers} {t : ThreadId rpcs workers}
  {returns : Bool} {call : Signal × HandlerPc} {outer calls : List (Signal × HandlerPc)}

/-- No more than the threads have left to do until `main` returns. -/
def remaining (ports : Nat) (s : ProcessState rpcs workers) : Nat :=
  s.pc.left ports + (∑ t, ((s.handlers t).map (·.2.left workers)).sum) + ∑ w, (s.worker w).left

/-- `main` has something to do, and need not wait. `returns` is for `grpc::Server::Shutdown`. -/
def MainEnabled (s : ProcessState rpcs workers) (returns : Bool) : Prop :=
  match s.pc with
  | .waiting => s.running = false
  | .locking => s.mutex = none
  | .shutting => returns = true
  | .awaiting w => (s.worker w).call = .joining → (s.worker w).returned = true
  | .returned => False
  | _ => True

/-- A turn of the thread lowers what is left. -/
def Enabled (s : ProcessState rpcs workers) (t : ThreadId rpcs workers) (returns : Bool) : Prop :=
  match s.handlers t with
  | (_, pc) :: _ => (pc = .locking → s.mutex = none) ∧ (pc = .shutting → returns = true)
  | [] =>
    match t with
    | .main => s.MainEnabled returns
    | .worker w => (s.worker w).shouldStop = true ∧ (s.worker w).returned = false
    | .rpc _ => False

theorem enabled_handler (h : s.handlers t = call :: outer) : s.Enabled t returns ↔
    (call.2 = .locking → s.mutex = none) ∧ (call.2 = .shutting → returns = true) := by
  simp only [Enabled, h]

theorem enabled_main (h : s.handlers .main = []) :
    s.Enabled .main returns ↔ s.MainEnabled returns := by
  simp only [Enabled, h]

theorem enabled_worker {w : Fin workers} (h : s.handlers (.worker w) = []) :
    s.Enabled (.worker w) returns ↔
      (s.worker w).shouldStop = true ∧ (s.worker w).returned = false := by
  simp only [Enabled, h]

/-- A sum over threads or workers when one of them changes. -/
theorem sum_update {ι β : Type*} [Fintype ι] [DecidableEq ι] (f : ι → β) (g : β → Nat) (i : ι)
    (b : β) : (∑ j, g (Function.update f i b j)) + g (f i) = (∑ j, g (f j)) + g b := by
  have hother : ∑ j ∈ Finset.univ.erase i, g (Function.update f i b j) =
      ∑ j ∈ Finset.univ.erase i, g (f j) :=
    Finset.sum_congr rfl fun j hj => by rw [Function.update_of_ne (Finset.ne_of_mem_erase hj)]
  rw [← Finset.add_sum_erase _ _ (Finset.mem_univ i),
    ← Finset.add_sum_erase _ (fun j => g (f j)) (Finset.mem_univ i), Function.update_self, hother]
  omega

/-- A handler gets on, and perhaps a worker is told to exit. -/
theorem remaining_lt_of_handlers (ports : Nat) {s' : ProcessState rpcs workers}
    (calls : List (Signal × HandlerPc)) (hcalls : s.handlers t = call :: outer)
    (hhandlers : s'.handlers = Function.update s.handlers t calls)
    (hlt : (calls.map (·.2.left workers)).sum < ((call :: outer).map (·.2.left workers)).sum)
    (hpc : s'.pc = s.pc) (hworker : ∀ w, (s'.worker w).left ≤ (s.worker w).left) :
    s'.remaining ports < s.remaining ports := by
  have hsum := sum_update s.handlers (fun calls => (calls.map (·.2.left workers)).sum) t calls
  have hworkers : ∑ w, (s'.worker w).left ≤ ∑ w, (s.worker w).left :=
    Finset.sum_le_sum fun w _ => hworker w
  simp only [hcalls] at hsum
  rw [remaining, remaining, hpc, hhandlers]
  omega

/-- A worker gets on. -/
theorem remaining_setWorker_lt (ports : Nat) {w : Fin workers} {worker : WorkerThread}
    (hlt : worker.left < (s.worker w).left) :
    (s.setWorker w worker).remaining ports < s.remaining ports := by
  have hsum := sum_update s.worker WorkerThread.left w worker
  simp only [remaining, setWorker]
  omega

/-- `main` gets on, and perhaps a worker with it. -/
theorem remaining_goto (ports : Nat) {s' : ProcessState rpcs workers}
    (hhandlers : s'.handlers = s.handlers)
    (hlt : s'.pc.left ports + ∑ w, (s'.worker w).left < s.pc.left ports + ∑ w, (s.worker w).left) :
    s'.remaining ports < s.remaining ports := by
  rw [remaining, remaining, hhandlers]
  omega

end ProcessState

/-! ### Workers -/

namespace WorkerThread

variable {pc : MainPc workers} {w : Fin workers} {worker : WorkerThread}

theorem left_le_of_thread (thread : Option LoopThread) :
    (thread.map fun thread => thread.pc.left).getD 0 ≤ 4 := by
  cases thread with
  | none => exact Nat.zero_le _
  | some thread =>
    obtain ⟨joinable, pc⟩ := thread
    cases pc <;> simp [LoopPc.left]

/-- A worker that is told to exit has no more left than before. -/
theorem left_stop_le (worker : WorkerThread) : worker.stop.left ≤ worker.left := by
  have hloop := left_le_of_thread worker.thread
  refine Nat.add_le_add_right ?_ _
  simp only [stop, if_true]
  split
  · exact Nat.le_refl _
  · omega

theorem left_join (hjoinable : worker.joinable = true) (hidle : worker.call = .idle) :
    worker.join.left = worker.left + 2 := by
  simp only [left, join, hjoinable, if_true, hidle, CallPc.joinLeft, Nat.add_zero]

/-- A `join` gets on when the worker has returned. -/
theorem left_proceed_lt
    (h : worker.call = .joining ∧ worker.returned = true ∨ worker.call = .unmarking) :
    worker.proceed.left < worker.left := by
  rcases h with ⟨hcall, hreturned⟩ | hcall
  · cases hthread : worker.thread with
    | none =>
      rw [returned, hthread] at hreturned
      cases hreturned
    | some thread =>
      obtain ⟨joinable, pc⟩ := thread
      have hpc : pc = .returned := by simpa [returned, hthread] using hreturned
      simp only [proceed, left, hcall, hthread, hpc, CallPc.joinLeft, Option.map_some]
      omega
  · simp only [proceed, left, hcall, CallPc.joinLeft]
    omega

/-- And it waits otherwise. -/
theorem proceed_of_running (hcall : worker.call = .joining) (hreturned : ¬ worker.returned = true) :
    worker.proceed = worker := by
  cases hthread : worker.thread with
  | none => simp only [proceed, hcall, hthread]
  | some thread =>
    obtain ⟨joinable, pc⟩ := thread
    cases pc with
    | returned =>
      rw [returned, hthread] at hreturned
      exact absurd rfl hreturned
    | _ => simp only [proceed, hcall, hthread]

/-- A worker that has not returned has not been joined. -/
theorem At.joinable (h : worker.At pc w) (hreturned : worker.returned = false) :
    worker.joinable = true := by
  have hnot : worker.thread ≠ some ⟨false, .returned⟩ := by
    intro hthread
    rw [returned, hthread] at hreturned
    cases hreturned
  by_cases hawaiting : pc = .awaiting w
  · rcases h.awaited hawaiting with ⟨-, hjoinable⟩ | ⟨-, hthread⟩
    · exact hjoinable
    · exact absurd hthread hnot
  · exact (h.idle (fun hjoined => hnot (h.joined hjoined).1) hawaiting).1

/-- A worker that has been told to exit gets on. -/
theorem left_workerLoop_lt (hstop : worker.shouldStop = true) (hjoinable : worker.joinable = true)
    (hreturned : worker.returned = false) (ok : Bool) :
    (worker.workerLoop ok).left < worker.left := by
  obtain ⟨-, hkeeps, hcall, -⟩ := worker.workerLoop_keeps ok
  rw [left, left, hkeeps, hstop, if_pos rfl, if_pos rfl, hcall]
  refine Nat.add_lt_add_right ?_ _
  cases hthread : worker.thread with
  | none =>
    rw [joinable, hthread] at hjoinable
    cases hjoinable
  | some thread =>
    obtain ⟨joinable, pc⟩ := thread
    cases pc with
    | returned =>
      rw [returned, hthread] at hreturned
      cases hreturned
    | registering | choosingPool =>
      cases ok <;> simp [workerLoop, hthread, LoopPc.left]
    | looping | working | leaving => simp [workerLoop, hthread, hstop, LoopPc.left]

/-- A worker that has not been told to exit does not. -/
theorem left_workerLoop_of_running (hstop : worker.shouldStop = false) (ok : Bool) :
    (worker.workerLoop ok).left = worker.left := by
  obtain ⟨-, hkeeps, hcall, -⟩ := worker.workerLoop_keeps ok
  simp only [left, hkeeps, hstop, hcall, Bool.false_eq_true, if_false]

theorem workerLoop_of_returned (h : worker.returned = true) (ok : Bool) :
    worker.workerLoop ok = worker := by
  cases hthread : worker.thread with
  | none => simp only [workerLoop, hthread]
  | some thread =>
    obtain ⟨joinable, pc⟩ := thread
    have hpc : pc = .returned := by simpa [returned, hthread] using h
    simp only [workerLoop, hthread, hpc]

end WorkerThread

namespace ProcessState

variable {ports : Nat} {s : ProcessState rpcs workers} {t t' : ThreadId rpcs workers}
  {answer : Answer} {signum : Signal} {outer : List (Signal × HandlerPc)}

/-! ### Turns -/

theorem remaining_signalHandler_lt (ports : Nat) {pc : HandlerPc}
    (hcalls : s.handlers t = (signum, pc) :: outer) (hfree : pc = .locking → s.mutex = none)
    (hreturns : pc = .shutting → answer.shutdown = true) :
    (s.signalHandler t signum pc outer answer).remaining ports < s.remaining ports := by
  cases pc with
  | entered =>
    exact remaining_lt_of_handlers ports ((signum, .locking) :: outer) hcalls rfl
      (by simp [HandlerPc.left]) rfl fun _ => Nat.le_refl _
  | locking =>
    rw [ProcessState.signalHandler, if_neg (by simp [hfree rfl])]
    exact remaining_lt_of_handlers ports ((signum, .shutting) :: outer) hcalls rfl
      (by simp [HandlerPc.left]) rfl fun _ => Nat.le_refl _
  | shutting =>
    rw [ProcessState.signalHandler, if_pos (hreturns rfl)]
    exact remaining_lt_of_handlers ports ((signum, .stopping 0) :: outer) hcalls rfl
      (by simp [HandlerPc.left]) rfl fun _ => Nat.le_refl _
  | stopping i =>
    rw [ProcessState.signalHandler]
    split
    · next hi =>
      refine remaining_lt_of_handlers ports ((signum, .stopping (i + 1)) :: outer) hcalls
        rfl ?_ rfl (worker_setWorker (P := fun w worker => worker.left ≤ (s.worker w).left)
          (fun _ _ => Nat.le_refl _) (WorkerThread.left_stop_le _))
      simp only [List.map_cons, List.sum_cons, HandlerPc.left]
      omega
    · exact remaining_lt_of_handlers ports outer hcalls rfl (by simp [HandlerPc.left]) rfl
        fun _ => Nat.le_refl _

theorem Invariant.remaining_main_lt (h : s.Invariant) (henabled : s.MainEnabled answer.shutdown)
    (ports : Nat) : (s.main ports answer).remaining ports < s.remaining ports := by
  have hsame : ∀ s' : ProcessState rpcs workers, s'.handlers = s.handlers →
      s'.worker = s.worker → s'.pc.left ports < s.pc.left ports →
      s'.remaining ports < s.remaining ports := by
    intro s' hhandlers hworker hlt
    exact remaining_goto ports hhandlers (by rw [hworker]; exact Nat.add_lt_add_right hlt _)
  cases hpc : s.pc with
  | waiting =>
    have hrunning : s.running = false := by simpa only [MainEnabled, hpc] using henabled
    simp only [ProcessState.main, hpc, hrunning, Bool.false_eq_true, if_false]
    exact hsame _ rfl rfl (by simp [hpc, MainPc.left])
  | locking =>
    have hfree : s.mutex = none := by simpa only [MainEnabled, hpc] using henabled
    simp only [ProcessState.main, hpc, hfree, Option.isSome_none, Bool.false_eq_true, if_false]
    exact hsame _ rfl rfl (by simp [hpc, MainPc.left])
  | shutting =>
    have hreturns : answer.shutdown = true := by simpa only [MainEnabled, hpc] using henabled
    simp only [ProcessState.main, hpc, hreturns, if_true]
    exact hsame _ rfl rfl (by simp only [hpc, MainPc.left]; omega)
  | stopping i =>
    simp only [ProcessState.main, hpc]
    split
    · next hi =>
      have hsum := sum_update s.worker WorkerThread.left ⟨i, hi⟩ (s.worker ⟨i, hi⟩).stop
      have hstop := WorkerThread.left_stop_le (s.worker ⟨i, hi⟩)
      refine remaining_goto ports rfl ?_
      simp only [hpc, MainPc.left, setWorker]
      omega
    · exact hsame _ rfl rfl (by simp only [hpc, MainPc.left]; omega)
  | joining i =>
    simp only [ProcessState.main, hpc]
    split
    · next hi =>
      obtain ⟨hjoinable, hidle⟩ := (h.worker ⟨i, hi⟩).idle
        (by rw [hpc]; exact Nat.lt_irrefl i) (by simp [hpc])
      have hsum := sum_update s.worker WorkerThread.left ⟨i, hi⟩ (s.worker ⟨i, hi⟩).join
      rw [WorkerThread.left_join hjoinable hidle] at hsum
      refine remaining_goto ports rfl ?_
      simp only [hpc, MainPc.left, setWorker]
      omega
    · exact hsame _ rfl rfl (by simp only [hpc, MainPc.left]; omega)
  | awaiting w =>
    have hreturned : (s.worker w).call = .joining → (s.worker w).returned = true := by
      simpa only [MainEnabled, hpc] using henabled
    have hcall := ((h.worker w).awaited hpc).imp (fun hjoining => hjoining.1) fun h => h.1
    have hlt := WorkerThread.left_proceed_lt (hcall.imp_left fun h => ⟨h, hreturned h⟩)
    have hsum := sum_update s.worker WorkerThread.left w (s.worker w).proceed
    simp only [ProcessState.main, hpc]
    refine remaining_goto ports rfl ?_
    have hpc' : MainPc.left ports (if (s.worker w).proceed.call = .idle then .joining (w + 1)
        else .awaiting w) ≤ MainPc.left ports (.awaiting w) := by
      split
      · simp only [MainPc.left]
        omega
      · exact Nat.le_refl _
    simp only [hpc, setWorker]
    omega
  | stoppingPort i =>
    simp only [ProcessState.main, hpc]
    refine hsame _ rfl rfl ?_
    simp only [hpc]
    split
    · simp only [MainPc.left]
      omega
    · exact Nat.succ_pos _
  | returned => simp only [MainEnabled, hpc] at henabled

theorem Invariant.remaining_resume_lt (h : s.Invariant) (henabled : s.Enabled t answer.shutdown)
    (ports : Nat) : (s.resume ports t answer).remaining ports < s.remaining ports := by
  cases hcalls : s.handlers t with
  | cons call outer =>
    obtain ⟨hfree, hreturns⟩ := (enabled_handler hcalls).mp henabled
    rw [resume_handler hcalls]
    exact remaining_signalHandler_lt ports hcalls hfree hreturns
  | nil =>
    cases t with
    | main =>
      rw [resume_main hcalls]
      exact h.remaining_main_lt ((enabled_main hcalls).mp henabled) ports
    | worker w =>
      obtain ⟨hstop, hreturned⟩ := (enabled_worker hcalls).mp henabled
      rw [resume_worker hcalls]
      exact remaining_setWorker_lt ports (WorkerThread.left_workerLoop_lt hstop
        ((h.worker w).joinable hreturned) hreturned answer.dpdk)
    | rpc i =>
      simp only [Enabled, hcalls] at henabled

theorem setWorker_self (s : ProcessState rpcs workers) (w : Fin workers) :
    s.setWorker w (s.worker w) = s := by
  rw [setWorker, Function.update_eq_self]

/-- A turn of a thread that is not enabled changes nothing, or is one of a worker that has not been
    told to exit. -/
theorem resume_of_not_enabled (hrunning : s.running = false)
    (hnot : ¬ s.Enabled t answer.shutdown) (ports : Nat) : s.resume ports t answer = s ∨
      ∃ w, (s.worker w).shouldStop = false ∧
        s.resume ports t answer = s.setWorker w ((s.worker w).workerLoop answer.dpdk) := by
  cases hcalls : s.handlers t with
  | cons call outer =>
    rw [enabled_handler hcalls, Classical.not_and_iff_not_or_not, Classical.not_imp,
      Classical.not_imp] at hnot
    rw [resume_handler hcalls]
    refine .inl ?_
    rcases hnot with ⟨hlocking, hheld⟩ | ⟨hshutting, hreturns⟩
    · -- it waits for the mutex
      rw [hlocking, ProcessState.signalHandler, if_pos (Option.isSome_iff_ne_none.mpr hheld)]
    · -- it waits for `grpc::Server::Shutdown`
      rw [hshutting, ProcessState.signalHandler, if_neg hreturns]
  | nil =>
    cases t with
    | main =>
      rw [enabled_main hcalls] at hnot
      rw [resume_main hcalls]
      refine .inl ?_
      cases hpc : s.pc with
      | waiting => simp only [MainEnabled, hpc, hrunning, not_true] at hnot
      | locking =>
        have hheld : s.mutex ≠ none := by simpa only [MainEnabled, hpc] using hnot
        simp only [ProcessState.main, hpc, if_pos (Option.isSome_iff_ne_none.mpr hheld)]
      | shutting =>
        have hreturns : ¬ answer.shutdown = true := by simpa only [MainEnabled, hpc] using hnot
        simp only [ProcessState.main, hpc, if_neg hreturns]
      | stopping | joining | stoppingPort =>
        simp only [MainEnabled, hpc, not_true] at hnot
      | awaiting w =>
        have hwait : ¬ ((s.worker w).call = .joining → (s.worker w).returned = true) := by
          simpa only [MainEnabled, hpc] using hnot
        rw [Classical.not_imp] at hwait
        have hproceed := WorkerThread.proceed_of_running hwait.1 hwait.2
        simp only [ProcessState.main, hpc, hproceed, hwait.1, reduceCtorEq, if_false,
          setWorker_self]
        rw [← hpc]
      | returned => simp only [ProcessState.main, hpc]
    | worker w =>
      rw [enabled_worker hcalls, not_and] at hnot
      rw [resume_worker hcalls]
      cases hstop : (s.worker w).shouldStop with
      | false => exact .inr ⟨w, hstop, rfl⟩
      | true =>
        have hreturned := Bool.not_eq_false _ ▸ hnot hstop
        rw [WorkerThread.workerLoop_of_returned hreturned, setWorker_self]
        exact .inl rfl
    | rpc i => exact .inl (resume_rpc hcalls)

theorem MainEnabled.setWorker {w : Fin workers} {returns : Bool} (h : s.MainEnabled returns)
    (hne : s.pc ≠ .awaiting w) (worker : WorkerThread) :
    (s.setWorker w worker).MainEnabled returns := by
  obtain ⟨running, workerOf, mutex, pc, handlers⟩ := s
  cases pc with
  | awaiting w' =>
    have hw : w' ≠ w := fun heq => hne (heq ▸ rfl)
    intro hcall
    rw [worker_setWorker_ne _ hw] at hcall ⊢
    exact h hcall
  | _ => exact h

/-- A worker that has not been told to exit is in nobody's way. -/
theorem Invariant.enabled_setWorker (h : s.Invariant) {w : Fin workers} {returns : Bool}
    (hstop : (s.worker w).shouldStop = false) (henabled : s.Enabled t returns)
    (worker : WorkerThread) : (s.setWorker w worker).Enabled t returns := by
  cases hcalls : s.handlers t with
  | cons call outer =>
    exact (enabled_handler (s := s.setWorker w worker) hcalls).mpr
      ((enabled_handler hcalls).mp henabled)
  | nil =>
    have hcalls' : (s.setWorker w worker).handlers t = [] := hcalls
    cases t with
    | main =>
      have hpc : s.pc ≠ .awaiting w := by
        intro hpc
        rw [(h.worker w).told (by rw [hpc]; trivial)] at hstop
        cases hstop
      exact (enabled_main hcalls').mpr (((enabled_main hcalls).mp henabled).setWorker hpc worker)
    | worker w' =>
      rw [enabled_worker hcalls] at henabled
      have hw : w' ≠ w := by
        rintro rfl
        rw [hstop] at henabled
        cases henabled.1
      rw [enabled_worker hcalls', worker_setWorker_ne s hw]
      exact henabled
    | rpc i => simp only [Enabled, hcalls] at henabled

theorem Invariant.exists_enabled_of_handlers (h : s.Invariant) (hrunning : s.running = false)
    (hpc : s.pc ≠ .returned)
    (hhandler : ∀ t, (∀ i, t ≠ .rpc i) → s.handlers t ≠ [] → s.Enabled t true)
    (hlock : s.pc = .locking → s.mutex = none) : ∃ t, s.Enabled t true := by
  by_cases hcalls : s.handlers .main = []
  · cases hpc' : s.pc with
    | waiting =>
      exact ⟨.main, (enabled_main hcalls).mpr (by simpa only [MainEnabled, hpc'] using hrunning)⟩
    | locking =>
      exact ⟨.main, (enabled_main hcalls).mpr (by simpa only [MainEnabled, hpc'] using hlock hpc')⟩
    | shutting | stopping | joining | stoppingPort =>
      exact ⟨.main, (enabled_main hcalls).mpr (by simp only [MainEnabled, hpc'])⟩
    | awaiting w =>
      by_cases hwait : (s.worker w).call = .joining → (s.worker w).returned = true
      · exact ⟨.main, (enabled_main hcalls).mpr (by simpa only [MainEnabled, hpc'] using hwait)⟩
      · -- the worker has been told to exit
        rw [Classical.not_imp] at hwait
        by_cases hworker : s.handlers (.worker w) = []
        · exact ⟨.worker w, (enabled_worker hworker).mpr
            ⟨(h.worker w).told (by rw [hpc']; trivial), Bool.not_eq_true _ ▸ hwait.2⟩⟩
        · exact ⟨.worker w, hhandler _ nofun hworker⟩
    | returned => exact absurd hpc' hpc
  · exact ⟨.main, hhandler _ nofun hcalls⟩

/-- Until `main` has returned some thread is enabled, unless the process is blocked. -/
theorem Invariant.exists_enabled (h : s.Invariant) (hrunning : s.running = false)
    (hblocked : ¬ s.Blocked) (hpc : s.pc ≠ .returned) : ∃ t, s.Enabled t true := by
  cases hmutex : s.mutex with
  | none =>
    refine h.exists_enabled_of_handlers hrunning hpc (fun t _ hne => ?_) fun _ => hmutex
    obtain ⟨call, outer, hcalls⟩ := List.exists_cons_of_ne_nil hne
    exact (enabled_handler hcalls).mpr ⟨fun _ => hmutex, fun _ => rfl⟩
  | some owner =>
    obtain ⟨t, who⟩ := owner
    by_cases hwho : s.innermost t = who
    · -- the owner gives the mutex back
      refine ⟨t, ?_⟩
      cases hcalls : s.handlers t with
      | cons call outer =>
        rw [innermost_of_calls hcalls] at hwho
        have hshutting := h.guarded.shutting_of_owner hcalls (hwho ▸ hmutex)
        exact (enabled_handler hcalls).mpr
          ⟨fun hlocking => absurd (hshutting.symm.trans hlocking) nofun, fun _ => rfl⟩
      | nil =>
        rw [innermost, hcalls] at hwho
        have hnone : who = none := hwho.symm
        obtain ⟨rfl, hpc'⟩ := (h.guarded.main t).mp (hnone ▸ hmutex)
        exact (enabled_main hcalls).mpr (by simp only [MainEnabled, hpc'])
    · -- nobody `main` waits for needs the lost mutex
      have hneeded : ¬ s.Needed := fun hneeded => hblocked ⟨⟨t, who, hmutex, hwho⟩, hneeded⟩
      simp only [Needed, not_or, not_exists, not_and] at hneeded
      refine h.exists_enabled_of_handlers hrunning hpc (fun t' hrpc hne => ?_) fun hpc' =>
        absurd (hpc' ▸ rfl) hneeded.1
      obtain ⟨call, outer, hcalls⟩ := List.exists_cons_of_ne_nil hne
      refine (enabled_handler hcalls).mpr ⟨fun hlocking => absurd ?_ (hneeded.2 t' hrpc),
        fun _ => rfl⟩
      rw [hcalls, List.any_cons, hlocking]
      rfl

theorem running_resume (h : s.running = false) (ports : Nat) (t : ThreadId rpcs workers)
    (answer : Answer) : (s.resume ports t answer).running = false := by
  cases hcalls : s.handlers t with
  | cons call outer =>
    rw [resume_handler hcalls, ProcessState.signalHandler.eq_def]
    split
    · rfl
    · split
      · exact h
      · exact h
    · split
      · exact h
      · exact h
    · split
      · exact h
      · exact h
  | nil =>
    cases t with
    | main =>
      rw [resume_main hcalls]
      cases hpc : s.pc with
      | waiting | locking | shutting | stopping | joining =>
        simp only [ProcessState.main, hpc]
        split
        · exact h
        · exact h
      | awaiting | stoppingPort | returned =>
        simp only [ProcessState.main, hpc]
        exact h
    | worker w =>
      rw [resume_worker hcalls]
      exact h
    | rpc i =>
      rw [resume_rpc hcalls]
      exact h

theorem pc_resume (hpc : s.pc = .returned) (ports : Nat)
    (t : ThreadId rpcs workers) (answer : Answer) :
    (s.resume ports t answer).pc = .returned := by
  cases hcalls : s.handlers t with
  | cons call outer =>
    rw [resume_handler hcalls, ProcessState.signalHandler.eq_def]
    split
    · exact hpc
    · split
      · exact hpc
      · exact hpc
    · split
      · exact hpc
      · exact hpc
    · split
      · exact hpc
      · exact hpc
  | nil =>
    cases t with
    | main =>
      rw [resume_main hcalls]
      simp only [ProcessState.main, hpc]
    | worker w =>
      rw [resume_worker hcalls]
      exact hpc
    | rpc i =>
      rw [resume_rpc hcalls]
      exact hpc

/-- The goal is that `main` returns. -/
theorem ranking (ports : Nat) :
    Run.Ranking (fun (s : ProcessState rpcs workers) (turn : ThreadId rpcs workers × Answer) =>
        s.resume ports turn.1 turn.2)
      (fun turn (t : ThreadId rpcs workers) => turn.1 = t ∧ turn.2.shutdown = true)
      (fun s => s.Invariant ∧ s.running = false ∧ ¬ s.Blocked) (fun s => s.pc = .returned)
      (remaining ports) (fun s t => s.Enabled t true) where
  inv s turn hs := ⟨hs.1.resume ports _ _, running_resume hs.2.1 ports _ _,
    fun hblocked => hs.2.2 ((hs.1.blocked_resume ports _ _).mp hblocked)⟩
  goal s turn hs hpc := pc_resume hpc ports _ _
  le s turn hs := by
    by_cases henabled : s.Enabled turn.1 turn.2.shutdown
    · exact (hs.1.remaining_resume_lt henabled ports).le
    · rcases resume_of_not_enabled hs.2.1 henabled ports with heq | ⟨w, hstop, heq⟩
      · rw [heq]
      · rw [heq]
        have hsum := sum_update s.worker WorkerThread.left w ((s.worker w).workerLoop turn.2.dpdk)
        rw [WorkerThread.left_workerLoop_of_running hstop] at hsum
        simp only [remaining, setWorker]
        omega
  lt s turn t hs henabled hturn := by
    obtain ⟨rfl, hreturns⟩ := hturn
    exact hs.1.remaining_resume_lt (hreturns.symm ▸ henabled) ports
  stable s turn t hs henabled _ := by
    by_cases hturn : s.Enabled turn.1 turn.2.shutdown
    · exact .inl (hs.1.remaining_resume_lt hturn ports)
    · rcases resume_of_not_enabled hs.2.1 hturn ports with heq | ⟨w, hstop, heq⟩
      · exact .inr (by rw [heq]; exact henabled)
      · rw [heq]
        exact .inr (hs.1.enabled_setWorker hstop henabled _)
  progress s hs hpc := by
    obtain ⟨t, ht⟩ := hs.1.exists_enabled hs.2.1 hs.2.2 hpc
    exact ⟨(t, ⟨true, true⟩), t, ht, rfl, rfl⟩

/-- **Return.** From any reachable state in which `g_running` is cleared, whatever signals arrived
    before: unless the process is blocked, `main` has returned after as many rounds as are left, if
    in each of them every thread has a turn, and `grpc::Server::Shutdown` returns to it if it is in
    there, in whatever order the threads have their turns and whatever else they do. If the process
    is blocked `main` never returns, whatever signals arrive; nor does it while the mutex is needed
    and `grpc::Server::Shutdown` does not return to the thread that has it. -/
theorem returns_unless_blocked (h : Reachable ports s) (hrunning : s.running = false) :
    (¬ s.Blocked → ∀ rounds : List (List (ThreadId rpcs workers × Answer)),
      (∀ round ∈ rounds, ∀ t, ∃ turn ∈ round, turn.1 = t ∧ turn.2.shutdown = true) →
      s.remaining ports ≤ rounds.length →
      (Run.run (step ports) s (rounds.flatten.map fun turn => .run turn.1 turn.2)).pc =
        .returned) ∧
      (s.Blocked → ∀ acts : List (Act rpcs workers),
        (Run.run (step ports) s acts).pc ≠ .returned) ∧
      ∀ t who, s.mutex = some (t, who) → s.Needed → ∀ acts : List (Act rpcs workers),
        (∀ dpdk, .run t ⟨dpdk, true⟩ ∉ acts) → (Run.run (step ports) s acts).pc ≠ .returned := by
  have hinvariant := invariant_of_reachable h
  refine ⟨fun hblocked rounds hfair henough => ?_,
    fun hblocked => hinvariant.not_returned_of_blocked hblocked ports,
    fun t who hmutex hneeded acts => hinvariant.not_returned_of_kept hmutex hneeded ports⟩
  have hreturned := (ranking ports).goal_of_rounds ⟨hinvariant, hrunning, hblocked⟩ hfair henough
  rwa [Run.run, List.foldl_map]

/-- Enough rounds; a second signal while `main` has the mutex; and one on a thread of gRPC's, whose
    handler waits for that thread. -/
theorem returns_unless_blocked_interrupted :
    (Run.run (step 1) interrupted ((List.replicate (interrupted.remaining 1)
      [(.main, ⟨true, true⟩), (.worker 0, ⟨true, true⟩), (.rpc 0, ⟨true, true⟩)]).flatten.map
        fun turn => .run turn.1 turn.2)).pc = .returned ∧
      (Run.run (step 1) interrupted [.run .main ⟨true, true⟩, .run .main ⟨true, true⟩,
        .signal .main .sigint, .run .main ⟨true, true⟩, .run .main ⟨true, true⟩,
        .run (.worker 0) ⟨true, true⟩]).pc ≠ .returned ∧
      (Run.run (step 1) interrupted [.signal (.rpc 0) .sigint, .run (.rpc 0) ⟨true, false⟩,
        .run (.rpc 0) ⟨true, false⟩, .run (.rpc 0) ⟨true, false⟩, .run .main ⟨true, true⟩,
        .run .main ⟨true, true⟩, .run (.worker 0) ⟨true, true⟩]).pc ≠ .returned := by
  have hreachable : Reachable 1 interrupted := .start launched_interrupted
  refine ⟨(returns_unless_blocked hreachable rfl).1 (not_lost_of_free rfl ·.1) _
    (fun round hround t => ?_) (List.length_replicate).ge, ?_, ?_⟩
  · rw [List.eq_of_mem_replicate hround]
    revert t
    decide
  · have hlost : (Run.run (step 1) interrupted
        [.run .main ⟨true, true⟩, .run .main ⟨true, true⟩, .signal .main .sigint]).Blocked :=
      ⟨⟨.main, none, rfl, nofun⟩, .inl rfl⟩
    exact (returns_unless_blocked (hreachable.run _) rfl).2.1 hlost
      [.run .main ⟨true, true⟩, .run .main ⟨true, true⟩, .run (.worker 0) ⟨true, true⟩]
  · have hshutting : (Run.run (step 1) interrupted [.signal (.rpc 0) .sigint,
        .run (.rpc 0) ⟨true, false⟩, .run (.rpc 0) ⟨true, false⟩]).mutex =
          some (.rpc 0, some .sigint) := rfl
    exact (returns_unless_blocked (hreachable.run _) rfl).2.2 _ _ hshutting (.inl rfl)
      [.run (.rpc 0) ⟨true, false⟩, .run .main ⟨true, true⟩, .run .main ⟨true, true⟩,
        .run (.worker 0) ⟨true, true⟩] (by simp)

end ProcessState

end TrafficGen
