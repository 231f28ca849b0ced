import TrafficGen.Shutdown
import TrafficGen.Spec.WorkerLifecycle

/-!
# The generator shuts down in order

`main` stops the server, tells the workers to exit, joins them and stops the ports. Signal handlers
do the first two at any moment and on any thread, the workers' included, and take the server's mutex
for it.

## Key results

- `Guarded`: the mutex is with the call that says so, and what runs above that call waits for it
- `ports_stopped_last`: no port is stopped before every worker has returned and been joined
-/

namespace TrafficGen

open Locking (ThreadId)

variable {rpcs workers : Nat}

/-- The handler has not had the mutex yet. -/
def HandlerPc.waits : HandlerPc → Bool
  | .entered | .locking => true
  | _ => false

namespace ProcessState

variable {ports : Nat} {s : ProcessState rpcs workers} {t t' : ThreadId rpcs workers}

@[simp] theorem handlers_setHandlers_self (s : ProcessState rpcs workers)
    (t : ThreadId rpcs workers) (handlers : List (Signal × HandlerPc)) :
    (s.setHandlers t handlers).handlers t = handlers := by
  simp only [setHandlers, Function.update_self]

theorem handlers_setHandlers_ne (s : ProcessState rpcs workers) (h : t' ≠ t)
    (handlers : List (Signal × HandlerPc)) :
    (s.setHandlers t handlers).handlers t' = s.handlers t' := by
  simp only [setHandlers, Function.update_of_ne h]

@[simp] theorem worker_setWorker_self (s : ProcessState rpcs workers) (w : Fin workers)
    (worker : WorkerThread) : (s.setWorker w worker).worker w = worker := by
  simp only [setWorker, Function.update_self]

theorem worker_setWorker_ne (s : ProcessState rpcs workers) {w w' : Fin workers} (h : w' ≠ w)
    (worker : WorkerThread) : (s.setWorker w worker).worker w' = s.worker w' := by
  simp only [setWorker, Function.update_of_ne h]

variable {answer : Answer}

theorem resume_handler {call : Signal × HandlerPc} {outer : List (Signal × HandlerPc)}
    (h : s.handlers t = call :: outer) :
    s.resume ports t answer = s.signalHandler t call.1 call.2 outer answer := by
  simp only [resume, h]

theorem resume_main (h : s.handlers .main = []) :
    s.resume ports .main answer = s.main ports answer := by
  simp only [resume, h]

theorem resume_worker {w : Fin workers} (h : s.handlers (.worker w) = []) :
    s.resume ports (.worker w) answer =
      s.setWorker w ((s.worker w).workerLoop answer.dpdk) := by
  simp only [resume, h]

theorem resume_rpc {i : Fin rpcs} (h : s.handlers (.rpc i) = []) :
    s.resume ports (.rpc i) answer = s := by
  simp only [resume, h]

/-! ## Who has the mutex -/

/-- The mutex is with the call of `GRPCServer::stop` that says so, and only handlers that wait for
    it run on top of that call. -/
structure Guarded (mutex : Option (ThreadId rpcs workers × Option Signal)) (pc : MainPc workers)
    (handlers : ThreadId rpcs workers → List (Signal × HandlerPc)) : Prop where
  main : ∀ t, mutex = some (t, none) ↔ t = .main ∧ pc = .shutting
  handler : ∀ t signum, mutex = some (t, some signum) ↔ (signum, .shutting) ∈ handlers t
  /-- A signal is held back while it is handled. -/
  nodup : ∀ t, ((handlers t).map Prod.fst).Nodup
  above : ∀ t, (handlers t).Pairwise fun inner outer => outer.2 = .shutting → inner.2.waits = true
  aboveMain : pc = .shutting → ∀ call ∈ handlers .main, call.2.waits = true

namespace Guarded

variable {mutex : Option (ThreadId rpcs workers × Option Signal)} {pc pc' : MainPc workers}
  {handlers : ThreadId rpcs workers → List (Signal × HandlerPc)} {signum : Signal}
  {outer calls : List (Signal × HandlerPc)}

/-- The calls on a thread change. -/
theorem update (h : Guarded mutex pc handlers)
    {mutex' : Option (ThreadId rpcs workers × Option Signal)}
    (hmain : ∀ t, mutex' = some (t, none) ↔ t = .main ∧ pc = .shutting)
    (hhandler : ∀ t' signum, mutex' = some (t', some signum) ↔
      (signum, .shutting) ∈ Function.update handlers t calls t')
    (hnodup : (calls.map Prod.fst).Nodup)
    (habove : calls.Pairwise fun inner outer => outer.2 = .shutting → inner.2.waits = true)
    (haboveMain : t = .main → pc = .shutting → ∀ call ∈ calls, call.2.waits = true) :
    Guarded mutex' pc (Function.update handlers t calls) where
  main := hmain
  handler := hhandler
  nodup t' := by
    by_cases ht : t' = t
    · rwa [ht, Function.update_self]
    · rw [Function.update_of_ne ht]
      exact h.nodup t'
  above t' := by
    by_cases ht : t' = t
    · rwa [ht, Function.update_self]
    · rw [Function.update_of_ne ht]
      exact h.above t'
  aboveMain hpc := by
    by_cases ht : .main = t
    · rw [ht, Function.update_self]
      exact haboveMain ht.symm hpc
    · rw [Function.update_of_ne ht]
      exact h.aboveMain hpc

/-- A change of the calls on a thread that does not change which of them has the mutex. -/
theorem handler_update (h : Guarded mutex pc handlers)
    (hsame : ∀ signum, (signum, .shutting) ∈ calls ↔ (signum, .shutting) ∈ handlers t)
    (t' : ThreadId rpcs workers) (signum : Signal) : mutex = some (t', some signum) ↔
      (signum, .shutting) ∈ Function.update handlers t calls t' := by
  rw [h.handler]
  by_cases ht : t' = t
  · rw [ht, Function.update_self, hsame]
  · rw [Function.update_of_ne ht]

/-- What the calls on a thread are like. -/
theorem of_calls {call : Signal × HandlerPc} (h : Guarded mutex pc handlers)
    (hcalls : handlers t = call :: outer) :
    (call.1 ∉ outer.map Prod.fst ∧ (outer.map Prod.fst).Nodup) ∧
      ((∀ o ∈ outer, o.2 = .shutting → call.2.waits = true) ∧
        outer.Pairwise fun inner outer => outer.2 = .shutting → inner.2.waits = true) ∧
      (t = .main → pc = .shutting → call.2.waits = true ∧ ∀ o ∈ outer, o.2.waits = true) := by
  have hnodup := h.nodup t
  have habove := h.above t
  rw [hcalls] at hnodup habove
  refine ⟨List.nodup_cons.mp hnodup, List.pairwise_cons.mp habove, fun ht hpc => ?_⟩
  have hall := h.aboveMain hpc
  rw [← ht, hcalls] at hall
  exact List.forall_mem_cons.mp hall

/-- The call with the mutex says so. -/
theorem shutting_of_owner {call : Signal × HandlerPc} (h : Guarded mutex pc handlers)
    (hcalls : handlers t = call :: outer) (hmutex : mutex = some (t, some call.1)) :
    call.2 = .shutting := by
  have hmem := (h.handler t call.1).mp hmutex
  rw [hcalls] at hmem
  rcases List.mem_cons.mp hmem with heq | hmem
  · rw [← heq]
  · exact absurd (List.mem_map.mpr ⟨_, hmem, rfl⟩) (h.of_calls hcalls).1.1

/-- A handler goes from one place to another, neither with the mutex, and goes on waiting if it
    waited. -/
theorem goto (h : Guarded mutex pc handlers) {here there : HandlerPc}
    (hcalls : handlers t = (signum, here) :: outer) (hhere : here ≠ .shutting)
    (hthere : there ≠ .shutting) (hwaits : here.waits = true → there.waits = true) :
    Guarded mutex pc (Function.update handlers t ((signum, there) :: outer)) := by
  obtain ⟨hnodup, ⟨hcall, habove⟩, hmain⟩ := h.of_calls hcalls
  refine h.update h.main (h.handler_update fun signum' => ?_) (List.nodup_cons.mpr hnodup)
    (List.pairwise_cons.mpr ⟨fun o ho hshutting => hwaits (hcall o ho hshutting), habove⟩)
    fun ht hpc => List.forall_mem_cons.mpr ⟨hwaits (hmain ht hpc).1, (hmain ht hpc).2⟩
  rw [hcalls, List.mem_cons, List.mem_cons, Prod.mk.injEq, Prod.mk.injEq]
  simp only [hhere.symm, hthere.symm, and_false, false_or]

/-- A handler returns, which does not happen above the call with the mutex. -/
theorem pop (h : Guarded mutex pc handlers) {i : Nat}
    (hcalls : handlers t = (signum, .stopping i) :: outer) :
    Guarded mutex pc (Function.update handlers t outer) := by
  obtain ⟨hnodup, ⟨-, habove⟩, hmain⟩ := h.of_calls hcalls
  refine h.update h.main (h.handler_update fun signum' => ?_) hnodup.2 habove
    fun ht hpc => (hmain ht hpc).2
  rw [hcalls, List.mem_cons, Prod.mk.injEq]
  simp only [reduceCtorEq, and_false, false_or]

/-- A signal arrives. -/
theorem push (h : Guarded mutex pc handlers) (hfree : signum ∉ (handlers t).map Prod.fst) :
    Guarded mutex pc (Function.update handlers t ((signum, .entered) :: handlers t)) := by
  refine h.update h.main (h.handler_update fun signum' => ?_)
    (List.nodup_cons.mpr ⟨hfree, h.nodup t⟩)
    (List.pairwise_cons.mpr ⟨fun _ _ _ => rfl, h.above t⟩)
    fun ht hpc => List.forall_mem_cons.mpr ⟨rfl, ht ▸ h.aboveMain hpc⟩
  rw [List.mem_cons, Prod.mk.injEq]
  simp only [reduceCtorEq, and_false, false_or]

/-- While no call has the mutex, none says so. -/
theorem not_shutting (h : Guarded (none : Option (ThreadId rpcs workers × Option Signal)) pc
    handlers) : pc ≠ .shutting ∧ ∀ t signum, (signum, HandlerPc.shutting) ∉ handlers t := by
  refine ⟨fun hpc => ?_, fun t signum hmem => ?_⟩
  · cases (h.main .main).mpr ⟨rfl, hpc⟩
  · cases (h.handler t signum).mpr hmem

/-- A handler takes the mutex. -/
theorem lock (h : Guarded none pc handlers) (hcalls : handlers t = (signum, .locking) :: outer) :
    Guarded (some (t, some signum)) pc
      (Function.update handlers t ((signum, .shutting) :: outer)) := by
  obtain ⟨hpc, hnone⟩ := h.not_shutting
  obtain ⟨hnodup, ⟨-, habove⟩, -⟩ := h.of_calls hcalls
  have houter : ∀ signum', (signum', HandlerPc.shutting) ∉ outer := fun signum' hmem =>
    hnone t signum' (hcalls ▸ List.mem_cons_of_mem _ hmem)
  refine h.update (fun t' => ?_) (fun t' signum' => ?_) (List.nodup_cons.mpr hnodup)
    (List.pairwise_cons.mpr ⟨fun o ho hshutting => ?_, habove⟩) fun _ h => absurd h hpc
  · simp only [Option.some.injEq, Prod.mk.injEq, reduceCtorEq, and_false, hpc]
  · rw [Option.some.injEq, Prod.mk.injEq, Option.some.injEq]
    by_cases ht : t' = t
    · rw [ht, Function.update_self, List.mem_cons, Prod.mk.injEq]
      simp only [houter, true_and, and_true, or_false, eq_comm]
    · rw [Function.update_of_ne ht]
      simp only [hnone, Ne.symm ht, false_and]
  · exact absurd (hshutting ▸ ho) (houter o.1)

/-- A handler gives the mutex back. -/
theorem unlock (h : Guarded mutex pc handlers)
    (hcalls : handlers t = (signum, .shutting) :: outer) :
    Guarded none pc (Function.update handlers t ((signum, .stopping 0) :: outer)) := by
  have hmutex : mutex = some (t, some signum) :=
    (h.handler t signum).mpr (hcalls ▸ List.mem_cons_self)
  have hpc : pc ≠ .shutting := by
    intro hpc
    rw [(h.main .main).mpr ⟨rfl, hpc⟩] at hmutex
    cases hmutex
  -- no other call has it
  have hone : ∀ t' signum', (signum', HandlerPc.shutting) ∈ handlers t' →
      t' = t ∧ signum' = signum := by
    intro t' signum' hmem
    have heq := (h.handler t' signum').mpr hmem
    rw [hmutex, Option.some.injEq, Prod.mk.injEq, Option.some.injEq] at heq
    exact ⟨heq.1.symm, heq.2.symm⟩
  obtain ⟨hnodup, ⟨-, habove⟩, -⟩ := h.of_calls hcalls
  have houter : ∀ signum', (signum', HandlerPc.shutting) ∉ outer := by
    intro signum' hmem
    have heq := (hone t signum' (hcalls ▸ List.mem_cons_of_mem _ hmem)).2
    exact hnodup.1 (List.mem_map.mpr ⟨_, hmem, heq⟩)
  refine h.update (fun t' => ?_) (fun t' signum' => ?_) (List.nodup_cons.mpr hnodup)
    (List.pairwise_cons.mpr ⟨fun o ho hshutting => ?_, habove⟩) fun _ h => absurd h hpc
  · simp only [reduceCtorEq, hpc, and_false]
  · refine iff_of_false (by simp) fun hmem => ?_
    by_cases ht : t' = t
    · rw [ht, Function.update_self, List.mem_cons, Prod.mk.injEq] at hmem
      simp only [reduceCtorEq, and_false, false_or] at hmem
      exact houter signum' hmem
    · rw [Function.update_of_ne ht] at hmem
      exact ht (hone t' signum' hmem).1
  · exact absurd (hshutting ▸ ho) (houter o.1)

/-- `main` goes from one place to another, neither with the mutex. -/
theorem goto_main (h : Guarded mutex pc handlers) (hpc : pc ≠ .shutting) (hpc' : pc' ≠ .shutting) :
    Guarded mutex pc' handlers where
  main t := by simpa only [hpc, hpc'] using h.main t
  handler := h.handler
  nodup := h.nodup
  above := h.above
  aboveMain h := absurd h hpc'

/-- `main` takes the mutex. -/
theorem lock_main (h : Guarded none pc handlers) (hcalls : handlers .main = []) :
    Guarded (some (.main, none)) .shutting handlers where
  main t := by
    simp only [Option.some.injEq, Prod.mk.injEq, and_true, eq_comm]
  handler t signum := by
    refine iff_of_false (by simp) (h.not_shutting.2 t signum)
  nodup := h.nodup
  above := h.above
  aboveMain _ call hcall := by
    rw [hcalls] at hcall
    cases hcall

/-- `main` gives the mutex back. -/
theorem unlock_main (h : Guarded mutex .shutting handlers) (hpc' : pc' ≠ .shutting) :
    Guarded none pc' handlers := by
  have hmutex : mutex = some (.main, none) := (h.main .main).mpr ⟨rfl, rfl⟩
  refine ⟨fun t => ?_, fun t signum => ?_, h.nodup, h.above, fun h => absurd h hpc'⟩
  · simp only [reduceCtorEq, hpc', and_false]
  · refine iff_of_false (by simp) fun hmem => ?_
    rw [(h.handler t signum).mpr hmem] at hmutex
    cases hmutex

end Guarded

end ProcessState

/-! ## The workers -/

namespace MainPc

/-- `main` has told the worker to exit. -/
def told (w : Fin workers) : MainPc workers → Prop
  | .stopping i => w < i
  | .joining _ | .awaiting _ | .stoppingPort _ | .returned => True
  | _ => False

/-- `main` has joined the worker. -/
def joined (w : Fin workers) : MainPc workers → Prop
  | .joining i => w < i
  | .awaiting w' => w < w'
  | .stoppingPort _ | .returned => True
  | _ => False

end MainPc

/-- How a worker is when `main` is at some place. -/
structure WorkerThread.At (pc : MainPc workers) (w : Fin workers) (worker : WorkerThread) :
    Prop where
  alive : worker.terminated = false
  told : pc.told w → worker.shouldStop = true
  joined : pc.joined w → worker.thread = some ⟨false, .returned⟩ ∧ worker.call = .idle
  awaited : pc = .awaiting w → worker.call = .joining ∧ worker.joinable = true ∨
    worker.call = .unmarking ∧ worker.thread = some ⟨false, .returned⟩
  idle : ¬ pc.joined w → pc ≠ .awaiting w → worker.joinable = true ∧ worker.call = .idle

namespace WorkerThread.At

variable {pc pc' : MainPc workers} {w : Fin workers} {worker : WorkerThread}

/-- The worker is told to exit. -/
theorem stop (h : worker.At pc w) (hjoined : pc'.joined w ↔ pc.joined w)
    (hawaited : pc' = .awaiting w ↔ pc = .awaiting w) : worker.stop.At pc' w where
  alive := h.alive
  told _ := rfl
  joined hpc := h.joined (hjoined.mp hpc)
  awaited hpc := h.awaited (hawaited.mp hpc)
  idle hpc hne := h.idle (fun hj => hpc (hjoined.mpr hj)) fun ha => hne (hawaited.mpr ha)

theorem workerLoop (h : worker.At pc w) (ok : Bool) : (worker.workerLoop ok).At pc w := by
  obtain ⟨hjoinable, hstop, hcall, -, hterminated⟩ := worker.workerLoop_keeps ok
  -- a worker that has returned does nothing
  have hreturned : worker.thread = some ⟨false, .returned⟩ → worker.workerLoop ok = worker := by
    intro hthread
    simp only [WorkerThread.workerLoop, hthread]
  exact
    { alive := hterminated.trans h.alive
      told := fun htold => hstop.trans (h.told htold)
      joined := fun hjoined => by rw [hreturned (h.joined hjoined).1]; exact h.joined hjoined
      awaited := fun hpc => by
        rcases h.awaited hpc with ⟨hjoining, hjoin⟩ | ⟨hunmarking, hthread⟩
        · exact .inl ⟨hcall.trans hjoining, hjoinable.trans hjoin⟩
        · rw [hreturned hthread]
          exact .inr ⟨hunmarking, hthread⟩
      idle := fun hjoined hpc => by rw [hjoinable, hcall]; exact h.idle hjoined hpc }

/-- Nothing changes for the worker when `main` goes on. -/
theorem goto (h : worker.At pc w) (htold : pc'.told w → pc.told w)
    (hjoined : pc'.joined w ↔ pc.joined w) (hawaited : pc' = .awaiting w ↔ pc = .awaiting w) :
    worker.At pc' w where
  alive := h.alive
  told hpc := h.told (htold hpc)
  joined hpc := h.joined (hjoined.mp hpc)
  awaited hpc := h.awaited (hawaited.mp hpc)
  idle hpc hne := h.idle (fun hj => hpc (hjoined.mpr hj)) fun ha => hne (hawaited.mpr ha)

/-- `main` calls `join`. -/
theorem join (h : worker.At (.joining w) w) : worker.join.At (.awaiting w) w := by
  obtain ⟨hjoinable, -⟩ := h.idle (Nat.lt_irrefl _) nofun
  exact
    { alive := h.alive
      told := fun _ => h.told trivial
      joined := fun hlt => absurd hlt (Fin.lt_irrefl w)
      awaited := fun _ => .inl ⟨by rw [WorkerThread.join, hjoinable, if_pos rfl], hjoinable⟩
      idle := fun _ hne => absurd rfl hne }

/-- `main` goes on in `join`, and the worker it waits for does not return by that. -/
theorem proceed (h : worker.At (.awaiting w) w) :
    worker.proceed.At (if worker.proceed.call = .idle then .joining (w + 1) else .awaiting w) w ∧
      worker.proceed.returned = worker.returned := by
  rcases h.awaited rfl with ⟨hcall, hjoinable⟩ | ⟨hcall, hthread⟩
  · simp only [WorkerThread.proceed, hcall]
    split
    · next hthread =>
      refine ⟨?_, by simp [WorkerThread.returned, hthread]⟩
      exact
        { alive := h.alive
          told := fun _ => h.told trivial
          joined := fun hlt => absurd hlt (Fin.lt_irrefl w)
          awaited := fun _ => .inr ⟨rfl, rfl⟩
          idle := fun _ hne => absurd rfl hne }
    · rw [if_neg (by simp [hcall])]
      exact ⟨h, rfl⟩
  · simp only [WorkerThread.proceed, hcall]
    exact
      ⟨{ alive := h.alive
         told := fun _ => h.told trivial
         joined := fun _ => ⟨hthread, rfl⟩
         awaited := fun hpc => by cases hpc
         idle := fun hnot => absurd (Nat.lt_succ_self w) hnot }, rfl⟩

end WorkerThread.At

namespace ProcessState

variable {ports : Nat} {s : ProcessState rpcs workers} {t t' : ThreadId rpcs workers}

/-- A thread that returns when a worker changes had returned, or is that worker's. -/
theorem hasReturned_setWorker {w : Fin workers} {worker : WorkerThread}
    (h : (s.setWorker w worker).hasReturned t = true) :
    s.hasReturned t = true ∨ t = .worker w := by
  cases t with
  | main => exact .inl h
  | rpc => exact .inl h
  | worker w' =>
    by_cases hw : w' = w
    · exact .inr (hw ▸ rfl)
    · rw [hasReturned, worker_setWorker_ne s hw] at h
      exact .inl h

/-- A worker that keeps its thread does not return. -/
theorem returned_setWorker {w : Fin workers} {worker : WorkerThread}
    (h : worker.returned = (s.worker w).returned) (w' : Fin workers) :
    ((s.setWorker w worker).worker w').returned = (s.worker w').returned := by
  by_cases hw : w' = w
  · rw [hw, worker_setWorker_self, h]
  · rw [worker_setWorker_ne s hw]

/-- What holds of every worker holds when one of them has changed. -/
theorem worker_setWorker {P : Fin workers → WorkerThread → Prop} {w : Fin workers}
    {worker : WorkerThread} (h : ∀ w', w' ≠ w → P w' (s.worker w')) (hworker : P w worker)
    (w' : Fin workers) : P w' ((s.setWorker w worker).worker w') := by
  by_cases hw : w' = w
  · rwa [hw, worker_setWorker_self]
  · rw [worker_setWorker_ne s hw]
    exact h w' hw

/-- What holds in every reachable state. -/
structure Invariant (s : ProcessState rpcs workers) : Prop where
  guarded : Guarded s.mutex s.pc s.handlers
  worker : ∀ w, (s.worker w).At s.pc w
  /-- A thread that has returned is not handling a signal. -/
  gone : ∀ t, s.hasReturned t = true → s.handlers t = []

theorem Launched.invariant (h : s.Launched) : s.Invariant := by
  obtain ⟨hmutex, hpc, hhandlers, hworker⟩ := h
  refine ⟨⟨fun t => ?_, fun t signum => ?_, fun t => ?_, fun t => ?_, fun h => ?_⟩, fun w => ?_,
    fun t _ => hhandlers t⟩
  · simp [hmutex, hpc]
  · simp [hmutex, hhandlers]
  · simp [hhandlers]
  · simp [hhandlers]
  · rw [hpc] at h
    cases h
  · obtain ⟨hjoinable, hcall, halive⟩ := hworker w
    rw [hpc]
    exact ⟨halive, False.elim, False.elim, nofun, fun _ _ => ⟨hjoinable, hcall⟩⟩

theorem Invariant.signalHandler (h : s.Invariant) {signum : Signal} {pc : HandlerPc}
    {outer : List (Signal × HandlerPc)} (hcalls : s.handlers t = (signum, pc) :: outer)
    (answer : Answer) : (s.signalHandler t signum pc outer answer).Invariant := by
  -- the thread has not returned, and no other does
  have hgone : ∀ (calls : List (Signal × HandlerPc)) t', s.hasReturned t' = true →
      Function.update s.handlers t calls t' = [] := by
    intro calls t' ht'
    have hnone := h.gone t' ht'
    have hne : t' ≠ t := by
      rintro rfl
      rw [hcalls] at hnone
      cases hnone
    rw [Function.update_of_ne hne, hnone]
  cases pc with
  | entered =>
    exact ⟨h.guarded.goto hcalls nofun nofun fun _ => rfl, h.worker, hgone _⟩
  | locking =>
    rw [ProcessState.signalHandler]
    split
    · exact h
    · next hfree =>
      rw [Bool.not_eq_true, Option.isSome_eq_false_iff, Option.isNone_iff_eq_none] at hfree
      have hguarded := h.guarded
      rw [hfree] at hguarded
      exact ⟨hguarded.lock hcalls, h.worker, hgone _⟩
  | shutting =>
    rw [ProcessState.signalHandler]
    split
    · exact ⟨h.guarded.unlock hcalls, h.worker, hgone _⟩
    · exact h
  | stopping i =>
    rw [ProcessState.signalHandler]
    split
    · next hi =>
      refine ⟨h.guarded.goto hcalls nofun nofun nofun,
        worker_setWorker (fun w _ => h.worker w) ((h.worker ⟨i, hi⟩).stop Iff.rfl Iff.rfl),
        fun t' ht' => hgone _ t' ?_⟩
      cases t' with
      | main => exact ht'
      | rpc => exact ht'
      | worker w =>
        exact (returned_setWorker (show (s.worker ⟨i, hi⟩).stop.returned = _ from rfl) w).symm.trans ht'
    · exact ⟨h.guarded.pop hcalls, h.worker, hgone _⟩

theorem Invariant.signal (h : s.Invariant) {signum : Signal} (hreturned : ¬ s.hasReturned t)
    (hfree : signum ∉ (s.handlers t).map Prod.fst) :
    (s.setHandlers t ((signum, .entered) :: s.handlers t)).Invariant := by
  refine ⟨h.guarded.push hfree, h.worker, fun t' ht' => ?_⟩
  have hne : t' ≠ t := by
    rintro rfl
    exact hreturned ht'
  rw [handlers_setHandlers_ne s hne]
  exact h.gone t' ht'

theorem Invariant.workerLoop (h : s.Invariant) {w : Fin workers}
    (hcalls : s.handlers (.worker w) = []) (ok : Bool) :
    (s.setWorker w ((s.worker w).workerLoop ok)).Invariant := by
  refine ⟨h.guarded, worker_setWorker (fun w _ => h.worker w) ((h.worker w).workerLoop ok),
    fun t ht => ?_⟩
  rcases hasReturned_setWorker ht with ht | rfl
  · exact h.gone t ht
  · exact hcalls

theorem Invariant.main (h : s.Invariant) (hcalls : s.handlers .main = []) (ports : Nat)
    (answer : Answer) : (s.main ports answer).Invariant := by
  obtain ⟨hguarded, hworker, hgone⟩ := h
  -- no worker returns when `main` goes on
  have hgone : ∀ (s' : ProcessState rpcs workers), s'.handlers = s.handlers →
      (∀ w, (s'.worker w).returned = (s.worker w).returned) →
      ∀ t, s'.hasReturned t = true → s'.handlers t = [] := by
    intro s' hhandlers hreturned t ht
    rw [hhandlers]
    cases t with
    | main => exact hcalls
    | worker w => exact hgone (.worker w) ((hreturned w).symm.trans ht)
    | rpc i => cases ht
  cases hpc : s.pc with
  | waiting =>
    simp only [ProcessState.main, hpc]
    rw [hpc] at hguarded hworker
    split
    · exact ⟨hpc ▸ hguarded, hpc ▸ hworker, hgone s rfl fun _ => rfl⟩
    · exact ⟨hguarded.goto_main nofun nofun, fun w => (hworker w).goto nofun Iff.rfl (by simp),
        hgone _ rfl fun _ => rfl⟩
  | locking =>
    simp only [ProcessState.main, hpc]
    rw [hpc] at hguarded hworker
    split
    · exact ⟨hpc ▸ hguarded, hpc ▸ hworker, hgone s rfl fun _ => rfl⟩
    · next hfree =>
      rw [Bool.not_eq_true, Option.isSome_eq_false_iff, Option.isNone_iff_eq_none] at hfree
      rw [hfree] at hguarded
      exact ⟨hguarded.lock_main hcalls, fun w => (hworker w).goto nofun Iff.rfl (by simp),
        hgone _ rfl fun _ => rfl⟩
  | shutting =>
    simp only [ProcessState.main, hpc]
    rw [hpc] at hguarded hworker
    split
    · exact ⟨hguarded.unlock_main nofun,
        fun w => (hworker w).goto (fun h => absurd h (Nat.not_lt_zero _)) Iff.rfl (by simp),
        hgone _ rfl fun _ => rfl⟩
    · exact ⟨hpc ▸ hguarded, hpc ▸ hworker, hgone s rfl fun _ => rfl⟩
  | stopping i =>
    simp only [ProcessState.main, hpc]
    rw [hpc] at hguarded hworker
    split
    · next hi =>
      refine ⟨hguarded.goto_main nofun nofun, worker_setWorker
        (P := fun w worker => worker.At (.stopping (i + 1)) w) (fun w hw => ?_)
        ((hworker ⟨i, hi⟩).stop Iff.rfl (by simp)), hgone _ rfl (returned_setWorker rfl)⟩
      exact (hworker w).goto (fun hlt => Nat.lt_of_le_of_ne (Nat.le_of_lt_succ hlt)
        fun heq => hw (Fin.ext heq)) Iff.rfl (by simp)
    · next hi =>
      -- all have been told
      have htold : ∀ w : Fin workers, (w : Nat) < i := fun w => by omega
      exact ⟨hguarded.goto_main nofun nofun, fun w => (hworker w).goto (fun _ => htold w)
        (iff_of_false (Nat.not_lt_zero _) id) (by simp), hgone _ rfl fun _ => rfl⟩
  | joining i =>
    simp only [ProcessState.main, hpc]
    rw [hpc] at hguarded hworker
    split
    · next hi =>
      refine ⟨hguarded.goto_main nofun nofun, worker_setWorker
        (P := fun w worker => worker.At (.awaiting ⟨i, hi⟩) w) (fun w hw => ?_)
        (hworker ⟨i, hi⟩).join, hgone _ rfl (returned_setWorker rfl)⟩
      exact (hworker w).goto (fun _ => trivial) Iff.rfl
        (iff_of_false (fun h => hw (MainPc.awaiting.inj h).symm) nofun)
    · next hi =>
      -- all have been joined
      have hjoined : ∀ w : Fin workers, (w : Nat) < i := fun w => by omega
      exact ⟨hguarded.goto_main nofun nofun, fun w => (hworker w).goto (fun _ => trivial)
        (iff_of_true trivial (hjoined w)) (by simp), hgone _ rfl fun _ => rfl⟩
  | awaiting w =>
    simp only [ProcessState.main, hpc]
    rw [hpc] at hguarded hworker
    obtain ⟨hproceed, hreturned⟩ := (hworker w).proceed
    refine ⟨hguarded.goto_main nofun (by split <;> nofun), worker_setWorker
      (P := fun w' worker => worker.At _ w') (fun w' hw => ?_) hproceed,
      hgone _ rfl (returned_setWorker hreturned)⟩
    split
    · refine (hworker w').goto (fun _ => trivial) ?_
        (iff_of_false nofun fun h => hw (MainPc.awaiting.inj h).symm)
      exact ⟨fun hlt => Nat.lt_of_le_of_ne (Nat.le_of_lt_succ hlt) fun heq => hw (Fin.ext heq),
        Nat.lt_succ_of_lt⟩
    · exact hworker w'
  | stoppingPort i =>
    simp only [ProcessState.main, hpc]
    rw [hpc] at hguarded hworker
    refine ⟨hguarded.goto_main nofun (by split <;> nofun), fun w => ?_, hgone _ rfl fun _ => rfl⟩
    split
    · exact (hworker w).goto (fun _ => trivial) Iff.rfl (by simp)
    · exact (hworker w).goto (fun _ => trivial) Iff.rfl (by simp)
  | returned =>
    simp only [ProcessState.main, hpc]
    exact ⟨hguarded, hworker, hgone s rfl fun _ => rfl⟩

theorem Invariant.resume (h : s.Invariant) (ports : Nat) (t : ThreadId rpcs workers)
    (answer : Answer) : (s.resume ports t answer).Invariant := by
  cases hcalls : s.handlers t with
  | cons call outer =>
    rw [resume_handler hcalls]
    exact h.signalHandler hcalls answer
  | nil =>
    cases t with
    | main =>
      rw [resume_main hcalls]
      exact h.main hcalls ports answer
    | worker w =>
      rw [resume_worker hcalls]
      exact h.workerLoop hcalls answer.dpdk
    | rpc i =>
      rw [resume_rpc hcalls]
      exact h

theorem Invariant.step (h : s.Invariant) (a : Act rpcs workers) : (s.step ports a).Invariant := by
  cases a with
  | signal t signum =>
    rw [ProcessState.step]
    split
    · exact h
    · next hfree =>
      rw [not_or] at hfree
      exact h.signal hfree.1 hfree.2
  | run t answer => exact h.resume ports t answer

theorem invariant_of_reachable (h : Reachable ports s) : s.Invariant :=
  Run.Reachable.induct h (fun _ => Launched.invariant) fun _ a hs => hs.step a

/-- **Ports last.** Whatever signals arrive, on whichever threads and between whichever steps, no
    port is stopped before every worker has left its loop, with no handler left on its thread, and
    has been joined; and no thread object is destroyed before that. -/
theorem ports_stopped_last (h : Reachable ports s)
    (hpc : (∃ i, s.pc = .stoppingPort i) ∨ s.pc = .returned) (w : Fin workers) :
    (s.worker w).thread = some ⟨false, .returned⟩ ∧ (s.worker w).terminated = false ∧
      s.handlers (.worker w) = [] := by
  obtain ⟨-, hworker, hgone⟩ := invariant_of_reachable h
  have hjoined : s.pc.joined w := by
    rcases hpc with ⟨i, hpc⟩ | hpc
    · rw [hpc]
      trivial
    · rw [hpc]
      trivial
  have hthread := ((hworker w).joined hjoined).1
  refine ⟨hthread, (hworker w).alive, hgone (.worker w) ?_⟩
  simp [hasReturned, WorkerThread.returned, hthread]

/-- One worker, in its loop, and one of gRPC's threads, when `main` comes to its own loop after a
    signal. -/
def interrupted : ProcessState 1 1 where
  running := false
  worker _ := { running := true, thread := some ⟨true, .looping⟩, started := true }
  mutex := none
  pc := .waiting
  handlers _ := []

theorem launched_interrupted : interrupted.Launched :=
  ⟨rfl, rfl, fun _ => rfl, fun _ => ⟨rfl, rfl, rfl⟩⟩

/-- `main` waits for the worker, and comes to the port. -/
theorem ports_stopped_last_interrupted :
    ((Run.run (step 1) interrupted (List.replicate 6 (.run .main ⟨true, true⟩) ++
      List.replicate 2 (.run (.worker 0) ⟨true, true⟩) ++
        List.replicate 3 (.run .main ⟨true, true⟩))).worker 0).thread =
      some ⟨false, .returned⟩ :=
  (ports_stopped_last ⟨interrupted, _, launched_interrupted, rfl⟩ (.inl ⟨0, rfl⟩) 0).1

end ProcessState

end TrafficGen
