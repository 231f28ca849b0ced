import Mathlib.Order.Fin.Basic
import TrafficGen.Core.Locking

/-!
# The threads never wait for each other in a circle

No function takes a mutex while it holds one of the same rank or a higher one (`rank`): the service
comes before what the handlers use, the collector's mutex before that of its snapshots, and the
scheduler's before the buckets. `GRPCServer::stop` waits for the handlers with the server's mutex
held, which they do not take. So whatever calls the threads make, with whatever arguments and
however they are scheduled, all of them return.

## Key results

- `nested_locks`: every thread takes its mutexes in order
- `no_deadlock`: until all threads have returned one of them can go on, and all can return
-/

namespace TrafficGen.Locking

open LockOp

variable {rpcs workers : Nat}

/-- The order in which mutexes are taken. -/
def rank : Mutex rpcs workers → Fin 5
  | .grpcServer => 0
  | .alive _ => 1
  | .service => 2
  | .metrics | .scheduler | .imix | .mempool => 3
  | .snapshot | .bucket _ => 4

/-- Whatever is held ranks below `k`. -/
def Below (k : Fin 5) (held : List (Mutex rpcs workers)) : Prop := ∀ m ∈ held, rank m < k

/-- The operations may be done by a thread that holds `held`, and leave it with that. -/
abbrev Orderly (held : List (Mutex rpcs workers)) (ops : Locks rpcs workers) : Prop :=
  Nested rank held ops held

variable {held : List (Mutex rpcs workers)}

theorem below_nil (k : Fin 5) : Below k ([] : List (Mutex rpcs workers)) :=
  fun _ h => absurd h List.not_mem_nil

theorem Below.mono {k k' : Fin 5} (h : Below k held) (hle : k ≤ k') : Below k' held :=
  fun m hm => (h m hm).trans_le hle

theorem Below.cons {m : Mutex rpcs workers} {k : Fin 5} (h : Below (rank m) held)
    (hlt : rank m < k) : Below k (m :: held) :=
  List.forall_mem_cons.mpr ⟨hlt, h.mono hlt.le⟩

/-- A scope of one mutex with nothing else in it. -/
theorem orderly_guarded {m : Mutex rpcs workers} (h : Below (rank m) held) :
    Orderly held (guarded m []) :=
  Nested.guarded h (nested_nil _)

theorem orderly_ite {b : Bool} {ops : Locks rpcs workers} (h : Orderly held ops) :
    Orderly held (if b then ops else []) := by
  cases b with
  | true => exact h
  | false => exact nested_nil held

/-! ## The classes -/

theorem orderly_schedulerCall (h : Below 3 held) : Orderly held schedulerCall :=
  orderly_guarded h

theorem orderly_startFlow (h : Below 3 held) (flow : Option Nat) :
    Orderly held (startFlow flow) :=
  Nested.guarded h (.flatMap fun flow _ => orderly_guarded (m := .bucket flow)
    (Below.cons (m := .scheduler) h (by decide : (3 : Fin 5) < 4)))

theorem orderly_getReadyFlows (h : Below 3 held) (asked : List Nat) :
    Orderly held (getReadyFlows asked) :=
  Nested.guarded h (.flatMap fun flow _ => orderly_guarded (m := .bucket flow)
    (Below.cons (m := .scheduler) h (by decide : (3 : Fin 5) < 4)))

theorem orderly_resetAll (h : Below 3 held) : Orderly held resetAll :=
  Nested.guarded h (orderly_guarded (Below.cons (m := .metrics) h (by decide : (3 : Fin 5) < 4)))

theorem orderly_imixCall (h : Below 3 held) : Orderly held imixCall := orderly_guarded h

theorem orderly_mempoolCall (h : Below 3 held) : Orderly held mempoolCall := orderly_guarded h

theorem orderly_latencyCall (h : Below 3 held) : Orderly held latencyCall := orderly_guarded h

theorem orderly_calculateGlobalRate (h : Below 4 held) (cores : Nat) :
    Orderly held (calculateGlobalRate cores) :=
  .flatMap fun _ _ => (orderly_guarded (m := .snapshot) h).append (orderly_guarded h)

/-! ## The threads -/

theorem Rpc.orderly_locks (h : Below 2 held) (call : Rpc) : Orderly held call.locks := by
  have h3 : Below 3 held := h.mono (by decide)
  have h4 : Below 4 held := h.mono (by decide)
  have hservice : Below 3 (.service :: held) := Below.cons h (by decide : (2 : Fin 5) < 3)
  cases call with
  | configureIMIX => exact .guarded h (orderly_imixCall hservice)
  | configureFlows flows => exact .guarded h (.flatMap fun _ _ => orderly_schedulerCall hservice)
  | startTraffic resetStats flows =>
    refine .guarded h (((orderly_ite (orderly_resetAll hservice)).append
      (orderly_schedulerCall hservice)).append (.flatMap fun flow _ => ?_))
    exact orderly_startFlow hservice flow
  | stopTraffic activeFlows =>
    exact .guarded h ((orderly_schedulerCall hservice).append
      (.flatMap fun _ _ => orderly_schedulerCall hservice))
  | getMetrics cores includePerCore includeLatencyHistogram =>
    have hrates := orderly_calculateGlobalRate h4 cores
    have hlatency := orderly_latencyCall h3
    exact (((hrates.append hrates).append hlatency).append (orderly_ite hrates)).append
      (orderly_ite hlatency)
  | getStats cores detailed =>
    have hrates := orderly_calculateGlobalRate h4 cores
    exact (hrates.append hrates).append (orderly_ite (orderly_schedulerCall h3))

theorem WorkerCall.orderly_locks (h : Below 3 held) (call : WorkerCall) :
    Orderly held call.locks := by
  cases call with
  | choosePool => exact orderly_mempoolCall h
  | processFlows asked ready =>
    refine (orderly_getReadyFlows h asked).append ?_
    split
    · exact nested_nil held
    · exact (orderly_mempoolCall h).append (.flatMap fun imixSize _ =>
        (orderly_schedulerCall h).append (orderly_ite (orderly_imixCall h)))
  | processReceivedPackets received =>
    exact .flatMap fun mbuf _ =>
      (orderly_ite (orderly_latencyCall h)).append (orderly_ite (orderly_schedulerCall h))

theorem MainCall.orderly_locks (call : MainCall rpcs workers) : Orderly [] call.locks := by
  cases call with
  | mempool | initializeMetrics | grpcServer => exact orderly_guarded (below_nil _)
  | grpcStop serving =>
    -- the handlers are waited for with the server's mutex held
    exact .guarded (below_nil _) (.flatMap fun i _ => orderly_guarded (m := .alive (.rpc i))
      (Below.cons (below_nil _) (by decide : (0 : Fin 5) < 1)))
  | joinWorker i => exact orderly_guarded (below_nil _)

/-- Every thread takes its mutexes in order. -/
theorem nested_locks (p : Process rpcs workers) (t : ThreadId rpcs workers) :
    Orderly [] (p.locks t) := by
  have halive : ∀ {k : Fin 5}, 1 < k → Below k [Mutex.alive t] := fun hlt =>
    Below.cons (below_nil _) hlt
  cases t with
  | main => exact .flatMap fun call _ => call.orderly_locks
  | rpc i =>
    exact .guarded (below_nil _) (.flatMap fun call _ => call.orderly_locks (halive (by decide)))
  | worker i =>
    exact .guarded (below_nil _) (.flatMap fun call _ => call.orderly_locks (halive (by decide)))

/-- **No deadlock.** For any number of handler and worker threads, any calls they and `main` make
    and any schedule so far: until all threads have returned, one of them can go on; and they can
    be scheduled so that all of them return, with no step that only waits. -/
theorem no_deadlock (p : Process rpcs workers) (schedule : List (ThreadId rpcs workers)) :
    let s := Run.run LockState.step (LockState.start p.locks) schedule
    (¬ s.Done → ∃ t, (s.go t).isSome = true) ∧
      ∃ rest : List (ThreadId rpcs workers), rest.length = s.remaining ∧
        (Run.run LockState.step s rest).Done := by
  intro s
  obtain ⟨held, h⟩ := LockState.exists_invariant (nested_locks p) schedule
  exact ⟨h.exists_go, h.exists_schedule⟩

end TrafficGen.Locking
