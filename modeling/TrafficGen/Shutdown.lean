import Mathlib.Logic.Function.Basic
import TrafficGen.Core.Locking
import TrafficGen.Core.WorkerThread

/-!
# Shutdown

The end of `main.cpp`, from the loop that waits for `g_running` to the return of `main`, against
the workers and against `signal_handler`, which the kernel runs on whichever thread it likes and
between any two of its accesses. A signal is held back on a thread that is handling it, as after
`signal`; the other one is not. A thread that locks a mutex it holds waits as any other does.

`GRPCServer::stop` calls `grpc::Server::Shutdown`, which waits for the calls that gRPC's threads are
serving. When it returns, if at all, is not the program's to say: the thread is told at each of its
turns (`Answer.shutdown`). In a handler on one of gRPC's threads it waits for that very thread.
-/

namespace TrafficGen

open Locking (ThreadId)

/-- The signals `main` installs its handler for. -/
inductive Signal where
  | sigint
  | sigterm
deriving DecidableEq, Repr

/-- Where a call of `signal_handler` is. -/
inductive HandlerPc where
  /-- Before `g_running` is cleared. -/
  | entered
  /-- In `GRPCServer::stop`, before it has the mutex. -/
  | locking
  /-- In `grpc::Server::Shutdown`, with the mutex. -/
  | shutting
  /-- Before the `stop` of a worker. -/
  | stopping (i : Nat)
deriving DecidableEq, Repr

/-- Where `main` is. -/
inductive MainPc (workers : Nat) where
  /-- Before `g_running` is read. -/
  | waiting
  /-- In `GRPCServer::stop`, before it has the mutex. -/
  | locking
  /-- In `grpc::Server::Shutdown`, with the mutex. -/
  | shutting
  /-- Before the `stop` of a worker. -/
  | stopping (i : Nat)
  /-- Before the `join` of a worker. -/
  | joining (i : Nat)
  /-- In the `join` of a worker. -/
  | awaiting (i : Fin workers)
  /-- Before `rte_eth_dev_stop` of a port. -/
  | stoppingPort (i : Nat)
  | returned
deriving DecidableEq, Repr

/-- The globals of `main.cpp` that its shutdown is about, and where its threads are. -/
structure ProcessState (rpcs workers : Nat) where
  /-- `g_running` -/
  running : Bool
  /-- `g_workers` -/
  worker : Fin workers → WorkerThread
  /-- Who has `GRPCServer::mutex_`: a thread, and the signal it is handling with it. -/
  mutex : Option (ThreadId rpcs workers × Option Signal)
  pc : MainPc workers
  /-- The calls of `signal_handler` on each thread, the innermost first. -/
  handlers : ThreadId rpcs workers → List (Signal × HandlerPc)

/-- What a thread is told when it asks for something outside the program. -/
structure Answer where
  /-- DPDK does what it is asked to. -/
  dpdk : Bool
  /-- `grpc::Server::Shutdown` returns. -/
  shutdown : Bool
deriving DecidableEq, Repr

/-- `worker_loop` has returned. -/
def WorkerThread.returned (worker : WorkerThread) : Bool := worker.thread.any (·.pc = .returned)

namespace ProcessState

variable {rpcs workers : Nat}

def setWorker (s : ProcessState rpcs workers) (w : Fin workers) (worker : WorkerThread) :
    ProcessState rpcs workers :=
  { s with worker := Function.update s.worker w worker }

def setHandlers (s : ProcessState rpcs workers) (t : ThreadId rpcs workers)
    (handlers : List (Signal × HandlerPc)) : ProcessState rpcs workers :=
  { s with handlers := Function.update s.handlers t handlers }

/-- The innermost call of `signal_handler` on a thread goes on. -/
def signalHandler (s : ProcessState rpcs workers) (t : ThreadId rpcs workers) (signum : Signal)
    (pc : HandlerPc) (outer : List (Signal × HandlerPc)) (answer : Answer) :
    ProcessState rpcs workers :=
  match pc with
  | .entered => { s.setHandlers t ((signum, .locking) :: outer) with running := false }
  | .locking =>
    if s.mutex.isSome then s
    else { s.setHandlers t ((signum, .shutting) :: outer) with mutex := some (t, some signum) }
  | .shutting =>
    if answer.shutdown then { s.setHandlers t ((signum, .stopping 0) :: outer) with mutex := none }
    else s
  | .stopping i =>
    if h : i < workers then
      (s.setWorker ⟨i, h⟩ (s.worker ⟨i, h⟩).stop).setHandlers t ((signum, .stopping (i + 1)) :: outer)
    else s.setHandlers t outer

/-- `main` goes on. -/
def main (ports : Nat) (s : ProcessState rpcs workers) (answer : Answer) :
    ProcessState rpcs workers :=
  match s.pc with
  | .waiting => if s.running then s else { s with pc := .locking }
  | .locking =>
    if s.mutex.isSome then s else { s with pc := .shutting, mutex := some (.main, none) }
  | .shutting => if answer.shutdown then { s with pc := .stopping 0, mutex := none } else s
  | .stopping i =>
    if h : i < workers then
      { s.setWorker ⟨i, h⟩ (s.worker ⟨i, h⟩).stop with pc := .stopping (i + 1) }
    else { s with pc := .joining 0 }
  | .joining i =>
    if h : i < workers then
      { s.setWorker ⟨i, h⟩ (s.worker ⟨i, h⟩).join with pc := .awaiting ⟨i, h⟩ }
    else { s with pc := .stoppingPort 0 }
  | .awaiting w =>
    let worker := (s.worker w).proceed
    { s.setWorker w worker with
      pc := if worker.call = .idle then .joining (w + 1) else .awaiting w }
  | .stoppingPort i => { s with pc := if i < ports then .stoppingPort (i + 1) else .returned }
  | .returned => s

/-- The thread has returned. -/
def hasReturned (s : ProcessState rpcs workers) : ThreadId rpcs workers → Bool
  | .main => s.pc = .returned
  | .worker w => (s.worker w).returned
  | .rpc _ => false

/-- What happens next. -/
inductive Act (rpcs workers : Nat) where
  /-- A signal is delivered to a thread. -/
  | signal (t : ThreadId rpcs workers) (signum : Signal)
  /-- A thread goes on, with the answer it gets if it asks for one. -/
  | run (t : ThreadId rpcs workers) (answer : Answer)

/-- A thread goes on: with its innermost handler if it is handling a signal. What gRPC's threads do
    besides is left out. -/
def resume (ports : Nat) (s : ProcessState rpcs workers) (t : ThreadId rpcs workers)
    (answer : Answer) : ProcessState rpcs workers :=
  match s.handlers t with
  | (signum, pc) :: outer => s.signalHandler t signum pc outer answer
  | [] =>
    match t with
    | .main => s.main ports answer
    | .worker w => s.setWorker w ((s.worker w).workerLoop answer.dpdk)
    | .rpc _ => s

def step (ports : Nat) (s : ProcessState rpcs workers) : Act rpcs workers → ProcessState rpcs workers
  | .signal t signum =>
    if s.hasReturned t ∨ signum ∈ (s.handlers t).map Prod.fst then s
    else s.setHandlers t ((signum, .entered) :: s.handlers t)
  | .run t answer => s.resume ports t answer

/-- `main` has come to its loop: the `start` of each worker has returned, and no signal is being
    handled. The workers may be anywhere in their loops and `g_running` may be cleared already. -/
def Launched (s : ProcessState rpcs workers) : Prop :=
  s.mutex = none ∧ s.pc = .waiting ∧ (∀ t, s.handlers t = []) ∧
    ∀ w, (s.worker w).joinable = true ∧ (s.worker w).call = .idle ∧
      (s.worker w).terminated = false

def Reachable (ports : Nat) : ProcessState rpcs workers → Prop :=
  Run.Reachable (step ports) Launched

end ProcessState

end TrafficGen
