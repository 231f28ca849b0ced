import Mathlib.Tactic.DeriveFintype
import TrafficGen.ForStd.LockOrder

/-!
# Mutexes

Which mutexes each function of the generator takes, and in what order: every `std::lock_guard` is
a scope. What a function does between its locks is left out, and which flows, cores or mbufs it
goes over is an argument. A thread holds `alive` until it returns, so that joining it is waiting
for a mutex.
-/

namespace TrafficGen.Locking

open LockOp

/-- The threads: `main`, those gRPC runs the handlers on, and the workers. -/
inductive ThreadId (rpcs workers : Nat) where
  | main
  | rpc (i : Fin rpcs)
  | worker (i : Fin workers)
deriving DecidableEq, Fintype

/-- The mutexes, one for each object of a class that has one. There is one bucket for each flow
    object. -/
inductive Mutex (rpcs workers : Nat) where
  /-- `GRPCServer::mutex_` -/
  | grpcServer
  /-- Held by a thread until it returns. -/
  | alive (t : ThreadId rpcs workers)
  /-- `TrafficGeneratorServiceImpl::mutex_` -/
  | service
  /-- `MetricsCollector::mutex_` -/
  | metrics
  /-- `MetricsCollector::snapshot_mutex_` -/
  | snapshot
  /-- `FlowScheduler::mutex_` -/
  | scheduler
  /-- `TokenBucket::mutex_` -/
  | bucket (flow : Nat)
  /-- `IMIXEngine::mutex_` -/
  | imix
  /-- `MempoolManager::mutex_` -/
  | mempool
deriving DecidableEq

variable {rpcs workers : Nat}

/-- What a function does with the mutexes. -/
abbrev Locks (rpcs workers : Nat) := List (LockOp (Mutex rpcs workers))

/-! ## `TokenBucket` -/

def updateTokens (flow : Nat) : Locks rpcs workers := guarded (.bucket flow) []

/-- The tokens are exchanged after `update_tokens` has given the mutex back. -/
def tryConsume (flow : Nat) : Locks rpcs workers := updateTokens flow

def reset (flow : Nat) : Locks rpcs workers := guarded (.bucket flow) []

/-! ## `FlowScheduler` -/

/-- Every call of the scheduler but the two below: the table is read or written, and nothing else
    is locked. -/
def schedulerCall : Locks rpcs workers := guarded .scheduler []

/-- The bucket of the flow is reset if the flow is there. -/
def startFlow (flow : Option Nat) : Locks rpcs workers :=
  guarded .scheduler (flow.toList.flatMap reset)

/-- The flows asked for a token, in the order of the walk. -/
def getReadyFlows (asked : List Nat) : Locks rpcs workers :=
  guarded .scheduler (asked.flatMap tryConsume)

/-! ## `IMIXEngine` and `MempoolManager` -/

/-- `configure`, `select_next_packet_size` and the others. -/
def imixCall : Locks rpcs workers := guarded .imix []

/-- `get_mempool` and the others. -/
def mempoolCall : Locks rpcs workers := guarded .mempool []

/-! ## `MetricsCollector` -/

def resetAll : Locks rpcs workers := guarded .metrics (guarded .snapshot [])

def updateSnapshot : Locks rpcs workers := guarded .snapshot []

/-- The snapshot is brought up to date, and then looked up again. -/
def calculateCurrentRate : Locks rpcs workers := updateSnapshot ++ guarded .snapshot []

def calculateGlobalRate (cores : Nat) : Locks rpcs workers :=
  (List.range cores).flatMap fun _ => calculateCurrentRate

/-- `record_latency`, `get_average_latency_us` and `get_latency_histogram` -/
def latencyCall : Locks rpcs workers := guarded .metrics []

/-! ## Requests -/

/-- The handlers of the service. Those that read statistics do not lock the service. -/
inductive Rpc where
  | configureIMIX
  | configureFlows (flows : Nat)
  /-- The flows of the snapshot, each with its bucket if it is still there. -/
  | startTraffic (resetStats : Bool) (flows : List (Option Nat))
  | stopTraffic (activeFlows : Nat)
  | getMetrics (cores : Nat) (includePerCore includeLatencyHistogram : Bool)
  | getStats (cores : Nat) (detailed : Bool)

def Rpc.locks : Rpc → Locks rpcs workers
  | .configureIMIX => guarded .service imixCall
  | .configureFlows flows =>
    guarded .service ((List.range flows).flatMap fun _ => schedulerCall)
  | .startTraffic resetStats flows =>
    guarded .service ((if resetStats then resetAll else []) ++
      -- the snapshot of the flows, and then each of them
      schedulerCall ++ flows.flatMap startFlow)
  | .stopTraffic activeFlows =>
    guarded .service (schedulerCall ++ (List.range activeFlows).flatMap fun _ => schedulerCall)
  | .getMetrics cores includePerCore includeLatencyHistogram =>
    calculateGlobalRate cores ++ calculateGlobalRate cores ++ latencyCall ++
      (if includePerCore then calculateGlobalRate cores else []) ++
      (if includeLatencyHistogram then latencyCall else [])
  | .getStats cores detailed =>
    calculateGlobalRate cores ++ calculateGlobalRate cores ++
      (if detailed then schedulerCall else [])

/-! ## Workers -/

/-- What happens to a received mbuf: whether its latency is recorded, and whether it goes to
    `handle_tcp_rx`. -/
structure Received where
  latency : Bool
  tcp : Bool

/-- The parts of `worker_loop`. -/
inductive WorkerCall where
  /-- The lookup of the pool before the loop. -/
  | choosePool
  /-- `process_flows`: the flows asked for a token, and for each ready flow whether the IMIX engine
      chooses the size of its packet. -/
  | processFlows (asked : List Nat) (ready : List Bool)
  | processReceivedPackets (received : List Received)

def WorkerCall.locks : WorkerCall → Locks rpcs workers
  | .choosePool => mempoolCall
  | .processFlows asked ready =>
    getReadyFlows asked ++
      (if ready.isEmpty then []
      else mempoolCall ++ ready.flatMap fun imixSize =>
        -- `get_flow`
        schedulerCall ++ (if imixSize then imixCall else []))
  | .processReceivedPackets received =>
    received.flatMap fun mbuf =>
      (if mbuf.latency then latencyCall else []) ++ (if mbuf.tcp then schedulerCall else [])

/-! ## `main` -/

/-- The calls of `main`, of the signal handler that runs on it between two of them, and of the
    destructors at the end. -/
inductive MainCall (rpcs workers : Nat) where
  /-- `initialize` of the pools, and `get_mempool` for an RX queue. -/
  | mempool
  | initializeMetrics
  /-- `initialize`, `start` and `is_running` of the server. -/
  | grpcServer
  /-- `stop` of the server, which waits for the handlers of `serving` to return. -/
  | grpcStop (serving : List (Fin rpcs))
  | joinWorker (i : Fin workers)

def join (t : ThreadId rpcs workers) : Locks rpcs workers := guarded (.alive t) []

def MainCall.locks : MainCall rpcs workers → Locks rpcs workers
  | .mempool => mempoolCall
  | .initializeMetrics => guarded .metrics []
  | .grpcServer => guarded .grpcServer []
  | .grpcStop serving => guarded .grpcServer (serving.flatMap fun i => join (.rpc i))
  | .joinWorker i => join (.worker i)

/-! ## The process -/

/-- The calls each thread makes. -/
structure Process (rpcs workers : Nat) where
  main : List (MainCall rpcs workers)
  rpc : Fin rpcs → List Rpc
  worker : Fin workers → List WorkerCall

/-- What each thread does with the mutexes, from its creation to its return. -/
def Process.locks (p : Process rpcs workers) : ThreadId rpcs workers → Locks rpcs workers
  | .main => p.main.flatMap MainCall.locks
  | .rpc i => guarded (.alive (.rpc i)) ((p.rpc i).flatMap Rpc.locks)
  | .worker i => guarded (.alive (.worker i)) ((p.worker i).flatMap WorkerCall.locks)

end TrafficGen.Locking
