import TrafficGen.ForStd.Run

/-!
# Worker thread

`start`, `stop` and `join` of `core/worker/worker.cpp`, called by one controlling thread,
against the worker's own `worker_loop`: one access to `running_`, `should_stop_` or the
thread object at a time. What `rte_thread_register` and the pool lookup answer is an
argument.
-/

namespace TrafficGen

/-- Where the controlling thread is. -/
inductive CallPc where
  | idle
  /-- In `start`, before `should_stop_` is cleared. -/
  | clearing
  /-- In `start`, before `running_` is set. -/
  | marking
  /-- In `start`, before the thread is created. -/
  | creating
  /-- In `join`, waiting for the thread. -/
  | joining
  /-- In `join`, before `running_` is cleared. -/
  | unmarking
deriving DecidableEq, Repr

/-- Where the worker is in `worker_loop`. -/
inductive LoopPc where
  /-- Before `rte_thread_register`. -/
  | registering
  /-- Before the lookup of its pool. -/
  | choosingPool
  /-- Before `should_stop_` is read. -/
  | looping
  /-- In the body of the loop. -/
  | working
  /-- Before `running_` is cleared. -/
  | leaving
  | returned
deriving DecidableEq, Repr

/-- A `std::thread` that runs `worker_loop`. -/
structure LoopThread where
  joinable : Bool
  pc : LoopPc
deriving DecidableEq, Repr

/-- The members of a `Worker` that its life cycle is about, and the two threads. Recorded beside
    them: a `start` has returned true with no `stop` called since, and the process has died. -/
structure WorkerThread where
  running : Bool := false
  shouldStop : Bool := false
  /-- `worker_thread_`, null at first. -/
  thread : Option LoopThread := none
  call : CallPc := .idle
  started : Bool := false
  terminated : Bool := false
deriving DecidableEq, Repr

namespace WorkerThread

/-- A step of one of the threads. -/
inductive Act where
  | start
  | stop
  | join
  /-- The next access of the call in progress. -/
  | proceed
  /-- The next access of the worker, with the answer it gets if it asks for something. -/
  | loop (ok : Bool)
deriving DecidableEq, Repr

/-- `worker_thread_ && worker_thread_->joinable()` -/
def joinable (s : WorkerThread) : Bool := s.thread.any (·.joinable)

/-- `start`, up to its load of `running_`. -/
def start (s : WorkerThread) : WorkerThread :=
  if s.running then { s with started := true } else { s with call := .clearing }

/-- `stop` -/
def stop (s : WorkerThread) : WorkerThread :=
  { s with shouldStop := true, started := false }

/-- `join`, up to its test of the thread object. -/
def join (s : WorkerThread) : WorkerThread :=
  { s with call := if s.joinable then .joining else .unmarking }

/-- The thread is created, and the old thread object destroyed: `std::terminate` if it was
    joinable. -/
def create (s : WorkerThread) : WorkerThread :=
  if s.joinable then { s with terminated := true }
  else { s with thread := some ⟨true, .registering⟩, call := .idle, started := true }

/-- The controlling thread goes on with its call. -/
def proceed (s : WorkerThread) : WorkerThread :=
  match s.call with
  | .idle => s
  | .clearing => { s with shouldStop := false, call := .marking }
  | .marking => { s with running := true, call := .creating }
  | .creating => s.create
  | .joining =>
    match s.thread with
    -- waits for the worker to return
    | some ⟨_, .returned⟩ => { s with thread := some ⟨false, .returned⟩, call := .unmarking }
    | _ => s
  | .unmarking => { s with running := false, call := .idle }

/-- The worker goes on in `worker_loop`. -/
def workerLoop (s : WorkerThread) (ok : Bool) : WorkerThread :=
  match s.thread with
  | none => s
  | some t =>
    let goto pc := { s with thread := some { t with pc := pc } }
    match t.pc with
    | .registering => goto (if ok then .choosingPool else .leaving)
    | .choosingPool => goto (if ok then .looping else .leaving)
    | .looping => goto (if s.shouldStop then .leaving else .working)
    | .working => goto .looping
    | .leaving => { goto .returned with running := false }
    | .returned => s

/-- A step; a call is made when no other is in progress, and a dead process does nothing. -/
def step (s : WorkerThread) (a : Act) : WorkerThread :=
  if s.terminated then s
  else
    match a with
    | .start => if s.call = .idle then s.start else s
    | .stop => if s.call = .idle then s.stop else s
    | .join => if s.call = .idle then s.join else s
    | .proceed => s.proceed
    | .loop ok => s.workerLoop ok

end WorkerThread

end TrafficGen
