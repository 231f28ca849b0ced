import TrafficGen.Control.Server
import TrafficGen.Core.FlowObjects

/-!
# Requests and passes at the same time

The control server of `control/grpc/server.cpp` and the workers of `core/worker/worker.cpp` as
threads that take turns. The server goes from one call of the scheduler to the next, and serves one
request at a time, under its mutex. A worker goes through `process_flows` from `get_ready_flows` to
`get_flow`, the test of `active`, and the packet of that flow, flow by flow, to `transmit_burst`.
What a worker does with a flow it has seen active is one step.
-/

namespace TrafficGen

variable {workers : Nat}

/-! ## The server -/

/-- A request that takes `TrafficGeneratorServiceImpl::mutex_`. -/
inductive Request where
  | configureFlows (request : FlowConfig)
  | configureIMIX (request : IMIXConfig)
  /-- `order` is that of the walk, and `nowNs` the clock read of `reset_all`. -/
  | startTraffic (request : StartRequest) (order : List UInt32) (nowNs : UInt64)
  | stopTraffic (order : List UInt32)

/-- The request being served, and the flows it has still to go through. -/
inductive Serving where
  | nothing
  | configureFlows (stateless : Bool) (flows : List Flow) (allSuccess : Bool)
      (errorMessage : String)
  | startTraffic (flowIds : List UInt32)
  | stopTraffic (flowIds : List UInt32)
deriving DecidableEq, Repr

/-! ## The workers -/

/-- The locals of `process_flows` once some flows are ready. -/
structure PassLocals (r : Rng) where
  /-- The ready flows still to serve, and how many have been. -/
  readyFlows : List UInt32
  served : Nat
  mutator : PacketMutator r
  mbufs : List (Option MbufId)
  mbufCount : Nat
  /-- The packets of the burst. -/
  built : List BuiltPacket

/-- The locals at the start of the loop. -/
def PassLocals.start (cfg : WorkerConfig) (r : Rng) (readyFlows : List UInt32) (time : UInt64) :
    PassLocals r where
  readyFlows := readyFlows
  served := 0
  mutator := .initializeRng r cfg.coreId.toUInt64 time
  mbufs := List.replicate cfg.txBurstSize.toNat none
  mbufCount := 0
  built := []

/-- The next ready flow has been taken, and `readyFlows` are left. -/
def PassLocals.advance {r : Rng} (pass : PassLocals r) (readyFlows : List UInt32) :
    PassLocals r :=
  { pass with readyFlows := readyFlows, served := pass.served + 1 }

/-- Where a worker is in `process_flows`. -/
inductive PassPc (r : Rng) where
  | polling
  | looking (pass : PassLocals r)
  | checking (pass : PassLocals r) (flowId : UInt32) (flow : FlowPtr)
  | building (pass : PassLocals r) (flowId : UInt32) (flow : FlowPtr)
  | transmitting (pass : PassLocals r)

namespace PassPc

/-- The packets of the burst so far. -/
def built {r : Rng} : PassPc r → List BuiltPacket
  | .polling => []
  | .looking pass => pass.built
  | .checking pass _ _ => pass.built
  | .building pass _ _ => pass.built
  | .transmitting pass => pass.built

end PassPc

/-- What the threads share, and where each of them is. -/
structure Threads (r : Rng) (workers : Nat) where
  scheduler : FlowObjects
  imixEngine : IMIXEngine
  metricsCollector : MetricsCollector
  heap : Heap
  serving : Serving
  /-- The reply to the last request. -/
  reply : Option StatusResponse
  worker : Fin workers → PassPc r

namespace Threads

variable {r : Rng}

/-- Worker `w` has gone on to `pc`. -/
def goto (s : Threads r workers) (w : Fin workers) (pc : PassPc r) : Threads r workers :=
  { s with worker := Function.update s.worker w pc }

@[simp] theorem scheduler_goto (s : Threads r workers) (w : Fin workers) (pc : PassPc r) :
    (s.goto w pc).scheduler = s.scheduler := rfl

@[simp] theorem serving_goto (s : Threads r workers) (w : Fin workers) (pc : PassPc r) :
    (s.goto w pc).serving = s.serving := rfl

@[simp] theorem worker_goto_self (s : Threads r workers) (w : Fin workers) (pc : PassPc r) :
    (s.goto w pc).worker w = pc := by
  simp only [goto, Function.update_self]

theorem worker_goto_ne (s : Threads r workers) {w w' : Fin workers} (pc : PassPc r)
    (h : w' ≠ w) : (s.goto w pc).worker w' = s.worker w' := by
  simp only [goto, Function.update_of_ne h]

/-! ### Serving a request -/

/-- The request has been answered. -/
def answer (s : Threads r workers) (reply : StatusResponse) : Threads r workers :=
  { s with serving := .nothing, reply := some reply }

/-- A request gets the mutex: what it does before its loop. -/
def accept (s : Threads r workers) : Request → Threads r workers
  | .configureFlows request =>
    { s with serving := .configureFlows request.stateless request.flows true "" }
  | .configureIMIX request =>
    let entries := request.entries.map Server.convertProtoImixEntry
    let (configured, imixEngine) := s.imixEngine.configure entries request.targetPps
    let s := { s with imixEngine := imixEngine }
    if configured then s.answer ⟨true, "IMIX configured successfully", 0⟩
    else s.answer ⟨false, "Failed to configure IMIX", -1⟩
  | .startTraffic request order nowNs =>
    let s :=
      if request.resetStats then
        { s with metricsCollector := s.metricsCollector.resetAll nowNs }
      else s
    let allFlows := FlowScheduler.walk order s.scheduler.flows.keys
    if allFlows.isEmpty then s.answer ⟨false, "No flows configured to start", -2⟩
    else { s with serving := .startTraffic allFlows }
  | .stopTraffic order =>
    { s with serving := .stopTraffic (s.scheduler.getActiveFlows order) }

/-- The next call of the request that is being served. `clock` is what the call reads. -/
def serve (inetAton : String → Option UInt32) (d : Dpdk) (s : Threads r workers)
    (clock : Server.StartClock) : Threads r workers :=
  match s.serving with
  | .nothing => s
  | .configureFlows stateless (flow :: flows) allSuccess errorMessage =>
    let (added, scheduler) :=
      s.scheduler.addFlow d (Server.internalConfig inetAton stateless flow) clock.nowNs
    let s := { s with scheduler := scheduler }
    if added then { s with serving := .configureFlows stateless flows allSuccess errorMessage }
    else
      let errorMessage :=
        errorMessage ++ ("Failed to add flow " ++ toString flow.flowId.toNat ++ "; ")
      { s with serving := .configureFlows stateless flows false errorMessage }
  | .configureFlows _ [] allSuccess errorMessage =>
    if allSuccess then s.answer ⟨true, "All flows configured successfully", 0⟩
    else s.answer ⟨false, "Some flows failed to configure: " ++ errorMessage, -1⟩
  | .startTraffic (id :: flowIds) =>
    { s with
      scheduler := (s.scheduler.startFlow id clock.nowNs clock.bucketNowNs).2
      serving := .startTraffic flowIds }
  | .startTraffic [] =>
    let s := { s with metricsCollector := s.metricsCollector.setRunning true }
    s.answer ⟨true, "Traffic generation started", 0⟩
  | .stopTraffic (id :: flowIds) =>
    { s with
      scheduler := (s.scheduler.stopFlow id).2
      serving := .stopTraffic flowIds }
  | .stopTraffic [] =>
    let s := { s with metricsCollector := s.metricsCollector.setRunning false }
    s.answer ⟨true, "Traffic generation stopped", 0⟩

/-! ### A pass -/

/-- An mbuf comes out of the pool reset. -/
def drawn (heap : Heap) : AllocResult → Heap
  | .filled m => heap.set m (heap m).reset
  | .failed _ => heap

/-- `get_ready_flows`, and the locals of the pass if it returns any. -/
def poll (cfg : WorkerConfig) (s : Threads r workers) (w : Fin workers)
    (input : Worker.PassInput) : Threads r workers :=
  let (readyFlows, scheduler) := s.scheduler.getReadyFlows cfg.txBurstSize.toUInt32
    input.order input.nowNs input.bucketNowNs
  let s := { s with scheduler := scheduler }
  if readyFlows.isEmpty then s
  else s.goto w (.looking (.start cfg r readyFlows input.time))

/-- The head of the loop: leave it, or get the next flow. -/
def look (cfg : WorkerConfig) (s : Threads r workers) (w : Fin workers) (pass : PassLocals r) :
    Threads r workers :=
  match pass.readyFlows with
  | [] => s.goto w (.transmitting pass)
  | flowId :: readyFlows =>
    if pass.mbufCount ≥ cfg.txBurstSize.toNat then s.goto w (.transmitting pass)
    else
      let pass := pass.advance readyFlows
      match s.scheduler.getFlow flowId with
      | none => s.goto w (.looking pass)
      | some flow => s.goto w (.checking pass flowId flow)

/-- Allocate an mbuf, and build a packet of the flow in the one in the slot. -/
def build (cfg : WorkerConfig) (d : Dpdk) (s : Threads r workers) (w : Fin workers)
    (pass : PassLocals r) (flowId : UInt32) (flow : FlowPtr) (turn : Turn) : Threads r workers :=
  match s.scheduler.deref flow with
  | none => s
  | some f =>
    let (allocated, mbufs) := allocateBurst turn.alloc pass.mbufs pass.mbufCount
    let pass := { pass with mbufs := mbufs }
    let s := { s with heap := drawn s.heap turn.alloc }
    if allocated = 0 then s.goto w (.looking pass)
    else
      match mbufs.getD pass.mbufCount none with
      | none => s.goto w (.looking pass)
      | some m =>
        let packetSize := Worker.choosePacketSize f s.imixEngine turn.imixDraw
        let finalTemplate := { f.templatePacket with totalSize := packetSize }
        let (ok, mb, mutator) := pass.mutator.cloneAndMutate d (s.heap m) finalTemplate 0 true
        let pass := { pass with mutator := mutator }
        if ok then
          let (mb, f') := Worker.finishPacket cfg d mb f turn.timestampNs
          let b := { flowId, mbuf := m, frame := mb, before := f, after := f' }
          let s := { s with scheduler := s.scheduler.store flow f', heap := s.heap.set m mb }
          s.goto w (.looking
            { pass with mbufCount := pass.mbufCount + 1, built := pass.built ++ [b] })
        else
          let s := { s with heap := s.heap.set m mb }
          s.goto w (.looking { pass with mbufs := mbufs.set pass.mbufCount none })

/-- `transmit_burst`, of the mbufs in use. -/
def transmit (cfg : WorkerConfig) (s : Threads r workers) (w : Fin workers) (pass : PassLocals r)
    (tx : TxAnswer) : Threads r workers :=
  let (heap, metrics, _) := Worker.transmitBurst cfg tx s.heap s.metricsCollector
    (pass.mbufs.take pass.mbufCount)
  let s := { s with heap := heap, metricsCollector := metrics }
  s.goto w .polling

/-- The next step of worker `w`. -/
def work (cfg : WorkerConfig) (d : Dpdk) (s : Threads r workers) (w : Fin workers)
    (input : Worker.PassInput) : Threads r workers :=
  match s.worker w with
  | .polling => s.poll cfg w input
  | .looking pass => s.look cfg w pass
  | .checking pass flowId flow =>
    if (s.scheduler.deref flow).any (·.active) then s.goto w (.building pass flowId flow)
    else s.goto w (.looking pass)
  | .building pass flowId flow =>
    s.build cfg d w pass flowId flow (input.turn (pass.served - 1))
  | .transmitting pass => s.transmit cfg w pass input.tx

/-! ### Turns -/

/-- A turn of one of the threads. -/
inductive Act (workers : Nat) where
  | request (request : Request)
  | serve (clock : Server.StartClock)
  | work (w : Fin workers) (input : Worker.PassInput)
  | receive (key : FlowKey) (tcpHdr : RteTcpHdr) (payloadLen : UInt32) (nowNs : UInt64)

variable (inetAton : String → Option UInt32) (d : Dpdk) (cfg : Fin workers → WorkerConfig)

/-- The threads after a turn. A request waits while another is being served. -/
def step (s : Threads r workers) : Act workers → Threads r workers
  | .request request =>
    match s.serving with
    | .nothing => s.accept request
    | _ => s
  | .serve clock => s.serve inetAton d clock
  | .work w input => s.work (cfg w) d w input
  | .receive key tcpHdr payloadLen nowNs =>
    { s with scheduler := s.scheduler.handleTcpRx key tcpHdr payloadLen nowNs }

/-- The packets handed to the NIC in a turn, each with whether the NIC takes it. -/
def outcomes (s : Threads r workers) : Act workers → List (BuiltPacket × Bool)
  | .work w input =>
    match s.worker w with
    | .transmitting pass =>
      let (_, _, accepted, _) := Worker.transmitBurst (cfg w) input.tx s.heap
        s.metricsCollector (pass.mbufs.take pass.mbufCount)
      pass.built.mapIdx fun i b => (b, decide (i < accepted.length))
    | _ => []
  | _ => []

/-- Those worker `w` hands over. -/
def sends (w : Fin workers) (s : Threads r workers) : Act workers → List (BuiltPacket × Bool)
  | .work w' input => if w' = w then s.outcomes cfg (.work w' input) else []
  | _ => []

/-- A generator that has just been started. -/
def Initial (s : Threads r workers) : Prop :=
  (∃ srcMac, s.scheduler = .new srcMac) ∧ s.serving = .nothing ∧ ∀ w, s.worker w = .polling

/-- Threads some turns lead to. -/
def Reachable : Threads r workers → Prop :=
  Run.Reachable (step inetAton d cfg) Initial

end Threads

end TrafficGen
