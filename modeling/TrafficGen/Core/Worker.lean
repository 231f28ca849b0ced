import TrafficGen.Core.FlowScheduler
import TrafficGen.Core.ImixEngine
import TrafficGen.Core.MempoolManager
import TrafficGen.Core.MetricsCollector
import TrafficGen.Core.PacketMutator

/-!
# Worker

The transmit side of `core/worker/worker.cpp`: one pass of `process_flows` builds a
packet for each ready flow and hands the burst to the NIC. The answers of the pool, the
NIC, the clocks and the IMIX draws are arguments. A pass also reports what became of the
mbufs it touched, which the code itself does not record.
-/

namespace TrafficGen

/-- `Worker::Config`, less the pointers to what the workers share. -/
structure WorkerConfig where
  coreId : UInt32
  portId : UInt16
  queueId : UInt16
  txBurstSize : UInt16
  rxBurstSize : UInt16
  enableRx : Bool
  /-- `-1` when no field is registered. -/
  timestampDynfieldOffset : Int
deriving DecidableEq, Repr

/-- The mbufs behind their pointers. -/
abbrev Heap := MbufId → Mbuf

/-- What the workers and the control server share. -/
structure System where
  scheduler : FlowScheduler
  imixEngine : IMIXEngine
  metricsCollector : MetricsCollector
  heap : Heap

/-- The answers met while one ready flow is served. -/
structure Turn where
  alloc : AllocResult
  imixDraw : Nat
  timestampNs : UInt64

/-- The NIC's answer to one burst: how many mbufs it would take, and what the driver does to
    the ones it took before the call returns. -/
structure TxAnswer where
  accept : UInt16
  recycle : MbufId → Mbuf → Mbuf

/-- A packet put in the burst: the mbuf at that moment, and its flow before and after. -/
structure BuiltPacket where
  flowId : UInt32
  mbuf : MbufId
  frame : Mbuf
  before : FlowConfigInternal
  after : FlowConfigInternal

/-- The locals of `process_flows`, the state it works on, and the record of the pass:
    the mbufs the pool handed out, those freed, and the packets built. -/
structure Pass (r : Rng) where
  scheduler : FlowScheduler
  heap : Heap
  mutator : PacketMutator r
  mbufs : List (Option MbufId)
  mbufCount : Nat
  handedOut : List MbufId := []
  freed : List MbufId := []
  built : List BuiltPacket := []

/-- What a pass did with mbufs: `accepted` are those the NIC took, the first of the burst. -/
structure PassReport where
  handedOut : List MbufId := []
  freed : List MbufId := []
  built : List BuiltPacket := []
  accepted : List MbufId := []

namespace PassReport

/-- The packets of the burst, each with whether the NIC took it. -/
def outcomes (p : PassReport) : List (BuiltPacket × Bool) :=
  p.built.mapIdx fun i b => (b, decide (i < p.accepted.length))

/-- The packets the NIC took. -/
def sent (p : PassReport) : List BuiltPacket :=
  p.built.take p.accepted.length

end PassReport

/-- The state of an mbuf pointer in the heap is replaced. -/
def Heap.set (heap : Heap) (m : MbufId) (mb : Mbuf) : Heap :=
  fun i => if i = m then mb else heap i

@[simp] theorem Heap.set_self (heap : Heap) (m : MbufId) (mb : Mbuf) : heap.set m mb m = mb :=
  if_pos rfl

theorem Heap.set_ne (heap : Heap) {m i : MbufId} (mb : Mbuf) (h : i ≠ m) :
    heap.set m mb i = heap i :=
  if_neg h

namespace Worker

variable {r : Rng}

/-! ## Building a packet -/

/-- The size of the next packet: the flow's own, else the IMIX engine's, else 64. -/
def choosePacketSize (flow : FlowConfigInternal) (imix : IMIXEngine) (draw : Nat) : UInt32 :=
  let packetSize := flow.packetSize
  let packetSize := if packetSize = 0 then imix.selectNextPacketSize draw else packetSize
  if packetSize = 0 then 64 else packetSize

/-- The rewrite of a stateful segment: an ACK with the connection's numbers, after which
    `send_seq` moves past the payload. -/
def rewriteStateful (d : Dpdk) (mb : Mbuf) (conn : TCPConnectionState) :
    Mbuf × TCPConnectionState :=
  let ip := etherHdrSize
  let tcp := etherHdrSize + ipv4HdrSize
  -- the flags never depend on `conn.state`
  let mem := mb.data.store8 (tcp + 13) RTE_TCP_ACK_FLAG
  let mem := mem.store32 (tcp + 4) (rteCpuToBe32 conn.sendSeq)
  let mem := mem.store32 (tcp + 8) (rteCpuToBe32 conn.sendAck)
  -- advanced when the packet is built, whatever becomes of it later
  let conn := { conn with sendSeq := conn.sendSeq + tcpPayloadLen mem ip tcp }
  ({ mb with data := PacketMutator.recalculateTcpChecksum d mem ip tcp }, conn)

/-- Record the send time in the timestamp field, if one is registered. -/
def stampMbuf (cfg : WorkerConfig) (mb : Mbuf) (timestampNs : UInt64) : Mbuf :=
  if cfg.timestampDynfieldOffset ≠ -1 then { mb with timestamp := timestampNs } else mb

/-- The mbuf and the flow once the template is cloned: the stateful rewrite, the timestamp, and
    the flow's counters. -/
def finishPacket (cfg : WorkerConfig) (d : Dpdk) (mb : Mbuf) (flow : FlowConfigInternal)
    (timestampNs : UInt64) : Mbuf × FlowConfigInternal :=
  let (mb, flow) :=
    match flow.tcpState with
    | none => (mb, flow)
    | some conn =>
      if flow.isStatefulTcp then
        let (mb, conn) := rewriteStateful d mb conn
        (mb, { flow with tcpState := some conn })
      else (mb, flow)
  let mb := stampMbuf cfg mb timestampNs
  (mb, { flow with
    packetsSent := flow.packetsSent + 1, bytesSent := flow.bytesSent + mb.pktLen.toUInt64 })

/-! ## The loop over the ready flows -/

/-- Build a packet of `flow` in the mbuf `m` of the current slot, or free the mbuf. -/
def buildPacket (cfg : WorkerConfig) (d : Dpdk) (imix : IMIXEngine) (flowId : UInt32)
    (flow : FlowConfigInternal) (turn : Turn) (m : MbufId) (p : Pass r) : Pass r :=
  let packetSize := choosePacketSize flow imix turn.imixDraw
  let finalTemplate := { flow.templatePacket with totalSize := packetSize }
  -- sequence number `0`: the mutator draws one
  let (ok, mb, mutator) := p.mutator.cloneAndMutate d (p.heap m) finalTemplate 0 true
  if ok then
    let (mb, flow') := finishPacket cfg d mb flow turn.timestampNs
    { p with
      scheduler := p.scheduler.setFlow flowId flow'
      heap := p.heap.set m mb
      mutator := mutator
      mbufCount := p.mbufCount + 1
      built := p.built ++ [{ flowId, mbuf := m, frame := mb, before := flow, after := flow' }] }
  else
    -- the slot is used again by the next flow
    { p with
      heap := p.heap.set m mb
      mutator := mutator
      mbufs := p.mbufs.set p.mbufCount none
      freed := p.freed ++ [m] }

/-- Ask the pool for the mbuf of the current slot. An mbuf comes out of the pool reset. -/
def allocateSlot (turn : Turn) (p : Pass r) : UInt16 × Pass r :=
  let (allocated, mbufs) := allocateBurst turn.alloc p.mbufs p.mbufCount
  match turn.alloc with
  | .filled m =>
    (allocated, { p with
      heap := p.heap.set m (p.heap m).reset
      mbufs := mbufs
      handedOut := p.handedOut ++ [m] })
  | .failed _ => (allocated, { p with mbufs := mbufs })

/-- One round of the loop. -/
def serveFlow (cfg : WorkerConfig) (d : Dpdk) (imix : IMIXEngine) (flowId : UInt32)
    (turn : Turn) (p : Pass r) : Pass r :=
  match p.scheduler.getFlow flowId with
  | none => p
  | some flow =>
    if !flow.active then p
    else
      let (allocated, p) := allocateSlot turn p
      if allocated = 0 then p
      else
        -- a pointer an earlier round left in the slot is taken for the new mbuf
        match p.mbufs.getD p.mbufCount none with
        | none => p
        | some m => buildPacket cfg d imix flowId flow turn m p

/-- The loop of `process_flows`, left when the burst is full. -/
def serveFlows (cfg : WorkerConfig) (d : Dpdk) (imix : IMIXEngine) :
    List (UInt32 × Turn) → Pass r → Pass r
  | [], p => p
  | (flowId, turn) :: ready, p =>
    if p.mbufCount ≥ cfg.txBurstSize.toNat then p
    else serveFlows cfg d imix ready (serveFlow cfg d imix flowId turn p)

/-! ## Transmission -/

/-- `rte_eth_tx_burst`: the number of mbufs taken, never more than there are. The driver may
    already have recycled them. -/
def rteEthTxBurst (tx : TxAnswer) (heap : Heap) (mbufs : List (Option MbufId)) : Nat × Heap :=
  let sent := min tx.accept.toNat mbufs.length
  (sent, fun m => if some m ∈ mbufs.take sent then tx.recycle m (heap m) else heap m)

/-- Transmit burst of packets, count what was taken and free the rest. Returns the heap, the
    metrics, the mbufs taken and the mbufs freed. -/
def transmitBurst (cfg : WorkerConfig) (tx : TxAnswer) (heap : Heap) (metrics : MetricsCollector)
    (mbufs : List (Option MbufId)) : Heap × MetricsCollector × List MbufId × List MbufId :=
  if mbufs.length = 0 then (heap, metrics, [], [])
  else
    let (sent, heap) := rteEthTxBurst tx heap mbufs
    let accepted := (mbufs.take sent).filterMap id
    -- the lengths are read after the driver took the mbufs
    let totalBytes := accepted.foldl (fun total m => total + (heap m).pktLen.toUInt64) 0
    let metrics :=
      if sent > 0 then metrics.updateTxStats cfg.coreId (UInt64.ofNat sent) totalBytes
      else metrics
    (heap, metrics, accepted, (mbufs.drop sent).filterMap id)

/-- The locals at the start of the loop. -/
def startPass (cfg : WorkerConfig) (r : Rng) (sys : System) (time : UInt64) : Pass r where
  scheduler := sys.scheduler
  heap := sys.heap
  mutator := .initializeRng r cfg.coreId.toUInt64 time
  mbufs := List.replicate cfg.txBurstSize.toNat none
  mbufCount := 0

/-- `process_flows` from the ready flows on: build the packets and transmit them. -/
def sendReady (cfg : WorkerConfig) (d : Dpdk) (r : Rng) (sys : System) (time : UInt64)
    (ready : List (UInt32 × Turn)) (tx : TxAnswer) : System × PassReport :=
  let p := serveFlows cfg d sys.imixEngine ready (startPass cfg r sys time)
  -- an empty burst is not handed over, which `transmit_burst` would ignore as well
  let (heap, metrics, accepted, freed) :=
    transmitBurst cfg tx p.heap sys.metricsCollector (p.mbufs.take p.mbufCount)
  ({ sys with scheduler := p.scheduler, heap := heap, metricsCollector := metrics },
    { handedOut := p.handedOut, freed := p.freed ++ freed, built := p.built, accepted := accepted })

/-- Everything a pass reads from outside. -/
structure PassInput where
  nowNs : UInt64
  bucketNowNs : UInt32 → UInt64
  /-- Where the walk of the flow table starts. -/
  order : List UInt32
  time : UInt64
  turn : Nat → Turn
  tx : TxAnswer

/-- Build and transmit packets for flows. -/
def processFlows (cfg : WorkerConfig) (d : Dpdk) (r : Rng) (sys : System) (input : PassInput) :
    System × PassReport :=
  let (readyFlows, scheduler) := sys.scheduler.getReadyFlows cfg.txBurstSize.toUInt32
    input.order input.nowNs input.bucketNowNs
  let sys := { sys with scheduler := scheduler }
  if readyFlows.isEmpty then (sys, {})
  else
    sendReady cfg d r sys input.time (readyFlows.mapIdx fun i id => (id, input.turn i)) input.tx

end Worker

end TrafficGen
