import Mathlib.Data.List.AList
import Mathlib.Data.List.Dedup
import TrafficGen.Core.PacketBuilder
import TrafficGen.Core.TokenBucket

/-!
# Flow scheduler

`core/scheduler/flow_scheduler.cpp`: the table of flows, the index from a received
segment's 5-tuple to the flow it belongs to, and the choice of the flows that may
send now. Clock reads are arguments, and so is the order in which a walk of the hash
map visits its entries.
-/

namespace TrafficGen

/-- What a caller of `add_flow` fills in. -/
structure FlowSettings where
  flowId : UInt32
  flowKey : FlowKey
  packetSize : UInt32
  protocol : String
  pps : UInt64
  /-- `0` means infinite. -/
  durationSeconds : UInt32
  stateless : Bool
  dstMac : String
deriving DecidableEq, Repr

/-- Flow configuration. The state machine of a stateful flow is created together with its
    connection and holds no data, so `tcpState` stands for both pointers. -/
structure FlowConfigInternal extends FlowSettings where
  templatePacket : PacketTemplate
  tokenBucket : TokenBucket
  tcpState : Option TCPConnectionState
  packetsSent : UInt64 := 0
  bytesSent : UInt64 := 0
  startTimeNs : UInt64 := 0
  active : Bool := false
deriving DecidableEq, Repr

namespace FlowConfigInternal

/-- The flow takes part in stateful TCP. -/
def isStatefulTcp (f : FlowConfigInternal) : Bool :=
  !f.stateless && f.protocol = "tcp" && f.tcpState.isSome

/-- `is_flow_expired_locked`, the elapsed time wrapping at 64 bits. -/
def isExpired (f : FlowConfigInternal) (nowNs : UInt64) : Bool :=
  if f.durationSeconds = 0 then false
  else if f.startTimeNs = 0 then false
  else nowNs - f.startTimeNs ≥ f.durationSeconds.toUInt64 * 1000000000

end FlowConfigInternal

/-- Snapshot of a flow for statistics, as far as one is read. -/
structure FlowSnapshot where
  flowId : UInt32
  packetsSent : UInt64
  bytesSent : UInt64
deriving DecidableEq, Repr

structure FlowScheduler where
  flows : AList fun _ : UInt32 => FlowConfigInternal
  flowLookup : AList fun _ : FlowKey => UInt32
  /-- Real MAC of the egress port. -/
  srcMac : List UInt8

namespace FlowScheduler

/-- A new scheduler, given the source MAC of the TX port. -/
def new (srcMac : List UInt8) : FlowScheduler where
  flows := ∅
  flowLookup := ∅
  srcMac := srcMac

/-- Get flow configuration. -/
def getFlow (s : FlowScheduler) (flowId : UInt32) : Option FlowConfigInternal :=
  s.flows.lookup flowId

/-- The table after the flow object under `flowId` has changed. -/
def setFlow (s : FlowScheduler) (flowId : UInt32) (f : FlowConfigInternal) : FlowScheduler :=
  { s with flows := s.flows.insert flowId f }

@[simp] theorem getFlow_setFlow_self (s : FlowScheduler) (id : UInt32) (f : FlowConfigInternal) :
    (s.setFlow id f).getFlow id = some f :=
  AList.lookup_insert s.flows

theorem getFlow_setFlow_ne (s : FlowScheduler) {id id' : UInt32} (f : FlowConfigInternal)
    (h : id' ≠ id) : (s.setFlow id f).getFlow id' = s.getFlow id' :=
  AList.lookup_insert_ne h

/-! ## Adding and removing flows -/

/-- The connection of a new stateful flow: closed, nothing sent or received. -/
def newTcpState (key : FlowKey) : TCPConnectionState where
  srcIp := key.srcIp
  dstIp := key.dstIp
  srcPort := key.srcPort
  dstPort := key.dstPort

/-- The flow `add_flow` builds from a caller's settings, or nothing when the template cannot
    be built. -/
def newFlow (d : Dpdk) (srcMac : List UInt8) (config : FlowSettings) (nowNs : UInt64) :
    Option FlowConfigInternal :=
  -- without a destination MAC, broadcast
  let dstMac := if config.dstMac.isEmpty then "FF:FF:FF:FF:FF:FF" else config.dstMac
  let templatePacketSize := if config.packetSize = 0 then 64 else config.packetSize
  match buildTemplate d .empty config.flowKey templatePacketSize config.protocol
      (formatMac srcMac) dstMac with
  | none => none
  | some templatePacket => some {
      config with
      dstMac := dstMac
      templatePacket := templatePacket
      tokenBucket := .new config.pps (if config.pps > 0 then config.pps / 10 else 1000) nowNs
      tcpState :=
        if !config.stateless && config.protocol = "tcp" then some (newTcpState config.flowKey)
        else none }

/-- Add flow configuration. A flow of the same id is replaced. -/
def addFlow (s : FlowScheduler) (d : Dpdk) (config : FlowSettings) (nowNs : UInt64) :
    Bool × FlowScheduler :=
  match newFlow d s.srcMac config nowNs with
  | none => (false, s)
  | some stored =>
    -- entries under the 5-tuple of a flow replaced here stay in the index
    let lookup := s.flowLookup.insert stored.flowKey config.flowId
    let lookup := lookup.insert stored.flowKey.reverse config.flowId
    (true, { s with flows := s.flows.insert config.flowId stored, flowLookup := lookup })

/-- Remove flow, and the index entries under its 5-tuple. -/
def removeFlow (s : FlowScheduler) (flowId : UInt32) : Bool × FlowScheduler :=
  match s.getFlow flowId with
  | none => (false, s)
  | some f =>
    -- erased by key, whichever flow the entries name
    let lookup := (s.flowLookup.erase f.flowKey).erase f.flowKey.reverse
    (true, { s with flows := s.flows.erase flowId, flowLookup := lookup })

/-- Clear all flows. -/
def clearAllFlows (s : FlowScheduler) : FlowScheduler :=
  -- `flow_lookup_` is left as it is
  { s with flows := ∅ }

/-! ## Starting and stopping -/

/-- Start flow. The bucket reads the clock again when it is reset. -/
def startFlow (s : FlowScheduler) (flowId : UInt32) (nowNs bucketNowNs : UInt64) :
    Bool × FlowScheduler :=
  match s.getFlow flowId with
  | none => (false, s)
  | some f => (true, s.setFlow flowId { f with
      startTimeNs := nowNs, active := true, tokenBucket := f.tokenBucket.reset bucketNowNs })

/-- Stop flow. -/
def stopFlow (s : FlowScheduler) (flowId : UInt32) : Bool × FlowScheduler :=
  match s.getFlow flowId with
  | none => (false, s)
  | some f => (true, s.setFlow flowId { f with active := false })

/-- A walk of a hash map with the keys `ids`. Its order is unspecified: `order` comes first,
    and every id is visited once. -/
def walk (order ids : List UInt32) : List UInt32 :=
  (order.filter (· ∈ ids)).dedup ++ ids.filter (· ∉ order)

/-- Get all active flows. -/
def getActiveFlows (s : FlowScheduler) (order : List UInt32) : List UInt32 :=
  (walk order s.flows.keys).filter fun id => (s.getFlow id).any (·.active)

/-- Get snapshots of all flows. -/
def getAllFlowsSnapshot (s : FlowScheduler) (order : List UInt32) : List FlowSnapshot :=
  (walk order s.flows.keys).filterMap fun id => (s.getFlow id).map fun f =>
    { flowId := f.flowId, packetsSent := f.packetsSent, bytesSent := f.bytesSent }

/-! ## Flows ready for transmission -/

/-- The loop of `get_ready_flows` over the ids still to visit. `bucketNowNs` is the clock read
    of each flow's bucket. -/
def getReadyFlowsLoop (maxFlows : UInt32) (nowNs : UInt64) (bucketNowNs : UInt32 → UInt64) :
    List UInt32 → FlowScheduler → List UInt32 → List UInt32 × FlowScheduler
  | [], s, readyFlows => (readyFlows, s)
  | id :: ids, s, readyFlows =>
    match s.getFlow id with
    | none => getReadyFlowsLoop maxFlows nowNs bucketNowNs ids s readyFlows
    | some f =>
      if !f.active then getReadyFlowsLoop maxFlows nowNs bucketNowNs ids s readyFlows
      else if f.isExpired nowNs then
        getReadyFlowsLoop maxFlows nowNs bucketNowNs ids
          (s.setFlow id { f with active := false }) readyFlows
      else
        let (consumed, tokenBucket) := f.tokenBucket.tryConsume 1 (bucketNowNs id)
        let s := s.setFlow id { f with tokenBucket := tokenBucket }
        let readyFlows := if consumed > 0 then readyFlows ++ [id] else readyFlows
        -- tested after the push, so a bound of `0` still lets one flow through
        if readyFlows.length ≥ maxFlows.toNat then (readyFlows, s)
        else getReadyFlowsLoop maxFlows nowNs bucketNowNs ids s readyFlows

/-- Get flows ready for transmission. -/
def getReadyFlows (s : FlowScheduler) (maxFlows : UInt32) (order : List UInt32) (nowNs : UInt64)
    (bucketNowNs : UInt32 → UInt64) : List UInt32 × FlowScheduler :=
  getReadyFlowsLoop maxFlows nowNs bucketNowNs (walk order s.flows.keys) s []

/-! ## Received segments -/

/-- Handle an incoming TCP packet. -/
def handleTcpRx (s : FlowScheduler) (key : FlowKey) (tcpHdr : RteTcpHdr) (payloadLen : UInt32)
    (nowNs : UInt64) : FlowScheduler :=
  match s.flowLookup.lookup key with
  | none => s
  | some id =>
    match s.getFlow id with
    | none => s
    | some flow =>
      if flow.stateless ∨ flow.protocol ≠ "tcp" then s
      else
        -- `tcp_state` and `tcp_state_machine` are null together
        match flow.tcpState with
        | none => s
        | some conn =>
          s.setFlow id { flow with tcpState := some (conn.receive tcpHdr payloadLen nowNs) }

/-! ## Histories of control calls -/

/-- The calls that change which flows there are and which of them run. -/
inductive Op where
  | addFlow (config : FlowSettings) (nowNs : UInt64)
  | removeFlow (flowId : UInt32)
  | clearAllFlows
  | startFlow (flowId : UInt32) (nowNs bucketNowNs : UInt64)
  | stopFlow (flowId : UInt32)

/-- The scheduler after one call. -/
def step (d : Dpdk) (s : FlowScheduler) : Op → FlowScheduler
  | .addFlow config nowNs => (s.addFlow d config nowNs).2
  | .removeFlow flowId => (s.removeFlow flowId).2
  | .clearAllFlows => s.clearAllFlows
  | .startFlow flowId nowNs bucketNowNs => (s.startFlow flowId nowNs bucketNowNs).2
  | .stopFlow flowId => (s.stopFlow flowId).2

end FlowScheduler

end TrafficGen
