import TrafficGen.Core.FlowScheduler

/-!
# Flow objects

The table of `core/scheduler/flow_scheduler.cpp` as threads share it: `flows_` has a `shared_ptr`
to each flow, and a worker keeps the flow it has asked for even when the table has dropped it. Each
call is one critical section of `FlowScheduler::mutex_`.
-/

namespace TrafficGen

/-- A `shared_ptr` to a flow: its place among all flows ever made. -/
abbrev FlowPtr := Nat

/-- `FlowScheduler`, its flows behind their pointers. -/
structure FlowObjects where
  flows : AList fun _ : UInt32 => FlowPtr
  flowLookup : AList fun _ : FlowKey => UInt32
  srcMac : List UInt8
  /-- Every flow ever made, as it is now. -/
  objects : List FlowConfigInternal

namespace FlowObjects

/-- A new scheduler, given the source MAC of the TX port. -/
def new (srcMac : List UInt8) : FlowObjects where
  flows := ∅
  flowLookup := ∅
  srcMac := srcMac
  objects := []

/-- Get flow configuration: a pointer to it. -/
def getFlow (s : FlowObjects) (flowId : UInt32) : Option FlowPtr :=
  s.flows.lookup flowId

/-- The flow behind a pointer. -/
def deref (s : FlowObjects) (flow : FlowPtr) : Option FlowConfigInternal :=
  s.objects[flow]?

/-- The flow of the table under an id, and the pointer to it. -/
def find (s : FlowObjects) (flowId : UInt32) : Option (FlowPtr × FlowConfigInternal) :=
  (s.getFlow flowId).bind fun flow => (s.deref flow).map (flow, ·)

/-- The flow behind a pointer has changed. -/
def store (s : FlowObjects) (flow : FlowPtr) (f : FlowConfigInternal) : FlowObjects :=
  { s with objects := s.objects.set flow f }

/-- Add flow configuration. A flow of the same id leaves the table. -/
def addFlow (s : FlowObjects) (d : Dpdk) (config : FlowSettings) (nowNs : UInt64) :
    Bool × FlowObjects :=
  match FlowScheduler.newFlow d s.srcMac config nowNs with
  | none => (false, s)
  | some stored =>
    let lookup := s.flowLookup.insert stored.flowKey config.flowId
    let lookup := lookup.insert stored.flowKey.reverse config.flowId
    (true, { s with
      flows := s.flows.insert config.flowId s.objects.length
      flowLookup := lookup
      objects := s.objects ++ [stored] })

/-- Start flow. -/
def startFlow (s : FlowObjects) (flowId : UInt32) (nowNs bucketNowNs : UInt64) :
    Bool × FlowObjects :=
  match s.find flowId with
  | none => (false, s)
  | some (flow, f) => (true, s.store flow { f with
      startTimeNs := nowNs, active := true, tokenBucket := f.tokenBucket.reset bucketNowNs })

/-- Stop flow. -/
def stopFlow (s : FlowObjects) (flowId : UInt32) : Bool × FlowObjects :=
  match s.find flowId with
  | none => (false, s)
  | some (flow, f) => (true, s.store flow { f with active := false })

/-- Get all active flows. -/
def getActiveFlows (s : FlowObjects) (order : List UInt32) : List UInt32 :=
  (FlowScheduler.walk order s.flows.keys).filter fun id => (s.find id).any (·.2.active)

/-- The loop of `get_ready_flows` over the ids still to visit. -/
def getReadyFlowsLoop (maxFlows : UInt32) (nowNs : UInt64) (bucketNowNs : UInt32 → UInt64) :
    List UInt32 → FlowObjects → List UInt32 → List UInt32 × FlowObjects
  | [], s, readyFlows => (readyFlows, s)
  | id :: ids, s, readyFlows =>
    match s.find id with
    | none => getReadyFlowsLoop maxFlows nowNs bucketNowNs ids s readyFlows
    | some (flow, f) =>
      if !f.active then getReadyFlowsLoop maxFlows nowNs bucketNowNs ids s readyFlows
      else if f.isExpired nowNs then
        getReadyFlowsLoop maxFlows nowNs bucketNowNs ids
          (s.store flow { f with active := false }) readyFlows
      else
        let (consumed, tokenBucket) := f.tokenBucket.tryConsume 1 (bucketNowNs id)
        let s := s.store flow { f with tokenBucket := tokenBucket }
        let readyFlows := if consumed > 0 then readyFlows ++ [id] else readyFlows
        if readyFlows.length ≥ maxFlows.toNat then (readyFlows, s)
        else getReadyFlowsLoop maxFlows nowNs bucketNowNs ids s readyFlows

/-- Get flows ready for transmission. -/
def getReadyFlows (s : FlowObjects) (maxFlows : UInt32) (order : List UInt32) (nowNs : UInt64)
    (bucketNowNs : UInt32 → UInt64) : List UInt32 × FlowObjects :=
  getReadyFlowsLoop maxFlows nowNs bucketNowNs (FlowScheduler.walk order s.flows.keys) s []

/-- Handle an incoming TCP packet. -/
def handleTcpRx (s : FlowObjects) (key : FlowKey) (tcpHdr : RteTcpHdr) (payloadLen : UInt32)
    (nowNs : UInt64) : FlowObjects :=
  match s.flowLookup.lookup key with
  | none => s
  | some id =>
    match s.find id with
    | none => s
    | some (flow, f) =>
      if f.stateless ∨ f.protocol ≠ "tcp" then s
      else
        match f.tcpState with
        | none => s
        | some conn =>
          s.store flow { f with tcpState := some (conn.receive tcpHdr payloadLen nowNs) }

end FlowObjects

end TrafficGen
