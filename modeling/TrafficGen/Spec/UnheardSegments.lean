import TrafficGen.ForStd.Unwinding
import TrafficGen.Spec.FlowCoherence
import TrafficGen.Spec.StatsReset

/-!
# Nothing received changes what is sent

`handle_tcp_rx` changes the state of a connection, its receive numbers and the time of its last
activity, and the transmit side reads none of these. So a run sends what the same run sends with all
received segments left out: the same packets, byte for byte, in the same mbufs, of which the NIC
takes the same, and with the same statistics.

## Key results

- `Alike.getReadyFlows`: flows that differ in what they received are ready together
- `Worker.Alike.processFlows`: a pass over such flows puts the same packets in the burst
- `System.sent_without_receiving`: the packets of a run do not depend on what it receives
-/

namespace TrafficGen

variable {r : Rng}

/-! ## Flows up to what they received -/

namespace FlowConfigInternal

/-- A flow without what its connection received. -/
def unreceived (f : FlowConfigInternal) : FlowConfigInternal :=
  { f with tcpState := f.tcpState.map (·.unreceived) }

/-- Such flows differ in their connections only. -/
theorem exists_of_unreceived {f g : FlowConfigInternal} (h : f.unreceived = g.unreceived) :
    ∃ o, g = { f with tcpState := o } ∧
      f.tcpState.map (·.unreceived) = o.map (·.unreceived) := by
  refine ⟨g.tcpState, ?_, congrArg (·.tcpState) h⟩
  calc g = { g.unreceived with tcpState := g.tcpState } := rfl
    _ = { f.unreceived with tcpState := g.tcpState } := by rw [h]

end FlowConfigInternal

namespace FlowScheduler

/-- Two tables of the same flows, but for what these received. -/
structure Alike (s t : FlowScheduler) : Prop where
  srcMac : s.srcMac = t.srcMac
  flows : ∀ id, (s.getFlow id).map (·.unreceived) = (t.getFlow id).map (·.unreceived)

namespace Alike

variable {s t : FlowScheduler} {d : Dpdk} {id : UInt32}

theorem refl (s : FlowScheduler) : s.Alike s := ⟨rfl, fun _ => rfl⟩

/-- Either both tables have a flow under an id, or neither has. -/
theorem cases (h : s.Alike t) (id : UInt32) :
    (s.getFlow id = none ∧ t.getFlow id = none) ∨
    ∃ f o, s.getFlow id = some f ∧ t.getFlow id = some { f with tcpState := o } ∧
      f.tcpState.map (·.unreceived) = o.map (·.unreceived) := by
  have hflow := h.flows id
  cases hs : s.getFlow id with
  | none =>
    rw [hs, Option.map_none, eq_comm, Option.map_eq_none_iff] at hflow
    exact .inl ⟨rfl, hflow⟩
  | some f =>
    rw [hs, Option.map_some, eq_comm, Option.map_eq_some_iff] at hflow
    obtain ⟨g, hg, heq⟩ := hflow
    obtain ⟨o, rfl, ho⟩ := FlowConfigInternal.exists_of_unreceived heq.symm
    exact .inr ⟨f, o, rfl, hg, ho⟩

theorem isSome_getFlow (h : s.Alike t) (id : UInt32) :
    (s.getFlow id).isSome = (t.getFlow id).isSome := by
  rw [← Option.isSome_map, h.flows, Option.isSome_map]

theorem setFlow (h : s.Alike t) {f g : FlowConfigInternal} (hf : f.unreceived = g.unreceived) :
    (s.setFlow id f).Alike (t.setFlow id g) where
  srcMac := h.srcMac
  flows id' := by
    by_cases hid : id' = id
    · rw [hid, getFlow_setFlow_self, getFlow_setFlow_self, Option.map_some, Option.map_some, hf]
    · rw [getFlow_setFlow_ne _ _ hid, getFlow_setFlow_ne _ _ hid, h.flows]

theorem addFlow (h : s.Alike t) (config : FlowSettings) (nowNs : UInt64) :
    (s.addFlow d config nowNs).1 = (t.addFlow d config nowNs).1 ∧
      (s.addFlow d config nowNs).2.Alike (t.addFlow d config nowNs).2 := by
  rw [FlowScheduler.addFlow, FlowScheduler.addFlow, h.srcMac]
  cases newFlow d t.srcMac config nowNs with
  | none => exact ⟨rfl, h⟩
  | some f =>
    have hset : (s.setFlow config.flowId f).Alike (t.setFlow config.flowId f) := h.setFlow rfl
    exact ⟨rfl, rfl, hset.flows⟩

theorem startFlow (h : s.Alike t) (id : UInt32) (nowNs bucketNowNs : UInt64) :
    (s.startFlow id nowNs bucketNowNs).2.Alike (t.startFlow id nowNs bucketNowNs).2 := by
  rcases h.cases id with ⟨hs, ht⟩ | ⟨f, o, hs, ht, ho⟩
  · simp only [FlowScheduler.startFlow, hs, ht]
    exact h
  · simp only [FlowScheduler.startFlow, hs, ht]
    exact h.setFlow (by simp only [FlowConfigInternal.unreceived, ho])

theorem stopFlow (h : s.Alike t) (id : UInt32) :
    (s.stopFlow id).2.Alike (t.stopFlow id).2 := by
  rcases h.cases id with ⟨hs, ht⟩ | ⟨f, o, hs, ht, ho⟩
  · simp only [FlowScheduler.stopFlow, hs, ht]
    exact h
  · simp only [FlowScheduler.stopFlow, hs, ht]
    exact h.setFlow (by simp only [FlowConfigInternal.unreceived, ho])

/-- A received segment leaves no trace. -/
theorem handleTcpRx (h : s.Alike t) (key : FlowKey) (hdr : RteTcpHdr) (payloadLen : UInt32)
    (nowNs : UInt64) : (s.handleTcpRx key hdr payloadLen nowNs).Alike t := by
  rw [FlowScheduler.handleTcpRx]
  split
  · exact h
  · next id hid =>
    split
    · exact h
    · next f hf =>
      split
      · exact h
      · split
        · exact h
        · next conn hconn =>
          -- only what `unreceived` forgets has changed
          refine ⟨h.srcMac, fun id' => ?_⟩
          rw [← h.flows]
          by_cases hid' : id' = id
          · rw [hid', getFlow_setFlow_self, hf, Option.map_some, Option.map_some]
            simp only [FlowConfigInternal.unreceived, hconn, Option.map_some,
              conn.unreceived_receive]
          · rw [getFlow_setFlow_ne _ _ hid']

/-! ### Walks -/

theorem walk_eq (h : s.Alike t) {order : List UInt32} (horder : ∀ id ∈ s.flows.keys, id ∈ order) :
    walk order s.flows.keys = walk order t.flows.keys := by
  refine walk_congr horder fun id => ?_
  rw [← AList.mem_keys, ← AList.mem_keys, ← AList.lookup_isSome, ← AList.lookup_isSome]
  exact Bool.eq_iff_iff.mp (h.isSome_getFlow id)

theorem getActiveFlows (h : s.Alike t) {order : List UInt32}
    (horder : ∀ id ∈ s.flows.keys, id ∈ order) :
    s.getActiveFlows order = t.getActiveFlows order := by
  rw [FlowScheduler.getActiveFlows, FlowScheduler.getActiveFlows, h.walk_eq horder]
  refine List.filter_congr fun id _ => ?_
  rcases h.cases id with ⟨hs, ht⟩ | ⟨f, o, hs, ht, -⟩
  · rw [hs, ht]
  · rw [hs, ht]
    rfl

theorem getAllFlowsSnapshot (h : s.Alike t) {order : List UInt32}
    (horder : ∀ id ∈ s.flows.keys, id ∈ order) :
    s.getAllFlowsSnapshot order = t.getAllFlowsSnapshot order := by
  rw [FlowScheduler.getAllFlowsSnapshot, FlowScheduler.getAllFlowsSnapshot, h.walk_eq horder]
  refine List.filterMap_congr fun id _ => ?_
  rcases h.cases id with ⟨hs, ht⟩ | ⟨f, o, hs, ht, -⟩
  · rw [hs, ht]
  · rw [hs, ht]
    rfl

/-- The rest of a walk takes tokens from the same flows. -/
theorem getReadyFlowsLoop (maxFlows : UInt32) (nowNs : UInt64) (bucketNowNs : UInt32 → UInt64)
    (ids ready : List UInt32) (h : s.Alike t) :
    (getReadyFlowsLoop maxFlows nowNs bucketNowNs ids s ready).1 =
        (FlowScheduler.getReadyFlowsLoop maxFlows nowNs bucketNowNs ids t ready).1 ∧
      (FlowScheduler.getReadyFlowsLoop maxFlows nowNs bucketNowNs ids s ready).2.Alike
        (FlowScheduler.getReadyFlowsLoop maxFlows nowNs bucketNowNs ids t ready).2 := by
  induction ids generalizing s t ready with
  | nil => exact ⟨rfl, h⟩
  | cons id ids ih =>
    rcases h.cases id with ⟨hs, ht⟩ | ⟨f, o, hs, ht, ho⟩
    · simp only [FlowScheduler.getReadyFlowsLoop, hs, ht]
      exact ih ready h
    · -- neither the expiry nor the bucket of a flow has to do with its connection
      have hexpired : ({ f with tcpState := o } : FlowConfigInternal).isExpired nowNs =
        f.isExpired nowNs := rfl
      simp only [FlowScheduler.getReadyFlowsLoop, hs, ht, hexpired]
      split
      · exact ih ready h
      · split
        · exact ih ready (h.setFlow (by simp only [FlowConfigInternal.unreceived, ho]))
        · have hnext : (s.setFlow id { f with
                tokenBucket := (f.tokenBucket.tryConsume 1 (bucketNowNs id)).2 }).Alike
              (t.setFlow id { f with
                tcpState := o
                tokenBucket := (f.tokenBucket.tryConsume 1 (bucketNowNs id)).2 }) :=
            h.setFlow (by simp only [FlowConfigInternal.unreceived, ho])
          generalize (if (f.tokenBucket.tryConsume 1 (bucketNowNs id)).1 > 0 then ready ++ [id]
            else ready) = ready'
          split
          · exact ⟨rfl, hnext⟩
          · exact ih _ hnext

theorem getReadyFlows (h : s.Alike t) {order : List UInt32}
    (horder : ∀ id ∈ s.flows.keys, id ∈ order) (maxFlows : UInt32) (nowNs : UInt64)
    (bucketNowNs : UInt32 → UInt64) :
    (s.getReadyFlows maxFlows order nowNs bucketNowNs).1 =
        (t.getReadyFlows maxFlows order nowNs bucketNowNs).1 ∧
      (s.getReadyFlows maxFlows order nowNs bucketNowNs).2.Alike
        (t.getReadyFlows maxFlows order nowNs bucketNowNs).2 := by
  rw [FlowScheduler.getReadyFlows, FlowScheduler.getReadyFlows, h.walk_eq horder]
  exact getReadyFlowsLoop maxFlows nowNs bucketNowNs _ [] h

end Alike

end FlowScheduler

/-! ## Passes -/

/-- What the NIC is handed of a packet: its flow, its mbuf, and the mbuf's contents. -/
def BuiltPacket.handed (b : BuiltPacket) : UInt32 × MbufId × Mbuf := (b.flowId, b.mbuf, b.frame)

/-- Two passes that differ in what the flows received. -/
structure Pass.Alike (p q : Pass r) : Prop where
  scheduler : p.scheduler.Alike q.scheduler
  heap : p.heap = q.heap
  mutator : p.mutator = q.mutator
  mbufs : p.mbufs = q.mbufs
  mbufCount : p.mbufCount = q.mbufCount
  built : p.built.map (·.handed) = q.built.map (·.handed)

namespace Worker

variable {cfg : WorkerConfig} {d : Dpdk} {imix : IMIXEngine} {flowId : UInt32} {turn : Turn}

/-- The numbers a segment carries, and the payload it moves `send_seq` past, do not depend on what
    the connection received. -/
theorem rewriteStateful_unreceived (mb : Mbuf) {conn conn' : TCPConnectionState}
    (h : conn.unreceived = conn'.unreceived) :
    (rewriteStateful d mb conn).1 = (rewriteStateful d mb conn').1 ∧
      (rewriteStateful d mb conn).2.unreceived = (rewriteStateful d mb conn').2.unreceived := by
  have hseq : conn.sendSeq = conn'.sendSeq := congrArg (·.sendSeq) h
  have hack : conn.sendAck = conn'.sendAck := congrArg (·.sendAck) h
  have hmoved : ∀ sendSeq sendAck,
      ({ conn with sendSeq, sendAck } : TCPConnectionState).unreceived =
        ({ conn' with sendSeq, sendAck } : TCPConnectionState).unreceived :=
    fun sendSeq sendAck => congrArg (fun conn => { conn with sendSeq, sendAck }) h
  simp only [rewriteStateful, hseq, hack, true_and]
  exact hmoved _ conn'.sendAck

theorem finishPacket_unreceived (cfg : WorkerConfig) (d : Dpdk) (mb : Mbuf)
    {flow : FlowConfigInternal} {o : Option TCPConnectionState} (timestampNs : UInt64)
    (h : flow.tcpState.map (·.unreceived) = o.map (·.unreceived)) :
    (finishPacket cfg d mb flow timestampNs).1 =
        (finishPacket cfg d mb { flow with tcpState := o } timestampNs).1 ∧
      (finishPacket cfg d mb flow timestampNs).2.unreceived =
        (finishPacket cfg d mb { flow with tcpState := o } timestampNs).2.unreceived := by
  cases hstate : flow.tcpState with
  | none =>
    -- without a connection the two flows are the same
    rw [hstate, Option.map_none, eq_comm, Option.map_eq_none_iff] at h
    subst h
    rw [← hstate]
    exact ⟨rfl, rfl⟩
  | some conn =>
    rw [hstate, Option.map_some, eq_comm, Option.map_eq_some_iff] at h
    obtain ⟨conn', rfl, hconn⟩ := h
    obtain ⟨hmb, hnext⟩ := rewriteStateful_unreceived (d := d) mb hconn
    have hstateful : FlowConfigInternal.isStatefulTcp { flow with tcpState := some conn' } =
        flow.isStatefulTcp := by
      simp only [FlowConfigInternal.isStatefulTcp, hstate, Option.isSome_some]
    simp only [finishPacket, hstate, hstateful]
    split
    · rw [hmb]
      exact ⟨rfl, by simp only [FlowConfigInternal.unreceived, Option.map_some, hnext]⟩
    · exact ⟨rfl, by simp only [FlowConfigInternal.unreceived, hstate, Option.map_some, hconn]⟩

end Worker

namespace Pass.Alike

variable {p q : Pass r} {cfg : WorkerConfig} {d : Dpdk} {imix : IMIXEngine} {flowId : UInt32}
  {turn : Turn}

theorem buildPacket (h : p.Alike q) {flow : FlowConfigInternal} {o : Option TCPConnectionState}
    (hflow : flow.tcpState.map (·.unreceived) = o.map (·.unreceived)) (m : MbufId) :
    (Worker.buildPacket cfg d imix flowId flow turn m p).Alike
      (Worker.buildPacket cfg d imix flowId { flow with tcpState := o } turn m q) := by
  have hsize : Worker.choosePacketSize { flow with tcpState := o } imix turn.imixDraw =
      Worker.choosePacketSize flow imix turn.imixDraw := rfl
  simp only [Worker.buildPacket, hsize, ← h.mutator, ← h.heap]
  rcases p.mutator.cloneAndMutate d (p.heap m) { flow.templatePacket with
    totalSize := Worker.choosePacketSize flow imix turn.imixDraw } 0 true with ⟨ok, mb, mutator⟩
  obtain ⟨hframe, hafter⟩ := Worker.finishPacket_unreceived cfg d mb turn.timestampNs hflow
  cases ok with
  | true =>
    simp only [if_true]
    exact
      { scheduler := h.scheduler.setFlow hafter
        heap := by simp only [hframe]
        mutator := rfl
        mbufs := h.mbufs
        mbufCount := congrArg (· + 1) h.mbufCount
        built := by
          rw [List.map_append, List.map_append, h.built]
          simp only [List.map_singleton, BuiltPacket.handed, hframe] }
  | false =>
    simp only [Bool.false_eq_true, if_false]
    exact
      { scheduler := h.scheduler
        heap := rfl
        mutator := rfl
        mbufs := by simp only [h.mbufs, h.mbufCount]
        mbufCount := h.mbufCount
        built := h.built }

theorem allocateSlot (h : p.Alike q) (turn : Turn) :
    (Worker.allocateSlot turn p).1 = (Worker.allocateSlot turn q).1 ∧
      (Worker.allocateSlot turn p).2.Alike (Worker.allocateSlot turn q).2 := by
  simp only [Worker.allocateSlot, ← h.mbufs, ← h.mbufCount]
  cases turn.alloc with
  | filled m =>
    exact ⟨rfl,
      { scheduler := h.scheduler
        heap := by simp only [h.heap]
        mutator := h.mutator
        mbufs := rfl
        mbufCount := rfl
        built := h.built }⟩
  | failed errno =>
    exact ⟨rfl,
      { scheduler := h.scheduler
        heap := h.heap
        mutator := h.mutator
        mbufs := rfl
        mbufCount := rfl
        built := h.built }⟩

theorem serveFlow (h : p.Alike q) :
    (Worker.serveFlow cfg d imix flowId turn p).Alike
      (Worker.serveFlow cfg d imix flowId turn q) := by
  rcases h.scheduler.cases flowId with ⟨hp, hq⟩ | ⟨f, o, hp, hq, ho⟩
  · simp only [Worker.serveFlow, hp, hq]
    exact h
  · obtain ⟨hallocated, hslot⟩ := h.allocateSlot turn
    simp only [Worker.serveFlow, hp, hq, ← hallocated, ← hslot.mbufs, ← hslot.mbufCount]
    split
    · exact h
    · split
      · exact hslot
      · split
        · exact hslot
        · exact hslot.buildPacket ho _

theorem serveFlows (ready : List (UInt32 × Turn)) (h : p.Alike q) :
    (Worker.serveFlows cfg d imix ready p).Alike (Worker.serveFlows cfg d imix ready q) := by
  induction ready generalizing p q with
  | nil => exact h
  | cons x ready ih =>
    rw [Worker.serveFlows, Worker.serveFlows, ← h.mbufCount]
    split
    · exact h
    · exact ih h.serveFlow

end Pass.Alike

/-- Two generators that differ in what their flows received. -/
structure System.Alike (sys sys' : System) : Prop where
  scheduler : sys.scheduler.Alike sys'.scheduler
  imixEngine : sys.imixEngine = sys'.imixEngine
  metricsCollector : sys.metricsCollector = sys'.metricsCollector
  heap : sys.heap = sys'.heap

/-- What the NIC is handed of the packets of bursts, each with whether it takes it. -/
def handedOver (outcomes : List (BuiltPacket × Bool)) : List ((UInt32 × MbufId × Mbuf) × Bool) :=
  outcomes.map fun x => (x.1.handed, x.2)

namespace System.Alike

variable {sys sys' : System} {cfg : WorkerConfig} {d : Dpdk}

/-- The burst is built and sent alike. -/
theorem sendReady (h : sys.Alike sys') (time : UInt64) (ready : List (UInt32 × Turn))
    (tx : TxAnswer) :
    (Worker.sendReady cfg d r sys time ready tx).1.Alike
        (Worker.sendReady cfg d r sys' time ready tx).1 ∧
      handedOver (Worker.sendReady cfg d r sys time ready tx).2.outcomes =
        handedOver (Worker.sendReady cfg d r sys' time ready tx).2.outcomes := by
  have hpass :
      (Worker.serveFlows cfg d sys.imixEngine ready (Worker.startPass cfg r sys time)).Alike
        (Worker.serveFlows cfg d sys.imixEngine ready (Worker.startPass cfg r sys' time)) :=
    Pass.Alike.serveFlows ready
      { scheduler := h.scheduler
        heap := h.heap
        mutator := rfl
        mbufs := rfl
        mbufCount := rfl
        built := rfl }
  -- which packets the NIC takes depends on their number only
  have houtcomes : ∀ report : PassReport, handedOver report.outcomes =
      (report.built.map (·.handed)).mapIdx fun i b => (b, decide (i < report.accepted.length)) := by
    intro report
    refine List.ext_getElem? fun i => ?_
    simp only [handedOver, PassReport.outcomes, List.getElem?_map, List.getElem?_mapIdx,
      Option.map_map]
    rfl
  rw [houtcomes, houtcomes]
  simp only [Worker.sendReady, ← h.imixEngine, ← h.metricsCollector, ← hpass.heap, ← hpass.mbufs,
    ← hpass.mbufCount, hpass.built]
  exact
    ⟨{ scheduler := hpass.scheduler
       imixEngine := rfl
       metricsCollector := rfl
       heap := rfl }, rfl⟩

theorem processFlows (h : sys.Alike sys') {input : Worker.PassInput}
    (horder : ∀ id ∈ sys.scheduler.flows.keys, id ∈ input.order) :
    (Worker.processFlows cfg d r sys input).1.Alike (Worker.processFlows cfg d r sys' input).1 ∧
      handedOver (Worker.processFlows cfg d r sys input).2.outcomes =
        handedOver (Worker.processFlows cfg d r sys' input).2.outcomes := by
  obtain ⟨hready, hscheduler⟩ := h.scheduler.getReadyFlows horder cfg.txBurstSize.toUInt32
    input.nowNs input.bucketNowNs
  rw [Worker.processFlows_eq_sendReady, Worker.processFlows_eq_sendReady]
  have hturns : (Worker.readyTurns cfg sys input).1 = (Worker.readyTurns cfg sys' input).1 := by
    simp only [Worker.readyTurns, hready]
  have hchosen : Alike { sys with scheduler := (Worker.readyTurns cfg sys input).2 }
      { sys' with scheduler := (Worker.readyTurns cfg sys' input).2 } :=
    { scheduler := hscheduler
      imixEngine := h.imixEngine
      metricsCollector := h.metricsCollector
      heap := h.heap }
  rw [hturns]
  exact hchosen.sendReady input.time _ input.tx

/-! ### Requests -/

theorem configureFlows (h : sys.Alike sys') (inetAton : String → Option UInt32)
    (request : FlowConfig) (nowNs : Nat → UInt64) :
    (Server.configureFlows inetAton d sys request nowNs).2.Alike
      (Server.configureFlows inetAton d sys' request nowNs).2 := by
  have hloop := List.foldl_rel
    (f := fun res (x : Flow × Nat) =>
      Server.addFlow inetAton d request.stateless res x.1 (nowNs x.2))
    (g := fun res (x : Flow × Nat) =>
      Server.addFlow inetAton d request.stateless res x.1 (nowNs x.2))
    (r := fun res res' : Server.AddResult => res.scheduler.Alike res'.scheduler)
    (l := request.flows.zipIdx) (a := { scheduler := sys.scheduler })
    (b := { scheduler := sys'.scheduler }) h.scheduler fun x _ res res' hres => by
      obtain ⟨hadded, hscheduler⟩ := hres.addFlow (d := d)
        (Server.internalConfig inetAton request.stateless x.1) (nowNs x.2)
      simp only [Server.addFlow, hadded]
      split
      · exact hscheduler
      · exact hscheduler
  simp only [Server.configureFlows]
  split
  all_goals
    split
    all_goals exact
      { scheduler := hloop
        imixEngine := h.imixEngine
        metricsCollector := h.metricsCollector
        heap := h.heap }

theorem startTraffic (h : sys.Alike sys') (request : StartRequest) {order : List UInt32}
    (horder : ∀ id ∈ sys.scheduler.flows.keys, id ∈ order) (nowNs : UInt64)
    (clock : UInt32 → Server.StartClock) :
    (Server.startTraffic sys request order nowNs clock).2.Alike
      (Server.startTraffic sys' request order nowNs clock).2 := by
  simp only [Server.startTraffic, ← h.scheduler.walk_eq horder, ← h.metricsCollector]
  split
  · exact
      { scheduler := h.scheduler
        imixEngine := h.imixEngine
        metricsCollector := rfl
        heap := h.heap }
  · exact
      { scheduler := List.foldl_rel h.scheduler fun id _ _ _ hs => hs.startFlow id _ _
        imixEngine := h.imixEngine
        metricsCollector := rfl
        heap := h.heap }

theorem stopTraffic (h : sys.Alike sys') {order : List UInt32}
    (horder : ∀ id ∈ sys.scheduler.flows.keys, id ∈ order) :
    (Server.stopTraffic sys order).2.Alike (Server.stopTraffic sys' order).2 := by
  simp only [Server.stopTraffic, ← h.scheduler.getActiveFlows horder, ← h.metricsCollector]
  exact
    { scheduler := List.foldl_rel h.scheduler fun id _ _ _ hs => hs.stopFlow id
      imixEngine := h.imixEngine
      metricsCollector := rfl
      heap := h.heap }

theorem configureIMIX (h : sys.Alike sys') (request : IMIXConfig) :
    (Server.configureIMIX sys request).2.Alike (Server.configureIMIX sys' request).2 := by
  simp only [Server.configureIMIX, ← h.imixEngine]
  split
  all_goals exact
    { scheduler := h.scheduler
      imixEngine := rfl
      metricsCollector := h.metricsCollector
      heap := h.heap }

theorem getStats (h : sys.Alike sys') (request : StatsRequest) {order : List UInt32}
    (horder : ∀ id ∈ sys.scheduler.flows.keys, id ∈ order) (clock : Server.StatsClock) :
    (Server.getStats sys request order clock).1 = (Server.getStats sys' request order clock).1 := by
  simp only [Server.getStats, h.metricsCollector, h.scheduler.getAllFlowsSnapshot horder]

end System.Alike

/-! ## Runs -/

namespace System

/-- The walks of an event name every flow of the table. -/
def Event.Walks (sys : System) : Event → Prop
  | .startTraffic _ order _ _ => ∀ id ∈ sys.scheduler.flows.keys, id ∈ order
  | .stopTraffic order => ∀ id ∈ sys.scheduler.flows.keys, id ∈ order
  | .workerPass _ input => ∀ id ∈ sys.scheduler.flows.keys, id ∈ input.order
  | _ => True

-- the instance is named: another one would go through all ids there are
instance (sys : System) : ∀ e, Decidable (Event.Walks sys e)
  | .startTraffic _ order _ _ => List.decidableBAll (· ∈ order) sys.scheduler.flows.keys
  | .stopTraffic order => List.decidableBAll (· ∈ order) sys.scheduler.flows.keys
  | .workerPass _ input => List.decidableBAll (· ∈ input.order) sys.scheduler.flows.keys
  | .configureFlows _ _ => inferInstanceAs (Decidable True)
  | .configureIMIX _ => inferInstanceAs (Decidable True)
  | .receive _ _ _ _ => inferInstanceAs (Decidable True)

/-- A segment is received. -/
def Event.receives : Event → Bool
  | .receive _ _ _ _ => true
  | _ => false

variable {inetAton : String → Option UInt32} {d : Dpdk} {sys : System} {events : List Event}

theorem unwinding_receives (inetAton : String → Option UInt32) (d : Dpdk) (r : Rng) :
    Run.Unwinding (step inetAton d r) (fun sys e => handedOver (sys.outcomes d r e)) Event.Walks
      Event.receives Alike where
  skip sys sys' e h _ he := by
    cases e with
    | receive key tcpHdr payloadLen nowNs =>
      exact
        ⟨{ scheduler := h.scheduler.handleTcpRx key tcpHdr payloadLen nowNs
           imixEngine := h.imixEngine
           metricsCollector := h.metricsCollector
           heap := h.heap }, rfl⟩
    | configureFlows | configureIMIX | startTraffic | stopTraffic | workerPass => cases he
  both sys sys' e h horder he := by
    cases e with
    | configureFlows request nowNs => exact ⟨h.configureFlows inetAton request nowNs, rfl⟩
    | configureIMIX request => exact ⟨h.configureIMIX request, rfl⟩
    | startTraffic request order nowNs clock =>
      exact ⟨h.startTraffic request horder nowNs clock, rfl⟩
    | stopTraffic order => exact ⟨h.stopTraffic horder, rfl⟩
    | workerPass cfg input => exact h.processFlows horder
    | receive => cases he

/-- **Nothing received changes what is sent.** Leave the received segments out of a run, and the
    bursts hold the same packets, in the same mbufs and of the same flows, the NIC takes the same of
    them, and `GetStats` has the same answer afterwards. -/
theorem sent_without_receiving (h : Run.Each (step inetAton d r) Event.Walks sys events) :
    let unheard := events.filter (!·.receives)
    handedOver (runOutcomes inetAton d r sys events) =
        handedOver (runOutcomes inetAton d r sys unheard) ∧
      ∀ request order clock,
        (∀ id ∈ (Run.run (step inetAton d r) sys events).scheduler.flows.keys, id ∈ order) →
        (Server.getStats (Run.run (step inetAton d r) sys events) request order clock).1 =
          (Server.getStats (Run.run (step inetAton d r) sys unheard) request order clock).1 := by
  intro unheard
  have hsame : sys.Alike sys := ⟨.refl _, rfl, rfl, rfl⟩
  obtain ⟨hrun, hcollect⟩ := (unwinding_receives inetAton d r).run_filter hsame h
  rw [handedOver, handedOver, runOutcomes, Run.map_collect, Run.map_collect]
  exact ⟨hcollect, fun request order clock horder => hrun.getStats request horder clock⟩

/-- A segment for flow 2 before a pass that sends a packet of it. -/
theorem sent_without_receiving_opened :
    handedOver (runOutcomes Server.sampleAton .reference .counting opened
        [.dataAt 5, .passAt 1000000000 1]) =
      handedOver (runOutcomes Server.sampleAton .reference .counting opened
        [.passAt 1000000000 1]) :=
  have hwalks : Run.Each (step Server.sampleAton .reference .counting) Event.Walks opened
      [.dataAt 5, .passAt 1000000000 1] := by decide +kernel
  (sent_without_receiving hwalks).1

end System

end TrafficGen
