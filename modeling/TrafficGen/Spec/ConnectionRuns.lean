import TrafficGen.Control.Server
import TrafficGen.ForStd.SequenceSpace
import TrafficGen.Spec.PassInvariant
import TrafficGen.Spec.TcpSegments

/-!
# Connections over whole runs

What happens to the connections while requests, worker passes and received segments come
in any order. A pass only moves `send_seq`, and it numbers every packet it builds from
it (`Follows`). No event drives `SEND_SYN`, so every connection stays closed, and
nothing ever assigns `send_ack`.

## Key results

- `scheduler_step_induct`: what every scheduler call preserves, an event preserves
- `follows_processFlows`: a pass numbers the packets of each connection in turn
- `invariant_of_reachable`: connections of a reachable generator are closed
- `counted_step`: one event, seen from one connection
-/

namespace TrafficGen

open SequenceSpace

variable {r : Rng}

/-! ## One pass -/

/-- A connection without what sending changes. -/
def TCPConnectionState.unsent (conn : TCPConnectionState) : TCPConnectionState :=
  { conn with sendSeq := 0 }

/-- Connections that differ in `send_seq` only have the same state and acknowledge the same. -/
theorem TCPConnectionState.exists_of_unsent {o o' : Option TCPConnectionState}
    (h : o'.map (·.unsent) = o.map (·.unsent)) {conn' : TCPConnectionState}
    (hconn' : o' = some conn') :
    ∃ conn, o = some conn ∧ conn.state = conn'.state ∧ conn.sendAck = conn'.sendAck := by
  rw [hconn', Option.map_some, eq_comm, Option.map_eq_some_iff] at h
  obtain ⟨conn, hconn, heq⟩ := h
  exact ⟨conn, hconn, congrArg (·.state) heq, congrArg (·.sendAck) heq⟩

/-- The segments of the flow `id` among some packets: sequence number and payload length, and
    whether the NIC took them. -/
def segmentsOf (id : UInt32) (outcomes : List (BuiltPacket × Bool)) :
    List ((UInt32 × UInt32) × Bool) :=
  (outcomes.filter (·.1.flowId = id)).map fun x => ((x.1.seqNumber, x.1.payloadLen), x.2)

/-- The segments of the flow `id` among the packets built, in order. -/
def builtSegments (id : UInt32) (built : List BuiltPacket) : List (UInt32 × UInt32) :=
  (built.filter (·.flowId = id)).map fun b => (b.seqNumber, b.payloadLen)

theorem segmentsOf_append (id : UInt32) (xs ys : List (BuiltPacket × Bool)) :
    segmentsOf id (xs ++ ys) = segmentsOf id xs ++ segmentsOf id ys := by
  rw [segmentsOf, List.filter_append, List.map_append]
  rfl

theorem map_segmentsOf (id : UInt32) (outcomes : List (BuiltPacket × Bool)) :
    (segmentsOf id outcomes).map (·.1) = builtSegments id (outcomes.map (·.1)) := by
  simp only [segmentsOf, builtSegments, List.map_map, List.filter_map]
  rfl

/-- From the table `s` to the table `s'`, the packets built only moved `send_seq`, and each
    connection numbered its packets one after the other. -/
structure Follows (s s' : FlowScheduler) (built : List BuiltPacket) : Prop where
  unsent : ∀ id, (s'.connection id).map (·.unsent) = (s.connection id).map (·.unsent)
  before : ∀ b ∈ built,
    b.before.connection.map (·.unsent) = (s.connection b.flowId).map (·.unsent)
  counted : ∀ id conn conn', s.connection id = some conn → s'.connection id = some conn' →
    Counted conn.sendSeq (builtSegments id built) conn'.sendSeq

namespace Follows

/-- The same connections, and no packet. -/
theorem of_same {s s' : FlowScheduler} (h : s'.connection = s.connection) : Follows s s' [] where
  unsent := fun id => by rw [h]
  before := fun _ hb => absurd hb List.not_mem_nil
  counted := fun id conn conn' hconn hconn' => by
    rw [h, hconn, Option.some.injEq] at hconn'
    rw [hconn']
    rfl

/-- One more packet, built for a flow as the table has it. -/
theorem concat {s s₁ s' : FlowScheduler} {built : List BuiltPacket} (h : Follows s s₁ built)
    {b : BuiltPacket} (hbefore : b.before.connection = s₁.connection b.flowId)
    (hself : s'.connection b.flowId = (s₁.connection b.flowId).map fun conn =>
      { conn with sendSeq := conn.sendSeq + b.payloadLen })
    (hother : ∀ id, id ≠ b.flowId → s'.connection id = s₁.connection id)
    (hseq : ∀ conn, b.before.connection = some conn → b.seqNumber = conn.sendSeq) :
    Follows s s' (built ++ [b]) where
  unsent id := by
    by_cases hid : id = b.flowId
    · rw [hid, hself, Option.map_map, ← h.unsent]
      rfl
    · rw [hother id hid, h.unsent]
  before b' hb' := by
    rw [List.mem_append, List.mem_singleton] at hb'
    rcases hb' with hb' | rfl
    · exact h.before b' hb'
    · rw [hbefore, h.unsent]
  counted id conn conn' hconn hconn' := by
    rw [builtSegments, List.filter_append, List.map_append]
    by_cases hid : id = b.flowId
    · -- the packet carries the counter's number and moves it past the payload
      subst hid
      rw [hself, Option.map_eq_some_iff] at hconn'
      obtain ⟨conn₁, hconn₁, rfl⟩ := hconn'
      refine counted_append (h.counted _ conn conn₁ hconn hconn₁) ?_
      rw [List.filter_singleton, decide_eq_true rfl, cond_true, List.map_singleton]
      exact ⟨hseq conn₁ (hbefore.trans hconn₁), rfl⟩
    · -- a packet of another flow is none of this one's segments
      rw [hother id hid] at hconn'
      have hskip : [b].filter (fun b => decide (b.flowId = id)) = [] := by
        rw [List.filter_singleton, decide_eq_false (Ne.symm hid), cond_false]
      rw [hskip, List.map_nil, List.append_nil]
      exact h.counted id conn conn' hconn hconn'

end Follows

namespace Worker

variable (cfg : WorkerConfig) (d : Dpdk)

variable {cfg d} in
/-- A round moves `send_seq` past the packet it builds. -/
theorem Round.follows {imix : IMIXEngine} {flowId : UInt32} {turn : Turn} {s : FlowScheduler}
    {p q : Pass r} (h : Round cfg d imix flowId turn p q)
    (hshape : p.Shape cfg.txBurstSize.toNat) (hroom : p.mbufCount < cfg.txBurstSize.toNat)
    (hsound : p.Sound cfg d imix) (hfollows : Follows s p.scheduler p.built) :
    Follows s q.scheduler q.built := by
  have hcloned := (h.sound hshape hroom hsound).cloned
  cases h with
  | skip | fill | idle | free => exact hfollows
  | build flow errno m mb mutator hflow _ _ _ _ =>
    -- the packet just built is the last of the burst
    have hb := hcloned _ (List.mem_append_right _ (List.mem_singleton_self _))
    refine hfollows.concat (FlowScheduler.connection_of_getFlow hflow).symm ?_ ?_ ?_
    · refine (FlowScheduler.connection_setFlow_self _ _ _).trans ?_
      rw [hb.connection_after]
      exact congrArg _ (FlowScheduler.connection_of_getFlow hflow).symm
    · exact fun id hid => FlowScheduler.connection_setFlow_ne _ _ hid
    · intro conn hconn
      exact (hb.segment hconn).seqNumber

/-- A pass only moves `send_seq`, and numbers the packets it builds from it. -/
theorem follows_processFlows (r : Rng) {sys : System} (input : PassInput)
    (hflows : sys.scheduler.AllAccepted d) :
    Follows sys.scheduler (processFlows cfg d r sys input).1.scheduler
      (processFlows cfg d r sys input).2.built := by
  rw [processFlows_eq_sendReady, sendReady_report cfg d r _ input.time _ input.tx rfl]
  refine (serveFlows_induct cfg d sys.imixEngine
    (p := startPass cfg r { sys with scheduler := (readyTurns cfg sys input).2 } input.time)
    (P := fun p => p.Shape cfg.txBurstSize.toNat ∧ p.Sound cfg d sys.imixEngine ∧
      Follows sys.scheduler p.scheduler p.built) ?_ (readyTurns cfg sys input).1
    ⟨shape_startPass cfg r _ input.time,
      sound_startPass cfg d sys.imixEngine r input.time (hflows.getReadyFlows _ _ _ _),
      .of_same (sys.scheduler.connection_getReadyFlows _ _ _ _)⟩).2.2
  intro flowId turn p q hroom hround ⟨hshape, hsound, hfollows⟩
  exact ⟨hround.shape hshape, hround.sound hshape hroom hsound,
    hround.follows hshape hroom hsound hfollows⟩

end Worker

/-! ## One event -/

namespace Server

variable {inetAton : String → Option UInt32} {d : Dpdk} {P : FlowScheduler → Prop} {sys : System}

/-- What every accepted or rejected flow of a request preserves, the request preserves. -/
theorem configureFlows_induct {request : FlowConfig} {nowNs : Nat → UInt64}
    (h : P sys.scheduler)
    (hadd : ∀ s flow nowNs, flow ∈ request.flows → P s →
      P (s.addFlow d (internalConfig inetAton request.stateless flow) nowNs).2) :
    P (configureFlows inetAton d sys request nowNs).2.scheduler := by
  have hloop : P (request.flows.zipIdx.foldl
      (fun res (flow, i) => addFlow inetAton d request.stateless res flow (nowNs i))
      { scheduler := sys.scheduler }).scheduler := by
    refine List.foldlRecOn (motive := fun res : AddResult => P res.scheduler) _ _ h ?_
    rintro res hres ⟨flow, i⟩ hmem
    have hadded := hadd res.scheduler flow (nowNs i) (List.fst_mem_of_mem_zipIdx hmem) hres
    simp only [addFlow]
    split
    · exact hadded
    · exact hadded
  simp only [configureFlows]
  split
  · exact hloop
  · exact hloop

/-- What starting a flow preserves, `StartTraffic` preserves. -/
theorem startTraffic_induct {request : StartRequest} {order : List UInt32} {nowNs : UInt64}
    {clock : UInt32 → StartClock} (h : P sys.scheduler)
    (hstart : ∀ s id nowNs bucketNowNs, P s → P (s.startFlow id nowNs bucketNowNs).2) :
    P (startTraffic sys request order nowNs clock).2.scheduler := by
  simp only [startTraffic]
  split
  · exact h
  · exact List.foldlRecOn (motive := P) _ _ h fun s hs id _ => hstart s id _ _ hs

/-- What stopping a flow preserves, `StopTraffic` preserves. -/
theorem stopTraffic_induct {order : List UInt32} (h : P sys.scheduler)
    (hstop : ∀ s id, P s → P (s.stopFlow id).2) :
    P (stopTraffic sys order).2.scheduler :=
  List.foldlRecOn (motive := P) _ _ h fun s hs id _ => hstop s id hs

theorem scheduler_configureIMIX (sys : System) (request : IMIXConfig) :
    (configureIMIX sys request).2.scheduler = sys.scheduler := by
  simp only [configureIMIX]
  split <;> rfl

end Server

/-- What the scheduler calls of the RPCs, received segments and a pass preserve, an event
    preserves. -/
theorem System.scheduler_step_induct {inetAton : String → Option UInt32} {d : Dpdk}
    {P : FlowScheduler → Prop} {sys : System} (h : P sys.scheduler)
    (hadd : ∀ s config nowNs, P s → P (s.addFlow d config nowNs).2)
    (hstart : ∀ s id nowNs bucketNowNs, P s → P (s.startFlow id nowNs bucketNowNs).2)
    (hstop : ∀ s id, P s → P (s.stopFlow id).2)
    (hrx : ∀ s key tcpHdr payloadLen nowNs, P s → P (s.handleTcpRx key tcpHdr payloadLen nowNs))
    (hpass : ∀ cfg input, P (Worker.processFlows cfg d r sys input).1.scheduler) (e : Event) :
    P (sys.step inetAton d r e).scheduler := by
  cases e with
  | configureFlows request nowNs =>
    exact Server.configureFlows_induct h fun s flow nowNs _ hs => hadd s _ nowNs hs
  | configureIMIX request =>
    rw [step, Server.scheduler_configureIMIX]
    exact h
  | startTraffic request order nowNs clock => exact Server.startTraffic_induct h hstart
  | stopTraffic order => exact Server.stopTraffic_induct h hstop
  | workerPass cfg input => exact hpass cfg input
  | receive key tcpHdr payloadLen nowNs => exact hrx sys.scheduler key tcpHdr payloadLen nowNs h

/-- The event puts a new flow in place of the one under `id`. -/
def System.Event.Replaces (inetAton : String → Option UInt32) (id : UInt32) : Event → Prop
  | .configureFlows request _ => ∃ flow ∈ request.flows, flow.flowId = id ∧
    (Server.internalConfig inetAton request.stateless flow).Acceptable
  | _ => False

namespace FlowScheduler

/-- What holds of the table in every reachable generator: its flows were accepted, and its
    connections are closed and have nothing to acknowledge. -/
structure Invariant (d : Dpdk) (s : FlowScheduler) : Prop where
  accepted : s.AllAccepted d
  idle : ∀ id conn, s.connection id = some conn → conn.state = .closed ∧ conn.sendAck = 0

variable {d : Dpdk} {s : FlowScheduler}

theorem invariant_new (d : Dpdk) (srcMac : List UInt8) : (new srcMac).Invariant d where
  accepted := allAccepted_new d srcMac
  idle id conn hconn := by
    obtain ⟨f, hf, -⟩ := connection_eq_some.mp hconn
    simp only [getFlow, new, AList.lookup_empty] at hf
    cases hf

theorem Invariant.of_same (h : s.Invariant d) {s' : FlowScheduler} (haccepted : s'.AllAccepted d)
    (hconn : s'.connection = s.connection) : s'.Invariant d :=
  ⟨haccepted, by rw [hconn]; exact h.idle⟩

theorem Invariant.addFlow (h : s.Invariant d) (config : FlowSettings) (nowNs : UInt64) :
    (s.addFlow d config nowNs).2.Invariant d := by
  refine ⟨h.accepted.addFlow config nowNs, fun id conn hconn => ?_⟩
  rcases s.connection_addFlow d config nowNs id with heq | ⟨-, -, heq | heq⟩
  · exact h.idle id conn (heq ▸ hconn)
  · rw [heq] at hconn
    cases hconn
  · -- a new connection is closed, all its numbers zero
    rw [heq, Option.some.injEq] at hconn
    subst hconn
    exact ⟨rfl, rfl⟩

theorem Invariant.handleTcpRx (h : s.Invariant d) (key : FlowKey) (hdr : RteTcpHdr)
    (payloadLen : UInt32) (nowNs : UInt64) :
    (s.handleTcpRx key hdr payloadLen nowNs).Invariant d := by
  refine ⟨h.accepted.handleTcpRx key hdr payloadLen nowNs, fun id conn hconn => ?_⟩
  rcases s.connection_handleTcpRx key hdr payloadLen nowNs id with
    heq | ⟨conn₀, -, hconn₀, heq⟩
  · exact h.idle id conn (heq ▸ hconn)
  · rw [heq, Option.some.injEq] at hconn
    subst hconn
    obtain ⟨hclosed, hack⟩ := h.idle id conn₀ hconn₀
    have hkeeps := conn₀.keeps_receive hdr payloadLen nowNs
    exact ⟨hkeeps.closed hclosed, hkeeps.sendAck.trans hack⟩

theorem Invariant.follows (h : s.Invariant d) {s' : FlowScheduler} {built : List BuiltPacket}
    (haccepted : s'.AllAccepted d) (hfollows : Follows s s' built) : s'.Invariant d := by
  refine ⟨haccepted, fun id conn hconn => ?_⟩
  obtain ⟨conn₀, hconn₀, hstate, hsendAck⟩ :=
    TCPConnectionState.exists_of_unsent (hfollows.unsent id) hconn
  obtain ⟨hclosed, hack⟩ := h.idle id conn₀ hconn₀
  exact ⟨hstate ▸ hclosed, hsendAck ▸ hack⟩

end FlowScheduler

namespace System

variable {inetAton : String → Option UInt32} {d : Dpdk} {r : Rng} {sys : System}

/-- Every event keeps the invariant. -/
theorem invariant_step (h : sys.scheduler.Invariant d) (e : Event) :
    (sys.step inetAton d r e).scheduler.Invariant d := by
  apply scheduler_step_induct (P := fun s => s.Invariant d) h
  · exact fun s config nowNs hs => hs.addFlow config nowNs
  · exact fun s id nowNs bucketNowNs hs =>
      hs.of_same (hs.accepted.startFlow id nowNs bucketNowNs) (s.connection_startFlow id _ _)
  · exact fun s id hs => hs.of_same (hs.accepted.stopFlow id) (s.connection_stopFlow id)
  · exact fun s key tcpHdr payloadLen nowNs hs => hs.handleTcpRx key tcpHdr payloadLen nowNs
  · exact fun cfg input =>
      h.follows (Worker.accepted_processFlows cfg d r input h.accepted)
        (Worker.follows_processFlows cfg d r input h.accepted)

theorem invariant_of_reachable (h : Reachable inetAton d r sys) : sys.scheduler.Invariant d :=
  h.induct (P := fun sys => sys.scheduler.Invariant d)
    (fun _ ⟨srcMac, hnew⟩ => hnew ▸ FlowScheduler.invariant_new d srcMac)
    fun _ e hs => invariant_step hs e

/-- One event seen from the connection of the flow `id`, unless it replaces the flow: the
    connection stays, and numbers the flow's packets one after the other. -/
theorem counted_step (h : sys.scheduler.Invariant d) {id : UInt32} {e : Event}
    (he : ¬ e.Replaces inetAton id) {conn : TCPConnectionState}
    (hconn : sys.scheduler.connection id = some conn) :
    ∃ conn', (sys.step inetAton d r e).scheduler.connection id = some conn' ∧
      Counted conn.sendSeq ((segmentsOf id (sys.outcomes d r e)).map (·.1)) conn'.sendSeq := by
  cases e with
  | configureFlows request nowNs =>
    refine ⟨conn, ?_, rfl⟩
    refine Server.configureFlows_induct (P := fun s => s.connection id = some conn) hconn ?_
    intro s flow nowNs hflow hs
    rcases s.connection_addFlow d (Server.internalConfig inetAton request.stateless flow) nowNs id
      with heq | ⟨hid, hacc, -⟩
    · rw [heq, hs]
    · -- an accepted flow of this id is what replacing means
      exact absurd ⟨flow, hflow, hid.symm, hacc⟩ he
  | configureIMIX request =>
    refine ⟨conn, ?_, rfl⟩
    rw [step, Server.scheduler_configureIMIX, hconn]
  | startTraffic request order nowNs clock =>
    refine ⟨conn, ?_, rfl⟩
    exact Server.startTraffic_induct (P := fun s => s.connection id = some conn) hconn
      fun s id' nowNs bucketNowNs hs => by rw [s.connection_startFlow, hs]
  | stopTraffic order =>
    refine ⟨conn, ?_, rfl⟩
    exact Server.stopTraffic_induct (P := fun s => s.connection id = some conn) hconn
      fun s id' hs => by rw [s.connection_stopFlow, hs]
  | workerPass cfg input =>
    -- the pass numbers what it builds, whatever the NIC takes of it
    have hfollows := Worker.follows_processFlows cfg d r input h.accepted
    obtain ⟨conn', hconn', -⟩ :=
      TCPConnectionState.exists_of_unsent (hfollows.unsent id).symm hconn
    refine ⟨conn', hconn', ?_⟩
    rw [map_segmentsOf, outcomes, PassReport.map_fst_outcomes]
    exact hfollows.counted id conn conn' hconn hconn'
  | receive key tcpHdr payloadLen nowNs =>
    rcases sys.scheduler.connection_handleTcpRx key tcpHdr payloadLen nowNs id with
      heq | ⟨conn₀, -, hconn₀, heq⟩
    · exact ⟨conn, heq.trans hconn, rfl⟩
    · rw [hconn, Option.some.injEq] at hconn₀
      subst hconn₀
      exact ⟨_, heq, (conn.keeps_receive tcpHdr payloadLen nowNs).sendSeq⟩

end System

/-! ## Fixed inputs -/

/-- Two addresses that parse. -/
def Server.sampleAton (ip : String) : Option UInt32 :=
  if ip = "10.0.0.1" then some 0x0100000A
  else if ip = "10.0.0.2" then some 0x0200000A
  else none

/-- A TCP flow of 64-byte packets, 10 a second. -/
def Flow.sample (flowId srcPort : UInt32) : Flow where
  flowId := flowId
  srcIp := "10.0.0.1"
  dstIp := "10.0.0.2"
  srcPort := srcPort
  dstPort := 80
  protocol := "tcp"
  packetSize := 64
  pps := 10
  durationSeconds := 0
  dstMac := "FF:FF:FF:FF:FF:FF"

namespace System

/-- A generator that has just been started. -/
def fresh : System where
  scheduler := .new []
  imixEngine := .new
  metricsCollector := .new 1 0
  heap := fun _ => .sample

theorem reachable_fresh (inetAton : String → Option UInt32) (d : Dpdk) (r : Rng) :
    Reachable inetAton d r fresh :=
  .start ⟨[], rfl⟩

/-- Two stateful flows are configured and started. -/
def opening : List Event :=
  [.configureFlows ⟨[.sample 1 1000, .sample 2 2000], false⟩ fun _ => 0,
    .startTraffic ⟨false⟩ [1, 2] 1 fun _ => ⟨1, 1⟩]

/-- The generator after that. -/
def opened : System :=
  Run.run (step Server.sampleAton .reference .counting) fresh opening

theorem reachable_opened : Reachable Server.sampleAton .reference .counting opened :=
  (reachable_fresh _ _ _).run opening

/-- A pass at `nowNs` that builds a packet of flow 2; the NIC would take `accept` packets. -/
def Event.passAt (nowNs : UInt64) (accept : UInt16) : Event :=
  .workerPass .sample { Worker.PassInput.sample with
    nowNs := nowNs
    bucketNowNs := fun _ => nowNs
    tx := { TxAnswer.all with accept := accept } }

/-- Ten bytes of data received for flow 2, from the sequence number `seq` on. -/
def Event.dataAt (seq : UInt32) : Event :=
  .receive ⟨0x0200000A, 0x0100000A, 80, 2000, IPPROTO_TCP⟩
    { srcPort := rteCpuToBe16 80, dstPort := rteCpuToBe16 2000, sentSeq := rteCpuToBe32 seq,
      recvAck := 0, dataOff := 0x50, tcpFlags := RTE_TCP_ACK_FLAG, rxWin := 0, cksum := 0,
      tcpUrp := 0 } 10 0

end System

end TrafficGen
