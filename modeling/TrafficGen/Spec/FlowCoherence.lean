import TrafficGen.Spec.FlowAccounting
import TrafficGen.Spec.PacketSizes
import TrafficGen.Spec.ServedRates

/-!
# What the table says of its flows agrees

A flow repeats some of its settings in what is built from them: the bucket its rate, the connection
its protocol and 5-tuple, the byte counter its packet size. Starting and stopping, worker passes and
received segments all write to some of these fields, and `StopTraffic` clears a flag of the
collector as well. In every reachable generator the fields still agree.

## Key results

- `FlowScheduler.Every`: what holds of a flow when it is added, and of a flow after each change to
  it, holds of the whole table
- `coherent_of_reachable`: the fields of each flow agree, and no flow is active after `StopTraffic`
-/

namespace TrafficGen

variable {r : Rng}

/-! ## What holds of every flow -/

namespace FlowScheduler

/-- Every flow of the table satisfies `Q`. -/
def Every (Q : UInt32 → FlowConfigInternal → Prop) (s : FlowScheduler) : Prop :=
  ∀ id f, s.getFlow id = some f → Q id f

variable {Q : UInt32 → FlowConfigInternal → Prop} {s : FlowScheduler} {d : Dpdk}

theorem every_new (srcMac : List UInt8) : (new srcMac).Every Q := by
  intro id f hf
  simp only [getFlow, new, AList.lookup_empty] at hf
  cases hf

theorem Every.setFlow (h : s.Every Q) {id : UInt32} {f : FlowConfigInternal} (hf : Q id f) :
    (s.setFlow id f).Every Q := by
  intro id' f' hf'
  by_cases hid : id' = id
  · rw [hid, getFlow_setFlow_self, Option.some.injEq] at hf'
    rwa [hid, ← hf']
  · rw [getFlow_setFlow_ne _ _ hid] at hf'
    exact h id' f' hf'

theorem Every.addFlow (h : s.Every Q) {config : FlowSettings} {nowNs : UInt64}
    (hnew : ∀ f, newFlow d s.srcMac config nowNs = some f → Q config.flowId f) :
    (s.addFlow d config nowNs).2.Every Q := by
  rcases s.addFlow_cases d config nowNs with ⟨-, heq⟩ | ⟨-, f, hf, heq⟩
  · rwa [heq]
  · rw [heq]
    exact h.setFlow (hnew f hf)

theorem Every.startFlow (h : s.Every Q) {id : UInt32} {nowNs bucketNowNs : UInt64}
    (hstart : ∀ f, Q id f → Q id { f with
      startTimeNs := nowNs, active := true, tokenBucket := f.tokenBucket.reset bucketNowNs }) :
    (s.startFlow id nowNs bucketNowNs).2.Every Q := by
  rw [FlowScheduler.startFlow]
  split
  · exact h
  · next f hf => exact h.setFlow (hstart f (h id f hf))

theorem Every.stopFlow (h : s.Every Q) {id : UInt32}
    (hstop : ∀ f, Q id f → Q id { f with active := false }) : (s.stopFlow id).2.Every Q := by
  rw [FlowScheduler.stopFlow]
  split
  · exact h
  · next f hf => exact h.setFlow (hstop f (h id f hf))

theorem Every.handleTcpRx (h : s.Every Q) {key : FlowKey} {hdr : RteTcpHdr} {payloadLen : UInt32}
    {nowNs : UInt64}
    (hrx : ∀ id f conn, f.tcpState = some conn → Q id f →
      Q id { f with tcpState := some (conn.receive hdr payloadLen nowNs) }) :
    (s.handleTcpRx key hdr payloadLen nowNs).Every Q := by
  rcases s.handleTcpRx_cases key hdr payloadLen nowNs with
    heq | ⟨id, f, conn, -, hf, -, hconn, heq⟩
  · rwa [heq]
  · rw [heq]
    exact h.setFlow (hrx id f conn hconn (h id f hf))

theorem Every.getReadyFlows (h : s.Every Q) {maxFlows : UInt32} {order : List UInt32}
    {nowNs : UInt64} {bucketNowNs : UInt32 → UInt64}
    (hvisit : ∀ id f, Q id f → Q id (f.visit nowNs (bucketNowNs id)).2) :
    (s.getReadyFlows maxFlows order nowNs bucketNowNs).2.Every Q := by
  intro id f' hf'
  obtain ⟨visited, -, -, hflows, -⟩ := s.getReadyFlows_visits maxFlows order nowNs bucketNowNs
  rw [hflows] at hf'
  split at hf'
  · obtain ⟨f, hf, rfl⟩ := Option.map_eq_some_iff.mp hf'
    exact hvisit id f (h id f hf)
  · exact h id f' hf'

end FlowScheduler

/-! ## The fields of a flow -/

namespace TCPConnectionState

/-- A connection without what receiving changes. -/
def unreceived (conn : TCPConnectionState) : TCPConnectionState :=
  { conn with
    state := .closed
    recvSeq := 0
    recvAck := 0
    lastActivityNs := 0
    active := false }

theorem unreceived_processEvent (conn : TCPConnectionState) (event : TCPEvent) (nowNs : UInt64) :
    (conn.processEvent event nowNs).2.unreceived = conn.unreceived := by
  simp only [processEvent]
  split <;> rfl

/-- A segment changes the state, the receive numbers and the time of the last activity. -/
theorem unreceived_receive (conn : TCPConnectionState) (hdr : RteTcpHdr) (payloadLen : UInt32)
    (nowNs : UInt64) : (conn.receive hdr payloadLen nowNs).unreceived = conn.unreceived := by
  have hevent : ∀ (conn : TCPConnectionState) recvSeq recvAck event,
      ({ conn with recvSeq := recvSeq, recvAck := recvAck }.processEvent event nowNs).2.unreceived =
        conn.unreceived :=
    fun conn recvSeq recvAck event => unreceived_processEvent _ event nowNs
  have hpayload : ∀ conn' : TCPConnectionState, conn'.unreceived = conn.unreceived →
      (if payloadLen > 0 then { conn' with recvSeq := rteBeToCpu32 hdr.sentSeq + payloadLen }
        else conn').unreceived = conn.unreceived := by
    intro conn' h
    split
    · exact h
    · exact h
  have hfin : ∀ conn' : TCPConnectionState, conn'.unreceived = conn.unreceived →
      (if hdr.has RTE_TCP_FIN_FLAG then
        ({ conn' with recvSeq := rteBeToCpu32 hdr.sentSeq }.processEvent .recvFin nowNs).2
        else conn').unreceived = conn.unreceived := by
    intro conn' h
    split
    · exact (hevent conn' _ conn'.recvAck .recvFin).trans h
    · exact h
  refine hpayload _ ?_
  split
  · exact hevent conn _ _ .recvSynAck
  · refine hfin _ ?_
    split
    · exact hevent conn conn.recvSeq _ .recvAck
    · rfl

/-- The addresses and ports a connection is between. -/
def endpoints (conn : TCPConnectionState) : UInt32 × UInt32 × UInt16 × UInt16 :=
  (conn.srcIp, conn.dstIp, conn.srcPort, conn.dstPort)

/-- No segment changes what a connection is between. -/
theorem endpoints_receive (conn : TCPConnectionState) (hdr : RteTcpHdr) (payloadLen : UInt32)
    (nowNs : UInt64) : (conn.receive hdr payloadLen nowNs).endpoints = conn.endpoints := by
  have hkeeps := congrArg endpoints (conn.unreceived_receive hdr payloadLen nowNs)
  exact hkeeps

end TCPConnectionState

/-- The addresses and ports of a key. -/
def FlowKey.endpoints (key : FlowKey) : UInt32 × UInt32 × UInt16 × UInt16 :=
  (key.srcIp, key.dstIp, key.srcPort, key.dstPort)

/-- The flow is filed under its id and has a destination; its bucket is one of its rate; it has a
    connection exactly when it is a stateful TCP flow, and then the one of its key; and packets of a
    fixed size are counted with that size. -/
structure FlowConfigInternal.Coherent (id : UInt32) (f : FlowConfigInternal) : Prop where
  filed : f.flowId = id
  addressed : f.dstMac ≠ ""
  provisioned : FlowScheduler.Provisioned f
  stateful : f.tcpState.isSome = (!f.stateless && decide (f.protocol = "tcp"))
  endpoints : ∀ conn, f.tcpState = some conn → conn.endpoints = f.flowKey.endpoints
  counted : f.packetSize ≠ 0 → f.bytesSent = f.packetsSent * f.packetSize.toUInt64

namespace FlowConfigInternal.Coherent

variable {d : Dpdk} {id : UInt32} {f : FlowConfigInternal}

theorem of_newFlow {srcMac : List UInt8} {config : FlowSettings} {nowNs : UInt64}
    (h : FlowScheduler.newFlow d srcMac config nowNs = some f) : f.Coherent config.flowId := by
  have hprov := FlowScheduler.provisioned_newFlow h
  simp only [FlowScheduler.newFlow] at h
  split at h
  · cases h
  · rw [Option.some.injEq] at h
    refine ⟨?_, ?_, hprov, ?_, ?_, ?_⟩
    · rw [← h]
    · rw [← h]
      dsimp only
      split
      · decide
      · next hmac =>
        intro heq
        rw [heq] at hmac
        exact hmac rfl
    · rw [← h]
      dsimp only
      split
      · next hstate => simpa using hstate
      · next hstate => simpa using hstate
    · intro conn hconn
      rw [← h] at hconn ⊢
      dsimp only at hconn ⊢
      split at hconn
      · rw [← Option.some.inj hconn]
        rfl
      · cases hconn
    · intro _
      rw [← h]
      exact UInt64.zero_mul.symm

theorem start (h : f.Coherent id) (nowNs bucketNowNs : UInt64) :
    ({ f with
      startTimeNs := nowNs
      active := true
      tokenBucket := f.tokenBucket.reset bucketNowNs } : FlowConfigInternal).Coherent id where
  filed := h.filed
  addressed := h.addressed
  provisioned := ⟨h.provisioned.rate, h.provisioned.burst, Nat.le_refl _⟩
  stateful := h.stateful
  endpoints := h.endpoints
  counted := h.counted

theorem stop (h : f.Coherent id) :
    ({ f with active := false } : FlowConfigInternal).Coherent id where
  filed := h.filed
  addressed := h.addressed
  provisioned := ⟨h.provisioned.rate, h.provisioned.burst, h.provisioned.tokens⟩
  stateful := h.stateful
  endpoints := h.endpoints
  counted := h.counted

theorem visit (h : f.Coherent id) (nowNs bucketNowNs : UInt64) :
    (f.visit nowNs bucketNowNs).2.Coherent id := by
  have hprov := h.provisioned.visit nowNs bucketNowNs
  by_cases hdue : f.active = true ∧ f.isExpired nowNs = false
  · rw [f.visit_of_due hdue.1 hdue.2] at hprov ⊢
    exact ⟨h.filed, h.addressed, hprov, h.stateful, h.endpoints, h.counted⟩
  · rw [f.visit_of_not_due hdue]
    exact h.stop

theorem receive (h : f.Coherent id) {conn : TCPConnectionState} (hconn : f.tcpState = some conn)
    (hdr : RteTcpHdr) (payloadLen : UInt32) (nowNs : UInt64) :
    ({ f with tcpState := some (conn.receive hdr payloadLen nowNs) } :
      FlowConfigInternal).Coherent id where
  filed := h.filed
  addressed := h.addressed
  provisioned := ⟨h.provisioned.rate, h.provisioned.burst, h.provisioned.tokens⟩
  stateful := by
    rw [← h.stateful, hconn]
    rfl
  endpoints conn' hconn' := by
    rw [← Option.some.inj hconn', TCPConnectionState.endpoints_receive]
    exact h.endpoints conn hconn
  counted := h.counted

end FlowConfigInternal.Coherent

/-! ## Packets -/

namespace Worker

variable {cfg : WorkerConfig} {d : Dpdk} {id : UInt32} {flow : FlowConfigInternal}

/-- A packet of the flow's size keeps the flow coherent. -/
theorem coherent_finishPacket (h : flow.Coherent id) {mb : Mbuf}
    (hlength : flow.packetSize ≠ 0 → mb.pktLen = flow.packetSize) (timestampNs : UInt64) :
    (finishPacket cfg d mb flow timestampNs).2.Coherent id := by
  have hcounted : flow.packetSize ≠ 0 → flow.bytesSent + mb.pktLen.toUInt64 =
      (flow.packetsSent + 1) * flow.packetSize.toUInt64 := by
    intro hsize
    rw [h.counted hsize, hlength hsize, UInt64.add_mul, UInt64.one_mul]
  cases hstate : flow.isStatefulTcp with
  | false =>
    obtain ⟨timestamp, hstamp⟩ := stampMbuf_eq cfg mb timestampNs
    rw [finishPacket_plain cfg d mb timestampNs hstate, hstamp]
    exact
      { filed := h.filed
        addressed := h.addressed
        provisioned := ⟨h.provisioned.rate, h.provisioned.burst, h.provisioned.tokens⟩
        stateful := h.stateful
        endpoints := h.endpoints
        counted := hcounted }
  | true =>
    obtain ⟨conn, hconn⟩ := flow.exists_conn hstate
    obtain ⟨timestamp, hstamp⟩ := stampMbuf_eq cfg (rewriteStateful d mb conn).1 timestampNs
    rw [finishPacket_stateful cfg d mb timestampNs hstate hconn, hstamp]
    exact
      { filed := h.filed
        addressed := h.addressed
        provisioned := ⟨h.provisioned.rate, h.provisioned.burst, h.provisioned.tokens⟩
        stateful := by
          rw [← h.stateful, hconn]
          rfl
        endpoints := by
          intro conn' hconn'
          rw [← Option.some.inj hconn']
          exact h.endpoints conn hconn
        counted := hcounted }

/-- A pass keeps the flows coherent. -/
theorem coherent_processFlows (r : Rng) {sys : System} (input : PassInput)
    (h : sys.scheduler.Every FlowConfigInternal.Coherent) :
    (processFlows cfg d r sys input).1.scheduler.Every FlowConfigInternal.Coherent := by
  rw [processFlows_eq_sendReady]
  apply serveFlows_induct cfg d sys.imixEngine
    (P := fun p => p.scheduler.Every FlowConfigInternal.Coherent)
  · intro flowId turn p q _ hround hp
    cases hround with
    | skip | fill | idle | free => exact hp
    | build flow errno m mb mutator hflow _ _ _ hclone =>
      -- the clone has the size that was chosen
      obtain ⟨fitted, -, hlength, -⟩ := PacketMutator.cloneAndMutate_eq_true hclone
      refine hp.setFlow (coherent_finishPacket (hp flowId flow hflow) (fun hsize => ?_) _)
      rw [hlength]
      exact choosePacketSize_own hsize _ _
  · exact h.getReadyFlows fun id f hf => hf.visit _ _

end Worker

/-! ## Every reachable generator -/

/-- The fields of each flow agree, and the collector says that traffic is running when some flow
    is active. -/
structure System.Coherent (sys : System) : Prop where
  flows : sys.scheduler.Every FlowConfigInternal.Coherent
  running : ∀ id f, sys.scheduler.getFlow id = some f → f.active = true →
    sys.metricsCollector.running = true

namespace System

variable {inetAton : String → Option UInt32} {d : Dpdk} {sys : System}

theorem coherent_flows_step (h : sys.scheduler.Every FlowConfigInternal.Coherent) (e : Event) :
    (sys.step inetAton d r e).scheduler.Every FlowConfigInternal.Coherent := by
  apply scheduler_step_induct (P := fun s => s.Every FlowConfigInternal.Coherent) h
  · exact fun s config nowNs hs => hs.addFlow fun f hf => .of_newFlow hf
  · exact fun s id nowNs bucketNowNs hs => hs.startFlow fun f hf => hf.start nowNs bucketNowNs
  · exact fun s id hs => hs.stopFlow fun f hf => hf.stop
  · exact fun s key tcpHdr payloadLen nowNs hs =>
      hs.handleTcpRx fun id f conn hconn hf => hf.receive hconn tcpHdr payloadLen nowNs
  · exact fun cfg input => Worker.coherent_processFlows r input h

/-! ### The collector's flag -/

/-- An event that leaves the flag alone starts no flow. -/
theorem running_of_active_step (h : ∀ id f, sys.scheduler.getFlow id = some f → f.active = true →
      sys.metricsCollector.running = true) (e : Event) :
    ∀ id f, (sys.step inetAton d r e).scheduler.getFlow id = some f → f.active = true →
      (sys.step inetAton d r e).metricsCollector.running = true := by
  -- no flow is active, or the flag is up
  let Idle : UInt32 → FlowConfigInternal → Prop :=
    fun _ f => f.active = true → sys.metricsCollector.running = true
  have hidle : sys.scheduler.Every Idle := h
  cases e with
  | configureFlows request nowNs =>
    have hmetrics : (sys.step inetAton d r (.configureFlows request nowNs)).metricsCollector =
        sys.metricsCollector := by
      simp only [step, Server.configureFlows]
      split <;> rfl
    rw [hmetrics]
    apply Server.configureFlows_induct (P := fun s => s.Every Idle) hidle
    intro s flow nowNs _ hs
    apply hs.addFlow
    intro f hf hactive
    rw [FlowScheduler.active_newFlow hf] at hactive
    cases hactive
  | configureIMIX request =>
    have hsame : (sys.step inetAton d r (.configureIMIX request)).scheduler = sys.scheduler ∧
        (sys.step inetAton d r (.configureIMIX request)).metricsCollector =
          sys.metricsCollector := by
      simp only [step, Server.configureIMIX]
      split <;> exact ⟨rfl, rfl⟩
    rw [hsame.1, hsame.2]
    exact h
  | startTraffic request order nowNs clock =>
    simp only [step, Server.startTraffic]
    split
    · next hempty =>
      -- there is no flow
      intro id f hf
      have hmem : id ∈ FlowScheduler.walk order sys.scheduler.flows.keys := by
        rw [FlowScheduler.mem_walk, ← AList.mem_keys, ← AList.lookup_isSome]
        exact Option.isSome_of_eq_some hf
      rw [List.isEmpty_iff.mp hempty] at hmem
      cases hmem
    · exact fun _ _ _ _ => rfl
  | stopTraffic order =>
    intro id f hf hactive
    rw [step, FlowScheduler.scheduler_stopTraffic d] at hf
    have hnone := FlowScheduler.noneActive_stopTraffic d sys.scheduler order _ id f hf
    rw [hnone] at hactive
    cases hactive
  | workerPass cfg input =>
    have hrunning : (sys.step inetAton d r (.workerPass cfg input)).metricsCollector.running =
        sys.metricsCollector.running := by
      rw [step, Worker.metricsCollector_processFlows]
      exact List.foldlRecOn (motive := fun c : MetricsCollector =>
        c.running = sys.metricsCollector.running) _ _ rfl fun c hc _ _ => hc
    rw [hrunning, step, Worker.processFlows_eq_sendReady]
    apply Worker.serveFlows_induct cfg d sys.imixEngine (P := fun p => p.scheduler.Every Idle)
    · intro flowId turn p q _ hround hp id f hf hactive
      have hlive : q.scheduler.isLive id = true :=
        (FlowScheduler.isLive_iff _ _).mpr ⟨f, hf, hactive⟩
      rw [hround.isLive, FlowScheduler.isLive_iff] at hlive
      obtain ⟨f', hf', hactive'⟩ := hlive
      exact hp id f' hf' hactive'
    · exact hidle.getReadyFlows fun id f hf hactive => hf (f.active_of_visit hactive)
  | receive key tcpHdr payloadLen nowNs =>
    exact hidle.handleTcpRx fun id f conn _ hf => hf

theorem coherent_flows_of_reachable (h : Reachable inetAton d r sys) :
    sys.scheduler.Every FlowConfigInternal.Coherent := by
  refine Run.Reachable.induct (P := fun sys : System =>
    sys.scheduler.Every FlowConfigInternal.Coherent) h ?_ ?_
  · rintro sys ⟨srcMac, hnew⟩
    exact hnew ▸ FlowScheduler.every_new srcMac
  · exact fun sys e hs => coherent_flows_step hs e

/-- **Coherence.** In every reachable generator the fields of each flow agree, and when some flow
    is active the collector says that traffic is running. -/
theorem coherent_of_reachable (h : Reachable inetAton d r sys) : sys.Coherent := by
  refine ⟨coherent_flows_of_reachable h, ?_⟩
  refine Run.Reachable.induct (P := fun sys : System => ∀ id f, sys.scheduler.getFlow id = some f →
    f.active = true → sys.metricsCollector.running = true) h ?_ ?_
  · rintro sys ⟨srcMac, hnew⟩
    have hnone : sys.scheduler.Every fun _ _ => False := hnew ▸ FlowScheduler.every_new srcMac
    exact fun id f hf => (hnone id f hf).elim
  · exact fun sys e hs => running_of_active_step hs e

/-- Two flows, one of which has sent a packet. -/
theorem coherent_of_reachable_opened : (Run.run (step Server.sampleAton .reference .counting)
    opened [.passAt 1000000000 1]).Coherent :=
  coherent_of_reachable (reachable_opened.run _)

end System

end TrafficGen
