import Mathlib.Algebra.Group.Prod
import Mathlib.Data.Bool.AllAny
import Mathlib.Data.UInt
import TrafficGen.Spec.StatefulTransmit

/-!
# Per-flow transmit accounting

A flow's `packets_sent` and `bytes_sent` move when a packet is built, the counters of its
core when the NIC has taken it. So over any run of the generator a flow's counters hold what
was built for it (`sent_run`), and the two books agree exactly when what the NIC refused of
the flow adds up to nothing.

## Key results

- `sent_run`: a flow's counters move by the packets built for it
- `booksAgree_iff`: they count what the NIC took exactly when the refused packets of each flow
  add up to zero
-/

namespace TrafficGen

variable {r : Rng}

/-! ## Counting packets -/

/-- Packets of the given sizes as the counters count them: how many, and how many bytes. -/
def tally (sizes : List UInt32) : UInt64 × UInt64 :=
  (UInt64.ofNat sizes.length, (sizes.map (·.toUInt64)).sum)

/-- The sizes of the packets of the flow `id`. -/
def sizesOf (id : UInt32) (packets : List PlannedPacket) : List UInt32 :=
  (packets.filter (·.flowId = id)).map (·.size)

/-- The packets of some bursts that the NIC took, or those it did not take. -/
def packetsTaken (taken : Bool) (packets : List (PlannedPacket × Bool)) : List PlannedPacket :=
  (packets.filter (·.2 = taken)).map (·.1)

@[simp] theorem tally_nil : tally [] = 0 := rfl

theorem tally_append (xs ys : List UInt32) : tally (xs ++ ys) = tally xs + tally ys := by
  unfold tally
  rw [List.length_append, UInt64.ofNat_add, List.map_append, List.sum_append]
  rfl

theorem tally_perm {xs ys : List UInt32} (h : xs.Perm ys) : tally xs = tally ys := by
  unfold tally
  rw [h.length_eq, (h.map _).sum_eq]

theorem sizesOf_append (id : UInt32) (xs ys : List PlannedPacket) :
    sizesOf id (xs ++ ys) = sizesOf id xs ++ sizesOf id ys := by
  simp only [sizesOf, List.filter_append, List.map_append]

theorem packetsTaken_append (taken : Bool) (xs ys : List (PlannedPacket × Bool)) :
    packetsTaken taken (xs ++ ys) = packetsTaken taken xs ++ packetsTaken taken ys := by
  simp only [packetsTaken, List.filter_append, List.map_append]

/-- Every packet was taken or refused. -/
theorem tally_taken_add_refused (id : UInt32) (packets : List (PlannedPacket × Bool)) :
    tally (sizesOf id (packets.map (·.1))) =
      tally (sizesOf id (packetsTaken true packets)) +
        tally (sizesOf id (packetsTaken false packets)) := by
  rw [← tally_append, ← sizesOf_append]
  apply tally_perm
  apply List.Perm.map
  apply List.Perm.filter
  unfold packetsTaken
  rw [← List.map_append]
  apply List.Perm.map
  have hsplit := List.filter_append_perm (fun x : PlannedPacket × Bool => x.2) packets
  simpa using hsplit.symm

/-- One element of a list without duplicates is found once. -/
private theorem sum_indicator {ids : List UInt32} (hnodup : ids.Nodup) {a : UInt32}
    (hmem : a ∈ ids) : (ids.map fun id => if a = id then 1 else 0).sum = 1 := by
  induction ids with
  | nil => cases hmem
  | cons id ids ih =>
    obtain ⟨hfirst, hnodup⟩ := List.nodup_cons.mp hnodup
    by_cases hid : a = id
    · -- it is not in the rest
      have hrest : ids.map (fun id => if a = id then 1 else 0) = ids.map fun _ => 0 := by
        apply List.map_congr_left
        intro id' hid'
        rw [if_neg]
        intro h
        exact hfirst (hid ▸ h ▸ hid')
      simp [hid, hid ▸ hrest]
    · have hmem' : a ∈ ids := (List.mem_cons.mp hmem).resolve_left hid
      simp [hid, ih hnodup hmem']

/-- Packets of distinct flows are counted once each. -/
theorem sum_length_sizesOf {ids : List UInt32} (hnodup : ids.Nodup) (packets : List PlannedPacket)
    (hmem : ∀ p ∈ packets, p.flowId ∈ ids) :
    (ids.map fun id => (sizesOf id packets).length).sum = packets.length := by
  induction packets with
  | nil => simp [sizesOf]
  | cons p packets ih =>
    have hcons : ∀ id, (sizesOf id (p :: packets)).length =
        (if p.flowId = id then 1 else 0) + (sizesOf id packets).length := by
      intro id
      unfold sizesOf
      rw [List.filter_cons]
      by_cases hid : p.flowId = id
      · simp [hid, Nat.add_comm]
      · simp [hid]
    have hone := sum_indicator hnodup (hmem p List.mem_cons_self)
    simp only [hcons, List.sum_map_add, hone, ih fun q hq => hmem q (List.mem_cons_of_mem _ hq),
      List.length_cons, Nat.add_comm]

/-! ## The counters -/

/-- The counters of a flow. -/
def FlowConfigInternal.sent (f : FlowConfigInternal) : UInt64 × UInt64 :=
  (f.packetsSent, f.bytesSent)

namespace FlowScheduler

/-- The counters of the flow under `id`. -/
def sent (s : FlowScheduler) (id : UInt32) : Option (UInt64 × UInt64) :=
  (s.getFlow id).map (·.sent)

theorem sent_setFlow_self (s : FlowScheduler) (id : UInt32) (f : FlowConfigInternal) :
    (s.setFlow id f).sent id = some f.sent := by
  rw [sent, getFlow_setFlow_self, Option.map_some]

theorem sent_setFlow_ne (s : FlowScheduler) {id id' : UInt32} (f : FlowConfigInternal)
    (h : id' ≠ id) : (s.setFlow id f).sent id' = s.sent id' := by
  rw [sent, sent, getFlow_setFlow_ne s f h]

/-- Changing anything but a flow's counters changes no counter. -/
theorem sent_setFlow_of_same {s : FlowScheduler} {id : UInt32} {f f' : FlowConfigInternal}
    (hf : s.getFlow id = some f) (hsent : f'.sent = f.sent) : (s.setFlow id f').sent = s.sent := by
  funext id'
  by_cases hid : id' = id
  · rw [hid, sent_setFlow_self, sent, hf, Option.map_some, hsent]
  · exact sent_setFlow_ne s f' hid

theorem sent_startFlow (s : FlowScheduler) (id : UInt32) (nowNs bucketNowNs : UInt64) :
    (s.startFlow id nowNs bucketNowNs).2.sent = s.sent := by
  cases s.setFlow_of_startFlow id nowNs bucketNowNs with
  | inl heq => rw [heq]
  | inr h =>
    obtain ⟨f, bucket, hf, heq⟩ := h
    rw [heq]
    exact sent_setFlow_of_same hf rfl

theorem sent_stopFlow (s : FlowScheduler) (id : UInt32) : (s.stopFlow id).2.sent = s.sent := by
  cases s.setFlow_of_stopFlow id with
  | inl heq => rw [heq]
  | inr h =>
    obtain ⟨f, hf, heq⟩ := h
    rw [heq]
    exact sent_setFlow_of_same hf rfl

theorem sent_handleTcpRx (s : FlowScheduler) (key : FlowKey) (hdr : RteTcpHdr)
    (payloadLen : UInt32) (nowNs : UInt64) :
    (s.handleTcpRx key hdr payloadLen nowNs).sent = s.sent := by
  cases s.handleTcpRx_cases key hdr payloadLen nowNs with
  | inl heq => rw [heq]
  | inr h =>
    obtain ⟨id, f, conn, -, hf, -, -, heq⟩ := h
    rw [heq]
    exact sent_setFlow_of_same hf rfl

theorem sent_getReadyFlows (s : FlowScheduler) (maxFlows : UInt32) (order : List UInt32)
    (nowNs : UInt64) (bucketNowNs : UInt32 → UInt64) :
    (s.getReadyFlows maxFlows order nowNs bucketNowNs).2.sent = s.sent := by
  funext id
  have hsame := s.getFlow_getReadyFlows maxFlows order nowNs bucketNowNs id
  have hsent : ∀ o : Option FlowConfigInternal, o.map (·.sent) =
      (o.map (·.unscheduled)).map (·.sent) := by
    intro o
    cases o <;> rfl
  rw [sent, sent, hsent, hsame, ← hsent]

/-- Adding a flow resets the counters of its own id only, and only if it is accepted. -/
theorem sent_addFlow (s : FlowScheduler) (d : Dpdk) {config : FlowSettings} (nowNs : UInt64)
    {id : UInt32} (h : ¬ (id = config.flowId ∧ config.Acceptable)) :
    (s.addFlow d config nowNs).2.sent id = s.sent id := by
  by_cases hid : id = config.flowId
  · cases s.addFlow_cases d config nowNs with
    | inl hrej => rw [hrej.2]
    | inr hacc => exact absurd ⟨hid, hacc.1⟩ h
  · rw [sent, sent, getFlow_addFlow_ne s d nowNs hid]

end FlowScheduler

/-! ## One event -/

namespace Worker

variable (cfg : WorkerConfig) (d : Dpdk)

/-- A packet adds itself to the counters of its flow. -/
theorem sent_finishPacket (mb : Mbuf) (flow : FlowConfigInternal) (timestampNs : UInt64) :
    (finishPacket cfg d mb flow timestampNs).2.sent =
      flow.sent + tally [(finishPacket cfg d mb flow timestampNs).1.pktLen] := by
  cases hstate : flow.isStatefulTcp with
  | false =>
    rw [finishPacket_plain cfg d mb timestampNs hstate]
    simp [FlowConfigInternal.sent, tally]
  | true =>
    obtain ⟨conn, hconn⟩ := flow.exists_conn hstate
    rw [finishPacket_stateful cfg d mb timestampNs hstate hconn]
    simp [FlowConfigInternal.sent, tally]

/-- A packet that joins the burst adds itself to the counters of its flow. -/
theorem sent_push {p : Pass r} {b : BuiltPacket} (mutator : PacketMutator r)
    (hbefore : p.scheduler.getFlow b.flowId = some b.before)
    (hafter : b.after.sent = b.before.sent + tally [b.frame.pktLen]) (id : UInt32) :
    (p.push b mutator).scheduler.sent id =
      (p.scheduler.sent id).map (· + tally (sizesOf id [b.planned])) := by
  show (p.scheduler.setFlow b.flowId b.after).sent id = _
  by_cases hid : id = b.flowId
  · have hsizes : sizesOf id [b.planned] = [b.frame.pktLen] := by
      simp [sizesOf, BuiltPacket.planned, hid]
    rw [hsizes, hid, FlowScheduler.sent_setFlow_self, FlowScheduler.sent, hbefore, hafter]
    rfl
  · have hsizes : sizesOf id [b.planned] = [] := by
      simp [sizesOf, BuiltPacket.planned, Ne.symm hid]
    rw [hsizes, FlowScheduler.sent_setFlow_ne _ _ hid]
    simp

/-- From the table `s` to the pass `p`, the counters moved by what was built, and only for flows
    of the table. -/
structure CountsBuilt (s : FlowScheduler) (p : Pass r) : Prop where
  sent : ∀ id, p.scheduler.sent id =
    (s.sent id).map (· + tally (sizesOf id (p.built.map (·.planned))))
  known : ∀ b ∈ p.built, (s.sent b.flowId).isSome

variable {cfg d} in
theorem Round.countsBuilt {imix : IMIXEngine} {flowId : UInt32} {turn : Turn} {p q : Pass r}
    (h : Round cfg d imix flowId turn p q) {s : FlowScheduler} (hcounts : CountsBuilt s p) :
    CountsBuilt s q := by
  cases h with
  | skip | fill | idle | free => exact ⟨hcounts.sent, hcounts.known⟩
  | build flow errno m mb mutator hflow _ _ _ _ =>
    have hafter := sent_finishPacket cfg d mb flow turn.timestampNs
    generalize hb : builtPacket cfg d flowId flow turn m mb = b
    have hbefore : p.scheduler.getFlow b.flowId = some b.before := by
      rw [← hb]
      exact hflow
    have hsent : b.after.sent = b.before.sent + tally [b.frame.pktLen] := by
      rw [← hb]
      exact hafter
    constructor
    · intro id
      show _ = (s.sent id).map (· + tally (sizesOf id ((p.built ++ [b]).map (·.planned))))
      rw [sent_push mutator hbefore hsent, hcounts.sent, Option.map_map, List.map_append,
        sizesOf_append, tally_append]
      apply congrArg (Option.map · (s.sent id))
      funext sent
      exact add_assoc ..
    · intro b' hb'
      cases List.mem_append.mp hb' with
      | inl hb' => exact hcounts.known b' hb'
      | inr hb' =>
        have hknown : (p.scheduler.sent b.flowId).isSome := by
          rw [FlowScheduler.sent, hbefore]
          rfl
        rw [hcounts.sent, Option.isSome_map] at hknown
        rw [List.mem_singleton.mp hb']
        exact hknown

/-- A pass moves the counters by what it builds, and builds for flows of the table only. -/
theorem sent_processFlows (r : Rng) (sys : System) (input : PassInput) :
    (∀ id, (processFlows cfg d r sys input).1.scheduler.sent id =
        (sys.scheduler.sent id).map
          (· + tally (sizesOf id ((processFlows cfg d r sys input).2.built.map (·.planned))))) ∧
      ∀ b ∈ (processFlows cfg d r sys input).2.built, (sys.scheduler.sent b.flowId).isSome := by
  have hstart : CountsBuilt sys.scheduler
      (startPass cfg r { sys with scheduler := (readyTurns cfg sys input).2 } input.time) := by
    constructor
    · intro id
      show (readyTurns cfg sys input).2.sent id = (sys.scheduler.sent id).map (· + 0)
      unfold readyTurns
      rw [FlowScheduler.sent_getReadyFlows]
      simp
    · intro b hb
      exact absurd hb List.not_mem_nil
  have hloop := serveFlows_induct cfg d sys.imixEngine (P := CountsBuilt sys.scheduler)
    (fun _ _ _ _ _ h => h.countsBuilt) (readyTurns cfg sys input).1 hstart
  rw [processFlows_eq_sendReady, sendReady_report cfg d r _ input.time _ input.tx rfl]
  exact ⟨hloop.sent, hloop.known⟩

/-! ### The report to the collector -/

/-- What a pass passes to `update_tx_stats`: nothing when the NIC took nothing. The lengths are
    read when the driver is done with the mbufs. -/
def txReports (r : Rng) (sys : System) (input : PassInput) : List (UInt64 × UInt64) :=
  let (sys, report) := processFlows cfg d r sys input
  if report.accepted.isEmpty then []
  else [(UInt64.ofNat report.accepted.length,
    report.accepted.foldl (fun total m => total + (sys.heap m).pktLen.toUInt64) 0)]

/-- A burst without null slots is reported when the NIC took any of it. -/
theorem transmitBurst_metrics (tx : TxAnswer) (heap : Heap) (metrics : MetricsCollector)
    {mbufs : List (Option MbufId)} {burst : List MbufId} (hburst : mbufs = burst.map some) :
    let (heap', metrics', accepted, _) := transmitBurst cfg tx heap metrics mbufs
    metrics' = if accepted.isEmpty then metrics
      else metrics.updateTxStats cfg.coreId (UInt64.ofNat accepted.length)
        (accepted.foldl (fun total m => total + (heap' m).pktLen.toUInt64) 0) := by
  have hfilter : ∀ n, ((burst.map some).take n).filterMap id = burst.take n := by
    intro n
    rw [← List.map_take, List.filterMap_map, Function.id_comp, List.filterMap_some]
  unfold transmitBurst
  rw [hburst]
  by_cases hnil : (burst.map some).length = 0
  · rw [if_pos hnil]
    rfl
  · rw [if_neg hnil]
    have hlen : (burst.map some).length = burst.length := List.length_map some
    simp only [rteEthTxBurst, hfilter, hlen] at hnil ⊢
    have hsent : (burst.take (min tx.accept.toNat burst.length)).length =
        min tx.accept.toNat burst.length := by
      rw [List.length_take]
      omega
    by_cases hzero : min tx.accept.toNat burst.length = 0
    · simp [hzero]
    · have hne : (burst.take (min tx.accept.toNat burst.length)).isEmpty = false := by
        rw [List.isEmpty_eq_false_iff, ← List.length_pos_iff, hsent]
        omega
      rw [if_pos (by omega), hne, hsent]
      rfl

/-- A pass changes the collector by what it reports. -/
theorem metricsCollector_processFlows (r : Rng) (sys : System) (input : PassInput) :
    (processFlows cfg d r sys input).1.metricsCollector =
      (txReports cfg d r sys input).foldl
        (fun c report => c.updateTxStats cfg.coreId report.1 report.2) sys.metricsCollector := by
  unfold txReports
  rw [processFlows_eq_sendReady]
  generalize hp : serveFlows cfg d sys.imixEngine (readyTurns cfg sys input).1
    (startPass cfg r { sys with scheduler := (readyTurns cfg sys input).2 } input.time) = p
  have hshape : p.Shape cfg.txBurstSize.toNat :=
    hp ▸ shape_serveFlows cfg d sys.imixEngine _ (shape_startPass cfg r _ input.time)
  have hburst : p.mbufs.take p.mbufCount = (p.built.map (·.mbuf)).map some := by
    rw [hshape.before, List.map_map]
    rfl
  have hmetrics := transmitBurst_metrics cfg input.tx p.heap sys.metricsCollector hburst
  unfold sendReady
  dsimp only at hmetrics ⊢
  rw [hp]
  generalize transmitBurst cfg input.tx p.heap sys.metricsCollector (p.mbufs.take p.mbufCount) =
    answer at hmetrics ⊢
  obtain ⟨heap', metrics', accepted, freed⟩ := answer
  show metrics' = List.foldl _ sys.metricsCollector (if accepted.isEmpty then [] else _)
  dsimp only at hmetrics
  rw [hmetrics]
  split
  · rfl
  · rfl

end Worker

namespace System

variable {inetAton : String → Option UInt32} {d : Dpdk} {sys : System}

/-- An event that does not replace the flow `id` moves its counters by the packets planned
    for it. -/
theorem sent_step (r : Rng) (h : sys.scheduler.Invariant d) {e : Event} {id : UInt32}
    (he : ¬ e.Replaces inetAton id) :
    (sys.step inetAton d r e).scheduler.sent id =
      (sys.scheduler.sent id).map (· + tally (sizesOf id ((sys.planned e).map (·.1)))) := by
  -- an event that plans nothing has to leave the counters alone
  have hidle : sys.planned e = [] →
      (sys.step inetAton d r e).scheduler.sent id = sys.scheduler.sent id →
      (sys.step inetAton d r e).scheduler.sent id =
        (sys.scheduler.sent id).map (· + tally (sizesOf id ((sys.planned e).map (·.1)))) := by
    intro hnone hsame
    rw [hnone, hsame]
    show _ = (sys.scheduler.sent id).map (· + 0)
    simp
  cases e with
  | configureFlows request nowNs =>
    apply hidle rfl
    apply Server.configureFlows_induct (P := fun s => s.sent id = sys.scheduler.sent id) rfl
    intro s flow nowNs hflow hs
    rw [FlowScheduler.sent_addFlow, hs]
    rintro ⟨hid, hacc⟩
    exact he ⟨flow, hflow, hid.symm, hacc⟩
  | configureIMIX request =>
    apply hidle rfl
    rw [step, Server.scheduler_configureIMIX]
  | startTraffic request order nowNs clock =>
    apply hidle rfl
    apply Server.startTraffic_induct (P := fun s => s.sent id = sys.scheduler.sent id) rfl
    intro s id' nowNs bucketNowNs hs
    rw [FlowScheduler.sent_startFlow, hs]
  | stopTraffic order =>
    apply hidle rfl
    apply Server.stopTraffic_induct (P := fun s => s.sent id = sys.scheduler.sent id) rfl
    intro s id' hs
    rw [FlowScheduler.sent_stopFlow, hs]
  | workerPass cfg input =>
    rw [← planned_outcomes r h, List.map_map]
    show (Worker.processFlows cfg d r sys input).1.scheduler.sent id = _
    rw [(Worker.sent_processFlows cfg d r sys input).1 id, ← PassReport.map_fst_outcomes,
      List.map_map]
    rfl
  | receive key tcpHdr payloadLen nowNs =>
    apply hidle rfl
    show (sys.scheduler.handleTcpRx key tcpHdr payloadLen nowNs).sent id = sys.scheduler.sent id
    rw [FlowScheduler.sent_handleTcpRx]

/-- Packets are built for flows of the table only. -/
theorem known_of_planned (r : Rng) (h : sys.scheduler.Invariant d) {e : Event}
    {x : PlannedPacket × Bool} (hx : x ∈ sys.planned e) :
    (sys.scheduler.sent x.1.flowId).isSome := by
  rw [← planned_outcomes r h] at hx
  obtain ⟨y, hy, rfl⟩ := List.mem_map.mp hx
  cases e with
  | workerPass cfg input =>
    have hbuilt := List.mem_map_of_mem (f := (·.1)) hy
    rw [outcomes, PassReport.map_fst_outcomes] at hbuilt
    exact (Worker.sent_processFlows cfg d r sys input).2 y.1 hbuilt
  | _ => exact absurd hy List.not_mem_nil

/-! ## Runs -/

theorem runPlanned_outcomes (h : sys.scheduler.Invariant d) (events : List Event) :
    (sys.runOutcomes inetAton d r events).map (fun x => (x.1.planned, x.2)) =
      sys.runPlanned inetAton d r events := by
  induction events generalizing sys with
  | nil => rfl
  | cons e events ih =>
    show (sys.outcomes d r e ++ runOutcomes inetAton d r _ events).map _ =
      sys.planned e ++ runPlanned inetAton d r _ events
    rw [List.map_append, planned_outcomes r h, ih (invariant_step h e)]

/-- A flow that is not replaced has its counters moved by every packet built for it. -/
theorem sent_run (h : sys.scheduler.Invariant d) {id : UInt32} {events : List Event}
    (hkept : ∀ e ∈ events, ¬ e.Replaces inetAton id) :
    (Run.run (step inetAton d r) sys events).scheduler.sent id =
      (sys.scheduler.sent id).map
        (· + tally (sizesOf id ((sys.runPlanned inetAton d r events).map (·.1)))) := by
  induction events generalizing sys with
  | nil =>
    show _ = (sys.scheduler.sent id).map (· + 0)
    simp
  | cons e events ih =>
    rw [Run.run_cons, ih (invariant_step h e) fun e' he' => hkept e' (List.mem_cons_of_mem _ he'),
      sent_step r h (hkept e List.mem_cons_self), Option.map_map]
    show _ = (sys.scheduler.sent id).map
      (· + tally (sizesOf id ((sys.planned e ++ runPlanned inetAton d r _ events).map (·.1))))
    rw [List.map_append, sizesOf_append, tally_append]
    apply congrArg (Option.map · (sys.scheduler.sent id))
    funext sent
    exact add_assoc ..

/-- A run that replaces no flow builds for flows of the table only. -/
theorem known_of_runPlanned (h : sys.scheduler.Invariant d) {events : List Event}
    (hkept : ∀ e ∈ events, ∀ id, ¬ e.Replaces inetAton id) {x : PlannedPacket × Bool}
    (hx : x ∈ sys.runPlanned inetAton d r events) : (sys.scheduler.sent x.1.flowId).isSome := by
  induction events generalizing sys with
  | nil => cases hx
  | cons e events ih =>
    cases List.mem_append.mp hx with
    | inl hx => exact known_of_planned r h hx
    | inr hx =>
      have hknown := ih (invariant_step h e)
        (fun e' he' => hkept e' (List.mem_cons_of_mem _ he')) hx
      rwa [sent_step r h (hkept e List.mem_cons_self _), Option.isSome_map] at hknown

/-- What an event passes to `update_tx_stats`. -/
def txReports (d : Dpdk) (r : Rng) (sys : System) : Event → List (UInt64 × UInt64)
  | .workerPass cfg input => Worker.txReports cfg d r sys input
  | _ => []

/-- What a run passes to `update_tx_stats`. -/
def runReports (inetAton : String → Option UInt32) (d : Dpdk) (r : Rng) :
    System → List Event → List (UInt64 × UInt64) :=
  Run.collect (step inetAton d r) (txReports d r)

/-- Of a list whose first `n` elements are marked, `n` are. -/
private theorem length_filter_mapIdx {α : Type*} (l : List α) :
    ∀ n ≤ l.length, ((l.mapIdx fun i x => (x, decide (i < n))).filter (·.2)).length = n := by
  induction l with
  | nil =>
    intro n hn
    exact (Nat.le_zero.mp hn).symm
  | cons x l ih =>
    intro n hn
    rw [List.mapIdx_cons]
    cases n with
    | zero => simp
    | succ n =>
      have hrest := ih n (Nat.le_of_succ_le_succ hn)
      simp only [Nat.succ_lt_succ_iff] at hrest ⊢
      rw [List.filter_cons_of_pos (by simp), List.length_cons, hrest]

/-- As many packets are reported as the NIC takes. -/
theorem reported_step (r : Rng) (h : sys.scheduler.Invariant d) (e : Event) :
    ((sys.txReports d r e).map (·.1)).sum =
      UInt64.ofNat (packetsTaken true (sys.planned e)).length := by
  rw [← planned_outcomes r h]
  cases e with
  | workerPass cfg input =>
    have haccepted : (Worker.processFlows cfg d r sys input).2.accepted.length ≤
        (Worker.processFlows cfg d r sys input).2.built.length := by
      rw [Worker.processFlows_eq_sendReady,
        Worker.sendReady_report cfg d r _ input.time _ input.tx rfl]
      dsimp only
      rw [List.length_take, List.length_map]
      omega
    have htaken := length_filter_mapIdx _ _ haccepted
    show ((Worker.txReports cfg d r sys input).map (·.1)).sum = UInt64.ofNat (packetsTaken true
      ((Worker.processFlows cfg d r sys input).2.outcomes.map fun x => (x.1.planned, x.2))).length
    unfold packetsTaken Worker.txReports
    rw [List.length_map, List.filter_map, List.length_map]
    generalize Worker.processFlows cfg d r sys input = pass at htaken ⊢
    obtain ⟨sys', report⟩ := pass
    show _ = UInt64.ofNat (report.outcomes.filter _).length
    unfold PassReport.outcomes
    simp only [Function.comp_def, Bool.decide_eq_true] at htaken ⊢
    rw [htaken]
    cases haccepted : report.accepted with
    | nil => rfl
    | cons m accepted => simp
  | _ => rfl

theorem reported_run (h : sys.scheduler.Invariant d) (events : List Event) :
    ((sys.runReports inetAton d r events).map (·.1)).sum =
      UInt64.ofNat (packetsTaken true (sys.runPlanned inetAton d r events)).length := by
  induction events generalizing sys with
  | nil => rfl
  | cons e events ih =>
    show ((sys.txReports d r e ++ runReports inetAton d r _ events).map (·.1)).sum =
      UInt64.ofNat (packetsTaken true (sys.planned e ++ runPlanned inetAton d r _ events)).length
    rw [List.map_append, List.sum_append, reported_step r h, ih (invariant_step h e),
      packetsTaken_append, List.length_append, UInt64.ofNat_add]

/-! ## The two books -/

/-- Added up over the flows `ids`, the packets their counters count. -/
def totalSent (ids : List UInt32) (s : FlowScheduler) : UInt64 :=
  (ids.map fun id => ((s.sent id).getD 0).1).sum

/-- Over a run, each flow's counters moved by the number and the length of its packets the NIC
    took, and all of them together by the packets reported to the collector. -/
structure BooksAgree (inetAton : String → Option UInt32) (d : Dpdk) (r : Rng) (sys : System)
    (events : List Event) : Prop where
  flow : ∀ id sent, sys.scheduler.sent id = some sent →
    (Run.run (step inetAton d r) sys events).scheduler.sent id = some (sent +
      tally (sizesOf id (packetsTaken true
        ((sys.runOutcomes inetAton d r events).map fun x => (x.1.planned, x.2)))))
  total : totalSent sys.scheduler.flows.keys (Run.run (step inetAton d r) sys events).scheduler =
    totalSent sys.scheduler.flows.keys sys.scheduler +
      ((sys.runReports inetAton d r events).map (·.1)).sum

/-- What the NIC refuses of a flow adds up to nothing, in the arithmetic of the counters. -/
def RefusedCancel (id : UInt32) (planned : List (PlannedPacket × Bool)) : Prop :=
  tally (sizesOf id (packetsTaken false planned)) = 0

instance (id : UInt32) (planned : List (PlannedPacket × Bool)) :
    Decidable (RefusedCancel id planned) :=
  inferInstanceAs (Decidable (_ = _))

/-- When every flow counts what the NIC took of it, the sum is what was reported. -/
theorem total_of_flow (h : sys.scheduler.Invariant d) {events : List Event}
    (hkept : ∀ e ∈ events, ∀ id, ¬ e.Replaces inetAton id)
    (hflow : ∀ id sent, sys.scheduler.sent id = some sent →
      (Run.run (step inetAton d r) sys events).scheduler.sent id = some (sent +
        tally (sizesOf id (packetsTaken true (sys.runPlanned inetAton d r events))))) :
    totalSent sys.scheduler.flows.keys (Run.run (step inetAton d r) sys events).scheduler =
      totalSent sys.scheduler.flows.keys sys.scheduler +
        ((sys.runReports inetAton d r events).map (·.1)).sum := by
  generalize hids : sys.scheduler.flows.keys = ids
  have hknown : ∀ id, (sys.scheduler.sent id).isSome ↔ id ∈ ids := by
    intro id
    rw [← hids, ← AList.mem_keys, ← AList.lookup_isSome]
    exact Eq.to_iff (congrArg (· = true) Option.isSome_map)
  -- each flow has moved by as many packets as were taken of it
  have hmoved : ∀ id ∈ ids,
      (((Run.run (step inetAton d r) sys events).scheduler.sent id).getD 0).1 =
        ((sys.scheduler.sent id).getD 0).1 + UInt64.ofNat
          (sizesOf id (packetsTaken true (sys.runPlanned inetAton d r events))).length := by
    intro id hid
    obtain ⟨sent, hsent⟩ := Option.isSome_iff_exists.mp ((hknown id).mpr hid)
    rw [hflow id sent hsent, hsent]
    rfl
  have hcast : ∀ ns : List Nat, (ns.map UInt64.ofNat).sum = UInt64.ofNat ns.sum := by
    intro ns
    induction ns with
    | nil => rfl
    | cons n ns ih => rw [List.map_cons, List.sum_cons, ih, List.sum_cons, UInt64.ofNat_add]
  unfold totalSent
  rw [List.map_congr_left hmoved, List.sum_map_add, reported_run h,
    ← sum_length_sizesOf (hids ▸ sys.scheduler.flows.keys_nodup), ← hcast, List.map_map]
  · rfl
  · intro p hp
    obtain ⟨x, hx, rfl⟩ := List.mem_map.mp hp
    exact (hknown _).mp (known_of_runPlanned h hkept (List.mem_of_mem_filter hx))

/-- Over any run from a reachable generator that replaces no flow, the per-flow counters agree
    with what the NIC took if and only if what it refused of each flow adds up to nothing. -/
theorem booksAgree_iff (inetAton : String → Option UInt32) (d : Dpdk) (r : Rng) (sys : System)
    (h : Reachable inetAton d r sys) (events : List Event)
    (hkept : ∀ e ∈ events, ∀ id, ¬ e.Replaces inetAton id) :
    BooksAgree inetAton d r sys events ↔
      ∀ id ∈ sys.scheduler.flows.keys, RefusedCancel id (sys.runPlanned inetAton d r events) := by
  have hinv := invariant_of_reachable h
  have hrun : ∀ id, (Run.run (step inetAton d r) sys events).scheduler.sent id = _ :=
    fun id => sent_run (r := r) hinv fun e he => hkept e he id
  have hcancel : ∀ id (sent : UInt64 × UInt64),
      sent + tally (sizesOf id ((sys.runPlanned inetAton d r events).map (·.1))) = sent +
          tally (sizesOf id (packetsTaken true (sys.runPlanned inetAton d r events))) ↔
        RefusedCancel id (sys.runPlanned inetAton d r events) := by
    intro id sent
    rw [tally_taken_add_refused, add_right_inj, add_eq_left]
    rfl
  constructor
  · intro hbooks id hid
    rw [← AList.mem_keys, ← AList.lookup_isSome] at hid
    obtain ⟨f, hf⟩ := Option.isSome_iff_exists.mp hid
    have hsent : sys.scheduler.sent id = some f.sent := by
      rw [FlowScheduler.sent, FlowScheduler.getFlow, hf, Option.map_some]
    have hflow := hbooks.flow id f.sent hsent
    rw [runPlanned_outcomes hinv, hrun, hsent, Option.map_some, Option.some.injEq] at hflow
    exact (hcancel id f.sent).mp hflow
  · intro hcancels
    have hflow : ∀ id sent, sys.scheduler.sent id = some sent →
        (Run.run (step inetAton d r) sys events).scheduler.sent id = some (sent +
          tally (sizesOf id (packetsTaken true (sys.runPlanned inetAton d r events)))) := by
      intro id sent hsent
      have hid : id ∈ sys.scheduler.flows.keys := by
        rw [← AList.mem_keys, ← AList.lookup_isSome]
        exact Option.isSome_map.symm.trans (congrArg Option.isSome hsent)
      rw [hrun, hsent, Option.map_some, (hcancel id sent).mpr (hcancels id hid)]
    constructor
    · rw [runPlanned_outcomes hinv]
      exact hflow
    · exact total_of_flow hinv hkept hflow

/-- A pass whose packet is taken. -/
theorem booksAgree_taken : BooksAgree Server.sampleAton .reference .counting opened
    [.passAt 1000000000 1] :=
  (booksAgree_iff _ _ _ opened reachable_opened _
    (List.forall_mem_singleton.mpr fun _ => id)).mpr (List.all_iff_forall_prop.mp (by decide))

/-- A refused packet is counted by its flow all the same. -/
theorem not_booksAgree_refused : ¬ BooksAgree Server.sampleAton .reference .counting opened
    [.passAt 1000000000 0] := by
  intro h
  exact absurd (h.flow 2 0 (by decide)) (by decide)

end System

end TrafficGen
