import TrafficGen.Spec.FlowAccounting
import TrafficGen.Spec.MetricsSums

/-!
# Resetting the statistics

`StartTraffic` with `reset_stats` clears the counters of the collector and restarts its uptime,
and then starts the flows, whose own counters go on from where they were. `GetStats` reports both
and divides one by the other. So the per-flow statistics count from the reset on exactly when every
flow had zero counters at the reset.

## Key results

- `lookup_flowStats`: what `GetStats` reports of a flow
- `tx_run`: the counters of a core move by what its passes report
- `countsSince_iff`: after a reset the statistics count from it on exactly when the flows' counters
  were zero
-/

namespace TrafficGen

variable {r : Rng}

/-! ## Flows under their own ids -/

namespace FlowScheduler

/-- Every flow is stored under its own id. -/
def Filed (s : FlowScheduler) : Prop :=
  ∀ id f, s.getFlow id = some f → f.flowId = id

variable {s : FlowScheduler}

theorem filed_new (srcMac : List UInt8) : (new srcMac).Filed := by
  intro id f hf
  simp only [getFlow, new, AList.lookup_empty] at hf
  cases hf

theorem Filed.setFlow (h : s.Filed) {id : UInt32} {f : FlowConfigInternal} (hf : f.flowId = id) :
    (s.setFlow id f).Filed := by
  intro id' f' hf'
  by_cases hid : id' = id
  · rw [hid, getFlow_setFlow_self, Option.some.injEq] at hf'
    rw [hid, ← hf', hf]
  · rw [getFlow_setFlow_ne _ _ hid] at hf'
    exact h id' f' hf'

theorem Filed.addFlow (h : s.Filed) (d : Dpdk) (config : FlowSettings) (nowNs : UInt64) :
    (s.addFlow d config nowNs).2.Filed := by
  rcases s.addFlow_cases d config nowNs with ⟨-, heq⟩ | ⟨-, f, hf, heq⟩
  · rwa [heq]
  · rw [heq]
    obtain ⟨dstMac, template, bucket, -, rfl⟩ := newFlow_eq_some hf
    exact h.setFlow rfl

theorem Filed.startFlow (h : s.Filed) (id : UInt32) (nowNs bucketNowNs : UInt64) :
    (s.startFlow id nowNs bucketNowNs).2.Filed := by
  rcases s.setFlow_of_startFlow id nowNs bucketNowNs with heq | ⟨f, bucket, hf, heq⟩
  · rwa [heq]
  · rw [heq]
    exact h.setFlow (h id f hf)

theorem Filed.stopFlow (h : s.Filed) (id : UInt32) : (s.stopFlow id).2.Filed := by
  rcases s.setFlow_of_stopFlow id with heq | ⟨f, hf, heq⟩
  · rwa [heq]
  · rw [heq]
    exact h.setFlow (h id f hf)

theorem Filed.handleTcpRx (h : s.Filed) (key : FlowKey) (hdr : RteTcpHdr) (payloadLen : UInt32)
    (nowNs : UInt64) : (s.handleTcpRx key hdr payloadLen nowNs).Filed := by
  rcases s.handleTcpRx_cases key hdr payloadLen nowNs with heq | ⟨id, f, conn, -, hf, -, -, heq⟩
  · rwa [heq]
  · rw [heq]
    exact h.setFlow (h id f hf)

theorem Filed.getReadyFlows (h : s.Filed) (maxFlows : UInt32) (order : List UInt32)
    (nowNs : UInt64) (bucketNowNs : UInt32 → UInt64) :
    (s.getReadyFlows maxFlows order nowNs bucketNowNs).2.Filed := by
  intro id f hf
  have hsame := s.getFlow_getReadyFlows maxFlows order nowNs bucketNowNs id
  rw [hf, Option.map_some] at hsame
  obtain ⟨f', hf', heq⟩ := Option.map_eq_some_iff.mp hsame.symm
  -- the schedule of a flow is no part of its settings
  rw [← h id f' hf']
  exact (congrArg (·.flowId) heq).symm

end FlowScheduler

/-- A pass files no flow elsewhere. -/
theorem Worker.filed_processFlows (cfg : WorkerConfig) (d : Dpdk) (r : Rng) {sys : System}
    (input : PassInput) (h : sys.scheduler.Filed) :
    (processFlows cfg d r sys input).1.scheduler.Filed := by
  rw [processFlows_eq_sendReady]
  refine serveFlows_induct cfg d sys.imixEngine (P := fun p => p.scheduler.Filed) ?_ _
    (h.getReadyFlows _ _ _ _)
  intro flowId turn p q _ hround hp
  cases hround with
  | skip | fill | idle | free => exact hp
  | build flow errno m mb mutator hflow _ _ _ _ =>
    obtain ⟨tcpState, packetsSent, bytesSent, hafter, -⟩ :=
      finishPacket_after cfg d mb flow turn.timestampNs
    apply hp.setFlow
    show (finishPacket cfg d mb flow turn.timestampNs).2.flowId = flowId
    rw [hafter]
    exact hp flowId flow hflow

namespace System

variable {inetAton : String → Option UInt32} {d : Dpdk} {sys : System}

theorem filed_step (h : sys.scheduler.Filed) (e : Event) :
    (sys.step inetAton d r e).scheduler.Filed := by
  apply scheduler_step_induct (P := fun s => s.Filed) h
  · exact fun s config nowNs hs => hs.addFlow d config nowNs
  · exact fun s id nowNs bucketNowNs hs => hs.startFlow id nowNs bucketNowNs
  · exact fun s id hs => hs.stopFlow id
  · exact fun s key tcpHdr payloadLen nowNs hs => hs.handleTcpRx key tcpHdr payloadLen nowNs
  · exact fun cfg input => Worker.filed_processFlows cfg d r input h

theorem filed_run (h : sys.scheduler.Filed) (events : List Event) :
    (Run.run (step inetAton d r) sys events).scheduler.Filed :=
  Run.run_induct (P := fun sys : System => sys.scheduler.Filed) h
    (fun _ e hs => filed_step hs e) events

theorem filed_of_reachable (h : Reachable inetAton d r sys) : sys.scheduler.Filed := by
  obtain ⟨sys₀, events, ⟨srcMac, hnew⟩, rfl⟩ := h
  exact filed_run (hnew ▸ FlowScheduler.filed_new srcMac) events

end System

/-! ## What `GetStats` reports -/

namespace MetricsCollector

theorem startTimeNs_calculateCurrentRate (count : CoreStats → UInt64)
    (counted : RateSnapshot → UInt64) (unit : Rat) (c : MetricsCollector) (coreId : UInt32)
    (nowNs rateNowNs : UInt64) :
    (calculateCurrentRate count counted unit c coreId nowNs rateNowNs).2.startTimeNs =
      c.startTimeNs := by
  have hsnapshot : (c.updateSnapshot coreId nowNs).startTimeNs = c.startTimeNs := by
    simp only [updateSnapshot]
    split
    · rfl
    · split
      · rfl
      · split
        · rfl
        · rfl
  simp only [calculateCurrentRate]
  split
  · rfl
  · split
    · exact hsnapshot
    · split
      · exact hsnapshot
      · exact hsnapshot

/-- Polling the rates of all cores leaves the start time alone. -/
theorem startTimeNs_calculateGlobalRate
    {rate : MetricsCollector → UInt32 → UInt64 → UInt64 → Rat × MetricsCollector}
    (hrate : ∀ c coreId nowNs rateNowNs,
      (rate c coreId nowNs rateNowNs).2.startTimeNs = c.startTimeNs)
    (c : MetricsCollector) (clock : UInt32 → UInt64 × UInt64) :
    (calculateGlobalRate rate c clock).2.startTimeNs = c.startTimeNs :=
  List.foldlRecOn (motive := fun total : Rat × MetricsCollector =>
    total.2.startTimeNs = c.startTimeNs) _ _ rfl fun total htotal _ _ =>
      (hrate total.2 _ _ _).trans htotal

end MetricsCollector

namespace Server

variable {sys after : System} {order : List UInt32} {clock : StatsClock} {answer : StatsResponse}

/-- The totals are those of the collector. -/
theorem metrics_getStats (h : getStats sys ⟨true⟩ order clock = (answer, after)) :
    (answer.metrics.totalTxPackets, answer.metrics.totalTxBytes) =
      (sys.metricsCollector.getGlobalStats.txPackets,
        sys.metricsCollector.getGlobalStats.txBytes) := by
  rw [← (Prod.mk.inj h).1]

/-- The uptime is taken from the start time, which the answer leaves alone. -/
theorem uptime_getStats (h : getStats sys ⟨true⟩ order clock = (answer, after)) :
    after.metricsCollector.startTimeNs = sys.metricsCollector.startTimeNs ∧
      answer.uptimeSeconds = after.metricsCollector.getUptimeSeconds clock.uptimeNowNs := by
  have hrate : ∀ count counted unit (c : MetricsCollector) coreId nowNs rateNowNs,
      (MetricsCollector.calculateCurrentRate count counted unit c coreId nowNs
        rateNowNs).2.startTimeNs = c.startTimeNs :=
    MetricsCollector.startTimeNs_calculateCurrentRate
  constructor
  · rw [← (Prod.mk.inj h).2]
    exact (MetricsCollector.startTimeNs_calculateGlobalRate (hrate _ _ _) _ _).trans
      (MetricsCollector.startTimeNs_calculateGlobalRate (hrate _ _ _) _ _)
  · rw [← (Prod.mk.inj h).1, ← (Prod.mk.inj h).2]

/-- Of entries inserted one after the other under their own ids, the one of an id is found. -/
theorem lookup_foldl_insert {β : Type*} (g : FlowSnapshot → β) (cfg : FlowSnapshot)
    (l : List FlowSnapshot) (hall : ∀ c ∈ l, c.flowId = cfg.flowId → c = cfg)
    (stats : AList fun _ : UInt32 => β)
    (h : cfg ∈ l ∨ stats.lookup cfg.flowId = some (g cfg)) :
    (l.foldl (fun stats c => stats.insert c.flowId (g c)) stats).lookup cfg.flowId =
      some (g cfg) := by
  induction l generalizing stats with
  | nil => exact h.resolve_left List.not_mem_nil
  | cons c l ih =>
    refine ih (fun c' hc' => hall c' (List.mem_cons_of_mem _ hc')) _ ?_
    by_cases hid : c.flowId = cfg.flowId
    · rw [hall c List.mem_cons_self hid]
      exact .inr (AList.lookup_insert _)
    · rw [AList.lookup_insert_ne (Ne.symm hid)]
      rcases h with hmem | hfound
      · refine .inl ((List.mem_cons.mp hmem).resolve_left fun heq => hid ?_)
        rw [heq]
      · exact .inr hfound

/-- A detailed answer has each flow's counters under its id. -/
theorem lookup_flowStats (hfiled : sys.scheduler.Filed) {id : UInt32} {f : FlowConfigInternal}
    (hf : sys.scheduler.getFlow id = some f)
    (h : getStats sys ⟨true⟩ order clock = (answer, after)) :
    answer.flowStats.lookup id = some (flowStats after.metricsCollector (clock.flowNowNs id)
      ⟨id, f.packetsSent, f.bytesSent⟩) := by
  rw [← (Prod.mk.inj h).1, ← (Prod.mk.inj h).2]
  simp only [if_true]
  have hid := hfiled id f hf
  refine lookup_foldl_insert (fun c => flowStats _ (clock.flowNowNs c.flowId) c)
    ⟨id, f.packetsSent, f.bytesSent⟩ _ ?_ ∅ (.inl ?_)
  · intro c hc hcid
    obtain ⟨id', -, hsnap⟩ := List.mem_filterMap.mp hc
    obtain ⟨f', hf', rfl⟩ := Option.map_eq_some_iff.mp hsnap
    -- a snapshot of this id is of this flow
    have hid' : id' = id := (hfiled id' f' hf').symm.trans hcid
    rw [hid', hf, Option.some.injEq] at hf'
    rw [← hf', hid]
  · have hkey : id ∈ sys.scheduler.flows.keys := by
      rw [← AList.mem_keys, ← AList.lookup_isSome]
      exact Option.isSome_iff_exists.mpr ⟨f, hf⟩
    exact List.mem_filterMap.mpr ⟨id, FlowScheduler.mem_walk.mpr hkey, by rw [hf, ← hid]; rfl⟩

end Server

/-! ## The collector over a run of passes -/

namespace MetricsCollector

/-- The transmit counters of a core. -/
def tx (c : MetricsCollector) (coreId : UInt32) : UInt64 × UInt64 :=
  ((c.getCoreStats coreId).txPackets, (c.getCoreStats coreId).txBytes)

/-- The transmit counters of all cores together. -/
def globalTx (c : MetricsCollector) : UInt64 × UInt64 :=
  (c.getGlobalStats.txPackets, c.getGlobalStats.txBytes)

theorem tx_updateTxStats {c : MetricsCollector} {coreId : UInt32}
    (h : coreId.toNat < c.perCoreStats.length) (id : UInt32) (packets bytes : UInt64) :
    (c.updateTxStats id packets bytes).tx coreId =
      c.tx coreId + if id = coreId then (packets, bytes) else 0 := by
  rw [tx, updateTxStats, getCoreStats_updateCore c id _ h]
  split
  · rfl
  · rw [add_zero]
    rfl

theorem globalTx_updateTxStats (c : MetricsCollector) (id : UInt32) (packets bytes : UInt64) :
    (c.updateTxStats id packets bytes).globalTx =
      c.globalTx + if id.toNat < c.perCoreStats.length then (packets, bytes) else 0 := by
  show (c.report id (.tx packets bytes)).globalTx = _
  by_cases hid : id.toNat < c.perCoreStats.length
  · rw [if_pos hid, globalTx, getGlobalStats_report hid]
    rfl
  · rw [if_neg hid, report_out_of_range (not_lt.mp hid), add_zero]

/-- After a reset of everything the counters are zero. -/
theorem tx_resetAll (c : MetricsCollector) (nowNs : UInt64) (coreId : UInt32) :
    (c.resetAll nowNs).tx coreId = 0 := by
  have hzero : ∀ l : List CoreStats,
      (l.map fun _ => ({} : CoreStats)).getD coreId.toNat {} = {} := by
    intro l
    rw [List.getD_eq_getElem?_getD, List.getElem?_map]
    cases l[coreId.toNat]? <;> rfl
  show (((c.perCoreStats.map fun _ => ({} : CoreStats)).getD coreId.toNat {}).txPackets,
    ((c.perCoreStats.map fun _ => ({} : CoreStats)).getD coreId.toNat {}).txBytes) = 0
  rw [hzero]
  rfl

theorem globalTx_resetAll (c : MetricsCollector) (nowNs : UInt64) :
    (c.resetAll nowNs).globalTx = 0 := by
  have hzero : ∀ (count : CoreStats → UInt64), count {} = 0 →
      ∀ l : List CoreStats, aggregate count (l.map fun _ => {}) = 0 := by
    intro count hcount l
    induction l with
    | nil => rfl
    | cons s l ih => rw [List.map_cons, aggregate_cons, hcount, ih, UInt64.add_zero]
  show (aggregate (·.txPackets) (c.perCoreStats.map fun _ => {}),
    aggregate (·.txBytes) (c.perCoreStats.map fun _ => {})) = 0
  rw [hzero _ rfl, hzero _ rfl]
  rfl

end MetricsCollector

namespace System

variable {inetAton : String → Option UInt32} {d : Dpdk}

/-- A worker pass as an event. -/
def pass (x : WorkerConfig × Worker.PassInput) : Event :=
  .workerPass x.1 x.2

/-- The generator after some worker passes. -/
def afterPasses (inetAton : String → Option UInt32) (d : Dpdk) (r : Rng) (sys : System)
    (passes : List (WorkerConfig × Worker.PassInput)) : System :=
  Run.run (step inetAton d r) sys (passes.map pass)

/-- What an event reports to the collector for the cores that `counts` selects. -/
def reportsWhere (counts : UInt32 → Bool) (d : Dpdk) (r : Rng) (sys : System) :
    Event → List (UInt64 × UInt64)
  | .workerPass cfg input => if counts cfg.coreId then Worker.txReports cfg d r sys input else []
  | _ => []

/-- What some passes report for those cores, added up. -/
def reported (counts : UInt32 → Bool) (inetAton : String → Option UInt32) (d : Dpdk) (r : Rng)
    (sys : System) (passes : List (WorkerConfig × Worker.PassInput)) : UInt64 × UInt64 :=
  (Run.collect (step inetAton d r) (reportsWhere counts d r) sys (passes.map pass)).sum

/-- The packets some passes put in bursts. -/
def builtBy (inetAton : String → Option UInt32) (d : Dpdk) (r : Rng) (sys : System)
    (passes : List (WorkerConfig × Worker.PassInput)) : List PlannedPacket :=
  (sys.runOutcomes inetAton d r (passes.map pass)).map (·.1.planned)

/-- A pass reports its bursts to the collector. -/
theorem metricsCollector_pass (sys : System) (x : WorkerConfig × Worker.PassInput) :
    (sys.step inetAton d r (pass x)).metricsCollector =
      (Worker.txReports x.1 d r sys x.2).foldl
        (fun c report => c.updateTxStats x.1.coreId report.1 report.2) sys.metricsCollector :=
  Worker.metricsCollector_processFlows x.1 d r sys x.2

/-- Reports leave the number of cores and the start time alone. -/
theorem same_reports (c : MetricsCollector) (coreId : UInt32) (reports : List (UInt64 × UInt64)) :
    (reports.foldl (fun c report => c.updateTxStats coreId report.1 report.2)
        c).perCoreStats.length = c.perCoreStats.length ∧
      (reports.foldl (fun c report => c.updateTxStats coreId report.1 report.2)
        c).startTimeNs = c.startTimeNs :=
  List.foldlRecOn (motive := fun c' : MetricsCollector =>
      c'.perCoreStats.length = c.perCoreStats.length ∧ c'.startTimeNs = c.startTimeNs) _ _
    ⟨rfl, rfl⟩ fun _ hc _ _ => ⟨(List.length_modify ..).trans hc.1, hc.2⟩

/-- A measure that each report of a selected core adds to is moved by what the passes report. -/
theorem measure_run (measure : MetricsCollector → UInt64 × UInt64) (counts : UInt32 → Bool)
    {n : Nat} (hmeasure : ∀ c : MetricsCollector, c.perCoreStats.length = n →
      ∀ id packets bytes, measure (c.updateTxStats id packets bytes) =
        measure c + if counts id then (packets, bytes) else 0)
    (sys : System) (hn : sys.metricsCollector.perCoreStats.length = n)
    (passes : List (WorkerConfig × Worker.PassInput)) :
    measure (sys.afterPasses inetAton d r passes).metricsCollector =
      measure sys.metricsCollector + reported counts inetAton d r sys passes := by
  -- the reports of one pass are all of one core
  have hfold : ∀ (id : UInt32) (reports : List (UInt64 × UInt64)) (c : MetricsCollector),
      c.perCoreStats.length = n →
      measure (reports.foldl (fun c report => c.updateTxStats id report.1 report.2) c) =
        measure c + (if counts id then reports else []).sum := by
    intro id reports
    induction reports with
    | nil =>
      intro c hc
      simp
    | cons report reports ih =>
      intro c hc
      have hlen : (c.updateTxStats id report.1 report.2).perCoreStats.length = n :=
        (List.length_modify ..).trans hc
      rw [List.foldl_cons, ih _ hlen, hmeasure c hc]
      by_cases hid : counts id = true
      · simp only [if_pos hid, List.sum_cons]
        exact add_assoc ..
      · simp only [if_neg hid, List.sum_nil, add_zero]
  induction passes generalizing sys with
  | nil =>
    show measure sys.metricsCollector = measure sys.metricsCollector + 0
    rw [add_zero]
  | cons x passes ih =>
    have hlen : (sys.step inetAton d r (pass x)).metricsCollector.perCoreStats.length = n := by
      rw [metricsCollector_pass]
      exact (same_reports _ _ _).1.trans hn
    show measure (afterPasses inetAton d r (sys.step inetAton d r (pass x)) passes).metricsCollector
      = measure sys.metricsCollector + (reportsWhere counts d r sys (pass x) ++ _).sum
    rw [ih _ hlen, metricsCollector_pass, hfold _ _ _ hn, List.sum_append, add_assoc]
    rfl

theorem tx_run (sys : System) {coreId : UInt32}
    (h : coreId.toNat < sys.metricsCollector.perCoreStats.length)
    (passes : List (WorkerConfig × Worker.PassInput)) :
    (sys.afterPasses inetAton d r passes).metricsCollector.tx coreId =
      sys.metricsCollector.tx coreId +
        reported (fun id => id = coreId) inetAton d r sys passes := by
  refine measure_run (·.tx coreId) _ (fun c hc id packets bytes => ?_) sys rfl passes
  rw [MetricsCollector.tx_updateTxStats (hc ▸ h)]
  simp only [decide_eq_true_eq]

theorem globalTx_run (sys : System) (passes : List (WorkerConfig × Worker.PassInput)) :
    (sys.afterPasses inetAton d r passes).metricsCollector.globalTx =
      sys.metricsCollector.globalTx +
        reported (fun id => id.toNat < sys.metricsCollector.perCoreStats.length) inetAton d r
          sys passes := by
  refine measure_run (·.globalTx) _ (fun c hc id packets bytes => ?_) sys rfl passes
  rw [MetricsCollector.globalTx_updateTxStats, hc]
  simp only [decide_eq_true_eq]

theorem startTimeNs_afterPasses (sys : System) (passes : List (WorkerConfig × Worker.PassInput)) :
    (sys.afterPasses inetAton d r passes).metricsCollector.startTimeNs =
      sys.metricsCollector.startTimeNs := by
  induction passes generalizing sys with
  | nil => rfl
  | cons x passes ih =>
    show (afterPasses inetAton d r (sys.step inetAton d r (pass x))
      passes).metricsCollector.startTimeNs = _
    rw [ih, metricsCollector_pass]
    exact (same_reports _ _ _).2

/-- A flow's counters are moved by the packets built for it. -/
theorem sent_afterPasses {sys : System} (hinv : sys.scheduler.Invariant d) (id : UInt32)
    (passes : List (WorkerConfig × Worker.PassInput)) :
    (sys.afterPasses inetAton d r passes).scheduler.sent id =
      (sys.scheduler.sent id).map
        (· + tally (sizesOf id (builtBy inetAton d r sys passes))) := by
  have hreplaces : ∀ e ∈ passes.map pass, ¬ e.Replaces inetAton id := by
    intro e he
    obtain ⟨x, -, rfl⟩ := List.mem_map.mp he
    exact fun h => h
  rw [afterPasses, sent_run hinv hreplaces, ← runPlanned_outcomes hinv, List.map_map]
  rfl

/-! ## Since the reset -/

/-- After the passes, the statistics of `started` count from `resetNs` on: for each flow the packets
    built for it since and their average over the uptime, for each core and over all of them what
    was reported since, and the uptime is the time since. -/
structure CountsSince (inetAton : String → Option UInt32) (d : Dpdk) (r : Rng) (started : System)
    (resetNs : UInt64) (passes : List (WorkerConfig × Worker.PassInput)) : Prop where
  flow : ∀ id f order clock answer after,
    (started.afterPasses inetAton d r passes).scheduler.getFlow id = some f →
    Server.getStats (started.afterPasses inetAton d r passes) ⟨true⟩ order clock =
      (answer, after) →
    answer.flowStats.lookup id = some (Server.flowStats after.metricsCollector (clock.flowNowNs id)
      ⟨id, (tally (sizesOf id (builtBy inetAton d r started passes))).1,
        (tally (sizesOf id (builtBy inetAton d r started passes))).2⟩)
  core : ∀ coreId, coreId.toNat < started.metricsCollector.perCoreStats.length →
    (started.afterPasses inetAton d r passes).metricsCollector.tx coreId =
      reported (fun id => id = coreId) inetAton d r started passes
  global : ∀ order clock answer after,
    Server.getStats (started.afterPasses inetAton d r passes) ⟨true⟩ order clock =
      (answer, after) →
    (answer.metrics.totalTxPackets, answer.metrics.totalTxBytes) =
      reported (fun id => id.toNat < started.metricsCollector.perCoreStats.length) inetAton d r
        started passes
  uptime : ∀ order clock answer after,
    Server.getStats (started.afterPasses inetAton d r passes) ⟨true⟩ order clock =
      (answer, after) →
    after.metricsCollector.startTimeNs = resetNs ∧ answer.uptimeSeconds =
      UInt64.ofInt ((MetricsCollector.elapsedNs clock.uptimeNowNs resetNs).tdiv 1000000000)

/-- A successful `StartTraffic` with `reset_stats` leaves every flow's counters, clears those of
    the collector and restarts its uptime. -/
theorem reset_startTraffic {sys started : System} {request : StartRequest} {order : List UInt32}
    {nowNs : UInt64} {clock : UInt32 → Server.StartClock} {response : StatusResponse}
    (hreset : request.resetStats = true)
    (hstart : Server.startTraffic sys request order nowNs clock = (response, started))
    (hsuccess : response.success = true) :
    started.scheduler.sent = sys.scheduler.sent ∧
      started.metricsCollector = (sys.metricsCollector.resetAll nowNs).setRunning true := by
  constructor
  · have hsent : (Server.startTraffic sys request order nowNs clock).2.scheduler.sent =
        sys.scheduler.sent :=
      Server.startTraffic_induct (P := fun s => s.sent = sys.scheduler.sent) rfl
        fun s id nowNs bucketNowNs hs => by rw [FlowScheduler.sent_startFlow, hs]
    rwa [hstart] at hsent
  · rw [Server.startTraffic, hreset] at hstart
    dsimp only at hstart
    split at hstart
    · rw [← (Prod.mk.inj hstart).1] at hsuccess
      cases hsuccess
    · rw [← (Prod.mk.inj hstart).2]
      rfl

/-- Once the collector is reset, its counters are what the passes report. -/
theorem tx_afterPasses_of_reset {started : System} {c : MetricsCollector} {nowNs : UInt64}
    (hmetrics : started.metricsCollector = (c.resetAll nowNs).setRunning true)
    (passes : List (WorkerConfig × Worker.PassInput)) {coreId : UInt32}
    (hcore : coreId.toNat < started.metricsCollector.perCoreStats.length) :
    (started.afterPasses inetAton d r passes).metricsCollector.tx coreId =
      reported (fun id => id = coreId) inetAton d r started passes := by
  have hstart : started.metricsCollector.tx coreId = 0 := by
    rw [hmetrics]
    exact MetricsCollector.tx_resetAll c nowNs coreId
  rw [tx_run started hcore, hstart, zero_add]

theorem globalTx_afterPasses_of_reset {started : System} {c : MetricsCollector} {nowNs : UInt64}
    (hmetrics : started.metricsCollector = (c.resetAll nowNs).setRunning true)
    (passes : List (WorkerConfig × Worker.PassInput)) :
    (started.afterPasses inetAton d r passes).metricsCollector.globalTx =
      reported (fun id => id.toNat < started.metricsCollector.perCoreStats.length) inetAton d r
        started passes := by
  have hstart : started.metricsCollector.globalTx = 0 := by
    rw [hmetrics]
    exact MetricsCollector.globalTx_resetAll c nowNs
  rw [globalTx_run, hstart, zero_add]

/-- **Reset.** From any reachable generator, after a successful `StartTraffic` with `reset_stats`
    and any run of worker passes, the statistics count from the reset on if and only if no flow
    had sent anything, in the arithmetic of its counters, when the reset was made. -/
theorem countsSince_iff {sys started : System} (hreach : Reachable inetAton d r sys)
    {request : StartRequest} {order : List UInt32} {nowNs : UInt64}
    {clock : UInt32 → Server.StartClock} {response : StatusResponse}
    (hreset : request.resetStats = true)
    (hstart : Server.startTraffic sys request order nowNs clock = (response, started))
    (hsuccess : response.success = true)
    (passes : List (WorkerConfig × Worker.PassInput)) :
    CountsSince inetAton d r started nowNs passes ↔
      ∀ id f, sys.scheduler.getFlow id = some f → f.packetsSent = 0 ∧ f.bytesSent = 0 := by
  have hstep : sys.step inetAton d r (.startTraffic request order nowNs clock) = started :=
    congrArg Prod.snd hstart
  have hinv : started.scheduler.Invariant d :=
    hstep ▸ invariant_step (invariant_of_reachable hreach) _
  have hfiled : (started.afterPasses inetAton d r passes).scheduler.Filed :=
    filed_run (hstep ▸ filed_step (filed_of_reachable hreach) _) _
  obtain ⟨hkept, hmetrics⟩ := reset_startTraffic hreset hstart hsuccess
  -- a flow's counters go on from where they were
  have hsent : ∀ id, (started.afterPasses inetAton d r passes).scheduler.sent id =
      (sys.scheduler.sent id).map
        (· + tally (sizesOf id (builtBy inetAton d r started passes))) := by
    intro id
    rw [← hkept, sent_afterPasses hinv]
  constructor
  · intro hcounts id f hf
    have hafter := hsent id
    rw [FlowScheduler.sent, FlowScheduler.sent, hf, Option.map_some, Option.map_some] at hafter
    obtain ⟨f', hf', hmoved⟩ := Option.map_eq_some_iff.mp hafter
    -- what is reported is the counters, so nothing was there before
    obtain ⟨answer, after, hanswer⟩ : ∃ answer after, Server.getStats
        (started.afterPasses inetAton d r passes) ⟨true⟩ order
        ⟨fun _ => 0, fun _ => 0, 0, fun _ => 0⟩ = (answer, after) := ⟨_, _, rfl⟩
    have hreported := hcounts.flow id f' _ _ _ _ hf' hanswer
    rw [Server.lookup_flowStats hfiled hf' hanswer, Option.some.injEq] at hreported
    have hzero : f.sent + tally (sizesOf id (builtBy inetAton d r started passes)) =
        tally (sizesOf id (builtBy inetAton d r started passes)) := by
      rw [← hmoved]
      exact Prod.ext (congrArg (·.txPackets) hreported) (congrArg (·.txBytes) hreported)
    rw [add_eq_right] at hzero
    exact ⟨congrArg Prod.fst hzero, congrArg Prod.snd hzero⟩
  · intro hzero
    constructor
    · intro id f' order clock answer after hf' hanswer
      have hafter := hsent id
      rw [FlowScheduler.sent, hf', Option.map_some] at hafter
      obtain ⟨before, hbefore, hmoved⟩ := Option.map_eq_some_iff.mp hafter.symm
      obtain ⟨f, hf, rfl⟩ := Option.map_eq_some_iff.mp hbefore
      have hnothing : f.sent = 0 := Prod.ext (hzero id f hf).1 (hzero id f hf).2
      rw [hnothing, zero_add] at hmoved
      rw [Server.lookup_flowStats hfiled hf' hanswer, hmoved]
      rfl
    · intro coreId hcore
      exact tx_afterPasses_of_reset hmetrics passes hcore
    · intro order clock answer after hanswer
      rw [Server.metrics_getStats hanswer]
      exact globalTx_afterPasses_of_reset hmetrics passes
    · intro order clock answer after hanswer
      obtain ⟨hkeeps, huptime⟩ := Server.uptime_getStats hanswer
      have hstarted : after.metricsCollector.startTimeNs = nowNs := by
        rw [hkeeps, startTimeNs_afterPasses, hmetrics]
        rfl
      exact ⟨hstarted, by rw [huptime, MetricsCollector.getUptimeSeconds, hstarted]⟩

/-! ## Fixed inputs -/

/-- The request that starts both flows, with a reset, two seconds in. -/
def restart (sys : System) : StatusResponse × System :=
  Server.startTraffic sys ⟨true⟩ [1, 2] 2000000000 fun _ => ⟨2000000000, 2000000000⟩

/-- A reset before any packet was sent, and a pass. -/
theorem countsSince_iff_opened : (restart opened).1.success = true ∧
    (CountsSince Server.sampleAton .reference .counting (restart opened).2 2000000000
        [(.sample, .sample)] ↔
      ∀ id f, opened.scheduler.getFlow id = some f → f.packetsSent = 0 ∧ f.bytesSent = 0) := by
  have hsuccess : (restart opened).1.success = true := by decide
  have hstart : Server.startTraffic opened ⟨true⟩ [1, 2] 2000000000
      (fun _ => ⟨2000000000, 2000000000⟩) = ((restart opened).1, (restart opened).2) := rfl
  exact ⟨hsuccess, countsSince_iff reachable_opened rfl hstart hsuccess _⟩

/-- The generator once a packet of flow 2 has been sent. -/
def used : System :=
  Run.run (step Server.sampleAton .reference .counting) opened [.passAt 1000000000 1]

theorem reachable_used : Reachable Server.sampleAton .reference .counting used :=
  reachable_opened.run [.passAt 1000000000 1]

/-- The packet sent before the reset is still reported after it, and the collector has none. -/
theorem not_countsSince_used : Reachable Server.sampleAton .reference .counting used ∧
    (restart used).1.success = true ∧
    ¬ CountsSince Server.sampleAton .reference .counting (restart used).2 2000000000 [] := by
  refine ⟨reachable_used, by decide, fun h => ?_⟩
  obtain ⟨f, hf⟩ : ∃ f, (restart used).2.scheduler.getFlow 2 = some f :=
    Option.isSome_iff_exists.mp (by decide)
  have hlookup := h.flow 2 f [] ⟨fun _ => 0, fun _ => 0, 0, fun _ => 0⟩ _ _ hf rfl
  have htx := congrArg (Option.map (·.txPackets)) hlookup
  exact absurd htx (by decide)

end System

end TrafficGen
