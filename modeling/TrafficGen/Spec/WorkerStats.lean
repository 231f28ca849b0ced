import TrafficGen.ForStd.Run
import TrafficGen.Main

/-!
# Workers and their counters

Every worker reports to the slot of its own core. The global counters are the sum over the
slots, so they follow the reports exactly when each worker's core has one. The number of slots
is the number of core mappings, and the ids in the mappings may be any.

## Key results

- `getGlobalStats_report`: a report in range is counted once
- `everyCallCounted_iff`: every report is counted exactly when every launched worker's core id
  is below the number of slots
-/

namespace TrafficGen

/-- What a worker reports to the collector. -/
inductive StatsCall where
  | tx (packets bytes : UInt64)
  | rx (packets bytes : UInt64)
deriving DecidableEq, Repr

/-- The counters after a report. -/
def CoreStats.record (s : CoreStats) : StatsCall → CoreStats
  | .tx packets bytes =>
    { s with txPackets := s.txPackets + packets, txBytes := s.txBytes + bytes }
  | .rx packets bytes =>
    { s with rxPackets := s.rxPackets + packets, rxBytes := s.rxBytes + bytes }

namespace MetricsCollector

/-- The collector after a report for `coreId`. -/
def report (c : MetricsCollector) (coreId : UInt32) : StatsCall → MetricsCollector
  | .tx packets bytes => c.updateTxStats coreId packets bytes
  | .rx packets bytes => c.updateRxStats coreId packets bytes

theorem report_eq_updateCore (c : MetricsCollector) (coreId : UInt32) (call : StatsCall) :
    c.report coreId call = c.updateCore coreId fun s => s.record call := by
  cases call with
  | tx packets bytes => rfl
  | rx packets bytes => rfl

theorem length_report (c : MetricsCollector) (coreId : UInt32) (call : StatsCall) :
    (c.report coreId call).perCoreStats.length = c.perCoreStats.length := by
  rw [report_eq_updateCore]
  exact List.length_modify ..

/-! ## One report -/

theorem foldl_aggregate (count : CoreStats → UInt64) (l : List CoreStats) (a : UInt64) :
    l.foldl (fun total s => total + count s) a = a + aggregate count l := by
  induction l generalizing a with
  | nil => exact (UInt64.add_zero a).symm
  | cons s l ih =>
    have hcons : aggregate count (s :: l) = 0 + count s + aggregate count l := ih (0 + count s)
    rw [List.foldl_cons, ih, hcons, UInt64.zero_add, UInt64.add_assoc]

theorem aggregate_cons (count : CoreStats → UInt64) (s : CoreStats) (l : List CoreStats) :
    aggregate count (s :: l) = count s + aggregate count l := by
  rw [aggregate, List.foldl_cons, foldl_aggregate, UInt64.zero_add]

/-- Adding to the counter of one core adds to the total. -/
theorem aggregate_modify {count : CoreStats → UInt64} {f : CoreStats → CoreStats} {n : UInt64}
    (hf : ∀ s, count (f s) = count s + n) (l : List CoreStats) :
    ∀ i < l.length, aggregate count (l.modify i f) = aggregate count l + n := by
  induction l with
  | nil => intro i hi; cases hi
  | cons s l ih =>
    intro i hi
    cases i with
    | zero =>
      rw [List.modify_zero_cons, aggregate_cons, aggregate_cons, hf, UInt64.add_assoc,
        UInt64.add_assoc, UInt64.add_comm n]
    | succ i =>
      rw [List.modify_succ_cons, aggregate_cons, aggregate_cons, ih i (Nat.lt_of_succ_lt_succ hi),
        UInt64.add_assoc]

/-- A report in range is counted once, and in the totals it touches only. -/
theorem getGlobalStats_report {c : MetricsCollector} {coreId : UInt32}
    (h : coreId.toNat < c.perCoreStats.length) (call : StatsCall) :
    (c.report coreId call).getGlobalStats = c.getGlobalStats.record call := by
  have hsum : ∀ (g : CoreStats → UInt64) (n : UInt64), (∀ s, g (s.record call) = g s + n) →
      aggregate g (c.report coreId call).perCoreStats = aggregate g c.perCoreStats + n := by
    intro g n hg
    rw [report_eq_updateCore]
    exact aggregate_modify hg c.perCoreStats coreId.toNat h
  have hkept : ∀ g : CoreStats → UInt64, (∀ s, g (s.record call) = g s) →
      aggregate g (c.report coreId call).perCoreStats = aggregate g c.perCoreStats := by
    intro g hg
    rw [hsum g 0 fun s => by rw [hg, UInt64.add_zero], UInt64.add_zero]
  cases call with
  | tx packets bytes =>
    simp only [getGlobalStats, CoreStats.record, CoreStats.mk.injEq]
    exact ⟨hsum _ packets fun _ => rfl, hkept _ fun _ => rfl, hsum _ bytes fun _ => rfl,
      hkept _ fun _ => rfl, hkept _ fun _ => rfl⟩
  | rx packets bytes =>
    simp only [getGlobalStats, CoreStats.record, CoreStats.mk.injEq]
    exact ⟨hkept _ fun _ => rfl, hsum _ packets fun _ => rfl, hkept _ fun _ => rfl,
      hsum _ bytes fun _ => rfl, hkept _ fun _ => rfl⟩

/-- A report out of range is dropped. -/
theorem report_out_of_range {c : MetricsCollector} {coreId : UInt32}
    (h : c.perCoreStats.length ≤ coreId.toNat) (call : StatsCall) : c.report coreId call = c := by
  rw [report_eq_updateCore, updateCore, List.modify_eq_self h]

/-- Cores with different ids have different slots. -/
theorem getCoreStats_report_ne (c : MetricsCollector) {coreId coreId' : UInt32}
    (hne : coreId ≠ coreId') (call : StatsCall) :
    (c.report coreId call).getCoreStats coreId' = c.getCoreStats coreId' := by
  have hidx : coreId.toNat ≠ coreId'.toNat := fun h => hne (UInt32.toNat_inj.mp h)
  rw [report_eq_updateCore]
  show (c.perCoreStats.modify coreId.toNat _).getD coreId'.toNat {} = _
  rw [getCoreStats, List.getD_eq_getElem?_getD, List.getD_eq_getElem?_getD,
    List.getElem?_modify_ne _ _ hidx]

theorem getGlobalStats_new (numCores : UInt32) (nowNs : UInt64) :
    (new numCores nowNs).getGlobalStats = {} := by
  have hzero : ∀ (count : CoreStats → UInt64) (n : Nat), count {} = 0 →
      aggregate count (List.replicate n {}) = 0 := by
    intro count n h
    induction n with
    | zero => rfl
    | succ n ih => rw [List.replicate_succ, aggregate_cons, h, ih, UInt64.add_zero]
  simp only [getGlobalStats, new, hzero]

theorem length_perCoreStats_new (numCores : UInt32) (nowNs : UInt64) :
    (new numCores nowNs).perCoreStats.length = numCores.toNat :=
  List.length_replicate

end MetricsCollector

/-! ## Runs of the workers -/

/-- One worker reports. -/
def workerReports (c : MetricsCollector) (report : WorkerConfig × StatsCall) : MetricsCollector :=
  c.report report.1.coreId report.2

/-- Every report of a launched worker is in the global counters, whatever the workers report and
    in whatever order, and no worker writes to the slot of another. -/
def EveryCallCounted (rteLcoreIsEnabled : UInt32 → Bool) (timestampDynfieldOffset : Int)
    (nowNs : UInt64) (config : AppConfig) : Prop :=
  ∀ metrics workers, Main.start rteLcoreIsEnabled timestampDynfieldOffset nowNs config =
      some (metrics, workers) →
    ∀ reports, (∀ report ∈ reports, report.1 ∈ workers) →
      let metrics := Run.run workerReports metrics reports
      metrics.getGlobalStats = (reports.map (·.2)).foldl CoreStats.record {} ∧
        ∀ w ∈ workers, ∀ w' ∈ workers, w.coreId ≠ w'.coreId →
          ∀ call, (metrics.report w.coreId call).getCoreStats w'.coreId =
            metrics.getCoreStats w'.coreId

/-- The slots `main` makes for a configuration. -/
def slotCount (config : AppConfig) : UInt32 := UInt32.ofNat config.coreMappings.length

/-- While every report is in range, the global counters follow the reports. -/
theorem getGlobalStats_run {metrics : MetricsCollector}
    (reports : List (WorkerConfig × StatsCall))
    (h : ∀ report ∈ reports, report.1.coreId.toNat < metrics.perCoreStats.length) :
    (Run.run workerReports metrics reports).getGlobalStats =
      (reports.map (·.2)).foldl CoreStats.record metrics.getGlobalStats := by
  induction reports generalizing metrics with
  | nil => rfl
  | cons report reports ih =>
    have hrange := h report List.mem_cons_self
    rw [Run.run_cons, ih, List.map_cons, List.foldl_cons]
    · rw [workerReports, MetricsCollector.getGlobalStats_report hrange]
    · intro report' hmem
      rw [workerReports, MetricsCollector.length_report]
      exact h report' (List.mem_cons_of_mem _ hmem)

/-- The core ids of the launched workers are those of the enabled mappings. -/
theorem exists_worker_iff (rteLcoreIsEnabled : UInt32 → Bool) (timestampDynfieldOffset : Int)
    (config : AppConfig) (coreId : UInt32) :
    (∃ w ∈ Main.launchWorkers rteLcoreIsEnabled timestampDynfieldOffset config,
        w.coreId = coreId) ↔
      ∃ mapping ∈ config.coreMappings, rteLcoreIsEnabled mapping.coreId ∧
        mapping.coreId = coreId := by
  simp only [Main.launchWorkers, List.mem_map, List.mem_filter]
  constructor
  · rintro ⟨w, ⟨mapping, ⟨hmem, henabled⟩, rfl⟩, hid⟩
    exact ⟨mapping, hmem, henabled, hid⟩
  · rintro ⟨mapping, hmem, henabled, hid⟩
    exact ⟨_, ⟨mapping, ⟨hmem, henabled⟩, rfl⟩, hid⟩

theorem start_eq_some_iff (rteLcoreIsEnabled : UInt32 → Bool) (timestampDynfieldOffset : Int)
    (nowNs : UInt64) (config : AppConfig) (metrics : MetricsCollector)
    (workers : List WorkerConfig) :
    Main.start rteLcoreIsEnabled timestampDynfieldOffset nowNs config = some (metrics, workers) ↔
      ConfigParser.validateConfig config ∧ slotCount config ≠ 0 ∧
        .new (slotCount config) nowNs = metrics ∧
        Main.launchWorkers rteLcoreIsEnabled timestampDynfieldOffset config = workers := by
  simp only [Main.start, MetricsCollector.initializeCores, slotCount]
  cases ConfigParser.validateConfig config
  · simp
  · by_cases hzero : UInt32.ofNat config.coreMappings.length = 0
    · simp [hzero]
    · simp [hzero]

/-- Every report of the workers of an accepted configuration is counted exactly when the core id
    of every enabled mapping is below the number of mappings. -/
theorem everyCallCounted_iff (rteLcoreIsEnabled : UInt32 → Bool) (timestampDynfieldOffset : Int)
    (nowNs : UInt64) (config : AppConfig) :
    EveryCallCounted rteLcoreIsEnabled timestampDynfieldOffset nowNs config ↔
      (ConfigParser.validateConfig config → slotCount config ≠ 0 →
        ∀ mapping ∈ config.coreMappings, rteLcoreIsEnabled mapping.coreId →
          mapping.coreId < slotCount config) := by
  constructor
  · intro h hvalid hslots mapping hmem henabled
    have hstart := (start_eq_some_iff rteLcoreIsEnabled timestampDynfieldOffset nowNs config _
      _).mpr ⟨hvalid, hslots, rfl, rfl⟩
    obtain ⟨w, hw, hid⟩ := (exists_worker_iff rteLcoreIsEnabled timestampDynfieldOffset config
      mapping.coreId).mpr ⟨mapping, hmem, henabled, rfl⟩
    by_contra hout
    -- one report of that mapping's worker is lost
    have hcounted := (h _ _ hstart [(w, .tx 1 0)] (by simpa using hw)).1
    rw [Run.run_cons, Run.run_nil, workerReports, MetricsCollector.report_out_of_range,
      MetricsCollector.getGlobalStats_new] at hcounted
    · exact absurd (show (0 : UInt64) = 0 + 1 from congrArg CoreStats.txPackets hcounted)
        (by decide)
    · rw [hid, MetricsCollector.length_perCoreStats_new]
      rwa [UInt32.lt_iff_toNat_lt, not_lt] at hout
  · intro h metrics workers hstart reports hmem
    obtain ⟨hvalid, hslots, rfl, rfl⟩ := (start_eq_some_iff ..).mp hstart
    refine ⟨?_, fun w _ w' _ hne call => MetricsCollector.getCoreStats_report_ne _ hne call⟩
    rw [getGlobalStats_run, MetricsCollector.getGlobalStats_new]
    intro report hreport
    obtain ⟨mapping, hmapping, henabled, hid⟩ := (exists_worker_iff ..).mp
      ⟨report.1, hmem report hreport, rfl⟩
    rw [MetricsCollector.length_perCoreStats_new, ← hid, ← UInt32.lt_iff_toNat_lt]
    exact h hvalid hslots mapping hmapping henabled

/-- The default configuration has one mapping, to core 1. -/
theorem defaultConfig_not_counted :
    ConfigParser.validateConfig ConfigParser.getDefaultConfig ∧
      ¬ EveryCallCounted (fun _ => true) (-1) 0 ConfigParser.getDefaultConfig := by
  refine ⟨by decide, fun h => ?_⟩
  have hstart := (start_eq_some_iff (fun _ => true) (-1) 0 ConfigParser.getDefaultConfig _
    _).mpr ⟨by decide, by decide, rfl, rfl⟩
  have hcounted := (h _ _ hstart [(⟨1, 0, 0, 32, 32, false, -1⟩, .tx 1 64)] (by decide)).1
  exact absurd (congrArg CoreStats.txPackets hcounted) (by decide)

end TrafficGen
