import Mathlib.Data.List.AList
import TrafficGen.ForStd.Binning

/-!
# Metrics collector

`CoreStats` of `core/common/types.hpp` and the counters of
`core/stats/metrics_collector.cpp`. Latencies are rationals, in microseconds.
-/

namespace TrafficGen

/-- Per-core statistics, each counter modulo `2^64`. -/
structure CoreStats where
  txPackets : UInt64 := 0
  rxPackets : UInt64 := 0
  txBytes : UInt64 := 0
  rxBytes : UInt64 := 0
  errors : UInt64 := 0
deriving DecidableEq, Repr

/-- The counters of a core when its rate was last polled. -/
structure RateSnapshot where
  packets : UInt64
  bytes : UInt64
  timestampNs : UInt64
deriving DecidableEq, Repr

/-- Metrics collector for per-core and global statistics. -/
structure MetricsCollector where
  perCoreStats : List CoreStats
  startTimeNs : UInt64
  running : Bool
  latencyBuckets : List UInt64
  totalLatencyUs : Rat
  latencySamples : UInt64
  lastSnapshot : AList fun _ : UInt32 => RateSnapshot

namespace MetricsCollector

/-- `kNumLatencyBuckets` -/
def numLatencyBuckets : Nat := 10

/-- A collector of `numCores` cores, as `initialize` leaves it. -/
def new (numCores : UInt32) (nowNs : UInt64) : MetricsCollector where
  perCoreStats := List.replicate numCores.toNat {}
  startTimeNs := nowNs
  running := false
  latencyBuckets := List.replicate numLatencyBuckets 0
  totalLatencyUs := 0
  latencySamples := 0
  lastSnapshot := ∅

/-- Apply `update` to the counters of a core; an id out of range is ignored. -/
def updateCore (c : MetricsCollector) (coreId : UInt32) (update : CoreStats → CoreStats) :
    MetricsCollector :=
  { c with perCoreStats := c.perCoreStats.modify coreId.toNat update }

/-- Update TX statistics for a core. -/
def updateTxStats (c : MetricsCollector) (coreId : UInt32) (packets bytes : UInt64) :
    MetricsCollector :=
  c.updateCore coreId fun s =>
    { s with txPackets := s.txPackets + packets, txBytes := s.txBytes + bytes }

/-- Update RX statistics for a core. -/
def updateRxStats (c : MetricsCollector) (coreId : UInt32) (packets bytes : UInt64) :
    MetricsCollector :=
  c.updateCore coreId fun s =>
    { s with rxPackets := s.rxPackets + packets, rxBytes := s.rxBytes + bytes }

/-- Update error count for a core. -/
def updateErrors (c : MetricsCollector) (coreId : UInt32) (count : UInt64) : MetricsCollector :=
  c.updateCore coreId fun s => { s with errors := s.errors + count }

/-- Initialize collector with number of cores; none is refused. -/
def initializeCores (numCores : UInt32) (nowNs : UInt64) : Option MetricsCollector :=
  if numCores = 0 then none else some (new numCores nowNs)

/-- Get statistics for a core; a core out of range has none. -/
def getCoreStats (c : MetricsCollector) (coreId : UInt32) : CoreStats :=
  c.perCoreStats.getD coreId.toNat {}

/-- One counter added up over the cores, modulo `2^64`. -/
def aggregate (count : CoreStats → UInt64) (stats : List CoreStats) : UInt64 :=
  stats.foldl (fun total s => total + count s) 0

/-- Get global aggregated statistics. -/
def getGlobalStats (c : MetricsCollector) : CoreStats where
  txPackets := aggregate (·.txPackets) c.perCoreStats
  rxPackets := aggregate (·.rxPackets) c.perCoreStats
  txBytes := aggregate (·.txBytes) c.perCoreStats
  rxBytes := aggregate (·.rxBytes) c.perCoreStats
  errors := aggregate (·.errors) c.perCoreStats

/-- Reset all statistics. -/
def resetAll (c : MetricsCollector) (nowNs : UInt64) : MetricsCollector :=
  { c with
    perCoreStats := c.perCoreStats.map fun _ => {}
    lastSnapshot := ∅
    startTimeNs := nowNs
    latencyBuckets := List.replicate numLatencyBuckets 0
    totalLatencyUs := 0
    latencySamples := 0 }

/-- Reset specific core statistics. -/
def resetCore (c : MetricsCollector) (coreId : UInt32) : MetricsCollector :=
  if coreId.toNat < c.perCoreStats.length then
    { c.updateCore coreId fun _ => {} with lastSnapshot := c.lastSnapshot.erase coreId }
  else c

/-- Set running state. -/
def setRunning (c : MetricsCollector) (running : Bool) : MetricsCollector :=
  { c with running }

/-! ## Latency -/

/-- `kLatencyBucketBoundsUs`, in microseconds. -/
def latencyBucketBoundsUs : List Nat := [10, 50, 100, 250, 500, 1000, 5000, 10000, 50000]

/-- The bucket of a sample: the number of bounds it has reached. -/
def latencyBucket (latencyUs : Rat) : Nat :=
  (latencyBucketBoundsUs.takeWhile fun bound => (bound : Rat) ≤ latencyUs).length

/-- Record one latency sample, in nanoseconds. -/
def recordLatency (c : MetricsCollector) (latencyNs : UInt64) : MetricsCollector :=
  let latencyUs : Rat := latencyNs.toNat / 1000
  let idx := latencyBucket latencyUs
  let buckets := c.latencyBuckets ++ List.replicate (idx + 1 - c.latencyBuckets.length) 0
  { c with
    totalLatencyUs := c.totalLatencyUs + latencyUs
    latencySamples := c.latencySamples + 1
    latencyBuckets := buckets.modify idx (· + 1) }

/-- The search of `record_latency`, from bucket `idx` on and for at most `fuel` rounds. Reading
    the table out of range gives nothing. -/
def findLatencyBucket (latencyUs : Rat) : Nat → Nat → Option Nat
  | 0, _ => none
  | fuel + 1, idx =>
    if idx + 1 < numLatencyBuckets then
      match latencyBucketBoundsUs[idx]? with
      | none => none
      | some bound =>
        if bound ≤ latencyUs then findLatencyBucket latencyUs fuel (idx + 1) else some idx
    else some idx

/-- Record one latency sample as the source computes it: `double` is rounded to, and the table is
    searched. -/
def recordLatencyRounded (double : Rounding 53 1074) (c : MetricsCollector) (latencyNs : UInt64) :
    Option MetricsCollector :=
  let latencyUs := double.round (double.round latencyNs.toNat / 1000)
  match findLatencyBucket latencyUs numLatencyBuckets 0 with
  | none => none
  | some idx =>
    let buckets := c.latencyBuckets ++ List.replicate (idx + 1 - c.latencyBuckets.length) 0
    some { c with
      totalLatencyUs := double.round (c.totalLatencyUs + latencyUs)
      latencySamples := c.latencySamples + 1
      latencyBuckets := buckets.modify idx (· + 1) }

/-- A bucket as it is reported; `UINT32_MAX` is no upper bound. -/
structure LatencyBucketInfo where
  minUs : UInt32
  maxUs : UInt32
  count : UInt64
deriving DecidableEq, Repr

/-- `std::numeric_limits<uint32_t>::max()` -/
def UINT32_MAX : UInt32 := 0xFFFFFFFF

/-- The loop of `get_latency_histogram`, from bucket `i` on for the number of rounds left. -/
def latencyHistogramFrom (c : MetricsCollector) :
    Nat → Nat → UInt32 → Option (List LatencyBucketInfo)
  | 0, _, _ => some []
  | rounds + 1, i, prevBound =>
    let count := c.latencyBuckets.getD i 0
    if i + 1 < numLatencyBuckets then
      match latencyBucketBoundsUs[i]? with
      | none => none
      | some bound =>
        (latencyHistogramFrom c rounds (i + 1) (UInt32.ofNat bound)).map
          (⟨prevBound, UInt32.ofNat bound, count⟩ :: ·)
    else (latencyHistogramFrom c rounds (i + 1) prevBound).map (⟨prevBound, UINT32_MAX, count⟩ :: ·)

/-- Get the latency histogram, or nothing when the table is read out of range. -/
def getLatencyHistogram (c : MetricsCollector) : Option (List LatencyBucketInfo) :=
  c.latencyHistogramFrom numLatencyBuckets 0 0

/-! ## Rates

A poll reads the clock twice: for the snapshot it may take, and for the rate it then
measures against the snapshot. -/

/-- The nanoseconds from `then` to `now`. -/
def elapsedNs (nowNs thenNs : UInt64) : Int := nowNs.toNat - thenNs.toNat

/-- Update snapshot for rate calculation, when there is none or it is a second old. -/
def updateSnapshot (c : MetricsCollector) (coreId : UInt32) (nowNs : UInt64) :
    MetricsCollector :=
  match c.perCoreStats[coreId.toNat]? with
  | none => c
  | some stats =>
    let current := { packets := stats.txPackets, bytes := stats.txBytes, timestampNs := nowNs }
    match c.lastSnapshot.lookup coreId with
    | none => { c with lastSnapshot := c.lastSnapshot.insert coreId current }
    | some last =>
      if 1 ≤ (elapsedNs nowNs last.timestampNs).tdiv 1000000000 then
        { c with lastSnapshot := c.lastSnapshot.insert coreId current }
      else c

/-- The rate of a counter since the snapshot, per second. The snapshot is brought up to date
    before the rate is measured. -/
def calculateCurrentRate (count : CoreStats → UInt64) (counted : RateSnapshot → UInt64)
    (unit : Rat) (c : MetricsCollector) (coreId : UInt32) (nowNs rateNowNs : UInt64) :
    Rat × MetricsCollector :=
  match c.perCoreStats[coreId.toNat]? with
  | none => (0, c)
  | some stats =>
    let c := c.updateSnapshot coreId nowNs
    match c.lastSnapshot.lookup coreId with
    | none => (0, c)
    | some last =>
      let elapsedMs := (elapsedNs rateNowNs last.timestampNs).tdiv 1000000
      if elapsedMs ≤ 0 then (0, c)
      else
        let delta := if count stats > counted last then count stats - counted last else 0
        (delta.toNat * unit / (elapsedMs / 1000), c)

/-- Calculate current PPS (packets per second). -/
def calculateCurrentPps : MetricsCollector → UInt32 → UInt64 → UInt64 → Rat × MetricsCollector :=
  calculateCurrentRate (·.txPackets) (·.packets) 1

/-- Calculate current BPS (bits per second). -/
def calculateCurrentBps : MetricsCollector → UInt32 → UInt64 → UInt64 → Rat × MetricsCollector :=
  calculateCurrentRate (·.txBytes) (·.bytes) 8

/-- The sum of a rate over the cores. `clock` gives the two reads of each core's poll. -/
def calculateGlobalRate
    (rate : MetricsCollector → UInt32 → UInt64 → UInt64 → Rat × MetricsCollector)
    (c : MetricsCollector) (clock : UInt32 → UInt64 × UInt64) : Rat × MetricsCollector :=
  (List.range c.perCoreStats.length).foldl
    (fun total i =>
      let coreId := UInt32.ofNat i
      let (coreRate, c) := rate total.2 coreId (clock coreId).1 (clock coreId).2
      (total.1 + coreRate, c))
    (0, c)

/-- Get uptime in seconds. -/
def getUptimeSeconds (c : MetricsCollector) (nowNs : UInt64) : UInt64 :=
  UInt64.ofInt ((elapsedNs nowNs c.startTimeNs).tdiv 1000000000)

end MetricsCollector

end TrafficGen
