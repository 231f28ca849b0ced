import Mathlib.Data.List.Chain
import Mathlib.Data.List.GetD
import TrafficGen.Core.MetricsCollector

/-!
# The latency histogram

A sample is filed under the bucket a search of the bounds ends in, and a report walks the same
table again. The bounds are found by both in range, a report's buckets follow each other from
zero on, and each counts the samples between its bounds: the rounding of the division to `double`
takes no sample over a bound.

## Key results

- `recordLatencyRounded_eq_some`: the search ends in the bucket of the exact latency
- `getLatencyHistogram_eq`: the buckets a report walks over
- `latencyHistogram_partitions`: after any samples and resets the buckets partition the samples
-/

namespace TrafficGen.MetricsCollector

/-! ## The table -/

/-- Every bound can be told from the ones next to it, and from no bound at all. -/
theorem latencyBucketBoundsUs_lt {bound : Nat} (h : bound ∈ latencyBucketBoundsUs) :
    bound < 2 ^ 16 := by
  revert bound
  decide

theorem latencyBucketBoundsUs_sorted : latencyBucketBoundsUs.Pairwise (· ≤ ·) := by decide

/-- The exact latency of a sample, in microseconds. -/
def exactUs (latencyNs : UInt64) : Rat := latencyNs.toNat / 1000

/-- The bounds as exact numbers. -/
def exactBounds : List Rat := latencyBucketBoundsUs.map Nat.cast

/-- The bucket of a sample is its bin among the bounds. -/
theorem latencyBucket_eq_bin (latencyUs : Rat) :
    latencyBucket latencyUs = Binning.bin exactBounds latencyUs := by
  rw [exactBounds, ← List.flatMap_pure_eq_map]
  rfl

theorem length_exactBounds : exactBounds.length + 1 = numLatencyBuckets := rfl

theorem latencyBucket_lt (latencyUs : Rat) : latencyBucket latencyUs < numLatencyBuckets := by
  rw [latencyBucket_eq_bin, ← length_exactBounds]
  exact Nat.lt_succ_of_le (Binning.bin_le_length exactBounds latencyUs)

/-! ## Filing a sample -/

/-- The search goes on from a bucket by the bounds the sample has reached from there. -/
theorem findLatencyBucket_eq (latencyUs : Rat) {fuel idx : Nat} (hidx : idx < numLatencyBuckets)
    (hfuel : numLatencyBuckets ≤ idx + fuel) :
    findLatencyBucket latencyUs fuel idx =
      some (idx + Binning.bin (exactBounds.drop idx) latencyUs) := by
  induction fuel generalizing idx with
  | zero => omega
  | succ fuel ih =>
    rw [findLatencyBucket]
    split
    · next hlt =>
      have hin : idx < latencyBucketBoundsUs.length := Nat.lt_of_succ_lt_succ hlt
      have hdrop : exactBounds.drop idx =
          (latencyBucketBoundsUs[idx] : Rat) :: exactBounds.drop (idx + 1) := by
        rw [exactBounds, ← List.map_drop, List.drop_eq_getElem_cons hin, List.map_cons,
          List.map_drop]
      rw [List.getElem?_eq_getElem hin, hdrop, Binning.bin_cons]
      dsimp only
      split
      · next hreached =>
        rw [ih hlt (by omega)]
        congr 1
        omega
      · rfl
    · next hlast =>
      have hout : exactBounds.length ≤ idx := by
        rw [← length_exactBounds] at hlast
        omega
      rw [List.drop_eq_nil_of_le hout]
      rfl

/-- Rounding to `double` takes no sample over a bound. -/
theorem latencyBucket_round (double : Rounding 53 1074) (latencyNs : UInt64) :
    latencyBucket (double.round (double.round latencyNs.toNat / 1000)) =
      latencyBucket (exactUs latencyNs) := by
  rw [latencyBucket_eq_bin, latencyBucket_eq_bin]
  refine Binning.bin_congr fun b hb => ?_
  obtain ⟨bound, hbound, rfl⟩ := List.mem_map.mp hb
  have hlt := latencyBucketBoundsUs_lt hbound
  -- ten bits behind the point tell a bound from the last nanosecond below it
  have hround := double.le_round_div_iff (n := latencyNs.toNat) (b := bound) (k := 1000) (j := 10)
    (by decide) (by decide) (by decide) (by omega)
  rw [Nat.cast_ofNat] at hround
  rw [hround, exactUs, le_div_iff₀ (by norm_num)]
  exact_mod_cast Iff.rfl

/-- The search ends in the bucket of the exact latency, with the table read in range. -/
theorem findLatencyBucket_round (double : Rounding 53 1074) (latencyNs : UInt64) :
    findLatencyBucket (double.round (double.round latencyNs.toNat / 1000)) numLatencyBuckets 0 =
      some (latencyBucket (exactUs latencyNs)) := by
  rw [findLatencyBucket_eq _ (by decide) (by decide), Nat.zero_add, List.drop_zero,
    ← latencyBucket_eq_bin, latencyBucket_round]

/-- A sample is filed under that bucket, whatever the rounding does to the sum. -/
theorem recordLatencyRounded_eq_some (double : Rounding 53 1074) (c : MetricsCollector)
    (latencyNs : UInt64) :
    ∃ total, c.recordLatencyRounded double latencyNs =
      some { c.recordLatency latencyNs with totalLatencyUs := total } := by
  refine ⟨double.round (c.totalLatencyUs + double.round (double.round latencyNs.toNat / 1000)), ?_⟩
  rw [recordLatencyRounded, findLatencyBucket_round]
  rfl

/-- Without rounding the sum is exact too. -/
theorem recordLatencyRounded_none (c : MetricsCollector) (latencyNs : UInt64) :
    c.recordLatencyRounded (.none 53 1074) latencyNs = some (c.recordLatency latencyNs) := by
  rw [recordLatencyRounded, findLatencyBucket_round]
  rfl

/-! ## Walking over the table -/

/-- The lower bound of a bucket: the bound of the one before it. -/
def bucketMin : Nat → UInt32
  | 0 => 0
  | i + 1 => UInt32.ofNat (latencyBucketBoundsUs.getD i 0)

/-- The upper bound of a bucket; the last has none. -/
def bucketMax (i : Nat) : UInt32 :=
  if i + 1 < numLatencyBuckets then UInt32.ofNat (latencyBucketBoundsUs.getD i 0) else UINT32_MAX

/-- A bucket as it is reported. -/
def bucketInfo (c : MetricsCollector) (i : Nat) : LatencyBucketInfo :=
  ⟨bucketMin i, bucketMax i, c.latencyBuckets.getD i 0⟩

theorem latencyHistogramFrom_eq (c : MetricsCollector) {rounds i : Nat}
    (h : i + rounds = numLatencyBuckets) :
    c.latencyHistogramFrom rounds i (bucketMin i) =
      some ((List.range' i rounds).map c.bucketInfo) := by
  induction rounds generalizing i with
  | zero => rfl
  | succ rounds ih =>
    rw [latencyHistogramFrom, List.range'_succ, List.map_cons]
    split
    · next hlt =>
      have hin : i < latencyBucketBoundsUs.length := Nat.lt_of_succ_lt_succ hlt
      have hbound : bucketMin (i + 1) = UInt32.ofNat latencyBucketBoundsUs[i] := by
        rw [bucketMin, List.getD_eq_getElem _ _ hin]
      have hinfo : c.bucketInfo i =
          ⟨bucketMin i, UInt32.ofNat latencyBucketBoundsUs[i], c.latencyBuckets.getD i 0⟩ := by
        rw [bucketInfo, bucketMax, if_pos hlt, List.getD_eq_getElem _ _ hin]
      rw [List.getElem?_eq_getElem hin]
      dsimp only
      rw [← hbound, ih (by omega), hinfo, ← hbound]
      rfl
    · next hlast =>
      obtain rfl : rounds = 0 := by omega
      have hinfo : c.bucketInfo i = ⟨bucketMin i, UINT32_MAX, c.latencyBuckets.getD i 0⟩ := by
        rw [bucketInfo, bucketMax, if_neg hlast]
      rw [hinfo]
      rfl

/-- The table is read in range, and what is reported are its buckets in order. -/
theorem getLatencyHistogram_eq (c : MetricsCollector) :
    c.getLatencyHistogram = some ((List.range' 0 numLatencyBuckets).map c.bucketInfo) :=
  c.latencyHistogramFrom_eq (Nat.zero_add _)

/-- A bucket ends where the next begins. -/
theorem bucketMin_succ {i : Nat} (h : i + 1 < numLatencyBuckets) :
    bucketMin (i + 1) = bucketMax i := by
  rw [bucketMin, bucketMax, if_pos h]

/-- A sample lies between the bounds of a bucket. -/
def LatencyBucketInfo.Holds (b : LatencyBucketInfo) (latencyNs : UInt64) : Prop :=
  b.minUs.toNat ≤ exactUs latencyNs ∧ (b.maxUs = UINT32_MAX ∨ exactUs latencyNs < b.maxUs.toNat)

instance (b : LatencyBucketInfo) (latencyNs : UInt64) : Decidable (b.Holds latencyNs) :=
  inferInstanceAs (Decidable (_ ∧ _))

theorem exactBounds_sorted : exactBounds.Pairwise (· ≤ ·) := by
  rw [exactBounds, List.pairwise_map]
  exact latencyBucketBoundsUs_sorted.imp Nat.cast_le.mpr

/-- A bound is reported as it is in the table, and not as the end of the last bucket. -/
theorem bound_at {j : Nat} (hj : j < latencyBucketBoundsUs.length) :
    exactBounds[j]? = some (latencyBucketBoundsUs.getD j 0 : Rat) ∧
      (UInt32.ofNat (latencyBucketBoundsUs.getD j 0)).toNat = latencyBucketBoundsUs.getD j 0 ∧
      UInt32.ofNat (latencyBucketBoundsUs.getD j 0) ≠ UINT32_MAX := by
  have hlt := latencyBucketBoundsUs_lt (List.getElem_mem hj)
  rw [List.getD_eq_getElem _ _ hj, exactBounds, List.getElem?_map, List.getElem?_eq_getElem hj]
  have hnat : (UInt32.ofNat latencyBucketBoundsUs[j]).toNat = latencyBucketBoundsUs[j] :=
    UInt32.toNat_ofNat_of_lt' (Nat.lt_trans hlt (by decide))
  refine ⟨rfl, hnat, fun hmax => ?_⟩
  rw [hmax] at hnat
  have : UINT32_MAX.toNat = 2 ^ 32 - 1 := rfl
  omega

/-- The lower end of a bucket is the bound in front of it, if there is one. -/
theorem bucketMin_le_iff {i : Nat} (hi : i < numLatencyBuckets) (latencyNs : UInt64) :
    ((bucketMin i).toNat : Rat) ≤ exactUs latencyNs ↔
      ∀ j b, i = j + 1 → exactBounds[j]? = some b → b ≤ exactUs latencyNs := by
  cases i with
  | zero =>
    refine iff_of_true ?_ fun j b hj => absurd hj (Nat.succ_ne_zero j).symm
    exact div_nonneg (Nat.cast_nonneg _) (by norm_num)
  | succ i =>
    obtain ⟨hget, hnat, -⟩ := bound_at (Nat.lt_of_succ_lt_succ hi)
    show ((UInt32.ofNat (latencyBucketBoundsUs.getD i 0)).toNat : Rat) ≤ _ ↔ _
    rw [hnat]
    constructor
    · intro hlow j b hj hb
      obtain rfl : j = i := (Nat.succ.inj hj).symm
      rw [hget] at hb
      exact Option.some.inj hb ▸ hlow
    · intro hlow
      exact hlow i _ rfl hget

/-- The upper end of a bucket is the bound behind it, if there is one. -/
theorem lt_bucketMax_iff (i : Nat) (latencyNs : UInt64) :
    bucketMax i = UINT32_MAX ∨ exactUs latencyNs < (bucketMax i).toNat ↔
      ∀ b, exactBounds[i]? = some b → exactUs latencyNs < b := by
  by_cases hlast : i + 1 < numLatencyBuckets
  · obtain ⟨hget, hnat, hne⟩ := bound_at (Nat.lt_of_succ_lt_succ hlast)
    rw [bucketMax, if_pos hlast, hnat, hget, or_iff_right hne]
    constructor
    · intro hhigh b hb
      exact Option.some.inj hb ▸ hhigh
    · intro hhigh
      exact hhigh _ rfl
  · refine iff_of_true (.inl (if_neg hlast)) fun b hb => ?_
    rw [List.getElem?_eq_none (by rw [← length_exactBounds] at hlast; omega)] at hb
    cases hb

/-- The bounds of a bucket are those of its bin. -/
theorem holds_bucketInfo_iff (c : MetricsCollector) {i : Nat} (hi : i < numLatencyBuckets)
    (latencyNs : UInt64) :
    (c.bucketInfo i).Holds latencyNs ↔ latencyBucket (exactUs latencyNs) = i := by
  have hin : i ≤ exactBounds.length := by
    rw [← length_exactBounds] at hi
    omega
  rw [latencyBucket_eq_bin, Binning.bin_eq_iff exactBounds_sorted hin]
  exact and_congr (bucketMin_le_iff hi latencyNs) (lt_bucketMax_iff i latencyNs)

/-! ## Runs -/

/-- A call that files a sample, or the one that clears them. -/
inductive LatencyOp where
  | record (coreId : UInt32) (latencyNs : UInt64)
  | resetAll (nowNs : UInt64)
deriving DecidableEq, Repr

/-- The collector after a call, or nothing when the table is read out of range. -/
def applyLatency (double : Rounding 53 1074) (c : MetricsCollector) :
    LatencyOp → Option MetricsCollector
  | .record _ latencyNs => c.recordLatencyRounded double latencyNs
  | .resetAll nowNs => some (c.resetAll nowNs)

/-- The samples on file after a call. -/
def samplesAfter (samples : List UInt64) : LatencyOp → List UInt64
  | .record _ latencyNs => samples ++ [latencyNs]
  | .resetAll _ => []

/-- The samples since the last reset. -/
def samplesSinceReset (ops : List LatencyOp) : List UInt64 :=
  ops.foldl samplesAfter []

/-- Counts added up, modulo `2^64`. -/
def totalCount (counts : List UInt64) : UInt64 :=
  counts.foldr (· + ·) 0

/-- The buckets of a collector are those of the samples. -/
structure Files (c : MetricsCollector) (samples : List UInt64) : Prop where
  length : c.latencyBuckets.length = numLatencyBuckets
  count : ∀ i < numLatencyBuckets, c.latencyBuckets.getD i 0 =
    UInt64.ofNat (samples.countP fun latencyNs => latencyBucket (exactUs latencyNs) = i)
  total : totalCount c.latencyBuckets = c.latencySamples
  samples : c.latencySamples = UInt64.ofNat samples.length

theorem totalCount_modify {counts : List UInt64} {i : Nat} (h : i < counts.length) :
    totalCount (counts.modify i (· + 1)) = totalCount counts + 1 := by
  induction counts generalizing i with
  | nil => exact absurd h (Nat.not_lt_zero i)
  | cons count counts ih =>
    show _ = count + totalCount counts + 1
    cases i with
    | zero =>
      show count + 1 + totalCount counts = _
      rw [UInt64.add_assoc, UInt64.add_comm 1, ← UInt64.add_assoc]
    | succ i =>
      show count + totalCount (counts.modify i (· + 1)) = _
      rw [ih (Nat.lt_of_succ_lt_succ h), UInt64.add_assoc]

/-- Cleared buckets hold no samples. -/
theorem files_nil {c : MetricsCollector}
    (hbuckets : c.latencyBuckets = List.replicate numLatencyBuckets 0)
    (hsamples : c.latencySamples = 0) : Files c [] where
  length := by rw [hbuckets, List.length_replicate]
  count i hi := by
    rw [hbuckets, List.getD_replicate _ hi]
    rfl
  total := by
    rw [hbuckets, hsamples]
    decide
  samples := hsamples

/-- Filing a sample adds one to its bucket. -/
theorem Files.recordLatency {c : MetricsCollector} {samples : List UInt64} (h : Files c samples)
    (latencyNs : UInt64) (total : Rat) :
    Files { c.recordLatency latencyNs with totalLatencyUs := total } (samples ++ [latencyNs]) := by
  have hidx : latencyBucket (exactUs latencyNs) < c.latencyBuckets.length :=
    h.length ▸ latencyBucket_lt _
  have hbuckets : (c.recordLatency latencyNs).latencyBuckets =
      c.latencyBuckets.modify (latencyBucket (exactUs latencyNs)) (· + 1) := by
    show (c.latencyBuckets ++ List.replicate
      (latencyBucket (exactUs latencyNs) + 1 - c.latencyBuckets.length) 0).modify _ _ = _
    rw [Nat.sub_eq_zero_of_le hidx, List.replicate_zero, List.append_nil]
    rfl
  constructor
  · show (c.recordLatency latencyNs).latencyBuckets.length = _
    rw [hbuckets, List.length_modify, h.length]
  · intro i hi
    show (c.recordLatency latencyNs).latencyBuckets.getD i 0 = _
    have hget := List.getElem?_eq_getElem (h.length ▸ hi : i < c.latencyBuckets.length)
    have hcount := h.count i hi
    rw [List.getD_eq_getElem?_getD, hget, Option.getD_some] at hcount
    rw [hbuckets, List.getD_eq_getElem?_getD, List.getElem?_modify, hget, List.countP_append,
      List.countP_singleton]
    by_cases heq : latencyBucket (exactUs latencyNs) = i
    · simp only [heq, if_true, Option.map_eq_map, Option.map_some, Option.getD_some, hcount,
        decide_true, UInt64.ofNat_add]
      rfl
    · simp only [heq, if_false, Option.map_eq_map, Option.map_some, Option.getD_some, hcount,
        decide_false, Bool.false_eq_true, Nat.add_zero]
  · show totalCount (c.recordLatency latencyNs).latencyBuckets = c.latencySamples + 1
    rw [hbuckets, totalCount_modify hidx, h.total]
  · show c.latencySamples + 1 = _
    rw [h.samples, List.length_append, List.length_singleton, UInt64.ofNat_add]
    rfl

/-- A call reads the table in range and keeps the buckets those of the samples. -/
theorem Files.applyLatency {c : MetricsCollector} {samples : List UInt64} (h : Files c samples)
    (double : Rounding 53 1074) (op : LatencyOp) :
    ∃ c', c.applyLatency double op = some c' ∧ Files c' (samplesAfter samples op) := by
  cases op with
  | record coreId latencyNs =>
    obtain ⟨total, htotal⟩ := recordLatencyRounded_eq_some double c latencyNs
    exact ⟨_, htotal, h.recordLatency latencyNs total⟩
  | resetAll nowNs => exact ⟨_, rfl, files_nil rfl rfl⟩

theorem Files.run {c : MetricsCollector} {samples : List UInt64} (h : Files c samples)
    (double : Rounding 53 1074) (ops : List LatencyOp) :
    ∃ c', ops.foldlM (MetricsCollector.applyLatency double) c = some c' ∧
      Files c' (ops.foldl samplesAfter samples) := by
  induction ops generalizing c samples with
  | nil => exact ⟨c, rfl, h⟩
  | cons op ops ih =>
    obtain ⟨c', hop, h'⟩ := h.applyLatency double op
    obtain ⟨c'', hops, h''⟩ := ih h'
    refine ⟨c'', ?_, h''⟩
    rw [List.foldlM_cons, hop]
    exact hops

/-! ## Main theorem -/

/-- Buckets that follow each other from zero on and count the samples between their bounds. -/
structure Partitions (samples : List UInt64) (total : UInt64) (h : List LatencyBucketInfo) :
    Prop where
  fromZero : h.head?.map (·.minUs) = some 0
  contiguous : h.IsChain fun b b' => b'.minUs = b.maxUs
  openEnded : h.getLast?.map (·.maxUs) = some UINT32_MAX
  count : ∀ b ∈ h, b.count = UInt64.ofNat (samples.countP fun latencyNs => b.Holds latencyNs)
  total : totalCount (h.map (·.count)) = total

theorem isChain_bucketInfo (c : MetricsCollector) {rounds i : Nat}
    (h : i + rounds = numLatencyBuckets) :
    ((List.range' i rounds).map c.bucketInfo).IsChain fun b b' => b'.minUs = b.maxUs := by
  induction rounds generalizing i with
  | zero => exact List.IsChain.nil
  | succ rounds ih =>
    rw [List.range'_succ, List.map_cons]
    cases rounds with
    | zero => exact List.IsChain.singleton _
    | succ rounds =>
      have htail := ih (i := i + 1) (by omega)
      rw [List.range'_succ, List.map_cons] at htail ⊢
      exact List.isChain_cons_cons.mpr ⟨bucketMin_succ (by omega), htail⟩

/-- A report of the buckets of some samples partitions them. -/
theorem Files.partitions {c : MetricsCollector} {samples : List UInt64} (h : Files c samples) :
    Partitions samples c.latencySamples
      ((List.range' 0 numLatencyBuckets).map c.bucketInfo) where
  fromZero := rfl
  contiguous := c.isChain_bucketInfo (Nat.zero_add _)
  openEnded := rfl
  count b hb := by
    obtain ⟨i, hi, rfl⟩ := List.mem_map.mp hb
    have hi : i < numLatencyBuckets := by simpa using hi
    simp only [holds_bucketInfo_iff c hi]
    exact h.count i hi
  total := by
    rw [List.map_map, ← h.total]
    congr 1
    refine List.ext_getElem (by simp [h.length]) fun i hi hi' => ?_
    rw [List.getElem_map, List.getElem_range', ← List.getD_eq_getElem _ 0 hi', Nat.one_mul,
      Nat.zero_add]
    rfl

/-- After any samples and resets, on a collector just initialized, the histogram partitions the
    samples since the last reset by their exact latencies. -/
theorem latencyHistogram_partitions (double : Rounding 53 1074) (numCores : UInt32)
    (nowNs : UInt64) (ops : List LatencyOp) :
    ∃ c h, ops.foldlM (applyLatency double) (new numCores nowNs) = some c ∧
      c.getLatencyHistogram = some h ∧
      Partitions (samplesSinceReset ops) c.latencySamples h ∧
      c.latencySamples = UInt64.ofNat (samplesSinceReset ops).length := by
  have hnew : Files (new numCores nowNs) [] := files_nil rfl rfl
  obtain ⟨c, hrun, hfiles⟩ := hnew.run double ops
  exact ⟨c, _, hrun, c.getLatencyHistogram_eq, hfiles.partitions, hfiles.samples⟩

end TrafficGen.MetricsCollector
