import Mathlib.Data.List.GetD
import TrafficGen.Spec.MetricsSums
import TrafficGen.Spec.PassInvariant

/-!
# Bytes counted after the hand-over

`transmit_burst` hands mbufs to the driver and then reads their lengths for the statistics. The
packets are counted right, but the driver may have recycled the mbufs by then, and what is
counted is the length they have afterwards.

## Key results

- `transmitBurst_report`: what a burst adds to the statistics
- `countedAtHandOver_iff`: when that is the length of what was handed over
-/

namespace TrafficGen

open Worker

/-- The bytes of the packets in some mbufs. -/
def Heap.totalLength (heap : Heap) : List MbufId → Nat
  | [] => 0
  | m :: mbufs => (heap m).pktLen.toNat + heap.totalLength mbufs

theorem Heap.totalLength_le (heap : Heap) (mbufs : List MbufId) :
    heap.totalLength mbufs ≤ mbufs.length * 2 ^ 32 := by
  induction mbufs with
  | nil => exact Nat.le_refl 0
  | cons m mbufs ih =>
    have hlt := (heap m).pktLen.toNat_lt
    rw [Heap.totalLength, List.length_cons, Nat.succ_mul]
    omega

/-- The loop that adds up the lengths, in 64 bits. -/
theorem Heap.foldl_pktLen (heap : Heap) (mbufs : List MbufId) (total : UInt64) :
    mbufs.foldl (fun total m => total + (heap m).pktLen.toUInt64) total =
      total + UInt64.ofNat (heap.totalLength mbufs) := by
  induction mbufs generalizing total with
  | nil => exact (UInt64.add_zero total).symm
  | cons m mbufs ih =>
    have hlen : (heap m).pktLen.toUInt64 = UInt64.ofNat (heap m).pktLen.toNat := by
      rw [← UInt64.toNat_inj, UInt32.toNat_toUInt64, UInt64.toNat_ofNat_of_lt']
      exact Nat.lt_trans (heap m).pktLen.toNat_lt (by decide)
    rw [List.foldl_cons, ih, Heap.totalLength, UInt64.ofNat_add, hlen, UInt64.add_assoc]

theorem Heap.totalLength_congr {heap heap' : Heap} {mbufs : List MbufId}
    (h : ∀ m ∈ mbufs, (heap m).pktLen = (heap' m).pktLen) :
    heap.totalLength mbufs = heap'.totalLength mbufs := by
  induction mbufs with
  | nil => rfl
  | cons m mbufs ih =>
    rw [List.forall_mem_cons] at h
    rw [Heap.totalLength, Heap.totalLength, h.1, ih h.2]

namespace Worker

variable {cfg : WorkerConfig} {tx : TxAnswer} {heap : Heap} {burst : List MbufId}

/-- The mbufs of a burst that the driver takes. -/
def sentMbufs (tx : TxAnswer) (burst : List MbufId) : List MbufId :=
  burst.take tx.accept.toNat

/-- The heap when the driver has recycled every mbuf it took. -/
def recycled (tx : TxAnswer) (heap : Heap) : Heap :=
  fun m => tx.recycle m (heap m)

/-- Adding nothing changes nothing. -/
theorem updateTxStats_zero (metrics : MetricsCollector) (coreId : UInt32) :
    metrics.updateTxStats coreId 0 0 = metrics := by
  have hid : (fun s : CoreStats => { s with
      txPackets := s.txPackets + 0, txBytes := s.txBytes + 0 }) = id := by
    funext s
    simp only [UInt64.add_zero, id]
  rw [MetricsCollector.updateTxStats, MetricsCollector.updateCore, hid, List.modify_id]

/-- A burst adds the packets sent, and the bytes the driver has left in them. -/
theorem transmitBurst_report (metrics : MetricsCollector) :
    (transmitBurst cfg tx heap metrics (burst.map some)).2.1 =
      metrics.updateTxStats cfg.coreId (UInt64.ofNat (sentMbufs tx burst).length)
        (UInt64.ofNat ((recycled tx heap).totalLength (sentMbufs tx burst))) := by
  have hfilter : ∀ l : List MbufId, (l.map some).filterMap id = l := fun l => by
    rw [List.filterMap_map, Function.id_comp, List.filterMap_some]
  have hlen : (sentMbufs tx burst).length = min tx.accept.toNat burst.length := List.length_take
  have htake : burst.take (min tx.accept.toNat burst.length) = sentMbufs tx burst := by
    rw [← List.take_take, List.take_length, sentMbufs]
  -- every mbuf the loop reads is one the driver took
  have hread : ∀ m ∈ sentMbufs tx burst,
      (if some m ∈ (sentMbufs tx burst).map some then tx.recycle m (heap m) else heap m).pktLen =
        (recycled tx heap m).pktLen := by
    intro m hm
    rw [if_pos (List.mem_map_of_mem hm), recycled]
  -- nothing is reported where nothing is sent
  have hnone : min tx.accept.toNat burst.length = 0 →
      metrics = metrics.updateTxStats cfg.coreId (UInt64.ofNat (sentMbufs tx burst).length)
        (UInt64.ofNat ((recycled tx heap).totalLength (sentMbufs tx burst))) := by
    intro hzero
    rw [List.length_eq_zero_iff.mp (hlen.trans hzero)]
    exact (updateTxStats_zero metrics cfg.coreId).symm
  rw [transmitBurst, List.length_map]
  split
  · next hnil => exact hnone (by omega)
  · simp only [rteEthTxBurst, List.length_map, ← List.map_take, htake, hfilter,
      Heap.foldl_pktLen, UInt64.zero_add]
    split
    · rw [Heap.totalLength_congr hread, hlen]
    · next hsent => exact hnone (by omega)

/-- The packets sent and the bytes they had at the hand-over are what is counted, whatever was
    counted before. -/
def CountedAtHandOver (cfg : WorkerConfig) (tx : TxAnswer) (heap : Heap) (burst : List MbufId) :
    Prop :=
  ∀ metrics : MetricsCollector, (transmitBurst cfg tx heap metrics (burst.map some)).2.1 =
    metrics.updateTxStats cfg.coreId (UInt64.ofNat (sentMbufs tx burst).length)
      (UInt64.ofNat (heap.totalLength (sentMbufs tx burst)))

/-- No burst has `2^64` bytes. -/
theorem ofNat_totalLength_inj {heap' : Heap} :
    UInt64.ofNat (heap.totalLength (sentMbufs tx burst)) =
        UInt64.ofNat (heap'.totalLength (sentMbufs tx burst)) ↔
      heap.totalLength (sentMbufs tx burst) = heap'.totalLength (sentMbufs tx burst) := by
  have hlt : ∀ heap : Heap, heap.totalLength (sentMbufs tx burst) < 2 ^ 64 := by
    intro heap
    have hle := heap.totalLength_le (sentMbufs tx burst)
    have hsent : (sentMbufs tx burst).length ≤ tx.accept.toNat := List.length_take_le _ _
    have haccept := tx.accept.toNat_lt
    omega
  rw [← UInt64.toNat_inj, UInt64.toNat_ofNat_of_lt' (hlt heap),
    UInt64.toNat_ofNat_of_lt' (hlt heap')]

/-- A collector in which a core has counted nothing. -/
def silentMetrics (coreId : UInt32) : MetricsCollector :=
  { MetricsCollector.new 0 0 with perCoreStats := List.replicate (coreId.toNat + 1) {} }

theorem getCoreStats_silentMetrics (coreId : UInt32) :
    (silentMetrics coreId).getCoreStats coreId = {} := by
  rw [MetricsCollector.getCoreStats, silentMetrics,
    List.getD_replicate _ (Nat.lt_succ_self coreId.toNat)]

/-- For every burst, number of mbufs taken and driver, the bytes counted are those handed over
    exactly when the driver leaves their sum in the mbufs it took. -/
theorem countedAtHandOver_iff (cfg : WorkerConfig) (tx : TxAnswer) (heap : Heap)
    (burst : List MbufId) :
    CountedAtHandOver cfg tx heap burst ↔
      (recycled tx heap).totalLength (sentMbufs tx burst) =
        heap.totalLength (sentMbufs tx burst) := by
  constructor
  · intro h
    -- read the bytes back from a core that has counted nothing
    have hcore : ∀ packets bytes, ((silentMetrics cfg.coreId).updateTxStats cfg.coreId packets
        bytes).getCoreStats cfg.coreId = { txPackets := packets, txBytes := bytes } := by
      intro packets bytes
      have hin : cfg.coreId.toNat < (silentMetrics cfg.coreId).perCoreStats.length := by
        rw [silentMetrics, List.length_replicate]
        exact Nat.lt_succ_self _
      rw [MetricsCollector.updateTxStats, MetricsCollector.getCoreStats_updateCore _ _ _ hin,
        if_pos rfl, getCoreStats_silentMetrics]
      simp
    have hmetrics := h (silentMetrics cfg.coreId)
    rw [transmitBurst_report] at hmetrics
    have hstats := congrArg (·.getCoreStats cfg.coreId) hmetrics
    simp only [hcore, CoreStats.mk.injEq, true_and, and_true] at hstats
    exact ofNat_totalLength_inj.mp hstats
  · intro heq metrics
    rw [transmitBurst_report, heq]

/-- A driver that takes every mbuf, frees it and leaves its length at zero. -/
def recycling : TxAnswer where
  accept := 65535
  recycle _ m := { m with pktLen := 0 }

/-- A packet of 64 bytes is sent through it, and no bytes are counted. -/
theorem not_countedAtHandOver_recycling :
    ¬ CountedAtHandOver .sample recycling (fun _ => { Mbuf.sample with pktLen := 64 }) [7] := by
  intro h
  have hreport := h (silentMetrics 1)
  rw [transmitBurst_report] at hreport
  have hstats := congrArg (·.getCoreStats 1) hreport
  exact absurd hstats (by decide)

end Worker

end TrafficGen
