import TrafficGen.Control.Server
import TrafficGen.Core.Receive
import TrafficGen.Spec.ClonedPackets

/-!
# Latency samples

The send time of a packet is written into its mbuf and read from whatever mbuf a frame is
received in. The pool hands mbufs out again with the field as it was, so the field of an mbuf
holds the send time of the last packet built in it, through any run (`stamped_run`). A sample is
right when that packet is the frame received.

## Key results

- `stamps_processFlows`: a pass writes the field of the mbufs it builds packets in, and no other
- `latency_receiveRound`: the latencies recorded of a burst are its samples
- `right_iff_each`: the samples of a run are right exactly when each frame is received in an mbuf
  that holds no send time but its own
-/

namespace TrafficGen

variable {r : Rng}

/-! ## Send times -/

/-- The send time of a packet: the clock read its mbuf was stamped with. -/
def BuiltPacket.sentNs (b : BuiltPacket) : UInt64 := b.frame.timestamp

/-- The send time of the last packet built in an mbuf. -/
def lastStamp (built : List BuiltPacket) (m : MbufId) : Option UInt64 :=
  (built.filterMap fun b => if b.mbuf = m then some b.sentNs else none).getLast?

theorem lastStamp_append (as bs : List BuiltPacket) (m : MbufId) :
    lastStamp (as ++ bs) m = (lastStamp bs m).or (lastStamp as m) := by
  rw [lastStamp, List.filterMap_append, List.getLast?_append]
  rfl

theorem lastStamp_singleton_self (b : BuiltPacket) : lastStamp [b] b.mbuf = some b.sentNs := by
  rw [lastStamp, List.filterMap_cons, if_pos rfl]
  rfl

theorem lastStamp_singleton_ne {b : BuiltPacket} {m : MbufId} (h : b.mbuf ≠ m) :
    lastStamp [b] m = none := by
  rw [lastStamp, List.filterMap_cons, if_neg h]
  rfl

/-- An mbuf is replaced by one with the same timestamp field. -/
theorem Heap.timestamp_set {heap : Heap} {m : MbufId} {mb : Mbuf}
    (h : mb.timestamp = (heap m).timestamp) (i : MbufId) :
    (heap.set m mb i).timestamp = (heap i).timestamp := by
  by_cases hi : i = m
  · rw [hi, Heap.set_self, h]
  · rw [Heap.set_ne _ _ hi]

/-- The field of each mbuf holds the send time of the last packet built in it, and what it held
    in `heap` when there is none. -/
def Heap.Stamped (heap : Heap) (built : List BuiltPacket) (now : Heap) : Prop :=
  ∀ m, (now m).timestamp = (lastStamp built m).getD (heap m).timestamp

namespace Heap.Stamped

variable {heap now : Heap} {built : List BuiltPacket}

/-- Writes that keep the fields. -/
theorem congr (h : heap.Stamped built now) {now' : Heap}
    (hsame : ∀ m, (now' m).timestamp = (now m).timestamp) : heap.Stamped built now' :=
  fun m => (hsame m).trans (h m)

/-- A packet is built. -/
theorem push (h : heap.Stamped built now) (b : BuiltPacket) :
    heap.Stamped (built ++ [b]) (now.set b.mbuf b.frame) := by
  intro m
  rw [lastStamp_append]
  by_cases hm : b.mbuf = m
  · rw [← hm, lastStamp_singleton_self, Heap.set_self]
    rfl
  · rw [lastStamp_singleton_ne hm, Heap.set_ne _ _ (Ne.symm hm)]
    exact h m

end Heap.Stamped

namespace Worker

variable {cfg : WorkerConfig} {d : Dpdk} {imix : IMIXEngine}

/-! ## What a pass writes -/

/-- The stamp of a packet is the clock read of its turn, when the field is registered. -/
theorem sentNs_builtPacket (hfield : cfg.timestampDynfieldOffset ≠ -1) (flowId : UInt32)
    (flow : FlowConfigInternal) (turn : Turn) (m : MbufId) (mb : Mbuf) :
    (builtPacket cfg d flowId flow turn m mb).sentNs = turn.timestampNs := by
  have hstamp : ∀ mb, (stampMbuf cfg mb turn.timestampNs).timestamp = turn.timestampNs := by
    intro mb
    rw [stampMbuf, if_pos hfield]
  rw [BuiltPacket.sentNs, builtPacket]
  cases hstate : flow.isStatefulTcp with
  | false =>
    rw [finishPacket_plain cfg d mb turn.timestampNs hstate]
    exact hstamp mb
  | true =>
    obtain ⟨conn, hconn⟩ := flow.exists_conn hstate
    rw [finishPacket_stateful cfg d mb turn.timestampNs hstate hconn]
    exact hstamp _

/-- A round writes the field of the mbuf it builds a packet in. -/
theorem Round.stamped {heap : Heap} {flowId : UInt32} {turn : Turn} {p q : Pass r}
    (h : Round cfg d imix flowId turn p q) (hp : heap.Stamped p.built p.heap) :
    heap.Stamped q.built q.heap := by
  cases h with
  | skip | idle => exact hp
  | fill => exact hp.congr (Heap.timestamp_set rfl)
  | free flow errno m mb mutator _ _ _ _ hclone =>
    have hfields := p.mutator.fields_cloneAndMutate d (p.heap m)
      (flow.finalTemplate imix turn.imixDraw) 0 true
    rw [hclone] at hfields
    exact hp.congr (Heap.timestamp_set hfields.2)
  | build flow errno m mb mutator => exact hp.push (builtPacket cfg d flowId flow turn m mb)

/-- A driver that recycles mbufs keeps their dynamic fields. -/
def PassInput.KeepsFields (input : PassInput) : Prop :=
  ∀ m mb, (input.tx.recycle m mb).timestamp = mb.timestamp

theorem timestamp_transmitBurst {tx : TxAnswer}
    (hkeeps : ∀ m mb, (tx.recycle m mb).timestamp = mb.timestamp) (heap : Heap)
    (metrics : MetricsCollector) (mbufs : List (Option MbufId)) (m : MbufId) :
    ((transmitBurst cfg tx heap metrics mbufs).1 m).timestamp = (heap m).timestamp := by
  rw [transmitBurst]
  split
  · rfl
  · show ((if _ then _ else _ : Mbuf)).timestamp = _
    split
    · exact hkeeps m _
    · rfl

/-- A pass writes the field of the mbufs it builds packets in. -/
theorem stamps_processFlows (cfg : WorkerConfig) (d : Dpdk) (r : Rng) (sys : System)
    {input : PassInput} (hkeeps : input.KeepsFields) :
    sys.heap.Stamped (processFlows cfg d r sys input).2.built
      (processFlows cfg d r sys input).1.heap := by
  rw [processFlows_eq_sendReady, sendReady_report cfg d r _ input.time _ input.tx rfl]
  have hloop : sys.heap.Stamped _ _ := serveFlows_induct cfg d sys.imixEngine
    (P := fun p : Pass r => sys.heap.Stamped p.built p.heap)
    (fun _ _ _ _ _ hround hp => hround.stamped hp) (readyTurns cfg sys input).1
    (p := startPass cfg r { sys with scheduler := (readyTurns cfg sys input).2 } input.time)
    (fun _ => rfl)
  exact hloop.congr (timestamp_transmitBurst hkeeps _ _ _)

/-! ## What a burst records -/

/-- The latency recorded of a received mbuf. -/
def rxSample (cfg : WorkerConfig) (nowNs : UInt64) (mb : Mbuf) : Option UInt64 :=
  if cfg.timestampDynfieldOffset ≠ -1 ∧ mb.timestamp ≠ 0 ∧ nowNs > mb.timestamp then
    some (nowNs - mb.timestamp)
  else none

theorem recordRxLatency_eq (cfg : WorkerConfig) (metrics : MetricsCollector) (mb : Mbuf)
    (nowNs : UInt64) :
    recordRxLatency cfg metrics mb nowNs =
      (rxSample cfg nowNs mb).elim metrics metrics.recordLatency := by
  rw [recordRxLatency, rxSample]
  split_ifs with hfield hsample hboth hboth hboth
  · rfl
  · exact absurd ⟨hfield, hsample⟩ hboth
  · exact absurd hboth.2 hsample
  · rfl
  · exact absurd hboth.1 hfield
  · rfl

theorem foldl_recordRxLatency (cfg : WorkerConfig) (metrics : MetricsCollector) (nowNs : UInt64)
    (mbufs : List Mbuf) :
    mbufs.foldl (fun c mb => recordRxLatency cfg c mb nowNs) metrics =
      (mbufs.filterMap (rxSample cfg nowNs)).foldl MetricsCollector.recordLatency metrics := by
  induction mbufs generalizing metrics with
  | nil => rfl
  | cons mb mbufs ih =>
    rw [List.foldl_cons, ih, recordRxLatency_eq]
    cases hsample : rxSample cfg nowNs mb with
    | none => rw [List.filterMap_cons_none hsample, Option.elim_none]
    | some latencyNs =>
      rw [List.filterMap_cons_some hsample, Option.elim_some, List.foldl_cons]

end Worker

/-- A latency recorded of a frame received at `nowNs`. `sentNs` is when this process sent the
    frame, if it did. -/
structure LatencySample where
  sentNs : Option UInt64
  nowNs : UInt64
  latencyNs : UInt64
deriving DecidableEq, Repr

/-- The sample is the time from the sending of the frame to its receipt. -/
def LatencySample.Right (s : LatencySample) : Prop :=
  ∃ sentNs, s.sentNs = some sentNs ∧ (s.latencyNs.toNat : Int) = s.nowNs.toNat - sentNs.toNat

namespace Worker

/-- The samples of the frames that wait in the RX queue, each with when this process sent it. -/
def burstSamples (cfg : WorkerConfig) (heap : Heap) (arrivals : List (RxFrame × Option UInt64))
    (nowNs : UInt64) : List LatencySample :=
  if cfg.enableRx then
    let received := (receiveBurst cfg heap (arrivals.map (·.1))).1
    (arrivals.take cfg.rxBurstSize.toNat).filterMap fun (frame, sentNs) =>
      (rxSample cfg nowNs (received frame.mbuf)).map fun latencyNs => { sentNs, nowNs, latencyNs }
  else []

/-- The latencies recorded of a burst are those of its samples, in order. -/
theorem latency_receiveRound (cfg : WorkerConfig) (sys : System)
    (arrivals : List (RxFrame × Option UInt64)) (nowNs : UInt64) (eventNs : Nat → UInt64) :
    let recorded := ((burstSamples cfg sys.heap arrivals nowNs).map (·.latencyNs)).foldl
      MetricsCollector.recordLatency sys.metricsCollector
    let metrics := (receiveRound cfg sys (arrivals.map (·.1)) nowNs eventNs).metricsCollector
    metrics.totalLatencyUs = recorded.totalLatencyUs ∧
      metrics.latencySamples = recorded.latencySamples ∧
      metrics.latencyBuckets = recorded.latencyBuckets := by
  dsimp only
  rw [receiveRound, burstSamples]
  cases cfg.enableRx with
  | false => exact ⟨rfl, rfl, rfl⟩
  | true =>
    rw [if_pos rfl, if_pos rfl, receiveBurst, ← List.map_take]
    generalize arrivals.take cfg.rxBurstSize.toNat = taken
    dsimp only
    generalize rteEthRxBurst sys.heap (taken.map (·.1)) = heap
    have hsamples : (taken.filterMap fun (frame, sentNs) =>
          (rxSample cfg nowNs (heap frame.mbuf)).map fun latencyNs =>
            ({ sentNs, nowNs, latencyNs } : LatencySample)).map (·.latencyNs) =
        (((taken.map (·.1)).map (·.mbuf)).map heap).filterMap (rxSample cfg nowNs) := by
      rw [List.map_filterMap, List.filterMap_map, List.filterMap_map, List.filterMap_map]
      congr 1
      funext a
      show Option.map _ (Option.map _ (rxSample cfg nowNs (heap a.1.mbuf))) =
        rxSample cfg nowNs (heap a.1.mbuf)
      cases rxSample cfg nowNs (heap a.1.mbuf) <;> rfl
    rw [hsamples, ← foldl_recordRxLatency, processReceivedPackets]
    have hmbufs : (((taken.map (·.1)).map (·.mbuf)).map fun m => some (heap m)).reduceOption =
        ((taken.map (·.1)).map (·.mbuf)).map heap := by
      show List.filterMap id _ = _
      rw [List.filterMap_map]
      exact congrFun List.filterMap_eq_map' _
    cases taken with
    | nil => exact ⟨rfl, rfl, rfl⟩
    | cons a taken =>
      rw [if_neg (by simp)]
      dsimp only
      rw [hmbufs]
      split <;> exact ⟨rfl, rfl, rfl⟩

/-- A burst that is received leaves the fields alone. -/
theorem timestamp_rteEthRxBurst (heap : Heap) (frames : List RxFrame) (m : MbufId) :
    (rteEthRxBurst heap frames m).timestamp = (heap m).timestamp := by
  induction frames generalizing heap with
  | nil => rfl
  | cons frame frames ih =>
    show (rteEthRxBurst _ frames m).timestamp = _
    rw [ih]
    have hfill : (frame.fill (heap frame.mbuf)).timestamp = (heap frame.mbuf).timestamp := rfl
    exact Heap.timestamp_set hfill m

theorem rxSample_eq_some_iff {cfg : WorkerConfig} {nowNs : UInt64} {mb : Mbuf}
    {latencyNs : UInt64} :
    rxSample cfg nowNs mb = some latencyNs ↔
      (cfg.timestampDynfieldOffset ≠ -1 ∧ mb.timestamp ≠ 0 ∧ mb.timestamp < nowNs) ∧
        nowNs - mb.timestamp = latencyNs := by
  rw [rxSample]
  split
  · next h => exact ⟨fun heq => ⟨h, Option.some.inj heq⟩, fun heq => congrArg some heq.2⟩
  · next h => simp only [reduceCtorEq, false_iff, not_and, h, false_implies]

theorem heap_receiveRound (cfg : WorkerConfig) (sys : System) (frames : List RxFrame)
    (nowNs : UInt64) (eventNs : Nat → UInt64) (m : MbufId) :
    ((receiveRound cfg sys frames nowNs eventNs).heap m).timestamp = (sys.heap m).timestamp := by
  rw [receiveRound]
  split
  · dsimp only [receiveBurst]
    rw [processReceivedPackets]
    split <;> exact timestamp_rteEthRxBurst sys.heap _ m
  · rfl

end Worker

/-! ## Runs over one pool -/

/-- A frame that arrives. `origin` says which of the packets sent so far it is, if it is one of
    them; the code does not see that. -/
structure Arrival where
  frame : RxFrame
  origin : Option Nat

/-- One thing that happens to the generator and its pool. -/
inductive PoolEvent where
  | system (e : System.Event)
  | burst (cfg : WorkerConfig) (arrivals : List Arrival) (nowNs : UInt64)
      (eventNs : Nat → UInt64)

/-- A generator and its history: the packets built in mbufs of the pool, those the NIC took, and
    the latency samples. -/
structure PoolRun where
  sys : System
  built : List BuiltPacket
  sent : List BuiltPacket
  samples : List LatencySample

namespace PoolRun

/-- A generator with a pool no packet has been built in. -/
def start (sys : System) : PoolRun where
  sys := sys
  built := []
  sent := []
  samples := []

/-- When this process sent a frame, if it did. -/
def sentNs (t : PoolRun) (a : Arrival) : Option UInt64 :=
  a.origin.bind fun i => t.sent[i]?.map (·.sentNs)

/-- What a pass reports, and nothing for the other events. -/
def passReport (d : Dpdk) (r : Rng) (sys : System) : System.Event → PassReport
  | .workerPass cfg input => (Worker.processFlows cfg d r sys input).2
  | _ => {}

variable (inetAton : String → Option UInt32) (d : Dpdk) (r : Rng)

/-- The generator and its history after an event. -/
def step (t : PoolRun) : PoolEvent → PoolRun
  | .system e =>
    let report := passReport d r t.sys e
    { t with
      sys := t.sys.step inetAton d r e
      built := t.built ++ report.built
      sent := t.sent ++ report.sent }
  | .burst cfg arrivals nowNs eventNs =>
    { t with
      sys := Worker.receiveRound cfg t.sys (arrivals.map (·.frame)) nowNs eventNs
      samples := t.samples ++ Worker.burstSamples cfg t.sys.heap
        (arrivals.map fun a => (a.frame, t.sentNs a)) nowNs }

end PoolRun

/-- The drivers keep the dynamic fields of the mbufs they recycle. -/
def PoolEvent.KeepsFields : PoolEvent → Prop
  | .system (.workerPass _ input) => input.KeepsFields
  | _ => True

namespace PoolRun

variable {inetAton : String → Option UInt32} {d : Dpdk}

/-- The timestamp fields hold what was stamped last, and zero where nothing was. -/
def Stamped (t : PoolRun) : Prop :=
  ∀ m, (t.sys.heap m).timestamp = (lastStamp t.built m).getD 0

theorem built_passReport_of_not_pass {sys : System} {e : System.Event}
    (h : ∀ cfg input, e ≠ .workerPass cfg input) : (passReport d r sys e).built = [] := by
  cases e with
  | workerPass cfg input => exact absurd rfl (h cfg input)
  | configureFlows | configureIMIX | startTraffic | stopTraffic | receive => rfl

theorem heap_step_of_not_pass {sys : System} {e : System.Event}
    (h : ∀ cfg input, e ≠ .workerPass cfg input) : (sys.step inetAton d r e).heap = sys.heap := by
  cases e with
  | configureFlows request nowNs =>
    show (Server.configureFlows inetAton d sys request nowNs).2.heap = _
    simp only [Server.configureFlows]
    split <;> rfl
  | configureIMIX request =>
    show (Server.configureIMIX sys request).2.heap = _
    simp only [Server.configureIMIX]
    split <;> rfl
  | startTraffic request order nowNs clock =>
    show (Server.startTraffic sys request order nowNs clock).2.heap = _
    simp only [Server.startTraffic]
    split <;> rfl
  | stopTraffic order => rfl
  | workerPass cfg input => exact absurd rfl (h cfg input)
  | receive key tcpHdr payloadLen nowNs => rfl

theorem stamped_start {sys : System} (hzero : ∀ m, (sys.heap m).timestamp = 0) :
    (start sys).Stamped :=
  hzero

theorem Stamped.step {t : PoolRun} (h : t.Stamped) {e : PoolEvent} (hkeeps : e.KeepsFields) :
    (t.step inetAton d r e).Stamped := by
  cases e with
  | burst cfg arrivals nowNs eventNs =>
    intro m
    exact (Worker.heap_receiveRound cfg t.sys _ nowNs eventNs m).trans (h m)
  | system e =>
    have hstep : t.sys.heap.Stamped (passReport d r t.sys e).built
        (t.sys.step inetAton d r e).heap := by
      by_cases hpass : ∃ cfg input, e = .workerPass cfg input
      · obtain ⟨cfg, input, rfl⟩ := hpass
        exact Worker.stamps_processFlows cfg d r t.sys hkeeps
      · have hother : ∀ cfg input, e ≠ .workerPass cfg input :=
          fun cfg input heq => hpass ⟨cfg, input, heq⟩
        intro m
        rw [heap_step_of_not_pass hother, built_passReport_of_not_pass hother]
        rfl
    intro m
    show ((t.sys.step inetAton d r e).heap m).timestamp = (lastStamp (t.built ++ _) m).getD 0
    rw [hstep m, h m, lastStamp_append]
    cases lastStamp (passReport d r t.sys e).built m <;> rfl

/-- Through any run, the fields hold what was stamped last. -/
theorem stamped_run {t : PoolRun} (h : t.Stamped) {events : List PoolEvent}
    (hkeeps : ∀ e ∈ events, e.KeepsFields) :
    (Run.run (PoolRun.step inetAton d r) t events).Stamped := by
  induction events generalizing t with
  | nil => exact h
  | cons e events ih =>
    obtain ⟨he, hkeeps⟩ := List.forall_mem_cons.mp hkeeps
    exact ih (h.step he) hkeeps

/-! ## When the samples are right -/

/-- A sample counts from a stamp before the receipt, so it is right when that is the send time of
    the frame. -/
theorem right_iff {sentNs : Option UInt64} {nowNs stamp : UInt64} (h : stamp < nowNs) :
    LatencySample.Right ⟨sentNs, nowNs, nowNs - stamp⟩ ↔ sentNs = some stamp := by
  have hsub : (nowNs - stamp).toNat = nowNs.toNat - stamp.toNat :=
    UInt64.toNat_sub_of_le _ _ (UInt64.le_of_lt h)
  have hlt : stamp.toNat < nowNs.toNat := UInt64.lt_iff_toNat_lt.mp h
  constructor
  · rintro ⟨sentNs, rfl, heq⟩
    have hsame : sentNs.toNat = stamp.toNat := by
      dsimp only at heq
      omega
    rw [UInt64.toNat_inj.mp hsame]
  · rintro rfl
    refine ⟨stamp, rfl, ?_⟩
    dsimp only
    omega

/-- Each frame is received in an mbuf that holds no send time but its own: the last packet built
    in the mbuf, unless its stamp is none or not before the receipt, was sent when the frame
    was. -/
def OwnStamps (t : PoolRun) : PoolEvent → Prop
  | .system _ => True
  | .burst cfg arrivals nowNs _ =>
    cfg.enableRx → cfg.timestampDynfieldOffset ≠ -1 →
      ∀ a ∈ arrivals.take cfg.rxBurstSize.toNat, ∀ stamp,
        lastStamp t.built a.frame.mbuf = some stamp → stamp ≠ 0 → stamp < nowNs →
          t.sentNs a = some stamp

/-- The samples of one burst. -/
theorem right_burstSamples_iff {t : PoolRun} (h : t.Stamped) (cfg : WorkerConfig)
    (arrivals : List Arrival) (nowNs : UInt64) (eventNs : Nat → UInt64) :
    (∀ s ∈ Worker.burstSamples cfg t.sys.heap (arrivals.map fun a => (a.frame, t.sentNs a)) nowNs,
      s.Right) ↔ t.OwnStamps (.burst cfg arrivals nowNs eventNs) := by
  rw [Worker.burstSamples, OwnStamps]
  cases cfg.enableRx with
  | false => simp
  | true =>
    -- the frames were put in mbufs whose fields hold what was stamped last
    have hfield : ∀ frames m, ((Worker.receiveBurst cfg t.sys.heap frames).1 m).timestamp =
        (lastStamp t.built m).getD 0 :=
      fun frames m => (Worker.timestamp_rteEthRxBurst t.sys.heap _ m).trans (h m)
    rw [if_pos rfl, ← List.map_take]
    simp only [List.mem_filterMap, List.mem_map, Option.map_eq_some_iff, forall_const]
    constructor
    · intro hright hoffset a ha stamp hstamp hne hlt
      have hts := hfield ((arrivals.map fun a => (a.frame, t.sentNs a)).map (·.1)) a.frame.mbuf
      rw [hstamp, Option.getD_some] at hts
      refine (right_iff hlt).mp (hright _ ⟨_, ⟨a, ha, rfl⟩, _, ?_, rfl⟩)
      rw [← hts] at hne hlt ⊢
      exact Worker.rxSample_eq_some_iff.mpr ⟨⟨hoffset, hne, hlt⟩, rfl⟩
    · rintro hown s ⟨_, ⟨a, ha, rfl⟩, latencyNs, hsample, rfl⟩
      obtain ⟨⟨hoffset, hne, hlt⟩, rfl⟩ := Worker.rxSample_eq_some_iff.mp hsample
      have hts := hfield ((arrivals.map fun a => (a.frame, t.sentNs a)).map (·.1)) a.frame.mbuf
      rw [hts] at hne hlt ⊢
      refine (right_iff hlt).mpr ?_
      cases hstamp : lastStamp t.built a.frame.mbuf with
      | none =>
        rw [hstamp] at hne
        exact absurd rfl hne
      | some stamp =>
        rw [hstamp, Option.getD_some] at hne hlt
        exact hown hoffset a ha stamp hstamp hne hlt

theorem right_step_iff {t : PoolRun} (h : t.Stamped) (e : PoolEvent) :
    (∀ s ∈ (t.step inetAton d r e).samples, s.Right) ↔
      (∀ s ∈ t.samples, s.Right) ∧ t.OwnStamps e := by
  cases e with
  | system e => exact (and_iff_left trivial).symm
  | burst cfg arrivals nowNs eventNs =>
    rw [← right_burstSamples_iff h, ← List.forall_mem_append]
    rfl

theorem right_run_iff {t : PoolRun} (h : t.Stamped) {events : List PoolEvent}
    (hkeeps : ∀ e ∈ events, e.KeepsFields) :
    (∀ s ∈ (Run.run (PoolRun.step inetAton d r) t events).samples, s.Right) ↔
      (∀ s ∈ t.samples, s.Right) ∧ Run.Each (PoolRun.step inetAton d r) OwnStamps t events := by
  induction events generalizing t with
  | nil => exact (and_iff_left trivial).symm
  | cons e events ih =>
    obtain ⟨he, hkeeps⟩ := List.forall_mem_cons.mp hkeeps
    rw [Run.run_cons, ih (h.step he) hkeeps, right_step_iff h e, Run.Each, and_assoc]

/-- From a new pool on, the latencies recorded are the times since the frames were sent exactly
    when every frame is received in an mbuf that holds no send time but its own. -/
theorem right_iff_each (inetAton : String → Option UInt32) (d : Dpdk) (r : Rng) (sys : System)
    (hzero : ∀ m, (sys.heap m).timestamp = 0) (events : List PoolEvent)
    (hkeeps : ∀ e ∈ events, e.KeepsFields) :
    (∀ s ∈ (Run.run (PoolRun.step inetAton d r) (start sys) events).samples, s.Right) ↔
      Run.Each (PoolRun.step inetAton d r) OwnStamps (start sys) events := by
  rw [right_run_iff (stamped_start hzero) hkeeps]
  exact and_iff_right (List.forall_mem_nil _)

/-- A worker that receives, with the timestamp field registered. -/
def receiver : WorkerConfig :=
  { WorkerConfig.sample with enableRx := true, timestampDynfieldOffset := 72 }

/-- A packet is sent from mbuf 7 at time 1000, and a frame is received in the same mbuf at time
    5000. `origin` says whether it is that packet. -/
def sendReceive (origin : Option Nat) : List PoolEvent :=
  [.system (.workerPass receiver { Worker.PassInput.sample with
      turn := fun i => { Worker.PassInput.sample.turn i with timestampNs := 1000 } }),
    .burst receiver [⟨⟨7, 64, 64, fun _ => 0⟩, origin⟩] 5000 (fun _ => 5000)]

theorem keepsFields_sendReceive (origin : Option Nat) :
    ∀ e ∈ sendReceive origin, e.KeepsFields := by
  intro e he
  rcases List.mem_pair.mp he with rfl | rfl
  · exact fun _ _ => rfl
  · trivial

theorem right_iff_each_own :
    (∀ m, ((System.sample true).heap m).timestamp = 0) ∧
      ((∀ s ∈ (Run.run (PoolRun.step (fun _ => none) .reference .counting)
          (start (System.sample true)) (sendReceive (some 0))).samples, s.Right) ↔
        Run.Each (PoolRun.step (fun _ => none) .reference .counting) OwnStamps
          (start (System.sample true)) (sendReceive (some 0))) :=
  ⟨fun _ => rfl, right_iff_each (fun _ => none) .reference .counting _ (fun _ => rfl) _
    (keepsFields_sendReceive _)⟩

/-- A frame of some other host is taken for the packet that was sent from the mbuf before. -/
theorem samples_sendReceive_none :
    (Run.run (PoolRun.step (fun _ => none) .reference .counting) (start (System.sample true))
      (sendReceive none)).samples = [{ sentNs := none, nowNs := 5000, latencyNs := 4000 }] := by
  decide +kernel

theorem not_right_foreign :
    (∀ m, ((System.sample true).heap m).timestamp = 0) ∧
      (∀ e ∈ sendReceive none, e.KeepsFields) ∧
      ¬ ∀ s ∈ (Run.run (PoolRun.step (fun _ => none) .reference .counting)
        (start (System.sample true)) (sendReceive none)).samples, s.Right := by
  refine ⟨fun _ => rfl, keepsFields_sendReceive none, fun h => ?_⟩
  rw [samples_sendReceive_none] at h
  obtain ⟨sentNs, hsent, -⟩ := h _ List.mem_cons_self
  cases hsent

end PoolRun

end TrafficGen
