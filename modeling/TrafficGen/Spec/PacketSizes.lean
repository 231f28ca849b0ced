import TrafficGen.Spec.BufferBounds

/-!
# Packet sizes against the data room

Three places bound the size of a packet: the template check when a flow is added, which wants
room for the headers only, the range check of the IMIX profile, which goes up to 9000, and the
data room of the mbufs, which is 2048 bytes. A packet beyond the last is never built, and
nothing reports it.

## Key results

- `cloneAndMutate_isTrue_iff`: a packet can be built exactly when its size fits the room
- `sendable_iff`: every size of a flow can be sent exactly when the sizes it may have fit
-/

namespace TrafficGen

open PacketMutator Worker

variable {r : Rng}

namespace IMIXEngine

variable {dist : DiscreteDistribution}

/-- The distribution can draw the number. -/
def CanDraw (dist : DiscreteDistribution) (e : IMIXEngine) (draw : Nat) : Prop :=
  e.configured = true → dist.Draws e.weights (draw % e.entries.length)

/-- The entries a profile draws: those of positive percentage. With a NaN among the percentages
    the distribution is not defined, and the entries are those it gives. -/
def Drawn (dist : DiscreteDistribution) (e : IMIXEngine) (entry : IMIXEntryInternal) : Prop :=
  if ∃ w ∈ e.weights, w.isNaN = true then ∃ i, e.entries[i]? = some entry ∧ dist.Draws e.weights i
  else entry ∈ e.entries ∧ 0 < entry.percentage

theorem entries_ne_nil {e : IMIXEngine} (hconf : e.configured = true) : e.entries ≠ [] := by
  have hvalid := e.valid hconf
  simp only [validateEntries, Bool.and_eq_true, Bool.not_eq_true'] at hvalid
  exact fun hnil => absurd hvalid.1.1 (by rw [hnil]; decide)

theorem length_weights (e : IMIXEngine) : e.weights.length = e.entries.length :=
  List.length_map _

/-- What the validation says of a percentage, a NaN apart. -/
theorem not_lt_of_mem_weights {e : IMIXEngine} (hconf : e.configured = true) {w : Float}
    (hw : w ∈ e.weights) : ¬ w < 0 ∧ ¬ 100 < w := by
  have hvalid := e.valid hconf
  simp only [validateEntries, Bool.and_eq_true, List.all_eq_true] at hvalid
  obtain ⟨entry, hmem, rfl⟩ := List.mem_map.mp hw
  have hentry := hvalid.1.2 entry hmem
  simp only [IMIXEntryInternal.isValid, Bool.and_eq_true, Bool.not_eq_true',
    Bool.or_eq_false_iff, decide_eq_false_iff_not, gt_iff_lt] at hentry
  exact hentry.1.2

/-- The distribution is defined for every profile without a NaN: the percentages sum to about
    100, so one of them is positive. -/
theorem defined_weights {e : IMIXEngine} (hconf : e.configured = true)
    (hnan : ¬ ∃ w ∈ e.weights, w.isNaN = true) : DiscreteDistribution.Defined e.weights := by
  push Not at hnan
  simp only [Bool.not_eq_true] at hnan
  refine ⟨fun w hw => ?_, ?_⟩
  · obtain ⟨hlo, hhi⟩ := not_lt_of_mem_weights hconf hw
    exact ⟨Float.isFinite_of_bounds (by decide +kernel) (hnan w hw) hlo hhi, hlo⟩
  · have hvalid := e.valid hconf
    simp only [validateEntries, Bool.and_eq_true, Bool.not_eq_true', Bool.or_eq_false_iff,
      decide_eq_false_iff_not] at hvalid
    -- zeros sum to a zero, which is below 99
    have hbound : (0 : Float) < 99 := by decide +kernel
    exact Float.exists_pos_of_le_sum hbound hnan
      (fun w hw => (not_lt_of_mem_weights hconf hw).1) hvalid.2.1

/-- An entry is drawn when the distribution gives an index of it. -/
theorem drawn_iff (hdist : dist.Proportional) {e : IMIXEngine} (hconf : e.configured = true)
    (entry : IMIXEntryInternal) :
    e.Drawn dist entry ↔ ∃ i, e.entries[i]? = some entry ∧ dist.Draws e.weights i := by
  rw [Drawn]
  split
  · rfl
  · next hnan =>
    have hdraws := hdist e.weights (defined_weights hconf hnan)
    constructor
    · rintro ⟨hmem, hpos⟩
      obtain ⟨i, hi⟩ := List.mem_iff_getElem?.mp hmem
      refine ⟨i, hi, (hdraws i).mpr ⟨entry.percentage, ?_, hpos⟩⟩
      rw [weights, List.getElem?_map, hi, Option.map_some]
    · rintro ⟨i, hi, hdraw⟩
      obtain ⟨w, hw, hpos⟩ := (hdraws i).mp hdraw
      rw [weights, List.getElem?_map, hi, Option.map_some, Option.some.injEq] at hw
      exact ⟨List.mem_of_getElem? hi, hw ▸ hpos⟩

/-- A configured engine draws those entries, each under its own index. -/
theorem exists_canDraw_iff (hdist : dist.Proportional) {e : IMIXEngine}
    (hconf : e.configured = true) (size : UInt32) :
    (∃ draw, e.CanDraw dist draw ∧ e.selectNextPacketSize draw = size) ↔
      ∃ entry, e.Drawn dist entry ∧ entry.packetSize = size := by
  have hselect : ∀ {draw entry}, e.entries[draw % e.entries.length]? = some entry →
      e.selectNextPacketSize draw = entry.packetSize := by
    intro draw entry hentry
    simp only [selectNextPacketSize, hconf, hentry, Bool.not_true, Bool.false_eq_true, if_false]
  constructor
  · rintro ⟨draw, hdraw, rfl⟩
    have hlt : draw % e.entries.length < e.entries.length :=
      Nat.mod_lt _ (List.length_pos_of_ne_nil (entries_ne_nil hconf))
    have hentry := List.getElem?_eq_getElem hlt
    exact ⟨_, (drawn_iff hdist hconf _).mpr ⟨_, hentry, hdraw hconf⟩, (hselect hentry).symm⟩
  · rintro ⟨entry, hdrawn, rfl⟩
    obtain ⟨i, hi, hdraw⟩ := (drawn_iff hdist hconf entry).mp hdrawn
    have hmod : i % e.entries.length = i :=
      Nat.mod_eq_of_lt (List.getElem?_eq_some_iff.mp hi).1
    exact ⟨i, fun _ => by rwa [hmod], hselect (by rwa [hmod])⟩

/-- There is always a number the distribution can draw. -/
theorem exists_canDraw (dist : DiscreteDistribution) (e : IMIXEngine) :
    ∃ draw, e.CanDraw dist draw := by
  by_cases hconf : e.configured = true
  · have hne : e.weights ≠ [] := fun hnil =>
      entries_ne_nil hconf (List.map_eq_nil_iff.mp hnil)
    obtain ⟨i, hi, hdraw⟩ := dist.exists_draws hne
    rw [length_weights] at hi
    exact ⟨i, fun _ => by rwa [Nat.mod_eq_of_lt hi]⟩
  · exact ⟨0, fun hc => absurd hc hconf⟩

/-- The sizes a mix can draw fit when its drawn entries do. -/
theorem drawn_le_iff (hdist : dist.Proportional) (e : IMIXEngine) {room : Nat}
    (hroom : 64 ≤ room) :
    (∀ draw, e.CanDraw dist draw → (e.selectNextPacketSize draw).toNat ≤ room) ↔
      (e.configured = true → ∀ entry, e.Drawn dist entry → entry.packetSize.toNat ≤ room) := by
  constructor
  · intro h hconf entry hdrawn
    obtain ⟨draw, hdraw, hsize⟩ :=
      (exists_canDraw_iff hdist hconf entry.packetSize).mpr ⟨entry, hdrawn, rfl⟩
    have hle := h draw hdraw
    rwa [hsize] at hle
  · intro h draw hdraw
    by_cases hconf : e.configured = true
    · obtain ⟨entry, hdrawn, hsize⟩ :=
        (exists_canDraw_iff hdist hconf _).mp ⟨draw, hdraw, rfl⟩
      rw [← hsize]
      exact h hconf entry hdrawn
    · -- without a profile the size is 64
      have hdefault : e.selectNextPacketSize draw = 64 := by
        simp only [selectNextPacketSize, Bool.not_eq_true] at hconf ⊢
        rw [hconf, Bool.not_false, if_pos rfl]
      rw [hdefault]
      exact hroom

end IMIXEngine

/-- Every size the worker can choose for the flow can be built in every mbuf of the pool, as
    `process_flows` asks for it, and the packet is written inside the mbuf. -/
def Sendable (r : Rng) (d : Dpdk) (dist : DiscreteDistribution) (f : FlowConfigInternal)
    (e : IMIXEngine) (pool : RteMempool) : Prop :=
  ∀ draw, e.CanDraw dist draw → ∀ (p : PacketMutator r) (m : Mbuf), pool.HandsOut m →
    (p.cloneAndMutate d m (f.finalTemplate e draw) 0 true).1 = true ∧
      p.StaysInside d m (f.finalTemplate e draw) 0 true

/-- The sizes the flow may have fit the room: its own, or those of the entries its mix draws. -/
def SizesFit (dist : DiscreteDistribution) (f : FlowConfigInternal) (e : IMIXEngine)
    (room : Nat) : Prop :=
  if f.packetSize = 0 then
    e.configured = true → ∀ entry, e.Drawn dist entry → entry.packetSize.toNat ≤ room
  else f.packetSize.toNat ≤ room

/-- A packet of an accepted flow can be built exactly when its size, cut to 16 bits, fits. If
    it does not fit one mbuf of a pool, it fits none. -/
theorem cloneAndMutate_isTrue_iff (d : Dpdk) (p : PacketMutator r) {m : Mbuf} (hm : m.Fresh)
    {f : FlowConfigInternal} (hf : f.Accepted d) (e : IMIXEngine) (draw : Nat) :
    (p.cloneAndMutate d m (f.finalTemplate e draw) 0 true).1 = true ↔
      (choosePacketSize f e draw).toNat % 2 ^ 16 ≤ m.room.toNat := by
  have hcut : (f.finalTemplate e draw).totalSize.toUInt16.toNat =
      (choosePacketSize f e draw).toNat % 2 ^ 16 := UInt32.toNat_toUInt16 _
  rcases p.cloneAndMutate_cases d 0 true hm (hf.finalTemplate_wellFormed e draw)
    (hf.payloadOffset_le_size e draw) with ⟨hlarge, heq⟩ | ⟨hfits, p', filled, mem, heq, -⟩
  · rw [heq]
    simp only [Bool.false_eq_true, false_iff]
    omega
  · rw [heq]
    simp only [true_iff]
    omega

/-- The size of a packet, for a flow of the mix: never cut, and 64 without a profile. -/
theorem choosePacketSize_mix {f : FlowConfigInternal} (hzero : f.packetSize = 0)
    (e : IMIXEngine) (draw : Nat) :
    choosePacketSize f e draw = e.selectNextPacketSize draw := by
  have hbounds := e.selectNextPacketSize_bounds draw
  have hne : e.selectNextPacketSize draw ≠ 0 := by
    intro h
    rw [h, UInt32.toNat_zero] at hbounds
    omega
  simp only [choosePacketSize, if_pos hzero, if_neg hne]

theorem choosePacketSize_own {f : FlowConfigInternal} (hsize : f.packetSize ≠ 0)
    (e : IMIXEngine) (draw : Nat) : choosePacketSize f e draw = f.packetSize := by
  simp only [choosePacketSize, if_neg hsize]

/-- A packet is built, and written inside the mbuf, exactly when its size fits. -/
theorem built_and_staysInside_iff (d : Dpdk) (p : PacketMutator r) {m : Mbuf} (hm : m.Fresh)
    {f : FlowConfigInternal} (hf : f.Accepted d) (e : IMIXEngine) (draw : Nat) :
    (p.cloneAndMutate d m (f.finalTemplate e draw) 0 true).1 = true ∧
        p.StaysInside d m (f.finalTemplate e draw) 0 true ↔
      (choosePacketSize f e draw).toNat ≤ m.room.toNat := by
  have htailroom : m.tailroom = m.room.toNat := by
    rw [Mbuf.tailroom, hm.1, UInt16.toNat_zero, Nat.sub_zero]
  have hroom : m.room.toNat < 2 ^ 16 := m.room.toNat_lt
  -- a size that is cut may fit when cut, but it is written whole
  rw [cloneAndMutate_isTrue_iff d p hm hf,
    staysInside_accepted_iff d p m f e draw 0 true hm hf, htailroom]
  omega

/-- The mbufs of a manager's pools have room for 2048 bytes, so those are the sizes built. -/
theorem sendable_iff_chosen {d : Dpdk} (dist : DiscreteDistribution) {f : FlowConfigInternal}
    (hf : f.Accepted d) (e : IMIXEngine) {manager : MempoolManager} {socketId : Int}
    {pool : RteMempool} (hpool : manager.getMempool socketId = some pool) :
    Sendable r d dist f e pool ↔
      ∀ draw, e.CanDraw dist draw → (choosePacketSize f e draw).toNat ≤ 2048 := by
  have hroom : ∀ {m}, pool.HandsOut m → m.room.toNat = 2048 := by
    intro m hm
    rw [MempoolManager.room_getMempool hpool hm]
    rfl
  constructor
  · intro h draw hdraw
    -- one mbuf of the pool is enough, since all have the same room
    have hm : pool.HandsOut { Mbuf.sample with room := pool.dataRoomSize - 128 } :=
      ⟨⟨rfl, rfl, rfl⟩, rfl⟩
    have hbuilt := h draw hdraw (initializeRng r 1 0) _ hm
    rwa [built_and_staysInside_iff d _ hm.1 hf, hroom hm] at hbuilt
  · intro h draw hdraw p m hm
    rw [built_and_staysInside_iff d p hm.1 hf, hroom hm]
    exact h draw hdraw

/-- **Sizes that can be sent.** For an accepted flow and whatever profile the engine has, every
    size the worker can choose is built in every fresh mbuf of the pool it uses and written inside
    it, exactly when the flow's own size is at most 2048, or, for a flow of the mix, that of
    every entry the profile draws is. -/
theorem sendable_iff {d : Dpdk} {dist : DiscreteDistribution} (hdist : dist.Proportional)
    {f : FlowConfigInternal} (hf : f.Accepted d) (e : IMIXEngine) {manager : MempoolManager}
    {socketId : Int} {pool : RteMempool} (hpool : manager.getMempool socketId = some pool) :
    Sendable r d dist f e pool ↔ SizesFit dist f e 2048 := by
  rw [sendable_iff_chosen dist hf e hpool, SizesFit]
  split
  · next hzero =>
    simp only [choosePacketSize_mix hzero]
    exact e.drawn_le_iff hdist (by decide)
  · next hsize =>
    simp only [choosePacketSize_own hsize]
    constructor
    · intro h
      obtain ⟨draw, hdraw⟩ := e.exists_canDraw dist
      exact h draw hdraw
    · intro h draw _
      exact h

/-! ## Fixed inputs -/

/-- A distribution that gives the first index where it is not defined. -/
def DiscreteDistribution.orFirst : DiscreteDistribution where
  Draws weights i :=
    (Defined weights → ∃ w, weights[i]? = some w ∧ 0 < w) ∧ (¬ Defined weights → i = 0)
  exists_draws := by
    intro weights hne
    by_cases hdefined : Defined weights
    · obtain ⟨w, hmem, hpos⟩ := hdefined.2
      obtain ⟨i, hi, hw⟩ := List.mem_iff_getElem.mp hmem
      exact ⟨i, hi, fun _ => ⟨w, by rw [List.getElem?_eq_getElem hi, hw], hpos⟩,
        fun hnot => absurd hdefined hnot⟩
    · exact ⟨0, List.length_pos_of_ne_nil hne, fun hd => absurd hd hdefined, fun _ => rfl⟩

theorem DiscreteDistribution.proportional_orFirst : orFirst.Proportional := by
  intro weights hdefined i
  exact ⟨fun h => h.1 hdefined, fun h => ⟨fun _ => h, fun hnot => absurd hdefined hnot⟩⟩

theorem FlowSettings.acceptable_mix : (FlowSettings.sized 0).Acceptable :=
  ⟨tcpHdrSize, rfl, by decide⟩

/-- A manager of one pool. -/
def MempoolManager.single : MempoolManager :=
  (new.initializePools (fun _ => ⟨true, true⟩) 1 8192 256 "mbuf_pool").2

theorem MempoolManager.getMempool_single : ∃ pool, single.getMempool 0 = some pool :=
  ⟨_, rfl⟩

/-- A flow of 1000-byte packets, an engine without a profile, and the pool of a socket. -/
theorem sendable_iff_1000 : ∃ f pool,
    FlowScheduler.newFlow .reference [] (.sized 1000) 0 = some f ∧
    MempoolManager.single.getMempool 0 = some pool ∧
    (Sendable .counting .reference .orFirst f .new pool ↔ SizesFit .orFirst f .new 2048) := by
  obtain ⟨f, hf⟩ := Option.isSome_iff_exists.mp ((FlowScheduler.newFlow_isSome_iff .reference []
    (.sized 1000) 0).mpr (FlowSettings.acceptable_sized (by decide)))
  obtain ⟨pool, hpool⟩ := MempoolManager.getMempool_single
  exact ⟨f, pool, hf, hpool, sendable_iff DiscreteDistribution.proportional_orFirst
    (FlowConfigInternal.accepted_of_newFlow hf) .new hpool⟩

/-- Half 64 bytes, and a fifth 9000. -/
def jumboMix : List IMIXEntryInternal :=
  [⟨64, 50, "udp", true⟩, ⟨1500, 30, "tcp", true⟩, ⟨9000, 20, "tcp", true⟩]

/-- A mix with packets of 9000 bytes is accepted, the worker can choose that size, and no mbuf
    of the pool ever takes such a packet. -/
theorem not_sendable_jumboMix : ∃ f e pool,
    FlowScheduler.newFlow .reference [] (.sized 0) 0 = some f ∧
    IMIXEngine.new.configure jumboMix 1000 = (true, e) ∧
    MempoolManager.single.getMempool 0 = some pool ∧
    e.CanDraw .orFirst 2 ∧ choosePacketSize f e 2 = 9000 ∧
    ¬ Sendable .counting .reference .orFirst f e pool := by
  obtain ⟨f, hf⟩ := Option.isSome_iff_exists.mp ((FlowScheduler.newFlow_isSome_iff .reference []
    (.sized 0) 0).mpr FlowSettings.acceptable_mix)
  obtain ⟨pool, hpool⟩ := MempoolManager.getMempool_single
  have hvalid : validateEntries jumboMix = true := by decide +kernel
  have hconfigure : IMIXEngine.new.configure jumboMix 1000 =
      (true, { entries := jumboMix, targetPps := 1000, configured := true,
               valid := fun _ => hvalid }) := dif_pos hvalid
  have hdefined : DiscreteDistribution.Defined (jumboMix.map (·.percentage)) := by
    refine ⟨?_, 50, List.mem_cons_self, by decide +kernel⟩
    simp only [jumboMix, List.map_cons, List.map_nil, List.forall_mem_cons]
    exact ⟨by decide +kernel, by decide +kernel, by decide +kernel, nofun⟩
  have hdraw : (IMIXEngine.mk jumboMix 1000 true fun _ => hvalid).CanDraw .orFirst 2 :=
    fun _ => (DiscreteDistribution.proportional_orFirst _ hdefined 2).mpr
      ⟨20, rfl, by decide +kernel⟩
  have hsize : choosePacketSize f ⟨jumboMix, 1000, true, fun _ => hvalid⟩ 2 = 9000 := by
    have hzero : f.packetSize = 0 := by
      obtain ⟨dstMac, template, bucket, -, rfl⟩ := FlowScheduler.newFlow_eq_some hf
      rfl
    rw [choosePacketSize_mix hzero]
    rfl
  refine ⟨f, _, pool, hf, hconfigure, hpool, hdraw, hsize, fun hsendable => ?_⟩
  rw [sendable_iff_chosen .orFirst (FlowConfigInternal.accepted_of_newFlow hf) _ hpool]
    at hsendable
  have hfits := hsendable 2 hdraw
  rw [hsize] at hfits
  exact absurd hfits (by decide)

end TrafficGen
