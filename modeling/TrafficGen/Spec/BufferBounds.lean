import TrafficGen.Spec.CloneCorrect

/-!
# Writes of the mutator against the packet buffer

`clone_and_mutate` copies the headers and zeroes the payload up to `total_size`, a
32-bit number, but asks `rte_pktmbuf_append` for that size modulo `2^16`. From `2^16`
on the two disagree: the append succeeds for the remainder, and the fill runs past
the area it returned.

## Key results

- `staysInside_accepted_iff`: the writes stay inside the appended area exactly when the
  size is below `2^16`, or its remainder does not fit and nothing is written
-/

namespace TrafficGen

open PacketMutator Worker

variable {r : Rng}

/-- When the clone succeeds, every byte it copied or zeroed lies in the data area that
    `rte_pktmbuf_append` returned for the mbuf. -/
def PacketMutator.StaysInside (d : Dpdk) (p : PacketMutator r) (m : Mbuf) (t : PacketTemplate)
    (seq : UInt32) (updateChecksums : Bool) : Prop :=
  (p.cloneAndMutate d m t seq updateChecksums).1 = true →
    ∃ appended, d.pktmbufAppend m (t.totalSize - m.pktLen).toUInt16 = some appended ∧
      (p.cloneAndMutate d m t seq updateChecksums).2.1.extent ≤ appended.dataLen.toNat

theorem PacketMutator.staysInside_iff (d : Dpdk) (p : PacketMutator r) {m : Mbuf}
    {t : PacketTemplate} {protocol : String} (seq : UInt32) (updateChecksums : Bool)
    (hm : m.Fresh) (ht : t.WellFormed protocol)
    (hsize : t.payloadOffset.toNat ≤ t.totalSize.toNat) :
    p.StaysInside d m t seq updateChecksums ↔
      t.totalSize.toNat < 2 ^ 16 ∨ m.tailroom < t.totalSize.toNat % 2 ^ 16 := by
  have htailroom : m.tailroom = m.room.toNat := by
    rw [Mbuf.tailroom, hm.1, UInt16.toNat_zero, Nat.sub_zero]
  have hrem : t.totalSize.toUInt16.toNat = t.totalSize.toNat % 2 ^ 16 := UInt32.toNat_toUInt16 _
  rw [StaysInside, htailroom, ← hrem]
  rcases p.cloneAndMutate_cases d seq updateChecksums hm ht hsize with
    ⟨hlarge, heq⟩ | ⟨hfits, p', filled, mem, heq, -, hextent, -⟩
  · -- nothing was appended and nothing written
    simp only [heq, Bool.false_eq_true, false_imp_iff, true_iff]
    exact .inr hlarge
  · -- appended: the size modulo `2^16`; written: up to the size itself
    have happend : d.pktmbufAppend m (t.totalSize - m.pktLen).toUInt16 =
        some { m with
          dataLen := m.dataLen + t.totalSize.toUInt16
          pktLen := m.pktLen + t.totalSize.toUInt16.toUInt32 } := by
      rw [d.append_eq, hm.2.1, UInt32.sub_zero, htailroom, if_neg (by omega)]
    simp only [heq, true_imp_iff, happend, Option.some.injEq, exists_eq_left', hm.1,
      UInt16.zero_add, hextent]
    omega

/-- **Buffer bounds.** For an accepted flow and a fresh mbuf, the packet stays inside the area
    that was appended exactly when its size is below `2^16`, or when the size modulo `2^16`
    exceeds the tailroom and the clone fails. -/
theorem staysInside_accepted_iff (d : Dpdk) (p : PacketMutator r) (m : Mbuf)
    (f : FlowConfigInternal) (imix : IMIXEngine) (draw : Nat) (seq : UInt32)
    (updateChecksums : Bool) (hm : m.Fresh) (hf : f.Accepted d) :
    p.StaysInside d m (f.finalTemplate imix draw) seq updateChecksums ↔
      (choosePacketSize f imix draw).toNat < 2 ^ 16 ∨
        m.tailroom < (choosePacketSize f imix draw).toNat % 2 ^ 16 :=
  p.staysInside_iff d seq updateChecksums hm (hf.finalTemplate_wellFormed imix draw)
    (hf.payloadOffset_le_size imix draw)

/-! ## A size beyond 16 bits -/

/-- A flow of `packetSize`-byte packets. -/
def FlowSettings.sized (packetSize : UInt32) : FlowSettings :=
  { sample 1 1000 true with packetSize := packetSize }

theorem FlowSettings.acceptable_sized {packetSize : UInt32} (hsize : 54 ≤ packetSize.toNat) :
    (FlowSettings.sized packetSize).Acceptable := by
  have hne : packetSize ≠ 0 := by
    rintro rfl
    exact absurd hsize (by decide)
  refine ⟨tcpHdrSize, rfl, ?_⟩
  change 54 ≤ (if packetSize = 0 then (64 : UInt32) else packetSize).toNat
  rwa [if_neg hne]

/-- A flow of 1000-byte packets, and a fresh mbuf. -/
theorem staysInside_accepted_iff_1000 : ∃ f : FlowConfigInternal,
    FlowScheduler.newFlow .reference [] (.sized 1000) 0 = some f ∧
    ((PacketMutator.initializeRng .counting 1 0).StaysInside .reference .sample
      (f.finalTemplate .new 0) 0 true ↔
      (choosePacketSize f .new 0).toNat < 2 ^ 16 ∨
        Mbuf.sample.tailroom < (choosePacketSize f .new 0).toNat % 2 ^ 16) := by
  obtain ⟨f, hf⟩ := Option.isSome_iff_exists.mp ((FlowScheduler.newFlow_isSome_iff .reference []
    (.sized 1000) 0).mpr (FlowSettings.acceptable_sized (by decide)))
  exact ⟨f, hf, staysInside_accepted_iff .reference _ .sample f .new 0 0 true ⟨rfl, rfl, rfl⟩
    (FlowConfigInternal.accepted_of_newFlow hf)⟩

/-- A flow of 65636-byte packets is accepted; 100 bytes are appended for its packet and
    65636 written. -/
theorem overrun_65636 : ∃ f : FlowConfigInternal,
    FlowScheduler.newFlow .reference [] (.sized 65636) 0 = some f ∧
    ¬ (PacketMutator.initializeRng .counting 1 0).StaysInside .reference .sample
      (f.finalTemplate .new 0) 0 true := by
  obtain ⟨f, hf⟩ := Option.isSome_iff_exists.mp ((FlowScheduler.newFlow_isSome_iff .reference []
    (.sized 65636) 0).mpr (FlowSettings.acceptable_sized (by decide)))
  have hacc := FlowConfigInternal.accepted_of_newFlow hf
  have hsize : (f.finalTemplate .new 0).totalSize = 65636 := by
    obtain ⟨dstMac, template, bucket, -, rfl⟩ := FlowScheduler.newFlow_eq_some hf
    rfl
  refine ⟨f, hf, ?_⟩
  rw [PacketMutator.staysInside_iff .reference _ 0 true ⟨rfl, rfl, rfl⟩
    (hacc.finalTemplate_wellFormed .new 0) (hacc.payloadOffset_le_size .new 0), hsize]
  decide

end TrafficGen
