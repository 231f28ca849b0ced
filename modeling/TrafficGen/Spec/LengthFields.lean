import TrafficGen.Spec.BufferBounds

/-!
# Length fields

A frame carries its length in two header fields of 16 bits: `total_length` counts from the IPv4
header on, and for UDP `dgram_len` from the UDP header on. The builder and the mutator compute
both from a size of 32 bits and cut the result.

## Key results

- `totalLength_buildTemplate`, `dgramLen_buildTemplate`: the fields of a template
- `dgramLen_cloneAndMutate`: the datagram length of a clone
- `lengths_exact_iff`: the fields are the lengths up to a frame of 65549 bytes
-/

namespace TrafficGen

open PacketMutator Worker

variable {r : Rng}

/-- `dgram_len`, in host order. -/
def dgramLen (mem : ByteMem) (udp : Nat) : UInt16 := rteBeToCpu16 (mem.load16 (udp + 4))

/-- The length fields of a frame of `size` bytes are its lengths, as integers. -/
structure ExactLengths (mem : ByteMem) (protocol : String) (size : UInt32) : Prop where
  totalLength : ((ipTotalLength mem 14).toNat : Int) = size.toNat - 14
  dgramLen : protocol = "udp" → ((dgramLen mem 34).toNat : Int) = size.toNat - 34

/-! ## The fields as they are stored -/

section Template

variable {d : Dpdk} {old t : PacketTemplate} {key : FlowKey} {packetSize : UInt32}
  {protocol srcMac dstMac : String}

theorem totalLength_buildTemplate
    (h : buildTemplate d old key packetSize protocol srcMac dstMac = some t) :
    ipTotalLength (ByteMem.ofList t.data) 14 = (packetSize - 14).toUInt16 := by
  obtain ⟨mem, transport, -, hbyte⟩ := getD_buildTemplate h
  rw [ipTotalLength, ByteMem.load16_congr (hbyte 16 (by omega) (by omega))
    (hbyte 17 (by omega) (by omega))]
  rw [ByteMem.load16_congr (buildTransportHeader_below _ _ _ _ _ _ (by omega))
    (buildTransportHeader_below _ _ _ _ _ _ (by omega))]
  simp (disch := omega) only [buildIpHeader, ByteMem.load16_store16_ne,
    ByteMem.load16_store32_ne, ByteMem.load16_store8_ne, Nat.reduceAdd, ByteMem.load16_store16,
    rteBeToCpu16_rteCpuToBe16]

theorem dgramLen_buildTemplate
    (h : buildTemplate d old key packetSize "udp" srcMac dstMac = some t) :
    dgramLen (ByteMem.ofList t.data) 34 = UInt16.ofNat (packetSize.toNat - 34) := by
  obtain ⟨mem, transport, htransport, hbyte⟩ := getD_buildTemplate h
  obtain rfl : 8 = transport := Option.some.inj htransport
  rw [dgramLen, ByteMem.load16_congr (hbyte 38 (by omega) (by omega))
    (hbyte 39 (by omega) (by omega))]
  have hudp : ¬ "udp" = "tcp" := by decide
  simp (disch := omega) only [buildTransportHeader, if_neg hudp, if_true, buildUdpHeader,
    ByteMem.load16_store16_ne, ByteMem.load16_store16, rteBeToCpu16_rteCpuToBe16]

end Template

/-- The total length of a clone. -/
theorem totalLength_cloneAndMutate {d : Dpdk} {p p' : PacketMutator r} {m mb : Mbuf}
    {t : PacketTemplate} {seq : UInt32} {updateChecksums : Bool}
    (h : p.cloneAndMutate d m t seq updateChecksums = (true, mb, p')) :
    ipTotalLength mb.data 14 = (t.totalSize - 14).toUInt16 := by
  obtain ⟨fitted, -, -, hdata⟩ := cloneAndMutate_eq_true h
  rw [hdata, ← p.mutateFields_totalLength (fillFrame fitted t).data t.totalSize seq]
  split
  · rw [ipTotalLength, ipTotalLength,
      ByteMem.load16_congr (recalculateChecksums_outside d _ (by omega))
        (recalculateChecksums_outside d _ (by omega))]
  · rfl

/-- The datagram length of a clone is stored anew too. -/
theorem dgramLen_cloneAndMutate {d : Dpdk} {p p' : PacketMutator r} {m mb : Mbuf}
    {t : PacketTemplate} {seq : UInt32} {updateChecksums : Bool} (ht : t.WellFormed "udp")
    (h : p.cloneAndMutate d m t seq updateChecksums = (true, mb, p')) :
    dgramLen mb.data 34 = (t.totalSize - 14 - 20).toUInt16 := by
  obtain ⟨fitted, -, -, hdata⟩ := cloneAndMutate_eq_true h
  have hbounds := ht.payloadOffset_bounds
  have hproto : (fillFrame fitted t).data 23 = ipProtocol "udp" :=
    (fillFrame_data ht (by omega)).trans ht.nextProtoId
  have hstored : dgramLen (p.mutateFields (fillFrame fitted t).data t.totalSize seq).1 34 =
      (t.totalSize - 14 - 20).toUInt16 := by
    have hudp : ¬ "udp" = "tcp" := by decide
    have htransport : transportHeaderSize "udp" = some 8 := rfl
    rw [p.mutateFields_eq hproto htransport, dgramLen]
    simp only [if_neg hudp, if_true, Nat.reduceAdd, ByteMem.load16_store16,
      rteBeToCpu16_rteCpuToBe16]
  rw [hdata, ← hstored]
  split
  · rw [dgramLen, dgramLen, ByteMem.load16_congr (recalculateChecksums_outside d _ (by omega))
      (recalculateChecksums_outside d _ (by omega))]
  · rfl

/-! ## The fields as integers -/

/-- A length cut to 16 bits is the length exactly when it fits. -/
theorem toNat_cut_eq_iff (size : UInt32) {n : Nat} (hn : n < 2 ^ 16) :
    (((size - UInt32.ofNat n).toUInt16.toNat : Int) = size.toNat - n) ↔
      n ≤ size.toNat ∧ size.toNat < n + 2 ^ 16 := by
  have hlt := size.toNat_lt
  have hofNat : (UInt32.ofNat n).toNat = n := by
    rw [UInt32.toNat_ofNat']
    omega
  rw [UInt32.toNat_toUInt16, UInt32.toNat_sub, hofNat]
  omega

/-- The fields of a template are exact up to 65549 bytes. -/
theorem exactLengths_buildTemplate_iff {d : Dpdk} {old t : PacketTemplate} {key : FlowKey}
    {packetSize : UInt32} {protocol srcMac dstMac : String}
    (h : buildTemplate d old key packetSize protocol srcMac dstMac = some t) :
    ExactLengths (ByteMem.ofList t.data) protocol packetSize ↔ packetSize.toNat ≤ 65549 := by
  obtain ⟨transport, -, hsize, -, -, -⟩ := buildTemplate_eq_some h
  have hiff := toNat_cut_eq_iff packetSize (n := 14) (by decide)
  constructor
  · intro hexact
    have htotal := hexact.totalLength
    rw [totalLength_buildTemplate h] at htotal
    have := (hiff.mp htotal).2
    omega
  · intro hle
    refine ⟨?_, ?_⟩
    · rw [totalLength_buildTemplate h]
      exact hiff.mpr ⟨by omega, by omega⟩
    · rintro rfl
      rw [dgramLen_buildTemplate h, UInt16.toNat_ofNat']
      omega

/-- The fields of a clone are exact from the end of the headers they count from, up to 65549
    bytes. -/
theorem exactLengths_cloneAndMutate_iff {d : Dpdk} {p p' : PacketMutator r} {m mb : Mbuf}
    {t : PacketTemplate} {protocol : String} {seq : UInt32} {updateChecksums : Bool}
    (ht : t.WellFormed protocol)
    (h : p.cloneAndMutate d m t seq updateChecksums = (true, mb, p')) :
    ExactLengths mb.data protocol t.totalSize ↔
      14 ≤ t.totalSize.toNat ∧ t.totalSize.toNat ≤ 65549 ∧
        (protocol = "udp" → 34 ≤ t.totalSize.toNat) := by
  have hlt := t.totalSize.toNat_lt
  have hiff := toNat_cut_eq_iff t.totalSize (n := 14) (by decide)
  have hdgram : protocol = "udp" →
      ((dgramLen mb.data 34).toNat : Int) = (t.totalSize - 14 - 20).toUInt16.toNat := by
    rintro rfl
    rw [dgramLen_cloneAndMutate ht h]
  have hsub : (t.totalSize - 14 - 20).toUInt16.toNat =
      (2 ^ 32 - 20 + (2 ^ 32 - 14 + t.totalSize.toNat) % 2 ^ 32) % 2 ^ 32 % 2 ^ 16 := by
    rw [UInt32.toNat_toUInt16, UInt32.toNat_sub, UInt32.toNat_sub]
    rfl
  constructor
  · intro hexact
    have htotal := hexact.totalLength
    rw [totalLength_cloneAndMutate h] at htotal
    obtain ⟨hlo, hhi⟩ := hiff.mp htotal
    refine ⟨hlo, by omega, fun hudp => ?_⟩
    have hfield := hexact.dgramLen hudp
    rw [hdgram hudp, hsub] at hfield
    omega
  · rintro ⟨hlo, hhi, hudp⟩
    refine ⟨?_, fun hprotocol => ?_⟩
    · rw [totalLength_cloneAndMutate h]
      exact hiff.mpr ⟨hlo, by omega⟩
    · have := hudp hprotocol
      rw [hdgram hprotocol, hsub]
      omega

/-- **Length fields.** The template of an accepted request has `packet_size` bytes, and its length
    fields are exact exactly up to 65549 bytes; so are those of every frame cloned from it, of
    whatever size. -/
theorem lengths_exact_iff {d : Dpdk} {old t : PacketTemplate} {key : FlowKey}
    {packetSize : UInt32} {protocol srcMac dstMac : String}
    (h : buildTemplate d old key packetSize protocol srcMac dstMac = some t) :
    t.data.length = packetSize.toNat ∧
    (ExactLengths (ByteMem.ofList t.data) protocol packetSize ↔ packetSize.toNat ≤ 65549) ∧
    ∀ (p p' : PacketMutator r) (m mb : Mbuf) (finalSize seq : UInt32) (updateChecksums : Bool),
      p.cloneAndMutate d m { t with totalSize := finalSize } seq updateChecksums =
        (true, mb, p') →
      mb.pktLen = finalSize ∧
      (ExactLengths mb.data protocol finalSize ↔
        14 ≤ finalSize.toNat ∧ finalSize.toNat ≤ 65549 ∧
          (protocol = "udp" → 34 ≤ finalSize.toNat)) := by
  obtain ⟨transport, -, -, -, -, hdata⟩ := buildTemplate_eq_some h
  refine ⟨by rw [hdata, ByteMem.length_bytes], exactLengths_buildTemplate_iff h, ?_⟩
  intro p p' m mb finalSize seq updateChecksums hclone
  obtain ⟨-, -, hlen, -⟩ := cloneAndMutate_eq_true hclone
  have ht := (wellFormed_of_buildTemplate h).1.withSize finalSize
  exact ⟨hlen, exactLengths_cloneAndMutate_iff ht hclone⟩

/-- A template of 64 bytes. -/
theorem lengths_exact_iff_64 : ∃ t, buildTemplate .reference .empty ⟨0, 0, 1000, 80, IPPROTO_UDP⟩
      64 "udp" "" "" = some t ∧
    (ExactLengths (ByteMem.ofList t.data) "udp" 64 ↔ (64 : UInt32).toNat ≤ 65549) := by
  obtain ⟨t, ht⟩ := Option.isSome_iff_exists.mp ((buildTemplate_isSome_iff .reference .empty
    ⟨0, 0, 1000, 80, IPPROTO_UDP⟩ 64 "udp" "" "").mpr ⟨8, rfl, by decide⟩)
  exact ⟨t, ht, (lengths_exact_iff (r := .counting) ht).2.1⟩

/-- A template of 65550 bytes says its IPv4 packet has none. -/
theorem not_exact_65550 : ∃ t, buildTemplate .reference .empty ⟨0, 0, 1000, 80, IPPROTO_UDP⟩
      65550 "udp" "" "" = some t ∧
    ipTotalLength (ByteMem.ofList t.data) 14 = 0 ∧
    ¬ ExactLengths (ByteMem.ofList t.data) "udp" 65550 := by
  obtain ⟨t, ht⟩ := Option.isSome_iff_exists.mp ((buildTemplate_isSome_iff .reference .empty
    ⟨0, 0, 1000, 80, IPPROTO_UDP⟩ 65550 "udp" "" "").mpr ⟨8, rfl, by decide⟩)
  refine ⟨t, ht, totalLength_buildTemplate ht, ?_⟩
  rw [exactLengths_buildTemplate_iff ht]
  decide

end TrafficGen
