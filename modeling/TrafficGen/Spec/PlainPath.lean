import TrafficGen.Spec.LengthFields
import TrafficGen.Spec.ChecksumCorrect

/-!
# The template path against the plain path

A packet of another size than its flow's template is made by copying the template's headers
and patching the bytes that depend on the size. The plain path builds a template of that size
instead. Byte for byte both give the same packet: outside the length fields and the checksums
no header byte depends on the size, the lengths are stored anew, and the checksums are
recomputed over equal bytes.

## Key results

- `templateBytes_agree`: two templates of one flow differ in lengths and checksums only
- `recalculateChecksums_agree`: checksums are recomputed from the other bytes alone
- `plain_path`: the clone of a template at another size is the plain packet of that size
-/

namespace TrafficGen

open PacketMutator Worker

variable {r : Rng}

/-- The byte is in no checksum field that `clone_and_mutate` recomputes. -/
def OffChecksums (protocol : String) (i : Nat) : Prop :=
  (i < 24 ∨ 26 ≤ i) ∧ (protocol = "tcp" ∨ protocol = "udp" →
    i < 34 + l4ChecksumOffset protocol ∨ 34 + l4ChecksumOffset protocol + 2 ≤ i)

/-! ## Headers over any memory -/

section Headers

variable {d : Dpdk} {m m' : ByteMem} {i : Nat}

theorem buildEthernetHeader_agree (srcMac dstMac : String) (etherType : UInt16) (hi : i < 14) :
    buildEthernetHeader d m 0 srcMac dstMac etherType i =
      buildEthernetHeader d m' 0 srcMac dstMac etherType i := by
  have hdst := length_macToBytes d.lone0x dstMac
  have hsrc := length_macToBytes d.lone0x srcMac
  refine ByteMem.store16_congr _ fun _ => ByteMem.copy_congr _ fun _ =>
    ByteMem.copy_congr _ fun _ => ?_
  omega

/-- Apart from the total length, the IP header is the same over any memory. -/
theorem buildIpHeader_agree (srcIp dstIp : UInt32) (protocol : UInt8) (len len' : UInt16)
    (hm : i < 14 → m i = m' i) (hi : i < 34) (hlen : i < 16 ∨ 18 ≤ i) :
    buildIpHeader m 14 srcIp dstIp protocol len i =
      buildIpHeader m' 14 srcIp dstIp protocol len' i := by
  refine ByteMem.store16_congr _ fun _ => ByteMem.store32_congr _ fun _ =>
    ByteMem.store32_congr _ fun _ => ByteMem.store8_congr _ fun _ =>
    ByteMem.store8_congr _ fun _ => ByteMem.store16_congr _ fun _ =>
    ByteMem.store16_congr _ fun _ => ?_
  rw [ByteMem.store16_outside _ _ (by omega), ByteMem.store16_outside _ _ (by omega)]
  refine ByteMem.store8_congr _ fun _ => ByteMem.store8_congr _ fun _ => hm ?_
  omega

/-- The total length is stored in network byte order. -/
theorem buildIpHeader_length (srcIp dstIp : UInt32) (protocol : UInt8) (len : UInt16)
    (hi : i = 16 ∨ i = 17) :
    buildIpHeader m 14 srcIp dstIp protocol len i = m'.store16 16 (rteCpuToBe16 len) i := by
  rw [buildIpHeader, ByteMem.store16_outside _ _ (by omega),
    ByteMem.store32_outside _ _ (by omega), ByteMem.store32_outside _ _ (by omega),
    ByteMem.store8_ne _ _ (by omega), ByteMem.store8_ne _ _ (by omega),
    ByteMem.store16_outside _ _ (by omega), ByteMem.store16_outside _ _ (by omega)]
  exact ByteMem.store16_congr _ fun _ => by omega

/-- Apart from its checksum and the datagram length, the transport header is the same over any
    memory. -/
theorem buildTransportHeader_agree (d : Dpdk) {protocol : String} {transport : Nat}
    (key : FlowKey) (len len' : Nat) (htransport : transportHeaderSize protocol = some transport)
    (hm : i < 34 → m i = m' i) (hi : i < 34 + transport) (hoff : OffChecksums protocol i)
    (hlen : protocol = "udp" → i < 38 ∨ 40 ≤ i) :
    buildTransportHeader d m 14 34 protocol key len i =
      buildTransportHeader d m' 14 34 protocol key len' i := by
  simp only [buildTransportHeader]
  rcases protocol_cases htransport with ⟨rfl, rfl⟩ | ⟨rfl, rfl⟩ | ⟨rfl, rfl⟩
  · have hcksum : i < 50 ∨ 52 ≤ i := hoff.2 (.inl rfl)
    simp only [if_true]
    rw [ByteMem.store16_outside _ _ (by omega), ByteMem.store16_outside _ _ (by omega)]
    refine ByteMem.store16_congr _ fun _ => ByteMem.store16_congr _ fun _ =>
      ByteMem.store16_congr _ fun _ => ByteMem.store8_congr _ fun _ =>
      ByteMem.store8_congr _ fun _ => ByteMem.store32_congr _ fun _ =>
      ByteMem.store32_congr _ fun _ => ByteMem.store16_congr _ fun _ =>
      ByteMem.store16_congr _ fun _ => hm ?_
    omega
  · have hcksum : i < 40 ∨ 42 ≤ i := hoff.2 (.inr rfl)
    have hlength := hlen rfl
    have hudp : ¬ "udp" = "tcp" := by decide
    -- the two ports are left
    simp (disch := omega) only [if_neg hudp, if_true, buildUdpHeader, ByteMem.store16_outside]
    refine ByteMem.store16_congr _ fun _ => ByteMem.store16_congr _ fun _ => hm ?_
    omega
  · have htcp : ¬ "icmp" = "tcp" := by decide
    have hudp : ¬ "icmp" = "udp" := by decide
    simp only [if_neg htcp, if_neg hudp]
    refine ByteMem.store16_congr _ fun _ => ByteMem.store16_congr _ fun _ =>
      ByteMem.store16_congr _ fun _ => ByteMem.store8_congr _ fun _ =>
      ByteMem.store8_congr _ fun _ => hm ?_
    omega

/-- The datagram length is stored in network byte order. -/
theorem buildTransportHeader_length (d : Dpdk) (key : FlowKey) (len : Nat)
    (hi : i = 38 ∨ i = 39) :
    buildTransportHeader d m 14 34 "udp" key len i =
      m'.store16 38 (rteCpuToBe16 (UInt16.ofNat len)) i := by
  have hudp : ¬ "udp" = "tcp" := by decide
  simp only [buildTransportHeader, if_neg hudp, if_true, buildUdpHeader]
  rw [ByteMem.store16_outside _ _ (by omega), ByteMem.store16_outside _ _ (by omega)]
  exact ByteMem.store16_congr _ fun _ => by omega

end Headers

/-! ## Two templates of one flow -/

section Templates

variable {d : Dpdk} {old old' t t' : PacketTemplate} {key : FlowKey} {packetSize size : UInt32}
  {protocol srcMac dstMac : String} {transport i : Nat}

/-- Two templates of one flow have the same headers, whatever their sizes and whatever the
    vectors held, apart from lengths and checksums. -/
theorem templateBytes_agree (h : buildTemplate d old key packetSize protocol srcMac dstMac = some t)
    (h' : buildTemplate d old' key size protocol srcMac dstMac = some t')
    (htransport : transportHeaderSize protocol = some transport) (hi : i < 34 + transport)
    (hoff : OffChecksums protocol i) (htotal : i < 16 ∨ 18 ≤ i)
    (hdgram : protocol = "udp" → i < 38 ∨ 40 ≤ i) :
    ByteMem.ofList t.data i = ByteMem.ofList t'.data i := by
  obtain ⟨_, htr, hsize, -, -, hdata⟩ := buildTemplate_eq_some h
  obtain rfl := Option.some.inj (htransport.symm.trans htr)
  obtain ⟨_, htr', hsize', -, -, hdata'⟩ := buildTemplate_eq_some h'
  obtain rfl := Option.some.inj (htransport.symm.trans htr')
  rw [hdata, hdata', ByteMem.ofList, ByteMem.ofList, ByteMem.getD_bytes _ _ (by omega),
    ByteMem.getD_bytes _ _ (by omega), Nat.zero_add, templateBytes_headers _ _ _ _ _ _ _ hi hoff.1,
    templateBytes_headers _ _ _ _ _ _ _ hi hoff.1]
  refine buildTransportHeader_agree d key _ _ htransport (fun hip => ?_) hi hoff hdgram
  exact buildIpHeader_agree _ _ _ _ _ (fun heth => buildEthernetHeader_agree _ _ _ heth) hip htotal

/-- The total length of a template, as its two bytes. -/
theorem ofList_totalLength (h : buildTemplate d old key packetSize protocol srcMac dstMac = some t)
    (hi : i = 16 ∨ i = 17) (m : ByteMem) :
    ByteMem.ofList t.data i = m.store16 16 (rteCpuToBe16 (packetSize - 14).toUInt16) i := by
  obtain ⟨mem, transport, -, hbyte⟩ := getD_buildTemplate h
  rw [hbyte i (by omega) (by omega), buildTransportHeader_below _ _ _ _ _ _ (by omega)]
  exact buildIpHeader_length _ _ _ _ hi

/-- The datagram length of a template, as its two bytes. -/
theorem ofList_dgramLen (h : buildTemplate d old key packetSize "udp" srcMac dstMac = some t)
    (hi : i = 38 ∨ i = 39) (m : ByteMem) :
    ByteMem.ofList t.data i =
      m.store16 38 (rteCpuToBe16 (UInt16.ofNat (packetSize.toNat - 34))) i := by
  obtain ⟨mem, transport, htransport, hbyte⟩ := getD_buildTemplate h
  obtain rfl : 8 = transport := Option.some.inj htransport
  rw [hbyte i (by omega) (by omega)]
  exact buildTransportHeader_length _ _ _ hi

/-- The payload of a template. -/
theorem ofList_payload (h : buildTemplate d old key packetSize protocol srcMac dstMac = some t)
    (htransport : transportHeaderSize protocol = some transport) (hlo : 34 + transport ≤ i)
    (hhi : i < packetSize.toNat) : ByteMem.ofList t.data i = 0 := by
  obtain ⟨_, htr, hsize, -, -, hdata⟩ := buildTemplate_eq_some h
  obtain rfl := Option.some.inj (htransport.symm.trans htr)
  rw [hdata, ByteMem.ofList, ByteMem.getD_bytes _ _ hhi, Nat.zero_add]
  exact templateBytes_payload _ _ _ _ _ _ _ (by omega) hlo hhi

end Templates

/-! ## Checksums over two memories -/

/-- The L4 checksum is a function of the frame's bytes. -/
theorem l4Checksum_congr {m m' : ByteMem} {protocol : String} {size : UInt32}
    (hm : FrameHeader m protocol size) (hm' : FrameHeader m' protocol size)
    (hlo : 34 ≤ size.toNat) (hhi : size.toNat < 2 ^ 16)
    (hagree : ∀ i < size.toNat, 26 ≤ i → m i = m' i) :
    l4Checksum m 14 34 = l4Checksum m' 14 34 := by
  have hproto : ipNextProtoId m 14 = ipNextProtoId m' 14 :=
    hm.nextProtoId.trans hm'.nextProtoId.symm
  have hpseudo : ∀ l4Len, pseudoHeader m 14 l4Len = pseudoHeader m' 14 l4Len := by
    intro l4Len
    rw [pseudoHeader, pseudoHeader, hproto,
      ByteMem.bytes_congr fun i _ _ => hagree i (by omega) (by omega)]
  rw [l4Checksum, l4Checksum, (hm.l4Length_eq hlo hhi).2, (hm'.l4Length_eq hlo hhi).2, hpseudo,
    hproto, ByteMem.bytes_congr fun i _ _ => hagree i (by omega) (by omega)]

section Checksums

variable {d : Dpdk} {m m' : ByteMem} {protocol : String} {size : UInt32}

/-- The IP checksum of two frames with equal headers. -/
theorem recalculateIpChecksum_agree (hm : FrameHeader m protocol size)
    (hm' : FrameHeader m' protocol size) {i : Nat}
    (hheader : ∀ i, 14 ≤ i → i < 34 → i < 24 ∨ 26 ≤ i → m i = m' i)
    (hi : i < 24 ∨ 26 ≤ i → m i = m' i) :
    recalculateIpChecksum d m 14 i = recalculateIpChecksum d m' 14 i := by
  have hzeroed : FrameHeader (m.store16 (14 + 10) 0) protocol size :=
    hm.of_agree fun _ _ _ => ByteMem.store16_outside _ _ (by omega)
  have hzeroed' : FrameHeader (m'.store16 (14 + 10) 0) protocol size :=
    hm'.of_agree fun _ _ _ => ByteMem.store16_outside _ _ (by omega)
  -- with the field at zero the headers are equal
  have hbytes : (m.store16 (14 + 10) 0).bytes 14 20 = (m'.store16 (14 + 10) 0).bytes 14 20 :=
    ByteMem.bytes_congr fun i hlo hhi =>
      ByteMem.store16_congr _ fun hfield => hheader i hlo (by omega) (by omega)
  rw [recalculateIpChecksum, recalculateIpChecksum, d.ipv4Cksum_eq, d.ipv4Cksum_eq,
    hzeroed.ipHdrLen_eq, hzeroed'.ipHdrLen_eq, hbytes]
  exact ByteMem.store16_congr _ fun hfield => ByteMem.store16_congr _ fun _ => hi (by omega)

/-- The L4 checksum of two frames equal outside its field. -/
theorem recalculateL4Checksum_agree (hm : FrameHeader m protocol size)
    (hm' : FrameHeader m' protocol size) (hhi : size.toNat < 2 ^ 16) {field i : Nat}
    (hfield : 34 ≤ field) (hlo : field ≤ size.toNat)
    (hagree : ∀ i < size.toNat, i < field ∨ field + 2 ≤ i → m i = m' i) (hi : i < size.toNat) :
    recalculateL4Checksum d m 14 34 field i = recalculateL4Checksum d m' 14 34 field i := by
  have hzeroed : FrameHeader (m.store16 field 0) protocol size :=
    hm.of_agree fun _ _ _ => ByteMem.store16_outside _ _ (by omega)
  have hzeroed' : FrameHeader (m'.store16 field 0) protocol size :=
    hm'.of_agree fun _ _ _ => ByteMem.store16_outside _ _ (by omega)
  have hbytes : ∀ i < size.toNat, (m.store16 field 0) i = (m'.store16 field 0) i := fun i hi =>
    ByteMem.store16_congr _ fun hout => hagree i hi hout
  rw [recalculateL4Checksum, recalculateL4Checksum,
    d.ipv4UdptcpCksum_eq _ _ _ (hzeroed.l4Length_eq (by omega) hhi).1,
    d.ipv4UdptcpCksum_eq _ _ _ (hzeroed'.l4Length_eq (by omega) hhi).1,
    l4Checksum_congr hzeroed hzeroed' (by omega) hhi fun i hi _ => hbytes i hi]
  exact ByteMem.store16_congr _ fun _ => hbytes i hi

/-- Recomputing the checksums makes frames equal that agree on every other byte. -/
theorem recalculateChecksums_agree {transport i : Nat} (hm : FrameHeader m protocol size)
    (hm' : FrameHeader m' protocol size)
    (htransport : transportHeaderSize protocol = some transport)
    (hlo : 34 + transport ≤ size.toNat) (hhi : size.toNat < 2 ^ 16)
    (hagree : ∀ i < size.toNat, OffChecksums protocol i → m i = m' i) (hi : i < size.toNat) :
    recalculateChecksums d m i = recalculateChecksums d m' i := by
  -- the IP header lies below the L4 field
  have hheader : ∀ i, 14 ≤ i → i < 34 → i < 24 ∨ 26 ≤ i → m i = m' i := fun i _ hi hoff =>
    hagree i (by omega) ⟨hoff, fun _ => by omega⟩
  by_cases hprotocol : protocol = "tcp" ∨ protocol = "udp"
  · obtain ⟨-, hfield⟩ := l4ChecksumOffset_bounds htransport hprotocol
    have hip : ∀ i < size.toNat, i < 34 + l4ChecksumOffset protocol ∨
        34 + l4ChecksumOffset protocol + 2 ≤ i →
        recalculateIpChecksum d m 14 i = recalculateIpChecksum d m' 14 i := fun i hi hout =>
      recalculateIpChecksum_agree hm hm' hheader fun hoff => hagree i hi ⟨hoff, fun _ => hout⟩
    have hkept : FrameHeader (recalculateIpChecksum d m 14) protocol size :=
      hm.of_agree fun _ _ _ => recalculateIpChecksum_outside _ _ (by omega)
    have hkept' : FrameHeader (recalculateIpChecksum d m' 14) protocol size :=
      hm'.of_agree fun _ _ _ => recalculateIpChecksum_outside _ _ (by omega)
    rw [recalculateChecksums_eq d hm.nextProtoId hprotocol,
      recalculateChecksums_eq d hm'.nextProtoId hprotocol]
    exact recalculateL4Checksum_agree hkept hkept' hhi (by omega) (by omega) hip hi
  · obtain rfl : protocol = "icmp" := by
      rcases protocol_cases htransport with ⟨rfl, -⟩ | ⟨rfl, -⟩ | ⟨rfl, -⟩
      · exact absurd (.inl rfl) hprotocol
      · exact absurd (.inr rfl) hprotocol
      · rfl
    rw [recalculateChecksums_icmp d hm.nextProtoId, recalculateChecksums_icmp d hm'.nextProtoId]
    exact recalculateIpChecksum_agree hm hm' hheader fun hoff =>
      hagree i hi ⟨hoff, fun h => absurd h hprotocol⟩

end Checksums

/-! ## The two paths -/

/-- The plain packet of a template: its bytes with the IP id, for TCP the sequence number, and
    the checksums recomputed. -/
def plainFrame (d : Dpdk) (t : PacketTemplate) (protocol : String) (id : UInt16)
    (seqNum : UInt32) : List UInt8 :=
  let mem := mutateIpId (ByteMem.ofList t.data) etherHdrSize id
  let mem := if protocol = "tcp" then mutateTcpSeq mem (etherHdrSize + ipv4HdrSize) seqNum else mem
  (recalculateChecksums d mem).bytes 0 t.data.length

/-- The fill zeroes everything from the headers to the size. -/
theorem fillFrame_payload {m : Mbuf} {t : PacketTemplate} {i : Nat}
    (hlo : t.payloadOffset.toNat ≤ i) (hhi : i < t.totalSize.toNat) :
    (fillFrame m t).data i = 0 := by
  have hpayload := toNat_payloadSize (t := t) (by omega)
  have hpos : t.totalSize.toUInt64 - t.payloadOffset.toUInt64 > 0 := by
    rw [gt_iff_lt, UInt64.lt_iff_toNat_lt, hpayload, UInt64.toNat_zero]
    omega
  simp only [fillFrame, if_pos hpos, Mbuf.memset]
  exact ByteMem.fill_inside _ _ hlo (by omega)

section Paths

variable {d : Dpdk} {old old' t t' : PacketTemplate} {key : FlowKey} {packetSize size : UInt32}
  {protocol srcMac dstMac : String} {transport i : Nat}

/-- What the clone copies and fills is the template of its size, apart from lengths and
    checksums. -/
theorem fillFrame_agree (fitted : Mbuf)
    (h : buildTemplate d old key packetSize protocol srcMac dstMac = some t)
    (h' : buildTemplate d old' key size protocol srcMac dstMac = some t')
    (htransport : transportHeaderSize protocol = some transport) (hi : i < size.toNat)
    (hoff : OffChecksums protocol i) (htotal : i < 16 ∨ 18 ≤ i)
    (hdgram : protocol = "udp" → i < 38 ∨ 40 ≤ i) :
    (fillFrame fitted { t with totalSize := size }).data i = ByteMem.ofList t'.data i := by
  obtain ⟨_, htr, -, hoffset, -, -⟩ := buildTemplate_eq_some h
  obtain rfl := Option.some.inj (htransport.symm.trans htr)
  have hwell := (wellFormed_of_buildTemplate h).1.withSize size
  by_cases hheader : i < 34 + transport
  · have hbyte := templateBytes_agree h h' htransport hheader hoff htotal hdgram
    exact (fillFrame_data hwell (by rw [hoffset]; exact hheader)).trans hbyte
  · rw [ofList_payload h' htransport (by omega) hi]
    exact fillFrame_payload (by rw [hoffset]; omega) hi

/-- The total length and the IP id are stored over the template, which leaves what the IP id
    alone leaves over the template of the new size. -/
theorem patched_agree (fitted : Mbuf)
    (h : buildTemplate d old key packetSize protocol srcMac dstMac = some t)
    (h' : buildTemplate d old' key size protocol srcMac dstMac = some t')
    (htransport : transportHeaderSize protocol = some transport) (id : UInt16)
    (hi : i < size.toNat) (hoff : OffChecksums protocol i)
    (hdgram : protocol = "udp" → i < 38 ∨ 40 ≤ i) :
    (((fillFrame fitted { t with totalSize := size }).data.store16 16
        (rteCpuToBe16 (size - 14).toUInt16)).store16 18 (rteCpuToBe16 id)) i =
      ((ByteMem.ofList t'.data).store16 18 (rteCpuToBe16 id)) i := by
  refine ByteMem.store16_congr _ fun _ => ?_
  by_cases htotal : i = 16 ∨ i = 17
  · exact (ofList_totalLength h' htotal _).symm
  · rw [ByteMem.store16_outside _ _ (by omega)]
    exact fillFrame_agree fitted h h' htransport hi hoff (by omega) hdgram

/-- Before the checksums the two paths hold the same bytes. -/
theorem mutateFields_agree (p : PacketMutator r) (fitted : Mbuf) (seq : UInt32)
    (h : buildTemplate d old key packetSize protocol srcMac dstMac = some t)
    (h' : buildTemplate d old' key size protocol srcMac dstMac = some t')
    (htransport : transportHeaderSize protocol = some transport) (hi : i < size.toNat)
    (hoff : OffChecksums protocol i) :
    (p.mutateFields (fillFrame fitted { t with totalSize := size }).data size seq).1 i =
      (let mem := mutateIpId (ByteMem.ofList t'.data) 14 p.drawnIpId
       if protocol = "tcp" then mutateTcpSeq mem 34 (p.drawnSeq seq) else mem) i := by
  have hwell := (wellFormed_of_buildTemplate h).1.withSize size
  have hbounds := hwell.payloadOffset_bounds
  have hproto : (fillFrame fitted { t with totalSize := size }).data 23 = ipProtocol protocol :=
    (fillFrame_data hwell (by omega)).trans hwell.nextProtoId
  obtain ⟨_, htr, hsize, -, -, -⟩ := buildTemplate_eq_some h'
  rw [p.mutateFields_eq hproto htransport]
  rcases protocol_cases htransport with ⟨rfl, -⟩ | ⟨rfl, -⟩ | ⟨rfl, -⟩
  · -- TCP: the sequence number goes over both
    refine ByteMem.store32_congr _ fun _ => ?_
    exact patched_agree fitted h h' htransport _ hi hoff fun hudp => absurd hudp (by decide)
  · have hudp : ¬ "udp" = "tcp" := by decide
    simp only [if_neg hudp, if_true]
    by_cases hdgram : i = 38 ∨ i = 39
    · -- the datagram length is that of the template built at this size
      have hlen : (size - 14 - 20).toUInt16 = UInt16.ofNat (size.toNat - 34) := by
        have h14 : (14 : UInt32).toNat = 14 := rfl
        have h20 : (20 : UInt32).toNat = 20 := rfl
        apply UInt16.toNat_inj.mp
        rw [UInt32.toNat_toUInt16, UInt16.toNat_ofNat', UInt32.toNat_sub, UInt32.toNat_sub, h14,
          h20]
        have := size.toNat_lt
        omega
      rw [hlen, mutateIpId, ByteMem.store16_outside (ByteMem.ofList t'.data) _ (by omega)]
      exact (ofList_dgramLen h' hdgram _).symm
    · rw [ByteMem.store16_outside _ _ (by omega)]
      exact patched_agree fitted h h' htransport _ hi hoff fun _ => by omega
  · exact patched_agree fitted h h' htransport _ hi hoff fun hudp => absurd hudp (by decide)

/-- **Plain path.** A clone, with checksums, of a flow's template at another size that the
    builder accepts succeeds on a fresh mbuf it fits, and its bytes are those of the template
    freshly built at that size, with the drawn IP id, for TCP the sequence number, and the
    checksums recomputed. -/
theorem plain_path (p : PacketMutator r) (m : Mbuf) (seq : UInt32)
    (h : buildTemplate d old key packetSize protocol srcMac dstMac = some t)
    (h' : buildTemplate d old' key size protocol srcMac dstMac = some t')
    (hfit : size.toNat ≤ m.room.toNat) :
    (m.Fresh → (p.cloneAndMutate d m { t with totalSize := size } seq true).1 = true) ∧
    ∀ mb p', p.cloneAndMutate d m { t with totalSize := size } seq true = (true, mb, p') →
      mb.frame = plainFrame d t' protocol p.drawnIpId (p.drawnSeq seq) := by
  obtain ⟨transport, htransport, hsize, hoffset, -, hdata'⟩ := buildTemplate_eq_some h'
  obtain ⟨_, htr, -, hoffset, -, -⟩ := buildTemplate_eq_some h
  obtain rfl := Option.some.inj (htransport.symm.trans htr)
  have hwell := (wellFormed_of_buildTemplate h).1.withSize size
  have hlt : size.toNat < 2 ^ 16 := by
    have := m.room.toNat_lt
    omega
  constructor
  · intro hm
    have hcut : size.toUInt16.toNat = size.toNat := by
      rw [UInt32.toNat_toUInt16]
      omega
    rcases p.cloneAndMutate_cases d seq true hm hwell (by dsimp only; omega) with
      ⟨hlarge, -⟩ | ⟨-, p', filled, mem, heq, -⟩
    · dsimp only at hlarge
      omega
    · rw [heq]
  · intro mb p' hclone
    obtain ⟨fitted, -, hpktLen, hdata⟩ := cloneAndMutate_eq_true hclone
    have hlen : mb.pktLen = size := hpktLen
    have hlength : t'.data.length = size.toNat := by rw [hdata', ByteMem.length_bytes]
    have hagree : ∀ i < size.toNat, OffChecksums protocol i → _ = _ := fun i hi hoff =>
      mutateFields_agree p fitted seq h h' htransport hi hoff
    -- both have the header fields the checksums are computed by
    have hbounds := hwell.payloadOffset_bounds
    have hheader := p.frameHeader_mutateFields size seq
      ((fillFrame_data (m := fitted) hwell (by omega)).trans hwell.versionIhl)
      ((fillFrame_data (m := fitted) hwell (by omega)).trans hwell.nextProtoId)
    have hplain := hheader.of_agree fun i hlo hhi =>
      (hagree i (by omega) ⟨by omega, fun _ => by omega⟩).symm
    rw [Mbuf.frame, hlen, plainFrame, hlength, hdata, if_pos rfl]
    exact ByteMem.bytes_congr fun i _ hi =>
      recalculateChecksums_agree hheader hplain htransport hsize hlt hagree (by omega)

end Paths

/-- A template of 64 bytes cloned at 1500. -/
theorem plain_path_1500 : ∃ t t',
    buildTemplate .reference .empty ⟨0, 0, 1000, 80, IPPROTO_UDP⟩ 64 "udp" "" "" = some t ∧
    buildTemplate .reference .empty ⟨0, 0, 1000, 80, IPPROTO_UDP⟩ 1500 "udp" "" "" = some t' ∧
    ∀ mb p', (initializeRng .counting 1 0).cloneAndMutate .reference .sample
        { t with totalSize := 1500 } 0 true = (true, mb, p') →
      mb.frame = plainFrame .reference t' "udp" (initializeRng .counting 1 0).drawnIpId
        ((initializeRng .counting 1 0).drawnSeq 0) := by
  obtain ⟨t, ht⟩ := Option.isSome_iff_exists.mp ((buildTemplate_isSome_iff .reference .empty
    ⟨0, 0, 1000, 80, IPPROTO_UDP⟩ 64 "udp" "" "").mpr ⟨8, rfl, by decide⟩)
  obtain ⟨t', ht'⟩ := Option.isSome_iff_exists.mp ((buildTemplate_isSome_iff .reference .empty
    ⟨0, 0, 1000, 80, IPPROTO_UDP⟩ 1500 "udp" "" "").mpr ⟨8, rfl, by decide⟩)
  exact ⟨t, t', ht, ht', (plain_path (initializeRng .counting 1 0) .sample 0 ht ht'
    (by decide)).2⟩

end TrafficGen
