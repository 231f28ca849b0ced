import TrafficGen.Spec.PlainPath

/-!
# Templates over old contents

`build_template` is given the template it fills and resizes its bytes without clearing them.
Every header byte is written and the payload is filled, so all that can be left of the old
contents is in the L4 checksum, which is taken before the payload is filled: it covers the old
bytes in the payload's place.

## Key results

- `buildTemplate_eq_iff`: when two old contents give the same template
- `reusable_iff`: when, besides, the checksum is that of the payload stored
-/

namespace TrafficGen

open PacketMutator

variable {d : Dpdk} {key : FlowKey} {packetSize : UInt32} {protocol srcMac dstMac : String}

/-- The length of the segment an IP header of a packet of this size gives, cut to 16 bits. -/
def coveredLen (packetSize : UInt32) : Nat :=
  (packetSize - 14).toUInt16.toNat - 20

/-- What the L4 checksum of a packet reads of its payload. -/
def coveredPayload (mem : ByteMem) (packetSize : UInt32) (headerSize : Nat) :
    List UInt8 :=
  mem.bytes headerSize (34 + coveredLen packetSize - headerSize)

/-- All it reads: the pseudo-header and the segment. -/
def coveredBytes (mem : ByteMem) (packetSize : UInt32) : List UInt8 :=
  pseudoHeader mem 14 (UInt16.ofNat (coveredLen packetSize)) ++
    mem.bytes 34 (coveredLen packetSize)

/-- `rte_ipv4_udptcp_cksum` has one answer for every packet whose IP header leaves no segment, be
    it `0` or, as in later versions, `0xFFFF`. -/
def Dpdk.RejectsShort (d : Dpdk) : Prop :=
  ∃ answer, ∀ mem ip l4, (ipTotalLength mem ip).toNat < ipHdrLen mem ip →
    d.ipv4UdptcpCksum mem ip l4 = answer

/-! ## What the L4 checksum tells of the payload -/

section Checksums

variable {m m' : ByteMem} {transport : Nat}

theorem FrameHeader.l4Length_eq_coveredLen (h : FrameHeader m protocol packetSize) :
    l4Length m 14 = coveredLen packetSize := by
  rw [l4Length, h.totalLength, h.ipHdrLen_eq, coveredLen]

/-- The protocol number of a pseudo-header is not zero, so neither is a sum it begins. -/
theorem sum_pseudoHeader_pos (h : FrameHeader m protocol packetSize)
    (htransport : transportHeaderSize protocol = some transport) (l4Len : UInt16)
    (post : List UInt8) : 0 < OnesComplement.sum (pseudoHeader m 14 l4Len ++ post) := by
  have hproto : ipNextProtoId m 14 = ipProtocol protocol := h.nextProtoId
  apply OnesComplement.sum_pos (v := ipProtocol protocol)
  · simp [pseudoHeader, hproto]
  · rcases protocol_cases htransport with ⟨rfl, -⟩ | ⟨rfl, -⟩ | ⟨rfl, -⟩
    · decide
    · decide
    · decide

/-- Sending `0` as `0xFFFF` loses nothing, as no sum is zero. -/
theorem l4Checksum_eq_iff (h : FrameHeader m protocol packetSize)
    (h' : FrameHeader m' protocol packetSize)
    (htransport : transportHeaderSize protocol = some transport) :
    l4Checksum m 14 34 = l4Checksum m' 14 34 ↔
      OnesComplement.sum (coveredBytes m packetSize) =
        OnesComplement.sum (coveredBytes m' packetSize) := by
  have hones : ∀ {mem : ByteMem}, FrameHeader mem protocol packetSize →
      OnesComplement.checksum (coveredBytes mem packetSize) ≠ 0xFFFF := by
    intro mem hmem hones
    have hpos : 0 < OnesComplement.sum (coveredBytes mem packetSize) :=
      sum_pseudoHeader_pos hmem htransport _ _
    have hsum := OnesComplement.toNat_checksum (coveredBytes mem packetSize)
    rw [hones] at hsum
    have : (0xFFFF : UInt16).toNat = 65535 := rfl
    omega
  have hcksum : ∀ {mem : ByteMem}, FrameHeader mem protocol packetSize →
      l4Checksum mem 14 34 =
        if OnesComplement.checksum (coveredBytes mem packetSize) = 0 ∧
          ipProtocol protocol = IPPROTO_UDP then 0xFFFF
        else OnesComplement.checksum (coveredBytes mem packetSize) := by
    intro mem hmem
    rw [l4Checksum, hmem.l4Length_eq_coveredLen,
      show ipNextProtoId mem 14 = ipProtocol protocol from hmem.nextProtoId]
    rfl
  rw [hcksum h, hcksum h', ← OnesComplement.checksum_inj]
  by_cases hudp : ipProtocol protocol = IPPROTO_UDP
  · simp only [hudp, and_true]
    split
    · next hzero =>
      split
      · next hzero' => exact iff_of_true rfl (hzero.trans hzero'.symm)
      · next hzero' =>
        exact iff_of_false (hones h').symm fun heq => hzero' (heq.symm.trans hzero)
    · next hzero =>
      split
      · next hzero' => exact iff_of_false (hones h) fun heq => hzero (heq.trans hzero')
      · exact Iff.rfl
  · simp only [hudp, and_false, if_false]

/-- A payload that starts behind the covered bytes adds nothing to them. -/
theorem coveredPayload_eq_nil (mem : ByteMem) (h : coveredLen packetSize ≤ transport) :
    coveredPayload mem packetSize (34 + transport) = [] := by
  have hlen : 34 + coveredLen packetSize - (34 + transport) = 0 := by omega
  rw [coveredPayload, hlen]
  rfl

/-- Otherwise the covered bytes are the transport header and the payload. -/
theorem bytes_coveredLen (mem : ByteMem) (h : transport ≤ coveredLen packetSize) :
    mem.bytes 34 (coveredLen packetSize) =
      mem.bytes 34 transport ++ coveredPayload mem packetSize (34 + transport) := by
  obtain ⟨n, hn⟩ := Nat.exists_eq_add_of_le h
  have hlen : 34 + coveredLen packetSize - (34 + transport) = n := by omega
  rw [coveredPayload, hlen, hn, ByteMem.bytes_add]

/-- The pseudo-header and a transport header are an even number of bytes. -/
theorem even_headers (htransport : transportHeaderSize protocol = some transport) (l4Len : UInt16) :
    (pseudoHeader m 14 l4Len ++ m.bytes 34 transport).length % 2 = 0 := by
  simp only [pseudoHeader, List.length_append, ByteMem.length_bytes, List.length_cons,
    List.length_nil]
  rcases protocol_cases htransport with ⟨-, rfl⟩ | ⟨-, rfl⟩ | ⟨-, rfl⟩
  · rfl
  · rfl
  · rfl

/-- Of two segments with equal headers the checksums are equal exactly when their payloads have
    one sum, the two zeros of one's complement taken together. -/
theorem ipv4UdptcpCksum_eq_iff (hd : d.RejectsShort) (h : FrameHeader m protocol packetSize)
    (h' : FrameHeader m' protocol packetSize)
    (htransport : transportHeaderSize protocol = some transport)
    (hagree : ∀ i, 26 ≤ i → i < 34 + transport → m i = m' i) :
    d.ipv4UdptcpCksum m 14 34 = d.ipv4UdptcpCksum m' 14 34 ↔
      OnesComplement.sum (coveredPayload m packetSize (34 + transport)) % 65535 =
        OnesComplement.sum (coveredPayload m' packetSize (34 + transport)) % 65535 := by
  by_cases hshort : (packetSize - 14).toUInt16.toNat < 20
  · -- no segment, no payload
    have hcovered : coveredLen packetSize ≤ transport := by
      unfold coveredLen
      omega
    obtain ⟨answer, hd⟩ := hd
    rw [hd m 14 34 (by rwa [h.totalLength, h.ipHdrLen_eq]),
      hd m' 14 34 (by rwa [h'.totalLength, h'.ipHdrLen_eq]), coveredPayload_eq_nil _ hcovered,
      coveredPayload_eq_nil _ hcovered]
    exact iff_of_true rfl rfl
  · have hinj : Function.Injective rteCpuToBe16 :=
      Function.LeftInverse.injective rteBeToCpu16_rteCpuToBe16
    rw [d.ipv4UdptcpCksum_eq _ _ _ (by rw [h.totalLength, h.ipHdrLen_eq]; omega),
      d.ipv4UdptcpCksum_eq _ _ _ (by rw [h'.totalLength, h'.ipHdrLen_eq]; omega), hinj.eq_iff,
      l4Checksum_eq_iff h h' htransport]
    have hpseudo : ∀ l4Len, pseudoHeader m 14 l4Len = pseudoHeader m' 14 l4Len := by
      intro l4Len
      rw [pseudoHeader, pseudoHeader, show ipNextProtoId m 14 = ipNextProtoId m' 14 from
        h.nextProtoId.trans h'.nextProtoId.symm,
        ByteMem.bytes_congr fun i _ _ => hagree i (by omega) (by omega)]
    by_cases hcovered : coveredLen packetSize ≤ transport
    · rw [coveredPayload_eq_nil _ hcovered, coveredPayload_eq_nil _ hcovered, coveredBytes,
        coveredBytes, hpseudo, ByteMem.bytes_congr fun i _ _ => hagree i (by omega) (by omega)]
      exact iff_of_true rfl rfl
    · have hsplit := fun mem => bytes_coveredLen mem (Nat.le_of_not_le hcovered)
      have hheader : m.bytes 34 transport = m'.bytes 34 transport :=
        ByteMem.bytes_congr fun i _ _ => hagree i (by omega) (by omega)
      -- the headers are an even number of bytes, so the payload's words are summed on their own
      rw [coveredBytes, coveredBytes, hpseudo, hsplit, hsplit, hheader, ← List.append_assoc,
        ← List.append_assoc, OnesComplement.sum_append _ _ (even_headers htransport _),
        OnesComplement.sum_append _ _ (even_headers htransport _)]
      exact OnesComplement.add_eq_add_iff (sum_pseudoHeader_pos h' htransport _ _)
        (OnesComplement.sum_lt _) (OnesComplement.sum_lt _) (OnesComplement.sum_lt _)

end Checksums

/-! ## The memory the checksum is taken over -/

/-- The transport header of a TCP or UDP template, its checksum still empty. -/
def unsummedHeader (mem : ByteMem) (protocol : String) (key : FlowKey) (l4Len : Nat) : ByteMem :=
  if protocol = "tcp" then buildTcpHeader mem 34 key.srcPort key.dstPort 0 0
  else buildUdpHeader mem 34 key.srcPort key.dstPort (UInt16.ofNat l4Len)

/-- A template when its L4 checksum is taken: the headers over the old contents. -/
def unsummed (d : Dpdk) (old : List UInt8) (key : FlowKey) (packetSize : UInt32)
    (protocol srcMac dstMac : String) : ByteMem :=
  unsummedHeader
    (buildIpHeader
      (buildEthernetHeader d (ByteMem.ofList (resize old packetSize.toNat)) 0
        (defaultMac srcMac "00:01:02:03:04:05") (defaultMac dstMac "00:06:07:08:09:0A") 0x0800)
      14 key.srcIp key.dstIp (ipProtocol protocol) (packetSize - 14).toUInt16)
    protocol key (packetSize.toNat - 34)

section Unsummed

variable {m m' : ByteMem} {transport i : Nat}

theorem buildTransportHeader_eq (d : Dpdk) (mem : ByteMem) (key : FlowKey) (l4Len : Nat)
    (hprotocol : protocol = "tcp" ∨ protocol = "udp") :
    buildTransportHeader d mem 14 34 protocol key l4Len =
      (unsummedHeader mem protocol key l4Len).store16 (34 + l4ChecksumOffset protocol)
        (d.ipv4UdptcpCksum (unsummedHeader mem protocol key l4Len) 14 34) := by
  rcases hprotocol with rfl | rfl
  · rfl
  · rfl

/-- Every byte of the transport header is written. -/
theorem unsummedHeader_agree (key : FlowKey) (l4Len : Nat)
    (htransport : transportHeaderSize protocol = some transport)
    (hprotocol : protocol = "tcp" ∨ protocol = "udp") (hm : i < 34 → m i = m' i)
    (hi : i < 34 + transport) :
    unsummedHeader m protocol key l4Len i = unsummedHeader m' protocol key l4Len i := by
  rcases hprotocol with rfl | rfl
  · obtain rfl : 20 = transport := Option.some.inj htransport
    refine ByteMem.store16_congr _ fun _ => ByteMem.store16_congr _ fun _ =>
      ByteMem.store16_congr _ fun _ => ByteMem.store8_congr _ fun _ =>
      ByteMem.store8_congr _ fun _ => ByteMem.store32_congr _ fun _ =>
      ByteMem.store32_congr _ fun _ => ByteMem.store16_congr _ fun _ =>
      ByteMem.store16_congr _ fun _ => hm ?_
    omega
  · obtain rfl : 8 = transport := Option.some.inj htransport
    refine ByteMem.store16_congr _ fun _ => ByteMem.store16_congr _ fun _ =>
      ByteMem.store16_congr _ fun _ => ByteMem.store16_congr _ fun _ => hm ?_
    omega

/-- Nothing behind it is. -/
theorem unsummedHeader_payload (key : FlowKey) (l4Len : Nat)
    (htransport : transportHeaderSize protocol = some transport)
    (hprotocol : protocol = "tcp" ∨ protocol = "udp") (hi : 34 + transport ≤ i) :
    unsummedHeader m protocol key l4Len i = m i := by
  rcases hprotocol with rfl | rfl
  · obtain rfl : 20 = transport := Option.some.inj htransport
    show buildTcpHeader m 34 _ _ 0 0 i = _
    simp (disch := omega) only [buildTcpHeader, ByteMem.store16_outside, ByteMem.store32_outside,
      ByteMem.store8_ne]
  · obtain rfl : 8 = transport := Option.some.inj htransport
    show buildUdpHeader m 34 _ _ _ i = _
    simp (disch := omega) only [buildUdpHeader, ByteMem.store16_outside]

/-- The checksum field is stored empty. -/
theorem unsummedHeader_field (key : FlowKey) (l4Len : Nat)
    (hprotocol : protocol = "tcp" ∨ protocol = "udp") :
    ∃ mem : ByteMem, unsummedHeader m protocol key l4Len =
      mem.store16 (34 + l4ChecksumOffset protocol) 0 := by
  rcases hprotocol with rfl | rfl
  · exact ⟨_, rfl⟩
  · exact ⟨_, rfl⟩

/-- Every byte of the IP header is written. -/
theorem buildIpHeader_agree_all (srcIp dstIp : UInt32) (proto : UInt8) (len : UInt16)
    (hm : i < 14 → m i = m' i) (hi : i < 34) :
    buildIpHeader m 14 srcIp dstIp proto len i = buildIpHeader m' 14 srcIp dstIp proto len i := by
  by_cases htotal : i = 16 ∨ i = 17
  · have hlength : ∀ mem : ByteMem, buildIpHeader mem 14 srcIp dstIp proto len i =
        m.store16 16 (rteCpuToBe16 len) i := fun _ =>
      buildIpHeader_length srcIp dstIp proto len htotal
    rw [hlength, hlength]
  · exact buildIpHeader_agree _ _ _ _ _ hm hi (by omega)

variable {old old' : List UInt8}

/-- So the headers do not depend on the old contents. -/
theorem unsummed_agree (htransport : transportHeaderSize protocol = some transport)
    (hprotocol : protocol = "tcp" ∨ protocol = "udp") (hi : i < 34 + transport) :
    unsummed d old key packetSize protocol srcMac dstMac i =
      unsummed d old' key packetSize protocol srcMac dstMac i := by
  refine unsummedHeader_agree key _ htransport hprotocol (fun hip => ?_) hi
  exact buildIpHeader_agree_all _ _ _ _ (fun heth => buildEthernetHeader_agree _ _ _ heth) hip

/-- And the payload is the old contents. -/
theorem unsummed_payload (htransport : transportHeaderSize protocol = some transport)
    (hprotocol : protocol = "tcp" ∨ protocol = "udp") (hi : 34 + transport ≤ i) :
    unsummed d old key packetSize protocol srcMac dstMac i =
      ByteMem.ofList (resize old packetSize.toNat) i := by
  have hdst := length_macToBytes d.lone0x (defaultMac dstMac "00:06:07:08:09:0A")
  have hsrc := length_macToBytes d.lone0x (defaultMac srcMac "00:01:02:03:04:05")
  rw [unsummed, unsummedHeader_payload key _ htransport hprotocol hi]
  simp (disch := omega) only [buildIpHeader, buildEthernetHeader, ByteMem.store16_outside,
    ByteMem.store32_outside, ByteMem.store8_ne, ByteMem.copy_outside]

end Unsummed

/-! ## Two old contents -/

/-- The sum of the old contents in the payload's place that the L4 checksum reads, the two zeros
    of one's complement taken together. -/
def oldPayloadSum (old : PacketTemplate) (packetSize : UInt32) (protocol : String) : Nat :=
  OnesComplement.sum (coveredPayload (ByteMem.ofList (resize old.data packetSize.toNat)) packetSize
    (34 + (transportHeaderSize protocol).getD 0)) % 65535

/-- The old contents leave no trace in the L4 checksum: they sum as zeros do. -/
def Traceless (old : PacketTemplate) (packetSize : UInt32) (protocol : String) : Prop :=
  oldPayloadSum old packetSize protocol = 0

/-- A TCP or UDP template stores the checksum of the segment it holds. -/
def PacketTemplate.ChecksumCovers (d : Dpdk) (protocol : String) (t : PacketTemplate) : Prop :=
  protocol = "tcp" ∨ protocol = "udp" →
    (ByteMem.ofList t.data).load16 (34 + l4ChecksumOffset protocol) =
      d.ipv4UdptcpCksum ((ByteMem.ofList t.data).store16 (34 + l4ChecksumOffset protocol) 0) 14 34

section Reuse

variable {old old' t t' : PacketTemplate} {transport i : Nat}

theorem frameHeader_buildTemplate
    (h : buildTemplate d old key packetSize protocol srcMac dstMac = some t) :
    FrameHeader (ByteMem.ofList t.data) protocol packetSize where
  versionIhl := (wellFormed_of_buildTemplate h).1.versionIhl
  nextProtoId := (wellFormed_of_buildTemplate h).1.nextProtoId
  totalLength := by
    rw [ipTotalLength, ByteMem.load16_congr
      (ofList_totalLength h (.inl rfl) (ByteMem.ofList t.data))
      (ofList_totalLength h (.inr rfl) (ByteMem.ofList t.data)), ByteMem.load16_store16,
      rteBeToCpu16_rteCpuToBe16]

/-- Off the checksums two templates of one size are equal. -/
theorem buildTemplate_agree
    (h : buildTemplate d old key packetSize protocol srcMac dstMac = some t)
    (h' : buildTemplate d old' key packetSize protocol srcMac dstMac = some t')
    (htransport : transportHeaderSize protocol = some transport) (hi : i < 34 + transport)
    (hoff : OffChecksums protocol i) :
    ByteMem.ofList t.data i = ByteMem.ofList t'.data i := by
  by_cases htotal : i = 16 ∨ i = 17
  · rw [ofList_totalLength h htotal (ByteMem.ofList []),
      ofList_totalLength h' htotal (ByteMem.ofList [])]
  · by_cases hdgram : protocol = "udp" ∧ (i = 38 ∨ i = 39)
    · obtain ⟨rfl, hdgram⟩ := hdgram
      rw [ofList_dgramLen h hdgram (ByteMem.ofList []),
        ofList_dgramLen h' hdgram (ByteMem.ofList [])]
    · refine templateBytes_agree h h' htransport hi hoff (by omega) fun hudp => ?_
      have hlen := not_and.mp hdgram hudp
      omega

/-- The IP checksum stored is that of the header stored. -/
theorem recalculateIpChecksum_buildTemplate
    (h : buildTemplate d old key packetSize protocol srcMac dstMac = some t) (hi : i < 34) :
    ByteMem.ofList t.data i = recalculateIpChecksum d (ByteMem.ofList t.data) 14 i := by
  obtain ⟨transport, -, hsize, -, -, hdata⟩ := buildTemplate_eq_some h
  obtain ⟨filled, hfilled⟩ : ∃ filled, templateBytes d old.data key packetSize protocol srcMac
      dstMac (34 + transport) = recalculateIpChecksum d filled 14 := ⟨_, rfl⟩
  have hbyte : ∀ j < 34, ByteMem.ofList t.data j = recalculateIpChecksum d filled 14 j := by
    intro j hj
    rw [hdata, ByteMem.ofList, ByteMem.getD_bytes _ _ (by omega), Nat.zero_add, hfilled]
  have hkept : ∀ j < 34, j < 24 ∨ 26 ≤ j → filled j = ByteMem.ofList t.data j := by
    intro j hj hoff
    rw [hbyte j hj, recalculateIpChecksum_outside _ _ hoff]
  have hheader := frameHeader_buildTemplate h
  rw [hbyte i hi]
  exact recalculateIpChecksum_agree
    (hheader.of_agree fun j _ hj => hkept j (by omega) (by omega)) hheader
    (fun j _ hj hoff => hkept j hj hoff) (hkept i hi)

/-- A TCP or UDP template is the unsummed one with the checksum of that in its field. -/
theorem buildTemplate_summed
    (h : buildTemplate d old key packetSize protocol srcMac dstMac = some t)
    (htransport : transportHeaderSize protocol = some transport)
    (hprotocol : protocol = "tcp" ∨ protocol = "udp") (hi : i < 34 + transport)
    (hoff : i < 24 ∨ 26 ≤ i) :
    let mem := unsummed d old.data key packetSize protocol srcMac dstMac
    ByteMem.ofList t.data i =
      mem.store16 (34 + l4ChecksumOffset protocol) (d.ipv4UdptcpCksum mem 14 34) i := by
  obtain ⟨_, htr, hsize, -, -, hdata⟩ := buildTemplate_eq_some h
  obtain rfl := Option.some.inj (htransport.symm.trans htr)
  have hlen : 34 + transport - 34 + (packetSize.toNat - (34 + transport)) =
      packetSize.toNat - 34 := by omega
  rw [hdata, ByteMem.ofList, ByteMem.getD_bytes _ _ (by omega), Nat.zero_add,
    templateBytes_headers _ _ _ _ _ _ _ hi hoff, hlen, buildTransportHeader_eq d _ key _ hprotocol]
  rfl

/-- The checksum a template stores. -/
theorem load16_buildTemplate
    (h : buildTemplate d old key packetSize protocol srcMac dstMac = some t)
    (htransport : transportHeaderSize protocol = some transport)
    (hprotocol : protocol = "tcp" ∨ protocol = "udp") :
    (ByteMem.ofList t.data).load16 (34 + l4ChecksumOffset protocol) =
      d.ipv4UdptcpCksum (unsummed d old.data key packetSize protocol srcMac dstMac) 14 34 := by
  obtain ⟨-, hfield⟩ := l4ChecksumOffset_bounds htransport hprotocol
  rw [ByteMem.load16_congr
    (buildTemplate_summed h htransport hprotocol (by omega) (by omega))
    (buildTemplate_summed h htransport hprotocol (by omega) (by omega)), ByteMem.load16_store16]

theorem frameHeader_unsummed
    (h : buildTemplate d old key packetSize protocol srcMac dstMac = some t)
    (htransport : transportHeaderSize protocol = some transport)
    (hprotocol : protocol = "tcp" ∨ protocol = "udp") :
    FrameHeader (unsummed d old.data key packetSize protocol srcMac dstMac) protocol packetSize := by
  refine (frameHeader_buildTemplate h).of_agree fun i _ hi => ?_
  rw [buildTemplate_summed h htransport hprotocol (by omega) (by omega),
    ByteMem.store16_outside _ _ (by omega)]

/-- What the checksum reads of the payload is the old contents. -/
theorem coveredPayload_unsummed (htransport : transportHeaderSize protocol = some transport)
    (hprotocol : protocol = "tcp" ∨ protocol = "udp") (old : List UInt8) :
    coveredPayload (unsummed d old key packetSize protocol srcMac dstMac) packetSize
        (34 + transport) =
      coveredPayload (ByteMem.ofList (resize old packetSize.toNat)) packetSize (34 + transport) :=
  ByteMem.bytes_congr fun _ hi _ => unsummed_payload htransport hprotocol hi

variable (key srcMac dstMac) in
theorem oldPayloadSum_eq (htransport : transportHeaderSize protocol = some transport)
    (hprotocol : protocol = "tcp" ∨ protocol = "udp") (old : PacketTemplate) :
    oldPayloadSum old packetSize protocol =
      OnesComplement.sum (coveredPayload (unsummed d old.data key packetSize protocol srcMac dstMac)
        packetSize (34 + transport)) % 65535 := by
  rw [coveredPayload_unsummed htransport hprotocol, oldPayloadSum, htransport]
  rfl

/-- Behind the headers a template reads as zeros. -/
theorem ofList_behind_headers
    (h : buildTemplate d old key packetSize protocol srcMac dstMac = some t)
    (htransport : transportHeaderSize protocol = some transport) (hi : 34 + transport ≤ i) :
    ByteMem.ofList t.data i = 0 := by
  by_cases hsize : i < packetSize.toNat
  · exact ofList_payload h htransport hi hsize
  · obtain ⟨_, -, -, -, -, hdata⟩ := buildTemplate_eq_some h
    rw [ByteMem.ofList, List.getD_eq_default]
    rw [hdata, ByteMem.length_bytes]
    omega

/-- A template has no other contents than its bytes. -/
theorem buildTemplate_ext
    (h : buildTemplate d old key packetSize protocol srcMac dstMac = some t)
    (h' : buildTemplate d old' key packetSize protocol srcMac dstMac = some t')
    (hbytes : ∀ i, ByteMem.ofList t.data i = ByteMem.ofList t'.data i) : t = t' := by
  have hfields : ∀ {o s}, buildTemplate d o key packetSize protocol srcMac dstMac = some s →
      s = ⟨key, packetSize, UInt32.ofNat (34 + (transportHeaderSize protocol).getD 0), s.data⟩ := by
    intro o s hs
    simp only [buildTemplate] at hs
    split at hs
    · cases hs
    · next htransport =>
      rw [htransport]
      split at hs
      · cases hs
      · cases hs
        rfl
  obtain ⟨_, -, -, -, -, hdata⟩ := buildTemplate_eq_some h
  obtain ⟨_, -, -, -, -, hdata'⟩ := buildTemplate_eq_some h'
  have hlen : t.data.length = t'.data.length := by
    rw [hdata, hdata', ByteMem.length_bytes, ByteMem.length_bytes]
  rw [hfields h, hfields h']
  congr 1
  apply List.ext_getElem hlen
  intro i hi hi'
  rw [← List.getD_eq_getElem _ 0 hi, ← List.getD_eq_getElem _ 0 hi']
  exact hbytes i

/-- Two templates of one flow and size can differ in their L4 checksums alone. -/
theorem buildTemplate_eq_of_field
    (h : buildTemplate d old key packetSize protocol srcMac dstMac = some t)
    (h' : buildTemplate d old' key packetSize protocol srcMac dstMac = some t')
    (hfield : protocol = "tcp" ∨ protocol = "udp" →
      (ByteMem.ofList t.data).load16 (34 + l4ChecksumOffset protocol) =
        (ByteMem.ofList t'.data).load16 (34 + l4ChecksumOffset protocol)) : t = t' := by
  obtain ⟨transport, htransport, -, -, -, -⟩ := buildTemplate_eq_some h
  have hheader : ∀ i < 34 + transport, i < 24 ∨ 26 ≤ i →
      ByteMem.ofList t.data i = ByteMem.ofList t'.data i := by
    intro i hi hoff
    by_cases hprotocol : protocol = "tcp" ∨ protocol = "udp"
    · have hcksum := hfield hprotocol
      rw [load16_buildTemplate h htransport hprotocol,
        load16_buildTemplate h' htransport hprotocol] at hcksum
      rw [buildTemplate_summed h htransport hprotocol hi hoff,
        buildTemplate_summed h' htransport hprotocol hi hoff, hcksum]
      exact ByteMem.store16_congr _ fun _ => unsummed_agree htransport hprotocol hi
    · exact buildTemplate_agree h h' htransport hi ⟨hoff, fun hp => absurd hp hprotocol⟩
  apply buildTemplate_ext h h'
  intro i
  by_cases hi : i < 34 + transport
  · by_cases hoff : i < 24 ∨ 26 ≤ i
    · exact hheader i hi hoff
    · rw [recalculateIpChecksum_buildTemplate h (by omega),
        recalculateIpChecksum_buildTemplate h' (by omega)]
      exact recalculateIpChecksum_agree (frameHeader_buildTemplate h)
        (frameHeader_buildTemplate h') (fun i _ hi => hheader i (by omega)) (hheader i hi)
  · rw [ofList_behind_headers h htransport (by omega),
      ofList_behind_headers h' htransport (by omega)]

/-- Two old contents give one template exactly when their sums in the payload's place agree, and
    always give one ICMP template. -/
theorem buildTemplate_eq_iff (hd : d.RejectsShort)
    (h : buildTemplate d old key packetSize protocol srcMac dstMac = some t)
    (h' : buildTemplate d old' key packetSize protocol srcMac dstMac = some t') :
    t = t' ↔ (protocol = "tcp" ∨ protocol = "udp" →
      oldPayloadSum old packetSize protocol = oldPayloadSum old' packetSize protocol) := by
  obtain ⟨transport, htransport, -, -, -, -⟩ := buildTemplate_eq_some h
  have hsums : ∀ hprotocol : protocol = "tcp" ∨ protocol = "udp",
      (ByteMem.ofList t.data).load16 (34 + l4ChecksumOffset protocol) =
          (ByteMem.ofList t'.data).load16 (34 + l4ChecksumOffset protocol) ↔
        oldPayloadSum old packetSize protocol = oldPayloadSum old' packetSize protocol := by
    intro hprotocol
    rw [load16_buildTemplate h htransport hprotocol, load16_buildTemplate h' htransport hprotocol,
      ipv4UdptcpCksum_eq_iff hd (frameHeader_unsummed h htransport hprotocol)
        (frameHeader_unsummed h' htransport hprotocol) htransport
        (fun i _ hi => unsummed_agree htransport hprotocol hi),
      oldPayloadSum_eq key srcMac dstMac htransport hprotocol,
      oldPayloadSum_eq key srcMac dstMac htransport hprotocol]
  constructor
  · rintro rfl hprotocol
    exact (hsums hprotocol).mp rfl
  · intro heq
    exact buildTemplate_eq_of_field h h' fun hprotocol => (hsums hprotocol).mpr (heq hprotocol)

/-- Storing the empty checksum again changes nothing. -/
theorem unsummed_store16_field (hprotocol : protocol = "tcp" ∨ protocol = "udp")
    (old : List UInt8) :
    (unsummed d old key packetSize protocol srcMac dstMac).store16
        (34 + l4ChecksumOffset protocol) 0 i =
      unsummed d old key packetSize protocol srcMac dstMac i := by
  obtain ⟨mem, hmem⟩ := unsummedHeader_field (m := buildIpHeader
    (buildEthernetHeader d (ByteMem.ofList (resize old packetSize.toNat)) 0
      (defaultMac srcMac "00:01:02:03:04:05") (defaultMac dstMac "00:06:07:08:09:0A") 0x0800)
    14 key.srcIp key.dstIp (ipProtocol protocol) (packetSize - 14).toUInt16) key
    (packetSize.toNat - 34) hprotocol
  rw [unsummed, hmem]
  exact ByteMem.store16_congr _ fun hi => ByteMem.store16_outside _ _ hi

/-- The checksum stored is that of the segment stored exactly when the old contents left no
    trace in it. -/
theorem checksumCovers_iff (hd : d.RejectsShort)
    (h : buildTemplate d old key packetSize protocol srcMac dstMac = some t) :
    t.ChecksumCovers d protocol ↔
      (protocol = "tcp" ∨ protocol = "udp" → Traceless old packetSize protocol) := by
  obtain ⟨transport, htransport, -, -, -, -⟩ := buildTemplate_eq_some h
  refine forall_congr' fun hprotocol => ?_
  obtain ⟨-, hfield⟩ := l4ChecksumOffset_bounds htransport hprotocol
  have hzeroed : FrameHeader
      ((ByteMem.ofList t.data).store16 (34 + l4ChecksumOffset protocol) 0) protocol packetSize :=
    (frameHeader_buildTemplate h).of_agree fun i _ hi =>
      ByteMem.store16_outside _ _ (by omega)
  have hagree : ∀ i, 26 ≤ i → i < 34 + transport →
      unsummed d old.data key packetSize protocol srcMac dstMac i =
        (ByteMem.ofList t.data).store16 (34 + l4ChecksumOffset protocol) 0 i := by
    intro i hlo hi
    rw [← unsummed_store16_field hprotocol]
    refine ByteMem.store16_congr _ fun hout => ?_
    rw [buildTemplate_summed h htransport hprotocol hi (by omega),
      ByteMem.store16_outside _ _ hout]
  -- the payload stored is zeros
  have hzeros : coveredPayload
      ((ByteMem.ofList t.data).store16 (34 + l4ChecksumOffset protocol) 0) packetSize
      (34 + transport) = List.replicate (34 + coveredLen packetSize - (34 + transport)) 0 := by
    refine ByteMem.bytes_eq_replicate fun i hi _ => ?_
    rw [ByteMem.store16_outside _ _ (by omega)]
    exact ofList_behind_headers h htransport hi
  rw [load16_buildTemplate h htransport hprotocol,
    ipv4UdptcpCksum_eq_iff hd (frameHeader_unsummed h htransport hprotocol) hzeroed htransport
      hagree, hzeros, OnesComplement.sum_replicate_zero,
    ← oldPayloadSum_eq key srcMac dstMac htransport hprotocol]
  exact Iff.rfl

end Reuse

/-! ## Main theorem -/

/-- Whatever was in two templates, building one flow into them leaves identical templates with
    the checksum of the payload stored exactly when neither left a trace in the checksum. -/
theorem reusable_iff (d : Dpdk) (hd : d.RejectsShort) (key : FlowKey) (packetSize : UInt32)
    (protocol srcMac dstMac : String) (old old' t t' : PacketTemplate)
    (h : buildTemplate d old key packetSize protocol srcMac dstMac = some t)
    (h' : buildTemplate d old' key packetSize protocol srcMac dstMac = some t') :
    (t = t' ∧ t.ChecksumCovers d protocol ∧ t'.ChecksumCovers d protocol) ↔
      (protocol = "tcp" ∨ protocol = "udp" →
        Traceless old packetSize protocol ∧ Traceless old' packetSize protocol) := by
  rw [checksumCovers_iff hd h, checksumCovers_iff hd h', buildTemplate_eq_iff hd h h', ← imp_and,
    ← imp_and]
  refine forall_congr' fun _ => ⟨fun hall => hall.2, fun hold => ⟨?_, hold⟩⟩
  exact hold.1.trans hold.2.symm

theorem Dpdk.rejectsShort_reference : Dpdk.reference.RejectsShort :=
  ⟨0, fun _ _ _ hshort => if_neg (Nat.not_le.mpr hshort)⟩

/-- A flow of datagrams. -/
def FlowKey.datagram : FlowKey :=
  ⟨0x0A000001, 0x0A000002, 1024, 80, 17⟩

/-- A template that held another packet. -/
def PacketTemplate.stale : PacketTemplate :=
  { PacketTemplate.empty with data := List.replicate 42 0 ++ [0x12, 0x34] }

/-- A fresh template, as `add_flow` passes one, leaves no trace. -/
theorem reusable_empty : ∃ t,
    buildTemplate .reference .empty .datagram 44 "udp" "" "" = some t ∧
      t.ChecksumCovers .reference "udp" := by
  obtain ⟨t, ht⟩ : ∃ t, buildTemplate .reference .empty .datagram 44 "udp" "" "" = some t :=
    ⟨_, rfl⟩
  have hzero : Traceless .empty 44 "udp" := by
    unfold Traceless
    decide
  have hreuse := (reusable_iff .reference Dpdk.rejectsShort_reference .datagram 44 "udp" "" ""
    .empty .empty t t ht ht).mpr fun _ => ⟨hzero, hzero⟩
  exact ⟨t, ht, hreuse.2.1⟩

/-- Over a stale template the checksum is another one. -/
theorem stale_checksum : ∃ t t',
    buildTemplate .reference .empty .datagram 44 "udp" "" "" = some t ∧
      buildTemplate .reference .stale .datagram 44 "udp" "" "" = some t' ∧ t ≠ t' := by
  have hsome : ∀ old, ∃ t, buildTemplate .reference old .datagram 44 "udp" "" "" = some t :=
    fun _ => ⟨_, rfl⟩
  obtain ⟨t, ht⟩ := hsome .empty
  obtain ⟨t', ht'⟩ := hsome .stale
  refine ⟨t, t', ht, ht', fun heq => ?_⟩
  have hold := (buildTemplate_eq_iff Dpdk.rejectsShort_reference ht ht').mp heq (.inr rfl)
  revert hold
  decide

end TrafficGen
