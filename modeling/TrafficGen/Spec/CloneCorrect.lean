import TrafficGen.Spec.TemplateCorrect

/-!
# Cloning a template into a fresh mbuf

Everything a caller needs to know of `clone_and_mutate` on a freshly allocated mbuf
and a well-formed template whose headers fit the requested size: when it succeeds
(`cloneAndMutate_cases`), which lengths it leaves, and which header bytes
(`FrameHeader`) the later passes over the packet can rely on.

## Key results

- `cloneAndMutate_cases`: failure exactly when the size modulo `2^16` exceeds the room
- `frameHeader_recalculate`: checksums leave the rest of the headers alone
-/

namespace TrafficGen

/-- The IPv4 header fields that length and checksum code reads: a 20-byte header of
    `protocol` whose total length is that of a frame of `size` bytes, cut to 16 bits. -/
structure FrameHeader (mem : ByteMem) (protocol : String) (size : UInt32) : Prop where
  versionIhl : mem 14 = 0x45
  totalLength : ipTotalLength mem 14 = (size - 14).toUInt16
  nextProtoId : mem 23 = ipProtocol protocol

namespace FrameHeader

variable {mem : ByteMem} {protocol : String} {size : UInt32}

/-- The fields lie in bytes 14 to 23, so writes elsewhere keep them. -/
theorem of_agree (h : FrameHeader mem protocol size) {mem' : ByteMem}
    (hagree : ∀ i, 14 ≤ i → i < 24 → mem' i = mem i) : FrameHeader mem' protocol size where
  versionIhl := by rw [hagree 14 (by omega) (by omega), h.versionIhl]
  totalLength := by
    rw [← h.totalLength, ipTotalLength, ipTotalLength,
      ByteMem.load16_congr (hagree (14 + 2) (by omega) (by omega))
        (hagree (14 + 2 + 1) (by omega) (by omega))]
  nextProtoId := by rw [hagree 23 (by omega) (by omega), h.nextProtoId]

theorem ipHdrLen_eq (h : FrameHeader mem protocol size) : ipHdrLen mem 14 = 20 := by
  rw [ipHdrLen, h.versionIhl]
  rfl

end FrameHeader

namespace PacketMutator

variable {r : Rng}

/-! ## Fitting the length -/

/-- On a fresh mbuf the length is fitted by appending `finalSize` modulo `2^16` bytes. -/
theorem fitLength_fresh (d : Dpdk) {m : Mbuf} (hm : m.Fresh) {finalSize : UInt32}
    (hpos : 0 < finalSize.toNat) :
    fitLength d m finalSize =
      if m.room.toNat < finalSize.toUInt16.toNat then none
      else some { m with
        dataLen := finalSize.toUInt16, pktLen := finalSize.toUInt16.toUInt32 } := by
  obtain ⟨hdata, hpkt, -⟩ := hm
  have hlt : m.pktLen < finalSize := by
    rw [UInt32.lt_iff_toNat_lt, hpkt, UInt32.toNat_zero]
    exact hpos
  rw [fitLength, if_pos hlt, d.append_eq, Mbuf.tailroom, hdata, hpkt, UInt32.sub_zero,
    UInt16.zero_add, UInt32.zero_add, UInt16.toNat_zero, Nat.sub_zero]

/-- Fitting the length changes the two lengths only. -/
theorem fields_of_fitLength {d : Dpdk} {m m' : Mbuf} {finalSize : UInt32}
    (h : fitLength d m finalSize = some m') :
    m'.room = m.room ∧ m'.timestamp = m.timestamp := by
  rw [fitLength, d.append_eq] at h
  -- appended, trimmed, or left alone
  split at h
  · split at h
    · cases h
    · rw [Option.some.injEq] at h
      rw [← h]
      exact ⟨rfl, rfl⟩
  · split at h
    · rw [d.trim_eq, Option.some.injEq] at h
      rw [← h]
      split <;> exact ⟨rfl, rfl⟩
    · rw [Option.some.injEq] at h
      rw [h]
      exact ⟨rfl, rfl⟩

/-- Cloning writes lengths and bytes, whatever comes of it. -/
theorem fields_cloneAndMutate (d : Dpdk) (p : PacketMutator r) (m : Mbuf) (t : PacketTemplate)
    (sequenceNumber : UInt32) (updateChecksums : Bool) :
    (p.cloneAndMutate d m t sequenceNumber updateChecksums).2.1.room = m.room ∧
      (p.cloneAndMutate d m t sequenceNumber updateChecksums).2.1.timestamp = m.timestamp := by
  rw [cloneAndMutate]
  split
  · exact ⟨rfl, rfl⟩
  · split
    · exact ⟨rfl, rfl⟩
    · next m' hfit =>
      have hfields := fields_of_fitLength hfit
      split
      · exact hfields
      · simp only [fillFrame]
        split <;> exact hfields

/-- The end of the buffer stays where it is. -/
theorem room_cloneAndMutate (d : Dpdk) (p : PacketMutator r) (m : Mbuf) (t : PacketTemplate)
    (sequenceNumber : UInt32) (updateChecksums : Bool) :
    (p.cloneAndMutate d m t sequenceNumber updateChecksums).2.1.room = m.room :=
  (fields_cloneAndMutate d p m t sequenceNumber updateChecksums).1

/-! ## Filling the frame -/

section Fill

variable {m : Mbuf} {t : PacketTemplate} {protocol : String}

theorem fillFrame_data (ht : t.WellFormed protocol) {i : Nat} (hi : i < t.payloadOffset.toNat) :
    (fillFrame m t).data i = t.data.getD i 0 := by
  have hlen : (t.data.take t.payloadOffset.toNat).length = t.payloadOffset.toNat := by
    rw [List.length_take]
    exact Nat.min_eq_left ht.headers_le
  have hcopy : m.data.copy 0 (t.data.take t.payloadOffset.toNat) i = t.data.getD i 0 := by
    have hinside := m.data.copy_inside (a := 0) (t.data.take t.payloadOffset.toNat)
      (i := i) (by omega)
    rw [Nat.zero_add] at hinside
    rw [hinside, List.getD_eq_getElem?_getD, List.getElem?_take_of_lt hi,
      ← List.getD_eq_getElem?_getD]
  simp only [fillFrame]
  split
  · -- the fill starts where the headers end
    simp only [Mbuf.memset, Mbuf.memcpy]
    rw [ByteMem.fill_outside _ _ (by omega), hcopy]
  · exact hcopy

/-- The payload size, when the headers fit the size. -/
theorem toNat_payloadSize (hsize : t.payloadOffset.toNat ≤ t.totalSize.toNat) :
    (t.totalSize.toUInt64 - t.payloadOffset.toUInt64).toNat =
      t.totalSize.toNat - t.payloadOffset.toNat := by
  rw [UInt64.toNat_sub_of_le]
  · simp only [UInt32.toNat_toUInt64]
  · rw [UInt64.le_iff_toNat_le]
    simpa only [UInt32.toNat_toUInt64] using hsize

/-- The copy and the fill together reach exactly to the end of the requested size. -/
theorem fillFrame_extent (ht : t.WellFormed protocol)
    (hsize : t.payloadOffset.toNat ≤ t.totalSize.toNat) :
    (fillFrame m t).extent = max m.extent t.totalSize.toNat := by
  have hlen : (t.data.take t.payloadOffset.toNat).length = t.payloadOffset.toNat := by
    rw [List.length_take]
    exact Nat.min_eq_left ht.headers_le
  have hpayload := toNat_payloadSize hsize
  simp only [fillFrame]
  split
  · simp only [Mbuf.memset, Mbuf.memcpy, hlen, hpayload]
    omega
  · next hnone =>
    -- no payload: the headers are the whole frame
    have hzero : (t.totalSize.toUInt64 - t.payloadOffset.toUInt64).toNat = 0 := by
      rw [gt_iff_lt, UInt64.lt_iff_toNat_lt, UInt64.toNat_zero] at hnone
      omega
    simp only [Mbuf.memcpy, hlen]
    omega

end Fill

/-! ## Header fields after the mutations -/

/-- The mutations store the total length, the IP id, and at most one field of the transport
    header at bytes 38 to 41. -/
theorem mutateFields_cases (p : PacketMutator r) (mem : ByteMem) (finalSize seq : UInt32) :
    ∃ mem', mem' = (mem.store16 16 (rteCpuToBe16 (finalSize - 14).toUInt16)).store16 18
        (rteCpuToBe16 (r.ipId p.rng).1) ∧
      ((p.mutateFields mem finalSize seq).1 = mem' ∨
        (∃ v, (p.mutateFields mem finalSize seq).1 = mem'.store32 38 v) ∨
        ∃ v, (p.mutateFields mem finalSize seq).1 = mem'.store16 38 v) := by
  refine ⟨_, rfl, ?_⟩
  rw [mutateFields]
  split
  next id p' hid =>
    simp only [generateIpId, Prod.mk.injEq] at hid
    obtain ⟨rfl, rfl⟩ := hid
    dsimp only
    -- TCP stores a sequence number, given or drawn; UDP a datagram length
    split
    · split
      · exact .inr (.inl ⟨_, rfl⟩)
      · exact .inr (.inl ⟨_, rfl⟩)
    · split
      · exact .inr (.inr ⟨_, rfl⟩)
      · exact .inl rfl

theorem mutateFields_outside (p : PacketMutator r) (mem : ByteMem) (finalSize seq : UInt32)
    {i : Nat} (hi : i < 16 ∨ 20 ≤ i ∧ i < 38 ∨ 42 ≤ i) :
    (p.mutateFields mem finalSize seq).1 i = mem i := by
  obtain ⟨mem', rfl, heq | ⟨v, heq⟩ | ⟨v, heq⟩⟩ := p.mutateFields_cases mem finalSize seq
  all_goals
    rw [heq]
    simp (disch := omega) only [ByteMem.store32_outside, ByteMem.store16_outside]

theorem mutateFields_totalLength (p : PacketMutator r) (mem : ByteMem) (finalSize seq : UInt32) :
    ipTotalLength (p.mutateFields mem finalSize seq).1 14 = (finalSize - 14).toUInt16 := by
  obtain ⟨mem', hmem', hcases⟩ := p.mutateFields_cases mem finalSize seq
  have hstored : ipTotalLength mem' 14 = (finalSize - 14).toUInt16 := by
    rw [hmem', ipTotalLength, ByteMem.load16_congr (ByteMem.store16_outside _ _ (by omega))
      (ByteMem.store16_outside _ _ (by omega)), ByteMem.load16_store16,
      rteBeToCpu16_rteCpuToBe16]
  -- later stores begin at byte 38
  rw [← hstored, ipTotalLength, ipTotalLength]
  congr 1
  rcases hcases with heq | ⟨v, heq⟩ | ⟨v, heq⟩
  · rw [heq]
  · rw [heq, ByteMem.load16_congr (ByteMem.store32_outside _ _ (by omega))
      (ByteMem.store32_outside _ _ (by omega))]
  · rw [heq, ByteMem.load16_congr (ByteMem.store16_outside _ _ (by omega))
      (ByteMem.store16_outside _ _ (by omega))]

theorem frameHeader_mutateFields (p : PacketMutator r) {mem : ByteMem} {protocol : String}
    (finalSize seq : UInt32) (hversion : mem 14 = 0x45) (hproto : mem 23 = ipProtocol protocol) :
    FrameHeader (p.mutateFields mem finalSize seq).1 protocol finalSize where
  versionIhl := by rw [mutateFields_outside _ _ _ _ (by omega), hversion]
  totalLength := mutateFields_totalLength p mem finalSize seq
  nextProtoId := by rw [mutateFields_outside _ _ _ _ (by omega), hproto]

/-! ## Header fields after the checksums -/

theorem recalculateIpChecksum_outside (d : Dpdk) (mem : ByteMem) {i : Nat}
    (hi : i < 24 ∨ 26 ≤ i) : recalculateIpChecksum d mem 14 i = mem i := by
  simp only [recalculateIpChecksum]
  rw [ByteMem.store16_outside _ _ (by omega), ByteMem.store16_outside _ _ (by omega)]

theorem recalculateL4Checksum_outside (d : Dpdk) (mem : ByteMem) (ip l4 : Nat) {field i : Nat}
    (hi : i < field ∨ field + 2 ≤ i) : recalculateL4Checksum d mem ip l4 field i = mem i := by
  simp only [recalculateL4Checksum]
  rw [ByteMem.store16_outside _ _ (by omega), ByteMem.store16_outside _ _ (by omega)]

/-- The IP checksum is recomputed, and then for TCP and UDP the checksum at byte 50 or 40. -/
theorem recalculateChecksums_cases (d : Dpdk) (mem : ByteMem) :
    ∃ mem', mem' = recalculateIpChecksum d mem 14 ∧
      (recalculateChecksums d mem = mem' ∨
        ∃ field, (field = 50 ∨ field = 40) ∧
          recalculateChecksums d mem = recalculateL4Checksum d mem' 14 34 field) := by
  refine ⟨_, rfl, ?_⟩
  simp only [recalculateChecksums]
  split
  · exact .inr ⟨50, .inl rfl, rfl⟩
  · split
    · exact .inr ⟨40, .inr rfl, rfl⟩
    · exact .inl rfl

theorem recalculateChecksums_outside (d : Dpdk) (mem : ByteMem) {i : Nat}
    (hi : i < 24 ∨ 26 ≤ i ∧ i < 40 ∨ 42 ≤ i ∧ i < 50 ∨ 52 ≤ i) :
    recalculateChecksums d mem i = mem i := by
  obtain ⟨mem', rfl, heq | ⟨field, hfield, heq⟩⟩ := recalculateChecksums_cases d mem
  · rw [heq, recalculateIpChecksum_outside _ _ (by omega)]
  · rw [heq, recalculateL4Checksum_outside _ _ _ _ (by omega),
      recalculateIpChecksum_outside _ _ (by omega)]

theorem frameHeader_recalculate (d : Dpdk) {mem : ByteMem} {protocol : String} {size : UInt32}
    (h : FrameHeader mem protocol size) :
    FrameHeader (recalculateChecksums d mem) protocol size :=
  h.of_agree fun _ _ _ => recalculateChecksums_outside d mem (by omega)

/-! ## The whole call -/

/-- On a fresh mbuf a well-formed template whose headers fit its size is cloned exactly when
    the size modulo `2^16` fits the buffer. -/
theorem cloneAndMutate_cases (d : Dpdk) (p : PacketMutator r) {m : Mbuf} {t : PacketTemplate}
    {protocol : String} (seq : UInt32) (updateChecksums : Bool) (hm : m.Fresh)
    (ht : t.WellFormed protocol) (hsize : t.payloadOffset.toNat ≤ t.totalSize.toNat) :
    (m.room.toNat < t.totalSize.toUInt16.toNat ∧
      p.cloneAndMutate d m t seq updateChecksums = (false, m, p)) ∨
    (t.totalSize.toUInt16.toNat ≤ m.room.toNat ∧
      ∃ (p' : PacketMutator r) (filled : Mbuf) (mem : ByteMem),
      p.cloneAndMutate d m t seq updateChecksums = (true, { filled with data := mem }, p') ∧
      filled.pktLen = t.totalSize ∧
      filled.extent = t.totalSize.toNat ∧
      FrameHeader mem protocol t.totalSize ∧
      (protocol = "tcp" → mem 46 = 0x50) ∧
      (updateChecksums = true → ∃ mem', FrameHeader mem' protocol t.totalSize ∧
        mem = recalculateChecksums d mem')) := by
  have hbounds := ht.payloadOffset_bounds
  have hnonempty : t.data.isEmpty = false := by
    have hpos : t.data.length ≠ 0 := by
      have := ht.headers_le
      omega
    simpa only [List.isEmpty_eq_false_iff, ne_eq, List.length_eq_zero_iff] using hpos
  have hheaders := ht.headers_le
  rw [cloneAndMutate, hnonempty, fitLength_fresh d hm (by omega)]
  by_cases hfit : m.room.toNat < t.totalSize.toUInt16.toNat
  · exact .inl ⟨hfit, by simp only [if_pos hfit, Bool.false_eq_true, if_false]⟩
  · refine .inr ⟨by omega, ?_⟩
    simp only [if_neg hfit, Bool.false_eq_true, if_false, if_neg (Nat.not_lt.mpr hheaders)]
    have hextent := hm.2.2
    generalize hfitted : ({ m with
      dataLen := t.totalSize.toUInt16
      pktLen := t.totalSize.toUInt16.toUInt32 } : Mbuf) = fitted
    have hfresh : fitted.extent = 0 := by rw [← hfitted, ← hextent]
    -- the header bytes copied from the template survive the mutations
    have hheader : FrameHeader (p.mutateFields (fillFrame fitted t).data t.totalSize seq).1
        protocol t.totalSize :=
      p.frameHeader_mutateFields t.totalSize seq
        ((fillFrame_data ht (by omega)).trans ht.versionIhl)
        ((fillFrame_data ht (by omega)).trans ht.nextProtoId)
    have hdataOff : protocol = "tcp" →
        (p.mutateFields (fillFrame fitted t).data t.totalSize seq).1 46 = 0x50 := by
      rintro rfl
      -- byte 46 lies within the 54 header bytes
      have hoffset : t.payloadOffset.toNat = 54 := by
        obtain ⟨transport, htransport, hoffset⟩ := ht.payloadOffset
        simp only [transportHeaderSize, if_true, Option.some.injEq] at htransport
        rw [hoffset, ← htransport]
        rfl
      rw [mutateFields_outside _ _ _ _ (by omega), fillFrame_data ht (by omega),
        ht.dataOff rfl]
    refine ⟨_, fillFrame fitted t, _, rfl, rfl, ?_, ?_, ?_, ?_⟩
    · rw [fillFrame_extent ht hsize, hfresh, Nat.zero_max]
    · cases updateChecksums with
      | false => exact hheader
      | true => exact frameHeader_recalculate d hheader
    · intro htcp
      cases updateChecksums with
      | false => exact hdataOff htcp
      | true =>
        simp only [if_true]
        rw [recalculateChecksums_outside _ _ (by omega), hdataOff htcp]
    · rintro rfl
      exact ⟨_, hheader, rfl⟩

/-- The IP id a clone draws. -/
def drawnIpId (p : PacketMutator r) : UInt16 := (r.ipId p.rng).1

/-- The sequence number a clone stores: the caller's, or the next one drawn when it is zero. -/
def drawnSeq (p : PacketMutator r) (sequenceNumber : UInt32) : UInt32 :=
  if sequenceNumber > 0 then sequenceNumber else (r.seq (r.ipId p.rng).2).1

/-- The mutations, for a header of a supported protocol. -/
theorem mutateFields_eq (p : PacketMutator r) {mem : ByteMem} {protocol : String}
    (hproto : mem 23 = ipProtocol protocol) {transport : Nat}
    (htransport : transportHeaderSize protocol = some transport) (finalSize seq : UInt32) :
    (p.mutateFields mem finalSize seq).1 =
      let mem' := (mem.store16 16 (rteCpuToBe16 (finalSize - 14).toUInt16)).store16 18
        (rteCpuToBe16 p.drawnIpId)
      if protocol = "tcp" then mem'.store32 38 (rteCpuToBe32 (p.drawnSeq seq))
      else if protocol = "udp" then
        mem'.store16 38 (rteCpuToBe16 (finalSize - 14 - 20).toUInt16)
      else mem' := by
  have hkept : ipNextProtoId (mutateIpId (mem.store16 (etherHdrSize + 2)
      (rteCpuToBe16 (finalSize - UInt32.ofNat etherHdrSize).toUInt16)) etherHdrSize
      (r.ipId p.rng).1) etherHdrSize = ipProtocol protocol := by
    rw [ipNextProtoId, mutateIpId, etherHdrSize, ByteMem.store16_outside _ _ (by omega),
      ByteMem.store16_outside _ _ (by omega), hproto]
  simp only [mutateFields, generateIpId, hkept]
  rcases protocol_cases htransport with ⟨rfl, -⟩ | ⟨rfl, -⟩ | ⟨rfl, -⟩
  · rw [if_pos (show ipProtocol "tcp" = IPPROTO_TCP from rfl), if_pos rfl, drawnSeq]
    split
    · rfl
    · rfl
  · rfl
  · rfl

/-- What a clone that succeeds leaves in the mbuf: the headers of the template and a zero
    payload, mutated, and with checksums if they were asked for. -/
theorem cloneAndMutate_eq_true {d : Dpdk} {p p' : PacketMutator r} {m mb : Mbuf}
    {t : PacketTemplate} {seq : UInt32} {updateChecksums : Bool}
    (h : p.cloneAndMutate d m t seq updateChecksums = (true, mb, p')) :
    ∃ fitted, t.payloadOffset.toNat ≤ t.data.length ∧ mb.pktLen = t.totalSize ∧
      mb.data =
        if updateChecksums then
          recalculateChecksums d (p.mutateFields (fillFrame fitted t).data t.totalSize seq).1
        else (p.mutateFields (fillFrame fitted t).data t.totalSize seq).1 := by
  simp only [cloneAndMutate] at h
  split at h
  · cases h
  · split at h
    · cases h
    · next fitted hfit =>
      split at h
      · cases h
      · next hheaders =>
        simp only [Prod.mk.injEq, true_and] at h
        exact ⟨fitted, by omega, by rw [← h.1]; rfl, by rw [← h.1]⟩

/-- The header bytes no mutation and no checksum is stored in are the template's. -/
theorem cloneAndMutate_header {d : Dpdk} {p p' : PacketMutator r} {m mb : Mbuf}
    {t : PacketTemplate} {protocol : String} {seq : UInt32} {updateChecksums : Bool}
    (ht : t.WellFormed protocol)
    (h : p.cloneAndMutate d m t seq updateChecksums = (true, mb, p')) {i : Nat}
    (hi : i < 16 ∨ 20 ≤ i ∧ i < 24 ∨ 26 ≤ i ∧ i < 38) :
    mb.data i = ByteMem.ofList t.data i := by
  have hbounds := ht.payloadOffset_bounds
  obtain ⟨fitted, -, -, hdata⟩ := cloneAndMutate_eq_true h
  have hfilled : (fillFrame fitted t).data i = ByteMem.ofList t.data i :=
    fillFrame_data ht (by omega)
  rw [hdata, ← hfilled, ← p.mutateFields_outside (fillFrame fitted t).data t.totalSize seq
    (i := i) (by omega)]
  split
  · exact recalculateChecksums_outside d _ (by omega)
  · rfl

end PacketMutator

/-! ## Fixed inputs -/

/-- A generator for runs on fixed inputs. -/
def Rng.counting : Rng where
  State := UInt64
  seed := id
  ipId := fun s => (UInt16.ofNat (s.toNat % 65535 + 1), s + 1)
  seq := fun s => (UInt32.ofNat (s.toNat % 4294967295 + 1), s + 1)

/-- An mbuf of DPDK's default data room, as the pool hands it out. -/
def Mbuf.sample : Mbuf where
  room := 2048
  dataLen := 0
  pktLen := 0
  data := fun _ => 0
  timestamp := 0
  extent := 0

end TrafficGen
