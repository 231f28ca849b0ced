import TrafficGen.Spec.ClonedPackets

/-!
# Checksums of transmitted frames

Header fields are written in several passes: the template, the resize, the IP id, the
sequence number, and for stateful flows the flags and numbers of the connection. After
the last write to what a checksum covers, that checksum is computed again: the IP
checksum over bytes 14 to 33 (`intact_recalculateIp`), the L4 checksum over the
pseudo-header and everything from byte 34 on (`intact_recalculateL4`).

## Key results

- `checksums_intact`: TCP and UDP frames in the burst have intact checksums
-/

namespace TrafficGen

open OnesComplement (Intact)
open PacketMutator Worker

variable {r : Rng}

/-- The IPv4 header sums to `0xFFFF`. -/
def Mbuf.IpIntact (m : Mbuf) : Prop :=
  Intact (m.data.bytes 14 20)

/-- The L4 segment, everything after the IPv4 header, sums to `0xFFFF` together with its
    pseudo-header. -/
def Mbuf.L4Intact (m : Mbuf) : Prop :=
  let l4Len := m.pktLen.toNat - 34
  Intact (pseudoHeader m.data 14 (UInt16.ofNat l4Len) ++ m.data.bytes 34 l4Len)

/-! ## One recomputation -/

theorem intact_recalculateIp (d : Dpdk) {mem : ByteMem} {protocol : String} {size : UInt32}
    (h : FrameHeader mem protocol size) :
    Intact ((recalculateIpChecksum d mem 14).bytes 14 20) := by
  have hzeroed : FrameHeader (mem.store16 (14 + 10) 0) protocol size :=
    h.of_agree fun _ _ _ => ByteMem.store16_outside _ _ (by omega)
  rw [recalculateIpChecksum, d.ipv4Cksum_eq, hzeroed.ipHdrLen_eq]
  exact OnesComplement.intact_store [] mem 14 20 10 rfl rfl (by decide) (.inl rfl)

/-- The L4 length in a header written for a frame that fits 16 bits. -/
theorem FrameHeader.l4Length_eq {mem : ByteMem} {protocol : String} {size : UInt32}
    (h : FrameHeader mem protocol size) (hlo : 34 ≤ size.toNat) (hhi : size.toNat < 2 ^ 16) :
    ipHdrLen mem 14 ≤ (ipTotalLength mem 14).toNat ∧ l4Length mem 14 = size.toNat - 34 := by
  have h14 : (14 : UInt32).toNat = 14 := rfl
  have htotal : (ipTotalLength mem 14).toNat = size.toNat - 14 := by
    rw [h.totalLength, UInt32.toNat_toUInt16,
      UInt32.toNat_sub_of_le _ _ (UInt32.le_iff_toNat_le.mpr (by omega)), h14]
    omega
  rw [l4Length, h.ipHdrLen_eq, htotal]
  omega

/-- The pseudo-header is read from bytes 23 and 26 to 33. -/
theorem pseudoHeader_congr {m m' : ByteMem} (l4Len : UInt16) (hagree : ∀ i < 34, m i = m' i) :
    pseudoHeader m 14 l4Len = pseudoHeader m' 14 l4Len := by
  rw [pseudoHeader, pseudoHeader, ipNextProtoId, ipNextProtoId, hagree 23 (by omega),
    ByteMem.bytes_congr fun i _ _ => hagree i (by omega)]

/-- The L4 checksum, or all ones in place of zero. -/
theorem l4Checksum_cases (mem : ByteMem) (ip l4 : Nat) :
    let c := OnesComplement.checksum
      (pseudoHeader mem ip (UInt16.ofNat (l4Length mem ip)) ++ mem.bytes l4 (l4Length mem ip))
    l4Checksum mem ip l4 = c ∨ (c = 0 ∧ l4Checksum mem ip l4 = 0xFFFF) := by
  intro c
  rw [l4Checksum]
  split
  · next h => exact .inr ⟨h.1, rfl⟩
  · exact .inl rfl

theorem intact_recalculateL4 (d : Dpdk) {mem : ByteMem} {protocol : String} {size : UInt32}
    (h : FrameHeader mem protocol size) {off : Nat} (heven : off % 2 = 0)
    (hfield : 34 + off + 2 ≤ size.toNat) (hhi : size.toNat < 2 ^ 16) :
    let mem' := recalculateL4Checksum d mem 14 34 (34 + off)
    let l4Len := size.toNat - 34
    Intact (pseudoHeader mem' 14 (UInt16.ofNat l4Len) ++ mem'.bytes 34 l4Len) := by
  intro mem' l4Len
  have hzeroed : FrameHeader (mem.store16 (34 + off) 0) protocol size :=
    h.of_agree fun _ _ _ => ByteMem.store16_outside _ _ (by omega)
  obtain ⟨hle, hlen⟩ := hzeroed.l4Length_eq (by omega) hhi
  have hmem' : mem' = (mem.store16 (34 + off) 0).store16 (34 + off)
      (rteCpuToBe16 (l4Checksum (mem.store16 (34 + off) 0) 14 34)) := by
    rw [← d.ipv4UdptcpCksum_eq _ _ _ hle]
    rfl
  -- the checksum field lies in the segment, so the pseudo-header is that of the zeroed segment
  have hpseudo : pseudoHeader mem' 14 (UInt16.ofNat l4Len) =
      pseudoHeader (mem.store16 (34 + off) 0) 14 (UInt16.ofNat l4Len) :=
    pseudoHeader_congr _ fun i hi => by rw [hmem', ByteMem.store16_outside _ _ (by omega)]
  have hcases := l4Checksum_cases (mem.store16 (34 + off) 0) 14 34
  rw [hlen] at hcases
  rw [hpseudo, hmem']
  refine OnesComplement.intact_store _ mem 34 _ off ?_ heven (by omega) hcases
  simp only [pseudoHeader, List.length_append, ByteMem.length_bytes, List.length_cons,
    List.length_nil]

/-! ## The passes over a packet -/

/-- The L4 checksum field of a protocol, as an offset from the L4 header. -/
def l4ChecksumOffset (protocol : String) : Nat :=
  if protocol = "tcp" then 16 else 6

/-- The checksum field lies at an even offset inside the transport header. -/
theorem l4ChecksumOffset_bounds {protocol : String} {transport : Nat}
    (h : transportHeaderSize protocol = some transport)
    (hprotocol : protocol = "tcp" ∨ protocol = "udp") :
    l4ChecksumOffset protocol % 2 = 0 ∧ l4ChecksumOffset protocol + 2 ≤ transport := by
  rcases hprotocol with rfl | rfl
  · rw [← Option.some.inj (h : some 20 = some transport)]
    decide
  · rw [← Option.some.inj (h : some 8 = some transport)]
    decide

theorem recalculateChecksums_eq (d : Dpdk) {mem : ByteMem} {protocol : String}
    (hmem : mem 23 = ipProtocol protocol) (hprotocol : protocol = "tcp" ∨ protocol = "udp") :
    recalculateChecksums d mem = recalculateL4Checksum d (recalculateIpChecksum d mem 14) 14 34
      (34 + l4ChecksumOffset protocol) := by
  have hproto : ipNextProtoId (recalculateIpChecksum d mem etherHdrSize) etherHdrSize =
      ipProtocol protocol := by
    rw [ipNextProtoId, etherHdrSize, recalculateIpChecksum_outside _ _ (by omega), hmem]
  simp only [recalculateChecksums, hproto]
  -- the TCP field is at byte 50, the UDP field at byte 40
  rcases hprotocol with rfl | rfl
  · rfl
  · rfl

/-- For ICMP only the IP checksum is recomputed. -/
theorem recalculateChecksums_icmp (d : Dpdk) {mem : ByteMem} (hmem : mem 23 = ipProtocol "icmp") :
    recalculateChecksums d mem = recalculateIpChecksum d mem 14 := by
  have hproto : ipNextProtoId (recalculateIpChecksum d mem etherHdrSize) etherHdrSize =
      ipProtocol "icmp" := by
    rw [ipNextProtoId, etherHdrSize, recalculateIpChecksum_outside _ _ (by omega), hmem]
  simp only [recalculateChecksums, hproto]
  rfl

/-- Writes to the segment leave the IP header's checksum intact. -/
theorem ipIntact_of_agree {m m' : Mbuf} (h : m.IpIntact)
    (hagree : ∀ i < 34, m'.data i = m.data i) : m'.IpIntact := by
  rw [Mbuf.IpIntact, ByteMem.bytes_congr fun i _ _ => hagree i (by omega)]
  exact h

theorem recalculateL4Checksum_below (d : Dpdk) (mem : ByteMem) (off : Nat) {i : Nat}
    (hi : i < 34) : recalculateL4Checksum d mem 14 34 (34 + off) i = mem i :=
  recalculateL4Checksum_outside d mem 14 34 (by omega)

/-- The stateful rewrite stores fields of the TCP header and recomputes its checksum. -/
theorem rewriteStateful_data (d : Dpdk) (mb : Mbuf) (conn : TCPConnectionState) :
    ∃ mem, (∀ i < 34, mem i = mb.data i) ∧
      (rewriteStateful d mb conn).1.data = recalculateL4Checksum d mem 14 34 (34 + 16) := by
  refine ⟨_, fun i hi => ?_, rfl⟩
  simp only [etherHdrSize, ipv4HdrSize]
  rw [ByteMem.store32_outside _ _ (by omega), ByteMem.store32_outside _ _ (by omega),
    ByteMem.store8_ne _ _ (by omega)]

/-- A cloned frame of `protocol` whose checksums are intact, whatever is rewritten and
    recomputed from byte 34 on. -/
theorem checksums_of_recalculateL4 (d : Dpdk) {mb m : Mbuf} {protocol : String} {mem : ByteMem}
    (hip : mb.IpIntact) (hheader : FrameHeader mb.data protocol mb.pktLen)
    (hmem : ∀ i < 34, mem i = mb.data i) (hlen : m.pktLen = mb.pktLen) {off : Nat}
    (hdata : m.data = recalculateL4Checksum d mem 14 34 (34 + off)) (heven : off % 2 = 0)
    (hfield : 34 + off + 2 ≤ mb.pktLen.toNat) (hhi : mb.pktLen.toNat < 2 ^ 16) :
    m.IpIntact ∧ m.L4Intact := by
  have hheader' : FrameHeader mem protocol mb.pktLen :=
    hheader.of_agree fun i _ _ => hmem i (by omega)
  refine ⟨ipIntact_of_agree hip fun i hi => ?_, ?_⟩
  · rw [hdata, recalculateL4Checksum_below _ _ _ hi, hmem i hi]
  · rw [Mbuf.L4Intact, hlen, hdata]
    exact intact_recalculateL4 d hheader' heven hfield hhi

/-- **Checksums.** Every TCP or UDP frame a pass puts in the burst, of a flow `add_flow`
    accepted and a size that fits the buffer, has an IPv4 header and an L4 segment that sum to
    `0xFFFF`. -/
theorem checksums_intact (cfg : WorkerConfig) (d : Dpdk) (r : Rng) (sys : System)
    (input : PassInput) (hflows : sys.scheduler.AllAccepted d)
    (b : BuiltPacket) (hb : b ∈ (processFlows cfg d r sys input).2.built)
    (hprotocol : b.before.protocol = "tcp" ∨ b.before.protocol = "udp")
    (hfits : b.frame.pktLen.toNat ≤ b.frame.room.toNat) :
    b.frame.IpIntact ∧ b.frame.L4Intact := by
  have hcloned := cloned_processFlows cfg d r input hflows b hb
  obtain ⟨transport, htransport, hoffset⟩ := hcloned.1.wellFormed.payloadOffset
  obtain ⟨mb, timestampNs, hmb, hframe, -⟩ := hcloned.exists_frame
  obtain ⟨mem, hheader, hdata⟩ := hmb.checksums
  have hlo := hmb.headers_le
  -- the room of a buffer is a 16-bit number
  have hhi : mb.pktLen.toNat < 2 ^ 16 := by
    have := b.frame.room.toNat_lt
    rw [← hmb.pktLen]
    omega
  obtain ⟨heven, hfield⟩ := l4ChecksumOffset_bounds htransport hprotocol
  simp only [hoffset, etherHdrSize, ipv4HdrSize] at hlo
  rw [recalculateChecksums_eq d hheader.nextProtoId hprotocol] at hdata
  have hbelow : ∀ i < 34, recalculateIpChecksum d mem 14 i = mb.data i := fun i hi => by
    rw [hdata, recalculateL4Checksum_below d _ _ hi]
  -- the L4 checksum comes after the IP checksum and stays clear of the IP header
  have hip : mb.IpIntact := by
    rw [Mbuf.IpIntact, ← ByteMem.bytes_congr fun i _ _ => hbelow i (by omega)]
    exact intact_recalculateIp d hheader
  cases hstate : b.before.isStatefulTcp with
  | false =>
    -- nothing is written after the clone
    obtain ⟨timestamp, hstamp⟩ := stampMbuf_eq cfg mb timestampNs
    rw [finishPacket_plain cfg d mb timestampNs hstate, hstamp] at hframe
    refine checksums_of_recalculateL4 d hip hmb.header hbelow hmb.pktLen
      (by rw [hframe]; exact hdata) heven (by omega) hhi
  | true =>
    -- the rewrite stores fields of the TCP header and recomputes the checksum over them
    obtain ⟨conn, hconn⟩ := b.before.exists_conn hstate
    obtain ⟨mem', hmem', hdata'⟩ := rewriteStateful_data d mb conn
    obtain ⟨timestamp, hstamp⟩ := stampMbuf_eq cfg (rewriteStateful d mb conn).1 timestampNs
    rw [finishPacket_stateful cfg d mb timestampNs hstate hconn, hstamp] at hframe
    refine checksums_of_recalculateL4 d hip hmb.header hmem' hmb.pktLen
      (by rw [hframe]; exact hdata') rfl ?_ hhi
    have htcp : l4ChecksumOffset b.before.protocol = 16 :=
      if_pos (FlowConfigInternal.protocol_of_stateful hstate)
    omega

/-- Of two ready stateful flows the second gets a packet. -/
theorem checksums_intact_sample :
    ∃ b ∈ (processFlows .sample .reference .counting (.sample false) .sample).2.built,
      (System.sample false).scheduler.AllAccepted .reference ∧
      b.before.protocol = "tcp" ∧ b.frame.pktLen.toNat ≤ b.frame.room.toNat ∧
      b.frame.IpIntact ∧ b.frame.L4Intact := by
  have hfacts : (processFlows .sample .reference .counting (.sample false)
      .sample).2.built.map (fun b => (b.before.protocol, b.frame.pktLen, b.frame.room)) =
      [("tcp", 64, 2048)] := by decide
  obtain ⟨b, hb, hfact⟩ := List.map_eq_singleton_iff.mp hfacts
  rw [Prod.mk.injEq, Prod.mk.injEq] at hfact
  obtain ⟨hprotocol, hlen, hroom⟩ := hfact
  have hmem : b ∈ (processFlows .sample .reference .counting (.sample false) .sample).2.built := by
    rw [hb]
    exact List.mem_singleton_self b
  have haccepted := FlowScheduler.allAccepted_run .reference [] (System.sampleHistory false)
  have hfits : b.frame.pktLen.toNat ≤ b.frame.room.toNat := by
    rw [hlen, hroom]
    decide
  exact ⟨b, hmem, haccepted, hprotocol, hfits,
    checksums_intact .sample .reference .counting (.sample false) .sample haccepted b hmem
      (.inl hprotocol) hfits⟩

end TrafficGen
