import TrafficGen.Spec.ClonedPackets
import TrafficGen.Spec.ConnectionTable

/-!
# The segments of stateful flows

What the TCP header of a stateful flow's packet says, read back from the frame as a
receiver would: always the ACK flag alone, with the connection's `send_seq` and
`send_ack`, and a payload that the frame size determines.

## Key results

- `Cloned.segment`: every packet of a stateful flow is such a segment of its connection
-/

namespace TrafficGen

open PacketMutator Worker

variable {r : Rng}

namespace BuiltPacket

/-- The TCP header of the frame. -/
def tcpHdr (b : BuiltPacket) : RteTcpHdr :=
  RteTcpHdr.load b.frame.data (etherHdrSize + ipv4HdrSize)

/-- `sent_seq`, in host order. -/
def seqNumber (b : BuiltPacket) : UInt32 := rteBeToCpu32 b.tcpHdr.sentSeq

/-- `recv_ack`, in host order. -/
def ackNumber (b : BuiltPacket) : UInt32 := rteBeToCpu32 b.tcpHdr.recvAck

/-- The payload length the headers give. -/
def payloadLen (b : BuiltPacket) : UInt32 :=
  tcpPayloadLen b.frame.data etherHdrSize (etherHdrSize + ipv4HdrSize)

end BuiltPacket

/-- The payload length in the headers of a TCP frame of `size` bytes, in the code's 16-bit
    arithmetic. -/
def segmentPayload (size : UInt32) : UInt32 :=
  let l4Len : UInt16 := (size - 14).toUInt16 - 20
  if l4Len > 20 then (l4Len - 20).toUInt32 else 0

/-- From the headers up to a size that fits 16 bits, it is what is left of the frame. -/
theorem toNat_segmentPayload {size : UInt32} (hlo : 54 ≤ size.toNat)
    (hhi : size.toNat < 2 ^ 16) : (segmentPayload size).toNat = size.toNat - 54 := by
  have h14 : (14 : UInt32).toNat = 14 := rfl
  have h20 : (20 : UInt16).toNat = 20 := rfl
  have htotal : (size - 14).toUInt16.toNat = size.toNat - 14 := by
    rw [UInt32.toNat_toUInt16,
      UInt32.toNat_sub_of_le _ _ (UInt32.le_iff_toNat_le.mpr (by omega)), h14]
    omega
  have hl4 : ((size - 14).toUInt16 - 20).toNat = size.toNat - 34 := by
    rw [UInt16.toNat_sub_of_le _ _ (UInt16.le_iff_toNat_le.mpr (by omega)), h20, htotal]
    omega
  simp only [segmentPayload]
  split
  · next hlt =>
    rw [gt_iff_lt, UInt16.lt_iff_toNat_lt] at hlt
    rw [UInt16.toNat_toUInt32, UInt16.toNat_sub_of_le _ _ (UInt16.le_iff_toNat_le.mpr (by omega)),
      h20, hl4]
    omega
  · next hge =>
    rw [gt_iff_lt, UInt16.lt_iff_toNat_lt, hl4, h20] at hge
    rw [UInt32.toNat_zero]
    omega

/-- The payload length code reads from headers written for a frame of `size` bytes. -/
theorem tcpPayloadLen_eq {mem : ByteMem} {protocol : String} {size : UInt32}
    (hheader : FrameHeader mem protocol size) (hdataOff : mem 46 = 0x50) :
    tcpPayloadLen mem etherHdrSize (etherHdrSize + ipv4HdrSize) = segmentPayload size := by
  simp only [tcpPayloadLen, etherHdrSize, ipv4HdrSize, Nat.reduceAdd, hheader.totalLength,
    hdataOff]
  rfl

/-! ## The rewrite -/

/-- The segment of a stateful flow whose connection was `conn` when it was built. -/
structure BuiltPacket.Segment (b : BuiltPacket) (conn : TCPConnectionState) : Prop where
  tcpFlags : b.tcpHdr.tcpFlags = RTE_TCP_ACK_FLAG
  seqNumber : b.seqNumber = conn.sendSeq
  ackNumber : b.ackNumber = conn.sendAck
  payloadLen : b.payloadLen = segmentPayload b.frame.pktLen
  after : b.after.tcpState = some { conn with sendSeq := conn.sendSeq + b.payloadLen }

/-- The stores of the rewrite, before its checksum. -/
private theorem rewriteStateful_stores (d : Dpdk) (mb : Mbuf) (conn : TCPConnectionState) :
    ∃ mem, mem = ((mb.data.store8 47 RTE_TCP_ACK_FLAG).store32 38
        (rteCpuToBe32 conn.sendSeq)).store32 42 (rteCpuToBe32 conn.sendAck) ∧
      (∀ i < 50, (rewriteStateful d mb conn).1.data i = mem i) ∧
      (rewriteStateful d mb conn).2 = { conn with
        sendSeq := conn.sendSeq + tcpPayloadLen mem etherHdrSize (etherHdrSize + ipv4HdrSize) } :=
  ⟨_, rfl, fun _ hi => recalculateL4Checksum_outside d _ 14 34 (.inl hi), rfl⟩

/-- The rewrite touches the numbers, the flags and the checksum. -/
theorem rewriteStateful_outside (d : Dpdk) (mb : Mbuf) (conn : TCPConnectionState) {i : Nat}
    (hi : i < 38 ∨ i = 46) : (rewriteStateful d mb conn).1.data i = mb.data i := by
  obtain ⟨mem, hmem, hagree, -⟩ := rewriteStateful_stores d mb conn
  rw [hagree i (by omega), hmem, ByteMem.store32_outside _ _ (by omega),
    ByteMem.store32_outside _ _ (by omega), ByteMem.store8_ne _ _ (by omega)]

/-- A 32-bit word whose four bytes agree loads the same. -/
private theorem load32_of_agree {m m' : ByteMem} {n : Nat} (h : ∀ i < n, m i = m' i) {a : Nat}
    (ha : a + 4 ≤ n) : m.load32 a = m'.load32 a :=
  ByteMem.load32_congr fun i _ _ => h i (by omega)

/-- The rewrite of a cloned frame, field by field. -/
theorem rewriteStateful_fields (d : Dpdk) {mb : Mbuf} {protocol : String}
    (hheader : FrameHeader mb.data protocol mb.pktLen) (hdataOff : mb.data 46 = 0x50)
    (conn : TCPConnectionState) :
    let mem := (rewriteStateful d mb conn).1.data
    let hdr := RteTcpHdr.load mem (etherHdrSize + ipv4HdrSize)
    hdr.tcpFlags = RTE_TCP_ACK_FLAG ∧
      rteBeToCpu32 hdr.sentSeq = conn.sendSeq ∧
      rteBeToCpu32 hdr.recvAck = conn.sendAck ∧
      tcpPayloadLen mem etherHdrSize (etherHdrSize + ipv4HdrSize) = segmentPayload mb.pktLen ∧
      (rewriteStateful d mb conn).2 =
        { conn with sendSeq := conn.sendSeq + segmentPayload mb.pktLen } := by
  obtain ⟨mem', hmem', hagree, hconn⟩ := rewriteStateful_stores d mb conn
  -- the stores touch bytes 38 to 45 and the flags; the data offset between them stays
  have hkept : ∀ i, i < 38 ∨ i = 46 → mem' i = mb.data i := fun i hi => by
    rw [hmem', ByteMem.store32_outside _ _ (by omega), ByteMem.store32_outside _ _ (by omega),
      ByteMem.store8_ne _ _ (by omega)]
  have hheader' : FrameHeader mem' protocol mb.pktLen :=
    hheader.of_agree fun i _ _ => hkept i (by omega)
  have hpayload := tcpPayloadLen_eq hheader' ((hkept 46 (.inr rfl)).trans hdataOff)
  intro mem hdr
  -- the checksum at byte 50 lies behind everything read here
  have hseq : hdr.sentSeq = rteCpuToBe32 conn.sendSeq := by
    change mem.load32 38 = _
    rw [load32_of_agree hagree (by omega), hmem',
      ByteMem.load32_congr fun i _ _ => ByteMem.store32_outside _ _ (by omega),
      ByteMem.load32_store32]
  have hack : hdr.recvAck = rteCpuToBe32 conn.sendAck := by
    change mem.load32 42 = _
    rw [load32_of_agree hagree (by omega), hmem', ByteMem.load32_store32]
  refine ⟨?_, ?_, ?_, ?_, ?_⟩
  · refine (hagree 47 (by omega)).trans ?_
    rw [hmem', ByteMem.store32_outside _ _ (by omega), ByteMem.store32_outside _ _ (by omega),
      ByteMem.store8_self]
  · rw [hseq]
    exact rteBeToCpu32_rteCpuToBe32 _
  · rw [hack]
    exact rteBeToCpu32_rteCpuToBe32 _
  · exact tcpPayloadLen_eq (hheader'.of_agree fun i _ _ => hagree i (by omega))
      ((hagree 46 (by omega)).trans ((hkept 46 (.inr rfl)).trans hdataOff))
  · rw [hconn, hpayload]

/-- Every packet of a stateful flow is a segment of its connection. -/
theorem BuiltPacket.Cloned.segment {cfg : WorkerConfig} {d : Dpdk} {imix : IMIXEngine}
    {b : BuiltPacket} (h : b.Cloned cfg d r imix) {conn : TCPConnectionState}
    (hbefore : b.before.connection = some conn) : b.Segment conn := by
  obtain ⟨hstate, hconn⟩ := FlowConfigInternal.connection_eq_some.mp hbefore
  obtain ⟨mb, timestampNs, hmb, hframe, hafter⟩ := h.exists_frame
  have hdataOff := hmb.dataOff (FlowConfigInternal.protocol_of_stateful hstate)
  obtain ⟨hflags, hseq, hack, hpayload, hnext⟩ :=
    rewriteStateful_fields d hmb.header hdataOff conn
  rw [finishPacket_stateful cfg d mb timestampNs hstate hconn] at hframe hafter
  obtain ⟨timestamp, hstamp⟩ := stampMbuf_eq cfg (rewriteStateful d mb conn).1 timestampNs
  have hdata : b.frame.data = (rewriteStateful d mb conn).1.data := by
    rw [hframe, hstamp]
  have hlen : b.payloadLen = segmentPayload mb.pktLen := by
    rw [payloadLen, hdata, hpayload]
  refine ⟨?_, ?_, ?_, ?_, ?_⟩
  · rw [tcpHdr, hdata, hflags]
  · rw [seqNumber, tcpHdr, hdata, hseq]
  · rw [ackNumber, tcpHdr, hdata, hack]
  · rw [hlen, hmb.pktLen]
  · rw [hlen, hafter, hnext]

/-- The packet moves its flow's connection past its payload, if it has one. -/
theorem BuiltPacket.Cloned.connection_after {cfg : WorkerConfig} {d : Dpdk} {imix : IMIXEngine}
    {b : BuiltPacket} (h : b.Cloned cfg d r imix) :
    b.after.connection =
      b.before.connection.map fun conn =>
        { conn with sendSeq := conn.sendSeq + b.payloadLen } := by
  obtain ⟨mb, timestampNs, -, -, hafter⟩ := h.exists_frame
  obtain ⟨tcpState, packetsSent, bytesSent, hkept, hsome⟩ :=
    finishPacket_after cfg d mb b.before timestampNs
  rw [← hafter] at hkept
  have hstateful : b.after.isStatefulTcp = b.before.isStatefulTcp := by
    rw [hkept]
    simp only [FlowConfigInternal.isStatefulTcp, hsome]
  cases hconn : b.before.connection with
  | none =>
    -- a packet never makes its flow stateful
    have hstate : ¬ b.before.isStatefulTcp := fun hstate => by
      obtain ⟨conn, hstored⟩ := b.before.exists_conn hstate
      rw [FlowConfigInternal.connection_eq_some.mpr ⟨hstate, hstored⟩] at hconn
      cases hconn
    rw [FlowConfigInternal.connection, hstateful, if_neg hstate, Option.map_none]
  | some conn =>
    rw [Option.map_some, FlowConfigInternal.connection_eq_some, hstateful]
    exact ⟨(FlowConfigInternal.connection_eq_some.mp hconn).1, (h.segment hconn).after⟩

end TrafficGen
