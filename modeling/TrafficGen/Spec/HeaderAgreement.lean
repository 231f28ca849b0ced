import TrafficGen.Spec.BufferBounds
import TrafficGen.Spec.LookupIndex
import TrafficGen.Spec.ReceivePath
import TrafficGen.Spec.TcpSegments

/-!
# The two header codecs agree

Sender and receiver are written separately: the builder and the mutator store a flow's
5-tuple field by field, the receive path loads it from fixed offsets. A `TcpFrame` is what
they have to agree on. Every frame the sender makes of a TCP flow is one, and stays one
whatever is stored later in the fields that vary from packet to packet.

## Key results

- `TcpFrame.parse`: the receive path reads the 5-tuple and the payload length back
- `headers_agree`: so a flow's frames, and the answers to them, lead to the flow
-/

namespace TrafficGen

open PacketMutator Worker

variable {r : Rng}

/-- The bytes behind the headers. -/
private theorem toNat_sub_headers {size : UInt32} (h : 54 ≤ size.toNat) :
    (size - 54).toNat = size.toNat - 54 :=
  UInt32.toNat_sub_of_le size 54 (UInt32.le_iff_toNat_le.mpr h)

/-- A frame of `size` bytes with a TCP segment of the flow with 5-tuple `key`. -/
structure TcpFrame (mem : ByteMem) (key : FlowKey) (size : UInt32) : Prop where
  header : FrameHeader mem "tcp" size
  dataOff : mem 46 = 0x50
  srcAddr : mem.load32 26 = key.srcIp
  dstAddr : mem.load32 30 = key.dstIp
  srcPort : mem.load16 34 = rteCpuToBe16 key.srcPort
  dstPort : mem.load16 36 = rteCpuToBe16 key.dstPort

/-- The frame of the opposite direction: addresses and ports swapped. -/
def swapEndpoints (mem : ByteMem) : ByteMem :=
  (((mem.store32 26 (mem.load32 30)).store32 30 (mem.load32 26)).store16 34
    (mem.load16 36)).store16 36 (mem.load16 34)

/-- The fields of the headers that vary from packet to packet, stored by the mutator. -/
def mutateHeaders (mem : ByteMem) (id : UInt16) (seqNum ackNum : UInt32) (flags : UInt8) :
    ByteMem :=
  mutateTcpFlags (mutateTcpAck (mutateTcpSeq (mutateIpId mem 14 id) 34 seqNum) 34 ackNum) 34 flags

namespace TcpFrame

variable {mem : ByteMem} {key : FlowKey} {size : UInt32}

/-- The fields lie in bytes 14 to 23, 26 to 37 and 46, without the IP id among the first. -/
theorem of_agree (h : TcpFrame mem key size) {mem' : ByteMem}
    (hagree : ∀ i, 14 ≤ i ∧ i < 18 ∨ 20 ≤ i ∧ i < 24 ∨ 26 ≤ i ∧ i < 38 ∨ i = 46 →
      mem' i = mem i) : TcpFrame mem' key size where
  header :=
    { versionIhl := by rw [hagree 14 (by omega), h.header.versionIhl]
      totalLength := by
        rw [← h.header.totalLength, ipTotalLength, ipTotalLength,
          ByteMem.load16_congr (hagree (14 + 2) (by omega)) (hagree (14 + 2 + 1) (by omega))]
      nextProtoId := by rw [hagree 23 (by omega), h.header.nextProtoId] }
  dataOff := by rw [hagree 46 (by omega), h.dataOff]
  srcAddr := by rw [ByteMem.load32_congr fun i _ _ => hagree i (by omega), h.srcAddr]
  dstAddr := by rw [ByteMem.load32_congr fun i _ _ => hagree i (by omega), h.dstAddr]
  srcPort := by
    rw [ByteMem.load16_congr (hagree 34 (by omega)) (hagree (34 + 1) (by omega)), h.srcPort]
  dstPort := by
    rw [ByteMem.load16_congr (hagree 36 (by omega)) (hagree (36 + 1) (by omega)), h.dstPort]

/-! ## Receiving -/

/-- The receive path reads back the 5-tuple and the payload length of a frame. -/
theorem parse (h : TcpFrame mem key size) (hkey : key.protocol = IPPROTO_TCP)
    (hlo : 54 ≤ size.toNat) (hhi : size.toNat < 2 ^ 16) :
    parseHeaders.value mem = some { key, tcpHdr := 34, payloadLen := size - 54 } := by
  have htcp : LooksLikeTcp mem := by
    refine ⟨?_, h.header.nextProtoId⟩
    rw [h.header.versionIhl]
    rfl
  have hkeyEq : headerKey mem 14 34 = key := by
    rw [headerKey, h.srcAddr, h.dstAddr, h.srcPort, h.dstPort, rteBeToCpu16_rteCpuToBe16,
      rteBeToCpu16_rteCpuToBe16, ← hkey]
  have hpayload : tcpPayloadLen mem 14 34 = size - 54 := by
    apply UInt32.toNat_inj.mp
    rw [toNat_sub_headers hlo,
      show tcpPayloadLen mem 14 34 = segmentPayload size from
        tcpPayloadLen_eq h.header h.dataOff, toNat_segmentPayload hlo hhi]
  rw [value_parseHeaders, if_pos htcp, tcpRxCall, hkeyEq, hpayload]

/-- The frame of the opposite direction is one of the reversed 5-tuple. -/
theorem swapEndpoints (h : TcpFrame mem key size) :
    TcpFrame (swapEndpoints mem) key.reverse size where
  header := h.header.of_agree fun i _ _ => by
    simp (disch := omega) only [TrafficGen.swapEndpoints, ByteMem.store16_outside,
      ByteMem.store32_outside]
  dataOff := by
    rw [← h.dataOff]
    simp (disch := omega) only [TrafficGen.swapEndpoints, ByteMem.store16_outside,
      ByteMem.store32_outside]
  srcAddr := by
    rw [FlowKey.reverse, ← h.dstAddr]
    simp (disch := omega) only [TrafficGen.swapEndpoints, ByteMem.load32_store16_ne,
      ByteMem.load32_store32_ne, ByteMem.load32_store32]
  dstAddr := by
    rw [FlowKey.reverse, ← h.srcAddr]
    simp (disch := omega) only [TrafficGen.swapEndpoints, ByteMem.load32_store16_ne,
      ByteMem.load32_store32]
  srcPort := by
    rw [FlowKey.reverse, ← h.dstPort]
    simp (disch := omega) only [TrafficGen.swapEndpoints, ByteMem.load16_store16_ne,
      ByteMem.load16_store16]
  dstPort := by
    rw [FlowKey.reverse, ← h.srcPort]
    simp (disch := omega) only [TrafficGen.swapEndpoints, ByteMem.load16_store16]

/-! ## Sending -/

/-- No field that varies from packet to packet is one the receive path looks at. -/
theorem mutateHeaders (h : TcpFrame mem key size) (id : UInt16) (seqNum ackNum : UInt32)
    (flags : UInt8) : TcpFrame (mutateHeaders mem id seqNum ackNum flags) key size :=
  h.of_agree fun i hi => by
    simp (disch := omega) only [TrafficGen.mutateHeaders, mutateTcpFlags, mutateTcpAck,
      mutateTcpSeq, mutateIpId, ByteMem.store8_ne, ByteMem.store32_outside,
      ByteMem.store16_outside]

theorem rewriteStateful {mb : Mbuf} (h : TcpFrame mb.data key size) (d : Dpdk)
    (conn : TCPConnectionState) : TcpFrame (rewriteStateful d mb conn).1.data key size :=
  h.of_agree fun i hi => rewriteStateful_outside d mb conn (by omega)

/-- Every clone of a TCP flow's template is a frame of the flow. -/
theorem of_cloneAndMutate {d : Dpdk} {p p' : PacketMutator r} {m mb : Mbuf} {old t : PacketTemplate}
    {packetSize : UInt32} {srcMac dstMac : String} {seq : UInt32} {updateChecksums : Bool}
    (ht : buildTemplate d old key packetSize "tcp" srcMac dstMac = some t)
    (hheader : FrameHeader mb.data "tcp" size) (hdataOff : mb.data 46 = 0x50)
    (h : p.cloneAndMutate d m { t with totalSize := size } seq updateChecksums = (true, mb, p')) :
    TcpFrame mb.data key size := by
  have hwf := (wellFormed_of_buildTemplate ht).1
  obtain ⟨hsrcAddr, hdstAddr, hsrcPort, hdstPort⟩ := endpoints_of_buildTemplate ht
  have hbyte : ∀ i, 26 ≤ i → i < 38 → mb.data i = ByteMem.ofList t.data i := fun i hlo hhi =>
    cloneAndMutate_header (hwf.withSize size) h (by omega)
  exact {
    header := hheader
    dataOff := hdataOff
    srcAddr := by rw [ByteMem.load32_congr fun i _ _ => hbyte i (by omega) (by omega), hsrcAddr]
    dstAddr := by rw [ByteMem.load32_congr fun i _ _ => hbyte i (by omega) (by omega), hdstAddr]
    srcPort := by
      rw [ByteMem.load16_congr (hbyte 34 (by omega) (by omega)) (hbyte 35 (by omega) (by omega)),
        hsrcPort]
    dstPort := by
      rw [ByteMem.load16_congr (hbyte 36 (by omega) (by omega)) (hbyte 37 (by omega) (by omega)),
        hdstPort] }

end TcpFrame

/-! ## Agreement -/

/-- A frame the sender can make of the clone in `mb`: the clone, or its stateful rewrite. -/
def SentFrame (d : Dpdk) (mb : Mbuf) (frame : ByteMem) : Prop :=
  frame = mb.data ∨ ∃ conn, frame = (rewriteStateful d mb conn).1.data

/-- Received, the frame is a segment of `size - 54` payload bytes with the 5-tuple `key`, and
    `key` leads to the flow `f` under `flowId`. -/
def ReceivedFor (s : FlowScheduler) (flowId : UInt32) (f : FlowConfigInternal) (key : FlowKey)
    (size : UInt32) (frame : ByteMem) : Prop :=
  (∃ call, parseHeaders.value frame = some call ∧ call.key = key ∧
      call.payloadLen.toNat = size.toNat - 54) ∧
    s.flowLookup.lookup key = some flowId ∧ s.getFlow flowId = some f

/-- A TCP flow's clone never fails for a size within the tailroom, and right after the flow is
    added each of its frames, and each answer with addresses and ports swapped, is received
    for it. -/
theorem headers_agree (s : FlowScheduler) (d : Dpdk) (p : PacketMutator r) {config : FlowSettings}
    {nowNs : UInt64} {f : FlowConfigInternal} {m : Mbuf} {size : UInt32}
    (hprotocol : config.protocol = "tcp") (hkey : config.flowKey.protocol = IPPROTO_TCP)
    (hf : FlowScheduler.newFlow d s.srcMac config nowNs = some f) (hm : m.Fresh)
    (hlo : 54 ≤ size.toNat) (hhi : size.toNat ≤ m.tailroom) (seq : UInt32)
    (updateChecksums : Bool) :
    ∃ mb p', p.cloneAndMutate d m { f.templatePacket with totalSize := size } seq
        updateChecksums = (true, mb, p') ∧
      ∀ sent, SentFrame d mb sent → ∀ id seqNum ackNum flags,
        let frame := mutateHeaders sent id seqNum ackNum flags
        let s' := (s.addFlow d config nowNs).2
        ReceivedFor s' config.flowId f config.flowKey size frame ∧
          ReceivedFor s' config.flowId f config.flowKey.reverse size (swapEndpoints frame) := by
  have hroom : size.toNat ≤ m.room.toNat := hhi.trans (Nat.sub_le _ _)
  have hlt : size.toNat < 2 ^ 16 := Nat.lt_of_le_of_lt hroom m.room.toNat_lt
  obtain ⟨dstMac, template, bucket, ht, hfEq⟩ := FlowScheduler.newFlow_eq_some hf
  rw [hprotocol] at ht
  have htemplate : f.templatePacket = template := by rw [hfEq]
  have hwf := (wellFormed_of_buildTemplate ht).1
  have hoffset := hwf.payloadOffset_bounds
  -- the clone
  rcases p.cloneAndMutate_cases d seq updateChecksums hm (hwf.withSize size)
    (by dsimp only; omega) with
    ⟨hfull, -⟩ | ⟨-, p', filled, mem, hclone, -, -, hheader, hdataOff, -⟩
  · rw [UInt32.toNat_toUInt16, Nat.mod_eq_of_lt hlt] at hfull
    omega
  rw [htemplate]
  refine ⟨_, p', hclone, fun sent hsent id seqNum ackNum flags => ?_⟩
  have hcloned : TcpFrame mem config.flowKey size :=
    TcpFrame.of_cloneAndMutate ht hheader (hdataOff rfl) hclone
  have hsentFrame : TcpFrame sent config.flowKey size := by
    rcases hsent with rfl | ⟨conn, rfl⟩
    · exact hcloned
    · exact TcpFrame.rewriteStateful hcloned d conn
  have hframe := hsentFrame.mutateHeaders id seqNum ackNum flags
  constructor
  · exact ⟨⟨_, hframe.parse hkey hlo hlt, rfl, toNat_sub_headers hlo⟩,
      FlowScheduler.lookup_addFlow hf (.inl rfl)⟩
  · exact ⟨⟨_, hframe.swapEndpoints.parse hkey hlo hlt, rfl, toNat_sub_headers hlo⟩,
      FlowScheduler.lookup_addFlow hf (.inr rfl)⟩

/-- A 64-byte flow, the empty table and a fresh mbuf. -/
theorem headers_agree_sample : ∃ f, FlowScheduler.newFlow .reference [] (.sample 1 1000 true) 0 =
      some f ∧
    ∃ mb p', (PacketMutator.initializeRng .counting 1 0).cloneAndMutate .reference .sample
        { f.templatePacket with totalSize := 64 } 0 true = (true, mb, p') ∧
      ∀ sent, SentFrame .reference mb sent → ∀ id seqNum ackNum flags,
        let frame := mutateHeaders sent id seqNum ackNum flags
        let s' := ((FlowScheduler.new []).addFlow .reference (.sample 1 1000 true) 0).2
        let config := FlowSettings.sample 1 1000 true
        ReceivedFor s' config.flowId f config.flowKey 64 frame ∧
          ReceivedFor s' config.flowId f config.flowKey.reverse 64 (swapEndpoints frame) := by
  obtain ⟨f, hf⟩ := Option.isSome_iff_exists.mp ((FlowScheduler.newFlow_isSome_iff .reference []
    (.sample 1 1000 true) 0).mpr ⟨tcpHdrSize, rfl, by decide⟩)
  exact ⟨f, hf, headers_agree (.new []) .reference _ rfl rfl hf ⟨rfl, rfl, rfl⟩ (by decide)
    (by decide) 0 true⟩

end TrafficGen
