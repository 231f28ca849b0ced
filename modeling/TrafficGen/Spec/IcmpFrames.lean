import TrafficGen.Spec.ChecksumCorrect
import TrafficGen.Spec.PlainPath

/-!
# Checksums of ICMP frames

The template of an ICMP flow is an echo request whose checksum field is left zero "for
later", and of the steps that follow only those for TCP and UDP come back to a checksum
behind the IP header. The message of a frame is a type of 8 and zeros from there on, so its
sum is `0x0800` at every size.

## Key results

- `icmpMessage_eq`: the bytes of an ICMP frame behind its IP header
- `not_icmpIntact`: no ICMP frame of a burst is intact
-/

namespace TrafficGen

open OnesComplement (Intact)
open PacketMutator Worker

variable {r : Rng}

/-- The ICMP message of a frame: everything behind the IP header. -/
def Mbuf.icmpMessage (m : Mbuf) : List UInt8 :=
  m.data.bytes 34 (m.pktLen.toNat - 34)

/-- The ICMP message sums to `0xFFFF`. -/
def Mbuf.IcmpIntact (m : Mbuf) : Prop :=
  Intact m.icmpMessage

/-! ## The template -/

/-- The echo request the builder writes: type 8, then zeros. -/
theorem buildIcmpHeader_byte (mem : ByteMem) {icmp i : Nat} (hlo : icmp ≤ i) (hhi : i < icmp + 8) :
    buildIcmpHeader mem icmp i = if i = icmp then 8 else 0 := by
  have hzero : ∀ (m : ByteMem) {a : Nat}, a ≤ i → i < a + 2 → m.store16 a 0 i = 0 := by
    intro m a hlo hhi
    obtain rfl | rfl : i = a ∨ i = a + 1 := by omega
    · exact ByteMem.store16_low m i 0
    · exact ByteMem.store16_high m a 0
  rw [buildIcmpHeader]
  by_cases htype : i = icmp
  · simp (disch := omega) only [htype, if_true, ByteMem.store16_outside, ByteMem.store8_ne,
      ByteMem.store8_self]
  · rw [if_neg htype]
    by_cases hseq : icmp + 6 ≤ i
    · exact hzero _ hseq (by omega)
    · rw [ByteMem.store16_outside _ _ (by omega)]
      by_cases hid : icmp + 4 ≤ i
      · exact hzero _ hid (by omega)
      · rw [ByteMem.store16_outside _ _ (by omega)]
        by_cases hcksum : icmp + 2 ≤ i
        · exact hzero _ hcksum (by omega)
        · obtain rfl : i = icmp + 1 := by omega
          rw [ByteMem.store16_outside _ _ (by omega), ByteMem.store8_self]

theorem buildTemplate_icmp_byte {d : Dpdk} {old t : PacketTemplate} {key : FlowKey}
    {packetSize : UInt32} {srcMac dstMac : String}
    (h : buildTemplate d old key packetSize "icmp" srcMac dstMac = some t) {i : Nat} (hlo : 34 ≤ i)
    (hhi : i < 42) : ByteMem.ofList t.data i = if i = 34 then 8 else 0 := by
  obtain ⟨mem, transport, htransport, hbyte⟩ := getD_buildTemplate h
  obtain rfl : 8 = transport := Option.some.inj htransport
  have htcp : ¬ "icmp" = "tcp" := by decide
  have hudp : ¬ "icmp" = "udp" := by decide
  rw [hbyte i (by omega) (by omega), buildTransportHeader, if_neg htcp, if_neg hudp]
  exact buildIcmpHeader_byte _ hlo hhi

/-! ## The clone -/

/-- No step of a clone writes behind the IP header of an ICMP frame. -/
theorem mutateFields_icmp (p : PacketMutator r) {mem : ByteMem} (hmem : mem 23 = ipProtocol "icmp")
    (finalSize seq : UInt32) {i : Nat} (hi : 34 ≤ i) :
    (p.mutateFields mem finalSize seq).1 i = mem i := by
  have htcp : ¬ "icmp" = "tcp" := by decide
  have hudp : ¬ "icmp" = "udp" := by decide
  rw [p.mutateFields_eq hmem rfl]
  simp only [if_neg htcp, if_neg hudp]
  rw [ByteMem.store16_outside _ _ (by omega), ByteMem.store16_outside _ _ (by omega)]

/-- The message of a clone: the template's echo request and a zero payload. -/
theorem cloneAndMutate_icmp_byte {d : Dpdk} {p p' : PacketMutator r} {m mb : Mbuf}
    {t : PacketTemplate} {seq : UInt32} (ht : t.WellFormed "icmp")
    (htemplate : ∀ i, 34 ≤ i → i < 42 → ByteMem.ofList t.data i = if i = 34 then 8 else 0)
    (h : p.cloneAndMutate d m t seq true = (true, mb, p')) {i : Nat} (hlo : 34 ≤ i)
    (hhi : i < mb.pktLen.toNat) : mb.data i = if i = 34 then 8 else 0 := by
  obtain ⟨transport, htransport, hoffset⟩ := ht.payloadOffset
  obtain rfl : 8 = transport := Option.some.inj htransport
  simp only [etherHdrSize, ipv4HdrSize] at hoffset
  obtain ⟨fitted, -, hlen, hdata⟩ := cloneAndMutate_eq_true h
  have hproto : (fillFrame fitted t).data 23 = ipProtocol "icmp" :=
    (fillFrame_data ht (by omega)).trans ht.nextProtoId
  have hheader := p.frameHeader_mutateFields t.totalSize seq
    ((fillFrame_data (m := fitted) ht (by omega)).trans ht.versionIhl) hproto
  rw [hdata, if_pos rfl, recalculateChecksums_icmp d hheader.nextProtoId,
    recalculateIpChecksum_outside _ _ (by omega), mutateFields_icmp p hproto _ _ hlo]
  by_cases hpayload : i < 42
  · rw [fillFrame_data ht (by omega)]
    exact htemplate i hlo hpayload
  · rw [fillFrame_payload (by omega) (by rw [← hlen]; exact hhi), if_neg (by omega)]

/-! ## The burst -/

/-- The ICMP message of a packet in the burst is an echo request and zeros. -/
theorem icmpMessage_eq {cfg : WorkerConfig} {d : Dpdk} {imix : IMIXEngine} {b : BuiltPacket}
    (h : b.Cloned cfg d r imix) (hprotocol : b.before.protocol = "icmp") :
    ∃ n, b.frame.icmpMessage = 8 :: 0 :: List.replicate n 0 := by
  obtain ⟨hacc, mutator, mutator', m, mb, turn, -, hclone, hframe, -⟩ := h
  obtain ⟨key, srcMac, dstMac, hbuild⟩ := hacc.built
  rw [hprotocol] at hbuild
  have hwell := hacc.finalTemplate_wellFormed imix turn.imixDraw
  rw [hprotocol] at hwell
  have hsize := hacc.payloadOffset_le_size imix turn.imixDraw
  have hbounds := hacc.wellFormed.payloadOffset_bounds
  -- an ICMP flow has no connection, so the clone is the frame
  have hstate : b.before.isStatefulTcp = false := by
    by_contra htcp
    have := FlowConfigInternal.protocol_of_stateful (by simpa using htcp)
    exact absurd (hprotocol.symm.trans this) (by decide)
  obtain ⟨timestamp, hstamp⟩ := stampMbuf_eq cfg mb turn.timestampNs
  rw [finishPacket_plain cfg d mb turn.timestampNs hstate, hstamp] at hframe
  obtain ⟨fitted, -, hlen, -⟩ := cloneAndMutate_eq_true hclone
  have hlen : mb.pktLen.toNat = (choosePacketSize b.before imix turn.imixDraw).toNat :=
    congrArg UInt32.toNat hlen
  obtain ⟨n, hn⟩ := Nat.exists_eq_add_of_le (show 36 ≤ mb.pktLen.toNat by omega)
  refine ⟨n, ?_⟩
  have hbyte : ∀ i, 34 ≤ i → i < mb.pktLen.toNat → b.frame.data i = if i = 34 then 8 else 0 := by
    intro i hlo hhi
    rw [hframe]
    exact cloneAndMutate_icmp_byte hwell (fun _ => buildTemplate_icmp_byte hbuild) hclone hlo hhi
  have hlength : b.frame.pktLen.toNat - 34 = 2 + n := by
    rw [show b.frame.pktLen = mb.pktLen by rw [hframe], hn]
    omega
  have hzeros : b.frame.data.bytes 36 n = List.replicate n 0 := by
    rw [List.eq_replicate_iff, ByteMem.length_bytes]
    refine ⟨rfl, fun v hv => ?_⟩
    obtain ⟨i, hi, rfl⟩ := List.mem_map.mp hv
    have := List.mem_range.mp hi
    rw [hbyte (36 + i) (by omega) (by omega), if_neg (by omega)]
  rw [Mbuf.icmpMessage, hlength, ByteMem.bytes_add, hzeros]
  show [b.frame.data 34, b.frame.data 35] ++ List.replicate n 0 = _
  rw [hbyte 34 (by omega) (by omega), hbyte 35 (by omega) (by omega)]
  rfl

/-- The sum of an echo request with an empty checksum and a zero payload. -/
theorem sum_icmpMessage (n : Nat) : OnesComplement.sum (8 :: 0 :: List.replicate n 0) = 0x0800 := by
  show OnesComplement.add 0x0800 (OnesComplement.sum (List.replicate n 0)) = 0x0800
  rw [OnesComplement.sum_replicate_zero]
  rfl

/-- **ICMP checksums.** No ICMP frame a pass puts in the burst, of a flow `add_flow` accepted and
    whatever its size, has a message that sums to `0xFFFF`. -/
theorem not_icmpIntact (cfg : WorkerConfig) (d : Dpdk) (r : Rng) (sys : System)
    (input : PassInput) (hflows : sys.scheduler.AllAccepted d) (b : BuiltPacket)
    (hb : b ∈ (processFlows cfg d r sys input).2.built) (hprotocol : b.before.protocol = "icmp") :
    ¬ b.frame.IcmpIntact := by
  obtain ⟨n, hn⟩ := icmpMessage_eq (cloned_processFlows cfg d r input hflows b hb) hprotocol
  rw [Mbuf.IcmpIntact, Intact, hn, sum_icmpMessage]
  decide

/-! ## Fixed inputs -/

/-- The settings of a 64-byte ICMP flow. -/
def FlowSettings.echo (flowId : UInt32) : FlowSettings :=
  { FlowSettings.sample flowId 0 true with protocol := "icmp" }

/-- Two ICMP flows are added and started. -/
def echoHistory : List FlowScheduler.Op :=
  [.addFlow (.echo 1) 0, .addFlow (.echo 2) 0, .startFlow 1 1 1, .startFlow 2 1 1]

/-- A generator with two active ICMP flows. -/
def System.echo : System :=
  { System.sample true with
    scheduler := Run.run (FlowScheduler.step .reference) (.new []) echoHistory }

/-- The second of them gets a packet of 64 bytes. -/
theorem built_echo :
    (processFlows .sample .reference .counting .echo .sample).2.built.map
      (fun b => (b.before.protocol, b.frame.pktLen, b.frame.room)) = [("icmp", 64, 2048)] := by
  decide

theorem not_icmpIntact_echo : System.echo.scheduler.AllAccepted .reference ∧
    ∃ b ∈ (processFlows .sample .reference .counting .echo .sample).2.built,
      b.before.protocol = "icmp" ∧ ¬ b.frame.IcmpIntact := by
  have haccepted := FlowScheduler.allAccepted_run .reference [] echoHistory
  obtain ⟨b, hb, hfact⟩ := List.map_eq_singleton_iff.mp built_echo
  have hmem : b ∈ (processFlows .sample .reference .counting .echo .sample).2.built := by
    rw [hb]
    exact List.mem_singleton_self b
  have hprotocol := (Prod.mk.inj hfact).1
  exact ⟨haccepted, b, hmem, hprotocol,
    not_icmpIntact .sample .reference .counting .echo .sample haccepted b hmem hprotocol⟩

/-- An echo request of 64 bytes leaves with the sum `0x0800`. -/
theorem echo_unchecked : System.echo.scheduler.AllAccepted .reference ∧
    ¬ ∀ b ∈ (processFlows .sample .reference .counting .echo .sample).2.built,
      b.before.protocol = "icmp" → b.frame.pktLen.toNat ≤ b.frame.room.toNat →
        b.frame.IcmpIntact := by
  refine ⟨FlowScheduler.allAccepted_run .reference [] echoHistory, fun hintact => ?_⟩
  have hsum : (processFlows .sample .reference .counting .echo .sample).2.built.map
      (fun b => OnesComplement.sum b.frame.icmpMessage) = [0x0800] := by decide
  obtain ⟨b, hb, hfact⟩ := List.map_eq_singleton_iff.mp built_echo
  rw [hb, List.map_singleton, List.cons.injEq] at hsum
  rw [Prod.mk.injEq, Prod.mk.injEq] at hfact
  obtain ⟨hprotocol, hlen, hroom⟩ := hfact
  have hmem : b ∈ (processFlows .sample .reference .counting .echo .sample).2.built := by
    rw [hb]
    exact List.mem_singleton_self b
  have hfits : b.frame.pktLen.toNat ≤ b.frame.room.toNat := by
    rw [hlen, hroom]
    decide
  have := hintact b hmem hprotocol hfits
  rw [Mbuf.IcmpIntact, Intact, hsum.1] at this
  exact absurd this (by decide)

end TrafficGen
