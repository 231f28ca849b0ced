import Mathlib.Data.List.GetD
import TrafficGen.Core.Worker
import TrafficGen.Spec.FlowTable
import TrafficGen.Spec.MacAddress

/-!
# Templates of accepted flows

What the rest of the packet path relies on in a template: the header bytes the
checksum and length code reads back (`PacketTemplate.WellFormed`), and a packet size
that is never smaller than the headers. Both hold of every flow `add_flow` accepted,
whatever has happened to its connection and counters since.

## Key results

- `wellFormed_of_buildTemplate`: what `build_template` returns is well formed
- `destination_of_buildTemplate`: its frames go to the MAC address the builder was given
- `Accepted.payloadOffset_le_size`: the chosen packet size covers the headers
-/

namespace TrafficGen

/-- The template's headers are those of `protocol`, and its first bytes hold them. -/
structure PacketTemplate.WellFormed (t : PacketTemplate) (protocol : String) : Prop where
  payloadOffset : ∃ transport, transportHeaderSize protocol = some transport ∧
    t.payloadOffset.toNat = etherHdrSize + ipv4HdrSize + transport
  headers_le : t.payloadOffset.toNat ≤ t.data.length
  versionIhl : t.data.getD 14 0 = 0x45
  nextProtoId : t.data.getD 23 0 = ipProtocol protocol
  dataOff : protocol = "tcp" → t.data.getD 46 0 = 0x50

/-- The supported protocols. -/
theorem protocol_cases {protocol : String} {transport : Nat}
    (h : transportHeaderSize protocol = some transport) :
    (protocol = "tcp" ∧ transport = 20) ∨ (protocol = "udp" ∧ transport = 8) ∨
      (protocol = "icmp" ∧ transport = 8) := by
  simp only [transportHeaderSize, tcpHdrSize, udpHdrSize, icmpHdrSize] at h
  split at h
  · next hprotocol => exact .inl ⟨hprotocol, (Option.some.inj h).symm⟩
  · split at h
    · next hprotocol => exact .inr (.inl ⟨hprotocol, (Option.some.inj h).symm⟩)
    · split at h
      · next hprotocol => exact .inr (.inr ⟨hprotocol, (Option.some.inj h).symm⟩)
      · cases h

theorem transportHeaderSize_bounds {protocol : String} {transport : Nat}
    (h : transportHeaderSize protocol = some transport) :
    8 ≤ transport ∧ transport ≤ 20 := by
  rcases protocol_cases h with ⟨-, rfl⟩ | ⟨-, rfl⟩ | ⟨-, rfl⟩
  · omega
  · omega
  · omega

theorem PacketTemplate.WellFormed.payloadOffset_bounds {t : PacketTemplate} {protocol : String}
    (h : t.WellFormed protocol) :
    42 ≤ t.payloadOffset.toNat ∧ t.payloadOffset.toNat ≤ 54 := by
  obtain ⟨transport, htransport, hoffset⟩ := h.payloadOffset
  have := transportHeaderSize_bounds htransport
  simp only [etherHdrSize, ipv4HdrSize] at hoffset
  omega

/-- The size is no part of it. -/
theorem PacketTemplate.WellFormed.withSize {t : PacketTemplate} {protocol : String}
    (h : t.WellFormed protocol) (size : UInt32) :
    { t with totalSize := size }.WellFormed protocol where
  payloadOffset := h.payloadOffset
  headers_le := h.headers_le
  versionIhl := h.versionIhl
  nextProtoId := h.nextProtoId
  dataOff := h.dataOff

/-! ## What the builder writes -/

/-- The transport header leaves everything below it alone. -/
theorem buildTransportHeader_below (d : Dpdk) (mem : ByteMem) (ip : Nat) {l4 i : Nat}
    (protocol : String) (key : FlowKey) (l4Len : Nat) (h : i < l4) :
    buildTransportHeader d mem ip l4 protocol key l4Len i = mem i := by
  simp only [buildTransportHeader]
  split
  · simp (disch := omega) only [buildTcpHeader, ByteMem.store16_outside,
      ByteMem.store32_outside, ByteMem.store8_ne]
  · split
    · simp (disch := omega) only [buildUdpHeader, ByteMem.store16_outside]
    · simp (disch := omega) only [buildIcmpHeader, ByteMem.store16_outside, ByteMem.store8_ne]

private theorem buildTransportHeader_dataOff (d : Dpdk) (mem : ByteMem) (ip l4 : Nat)
    (key : FlowKey) (l4Len : Nat) :
    buildTransportHeader d mem ip l4 "tcp" key l4Len (l4 + 12) = 0x50 := by
  simp (disch := omega) only [buildTransportHeader, if_true, buildTcpHeader,
    ByteMem.store16_outside, ByteMem.store8_ne, ByteMem.store8_self]

private theorem buildIpHeader_versionIhl (mem : ByteMem) (ip : Nat) (srcIp dstIp : UInt32)
    (protocol : UInt8) (totalLen : UInt16) :
    buildIpHeader mem ip srcIp dstIp protocol totalLen ip = 0x45 := by
  simp (disch := omega) only [buildIpHeader, ByteMem.store16_outside, ByteMem.store32_outside,
    ByteMem.store8_ne, ByteMem.store8_self]

private theorem buildIpHeader_nextProtoId (mem : ByteMem) (ip : Nat) (srcIp dstIp : UInt32)
    (protocol : UInt8) (totalLen : UInt16) :
    buildIpHeader mem ip srcIp dstIp protocol totalLen (ip + 9) = protocol := by
  simp (disch := omega) only [buildIpHeader, ByteMem.store16_outside, ByteMem.store32_outside,
    ByteMem.store8_self]

/-- The first six bytes of the Ethernet header are the destination. -/
private theorem buildEthernetHeader_destination (d : Dpdk) (mem : ByteMem)
    (srcMac dstMac : String) (etherType : UInt16) {i : Nat} (h : i < 6) :
    buildEthernetHeader d mem 0 srcMac dstMac etherType i =
      (macToBytes d.lone0x dstMac).2.getD i 0 := by
  have hlen := length_macToBytes d.lone0x dstMac
  rw [buildEthernetHeader, ByteMem.store16_outside _ _ (by omega),
    ByteMem.copy_outside _ _ (by omega)]
  simpa only [Nat.zero_add] using
    ByteMem.copy_inside mem (a := 0) (i := i) (macToBytes d.lone0x dstMac).2 (by omega)

private theorem buildIpHeader_below (mem : ByteMem) {ip i : Nat} (srcIp dstIp : UInt32)
    (protocol : UInt8) (totalLen : UInt16) (h : i < ip) :
    buildIpHeader mem ip srcIp dstIp protocol totalLen i = mem i := by
  simp (disch := omega) only [buildIpHeader, ByteMem.store16_outside, ByteMem.store32_outside,
    ByteMem.store8_ne]

/-- The payload fill and the final IP checksum touch nothing else: a header byte outside the
    checksum field is what the header steps left over the bytes the vector held. -/
theorem templateBytes_headers (d : Dpdk) (old : List UInt8) (key : FlowKey)
    (packetSize : UInt32) (protocol srcMac dstMac : String) {headerSize i : Nat}
    (hlt : i < headerSize) (hi : i < 24 ∨ 26 ≤ i) :
    templateBytes d old key packetSize protocol srcMac dstMac headerSize i =
      buildTransportHeader d
        (buildIpHeader
          (buildEthernetHeader d (ByteMem.ofList (resize old packetSize.toNat)) 0
            (defaultMac srcMac "00:01:02:03:04:05") (defaultMac dstMac "00:06:07:08:09:0A") 0x0800)
          14 key.srcIp key.dstIp (ipProtocol protocol) (packetSize - 14).toUInt16)
        14 34 protocol key (headerSize - 34 + (packetSize.toNat - headerSize)) i := by
  simp only [templateBytes, etherHdrSize, ipv4HdrSize]
  rw [ByteMem.store16_outside _ _ (by omega), ByteMem.store16_outside _ _ (by omega)]
  split
  · rw [ByteMem.fill_outside _ _ (by omega)]
    rfl
  · rfl

/-- The payload is zero. -/
theorem templateBytes_payload (d : Dpdk) (old : List UInt8) (key : FlowKey)
    (packetSize : UInt32) (protocol srcMac dstMac : String) {headerSize i : Nat}
    (h34 : 34 ≤ headerSize) (hlo : headerSize ≤ i) (hhi : i < packetSize.toNat) :
    templateBytes d old key packetSize protocol srcMac dstMac headerSize i = 0 := by
  simp only [templateBytes, etherHdrSize, ipv4HdrSize]
  rw [ByteMem.store16_outside _ _ (by omega), ByteMem.store16_outside _ _ (by omega),
    if_pos (by omega), ByteMem.fill_inside _ _ hlo (by omega)]

/-- What `build_template` returns: the bytes of a supported protocol's template whose size
    covers the headers. -/
theorem buildTemplate_eq_some {d : Dpdk} {old t : PacketTemplate} {key : FlowKey}
    {packetSize : UInt32} {protocol srcMac dstMac : String}
    (h : buildTemplate d old key packetSize protocol srcMac dstMac = some t) :
    ∃ transport, transportHeaderSize protocol = some transport ∧
      34 + transport ≤ packetSize.toNat ∧ t.payloadOffset.toNat = 34 + transport ∧
      t.totalSize = packetSize ∧
      t.data = (templateBytes d old.data key packetSize protocol srcMac dstMac
        (34 + transport)).bytes 0 packetSize.toNat := by
  simp only [buildTemplate] at h
  split at h
  · cases h
  · next transport htransport =>
    have hbounds := transportHeaderSize_bounds htransport
    split at h
    · cases h
    · next hsize =>
      simp only [etherHdrSize, ipv4HdrSize, Option.some.injEq] at h hsize
      refine ⟨transport, htransport, by omega, ?_, ?_, ?_⟩
      · rw [← h, UInt32.toNat_ofNat']
        omega
      · rw [← h]
      · rw [← h]

/-- The bytes of the headers, as the header steps wrote them. -/
theorem getD_buildTemplate {d : Dpdk} {old t : PacketTemplate} {key : FlowKey}
    {packetSize : UInt32} {protocol srcMac dstMac : String}
    (h : buildTemplate d old key packetSize protocol srcMac dstMac = some t) :
    ∃ mem transport, transportHeaderSize protocol = some transport ∧
      ∀ i < 34 + transport, i < 24 ∨ 26 ≤ i → ByteMem.ofList t.data i =
        buildTransportHeader d (buildIpHeader mem 14 key.srcIp key.dstIp (ipProtocol protocol)
          (packetSize - 14).toUInt16) 14 34 protocol key (packetSize.toNat - 34) i := by
  obtain ⟨transport, htransport, hsize, -, -, hdata⟩ := buildTemplate_eq_some h
  refine ⟨buildEthernetHeader d (ByteMem.ofList (resize old.data packetSize.toNat)) 0
    (defaultMac srcMac "00:01:02:03:04:05") (defaultMac dstMac "00:06:07:08:09:0A") 0x0800,
    transport, htransport, fun i hlt hi => ?_⟩
  have hlen : 34 + transport - 34 + (packetSize.toNat - (34 + transport)) =
      packetSize.toNat - 34 := by omega
  rw [hdata, ByteMem.ofList, ByteMem.getD_bytes _ _ (by omega), Nat.zero_add,
    templateBytes_headers d old.data key packetSize protocol srcMac dstMac hlt hi, hlen]

theorem wellFormed_of_buildTemplate {d : Dpdk} {old t : PacketTemplate} {key : FlowKey}
    {packetSize : UInt32} {protocol srcMac dstMac : String}
    (h : buildTemplate d old key packetSize protocol srcMac dstMac = some t) :
    t.WellFormed protocol ∧ t.payloadOffset.toNat ≤ packetSize.toNat := by
  obtain ⟨transport, htransport, hsize, hoffset, -, hdata⟩ := buildTemplate_eq_some h
  obtain ⟨mem, transport', htransport', hbyte⟩ := getD_buildTemplate h
  obtain rfl := Option.some.inj (htransport.symm.trans htransport')
  have hbounds := transportHeaderSize_bounds htransport
  -- the headers fit, then bytes 14, 23 and 46 as the header steps wrote them
  refine ⟨⟨⟨transport, htransport, hoffset⟩, ?_, ?_, ?_, ?_⟩, by omega⟩
  · rw [hoffset, hdata, ByteMem.length_bytes]
    exact hsize
  · show ByteMem.ofList t.data 14 = _
    rw [hbyte 14 (by omega) (by omega), buildTransportHeader_below _ _ _ _ _ _ (by omega),
      buildIpHeader_versionIhl]
  · show ByteMem.ofList t.data 23 = _
    rw [hbyte 23 (by omega) (by omega), buildTransportHeader_below _ _ _ _ _ _ (by omega),
      buildIpHeader_nextProtoId _ 14]
  · rintro rfl
    -- a TCP header is 20 bytes, so byte 46 is inside the headers
    obtain rfl : 20 = transport := Option.some.inj htransport
    show ByteMem.ofList t.data 46 = _
    rw [hbyte 46 (by omega) (by omega), buildTransportHeader_dataOff _ _ 14 34]

/-- The frames of a template go to the MAC address the builder was given. -/
theorem destination_of_buildTemplate {d : Dpdk} {old t : PacketTemplate} {key : FlowKey}
    {packetSize : UInt32} {protocol srcMac dstMac : String}
    (h : buildTemplate d old key packetSize protocol srcMac dstMac = some t) :
    t.data.take 6 = (macToBytes d.lone0x (defaultMac dstMac "00:06:07:08:09:0A")).2 := by
  obtain ⟨transport, -, hsize, -, -, hdata⟩ := buildTemplate_eq_some h
  have hlen := length_macToBytes d.lone0x (defaultMac dstMac "00:06:07:08:09:0A")
  apply List.ext_getElem
  · rw [List.length_take, hdata, ByteMem.length_bytes, hlen]
    omega
  · intro i hi hi'
    -- byte `i` as the Ethernet header step wrote it
    rw [List.getElem_take, ← List.getD_eq_getElem _ 0, hdata, ByteMem.getD_bytes _ _ (by omega),
      Nat.zero_add, templateBytes_headers _ _ _ _ _ _ _ (by omega) (by omega),
      buildTransportHeader_below _ _ _ _ _ _ (by omega), buildIpHeader_below _ _ _ _ _ (by omega),
      buildEthernetHeader_destination _ _ _ _ _ (by omega), List.getD_eq_getElem]

/-- The addresses and ports of a TCP template are its key's: addresses as they are, ports in
    network byte order. -/
theorem endpoints_of_buildTemplate {d : Dpdk} {old t : PacketTemplate} {key : FlowKey}
    {packetSize : UInt32} {srcMac dstMac : String}
    (h : buildTemplate d old key packetSize "tcp" srcMac dstMac = some t) :
    (ByteMem.ofList t.data).load32 26 = key.srcIp ∧
      (ByteMem.ofList t.data).load32 30 = key.dstIp ∧
      (ByteMem.ofList t.data).load16 34 = rteCpuToBe16 key.srcPort ∧
      (ByteMem.ofList t.data).load16 36 = rteCpuToBe16 key.dstPort := by
  obtain ⟨mem, transport, htransport, hbyte⟩ := getD_buildTemplate h
  obtain rfl : 20 = transport := Option.some.inj htransport
  refine ⟨?_, ?_, ?_, ?_⟩
  · rw [ByteMem.load32_congr fun i _ _ => hbyte i (by omega) (by omega),
      ByteMem.load32_congr fun i _ _ => buildTransportHeader_below _ _ _ _ _ _ (by omega)]
    simp (disch := omega) only [buildIpHeader, ByteMem.load32_store16_ne,
      ByteMem.load32_store32_ne, Nat.reduceAdd, ByteMem.load32_store32]
  · rw [ByteMem.load32_congr fun i _ _ => hbyte i (by omega) (by omega),
      ByteMem.load32_congr fun i _ _ => buildTransportHeader_below _ _ _ _ _ _ (by omega)]
    simp (disch := omega) only [buildIpHeader, ByteMem.load32_store16_ne, Nat.reduceAdd,
      ByteMem.load32_store32]
  · rw [ByteMem.load16_congr (hbyte 34 (by omega) (by omega)) (hbyte 35 (by omega) (by omega))]
    simp (disch := omega) only [buildTransportHeader, if_true, buildTcpHeader,
      ByteMem.load16_store8_ne, ByteMem.load16_store16_ne, ByteMem.load16_store32_ne,
      ByteMem.load16_store16]
  · rw [ByteMem.load16_congr (hbyte 36 (by omega) (by omega)) (hbyte 37 (by omega) (by omega))]
    simp (disch := omega) only [buildTransportHeader, if_true, buildTcpHeader,
      ByteMem.load16_store8_ne, ByteMem.load16_store16_ne, ByteMem.load16_store32_ne,
      ByteMem.load16_store16]

/-! ## Accepted flows -/

namespace FlowConfigInternal

/-- `f` is a flow some `add_flow` accepted: it has the settings and the template of the flow
    stored then. Its bucket, connection, counters and flags are whatever they have become. -/
def Accepted (d : Dpdk) (f : FlowConfigInternal) : Prop :=
  ∃ srcMac config nowNs stored, FlowScheduler.newFlow d srcMac config nowNs = some stored ∧
    f.toFlowSettings = stored.toFlowSettings ∧ f.templatePacket = stored.templatePacket

variable {d : Dpdk} {f : FlowConfigInternal}

theorem accepted_of_newFlow {srcMac : List UInt8} {config : FlowSettings} {nowNs : UInt64}
    (h : FlowScheduler.newFlow d srcMac config nowNs = some f) : f.Accepted d :=
  ⟨srcMac, config, nowNs, f, h, rfl, rfl⟩

/-- Acceptance is about the settings and the template only. -/
theorem Accepted.congr (h : f.Accepted d) {f' : FlowConfigInternal}
    (hsettings : f'.toFlowSettings = f.toFlowSettings)
    (htemplate : f'.templatePacket = f.templatePacket) : f'.Accepted d := by
  obtain ⟨srcMac, config, nowNs, stored, hnew, hs, ht⟩ := h
  exact ⟨srcMac, config, nowNs, stored, hnew, hsettings.trans hs, htemplate.trans ht⟩

/-- The template of an accepted flow was built for the flow's protocol and size. -/
theorem Accepted.built (h : f.Accepted d) : ∃ key srcMac dstMac,
    buildTemplate d .empty key (if f.packetSize = 0 then 64 else f.packetSize) f.protocol srcMac
      dstMac = some f.templatePacket := by
  obtain ⟨srcMac, config, nowNs, stored, hnew, hsettings, htemplate⟩ := h
  obtain ⟨dstMac, template, bucket, hbuild, rfl⟩ := FlowScheduler.newFlow_eq_some hnew
  rw [htemplate, hsettings]
  exact ⟨_, _, _, hbuild⟩

/-- It is well formed, and its headers fit the flow's size. -/
private theorem Accepted.template (h : f.Accepted d) :
    f.templatePacket.WellFormed f.protocol ∧
      f.templatePacket.payloadOffset.toNat ≤
        (if f.packetSize = 0 then 64 else f.packetSize).toNat := by
  obtain ⟨key, srcMac, dstMac, hbuild⟩ := h.built
  exact wellFormed_of_buildTemplate hbuild

theorem Accepted.wellFormed (h : f.Accepted d) : f.templatePacket.WellFormed f.protocol :=
  h.template.1

/-- The template `process_flows` clones: the flow's, at the size chosen for the packet. -/
def finalTemplate (f : FlowConfigInternal) (imix : IMIXEngine) (draw : Nat) :
    PacketTemplate :=
  { f.templatePacket with totalSize := Worker.choosePacketSize f imix draw }

theorem Accepted.finalTemplate_wellFormed (h : f.Accepted d) (imix : IMIXEngine) (draw : Nat) :
    (f.finalTemplate imix draw).WellFormed f.protocol :=
  h.wellFormed.withSize _

/-- Whatever size the worker chooses for an accepted flow, it covers the headers. -/
theorem Accepted.payloadOffset_le_size (h : f.Accepted d) (imix : IMIXEngine) (draw : Nat) :
    f.templatePacket.payloadOffset.toNat ≤ (Worker.choosePacketSize f imix draw).toNat := by
  have hsize := h.template.2
  have hbounds := h.wellFormed.payloadOffset_bounds
  have h64 : (64 : UInt32).toNat = 64 := rfl
  simp only [Worker.choosePacketSize]
  by_cases hzero : f.packetSize = 0
  · -- the IMIX engine never selects less than 64
    have himix := imix.selectNextPacketSize_bounds draw
    rw [if_pos hzero]
    split <;> omega
  · rw [if_neg hzero, if_neg hzero]
    rwa [if_neg hzero] at hsize

end FlowConfigInternal

/-! ## Tables of accepted flows -/

namespace FlowScheduler

/-- Every flow in the table was accepted by `add_flow`. -/
def AllAccepted (d : Dpdk) (s : FlowScheduler) : Prop :=
  ∀ id f, s.getFlow id = some f → f.Accepted d

variable {d : Dpdk} {s : FlowScheduler}

theorem allAccepted_new (d : Dpdk) (srcMac : List UInt8) : (new srcMac).AllAccepted d := by
  intro id f hf
  simp only [getFlow, new, AList.lookup_empty] at hf
  cases hf

theorem AllAccepted.setFlow (h : s.AllAccepted d) {f : FlowConfigInternal} (hf : f.Accepted d)
    (id : UInt32) : (s.setFlow id f).AllAccepted d := by
  intro id' f' hf'
  by_cases hid : id' = id
  · subst hid
    rw [getFlow_setFlow_self, Option.some.injEq] at hf'
    exact hf' ▸ hf
  · rw [getFlow_setFlow_ne _ _ hid] at hf'
    exact h id' f' hf'

/-- Changing anything but a flow's settings and template keeps the table accepted. -/
theorem AllAccepted.setFlow_of_same (h : s.AllAccepted d) {id : UInt32}
    {f f' : FlowConfigInternal} (hf : s.getFlow id = some f)
    (hsettings : f'.toFlowSettings = f.toFlowSettings)
    (htemplate : f'.templatePacket = f.templatePacket) : (s.setFlow id f').AllAccepted d :=
  h.setFlow ((h id f hf).congr hsettings htemplate) id

theorem AllAccepted.addFlow (h : s.AllAccepted d) (config : FlowSettings) (nowNs : UInt64) :
    (s.addFlow d config nowNs).2.AllAccepted d := by
  rcases s.addFlow_cases d config nowNs with ⟨-, heq⟩ | ⟨-, f, hf, heq⟩
  · rwa [heq]
  · rw [heq]
    exact h.setFlow (FlowConfigInternal.accepted_of_newFlow hf) config.flowId

theorem AllAccepted.removeFlow (h : s.AllAccepted d) (id : UInt32) :
    (s.removeFlow id).2.AllAccepted d := by
  rcases s.removeFlow_cases id with ⟨-, heq⟩ | ⟨f, -, heq⟩
  · rwa [heq]
  · rw [heq]
    intro id' f' hf'
    by_cases hid : id' = id
    · subst hid
      simp only [getFlow, AList.lookup_erase] at hf'
      cases hf'
    · simp only [getFlow, AList.lookup_erase_ne hid] at hf'
      exact h id' f' hf'

theorem AllAccepted.startFlow (h : s.AllAccepted d) (id : UInt32) (nowNs bucketNowNs : UInt64) :
    (s.startFlow id nowNs bucketNowNs).2.AllAccepted d := by
  rcases s.setFlow_of_startFlow id nowNs bucketNowNs with heq | ⟨f, bucket, hf, heq⟩
  · rwa [heq]
  · rw [heq]
    exact h.setFlow_of_same hf rfl rfl

theorem AllAccepted.stopFlow (h : s.AllAccepted d) (id : UInt32) :
    (s.stopFlow id).2.AllAccepted d := by
  rcases s.setFlow_of_stopFlow id with heq | ⟨f, hf, heq⟩
  · rwa [heq]
  · rw [heq]
    exact h.setFlow_of_same hf rfl rfl

theorem AllAccepted.handleTcpRx (h : s.AllAccepted d) (key : FlowKey) (hdr : RteTcpHdr)
    (payloadLen : UInt32) (nowNs : UInt64) :
    (s.handleTcpRx key hdr payloadLen nowNs).AllAccepted d := by
  rcases s.handleTcpRx_cases key hdr payloadLen nowNs with heq | ⟨id, f, conn, -, hf, -, -, heq⟩
  · rwa [heq]
  · rw [heq]
    exact h.setFlow_of_same hf rfl rfl

theorem AllAccepted.getReadyFlows (h : s.AllAccepted d) (maxFlows : UInt32)
    (order : List UInt32) (nowNs : UInt64) (bucketNowNs : UInt32 → UInt64) :
    (s.getReadyFlows maxFlows order nowNs bucketNowNs).2.AllAccepted d := by
  intro id f hf
  have hsame := s.getFlow_getReadyFlows maxFlows order nowNs bucketNowNs id
  rw [hf, Option.map_some, eq_comm, Option.map_eq_some_iff] at hsame
  obtain ⟨f₀, hf₀, hunscheduled⟩ := hsame
  -- settings and template are among what the walk keeps
  have hsettings := congrArg FlowConfigInternal.toFlowSettings hunscheduled
  have htemplate := congrArg FlowConfigInternal.templatePacket hunscheduled
  exact (h id f₀ hf₀).congr hsettings.symm htemplate.symm

/-- Every control call keeps the table accepted. -/
theorem AllAccepted.step (h : s.AllAccepted d) (op : Op) : (s.step d op).AllAccepted d := by
  cases op with
  | addFlow config nowNs => exact h.addFlow config nowNs
  | removeFlow id => exact h.removeFlow id
  | clearAllFlows =>
    intro id f hf
    cases hf
  | startFlow id nowNs bucketNowNs => exact h.startFlow id nowNs bucketNowNs
  | stopFlow id => exact h.stopFlow id

theorem allAccepted_run (d : Dpdk) (srcMac : List UInt8) (ops : List Op) :
    (Run.run (FlowScheduler.step d) (new srcMac) ops).AllAccepted d :=
  Run.run_induct (allAccepted_new d srcMac) (fun _ op h => h.step op) ops

end FlowScheduler

end TrafficGen
