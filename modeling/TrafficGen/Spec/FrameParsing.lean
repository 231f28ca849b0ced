import TrafficGen.Spec.ReceivePath

/-!
# Received frames

What `process_received_packets` makes of a frame, compared with the grammar of Ethernet and
IPv4 and with the length of the frame. The code looks at the IP version and the protocol
number and at nothing else before it takes the TCP header to be at byte 34: not at the
EtherType, the IHL or the fragment fields, and not at how many bytes were received.

## Key results

- `parsedCorrectly_iff`: a frame is parsed as the grammar says exactly when it does not look
  like TCP, or is TCP and has at the fixed offsets what it has at its own
- `processedInside_iff`: a frame is processed within its bytes exactly when the headers the code
  goes on to read are there, and the lengths in them do not reach beyond the frame
-/

namespace TrafficGen.Worker

open ByteMem (Read)
open ByteMem.Read (loads_bind loads_pure)

/-! ## The grammar -/

/-- Where the IHL puts the TCP header of a frame. -/
def tcpOffset (mem : ByteMem) : Nat := 14 + ipHdrLen mem 14

/-- The header length the data offset of the TCP header at `tcp` gives, in bytes. -/
def tcpHdrLen (mem : ByteMem) (tcp : Nat) : Nat := (mem (tcp + 12) >>> 4).toNat * 4

/-- The frame has EtherType `0x0800`, and its IPv4 header is not that of a fragment and not
    shorter than it can be. -/
def WholeIpv4 (mem : ByteMem) : Prop :=
  (mem 12 = 0x08 ∧ mem 13 = 0x00) ∧ 20 ≤ ipHdrLen mem 14 ∧ mem 20 &&& 0x3f = 0 ∧ mem 21 = 0

instance (mem : ByteMem) : Decidable (WholeIpv4 mem) :=
  inferInstanceAs (Decidable (_ ∧ _))

/-- The frame carries an unfragmented IPv4 packet of protocol TCP. -/
def CarriesTcp (mem : ByteMem) : Prop := WholeIpv4 mem ∧ LooksLikeTcp mem

instance (mem : ByteMem) : Decidable (CarriesTcp mem) :=
  inferInstanceAs (Decidable (_ ∧ _))

/-- A call to `handle_tcp_rx` is about the segment the frame carries: its ports, its numbers
    and flags, and the length of its payload. -/
structure TcpRxCall.AsCarried (call : TcpRxCall) (mem : ByteMem) : Prop where
  key : call.key = headerKey mem 14 (tcpOffset mem)
  sentSeq : mem.load32 (call.tcpHdr + 4) = mem.load32 (tcpOffset mem + 4)
  recvAck : mem.load32 (call.tcpHdr + 8) = mem.load32 (tcpOffset mem + 8)
  tcpFlags : mem (call.tcpHdr + 13) = mem (tcpOffset mem + 13)
  payloadLen : (call.payloadLen.toNat : Int) =
    (ipTotalLength mem 14).toNat - ipHdrLen mem 14 - tcpHdrLen mem (tcpOffset mem)

/-- `handle_tcp_rx` is called exactly for the frames that carry TCP, and about what they
    carry. -/
def ParsedCorrectly (mem : ByteMem) : Prop :=
  ((∃ call, parseHeaders.value mem = some call) ↔ CarriesTcp mem) ∧
    ∀ call, parseHeaders.value mem = some call → call.AsCarried mem

/-! ## Where the fixed offsets are right -/

/-- The ports, numbers and flags at byte 34 are those of the TCP header, wherever that is. -/
structure SameHeader (mem : ByteMem) : Prop where
  srcPort : mem.load16 34 = mem.load16 (tcpOffset mem)
  dstPort : mem.load16 36 = mem.load16 (tcpOffset mem + 2)
  sentSeq : mem.load32 38 = mem.load32 (tcpOffset mem + 4)
  recvAck : mem.load32 42 = mem.load32 (tcpOffset mem + 8)
  tcpFlags : mem 47 = mem (tcpOffset mem + 13)

/-- The IP length covers the headers, and the byte taken for the data offset gives them the
    length they have, or there is nothing behind them. -/
def SameLength (mem : ByteMem) : Prop :=
  let total := (ipTotalLength mem 14).toNat
  let headers := ipHdrLen mem 14 + tcpHdrLen mem (tcpOffset mem)
  headers ≤ total ∧
    (20 + tcpHdrLen mem 34 = headers ∨ total = headers ∧ total ≤ 20 + tcpHdrLen mem 34)

theorem tcpHdrLen_le (mem : ByteMem) (tcp : Nat) : tcpHdrLen mem tcp ≤ 60 := by
  have := (mem (tcp + 12)).toNat_lt
  simp only [tcpHdrLen, UInt8.toNat_shiftRight, UInt8.reduceToNat, Nat.shiftRight_eq_div_pow,
    Nat.reduceMod, Nat.reducePow]
  omega

/-- The payload length of the code: what the IP length leaves behind 20 bytes, modulo `2^16`,
    less the TCP header. -/
theorem toNat_tcpPayloadLen (mem : ByteMem) :
    (tcpPayloadLen mem 14 34).toNat =
      ((ipTotalLength mem 14).toNat + 65516) % 65536 - tcpHdrLen mem 34 := by
  have hl4 : (ipTotalLength mem 14 - UInt16.ofNat ipv4HdrSize).toNat =
      ((ipTotalLength mem 14).toNat + 65516) % 65536 := by
    rw [UInt16.toNat_sub, show (UInt16.ofNat ipv4HdrSize).toNat = 20 from rfl, Nat.add_comm]
  have hhdr : ((mem (34 + 12) >>> 4).toUInt16 * 4).toNat = tcpHdrLen mem 34 := by
    have := tcpHdrLen_le mem 34
    rw [UInt16.toNat_mul, UInt8.toNat_toUInt16, show (4 : UInt16).toNat = 4 from rfl]
    rw [tcpHdrLen] at this ⊢
    omega
  simp only [tcpPayloadLen]
  split
  · next hlt =>
    rw [gt_iff_lt, UInt16.lt_iff_toNat_lt] at hlt
    rw [UInt16.toNat_toUInt32,
      UInt16.toNat_sub_of_le _ _ (UInt16.le_iff_toNat_le.mpr (by omega)), hl4, hhdr]
  · next hge =>
    rw [gt_iff_lt, UInt16.lt_iff_toNat_lt, hl4, hhdr] at hge
    rw [UInt32.toNat_zero]
    omega

/-- With a header of at least 20 bytes, the IP length is too short for it or nothing wraps. -/
theorem payloadLen_eq_iff (mem : ByteMem) (hihl : 20 ≤ ipHdrLen mem 14) :
    ((tcpPayloadLen mem 14 34).toNat : Int) =
        (ipTotalLength mem 14).toNat - ipHdrLen mem 14 - tcpHdrLen mem (tcpOffset mem) ↔
      SameLength mem := by
  have htotal := (ipTotalLength mem 14).toNat_lt
  have hfixed := tcpHdrLen_le mem 34
  rw [toNat_tcpPayloadLen, SameLength]
  omega

theorem asCarried_tcpRxCall_iff (mem : ByteMem) (hihl : 20 ≤ ipHdrLen mem 14) :
    (tcpRxCall mem).AsCarried mem ↔ SameHeader mem ∧ SameLength mem := by
  constructor
  · intro h
    have hkey := h.key
    simp only [tcpRxCall, headerKey, FlowKey.mk.injEq, true_and, and_true] at hkey
    have hswap : ∀ v w : UInt16, rteBeToCpu16 v = rteBeToCpu16 w → v = w := fun v w hvw => by
      rw [← ByteMem.swap16_swap16 v, ← ByteMem.swap16_swap16 w]
      exact congrArg ByteMem.swap16 hvw
    exact ⟨⟨hswap _ _ hkey.1, hswap _ _ hkey.2, h.sentSeq, h.recvAck, h.tcpFlags⟩,
      (payloadLen_eq_iff mem hihl).mp h.payloadLen⟩
  · rintro ⟨hheader, hlength⟩
    refine ⟨?_, hheader.sentSeq, hheader.recvAck, hheader.tcpFlags,
      (payloadLen_eq_iff mem hihl).mpr hlength⟩
    show headerKey mem 14 34 = headerKey mem 14 (tcpOffset mem)
    rw [headerKey, headerKey, hheader.srcPort, hheader.dstPort]

theorem value_parseHeaders_tcp {mem : ByteMem} (htcp : LooksLikeTcp mem) :
    parseHeaders.value mem = some (tcpRxCall mem) := by
  rw [value_parseHeaders, if_pos htcp]

theorem parsedCorrectly_iff_of_tcp {mem : ByteMem} (htcp : LooksLikeTcp mem) :
    ParsedCorrectly mem ↔ WholeIpv4 mem ∧ SameHeader mem ∧ SameLength mem := by
  rw [ParsedCorrectly, value_parseHeaders_tcp htcp]
  constructor
  · rintro ⟨hcalled, hcarried⟩
    have hwhole : WholeIpv4 mem := (hcalled.mp ⟨_, rfl⟩).1
    exact ⟨hwhole, (asCarried_tcpRxCall_iff mem hwhole.2.1).mp (hcarried _ rfl)⟩
  · rintro ⟨hwhole, hsame⟩
    refine ⟨⟨fun _ => ⟨hwhole, htcp⟩, fun _ => ⟨_, rfl⟩⟩, fun call hcall => ?_⟩
    rw [Option.some.injEq] at hcall
    rw [← hcall]
    exact (asCarried_tcpRxCall_iff mem hwhole.2.1).mpr hsame

/-- Without IP options the headers are where the code looks, so only the lengths matter. -/
theorem parsedCorrectly_of_noOptions {mem : ByteMem} (htcp : LooksLikeTcp mem)
    (hwhole : WholeIpv4 mem) (hihl : ipHdrLen mem 14 = 20)
    (hlength : 20 + tcpHdrLen mem 34 ≤ (ipTotalLength mem 14).toNat) : ParsedCorrectly mem := by
  have hoffset : tcpOffset mem = 34 := by rw [tcpOffset, hihl]
  refine (parsedCorrectly_iff_of_tcp htcp).mpr ⟨hwhole, ?_, ?_⟩
  · exact ⟨by rw [hoffset], by rw [hoffset], by rw [hoffset], by rw [hoffset], by rw [hoffset]⟩
  · simp only [SameLength, hoffset, hihl]
    exact ⟨hlength, .inl trivial⟩

/-- A frame is parsed as the grammar says exactly when it does not look like TCP, or it is whole
    and what stands at the fixed offsets is what stands at its own. -/
theorem parsedCorrectly_iff (mem : ByteMem) :
    ParsedCorrectly mem ↔
      ¬ LooksLikeTcp mem ∨ WholeIpv4 mem ∧ SameHeader mem ∧ SameLength mem := by
  by_cases htcp : LooksLikeTcp mem
  · rw [parsedCorrectly_iff_of_tcp htcp]
    simp only [htcp, not_true_eq_false, false_or]
  · have hnone : parseHeaders.value mem = none := by rw [value_parseHeaders, if_neg htcp]
    rw [ParsedCorrectly, hnone]
    refine ⟨fun _ => .inl htcp, fun _ => ⟨⟨?_, fun h => absurd h.2 htcp⟩, ?_⟩⟩
    · rintro ⟨call, hcall⟩
      cases hcall
    · intro call hcall
      cases hcall

/-! ### A frame with IP options -/

/-- A complete TCP segment from port 1000 to port 80 behind 4 bytes of IP options. -/
def optionsFrame : List UInt8 :=
  List.replicate 12 0xff ++ [0x08, 0x00] ++
    [0x46, 0, 0, 44, 0, 0, 0, 0, 64, 6, 0, 0, 10, 0, 0, 1, 10, 0, 0, 2, 1, 1, 1, 1] ++
    [3, 232, 0, 80, 0, 0, 0, 1, 0, 0, 0, 2, 0x50, 0x10, 255, 255, 0, 0, 0, 0]

/-- Its ports are read from the options. -/
theorem not_parsedCorrectly_options : ¬ ParsedCorrectly (ByteMem.ofList optionsFrame) := by
  intro h
  have hcarried := h.2 _ (value_parseHeaders_tcp (by decide))
  exact absurd (congrArg FlowKey.srcPort hcarried.key) (by decide)

/-! ## Bounds -/

/-- The frame is processed within its `dataLen` bytes, and no payload goes beyond them. -/
def ProcessedInside (s : FlowScheduler) (nowNs : UInt64) (mem : ByteMem) (dataLen : Nat) : Prop :=
  (∀ a ∈ (receiveFrame s nowNs).loads mem, a < dataLen) ∧
    ∀ call, parseHeaders.value mem = some call → call.payloadLen.toNat + 54 ≤ dataLen

theorem mem_loads_receiveFrame {s : FlowScheduler} {nowNs : UInt64} {mem : ByteMem} {a : Nat}
    (ha : a ∈ (receiveFrame s nowNs).loads mem) :
    a ∈ parseHeaders.loads mem ∨
      ∃ call, parseHeaders.value mem = some call ∧ call.tcpHdr + 4 ≤ a ∧ a < call.tcpHdr + 14 := by
  rw [receiveFrame, loads_bind] at ha
  cases List.mem_append.mp ha with
  | inl ha => exact .inl ha
  | inr ha =>
    cases hcall : parseHeaders.value mem with
    | none =>
      rw [hcall] at ha
      exact absurd ha List.not_mem_nil
    | some call =>
      rw [hcall] at ha
      exact .inr ⟨call, rfl, s.loads_handleTcpRxAt _ _ _ _ mem a ha⟩

theorem mem_loads_of_parseHeaders {s : FlowScheduler} {nowNs : UInt64} {mem : ByteMem} {a : Nat}
    (ha : a ∈ parseHeaders.loads mem) : a ∈ (receiveFrame s nowNs).loads mem := by
  rw [receiveFrame, loads_bind]
  exact List.mem_append_left _ ha

/-- What the bytes of a frame must be for it to be processed within them: the version byte is
    there; for IP version 4 the protocol number is there; for TCP the headers are there, and the
    IP length less 20, modulo `2^16`, exceeds the TCP header length by no more than the bytes
    behind the headers. -/
def HeadersPresent (mem : ByteMem) (dataLen : Nat) : Prop :=
  15 ≤ dataLen ∧ (mem 14 >>> 4 = 4 →
    24 ≤ dataLen ∧ (mem 23 = IPPROTO_TCP →
      54 ≤ dataLen ∧ ((ipTotalLength mem 14).toNat + 65516) % 65536 ≤
        tcpHdrLen mem 34 + (dataLen - 54)))

theorem processedInside_iff (s : FlowScheduler) (nowNs : UInt64) (mem : ByteMem)
    (dataLen : Nat) : ProcessedInside s nowNs mem dataLen ↔ HeadersPresent mem dataLen := by
  have hpayload := toNat_tcpPayloadLen mem
  constructor
  · rintro ⟨hloads, hcall⟩
    have hload : ∀ a, a ∈ parseHeaders.loads mem → a < dataLen := fun a ha =>
      hloads a (mem_loads_of_parseHeaders ha)
    rw [loads_parseHeaders] at hload
    refine ⟨hload 14 List.mem_cons_self, fun hversion => ?_⟩
    rw [if_pos hversion] at hload
    refine ⟨hload 23 (List.mem_cons_of_mem _ List.mem_cons_self), fun hproto => ?_⟩
    have hinside := hcall _ (value_parseHeaders_tcp ⟨hversion, hproto⟩)
    rw [show (tcpRxCall mem).payloadLen = tcpPayloadLen mem 14 34 from rfl, hpayload] at hinside
    omega
  · rintro ⟨hether, hip⟩
    have htcp : ∀ call, parseHeaders.value mem = some call →
        54 ≤ dataLen ∧ call.tcpHdr = 34 ∧ call.payloadLen.toNat + 54 ≤ dataLen := by
      intro call hcall
      rw [value_parseHeaders] at hcall
      split at hcall
      · next hlooks =>
        obtain ⟨hlen, htotal⟩ := (hip hlooks.1).2 hlooks.2
        rw [Option.some.injEq] at hcall
        rw [← hcall, show (tcpRxCall mem).payloadLen = tcpPayloadLen mem 14 34 from rfl, hpayload]
        exact ⟨hlen, rfl, by omega⟩
      · cases hcall
    refine ⟨fun a ha => ?_, fun call hcall => (htcp call hcall).2.2⟩
    rcases mem_loads_receiveFrame ha with hparse | ⟨call, hcall, -, hhdr⟩
    · rw [loads_parseHeaders] at hparse
      split at hparse
      · next hversion =>
        have hlen := (hip hversion).1
        split at hparse
        · next hproto =>
          have hlen := ((hip hversion).2 hproto).1
          simp only [List.mem_cons, List.not_mem_nil, or_false] at hparse
          omega
        · simp only [List.mem_cons, List.not_mem_nil, or_false] at hparse
          omega
      · simp only [List.mem_cons, List.not_mem_nil, or_false] at hparse
        omega
    · obtain ⟨hlen, hoffset, -⟩ := htcp call hcall
      omega

/-! ### A frame with a lying length -/

/-- A 60-byte TCP frame whose IP length is 10. -/
def shortLengthFrame : List UInt8 :=
  List.replicate 12 0xff ++ [0x08, 0x00] ++
    [0x45, 0, 0, 10, 0, 0, 0, 0, 64, 6, 0, 0, 10, 0, 0, 1, 10, 0, 0, 2] ++
    [3, 232, 0, 80, 0, 0, 0, 1, 0, 0, 0, 2, 0x50, 0x10, 255, 255, 0, 0, 0, 0] ++
    List.replicate 6 0

/-- The length wraps, and 65506 bytes of payload are reported. -/
theorem not_processedInside_shortLength :
    ¬ ProcessedInside (.new []) 0 (ByteMem.ofList shortLengthFrame) shortLengthFrame.length := by
  intro h
  exact absurd (h.2 _ (value_parseHeaders_tcp (by decide))) (by decide)

end TrafficGen.Worker
