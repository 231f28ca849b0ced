import TrafficGen.Core.Mbuf

/-!
# Packet builder

`core/packet/packet_builder.cpp`: the template of a flow, an Ethernet, IPv4 and
TCP/UDP/ICMP header followed by a zero payload. Headers are written into a
byte memory whose address `0` is the start of the frame.
-/

namespace TrafficGen

/-! ## MAC addresses

`mac_to_bytes` reads a MAC address with `sscanf`. A `%02x` conversion skips white
space and takes at most two characters: two hex digits, one hex digit, or a sign and
a digit. A lone sign does not match. `0x` fills the field before there is a digit: some C
libraries read it as zero and others do not match it, so `lone0x` is an argument. -/

/-- `isspace` in the C locale. -/
def isSpace (c : Char) : Bool :=
  c == ' ' || (9 ≤ c.toNat && c.toNat ≤ 13)

/-- The value of a hex digit, either letter case. -/
def hexDigit? (c : Char) : Option UInt8 :=
  if '0' ≤ c ∧ c ≤ '9' then some (UInt8.ofNat (c.toNat - 48))
  else if 'a' ≤ c ∧ c ≤ 'f' then some (UInt8.ofNat (c.toNat - 87))
  else if 'A' ≤ c ∧ c ≤ 'F' then some (UInt8.ofNat (c.toNat - 55))
  else none

/-- One `%02x` conversion, cut to a byte, and the input left after it. -/
def scanHexByte (lone0x : Bool) (input : List Char) : Option (UInt8 × List Char) :=
  match input.dropWhile isSpace with
  | [] => none
  | [c] => (hexDigit? c).map fun v => (v, [])
  | c :: c' :: rest =>
    if c = '+' then (hexDigit? c').map fun v => (v, rest)
    else if c = '-' then (hexDigit? c').map fun v => (0 - v, rest)
    else
      -- a second character that is no digit stays in the input
      match hexDigit? c, hexDigit? c' with
      | none, _ => none
      | some hi, some lo => some (hi * 16 + lo, rest)
      | some hi, none =>
        if c = '0' ∧ (c' = 'x' ∨ c' = 'X') then if lone0x then some (0, rest) else none
        else some (hi, c' :: rest)

/-- `n` conversions with the characters `sep` between them. -/
def scanMac (lone0x : Bool) (sep : List Char) : Nat → List Char → Option (List UInt8)
  | 0, _ => some []
  | 1, input => (scanHexByte lone0x input).map fun (b, _) => [b]
  | n + 2, input =>
    match scanHexByte lone0x input with
    | none => none
    | some (b, rest) =>
      if sep.isPrefixOf rest then
        (scanMac lone0x sep (n + 1) (rest.drop sep.length)).map (b :: ·)
      else none

/-- Convert MAC string to bytes: with colons, then without. -/
def macToBytes (lone0x : Bool) (mac : String) : Bool × List UInt8 :=
  let chars := mac.toList.takeWhile (· ≠ '\x00')
  if mac.isEmpty then (true, List.replicate 6 0)
  else
    match scanMac lone0x [':'] 6 chars with
    | some bytes => (true, bytes)
    | none =>
      match scanMac lone0x [] 6 chars with
      | some bytes => (true, bytes)
      | none => (false, List.replicate 6 0)

/-- One hex digit, upper case. -/
def upperHex (n : Nat) : Char :=
  Char.ofNat (if n < 10 then 48 + n else 55 + n)

/-- `%02X:%02X:...`, as `add_flow` prints the source MAC. -/
def formatMac (bytes : List UInt8) : String :=
  String.ofList (List.intercalate [':']
    (bytes.map fun b => [upperHex (b.toNat / 16), upperHex (b.toNat % 16)]))

/-! ## Headers -/

/-- Build Ethernet header. -/
def buildEthernetHeader (d : Dpdk) (mem : ByteMem) (eth : Nat) (srcMac dstMac : String)
    (etherType : UInt16) : ByteMem :=
  let mem := mem.copy eth (macToBytes d.lone0x dstMac).2
  let mem := mem.copy (eth + 6) (macToBytes d.lone0x srcMac).2
  mem.store16 (eth + 12) (rteCpuToBe16 etherType)

/-- Build IP header. The addresses are stored as they are, in network byte order. -/
def buildIpHeader (mem : ByteMem) (ip : Nat) (srcIp dstIp : UInt32) (protocol : UInt8)
    (totalLen : UInt16) : ByteMem :=
  let mem := mem.store8 ip 0x45                            -- version_ihl
  let mem := mem.store8 (ip + 1) 0                         -- type_of_service
  let mem := mem.store16 (ip + 2) (rteCpuToBe16 totalLen)  -- total_length
  let mem := mem.store16 (ip + 4) 0                        -- packet_id
  let mem := mem.store16 (ip + 6) 0                        -- fragment_offset
  let mem := mem.store8 (ip + 8) 64                        -- time_to_live
  let mem := mem.store8 (ip + 9) protocol                  -- next_proto_id
  let mem := mem.store32 (ip + 12) srcIp                   -- src_addr
  let mem := mem.store32 (ip + 16) dstIp                   -- dst_addr
  mem.store16 (ip + 10) 0                                  -- hdr_checksum

/-- Build TCP header. -/
def buildTcpHeader (mem : ByteMem) (tcp : Nat) (srcPort dstPort : UInt16)
    (seqNum ackNum : UInt32) : ByteMem :=
  let mem := mem.store16 tcp (rteCpuToBe16 srcPort)
  let mem := mem.store16 (tcp + 2) (rteCpuToBe16 dstPort)
  let mem := mem.store32 (tcp + 4) (rteCpuToBe32 seqNum)
  let mem := mem.store32 (tcp + 8) (rteCpuToBe32 ackNum)
  let mem := mem.store8 (tcp + 12) 0x50                    -- data_off
  let mem := mem.store8 (tcp + 13) 0                       -- tcp_flags
  let mem := mem.store16 (tcp + 14) 0                      -- rx_win
  let mem := mem.store16 (tcp + 18) 0                      -- tcp_urp
  mem.store16 (tcp + 16) 0                                 -- cksum

/-- Build UDP header. -/
def buildUdpHeader (mem : ByteMem) (udp : Nat) (srcPort dstPort : UInt16)
    (length : UInt16) : ByteMem :=
  let mem := mem.store16 udp (rteCpuToBe16 srcPort)
  let mem := mem.store16 (udp + 2) (rteCpuToBe16 dstPort)
  let mem := mem.store16 (udp + 4) (rteCpuToBe16 length)   -- dgram_len
  mem.store16 (udp + 6) 0                                  -- dgram_cksum

/-- The ICMP echo request header, its checksum left zero. -/
def buildIcmpHeader (mem : ByteMem) (icmp : Nat) : ByteMem :=
  let mem := mem.store8 icmp 8
  let mem := mem.store8 (icmp + 1) 0
  let mem := mem.store16 (icmp + 2) 0
  let mem := mem.store16 (icmp + 4) 0
  mem.store16 (icmp + 6) 0

/-! ## Templates -/

/-- The transport header size of a supported protocol. -/
def transportHeaderSize (protocol : String) : Option Nat :=
  if protocol = "tcp" then some tcpHdrSize
  else if protocol = "udp" then some udpHdrSize
  else if protocol = "icmp" then some icmpHdrSize
  else none

/-- The protocol number of a supported protocol. -/
def ipProtocol (protocol : String) : UInt8 :=
  if protocol = "tcp" then IPPROTO_TCP
  else if protocol = "udp" then IPPROTO_UDP
  else if protocol = "icmp" then IPPROTO_ICMP
  else 0

/-- `std::vector::resize`: new elements are zero, old ones keep their values. -/
def resize (data : List UInt8) (n : Nat) : List UInt8 :=
  data.take n ++ List.replicate (n - data.length) 0

/-- The transport header of a template, with the checksum of the bytes so far. -/
def buildTransportHeader (d : Dpdk) (mem : ByteMem) (ip l4 : Nat) (protocol : String)
    (key : FlowKey) (l4Len : Nat) : ByteMem :=
  if protocol = "tcp" then
    let mem := buildTcpHeader mem l4 key.srcPort key.dstPort 0 0
    mem.store16 (l4 + 16) (d.ipv4UdptcpCksum mem ip l4)
  else if protocol = "udp" then
    let mem := buildUdpHeader mem l4 key.srcPort key.dstPort (UInt16.ofNat l4Len)
    mem.store16 (l4 + 6) (d.ipv4UdptcpCksum mem ip l4)
  else buildIcmpHeader mem l4

/-- `set_default_macs` on one address. -/
def defaultMac (mac fallback : String) : String :=
  if mac.isEmpty then fallback else mac

/-- The bytes of a template: every header, the zero payload, and the IP checksum last. -/
def templateBytes (d : Dpdk) (old : List UInt8) (key : FlowKey) (packetSize : UInt32)
    (protocol srcMac dstMac : String) (headerSize : Nat) : ByteMem :=
  let payloadSize := packetSize.toNat - headerSize
  let ip := etherHdrSize
  let l4 := etherHdrSize + ipv4HdrSize
  -- bytes no header covers keep what the vector held
  let mem := ByteMem.ofList (resize old packetSize.toNat)
  let mem := buildEthernetHeader d mem 0 (defaultMac srcMac "00:01:02:03:04:05")
    (defaultMac dstMac "00:06:07:08:09:0A") 0x0800
  let mem := buildIpHeader mem ip key.srcIp key.dstIp (ipProtocol protocol)
    (packetSize - UInt32.ofNat etherHdrSize).toUInt16
  -- the L4 checksum is taken before the payload is filled
  let mem := buildTransportHeader d mem ip l4 protocol key (headerSize - l4 + payloadSize)
  let mem := if payloadSize > 0 then mem.fill headerSize payloadSize 0 else mem
  let mem := mem.store16 (ip + 10) 0
  mem.store16 (ip + 10) (d.ipv4Cksum mem ip)

/-- Build packet template from flow configuration. `old` is what `template_out` held; a
    rejected request gives nothing, its one caller drops the half-written template. -/
def buildTemplate (d : Dpdk) (old : PacketTemplate) (key : FlowKey) (packetSize : UInt32)
    (protocol srcMac dstMac : String) : Option PacketTemplate :=
  match transportHeaderSize protocol with
  | none => none                                   -- unsupported protocol
  | some transport =>
    let headerSize := etherHdrSize + ipv4HdrSize + transport
    if packetSize.toNat < headerSize then none     -- packet size too small
    else
      let mem := templateBytes d old.data key packetSize protocol srcMac dstMac headerSize
      some { flowKey := key
             totalSize := packetSize
             payloadOffset := UInt32.ofNat headerSize
             data := mem.bytes 0 packetSize.toNat }

end TrafficGen
