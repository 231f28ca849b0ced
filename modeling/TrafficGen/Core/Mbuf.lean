import TrafficGen.ForStd.ByteMem
import TrafficGen.ForStd.OnesComplement
import TrafficGen.Core.Types
import TrafficGen.Core.TcpState

/-!
# Packet buffers and the DPDK calls on them

An mbuf's bytes are addressed from the start of its data. Memory past the end of the
buffer is idealised: a store there lands in bytes no other buffer sees, and `extent`
remembers how far the copies and fills went.

DPDK itself is a parameter: `Dpdk` holds the library calls the packet code makes,
each with what its documentation promises.
-/

namespace TrafficGen

open ByteMem (swap16 swap32)

/-- The pointer by which a pool hands out an mbuf. -/
abbrev MbufId := Nat

/-- `rte_mbuf` of one segment. -/
structure Mbuf where
  /-- Bytes from the start of the data to the end of the buffer. -/
  room : UInt16
  dataLen : UInt16
  pktLen : UInt32
  data : ByteMem
  /-- The registered timestamp dynamic field. -/
  timestamp : UInt64
  /-- End of the furthest byte copied or zeroed since the mbuf was handed out. -/
  extent : Nat

namespace Mbuf

/-- `rte_pktmbuf_tailroom` -/
def tailroom (m : Mbuf) : Nat := m.room.toNat - m.dataLen.toNat

/-- An mbuf as an allocation returns it: lengths reset, contents and dynamic fields kept. -/
def reset (m : Mbuf) : Mbuf :=
  { m with dataLen := 0, pktLen := 0, extent := 0 }

/-- A freshly allocated mbuf holds no bytes. -/
def Fresh (m : Mbuf) : Prop := m.dataLen = 0 ∧ m.pktLen = 0 ∧ m.extent = 0

theorem fresh_reset (m : Mbuf) : m.reset.Fresh := ⟨rfl, rfl, rfl⟩

/-- `memcpy` into the data. -/
def memcpy (m : Mbuf) (off : Nat) (bytes : List UInt8) : Mbuf :=
  { m with data := m.data.copy off bytes, extent := max m.extent (off + bytes.length) }

/-- `memset` on the data. -/
def memset (m : Mbuf) (off : Nat) (v : UInt8) (len : Nat) : Mbuf :=
  { m with data := m.data.fill off len v, extent := max m.extent (off + len) }

/-- The bytes of the packet. -/
def frame (m : Mbuf) : List UInt8 := m.data.bytes 0 m.pktLen.toNat

end Mbuf

/-! ## Byte order -/

/-- `rte_cpu_to_be_16` on a little-endian host. -/
def rteCpuToBe16 (v : UInt16) : UInt16 := swap16 v

/-- `rte_be_to_cpu_16` on a little-endian host. -/
def rteBeToCpu16 (v : UInt16) : UInt16 := swap16 v

/-- `rte_cpu_to_be_32` on a little-endian host. -/
def rteCpuToBe32 (v : UInt32) : UInt32 := swap32 v

@[simp] theorem rteBeToCpu16_rteCpuToBe16 (v : UInt16) : rteBeToCpu16 (rteCpuToBe16 v) = v :=
  ByteMem.swap16_swap16 v

@[simp] theorem rteBeToCpu32_rteCpuToBe32 (v : UInt32) : rteBeToCpu32 (rteCpuToBe32 v) = v :=
  ByteMem.swap32_swap32 v

/-! ## Header fields -/

/-- The header length the IHL field gives, in bytes. -/
def ipHdrLen (mem : ByteMem) (ip : Nat) : Nat := (mem ip &&& 0x0f).toNat * 4

/-- `total_length`, in host order. -/
def ipTotalLength (mem : ByteMem) (ip : Nat) : UInt16 := rteBeToCpu16 (mem.load16 (ip + 2))

/-- `next_proto_id` -/
def ipNextProtoId (mem : ByteMem) (ip : Nat) : UInt8 := mem (ip + 9)

/-- `rte_tcp_hdr` at an address, field by field. -/
def RteTcpHdr.load (mem : ByteMem) (tcp : Nat) : RteTcpHdr where
  srcPort := mem.load16 tcp
  dstPort := mem.load16 (tcp + 2)
  sentSeq := mem.load32 (tcp + 4)
  recvAck := mem.load32 (tcp + 8)
  dataOff := mem (tcp + 12)
  tcpFlags := mem (tcp + 13)
  rxWin := mem.load16 (tcp + 14)
  cksum := mem.load16 (tcp + 16)
  tcpUrp := mem.load16 (tcp + 18)

/-- The TCP payload length both directions compute from the headers: `uint16_t` lengths, the
    payload taken as zero when the IP length leaves none. -/
def tcpPayloadLen (mem : ByteMem) (ip tcp : Nat) : UInt32 :=
  -- a header without options is assumed, whatever the IHL says
  let l4Len : UInt16 := ipTotalLength mem ip - UInt16.ofNat ipv4HdrSize
  let tcpHdrLen : UInt16 := (mem (tcp + 12) >>> 4).toUInt16 * 4
  if l4Len > tcpHdrLen then (l4Len - tcpHdrLen).toUInt32 else 0

/-! ## Checksums over headers in memory -/

/-- The IPv4 pseudo-header of a TCP or UDP segment of `l4Len` bytes. -/
def pseudoHeader (mem : ByteMem) (ip : Nat) (l4Len : UInt16) : List UInt8 :=
  mem.bytes (ip + 12) 8 ++ [0, ipNextProtoId mem ip, (l4Len >>> 8).toUInt8, l4Len.toUInt8]

/-- The length of the L4 segment, from `total_length`. -/
def l4Length (mem : ByteMem) (ip : Nat) : Nat := (ipTotalLength mem ip).toNat - ipHdrLen mem ip

/-- The checksum of the segment at `l4` under its pseudo-header, UDP sending `0` as `0xFFFF`. -/
def l4Checksum (mem : ByteMem) (ip l4 : Nat) : UInt16 :=
  let c := OnesComplement.checksum
    (pseudoHeader mem ip (UInt16.ofNat (l4Length mem ip)) ++ mem.bytes l4 (l4Length mem ip))
  if c = 0 ∧ ipNextProtoId mem ip = IPPROTO_UDP then 0xFFFF else c

/-- The DPDK calls made on packets, with their documented behaviour, and what C libraries do not
    agree on. -/
structure Dpdk where
  /-- `rte_pktmbuf_append`: the mbuf with the tail added, or null. -/
  pktmbufAppend : Mbuf → UInt16 → Option Mbuf
  /-- `rte_pktmbuf_trim` -/
  pktmbufTrim : Mbuf → UInt16 → Mbuf
  /-- `rte_ipv4_cksum`, in network byte order. -/
  ipv4Cksum : ByteMem → Nat → UInt16
  /-- `rte_ipv4_udptcp_cksum`, in network byte order. -/
  ipv4UdptcpCksum : ByteMem → Nat → Nat → UInt16
  /-- Whether the `%02x` of `sscanf` reads a `0x`, which leaves no room for a digit, as zero. -/
  lone0x : Bool
  /-- Appending fails beyond the tailroom and otherwise extends both lengths. -/
  append_eq : ∀ m len, pktmbufAppend m len =
    if m.tailroom < len.toNat then none
    else some { m with dataLen := m.dataLen + len, pktLen := m.pktLen + len.toUInt32 }
  /-- Trimming more than there is does nothing. -/
  trim_eq : ∀ m len, pktmbufTrim m len =
    if m.dataLen < len then m
    else { m with dataLen := m.dataLen - len, pktLen := m.pktLen - len.toUInt32 }
  /-- The RFC 1071 checksum of the IPv4 header as it stands. -/
  ipv4Cksum_eq : ∀ mem ip, ipv4Cksum mem ip =
    rteCpuToBe16 (OnesComplement.checksum (mem.bytes ip (ipHdrLen mem ip)))
  /-- The RFC 1071 checksum of the pseudo-header and segment as they stand. -/
  ipv4UdptcpCksum_eq : ∀ mem ip l4, ipHdrLen mem ip ≤ (ipTotalLength mem ip).toNat →
    ipv4UdptcpCksum mem ip l4 = rteCpuToBe16 (l4Checksum mem ip l4)

/-- An implementation of the calls, by their documentation. -/
def Dpdk.reference : Dpdk where
  pktmbufAppend m len :=
    if m.tailroom < len.toNat then none
    else some { m with dataLen := m.dataLen + len, pktLen := m.pktLen + len.toUInt32 }
  pktmbufTrim m len :=
    if m.dataLen < len then m
    else { m with dataLen := m.dataLen - len, pktLen := m.pktLen - len.toUInt32 }
  ipv4Cksum mem ip := rteCpuToBe16 (OnesComplement.checksum (mem.bytes ip (ipHdrLen mem ip)))
  ipv4UdptcpCksum mem ip l4 :=
    if ipHdrLen mem ip ≤ (ipTotalLength mem ip).toNat then rteCpuToBe16 (l4Checksum mem ip l4)
    else 0
  lone0x := true
  append_eq _ _ := rfl
  trim_eq _ _ := rfl
  ipv4Cksum_eq _ _ := rfl
  ipv4UdptcpCksum_eq _ _ _ h := if_pos h

end TrafficGen
