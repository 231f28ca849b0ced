import Mathlib.Logic.Function.Basic

/-!
# Common types

`core/common/types.hpp`: the 5-tuple of a flow and the packet template built from
it. IP addresses are kept in network byte order, ports in host order.
-/

namespace TrafficGen

/-- 5-tuple flow key. -/
structure FlowKey where
  srcIp : UInt32
  dstIp : UInt32
  srcPort : UInt16
  dstPort : UInt16
  protocol : UInt8
deriving DecidableEq, Repr

/-- The key of the opposite direction: addresses and ports swapped. -/
def FlowKey.reverse (k : FlowKey) : FlowKey :=
  { k with srcIp := k.dstIp, dstIp := k.srcIp, srcPort := k.dstPort, dstPort := k.srcPort }

theorem FlowKey.reverse_involutive : Function.Involutive FlowKey.reverse :=
  fun _ => rfl

/-- Packet template for building packets. `data` holds `totalSize` bytes, of which
    the first `payloadOffset` are headers. -/
structure PacketTemplate where
  flowKey : FlowKey
  totalSize : UInt32
  payloadOffset : UInt32
  data : List UInt8
deriving DecidableEq, Repr

/-- A default-constructed template. -/
def PacketTemplate.empty : PacketTemplate where
  flowKey := ⟨0, 0, 0, 0, 0⟩
  totalSize := 0
  payloadOffset := 0
  data := []

/-! ## Protocol numbers and header sizes -/

def IPPROTO_ICMP : UInt8 := 1
def IPPROTO_TCP : UInt8 := 6
def IPPROTO_UDP : UInt8 := 17

/-- `sizeof(rte_ether_hdr)` -/
def etherHdrSize : Nat := 14

/-- `sizeof(rte_ipv4_hdr)` -/
def ipv4HdrSize : Nat := 20

/-- `sizeof(rte_tcp_hdr)` -/
def tcpHdrSize : Nat := 20

/-- `sizeof(rte_udp_hdr)` -/
def udpHdrSize : Nat := 8

/-- The ICMP echo header, written out byte by byte in the builder. -/
def icmpHdrSize : Nat := 8

end TrafficGen
