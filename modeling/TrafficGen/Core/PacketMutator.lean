import TrafficGen.Core.Mbuf

/-!
# Packet mutator

`core/packet/packet_mutator.cpp`: a template is copied into an mbuf, its payload
zeroed, and the header fields that change from packet to packet are rewritten.
The random numbers come from a generator of the C++ standard library, which is a
parameter.
-/

namespace TrafficGen

/-- A seeded generator and the two distributions drawn from it. -/
structure Rng where
  State : Type
  seed : UInt64 → State
  /-- `uniform_int_distribution<uint16_t>(1, 65535)` -/
  ipId : State → UInt16 × State
  /-- `uniform_int_distribution<uint32_t>(1, UINT32_MAX)` -/
  seq : State → UInt32 × State

/-- Packet mutator for modifying packet templates on the fly. A mutator is built seeded, so
    the seeding on first use of the generator functions has no counterpart. -/
structure PacketMutator (r : Rng) where
  rng : r.State

namespace PacketMutator

variable {r : Rng}

/-- Initialize RNG with a seed; seed `0` stands for the current time. -/
def initializeRng (r : Rng) (seed time : UInt64) : PacketMutator r where
  rng := r.seed (if seed = 0 then time else seed)

def generateIpId (p : PacketMutator r) : UInt16 × PacketMutator r :=
  ((r.ipId p.rng).1, { p with rng := (r.ipId p.rng).2 })

def generateSequenceNumber (p : PacketMutator r) : UInt32 × PacketMutator r :=
  ((r.seq p.rng).1, { p with rng := (r.seq p.rng).2 })

/-! ## Header fields -/

def mutateIpId (mem : ByteMem) (ip : Nat) (id : UInt16) : ByteMem :=
  mem.store16 (ip + 4) (rteCpuToBe16 id)

def mutateTcpSeq (mem : ByteMem) (tcp : Nat) (seqNum : UInt32) : ByteMem :=
  mem.store32 (tcp + 4) (rteCpuToBe32 seqNum)

def mutateTcpAck (mem : ByteMem) (tcp : Nat) (ackNum : UInt32) : ByteMem :=
  mem.store32 (tcp + 8) (rteCpuToBe32 ackNum)

def mutateTcpFlags (mem : ByteMem) (tcp : Nat) (flags : UInt8) : ByteMem :=
  mem.store8 (tcp + 13) flags

/-! ## Checksum recalculation -/

def recalculateIpChecksum (d : Dpdk) (mem : ByteMem) (ip : Nat) : ByteMem :=
  let mem := mem.store16 (ip + 10) 0
  mem.store16 (ip + 10) (d.ipv4Cksum mem ip)

/-- The L4 checksum field at `field` is zeroed and then holds the checksum of the segment
    at `l4`. -/
def recalculateL4Checksum (d : Dpdk) (mem : ByteMem) (ip l4 field : Nat) : ByteMem :=
  let mem := mem.store16 field 0
  mem.store16 field (d.ipv4UdptcpCksum mem ip l4)

def recalculateTcpChecksum (d : Dpdk) (mem : ByteMem) (ip tcp : Nat) : ByteMem :=
  recalculateL4Checksum d mem ip tcp (tcp + 16)

def recalculateUdpChecksum (d : Dpdk) (mem : ByteMem) (ip udp : Nat) : ByteMem :=
  recalculateL4Checksum d mem ip udp (udp + 6)

/-! ## Cloning -/

/-- Grow or shrink the mbuf to `finalSize`. Both calls take a 16-bit length, so the
    difference is cut to 16 bits. -/
def fitLength (d : Dpdk) (m : Mbuf) (finalSize : UInt32) : Option Mbuf :=
  if m.pktLen < finalSize then d.pktmbufAppend m (finalSize - m.pktLen).toUInt16
  else if finalSize < m.pktLen then some (d.pktmbufTrim m (m.pktLen - finalSize).toUInt16)
  else some m

/-- Copy the headers, zero the payload and set both lengths. The payload size is a `size_t`,
    so it wraps at 64 bits. -/
def fillFrame (m : Mbuf) (t : PacketTemplate) : Mbuf :=
  let headerSize := t.payloadOffset
  let m := m.memcpy 0 (t.data.take headerSize.toNat)
  let payloadSize := t.totalSize.toUInt64 - headerSize.toUInt64
  -- the fill goes by the full 32-bit size, not by the length appended
  let m := if payloadSize > 0 then m.memset headerSize.toNat 0 payloadSize.toNat else m
  { m with pktLen := t.totalSize, dataLen := t.totalSize.toUInt16 }

/-- Rewrite the length, IP id, sequence number and datagram length fields. -/
def mutateFields (p : PacketMutator r) (mem : ByteMem) (finalSize sequenceNumber : UInt32) :
    ByteMem × PacketMutator r :=
  let ip := etherHdrSize
  let l4 := etherHdrSize + ipv4HdrSize
  let mem := mem.store16 (ip + 2)
    (rteCpuToBe16 (finalSize - UInt32.ofNat etherHdrSize).toUInt16)
  let (id, p) := p.generateIpId
  let mem := mutateIpId mem ip id
  if ipNextProtoId mem ip = IPPROTO_TCP then
    if sequenceNumber > 0 then (mutateTcpSeq mem l4 sequenceNumber, p)
    else
      let (seqNum, p) := p.generateSequenceNumber
      (mutateTcpSeq mem l4 seqNum, p)
  else if ipNextProtoId mem ip = IPPROTO_UDP then
    (mem.store16 (l4 + 4)
      (rteCpuToBe16 (finalSize - UInt32.ofNat etherHdrSize - UInt32.ofNat ipv4HdrSize).toUInt16),
      p)
  else (mem, p)

/-- Recompute the IP checksum and, for TCP and UDP, the L4 checksum. -/
def recalculateChecksums (d : Dpdk) (mem : ByteMem) : ByteMem :=
  let ip := etherHdrSize
  let l4 := etherHdrSize + ipv4HdrSize
  let mem := recalculateIpChecksum d mem ip
  if ipNextProtoId mem ip = IPPROTO_TCP then recalculateTcpChecksum d mem ip l4
  else if ipNextProtoId mem ip = IPPROTO_UDP then recalculateUdpChecksum d mem ip l4
  else mem

/-- Clone a template into an mbuf and apply mutations. Returns whether it succeeded, the
    mbuf and the mutator; a failure after the length was fitted leaves the mbuf longer. -/
def cloneAndMutate (d : Dpdk) (p : PacketMutator r) (m : Mbuf) (t : PacketTemplate)
    (sequenceNumber : UInt32) (updateChecksums : Bool) : Bool × Mbuf × PacketMutator r :=
  if t.data.isEmpty then (false, m, p)
  else
    -- on a trim the answer of the library is not looked at
    match fitLength d m t.totalSize with
    | none => (false, m, p)
    | some m =>
      if t.data.length < t.payloadOffset.toNat then (false, m, p)
      else
        let m := fillFrame m t
        let (mem, p) := mutateFields p m.data t.totalSize sequenceNumber
        let mem := if updateChecksums then recalculateChecksums d mem else mem
        (true, { m with data := mem }, p)

end PacketMutator

end TrafficGen
