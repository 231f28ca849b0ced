import TrafficGen.Core.Worker
import TrafficGen.ForStd.ReadTrace

/-!
# Receive path

The receive side of `core/worker/worker.cpp`: `process_received_packets` finds the headers of a
frame and hands TCP segments to `handle_tcp_rx`. Code that looks at the bytes of a frame is
a `ByteMem.Read`, so that the addresses it touches are known. Address `0` is the start of
the frame. What the NIC received and the clock reads are arguments.
-/

namespace TrafficGen

open ByteMem (Read)
open ByteMem.Read (load8 load16 load32)

/-! ## Received segments, from the frame -/

namespace TCPConnectionState

/-- The flags of `TCPConnectionState.receive`, each field loaded where the code reads it. -/
def receiveFlagsAt (conn : TCPConnectionState) (tcp : Nat) (flags : UInt8) (nowNs : UInt64) :
    Read TCPConnectionState :=
  if flags &&& (RTE_TCP_SYN_FLAG ||| RTE_TCP_ACK_FLAG) =
      RTE_TCP_SYN_FLAG ||| RTE_TCP_ACK_FLAG then do
    let sentSeq ← load32 (tcp + 4)
    let recvAck ← load32 (tcp + 8)
    let conn := { conn with recvSeq := rteBeToCpu32 sentSeq, recvAck := rteBeToCpu32 recvAck }
    pure (conn.processEvent .recvSynAck nowNs).2
  else do
    let conn ← (if flags &&& RTE_TCP_ACK_FLAG ≠ 0 then do
        let recvAck ← load32 (tcp + 8)
        pure ({ conn with recvAck := rteBeToCpu32 recvAck }.processEvent .recvAck nowNs).2
      else pure conn)
    if flags &&& RTE_TCP_FIN_FLAG ≠ 0 then do
      let sentSeq ← load32 (tcp + 4)
      pure ({ conn with recvSeq := rteBeToCpu32 sentSeq }.processEvent .recvFin nowNs).2
    else pure conn

/-- `TCPConnectionState.receive` on the header at `tcp`. -/
def receiveAt (conn : TCPConnectionState) (tcp : Nat) (payloadLen : UInt32) (nowNs : UInt64) :
    Read TCPConnectionState := do
  let flags ← load8 (tcp + 13)
  let conn ← conn.receiveFlagsAt tcp flags nowNs
  if payloadLen > 0 then do
    let sentSeq ← load32 (tcp + 4)
    pure { conn with recvSeq := rteBeToCpu32 sentSeq + payloadLen }
  else pure conn

end TCPConnectionState

/-- `FlowScheduler.handleTcpRx` on the header at `tcp`. A segment of no stateful flow is not
    looked at. -/
def FlowScheduler.handleTcpRxAt (s : FlowScheduler) (key : FlowKey) (tcp : Nat)
    (payloadLen : UInt32) (nowNs : UInt64) : Read FlowScheduler :=
  match s.flowLookup.lookup key with
  | none => pure s
  | some id =>
    match s.getFlow id with
    | none => pure s
    | some flow =>
      if flow.stateless ∨ flow.protocol ≠ "tcp" then pure s
      else
        match flow.tcpState with
        | none => pure s
        | some conn => do
          let conn ← conn.receiveAt tcp payloadLen nowNs
          pure (s.setFlow id { flow with tcpState := some conn })

/-! ## Received frames -/

/-- A frame off the wire, in an mbuf that the driver of the NIC took from the pool. -/
structure RxFrame where
  mbuf : MbufId
  dataLen : UInt16
  pktLen : UInt32
  data : ByteMem

/-- The mbuf with the frame in it. Drivers do not write registered dynamic fields. -/
def RxFrame.fill (frame : RxFrame) (mb : Mbuf) : Mbuf :=
  { mb.reset with dataLen := frame.dataLen, pktLen := frame.pktLen, data := frame.data }

namespace Worker

/-! ## Header code -/

/-- The arguments of a call to `handle_tcp_rx`: the header is where `tcpHdr` points. -/
structure TcpRxCall where
  key : FlowKey
  tcpHdr : Nat
  payloadLen : UInt32
deriving DecidableEq, Repr

/-- The call `process_received_packets` makes for a TCP frame, its headers at `ip` and `tcp`. -/
def parseTcp (ip tcp : Nat) : Read TcpRxCall := do
  let totalLength ← load16 (ip + 2)
  let dataOff ← load8 (tcp + 12)
  let l4Len : UInt16 := rteBeToCpu16 totalLength - UInt16.ofNat ipv4HdrSize
  let tcpHdrLen : UInt16 := (dataOff >>> 4).toUInt16 * 4
  let payloadLen : UInt32 := if l4Len > tcpHdrLen then (l4Len - tcpHdrLen).toUInt32 else 0
  let srcAddr ← load32 (ip + 12)
  let dstAddr ← load32 (ip + 16)
  let srcPort ← load16 tcp
  let dstPort ← load16 (tcp + 2)
  -- addresses stay in network byte order, ports do not
  let key : FlowKey :=
    ⟨srcAddr, dstAddr, rteBeToCpu16 srcPort, rteBeToCpu16 dstPort, IPPROTO_TCP⟩
  pure { key, tcpHdr := tcp, payloadLen }

/-- The header code of `process_received_packets`: the call to `handle_tcp_rx`, if it makes
    one. The Ethernet header is not looked at, nor the length of the frame. -/
def parseHeaders : Read (Option TcpRxCall) := do
  let ip := etherHdrSize
  let versionIhl ← load8 ip
  if versionIhl >>> 4 = 4 then do
    let nextProtoId ← load8 (ip + 9)
    if nextProtoId = IPPROTO_TCP then do
      -- the IHL is ignored
      let call ← parseTcp ip (ip + ipv4HdrSize)
      pure (some call)
    else pure none
  else pure none

/-- Everything `process_received_packets` does with the bytes of one frame. -/
def receiveFrame (s : FlowScheduler) (nowNs : UInt64) : Read FlowScheduler := do
  match ← parseHeaders with
  | none => pure s
  | some call => s.handleTcpRxAt call.key call.tcpHdr call.payloadLen nowNs

/-! ## Bursts -/

/-- `rte_eth_rx_burst`: the driver has put the frames in mbufs of the pool of its queue. -/
def rteEthRxBurst (heap : Heap) (frames : List RxFrame) : Heap :=
  frames.foldl (fun heap frame => heap.set frame.mbuf (frame.fill (heap frame.mbuf))) heap

/-- Receive burst of packets: the mbufs handed over. What does not fit the burst stays in the
    queue. -/
def receiveBurst (cfg : WorkerConfig) (heap : Heap) (frames : List RxFrame) :
    Heap × List MbufId :=
  let received := frames.take cfg.rxBurstSize.toNat
  (rteEthRxBurst heap received, received.map (·.mbuf))

/-- The latency sample of a received mbuf, from the send time in its timestamp field. -/
def recordRxLatency (cfg : WorkerConfig) (metrics : MetricsCollector) (mb : Mbuf)
    (nowNs : UInt64) : MetricsCollector :=
  if cfg.timestampDynfieldOffset ≠ -1 then
    if mb.timestamp ≠ 0 ∧ nowNs > mb.timestamp then
      metrics.recordLatency (nowNs - mb.timestamp)
    else metrics
  else metrics

/-- Process a burst of received mbufs, null ones skipped. `nowNs` is the clock read of the
    burst and `eventNs` that of each segment. Every mbuf is freed. -/
def processReceivedPackets (cfg : WorkerConfig) (sys : System) (nowNs : UInt64)
    (eventNs : Nat → UInt64) (mbufs : List (Option Mbuf)) : System :=
  if mbufs.length = 0 then sys
  else
    let received := mbufs.reduceOption
    let metrics := received.foldl (fun c mb => recordRxLatency cfg c mb nowNs) sys.metricsCollector
    let scheduler := received.zipIdx.foldl
      (fun s (mb, i) => (receiveFrame s (eventNs i)).value mb.data) sys.scheduler
    let totalBytes := received.foldl (fun total mb => total + mb.pktLen.toUInt64) 0
    -- the count is that of the burst, null mbufs included
    let metrics :=
      if totalBytes > 0 then
        metrics.updateRxStats cfg.coreId (UInt64.ofNat mbufs.length) totalBytes
      else metrics
    { sys with scheduler := scheduler, metricsCollector := metrics }

/-- The receive part of one round of `worker_loop`, with the frames that wait in the RX queue. -/
def receiveRound (cfg : WorkerConfig) (sys : System) (frames : List RxFrame) (nowNs : UInt64)
    (eventNs : Nat → UInt64) : System :=
  if cfg.enableRx then
    let (heap, mbufs) := receiveBurst cfg sys.heap frames
    -- an empty burst is not processed, which would change nothing
    processReceivedPackets cfg { sys with heap := heap } nowNs eventNs
      (mbufs.map fun m => some (heap m))
  else sys

end Worker

end TrafficGen
