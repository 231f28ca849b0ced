import TrafficGen.ForStd.ByteMem

/-!
# TCP connection state

`core/stateful/tcp_state.hpp`, `tcp_state.cpp` and the part of
`FlowScheduler::handle_tcp_rx` that drives one connection. The machine is a subset of
the RFC 793 diagram; the clock read of `process_event` is an argument.
-/

namespace TrafficGen

/-- TCP finite state machine states (subset of RFC 793). -/
inductive TCPState where
  | closed
  | synSent
  | synRcvd
  | established
  | finWait1
  | finWait2
  | closeWait
  | closing
  | lastAck
  | timeWait
deriving DecidableEq, Repr

/-- Higher-level events the state machine reacts to. -/
inductive TCPEvent where
  | sendSyn
  | recvSyn
  | recvSynAck
  | sendFin
  | recvFin
  | recvAck
  | appClose
  | timeout
deriving DecidableEq, Repr

/-- Per-connection TCP state used for stateful TCP flows. -/
structure TCPConnectionState where
  srcIp : UInt32
  dstIp : UInt32
  srcPort : UInt16
  dstPort : UInt16
  state : TCPState := .closed
  /-- Next sequence number to send. -/
  sendSeq : UInt32 := 0
  /-- Next ACK number to send. -/
  sendAck : UInt32 := 0
  /-- Last received sequence number. -/
  recvSeq : UInt32 := 0
  /-- Last received ACK number. -/
  recvAck : UInt32 := 0
  sendWindow : UInt16 := 65535
  recvWindow : UInt16 := 65535
  lastActivityNs : UInt64 := 0
  timeWaitEndNs : UInt64 := 0
  active : Bool := false
deriving DecidableEq, Repr

/-- The transition table of `process_event`: the next state, or nothing when the event does
    not move the connection. -/
def TCPState.next : TCPState → TCPEvent → Option TCPState
  | .closed, .sendSyn => some .synSent
  | .synSent, .recvSynAck => some .established
  | .synRcvd, .recvAck => some .established
  | .established, .appClose => some .finWait1
  | .established, .sendFin => some .finWait1
  | .established, .recvFin => some .closeWait
  | .finWait1, .recvAck => some .finWait2
  | .finWait1, .recvFin => some .closing
  | .finWait2, .recvFin => some .timeWait
  | .closeWait, .appClose => some .lastAck
  | .closeWait, .sendFin => some .lastAck
  | .closing, .recvAck => some .timeWait
  | .lastAck, .recvAck => some .closed
  | .timeWait, .timeout => some .closed
  | _, _ => none

namespace TCPConnectionState

/-- Process a state transition. Returns true if a transition occurred. Opening a connection
    marks it active, and coming back to `closed` marks it inactive. -/
def processEvent (conn : TCPConnectionState) (event : TCPEvent) (nowNs : UInt64) :
    Bool × TCPConnectionState :=
  let conn := { conn with lastActivityNs := nowNs }
  match conn.state.next event with
  | none => (false, conn)
  | some .synSent => (true, { conn with state := .synSent, active := true })
  | some .closed => (true, { conn with state := .closed, active := false })
  | some s => (true, { conn with state := s })

end TCPConnectionState

/-! ## Received segments -/

def RTE_TCP_FIN_FLAG : UInt8 := 0x01
def RTE_TCP_SYN_FLAG : UInt8 := 0x02
def RTE_TCP_ACK_FLAG : UInt8 := 0x10

/-- `rte_tcp_hdr`, each multi-byte field as the host loads it, in network byte order. -/
structure RteTcpHdr where
  srcPort : UInt16
  dstPort : UInt16
  sentSeq : UInt32
  recvAck : UInt32
  dataOff : UInt8
  tcpFlags : UInt8
  rxWin : UInt16
  cksum : UInt16
  tcpUrp : UInt16
deriving DecidableEq, Repr

/-- `rte_be_to_cpu_32` on a little-endian host. -/
def rteBeToCpu32 (v : UInt32) : UInt32 := ByteMem.swap32 v

/-- Is `flag` set in the header? -/
def RteTcpHdr.has (hdr : RteTcpHdr) (flag : UInt8) : Bool :=
  hdr.tcpFlags &&& flag != 0

namespace TCPConnectionState

/-- Take in a segment: the body of `handle_tcp_rx` once the connection is found. -/
def receive (conn : TCPConnectionState) (hdr : RteTcpHdr) (payloadLen : UInt32)
    (nowNs : UInt64) : TCPConnectionState :=
  let conn :=
    if hdr.tcpFlags &&& (RTE_TCP_SYN_FLAG ||| RTE_TCP_ACK_FLAG) =
        RTE_TCP_SYN_FLAG ||| RTE_TCP_ACK_FLAG then
      let conn := { conn with
        recvSeq := rteBeToCpu32 hdr.sentSeq, recvAck := rteBeToCpu32 hdr.recvAck }
      (conn.processEvent .recvSynAck nowNs).2
    else
      -- a segment may carry both flags: the ACK is processed first
      let conn :=
        if hdr.has RTE_TCP_ACK_FLAG then
          ({ conn with recvAck := rteBeToCpu32 hdr.recvAck }.processEvent .recvAck nowNs).2
        else conn
      if hdr.has RTE_TCP_FIN_FLAG then
        ({ conn with recvSeq := rteBeToCpu32 hdr.sentSeq }.processEvent .recvFin nowNs).2
      else conn
  -- overwrites the number a FIN has set
  if payloadLen > 0 then
    { conn with recvSeq := rteBeToCpu32 hdr.sentSeq + payloadLen }
  else conn

end TCPConnectionState

end TrafficGen
