import TrafficGen.ForStd.Run
import TrafficGen.Spec.ConnectionTable

/-!
# Received segments without SYN

What `handle_tcp_rx` makes of a segment without SYN, as one equation (`untimed_receive`): the ACK
moves the machine, then the FIN does, and the received numbers are those of the segment. Two things
follow. An ACK moves no connection twice, so a range of bytes may arrive in any pieces. And the
number an ACK carries is not looked at, so an ACK of earlier data passes for the ACK of the
connection's own FIN.

## Key results

- `receiveAll_cut`: a range of bytes leaves the same connections in pieces and in one segment
- `cleanTeardown_iff`: an ACK leaves a closing connection alone, as it should, unless it covers
  the FIN, exactly when it does cover it
-/

namespace TrafficGen

/-! ## One segment -/

/-- What an event makes of the state and the `active` flag. -/
def TCPState.shift (event : TCPEvent) (x : TCPState × Bool) : TCPState × Bool :=
  match x.1.next event with
  | none => x
  | some .synSent => (.synSent, true)
  | some .closed => (.closed, false)
  | some s => (s, x.2)

/-- What the flags of a segment without SYN make of them: the ACK first, then the FIN. -/
def TCPState.shiftFlags (ack fin : Bool) (x : TCPState × Bool) : TCPState × Bool :=
  let x := if ack then shift .recvAck x else x
  if fin then shift .recvFin x else x

/-- An ACK moves the machine once. -/
theorem TCPState.shift_recvAck_idem (x : TCPState × Bool) :
    shift .recvAck (shift .recvAck x) = shift .recvAck x := by
  obtain ⟨s, active⟩ := x
  cases s <;> rfl

/-- Segments with the same ACK flag, of which only the last may have a FIN, move it as one does. -/
theorem TCPState.shiftFlags_shiftFlags (ack fin : Bool) (x : TCPState × Bool) :
    shiftFlags ack fin (shiftFlags ack false x) = shiftFlags ack fin x := by
  cases ack with
  | false => rfl
  | true => simp [shiftFlags, shift_recvAck_idem]

/-- A received segment: its header, the length of its payload, and the time it is handled. -/
structure TcpSegment where
  hdr : RteTcpHdr
  payloadLen : UInt32
  nowNs : UInt64

namespace TCPConnectionState

/-- The connection without the time of its last activity. -/
def untimed (conn : TCPConnectionState) : TCPConnectionState :=
  { conn with lastActivityNs := 0 }

theorem processEvent_eq (conn : TCPConnectionState) (event : TCPEvent) (nowNs : UInt64) :
    (conn.processEvent event nowNs).2 = { conn with
      state := (TCPState.shift event (conn.state, conn.active)).1
      active := (TCPState.shift event (conn.state, conn.active)).2
      lastActivityNs := nowNs } := by
  simp only [processEvent, TCPState.shift]
  cases conn.state.next event with
  | none => rfl
  | some s => cases s <;> rfl

/-- The connection after the ACK and FIN flags `ack` and `fin`, an acknowledgement number, and
    `len` bytes of payload from `seq` on. -/
def advance (conn : TCPConnectionState) (ack fin : Bool) (seq ackNumber len : UInt32) :
    TCPConnectionState :=
  let x := TCPState.shiftFlags ack fin (conn.state, conn.active)
  { conn with
    state := x.1
    active := x.2
    recvSeq := if len > 0 then seq + len else if fin then seq else conn.recvSeq
    recvAck := if ack then ackNumber else conn.recvAck
    lastActivityNs := 0 }

/-- Without SYN the flags do not read SYN and ACK. -/
theorem not_synAck {hdr : RteTcpHdr} (h : hdr.has RTE_TCP_SYN_FLAG = false) :
    hdr.tcpFlags &&& (RTE_TCP_SYN_FLAG ||| RTE_TCP_ACK_FLAG) ≠
      RTE_TCP_SYN_FLAG ||| RTE_TCP_ACK_FLAG := by
  intro hboth
  have hsyn : hdr.tcpFlags &&& RTE_TCP_SYN_FLAG = RTE_TCP_SYN_FLAG := by
    calc hdr.tcpFlags &&& RTE_TCP_SYN_FLAG
        = hdr.tcpFlags &&& (RTE_TCP_SYN_FLAG ||| RTE_TCP_ACK_FLAG) &&& RTE_TCP_SYN_FLAG := by
          rw [UInt8.and_assoc]
          rfl
      _ = RTE_TCP_SYN_FLAG := by rw [hboth]; rfl
  rw [RteTcpHdr.has, hsyn] at h
  cases h

/-- A segment without SYN, the time aside. -/
theorem untimed_receive (conn : TCPConnectionState) {hdr : RteTcpHdr}
    (h : hdr.has RTE_TCP_SYN_FLAG = false) (payloadLen : UInt32) (nowNs : UInt64) :
    (conn.receive hdr payloadLen nowNs).untimed =
      conn.advance (hdr.has RTE_TCP_ACK_FLAG) (hdr.has RTE_TCP_FIN_FLAG)
        (rteBeToCpu32 hdr.sentSeq) (rteBeToCpu32 hdr.recvAck) payloadLen := by
  -- the branch for SYN and ACK is out of the question; the others are one case each
  rw [receive, if_neg (not_synAck h), advance]
  simp only [processEvent_eq, TCPState.shiftFlags]
  cases hdr.has RTE_TCP_ACK_FLAG <;> cases hdr.has RTE_TCP_FIN_FLAG <;> split <;> rfl

/-! ## A range of bytes in pieces -/

/-- Two pieces with the same ACK, the FIN on the second if anywhere, are as good as one. -/
theorem advance_advance (conn : TCPConnectionState) (ack fin : Bool)
    (seq ackNumber : UInt32) {len len' total : UInt32}
    (htotal : len.toNat + len'.toNat = total.toNat) :
    (conn.advance ack false seq ackNumber len).advance ack fin (seq + len) ackNumber len' =
      conn.advance ack fin seq ackNumber total := by
  have hsum : total = len + len' := by
    rw [← UInt32.toNat_inj, UInt32.toNat_add, ← htotal, Nat.mod_eq_of_lt]
    rw [htotal]
    exact total.toNat_lt
  have hzero : ∀ n : UInt32, n > 0 ↔ 0 < n.toNat := fun n => UInt32.lt_iff_toNat_lt
  -- both end the range, and an empty piece counts for its FIN only
  have hseq : (if len' > 0 then seq + len + len' else if fin then seq + len
      else if len > 0 then seq + len else conn.recvSeq) =
      if total > 0 then seq + total else if fin then seq else conn.recvSeq := by
    by_cases hlen' : len' > 0
    · -- the second piece ends the range
      rw [if_pos hlen', if_pos (by rw [hzero] at hlen' ⊢; omega), hsum, UInt32.add_assoc]
    · have hnone : len' = 0 := by
        rw [hzero] at hlen'
        rw [← UInt32.toNat_inj, UInt32.toNat_zero]
        omega
      rw [if_neg hlen', hsum, hnone, UInt32.add_zero]
      by_cases hlen : len > 0
      · -- the first piece is the whole range
        simp [hlen]
      · have hempty : len = 0 := by
          rw [hzero] at hlen
          rw [← UInt32.toNat_inj, UInt32.toNat_zero]
          omega
        simp [hempty]
  have hack : (if ack then ackNumber else if ack then ackNumber else conn.recvAck) =
      if ack then ackNumber else conn.recvAck := by
    split <;> rfl
  have hpair : ∀ x : TCPState × Bool, (x.1, x.2) = x := fun _ => rfl
  simp only [advance, hpair, TCPState.shiftFlags_shiftFlags, Bool.false_eq_true, if_false,
    hseq, hack]

end TCPConnectionState

/-- The segment has no SYN, starts at `seq`, and has this ACK flag, acknowledgement number and FIN
    flag. -/
structure TcpSegment.Is (p : TcpSegment) (ack : Bool) (ackNumber : UInt32) (fin : Bool)
    (seq : UInt32) : Prop where
  noSyn : p.hdr.has RTE_TCP_SYN_FLAG = false
  hasAck : p.hdr.has RTE_TCP_ACK_FLAG = ack
  ackNumber : rteBeToCpu32 p.hdr.recvAck = ackNumber
  hasFin : p.hdr.has RTE_TCP_FIN_FLAG = fin
  seq : rteBeToCpu32 p.hdr.sentSeq = seq

/-- The pieces of a range of `total` bytes from `seq` on: each starts where the one before it ends,
    all have the same ACK, and only the last may have a FIN. -/
inductive Cut (ack : Bool) (ackNumber : UInt32) (fin : Bool) :
    UInt32 → Nat → List TcpSegment → Prop
  | last {seq : UInt32} (p : TcpSegment) (h : p.Is ack ackNumber fin seq) :
      Cut ack ackNumber fin seq p.payloadLen.toNat [p]
  | cons {seq : UInt32} {total : Nat} {pieces : List TcpSegment} (p : TcpSegment)
      (h : p.Is ack ackNumber false seq)
      (hrest : Cut ack ackNumber fin (seq + p.payloadLen) total pieces) :
      Cut ack ackNumber fin seq (p.payloadLen.toNat + total) (p :: pieces)

namespace TCPConnectionState

/-- Take in a segment. -/
def take (conn : TCPConnectionState) (p : TcpSegment) : TCPConnectionState :=
  conn.receive p.hdr p.payloadLen p.nowNs

theorem untimed_take (conn : TCPConnectionState) {p : TcpSegment} {ack fin : Bool}
    {ackNumber seq : UInt32} (h : p.Is ack ackNumber fin seq) :
    (conn.take p).untimed = conn.advance ack fin seq ackNumber p.payloadLen := by
  rw [take, untimed_receive conn h.noSyn, h.hasAck, h.ackNumber, h.hasFin, h.seq]

/-- The time of the last activity is nothing a segment looks at. -/
theorem advance_congr {conn conn' : TCPConnectionState} (h : conn.untimed = conn'.untimed)
    (ack fin : Bool) (seq ackNumber len : UInt32) :
    conn.advance ack fin seq ackNumber len = conn'.advance ack fin seq ackNumber len :=
  congrArg (·.advance ack fin seq ackNumber len) h

/-- The pieces, taken in one after the other. -/
theorem untimed_run_take {ack fin : Bool} {ackNumber seq : UInt32} {n : Nat}
    {pieces : List TcpSegment} (h : Cut ack ackNumber fin seq n pieces) {total : UInt32}
    (htotal : n = total.toNat) (conn : TCPConnectionState) :
    (Run.run take conn pieces).untimed = conn.advance ack fin seq ackNumber total := by
  induction h generalizing conn total with
  | last p hp =>
    rw [Run.run_cons, Run.run_nil, untimed_take conn hp, UInt32.toNat_inj.mp htotal]
  | @cons seq n pieces p hp hrest ih =>
    -- what is left of the range, as one segment
    have hlt := total.toNat_lt
    have hleft : n = (UInt32.ofNat n).toNat := by
      rw [UInt32.toNat_ofNat', Nat.mod_eq_of_lt (by omega)]
    have hfirst : (conn.take p).untimed =
        (conn.advance ack false seq ackNumber p.payloadLen).untimed := untimed_take conn hp
    rw [Run.run_cons, ih hleft, advance_congr hfirst]
    exact advance_advance conn ack fin seq ackNumber (by omega)

end TCPConnectionState

/-- A flow without the time of its connection's last activity. -/
def FlowConfigInternal.untimed (f : FlowConfigInternal) : FlowConfigInternal :=
  { f with tcpState := f.tcpState.map (·.untimed) }

namespace FlowScheduler

/-- Handle segments of one 5-tuple, one after the other. -/
def receiveAll (s : FlowScheduler) (key : FlowKey) (pieces : List TcpSegment) : FlowScheduler :=
  Run.run (fun s p => s.handleTcpRx key p.hdr p.payloadLen p.nowNs) s pieces

/-- They all go to the connection of one flow. -/
theorem getFlow_receiveAll {s : FlowScheduler} {key : FlowKey} {id : UInt32}
    {f : FlowConfigInternal} {conn : TCPConnectionState} (hkey : s.flowLookup.lookup key = some id)
    (hf : s.getFlow id = some f) (hstate : f.isStatefulTcp) (hconn : f.tcpState = some conn)
    (pieces : List TcpSegment) (id' : UInt32) :
    (s.receiveAll key pieces).getFlow id' =
      if id' = id then some { f with
        tcpState := some (Run.run TCPConnectionState.take conn pieces) }
      else s.getFlow id' := by
  induction pieces generalizing s f conn with
  | nil =>
    rw [receiveAll, Run.run_nil, Run.run_nil, ← hconn]
    split
    · next hid => rw [hid, hf]
    · rfl
  | cons p pieces ih =>
    -- after one segment the flow is still stateful, and found under the same id
    have hnext := handleTcpRx_of_stateful hkey hf hstate hconn p.hdr p.payloadLen p.nowNs
    have hget : (s.setFlow id { f with tcpState := some (conn.take p) }).getFlow id =
        some { f with tcpState := some (conn.take p) } := getFlow_setFlow_self _ _ _
    have hstate' : ({ f with tcpState := some (conn.take p) } :
        FlowConfigInternal).isStatefulTcp = true := by
      simpa only [FlowConfigInternal.isStatefulTcp, hconn, Option.isSome_some] using hstate
    rw [receiveAll, Run.run_cons, hnext]
    refine (ih (s := s.setFlow id _) hkey hget hstate' rfl).trans ?_
    split
    · rfl
    · next hid => exact getFlow_setFlow_ne _ _ hid

/-- Without a stateful flow under the 5-tuple nothing happens. -/
theorem receiveAll_of_none {s : FlowScheduler} {key : FlowKey}
    (h : ∀ id f, s.flowLookup.lookup key = some id → s.getFlow id = some f →
      ¬ f.isStatefulTcp = true) (pieces : List TcpSegment) : s.receiveAll key pieces = s := by
  induction pieces with
  | nil => rfl
  | cons p pieces ih =>
    rw [receiveAll, Run.run_cons]
    rcases s.handleTcpRx_cases key p.hdr p.payloadLen p.nowNs with
      heq | ⟨id, f, conn, hkey, hf, hstate, -⟩
    · rw [heq]
      exact ih
    · exact absurd hstate (h id f hkey hf)

/-- **Any pieces.** For every table, whatever the states of its connections, a range of bytes whose
    length fits 32 bits leaves the same flows, times of activity aside, whether it arrives in one
    segment without SYN or in consecutive pieces with the same ACK and the FIN on the last one. -/
theorem receiveAll_cut (s : FlowScheduler) (key : FlowKey) {ack fin : Bool}
    {ackNumber seq : UInt32} {total : Nat} {pieces : List TcpSegment}
    (hcut : Cut ack ackNumber fin seq total pieces) {whole : TcpSegment}
    (hwhole : whole.Is ack ackNumber fin seq) (htotal : total = whole.payloadLen.toNat)
    (id : UInt32) :
    ((s.receiveAll key pieces).getFlow id).map (·.untimed) =
      ((s.handleTcpRx key whole.hdr whole.payloadLen whole.nowNs).getFlow id).map
        (·.untimed) := by
  show _ = ((s.receiveAll key [whole]).getFlow id).map _
  by_cases htarget : ∃ id f, s.flowLookup.lookup key = some id ∧ s.getFlow id = some f ∧
      f.isStatefulTcp = true
  · obtain ⟨id', f, hkey, hf, hstate⟩ := htarget
    obtain ⟨conn, hconn⟩ := f.exists_conn hstate
    rw [getFlow_receiveAll hkey hf hstate hconn, getFlow_receiveAll hkey hf hstate hconn]
    split
    · -- one connection, and the whole range is a cut of itself
      have hpieces := TCPConnectionState.untimed_run_take hcut htotal conn
      have hone := conn.untimed_take hwhole
      simp only [FlowConfigInternal.untimed, Option.map_some, hpieces, ← hone]
      rfl
    · rfl
  · push Not at htarget
    rw [receiveAll_of_none htarget, receiveAll_of_none htarget]

end FlowScheduler

/-! ## The ACK of a FIN -/

/-- `a` is after `f` in 32-bit serial order. -/
def SerialAfter (f a : UInt32) : Prop :=
  0 < (a - f).toNat ∧ (a - f).toNat < 2 ^ 31

/-- The connection has sent a FIN and waits for its ACK. -/
def TCPState.AwaitsFinAck (s : TCPState) : Prop :=
  s = .finWait1 ∨ s = .closing ∨ s = .lastAck

/-- Then an ACK moves it, and not to where a FIN alone would. -/
theorem TCPState.AwaitsFinAck.moves {s : TCPState} (h : s.AwaitsFinAck) (fin active : Bool) :
    (shiftFlags true fin (s, active)).1 ≠ if fin then (s.next .recvFin).getD s else s := by
  rcases h with rfl | rfl | rfl <;> cases fin <;> simp [shiftFlags, shift, next]

/-- A segment with ACK, received on a connection whose FIN has the number `f`, counts for the ACK
    of that FIN only if its number is after `f`. Otherwise the state is what the segment's own FIN
    makes of it. -/
def CleanTeardown (f : UInt32) (conn conn' : TCPConnectionState) (hdr : RteTcpHdr) : Prop :=
  ¬ SerialAfter f (rteBeToCpu32 hdr.recvAck) →
    conn'.state = if hdr.has RTE_TCP_FIN_FLAG then (conn.state.next .recvFin).getD conn.state
      else conn.state

namespace FlowScheduler

/-- **Clean teardown.** For every table, every connection that waits for the ACK of its FIN, and
    every segment with ACK and without SYN that reaches it, the segment is taken for that ACK only
    if its number is after the FIN's, if and only if it is. -/
theorem cleanTeardown_iff {s : FlowScheduler} {key : FlowKey} {id : UInt32}
    {conn : TCPConnectionState} (hkey : s.flowLookup.lookup key = some id)
    (hconn : s.connection id = some conn) (hwaits : conn.state.AwaitsFinAck) {hdr : RteTcpHdr}
    (hack : hdr.has RTE_TCP_ACK_FLAG = true) (hsyn : hdr.has RTE_TCP_SYN_FLAG = false)
    (f payloadLen : UInt32) (nowNs : UInt64) :
    (∃ conn', (s.handleTcpRx key hdr payloadLen nowNs).connection id = some conn' ∧
        CleanTeardown f conn conn' hdr) ↔
      SerialAfter f (rteBeToCpu32 hdr.recvAck) := by
  obtain ⟨flow, hf, hstate, hstored⟩ := connection_eq_some.mp hconn
  have hafter : (s.handleTcpRx key hdr payloadLen nowNs).connection id =
      some (conn.receive hdr payloadLen nowNs) := by
    rw [handleTcpRx_of_stateful hkey hf hstate hstored, connection_setFlow_self,
      FlowConfigInternal.connection_eq_some]
    refine ⟨?_, rfl⟩
    simpa only [FlowConfigInternal.isStatefulTcp, hstored, Option.isSome_some] using hstate
  -- the machine moves, and not as the FIN alone would
  have hmoves : (conn.receive hdr payloadLen nowNs).state ≠
      if hdr.has RTE_TCP_FIN_FLAG then (conn.state.next .recvFin).getD conn.state
      else conn.state := by
    have hshift := congrArg (·.state) (conn.untimed_receive hsyn payloadLen nowNs)
    have hstate' : (conn.receive hdr payloadLen nowNs).state =
        (TCPState.shiftFlags true (hdr.has RTE_TCP_FIN_FLAG) (conn.state, conn.active)).1 := by
      rw [← hack]
      exact hshift
    rw [hstate']
    exact hwaits.moves _ _
  rw [hafter]
  simp only [Option.some.injEq, exists_eq_left', CleanTeardown]
  constructor
  · intro h
    by_contra hearly
    exact hmoves (h hearly)
  · intro h hearly
    exact absurd h hearly

/-! ## Fixed inputs -/

/-- A table with one stateful flow, whose connection is in the given state. -/
def inState (state : TCPState) : FlowScheduler :=
  let s := ((new []).addFlow .reference (.sample 1 1000 false) 0).2
  match s.getFlow 1 with
  | none => s
  | some f => s.setFlow 1 { f with
      tcpState := f.tcpState.map fun conn => { conn with state := state, active := true } }

/-- A segment of `len` bytes for that flow, at time 0. -/
def segmentFor (tcpFlags : UInt8) (seq ackNumber len : UInt32) : TcpSegment where
  hdr := { srcPort := rteCpuToBe16 80, dstPort := rteCpuToBe16 1000, sentSeq := rteCpuToBe32 seq,
           recvAck := rteCpuToBe32 ackNumber, dataOff := 0x50, tcpFlags := tcpFlags, rxWin := 0,
           cksum := 0, tcpUrp := 0 }
  payloadLen := len
  nowNs := 0

/-- The 5-tuple of what it receives. -/
def replyKey : FlowKey := (FlowSettings.sample 1 1000 false).flowKey.reverse

/-- Ten bytes and a FIN, in pieces of four and six, on an established connection. -/
theorem receiveAll_cut_ten :
    (((inState .established).receiveAll replyKey
      [segmentFor 0x10 100 7 4, segmentFor 0x11 104 7 6]).getFlow 1).map (·.untimed) =
      (((inState .established).handleTcpRx replyKey (segmentFor 0x11 100 7 10).hdr 10 0).getFlow
        1).map (·.untimed) := by
  have hfirst : (segmentFor 0x10 100 7 4).Is true 7 false 100 :=
    ⟨by decide, by decide, by decide, by decide, by decide⟩
  have hlast : (segmentFor 0x11 104 7 6).Is true 7 true 104 :=
    ⟨by decide, by decide, by decide, by decide, by decide⟩
  have hwhole : (segmentFor 0x11 100 7 10).Is true 7 true 100 :=
    ⟨by decide, by decide, by decide, by decide, by decide⟩
  exact receiveAll_cut (inState .established) replyKey (.cons _ hfirst (.last _ hlast)) hwhole
    (by decide) 1

/-- The FIN has the number 1000, and the segment acknowledges it. -/
theorem cleanTeardown_iff_1001 : ∃ conn, (inState .finWait1).connection 1 = some conn ∧
    ((∃ conn', ((inState .finWait1).handleTcpRx replyKey (segmentFor 0x10 0 1001 0).hdr 0
        0).connection 1 = some conn' ∧
        CleanTeardown 1000 conn conn' (segmentFor 0x10 0 1001 0).hdr) ↔
      SerialAfter 1000 (rteBeToCpu32 (segmentFor 0x10 0 1001 0).hdr.recvAck)) := by
  have hwaits : ((inState .finWait1).connection 1).any (·.state = .finWait1) = true := by
    decide +kernel
  obtain ⟨conn, hconn, hstate⟩ := (Option.any_eq_true _ _).mp hwaits
  exact ⟨conn, hconn, cleanTeardown_iff (by decide +kernel) hconn
    (.inl (of_decide_eq_true hstate)) (by decide) (by decide) 1000 0 0⟩

/-- The segment acknowledges data before the FIN, and the connection moves all the same. -/
theorem not_cleanTeardown_500 : ∃ conn conn', (inState .finWait1).connection 1 = some conn ∧
    conn.state = .finWait1 ∧
    ((inState .finWait1).handleTcpRx replyKey (segmentFor 0x10 0 500 0).hdr 0 0).connection 1 =
      some conn' ∧
    conn'.state = .finWait2 ∧ ¬ CleanTeardown 1000 conn conn' (segmentFor 0x10 0 500 0).hdr := by
  have hbefore : ((inState .finWait1).connection 1).any (·.state = .finWait1) = true := by
    decide +kernel
  have hafter : (((inState .finWait1).handleTcpRx replyKey (segmentFor 0x10 0 500 0).hdr 0
      0).connection 1).any (·.state = .finWait2) = true := by
    decide +kernel
  obtain ⟨conn, hconn, hstate⟩ := (Option.any_eq_true _ _).mp hbefore
  obtain ⟨conn', hconn', hstate'⟩ := (Option.any_eq_true _ _).mp hafter
  refine ⟨conn, conn', hconn, of_decide_eq_true hstate, hconn', of_decide_eq_true hstate', ?_⟩
  intro h
  have hearly : ¬ SerialAfter 1000 (rteBeToCpu32 (segmentFor 0x10 0 500 0).hdr.recvAck) := by
    unfold SerialAfter
    decide
  have hkept := h hearly
  rw [of_decide_eq_true hstate, of_decide_eq_true hstate'] at hkept
  revert hkept
  decide

end FlowScheduler

end TrafficGen
