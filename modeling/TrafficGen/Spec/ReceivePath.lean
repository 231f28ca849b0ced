import TrafficGen.Control.Server
import TrafficGen.Core.Receive

/-!
# What the receive path reads and returns

The header code as a function of the frame's bytes (`value_parseHeaders`), the addresses it
loads (`loads_parseHeaders`), and `handle_tcp_rx` on a header in the frame as `handle_tcp_rx`
on the header read out of it (`value_handleTcpRxAt`).

## Key results

- `value_receiveFrame`: a frame is a received segment of the flow its headers name, or nothing
- `processReceivedPackets_scheduler`: a burst is a run of received segments
-/

namespace TrafficGen

open ByteMem (Read)
open ByteMem.Read (value_bind value_pure value_load8 value_load16 value_load32 loads_bind
  loads_pure loads_load8 loads_load16 loads_load32)

/-! ## Handing over a segment -/

namespace TCPConnectionState

/-- The flags are looked at as in a segment without payload. -/
theorem value_receiveFlagsAt (conn : TCPConnectionState) (tcp : Nat) (nowNs : UInt64)
    (mem : ByteMem) :
    (conn.receiveFlagsAt tcp (mem (tcp + 13)) nowNs).value mem =
      conn.receive (RteTcpHdr.load mem tcp) 0 nowNs := by
  have hbranches : ∀ hdr : RteTcpHdr, mem.load32 (tcp + 4) = hdr.sentSeq →
      mem.load32 (tcp + 8) = hdr.recvAck →
      (conn.receiveFlagsAt tcp hdr.tcpFlags nowNs).value mem = conn.receive hdr 0 nowNs := by
    intro hdr hseq hrecv
    have hset : ∀ flag, hdr.tcpFlags &&& flag ≠ 0 → hdr.has flag = true :=
      fun _ => bne_iff_ne.mpr
    have hclear : ∀ flag, ¬ hdr.tcpFlags &&& flag ≠ 0 → ¬ hdr.has flag = true :=
      fun _ => mt bne_iff_ne.mp
    unfold receiveFlagsAt receive
    rw [if_neg (show ¬ (0 : UInt32) > 0 by decide)]
    split
    · rw [value_bind, value_bind, value_load32, value_load32, hseq, hrecv, value_pure]
    · rw [value_bind]
      by_cases hack : hdr.tcpFlags &&& RTE_TCP_ACK_FLAG ≠ 0
      · rw [if_pos hack, if_pos (hset _ hack), value_bind, value_load32, hrecv]
        by_cases hfin : hdr.tcpFlags &&& RTE_TCP_FIN_FLAG ≠ 0
        · rw [if_pos hfin, if_pos (hset _ hfin), value_bind, value_load32, hseq]
          rfl
        · rw [if_neg hfin, if_neg (hclear _ hfin)]
          rfl
      · rw [if_neg hack, if_neg (hclear _ hack)]
        by_cases hfin : hdr.tcpFlags &&& RTE_TCP_FIN_FLAG ≠ 0
        · rw [if_pos hfin, if_pos (hset _ hfin), value_bind, value_load32, hseq]
          rfl
        · rw [if_neg hfin, if_neg (hclear _ hfin)]
          rfl
  exact hbranches (RteTcpHdr.load mem tcp) rfl rfl

theorem value_receiveAt (conn : TCPConnectionState) (tcp : Nat) (payloadLen : UInt32)
    (nowNs : UInt64) (mem : ByteMem) :
    (conn.receiveAt tcp payloadLen nowNs).value mem =
      conn.receive (RteTcpHdr.load mem tcp) payloadLen nowNs := by
  rw [receiveAt, value_bind, value_load8, value_bind, value_receiveFlagsAt]
  unfold receive
  split
  · rfl
  · rfl

/-- Whatever the flags, only the numbers and the flags of the header are loaded. -/
theorem loads_receiveAt (conn : TCPConnectionState) (tcp : Nat) (payloadLen : UInt32)
    (nowNs : UInt64) (mem : ByteMem) :
    ∀ a ∈ (conn.receiveAt tcp payloadLen nowNs).loads mem, tcp + 4 ≤ a ∧ a < tcp + 14 := by
  have hseq : ∀ a ∈ [tcp + 4, tcp + 4 + 1, tcp + 4 + 2, tcp + 4 + 3],
      tcp + 4 ≤ a ∧ a < tcp + 14 := by
    intro a ha
    simp only [List.mem_cons, List.not_mem_nil, or_false] at ha
    omega
  have hack : ∀ a ∈ [tcp + 8, tcp + 8 + 1, tcp + 8 + 2, tcp + 8 + 3],
      tcp + 4 ≤ a ∧ a < tcp + 14 := by
    intro a ha
    simp only [List.mem_cons, List.not_mem_nil, or_false] at ha
    omega
  have hflags : ∀ flags, ∀ a ∈ (conn.receiveFlagsAt tcp flags nowNs).loads mem,
      tcp + 4 ≤ a ∧ a < tcp + 14 := by
    intro flags a ha
    rw [receiveFlagsAt] at ha
    split at ha
    · simp only [loads_bind, loads_load32, loads_pure, List.mem_append, List.append_nil] at ha
      cases ha with
      | inl ha => exact hseq a ha
      | inr ha => exact hack a ha
    · rw [loads_bind] at ha
      cases List.mem_append.mp ha with
      | inl ha =>
        split at ha
        · rw [loads_bind, loads_pure, List.append_nil] at ha
          exact hack a ha
        · exact absurd ha List.not_mem_nil
      | inr ha =>
        split at ha
        · rw [loads_bind, loads_pure, List.append_nil] at ha
          exact hseq a ha
        · exact absurd ha List.not_mem_nil
  intro a ha
  rw [receiveAt, loads_bind, loads_bind, value_load8, loads_load8] at ha
  simp only [List.mem_append, List.mem_singleton] at ha
  rcases ha with rfl | ha | ha
  · omega
  · exact hflags _ a ha
  · split at ha
    · rw [loads_bind, loads_pure, List.append_nil] at ha
      exact hseq a ha
    · exact absurd ha List.not_mem_nil

end TCPConnectionState

namespace FlowScheduler

theorem value_handleTcpRxAt (s : FlowScheduler) (key : FlowKey) (tcp : Nat)
    (payloadLen : UInt32) (nowNs : UInt64) (mem : ByteMem) :
    (s.handleTcpRxAt key tcp payloadLen nowNs).value mem =
      s.handleTcpRx key (RteTcpHdr.load mem tcp) payloadLen nowNs := by
  rw [handleTcpRxAt, handleTcpRx]
  cases s.flowLookup.lookup key with
  | none => rfl
  | some id =>
    dsimp only
    cases s.getFlow id with
    | none => rfl
    | some flow =>
      dsimp only
      split
      · rfl
      · cases flow.tcpState with
        | none => rfl
        | some conn =>
          rw [value_bind, TCPConnectionState.value_receiveAt, value_pure]

theorem loads_handleTcpRxAt (s : FlowScheduler) (key : FlowKey) (tcp : Nat)
    (payloadLen : UInt32) (nowNs : UInt64) (mem : ByteMem) :
    ∀ a ∈ (s.handleTcpRxAt key tcp payloadLen nowNs).loads mem, tcp + 4 ≤ a ∧ a < tcp + 14 := by
  intro a ha
  rw [handleTcpRxAt] at ha
  cases hid : s.flowLookup.lookup key with
  | none => simp only [hid, loads_pure, List.not_mem_nil] at ha
  | some id =>
    cases hflow : s.getFlow id with
    | none => simp only [hid, hflow, loads_pure, List.not_mem_nil] at ha
    | some flow =>
      simp only [hid, hflow] at ha
      split at ha
      · exact absurd ha List.not_mem_nil
      · cases hconn : flow.tcpState with
        | none => simp only [hconn, loads_pure, List.not_mem_nil] at ha
        | some conn =>
          simp only [hconn, loads_bind, loads_pure, List.append_nil] at ha
          exact conn.loads_receiveAt tcp payloadLen nowNs mem a ha

end FlowScheduler

namespace Worker

/-! ## Header code -/

/-- The 5-tuple of the TCP segment whose headers are at `ip` and `tcp`. -/
def headerKey (mem : ByteMem) (ip tcp : Nat) : FlowKey where
  srcIp := mem.load32 (ip + 12)
  dstIp := mem.load32 (ip + 16)
  srcPort := rteBeToCpu16 (mem.load16 tcp)
  dstPort := rteBeToCpu16 (mem.load16 (tcp + 2))
  protocol := IPPROTO_TCP

/-- What the code takes for a TCP segment: an IP version of 4 and the protocol number. -/
def LooksLikeTcp (mem : ByteMem) : Prop := mem 14 >>> 4 = 4 ∧ mem 23 = IPPROTO_TCP

instance (mem : ByteMem) : Decidable (LooksLikeTcp mem) :=
  inferInstanceAs (Decidable (_ ∧ _))

/-- The call for a frame that looks like TCP: headers at fixed offsets. -/
def tcpRxCall (mem : ByteMem) : TcpRxCall where
  key := headerKey mem 14 34
  tcpHdr := 34
  payloadLen := tcpPayloadLen mem 14 34

theorem value_parseHeaders (mem : ByteMem) :
    parseHeaders.value mem = if LooksLikeTcp mem then some (tcpRxCall mem) else none := by
  rw [parseHeaders, value_bind, value_load8]
  split
  · next hversion =>
    rw [value_bind, value_load8]
    split
    · next hproto =>
      rw [if_pos ⟨hversion, hproto⟩]
      rfl
    · next hproto =>
      rw [if_neg fun h => hproto h.2]
      rfl
  · next hversion =>
    rw [if_neg fun h => hversion h.1]
    rfl

/-- The addresses the header code loads: the version, then the protocol, then the fields of
    the call. -/
theorem loads_parseHeaders (mem : ByteMem) :
    parseHeaders.loads mem =
      14 :: if mem 14 >>> 4 = 4 then
        23 :: if mem 23 = IPPROTO_TCP then
          [16, 17, 46, 26, 27, 28, 29, 30, 31, 32, 33, 34, 35, 36, 37]
        else []
      else [] := by
  rw [parseHeaders, loads_bind, loads_load8, value_load8]
  show _ = 14 :: if mem etherHdrSize >>> 4 = 4 then
    23 :: if mem (etherHdrSize + 9) = IPPROTO_TCP then _ else _ else _
  split
  · rw [loads_bind, loads_load8, value_load8]
    split
    · rfl
    · rfl
  · rfl

/-! ## Frames and bursts -/

/-- A frame is a segment of the flow its headers name, or it is nothing to the flow table. -/
theorem value_receiveFrame (s : FlowScheduler) (nowNs : UInt64) (mem : ByteMem) :
    (receiveFrame s nowNs).value mem =
      match parseHeaders.value mem with
      | none => s
      | some call => s.handleTcpRx call.key (RteTcpHdr.load mem call.tcpHdr) call.payloadLen
          nowNs := by
  rw [receiveFrame, value_bind]
  cases parseHeaders.value mem with
  | none => rfl
  | some call => exact s.value_handleTcpRxAt _ _ _ _ _

/-- The segments the frames of a burst hold, as events of the generator. -/
def receiveEvents (eventNs : Nat → UInt64) (mbufs : List Mbuf) : List System.Event :=
  mbufs.zipIdx.filterMap fun (mb, i) => (parseHeaders.value mb.data).map fun call =>
    .receive call.key (RteTcpHdr.load mb.data call.tcpHdr) call.payloadLen (eventNs i)

/-- What a burst does to the flow table, its segments do one after the other. -/
theorem processReceivedPackets_scheduler (inetAton : String → Option UInt32) (d : Dpdk) (r : Rng)
    (cfg : WorkerConfig) (sys : System) (nowNs : UInt64) (eventNs : Nat → UInt64)
    (mbufs : List (Option Mbuf)) :
    (processReceivedPackets cfg sys nowNs eventNs mbufs).scheduler =
      (Run.run (System.step inetAton d r) sys
        (receiveEvents eventNs mbufs.reduceOption)).scheduler := by
  have hloop : ∀ (received : List (Mbuf × Nat)) (sys : System),
      received.foldl (fun s x => (receiveFrame s (eventNs x.2)).value x.1.data) sys.scheduler =
        (Run.run (System.step inetAton d r) sys (received.filterMap fun x =>
          (parseHeaders.value x.1.data).map fun call => .receive call.key
            (RteTcpHdr.load x.1.data call.tcpHdr) call.payloadLen (eventNs x.2))).scheduler := by
    intro received
    induction received with
    | nil => intro sys; rfl
    | cons x received ih =>
      intro sys
      rw [List.foldl_cons, value_receiveFrame]
      cases hcall : parseHeaders.value x.1.data with
      | none =>
        rw [List.filterMap_cons_none (by rw [hcall]; rfl)]
        exact ih sys
      | some call =>
        rw [List.filterMap_cons_some (by rw [hcall]; rfl), Run.run_cons]
        exact ih (System.step inetAton d r sys (.receive call.key
          (RteTcpHdr.load x.1.data call.tcpHdr) call.payloadLen (eventNs x.2)))
  rw [processReceivedPackets]
  split
  · next hnil =>
    rw [List.length_eq_zero_iff] at hnil
    rw [hnil]
    rfl
  · exact hloop _ sys

end Worker

end TrafficGen
