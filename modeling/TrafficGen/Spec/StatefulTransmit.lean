import Mathlib.Data.UInt
import TrafficGen.Spec.BurstPlan
import TrafficGen.Spec.ConnectionRuns

/-!
# What stateful flows transmit

The transmit path never consults the connection's state and never drives `SEND_SYN`;
nothing assigns `send_ack`; and `send_seq` moves when a packet is built, before the
NIC has taken it. So over any run of the generator a packet of a stateful flow is a
bare ACK on a closed connection, acknowledges nothing, and leaves a gap behind when it
is refused. Each result says exactly on which runs that does no harm, in terms of the
bursts planned and the segments received.

## Key results

- `handshakeFirst_iff`: the handshake comes first exactly when no packet of a stateful
  flow is sent
- `acknowledges_iff`: the acknowledgement is right exactly when it should be zero
- `tiles_acceptedSegments_iff`: accepted segments tile exactly when none is lost in between
-/

namespace TrafficGen

open SequenceSpace

variable {r : Rng}

namespace System

/-- The packets an event is planned to put in a burst, each with whether the NIC takes it. -/
def planned (sys : System) : Event → List (PlannedPacket × Bool)
  | .workerPass cfg input => Worker.planPass cfg sys input
  | _ => []

variable {d : Dpdk} {sys : System}

theorem planned_outcomes (r : Rng) (h : sys.scheduler.Invariant d) (e : Event) :
    (sys.outcomes d r e).map (fun x => (x.1.planned, x.2)) = sys.planned e := by
  cases e with
  | workerPass cfg input => exact Worker.planned_processFlows cfg d r input h.accepted
  | _ => rfl

/-- A packet of a burst belongs to a stateful flow exactly when the table says so. -/
theorem outcome_connection (h : sys.scheduler.Invariant d) {e : Event}
    {x : BuiltPacket × Bool} (hx : x ∈ sys.outcomes d r e) :
    x.1.before.connection.map (·.unsent) =
      (sys.scheduler.connection x.1.flowId).map (·.unsent) := by
  cases e with
  | workerPass cfg input =>
    have hmem := List.mem_map_of_mem (f := (·.1)) hx
    rw [outcomes, PassReport.map_fst_outcomes] at hmem
    exact (Worker.follows_processFlows cfg d r input h.accepted).before x.1 hmem
  | _ => exact absurd hx List.not_mem_nil

/-- A packet of a stateful flow is a segment of a closed connection with nothing to
    acknowledge. -/
theorem outcome_segment (h : sys.scheduler.Invariant d) {e : Event}
    {x : BuiltPacket × Bool} (hx : x ∈ sys.outcomes d r e) {conn : TCPConnectionState}
    (hconn : x.1.before.connection = some conn) :
    x.1.Segment conn ∧ conn.state = .closed ∧ conn.sendAck = 0 := by
  obtain ⟨conn₀, hconn₀, hstate, hsendAck⟩ :=
    TCPConnectionState.exists_of_unsent (outcome_connection h hx) hconn
  obtain ⟨hclosed, hack⟩ := h.idle _ conn₀ hconn₀
  refine ⟨?_, hstate ▸ hclosed, hsendAck ▸ hack⟩
  cases e with
  | workerPass cfg input =>
    have hmem := List.mem_map_of_mem (f := (·.1)) hx
    rw [outcomes, PassReport.map_fst_outcomes] at hmem
    exact (Worker.cloned_processFlows cfg d r input h.accepted x.1 hmem).segment hconn
  | _ => exact absurd hx List.not_mem_nil

end System

/-! ## Handshake before data -/

/-- The packet conforms to the state `conn` of its connection: on a closed connection it is a
    SYN and `SEND_SYN` is recorded, and it carries an ACK or a payload only after the
    handshake. -/
structure BuiltPacket.Conforms (b : BuiltPacket) (conn : TCPConnectionState) : Prop where
  syn : conn.state = .closed → b.tcpHdr.tcpFlags = RTE_TCP_SYN_FLAG ∧
    b.after.connection.map (·.state) = some .synSent
  data : b.tcpHdr.has RTE_TCP_ACK_FLAG ∨ b.payloadLen ≠ 0 →
    conn.state ≠ .closed ∧ conn.state ≠ .synSent ∧ conn.state ≠ .synRcvd

/-- Every packet the NIC took of a stateful flow conforms to its connection. -/
def HandshakeFirst (outcomes : List (BuiltPacket × Bool)) : Prop :=
  ∀ x ∈ outcomes, x.2 = true → ∀ conn, x.1.before.connection = some conn → x.1.Conforms conn

theorem handshakeFirst_append (xs ys : List (BuiltPacket × Bool)) :
    HandshakeFirst (xs ++ ys) ↔ HandshakeFirst xs ∧ HandshakeFirst ys := by
  simp only [HandshakeFirst, List.mem_append, or_imp, forall_and]

/-- An ACK sent on a closed connection does not conform to it. -/
theorem BuiltPacket.Segment.not_conforms {b : BuiltPacket} {conn : TCPConnectionState}
    (h : b.Segment conn) (hclosed : conn.state = .closed) : ¬ b.Conforms conn := by
  intro hconforms
  have hflags := (hconforms.syn hclosed).1
  rw [h.tcpFlags] at hflags
  exact absurd hflags (by decide)

namespace System

/-- The NIC is not planned to take a packet of a stateful flow. -/
def NoStatefulSend (sys : System) (e : Event) : Prop :=
  ∀ x ∈ sys.planned e, x.2 = true → sys.scheduler.connection x.1.flowId = none

instance (sys : System) (e : Event) : Decidable (sys.NoStatefulSend e) :=
  inferInstanceAs (Decidable (∀ x ∈ sys.planned e, x.2 = true → _ = none))

variable {d : Dpdk} {sys : System}

theorem handshakeFirst_outcomes_iff (r : Rng) (h : sys.scheduler.Invariant d) (e : Event) :
    HandshakeFirst (sys.outcomes d r e) ↔ sys.NoStatefulSend e := by
  rw [NoStatefulSend, ← planned_outcomes r h, List.forall_mem_map, HandshakeFirst]
  refine forall₂_congr fun x hx => imp_congr_right fun _ => ?_
  have hsame := outcome_connection h hx
  constructor
  · intro hconforms
    -- a packet of a stateful flow would be an ACK on a closed connection
    cases hconn : x.1.before.connection with
    | none =>
      rw [hconn, Option.map_none, eq_comm, Option.map_eq_none_iff] at hsame
      exact hsame
    | some conn =>
      obtain ⟨hsegment, hclosed, -⟩ := outcome_segment h hx hconn
      exact absurd (hconforms conn hconn) (hsegment.not_conforms hclosed)
  · intro hnone conn hconn
    rw [BuiltPacket.planned] at hnone
    rw [hnone, hconn] at hsame
    cases hsame

/-- **Handshake before data.** Over any run of requests, worker passes and received segments,
    every packet transmitted for a stateful flow conforms to its connection if and only if
    no packet of a stateful flow is transmitted. -/
theorem handshakeFirst_iff (inetAton : String → Option UInt32) (d : Dpdk) (r : Rng)
    (sys : System) (h : Reachable inetAton d r sys) (events : List Event) :
    HandshakeFirst (sys.runOutcomes inetAton d r events) ↔
      Run.Each (step inetAton d r) NoStatefulSend sys events := by
  have hinv := invariant_of_reachable h
  clear h
  -- event by event; the invariant is all that is left of the past
  induction events generalizing sys with
  | nil => exact iff_of_true (fun _ hx => absurd hx List.not_mem_nil) trivial
  | cons e events ih =>
    rw [runOutcomes, Run.collect, handshakeFirst_append, Run.Each]
    exact and_congr (handshakeFirst_outcomes_iff r hinv e) (ih _ (invariant_step hinv e))

/-- A run whose only packet the NIC refuses. -/
theorem handshakeFirst_refused : HandshakeFirst (fresh.runOutcomes Server.sampleAton .reference
    .counting (opening ++ [.passAt 1000000000 0])) :=
  (handshakeFirst_iff _ _ _ fresh (reachable_fresh _ _ _) _).mpr (by decide)

/-- The first packet of a stateful flow is a bare ACK on a closed connection. -/
theorem ack_on_closed : ¬ HandshakeFirst (fresh.runOutcomes Server.sampleAton .reference
    .counting (opening ++ [.passAt 1000000000 1])) := by
  have hfacts : (fresh.runOutcomes Server.sampleAton .reference .counting
      (opening ++ [.passAt 1000000000 1])).map (fun x =>
        (x.2, x.1.before.connection.map (·.state), x.1.tcpHdr.tcpFlags)) =
      [(true, some .closed, RTE_TCP_ACK_FLAG)] := by decide
  obtain ⟨x, hx, hfact⟩ := List.map_eq_singleton_iff.mp hfacts
  simp only [Prod.mk.injEq, Option.map_eq_some_iff] at hfact
  obtain ⟨hsent, ⟨conn, hconn, hclosed⟩, hflags⟩ := hfact
  intro h
  rw [hx] at h
  have hsyn := ((h x (List.mem_singleton_self x) hsent conn hconn).syn hclosed).1
  rw [hflags] at hsyn
  exact absurd hsyn (by decide)

end System

/-! ## Acknowledgement numbers -/

/-- A received segment as a start and a length; SYN and FIN take one number each. -/
def RteTcpHdr.segment (hdr : RteTcpHdr) (payloadLen : UInt32) : UInt32 × UInt32 :=
  (rteBeToCpu32 hdr.sentSeq, payloadLen + (if hdr.has RTE_TCP_SYN_FLAG then 1 else 0) +
    (if hdr.has RTE_TCP_FIN_FLAG then 1 else 0))

/-- The packet acknowledges everything received: its `recv_ack` is the sequence number that
    follows the last segment. -/
def BuiltPacket.Acknowledges (b : BuiltPacket) (received : List (UInt32 × UInt32)) : Prop :=
  ∀ last, received.getLast? = some last → b.ackNumber = last.1 + last.2

namespace System

/-- The segments an event delivers to the flow `id`. -/
def received (id : UInt32) (sys : System) : Event → List (UInt32 × UInt32)
  | .receive key tcpHdr payloadLen _ =>
    if sys.scheduler.flowLookup.lookup key = some id then [tcpHdr.segment payloadLen] else []
  | _ => []

section

variable (inetAton : String → Option UInt32) (d : Dpdk) (r : Rng)

/-- The segments a run delivers to the flow `id`, in order. -/
def runReceived (id : UInt32) : System → List Event → List (UInt32 × UInt32) :=
  Run.collect (step inetAton d r) (received id)

/-- The packets a run is planned to put in bursts, each with whether the NIC takes it. -/
def runPlanned : System → List Event → List (PlannedPacket × Bool) :=
  Run.collect (step inetAton d r) planned

end

/-- A flow that is not replaced keeps its connection, and the connection numbers the flow's
    packets one after the other. -/
theorem counted_run {inetAton : String → Option UInt32} {d : Dpdk} {sys : System}
    (h : sys.scheduler.Invariant d) {id : UInt32} {conn : TCPConnectionState}
    (hconn : sys.scheduler.connection id = some conn) {events : List Event}
    (hkept : ∀ e ∈ events, ¬ e.Replaces inetAton id) :
    ∃ conn', (Run.run (step inetAton d r) sys events).scheduler.connection id = some conn' ∧
      Counted conn.sendSeq
        ((segmentsOf id (sys.runOutcomes inetAton d r events)).map (·.1)) conn'.sendSeq := by
  induction events generalizing sys conn with
  | nil => exact ⟨conn, hconn, rfl⟩
  | cons e events ih =>
    obtain ⟨conn₁, hconn₁, hcounted₁⟩ :=
      counted_step (r := r) h (hkept e List.mem_cons_self) hconn
    obtain ⟨conn', hconn', hcounted'⟩ :=
      ih (invariant_step h e) hconn₁ fun e' he' => hkept e' (List.mem_cons_of_mem _ he')
    refine ⟨conn', hconn', ?_⟩
    rw [runOutcomes, Run.collect, segmentsOf_append, List.map_append]
    exact counted_append hcounted₁ hcounted'

/-- **Acknowledgement numbers.** A stateful flow receives segments in order, each starting where
    the one before it ends, while the generator does anything else but replace the flow. A
    packet the NIC then takes of the flow acknowledges them if and only if the number to
    acknowledge, the first sequence number plus everything received, is zero. -/
theorem acknowledges_iff (inetAton : String → Option UInt32) (d : Dpdk) (r : Rng)
    (sys : System) (h : Reachable inetAton d r sys) (id : UInt32)
    (hflow : (sys.scheduler.connection id).isSome) (events : List Event)
    (hkept : ∀ e ∈ events, ¬ e.Replaces inetAton id) (first : UInt32 × UInt32)
    (rest : List (UInt32 × UInt32))
    (hreceived : sys.runReceived inetAton d r id events = first :: rest)
    (horder : Tiles (first :: rest)) (e : Event) (b : BuiltPacket)
    (hb : (b, true) ∈ (Run.run (step inetAton d r) sys events).outcomes d r e)
    (hid : b.flowId = id) :
    b.Acknowledges (sys.runReceived inetAton d r id events) ↔
      first.1 + ((first :: rest).map (·.2)).sum = 0 := by
  have hinv := invariant_of_reachable h
  obtain ⟨conn, hconn⟩ := Option.isSome_iff_exists.mp hflow
  obtain ⟨conn', hconn', -⟩ := counted_run (r := r) hinv hconn hkept
  have hinv' := invariant_of_reachable (h.run events)
  -- the packet is a segment of the flow's connection, whose `send_ack` is still zero
  obtain ⟨conn₀, hconn₀, -⟩ :=
    TCPConnectionState.exists_of_unsent (outcome_connection hinv' hb).symm (hid ▸ hconn')
  obtain ⟨hsegment, -, hzero⟩ := outcome_segment hinv' hb hconn₀
  -- segments in order end at the first number plus everything received
  obtain ⟨last, hlast⟩ : ∃ last, (first :: rest).getLast? = some last :=
    ⟨_, List.getLast?_eq_some_getLast (List.cons_ne_nil first rest)⟩
  rw [hreceived, BuiltPacket.Acknowledges, hlast, ← horder.end_eq hlast]
  simp only [Option.some.injEq, forall_eq', hsegment.ackNumber, hzero]
  exact eq_comm

/-- One packet of flow 2 leaves the NIC after ten bytes of data were received from `seq` on. -/
private theorem outcomes_dataAt (seq : UInt32)
    (hfacts : ((Run.run (step Server.sampleAton .reference .counting) opened
        [.dataAt seq]).outcomes .reference .counting (.passAt 1000000000 1)).map
        (fun x => (x.2, x.1.flowId)) = [(true, 2)]) :
    ∃ b : BuiltPacket, (b, true) ∈ (Run.run (step Server.sampleAton .reference .counting) opened
      [.dataAt seq]).outcomes .reference .counting (.passAt 1000000000 1) ∧ b.flowId = 2 := by
  obtain ⟨⟨b, sent⟩, hx, hfact⟩ := List.map_eq_singleton_iff.mp hfacts
  simp only [Prod.mk.injEq] at hfact
  obtain ⟨rfl, hid⟩ := hfact
  exact ⟨b, hx ▸ List.mem_singleton_self _, hid⟩

/-- The data received ends where the sequence numbers wrap. -/
theorem acknowledges_wrapped : ∃ b : BuiltPacket,
    (b, true) ∈ (Run.run (step Server.sampleAton .reference .counting) opened
      [.dataAt 4294967286]).outcomes .reference .counting (.passAt 1000000000 1) ∧
    b.Acknowledges (opened.runReceived Server.sampleAton .reference .counting 2
      [.dataAt 4294967286]) := by
  obtain ⟨b, hb, hid⟩ := outcomes_dataAt 4294967286 (by decide)
  refine ⟨b, hb, (acknowledges_iff _ _ _ opened reachable_opened 2 (by decide) _ ?_
    (4294967286, 10) [] (by decide) (by decide) _ b hb hid).mpr (by decide)⟩
  exact List.forall_mem_singleton.mpr id

/-- After ten bytes from 1000 on, the next segment of the flow does not acknowledge 1010. -/
theorem ack_of_nothing : (opened.scheduler.connection 2).isSome ∧
    opened.runReceived Server.sampleAton .reference .counting 2 [.dataAt 1000] = [(1000, 10)] ∧
    ∃ b : BuiltPacket, (b, true) ∈ (Run.run (step Server.sampleAton .reference .counting) opened
        [.dataAt 1000]).outcomes .reference .counting (.passAt 1000000000 1) ∧
      b.flowId = 2 ∧ ¬ b.Acknowledges [(1000, 10)] := by
  have hfacts : ((Run.run (step Server.sampleAton .reference .counting) opened
      [.dataAt 1000]).outcomes .reference .counting (.passAt 1000000000 1)).map
      (fun x => (x.2, x.1.flowId, x.1.ackNumber)) = [(true, 2, 0)] := by decide
  obtain ⟨⟨b, sent⟩, hx, hfact⟩ := List.map_eq_singleton_iff.mp hfacts
  simp only [Prod.mk.injEq] at hfact
  obtain ⟨rfl, hid, hack⟩ := hfact
  refine ⟨by decide, by decide, b, hx ▸ List.mem_singleton_self _, hid, fun h => ?_⟩
  have hnumber := h (1000, 10) rfl
  rw [hack] at hnumber
  exact absurd hnumber (by decide)

end System

/-! ## Send sequence numbers -/

/-- The segments of the flow `id` that the NIC accepted. -/
def acceptedSegments (id : UInt32) (outcomes : List (BuiltPacket × Bool)) :
    List (UInt32 × UInt32) :=
  ((segmentsOf id outcomes).filter (·.2)).map (·.1)

/-- The payload lengths planned for the flow `id`, each with whether the NIC takes it. -/
def attempts (id : UInt32) (planned : List (PlannedPacket × Bool)) : List (UInt32 × Bool) :=
  (planned.filter (·.1.flowId = id)).map fun x => (segmentPayload x.1.size, x.2)

theorem attempts_append (id : UInt32) (xs ys : List (PlannedPacket × Bool)) :
    attempts id (xs ++ ys) = attempts id xs ++ attempts id ys := by
  rw [attempts, List.filter_append, List.map_append]
  rfl

namespace System

/-- The payload lengths of a stateful flow's packets are those planned. -/
theorem attempts_outcomes {d : Dpdk} {sys : System} (h : sys.scheduler.Invariant d)
    {id : UInt32} (hflow : (sys.scheduler.connection id).isSome) (e : Event) :
    (segmentsOf id (sys.outcomes d r e)).map (fun x => (x.1.2, x.2)) =
      attempts id (sys.planned e) := by
  rw [← planned_outcomes r h, attempts, segmentsOf, List.filter_map, List.map_map, List.map_map]
  refine List.map_congr_left fun x hx => ?_
  -- each packet of the flow is a segment of its connection, so its size gives its payload
  obtain ⟨hx, hid⟩ := List.mem_filter.mp hx
  rw [decide_eq_true_iff] at hid
  obtain ⟨conn, hconn⟩ := Option.isSome_iff_exists.mp hflow
  obtain ⟨conn₀, hconn₀, -⟩ :=
    TCPConnectionState.exists_of_unsent (outcome_connection h hx).symm (hid ▸ hconn)
  have hpayload := (outcome_segment h hx hconn₀).1.payloadLen
  simp only [Function.comp_apply, hpayload, BuiltPacket.planned]

theorem attempts_runOutcomes {inetAton : String → Option UInt32} {d : Dpdk} {sys : System}
    (h : sys.scheduler.Invariant d) {id : UInt32}
    (hflow : (sys.scheduler.connection id).isSome) {events : List Event}
    (hkept : ∀ e ∈ events, ¬ e.Replaces inetAton id) :
    (segmentsOf id (sys.runOutcomes inetAton d r events)).map (fun x => (x.1.2, x.2)) =
      attempts id (sys.runPlanned inetAton d r events) := by
  induction events generalizing sys with
  | nil => rfl
  | cons e events ih =>
    obtain ⟨conn, hconn⟩ := Option.isSome_iff_exists.mp hflow
    obtain ⟨conn₁, hconn₁, -⟩ := counted_step (r := r) h (hkept e List.mem_cons_self) hconn
    have hrest := ih (invariant_step h e) (Option.isSome_iff_exists.mpr ⟨conn₁, hconn₁⟩)
      fun e' he' => hkept e' (List.mem_cons_of_mem _ he')
    rw [runOutcomes, runPlanned, Run.collect, Run.collect, segmentsOf_append, attempts_append,
      List.map_append, attempts_outcomes h hflow]
    exact congrArg (_ ++ ·) hrest

/-- **Contiguous send sequence.** As long as a stateful flow is not replaced, the segments of it
    that the NIC accepted tile the sequence space if and only if the payloads refused between
    two of them have length zero in sum. -/
theorem tiles_acceptedSegments_iff (inetAton : String → Option UInt32) (d : Dpdk) (r : Rng)
    (sys : System) (h : Reachable inetAton d r sys) (id : UInt32)
    (hflow : (sys.scheduler.connection id).isSome) (events : List Event)
    (hkept : ∀ e ∈ events, ¬ e.Replaces inetAton id) :
    Tiles (acceptedSegments id (sys.runOutcomes inetAton d r events)) ↔
      Gapless none (attempts id (sys.runPlanned inetAton d r events)) := by
  have hinv := invariant_of_reachable h
  obtain ⟨conn, hconn⟩ := Option.isSome_iff_exists.mp hflow
  obtain ⟨conn', -, hcounted⟩ := counted_run (r := r) hinv hconn hkept
  -- `send_seq` numbers every attempt, so the accepted ones are what the counter numbers
  rw [acceptedSegments, numbered_of_counted hcounted, attempts_runOutcomes hinv hflow hkept,
    tiles_numbered_iff]

/-- Two packets, both accepted. -/
theorem tiles_both_accepted : Tiles (acceptedSegments 2 (opened.runOutcomes Server.sampleAton
    .reference .counting [.passAt 1000000000 1, .passAt 2000000000 1])) := by
  have hattempts : attempts 2 (opened.runPlanned Server.sampleAton .reference .counting
      [.passAt 1000000000 1, .passAt 2000000000 1]) = [(10, true), (10, true)] := by decide
  refine (tiles_acceptedSegments_iff _ _ _ opened reachable_opened 2 (by decide) _ ?_).mpr ?_
  · exact List.forall_mem_cons.mpr ⟨id, List.forall_mem_singleton.mpr id⟩
  · rw [hattempts]
    exact ⟨rfl, trivial⟩

/-- Of three packets the NIC refuses the second: ten bytes are never sent. -/
theorem gap_after_refusal : ¬ Tiles (acceptedSegments 2 (opened.runOutcomes Server.sampleAton
    .reference .counting
    [.passAt 1000000000 1, .passAt 2000000000 0, .passAt 3000000000 1])) := by
  decide

end System

end TrafficGen
