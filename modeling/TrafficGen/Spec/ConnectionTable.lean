import TrafficGen.Spec.FlowTable

/-!
# What the scheduler's calls do to the connections

The connections of stateful flows, as a table of their own. Adding a flow makes a
closed connection, a received segment moves the connection its 5-tuple is indexed under,
and no other call touches one. Nothing a segment carries changes what the connection
sends, and a closed connection stays closed whatever it receives.

## Key results

- `keeps_receive`: only `SEND_SYN` opens a connection
- `connection_handleTcpRx`: what a received segment does to the table
-/

namespace TrafficGen

/-! ## Receiving on one connection -/

namespace TCPConnectionState

/-- What the connection sends is the same, and it is closed if it was. -/
structure Keeps (conn conn' : TCPConnectionState) : Prop where
  sendSeq : conn'.sendSeq = conn.sendSeq
  sendAck : conn'.sendAck = conn.sendAck
  closed : conn.state = .closed → conn'.state = .closed

theorem Keeps.refl (conn : TCPConnectionState) : conn.Keeps conn :=
  ⟨rfl, rfl, id⟩

theorem Keeps.trans {conn conn' conn'' : TCPConnectionState} (h : conn.Keeps conn')
    (h' : conn'.Keeps conn'') : conn.Keeps conn'' where
  sendSeq := h'.sendSeq.trans h.sendSeq
  sendAck := h'.sendAck.trans h.sendAck
  closed := fun hclosed => h'.closed (h.closed hclosed)

/-- Only `SEND_SYN` opens a closed connection. -/
theorem keeps_processEvent (conn : TCPConnectionState) {event : TCPEvent}
    (hevent : event ≠ .sendSyn) (nowNs : UInt64) :
    conn.Keeps (conn.processEvent event nowNs).2 := by
  have hnext : conn.state = .closed → conn.state.next event = none := by
    intro hclosed
    rw [hclosed]
    cases event with
    | sendSyn => exact absurd rfl hevent
    | _ => rfl
  simp only [processEvent]
  split
  · exact ⟨rfl, rfl, id⟩
  all_goals
    next heq =>
      refine ⟨rfl, rfl, fun hclosed => ?_⟩
      cases (hnext hclosed).symm.trans heq

theorem keeps_receive (conn : TCPConnectionState) (hdr : RteTcpHdr) (payloadLen : UInt32)
    (nowNs : UInt64) : conn.Keeps (conn.receive hdr payloadLen nowNs) := by
  -- the received numbers are not among what is kept
  have hnumbers : ∀ (conn : TCPConnectionState) recvSeq recvAck,
      conn.Keeps { conn with recvSeq := recvSeq, recvAck := recvAck } :=
    fun _ _ _ => ⟨rfl, rfl, id⟩
  have hevent : ∀ (conn : TCPConnectionState) recvSeq recvAck (event : TCPEvent),
      event ≠ .sendSyn → conn.Keeps
        ({ conn with recvSeq := recvSeq, recvAck := recvAck }.processEvent event nowNs).2 :=
    fun conn recvSeq recvAck _ h =>
      (hnumbers conn recvSeq recvAck).trans (keeps_processEvent _ h nowNs)
  have hpayload : ∀ conn' : TCPConnectionState, conn.Keeps conn' → conn.Keeps
      (if payloadLen > 0 then { conn' with recvSeq := rteBeToCpu32 hdr.sentSeq + payloadLen }
        else conn') := by
    intro conn' h
    split
    · exact h.trans ⟨rfl, rfl, id⟩
    · exact h
  have hfin : ∀ conn' : TCPConnectionState, conn.Keeps conn' → conn.Keeps
      (if hdr.has RTE_TCP_FIN_FLAG then
        ({ conn' with recvSeq := rteBeToCpu32 hdr.sentSeq }.processEvent .recvFin nowNs).2
        else conn') := by
    intro conn' h
    split
    · exact h.trans (hevent conn' _ conn'.recvAck .recvFin (by decide))
    · exact h
  -- SYN and ACK together, or else ACK and then FIN, each if set; the payload in either case
  refine hpayload _ ?_
  split
  · exact hevent conn _ _ .recvSynAck (by decide)
  · refine hfin _ ?_
    split
    · exact hevent conn conn.recvSeq _ .recvAck (by decide)
    · exact .refl conn

end TCPConnectionState

/-! ## The table -/

/-- The connection of a flow that takes part in stateful TCP. -/
def FlowConfigInternal.connection (f : FlowConfigInternal) : Option TCPConnectionState :=
  if f.isStatefulTcp then f.tcpState else none

theorem FlowConfigInternal.connection_eq_some {f : FlowConfigInternal}
    {conn : TCPConnectionState} :
    f.connection = some conn ↔ f.isStatefulTcp ∧ f.tcpState = some conn := by
  rw [connection]
  split
  · next h => simp only [h, true_and]
  · next h => simp only [h, Bool.false_eq_true, false_and, reduceCtorEq]

/-- The same settings and connection make the same stateful flow. -/
theorem FlowConfigInternal.connection_congr {f f' : FlowConfigInternal}
    (hsettings : f'.toFlowSettings = f.toFlowSettings) (hconn : f'.tcpState = f.tcpState) :
    f'.connection = f.connection := by
  have hstate : f'.isStatefulTcp = f.isStatefulTcp := by
    simp only [isStatefulTcp, hsettings, hconn]
  rw [connection, connection, hstate, hconn]

namespace FlowScheduler

/-- The connection of the stateful flow under `id`. -/
def connection (s : FlowScheduler) (id : UInt32) : Option TCPConnectionState :=
  (s.getFlow id).bind (·.connection)

theorem connection_eq_some {s : FlowScheduler} {id : UInt32} {conn : TCPConnectionState} :
    s.connection id = some conn ↔
      ∃ f, s.getFlow id = some f ∧ f.isStatefulTcp ∧ f.tcpState = some conn := by
  simp only [connection, Option.bind_eq_some_iff, FlowConfigInternal.connection_eq_some]

theorem connection_of_getFlow {s : FlowScheduler} {id : UInt32} {f : FlowConfigInternal}
    (h : s.getFlow id = some f) : s.connection id = f.connection := by
  rw [connection, h, Option.bind_some]

theorem connection_setFlow_self (s : FlowScheduler) (id : UInt32) (f : FlowConfigInternal) :
    (s.setFlow id f).connection id = f.connection :=
  connection_of_getFlow (getFlow_setFlow_self s id f)

theorem connection_setFlow_ne (s : FlowScheduler) {id id' : UInt32} (f : FlowConfigInternal)
    (h : id' ≠ id) : (s.setFlow id f).connection id' = s.connection id' := by
  rw [connection, connection, getFlow_setFlow_ne s f h]

/-- Changing anything but a flow's settings and connection changes no connection. -/
theorem connection_setFlow_of_same {s : FlowScheduler} {id : UInt32}
    {f f' : FlowConfigInternal} (hf : s.getFlow id = some f)
    (hsettings : f'.toFlowSettings = f.toFlowSettings) (hconn : f'.tcpState = f.tcpState) :
    (s.setFlow id f').connection = s.connection := by
  funext id'
  by_cases hid : id' = id
  · rw [hid, connection_setFlow_self, connection_of_getFlow hf,
      FlowConfigInternal.connection_congr hsettings hconn]
  · exact connection_setFlow_ne s f' hid

theorem connection_startFlow (s : FlowScheduler) (id : UInt32) (nowNs bucketNowNs : UInt64) :
    (s.startFlow id nowNs bucketNowNs).2.connection = s.connection := by
  rcases s.setFlow_of_startFlow id nowNs bucketNowNs with heq | ⟨f, bucket, hf, heq⟩
  · rw [heq]
  · rw [heq]
    exact connection_setFlow_of_same hf rfl rfl

theorem connection_stopFlow (s : FlowScheduler) (id : UInt32) :
    (s.stopFlow id).2.connection = s.connection := by
  rcases s.setFlow_of_stopFlow id with heq | ⟨f, hf, heq⟩
  · rw [heq]
  · rw [heq]
    exact connection_setFlow_of_same hf rfl rfl

theorem connection_getReadyFlows (s : FlowScheduler) (maxFlows : UInt32) (order : List UInt32)
    (nowNs : UInt64) (bucketNowNs : UInt32 → UInt64) :
    (s.getReadyFlows maxFlows order nowNs bucketNowNs).2.connection = s.connection := by
  funext id
  have hsame := s.getFlow_getReadyFlows maxFlows order nowNs bucketNowNs id
  have hconn : ∀ o : Option FlowConfigInternal,
      o.bind (·.connection) = (o.map (·.unscheduled)).bind (·.connection) := by
    intro o
    cases o <;> rfl
  rw [connection, connection, hconn, hsame, ← hconn]

/-- The connection of a flow that was just added is a new one. -/
theorem connection_newFlow {d : Dpdk} {srcMac : List UInt8} {config : FlowSettings}
    {nowNs : UInt64} {f : FlowConfigInternal} (h : newFlow d srcMac config nowNs = some f) :
    f.connection = none ∨ f.connection = some (newTcpState config.flowKey) := by
  cases hconn : f.connection with
  | none => exact .inl rfl
  | some conn =>
    right
    obtain ⟨dstMac, template, bucket, -, rfl⟩ := newFlow_eq_some h
    -- `add_flow` makes a connection for stateful TCP only
    have hstored := (FlowConfigInternal.connection_eq_some.mp hconn).2
    dsimp only at hstored
    split at hstored
    · exact hstored.symm
    · cases hstored

/-- Adding a flow leaves its connection as it was, or if it is accepted replaces it by none or
    a new one. -/
theorem connection_addFlow (s : FlowScheduler) (d : Dpdk) (config : FlowSettings)
    (nowNs : UInt64) (id : UInt32) :
    (s.addFlow d config nowNs).2.connection id = s.connection id ∨
      id = config.flowId ∧ config.Acceptable ∧
        ((s.addFlow d config nowNs).2.connection id = none ∨
          (s.addFlow d config nowNs).2.connection id = some (newTcpState config.flowKey)) := by
  by_cases hid : id = config.flowId
  · rcases s.addFlow_cases d config nowNs with ⟨-, heq⟩ | ⟨hacc, f, hf, heq⟩
    · exact .inl (by rw [heq])
    · refine .inr ⟨hid, hacc, ?_⟩
      have hstored : (s.addFlow d config nowNs).2.getFlow id = some f := by
        rw [heq, hid]
        exact AList.lookup_insert s.flows
      rw [connection_of_getFlow hstored]
      exact connection_newFlow hf
  · exact .inl (by rw [connection, connection, getFlow_addFlow_ne s d nowNs hid])

/-- A received segment is taken in by the connection its 5-tuple is indexed under. -/
theorem connection_handleTcpRx (s : FlowScheduler) (key : FlowKey) (hdr : RteTcpHdr)
    (payloadLen : UInt32) (nowNs : UInt64) (id : UInt32) :
    (s.handleTcpRx key hdr payloadLen nowNs).connection id = s.connection id ∨
    ∃ conn, s.flowLookup.lookup key = some id ∧ s.connection id = some conn ∧
      (s.handleTcpRx key hdr payloadLen nowNs).connection id =
        some (conn.receive hdr payloadLen nowNs) := by
  rcases s.handleTcpRx_cases key hdr payloadLen nowNs with
    heq | ⟨id', f, conn, hlookup, hf, hstate, hconn, heq⟩
  · exact .inl (by rw [heq])
  · by_cases hid : id = id'
    · subst hid
      refine .inr ⟨conn, hlookup, connection_eq_some.mpr ⟨f, hf, hstate, hconn⟩, ?_⟩
      rw [heq, connection_setFlow_self, FlowConfigInternal.connection_eq_some]
      refine ⟨?_, rfl⟩
      simpa only [FlowConfigInternal.isStatefulTcp, hconn, Option.isSome_some] using hstate
    · exact .inl (by rw [heq, connection_setFlow_ne _ _ hid])

end FlowScheduler

end TrafficGen
