import TrafficGen.Control.Runner
import TrafficGen.Spec.RateShaping

/-!
# Generators that never send

A packet takes two turns of a pass, and each ready flow has one turn. So a generator that was only
ever given flows of one id builds no packet at all, however often it is started and whatever the
pool answers. The RFC 2544 runner configures one flow.

## Key results

- `silent_of_single`: with flows of one id, nothing is built and nothing reported
- `silent_rfc2544Runner`: no run of the runner sends a packet
-/

namespace TrafficGen

variable {r : Rng}

namespace System

variable {inetAton : String → Option UInt32} {d : Dpdk} {sys : System} {id : UInt32}

/-- The event configures no flow but that of the id. -/
def Event.ConfiguresOnly (id : UInt32) : Event → Prop
  | .configureFlows request _ => ∀ flow ∈ request.flows, flow.flowId = id
  | _ => True

/-- There is no flow but that of the id. -/
def Single (sys : System) (id : UInt32) : Prop :=
  ∀ id', id' ≠ id → sys.scheduler.sent id' = none

theorem Single.step (h : sys.Single id) (hinvariant : sys.scheduler.Invariant d) {e : Event}
    (he : e.ConfiguresOnly id) : (sys.step inetAton d r e).Single id := by
  intro id' hne
  have hkept : ¬ e.Replaces inetAton id' := by
    intro hreplaces
    cases e with
    | configureFlows request nowNs =>
      obtain ⟨flow, hflow, hid, -⟩ := hreplaces
      exact hne (hid.symm.trans (he flow hflow))
    | _ => exact hreplaces
  rw [sent_step r hinvariant hkept, h id' hne, Option.map_none]

/-- Then no more than one flow is ready at a time. -/
theorem Single.length_served (h : sys.Single id) (e : Event) : (sys.served e).length ≤ 1 := by
  cases e with
  | workerPass cfg input =>
    obtain ⟨visited, hstart, hready, -, -⟩ := sys.scheduler.getReadyFlows_visits
      cfg.txBurstSize.toUInt32 input.order input.nowNs input.bucketNowNs
    have hnodup : (sys.served (.workerPass cfg input)).Nodup := by
      rw [served, hready]
      exact ((FlowScheduler.nodup_walk _ sys.scheduler.flows.keys_nodup).sublist
        hstart.sublist).filter _
    have hall : ∀ id' ∈ sys.served (.workerPass cfg input), id' = id := by
      intro id' hid'
      by_contra hne
      obtain ⟨f, hf, -⟩ := (sys.scheduler.due_getReadyFlows cfg.txBurstSize.toUInt32 input.order
        input.nowNs input.bucketNowNs).2 id' hid'
      have hnone := h id' hne
      rw [FlowScheduler.sent, hf] at hnone
      cases hnone
    exact (hnodup.subperm fun id' hid' => List.mem_singleton.mpr (hall id' hid')).length_le
  | _ => exact Nat.zero_le 1

/-- And an event builds nothing. -/
theorem Single.outcomes_eq_nil (h : sys.Single id) (hinvariant : sys.scheduler.Invariant d)
    (e : Event) : sys.outcomes d r e = [] := by
  have htwo := (outcomes_served r hinvariant e).2
  have hone := h.length_served e
  exact List.length_eq_zero_iff.mp (by omega)

/-- Without packets nothing is accepted, and nothing reported. -/
theorem txReports_eq_nil {e : Event} (h : sys.outcomes d r e = []) : sys.txReports d r e = [] := by
  cases e with
  | workerPass cfg input =>
    have hbuilt : (Worker.processFlows cfg d r sys input).2.built = [] := by
      rw [← PassReport.map_fst_outcomes]
      exact congrArg (List.map _) h
    rw [Worker.processFlows_eq_sendReady,
      Worker.sendReady_report cfg d r _ input.time _ input.tx rfl] at hbuilt
    have haccepted : (Worker.processFlows cfg d r sys input).2.accepted = [] := by
      rw [Worker.processFlows_eq_sendReady,
        Worker.sendReady_report cfg d r _ input.time _ input.tx rfl]
      dsimp only at hbuilt ⊢
      rw [hbuilt]
      exact List.take_nil
    simp only [txReports, Worker.txReports, haccepted, List.isEmpty_nil, if_true]
  | _ => rfl

/-- From a state with one flow on, nothing is built as long as no other flow is configured. -/
theorem Single.silent (h : sys.Single id) (hinvariant : sys.scheduler.Invariant d)
    {events : List Event} (hone : ∀ e ∈ events, e.ConfiguresOnly id) :
    sys.runOutcomes inetAton d r events = [] ∧ sys.runReports inetAton d r events = [] := by
  induction events generalizing sys with
  | nil => exact ⟨rfl, rfl⟩
  | cons e events ih =>
    have hnone := h.outcomes_eq_nil (r := r) hinvariant e
    obtain ⟨houtcomes, hreports⟩ := ih (h.step hinvariant (hone e List.mem_cons_self))
      (invariant_step hinvariant e) fun e' he' => hone e' (List.mem_cons_of_mem e he')
    rw [runOutcomes, runReports, Run.collect_cons, Run.collect_cons, hnone,
      txReports_eq_nil hnone]
    exact ⟨houtcomes, hreports⟩

theorem Initial.single (h : sys.Initial) (id : UInt32) : sys.Single id := by
  obtain ⟨srcMac, hnew⟩ := h
  intro id' _
  rw [hnew, FlowScheduler.sent, FlowScheduler.getFlow, FlowScheduler.new, AList.lookup_empty]
  rfl

theorem Initial.invariant (h : sys.Initial) (d : Dpdk) : sys.scheduler.Invariant d := by
  obtain ⟨srcMac, hnew⟩ := h
  exact hnew ▸ FlowScheduler.invariant_new d srcMac

/-- **One flow is none.** Over any run from a start of the generator whose requests configure flows
    of one id only, no packet is put in a burst, and nothing is reported to the collector. -/
theorem silent_of_single (h : sys.Initial) {events : List Event}
    (hone : ∀ e ∈ events, e.ConfiguresOnly id) :
    sys.runOutcomes inetAton d r events = [] ∧ sys.runReports inetAton d r events = [] :=
  (h.single id).silent (h.invariant d) hone

/-- Flow 2 is configured, started and polled; every second call to the pool fails. -/
theorem silent_of_single_fresh :
    fresh.runOutcomes Server.sampleAton .reference .counting
      [.configureFlows ⟨[.sample 2 2000], true⟩ fun _ => 0,
        .startTraffic ⟨false⟩ [] 1 fun _ => ⟨1, 1⟩, .passAt 1000000000 1] = [] :=
  have hone : ∀ e ∈ [.configureFlows ⟨[.sample 2 2000], true⟩ fun _ => 0,
      .startTraffic ⟨false⟩ [] 1 fun _ => ⟨1, 1⟩, .passAt 1000000000 1],
      Event.ConfiguresOnly 2 e := by
    intro e he
    simp only [List.mem_cons, List.not_mem_nil, or_false] at he
    rcases he with rfl | rfl | rfl
    · intro flow hflow
      rw [List.mem_singleton.mp hflow]
      rfl
    · trivial
    · trivial
  (silent_of_single ⟨[], rfl⟩ hone).1

/-- **The runner sends nothing.** Whatever passes the workers make and segments they receive before,
    between and after the requests of the runner, and however far it gets, no packet is put in a
    burst, and nothing is reported to the collector. -/
theorem silent_rfc2544Runner (h : sys.Initial) {sourceIp targetIp targetMac : String}
    {events : List Event}
    (hrunner : events.filterMap (·.request) <+: Rfc2544Runner.main sourceIp targetIp targetMac) :
    sys.runOutcomes inetAton d r events = [] ∧ sys.runReports inetAton d r events = [] := by
  refine (h.single 1).silent (h.invariant d) fun e he => ?_
  cases e with
  | configureFlows request nowNs =>
    have hmem : ClientRequest.configureFlows request ∈
        Rfc2544Runner.main sourceIp targetIp targetMac :=
      hrunner.subset (List.mem_filterMap.mpr ⟨_, he, rfl⟩)
    have hrequest : request =
        Client.flowConfig [Rfc2544Runner.flow sourceIp targetIp targetMac] true := by
      simpa [Rfc2544Runner.main] using hmem
    rw [hrequest]
    intro flow hflow
    rw [List.mem_singleton.mp hflow]
    rfl
  | _ => trivial

/-- The runner has been through, with two passes while it waits. -/
theorem silent_rfc2544Runner_fresh :
    let flows := Client.flowConfig [Rfc2544Runner.flow "10.0.0.1" "10.0.0.2" ""] true
    fresh.runOutcomes Server.sampleAton .reference .counting
      [.configureIMIX (Client.imixConfig Rfc2544Runner.profile Rfc2544Runner.targetPps),
        .configureFlows flows fun _ => 0, .startTraffic ⟨true⟩ [] 1 fun _ => ⟨1, 1⟩,
        .passAt 1000000000 1, .passAt 2000000000 1, .stopTraffic []] = [] :=
  (silent_rfc2544Runner ⟨[], rfl⟩ (List.prefix_refl _)).1

end System

end TrafficGen
