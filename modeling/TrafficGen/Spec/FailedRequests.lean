import TrafficGen.Spec.FlowRequests

/-!
# What a failed request leaves behind

`ConfigureIMIX` checks a whole profile before it takes it. `ConfigureFlows` adds the flows it
can and reports the others, so a request that fails may have changed the table, by its
accepted flows and nothing else. `StartTraffic` finds out that there is nothing to start after
it has reset the statistics.

## Key results

- `addAll_filter`: a rejected flow leaves no trace
- `failsAs_step`: what a failed request may have changed
-/

namespace TrafficGen

namespace FlowScheduler

/-- Rejected flows are as if they had not been in the list. -/
theorem addAll_filter (d : Dpdk) (s : FlowScheduler) (additions : List Addition) :
    s.addAll d (additions.filter fun a => a.1.Acceptable) = s.addAll d additions := by
  induction additions generalizing s with
  | nil => rfl
  | cons a additions ih =>
    by_cases hacc : a.1.Acceptable
    · rw [List.filter_cons, if_pos (decide_eq_true hacc)]
      exact ih (s.addFlow d a.1 a.2).2
    · -- the scheduler before the rejected flow is the one after it
      rw [List.filter_cons, if_neg (by simpa using hacc), ih]
      show _ = addAll d (s.addFlow d a.1 a.2).2 additions
      rcases s.addFlow_cases d a.1 a.2 with ⟨-, heq⟩ | ⟨hacc', -⟩
      · rw [heq]
      · exact absurd hacc' hacc

end FlowScheduler

namespace System

variable (inetAton : String → Option UInt32) (d : Dpdk) (r : Rng)

/-- The answer to a request that may fail. -/
def answer (sys : System) : Event → Option StatusResponse
  | .configureFlows request nowNs => some (Server.configureFlows inetAton d sys request nowNs).1
  | .configureIMIX request => some (Server.configureIMIX sys request).1
  | .startTraffic request order nowNs clock =>
    some (Server.startTraffic sys request order nowNs clock).1
  | _ => none

/-- The same flows under the same ids, and the same 5-tuples leading to them. -/
structure SameFlows (sys sys' : System) : Prop where
  flows : ∀ id, sys'.scheduler.getFlow id = sys.scheduler.getFlow id
  index : ∀ key, sys'.scheduler.flowLookup.lookup key = sys.scheduler.flowLookup.lookup key

/-- The same flows, IMIX profile and metrics. -/
structure Unchanged (sys sys' : System) : Prop extends SameFlows sys sys' where
  imixEngine : sys'.imixEngine = sys.imixEngine
  metrics : sys'.metricsCollector = sys.metricsCollector

/-- If the event is a request that fails, it leaves no trace. -/
def FailsWithoutTrace (sys : System) (e : Event) : Prop :=
  ∀ response, sys.answer inetAton d e = some response → response.success = false →
    Unchanged sys (sys.step inetAton d r e)

/-- What a failed request leaves: a profile that is refused changes nothing; of a list of flows
    the accepted ones are added, and the message names the others; traffic that is not started
    leaves the flows and the profile alone, and the metrics if it was not to reset them. -/
def FailedAs (sys : System) (response : StatusResponse) (sys' : System) : Event → Prop
  | .configureFlows request nowNs =>
    sys'.scheduler = sys.scheduler.addAll d
        ((Server.additions inetAton request nowNs).filter fun a => a.1.Acceptable) ∧
      sys'.imixEngine = sys.imixEngine ∧ sys'.metricsCollector = sys.metricsCollector ∧
      response.message = "Some flows failed to configure: " ++
        (Server.rejectedFlows inetAton request).foldl
          (fun message flow => message ++ Server.rejection flow) ""
  | .startTraffic request .. =>
    SameFlows sys sys' ∧ sys'.imixEngine = sys.imixEngine ∧
      sys'.metricsCollector.running = sys.metricsCollector.running ∧
      (request.resetStats = false → Unchanged sys sys')
  | _ => Unchanged sys sys'

/-- If the event is a request that fails, it leaves what such a request may leave. -/
def FailsAs (sys : System) (e : Event) : Prop :=
  ∀ response, sys.answer inetAton d e = some response → response.success = false →
    FailedAs inetAton d sys response (sys.step inetAton d r e) e

variable {inetAton d r}

theorem unchanged_refl (sys : System) : Unchanged sys sys where
  flows := fun _ => rfl
  index := fun _ => rfl
  imixEngine := rfl
  metrics := rfl

/-- **Failed requests.** Whatever the state, a request that fails leaves what such a request may
    leave. -/
theorem failsAs_step (inetAton : String → Option UInt32) (d : Dpdk) (r : Rng) (sys : System)
    (e : Event) : sys.FailsAs inetAton d r e := by
  intro response hanswer hfail
  cases e with
  | configureFlows request nowNs =>
    obtain ⟨hsys, -, hmessage⟩ := Server.configureFlows_spec inetAton d sys request nowNs
    obtain rfl := Option.some.inj hanswer
    refine ⟨?_, ?_, ?_, hmessage hfail⟩
    · rw [step, hsys, FlowScheduler.addAll_filter]
    · rw [step, hsys]
    · rw [step, hsys]
  | configureIMIX request =>
    obtain rfl := Option.some.inj hanswer
    show Unchanged sys (Server.configureIMIX sys request).2
    by_cases hvalid :
        validateEntries (request.entries.map Server.convertProtoImixEntry) = true
    · simp [Server.configureIMIX, IMIXEngine.configure, hvalid] at hfail
    · have hsame : (Server.configureIMIX sys request).2 = sys := by
        simp [Server.configureIMIX, IMIXEngine.configure, hvalid]
      rw [hsame]
      exact unchanged_refl sys
  | startTraffic request order nowNs clock =>
    obtain rfl := Option.some.inj hanswer
    simp only [FailedAs, step, Server.startTraffic] at hfail ⊢
    split at hfail
    · next hempty =>
      -- nothing to start: only the reset has happened, if there was one
      rw [if_pos hempty]
      refine ⟨⟨fun _ => rfl, fun _ => rfl⟩, rfl, ?_, fun hreset => ?_⟩
      · split <;> rfl
      · rw [hreset]
        exact unchanged_refl sys
    · cases hfail
  | stopTraffic | workerPass | receive => cases hanswer

/-- A flow that is accepted, and one of a protocol that is not supported. -/
def partialRequest : Event :=
  .configureFlows ⟨[.sample 1 1000, { Flow.sample 2 2000 with protocol := "sctp" }], true⟩
    fun _ => 0

/-- Traffic is to start with fresh statistics, at time 5. -/
def startAfresh : Event := .startTraffic ⟨true⟩ [] 5 fun _ => ⟨5, 5⟩

/-- The first request fails and leaves flow 1 configured; the second fails for want of flows and
    leaves another start time. -/
theorem trace_of_failed :
    Reachable Server.sampleAton .reference .counting fresh ∧
      ¬ fresh.FailsWithoutTrace Server.sampleAton .reference .counting partialRequest ∧
      ¬ fresh.FailsWithoutTrace Server.sampleAton .reference .counting startAfresh := by
  refine ⟨reachable_fresh _ _ _, fun h => ?_, fun h => ?_⟩
  · have hsame := (h _ rfl (by decide)).flows 1
    have hflow : ((fresh.step Server.sampleAton .reference .counting
        partialRequest).scheduler.getFlow 1).isSome = true := by decide
    rw [hsame] at hflow
    cases hflow
  · have hsame := (h _ rfl (by decide)).metrics
    have hstart : (fresh.step Server.sampleAton .reference .counting
        startAfresh).metricsCollector.startTimeNs = 5 := by decide
    rw [hsame] at hstart
    cases hstart

end System

end TrafficGen
