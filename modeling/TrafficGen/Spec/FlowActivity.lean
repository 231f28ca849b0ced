import Mathlib.Data.List.Induction
import TrafficGen.Control.Server
import TrafficGen.Spec.FlowTable

/-!
# A flow transmits only while it is running

Every call on the scheduler holds its mutex, so calls come one after the other; the RPCs that
start and stop all flows take a snapshot of the ids and make one call for each, and workers
may poll in between. Whatever the order, a poll returns a flow only if the last thing done
to it was to start it, and its duration is not over since.

## Key results

- `started_of_active`: an active flow was last started, at its start time
- `noneActive_stopTraffic`: after `StopTraffic` no flow is active
- `ready_only_running`: what a poll returns is running
-/

namespace TrafficGen.FlowScheduler

/-! ## Calls, and what makes them -/

/-- One `get_ready_flows` call of a worker. -/
structure Poll where
  maxFlows : UInt32
  order : List UInt32
  nowNs : UInt64
  bucketNowNs : UInt32 → UInt64

/-- One call on the scheduler. -/
inductive Call where
  | control (op : Op)
  | poll (p : Poll)

/-- The flows a poll returns. -/
def ready (s : FlowScheduler) (p : Poll) : List UInt32 :=
  (s.getReadyFlows p.maxFlows p.order p.nowNs p.bucketNowNs).1

/-- The scheduler after a call. -/
def call (d : Dpdk) (s : FlowScheduler) : Call → FlowScheduler
  | .control op => s.step d op
  | .poll p => (s.getReadyFlows p.maxFlows p.order p.nowNs p.bucketNowNs).2

/-- A call, or an RPC that makes one call for each flow of its snapshot. Workers make the calls
    `polls id` before the one for the flow `id`. -/
inductive Activity where
  | call (c : Call)
  | startTraffic (order : List UInt32) (clock : UInt32 → Server.StartClock)
      (polls : UInt32 → List Poll)
  | stopTraffic (order : List UInt32) (polls : UInt32 → List Poll)

/-- The calls an activity comes down to. -/
def calls (s : FlowScheduler) : Activity → List Call
  | .call c => [c]
  | .startTraffic order clock polls =>
    (walk order s.flows.keys).flatMap fun id =>
      (polls id).map .poll ++ [.control (.startFlow id (clock id).nowNs (clock id).bucketNowNs)]
  | .stopTraffic order polls =>
    (s.getActiveFlows order).flatMap fun id => (polls id).map .poll ++ [.control (.stopFlow id)]

/-- The scheduler after an activity. -/
def perform (d : Dpdk) (s : FlowScheduler) (a : Activity) : FlowScheduler :=
  Run.run (call d) s (s.calls a)

/-- The calls of a whole history. -/
def trace (d : Dpdk) : FlowScheduler → List Activity → List Call :=
  Run.collect (perform d) calls

/-- Without workers the RPCs of the server are these activities. -/
theorem scheduler_startTraffic (d : Dpdk) (sys : System) (request : StartRequest)
    (order : List UInt32) (nowNs : UInt64) (clock : UInt32 → Server.StartClock) :
    (Server.startTraffic sys request order nowNs clock).2.scheduler =
      perform d sys.scheduler (.startTraffic order clock fun _ => []) := by
  rw [perform, calls, Run.run_flatMap, Server.startTraffic]
  dsimp only
  split
  · next hempty => rw [List.isEmpty_iff.mp hempty]; rfl
  · rfl

theorem scheduler_stopTraffic (d : Dpdk) (sys : System) (order : List UInt32) :
    (Server.stopTraffic sys order).2.scheduler =
      perform d sys.scheduler (.stopTraffic order fun _ => []) := by
  rw [perform, calls, Run.run_flatMap]
  rfl

/-! ## The last thing done to a flow -/

/-- The call adds, starts or stops the flow `id`. A rejected `add_flow` does none of it. -/
def Call.touches (id : UInt32) : Call → Bool
  | .control (.addFlow config _) => config.flowId = id ∧ config.Acceptable
  | .control (.startFlow id' _ _) => id' = id
  | .control (.stopFlow id') => id' = id
  | _ => false

/-- The last call that added, started or stopped the flow `id`. -/
def latest (id : UInt32) (calls : List Call) : Option Call :=
  (calls.filter (·.touches id)).getLast?

theorem latest_concat_of_touches {id : UInt32} {c : Call} (calls : List Call)
    (h : c.touches id = true) : latest id (calls ++ [c]) = some c := by
  simp [latest, List.filter_append, h]

theorem latest_concat_of_not_touches {id : UInt32} {c : Call} (calls : List Call)
    (h : c.touches id = false) : latest id (calls ++ [c]) = latest id calls := by
  simp [latest, List.filter_append, h]

/-- An active flow was last started, at its start time. -/
def ActiveStarted (s : FlowScheduler) (calls : List Call) : Prop :=
  ∀ id f, s.getFlow id = some f → f.active = true →
    ∃ bucketNowNs, latest id calls = some (.control (.startFlow id f.startTimeNs bucketNowNs))

variable {d : Dpdk} {s : FlowScheduler}

theorem active_newFlow {srcMac : List UInt8} {config : FlowSettings} {nowNs : UInt64}
    {f : FlowConfigInternal} (h : newFlow d srcMac config nowNs = some f) : f.active = false := by
  obtain ⟨_, _, _, _, rfl⟩ := newFlow_eq_some h
  rfl

/-- A flow that is active after a call was started by it, or was active before, since the same
    time, and is not touched by it. -/
theorem active_call {id : UInt32} {c : Call} {f : FlowConfigInternal}
    (hf : (s.call d c).getFlow id = some f) (hactive : f.active = true) :
    (∃ bucketNowNs, c = .control (.startFlow id f.startTimeNs bucketNowNs)) ∨
    (c.touches id = false ∧ ∃ f₀, s.getFlow id = some f₀ ∧ f₀.active = true ∧
      f.startTimeNs = f₀.startTimeNs) := by
  rcases c with op | p
  · have heffect := effect_step d s op id
    rw [show (s.step d op).getFlow id = some f from hf] at heffect
    generalize hout : some f = out at heffect
    cases heffect with
    | keep _ hspares =>
      refine .inr ⟨?_, f, hout.symm, hactive, rfl⟩
      -- the flow is there, so the call is about another one, or refused
      cases op with
      | addFlow config nowNs => simpa [Call.touches, Op.Spares] using hspares
      | startFlow id' => simpa [Call.touches, Op.Spares, ← hout] using hspares
      | stopFlow id' => simpa [Call.touches, Op.Spares, ← hout] using hspares
      | removeFlow | clearAllFlows => rfl
    | gone => cases hout
    | add config nowNs f' _ _ hnew =>
      -- a flow just added is not active
      rw [Option.some.inj hout, active_newFlow hnew] at hactive
      cases hactive
    | start nowNs bucketNowNs f₀ hf₀ =>
      rw [Option.some.inj hout]
      exact .inl ⟨bucketNowNs, rfl⟩
    | stop f₀ hf₀ =>
      rw [Option.some.inj hout] at hactive
      cases hactive
  · -- a poll keeps start times, and starts nothing
    obtain ⟨f₀, hf₀, hsame, hactive₀⟩ :=
      (s.due_getReadyFlows p.maxFlows p.order p.nowNs p.bucketNowNs).1 id f hf
    have hstart : f.startTimeNs = f₀.startTimeNs := congrArg (·.startTimeNs) hsame
    exact .inr ⟨rfl, f₀, hf₀, hactive₀ hactive, hstart⟩

/-- Every call keeps it. -/
theorem ActiveStarted.call {calls : List Call} (h : s.ActiveStarted calls) (c : Call) :
    (s.call d c).ActiveStarted (calls ++ [c]) := by
  intro id f hf hactive
  rcases active_call hf hactive with ⟨bucketNowNs, rfl⟩ | ⟨htouch, f₀, hf₀, hactive₀, hstart⟩
  · exact ⟨bucketNowNs, latest_concat_of_touches calls (by simp [Call.touches])⟩
  · rw [latest_concat_of_not_touches calls htouch, hstart]
    exact h id f₀ hf₀ hactive₀

theorem started_of_active (d : Dpdk) (srcMac : List UInt8) (calls : List Call) :
    (Run.run (call d) (new srcMac) calls).ActiveStarted calls := by
  induction calls using List.reverseRecOn with
  | nil =>
    intro id f hf
    simp only [Run.run_nil, getFlow, new, AList.lookup_empty] at hf
    cases hf
  | append_singleton calls c ih =>
    rw [Run.run_append]
    exact ih.call c

/-! ## Running flows -/

/-- The clock read of a call that start times and durations go by. -/
def Call.time : Call → Option UInt64
  | .control (.startFlow _ nowNs _) => some nowNs
  | .poll p => some p.nowNs
  | _ => none

/-- The clock is positive, and does not run backwards over the calls. -/
structure ClockRuns (calls : List Call) : Prop where
  positive : ∀ t ∈ calls.filterMap Call.time, 0 < t
  monotone : (calls.filterMap Call.time).Pairwise (· ≤ ·)

theorem ClockRuns.of_prefix {calls calls' : List Call} (h : ClockRuns calls)
    (hle : calls' <+: calls) : ClockRuns calls' where
  positive t ht := h.positive t ((hle.filterMap Call.time).subset ht)
  monotone := h.monotone.sublist (hle.filterMap Call.time).sublist

/-- After the calls, at time `nowNs`, the flow `id` is running: it is configured, the last thing
    done to it was to start it, at a time not later, and its duration is not over since. -/
def Running (d : Dpdk) (srcMac : List UInt8) (calls : List Call) (id : UInt32) (nowNs : UInt64) :
    Prop :=
  ∃ f startNs bucketNowNs, (Run.run (call d) (new srcMac) calls).getFlow id = some f ∧
    latest id calls = some (.control (.startFlow id startNs bucketNowNs)) ∧ startNs ≤ nowNs ∧
    (f.durationSeconds ≠ 0 →
      nowNs.toNat < startNs.toNat + f.durationSeconds.toNat * 1000000000)

/-- An unexpired flow started at a positive time not later than `nowNs` is within its duration:
    the elapsed time does not wrap. -/
theorem within_duration {f : FlowConfigInternal} {nowNs : UInt64}
    (h : f.isExpired nowNs = false) (hpos : 0 < f.startTimeNs) (hle : f.startTimeNs ≤ nowNs)
    (hduration : f.durationSeconds ≠ 0) :
    nowNs.toNat < f.startTimeNs.toNat + f.durationSeconds.toNat * 1000000000 := by
  have hstart : f.startTimeNs ≠ 0 := by
    rintro hzero
    rw [hzero] at hpos
    exact absurd hpos (by decide)
  simp only [FlowConfigInternal.isExpired, if_neg hduration, if_neg hstart,
    decide_eq_false_iff_not, ge_iff_le, UInt64.le_iff_toNat_le, not_le] at h
  have hsub : (nowNs - f.startTimeNs).toNat = nowNs.toNat - f.startTimeNs.toNat :=
    UInt64.toNat_sub_of_le _ _ hle
  -- 32 bits of seconds are fewer than 64 bits of nanoseconds
  have hlt := f.durationSeconds.toNat_lt
  have hmul : (f.durationSeconds.toUInt64 * 1000000000).toNat =
      f.durationSeconds.toNat * 1000000000 := by
    rw [UInt64.toNat_mul, UInt32.toNat_toUInt64]
    exact Nat.mod_eq_of_lt (by show _ * 1000000000 < _; omega)
  have hle' := UInt64.le_iff_toNat_le.mp hle
  omega

/-- What a poll returns after some calls is running. -/
theorem running_of_mem_ready (d : Dpdk) (srcMac : List UInt8) {calls : List Call} {p : Poll}
    (hclock : ClockRuns (calls ++ [.poll p])) {id : UInt32}
    (hid : id ∈ (Run.run (call d) (new srcMac) calls).ready p) :
    Running d srcMac calls id p.nowNs := by
  obtain ⟨f, hf, hactive, hexpired⟩ :=
    (due_getReadyFlows _ p.maxFlows p.order p.nowNs p.bucketNowNs).2 id hid
  obtain ⟨bucketNowNs, hlatest⟩ := started_of_active d srcMac calls id f hf hactive
  have hmem : f.startTimeNs ∈ calls.filterMap Call.time :=
    List.mem_filterMap.mpr ⟨_, List.mem_of_mem_filter (List.mem_of_getLast? hlatest), rfl⟩
  have hmono := hclock.monotone
  rw [List.filterMap_append, List.pairwise_append] at hmono
  have hle : f.startTimeNs ≤ p.nowNs := hmono.2.2 _ hmem _ List.mem_cons_self
  have hpos : 0 < f.startTimeNs :=
    hclock.positive _ (by rw [List.filterMap_append]; exact List.mem_append_left _ hmem)
  exact ⟨f, f.startTimeNs, bucketNowNs, hf, hlatest, hle,
    within_duration hexpired hpos hle⟩

/-! ## After `StopTraffic` -/

/-- No flow is active. -/
def NoneActive (s : FlowScheduler) : Prop :=
  ∀ id f, s.getFlow id = some f → f.active = false

/-- The active flows are among `ids`. -/
def ActiveAmong (s : FlowScheduler) (ids : List UInt32) : Prop :=
  ∀ id f, s.getFlow id = some f → f.active = true → id ∈ ids

theorem Cools.activeAmong {s' : FlowScheduler} (h : Cools s s') {ids : List UInt32}
    (hids : s.ActiveAmong ids) : s'.ActiveAmong ids := by
  intro id f' hf' hactive'
  obtain ⟨f, hf, -, hactive⟩ := h id f' hf'
  exact hids id f hf (hactive hactive')

theorem cools_run_polls (s : FlowScheduler) (polls : List Poll) :
    Cools s (Run.run (call d) s (polls.map .poll)) := by
  induction polls generalizing s with
  | nil => exact .refl s
  | cons p polls ih =>
    exact (s.due_getReadyFlows p.maxFlows p.order p.nowNs p.bucketNowNs).1.trans (ih _)

/-- A stopped flow is no longer among the active ones. -/
theorem ActiveAmong.stopFlow {id : UInt32} {ids : List UInt32} (h : s.ActiveAmong (id :: ids)) :
    (s.stopFlow id).2.ActiveAmong ids := by
  intro id' f hf hactive
  by_cases hid : id' = id
  · subst hid
    cases hget : s.getFlow id' with
    | none =>
      simp only [FlowScheduler.stopFlow, hget] at hf
      cases hf
    | some f₀ =>
      simp only [FlowScheduler.stopFlow, hget, getFlow_setFlow_self, Option.some.injEq] at hf
      rw [← hf] at hactive
      cases hactive
  · have hkept : s.getFlow id' = some f := by
      rcases s.setFlow_of_stopFlow id with heq | ⟨_, -, heq⟩
      · rwa [heq] at hf
      · rwa [heq, getFlow_setFlow_ne _ _ hid] at hf
    exact (List.mem_cons.mp (h id' f hkept hactive)).resolve_left hid

/-- `StopTraffic` leaves no flow active, whatever the workers poll meanwhile. -/
theorem noneActive_stopTraffic (d : Dpdk) (s : FlowScheduler) (order : List UInt32)
    (polls : UInt32 → List Poll) : (s.perform d (.stopTraffic order polls)).NoneActive := by
  -- the loop over what is left of the snapshot
  have hloop : ∀ (ids : List UInt32) (s : FlowScheduler), s.ActiveAmong ids →
      (ids.foldl (fun s id => Run.run (call d) s
        ((polls id).map .poll ++ [.control (.stopFlow id)])) s).ActiveAmong [] := by
    intro ids
    induction ids with
    | nil => exact fun s h => h
    | cons id ids ih =>
      intro s h
      apply ih
      dsimp only
      rw [Run.run_append]
      exact ((cools_run_polls s (polls id)).activeAmong h).stopFlow
  have hnone : (s.perform d (.stopTraffic order polls)).ActiveAmong [] := by
    rw [perform, calls, Run.run_flatMap]
    exact hloop _ s fun id f hf hactive => mem_getActiveFlows.mpr ⟨f, hf, hactive⟩
  intro id f hf
  by_contra hactive
  exact absurd (hnone id f hf (by simpa using hactive)) List.not_mem_nil

/-- The call starts a flow. -/
def Call.starts : Call → Bool
  | .control (.startFlow ..) => true
  | _ => false

/-- The activity starts a flow, or all of them. -/
def Activity.starts : Activity → Bool
  | .call c => c.starts
  | .startTraffic .. => true
  | .stopTraffic .. => false

theorem NoneActive.call (h : s.NoneActive) {c : Call} (hc : c.starts = false) :
    (s.call d c).NoneActive := by
  intro id f hf
  by_contra hne
  rcases active_call hf (by simpa using hne) with ⟨_, rfl⟩ | ⟨-, f₀, hf₀, hactive₀, -⟩
  · cases hc
  · rw [h id f₀ hf₀] at hactive₀
    cases hactive₀

theorem NoneActive.run (h : s.NoneActive) {calls : List Call}
    (hcalls : ∀ c ∈ calls, c.starts = false) :
    (Run.run (FlowScheduler.call d) s calls).NoneActive := by
  induction calls generalizing s with
  | nil => exact h
  | cons c calls ih =>
    exact ih (h.call (hcalls c List.mem_cons_self))
      fun c' hc' => hcalls c' (List.mem_cons_of_mem c hc')

/-- A poll finds nothing then. -/
theorem NoneActive.ready_eq_nil (h : s.NoneActive) (p : Poll) : s.ready p = [] := by
  rw [List.eq_nil_iff_forall_not_mem]
  intro id hid
  obtain ⟨f, hf, hactive, -⟩ :=
    (s.due_getReadyFlows p.maxFlows p.order p.nowNs p.bucketNowNs).2 id hid
  rw [h id f hf] at hactive
  cases hactive

/-- Activities that start nothing make no call that does. -/
theorem starts_of_mem_trace {activities : List Activity}
    (h : ∀ a ∈ activities, a.starts = false) {c : Call} (hc : c ∈ trace d s activities) :
    c.starts = false := by
  obtain ⟨s', a, ha, hmem⟩ := Run.exists_of_mem_collect hc
  have hstarts := h a ha
  cases a with
  | call c' =>
    obtain rfl := List.mem_singleton.mp hmem
    exact hstarts
  | startTraffic => cases hstarts
  | stopTraffic order polls =>
    obtain ⟨id, -, hid⟩ := List.mem_flatMap.mp hmem
    rcases List.mem_append.mp hid with hpoll | hstop
    · obtain ⟨p, -, rfl⟩ := List.mem_map.mp hpoll
      rfl
    · rw [List.mem_singleton.mp hstop]
      rfl

/-- **Only running flows transmit.** Throughout a history with a positive clock that does not run
    backwards, a poll returns only flows that are running; and once `StopTraffic` has returned,
    nothing until something is started. -/
theorem ready_only_running (d : Dpdk) (srcMac : List UInt8) (history : List Activity)
    (hclock : ClockRuns (trace d (new srcMac) history)) :
    (∀ calls p, calls ++ [.poll p] <+: trace d (new srcMac) history →
      ∀ id ∈ (Run.run (call d) (new srcMac) calls).ready p, Running d srcMac calls id p.nowNs) ∧
    ∀ before order polls after, history = before ++ .stopTraffic order polls :: after →
      (∀ a ∈ after, a.starts = false) →
      let stopped := Run.run (perform d) (new srcMac) (before ++ [.stopTraffic order polls])
      ∀ calls p, calls ++ [.poll p] <+: trace d stopped after →
        (Run.run (call d) stopped calls).ready p = [] := by
  refine ⟨fun calls p hpre id hid => ?_, ?_⟩
  · exact running_of_mem_ready d srcMac (hclock.of_prefix hpre) hid
  · intro before order polls after _ hafter stopped calls p hpre
    have hstopped : stopped.NoneActive := by
      show (Run.run (perform d) (new srcMac) (before ++ [.stopTraffic order polls])).NoneActive
      rw [Run.run_append]
      exact noneActive_stopTraffic d _ order polls
    have hcalls : ∀ c ∈ calls, c.starts = false := fun c hc =>
      starts_of_mem_trace hafter (hpre.subset (List.mem_append_left _ hc))
    exact (hstopped.run hcalls).ready_eq_nil p

/-- A flow is added, all traffic is started at time 5 and polled at time 7, stopped and polled
    again. -/
def startStopHistory : List Activity :=
  [.call (.control (.addFlow (.sample 1 1000 true) 3)),
    .startTraffic [] (fun _ => ⟨5, 5⟩) fun _ => [],
    .call (.poll ⟨4, [], 7, fun _ => 7⟩),
    .stopTraffic [] fun _ => [],
    .call (.poll ⟨4, [], 9, fun _ => 9⟩)]

/-- The first poll returns the flow, which has been running since time 5. -/
theorem ready_only_running_startStop :
    ∃ calls p, (Run.run (call .reference) (new []) calls).ready p = [1] ∧
      Running .reference [] calls 1 p.nowNs := by
  have htimes : (trace .reference (new []) startStopHistory).filterMap Call.time = [5, 7, 9] := by
    decide
  have hclock : ClockRuns (trace .reference (new []) startStopHistory) :=
    ⟨by rw [htimes]; simp, by rw [htimes]; simp⟩
  have hready : (Run.run (call .reference) (new []) (trace .reference (new [])
      (startStopHistory.take 2))).ready ⟨4, [], 7, fun _ => 7⟩ = [1] := by decide
  refine ⟨_, _, hready, ?_⟩
  refine (ready_only_running .reference [] startStopHistory hclock).1 _ _ ?_ 1 ?_
  · exact ⟨_, rfl⟩
  · rw [hready]
    exact List.mem_singleton_self 1

end TrafficGen.FlowScheduler
