import TrafficGen.Control.Threads
import TrafficGen.Spec.FlowActivity
import TrafficGen.Spec.SerialRuns

/-!
# What is sent after a stop

`StopTraffic` clears the `active` of the flows one by one, while the workers go on. Once it has gone
through them all, a worker that has already got a flow may still build a packet of it, be it stopped
or replaced, and no worker builds another one until traffic is started again.

## Key results

- `Calm.step`: a turn in which traffic is not started leaves all flows stopped
- `late_le_one`: each worker hands the NIC its burst and at most one packet more
-/

namespace TrafficGen

variable {r : Rng} {workers : Nat}

/-! ## Active flows -/

namespace FlowObjects

variable {s t u : FlowObjects} {id : UInt32} {flow : FlowPtr} {f : FlowConfigInternal}
  {ids : List UInt32}

/-- The flow behind a pointer is active. -/
def IsActive (s : FlowObjects) (flow : FlowPtr) : Prop :=
  ∃ f, s.deref flow = some f ∧ f.active = true

theorem isActive_iff : s.IsActive flow ↔ (s.deref flow).any (·.active) = true :=
  (Option.any_eq_true _ _).symm

/-- The active flows of the table are among `ids`. -/
def ActiveIn (s : FlowObjects) (ids : List UInt32) : Prop :=
  ∀ id flow, s.getFlow id = some flow → s.IsActive flow → id ∈ ids

theorem IsActive.of_store {flow' : FlowPtr} {f' : FlowConfigInternal} (hf : s.deref flow = some f)
    (hf' : f'.active = true → f.active = true) (h : (s.store flow f').IsActive flow') :
    s.IsActive flow' := by
  obtain ⟨g, hg, hactive⟩ := h
  by_cases hflow : flow' = flow
  · subst hflow
    rw [deref_store_self hf, Option.some.injEq] at hg
    subst hg
    exact ⟨f, hf, hf' hactive⟩
  · rw [deref_store_ne hflow] at hg
    exact ⟨g, hg, hactive⟩

/-- `t` has the table and as many flows as `s`, and no flow is active in it that is not in `s`. -/
structure Quieter (s t : FlowObjects) : Prop where
  flows : t.flows = s.flows
  length : t.objects.length = s.objects.length
  active : ∀ flow, t.IsActive flow → s.IsActive flow

namespace Quieter

theorem refl (s : FlowObjects) : s.Quieter s := ⟨rfl, rfl, fun _ h => h⟩

theorem trans (h : s.Quieter t) (h' : t.Quieter u) : s.Quieter u :=
  ⟨h'.flows.trans h.flows, h'.length.trans h.length,
    fun flow hflow => h.active flow (h'.active flow hflow)⟩

theorem activeIn (h : s.Quieter t) (hs : s.ActiveIn ids) : t.ActiveIn ids := by
  intro id flow hid hactive
  rw [getFlow, h.flows] at hid
  exact hs id flow hid (h.active flow hactive)

/-- A flow may change in any way that does not make it active. -/
theorem store {f' : FlowConfigInternal} (hf : s.deref flow = some f)
    (hf' : f'.active = true → f.active = true) : s.Quieter (s.store flow f') :=
  ⟨rfl, List.length_set, fun _ h => h.of_store hf hf'⟩

theorem stopFlow (s : FlowObjects) (id : UInt32) : s.Quieter (s.stopFlow id).2 := by
  rw [FlowObjects.stopFlow]
  split
  · exact refl s
  · next hid => exact store (find_eq_some.mp hid).2 fun h => by cases h

theorem getReadyFlowsLoop (maxFlows : UInt32) (nowNs : UInt64) (bucketNowNs : UInt32 → UInt64)
    (ids : List UInt32) (s : FlowObjects) (ready : List UInt32) :
    s.Quieter (getReadyFlowsLoop maxFlows nowNs bucketNowNs ids s ready).2 := by
  induction ids generalizing s ready with
  | nil => exact refl s
  | cons id ids ih =>
    rw [FlowObjects.getReadyFlowsLoop]
    split
    · exact ih s ready
    · next flow f hid =>
      have hf := (find_eq_some.mp hid).2
      split
      · exact ih s ready
      · split
        · -- it has expired, and becomes inactive
          exact (store hf fun h => by cases h).trans (ih _ ready)
        · have htaken : s.Quieter (s.store flow { f with
              tokenBucket := (f.tokenBucket.tryConsume 1 (bucketNowNs id)).2 }) :=
            store hf fun h => h
          simp only
          generalize (if (f.tokenBucket.tryConsume 1 (bucketNowNs id)).1 > 0 then ready ++ [id]
            else ready) = ready'
          split
          · exact htaken
          · exact htaken.trans (ih _ _)

theorem getReadyFlows (s : FlowObjects) (maxFlows : UInt32) (order : List UInt32) (nowNs : UInt64)
    (bucketNowNs : UInt32 → UInt64) :
    s.Quieter (s.getReadyFlows maxFlows order nowNs bucketNowNs).2 :=
  getReadyFlowsLoop maxFlows nowNs bucketNowNs _ s []

theorem handleTcpRx (s : FlowObjects) (key : FlowKey) (tcpHdr : RteTcpHdr) (payloadLen : UInt32)
    (nowNs : UInt64) : s.Quieter (s.handleTcpRx key tcpHdr payloadLen nowNs) := by
  rw [FlowObjects.handleTcpRx]
  split
  · exact refl s
  · split
    · exact refl s
    · next hid =>
      split
      · exact refl s
      · split
        · exact refl s
        · exact store (find_eq_some.mp hid).2 fun h => h

end Quieter

/-- A stopped flow is no longer among the active ones. -/
theorem ActiveIn.stopFlow (h : s.ActiveIn (id :: ids)) : (s.stopFlow id).2.ActiveIn ids := by
  intro id' flow hid' hactive
  have hquieter := Quieter.stopFlow s id
  have hbefore : id' ∈ id :: ids := hquieter.activeIn h id' flow hid' hactive
  refine (List.mem_cons.mp hbefore).resolve_left fun heq => ?_
  subst heq
  rw [getFlow, hquieter.flows] at hid'
  obtain ⟨f, hf, -⟩ := hquieter.active flow hactive
  have hfound : s.find id' = some (flow, f) := find_eq_some.mpr ⟨hid', hf⟩
  obtain ⟨g, hg, hgactive⟩ := hactive
  rw [FlowObjects.stopFlow, hfound, deref_store_self hf, Option.some.injEq] at hg
  subst hg
  cases hgactive

/-- A new flow is not active, and the old ones are as they were, in the table or not. -/
theorem IsActive.of_addFlow {d : Dpdk} {config : FlowSettings} {nowNs : UInt64}
    (h : (s.addFlow d config nowNs).2.IsActive flow) : s.IsActive flow := by
  rcases s.addFlow_cases d config nowNs with hsame | ⟨stored, hstored, hobjects, -⟩
  · rw [hsame] at h
    exact h
  · have hnew : stored.active = false := FlowScheduler.active_newFlow hstored
    obtain ⟨f, hf, hactive⟩ := h
    rw [deref, hobjects] at hf
    rcases Nat.lt_or_ge flow s.objects.length with hlt | hge
    · exact ⟨f, (List.getElem?_append_left hlt).symm.trans hf, hactive⟩
    · -- only the new flow comes after the old ones
      rw [List.getElem?_append_right hge, List.getElem?_singleton] at hf
      split at hf
      · rw [← Option.some.inj hf, hnew] at hactive
        cases hactive
      · cases hf

theorem ActiveIn.addFlow (h : s.ActiveIn ids) (d : Dpdk) (config : FlowSettings)
    (nowNs : UInt64) : (s.addFlow d config nowNs).2.ActiveIn ids := by
  intro id flow hid hactive
  have hbefore : s.IsActive flow := hactive.of_addFlow
  rcases s.addFlow_cases d config nowNs with hsame | ⟨_, -, -, hflows⟩
  · rw [hsame] at hid
    exact h id flow hid hbefore
  · rw [getFlow, hflows] at hid
    rcases of_lookup_insert hid with ⟨-, hnew⟩ | hold
    · -- no flow was behind the new pointer
      obtain ⟨f, hf, -⟩ := hbefore
      rw [hnew, deref, List.getElem?_eq_none (Nat.le_refl _)] at hf
      cases hf
    · exact h id flow hold hbefore

/-- Without active flows, no flow is ready. -/
theorem ActiveIn.getReadyFlows (h : s.ActiveIn []) (maxFlows : UInt32) (order : List UInt32)
    (nowNs : UInt64) (bucketNowNs : UInt32 → UInt64) :
    s.getReadyFlows maxFlows order nowNs bucketNowNs = ([], s) := by
  have hloop : ∀ ids, getReadyFlowsLoop maxFlows nowNs bucketNowNs ids s [] = ([], s) := by
    intro ids
    induction ids with
    | nil => rfl
    | cons id ids ih =>
      rw [getReadyFlowsLoop]
      split
      · exact ih
      · next flow f hid =>
        obtain ⟨hflow, hf⟩ := find_eq_some.mp hid
        have hstopped : f.active = false := by
          rw [Bool.eq_false_iff]
          intro hactive
          cases h id flow hflow ⟨f, hf, hactive⟩
        rw [hstopped]
        exact ih
  exact hloop _

/-- The list `StopTraffic` works through has all active flows. -/
theorem activeIn_getActiveFlows (s : FlowObjects) (order : List UInt32) :
    s.ActiveIn (s.getActiveFlows order) := by
  rintro id flow hid ⟨f, hf, hactive⟩
  have hkey : id ∈ s.flows.keys := by
    rw [← AList.mem_keys, ← AList.lookup_isSome]
    exact Option.isSome_of_eq_some hid
  rw [getActiveFlows, List.mem_filter, find_eq_some.mpr ⟨hid, hf⟩]
  exact ⟨FlowScheduler.mem_walk.mpr hkey, hactive⟩

end FlowObjects

theorem Worker.active_finishPacket (c : WorkerConfig) (d : Dpdk) (mb : Mbuf)
    (flow : FlowConfigInternal) (timestampNs : UInt64) :
    (Worker.finishPacket c d mb flow timestampNs).2.active = flow.active := by
  obtain ⟨_, _, _, hafter, -⟩ := Worker.finishPacket_after c d mb flow timestampNs
  rw [hafter]

namespace Threads

variable {inetAton : String → Option UInt32} {d : Dpdk} {cfg : Fin workers → WorkerConfig}
  {s : Threads r workers} {w : Fin workers} {input : Worker.PassInput}

/-! ## Turns of a worker -/

/-- What a turn of worker `w` may do: flows do not become active by it, and the server and the
    other workers stay where they are. -/
structure WorkedBy (w : Fin workers) (s t : Threads r workers) : Prop where
  scheduler : s.scheduler.Quieter t.scheduler
  serving : t.serving = s.serving
  worker : ∀ w', w' ≠ w → t.worker w' = s.worker w'

theorem WorkedBy.refl (w : Fin workers) (s : Threads r workers) : WorkedBy w s s :=
  ⟨.refl _, rfl, fun _ _ => rfl⟩

theorem WorkedBy.goto {t : Threads r workers} (h : WorkedBy w s t) (pc : PassPc r) :
    WorkedBy w s (t.goto w pc) :=
  ⟨h.scheduler, h.serving, fun w' hw' => (t.worker_goto_ne pc hw').trans (h.worker w' hw')⟩

/-- What a worker that builds a packet of a flow does: nothing if there is no such flow, and
    otherwise it goes on to the next flow, with a packet more in its burst or not. -/
theorem build_cases (c : WorkerConfig) (d : Dpdk) (s : Threads r workers) (w : Fin workers)
    (pass : PassLocals r) (flowId : UInt32) (flow : FlowPtr) (turn : Turn) :
    (s.scheduler.deref flow = none ∧ s.build c d w pass flowId flow turn = s) ∨
    (∃ heap pass', s.build c d w pass flowId flow turn =
      { s with heap := heap }.goto w (.looking pass') ∧ pass'.readyFlows = pass.readyFlows ∧
      pass'.built = pass.built) ∨
    ∃ heap pass' b, s.build c d w pass flowId flow turn =
      { s with scheduler := s.scheduler.store flow b.after, heap := heap }.goto w
        (.looking pass') ∧
      pass'.readyFlows = pass.readyFlows ∧ pass'.built = pass.built ++ [b] ∧ b.flowId = flowId ∧
      s.scheduler.deref flow = some b.before ∧ b.after.active = b.before.active := by
  generalize ht : s.build c d w pass flowId flow turn = t
  rw [build] at ht
  split at ht
  · next hnone => exact .inl ⟨hnone, ht.symm⟩
  · next f hf =>
    refine .inr ?_
    dsimp only at ht
    split at ht
    · exact .inl ⟨_, _, ht.symm, rfl, rfl⟩
    · split at ht
      · exact .inl ⟨_, _, ht.symm, rfl, rfl⟩
      · next m _ =>
        split at ht
        · exact .inr ⟨_, _, ⟨flowId, m, _, f, _⟩, ht.symm, rfl, rfl, rfl, hf,
            Worker.active_finishPacket c d _ f _⟩
        · exact .inl ⟨_, _, ht.symm, rfl, rfl⟩

/-- At the head of the loop a worker leaves it, or takes the next flow, if it is still there. -/
theorem look_cases (c : WorkerConfig) (s : Threads r workers) (w : Fin workers)
    (pass : PassLocals r) :
    s.look c w pass = s.goto w (.transmitting pass) ∨
    ∃ flowId ready, pass.readyFlows = flowId :: ready ∧
      (s.look c w pass = s.goto w (.looking (pass.advance ready)) ∨
        ∃ flow, s.scheduler.getFlow flowId = some flow ∧
          s.look c w pass = s.goto w (.checking (pass.advance ready) flowId flow)) := by
  rw [look]
  split
  · exact .inl rfl
  · next flowId ready hready =>
    split
    · exact .inl rfl
    · refine .inr ⟨flowId, ready, hready, ?_⟩
      dsimp only
      split
      · exact .inl rfl
      · next flow hflow => exact .inr ⟨flow, hflow, rfl⟩

theorem WorkedBy.work (c : WorkerConfig) (d : Dpdk) (s : Threads r workers) (w : Fin workers)
    (input : Worker.PassInput) : WorkedBy w s (s.work c d w input) := by
  rw [Threads.work]
  cases s.worker w with
  | polling =>
    have hquieter := FlowObjects.Quieter.getReadyFlows s.scheduler c.txBurstSize.toUInt32
      input.order input.nowNs input.bucketNowNs
    simp only [poll]
    split
    · exact ⟨hquieter, rfl, fun _ _ => rfl⟩
    · refine WorkedBy.goto ?_ _
      exact ⟨hquieter, rfl, fun _ _ => rfl⟩
  | looking pass =>
    rcases look_cases c s w pass with h | ⟨_, _, -, h | ⟨_, -, h⟩⟩
    all_goals
      simp only [h]
      exact (refl w s).goto _
  | checking pass flowId flow =>
    simp only
    split
    · exact (refl w s).goto _
    · exact (refl w s).goto _
  | building pass flowId flow =>
    rcases build_cases c d s w pass flowId flow (input.turn (pass.served - 1)) with
      ⟨-, h⟩ | ⟨heap, pass', h, -⟩ | ⟨heap, pass', b, h, -, -, -, hbefore, hactive⟩
    · simp only [h]
      exact refl w s
    · simp only [h]
      refine WorkedBy.goto ?_ _
      exact ⟨.refl _, rfl, fun _ _ => rfl⟩
    · simp only [h]
      refine WorkedBy.goto ?_ _
      exact ⟨.store hbefore hactive.le, rfl, fun _ _ => rfl⟩
  | transmitting pass =>
    refine WorkedBy.goto ?_ _
    exact ⟨.refl _, rfl, fun _ _ => rfl⟩

/-! ## Turns of the server -/

/-- Accepting a request leaves the flows alone. -/
theorem accept_cases (s : Threads r workers) (request : Request) :
    (s.accept request).scheduler = s.scheduler ∧
    ((s.accept request).serving = .nothing ∨
      (∃ stateless flows, (s.accept request).serving = .configureFlows stateless flows true "") ∨
      (∃ start order nowNs ids, request = .startTraffic start order nowNs ∧
        (s.accept request).serving = .startTraffic ids) ∨
      ∃ order, (s.accept request).serving = .stopTraffic (s.scheduler.getActiveFlows order)) := by
  generalize ht : s.accept request = t
  rw [accept.eq_def] at ht
  split at ht
  · subst ht
    exact ⟨rfl, .inr (.inl ⟨_, _, rfl⟩)⟩
  · dsimp only at ht
    split at ht
    all_goals
      subst ht
      exact ⟨rfl, .inl rfl⟩
  · next start order nowNs =>
    dsimp only at ht
    split at ht
    all_goals
      split at ht
      · subst ht
        exact ⟨rfl, .inl rfl⟩
      · subst ht
        exact ⟨rfl, .inr (.inr (.inl ⟨start, order, nowNs, _, rfl, rfl⟩))⟩
  · next order =>
    subst ht
    exact ⟨rfl, .inr (.inr (.inr ⟨order, rfl⟩))⟩

/-- The server adds, starts or stops one flow of its request, or has none left, and answers. -/
theorem serve_cases (inetAton : String → Option UInt32) (d : Dpdk) (s : Threads r workers)
    (clock : Server.StartClock) :
    s.serve inetAton d clock = s ∨
    ((s.serve inetAton d clock).scheduler = s.scheduler ∧
      (s.serve inetAton d clock).serving = .nothing) ∨
    (∃ config stateless flows allSuccess errorMessage,
      (s.serve inetAton d clock).scheduler = (s.scheduler.addFlow d config clock.nowNs).2 ∧
      (s.serve inetAton d clock).serving =
        .configureFlows stateless flows allSuccess errorMessage) ∨
    (∃ id ids, s.serving = .startTraffic (id :: ids) ∧
      (s.serve inetAton d clock).scheduler =
        (s.scheduler.startFlow id clock.nowNs clock.bucketNowNs).2 ∧
      (s.serve inetAton d clock).serving = .startTraffic ids) ∨
    ∃ id ids, s.serving = .stopTraffic (id :: ids) ∧
      (s.serve inetAton d clock).scheduler = (s.scheduler.stopFlow id).2 ∧
      (s.serve inetAton d clock).serving = .stopTraffic ids := by
  generalize ht : s.serve inetAton d clock = t
  rw [serve] at ht
  split at ht
  · exact .inl ht.symm
  · dsimp only at ht
    refine .inr (.inr (.inl ?_))
    split at ht
    all_goals
      subst ht
      exact ⟨_, _, _, _, _, rfl, rfl⟩
  · refine .inr (.inl ?_)
    split at ht
    all_goals
      subst ht
      exact ⟨rfl, rfl⟩
  · next id ids hserving =>
    subst ht
    exact .inr (.inr (.inr (.inl ⟨id, ids, hserving, rfl, rfl⟩)))
  · subst ht
    exact .inr (.inl ⟨rfl, rfl⟩)
  · next id ids hserving =>
    subst ht
    exact .inr (.inr (.inr (.inr ⟨id, ids, hserving, rfl, rfl⟩)))
  · subst ht
    exact .inr (.inl ⟨rfl, rfl⟩)

theorem worker_accept (s : Threads r workers) (request : Request) :
    (s.accept request).worker = s.worker := by
  cases request with
  | configureFlows request => rfl
  | configureIMIX request =>
    simp only [accept]
    split <;> rfl
  | startTraffic start order nowNs =>
    simp only [accept]
    split <;> split <;> rfl
  | stopTraffic order => rfl

theorem worker_serve (inetAton : String → Option UInt32) (d : Dpdk) (s : Threads r workers)
    (clock : Server.StartClock) : (s.serve inetAton d clock).worker = s.worker := by
  rw [serve]
  split
  · rfl
  · simp only
    split <;> rfl
  · split <;> rfl
  · rfl
  · rfl
  · rfl
  · rfl

/-- The turn is one of worker `w`. -/
def Act.isTurnOf (w : Fin workers) : Act workers → Bool
  | .work w' _ => w' = w
  | _ => false

theorem Act.eq_work {a : Act workers} (h : a.isTurnOf w = true) : ∃ input, a = .work w input := by
  cases a with
  | work w' input => exact ⟨input, by rw [of_decide_eq_true h]⟩
  | request | serve | receive => cases h

/-- Turns of the other threads leave a worker where it is. -/
theorem worker_step_of_ne {a : Act workers} (h : a.isTurnOf w = false) :
    (s.step inetAton d cfg a).worker w = s.worker w := by
  cases a with
  | request request =>
    simp only [step]
    split
    · rw [worker_accept]
    · rfl
  | serve clock => exact congrFun (s.worker_serve inetAton d clock) w
  | work w' input =>
    exact (WorkedBy.work (cfg w') d s w' input).worker w (Ne.symm (of_decide_eq_false h))
  | receive key tcpHdr payloadLen nowNs => rfl

/-! ## Stopping -/

/-- While `StopTraffic` goes through its flows, every active flow of the table is still to come. -/
def StopsAll (s : Threads r workers) : Prop :=
  ∀ ids, s.serving = .stopTraffic ids → s.scheduler.ActiveIn ids

/-- No flow of the table is active, and none is about to be started. -/
structure Calm (s : Threads r workers) : Prop where
  stopped : s.scheduler.ActiveIn []
  notStarting : ∀ ids, s.serving ≠ .startTraffic ids

/-- The turn is a request to start traffic. -/
def Act.starts : Act workers → Bool
  | .request (.startTraffic _ _ _) => true
  | _ => false

theorem StopsAll.step (h : s.StopsAll) (a : Act workers) : (s.step inetAton d cfg a).StopsAll := by
  intro ids hids
  cases a with
  | request request =>
    simp only [Threads.step] at hids ⊢
    split at hids
    · obtain ⟨hscheduler, hserving⟩ := s.accept_cases request
      rw [hscheduler]
      rcases hserving with hserving | ⟨_, _, hserving⟩ | ⟨_, _, _, _, -, hserving⟩ |
        ⟨order, hserving⟩ <;> rw [hserving] at hids
      · cases hids
      · cases hids
      · cases hids
      · -- the list is taken in the turn that accepts the request
        rw [← Serving.stopTraffic.inj hids]
        exact s.scheduler.activeIn_getActiveFlows order
    · exact h ids hids
  | serve clock =>
    simp only [Threads.step] at hids ⊢
    rcases s.serve_cases inetAton d clock with heq | ⟨-, hserving⟩ | ⟨_, _, _, _, _, -, hserving⟩ |
      ⟨_, _, -, -, hserving⟩ | ⟨id, ids', hbefore, hscheduler, hserving⟩
    · rw [heq] at hids ⊢
      exact h ids hids
    · cases hserving.symm.trans hids
    · cases hserving.symm.trans hids
    · cases hserving.symm.trans hids
    · -- the flow that leaves the list is stopped
      rw [hserving] at hids
      rw [hscheduler, ← Serving.stopTraffic.inj hids]
      exact (h _ hbefore).stopFlow
  | work w input =>
    have hworked := WorkedBy.work (cfg w) d s w input
    exact hworked.scheduler.activeIn (h ids (hworked.serving.symm.trans hids))
  | receive key tcpHdr payloadLen nowNs =>
    exact (FlowObjects.Quieter.handleTcpRx _ key tcpHdr payloadLen nowNs).activeIn (h ids hids)

theorem stopsAll_of_reachable (h : Reachable inetAton d cfg s) : s.StopsAll := by
  refine h.induct (fun s hs ids hids => ?_) fun _ a h => h.step a
  rw [hs.2.1] at hids
  cases hids

theorem calm_of_reachable (h : Reachable inetAton d cfg s)
    (hstopped : s.serving = .stopTraffic []) : s.Calm :=
  ⟨stopsAll_of_reachable h [] hstopped, fun ids hids => by cases hstopped.symm.trans hids⟩

/-- A poll finds nothing then. -/
theorem Calm.poll (h : s.Calm) (c : WorkerConfig) (w : Fin workers) (input : Worker.PassInput) :
    s.poll c w input = s := by
  simp only [Threads.poll, h.stopped.getReadyFlows, List.isEmpty_nil, if_true]

/-- Unless traffic is started, all flows stay stopped, and the flows behind all pointers are at most
    as active as before. -/
theorem Calm.step (h : s.Calm) {a : Act workers} (ha : a.starts = false) :
    (s.step inetAton d cfg a).Calm ∧
      ∀ flow, (s.step inetAton d cfg a).scheduler.IsActive flow → s.scheduler.IsActive flow := by
  cases a with
  | request request =>
    simp only [Threads.step]
    split
    · obtain ⟨hscheduler, hserving⟩ := s.accept_cases request
      rw [hscheduler]
      refine ⟨⟨hscheduler ▸ h.stopped, fun ids hids => ?_⟩, fun _ h => h⟩
      rcases hserving with hserving | ⟨_, _, hserving⟩ | ⟨_, _, _, _, rfl, -⟩ | ⟨_, hserving⟩
      · cases hserving.symm.trans hids
      · cases hserving.symm.trans hids
      · cases ha
      · cases hserving.symm.trans hids
    · exact ⟨h, fun _ h => h⟩
  | serve clock =>
    simp only [Threads.step]
    rcases s.serve_cases inetAton d clock with heq | ⟨hscheduler, hserving⟩ |
      ⟨_, _, _, _, _, hscheduler, hserving⟩ | ⟨_, _, hbefore, -⟩ | ⟨id, ids', -, hscheduler, hserving⟩
    · rw [heq]
      exact ⟨h, fun _ h => h⟩
    · rw [hscheduler]
      refine ⟨⟨hscheduler ▸ h.stopped, fun ids hids => ?_⟩, fun _ h => h⟩
      cases hserving.symm.trans hids
    · -- a flow that is added, or replaces another, is not active
      rw [hscheduler]
      refine ⟨⟨hscheduler ▸ h.stopped.addFlow d _ _, fun ids hids => ?_⟩, fun _ h => h.of_addFlow⟩
      cases hserving.symm.trans hids
    · exact absurd hbefore (h.notStarting _)
    · have hquieter := FlowObjects.Quieter.stopFlow s.scheduler id
      rw [hscheduler]
      refine ⟨⟨hscheduler ▸ hquieter.activeIn h.stopped, fun ids hids => ?_⟩, hquieter.active⟩
      cases hserving.symm.trans hids
  | work w input =>
    have hworked := WorkedBy.work (cfg w) d s w input
    exact ⟨⟨hworked.scheduler.activeIn h.stopped, fun ids hids =>
      h.notStarting ids (hworked.serving.symm.trans hids)⟩, hworked.scheduler.active⟩
  | receive key tcpHdr payloadLen nowNs =>
    have hquieter := FlowObjects.Quieter.handleTcpRx s.scheduler key tcpHdr payloadLen nowNs
    exact ⟨⟨hquieter.activeIn h.stopped, h.notStarting⟩, hquieter.active⟩

/-! ## Late packets -/

/-- The flow worker `w` may still build a packet of, of those it has got: none if it has still to
    look whether the flow is active, and it is not. -/
def inFlight (s : Threads r workers) (w : Fin workers) : List UInt32 :=
  match s.worker w with
  | .checking _ flowId flow => if (s.scheduler.deref flow).any (·.active) then [flowId] else []
  | .building _ flowId _ => [flowId]
  | _ => []

theorem length_inFlight_le (s : Threads r workers) (w : Fin workers) :
    (s.inFlight w).length ≤ 1 := by
  rw [inFlight]
  split
  · split <;> simp
  · exact Nat.le_refl 1
  · exact Nat.zero_le 1

/-- A worker that stays where it is has no more in flight than before. -/
theorem inFlight_of_worker_eq {t : Threads r workers} (hworker : t.worker w = s.worker w)
    (hactive : ∀ flow, t.scheduler.IsActive flow → s.scheduler.IsActive flow) :
    (t.inFlight w).Sublist (s.inFlight w) := by
  rw [inFlight, inFlight, hworker]
  split
  · next flow _ =>
    split
    · next ht =>
      rw [if_pos (FlowObjects.isActive_iff.mp (hactive flow (FlowObjects.isActive_iff.mpr ht)))]
    · exact List.nil_sublist _
  · exact List.Sublist.refl _
  · exact List.Sublist.refl _

theorem inFlight_goto {t : Threads r workers} {pc : PassPc r}
    (hpc : ∀ pass flowId flow, pc = .checking pass flowId flow → ¬ t.scheduler.IsActive flow)
    (hpc' : ∀ pass flowId flow, pc ≠ .building pass flowId flow) :
    (t.goto w pc).inFlight w = [] := by
  rw [inFlight, worker_goto_self]
  split
  · next flow =>
    rw [scheduler_goto, if_neg fun h => hpc _ _ flow rfl (FlowObjects.isActive_iff.mpr h)]
  · exact absurd rfl (hpc' _ _ _)
  · rfl

/-- What worker `w` adds to its burst in a turn was in flight. -/
def PaysFor (cfg : Fin workers → WorkerConfig) (w : Fin workers) (s : Threads r workers)
    (a : Act workers) (t : Threads r workers) : Prop :=
  ∃ late, (s.sends cfg w a).map Prod.fst ++ (t.worker w).built = (s.worker w).built ++ late ∧
    (late.map (·.flowId) ++ t.inFlight w).Sublist (s.inFlight w)

theorem paysFor_work (h : s.Calm) (w : Fin workers) (input : Worker.PassInput) :
    PaysFor cfg w s (.work w input) (s.work (cfg w) d w input) := by
  rw [PaysFor]
  rw [sends, if_pos rfl, outcomes, work]
  cases hpc : s.worker w with
  | polling =>
    -- no flow is ready
    have hnone := h.poll (cfg w) w input
    refine ⟨[], ?_, ?_⟩
    · simp only [hnone, hpc]
      rfl
    · simp only [hnone]
      exact List.Sublist.refl _
  | looking pass =>
    rcases look_cases (cfg w) s w pass with hlook | ⟨flowId, ready, -, hlook | ⟨flow, hflow, hlook⟩⟩
    · exact ⟨[], by simp [hlook, PassPc.built], by simp [hlook, inFlight_goto]⟩
    · exact ⟨[], by simp [hlook, PassPc.built, PassLocals.advance],
        by simp [hlook, inFlight_goto]⟩
    · -- the flow is still in the table, so it is stopped
      have hstopped : ¬ s.scheduler.IsActive flow := fun hactive => by
        cases h.stopped flowId flow hflow hactive
      exact ⟨[], by simp [hlook, PassPc.built, PassLocals.advance],
        by simp [hlook, inFlight_goto, hstopped]⟩
  | checking pass flowId flow =>
    have hflight : s.inFlight w =
        if (s.scheduler.deref flow).any (·.active) then [flowId] else [] := by
      rw [inFlight, hpc]
    refine ⟨[], ?_, ?_⟩
    · dsimp only
      split
      all_goals simp [PassPc.built]
    · rw [hflight]
      dsimp only
      split
      · rw [inFlight, worker_goto_self]
        exact List.Sublist.refl _
      · simp [inFlight_goto]
  | building pass flowId flow =>
    -- a packet of this flow may be built yet, whatever has become of the flow
    have hflight : s.inFlight w = [flowId] := by rw [inFlight, hpc]
    rcases build_cases (cfg w) d s w pass flowId flow (input.turn (pass.served - 1)) with
      ⟨-, hbuild⟩ | ⟨heap, pass', hbuild, -, hbuilt⟩ | ⟨heap, pass', b, hbuild, -, hbuilt, hid, -, -⟩
    · exact ⟨[], by simp [hbuild, hpc, PassPc.built], by simp [hbuild]⟩
    · exact ⟨[], by simp [hbuild, PassPc.built, hbuilt], by simp [hbuild, inFlight_goto]⟩
    · exact ⟨[b], by simp [hbuild, PassPc.built, hbuilt],
        by simp [hbuild, inFlight_goto, hflight, hid]⟩
  | transmitting pass =>
    -- the outcomes are the packets of the burst, each once
    refine ⟨[], ?_, ?_⟩
    · simp only [transmit, worker_goto_self, PassPc.built, List.append_nil]
      refine List.ext_getElem? fun i => ?_
      rw [List.getElem?_map, List.getElem?_mapIdx, Option.map_map]
      exact Option.map_id'
    · simp only [transmit]
      rw [inFlight_goto (by simp) (by simp)]
      exact List.nil_sublist _

/-- A turn in which traffic is not started. -/
theorem paysFor_step (h : s.Calm) {a : Act workers} (ha : a.starts = false) (w : Fin workers) :
    PaysFor cfg w s a (s.step inetAton d cfg a) := by
  cases hturn : a.isTurnOf w with
  | true =>
    obtain ⟨input, rfl⟩ := Act.eq_work hturn
    exact paysFor_work h w input
  | false =>
    have hworker : (s.step inetAton d cfg a).worker w = s.worker w := worker_step_of_ne hturn
    have hsends : s.sends cfg w a = [] := by
      cases a with
      | work w' input => exact if_neg (of_decide_eq_false hturn)
      | request | serve | receive => rfl
    refine ⟨[], by rw [hsends, hworker, List.append_nil]; rfl, ?_⟩
    exact inFlight_of_worker_eq hworker (h.step ha).2

theorem owing_inFlight (inetAton : String → Option UInt32) (d : Dpdk)
    (cfg : Fin workers → WorkerConfig) (w : Fin workers) :
    Run.Owing (step inetAton d cfg (r := r)) (fun s a => (s.sends cfg w a).map Prod.fst)
      (fun s => (s.worker w).built) (·.flowId) (fun s => s.inFlight w) Calm (·.starts = false) :=
  ⟨fun _ _ hs ha => (hs.step ha).1, fun _ _ hs ha => paysFor_step hs ha w⟩

/-- **At most one packet per worker is late.** Once `StopTraffic` has gone through its flows, and
    until traffic is started again, a worker hands the NIC what it had in its burst, and after it at
    most one packet, of the flow it had already got. -/
theorem late_le_one (h : Reachable inetAton d cfg s) (hstopped : s.serving = .stopTraffic [])
    {acts : List (Act workers)} (hacts : ∀ a ∈ acts, a.starts = false) (w : Fin workers) :
    ∃ late, (Run.collect (step inetAton d cfg) (sends cfg w) s acts).map Prod.fst ++
        ((Run.run (step inetAton d cfg) s acts).worker w).built = (s.worker w).built ++ late ∧
      late.length ≤ 1 ∧ (late.map (·.flowId)).Sublist (s.inFlight w) := by
  obtain ⟨late, hlate, howed⟩ :=
    (owing_inFlight inetAton d cfg w).exists_new (calm_of_reachable h hstopped) hacts
  rw [Run.map_collect]
  have hsub : (late.map (·.flowId)).Sublist (s.inFlight w) :=
    (List.sublist_append_left _ _).trans howed
  have hlength := hsub.length_le.trans (s.length_inFlight_le w)
  rw [List.length_map] at hlength
  exact ⟨late, hlate, hlength, hsub⟩

/-- A turn of the worker, at time 1000000000. -/
def Act.pass : Act 1 :=
  .work 0 { Worker.PassInput.sample with
    nowNs := 1000000000
    bucketNowNs := fun _ => 1000000000
    tx := .all }

/-- Two flows are configured and started, the worker is about to build a packet of the second, and
    `StopTraffic` goes through both. -/
def stopping : List (Act 1) :=
  [.request (.configureFlows ⟨[.sample 1 1000, .sample 2 2000], false⟩), .serve ⟨0, 0⟩,
    .serve ⟨0, 0⟩, .serve ⟨0, 0⟩, .request (.startTraffic ⟨false⟩ [1, 2] 1), .serve ⟨1, 1⟩,
    .serve ⟨1, 1⟩, .serve ⟨1, 1⟩, .pass, .pass, .pass, .pass, .pass, .pass,
    .request (.stopTraffic [1, 2]), .serve ⟨0, 0⟩, .serve ⟨0, 0⟩]

/-- The generator after that. -/
def stopped : Threads .counting 1 :=
  Run.run (step Server.sampleAton .reference fun _ => .sample) fresh stopping

theorem reachable_stopped : Reachable Server.sampleAton .reference (fun _ => .sample) stopped :=
  ⟨fresh, stopping, ⟨⟨[], rfl⟩, rfl, fun _ => rfl⟩, rfl⟩

theorem serving_stopped : stopped.serving = .stopTraffic [] := by decide +kernel

/-- `StopTraffic` is answered, and the worker builds that packet and hands it to the NIC. -/
def afterwards : List (Act 1) := [.serve ⟨0, 0⟩, .pass, .pass, .pass]

/-- The packet is late. -/
theorem late_le_one_stopped :
    (Run.collect (step Server.sampleAton .reference fun _ => .sample) (sends (fun _ => .sample) 0)
      stopped afterwards).map (·.1.flowId) = [2] ∧
    ∃ late, (Run.collect (step Server.sampleAton .reference fun _ => .sample)
        (sends (fun _ => .sample) 0) stopped afterwards).map Prod.fst ++
        ((Run.run (step Server.sampleAton .reference fun _ => .sample) stopped
          afterwards).worker 0).built = (stopped.worker 0).built ++ late ∧
      late.length ≤ 1 ∧ (late.map (·.flowId)).Sublist (stopped.inFlight 0) :=
  ⟨by decide +kernel, late_le_one reachable_stopped serving_stopped (by decide) 0⟩

end Threads

end TrafficGen
