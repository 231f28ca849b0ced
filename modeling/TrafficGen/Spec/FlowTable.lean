import TrafficGen.Core.FlowScheduler

/-!
# What the scheduler's calls do to the flow table

One lemma for each call says everything it may change: `newFlow_eq_some` for the flow
`add_flow` stores, `addFlow_cases`, `removeFlow_cases`, `setFlow_of_startFlow`,
`setFlow_of_stopFlow`, `handleTcpRx_cases` for the table. No later proof unfolds a call.

## Key results

- `newFlow_isSome_iff`: exactly which settings `add_flow` accepts
- `handleTcpRx_cases`: a received segment changes one connection or nothing
-/

namespace TrafficGen

/-- `add_flow` accepts the settings: the protocol is supported, and the template it builds, of
    64 bytes when no size is given, has room for the headers. -/
def FlowSettings.Acceptable (c : FlowSettings) : Prop :=
  ∃ transport, transportHeaderSize c.protocol = some transport ∧
    etherHdrSize + ipv4HdrSize + transport ≤
      (if c.packetSize = 0 then 64 else c.packetSize).toNat

instance : DecidablePred FlowSettings.Acceptable := fun c =>
  decidable_of_iff ((transportHeaderSize c.protocol).any fun transport =>
      etherHdrSize + ipv4HdrSize + transport ≤
        (if c.packetSize = 0 then 64 else c.packetSize).toNat) <| by
    simp only [FlowSettings.Acceptable, Option.any_eq_true, decide_eq_true_eq]

/-- A 64-byte TCP flow of 10 packets a second, for runs on fixed inputs. -/
def FlowSettings.sample (flowId : UInt32) (srcPort : UInt16) (stateless : Bool) :
    FlowSettings where
  flowId := flowId
  flowKey := ⟨0x0100000A, 0x0200000A, srcPort, 80, IPPROTO_TCP⟩
  packetSize := 64
  protocol := "tcp"
  pps := 10
  durationSeconds := 0
  stateless := stateless
  dstMac := "FF:FF:FF:FF:FF:FF"

theorem buildTemplate_isSome_iff (d : Dpdk) (old : PacketTemplate) (key : FlowKey)
    (packetSize : UInt32) (protocol srcMac dstMac : String) :
    (buildTemplate d old key packetSize protocol srcMac dstMac).isSome ↔
      ∃ transport, transportHeaderSize protocol = some transport ∧
        etherHdrSize + ipv4HdrSize + transport ≤ packetSize.toNat := by
  rw [buildTemplate]
  cases transportHeaderSize protocol with
  | none => simp
  | some transport =>
    simp only [Option.some.injEq, exists_eq_left']
    split
    · next h => simp only [Option.isSome_none, Bool.false_eq_true, false_iff]; omega
    · next h => simp only [Option.isSome_some, true_iff]; omega

/-- A stateful flow has a connection. -/
theorem FlowConfigInternal.exists_conn (f : FlowConfigInternal) (h : f.isStatefulTcp) :
    ∃ conn, f.tcpState = some conn := by
  simp only [isStatefulTcp, Bool.and_eq_true] at h
  exact Option.isSome_iff_exists.mp h.2

/-- A stateful flow runs over TCP. -/
theorem FlowConfigInternal.protocol_of_stateful {f : FlowConfigInternal} (h : f.isStatefulTcp) :
    f.protocol = "tcp" := by
  simp only [isStatefulTcp, Bool.and_eq_true, decide_eq_true_eq] at h
  exact h.1.2

/-- A flow without what decides when it may send. -/
def FlowConfigInternal.unscheduled (f : FlowConfigInternal) : FlowConfigInternal :=
  { f with active := false, tokenBucket := .new 0 0 0 }

namespace FlowConfigInternal

variable (f : FlowConfigInternal) {nowNs bucketNowNs : UInt64}

/-- What the walk of `get_ready_flows` makes of one flow: whether a token is taken, and the flow
    afterwards. The flow is skipped, retired because it has expired, or asked for a token. -/
def visit (nowNs bucketNowNs : UInt64) : Bool × FlowConfigInternal :=
  if !f.active then (false, f)
  else if f.isExpired nowNs then (false, { f with active := false })
  else
    let (consumed, tokenBucket) := f.tokenBucket.tryConsume 1 bucketNowNs
    (consumed > 0, { f with tokenBucket := tokenBucket })

/-- A visit changes the `active` flag and the bucket only. -/
theorem unscheduled_visit (nowNs bucketNowNs : UInt64) :
    (f.visit nowNs bucketNowNs).2.unscheduled = f.unscheduled := by
  rw [visit]
  split
  · rfl
  · split <;> rfl

theorem active_of_visit (h : (f.visit nowNs bucketNowNs).2.active = true) : f.active = true := by
  cases hactive : f.active with
  | true => rfl
  | false => simp [visit, hactive] at h

/-- A flow that may send is asked for a token. -/
theorem visit_of_due (hactive : f.active = true) (hexpired : f.isExpired nowNs = false) :
    f.visit nowNs bucketNowNs = (decide ((f.tokenBucket.tryConsume 1 bucketNowNs).1 > 0),
      { f with tokenBucket := (f.tokenBucket.tryConsume 1 bucketNowNs).2 }) := by
  simp only [visit, hactive, hexpired, Bool.not_true, Bool.false_eq_true, if_false]

/-- Any other flow keeps its bucket, and is not active afterwards. -/
theorem visit_of_not_due (h : ¬ (f.active = true ∧ f.isExpired nowNs = false)) :
    f.visit nowNs bucketNowNs = (false, { f with active := false }) := by
  cases hactive : f.active with
  | false =>
    simp only [visit, hactive, Bool.not_false, if_true]
    rw [← hactive]
  | true =>
    have hexpired : f.isExpired nowNs = true := by simpa [hactive] using h
    simp [visit, hactive, hexpired]

/-- A token is taken from a flow that may send only. -/
theorem visit_taken (h : (f.visit nowNs bucketNowNs).1 = true) :
    f.active = true ∧ f.isExpired nowNs = false := by
  by_contra hdue
  rw [f.visit_of_not_due hdue] at h
  cases h

end FlowConfigInternal

namespace FlowScheduler

/-! ## Adding a flow -/

/-- The flow `add_flow` stores: the caller's settings, with a destination MAC filled in, a
    template of the caller's key and protocol, and a closed connection if it is stateful. -/
theorem newFlow_eq_some {d : Dpdk} {srcMac : List UInt8} {config : FlowSettings}
    {nowNs : UInt64} {f : FlowConfigInternal} (h : newFlow d srcMac config nowNs = some f) :
    ∃ dstMac template bucket,
      buildTemplate d .empty config.flowKey
        (if config.packetSize = 0 then 64 else config.packetSize) config.protocol
        (formatMac srcMac) dstMac = some template ∧
      f = { config with
        dstMac := dstMac
        templatePacket := template
        tokenBucket := bucket
        tcpState :=
          if !config.stateless && config.protocol = "tcp" then some (newTcpState config.flowKey)
          else none } := by
  simp only [newFlow] at h
  split at h
  · cases h
  · next template htemplate =>
    rw [Option.some.injEq] at h
    exact ⟨_, template, _, htemplate, h.symm⟩

/-- Its template is addressed to the caller's MAC, or to everyone when there is none. -/
theorem buildTemplate_newFlow {d : Dpdk} {srcMac : List UInt8} {config : FlowSettings}
    {nowNs : UInt64} {f : FlowConfigInternal} (h : newFlow d srcMac config nowNs = some f) :
    buildTemplate d .empty config.flowKey
      (if config.packetSize = 0 then 64 else config.packetSize) config.protocol
      (formatMac srcMac) (if config.dstMac.isEmpty then "FF:FF:FF:FF:FF:FF" else config.dstMac) =
      some f.templatePacket := by
  simp only [newFlow] at h
  split at h
  · cases h
  · next template htemplate =>
    rw [htemplate, ← Option.some.inj h]

theorem newFlow_isSome_iff (d : Dpdk) (srcMac : List UInt8) (config : FlowSettings)
    (nowNs : UInt64) : (newFlow d srcMac config nowNs).isSome ↔ config.Acceptable := by
  rw [FlowSettings.Acceptable, ← buildTemplate_isSome_iff d .empty config.flowKey _ _
    (formatMac srcMac) (if config.dstMac.isEmpty then "FF:FF:FF:FF:FF:FF" else config.dstMac)]
  simp only [newFlow]
  split
  · next h => simp only [h, Option.isSome_none]
  · next h => simp only [h, Option.isSome_some]

theorem flowKey_newFlow {d : Dpdk} {srcMac : List UInt8} {config : FlowSettings}
    {nowNs : UInt64} {f : FlowConfigInternal} (h : newFlow d srcMac config nowNs = some f) :
    f.flowKey = config.flowKey := by
  obtain ⟨_, _, _, _, rfl⟩ := newFlow_eq_some h
  rfl

/-- Its bucket is full, and holds a tenth of a second's worth of tokens. -/
theorem tokenBucket_newFlow {d : Dpdk} {srcMac : List UInt8} {config : FlowSettings}
    {nowNs : UInt64} {f : FlowConfigInternal} (h : newFlow d srcMac config nowNs = some f) :
    f.tokenBucket = .new f.pps (if f.pps > 0 then f.pps / 10 else 1000) nowNs := by
  simp only [newFlow] at h
  split at h
  · cases h
  · rw [← Option.some.inj h]

/-- `add_flow` rejects the settings and changes nothing, or stores the new flow and indexes it
    under both directions of its key. -/
theorem addFlow_cases (s : FlowScheduler) (d : Dpdk) (config : FlowSettings) (nowNs : UInt64) :
    (¬ config.Acceptable ∧ s.addFlow d config nowNs = (false, s)) ∨
    (config.Acceptable ∧ ∃ f, newFlow d s.srcMac config nowNs = some f ∧
      s.addFlow d config nowNs = (true, { s with
        flows := s.flows.insert config.flowId f
        flowLookup := (s.flowLookup.insert config.flowKey config.flowId).insert
          config.flowKey.reverse config.flowId })) := by
  have hiff := newFlow_isSome_iff d s.srcMac config nowNs
  cases h : newFlow d s.srcMac config nowNs with
  | none =>
    rw [h] at hiff
    exact .inl ⟨fun hacc => Bool.noConfusion (hiff.mpr hacc), by simp only [addFlow, h]⟩
  | some f =>
    rw [h] at hiff
    exact .inr ⟨hiff.mp rfl, f, rfl, by simp only [addFlow, h, flowKey_newFlow h]⟩

theorem getFlow_addFlow_ne (s : FlowScheduler) (d : Dpdk) {config : FlowSettings}
    (nowNs : UInt64) {id : UInt32} (hne : id ≠ config.flowId) :
    (s.addFlow d config nowNs).2.getFlow id = s.getFlow id := by
  rcases s.addFlow_cases d config nowNs with ⟨_, heq⟩ | ⟨_, f, _, heq⟩
  · rw [heq]
  · rw [heq]
    exact AList.lookup_insert_ne hne

/-! ## Removing, starting and stopping -/

theorem removeFlow_cases (s : FlowScheduler) (id : UInt32) :
    (s.getFlow id = none ∧ (s.removeFlow id).2 = s) ∨
    ∃ f, s.getFlow id = some f ∧ (s.removeFlow id).2 = { s with
      flows := s.flows.erase id
      flowLookup := (s.flowLookup.erase f.flowKey).erase f.flowKey.reverse } := by
  cases h : s.getFlow id with
  | none => exact .inl ⟨rfl, by rw [removeFlow, h]⟩
  | some f => exact .inr ⟨f, rfl, by rw [removeFlow, h]⟩

/-- Starting a flow changes its start time, its `active` flag and its bucket. -/
theorem setFlow_of_startFlow (s : FlowScheduler) (id : UInt32) (nowNs bucketNowNs : UInt64) :
    (s.startFlow id nowNs bucketNowNs).2 = s ∨
    ∃ f bucket, s.getFlow id = some f ∧ (s.startFlow id nowNs bucketNowNs).2 =
      s.setFlow id { f with startTimeNs := nowNs, active := true, tokenBucket := bucket } := by
  cases h : s.getFlow id with
  | none => exact .inl (by rw [startFlow, h])
  | some f => exact .inr ⟨f, _, rfl, by rw [startFlow, h]⟩

/-- Stopping a flow changes its `active` flag. -/
theorem setFlow_of_stopFlow (s : FlowScheduler) (id : UInt32) :
    (s.stopFlow id).2 = s ∨
    ∃ f, s.getFlow id = some f ∧ (s.stopFlow id).2 = s.setFlow id { f with active := false } := by
  cases h : s.getFlow id with
  | none => exact .inl (by rw [stopFlow, h])
  | some f => exact .inr ⟨f, rfl, by rw [stopFlow, h]⟩

/-! ## One control call, seen from a flow -/

/-- The call is about another flow than `id`, or it is refused. -/
def Op.Spares (s : FlowScheduler) (id : UInt32) : Op → Prop
  | .addFlow config _ => config.flowId = id → ¬ config.Acceptable
  | .startFlow id' _ _ => id' = id → s.getFlow id = none
  | .stopFlow id' => id' = id → s.getFlow id = none
  | _ => True

/-- What a control call may make of the flow under `id`. -/
inductive Effect (d : Dpdk) (s : FlowScheduler) (id : UInt32) :
    Op → Option FlowConfigInternal → Prop
  | keep (op : Op) (hspares : op.Spares s id) : Effect d s id op (s.getFlow id)
  | gone (op : Op) : Effect d s id op none
  | add (config : FlowSettings) (nowNs : UInt64) (f : FlowConfigInternal)
      (hid : config.flowId = id) (hacc : config.Acceptable)
      (hnew : newFlow d s.srcMac config nowNs = some f) :
      Effect d s id (.addFlow config nowNs) (some f)
  | start (nowNs bucketNowNs : UInt64) (f : FlowConfigInternal) (hf : s.getFlow id = some f) :
      Effect d s id (.startFlow id nowNs bucketNowNs) (some { f with
        startTimeNs := nowNs, active := true, tokenBucket := f.tokenBucket.reset bucketNowNs })
  | stop (f : FlowConfigInternal) (hf : s.getFlow id = some f) :
      Effect d s id (.stopFlow id) (some { f with active := false })

theorem effect_step (d : Dpdk) (s : FlowScheduler) (op : Op) (id : UInt32) :
    Effect d s id op ((s.step d op).getFlow id) := by
  cases op with
  | addFlow config nowNs =>
    rw [step]
    rcases s.addFlow_cases d config nowNs with ⟨hrej, heq⟩ | ⟨hacc, f, hnew, heq⟩
    · rw [heq]
      exact .keep _ fun _ => hrej
    · by_cases hid : config.flowId = id
      · -- an accepted flow replaces the one under its id
        have hget : (s.addFlow d config nowNs).2.getFlow id = some f := by
          rw [heq, ← hid]
          exact AList.lookup_insert s.flows
        rw [hget]
        exact .add config nowNs f hid hacc hnew
      · rw [s.getFlow_addFlow_ne d nowNs (Ne.symm hid)]
        exact .keep _ fun h => absurd h hid
  | removeFlow id' =>
    rw [step]
    rcases s.removeFlow_cases id' with ⟨-, heq⟩ | ⟨f, -, heq⟩
    · rw [heq]
      exact .keep _ trivial
    · rw [heq]
      by_cases hid : id = id'
      · rw [hid, getFlow, AList.lookup_erase]
        exact .gone _
      · rw [getFlow, AList.lookup_erase_ne hid]
        exact .keep _ trivial
  | clearAllFlows => exact .gone _
  | startFlow id' nowNs bucketNowNs =>
    cases hf : s.getFlow id' with
    | none =>
      -- no flow of that id, so nothing is done
      have heq : s.step d (.startFlow id' nowNs bucketNowNs) = s := by simp [step, startFlow, hf]
      rw [heq]
      exact .keep _ fun h => h ▸ hf
    | some f =>
      simp only [step, startFlow, hf]
      by_cases hid : id = id'
      · subst hid
        rw [getFlow_setFlow_self]
        exact .start nowNs bucketNowNs f hf
      · rw [getFlow_setFlow_ne _ _ hid]
        exact .keep _ fun h => absurd h.symm hid
  | stopFlow id' =>
    cases hf : s.getFlow id' with
    | none =>
      have heq : s.step d (.stopFlow id') = s := by simp [step, stopFlow, hf]
      rw [heq]
      exact .keep _ fun h => h ▸ hf
    | some f =>
      simp only [step, stopFlow, hf]
      by_cases hid : id = id'
      · subst hid
        rw [getFlow_setFlow_self]
        exact .stop f hf
      · rw [getFlow_setFlow_ne _ _ hid]
        exact .keep _ fun h => absurd h.symm hid

/-- A walk visits every key, in whatever order. -/
theorem mem_walk {order ids : List UInt32} {id : UInt32} : id ∈ walk order ids ↔ id ∈ ids := by
  simp only [walk, List.mem_append, List.mem_dedup, List.mem_filter, decide_eq_true_eq]
  constructor
  · rintro (⟨-, h⟩ | ⟨h, -⟩)
    · exact h
    · exact h
  · intro h
    by_cases horder : id ∈ order
    · exact .inl ⟨horder, h⟩
    · exact .inr ⟨h, horder⟩

/-- A walk that names every flow of the table does not depend on how the table is kept. -/
theorem walk_congr {order ids ids' : List UInt32} (horder : ∀ id ∈ ids, id ∈ order)
    (h : ∀ id, id ∈ ids ↔ id ∈ ids') : walk order ids = walk order ids' := by
  have hnone : ∀ {ids : List UInt32}, (∀ id ∈ ids, id ∈ order) →
      ids.filter (· ∉ order) = [] := by
    intro ids hids
    exact List.filter_eq_nil_iff.mpr fun id hid => by simpa using hids id hid
  rw [walk, walk, hnone horder, hnone fun id hid => horder id ((h id).mpr hid)]
  simp only [h]

theorem mem_getActiveFlows {s : FlowScheduler} {order : List UInt32} {id : UInt32} :
    id ∈ s.getActiveFlows order ↔ ∃ f, s.getFlow id = some f ∧ f.active = true := by
  simp only [getActiveFlows, List.mem_filter, mem_walk, Option.any_eq_true]
  constructor
  · exact fun h => h.2
  · rintro ⟨f, hf, hactive⟩
    refine ⟨?_, f, hf, hactive⟩
    rw [← AList.mem_keys, ← AList.lookup_isSome]
    exact Option.isSome_of_eq_some hf

/-! ## Choosing the ready flows -/

/-- A flow that may send now: it is active, and its duration is not over. -/
def Due (s : FlowScheduler) (nowNs : UInt64) (id : UInt32) : Prop :=
  ∃ f, s.getFlow id = some f ∧ f.active = true ∧ f.isExpired nowNs = false

/-- The same as a test. -/
def isDue (s : FlowScheduler) (nowNs : UInt64) (id : UInt32) : Bool :=
  (s.getFlow id).any fun f => f.active && !f.isExpired nowNs

theorem isDue_iff {s : FlowScheduler} {nowNs : UInt64} {id : UInt32} :
    s.isDue nowNs id = true ↔ s.Due nowNs id := by
  simp [isDue, Due, Option.any_eq_true]

/-- A walk takes a token from the flow when it comes to it. -/
def takes (s : FlowScheduler) (nowNs : UInt64) (bucketNowNs : UInt32 → UInt64) (id : UInt32) :
    Bool :=
  (s.getFlow id).any fun f => (f.visit nowNs (bucketNowNs id)).1

theorem Due.of_takes {s : FlowScheduler} {nowNs : UInt64} {bucketNowNs : UInt32 → UInt64}
    {id : UInt32} (h : s.takes nowNs bucketNowNs id = true) : s.Due nowNs id := by
  obtain ⟨f, hf, htaken⟩ := (Option.any_eq_true _ _).mp h
  obtain ⟨hactive, hexpired⟩ := f.visit_taken htaken
  exact ⟨f, hf, hactive, hexpired⟩

/-- A flow that has been visited, and nothing else, is different. -/
theorem getFlow_setFlow_visit {s : FlowScheduler} {id : UInt32} {f : FlowConfigInternal}
    (hf : s.getFlow id = some f) (nowNs bucketNowNs : UInt64) (id' : UInt32) :
    (s.setFlow id (f.visit nowNs bucketNowNs).2).getFlow id' =
      if id' = id then (s.getFlow id).map fun f => (f.visit nowNs bucketNowNs).2
      else s.getFlow id' := by
  by_cases hid : id' = id
  · rw [hid, getFlow_setFlow_self, if_pos rfl, hf, Option.map_some]
  · rw [getFlow_setFlow_ne _ _ hid, if_neg hid]

/-- A visit may leave the flow as it is. -/
theorem getFlow_of_visit_eq {s : FlowScheduler} {id : UInt32} {nowNs bucketNowNs : UInt64}
    (h : (s.getFlow id).map (fun f => (f.visit nowNs bucketNowNs).2) = s.getFlow id)
    (id' : UInt32) :
    s.getFlow id' =
      if id' = id then (s.getFlow id).map fun f => (f.visit nowNs bucketNowNs).2
      else s.getFlow id' := by
  split
  · next hid => rw [h, hid]
  · rfl

/-- One flow's turn in the walk. Whether the list is full is looked at only after a flow that was
    asked for a token. -/
theorem getReadyFlowsLoop_cons (maxFlows : UInt32) (nowNs : UInt64)
    (bucketNowNs : UInt32 → UInt64) (id : UInt32) (ids : List UInt32) (s : FlowScheduler)
    (ready : List UInt32) :
    ∃ s' ready', (∀ id', s'.getFlow id' =
        if id' = id then (s.getFlow id).map fun f => (f.visit nowNs (bucketNowNs id)).2
        else s.getFlow id') ∧
      ready' = (if s.takes nowNs bucketNowNs id then ready ++ [id] else ready) ∧
      getReadyFlowsLoop maxFlows nowNs bucketNowNs (id :: ids) s ready =
        if s.isDue nowNs id ∧ maxFlows.toNat ≤ ready'.length then (ready', s')
        else getReadyFlowsLoop maxFlows nowNs bucketNowNs ids s' ready' := by
  rw [getReadyFlowsLoop]
  cases hf : s.getFlow id with
  | none =>
    refine ⟨s, ready, hf ▸ getFlow_of_visit_eq (by rw [hf]; rfl), by simp [takes, hf], ?_⟩
    simp [isDue, hf]
  | some f =>
    cases hactive : f.active with
    | false =>
      have hvisit : f.visit nowNs (bucketNowNs id) = (false, f) := by
        simp [FlowConfigInternal.visit, hactive]
      refine ⟨s, ready, hf ▸ getFlow_of_visit_eq (by rw [hf, Option.map_some, hvisit]),
        by simp [takes, hf, hvisit], ?_⟩
      simp [isDue, hf, hactive]
    | true =>
      cases hexpired : f.isExpired nowNs with
      | true =>
        have hvisit : f.visit nowNs (bucketNowNs id) = (false, { f with active := false }) := by
          simp [FlowConfigInternal.visit, hactive, hexpired]
        have hget := getFlow_setFlow_visit hf nowNs (bucketNowNs id)
        rw [hvisit] at hget
        refine ⟨s.setFlow id { f with active := false }, ready, hf ▸ hget,
          by simp [takes, hf, hvisit], ?_⟩
        simp [isDue, hf, hactive, hexpired]
      | false =>
        -- asked for a token
        rcases hconsume : f.tokenBucket.tryConsume 1 (bucketNowNs id) with ⟨consumed, tokenBucket⟩
        have hvisit : f.visit nowNs (bucketNowNs id) =
            (decide (consumed > 0), { f with tokenBucket := tokenBucket }) := by
          simp [FlowConfigInternal.visit, hactive, hexpired, hconsume]
        have hget := getFlow_setFlow_visit hf nowNs (bucketNowNs id)
        rw [hvisit] at hget
        refine ⟨s.setFlow id { f with tokenBucket := tokenBucket },
          if consumed > 0 then ready ++ [id] else ready, hf ▸ hget,
          by simp [takes, hf, hvisit], ?_⟩
        simp [isDue, hf, hactive, hexpired, hconsume]

/-- The walk visits a first part of the ids, takes a token wherever it can, and leaves the other
    flows alone. It goes to the end unless the list is full before. -/
theorem getReadyFlowsLoop_visits (maxFlows : UInt32) (nowNs : UInt64)
    (bucketNowNs : UInt32 → UInt64) {ids : List UInt32} (hnodup : ids.Nodup) (s : FlowScheduler)
    (ready : List UInt32) :
    ∃ visited, visited <+: ids ∧
      (getReadyFlowsLoop maxFlows nowNs bucketNowNs ids s ready).1 =
        ready ++ visited.filter (s.takes nowNs bucketNowNs) ∧
      (∀ id, (getReadyFlowsLoop maxFlows nowNs bucketNowNs ids s ready).2.getFlow id =
        if id ∈ visited then (s.getFlow id).map fun f => (f.visit nowNs (bucketNowNs id)).2
        else s.getFlow id) ∧
      (visited = ids ∨ maxFlows.toNat ≤
        (getReadyFlowsLoop maxFlows nowNs bucketNowNs ids s ready).1.length) := by
  induction ids generalizing s ready with
  | nil => exact ⟨[], List.nil_prefix, by simp [getReadyFlowsLoop], by simp [getReadyFlowsLoop],
      .inl rfl⟩
  | cons id ids ih =>
    obtain ⟨hid, hnodup⟩ := List.nodup_cons.mp hnodup
    obtain ⟨s', ready', hget, hready, heq⟩ :=
      getReadyFlowsLoop_cons maxFlows nowNs bucketNowNs id ids s ready
    rw [heq]
    split
    · next hfull =>
      refine ⟨[id], ⟨ids, rfl⟩, ?_, fun id' => ?_, .inr hfull.2⟩
      · rw [hready, List.filter_singleton]
        cases s.takes nowNs bucketNowNs id <;> simp
      · rw [hget]
        by_cases hid' : id' = id
        · simp [hid']
        · simp [hid']
    · obtain ⟨visited, hstart, hlist, hflows, hend⟩ := ih hnodup s' ready'
      -- the rest of the walk does not come back to this flow
      have hfresh : id ∉ visited := fun hmem => hid (hstart.subset hmem)
      have hother : ∀ id' ∈ visited, s'.getFlow id' = s.getFlow id' := by
        intro id' hmem
        rw [hget, if_neg (ne_of_mem_of_not_mem hmem hfresh)]
      refine ⟨id :: visited, List.cons_prefix_cons.mpr ⟨rfl, hstart⟩, ?_, fun id' => ?_, ?_⟩
      · have hsame : visited.filter (s'.takes nowNs bucketNowNs) =
            visited.filter (s.takes nowNs bucketNowNs) :=
          List.filter_congr fun id' hmem => by rw [takes, takes, hother id' hmem]
        rw [hlist, hready, hsame, List.filter_cons]
        split <;> simp
      · rw [hflows]
        by_cases hmem : id' ∈ visited
        · simp [hmem, hother id' hmem]
        · rw [if_neg hmem, hget]
          by_cases hid' : id' = id
          · simp [hid']
          · simp [hid', hmem]
      · rcases hend with rfl | hend
        · exact .inl rfl
        · exact .inr hend

/-- Asked for some flows, `get_ready_flows` returns no more than that. -/
theorem length_getReadyFlows_le (s : FlowScheduler) {maxFlows : UInt32} (hmax : maxFlows ≠ 0)
    (order : List UInt32) (nowNs : UInt64) (bucketNowNs : UInt32 → UInt64) :
    (s.getReadyFlows maxFlows order nowNs bucketNowNs).1.length ≤ maxFlows.toNat := by
  have hpos : 0 < maxFlows.toNat := by
    rw [Nat.pos_iff_ne_zero, ne_eq, ← UInt32.toNat_zero, UInt32.toNat_inj]
    exact hmax
  -- the walk goes on only while the list is not full, so each turn adds to a shorter one
  have hloop : ∀ ids s (ready : List UInt32), ready.length < maxFlows.toNat →
      (getReadyFlowsLoop maxFlows nowNs bucketNowNs ids s ready).1.length ≤ maxFlows.toNat := by
    intro ids
    induction ids with
    | nil => intro s ready h; exact Nat.le_of_lt h
    | cons id ids ih =>
      intro s ready h
      obtain ⟨s', ready', -, hready, heq⟩ :=
        getReadyFlowsLoop_cons maxFlows nowNs bucketNowNs id ids s ready
      have hlen : ready'.length = ready.length + if s.takes nowNs bucketNowNs id then 1 else 0 := by
        rw [hready]
        split <;> simp
      rw [heq]
      split
      · show ready'.length ≤ maxFlows.toNat
        split at hlen <;> omega
      · next hnot =>
        apply ih
        by_cases htakes : s.takes nowNs bucketNowNs id = true
        · have hdue : s.isDue nowNs id = true := isDue_iff.mpr (.of_takes htakes)
          simp only [hdue, true_and] at hnot
          omega
        · rw [if_neg htakes] at hlen
          omega
  exact hloop _ s [] hpos

theorem nodup_walk (order : List UInt32) {ids : List UInt32} (h : ids.Nodup) :
    (walk order ids).Nodup := by
  rw [walk, List.nodup_append]
  refine ⟨List.nodup_dedup _, h.filter _, fun a ha b hb hab => ?_⟩
  -- the first part comes from `order`, the second from elsewhere
  simp only [List.mem_dedup, List.mem_filter, decide_eq_true_eq] at ha hb
  exact hb.2 (hab ▸ ha.1)

/-- `get_ready_flows` as a walk over the first flows of the table. -/
theorem getReadyFlows_visits (s : FlowScheduler) (maxFlows : UInt32) (order : List UInt32)
    (nowNs : UInt64) (bucketNowNs : UInt32 → UInt64) :
    ∃ visited, visited <+: walk order s.flows.keys ∧
      (s.getReadyFlows maxFlows order nowNs bucketNowNs).1 =
        visited.filter (s.takes nowNs bucketNowNs) ∧
      (∀ id, (s.getReadyFlows maxFlows order nowNs bucketNowNs).2.getFlow id =
        if id ∈ visited then (s.getFlow id).map fun f => (f.visit nowNs (bucketNowNs id)).2
        else s.getFlow id) ∧
      (visited = walk order s.flows.keys ∨ maxFlows.toNat ≤
        (s.getReadyFlows maxFlows order nowNs bucketNowNs).1.length) :=
  getReadyFlowsLoop_visits maxFlows nowNs bucketNowNs (nodup_walk order s.flows.keys_nodup) s []

/-- `get_ready_flows` changes nothing of a flow but its `active` flag and its bucket. -/
theorem getFlow_getReadyFlows (s : FlowScheduler) (maxFlows : UInt32) (order : List UInt32)
    (nowNs : UInt64) (bucketNowNs : UInt32 → UInt64) (id : UInt32) :
    ((s.getReadyFlows maxFlows order nowNs bucketNowNs).2.getFlow id).map (·.unscheduled) =
      (s.getFlow id).map (·.unscheduled) := by
  obtain ⟨visited, -, -, hflows, -⟩ := s.getReadyFlows_visits maxFlows order nowNs bucketNowNs
  rw [hflows]
  split
  · rw [Option.map_map]
    congr 1
    funext f
    exact f.unscheduled_visit nowNs (bucketNowNs id)
  · rfl

/-- From `s` to `s'` flows may have been deactivated and charged, and nothing else. -/
def Cools (s s' : FlowScheduler) : Prop :=
  ∀ id f', s'.getFlow id = some f' →
    ∃ f, s.getFlow id = some f ∧ f'.unscheduled = f.unscheduled ∧ (f'.active → f.active)

theorem Cools.refl (s : FlowScheduler) : Cools s s :=
  fun _ f' hf' => ⟨f', hf', rfl, id⟩

theorem Cools.trans {s s' s'' : FlowScheduler} (h : Cools s s') (h' : Cools s' s'') :
    Cools s s'' := by
  intro id f'' hf''
  obtain ⟨f', hf', hsame', hactive'⟩ := h' id f'' hf''
  obtain ⟨f, hf, hsame, hactive⟩ := h id f' hf'
  exact ⟨f, hf, hsame'.trans hsame, fun h => hactive (hactive' h)⟩

/-- `get_ready_flows` returns flows that are due, and only cools the table. -/
theorem due_getReadyFlows (s : FlowScheduler) (maxFlows : UInt32) (order : List UInt32)
    (nowNs : UInt64) (bucketNowNs : UInt32 → UInt64) :
    Cools s (s.getReadyFlows maxFlows order nowNs bucketNowNs).2 ∧
      ∀ id ∈ (s.getReadyFlows maxFlows order nowNs bucketNowNs).1, s.Due nowNs id := by
  obtain ⟨visited, -, hready, hflows, -⟩ := s.getReadyFlows_visits maxFlows order nowNs bucketNowNs
  constructor
  · intro id f' hf'
    rw [hflows] at hf'
    split at hf'
    · obtain ⟨f, hf, rfl⟩ := Option.map_eq_some_iff.mp hf'
      exact ⟨f, hf, f.unscheduled_visit _ _, f.active_of_visit⟩
    · exact ⟨f', hf', rfl, fun h => h⟩
  · intro id hid
    rw [hready] at hid
    exact .of_takes (List.mem_filter.mp hid).2

/-! ## Receiving -/

/-- A received segment changes nothing, or the connection of the stateful flow its 5-tuple is
    indexed under. -/
theorem handleTcpRx_cases (s : FlowScheduler) (key : FlowKey) (hdr : RteTcpHdr)
    (payloadLen : UInt32) (nowNs : UInt64) :
    s.handleTcpRx key hdr payloadLen nowNs = s ∨
    ∃ id f conn, s.flowLookup.lookup key = some id ∧ s.getFlow id = some f ∧
      f.isStatefulTcp ∧ f.tcpState = some conn ∧
      s.handleTcpRx key hdr payloadLen nowNs =
        s.setFlow id { f with tcpState := some (conn.receive hdr payloadLen nowNs) } := by
  -- the early returns of the source, in its order
  cases hid : s.flowLookup.lookup key with
  | none => exact .inl (by simp only [handleTcpRx, hid])
  | some id =>
    cases hf : s.getFlow id with
    | none => exact .inl (by simp only [handleTcpRx, hid, hf])
    | some f =>
      by_cases hstate : f.stateless ∨ f.protocol ≠ "tcp"
      · exact .inl (by simp only [handleTcpRx, hid, hf, if_pos hstate])
      · cases hconn : f.tcpState with
        | none => exact .inl (by simp only [handleTcpRx, hid, hf, if_neg hstate, hconn])
        | some conn =>
          refine .inr ⟨id, f, conn, rfl, hf, ?_, hconn, ?_⟩
          · simp only [not_or, ne_eq, not_not, Bool.not_eq_true] at hstate
            simp only [FlowConfigInternal.isStatefulTcp, hstate.1, hstate.2, hconn,
              Bool.not_false, decide_true, Option.isSome_some, Bool.and_self]
          · simp only [handleTcpRx, hid, hf, if_neg hstate, hconn]

/-- With a stateful flow under the 5-tuple, a received segment is taken in by its connection. -/
theorem handleTcpRx_of_stateful {s : FlowScheduler} {key : FlowKey} {id : UInt32}
    {f : FlowConfigInternal} {conn : TCPConnectionState} (hkey : s.flowLookup.lookup key = some id)
    (hf : s.getFlow id = some f) (hstate : f.isStatefulTcp) (hconn : f.tcpState = some conn)
    (hdr : RteTcpHdr) (payloadLen : UInt32) (nowNs : UInt64) :
    s.handleTcpRx key hdr payloadLen nowNs =
      s.setFlow id { f with tcpState := some (conn.receive hdr payloadLen nowNs) } := by
  have htcp : ¬ (f.stateless ∨ f.protocol ≠ "tcp") := by
    simp only [FlowConfigInternal.isStatefulTcp, Bool.and_eq_true, Bool.not_eq_true',
      decide_eq_true_eq] at hstate
    simp [hstate.1.1, hstate.1.2]
  simp only [handleTcpRx, hkey, hf, if_neg htcp, hconn]

end FlowScheduler

end TrafficGen
