import TrafficGen.Core.FlowObjects
import TrafficGen.Spec.FlowTable

/-!
# The flow table behind its pointers

`FlowScheduler` keeps the flows in the table; `FlowObjects` keeps pointers to them, as the threads
see it. While every pointer of the table is to a flow of its own, each call does the same on either.

## Key results

- `addFlow_cases`: what `addFlow` may do
- `Represents.store`: a change behind a pointer changes one flow of the table
- `Represents.addFlow`, `Represents.startFlow`, …: each call keeps the two tables alike
-/

namespace TrafficGen

namespace FlowObjects

variable {t : FlowObjects} {s : FlowScheduler} {id : UInt32} {flow : FlowPtr}
  {f : FlowConfigInternal}

theorem find_eq_some : t.find id = some (flow, f) ↔
    t.getFlow id = some flow ∧ t.deref flow = some f := by
  simp only [find, Option.bind_eq_some_iff, Option.map_eq_some_iff, Prod.mk.injEq]
  constructor
  · rintro ⟨flow', hflow, f', hf, rfl, rfl⟩
    exact ⟨hflow, hf⟩
  · rintro ⟨hflow, hf⟩
    exact ⟨flow, hflow, f, hf, rfl, rfl⟩

theorem deref_store_self (h : t.deref flow = some f) (f' : FlowConfigInternal) :
    (t.store flow f').deref flow = some f' :=
  List.getElem?_set_self (List.getElem?_eq_some_iff.mp h).1

theorem deref_store_ne {flow' : FlowPtr} (h : flow' ≠ flow) (f' : FlowConfigInternal) :
    (t.store flow f').deref flow' = t.deref flow' :=
  List.getElem?_set_ne (Ne.symm h)

@[simp] theorem getFlow_store (t : FlowObjects) (flow : FlowPtr) (f : FlowConfigInternal)
    (id : UInt32) : (t.store flow f).getFlow id = t.getFlow id := rfl

/-- Either nothing is added, or a flow behind a pointer that none has had before. -/
theorem addFlow_cases (t : FlowObjects) (d : Dpdk) (config : FlowSettings) (nowNs : UInt64) :
    (t.addFlow d config nowNs).2 = t ∨
    ∃ stored, FlowScheduler.newFlow d t.srcMac config nowNs = some stored ∧
      (t.addFlow d config nowNs).2.objects = t.objects ++ [stored] ∧
      (t.addFlow d config nowNs).2.flows = t.flows.insert config.flowId t.objects.length := by
  rw [addFlow]
  cases FlowScheduler.newFlow d t.srcMac config nowNs with
  | none => exact .inl rfl
  | some stored => exact .inr ⟨stored, rfl, rfl, rfl⟩

/-- A pointer found after an insertion is the new one, or was there before. -/
theorem of_lookup_insert {id' : UInt32} {flow' : FlowPtr}
    (h : (t.flows.insert id' flow').lookup id = some flow) :
    (id = id' ∧ flow = flow') ∨ t.getFlow id = some flow := by
  by_cases hid : id = id'
  · subst hid
    exact .inl ⟨rfl, (Option.some.inj ((AList.lookup_insert t.flows).symm.trans h)).symm⟩
  · exact .inr ((AList.lookup_insert_ne hid).symm.trans h)

/-- Every pointer of the table is to a flow, and no two are to the same. -/
structure WellFormed (t : FlowObjects) : Prop where
  lt : ∀ id flow, t.getFlow id = some flow → flow < t.objects.length
  injective : ∀ id id' flow, t.getFlow id = some flow → t.getFlow id' = some flow → id = id'

/-- `t` holds, behind its pointers, the flows of `s`. -/
structure Represents (t : FlowObjects) (s : FlowScheduler) : Prop extends t.WellFormed where
  srcMac : t.srcMac = s.srcMac
  flowLookup : t.flowLookup = s.flowLookup
  flows : ∀ id, (t.find id).map (·.2) = s.getFlow id

namespace Represents

theorem new (srcMac : List UInt8) : (FlowObjects.new srcMac).Represents (.new srcMac) where
  lt id flow h := by cases (AList.lookup_empty id).symm.trans h
  injective id id' flow h := by cases (AList.lookup_empty id).symm.trans h
  srcMac := rfl
  flowLookup := rfl
  flows _ := rfl

/-- Either both tables have a flow under an id, the same, or neither has. -/
theorem cases (h : t.Represents s) (id : UInt32) :
    (t.find id = none ∧ t.getFlow id = none ∧ s.getFlow id = none) ∨
    ∃ flow f, t.find id = some (flow, f) ∧ s.getFlow id = some f := by
  cases hfind : t.find id with
  | none =>
    have hs := h.flows id
    rw [hfind, Option.map_none] at hs
    refine .inl ⟨rfl, ?_, hs.symm⟩
    rw [Option.eq_none_iff_forall_ne_some]
    intro flow hflow
    have hlt := h.lt id flow hflow
    have hfound : t.find id = some (flow, t.objects[flow]) :=
      find_eq_some.mpr ⟨hflow, List.getElem?_eq_getElem hlt⟩
    cases hfind.symm.trans hfound
  | some x =>
    have hs := h.flows id
    rw [hfind, Option.map_some] at hs
    exact .inr ⟨x.1, x.2, rfl, hs.symm⟩

/-- A change behind the pointer of a flow changes that flow, and no other. -/
theorem store (h : t.Represents s) (hfind : t.find id = some (flow, f))
    (f' : FlowConfigInternal) : (t.store flow f').Represents (s.setFlow id f') := by
  obtain ⟨hflow, hf⟩ := find_eq_some.mp hfind
  refine
    { lt := fun id' flow' hflow' => ?_
      injective := h.injective
      srcMac := h.srcMac
      flowLookup := h.flowLookup
      flows := fun id' => ?_ }
  · rw [FlowObjects.store, List.length_set]
    exact h.lt id' flow' hflow'
  · by_cases hid : id' = id
    · subst hid
      rw [FlowScheduler.getFlow_setFlow_self,
        find_eq_some.mpr ⟨(getFlow_store t flow f' id').trans hflow, deref_store_self hf f'⟩,
        Option.map_some]
    · rw [FlowScheduler.getFlow_setFlow_ne _ _ hid, ← h.flows id', find, find, getFlow_store]
      cases hflow' : t.getFlow id' with
      | none => rfl
      | some flow' =>
        have hne : flow' ≠ flow := by
          rintro rfl
          exact hid (h.injective id' id flow' hflow' hflow)
        rw [Option.bind_some, Option.bind_some, deref_store_ne hne]

theorem addFlow (h : t.Represents s) (d : Dpdk) (config : FlowSettings) (nowNs : UInt64) :
    (t.addFlow d config nowNs).1 = (s.addFlow d config nowNs).1 ∧
      (t.addFlow d config nowNs).2.Represents (s.addFlow d config nowNs).2 := by
  rw [FlowObjects.addFlow, FlowScheduler.addFlow, h.srcMac]
  cases FlowScheduler.newFlow d s.srcMac config nowNs with
  | none => exact ⟨rfl, h⟩
  | some stored =>
    refine ⟨rfl,
      { lt := fun id flow hflow => ?_
        injective := fun id id' flow hflow hflow' => ?_
        srcMac := rfl
        flowLookup := by simp only [h.flowLookup]
        flows := fun id => ?_ }⟩
    · rw [List.length_append, List.length_singleton]
      rcases of_lookup_insert hflow with ⟨-, hnew⟩ | hold
      · rw [hnew]
        exact Nat.lt_succ_self _
      · exact Nat.lt_succ_of_lt (h.lt id flow hold)
    · -- the new pointer is beyond all others
      rcases of_lookup_insert hflow with ⟨hid, hnew⟩ | hold <;>
        rcases of_lookup_insert hflow' with ⟨hid', hnew'⟩ | hold'
      · rw [hid, hid']
      · exact absurd hnew (Nat.ne_of_lt (h.lt id' flow hold'))
      · exact absurd hnew' (Nat.ne_of_lt (h.lt id flow hold))
      · exact h.injective id id' flow hold hold'
    · by_cases hid : id = config.flowId
      · subst hid
        have hself : (t.flows.insert config.flowId t.objects.length).lookup config.flowId =
            some t.objects.length := AList.lookup_insert t.flows
        rw [find, getFlow, hself, Option.bind_some, deref, List.getElem?_concat_length]
        exact (AList.lookup_insert s.flows).symm
      · have hother : (t.flows.insert config.flowId t.objects.length).lookup id = t.getFlow id :=
          AList.lookup_insert_ne hid
        have hs : (s.flows.insert config.flowId stored).lookup id = s.getFlow id :=
          AList.lookup_insert_ne hid
        rw [FlowScheduler.getFlow, hs, ← h.flows id, find, find, getFlow, hother]
        cases hflow : t.getFlow id with
        | none => rfl
        | some flow =>
          rw [Option.bind_some, Option.bind_some, deref, deref,
            List.getElem?_append_left (h.lt id flow hflow)]

theorem startFlow (h : t.Represents s) (id : UInt32) (nowNs bucketNowNs : UInt64) :
    (t.startFlow id nowNs bucketNowNs).2.Represents (s.startFlow id nowNs bucketNowNs).2 := by
  rcases h.cases id with ⟨ht, -, hs⟩ | ⟨flow, f, ht, hs⟩
  · simp only [FlowObjects.startFlow, FlowScheduler.startFlow, ht, hs]
    exact h
  · simp only [FlowObjects.startFlow, FlowScheduler.startFlow, ht, hs]
    exact h.store ht _

theorem stopFlow (h : t.Represents s) (id : UInt32) :
    (t.stopFlow id).2.Represents (s.stopFlow id).2 := by
  rcases h.cases id with ⟨ht, -, hs⟩ | ⟨flow, f, ht, hs⟩
  · simp only [FlowObjects.stopFlow, FlowScheduler.stopFlow, ht, hs]
    exact h
  · simp only [FlowObjects.stopFlow, FlowScheduler.stopFlow, ht, hs]
    exact h.store ht _

theorem handleTcpRx (h : t.Represents s) (key : FlowKey) (tcpHdr : RteTcpHdr)
    (payloadLen : UInt32) (nowNs : UInt64) :
    (t.handleTcpRx key tcpHdr payloadLen nowNs).Represents
      (s.handleTcpRx key tcpHdr payloadLen nowNs) := by
  rw [FlowObjects.handleTcpRx, FlowScheduler.handleTcpRx, h.flowLookup]
  cases s.flowLookup.lookup key with
  | none => exact h
  | some id =>
    rcases h.cases id with ⟨ht, -, hs⟩ | ⟨flow, f, ht, hs⟩
    · simp only [ht, hs]
      exact h
    · simp only [ht, hs]
      split
      · exact h
      · cases f.tcpState with
        | none => exact h
        | some conn => exact h.store ht _

/-! ### Walks -/

theorem mem_keys (h : t.Represents s) (id : UInt32) : id ∈ t.flows.keys ↔ id ∈ s.flows.keys := by
  rw [← AList.mem_keys, ← AList.mem_keys, ← AList.lookup_isSome, ← AList.lookup_isSome]
  rcases h.cases id with ⟨-, ht, hs⟩ | ⟨flow, f, ht, hs⟩
  · rw [show t.flows.lookup id = none from ht, show s.flows.lookup id = none from hs]
    simp only [Option.isSome_none, Bool.false_eq_true]
  · have hflow := (find_eq_some.mp ht).1
    rw [show t.flows.lookup id = some flow from hflow, show s.flows.lookup id = some f from hs]
    rfl

theorem walk_eq (h : t.Represents s) {order : List UInt32}
    (horder : ∀ id ∈ s.flows.keys, id ∈ order) :
    FlowScheduler.walk order t.flows.keys = FlowScheduler.walk order s.flows.keys :=
  (FlowScheduler.walk_congr horder fun id => (h.mem_keys id).symm).symm

theorem getActiveFlows (h : t.Represents s) {order : List UInt32}
    (horder : ∀ id ∈ s.flows.keys, id ∈ order) :
    t.getActiveFlows order = s.getActiveFlows order := by
  rw [FlowObjects.getActiveFlows, FlowScheduler.getActiveFlows, h.walk_eq horder]
  refine List.filter_congr fun id _ => ?_
  rcases h.cases id with ⟨ht, -, hs⟩ | ⟨flow, f, ht, hs⟩
  · rw [ht, hs]
    rfl
  · rw [ht, hs]
    rfl

theorem getReadyFlowsLoop (maxFlows : UInt32) (nowNs : UInt64) (bucketNowNs : UInt32 → UInt64)
    (ids ready : List UInt32) (h : t.Represents s) :
    (getReadyFlowsLoop maxFlows nowNs bucketNowNs ids t ready).1 =
        (FlowScheduler.getReadyFlowsLoop maxFlows nowNs bucketNowNs ids s ready).1 ∧
      (getReadyFlowsLoop maxFlows nowNs bucketNowNs ids t ready).2.Represents
        (FlowScheduler.getReadyFlowsLoop maxFlows nowNs bucketNowNs ids s ready).2 := by
  induction ids generalizing t s ready with
  | nil => exact ⟨rfl, h⟩
  | cons id ids ih =>
    rcases h.cases id with ⟨ht, -, hs⟩ | ⟨flow, f, ht, hs⟩
    · simp only [FlowObjects.getReadyFlowsLoop, FlowScheduler.getReadyFlowsLoop, ht, hs]
      exact ih ready h
    · simp only [FlowObjects.getReadyFlowsLoop, FlowScheduler.getReadyFlowsLoop, ht, hs]
      split
      · exact ih ready h
      · split
        · exact ih ready (h.store ht _)
        · have hnext := h.store ht { f with
            tokenBucket := (f.tokenBucket.tryConsume 1 (bucketNowNs id)).2 }
          generalize (if (f.tokenBucket.tryConsume 1 (bucketNowNs id)).1 > 0 then ready ++ [id]
            else ready) = ready'
          split
          · exact ⟨rfl, hnext⟩
          · exact ih _ hnext

theorem getReadyFlows (h : t.Represents s) {order : List UInt32}
    (horder : ∀ id ∈ s.flows.keys, id ∈ order) (maxFlows : UInt32) (nowNs : UInt64)
    (bucketNowNs : UInt32 → UInt64) :
    (t.getReadyFlows maxFlows order nowNs bucketNowNs).1 =
        (s.getReadyFlows maxFlows order nowNs bucketNowNs).1 ∧
      (t.getReadyFlows maxFlows order nowNs bucketNowNs).2.Represents
        (s.getReadyFlows maxFlows order nowNs bucketNowNs).2 := by
  rw [FlowObjects.getReadyFlows, FlowScheduler.getReadyFlows, h.walk_eq horder]
  exact getReadyFlowsLoop maxFlows nowNs bucketNowNs _ [] h

end Represents

end FlowObjects

end TrafficGen
