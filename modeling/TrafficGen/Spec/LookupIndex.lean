import TrafficGen.ForStd.KeyedIndex
import TrafficGen.Spec.FlowTable

/-!
# The lookup index

`flow_lookup_` tells which flow a received segment belongs to. Read as a
`KeyedIndex`, the flow table should stay `Sound` (an entry leads to a flow of that
5-tuple) and `Complete` (every flow is found under its 5-tuple). The scheduler's calls
are the operations of `KeyedIndex` (`index_addFlow`, `index_removeFlow`,
`index_clearAllFlows`), so its lemmas say which calls keep either property:

- `add_flow` forgets to retire the entries of an id's previous key, and `clear_all_flows`
  those of every flow; `remove_flow` does retire them
- `remove_flow` retires entries by key, also where another flow shares the key

## Key results

- `noMisdelivery_iff_retires`: segments are delivered by 5-tuple throughout a history
  exactly when no call strands an entry
- `everyFlowReachable_iff_spares`: every flow stays reachable throughout a history
  exactly when no call takes away an entry that another flow needs
-/

namespace TrafficGen.FlowScheduler

open KeyedIndex (Same)

/-- The flow table and its lookup index. -/
def index (s : FlowScheduler) : KeyedIndex UInt32 FlowKey where
  owner := fun id => (s.getFlow id).map (·.flowKey)
  entry := fun k => s.flowLookup.lookup k

/-! ## The calls as index operations -/

theorem index_ext {a b : KeyedIndex UInt32 FlowKey} (howner : ∀ id, a.owner id = b.owner id)
    (hentry : ∀ k, a.entry k = b.entry k) : a = b := by
  cases a
  cases b
  simp only [KeyedIndex.mk.injEq]
  exact ⟨funext howner, funext hentry⟩

theorem index_addFlow {s : FlowScheduler} {d : Dpdk} {config : FlowSettings}
    (hacc : config.Acceptable) (nowNs : UInt64) :
    (s.addFlow d config nowNs).2.index =
      s.index.put FlowKey.reverse config.flowId config.flowKey := by
  rcases s.addFlow_cases d config nowNs with ⟨hrej, _⟩ | ⟨_, f, hf, heq⟩
  · exact absurd hacc hrej
  · rw [heq]
    apply index_ext
    · intro id
      by_cases hid : id = config.flowId
      · subst hid
        simp only [index, getFlow, KeyedIndex.put, AList.lookup_insert, Option.map_some,
          flowKey_newFlow hf, if_true]
      · simp only [index, getFlow, KeyedIndex.put, AList.lookup_insert_ne hid, if_neg hid]
    · -- the reverse entry is written last, so it is looked at first
      intro k
      simp only [index, KeyedIndex.put, Same]
      by_cases hrev : k = config.flowKey.reverse
      · subst hrev
        simp only [AList.lookup_insert, or_true, if_true]
      · rw [AList.lookup_insert_ne hrev]
        by_cases hfwd : k = config.flowKey
        · subst hfwd
          simp only [AList.lookup_insert, true_or, if_true]
        · simp only [AList.lookup_insert_ne hfwd, hfwd, hrev, or_self, if_false]

/-- Right after a flow is added, its 5-tuple and the reverse lead to it. -/
theorem lookup_addFlow {s : FlowScheduler} {d : Dpdk} {config : FlowSettings} {nowNs : UInt64}
    {f : FlowConfigInternal} (hf : newFlow d s.srcMac config nowNs = some f) {key : FlowKey}
    (hkey : key = config.flowKey ∨ key = config.flowKey.reverse) :
    (s.addFlow d config nowNs).2.flowLookup.lookup key = some config.flowId ∧
      (s.addFlow d config nowNs).2.getFlow config.flowId = some f := by
  rcases s.addFlow_cases d config nowNs with ⟨hrej, -⟩ | ⟨hacc, f', hf', heq⟩
  · exact absurd ((newFlow_isSome_iff d s.srcMac config nowNs).mp (by rw [hf]; rfl)) hrej
  · constructor
    · have hentry : (s.addFlow d config nowNs).2.index.entry key =
          (s.index.put FlowKey.reverse config.flowId config.flowKey).entry key := by
        rw [index_addFlow hacc nowNs]
      exact hentry.trans (if_pos hkey)
    · rw [hf, Option.some.injEq] at hf'
      rw [heq, hf']
      exact AList.lookup_insert s.flows

theorem index_removeFlow (s : FlowScheduler) (id : UInt32) :
    (s.removeFlow id).2.index = s.index.drop FlowKey.reverse id := by
  rcases s.removeFlow_cases id with ⟨hnone, heq⟩ | ⟨f, hf, heq⟩
  · rw [heq, KeyedIndex.drop]
    simp only [index, hnone, Option.map_none]
  · rw [heq, KeyedIndex.drop]
    simp only [index, hf, Option.map_some]
    apply index_ext
    · intro id'
      by_cases hid : id' = id
      · subst hid
        simp only [getFlow, AList.lookup_erase, Option.map_none, if_true]
      · simp only [getFlow, AList.lookup_erase_ne hid, if_neg hid]
    · -- erased in this order, one direction and then the other
      intro k
      simp only [Same]
      by_cases hrev : k = f.flowKey.reverse
      · subst hrev
        simp only [AList.lookup_erase, or_true, if_true]
      · rw [AList.lookup_erase_ne hrev]
        by_cases hfwd : k = f.flowKey
        · subst hfwd
          simp only [AList.lookup_erase, true_or, if_true]
        · simp only [AList.lookup_erase_ne hfwd, hfwd, hrev, or_self, if_false]

theorem index_clearAllFlows (s : FlowScheduler) : s.clearAllFlows.index = s.index.clear :=
  index_ext (fun _ => rfl) (fun _ => rfl)

/-- Changing a flow without changing its key is invisible to the index. -/
theorem index_setFlow {s : FlowScheduler} {id : UInt32} {f f' : FlowConfigInternal}
    (hf : s.getFlow id = some f) (hkey : f'.flowKey = f.flowKey) :
    (s.setFlow id f').index = s.index := by
  apply index_ext
  · intro id'
    by_cases hid : id' = id
    · subst hid
      simp only [index, getFlow_setFlow_self, hf, Option.map_some, hkey]
    · simp only [index, getFlow_setFlow_ne s f' hid]
  · exact fun _ => rfl

theorem index_startFlow (s : FlowScheduler) (id : UInt32) (nowNs bucketNowNs : UInt64) :
    (s.startFlow id nowNs bucketNowNs).2.index = s.index := by
  rcases s.setFlow_of_startFlow id nowNs bucketNowNs with heq | ⟨f, bucket, hf, heq⟩
  · rw [heq]
  · rw [heq]
    exact index_setFlow hf rfl

theorem index_stopFlow (s : FlowScheduler) (id : UInt32) :
    (s.stopFlow id).2.index = s.index := by
  rcases s.setFlow_of_stopFlow id with heq | ⟨f, hf, heq⟩
  · rw [heq]
  · rw [heq]
    exact index_setFlow hf rfl

/-- A rejected `add_flow` is invisible to the index. -/
theorem index_addFlow_rejected {s : FlowScheduler} {d : Dpdk} {config : FlowSettings}
    (hrej : ¬ config.Acceptable) (nowNs : UInt64) :
    (s.addFlow d config nowNs).2.index = s.index := by
  rcases s.addFlow_cases d config nowNs with ⟨_, heq⟩ | ⟨hacc, _⟩
  · rw [heq]
  · exact absurd hacc hrej

/-! ## Delivery of received segments -/

/-- Segments are delivered by 5-tuple: every index entry leads to a flow of that 5-tuple, and a
    received segment changes at most one flow, whose 5-tuple is the segment's in one
    direction or the other. -/
structure NoMisdelivery (s : FlowScheduler) : Prop where
  entries : ∀ k id, s.flowLookup.lookup k = some id →
    ∃ f, s.getFlow id = some f ∧ Same FlowKey.reverse f.flowKey k
  delivery : ∀ k hdr payloadLen nowNs, ∃ id,
    (∀ id', id' ≠ id → (s.handleTcpRx k hdr payloadLen nowNs).getFlow id' = s.getFlow id') ∧
    ((s.handleTcpRx k hdr payloadLen nowNs).getFlow id ≠ s.getFlow id →
      ∃ f, s.getFlow id = some f ∧ Same FlowKey.reverse f.flowKey k)

/-- Delivery by 5-tuple is soundness of the index. -/
theorem noMisdelivery_iff (s : FlowScheduler) :
    s.NoMisdelivery ↔ s.index.Sound FlowKey.reverse := by
  constructor
  · intro h k id hk
    obtain ⟨f, hf, hsame⟩ := h.entries k id hk
    exact ⟨f.flowKey, by simp only [index, hf, Option.map_some], hsame⟩
  · intro h
    have hentries : ∀ k id, s.flowLookup.lookup k = some id →
        ∃ f, s.getFlow id = some f ∧ Same FlowKey.reverse f.flowKey k := by
      intro k id hk
      obtain ⟨key, hown, hsame⟩ := h k id hk
      simp only [index, Option.map_eq_some_iff] at hown
      obtain ⟨f, hf, rfl⟩ := hown
      exact ⟨f, hf, hsame⟩
    refine ⟨hentries, fun k hdr payloadLen nowNs => ?_⟩
    rcases s.handleTcpRx_cases k hdr payloadLen nowNs with heq | ⟨id, f, conn, hid, hf, _, _, heq⟩
    · -- nothing changed, so any id will do
      exact ⟨0, fun _ _ => by rw [heq], fun hne => absurd (by rw [heq]) hne⟩
    · exact ⟨id, fun id' hne => by rw [heq, getFlow_setFlow_ne s _ hne],
        fun _ => hentries k id hid⟩

/-- The call strands no index entry: an accepted `add_flow` has no entries of its id under
    another 5-tuple, and `clear_all_flows` has an empty index. -/
def Retires (s : FlowScheduler) : Op → Prop
  | .addFlow config _ => config.Acceptable →
      ∀ k, s.flowLookup.lookup k = some config.flowId → Same FlowKey.reverse config.flowKey k
  | .clearAllFlows => ∀ k, s.flowLookup.lookup k = none
  | .removeFlow _ | .startFlow .. | .stopFlow _ => True

/-- A call keeps delivery by 5-tuple exactly when it strands no entry. -/
theorem noMisdelivery_step_iff (d : Dpdk) (s : FlowScheduler) (op : Op) (h : s.NoMisdelivery) :
    (s.step d op).NoMisdelivery ↔ s.Retires op := by
  rw [noMisdelivery_iff] at h ⊢
  cases op with
  | addFlow config nowNs =>
    by_cases hacc : config.Acceptable
    · rw [step, index_addFlow hacc, KeyedIndex.sound_put_iff h]
      simp only [Retires, hacc, true_imp_iff, index]
    · rw [step, index_addFlow_rejected hacc]
      simp only [Retires, hacc, false_imp_iff, iff_true]
      exact h
  | removeFlow id =>
    rw [step, index_removeFlow]
    simp only [Retires, iff_true]
    exact KeyedIndex.sound_drop h id
  | clearAllFlows =>
    rw [step, index_clearAllFlows, KeyedIndex.sound_clear_iff]
    simp only [Retires, index]
  | startFlow id nowNs bucketNowNs =>
    rw [step, index_startFlow]
    simp only [Retires, iff_true]
    exact h
  | stopFlow id =>
    rw [step, index_stopFlow]
    simp only [Retires, iff_true]
    exact h

theorem noMisdelivery_new (srcMac : List UInt8) : (new srcMac).NoMisdelivery := by
  rw [noMisdelivery_iff]
  intro k id hk
  simp only [index, new, AList.lookup_empty] at hk
  cases hk

/-- **Delivery by 5-tuple.** Throughout a history of calls segments are delivered by 5-tuple
    exactly when no call of it strands an index entry. -/
theorem noMisdelivery_iff_retires (d : Dpdk) (srcMac : List UInt8) (ops : List Op) :
    Run.Always (step d) NoMisdelivery (new srcMac) ops ↔
      Run.Each (step d) Retires (new srcMac) ops :=
  Run.always_iff_each (noMisdelivery_step_iff d) (noMisdelivery_new srcMac) ops

/-- Flow 1 is added, and added again with another source port. -/
def readdHistory : List Op :=
  [.addFlow (.sample 1 1000 false) 0, .addFlow (.sample 1 2000 false) 0]

/-- The entry of flow 1's old port still leads to flow 1. -/
theorem misdelivery_after_readd :
    ¬ Run.Always (step .reference) NoMisdelivery (new []) readdHistory := by
  intro h
  have hstale : (Run.run (step .reference) (new []) readdHistory).flowLookup.lookup
      (FlowSettings.sample 1 1000 false).flowKey = some 1 := by decide
  have hkey : ((Run.run (step .reference) (new []) readdHistory).getFlow 1).map (·.flowKey) =
      some (FlowSettings.sample 1 2000 false).flowKey := by decide
  -- delivery by 5-tuple would make the two ports the same
  obtain ⟨f, hf, hsame⟩ := (h _ List.prefix_rfl).entries _ _ hstale
  rw [hf, Option.map_some, Option.some.injEq] at hkey
  rw [hkey] at hsame
  exact absurd hsame (by decide)

/-! ## Reachability of flows -/

/-- Looking up `k` finds a configured flow of the 5-tuple `key`, in either direction. -/
def Resolves (s : FlowScheduler) (k key : FlowKey) : Prop :=
  ∃ id f, s.flowLookup.lookup k = some id ∧ s.getFlow id = some f ∧
    Same FlowKey.reverse key f.flowKey

/-- Every configured flow's 5-tuple is indexed in both directions, and leads to a configured flow
    of that 5-tuple. -/
def EveryFlowReachable (s : FlowScheduler) : Prop :=
  ∀ id f, s.getFlow id = some f →
    s.Resolves f.flowKey f.flowKey ∧ s.Resolves f.flowKey.reverse f.flowKey

theorem resolves_iff (s : FlowScheduler) (k key : FlowKey) :
    s.Resolves k key ↔ s.index.Finds FlowKey.reverse k key := by
  simp only [Resolves, KeyedIndex.Finds, index, Option.map_eq_some_iff]
  constructor
  · rintro ⟨id, f, hid, hf, hsame⟩
    exact ⟨id, f.flowKey, hid, ⟨f, hf, rfl⟩, hsame⟩
  · rintro ⟨id, _, hid, ⟨f, hf, rfl⟩, hsame⟩
    exact ⟨id, f, hid, hf, hsame⟩

/-- Reachability of the flows is completeness of the index. -/
theorem everyFlowReachable_iff (s : FlowScheduler) :
    s.EveryFlowReachable ↔ s.index.Complete FlowKey.reverse := by
  simp only [EveryFlowReachable, KeyedIndex.Complete, resolves_iff]
  constructor
  · intro h id key hown
    simp only [index, Option.map_eq_some_iff] at hown
    obtain ⟨f, hf, rfl⟩ := hown
    exact h id f hf
  · intro h id f hf
    exact h id f.flowKey (by simp only [index, hf, Option.map_some])

/-- The call takes no entry away that another flow needs: an accepted `add_flow` gives its id
    a 5-tuple under which every other flow indexed through that id still resolves, and
    `remove_flow` removes a flow no other flow shares the 5-tuple with. -/
def Spares (s : FlowScheduler) : Op → Prop
  | .addFlow config _ => config.Acceptable →
      ∀ id f, id ≠ config.flowId → s.getFlow id = some f →
        (s.flowLookup.lookup f.flowKey = some config.flowId ∨
          s.flowLookup.lookup f.flowKey.reverse = some config.flowId) →
        Same FlowKey.reverse config.flowKey f.flowKey
  | .removeFlow id => ∀ f id' f', s.getFlow id = some f → id' ≠ id → s.getFlow id' = some f' →
      ¬ Same FlowKey.reverse f.flowKey f'.flowKey
  | .clearAllFlows | .startFlow .. | .stopFlow _ => True

/-- A call keeps every flow reachable exactly when it spares the entries of the others. -/
theorem everyFlowReachable_step_iff (d : Dpdk) (s : FlowScheduler) (op : Op)
    (h : s.EveryFlowReachable) : (s.step d op).EveryFlowReachable ↔ s.Spares op := by
  rw [everyFlowReachable_iff] at h ⊢
  have hrev := FlowKey.reverse_involutive
  cases op with
  | addFlow config nowNs =>
    by_cases hacc : config.Acceptable
    · rw [step, index_addFlow hacc, KeyedIndex.complete_put_iff hrev h]
      simp only [Spares, hacc, true_imp_iff, index, Option.map_eq_some_iff]
      constructor
      · intro hput id f hne hf hentry
        exact hput id f.flowKey hne ⟨f, hf, rfl⟩ hentry
      · rintro hspares id _ hne ⟨f, hf, rfl⟩ hentry
        exact hspares id f hne hf hentry
    · rw [step, index_addFlow_rejected hacc]
      simp only [Spares, hacc, false_imp_iff, iff_true]
      exact h
  | removeFlow id =>
    rw [step, index_removeFlow, KeyedIndex.complete_drop_iff hrev h]
    simp only [Spares, index, Option.map_eq_some_iff]
    constructor
    · intro hdrop f id' f' hf hne hf'
      exact hdrop f.flowKey id' f'.flowKey ⟨f, hf, rfl⟩ hne ⟨f', hf', rfl⟩
    · rintro hspares _ id' _ ⟨f, hf, rfl⟩ hne ⟨f', hf', rfl⟩
      exact hspares f id' f' hf hne hf'
  | clearAllFlows =>
    rw [step, index_clearAllFlows]
    simp only [Spares, iff_true]
    exact KeyedIndex.complete_clear s.index
  | startFlow id nowNs bucketNowNs =>
    rw [step, index_startFlow]
    simp only [Spares, iff_true]
    exact h
  | stopFlow id =>
    rw [step, index_stopFlow]
    simp only [Spares, iff_true]
    exact h

theorem everyFlowReachable_new (srcMac : List UInt8) : (new srcMac).EveryFlowReachable := by
  intro id f hf
  simp only [getFlow, new, AList.lookup_empty] at hf
  cases hf

/-- **Reachability.** Throughout a history of calls every configured flow is reachable exactly
    when no call takes away an entry that another flow needs. -/
theorem everyFlowReachable_iff_spares (d : Dpdk) (srcMac : List UInt8) (ops : List Op) :
    Run.Always (step d) EveryFlowReachable (new srcMac) ops ↔
      Run.Each (step d) Spares (new srcMac) ops :=
  Run.always_iff_each (everyFlowReachable_step_iff d) (everyFlowReachable_new srcMac) ops

/-- Two flows share a 5-tuple, and the second is removed. -/
def sharedRemoveHistory : List Op :=
  [.addFlow (.sample 1 1000 false) 0, .addFlow (.sample 2 1000 false) 0, .removeFlow 2]

/-- The removal of flow 2 takes the entries of flow 1. -/
theorem unreachable_after_remove :
    ¬ Run.Always (step .reference) EveryFlowReachable (new []) sharedRemoveHistory := by
  intro h
  have hflow : ((Run.run (step .reference) (new []) sharedRemoveHistory).getFlow 1).map
      (·.flowKey) = some (FlowSettings.sample 1 1000 false).flowKey := by decide
  have hgone : (Run.run (step .reference) (new []) sharedRemoveHistory).flowLookup.lookup
      (FlowSettings.sample 1 1000 false).flowKey = none := by decide
  obtain ⟨f, hf, hkey⟩ := Option.map_eq_some_iff.mp hflow
  obtain ⟨⟨id, _, hid, _⟩, _⟩ := h _ List.prefix_rfl 1 f hf
  rw [hkey, hgone] at hid
  cases hid

end TrafficGen.FlowScheduler
