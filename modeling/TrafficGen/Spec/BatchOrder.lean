import TrafficGen.Spec.FlowRequests

/-!
# The order of a batch

`ConfigureFlows` adds the flows of a batch one after the other, and goes on when one is refused.
Each addition writes the table under one id and the index under one 5-tuple and its reverse. So
when the ids of a batch differ and its 5-tuples do not meet, every entry is written at most once,
and the order in which it happens makes no difference, but for the time at which each bucket was
created.

## Key results

- `getFlow_batch`, `lookup_batch`: table and index after a batch, as if the clock stood still
- `configureFlows_perm`: a permutation of a batch leaves the same tables and the same answer
-/

namespace TrafficGen

/-- A flow without the time at which its bucket was last brought up to date. -/
def FlowConfigInternal.unstamped (f : FlowConfigInternal) : FlowConfigInternal :=
  { f with tokenBucket := { f.tokenBucket with lastUpdateNs := 0 } }

namespace FlowScheduler

variable {d : Dpdk}

/-- The clock is no part of a new flow but for that time. -/
theorem unstamped_newFlow (srcMac : List UInt8) (config : FlowSettings) (nowNs nowNs' : UInt64) :
    (newFlow d srcMac config nowNs).map (·.unstamped) =
      (newFlow d srcMac config nowNs').map (·.unstamped) := by
  simp only [newFlow]
  split <;> rfl

/-- Two tables with the same flows, times of creation aside, and the same index. A flow that was
    not `added` is the same in both. -/
structure SameTables (added : UInt32 → Prop) (s s' : FlowScheduler) : Prop where
  flows : ∀ id, (s.getFlow id).map (·.unstamped) = (s'.getFlow id).map (·.unstamped)
  kept : ∀ id, ¬ added id → s.getFlow id = s'.getFlow id
  lookup : ∀ key, s.flowLookup.lookup key = s'.flowLookup.lookup key

end FlowScheduler

namespace Server

open FlowScheduler
open KeyedIndex (Same)

variable {inetAton : String → Option UInt32} {d : Dpdk}

/-- What does not look at the clock of an addition is read off the flows of the request. -/
theorem filterMap_additions {β : Type*} {g : Addition → Option β} (hg : ∀ a, g a = g (a.1, 0))
    (request : FlowConfig) (nowNs : Nat → UInt64) :
    (additions inetAton request nowNs).filterMap g =
      request.flows.filterMap fun flow =>
        g (internalConfig inetAton request.stateless flow, 0) := by
  calc (additions inetAton request nowNs).filterMap g
      = request.flows.zipIdx.filterMap fun x =>
          g (internalConfig inetAton request.stateless x.1, nowNs x.2) := List.filterMap_map
    _ = request.flows.zipIdx.filterMap
          ((fun flow => g (internalConfig inetAton request.stateless flow, 0)) ∘ Prod.fst) :=
        List.filterMap_congr fun x _ => hg _
    _ = _ := by rw [← List.filterMap_map, List.zipIdx_map_fst]

/-- What a flow of a batch leaves under `id`, times aside. -/
def stored (inetAton : String → Option UInt32) (d : Dpdk) (srcMac : List UInt8) (stateless : Bool)
    (id : UInt32) (flow : Flow) : Option FlowConfigInternal :=
  (storedUnder d srcMac id (internalConfig inetAton stateless flow, 0)).map (·.unstamped)

/-- What a flow of a batch leaves in the index under `key`. -/
def indexed (inetAton : String → Option UInt32) (d : Dpdk) (srcMac : List UInt8)
    (stateless : Bool) (key : FlowKey) (flow : Flow) : Option UInt32 :=
  indexedUnder d srcMac key (internalConfig inetAton stateless flow, 0)

theorem getFlow_batch (s : FlowScheduler) (request : FlowConfig) (nowNs : Nat → UInt64)
    (id : UInt32) :
    ((s.addAll d (additions inetAton request nowNs)).getFlow id).map (·.unstamped) =
      (request.flows.filterMap
        (stored inetAton d s.srcMac request.stateless id)).getLast?.or
          ((s.getFlow id).map (·.unstamped)) := by
  have hclock : ∀ a : Addition, (storedUnder d s.srcMac id a).map (·.unstamped) =
      (storedUnder d s.srcMac id (a.1, 0)).map (·.unstamped) := by
    intro a
    simp only [storedUnder]
    split
    · exact unstamped_newFlow s.srcMac a.1 a.2 0
    · rfl
  rw [getFlow_addAll, Option.map_or, ← List.getLast?_map, List.map_filterMap,
    filterMap_additions hclock]
  rfl

theorem stored_of_ne {srcMac : List UInt8} {stateless : Bool} {id : UInt32} {flow : Flow}
    (h : flow.flowId ≠ id) : stored inetAton d srcMac stateless id flow = none :=
  congrArg (Option.map _) (if_neg h)

theorem lookup_batch (s : FlowScheduler) (request : FlowConfig) (nowNs : Nat → UInt64)
    (key : FlowKey) :
    (s.addAll d (additions inetAton request nowNs)).flowLookup.lookup key =
      (request.flows.filterMap
        (indexed inetAton d s.srcMac request.stateless key)).getLast?.or
          (s.flowLookup.lookup key) := by
  have hclock : ∀ a : Addition, indexedUnder d s.srcMac key a =
      indexedUnder d s.srcMac key (a.1, 0) := by
    intro a
    simp only [indexedUnder]
    split
    · -- whether the flow is accepted does not depend on the clock
      have hsame := congrArg (Option.map fun _ => a.1.flowId)
        (unstamped_newFlow (d := d) s.srcMac a.1 a.2 0)
      rw [Option.map_map, Option.map_map] at hsame
      exact hsame
    · rfl
  rw [lookup_addAll, filterMap_additions hclock]
  rfl

/-- No two flows of the batch have the same id, and none meets another's 5-tuple or its reverse. -/
structure Separate (inetAton : String → Option UInt32) (flows : List Flow) : Prop where
  ids : flows.Pairwise fun a b => a.flowId ≠ b.flowId
  keys : flows.Pairwise fun a b => ∀ key,
    ¬ (Same FlowKey.reverse (convertProtoFlowKey inetAton a) key ∧
      Same FlowKey.reverse (convertProtoFlowKey inetAton b) key)

/-- An id is written by one flow of the batch at most. -/
theorem Separate.stored {flows : List Flow} (h : Separate inetAton flows) (srcMac : List UInt8)
    (stateless : Bool) (id : UInt32) :
    flows.Pairwise fun a b => Server.stored inetAton d srcMac stateless id a = none ∨
      Server.stored inetAton d srcMac stateless id b = none := by
  refine h.ids.imp fun {a b} hne => ?_
  -- only one of two different ids can be this one
  by_cases ha : a.flowId = id
  · have hb : b.flowId ≠ id := fun hb => hne (ha.trans hb.symm)
    exact .inr (stored_of_ne hb)
  · exact .inl (stored_of_ne ha)

/-- A 5-tuple is indexed by one flow of the batch at most. -/
theorem Separate.indexed {flows : List Flow} (h : Separate inetAton flows) (srcMac : List UInt8)
    (stateless : Bool) (key : FlowKey) :
    flows.Pairwise fun a b => Server.indexed inetAton d srcMac stateless key a = none ∨
      Server.indexed inetAton d srcMac stateless key b = none := by
  refine h.keys.imp fun {a b} hapart => ?_
  by_cases ha : Same FlowKey.reverse (convertProtoFlowKey inetAton a) key
  · have hb : ¬ Same FlowKey.reverse (convertProtoFlowKey inetAton b) key :=
      fun hb => hapart key ⟨ha, hb⟩
    exact .inr (if_neg hb)
  · exact .inl (if_neg ha)

/-- The batch has an acceptable flow of that id. -/
def Adds (inetAton : String → Option UInt32) (request : FlowConfig) (id : UInt32) : Prop :=
  ∃ flow ∈ request.flows, flow.flowId = id ∧
    (internalConfig inetAton request.stateless flow).Acceptable

/-- A flow that no acceptable flow of the batch replaces is still what it was. -/
theorem getFlow_of_not_adds (s : FlowScheduler) {request : FlowConfig} (nowNs : Nat → UInt64)
    {id : UInt32} (h : ¬ Adds inetAton request id) :
    (s.addAll d (additions inetAton request nowNs)).getFlow id = s.getFlow id := by
  have hnone : (additions inetAton request nowNs).filterMap (storedUnder d s.srcMac id) = [] := by
    rw [List.filterMap_eq_nil_iff]
    intro a ha
    obtain ⟨flow, hflow, hsettings⟩ := exists_of_mem_additions ha
    rw [storedUnder]
    split
    · next hid =>
      rw [← Option.not_isSome_iff_eq_none, newFlow_isSome_iff]
      rw [hsettings] at hid ⊢
      exact fun hacc => h ⟨flow, hflow, hid, hacc⟩
    · rfl
  rw [getFlow_addAll, hnone]
  rfl

/-- **Batches in any order.** For every generator and every batch of flows whose ids differ and
    whose 5-tuples, with their reverses, do not meet, every permutation of the batch is answered
    alike and leaves the same flow table, times of creation aside, and the same index. -/
theorem configureFlows_perm (inetAton : String → Option UInt32) (d : Dpdk) (sys : System)
    (stateless : Bool) {flows flows' : List Flow} (hperm : flows.Perm flows')
    (hsep : Separate inetAton flows) (nowNs nowNs' : Nat → UInt64) :
    (configureFlows inetAton d sys ⟨flows, stateless⟩ nowNs).1.success =
        (configureFlows inetAton d sys ⟨flows', stateless⟩ nowNs').1.success ∧
      SameTables (Adds inetAton ⟨flows, stateless⟩)
        (configureFlows inetAton d sys ⟨flows, stateless⟩ nowNs).2.scheduler
        (configureFlows inetAton d sys ⟨flows', stateless⟩ nowNs').2.scheduler := by
  obtain ⟨hafter, hsuccess, -⟩ := configureFlows_spec inetAton d sys ⟨flows, stateless⟩ nowNs
  obtain ⟨hafter', hsuccess', -⟩ := configureFlows_spec inetAton d sys ⟨flows', stateless⟩ nowNs'
  have hadds : ∀ id, Adds inetAton ⟨flows', stateless⟩ id → Adds inetAton ⟨flows, stateless⟩ id :=
    fun id ⟨flow, hflow, hacc⟩ => ⟨flow, hperm.mem_iff.mpr hflow, hacc⟩
  constructor
  · rw [Bool.eq_iff_iff, hsuccess, hsuccess']
    exact forall_congr' fun flow => imp_congr_left hperm.mem_iff
  · -- each entry is written once at most, so the last writing is the same in both orders
    rw [hafter, hafter']
    refine ⟨fun id => ?_, fun id hid => ?_, fun key => ?_⟩
    · rw [getFlow_batch, getFlow_batch]
      exact congrArg (Option.or · _)
        (Run.getLast?_filterMap_perm hperm (hsep.stored sys.scheduler.srcMac stateless id))
    · rw [getFlow_of_not_adds _ _ hid, getFlow_of_not_adds _ _ fun h => hid (hadds id h)]
    · rw [lookup_batch, lookup_batch]
      exact congrArg (Option.or · _)
        (Run.getLast?_filterMap_perm hperm (hsep.indexed sys.scheduler.srcMac stateless key))

/-- Two flows of different ids and ports, and between them one of a protocol that is refused. -/
def mixedBatch : List Flow :=
  [.sample 1 1000, { Flow.sample 2 2000 with protocol := "sctp" }, .sample 3 3000]

/-- Given backwards, the batch is refused in part all the same. -/
theorem configureFlows_perm_mixed :
    SameTables (Adds sampleAton ⟨mixedBatch, true⟩)
      (configureFlows sampleAton .reference System.fresh ⟨mixedBatch, true⟩
        fun _ => 5).2.scheduler
      (configureFlows sampleAton .reference System.fresh ⟨mixedBatch.reverse, true⟩
        fun _ => 7).2.scheduler := by
  refine (configureFlows_perm sampleAton .reference System.fresh true
    (List.reverse_perm mixedBatch).symm ⟨by decide, ?_⟩ (fun _ => 5) fun _ => 7).2
  have hports : mixedBatch.Pairwise fun a b => ¬ Same FlowKey.reverse
      (convertProtoFlowKey sampleAton a) (convertProtoFlowKey sampleAton b) := by decide
  exact hports.imp fun h key => KeyedIndex.apart_of_not_same FlowKey.reverse_involutive h key

end Server

end TrafficGen
