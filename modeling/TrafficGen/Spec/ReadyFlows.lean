import Mathlib.Data.List.Find
import TrafficGen.Spec.FlowTable
import TrafficGen.Spec.TokenBucketRate

/-!
# Tokens are taken for the flows returned

`get_ready_flows` walks the flow table once. It retires the expired flows it meets, asks each
other active flow's bucket for a token, and returns the flows that got one. Whether the list is
full is looked at after a flow has been added to it, so when no flow is asked for, the first
flow that has a token is returned all the same, and its token is gone.

## Key results

- `takes_iff`: a token is taken from a flow that may send and has one after its refill
- `takenExactly_iff`: tokens are taken exactly for the flows returned, and no more flows than
  asked for, unless none is asked for and the first flow that may send has a token
-/

namespace TrafficGen

namespace TokenBucket

/-- A bucket asked for one token gives it when there is one after the refill. -/
theorem tryConsume_one (b : TokenBucket) (nowNs : UInt64) :
    b.tryConsume 1 nowNs =
      if (b.updateTokens nowNs).tokens = 0 then (0, b.updateTokens nowNs)
      else (1, { b.updateTokens nowNs with tokens := (b.updateTokens nowNs).tokens - 1 }) := by
  rw [tryConsume]
  dsimp only
  split
  · rfl
  · next hne =>
    have hone : (1 : UInt64) ≤ (b.updateTokens nowNs).tokens := by
      rw [UInt64.le_iff_toNat_le]
      have : (b.updateTokens nowNs).tokens.toNat ≠ 0 := fun h => hne (UInt64.toNat_inj.mp h)
      simp
      omega
    have hmin : min (1 : UInt32).toUInt64 (b.updateTokens nowNs).tokens = 1 := by
      rw [← UInt64.toNat_inj, UInt64.toNat_min, UInt32.toNat_toUInt64]
      rw [UInt64.le_iff_toNat_le] at hone
      exact Nat.min_eq_left hone
    rw [hmin]
    rfl

/-- One token has been taken from the bucket, after a refill at `nowNs`. -/
def Charged (b : TokenBucket) (nowNs : UInt64) (b' : TokenBucket) : Prop :=
  (b.updateTokens nowNs).tokens ≠ 0 ∧
    b' = { b.updateTokens nowNs with tokens := (b.updateTokens nowNs).tokens - 1 }

end TokenBucket

namespace FlowConfigInternal

variable (f : FlowConfigInternal) (nowNs bucketNowNs : UInt64)

/-- A visit of a flow that may send: a token is taken when there is one after the refill, and
    else the bucket is only refilled. -/
theorem visit_due (hactive : f.active = true) (hexpired : f.isExpired nowNs = false) :
    f.visit nowNs bucketNowNs =
      if (f.tokenBucket.updateTokens bucketNowNs).tokens = 0 then
        (false, { f with tokenBucket := f.tokenBucket.updateTokens bucketNowNs })
      else (true, { f with tokenBucket := { f.tokenBucket.updateTokens bucketNowNs with
        tokens := (f.tokenBucket.updateTokens bucketNowNs).tokens - 1 } }) := by
  rw [f.visit_of_due hactive hexpired, TokenBucket.tryConsume_one]
  split <;> rfl

/-- A visit that takes a token takes one. -/
theorem charged_visit (h : (f.visit nowNs bucketNowNs).1 = true) :
    f.tokenBucket.Charged bucketNowNs (f.visit nowNs bucketNowNs).2.tokenBucket := by
  obtain ⟨hactive, hexpired⟩ := f.visit_taken h
  rw [f.visit_due nowNs bucketNowNs hactive hexpired] at h ⊢
  split at h
  · cases h
  · next htoken =>
    rw [if_neg htoken]
    exact ⟨htoken, rfl⟩

/-- One that takes none refills the bucket at most. -/
theorem spared_visit (h : (f.visit nowNs bucketNowNs).1 = false) :
    (f.visit nowNs bucketNowNs).2.tokenBucket = f.tokenBucket ∨
      (f.visit nowNs bucketNowNs).2.tokenBucket = f.tokenBucket.updateTokens bucketNowNs := by
  by_cases hdue : f.active = true ∧ f.isExpired nowNs = false
  · rw [f.visit_due nowNs bucketNowNs hdue.1 hdue.2] at h ⊢
    split at h
    · next hempty =>
      rw [if_pos hempty]
      exact .inr rfl
    · cases h
  · rw [f.visit_of_not_due hdue]
    exact .inl rfl

/-- A visit deactivates expired flows only. -/
theorem retired_visit : (f.visit nowNs bucketNowNs).2.active = f.active ∨
    f.isExpired nowNs = true ∧ (f.visit nowNs bucketNowNs).2.active = false := by
  by_cases hdue : f.active = true ∧ f.isExpired nowNs = false
  · rw [f.visit_of_due hdue.1 hdue.2]
    exact .inl rfl
  · rw [f.visit_of_not_due hdue]
    cases hactive : f.active with
    | false => exact .inl rfl
    | true => exact .inr ⟨by simpa [hactive] using hdue, rfl⟩

end FlowConfigInternal

namespace FlowScheduler

variable {s : FlowScheduler} {nowNs : UInt64} {bucketNowNs : UInt32 → UInt64}

/-- The flow has no token left after a refill. -/
def Dry (s : FlowScheduler) (bucketNowNs : UInt32 → UInt64) (id : UInt32) : Prop :=
  ∀ f, s.getFlow id = some f → (f.tokenBucket.updateTokens (bucketNowNs id)).tokens = 0

theorem dry_iff {id : UInt32} {f : FlowConfigInternal} (hf : s.getFlow id = some f) :
    s.Dry bucketNowNs id ↔ (f.tokenBucket.updateTokens (bucketNowNs id)).tokens = 0 := by
  constructor
  · intro h
    exact h f hf
  · intro h f' hf'
    rw [hf, Option.some.injEq] at hf'
    rw [← hf', h]

theorem takes_iff {id : UInt32} :
    s.takes nowNs bucketNowNs id = true ↔ s.Due nowNs id ∧ ¬ s.Dry bucketNowNs id := by
  constructor
  · intro h
    refine ⟨.of_takes h, fun hdry => ?_⟩
    obtain ⟨f, hf, htaken⟩ := (Option.any_eq_true _ _).mp h
    obtain ⟨hactive, hexpired⟩ := f.visit_taken htaken
    rw [f.visit_due nowNs _ hactive hexpired, if_pos ((dry_iff hf).mp hdry)] at htaken
    cases htaken
  · rintro ⟨⟨f, hf, hactive, hexpired⟩, hdry⟩
    rw [dry_iff hf] at hdry
    rw [takes, hf, Option.any_some, f.visit_due nowNs _ hactive hexpired, if_neg hdry]

/-! ## Asked for every flow there is -/

theorem length_walk (order : List UInt32) {ids : List UInt32} (h : ids.Nodup) :
    (walk order ids).length = ids.length := by
  apply List.Perm.length_eq
  rw [List.perm_ext_iff_of_nodup (nodup_walk order h) h]
  exact fun id => mem_walk

/-- A call that asks for as many flows as there are visits them all. -/
theorem getReadyFlows_all {maxFlows : UInt32} (order : List UInt32)
    (hroom : s.flows.keys.length ≤ maxFlows.toNat) (id : UInt32) :
    (id ∈ (s.getReadyFlows maxFlows order nowNs bucketNowNs).1 ↔
        s.takes nowNs bucketNowNs id = true) ∧
      (s.getReadyFlows maxFlows order nowNs bucketNowNs).2.getFlow id =
        (s.getFlow id).map fun f => (f.visit nowNs (bucketNowNs id)).2 := by
  obtain ⟨visited, hstart, hready, hflows, hend⟩ :=
    s.getReadyFlows_visits maxFlows order nowNs bucketNowNs
  have hall : visited = walk order s.flows.keys := by
    refine hend.elim (fun h => h) fun hfull => hstart.eq_of_length_le ?_
    -- a list that is full has every flow in it
    rw [length_walk order s.flows.keys_nodup]
    calc s.flows.keys.length ≤ maxFlows.toNat := hroom
      _ ≤ _ := hfull
      _ ≤ visited.length := by
        rw [hready]
        exact List.length_filter_le _ _
  have hvisited : (s.getFlow id).isSome = true ↔ id ∈ visited := by
    rw [hall, mem_walk, ← AList.mem_keys, ← AList.lookup_isSome]
    exact Iff.rfl
  constructor
  · rw [hready, List.mem_filter, ← hvisited, and_iff_right_iff_imp]
    intro htakes
    obtain ⟨f, hf, -⟩ := (Option.any_eq_true _ _).mp htakes
    rw [hf]
    rfl
  · rw [hflows]
    split
    · rfl
    · next hnot =>
      rw [← hvisited, Bool.not_eq_true, Option.isSome_eq_false_iff, Option.isNone_iff_eq_none]
        at hnot
      rw [hnot, Option.map_none]

/-! ## What a call returns and takes -/

/-- A call of `get_ready_flows` returns no more flows than asked for, each once and each of them
    due. One token has been taken from the bucket of each flow returned, and none from another's.
    A flow is deactivated only when it has expired, and nothing else about it changes. -/
structure TakenExactly (s : FlowScheduler) (maxFlows : UInt32) (nowNs : UInt64)
    (bucketNowNs : UInt32 → UInt64) (out : List UInt32 × FlowScheduler) : Prop where
  bounded : out.1.length ≤ maxFlows.toNat
  distinct : out.1.Nodup
  due : ∀ id ∈ out.1, s.Due nowNs id
  charged : ∀ id ∈ out.1, ∀ f f', s.getFlow id = some f → out.2.getFlow id = some f' →
    f.tokenBucket.Charged (bucketNowNs id) f'.tokenBucket
  spared : ∀ id ∉ out.1, ∀ f f', s.getFlow id = some f → out.2.getFlow id = some f' →
    f'.tokenBucket = f.tokenBucket ∨
      f'.tokenBucket = f.tokenBucket.updateTokens (bucketNowNs id)
  retired : ∀ id f f', s.getFlow id = some f → out.2.getFlow id = some f' →
    f'.active = f.active ∨ f.isExpired nowNs = true ∧ f'.active = false
  unchanged : ∀ id, (out.2.getFlow id).map (·.unscheduled) = (s.getFlow id).map (·.unscheduled)

/-- All of it holds for every number of flows asked for, but the bound. -/
theorem takenExactly_of_bounded (maxFlows : UInt32) (order : List UInt32)
    (hbounded : (s.getReadyFlows maxFlows order nowNs bucketNowNs).1.length ≤ maxFlows.toNat) :
    TakenExactly s maxFlows nowNs bucketNowNs
      (s.getReadyFlows maxFlows order nowNs bucketNowNs) := by
  obtain ⟨visited, hstart, hready, hflows, -⟩ :=
    s.getReadyFlows_visits maxFlows order nowNs bucketNowNs
  have hvisited : visited.Nodup :=
    (nodup_walk order s.flows.keys_nodup).sublist hstart.sublist
  -- a flow after the call, by whether the walk came to it
  have hafter : ∀ id f f', s.getFlow id = some f →
      (s.getReadyFlows maxFlows order nowNs bucketNowNs).2.getFlow id = some f' →
      f' = if id ∈ visited then (f.visit nowNs (bucketNowNs id)).2 else f := by
    intro id f f' hf hf'
    rw [hflows, hf, Option.map_some] at hf'
    split at hf'
    · next hmem => rw [if_pos hmem, Option.some.inj hf']
    · next hmem => rw [if_neg hmem, Option.some.inj hf']
  have htakes : ∀ id f, s.getFlow id = some f →
      s.takes nowNs bucketNowNs id = (f.visit nowNs (bucketNowNs id)).1 := by
    intro id f hf
    rw [takes, hf, Option.any_some]
  refine
    { bounded := hbounded
      distinct := hready ▸ hvisited.filter _
      due := (s.due_getReadyFlows maxFlows order nowNs bucketNowNs).2
      charged := fun id hid f f' hf hf' => ?_
      spared := fun id hid f f' hf hf' => ?_
      retired := fun id f f' hf hf' => ?_
      unchanged := s.getFlow_getReadyFlows maxFlows order nowNs bucketNowNs }
  · rw [hready, List.mem_filter, htakes id f hf] at hid
    rw [hafter id f f' hf hf', if_pos hid.1]
    exact f.charged_visit nowNs (bucketNowNs id) hid.2
  · rw [hready, List.mem_filter, not_and, htakes id f hf, Bool.not_eq_true] at hid
    rw [hafter id f f' hf hf']
    split
    · next hmem => exact f.spared_visit nowNs (bucketNowNs id) (hid hmem)
    · exact .inl rfl
  · rw [hafter id f f' hf hf']
    split
    · exact f.retired_visit nowNs (bucketNowNs id)
    · exact .inl rfl

/-- The first flow of the walk that may send is dry, if there is such a flow. -/
def FirstDueDry (s : FlowScheduler) (order : List UInt32) (nowNs : UInt64)
    (bucketNowNs : UInt32 → UInt64) : Prop :=
  ∀ id, (walk order s.flows.keys).find? (s.isDue nowNs) = some id → s.Dry bucketNowNs id

/-- Asked for no flow, the walk ends at the first flow that may send. -/
theorem getReadyFlowsLoop_zero {ids : List UInt32} (hnodup : ids.Nodup) (s : FlowScheduler) :
    (getReadyFlowsLoop 0 nowNs bucketNowNs ids s []).1 = [] ↔
      ∀ id, ids.find? (s.isDue nowNs) = some id → s.Dry bucketNowNs id := by
  induction ids generalizing s with
  | nil => simp [getReadyFlowsLoop]
  | cons id ids ih =>
    obtain ⟨hid, hnodup⟩ := List.nodup_cons.mp hnodup
    obtain ⟨s', ready', hget, hready, heq⟩ :=
      getReadyFlowsLoop_cons 0 nowNs bucketNowNs id ids s []
    rw [heq]
    cases hdue : s.isDue nowNs id with
    | true =>
      have htakes : s.takes nowNs bucketNowNs id = true ↔ ¬ s.Dry bucketNowNs id := by
        rw [takes_iff, ← isDue_iff, hdue]
        simp
      simp only [true_and, UInt32.toNat_zero, Nat.zero_le, if_true, List.find?_cons, hdue,
        Option.some.injEq, forall_eq']
      rw [hready]
      split
      · next h => simp [htakes.mp h]
      · next h => simpa using not_not.mp (fun hdry => h (htakes.mpr hdry))
    | false =>
      have htakes : ¬ s.takes nowNs bucketNowNs id = true := by
        rw [takes_iff, ← isDue_iff, hdue]
        simp
      rw [if_neg htakes] at hready
      -- the rest of the walk does not come back to this flow
      have hother : ∀ id' ∈ ids, s'.getFlow id' = s.getFlow id' := fun id' hmem => by
        rw [hget, if_neg (ne_of_mem_of_not_mem hmem hid)]
      have hfind : ids.find? (s'.isDue nowNs) = ids.find? (s.isDue nowNs) := by
        refine List.find?_congr fun id' hmem => ?_
        rw [isDue, isDue, hother id' hmem]
      simp only [Bool.false_eq_true, false_and, if_false, List.find?_cons, hdue]
      rw [hready, ih hnodup, hfind]
      refine forall_congr' fun id' => ?_
      refine imp_congr_right fun hfound => ?_
      simp only [Dry, hother id' (List.mem_of_find?_eq_some hfound)]

/-- **Tokens and flows returned.** For every state of the table, every time and every walk, a call
    takes tokens exactly for the flows it returns, and returns no more than asked for, if and only
    if some flow is asked for, or the first flow that may send has no token after its refill. -/
theorem takenExactly_iff (s : FlowScheduler) (maxFlows : UInt32) (order : List UInt32)
    (nowNs : UInt64) (bucketNowNs : UInt32 → UInt64) :
    TakenExactly s maxFlows nowNs bucketNowNs
        (s.getReadyFlows maxFlows order nowNs bucketNowNs) ↔
      maxFlows ≠ 0 ∨ s.FirstDueDry order nowNs bucketNowNs := by
  have hzero : (s.getReadyFlows 0 order nowNs bucketNowNs).1 = [] ↔
      s.FirstDueDry order nowNs bucketNowNs :=
    getReadyFlowsLoop_zero (nodup_walk order s.flows.keys_nodup) s
  constructor
  · intro h
    by_cases hmax : maxFlows = 0
    · subst hmax
      exact .inr (hzero.mp (List.length_eq_zero_iff.mp (Nat.le_zero.mp h.bounded)))
    · exact .inl hmax
  · intro h
    apply takenExactly_of_bounded
    by_cases hmax : maxFlows = 0
    · subst hmax
      rw [hzero.mpr (h.resolve_left (by simp))]
      exact Nat.zero_le _
    · exact s.length_getReadyFlows_le hmax order nowNs bucketNowNs

/-- A flow with a full bucket, just started. -/
def startedSample : FlowScheduler :=
  Run.run (step .reference) (new []) [.addFlow (.sample 1 1000 true) 0, .startFlow 1 1 1]

/-- Asked for no flow, a call returns one and takes its token. -/
theorem not_takenExactly_zero :
    (startedSample.getReadyFlows 0 [] 2 fun _ => 2).1 = [1] ∧
      ¬ TakenExactly startedSample 0 2 (fun _ => 2)
        (startedSample.getReadyFlows 0 [] 2 fun _ => 2) := by
  have hready : (startedSample.getReadyFlows 0 [] 2 fun _ => 2).1 = [1] := by decide
  refine ⟨hready, fun h => ?_⟩
  have hbounded := h.bounded
  rw [hready] at hbounded
  exact absurd hbounded (by decide)

end FlowScheduler

end TrafficGen
