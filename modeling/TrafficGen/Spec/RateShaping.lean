import Mathlib.Algebra.BigOperators.Ring.Finset
import Mathlib.Algebra.Order.BigOperators.Group.Finset
import Mathlib.Data.Finset.Dedup
import TrafficGen.Spec.FlowCoherence

/-!
# The rate of the packets sent

A flow is to send `pps` packets a second, and its bucket is what holds it to that. The tokens of the
bucket are taken by the passes of all workers, and given back by every `StartTraffic`, which fills
the bucket again. So the packets built for a flow in a stretch of time are bounded by a burst for
each start and one more, and what the rate earns in that time. All flows together stay below half
the sum of these bounds: a pass builds a packet only when one call to the pool has succeeded and the
next one has failed, and both calls are made for flows that have paid a token.

## Key results

- `TokenBucket.granted_lt`: what a bucket grants over any calls that ask for tokens or reset it
- `bucket_run`: the calls a run makes on the bucket of a flow
- `built_lt`: the packets built for a flow
- `two_mul_built_le`: the packets built for all flows
-/

namespace TrafficGen

variable {r : Rng}

/-! ## A bucket that is reset -/

namespace TokenBucket

/-- The tokens a call grants. -/
def grants (b : TokenBucket) : Op → Nat
  | .tryConsume requested nowNs => (b.tryConsume requested nowNs).1.toNat
  | .setRate _ | .setBurstSize _ | .reset _ => 0

/-- The tokens a list of calls grants. -/
def granted (b : TokenBucket) : List Op → Nat
  | [] => 0
  | op :: ops => b.grants op + (b.step op).granted ops

/-- The clock read of a call. -/
def Op.time : Op → Option UInt64
  | .tryConsume _ nowNs | .reset nowNs => some nowNs
  | .setRate _ | .setBurstSize _ => none

/-- The call fills the bucket. -/
def Op.fills : Op → Bool
  | .reset _ => true
  | _ => false

/-- The calls ask for tokens or reset the bucket, at times between `t₁` and `t₂` that do not run
    backwards. -/
structure Within (t₁ t₂ : UInt64) (ops : List Op) : Prop where
  timed : ∀ op ∈ ops, ∃ t, op.time = some t ∧ t₁ ≤ t ∧ t ≤ t₂
  forwards : (ops.filterMap Op.time).Pairwise (· ≤ ·)

theorem Within.sublist {t₁ t₂ : UInt64} {ops ops' : List Op} (h : Within t₁ t₂ ops)
    (hops : ops'.Sublist ops) : Within t₁ t₂ ops' where
  timed op hop := h.timed op (hops.subset hop)
  forwards := h.forwards.sublist (hops.filterMap Op.time)

theorem granted_append (b : TokenBucket) (ops ops' : List Op) :
    b.granted (ops ++ ops') = b.granted ops + (Run.run step b ops).granted ops' := by
  induction ops generalizing b with
  | nil => exact (Nat.zero_add _).symm
  | cons op ops ih => rw [List.cons_append, granted, granted, ih, Run.run_cons, Nat.add_assoc]

/-- After a reset as many tokens may be granted again as the bucket holds. -/
theorem funded_reset {b : TokenBucket} {nowNs : UInt64} {t₁ cur granted : Nat}
    (ht₁ : t₁ ≤ nowNs.toNat) (hcur : cur ≤ nowNs.toNat) (h : Funded t₁ cur granted b) :
    Funded t₁ nowNs.toNat (granted - b.burstSize.toNat) (b.reset nowNs) := by
  rcases h with rfl | h
  · exact .inl (Nat.zero_sub _)
  · by_cases hburst : granted ≤ b.burstSize.toNat
    · exact .inl (Nat.sub_eq_zero_of_le hburst)
    · right
      intro now hnow
      have hline := h nowNs.toNat hcur
      have hlater := refill_after_update (b.reset nowNs) now (s := nowNs.toNat) (Nat.le_refl _)
      have hsplit : b.ratePps.toNat * (now - t₁) =
          b.ratePps.toNat * (nowNs.toNat - t₁) + b.ratePps.toNat * (now - nowNs.toNat) := by
        rw [← Nat.mul_add]
        congr 1
        omega
      have hheld : granted - b.burstSize.toNat + (b.reset nowNs).tokens.toNat = granted := by
        show granted - b.burstSize.toNat + b.burstSize.toNat = granted
        omega
      rw [hheld]
      show nsPerSec * (granted + (b.reset nowNs).refill now) <
        nsPerSec * (b.burstSize.toNat + 1) + b.ratePps.toNat * (now - t₁)
      rw [show (b.reset nowNs).ratePps = b.ratePps from rfl] at hlater
      simp only [Nat.mul_add] at hline ⊢
      omega

/-- What is granted from a state of the window on. -/
private theorem granted_bound {t₁ t₂ : UInt64} (ops : List Op) (b : TokenBucket)
    (cur granted : Nat) (htok : b.tokens.toNat ≤ b.burstSize.toNat) (hcur : cur ≤ t₂.toNat)
    (hops : Within t₁ t₂ ops) (hlater : ∀ t ∈ ops.filterMap Op.time, cur ≤ t.toNat)
    (h : Funded t₁.toNat cur granted b) :
    nsPerSec * (granted + b.granted ops) <
      nsPerSec * ((ops.countP (·.fills) + 1) * b.burstSize.toNat + 1) +
        b.ratePps.toNat * (t₂.toNat - t₁.toNat) := by
  -- induction on the calls; `Funded` carries what was granted before them
  induction ops generalizing b cur granted with
  | nil =>
    have hns : 0 < nsPerSec := by decide
    rcases h with rfl | h
    · simp only [TokenBucket.granted, Nat.mul_add]
      omega
    · have := h t₂.toNat hcur
      simp only [TokenBucket.granted, List.countP_nil, Nat.zero_add, Nat.one_mul,
        Nat.mul_add] at *
      omega
  | cons op ops ih =>
    obtain ⟨t, htime, ht₁, ht₂⟩ := hops.timed op List.mem_cons_self
    rw [UInt64.le_iff_toNat_le] at ht₁ ht₂
    have hforwards := hops.forwards
    rw [List.filterMap_cons_some htime, List.pairwise_cons] at hforwards
    have hnow : cur ≤ t.toNat :=
      hlater t (by rw [List.filterMap_cons_some htime]; exact List.mem_cons_self)
    have hrest := hops.sublist (List.sublist_cons_self op ops)
    have hnext : ∀ t' ∈ ops.filterMap Op.time, t.toNat ≤ t'.toNat := fun t' ht' =>
      UInt64.le_iff_toNat_le.mp (hforwards.1 t' ht')
    cases op with
    | tryConsume requested nowNs =>
      cases htime
      obtain ⟨hrate, hburst, -, hsum⟩ := tryConsume_spec b requested t
      have htok' := updateTokens_tokens_le b t htok
      have hbound := ih (b.tryConsume requested t).2 t.toNat
        (granted + (b.tryConsume requested t).1.toNat) (by rw [hburst]; omega) ht₂ hrest hnext
        (funded_tryConsume b requested t htok ht₁ hnow h)
      rw [hrate, hburst] at hbound
      rw [TokenBucket.granted, ← Nat.add_assoc, List.countP_cons_of_neg Bool.false_ne_true]
      exact hbound
    | reset nowNs =>
      cases htime
      have hbound := ih (b.reset t) t.toNat (granted - b.burstSize.toNat) (Nat.le_refl _) ht₂
        hrest hnext (funded_reset ht₁ hnow h)
      have hmono : nsPerSec * granted ≤
          nsPerSec * (granted - b.burstSize.toNat) + nsPerSec * b.burstSize.toNat := by
        rw [← Nat.mul_add]
        exact Nat.mul_le_mul_left _ (by omega)
      rw [TokenBucket.granted, List.countP_cons_of_pos rfl]
      show nsPerSec * (granted + (0 + (b.reset t).granted ops)) < _
      change _ < nsPerSec * ((ops.countP (·.fills) + 1) * b.burstSize.toNat + 1) +
        b.ratePps.toNat * (t₂.toNat - t₁.toNat) at hbound
      simp only [Nat.mul_add, Nat.add_mul, Nat.one_mul, Nat.zero_add] at hbound ⊢
      omega
    | setRate | setBurstSize => cases htime

/-- **Tokens granted.** Over any calls between `t₁` and `t₂` that ask a bucket for tokens or reset
    it, it grants less than a burst for each reset and one more, what its rate earns from `t₁` to
    `t₂`, and a token. -/
theorem granted_lt {b : TokenBucket} (htok : b.tokens.toNat ≤ b.burstSize.toNat) {t₁ t₂ : UInt64}
    (hwindow : t₁ ≤ t₂) {ops : List Op} (hops : Within t₁ t₂ ops) :
    nsPerSec * b.granted ops < nsPerSec * ((ops.countP (·.fills) + 1) * b.burstSize.toNat + 1) +
      b.ratePps.toNat * (t₂.toNat - t₁.toNat) := by
  have hbound := granted_bound ops b t₁.toNat 0 htok (UInt64.le_iff_toNat_le.mp hwindow) hops
    (fun t ht => by
      obtain ⟨op, hop, htime⟩ := List.mem_filterMap.mp ht
      obtain ⟨t', htime', ht₁, -⟩ := hops.timed op hop
      rw [htime, Option.some.injEq] at htime'
      rw [htime']
      exact UInt64.le_iff_toNat_le.mp ht₁)
    (.inl rfl)
  rwa [Nat.zero_add] at hbound

end TokenBucket

/-! ## What a pass builds -/

/-- A list paired with something at each place is the list, paired. -/
theorem map_fst_mapIdx {α β : Type*} (g : Nat → β) (l : List α) :
    (l.mapIdx fun i x => (x, g i)).map (·.1) = l := by
  refine List.ext_getElem (by simp only [List.length_map, List.length_mapIdx]) fun i _ _ => ?_
  simp only [List.getElem_map, List.getElem_mapIdx]

section

variable (nextSize : UInt32 → Nat → Option UInt32) (room : MbufId → UInt16)

/-- Packets are planned for flows of the list, in its order. -/
theorem flowIds_planBurst (slot : Option MbufId) (ready : List (UInt32 × Turn)) :
    ((planBurst nextSize room slot ready).map (·.flowId)).Sublist (ready.map (·.1)) := by
  induction ready generalizing slot with
  | nil => exact List.Sublist.refl []
  | cons x ready ih =>
    obtain ⟨flowId, turn⟩ := x
    cases hsize : nextSize flowId turn.imixDraw with
    | none =>
      simp only [planBurst, hsize]
      exact (ih slot).cons _
    | some size =>
      cases halloc : turn.alloc with
      | filled m =>
        simp only [planBurst, hsize, halloc]
        exact (ih (some m)).cons _
      | failed errno =>
        cases slot with
        | none =>
          simp only [planBurst, hsize, halloc]
          exact (ih none).cons _
        | some m =>
          simp only [planBurst, hsize, halloc]
          split
          · exact (ih none).cons_cons _
          · exact (ih none).cons _

/-- Each packet planned takes two turns: one that fills the slot and one that empties it. -/
theorem two_mul_length_planBurst (slot : Option MbufId) (ready : List (UInt32 × Turn)) :
    2 * (planBurst nextSize room slot ready).length ≤ ready.length + slot.toList.length := by
  induction ready generalizing slot with
  | nil => exact Nat.zero_le _
  | cons x ready ih =>
    obtain ⟨flowId, turn⟩ := x
    rw [List.length_cons]
    cases hsize : nextSize flowId turn.imixDraw with
    | none =>
      simp only [planBurst, hsize]
      have := ih slot
      omega
    | some size =>
      cases halloc : turn.alloc with
      | filled m =>
        simp only [planBurst, hsize, halloc]
        have := ih (some m)
        simp only [Option.toList_some, List.length_singleton] at this
        omega
      | failed errno =>
        have := ih none
        simp only [Option.toList_none, List.length_nil] at this
        cases slot with
        | none =>
          simp only [planBurst, hsize, halloc]
          omega
        | some m =>
          simp only [planBurst, hsize, halloc, Option.toList_some, List.length_singleton]
          split
          · rw [List.length_cons]
            omega
          · omega

end

namespace System

/-! ## The tokens of an event -/

/-- The flows an event takes a token for. -/
def served (sys : System) : Event → List UInt32
  | .workerPass cfg input =>
    (sys.scheduler.getReadyFlows cfg.txBurstSize.toUInt32 input.order input.nowNs
      input.bucketNowNs).1
  | _ => []

/-- The flows a run takes tokens for. -/
def runServed (inetAton : String → Option UInt32) (d : Dpdk) (r : Rng) :
    System → List Event → List UInt32 :=
  Run.collect (step inetAton d r) served

/-- The event starts the flows. -/
def Event.starts : Event → Bool
  | .startTraffic .. => true
  | _ => false

/-- The calls an event may make on the bucket of the flow `id`. -/
def Event.bucketCalls (id : UInt32) : Event → List TokenBucket.Op
  | .startTraffic _ _ _ clock => [.reset (clock id).bucketNowNs]
  | .workerPass _ input => [.tryConsume 1 (input.bucketNowNs id)]
  | _ => []

variable {inetAton : String → Option UInt32} {d : Dpdk} {sys : System}

/-- The packets of an event are built for flows that gave a token, two tokens for each. -/
theorem outcomes_served (r : Rng) (h : sys.scheduler.Invariant d) (e : Event) :
    ((sys.outcomes d r e).map (·.1.flowId)).Sublist (sys.served e) ∧
      2 * (sys.outcomes d r e).length ≤ (sys.served e).length := by
  have hplanned := planned_outcomes r h e
  have hids : (sys.outcomes d r e).map (·.1.flowId) = (sys.planned e).map (·.1.flowId) := by
    rw [← hplanned, List.map_map]
    rfl
  have hlength : (sys.outcomes d r e).length = (sys.planned e).length := by
    rw [← hplanned, List.length_map]
  rw [hids, hlength]
  cases e with
  | workerPass cfg input =>
    simp only [planned, served, Worker.planPass, Worker.readyTurns]
    generalize sys.scheduler.getReadyFlows cfg.txBurstSize.toUInt32 input.order input.nowNs
      input.bucketNowNs = out
    obtain ⟨ready, scheduler⟩ := out
    generalize hturns : (ready.mapIdx fun i id => (id, input.turn i)).take
      cfg.txBurstSize.toNat = turns
    generalize hplan : planBurst (scheduler.nextSize sys.imixEngine) sys.heap.room none turns =
      plan
    have hready : (turns.map (·.1)).Sublist ready := by
      rw [← hturns, List.map_take, map_fst_mapIdx]
      exact List.take_sublist _ _
    have hflowIds : ((plan.mapIdx fun i x => (x, decide (i < input.tx.accept.toNat))).map
        (·.1.flowId)) = plan.map (·.flowId) := by
      conv_rhs => rw [← map_fst_mapIdx (fun i => decide (i < input.tx.accept.toNat)) plan]
      rw [List.map_map]
      rfl
    have htwo := two_mul_length_planBurst (scheduler.nextSize sys.imixEngine) sys.heap.room none
      turns
    have hturnsLength := hready.length_le
    rw [hflowIds, List.length_mapIdx, ← hplan]
    refine ⟨(flowIds_planBurst _ _ none turns).trans hready, ?_⟩
    simp only [Option.toList_none, List.length_nil, List.length_map] at htwo hturnsLength
    show 2 * _ ≤ ready.length
    omega
  | _ => exact ⟨List.Sublist.refl [], Nat.le_refl _⟩

variable (r inetAton) in
theorem runOutcomes_served (h : sys.scheduler.Invariant d) (events : List Event) :
    ((sys.runOutcomes inetAton d r events).map (·.1.flowId)).Sublist
        (sys.runServed inetAton d r events) ∧
      2 * (sys.runOutcomes inetAton d r events).length ≤
        (sys.runServed inetAton d r events).length := by
  induction events generalizing sys with
  | nil => exact ⟨List.Sublist.refl [], Nat.le_refl _⟩
  | cons e events ih =>
    obtain ⟨hids, htwo⟩ := outcomes_served r h e
    obtain ⟨hidsRest, htwoRest⟩ := ih (invariant_step h e)
    rw [runOutcomes, runServed, Run.collect_cons, Run.collect_cons, List.map_append,
      List.length_append, List.length_append]
    exact ⟨hids.append hidsRest, by rw [Nat.mul_add]; exact Nat.add_le_add htwo htwoRest⟩

/-! ## The calls on the bucket of a flow -/

/-- Choosing the ready flows refills the bucket of a flow and takes a token, or leaves it alone, and
    takes a token for each flow returned. -/
theorem bucket_getReadyFlows {s : FlowScheduler} {id : UInt32} {f : FlowConfigInternal}
    (hf : s.getFlow id = some f) (maxFlows : UInt32) (order : List UInt32) (nowNs : UInt64)
    (bucketNowNs : UInt32 → UInt64) :
    ∃ f' ops, (s.getReadyFlows maxFlows order nowNs bucketNowNs).2.getFlow id = some f' ∧
      ops.Sublist [.tryConsume 1 (bucketNowNs id)] ∧
      f'.tokenBucket = Run.run TokenBucket.step f.tokenBucket ops ∧
      (s.getReadyFlows maxFlows order nowNs bucketNowNs).1.count id ≤
        f.tokenBucket.granted ops := by
  obtain ⟨visited, hstart, hready, hflows, -⟩ :=
    s.getReadyFlows_visits maxFlows order nowNs bucketNowNs
  have hnodup : visited.Nodup :=
    (FlowScheduler.nodup_walk order s.flows.keys_nodup).sublist hstart.sublist
  have hone := List.nodup_iff_count_le_one.mp (hnodup.filter (s.takes nowNs bucketNowNs)) id
  have hnone : ¬ (id ∈ visited ∧ (f.visit nowNs (bucketNowNs id)).1 = true) →
      (visited.filter (s.takes nowNs bucketNowNs)).count id = 0 := by
    intro hnot
    rw [List.count_eq_zero, List.mem_filter, FlowScheduler.takes, hf, Option.any_some]
    exact hnot
  rw [hready, hflows, hf]
  by_cases hvisited : id ∈ visited
  · by_cases hdue : f.active = true ∧ f.isExpired nowNs = false
    · have hvisit := @FlowConfigInternal.visit_of_due f nowNs (bucketNowNs id) hdue.1 hdue.2
      refine ⟨_, _, by rw [if_pos hvisited, Option.map_some], List.Sublist.refl _, ?_, ?_⟩
      · rw [hvisit]
        rfl
      · -- a token was granted, or the flow is not returned
        by_cases htoken : (f.tokenBucket.tryConsume 1 (bucketNowNs id)).1 > 0
        · rw [gt_iff_lt, UInt32.lt_iff_toNat_lt] at htoken
          exact hone.trans htoken
        · rw [hnone]
          · exact Nat.zero_le _
          · rw [hvisit, decide_eq_true_iff]
            exact fun h => htoken h.2
    · have hvisit := @FlowConfigInternal.visit_of_not_due f nowNs (bucketNowNs id) hdue
      refine ⟨_, [], by rw [if_pos hvisited, Option.map_some], List.nil_sublist _, ?_, ?_⟩
      · rw [hvisit]
        rfl
      · rw [hnone]
        · exact Nat.zero_le _
        · rw [hvisit]
          exact fun h => Bool.noConfusion h.2
  · refine ⟨f, [], by rw [if_neg hvisited], List.nil_sublist _, rfl, ?_⟩
    rw [hnone fun h => hvisited h.1]
    exact Nat.zero_le _

/-- Building packets leaves the buckets alone. -/
theorem bucket_processFlows {id : UInt32} {f : FlowConfigInternal}
    (hf : sys.scheduler.getFlow id = some f) (cfg : WorkerConfig) (input : Worker.PassInput) :
    ∃ f' ops, (Worker.processFlows cfg d r sys input).1.scheduler.getFlow id = some f' ∧
      ops.Sublist [.tryConsume 1 (input.bucketNowNs id)] ∧
      f'.tokenBucket = Run.run TokenBucket.step f.tokenBucket ops ∧
      (sys.served (.workerPass cfg input)).count id ≤ f.tokenBucket.granted ops := by
  obtain ⟨f₁, ops, hf₁, hops, hbucket, hserved⟩ := bucket_getReadyFlows hf
    cfg.txBurstSize.toUInt32 input.order input.nowNs input.bucketNowNs
  have hpass : ∃ f', (Worker.processFlows cfg d r sys input).1.scheduler.getFlow id = some f' ∧
      f'.tokenBucket = f₁.tokenBucket := by
    rw [Worker.processFlows_eq_sendReady]
    apply Worker.serveFlows_induct cfg d sys.imixEngine (P := fun p =>
      ∃ f', p.scheduler.getFlow id = some f' ∧ f'.tokenBucket = f₁.tokenBucket)
    · rintro flowId turn p q - hround ⟨f', hf', hbucket'⟩
      rcases hround.getFlow id with heq | ⟨f'', _, _, _, hf'', -, heq⟩
      · exact ⟨f', heq.trans hf', hbucket'⟩
      · rw [hf', Option.some.injEq] at hf''
        exact ⟨_, heq, by rw [← hf'']; exact hbucket'⟩
    · exact ⟨f₁, hf₁, rfl⟩
  obtain ⟨f', hf', hbucket'⟩ := hpass
  exact ⟨f', ops, hf', hops, hbucket'.trans hbucket, hserved⟩

/-- Starting all flows resets the bucket, however often at the same time. -/
theorem bucket_startTraffic {id : UInt32} {f : FlowConfigInternal}
    (hf : sys.scheduler.getFlow id = some f) (request : StartRequest) (order : List UInt32)
    (nowNs : UInt64) (clock : UInt32 → Server.StartClock) :
    ∃ f', (Server.startTraffic sys request order nowNs clock).2.scheduler.getFlow id = some f' ∧
      (f'.tokenBucket = f.tokenBucket ∨
        f'.tokenBucket = f.tokenBucket.reset (clock id).bucketNowNs) := by
  simp only [Server.startTraffic]
  split
  · exact ⟨f, hf, .inl rfl⟩
  · refine List.foldlRecOn (motive := fun s : FlowScheduler => ∃ f', s.getFlow id = some f' ∧
      (f'.tokenBucket = f.tokenBucket ∨
        f'.tokenBucket = f.tokenBucket.reset (clock id).bucketNowNs)) _ _ ⟨f, hf, .inl rfl⟩ ?_
    rintro s ⟨f', hf', hbucket⟩ id' -
    by_cases hid : id' = id
    · subst hid
      simp only [FlowScheduler.startFlow, hf', FlowScheduler.getFlow_setFlow_self]
      refine ⟨_, rfl, .inr ?_⟩
      rcases hbucket with hbucket | hbucket
      · rw [hbucket]
      · rw [hbucket]
        rfl
    · refine ⟨f', ?_, hbucket⟩
      rcases s.setFlow_of_startFlow id' (clock id').nowNs (clock id').bucketNowNs with
        heq | ⟨_, _, -, heq⟩
      · rwa [heq]
      · rwa [heq, FlowScheduler.getFlow_setFlow_ne _ _ (Ne.symm hid)]

theorem bucket_stopTraffic {id : UInt32} {f : FlowConfigInternal}
    (hf : sys.scheduler.getFlow id = some f) (order : List UInt32) :
    ∃ f', (Server.stopTraffic sys order).2.scheduler.getFlow id = some f' ∧
      f'.tokenBucket = f.tokenBucket := by
  apply Server.stopTraffic_induct (P := fun s => ∃ f', s.getFlow id = some f' ∧
    f'.tokenBucket = f.tokenBucket) ⟨f, hf, rfl⟩
  rintro s id' ⟨f', hf', hbucket⟩
  rcases s.setFlow_of_stopFlow id' with heq | ⟨f₁, hf₁, heq⟩
  · exact ⟨f', by rw [heq, hf'], hbucket⟩
  · rw [heq]
    by_cases hid : id = id'
    · subst hid
      rw [hf', Option.some.injEq] at hf₁
      rw [FlowScheduler.getFlow_setFlow_self, ← hf₁]
      exact ⟨_, rfl, hbucket⟩
    · exact ⟨f', by rw [FlowScheduler.getFlow_setFlow_ne _ _ hid, hf'], hbucket⟩

theorem bucket_handleTcpRx {s : FlowScheduler} {id : UInt32} {f : FlowConfigInternal}
    (hf : s.getFlow id = some f) (key : FlowKey) (tcpHdr : RteTcpHdr) (payloadLen : UInt32)
    (nowNs : UInt64) :
    ∃ f', (s.handleTcpRx key tcpHdr payloadLen nowNs).getFlow id = some f' ∧
      f'.tokenBucket = f.tokenBucket := by
  rcases s.handleTcpRx_cases key tcpHdr payloadLen nowNs with
    heq | ⟨id', f₁, conn, -, hf₁, -, -, heq⟩
  · exact ⟨f, by rw [heq, hf], rfl⟩
  · rw [heq]
    by_cases hid : id = id'
    · subst hid
      rw [hf, Option.some.injEq] at hf₁
      exact ⟨_, FlowScheduler.getFlow_setFlow_self _ _ _, by rw [← hf₁]⟩
    · exact ⟨f, by rw [FlowScheduler.getFlow_setFlow_ne _ _ hid, hf], rfl⟩

/-- A request that does not replace the flow leaves it alone. -/
theorem getFlow_configureFlows {id : UInt32} {f : FlowConfigInternal}
    (hf : sys.scheduler.getFlow id = some f) {request : FlowConfig} {nowNs : Nat → UInt64}
    (hkept : ¬ (Event.configureFlows request nowNs).Replaces inetAton id) :
    (Server.configureFlows inetAton d sys request nowNs).2.scheduler.getFlow id = some f := by
  apply Server.configureFlows_induct (P := fun s => s.getFlow id = some f) hf
  intro s flow nowNs hflow hs
  rcases s.addFlow_cases d (Server.internalConfig inetAton request.stateless flow) nowNs with
    ⟨-, heq⟩ | ⟨hacc, -, -, -⟩
  · rwa [heq]
  · rw [s.getFlow_addFlow_ne d nowNs, hs]
    exact fun hid => hkept ⟨flow, hflow, hid.symm, hacc⟩

/-- What an event that does not replace the flow does to its bucket: calls at the event's times,
    which grant a token each time the flow is served. -/
theorem bucket_step (r : Rng) {e : Event} {id : UInt32} (he : ¬ e.Replaces inetAton id)
    {f : FlowConfigInternal} (hf : sys.scheduler.getFlow id = some f) :
    ∃ f' ops, (sys.step inetAton d r e).scheduler.getFlow id = some f' ∧
      ops.Sublist (e.bucketCalls id) ∧
      f'.tokenBucket = Run.run TokenBucket.step f.tokenBucket ops ∧
      (sys.served e).count id ≤ f.tokenBucket.granted ops := by
  cases e with
  | configureFlows request nowNs =>
    exact ⟨f, [], getFlow_configureFlows hf he, List.Sublist.refl [], rfl, Nat.le_refl _⟩
  | configureIMIX request =>
    refine ⟨f, [], ?_, List.Sublist.refl [], rfl, Nat.le_refl _⟩
    rw [step, Server.scheduler_configureIMIX, hf]
  | startTraffic request order nowNs clock =>
    obtain ⟨f', hf', hbucket | hbucket⟩ := bucket_startTraffic hf request order nowNs clock
    · exact ⟨f', [], hf', List.nil_sublist _, hbucket, Nat.le_refl _⟩
    · exact ⟨f', _, hf', List.Sublist.refl _, hbucket, Nat.zero_le _⟩
  | stopTraffic order =>
    obtain ⟨f', hf', hbucket⟩ := bucket_stopTraffic hf order
    exact ⟨f', [], hf', List.Sublist.refl [], hbucket, Nat.le_refl _⟩
  | workerPass cfg input => exact bucket_processFlows hf cfg input
  | receive key tcpHdr payloadLen nowNs =>
    obtain ⟨f', hf', hbucket⟩ := bucket_handleTcpRx hf key tcpHdr payloadLen nowNs
    exact ⟨f', [], hf', List.Sublist.refl [], hbucket, Nat.le_refl _⟩

/-- The calls a run makes on the bucket of a flow that is not replaced. -/
theorem bucket_run (r : Rng) {events : List Event} {id : UInt32}
    (hkept : ∀ e ∈ events, ¬ e.Replaces inetAton id) {f : FlowConfigInternal}
    (hf : sys.scheduler.getFlow id = some f) :
    ∃ ops : List TokenBucket.Op, ops.Sublist (events.flatMap (·.bucketCalls id)) ∧
      (sys.runServed inetAton d r events).count id ≤ f.tokenBucket.granted ops := by
  induction events generalizing sys f with
  | nil => exact ⟨[], List.Sublist.refl [], Nat.le_refl _⟩
  | cons e events ih =>
    obtain ⟨f', ops, hf', hops, hbucket, hserved⟩ :=
      bucket_step (d := d) r (hkept e List.mem_cons_self) hf
    obtain ⟨opsRest, hopsRest, hservedRest⟩ :=
      ih (fun e' he' => hkept e' (List.mem_cons_of_mem e he')) hf'
    rw [hbucket] at hservedRest
    refine ⟨ops ++ opsRest, ?_, ?_⟩
    · rw [List.flatMap_cons]
      exact hops.append hopsRest
    · rw [runServed, Run.collect_cons, List.count_append, TokenBucket.granted_append]
      exact Nat.add_le_add hserved hservedRest

/-! ## The rate limit -/

/-- The bucket is filled by starts only. -/
theorem countP_fills (id : UInt32) (events : List Event) :
    (events.flatMap (·.bucketCalls id)).countP (·.fills) = events.countP (·.starts) := by
  induction events with
  | nil => rfl
  | cons e events ih =>
    rw [List.flatMap_cons, List.countP_append, ih, List.countP_cons, Nat.add_comm]
    congr 1
    cases e <;> rfl

/-- What a flow may send in `elapsedNs` nanoseconds in which it was started so many times: a burst
    for each start and the one it may have had, and what its rate earns. -/
def allowance (f : FlowConfigInternal) (starts : Nat) (elapsedNs : ℚ) : ℚ :=
  (starts + 1) * ((if f.pps > 0 then f.pps / 10 else 1000 : UInt64).toNat : ℚ) +
    f.pps.toNat * elapsedNs / 10 ^ 9 + 1

/-- In a stretch of time a flow gives less tokens than its allowance. -/
theorem served_lt (h : Reachable inetAton d r sys) {id : UInt32} {f : FlowConfigInternal}
    (hf : sys.scheduler.getFlow id = some f) {events : List Event}
    (hkept : ∀ e ∈ events, ¬ e.Replaces inetAton id) {t₁ t₂ : UInt64} (hwindow : t₁ ≤ t₂)
    (hclock : TokenBucket.Within t₁ t₂ (events.flatMap (·.bucketCalls id))) :
    ((sys.runServed inetAton d r events).count id : ℚ) <
      allowance f (events.countP (·.starts)) (t₂.toNat - t₁.toNat) := by
  obtain ⟨hrate, hburst, htokens⟩ := (coherent_flows_of_reachable h id f hf).provisioned
  obtain ⟨ops, hops, hserved⟩ := bucket_run (d := d) r hkept hf
  have hgranted := TokenBucket.granted_lt htokens hwindow (hclock.sublist hops)
  have hresets : ops.countP (·.fills) ≤ events.countP (·.starts) := by
    rw [← countP_fills id events]
    exact hops.countP_le
  have hbursts : TokenBucket.nsPerSec * ((ops.countP (·.fills) + 1) *
      f.tokenBucket.burstSize.toNat + 1) ≤ TokenBucket.nsPerSec *
        ((events.countP (·.starts) + 1) * f.tokenBucket.burstSize.toNat + 1) :=
    Nat.mul_le_mul_left _
      (Nat.add_le_add_right (Nat.mul_le_mul_right _ (Nat.add_le_add_right hresets 1)) 1)
  have hscaled := Nat.mul_le_mul_left TokenBucket.nsPerSec hserved
  have hlt : TokenBucket.nsPerSec * (sys.runServed inetAton d r events).count id <
      TokenBucket.nsPerSec * ((events.countP (·.starts) + 1) * f.tokenBucket.burstSize.toNat + 1) +
        f.tokenBucket.ratePps.toNat * (t₂.toNat - t₁.toNat) := by
    omega
  have hcast := (@Nat.cast_lt ℚ _ _ _ _ _ _ _).mpr hlt
  rw [hrate, hburst] at hcast
  push_cast [TokenBucket.nsPerSec,
    Nat.cast_sub (UInt64.le_iff_toNat_le.mp hwindow)] at hcast
  rw [allowance]
  linarith

/-- **Rate shaping.** From any reachable generator on, over any run of requests, worker passes and
    received segments that does not replace a flow, and whose clock does not run backwards between
    `t₁` and `t₂`, the packets all workers build for the flow are less than a burst for each
    `StartTraffic` and one more, what its rate earns in that time, and one. -/
theorem built_lt (h : Reachable inetAton d r sys) {id : UInt32} {f : FlowConfigInternal}
    (hf : sys.scheduler.getFlow id = some f) {events : List Event}
    (hkept : ∀ e ∈ events, ¬ e.Replaces inetAton id) {t₁ t₂ : UInt64} (hwindow : t₁ ≤ t₂)
    (hclock : TokenBucket.Within t₁ t₂ (events.flatMap (·.bucketCalls id))) :
    (((sys.runOutcomes inetAton d r events).map (·.1.flowId)).count id : ℚ) <
      allowance f (events.countP (·.starts)) (t₂.toNat - t₁.toNat) := by
  have hserved := served_lt h hf hkept hwindow hclock
  have hbuilt := (runOutcomes_served r inetAton (invariant_of_reachable h) events).1.count_le id
  exact lt_of_le_of_lt (Nat.cast_le.mpr hbuilt) hserved

/-- Two passes, a tenth of a second apart. -/
def twoPasses : List Event := [.passAt 1000000000 1, .passAt 1100000000 1]

theorem twoPasses_keeps (e : Event) (he : e ∈ twoPasses) (id : UInt32) :
    ¬ e.Replaces Server.sampleAton id := by
  rcases List.mem_pair.mp he with rfl | rfl
  · exact not_false
  · exact not_false

theorem twoPasses_within (id : UInt32) :
    TokenBucket.Within 1000000000 1100000000 (twoPasses.flatMap (·.bucketCalls id)) where
  timed op hop := by
    rcases List.mem_pair.mp hop with rfl | rfl
    · exact ⟨1000000000, rfl, by decide, by decide⟩
    · exact ⟨1100000000, rfl, by decide, by decide⟩
  forwards := by
    have hle : (1000000000 : UInt64) ≤ 1100000000 := by decide
    exact List.pairwise_pair.mpr hle

/-- A flow of the table, over the two passes. -/
theorem built_lt_twoPasses : ∃ f, opened.scheduler.getFlow 2 = some f ∧
    (((opened.runOutcomes Server.sampleAton .reference .counting twoPasses).map
      (·.1.flowId)).count 2 : ℚ) <
        allowance f 0 ((1100000000 : UInt64).toNat - (1000000000 : UInt64).toNat) := by
  have hflow : (opened.scheduler.getFlow 2).isSome = true := by decide +kernel
  obtain ⟨f, hf⟩ := Option.isSome_iff_exists.mp hflow
  exact ⟨f, hf, built_lt reachable_opened hf (fun e he => twoPasses_keeps e he 2) (by decide)
    (twoPasses_within 2)⟩

/-- A run that replaces no flow serves the flows of the table only. -/
theorem mem_keys_of_runServed (h : sys.scheduler.Invariant d) {events : List Event}
    (hkept : ∀ e ∈ events, ∀ id, ¬ e.Replaces inetAton id) {id : UInt32}
    (hid : id ∈ sys.runServed inetAton d r events) : id ∈ sys.scheduler.flows.keys := by
  have hknown : (sys.scheduler.sent id).isSome = true := by
    induction events generalizing sys with
    | nil => cases hid
    | cons e events ih =>
      rw [runServed, Run.collect_cons, List.mem_append] at hid
      rcases hid with hid | hid
      · cases e with
        | workerPass cfg input =>
          obtain ⟨f, hf, -⟩ := (sys.scheduler.due_getReadyFlows cfg.txBurstSize.toUInt32 input.order
            input.nowNs input.bucketNowNs).2 id hid
          rw [FlowScheduler.sent, hf]
          rfl
        | _ => cases hid
      · have hrest := ih (invariant_step h e)
          (fun e' he' => hkept e' (List.mem_cons_of_mem e he')) hid
        rwa [sent_step r h (hkept e List.mem_cons_self id), Option.isSome_map] at hrest
  rw [← AList.mem_keys, ← AList.lookup_isSome]
  rwa [FlowScheduler.sent, Option.isSome_map] at hknown

/-- **Half the rate.** Over any such run that replaces no flow, twice the packets all workers build
    for all flows are no more than the allowances of the flows together, whatever the pool
    answers. -/
theorem two_mul_built_le (h : Reachable inetAton d r sys) {events : List Event}
    (hkept : ∀ e ∈ events, ∀ id, ¬ e.Replaces inetAton id) {t₁ t₂ : UInt64} (hwindow : t₁ ≤ t₂)
    (hclock : ∀ id ∈ sys.scheduler.flows.keys,
      TokenBucket.Within t₁ t₂ (events.flatMap (·.bucketCalls id))) :
    2 * ((sys.runOutcomes inetAton d r events).length : ℚ) ≤
      ∑ id ∈ sys.scheduler.flows.keys.toFinset, ((sys.scheduler.getFlow id).map fun f =>
        allowance f (events.countP (·.starts)) (t₂.toNat - t₁.toNat)).getD 0 := by
  have hinvariant := invariant_of_reachable h
  have htwo := (runOutcomes_served r inetAton hinvariant events).2
  -- each token was taken for a flow of the table
  have hsum : (sys.runServed inetAton d r events).length =
      ∑ id ∈ sys.scheduler.flows.keys.toFinset, (sys.runServed inetAton d r events).count id := by
    have hcard := Multiset.sum_count_eq_card (s := sys.scheduler.flows.keys.toFinset)
      (m := (sys.runServed inetAton d r events : Multiset UInt32))
      fun id hid => List.mem_toFinset.mpr (mem_keys_of_runServed hinvariant hkept hid)
    simpa using hcard.symm
  calc 2 * ((sys.runOutcomes inetAton d r events).length : ℚ)
      ≤ (sys.runServed inetAton d r events).length := by exact_mod_cast htwo
    _ = ∑ id ∈ sys.scheduler.flows.keys.toFinset,
          ((sys.runServed inetAton d r events).count id : ℚ) := by
        rw [hsum, Nat.cast_sum]
    _ ≤ _ := Finset.sum_le_sum fun id hid => by
        rw [List.mem_toFinset, ← AList.mem_keys, ← AList.lookup_isSome] at hid
        obtain ⟨f, hf⟩ := Option.isSome_iff_exists.mp hid
        have hget : sys.scheduler.getFlow id = some f := hf
        rw [hget, Option.map_some, Option.getD_some]
        exact (served_lt h hget (fun e he => hkept e he id) hwindow
          (hclock id (AList.mem_keys.mp (AList.lookup_isSome.mp hid)))).le

/-- Both flows of the table, over the two passes. -/
theorem two_mul_built_le_twoPasses :
    2 * ((opened.runOutcomes Server.sampleAton .reference .counting twoPasses).length : ℚ) ≤
      ∑ id ∈ opened.scheduler.flows.keys.toFinset, ((opened.scheduler.getFlow id).map fun f =>
        allowance f 0 ((1100000000 : UInt64).toNat - (1000000000 : UInt64).toNat)).getD 0 :=
  two_mul_built_le reachable_opened twoPasses_keeps (by decide) fun id _ => twoPasses_within id

end System

end TrafficGen
