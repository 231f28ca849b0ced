import TrafficGen.Spec.PassInvariant

/-!
# Where the mbufs of a pass go

`process_flows` reads the `0` of a successful `allocate_burst` as a failure and goes on
to the next flow, the mbuf left behind in the slot. The next successful call overwrites
it; a failed one makes a packet of it. So mbufs survive in pairs of calls, and
`leaked` computes from the pool's answers alone which of them are lost.

## Key results

- `handedOut_perm`: every mbuf handed out is sent, freed or in `leaked`
- `conserved_iff_paired`: nothing is lost exactly when each successful call is directly
  followed by a failed one
- `noFlowDropped_iff_nil`: while the pool has free mbufs, nothing is sent
-/

namespace TrafficGen

open Worker

variable {r : Rng}

/-! ## The abstract accounting -/

/-- The answers of the pool to the calls of a pass: one for each live flow. -/
def allocations (s : FlowScheduler) (ready : List (UInt32 × Turn)) : List AllocResult :=
  (ready.filter fun x => s.isLive x.1).map (·.2.alloc)

/-- The mbufs lost to the answers still to come, when the slot holds `slot`: what is in it when
    a call succeeds, or at the end. -/
def leaked : Option MbufId → List AllocResult → List MbufId
  | slot, [] => slot.toList
  | slot, .filled m :: answers => slot.toList ++ leaked (some m) answers
  | _, .failed _ :: answers => leaked none answers

/-- Every successful call is directly followed by a failed one. -/
def Paired : List AllocResult → Prop
  | [] => True
  | .failed _ :: answers => Paired answers
  | .filled _ :: .failed _ :: answers => Paired answers
  | .filled _ :: _ => False

theorem leaked_eq_nil_iff (answers : List AllocResult) :
    leaked none answers = [] ↔ Paired answers := by
  -- the cases of `Paired` consume one answer or a pair
  fun_induction Paired answers with
  | case1 => simp only [leaked, Option.toList_none]
  | case2 errno answers ih => simpa only [leaked] using ih
  | case3 m errno answers ih =>
    simpa only [leaked, Option.toList_none, List.nil_append] using ih
  | case4 m answers hnext =>
    -- the mbuf stays in the slot to the end, or the next success overwrites it
    simp only [iff_false]
    cases answers with
    | nil => simp [leaked]
    | cons answer answers =>
      cases answer with
      | filled m' => simp [leaked]
      | failed errno => exact absurd rfl (hnext errno answers)

/-! ## The loop refines it -/

/-- The mbufs whose fate is decided before the burst is sent. -/
def Pass.ledger (p : Pass r) : List MbufId := p.built.map (·.mbuf) ++ p.freed

theorem allocations_cons_of_dead {s : FlowScheduler} {flowId : UInt32}
    (h : s.isLive flowId = false) (turn : Turn) (ready : List (UInt32 × Turn)) :
    allocations s ((flowId, turn) :: ready) = allocations s ready := by
  simp only [allocations, List.filter_cons, h, Bool.false_eq_true, if_false]

theorem allocations_cons_of_live {s : FlowScheduler} {flowId : UInt32} (h : s.isLive flowId)
    (turn : Turn) (ready : List (UInt32 × Turn)) :
    allocations s ((flowId, turn) :: ready) = turn.alloc :: allocations s ready := by
  simp only [allocations, List.filter_cons, h, if_true, List.map_cons]

/-- One round moves mbufs between the pool, the slot, the ledger and `leaked`. -/
private theorem count_round {cfg : WorkerConfig} {d : Dpdk} {imix : IMIXEngine}
    {flowId : UInt32} {turn : Turn} {p q : Pass r} (h : Round cfg d imix flowId turn p q)
    (hshape : p.Shape cfg.txBurstSize.toNat) (hroom : p.mbufCount < cfg.txBurstSize.toNat)
    (ready : List (UInt32 × Turn)) (x : MbufId) :
    q.handedOut.count x + p.slot.toList.count x + p.ledger.count x +
        (leaked q.slot (allocations q.scheduler ready)).count x =
      p.handedOut.count x + q.slot.toList.count x + q.ledger.count x +
        (leaked p.slot (allocations p.scheduler ((flowId, turn) :: ready))).count x := by
  have hallocations : allocations q.scheduler ready = allocations p.scheduler ready := by
    simp only [allocations, h.isLive]
  have hlive : ∀ {flow : FlowConfigInternal}, p.scheduler.getFlow flowId = some flow →
      flow.active → p.scheduler.isLive flowId := fun hflow hactive =>
    (FlowScheduler.isLive_iff _ _).mpr ⟨_, hflow, hactive⟩
  rw [hallocations]
  cases h with
  | skip hdead => rw [allocations_cons_of_dead hdead]
  | fill flow m hflow hactive halloc =>
    -- what was in the slot is overwritten
    rw [allocations_cons_of_live (hlive hflow hactive), halloc,
      Pass.slot_takeMbuf hshape hroom]
    simp only [leaked, Pass.ledger, Pass.takeMbuf, List.count_append, Option.toList_some]
    omega
  | idle flow errno hflow hactive halloc hslot =>
    -- nothing in the slot, nothing to lose
    rw [allocations_cons_of_live (hlive hflow hactive), halloc]
    simp only [hslot, leaked]
  | free flow errno m mb mutator hflow hactive halloc hslot hclone =>
    -- from the slot to the freed
    rw [allocations_cons_of_live (hlive hflow hactive), halloc, hslot, Pass.slot_freeMbuf]
    simp only [leaked, Pass.ledger, Pass.freeMbuf, List.count_append, Option.toList_some,
      Option.toList_none, List.count_nil]
    omega
  | build flow errno m mb mutator hflow hactive halloc hslot hclone =>
    -- from the slot to the burst
    rw [allocations_cons_of_live (hlive hflow hactive), halloc, hslot, Pass.slot_push hshape]
    simp only [leaked, Pass.ledger, Pass.push, List.count_append, Option.toList_some,
      Option.toList_none, List.count_nil, List.map_append, List.map_cons, List.map_nil,
      builtPacket]
    omega

/-- Over the loop, as long as the burst cannot fill up: what was handed out is in the ledger or
    lost. -/
theorem count_serveFlows (cfg : WorkerConfig) (d : Dpdk) (imix : IMIXEngine)
    (ready : List (UInt32 × Turn)) {p : Pass r} (hshape : p.Shape cfg.txBurstSize.toNat)
    (hroom : p.mbufCount + ready.length ≤ cfg.txBurstSize.toNat) (x : MbufId) {q : Pass r}
    (hq : serveFlows cfg d imix ready p = q) :
    q.handedOut.count x + p.slot.toList.count x + p.ledger.count x =
      p.handedOut.count x + q.ledger.count x +
        (leaked p.slot (allocations p.scheduler ready)).count x := by
  -- one flow at a time; the slot of the last round is the tail of `leaked`
  induction ready generalizing p with
  | nil =>
    rw [serveFlows] at hq
    rw [← hq]
    simp only [allocations, List.filter_nil, List.map_nil, leaked]
    omega
  | cons y ready ih =>
    obtain ⟨flowId, turn⟩ := y
    rw [List.length_cons] at hroom
    rw [serveFlows, if_neg (by omega)] at hq
    have hround := round_serveFlow cfg d imix flowId turn p
    have hnext := hround.mbufCount_le
    have hstep := count_round hround hshape (by omega) ready x
    have hrest := ih (hround.shape hshape) (by omega) hq
    omega

/-! ## Conservation -/

/-- Every mbuf the pool handed out during the pass was disposed of exactly once: taken by the
    NIC or freed. -/
def PassReport.Conserved (report : PassReport) : Prop :=
  report.handedOut.Perm (report.accepted ++ report.freed)

instance (report : PassReport) : Decidable report.Conserved :=
  inferInstanceAs (Decidable (List.Perm _ _))

/-- Every mbuf handed out is taken by the NIC, freed, or lost in the slot. A worker with a burst
    of size 0 serves no flow at all. -/
theorem handedOut_perm (cfg : WorkerConfig) (d : Dpdk) (r : Rng) (sys : System) (time : UInt64)
    (ready : List (UInt32 × Turn)) (tx : TxAnswer)
    (hlen : cfg.txBurstSize ≠ 0 → ready.length ≤ cfg.txBurstSize.toNat) :
    let report := (sendReady cfg d r sys time ready tx).2
    report.handedOut.Perm (report.accepted ++ report.freed ++
      leaked none (allocations sys.scheduler (ready.take cfg.txBurstSize.toNat))) := by
  intro report
  obtain ⟨p, hp⟩ : ∃ p, serveFlows cfg d sys.imixEngine (ready.take cfg.txBurstSize.toNat)
      (startPass cfg r sys time) = p := ⟨_, rfl⟩
  have hreport : report = _ := sendReady_report cfg d r sys time ready tx
    ((serveFlows_take d sys.imixEngine r sys time hlen).symm.trans hp)
  rw [hreport, List.perm_iff_count]
  intro x
  have hcount := count_serveFlows cfg d sys.imixEngine (ready.take cfg.txBurstSize.toNat)
    (shape_startPass cfg r sys time)
    ((Nat.zero_add _).trans_le (List.length_take_le _ _)) x hp
  -- the burst is cut where the NIC stopped
  have hburst : (p.built.map (·.mbuf)).count x =
      ((p.built.map (·.mbuf)).take tx.accept.toNat).count x +
        ((p.built.map (·.mbuf)).drop tx.accept.toNat).count x := by
    rw [← List.count_append, List.take_append_drop]
  rw [slot_startPass] at hcount
  simp only [startPass, Pass.ledger, List.count_append, Option.toList_none, List.count_nil,
    List.map_nil] at hcount ⊢
  omega

theorem conserved_iff_of_perm {report : PassReport} {answers : List AllocResult}
    (hperm : report.handedOut.Perm (report.accepted ++ report.freed ++ leaked none answers)) :
    report.Conserved ↔ Paired answers := by
  rw [← leaked_eq_nil_iff, PassReport.Conserved]
  constructor
  · intro h
    -- whatever is lost was handed out, and would be missing on the other side
    have hlength := (hperm.symm.trans h).length_eq
    rw [List.length_append] at hlength
    exact List.length_eq_zero_iff.mp (by omega)
  · intro h
    rwa [h, List.append_nil] at hperm

/-- **Conservation.** A pass over any list of ready flows as long as `get_ready_flows` makes it,
    with any allocation answers, any clone failures and any number of mbufs taken by the NIC,
    disposes of every mbuf exactly once if and only if each successful allocation call of a
    live flow is directly followed by a failed one. -/
theorem conserved_iff_paired (cfg : WorkerConfig) (d : Dpdk) (r : Rng) (sys : System)
    (time : UInt64) (ready : List (UInt32 × Turn)) (tx : TxAnswer)
    (hlen : cfg.txBurstSize ≠ 0 → ready.length ≤ cfg.txBurstSize.toNat) :
    (sendReady cfg d r sys time ready tx).2.Conserved ↔
      Paired (allocations sys.scheduler (ready.take cfg.txBurstSize.toNat)) :=
  conserved_iff_of_perm (handedOut_perm cfg d r sys time ready tx hlen)

/-- `process_flows` chooses its ready flows itself, so nothing is asked of them. -/
theorem processFlows_conserved_iff (cfg : WorkerConfig) (d : Dpdk) (r : Rng) (sys : System)
    (input : PassInput) :
    (processFlows cfg d r sys input).2.Conserved ↔
      Paired (allocations (readyTurns cfg sys input).2
        ((readyTurns cfg sys input).1.take cfg.txBurstSize.toNat)) := by
  rw [processFlows_eq_sendReady]
  exact conserved_iff_of_perm (handedOut_perm cfg d r _ input.time _ input.tx
    (length_readyTurns_le cfg sys input))

/-- Flow 1 is ready, and the pool answers with mbuf 7. -/
def fillReady : List (UInt32 × Turn) := [(1, .sample (.filled 7))]

/-- Flow 1 is ready twice; the pool answers with mbuf 7 and then fails. -/
def pairReady : List (UInt32 × Turn) :=
  [(1, .sample (.filled 7)), (1, .sample (.failed .noEntry))]

/-- A successful call followed by a failed one. -/
theorem conserved_iff_paired_pair : pairReady.length ≤ WorkerConfig.sample.txBurstSize.toNat ∧
    ((sendReady .sample .reference .counting (.sample true) 0 pairReady .all).2.Conserved ↔
      Paired (allocations (System.sample true).scheduler
        (pairReady.take WorkerConfig.sample.txBurstSize.toNat))) :=
  ⟨by decide, conserved_iff_paired .sample .reference .counting (.sample true) 0 pairReady .all
    fun _ => by decide⟩

/-- One ready flow and one successful call: mbuf 7 is neither sent nor freed. -/
theorem leak_on_success :
    ¬ (sendReady .sample .reference .counting (.sample true) 0 fillReady .all).2.Conserved := by
  decide

/-! ## Ready flows that get no packet -/

/-- The pass is served by a pool with enough free mbufs: the ready flows are distinct, live and no
    more than the burst holds, the `i`-th call is answered with the `i`-th free mbuf, and
    every packet fits. -/
structure Servable (cfg : WorkerConfig) (sys : System) (ready : List (UInt32 × Turn))
    (free : List MbufId) : Prop where
  nodup : (ready.map (·.1)).Nodup
  length_le : ready.length ≤ cfg.txBurstSize.toNat
  live : ∀ x ∈ ready, sys.scheduler.isLive x.1
  free_nodup : free.Nodup
  enough : ready.length ≤ free.length
  allocated : ready.map (·.2.alloc) = (free.take ready.length).map .filled
  fits : ∀ x ∈ ready, ∀ flow, sys.scheduler.getFlow x.1 = some flow → ∀ m ∈ free,
    (choosePacketSize flow sys.imixEngine x.2.imixDraw).toNat ≤ (sys.heap m).room.toNat

/-- The burst holds one packet for each ready flow, in order, each in its own mbuf. -/
def PassReport.NoFlowDropped (report : PassReport) (ready : List (UInt32 × Turn)) : Prop :=
  report.built.map (·.flowId) = ready.map (·.1) ∧ (report.built.map (·.mbuf)).Nodup

/-- A successful call builds no packet. -/
private theorem built_of_round {cfg : WorkerConfig} {d : Dpdk} {imix : IMIXEngine}
    {flowId : UInt32} {turn : Turn} {p q : Pass r} (h : Round cfg d imix flowId turn p q)
    {m : MbufId} (hfilled : turn.alloc = .filled m) : q.built = p.built := by
  cases h with
  | skip | fill | idle | free => rfl
  | build _ errno _ _ _ _ _ halloc _ _ =>
    rw [hfilled] at halloc
    cases halloc

/-- While every call succeeds, no packet is built. -/
theorem built_of_filled (cfg : WorkerConfig) (d : Dpdk) (imix : IMIXEngine)
    (ready : List (UInt32 × Turn)) (p : Pass r)
    (hfilled : ∀ x ∈ ready, ∃ m, x.2.alloc = .filled m) :
    (serveFlows cfg d imix ready p).built = p.built := by
  induction ready generalizing p with
  | nil => rfl
  | cons y ready ih =>
    rw [serveFlows]
    split
    · rfl
    · rw [ih _ fun x hx => hfilled x (List.mem_cons_of_mem _ hx)]
      obtain ⟨m, hm⟩ := hfilled y List.mem_cons_self
      exact built_of_round (round_serveFlow cfg d imix y.1 y.2 p) hm

/-- **No flow is dropped.** With a pool that can serve every ready flow, the burst holds a packet
    for each of them only if there are none. -/
theorem noFlowDropped_iff_nil (cfg : WorkerConfig) (d : Dpdk) (r : Rng) (sys : System)
    (time : UInt64) (ready : List (UInt32 × Turn)) (tx : TxAnswer) (free : List MbufId)
    (h : Servable cfg sys ready free) :
    (sendReady cfg d r sys time ready tx).2.NoFlowDropped ready ↔ ready = [] := by
  have hfilled : ∀ x ∈ ready, ∃ m, x.2.alloc = .filled m := by
    intro x hx
    have hmem : x.2.alloc ∈ (free.take ready.length).map AllocResult.filled :=
      h.allocated ▸ List.mem_map_of_mem hx
    obtain ⟨m, -, hm⟩ := List.mem_map.mp hmem
    exact ⟨m, hm.symm⟩
  have hbuilt : (sendReady cfg d r sys time ready tx).2.built = [] := by
    rw [sendReady_report cfg d r sys time ready tx rfl]
    exact built_of_filled cfg d sys.imixEngine ready (startPass cfg r sys time) hfilled
  rw [PassReport.NoFlowDropped, hbuilt]
  constructor
  · rintro ⟨hids, -⟩
    exact List.map_eq_nil_iff.mp hids.symm
  · rintro rfl
    exact ⟨rfl, List.nodup_nil⟩

theorem servable_sample : Servable .sample (.sample true) fillReady [7] where
  nodup := by decide
  length_le := by decide
  live := by decide
  free_nodup := by decide
  enough := by decide
  allocated := by decide
  fits := by
    have hsize : ((System.sample true).scheduler.getFlow 1).map
        (fun flow => choosePacketSize flow .new 0) = some 64 := by decide
    intro x hx flow hflow m _
    rw [fillReady, List.mem_singleton] at hx
    subst hx
    rw [hflow, Option.map_some, Option.some.injEq] at hsize
    exact (Nat.le_of_eq (congrArg UInt32.toNat hsize)).trans (by decide +revert)

/-- One ready flow and one free mbuf. -/
theorem noFlowDropped_iff_nil_one : Servable .sample (.sample true) fillReady [7] ∧
    ((sendReady .sample .reference .counting (.sample true) 0 fillReady .all).2.NoFlowDropped
      fillReady ↔ fillReady = []) :=
  ⟨servable_sample,
    noFlowDropped_iff_nil .sample .reference .counting _ 0 fillReady .all [7] servable_sample⟩

/-- One ready flow, one free mbuf, and no packet. -/
theorem flow_dropped : Servable .sample (.sample true) fillReady [7] ∧
    ¬ (sendReady .sample .reference .counting (.sample true) 0 fillReady .all).2.NoFlowDropped
      fillReady := by
  refine ⟨servable_sample, fun h => ?_⟩
  have hnone : (sendReady .sample .reference .counting (.sample true) 0 fillReady
      .all).2.built.map (·.flowId) = [] := by decide
  exact absurd (hnone.symm.trans h.1) (by decide)

end TrafficGen
