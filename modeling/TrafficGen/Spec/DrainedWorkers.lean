import TrafficGen.Spec.StopLatency

/-!
# Workers come to rest

A pass goes over the flows it found ready and waits for nobody, so it is over after a number of the
worker's own turns that its burst size bounds. Once all flows are stopped there is no other pass,
and the worker keeps polling.

## Key results

- `allocated_of_reachable`: no worker holds a pointer to a flow that is not there
- `bounded_of_reachable`: no worker is further from the end of its pass than a whole burst
- `drained`: after `StopTraffic`, that many turns bring a worker to rest
-/

namespace TrafficGen

variable {r : Rng} {workers : Nat}

namespace FlowObjects

variable {s t : FlowObjects}

/-- Every pointer of the table is to a flow. -/
def Allocated (s : FlowObjects) : Prop :=
  ∀ id flow, s.getFlow id = some flow → flow < s.objects.length

theorem Allocated.quieter (hs : s.Allocated) (h : s.Quieter t) : t.Allocated := by
  intro id flow hid
  rw [getFlow, h.flows] at hid
  rw [h.length]
  exact hs id flow hid

theorem Allocated.addFlow (hs : s.Allocated) (d : Dpdk) (config : FlowSettings) (nowNs : UInt64) :
    (s.addFlow d config nowNs).2.Allocated ∧
      s.objects.length ≤ (s.addFlow d config nowNs).2.objects.length := by
  rcases s.addFlow_cases d config nowNs with hsame | ⟨stored, -, hobjects, hflows⟩
  · rw [hsame]
    exact ⟨hs, Nat.le_refl _⟩
  · have hlength : (s.addFlow d config nowNs).2.objects.length = s.objects.length + 1 := by
      rw [hobjects, List.length_append, List.length_singleton]
    refine ⟨fun id flow hid => ?_, hlength ▸ Nat.le_succ _⟩
    rw [getFlow, hflows] at hid
    rw [hlength]
    rcases of_lookup_insert hid with ⟨-, hnew⟩ | hold
    · rw [hnew]
      exact Nat.lt_succ_self _
    · exact Nat.lt_succ_of_lt (hs id flow hold)

theorem Allocated.startFlow (hs : s.Allocated) (id : UInt32) (nowNs bucketNowNs : UInt64) :
    (s.startFlow id nowNs bucketNowNs).2.Allocated ∧
      (s.startFlow id nowNs bucketNowNs).2.objects.length = s.objects.length := by
  rw [FlowObjects.startFlow]
  split
  · exact ⟨hs, rfl⟩
  · refine ⟨fun id flow hid => ?_, List.length_set⟩
    simp only [store, List.length_set]
    exact hs id flow hid

/-- The walk stops when `maxFlows` are ready, or one if that is zero. -/
theorem length_getReadyFlowsLoop_le (maxFlows : UInt32) (nowNs : UInt64)
    (bucketNowNs : UInt32 → UInt64) (ids : List UInt32) (s : FlowObjects) (ready : List UInt32)
    (h : ready.length < max maxFlows.toNat 1) :
    (getReadyFlowsLoop maxFlows nowNs bucketNowNs ids s ready).1.length ≤
      max maxFlows.toNat 1 := by
  induction ids generalizing s ready with
  | nil => exact h.le
  | cons id ids ih =>
    rw [getReadyFlowsLoop]
    split
    · exact ih s ready h
    · next flow f hid =>
      split
      · exact ih s ready h
      · split
        · exact ih _ ready h
        · have hpushed : (if (f.tokenBucket.tryConsume 1 (bucketNowNs id)).1 > 0 then ready ++ [id]
              else ready).length ≤ ready.length + 1 := by
            split
            · rw [List.length_append, List.length_singleton]
            · exact Nat.le_succ _
          -- one flow more at most, whatever the bucket answers
          simp only
          generalize (if (f.tokenBucket.tryConsume 1 (bucketNowNs id)).1 > 0 then ready ++ [id]
            else ready) = ready' at hpushed
          split
          · exact hpushed.trans h
          · next hroom => exact ih _ ready' (lt_max_of_lt_left (Nat.not_le.mp hroom))

theorem length_getReadyFlows_le (s : FlowObjects) (maxFlows : UInt32) (order : List UInt32)
    (nowNs : UInt64) (bucketNowNs : UInt32 → UInt64) :
    (s.getReadyFlows maxFlows order nowNs bucketNowNs).1.length ≤ max maxFlows.toNat 1 :=
  length_getReadyFlowsLoop_le maxFlows nowNs bucketNowNs _ s [] (lt_max_of_lt_right Nat.one_pos)

end FlowObjects

namespace PassPc

/-- The pointer a worker holds. -/
def held : PassPc r → Option FlowPtr
  | .checking _ _ flow => some flow
  | .building _ _ flow => some flow
  | _ => none

/-- At most how many turns of its own a worker is away from the end of its pass. -/
def turnsLeft : PassPc r → Nat
  | .polling => 0
  -- three for each flow, one to leave the loop and one for the burst
  | .looking pass => 3 * pass.readyFlows.length + 2
  | .checking pass _ _ => 3 * pass.readyFlows.length + 4
  | .building pass _ _ => 3 * pass.readyFlows.length + 3
  | .transmitting _ => 1

theorem eq_polling {pc : PassPc r} (h : pc.turnsLeft = 0) : pc = .polling := by
  cases pc with
  | polling => rfl
  | looking | checking | building | transmitting => cases h

end PassPc

namespace Threads

variable {inetAton : String → Option UInt32} {d : Dpdk} {cfg : Fin workers → WorkerConfig}
  {s : Threads r workers} {w : Fin workers} {input : Worker.PassInput}

/-- No pointer of the table or of a worker dangles. -/
structure Allocated (s : Threads r workers) : Prop where
  table : s.scheduler.Allocated
  held : ∀ w flow, (s.worker w).held = some flow → flow < s.scheduler.objects.length

/-- What a worker holds after its turn it held before, or has found in the table. -/
theorem held_work (c : WorkerConfig) (d : Dpdk) (s : Threads r workers) (w : Fin workers)
    (input : Worker.PassInput) {flow : FlowPtr}
    (h : ((s.work c d w input).worker w).held = some flow) :
    (s.worker w).held = some flow ∨ ∃ id, s.scheduler.getFlow id = some flow := by
  rw [work] at h
  cases hpc : s.worker w with
  | polling =>
    rw [hpc] at h
    simp only [poll] at h
    split at h
    · rw [hpc] at h
      cases h
    · rw [worker_goto_self] at h
      cases h
  | looking pass =>
    simp only [hpc] at h
    rcases look_cases c s w pass with hlook | ⟨id, _, -, hlook | ⟨flow', hflow, hlook⟩⟩
    · rw [hlook, worker_goto_self] at h
      cases h
    · rw [hlook, worker_goto_self] at h
      cases h
    · rw [hlook, worker_goto_self] at h
      rw [← Option.some.inj h]
      exact .inr ⟨id, hflow⟩
  | checking pass flowId flow' =>
    simp only [hpc] at h
    split at h
    · rw [worker_goto_self] at h
      exact .inl h
    · rw [worker_goto_self] at h
      cases h
  | building pass flowId flow' =>
    simp only [hpc] at h
    rcases build_cases c d s w pass flowId flow' (input.turn (pass.served - 1)) with
      ⟨-, hbuild⟩ | ⟨_, _, hbuild, -⟩ | ⟨_, _, _, hbuild, -⟩
    · rw [hbuild, hpc] at h
      exact .inl h
    · rw [hbuild, worker_goto_self] at h
      cases h
    · rw [hbuild, worker_goto_self] at h
      cases h
  | transmitting pass =>
    simp only [hpc, transmit, worker_goto_self] at h
    cases h

theorem Allocated.step (h : s.Allocated) (a : Act workers) :
    (s.step inetAton d cfg a).Allocated := by
  cases a with
  | request request =>
    simp only [Threads.step]
    split
    · have hscheduler := (s.accept_cases request).1
      refine ⟨hscheduler ▸ h.table, fun w flow hflow => ?_⟩
      rw [worker_accept] at hflow
      rw [hscheduler]
      exact h.held w flow hflow
    · exact h
  | serve clock =>
    simp only [Threads.step]
    have hgrown : (s.serve inetAton d clock).scheduler.Allocated ∧
        s.scheduler.objects.length ≤ (s.serve inetAton d clock).scheduler.objects.length := by
      rcases s.serve_cases inetAton d clock with heq | ⟨hscheduler, -⟩ |
        ⟨_, _, _, _, _, hscheduler, -⟩ | ⟨id, _, -, hscheduler, -⟩ | ⟨id, _, -, hscheduler, -⟩
      · rw [heq]
        exact ⟨h.table, Nat.le_refl _⟩
      · rw [hscheduler]
        exact ⟨h.table, Nat.le_refl _⟩
      · rw [hscheduler]
        exact h.table.addFlow d _ _
      · rw [hscheduler]
        exact (h.table.startFlow id _ _).imp_right fun h => h.ge
      · rw [hscheduler]
        have hquieter := FlowObjects.Quieter.stopFlow s.scheduler id
        exact ⟨h.table.quieter hquieter, hquieter.length.ge⟩
    refine ⟨hgrown.1, fun w flow hflow => ?_⟩
    rw [worker_serve] at hflow
    exact Nat.lt_of_lt_of_le (h.held w flow hflow) hgrown.2
  | work w input =>
    have hworked := WorkedBy.work (cfg w) d s w input
    refine ⟨h.table.quieter hworked.scheduler, fun w' flow hflow => ?_⟩
    simp only [Threads.step] at hflow ⊢
    rw [hworked.scheduler.length]
    by_cases hw : w' = w
    · subst hw
      rcases held_work _ _ _ _ _ hflow with hheld | ⟨id, hid⟩
      · exact h.held w' flow hheld
      · exact h.table id flow hid
    · rw [hworked.worker w' hw] at hflow
      exact h.held w' flow hflow
  | receive key tcpHdr payloadLen nowNs =>
    have hquieter := FlowObjects.Quieter.handleTcpRx s.scheduler key tcpHdr payloadLen nowNs
    refine ⟨h.table.quieter hquieter, fun w flow hflow => ?_⟩
    simp only [Threads.step] at hflow ⊢
    rw [hquieter.length]
    exact h.held w flow hflow

theorem allocated_of_initial (hs : s.Initial) : s.Allocated := by
  obtain ⟨⟨srcMac, hnew⟩, -, hpolling⟩ := hs
  refine ⟨fun id flow hid => ?_, fun w flow hflow => ?_⟩
  · rw [hnew] at hid
    cases (AList.lookup_empty id).symm.trans hid
  · rw [hpolling w] at hflow
    cases hflow

theorem allocated_of_reachable (h : Reachable inetAton d cfg s) : s.Allocated :=
  h.induct (fun _ => allocated_of_initial) fun _ a h => h.step a

/-! ## The end of a pass -/

/-- A turn of a worker in a pass brings its end nearer. -/
theorem turnsLeft_work (h : s.Allocated) (hpc : s.worker w ≠ .polling) (c : WorkerConfig) (d : Dpdk)
    (input : Worker.PassInput) :
    ((s.work c d w input).worker w).turnsLeft < (s.worker w).turnsLeft := by
  rw [work]
  cases hpc' : s.worker w with
  | polling => exact absurd hpc' hpc
  | looking pass =>
    simp only
    rcases look_cases c s w pass with hlook | ⟨id, ready, hready, hlook | ⟨flow, -, hlook⟩⟩
    · rw [hlook, worker_goto_self]
      simp only [PassPc.turnsLeft]
      omega
    · rw [hlook, worker_goto_self]
      simp only [PassPc.turnsLeft, PassLocals.advance, hready, List.length_cons]
      omega
    · rw [hlook, worker_goto_self]
      simp only [PassPc.turnsLeft, PassLocals.advance, hready, List.length_cons]
      omega
  | checking pass flowId flow =>
    simp only
    split
    all_goals
      rw [worker_goto_self]
      simp only [PassPc.turnsLeft]
      omega
  | building pass flowId flow =>
    simp only
    rcases build_cases c d s w pass flowId flow (input.turn (pass.served - 1)) with
      ⟨hnone, -⟩ | ⟨_, pass', hbuild, hready, -⟩ | ⟨_, pass', _, hbuild, hready, -⟩
    · -- the flow is there, even when the table has dropped it
      have hlt := h.held w flow (by rw [hpc']; rfl)
      rw [FlowObjects.deref, List.getElem?_eq_none_iff] at hnone
      exact absurd hlt (Nat.not_lt.mpr hnone)
    · rw [hbuild, worker_goto_self]
      simp only [PassPc.turnsLeft, hready]
      omega
    · rw [hbuild, worker_goto_self]
      simp only [PassPc.turnsLeft, hready]
      omega
  | transmitting pass =>
    simp only [transmit, worker_goto_self, PassPc.turnsLeft]
    omega

/-- A whole burst, and the turns before and after it. -/
def passTurns (c : WorkerConfig) : Nat := 3 * max c.txBurstSize.toNat 1 + 2

/-- The worker `w` is in no pass that is longer than that. -/
def Bounded (cfg : Fin workers → WorkerConfig) (s : Threads r workers) : Prop :=
  ∀ w, (s.worker w).turnsLeft ≤ passTurns (cfg w)

theorem turnsLeft_poll (s : Threads r workers) (w : Fin workers) (hpc : s.worker w = .polling)
    (c : WorkerConfig) (d : Dpdk) (input : Worker.PassInput) :
    ((s.work c d w input).worker w).turnsLeft ≤ passTurns c := by
  have hready := s.scheduler.length_getReadyFlows_le c.txBurstSize.toUInt32 input.order input.nowNs
    input.bucketNowNs
  rw [UInt16.toNat_toUInt32] at hready
  simp only [work, hpc, poll]
  split
  · simp only [hpc, PassPc.turnsLeft, Nat.zero_le]
  · simp only [worker_goto_self, PassPc.turnsLeft, PassLocals.start, passTurns]
    omega

theorem Bounded.step (hbounded : s.Bounded cfg) (h : s.Allocated) (a : Act workers) :
    (s.step inetAton d cfg a).Bounded cfg := by
  intro w
  cases ha : a.isTurnOf w with
  | false =>
    rw [worker_step_of_ne ha]
    exact hbounded w
  | true =>
    obtain ⟨input, rfl⟩ := Act.eq_work ha
    by_cases hpc : s.worker w = .polling
    · exact s.turnsLeft_poll w hpc (cfg w) d input
    · exact (turnsLeft_work h hpc (cfg w) d input).le.trans (hbounded w)

theorem bounded_of_reachable (h : Reachable inetAton d cfg s) : s.Bounded cfg := by
  refine (h.induct (P := fun s => s.Allocated ∧ s.Bounded cfg) (fun s hs => ?_)
    fun _ a h => ⟨h.1.step a, h.2.step h.1 a⟩).2
  refine ⟨allocated_of_initial hs, fun w => ?_⟩
  rw [hs.2.2 w]
  exact Nat.zero_le _

/-! ## Rest -/

variable (inetAton d cfg)

/-- With all flows stopped, each of its turns brings a worker nearer to rest, or leaves it there. -/
theorem turnsLeft_step (hcalm : s.Calm) (h : s.Allocated) (a : Act workers) (w : Fin workers) :
    ((s.step inetAton d cfg a).worker w).turnsLeft ≤
      (s.worker w).turnsLeft - if a.isTurnOf w then 1 else 0 := by
  cases ha : a.isTurnOf w with
  | false => rw [worker_step_of_ne ha, if_neg Bool.false_ne_true, Nat.sub_zero]
  | true =>
    obtain ⟨input, rfl⟩ := Act.eq_work ha
    rw [if_pos rfl]
    by_cases hpc : s.worker w = .polling
    · have hnone : s.poll (cfg w) w input = s := hcalm.poll (cfg w) w input
      simp only [Threads.step, work, hpc, hnone, PassPc.turnsLeft, Nat.zero_le]
    · exact Nat.le_sub_one_of_lt (turnsLeft_work h hpc (cfg w) d input)

theorem turnsLeft_run (hcalm : s.Calm) (h : s.Allocated) {acts : List (Act workers)}
    (hacts : ∀ a ∈ acts, a.starts = false) (w : Fin workers) :
    ((Run.run (step inetAton d cfg) s acts).worker w).turnsLeft ≤
      (s.worker w).turnsLeft - acts.countP (·.isTurnOf w) := by
  induction acts generalizing s with
  | nil => exact Nat.le_refl _
  | cons a acts ih =>
    have hstep := turnsLeft_step inetAton d cfg hcalm h a w
    have hnext : (s.step inetAton d cfg a).Calm := (hcalm.step (hacts a List.mem_cons_self)).1
    have hrun := ih hnext (h.step a) fun b hb => hacts b (List.mem_cons_of_mem a hb)
    rw [Run.run_cons, List.countP_cons]
    omega

variable {inetAton d cfg}

/-- **Workers come to rest.** Once `StopTraffic` has gone through its flows, and until traffic is
    started again, a worker that has had the turns of one whole burst is done with its pass, whatever
    the other threads do, and stays so. -/
theorem drained (h : Reachable inetAton d cfg s) (hstopped : s.serving = .stopTraffic [])
    {acts : List (Act workers)} (hacts : ∀ a ∈ acts, a.starts = false) (w : Fin workers)
    (hturns : passTurns (cfg w) ≤ acts.countP (·.isTurnOf w)) :
    (Run.run (step inetAton d cfg) s acts).worker w = .polling := by
  have hrun := turnsLeft_run inetAton d cfg (calm_of_reachable h hstopped)
    (allocated_of_reachable h) hacts w
  have hbounded := bounded_of_reachable h w
  exact PassPc.eq_polling (by omega)

/-- A worker about to build a packet when the flows are stopped has 98 turns. -/
theorem drained_stopped :
    (Run.run (step Server.sampleAton .reference fun _ => .sample) stopped
      (List.replicate 98 Act.pass)).worker 0 = .polling :=
  drained reachable_stopped serving_stopped
    (fun a ha => by rw [List.eq_of_mem_replicate ha]; rfl) 0 (by decide +kernel)

end Threads

end TrafficGen
