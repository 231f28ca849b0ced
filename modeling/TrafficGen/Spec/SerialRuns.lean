import TrafficGen.Control.Threads
import TrafficGen.ForStd.Simulation
import TrafficGen.Spec.FlowPointers
import TrafficGen.Spec.UnheardSegments

/-!
# Runs in which the threads do not overlap

A run of `System` carries out every request and every pass in one step. The threads can do the same,
turn by turn: the turns of a request or of a pass, with none of another thread in between, lead to
the same flows, mbufs and statistics, and hand the NIC the same packets.

## Key results

- `InPass.serveFlows`: the turns of the loop of `process_flows` build what the loop does
- `Serial.processFlows`: so do those of a whole pass, and the NIC takes the same packets
- `exists_serial_run`: every run of `System` is a run of the threads
-/

namespace TrafficGen.Threads

variable {r : Rng} {workers : Nat} {inetAton : String → Option UInt32} {d : Dpdk}
  {cfg : Fin workers → WorkerConfig} {t : Threads r workers} {sys : System} {w : Fin workers}
  {input : Worker.PassInput}

/-! ## Passes -/

/-- Worker `w` is in a pass, the others are between theirs, and no request is being served. `p` is
    the pass, and `sys` the generator at its start. -/
structure InPass (w : Fin workers) (pass : PassLocals r) (t : Threads r workers) (sys : System)
    (p : Pass r) : Prop where
  scheduler : t.scheduler.Represents p.scheduler
  heap : t.heap = p.heap
  imixEngine : t.imixEngine = sys.imixEngine
  metricsCollector : t.metricsCollector = sys.metricsCollector
  serving : t.serving = .nothing
  others : ∀ w', w' ≠ w → t.worker w' = .polling
  mutator : pass.mutator = p.mutator
  mbufs : pass.mbufs = p.mbufs
  mbufCount : pass.mbufCount = p.mbufCount
  built : pass.built = p.built

/-- Some turns lead from `t` to `t'`, and hand nothing over. -/
abbrev LeadsSilently (inetAton : String → Option UInt32) (d : Dpdk)
    (cfg : Fin workers → WorkerConfig) (t t' : Threads r workers) : Prop :=
  Run.Leads (step inetAton d cfg) (outcomes cfg) t [] t'

/-- A turn of a worker that is not handing over its burst. -/
theorem LeadsSilently.work {t' : Threads r workers} (input : Worker.PassInput)
    (hpc : ∀ pass, t.worker w ≠ .transmitting pass) (hwork : t.work (cfg w) d w input = t') :
    LeadsSilently inetAton d cfg t t' := by
  subst hwork
  refine Run.Leads.cons (a := .work w input) ?_ (.refl _ _ _)
  rw [outcomes]
  split
  · next pass hpass => exact absurd hpass (hpc pass)
  · rfl

namespace InPass

variable {pass : PassLocals r} {p : Pass r}

theorem goto (h : InPass w pass t sys p) (pc : PassPc r) : InPass w pass (t.goto w pc) sys p where
  scheduler := h.scheduler
  heap := h.heap
  imixEngine := h.imixEngine
  metricsCollector := h.metricsCollector
  serving := h.serving
  others w' hw' := (t.worker_goto_ne pc hw').trans (h.others w' hw')
  mutator := h.mutator
  mbufs := h.mbufs
  mbufCount := h.mbufCount
  built := h.built

theorem allocateSlot_eq (turn : Turn) (p : Pass r) : ∃ handedOut,
    Worker.allocateSlot turn p = ((allocateBurst turn.alloc p.mbufs p.mbufCount).1, { p with
      heap := drawn p.heap turn.alloc
      mbufs := (allocateBurst turn.alloc p.mbufs p.mbufCount).2
      handedOut := handedOut }) := by
  rw [Worker.allocateSlot]
  cases turn.alloc with
  | filled m => exact ⟨_, rfl⟩
  | failed errno => exact ⟨_, rfl⟩

/-- A packet is built of a flow seen active, or not, as in one round of the loop. -/
theorem build (cfg : Fin workers → WorkerConfig) (d : Dpdk) (h : InPass w pass t sys p)
    {flowId : UInt32} {flow : FlowPtr} {f : FlowConfigInternal}
    (hfind : t.scheduler.find flowId = some (flow, f))
    (hactive : f.active = true) (turn : Turn) :
    ∃ pass', (t.build (cfg w) d w pass flowId flow turn).worker w = .looking pass' ∧
      pass'.readyFlows = pass.readyFlows ∧ pass'.served = pass.served ∧
      InPass w pass' (t.build (cfg w) d w pass flowId flow turn) sys
        (Worker.serveFlow (cfg w) d sys.imixEngine flowId turn p) := by
  have hp : p.scheduler.getFlow flowId = some f := by
    rw [← h.scheduler.flows, hfind, Option.map_some]
  have hderef := (FlowObjects.find_eq_some.mp hfind).2
  obtain ⟨handedOut, hslot⟩ := allocateSlot_eq turn p
  simp only [Threads.build, Worker.serveFlow, hderef, hp, hactive, Bool.not_true,
    Bool.false_eq_true, if_false, hslot, h.mbufs, h.mbufCount, h.mutator, h.heap, h.imixEngine]
  generalize allocateBurst turn.alloc p.mbufs p.mbufCount = res
  obtain ⟨allocated, mbufs⟩ := res
  dsimp only
  have hslot : InPass w { pass with mutator := p.mutator, mbufs, mbufCount := p.mbufCount }
      { t with heap := drawn p.heap turn.alloc, imixEngine := sys.imixEngine } sys
      { p with heap := drawn p.heap turn.alloc, mbufs, handedOut } :=
    { scheduler := h.scheduler
      heap := rfl
      imixEngine := rfl
      metricsCollector := h.metricsCollector
      serving := h.serving
      others := h.others
      mutator := rfl
      mbufs := rfl
      mbufCount := rfl
      built := h.built }
  by_cases hzero : allocated = 0
  · -- `allocate_burst` answers 0, as it does when it has filled the slot
    simp only [hzero, if_true]
    exact ⟨_, worker_goto_self _ _ _, rfl, rfl, hslot.goto _⟩
  · simp only [hzero, if_false]
    cases mbufs.getD p.mbufCount none with
    | none =>
      -- no earlier round has left a pointer in the slot
      exact ⟨_, worker_goto_self _ _ _, rfl, rfl, hslot.goto _⟩
    | some m =>
      simp only [Worker.buildPacket]
      generalize p.mutator.cloneAndMutate d (drawn p.heap turn.alloc m) { f.templatePacket with
        totalSize := Worker.choosePacketSize f sys.imixEngine turn.imixDraw } 0 true = res
      obtain ⟨ok, mb, mutator⟩ := res
      cases ok with
      | true =>
        simp only [if_true]
        refine ⟨_, worker_goto_self _ _ _, rfl, rfl, InPass.goto ?_ _⟩
        exact
          { scheduler := h.scheduler.store hfind _
            heap := rfl
            imixEngine := rfl
            metricsCollector := h.metricsCollector
            serving := h.serving
            others := h.others
            mutator := rfl
            mbufs := rfl
            mbufCount := rfl
            built := by rw [h.built] }
      | false =>
        -- cloning fails, and the mbuf is freed
        simp only [Bool.false_eq_true, if_false]
        refine ⟨_, worker_goto_self _ _ _, rfl, rfl, InPass.goto ?_ _⟩
        exact
          { scheduler := h.scheduler
            heap := rfl
            imixEngine := rfl
            metricsCollector := h.metricsCollector
            serving := h.serving
            others := h.others
            mutator := rfl
            mbufs := rfl
            mbufCount := rfl
            built := h.built }

/-- The turns of one round of the loop. -/
theorem serveFlow (h : InPass w pass t sys p) (inetAton : String → Option UInt32) (d : Dpdk)
    (cfg : Fin workers → WorkerConfig) (hpc : t.worker w = .looking pass)
    {flowId : UInt32} {ready : List UInt32} (hready : pass.readyFlows = flowId :: ready)
    (hroom : p.mbufCount < (cfg w).txBurstSize.toNat) (input : Worker.PassInput) :
    ∃ t' pass', LeadsSilently inetAton d cfg t t' ∧ t'.worker w = .looking pass' ∧
      pass'.readyFlows = ready ∧ pass'.served = pass.served + 1 ∧
      InPass w pass' t' sys
        (Worker.serveFlow (cfg w) d sys.imixEngine flowId (input.turn pass.served) p) := by
  have hfull : ¬ pass.mbufCount ≥ (cfg w).txBurstSize.toNat := by
    rw [h.mbufCount]
    exact Nat.not_le.mpr hroom
  have htaken : InPass w (pass.advance ready) t sys p :=
    ⟨h.scheduler, h.heap, h.imixEngine, h.metricsCollector, h.serving, h.others, h.mutator,
      h.mbufs, h.mbufCount, h.built⟩
  have hready₁ : (pass.advance ready).readyFlows = ready := rfl
  have hserved₁ : (pass.advance ready).served = pass.served + 1 := rfl
  have hlook : t.work (cfg w) d w input = (t.scheduler.getFlow flowId).elim
      (t.goto w (.looking (pass.advance ready)))
      fun flow => t.goto w (.checking (pass.advance ready) flowId flow) := by
    simp only [work, hpc, look, hready, hfull, if_false]
    cases t.scheduler.getFlow flowId <;> rfl
  generalize pass.advance ready = pass₁ at htaken hready₁ hserved₁ hlook
  rcases h.scheduler.cases flowId with ⟨-, hnone, hp⟩ | ⟨flow, f, hfind, hp⟩
  · -- the table has no such flow
    rw [hnone, Option.elim_none] at hlook
    simp only [Worker.serveFlow, hp]
    exact ⟨_, pass₁, .work input (by simp [hpc]) hlook, worker_goto_self _ _ _, hready₁, hserved₁,
      htaken.goto _⟩
  · obtain ⟨hflow, hderef⟩ := FlowObjects.find_eq_some.mp hfind
    rw [hflow, Option.elim_some] at hlook
    have hlooked : LeadsSilently inetAton d cfg t _ := .work input (by simp [hpc]) hlook
    have hchecking := htaken.goto (.checking pass₁ flowId flow)
    have hcheck : (t.goto w (.checking pass₁ flowId flow)).work (cfg w) d w input =
        (t.goto w (.checking pass₁ flowId flow)).goto w
          (if f.active then .building pass₁ flowId flow else .looking pass₁) := by
      simp only [work, worker_goto_self, scheduler_goto, hderef, Option.any_some]
      split <;> rfl
    have hchecked : LeadsSilently inetAton d cfg t _ :=
      hlooked.trans (LeadsSilently.work input (by simp) hcheck)
    cases hactive : f.active with
    | false =>
      -- stopped since it was found ready
      rw [hactive] at hchecked
      simp only [Worker.serveFlow, hp, hactive, Bool.not_false, if_true]
      exact ⟨_, pass₁, hchecked, worker_goto_self _ _ _, hready₁, hserved₁, hchecking.goto _⟩
    | true =>
      rw [hactive, if_pos rfl] at hchecked
      -- nothing has happened since `find`, so the pointer still leads to `f`
      have hbuilding := hchecking.goto (.building pass₁ flowId flow)
      have hpc₂ := (t.goto w (.checking pass₁ flowId flow)).worker_goto_self w
        (.building pass₁ flowId flow)
      generalize ht₂ : (t.goto w (.checking pass₁ flowId flow)).goto w
        (.building pass₁ flowId flow) = t₂ at hchecked hbuilding hpc₂
      have hfind₂ : t₂.scheduler.find flowId = some (flow, f) := ht₂ ▸ hfind
      obtain ⟨pass', hpass', hready', hserved', hbuilt⟩ :=
        hbuilding.build cfg d hfind₂ hactive (input.turn pass.served)
      have hbuild : t₂.work (cfg w) d w input =
          t₂.build (cfg w) d w pass₁ flowId flow (input.turn pass.served) := by
        simp only [work, hpc₂, hserved₁, Nat.add_sub_cancel]
      exact ⟨_, pass', hchecked.trans (LeadsSilently.work input (by simp [hpc₂]) hbuild), hpass',
        hready'.trans hready₁, hserved'.trans hserved₁, hbuilt⟩

/-- The turns of the loop, up to the burst. -/
theorem serveFlows (h : InPass w pass t sys p) (inetAton : String → Option UInt32) (d : Dpdk)
    (cfg : Fin workers → WorkerConfig) (hpc : t.worker w = .looking pass) (input : Worker.PassInput) :
    ∃ t' pass', LeadsSilently inetAton d cfg t t' ∧ t'.worker w = .transmitting pass' ∧
      InPass w pass' t' sys (Worker.serveFlows (cfg w) d sys.imixEngine
        (pass.readyFlows.mapIdx fun i id => (id, input.turn (pass.served + i))) p) := by
  generalize hready : pass.readyFlows = ready
  induction ready generalizing t pass p with
  | nil =>
    have hlook : t.work (cfg w) d w input = t.goto w (.transmitting pass) := by
      simp only [work, hpc, look, hready]
    exact ⟨_, pass, .work input (by simp [hpc]) hlook, worker_goto_self _ _ _, h.goto _⟩
  | cons flowId ready ih =>
    rw [List.mapIdx_cons, Worker.serveFlows]
    split
    · next hfull =>
      -- the burst is full
      have hlook : t.work (cfg w) d w input = t.goto w (.transmitting pass) := by
        rw [← h.mbufCount] at hfull
        simp only [work, hpc, look, hready, hfull, if_true]
      exact ⟨_, pass, .work input (by simp [hpc]) hlook, worker_goto_self _ _ _, h.goto _⟩
    · next hroom =>
      obtain ⟨t₁, pass₁, hlead, hpc₁, hready₁, hserved₁, h₁⟩ :=
        h.serveFlow inetAton d cfg hpc hready (Nat.not_le.mp hroom) input
      obtain ⟨t', pass', hleads, hpc', h'⟩ := ih h₁ hpc₁ hready₁
      refine ⟨t', pass', hlead.trans hleads, hpc', ?_⟩
      simpa only [hserved₁, Nat.add_zero, Nat.add_assoc, Nat.add_comm 1] using h'

end InPass

/-- The threads hold what `sys` holds, all workers are between their passes, and the server is at
    `serving`. -/
structure Serial (serving : Serving) (t : Threads r workers) (sys : System) : Prop where
  scheduler : t.scheduler.Represents sys.scheduler
  imixEngine : t.imixEngine = sys.imixEngine
  metricsCollector : t.metricsCollector = sys.metricsCollector
  heap : t.heap = sys.heap
  serving : t.serving = serving
  worker : ∀ w, t.worker w = .polling

/-- The turns of a whole pass. -/
theorem Serial.processFlows (h : Serial .nothing t sys) (inetAton : String → Option UInt32)
    (d : Dpdk) (cfg : Fin workers → WorkerConfig) (w : Fin workers) {input : Worker.PassInput}
    (horder : ∀ id ∈ sys.scheduler.flows.keys, id ∈ input.order) :
    ∃ t', Run.Leads (step inetAton d cfg) (outcomes cfg) t
        (Worker.processFlows (cfg w) d r sys input).2.outcomes t' ∧
      Serial .nothing t' (Worker.processFlows (cfg w) d r sys input).1 := by
  obtain ⟨hready, hscheduler⟩ := h.scheduler.getReadyFlows horder (cfg w).txBurstSize.toUInt32
    input.nowNs input.bucketNowNs
  have hpoll : t.work (cfg w) d w input = t.poll (cfg w) w input := by
    simp only [work, h.worker w]
  have hidle : ∀ pass, t.worker w ≠ .transmitting pass := by simp [h.worker w]
  simp only [poll, hready] at hpoll
  simp only [Worker.processFlows]
  generalize (t.scheduler.getReadyFlows (cfg w).txBurstSize.toUInt32 input.order input.nowNs
    input.bucketNowNs).2 = flows at hscheduler hpoll
  generalize sys.scheduler.getReadyFlows (cfg w).txBurstSize.toUInt32 input.order input.nowNs
    input.bucketNowNs = res at hscheduler hpoll
  obtain ⟨ready, scheduler⟩ := res
  -- one poll, the turns of the loop, and the turn that hands the burst over
  dsimp only at hscheduler hpoll ⊢
  split
  · next hnone =>
    rw [if_pos hnone] at hpoll
    exact ⟨_, LeadsSilently.work input hidle hpoll,
      ⟨hscheduler, h.imixEngine, h.metricsCollector, h.heap, h.serving, h.worker⟩⟩
  · next hsome =>
    rw [if_neg hsome] at hpoll
    have hpolled : LeadsSilently inetAton d cfg t _ := .work input hidle hpoll
    have hstart : InPass w (.start (cfg w) r ready input.time) { t with scheduler := flows } sys
        (Worker.startPass (cfg w) r { sys with scheduler := scheduler } input.time) :=
      ⟨hscheduler, h.heap, h.imixEngine, h.metricsCollector, h.serving, fun w' _ => h.worker w',
        rfl, rfl, rfl, rfl⟩
    obtain ⟨t', pass', hlead, hpc, hpass⟩ := (hstart.goto _).serveFlows inetAton d cfg
      (worker_goto_self _ w (.looking (.start (cfg w) r ready input.time))) input
    have hserved : (PassLocals.start (cfg w) r ready input.time).served = 0 := rfl
    have hturns : (PassLocals.start (cfg w) r ready input.time).readyFlows = ready := rfl
    simp only [hserved, hturns, Nat.zero_add] at hpass
    have houtcomes : t'.outcomes cfg (.work w input) = (Worker.sendReady (cfg w) d r
        { sys with scheduler := scheduler } input.time
        (ready.mapIdx fun i id => (id, input.turn i)) input.tx).2.outcomes := by
      simp only [outcomes, hpc, PassReport.outcomes, Worker.sendReady, hpass.heap,
        hpass.metricsCollector, hpass.mbufs, hpass.mbufCount, hpass.built]
      rfl
    have hsend := Run.Leads.one (step inetAton d cfg) (outcomes cfg) t' (.work w input)
    rw [houtcomes] at hsend
    refine ⟨_, hpolled.trans (hlead.trans hsend), ?_⟩
    have htransmit : t'.work (cfg w) d w input = t'.transmit (cfg w) w pass' input.tx := by
      simp only [work, hpc]
    simp only [step, htransmit, transmit, hpass.heap, hpass.metricsCollector, hpass.mbufs,
      hpass.mbufCount, Worker.sendReady]
    exact
      { scheduler := hpass.scheduler
        imixEngine := hpass.imixEngine
        metricsCollector := rfl
        heap := rfl
        serving := hpass.serving
        worker := fun w' => by
          by_cases hw : w' = w
          · rw [hw, worker_goto_self]
          · exact (worker_goto_ne _ _ hw).trans (hpass.others w' hw) }

/-- The worker of a pass. -/
def passConfig : System.Event → Option WorkerConfig
  | .workerPass c _ => some c
  | _ => none

/-- A pass is of one of the workers there are, and the walks of the event name every flow of the
    table. -/
def Placed (cfg : Fin workers → WorkerConfig) (sys : System) (e : System.Event) : Prop :=
  e.Walks sys ∧ ∀ c ∈ passConfig e, ∃ w, cfg w = c

instance (cfg : Fin workers → WorkerConfig) (sys : System) (e : System.Event) :
    Decidable (Placed cfg sys e) :=
  inferInstanceAs (Decidable (_ ∧ _))

/-! ## Requests -/

/-- A turn of the server. -/
theorem LeadsSilently.serve {t' : Threads r workers} (cfg : Fin workers → WorkerConfig)
    (clock : Server.StartClock) (h : t.serve inetAton d clock = t') :
    LeadsSilently inetAton d cfg t t' :=
  h ▸ Run.Leads.one _ (outcomes cfg) t (.serve clock)

/-- A request gets the mutex. -/
theorem LeadsSilently.request (inetAton : String → Option UInt32) (d : Dpdk)
    (cfg : Fin workers → WorkerConfig) (request : Request) (hidle : t.serving = .nothing) :
    LeadsSilently inetAton d cfg t (t.accept request) := by
  have hone := Run.Leads.one (step inetAton d cfg) (outcomes cfg) t (.request request)
  simp only [step, hidle] at hone
  exact hone

namespace Serial

variable (inetAton d cfg)

/-- The turns of the loop of `ConfigureFlows`. -/
theorem addFlows {stateless : Bool} {flows : List Flow} (res : Server.AddResult) (k : Nat)
    (nowNs : Nat → UInt64) (h : Serial (.configureFlows stateless flows res.allSuccess
      res.errorMessage) t { sys with scheduler := res.scheduler }) :
    let res' := (flows.zipIdx k).foldl (fun res (flow, i) =>
      Server.addFlow inetAton d stateless res flow (nowNs i)) res
    ∃ t', LeadsSilently inetAton d cfg t t' ∧
      Serial (.configureFlows stateless [] res'.allSuccess res'.errorMessage) t'
        { sys with scheduler := res'.scheduler } := by
  induction flows generalizing t res k with
  | nil => exact ⟨t, .refl _ _ _, h⟩
  | cons flow flows ih =>
    obtain ⟨hadded, hscheduler⟩ := h.scheduler.addFlow d
      (Server.internalConfig inetAton stateless flow) (nowNs k)
    dsimp only at hadded hscheduler
    have hadd : (Server.addFlow inetAton d stateless res flow (nowNs k)).scheduler =
        (res.scheduler.addFlow d (Server.internalConfig inetAton stateless flow) (nowNs k)).2 := by
      simp only [Server.addFlow]
      split <;> rfl
    rw [← hadd] at hscheduler
    have hserve : t.serve inetAton d ⟨nowNs k, 0⟩ = { t with
        scheduler := (t.scheduler.addFlow d (Server.internalConfig inetAton stateless flow)
          (nowNs k)).2
        serving := .configureFlows stateless flows
          (Server.addFlow inetAton d stateless res flow (nowNs k)).allSuccess
          (Server.addFlow inetAton d stateless res flow (nowNs k)).errorMessage } := by
      simp only [Threads.serve, h.serving, Server.addFlow, hadded]
      split <;> rfl
    have hnext : Serial (.configureFlows stateless flows
        (Server.addFlow inetAton d stateless res flow (nowNs k)).allSuccess
        (Server.addFlow inetAton d stateless res flow (nowNs k)).errorMessage)
        (t.serve inetAton d ⟨nowNs k, 0⟩)
        { sys with scheduler := (Server.addFlow inetAton d stateless res flow
          (nowNs k)).scheduler } := by
      rw [hserve]
      exact ⟨hscheduler, h.imixEngine, h.metricsCollector, h.heap, rfl, h.worker⟩
    obtain ⟨t', hlead, ht'⟩ := ih _ (k + 1) hnext
    rw [List.zipIdx_cons, List.foldl_cons]
    exact ⟨t', (LeadsSilently.serve cfg ⟨nowNs k, 0⟩ rfl).trans hlead, ht'⟩

/-- The turns of the loop of `StartTraffic`. -/
theorem startFlows {ids : List UInt32} (clock : UInt32 → Server.StartClock)
    (h : Serial (.startTraffic ids) t sys) :
    ∃ t', LeadsSilently inetAton d cfg t t' ∧ Serial (.startTraffic []) t' { sys with
      scheduler := ids.foldl (fun s id =>
        (s.startFlow id (clock id).nowNs (clock id).bucketNowNs).2) sys.scheduler } := by
  induction ids generalizing t sys with
  | nil => exact ⟨t, .refl _ _ _, h⟩
  | cons id ids ih =>
    have hserve : t.serve inetAton d (clock id) = { t with
        scheduler := (t.scheduler.startFlow id (clock id).nowNs (clock id).bucketNowNs).2
        serving := .startTraffic ids } := by
      simp only [Threads.serve, h.serving]
    have hnext : Serial (.startTraffic ids) { t with
        scheduler := (t.scheduler.startFlow id (clock id).nowNs (clock id).bucketNowNs).2
        serving := .startTraffic ids } { sys with
        scheduler := (sys.scheduler.startFlow id (clock id).nowNs (clock id).bucketNowNs).2 } :=
      ⟨h.scheduler.startFlow id _ _, h.imixEngine, h.metricsCollector, h.heap, rfl, h.worker⟩
    obtain ⟨t', hlead, ht'⟩ := ih hnext
    exact ⟨t', (LeadsSilently.serve cfg (clock id) hserve).trans hlead, ht'⟩

/-- The turns of the loop of `StopTraffic`. -/
theorem stopFlows {ids : List UInt32} (h : Serial (.stopTraffic ids) t sys) :
    ∃ t', LeadsSilently inetAton d cfg t t' ∧ Serial (.stopTraffic []) t' { sys with
      scheduler := ids.foldl (fun s id => (s.stopFlow id).2) sys.scheduler } := by
  induction ids generalizing t sys with
  | nil => exact ⟨t, .refl _ _ _, h⟩
  | cons id ids ih =>
    have hserve : t.serve inetAton d ⟨0, 0⟩ = { t with
        scheduler := (t.scheduler.stopFlow id).2, serving := .stopTraffic ids } := by
      simp only [Threads.serve, h.serving]
    have hnext : Serial (.stopTraffic ids) { t with
        scheduler := (t.scheduler.stopFlow id).2, serving := .stopTraffic ids } { sys with
        scheduler := (sys.scheduler.stopFlow id).2 } :=
      ⟨h.scheduler.stopFlow id, h.imixEngine, h.metricsCollector, h.heap, rfl, h.worker⟩
    obtain ⟨t', hlead, ht'⟩ := ih hnext
    exact ⟨t', (LeadsSilently.serve cfg ⟨0, 0⟩ hserve).trans hlead, ht'⟩

theorem configureFlows (h : Serial .nothing t sys) (request : FlowConfig) (nowNs : Nat → UInt64) :
    ∃ t', LeadsSilently inetAton d cfg t t' ∧
      Serial .nothing t' (Server.configureFlows inetAton d sys request nowNs).2 := by
  have haccept : LeadsSilently inetAton d cfg t (t.accept (.configureFlows request)) :=
    .request inetAton d cfg _ h.serving
  have haccepted : Serial (.configureFlows request.stateless request.flows true "")
      (t.accept (.configureFlows request)) sys :=
    ⟨h.scheduler, h.imixEngine, h.metricsCollector, h.heap, rfl, h.worker⟩
  obtain ⟨t', hlead, ht'⟩ := addFlows inetAton d cfg { scheduler := sys.scheduler } 0 nowNs
    haccepted
  have hanswer : ∃ reply, t'.serve inetAton d ⟨0, 0⟩ = t'.answer reply := by
    simp only [Threads.serve, ht'.serving]
    split
    · exact ⟨_, rfl⟩
    · exact ⟨_, rfl⟩
  obtain ⟨reply, hanswer⟩ := hanswer
  refine ⟨_, (haccept.trans hlead).trans (LeadsSilently.serve cfg ⟨0, 0⟩ hanswer), ?_⟩
  simp only [Server.configureFlows]
  split
  all_goals exact
    ⟨ht'.scheduler, ht'.imixEngine, ht'.metricsCollector, ht'.heap, rfl, ht'.worker⟩

theorem configureIMIX (h : Serial .nothing t sys) (request : IMIXConfig) :
    ∃ t', LeadsSilently inetAton d cfg t t' ∧
      Serial .nothing t' (Server.configureIMIX sys request).2 := by
  refine ⟨_, .request inetAton d cfg (.configureIMIX request) h.serving, ?_⟩
  simp only [accept, Server.configureIMIX, h.imixEngine]
  split
  all_goals exact ⟨h.scheduler, rfl, h.metricsCollector, h.heap, rfl, h.worker⟩

theorem startTraffic (h : Serial .nothing t sys) (request : StartRequest) {order : List UInt32}
    (horder : ∀ id ∈ sys.scheduler.flows.keys, id ∈ order) (nowNs : UInt64)
    (clock : UInt32 → Server.StartClock) :
    ∃ t', LeadsSilently inetAton d cfg t t' ∧
      Serial .nothing t' (Server.startTraffic sys request order nowNs clock).2 := by
  generalize hmetrics : (if request.resetStats then sys.metricsCollector.resetAll nowNs
    else sys.metricsCollector) = metrics
  have haccept : LeadsSilently inetAton d cfg t (t.accept (.startTraffic request order nowNs)) :=
    .request inetAton d cfg _ h.serving
  have haccepted : ∃ reply, t.accept (.startTraffic request order nowNs) =
      if (FlowScheduler.walk order sys.scheduler.flows.keys).isEmpty then
        ({ t with metricsCollector := metrics } : Threads r workers).answer reply
      else { t with
        metricsCollector := metrics
        serving := .startTraffic (FlowScheduler.walk order sys.scheduler.flows.keys) } := by
    rw [← hmetrics, ← h.metricsCollector, ← h.scheduler.walk_eq horder]
    refine ⟨⟨false, "No flows configured to start", -2⟩, ?_⟩
    simp only [accept]
    cases request.resetStats <;> rfl
  obtain ⟨reply, haccepted⟩ := haccepted
  rw [haccepted] at haccept
  simp only [Server.startTraffic, hmetrics]
  split
  · next hnone =>
    rw [if_pos hnone] at haccept
    exact ⟨_, haccept, h.scheduler, h.imixEngine, rfl, h.heap, rfl, h.worker⟩
  · next hsome =>
    rw [if_neg hsome] at haccept
    have hstarting : Serial (.startTraffic (FlowScheduler.walk order sys.scheduler.flows.keys))
        { t with
          metricsCollector := metrics
          serving := .startTraffic (FlowScheduler.walk order sys.scheduler.flows.keys) }
        { sys with metricsCollector := metrics } :=
      ⟨h.scheduler, h.imixEngine, rfl, h.heap, rfl, h.worker⟩
    obtain ⟨t', hlead, ht'⟩ := startFlows inetAton d cfg clock hstarting
    have hanswer : t'.serve inetAton d ⟨0, 0⟩ = ({ t' with
        metricsCollector := t'.metricsCollector.setRunning true } : Threads r workers).answer
        ⟨true, "Traffic generation started", 0⟩ := by
      simp only [Threads.serve, ht'.serving]
    exact ⟨_, (haccept.trans hlead).trans (LeadsSilently.serve cfg ⟨0, 0⟩ hanswer), ht'.scheduler,
      ht'.imixEngine, congrArg (·.setRunning true) ht'.metricsCollector, ht'.heap, rfl, ht'.worker⟩

theorem stopTraffic (h : Serial .nothing t sys) {order : List UInt32}
    (horder : ∀ id ∈ sys.scheduler.flows.keys, id ∈ order) :
    ∃ t', LeadsSilently inetAton d cfg t t' ∧
      Serial .nothing t' (Server.stopTraffic sys order).2 := by
  have haccept : LeadsSilently inetAton d cfg t (t.accept (.stopTraffic order)) :=
    .request inetAton d cfg _ h.serving
  have haccepted : Serial (.stopTraffic (sys.scheduler.getActiveFlows order))
      (t.accept (.stopTraffic order)) sys := by
    rw [← h.scheduler.getActiveFlows horder]
    exact ⟨h.scheduler, h.imixEngine, h.metricsCollector, h.heap, rfl, h.worker⟩
  obtain ⟨t', hlead, ht'⟩ := stopFlows inetAton d cfg haccepted
  have hanswer : t'.serve inetAton d ⟨0, 0⟩ = ({ t' with
      metricsCollector := t'.metricsCollector.setRunning false } : Threads r workers).answer
      ⟨true, "Traffic generation stopped", 0⟩ := by
    simp only [Threads.serve, ht'.serving]
  exact ⟨_, (haccept.trans hlead).trans (LeadsSilently.serve cfg ⟨0, 0⟩ hanswer), ht'.scheduler,
    ht'.imixEngine, congrArg (·.setRunning false) ht'.metricsCollector, ht'.heap, rfl, ht'.worker⟩

/-- The turns of a request, or of a pass, and the segment received in one turn. -/
theorem simulates (inetAton : String → Option UInt32) (d : Dpdk) (r : Rng)
    (cfg : Fin workers → WorkerConfig) :
    Run.Simulates (step inetAton d cfg (r := r)) (outcomes cfg) (System.step inetAton d r)
      (System.outcomes d r) (Placed cfg) (Serial .nothing) := by
  rintro t sys e h ⟨horder, hplaced⟩
  cases e with
  | configureFlows request nowNs => exact h.configureFlows inetAton d cfg request nowNs
  | configureIMIX request => exact h.configureIMIX inetAton d cfg request
  | startTraffic request order nowNs clock =>
    exact h.startTraffic inetAton d cfg request horder nowNs clock
  | stopTraffic order => exact h.stopTraffic inetAton d cfg horder
  | workerPass c input =>
    obtain ⟨w, rfl⟩ := hplaced c rfl
    exact h.processFlows inetAton d cfg w horder
  | receive key tcpHdr payloadLen nowNs =>
    refine ⟨_, Run.Leads.one (step inetAton d cfg) (outcomes cfg) t
      (.receive key tcpHdr payloadLen nowNs), ?_⟩
    exact ⟨h.scheduler.handleTcpRx key tcpHdr payloadLen nowNs, h.imixEngine, h.metricsCollector,
      h.heap, h.serving, h.worker⟩

end Serial

/-- **Every run of the generator is a run of its threads.** Whatever requests, passes and received
    segments a run of `System` consists of, the threads have turns that hand the NIC the same
    packets, of which it takes the same, and leave the same flows, mbufs, IMIX profile and
    statistics. -/
theorem exists_serial_run (h : Serial .nothing t sys) {events : List System.Event}
    (hevents : Run.Each (System.step inetAton d r) (Placed cfg) sys events) :
    ∃ acts, Run.collect (step inetAton d cfg) (outcomes cfg) t acts =
        System.runOutcomes inetAton d r sys events ∧
      Serial .nothing (Run.run (step inetAton d cfg) t acts)
        (Run.run (System.step inetAton d r) sys events) := by
  obtain ⟨t', ⟨acts, hrun, hcollect⟩, ht'⟩ := (Serial.simulates inetAton d r cfg).run h hevents
  exact ⟨acts, hcollect, hrun ▸ ht'⟩

/-- A generator of one worker that has just been started. -/
def fresh : Threads .counting 1 where
  scheduler := .new []
  imixEngine := .new
  metricsCollector := .new 1 0
  heap := fun _ => .sample
  serving := .nothing
  reply := none
  worker := fun _ => .polling

theorem serial_fresh : Serial .nothing fresh System.fresh :=
  ⟨.new [], rfl, rfl, rfl, rfl, fun _ => rfl⟩

/-- Two flows are configured and started, and a pass sends a packet of one of them. -/
theorem exists_serial_run_opening :
    ∃ acts, Run.collect (step Server.sampleAton .reference fun _ => .sample)
        (outcomes fun _ => .sample) fresh acts =
      System.runOutcomes Server.sampleAton .reference .counting System.fresh
        (System.opening ++ [.passAt 1000000000 1]) :=
  have hplaced : Run.Each (System.step Server.sampleAton .reference .counting)
      (Placed fun _ : Fin 1 => .sample) System.fresh
      (System.opening ++ [.passAt 1000000000 1]) := by decide +kernel
  have hrun := exists_serial_run serial_fresh hplaced
  hrun.imp fun _ h => h.1

end TrafficGen.Threads
