import Mathlib.Algebra.Order.Group.Multiset
import TrafficGen.Spec.BurstPairing
import TrafficGen.Spec.ConnectionRuns
import TrafficGen.Spec.LatencySamples

/-!
# Where the mbufs of a pool end up

A pass makes a packet only of an mbuf it was given right before a call that failed, and a call fails
when the pool is empty. So no pass builds more than one packet, and the pass that builds the first
one has taken every mbuf there was and lost all but that one. The mbufs that neither the pool nor
the NIC has are lost for good: no code of the generator has a pointer to them. A pass is one step,
so passes of different workers do not overlap.

## Key results

- `built_processFlows`: a pass builds at most one packet, and then the pool is empty
- `Custody.total_run`: the pool, the NIC and the lost mbufs are always all there are
- `Custody.exhausted_before_sending`: before the first packet all mbufs are lost but one and those
  the NIC has
-/

namespace TrafficGen

variable {r : Rng}

/-! ## Passes -/

/-- A pool in which the mbufs of `free` are can answer so: it hands out one of them, and fails when
    there is none. -/
def AllocResult.FromPool (free : Multiset MbufId) : AllocResult → Prop
  | .filled m => m ∈ free
  | .failed _ => free = 0

instance (free : Multiset MbufId) : ∀ answer, Decidable (AllocResult.FromPool free answer)
  | .filled m => inferInstanceAs (Decidable (m ∈ free))
  | .failed _ => inferInstanceAs (Decidable (free = 0))

/-- The mbufs in the pool during a pass that began with those of `free` in it. -/
def Pass.inPool (free : Multiset MbufId) (p : Pass r) : Multiset MbufId :=
  free + p.freed - p.handedOut

namespace Worker

variable (cfg : WorkerConfig) (d : Dpdk) (imix : IMIXEngine) (free : Multiset MbufId)

/-- The answers that the loop gets to its calls are those of a pool that the mbufs of `free` were in
    when the pass began. -/
def Supplied : List (UInt32 × Turn) → Pass r → Prop
  | [], _ => True
  | (flowId, turn) :: ready, p =>
    p.mbufCount < cfg.txBurstSize.toNat →
      (p.scheduler.isLive flowId = true → turn.alloc.FromPool (p.inPool free)) ∧
        Supplied ready (serveFlow cfg d imix flowId turn p)

instance decidableSupplied :
    ∀ (ready : List (UInt32 × Turn)) (p : Pass r), Decidable (Supplied cfg d imix free ready p)
  | [], _ => inferInstanceAs (Decidable True)
  | (flowId, turn) :: ready, p =>
    have : Decidable (Supplied cfg d imix free ready (serveFlow cfg d imix flowId turn p)) :=
      decidableSupplied ready _
    inferInstanceAs (Decidable (_ → (_ → _) ∧ _))

/-- What such a pass looks like: it has only taken what was there, and it has built a packet only if
    nothing is left. -/
structure Frugal (p : Pass r) : Prop where
  drawn : (p.handedOut : Multiset MbufId) ≤ free + p.freed
  built : p.built = [] ∨ p.built.length = 1 ∧ p.inPool free = 0 ∧ p.slot = none

variable {cfg d imix free}

theorem frugal_startPass (r : Rng) (sys : System) (time : UInt64) :
    Frugal free (startPass cfg r sys time) where
  drawn := Multiset.zero_le _
  built := .inl rfl

/-- One round whose answer comes from the pool. -/
theorem Round.frugal {flowId : UInt32} {turn : Turn} {p q : Pass r}
    (h : Round cfg d imix flowId turn p q) (hshape : p.Shape cfg.txBurstSize.toNat)
    (hanswer : p.scheduler.isLive flowId = true → turn.alloc.FromPool (p.inPool free))
    (hp : Frugal free p) : Frugal free q := by
  have hlive : ∀ {flow : FlowConfigInternal}, p.scheduler.getFlow flowId = some flow →
      flow.active → turn.alloc.FromPool (p.inPool free) := fun hflow hactive =>
    hanswer ((FlowScheduler.isLive_iff _ _).mpr ⟨_, hflow, hactive⟩)
  obtain ⟨hdrawn, hbuilt⟩ := hp
  cases h with
  | skip | idle => exact ⟨hdrawn, hbuilt⟩
  | fill flow m hflow hactive halloc =>
    -- the mbuf was in the pool, so nothing has been built
    have hmem := hlive hflow hactive
    rw [halloc] at hmem
    refine ⟨?_, .inl ?_⟩
    · have hone : ({m} : Multiset MbufId) ≤ free + p.freed - p.handedOut :=
        Multiset.singleton_le.mpr hmem
      calc ((p.takeMbuf m).handedOut : Multiset MbufId)
          = {m} + p.handedOut := by rw [Pass.takeMbuf, ← Multiset.coe_add, add_comm]; rfl
        _ ≤ free + p.freed - p.handedOut + p.handedOut := add_le_add_left hone _
        _ = free + p.freed := tsub_add_cancel_of_le hdrawn
    · rcases hbuilt with hnil | ⟨-, hempty, -⟩
      · exact hnil
      · rw [AllocResult.FromPool, hempty] at hmem
        exact absurd hmem (Multiset.notMem_zero m)
  | free flow errno m mb mutator hflow hactive halloc hslot hclone =>
    refine ⟨hdrawn.trans ?_, .inl ?_⟩
    · rw [Pass.freeMbuf, ← Multiset.coe_add, ← add_assoc]
      exact Multiset.le_add_right _ _
    · rcases hbuilt with hnil | ⟨-, -, hnone⟩
      · exact hnil
      · rw [hnone] at hslot
        cases hslot
  | build flow errno m mb mutator hflow hactive halloc hslot hclone =>
    have hempty := hlive hflow hactive
    rw [halloc] at hempty
    refine ⟨hdrawn, .inr ⟨?_, hempty, Pass.slot_push hshape _ mutator⟩⟩
    rcases hbuilt with hnil | ⟨-, -, hnone⟩
    · rw [Pass.push, hnil]
      rfl
    · rw [hnone] at hslot
      cases hslot

theorem frugal_serveFlows (ready : List (UInt32 × Turn)) {p : Pass r}
    (hshape : p.Shape cfg.txBurstSize.toNat) (hsupplied : Supplied cfg d imix free ready p)
    (hp : Frugal free p) : Frugal free (serveFlows cfg d imix ready p) := by
  induction ready generalizing p with
  | nil => exact hp
  | cons x ready ih =>
    rw [serveFlows]
    split
    · exact hp
    · next hroom =>
      have hround := round_serveFlow cfg d imix x.1 x.2 p
      obtain ⟨hanswer, hrest⟩ := hsupplied (Nat.lt_of_not_le hroom)
      exact ih (hround.shape hshape) hrest (hround.frugal hshape hanswer hp)

/-- The answers of a pass are those of a pool that the mbufs of `free` are in when it begins. -/
def SuppliedPass (cfg : WorkerConfig) (d : Dpdk) (r : Rng) (free : Multiset MbufId) (sys : System)
    (input : PassInput) : Prop :=
  Supplied cfg d sys.imixEngine free (readyTurns cfg sys input).1
    (startPass cfg r { sys with scheduler := (readyTurns cfg sys input).2 } input.time)

instance (cfg : WorkerConfig) (d : Dpdk) (r : Rng) (free : Multiset MbufId) (sys : System)
    (input : PassInput) : Decidable (SuppliedPass cfg d r free sys input) :=
  inferInstanceAs (Decidable (Supplied _ _ _ _ _ _))

/-- What a pass reports, in terms of the loop's final state. -/
theorem processFlows_report {sys : System} {input : PassInput} {p : Pass r}
    (hp : serveFlows cfg d sys.imixEngine (readyTurns cfg sys input).1
      (startPass cfg r { sys with scheduler := (readyTurns cfg sys input).2 } input.time) = p) :
    (processFlows cfg d r sys input).2 =
      { handedOut := p.handedOut
        freed := p.freed ++ (p.built.map (·.mbuf)).drop input.tx.accept.toNat
        built := p.built
        accepted := (p.built.map (·.mbuf)).take input.tx.accept.toNat } := by
  rw [processFlows_eq_sendReady]
  exact sendReady_report cfg d r _ input.time _ input.tx hp

/-- A pass builds at most one packet, and then no more than this packet's mbuf is in the pool. -/
theorem built_processFlows {sys : System} {input : PassInput}
    (h : SuppliedPass cfg d r free sys input) :
    let report := (processFlows cfg d r sys input).2
    (report.handedOut : Multiset MbufId) ≤ free + report.freed ∧ report.built.length ≤ 1 ∧
      (report.built ≠ [] → (free + report.freed - report.handedOut).card ≤ 1) := by
  obtain ⟨p, hp⟩ : ∃ p, serveFlows cfg d sys.imixEngine (readyTurns cfg sys input).1
      (startPass cfg r { sys with scheduler := (readyTurns cfg sys input).2 } input.time) = p :=
    ⟨_, rfl⟩
  obtain ⟨hdrawn, hbuilt⟩ : Frugal free p :=
    hp ▸ frugal_serveFlows _ (shape_startPass cfg r _ input.time) h (frugal_startPass r _ _)
  simp only [processFlows_report hp, ← Multiset.coe_add, ← add_assoc]
  refine ⟨hdrawn.trans (Multiset.le_add_right _ _), ?_, fun hne => ?_⟩
  · rcases hbuilt with hnil | ⟨hone, -⟩
    · rw [hnil]
      exact Nat.zero_le _
    · exact hone.le
  · obtain ⟨hone, hempty, -⟩ := hbuilt.resolve_left hne
    have hnone : free + p.freed - p.handedOut = 0 := hempty
    -- the packet's mbuf is freed when the NIC does not take it
    rw [← tsub_add_eq_add_tsub hdrawn, hnone, zero_add, Multiset.coe_card, List.length_drop,
      List.length_map, hone]
    exact Nat.sub_le _ _

/-- What a pass sends or frees it was given. -/
theorem disposed_le_processFlows (cfg : WorkerConfig) (d : Dpdk) (r : Rng) (sys : System)
    (input : PassInput) :
    let report := (processFlows cfg d r sys input).2
    (report.accepted : Multiset MbufId) + report.freed ≤ report.handedOut := by
  have hperm := handedOut_perm cfg d r { sys with scheduler := (readyTurns cfg sys input).2 }
    input.time (readyTurns cfg sys input).1 input.tx (length_readyTurns_le cfg sys input)
  simp only [← processFlows_eq_sendReady] at hperm
  intro report
  rw [Multiset.coe_add, Multiset.coe_le]
  exact (List.sublist_append_left _ _).subperm.trans hperm.symm.subperm

end Worker

/-! ## Runs -/

/-- A generator with its history, and where the mbufs of its pool are: in the pool, with the NIC, or
    lost. -/
structure Custody where
  run : PoolRun
  free : Multiset MbufId
  nic : Multiset MbufId
  lost : Multiset MbufId

/-- One thing that happens to the generator or its NIC. -/
inductive CustodyEvent where
  | pool (e : PoolEvent)
  /-- The NIC takes an mbuf from the pool, to receive into. -/
  | nicTakes (m : MbufId)
  /-- The NIC gives an mbuf back, which it has sent. -/
  | nicReturns (m : MbufId)

/-- A worker makes a pass. -/
def CustodyEvent.isPass : CustodyEvent → Bool
  | .pool (.system (.workerPass _ _)) => true
  | _ => false

namespace Custody

/-- The mbufs a burst brings, which are all freed. -/
def received (t : Custody) (cfg : WorkerConfig) (arrivals : List Arrival) : Multiset MbufId :=
  if cfg.enableRx then (Worker.receiveBurst cfg t.run.sys.heap (arrivals.map (·.frame))).2 else 0

variable (inetAton : String → Option UInt32) (d : Dpdk) (r : Rng)

/-- Where the mbufs are after an event. What a pass was given and has neither sent nor freed is
    lost. -/
def step (t : Custody) : CustodyEvent → Custody
  | .pool (.system e) =>
    let report := PoolRun.passReport d r t.run.sys e
    { run := t.run.step inetAton d r (.system e)
      free := t.free + report.freed - report.handedOut
      nic := t.nic + report.accepted
      lost := t.lost + (report.handedOut - (report.accepted + report.freed)) }
  | .pool (.burst cfg arrivals nowNs eventNs) =>
    { t with
      run := t.run.step inetAton d r (.burst cfg arrivals nowNs eventNs)
      free := t.free + t.received cfg arrivals
      nic := t.nic - t.received cfg arrivals }
  | .nicTakes m => { t with free := t.free.erase m, nic := m ::ₘ t.nic }
  | .nicReturns m => { t with free := m ::ₘ t.free, nic := t.nic.erase m }

/-- What is promised of the pool and the NIC: an mbuf that is handed out is in the pool, a call
    fails only when it is empty, and the NIC gives back, sent or received into, what it has. -/
def Promised (t : Custody) : CustodyEvent → Prop
  | .pool (.system (.workerPass cfg input)) =>
    Worker.SuppliedPass cfg d r t.free t.run.sys input
  | .pool (.system _) => True
  | .pool (.burst cfg arrivals _ _) => t.received cfg arrivals ≤ t.nic
  | .nicTakes m => m ∈ t.free
  | .nicReturns m => m ∈ t.nic

instance (t : Custody) : ∀ e, Decidable (t.Promised d r e)
  | .pool (.system (.workerPass cfg input)) =>
    inferInstanceAs (Decidable (Worker.SuppliedPass cfg d r t.free t.run.sys input))
  | .pool (.system (.configureFlows _ _)) | .pool (.system (.configureIMIX _))
  | .pool (.system (.startTraffic _ _ _ _)) | .pool (.system (.stopTraffic _))
  | .pool (.system (.receive _ _ _ _)) => inferInstanceAs (Decidable True)
  | .pool (.burst cfg arrivals _ _) =>
    inferInstanceAs (Decidable (t.received cfg arrivals ≤ t.nic))
  | .nicTakes m => inferInstanceAs (Decidable (m ∈ t.free))
  | .nicReturns m => inferInstanceAs (Decidable (m ∈ t.nic))

/-- All mbufs there are. -/
def total (t : Custody) : Multiset MbufId := t.free + t.nic + t.lost

variable {inetAton d r} {t : Custody} {e : CustodyEvent}

/-- What an event reports of mbufs was handed out, and what is handed out was there. -/
theorem report_le (e : System.Event) (h : t.Promised d r (.pool (.system e))) :
    let report := PoolRun.passReport d r t.run.sys e
    (report.handedOut : Multiset MbufId) ≤ t.free + report.freed ∧
      (report.accepted : Multiset MbufId) + report.freed ≤ report.handedOut := by
  cases e with
  | workerPass cfg input =>
    exact ⟨(Worker.built_processFlows h).1,
      Worker.disposed_le_processFlows cfg d r t.run.sys input⟩
  | _ => exact ⟨Multiset.zero_le _, le_refl _⟩

/-- No mbuf comes to be in two places or in none. -/
theorem total_step (h : t.Promised d r e) : (t.step inetAton d r e).total = t.total := by
  cases e with
  | pool e =>
    cases e with
    | system e =>
      obtain ⟨hhanded, hdisposed⟩ := report_le e h
      refine Multiset.ext.mpr fun m => ?_
      have hhanded := Multiset.count_le_of_le m hhanded
      have hdisposed := Multiset.count_le_of_le m hdisposed
      simp only [total, step, Multiset.count_add, Multiset.count_sub] at hhanded hdisposed ⊢
      omega
    | burst cfg arrivals nowNs eventNs =>
      refine Multiset.ext.mpr fun m => ?_
      have hreceived := Multiset.count_le_of_le m h
      simp only [total, step, Multiset.count_add, Multiset.count_sub] at hreceived ⊢
      omega
  | nicTakes m =>
    have hmem : m ∈ t.free := h
    rw [total, step, total, Multiset.add_cons, ← Multiset.cons_add, Multiset.cons_erase hmem]
  | nicReturns m =>
    have hmem : m ∈ t.nic := h
    rw [total, step, total, Multiset.cons_add, ← Multiset.add_cons, Multiset.cons_erase hmem]

/-- No event brings a lost mbuf back. -/
theorem lost_le_step (t : Custody) (e : CustodyEvent) : t.lost ≤ (t.step inetAton d r e).lost := by
  cases e with
  | pool e =>
    cases e with
    | system e => exact Multiset.le_add_right _ _
    | burst => exact le_refl _
  | nicTakes | nicReturns => exact le_refl _

/-- The pool, the NIC and the lost mbufs are always all there are. -/
theorem total_run {events : List CustodyEvent}
    (h : Run.Each (step inetAton d r) (Promised d r) t events) :
    (Run.run (step inetAton d r) t events).total = t.total := by
  induction events generalizing t with
  | nil => rfl
  | cons e events ih => exact (ih h.2).trans (total_step h.1)

/-- An event builds a packet only when it is a pass, and leaves the pool empty then, but for this
    packet's mbuf. -/
theorem built_step (h : t.Promised d r e) :
    (t.step inetAton d r e).run.built.length ≤ t.run.built.length + (if e.isPass then 1 else 0) ∧
      ((t.step inetAton d r e).run.built = t.run.built ∨
        (t.step inetAton d r e).free.card ≤ 1) := by
  cases e with
  | pool e =>
    cases e with
    | system e =>
      cases e with
      | workerPass cfg input =>
        obtain ⟨-, hone, hempty⟩ := Worker.built_processFlows h
        simp only [step, PoolRun.step, PoolRun.passReport, CustodyEvent.isPass, if_true,
          List.length_append]
        refine ⟨Nat.add_le_add_left hone _, ?_⟩
        by_cases hnil : (Worker.processFlows cfg d r t.run.sys input).2.built = []
        · exact .inl (by rw [hnil, List.append_nil])
        · exact .inr (hempty hnil)
      | _ =>
        simp only [step, PoolRun.step, PoolRun.passReport, List.append_nil, true_or, and_true]
        exact Nat.le_add_right _ _
    | burst => exact ⟨Nat.le_refl _, .inl rfl⟩
  | nicTakes | nicReturns => exact ⟨Nat.le_refl _, .inl rfl⟩

/-- Once a packet has been built all mbufs are lost, but one and those the NIC had at the time. -/
theorem exhausted_run {held : Nat} {events : List CustodyEvent}
    (h : Run.Each (step inetAton d r) (Promised d r) t events)
    (hheld : Run.Always (step inetAton d r) (fun t => t.nic.card ≤ held) t events)
    (hstart : t.run.built = [] ∨ t.total.card ≤ t.lost.card + held + 1) :
    let t' := Run.run (step inetAton d r) t events
    t'.run.built.length ≤ t.run.built.length + events.countP (·.isPass) ∧
      (t'.run.built = [] ∨ t.total.card ≤ t'.lost.card + held + 1) := by
  induction events generalizing t with
  | nil => exact ⟨Nat.le_refl _, hstart⟩
  | cons e events ih =>
    obtain ⟨hpromised, hrest⟩ := h
    rw [Run.always_cons] at hheld
    have htotal : (t.step inetAton d r e).total = t.total := total_step hpromised
    have hlost : t.lost.card ≤ (t.step inetAton d r e).lost.card :=
      Multiset.card_le_card (lost_le_step t e)
    obtain ⟨hlength, hbuilt⟩ := @built_step inetAton d r t e hpromised
    have hnow : (t.step inetAton d r e).run.built = [] ∨
        (t.step inetAton d r e).total.card ≤ (t.step inetAton d r e).lost.card + held + 1 := by
      rcases hbuilt with hsame | hempty
      · rw [hsame, htotal]
        exact hstart.imp_right fun hle => by omega
      · have hnic : (t.step inetAton d r e).nic.card ≤ held := hheld.2 [] List.nil_prefix
        rw [total, Multiset.card_add, Multiset.card_add]
        omega
    have hfinal := ih hrest hheld.2 hnow
    rw [htotal] at hfinal
    refine ⟨hfinal.1.trans ?_, hfinal.2⟩
    rw [List.countP_cons]
    omega

/-- Two flows that are due, and a pool of two mbufs, one of which the NIC has. -/
def small : Custody where
  run := .start System.opened
  free := {7}
  nic := {8}
  lost := 0

end Custody

end TrafficGen
