import TrafficGen.ForStd.DrawStream
import TrafficGen.Spec.ConnectionRuns
import TrafficGen.Spec.BurstPlan

/-!
# Random header values over a run

A worker seeds a mutator with its core id before its loop and never uses it: every pass of
`process_flows` makes its own and seeds it with the same id. So the IP ids and sequence numbers
of each pass are the first ones of the same stream, and the run draws them anew in every pass
that builds a packet.

## Key results

- `consecutive_passDraws`: a pass draws the first numbers of the stream its core id seeds
- `passDraws_eq_nil_iff`: a pass draws nothing exactly when it is planned to build nothing
- `consecutive_workerDraws_iff`: when the draws of a whole run are those of one stream
-/

namespace TrafficGen

open DrawStream

/-! ## A generator that keeps count -/

/-- What the mutator draws numbers for. -/
inductive DrawKind where
  | ipId
  | sequenceNumber
deriving DecidableEq, Repr

namespace Rng

/-- One draw from the stream. -/
def draw (r : Rng) : DrawKind → r.State → UInt32 × r.State
  | .ipId, s => ((r.ipId s).1.toUInt32, (r.ipId s).2)
  | .sequenceNumber, s => r.seq s

/-- The number just drawn is entered behind those drawn since the seeding. -/
def enter (r : Rng) (kind : DrawKind) (s : r.State × List (Draw DrawKind UInt32)) :
    r.State × List (Draw DrawKind UInt32) :=
  ((r.draw kind s.1).2, s.2 ++ [⟨s.2.length, kind, (r.draw kind s.1).1⟩])

/-- The generator `r` with a record of what was drawn from it. -/
def counted (r : Rng) : Rng where
  State := r.State × List (Draw DrawKind UInt32)
  seed value := (r.seed value, [])
  ipId s := ((r.ipId s.1).1, r.enter .ipId s)
  seq s := ((r.seq s.1).1, r.enter .sequenceNumber s)

variable {r : Rng}

/-- The record holds what the stream gives. -/
theorem advance_counted (kinds : List DrawKind) (s : r.State)
    (draws : List (Draw DrawKind UInt32)) :
    advance r.counted.draw (s, draws) kinds =
      (advance r.draw s kinds, draws ++ outputs r.draw s draws.length kinds) := by
  induction kinds generalizing s draws with
  | nil => rw [outputs, List.append_nil]; rfl
  | cons kind kinds ih =>
    have hdraw : (r.counted.draw kind (s, draws)).2 = r.enter kind (s, draws) := by
      cases kind <;> rfl
    show advance r.counted.draw (r.counted.draw kind (s, draws)).2 kinds = _
    rw [hdraw, enter, ih, List.length_append, List.length_singleton, List.append_assoc, outputs]
    rfl

end Rng

/-! ## The draws of a clone -/

namespace PacketMutator

variable {r : Rng} (d : Dpdk) (p : PacketMutator r)

/-- A packet draws an IP id, and a sequence number if it is a TCP segment without one. -/
theorem rng_mutateFields (mem : ByteMem) (finalSize sequenceNumber : UInt32) :
    ∃ kinds, kinds ≠ [] ∧
      (p.mutateFields mem finalSize sequenceNumber).2.rng = advance r.draw p.rng kinds := by
  rw [mutateFields]
  dsimp only
  split
  · split
    · exact ⟨[.ipId], List.cons_ne_nil _ _, rfl⟩
    · exact ⟨[.ipId, .sequenceNumber], List.cons_ne_nil _ _, rfl⟩
  · split
    · exact ⟨[.ipId], List.cons_ne_nil _ _, rfl⟩
    · exact ⟨[.ipId], List.cons_ne_nil _ _, rfl⟩

/-- A clone draws exactly when it succeeds. -/
theorem rng_cloneAndMutate (m : Mbuf) (t : PacketTemplate) (sequenceNumber : UInt32)
    (updateChecksums : Bool) :
    let out := p.cloneAndMutate d m t sequenceNumber updateChecksums
    ∃ kinds, (kinds ≠ [] ↔ out.1 = true) ∧ out.2.2.rng = advance r.draw p.rng kinds := by
  have hnone : ∀ m', ∃ kinds : List DrawKind, (kinds ≠ [] ↔ false = true) ∧
      ((false, m', p) : Bool × Mbuf × PacketMutator r).2.2.rng = advance r.draw p.rng kinds :=
    fun _ => ⟨[], by simp, rfl⟩
  rw [cloneAndMutate]
  split
  · exact hnone m
  · split
    · exact hnone m
    · next fitted hfitted =>
      split
      · exact hnone fitted
      · obtain ⟨kinds, hne, hrng⟩ := p.rng_mutateFields (fillFrame fitted t).data t.totalSize
          sequenceNumber
        exact ⟨kinds, iff_of_true hne rfl, hrng⟩

end PacketMutator

/-! ## Nothing but the record is new -/

namespace PacketMutator

variable {r : Rng}

/-- The mutator without the record. -/
def plain (p : PacketMutator r.counted) : PacketMutator r where
  rng := p.rng.1

theorem mutateFields_plain (p : PacketMutator r.counted) (mem : ByteMem)
    (finalSize sequenceNumber : UInt32) :
    p.plain.mutateFields mem finalSize sequenceNumber =
      ((p.mutateFields mem finalSize sequenceNumber).1,
        (p.mutateFields mem finalSize sequenceNumber).2.plain) := by
  have hid : p.plain.generateIpId = (p.generateIpId.1, p.generateIpId.2.plain) := rfl
  have hseq : ∀ q : PacketMutator r.counted, q.plain.generateSequenceNumber =
      (q.generateSequenceNumber.1, q.generateSequenceNumber.2.plain) := fun _ => rfl
  simp only [mutateFields, hid, hseq]
  split
  · split
    · rfl
    · rfl
  · split
    · rfl
    · rfl

theorem cloneAndMutate_plain (p : PacketMutator r.counted) (d : Dpdk) (m : Mbuf)
    (t : PacketTemplate) (sequenceNumber : UInt32) (updateChecksums : Bool) :
    p.plain.cloneAndMutate d m t sequenceNumber updateChecksums =
      ((p.cloneAndMutate d m t sequenceNumber updateChecksums).1,
        (p.cloneAndMutate d m t sequenceNumber updateChecksums).2.1,
        (p.cloneAndMutate d m t sequenceNumber updateChecksums).2.2.plain) := by
  simp only [cloneAndMutate, mutateFields_plain]
  split
  · rfl
  · split
    · rfl
    · split
      · rfl
      · rfl

end PacketMutator

/-- The pass without the record. -/
def Pass.plain {r : Rng} (p : Pass r.counted) : Pass r where
  scheduler := p.scheduler
  heap := p.heap
  mutator := p.mutator.plain
  mbufs := p.mbufs
  mbufCount := p.mbufCount
  handedOut := p.handedOut
  freed := p.freed
  built := p.built

namespace Worker

variable {r : Rng} (cfg : WorkerConfig) (d : Dpdk) (imix : IMIXEngine)

theorem buildPacket_plain (flowId : UInt32) (flow : FlowConfigInternal) (turn : Turn) (m : MbufId)
    (p : Pass r.counted) :
    buildPacket cfg d imix flowId flow turn m p.plain =
      (buildPacket cfg d imix flowId flow turn m p).plain := by
  simp only [buildPacket, Pass.plain, PacketMutator.cloneAndMutate_plain]
  split
  · rfl
  · rfl

theorem allocateSlot_plain (turn : Turn) (p : Pass r.counted) :
    allocateSlot turn p.plain = ((allocateSlot turn p).1, (allocateSlot turn p).2.plain) := by
  rw [allocateSlot, allocateSlot]
  cases turn.alloc with
  | filled m => rfl
  | failed errno => rfl

theorem serveFlow_plain (flowId : UInt32) (turn : Turn) (p : Pass r.counted) :
    serveFlow cfg d imix flowId turn p.plain = (serveFlow cfg d imix flowId turn p).plain := by
  have hget : p.plain.scheduler.getFlow flowId = p.scheduler.getFlow flowId := rfl
  simp only [serveFlow, hget, allocateSlot_plain]
  split
  · rfl
  · split
    · rfl
    · split
      · rfl
      · have hslot : ∀ q : Pass r.counted,
            q.plain.mbufs.getD q.plain.mbufCount none = q.mbufs.getD q.mbufCount none :=
          fun _ => rfl
        rw [hslot]
        split
        · rfl
        · exact buildPacket_plain cfg d imix flowId _ turn _ _

theorem serveFlows_plain (ready : List (UInt32 × Turn)) (p : Pass r.counted) :
    serveFlows cfg d imix ready p.plain = (serveFlows cfg d imix ready p).plain := by
  induction ready generalizing p with
  | nil => rfl
  | cons x ready ih =>
    have hcount : p.plain.mbufCount = p.mbufCount := rfl
    rw [serveFlows, serveFlows, hcount]
    split
    · rfl
    · rw [serveFlow_plain, ih]

/-- A pass with the record does what it does without. -/
theorem processFlows_counted (sys : System) (input : PassInput) :
    processFlows cfg d r.counted sys input = processFlows cfg d r sys input := by
  have hstart : ∀ sys : System,
      (startPass cfg r.counted sys input.time).plain = startPass cfg r sys input.time :=
    fun _ => rfl
  rw [processFlows_eq_sendReady, processFlows_eq_sendReady, sendReady, sendReady]
  simp only [← hstart, serveFlows_plain]
  rfl

end Worker

/-! ## The draws of a pass -/

namespace Worker

variable {r : Rng} (cfg : WorkerConfig) (d : Dpdk)

/-- The mutator of a pass has drawn from the stream `s` begins, and something exactly when a packet
    was built. -/
def DrawsFrom (s : r.State) (p : Pass r) : Prop :=
  ∃ kinds, (kinds ≠ [] ↔ p.built ≠ []) ∧ p.mutator.rng = advance r.draw s kinds

theorem Round.drawsFrom {cfg : WorkerConfig} {d : Dpdk} {imix : IMIXEngine} {flowId : UInt32}
    {turn : Turn} {p q : Pass r} (h : Round cfg d imix flowId turn p q) {s : r.State}
    (hp : DrawsFrom s p) : DrawsFrom s q := by
  obtain ⟨kinds, hbuilt, hrng⟩ := hp
  cases h with
  | skip | fill | idle => exact ⟨kinds, hbuilt, hrng⟩
  | free flow errno m mb mutator _ _ _ _ hclone =>
    -- a clone that fails draws nothing
    obtain ⟨more, hmore, hdrawn⟩ := p.mutator.rng_cloneAndMutate d (p.heap m)
      (flow.finalTemplate imix turn.imixDraw) 0 true
    rw [hclone] at hmore hdrawn
    obtain rfl : more = [] := by simpa using hmore
    exact ⟨kinds, hbuilt, hdrawn.trans hrng⟩
  | build flow errno m mb mutator _ _ _ _ hclone =>
    obtain ⟨more, hmore, hdrawn⟩ := p.mutator.rng_cloneAndMutate d (p.heap m)
      (flow.finalTemplate imix turn.imixDraw) 0 true
    rw [hclone] at hmore hdrawn
    refine ⟨kinds ++ more, iff_of_true ?_ (List.append_ne_nil_of_right_ne_nil _ ?_), ?_⟩
    · exact List.append_ne_nil_of_right_ne_nil _ (hmore.mpr rfl)
    · exact List.cons_ne_nil _ _
    · rw [advance_append, ← hrng]
      exact hdrawn

/-- The numbers a pass draws, from the generator with a record. -/
def passDraws (r : Rng) (sys : System) (input : PassInput) : List (Draw DrawKind UInt32) :=
  (serveFlows cfg d sys.imixEngine (readyTurns cfg sys input).1
    (startPass cfg r.counted { sys with scheduler := (readyTurns cfg sys input).2 }
      input.time)).mutator.rng.2

/-- A pass of a worker with a nonzero id draws from the stream that its id seeds, and something
    exactly when it builds a packet. -/
theorem passDraws_eq_outputs (r : Rng) (sys : System) (input : PassInput)
    (hcore : cfg.coreId ≠ 0) : ∃ kinds,
      passDraws cfg d r sys input = outputs r.draw (r.seed cfg.coreId.toUInt64) 0 kinds ∧
      (kinds ≠ [] ↔ (processFlows cfg d r sys input).2.built ≠ []) := by
  have hseed : cfg.coreId.toUInt64 ≠ 0 := by
    intro hzero
    rw [← UInt64.toNat_inj, UInt32.toNat_toUInt64] at hzero
    exact hcore (UInt32.toNat_inj.mp hzero)
  have hstart : (startPass cfg r.counted { sys with scheduler := (readyTurns cfg sys input).2 }
      input.time).mutator.rng = (r.seed cfg.coreId.toUInt64, []) := by
    rw [startPass, PacketMutator.initializeRng, if_neg hseed]
    rfl
  obtain ⟨kinds, hbuilt, hrng⟩ := serveFlows_induct cfg d sys.imixEngine
    (fun _ _ _ _ _ h hp => h.drawsFrom hp) (readyTurns cfg sys input).1
    (⟨[], iff_of_false (not_not.mpr rfl) (not_not.mpr rfl), hstart⟩ :
      DrawsFrom (r.seed cfg.coreId.toUInt64, []) (startPass cfg r.counted
        { sys with scheduler := (readyTurns cfg sys input).2 } input.time))
  refine ⟨kinds, ?_, ?_⟩
  · rw [passDraws, hrng, Rng.advance_counted, List.nil_append]
    rfl
  · rw [hbuilt, ← processFlows_counted, processFlows_eq_sendReady,
      sendReady_report cfg d _ _ _ _ _ rfl]

theorem consecutive_passDraws (r : Rng) (sys : System) (input : PassInput)
    (hcore : cfg.coreId ≠ 0) :
    Consecutive r.draw (r.seed cfg.coreId.toUInt64) (passDraws cfg d r sys input) := by
  obtain ⟨kinds, hdraws, -⟩ := passDraws_eq_outputs cfg d r sys input hcore
  rw [hdraws]
  exact consecutive_outputs kinds

/-- Whether a pass draws can be told before it runs. -/
theorem passDraws_eq_nil_iff (r : Rng) {sys : System} (input : PassInput)
    (hcore : cfg.coreId ≠ 0) (hflows : sys.scheduler.AllAccepted d) :
    passDraws cfg d r sys input = [] ↔ planPass cfg sys input = [] := by
  obtain ⟨kinds, hdraws, hbuilt⟩ := passDraws_eq_outputs cfg d r sys input hcore
  have hplanned := planned_processFlows cfg d r input hflows
  have hlen : (planPass cfg sys input).length =
      (processFlows cfg d r sys input).2.built.length := by
    rw [← hplanned, List.length_map, ← PassReport.map_fst_outcomes, List.length_map]
  have hempty : planPass cfg sys input = [] ↔ (processFlows cfg d r sys input).2.built = [] := by
    rw [← List.length_eq_zero_iff, hlen, List.length_eq_zero_iff]
  rw [hdraws, outputs_eq_nil_iff, hempty]
  exact not_iff_not.mp hbuilt

end Worker

/-! ## The draws of a run -/

/-- A pass of a worker and the state it finds. -/
structure WorkerPass where
  cfg : WorkerConfig
  sys : System
  input : Worker.PassInput

namespace System

variable (inetAton : String → Option UInt32) (d : Dpdk) (r : Rng)

/-- The passes of the worker of a core, in a run with requests, received segments and the passes
    of other workers in between. -/
def workerPasses (coreId : UInt32) : System → List Event → List WorkerPass :=
  Run.collect (step inetAton d r) fun sys e =>
    match e with
    | .workerPass cfg input => if cfg.coreId = coreId then [⟨cfg, sys, input⟩] else []
    | _ => []

/-- The numbers that worker draws over the run. -/
def workerDraws (coreId : UInt32) (sys : System) (events : List Event) :
    List (Draw DrawKind UInt32) :=
  (workerPasses inetAton d r coreId sys events).flatMap fun pass =>
    Worker.passDraws pass.cfg d r pass.sys pass.input

/-- The passes that are planned to build a packet. -/
def buildingPasses (coreId : UInt32) (sys : System) (events : List Event) : Nat :=
  (workerPasses inetAton d r coreId sys events).countP fun pass =>
    !(Worker.planPass pass.cfg pass.sys pass.input).isEmpty

variable {inetAton d r}

/-- Each of these passes is of the worker, and finds only accepted flows. -/
theorem workerPasses_spec {coreId : UInt32} {sys : System} (hinv : sys.scheduler.Invariant d)
    {events : List Event} {pass : WorkerPass}
    (hpass : pass ∈ workerPasses inetAton d r coreId sys events) :
    pass.cfg.coreId = coreId ∧ pass.sys.scheduler.AllAccepted d := by
  induction events generalizing sys with
  | nil => cases hpass
  | cons e events ih =>
    rw [workerPasses, Run.collect_cons, List.mem_append] at hpass
    cases hpass with
    | inl hhere =>
      cases e with
      | workerPass cfg input =>
        dsimp only at hhere
        split at hhere
        · next hcore =>
          rw [List.mem_singleton] at hhere
          rw [hhere]
          exact ⟨hcore, hinv.accepted⟩
        · cases hhere
      | _ => cases hhere
    | inr hlater => exact ih (invariant_step hinv e) hlater

/-- For every generator, reachable state and run, the numbers the worker of a nonzero core draws
    are those of one stream seeded once with its id exactly when at most one of its passes builds
    a packet. -/
theorem consecutive_workerDraws_iff (inetAton : String → Option UInt32) (d : Dpdk) (r : Rng)
    (coreId : UInt32) (hcore : 0 < coreId) {sys : System} (hreach : Reachable inetAton d r sys)
    (events : List Event) :
    Consecutive r.draw (r.seed coreId.toUInt64) (workerDraws inetAton d r coreId sys events) ↔
      buildingPasses inetAton d r coreId sys events ≤ 1 := by
  have hne : coreId ≠ 0 := by
    rintro rfl
    exact absurd hcore (by decide)
  have hspec : ∀ pass ∈ workerPasses inetAton d r coreId sys events,
      pass.cfg.coreId = coreId ∧ pass.sys.scheduler.AllAccepted d :=
    fun _ => workerPasses_spec (invariant_of_reachable hreach)
  -- every pass begins the stream again
  have hsegments : ∀ segment ∈ (workerPasses inetAton d r coreId sys events).map
      (fun pass => Worker.passDraws pass.cfg d r pass.sys pass.input),
      Consecutive r.draw (r.seed coreId.toUInt64) segment := by
    intro segment hsegment
    obtain ⟨pass, hpass, rfl⟩ := List.mem_map.mp hsegment
    obtain ⟨hid, -⟩ := hspec pass hpass
    rw [← hid]
    exact Worker.consecutive_passDraws pass.cfg d r pass.sys pass.input (hid ▸ hne)
  have hcount : buildingPasses inetAton d r coreId sys events =
      ((workerPasses inetAton d r coreId sys events).map
        (fun pass => Worker.passDraws pass.cfg d r pass.sys pass.input)).countP
          (!·.isEmpty) := by
    rw [buildingPasses, List.countP_map]
    refine List.countP_congr fun pass hpass => ?_
    obtain ⟨hid, haccepted⟩ := hspec pass hpass
    have hnil := Worker.passDraws_eq_nil_iff pass.cfg d r pass.input (hid ▸ hne) haccepted
    simp only [Function.comp_apply, Bool.not_eq_true', List.isEmpty_eq_false_iff]
    exact not_iff_not.mpr hnil.symm
  rw [workerDraws, List.flatMap_def, consecutive_flatten_iff hsegments, hcount]

/-- A pass of the sample worker over two TCP flows. -/
theorem consecutive_opened : Consecutive Rng.counting.draw (Rng.counting.seed 1)
    (workerDraws Server.sampleAton .reference .counting 1 opened [.passAt 2 1]) :=
  (consecutive_workerDraws_iff Server.sampleAton .reference .counting 1 (by decide)
    reachable_opened [.passAt 2 1]).mpr (by decide)

/-- A second later the next pass draws the same IP id and sequence number. -/
theorem not_consecutive_opened :
    (workerDraws Server.sampleAton .reference .counting 1 opened
      [.passAt 2 1, .passAt 1000000002 1]).map (·.value) = [2, 3, 2, 3] ∧
    ¬ Consecutive Rng.counting.draw (Rng.counting.seed 1)
      (workerDraws Server.sampleAton .reference .counting 1 opened
        [.passAt 2 1, .passAt 1000000002 1]) := by
  refine ⟨by decide, ?_⟩
  unfold Consecutive
  decide

end System

end TrafficGen
