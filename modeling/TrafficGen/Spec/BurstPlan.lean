import TrafficGen.Spec.ClonedPackets

/-!
# What a burst will hold

Which packets `process_flows` builds can be told before it runs: from the ready flows,
the pool's answers, the sizes chosen and the room in the mbufs. `planBurst` does so
without building anything, and the loop refines it.

## Key results

- `planned_processFlows`: the burst of a pass holds the planned packets
-/

namespace TrafficGen

variable {r : Rng}

/-! ## The plan -/

/-- A packet as far as the plan knows it. -/
structure PlannedPacket where
  flowId : UInt32
  mbuf : MbufId
  size : UInt32
deriving DecidableEq, Repr

/-- The size of the next packet of a live flow. -/
def FlowScheduler.nextSize (s : FlowScheduler) (imix : IMIXEngine) (flowId : UInt32)
    (draw : Nat) : Option UInt32 :=
  ((s.getFlow flowId).filter (·.active)).map fun flow => Worker.choosePacketSize flow imix draw

/-- The packets of a burst, when the slot holds `slot`. A packet is built when a call fails and
    the slot holds an mbuf with room for the size modulo `2^16`. -/
def planBurst (nextSize : UInt32 → Nat → Option UInt32) (room : MbufId → UInt16) :
    Option MbufId → List (UInt32 × Turn) → List PlannedPacket
  | _, [] => []
  | slot, (flowId, turn) :: ready =>
    match nextSize flowId turn.imixDraw, turn.alloc, slot with
    | none, _, _ => planBurst nextSize room slot ready
    | some _, .filled m, _ => planBurst nextSize room (some m) ready
    | some _, .failed _, none => planBurst nextSize room none ready
    | some size, .failed _, some m =>
      if size.toUInt16 ≤ room m then
        { flowId, mbuf := m, size } :: planBurst nextSize room none ready
      else planBurst nextSize room none ready

/-- The room in the mbufs of the heap. -/
def Heap.room (heap : Heap) : MbufId → UInt16 := fun m => (heap m).room

/-- What the plan knows of a packet that was built. -/
def BuiltPacket.planned (b : BuiltPacket) : PlannedPacket where
  flowId := b.flowId
  mbuf := b.mbuf
  size := b.frame.pktLen

/-- The plan of a pass, each packet with whether the NIC takes it. -/
def Worker.planPass (cfg : WorkerConfig) (sys : System) (input : PassInput) :
    List (PlannedPacket × Bool) :=
  let (ready, scheduler) := readyTurns cfg sys input
  (planBurst (scheduler.nextSize sys.imixEngine) sys.heap.room none
    (ready.take cfg.txBurstSize.toNat)).mapIdx fun i x => (x, decide (i < input.tx.accept.toNat))

/-! ## The loop refines it -/

theorem FlowScheduler.nextSize_of_live {s : FlowScheduler} {flowId : UInt32}
    {flow : FlowConfigInternal} (hflow : s.getFlow flowId = some flow) (hactive : flow.active)
    (imix : IMIXEngine) (draw : Nat) :
    s.nextSize imix flowId draw = some (Worker.choosePacketSize flow imix draw) := by
  rw [nextSize, hflow, Option.filter_some, hactive, if_pos rfl, Option.map_some]

theorem FlowScheduler.nextSize_of_dead {s : FlowScheduler} {flowId : UInt32}
    (h : s.isLive flowId = false) (imix : IMIXEngine) (draw : Nat) :
    s.nextSize imix flowId draw = none := by
  rw [nextSize]
  cases hflow : s.getFlow flowId with
  | none => rfl
  | some flow =>
    rw [isLive, hflow, Option.any_some] at h
    rw [Option.filter_some, h]
    rfl

theorem Heap.room_set {heap : Heap} {m : MbufId} {mb : Mbuf} (h : mb.room = (heap m).room) :
    (heap.set m mb).room = heap.room := by
  funext i
  by_cases hi : i = m
  · subst hi
    rw [room, room, Heap.set_self, h]
  · rw [room, room, Heap.set_ne _ _ hi]

namespace Worker

variable (cfg : WorkerConfig) (d : Dpdk) (imix : IMIXEngine)

namespace Round

variable {cfg d imix} {flowId : UInt32} {turn : Turn} {p q : Pass r}

theorem nextSize (h : Round cfg d imix flowId turn p q) :
    q.scheduler.nextSize imix = p.scheduler.nextSize imix := by
  -- a round leaves sizes and `active` flags alone
  funext id draw
  rw [FlowScheduler.nextSize, FlowScheduler.nextSize]
  rcases h.getFlow id with heq | ⟨f, tcpState, packetsSent, bytesSent, hf, -, heq⟩
  · rw [heq]
  · rw [heq, hf, Option.filter_some, Option.filter_some]
    dsimp only
    split <;> rfl

/-- No round moves the end of a buffer. -/
theorem room (h : Round cfg d imix flowId turn p q) : q.heap.room = p.heap.room := by
  cases h with
  | skip | idle => rfl
  | fill => exact Heap.room_set rfl
  | free flow errno m mb mutator _ _ _ _ hclone =>
    have hroom := p.mutator.room_cloneAndMutate d (p.heap m)
      (flow.finalTemplate imix turn.imixDraw) 0 true
    rw [hclone] at hroom
    exact Heap.room_set hroom
  | build flow errno m mb mutator _ _ _ _ hclone =>
    have hroom := p.mutator.room_cloneAndMutate d (p.heap m)
      (flow.finalTemplate imix turn.imixDraw) 0 true
    rw [hclone] at hroom
    exact Heap.room_set ((finishPacket_lengths cfg d mb flow turn.timestampNs).2.trans hroom)

/-- What is built so far and what is planned for the rest of the loop stay the same together. -/
theorem planned (h : Round cfg d imix flowId turn p q) (hshape : p.Shape cfg.txBurstSize.toNat)
    (hroom : p.mbufCount < cfg.txBurstSize.toNat) (hsound : p.Sound cfg d imix)
    (ready : List (UInt32 × Turn)) :
    q.built.map (·.planned) ++
        planBurst (q.scheduler.nextSize imix) q.heap.room q.slot ready =
      p.built.map (·.planned) ++
        planBurst (p.scheduler.nextSize imix) p.heap.room p.slot ((flowId, turn) :: ready) := by
  rw [h.nextSize, h.room]
  -- a packet of an accepted flow fits a fresh mbuf exactly when its size modulo `2^16` does
  have hclones := fun flow m (hflow : p.scheduler.getFlow flowId = some flow)
      (hslot : p.slot = some m) => p.mutator.cloneAndMutate_cases d 0 true (hsound.fresh m hslot)
    ((hsound.accepted flowId flow hflow).finalTemplate_wellFormed imix turn.imixDraw)
    ((hsound.accepted flowId flow hflow).payloadOffset_le_size imix turn.imixDraw)
  cases h with
  | skip hdead => simp only [planBurst, FlowScheduler.nextSize_of_dead hdead]
  | fill flow m hflow hactive halloc =>
    have hbuilt : (p.takeMbuf m).built = p.built := rfl
    simp only [planBurst, FlowScheduler.nextSize_of_live hflow hactive, halloc,
      Pass.slot_takeMbuf hshape hroom, hbuilt]
  | idle flow errno hflow hactive halloc hslot =>
    simp only [planBurst, FlowScheduler.nextSize_of_live hflow hactive, halloc, hslot]
  | free flow errno m mb mutator hflow hactive halloc hslot hclone =>
    rcases hclones flow m hflow hslot with ⟨hlarge, -⟩ | ⟨-, p', filled, mem, heq, -⟩
    · -- refused: the plan finds no room either
      have hnot : ¬ (choosePacketSize flow imix turn.imixDraw).toUInt16 ≤ p.heap.room m :=
        Nat.not_le.mpr hlarge
      have hbuilt : (p.freeMbuf m mb mutator).built = p.built := rfl
      simp only [planBurst, FlowScheduler.nextSize_of_live hflow hactive, halloc, hslot,
        Pass.slot_freeMbuf, hbuilt, if_neg hnot]
    · rw [hclone] at heq
      cases heq
  | build flow errno m mb mutator hflow hactive halloc hslot hclone =>
    rcases hclones flow m hflow hslot with ⟨-, heq⟩ | ⟨hfits, p', filled, mem, heq, hlen, -⟩
    · rw [hclone] at heq
      cases heq
    · -- built: the plan has it next
      have hle : (choosePacketSize flow imix turn.imixDraw).toUInt16 ≤ p.heap.room m := hfits
      have hplanned : (builtPacket cfg d flowId flow turn m mb).planned =
          { flowId, mbuf := m, size := choosePacketSize flow imix turn.imixDraw } := by
        rw [hclone] at heq
        cases heq
        rw [BuiltPacket.planned, builtPacket, (finishPacket_lengths cfg d _ flow _).1]
        exact congrArg _ hlen
      have hbuilt : (p.push (builtPacket cfg d flowId flow turn m mb) mutator).built =
          p.built ++ [builtPacket cfg d flowId flow turn m mb] := rfl
      simp only [planBurst, FlowScheduler.nextSize_of_live hflow hactive, halloc, hslot,
        Pass.slot_push hshape, hbuilt, if_pos hle, List.map_append, List.map_singleton,
        hplanned, List.append_assoc, List.singleton_append]

end Round

/-- As long as the burst cannot fill up, the loop builds what is planned. -/
private theorem planned_serveFlows (ready : List (UInt32 × Turn)) {p : Pass r}
    (hshape : p.Shape cfg.txBurstSize.toNat) (hsound : p.Sound cfg d imix)
    (hroom : p.mbufCount + ready.length ≤ cfg.txBurstSize.toNat) :
    (serveFlows cfg d imix ready p).built.map (·.planned) =
      p.built.map (·.planned) ++
        planBurst (p.scheduler.nextSize imix) p.heap.room p.slot ready := by
  induction ready generalizing p with
  | nil => rw [serveFlows, planBurst, List.append_nil]
  | cons x ready ih =>
    obtain ⟨flowId, turn⟩ := x
    rw [List.length_cons] at hroom
    have hround := round_serveFlow cfg d imix flowId turn p
    have hnext := hround.mbufCount_le
    rw [serveFlows, if_neg (by omega),
      ih (hround.shape hshape) (hround.sound hshape (by omega) hsound) (by omega),
      hround.planned hshape (by omega) hsound ready]

/-- The burst of a pass holds what was planned for it, in order. -/
theorem planned_sendReady (r : Rng) (sys : System) (time : UInt64)
    (ready : List (UInt32 × Turn)) (tx : TxAnswer) (hflows : sys.scheduler.AllAccepted d)
    (hlen : cfg.txBurstSize ≠ 0 → ready.length ≤ cfg.txBurstSize.toNat) :
    (sendReady cfg d r sys time ready tx).2.built.map (·.planned) =
      planBurst (sys.scheduler.nextSize sys.imixEngine) sys.heap.room none
        (ready.take cfg.txBurstSize.toNat) := by
  rw [sendReady_report cfg d r sys time ready tx
    (serveFlows_take d sys.imixEngine r sys time hlen).symm]
  have hplanned := planned_serveFlows cfg d sys.imixEngine (ready.take cfg.txBurstSize.toNat)
    (shape_startPass cfg r sys time) (sound_startPass cfg d sys.imixEngine r time hflows)
    ((Nat.zero_add _).trans_le (List.length_take_le _ _))
  rwa [slot_startPass] at hplanned

/-- The NIC takes the first packets of the burst, as many as it answers. -/
theorem outcomes_sendReady (r : Rng) (sys : System) (time : UInt64)
    (ready : List (UInt32 × Turn)) (tx : TxAnswer) :
    (sendReady cfg d r sys time ready tx).2.outcomes =
      (sendReady cfg d r sys time ready tx).2.built.mapIdx fun i b =>
        (b, decide (i < tx.accept.toNat)) := by
  rw [PassReport.outcomes, sendReady_report cfg d r sys time ready tx rfl]
  refine List.ext_getElem (by simp only [List.length_mapIdx]) fun i hi hi' => ?_
  have hlt :
      i < (serveFlows cfg d sys.imixEngine ready (startPass cfg r sys time)).built.length := by
    simpa only [List.length_mapIdx] using hi
  simp only [List.getElem_mapIdx, List.length_take, List.length_map, Prod.mk.injEq,
    decide_eq_decide, true_and]
  omega

/-- **Refinement.** The packets a pass puts in the burst, and which of them the NIC takes, are
    those planned. -/
theorem planned_processFlows (r : Rng) {sys : System} (input : PassInput)
    (hflows : sys.scheduler.AllAccepted d) :
    (processFlows cfg d r sys input).2.outcomes.map (fun x => (x.1.planned, x.2)) =
      planPass cfg sys input := by
  have hplanned := planned_sendReady cfg d r
    { sys with scheduler := (readyTurns cfg sys input).2 } input.time (readyTurns cfg sys input).1
    input.tx (hflows.getReadyFlows _ _ _ _) (length_readyTurns_le cfg sys input)
  rw [processFlows_eq_sendReady, outcomes_sendReady, planPass]
  dsimp only at hplanned ⊢
  rw [← hplanned]
  refine List.ext_getElem (by simp only [List.length_map, List.length_mapIdx]) fun i hi hi' => ?_
  simp only [List.getElem_map, List.getElem_mapIdx]

end Worker

end TrafficGen
