import TrafficGen.Spec.CloneCorrect

/-!
# Invariants of a worker pass

`Round` says everything one round of the loop of `process_flows` can do. Everything
later proved about a pass follows from it, case by case, and from the shape of the slot
array (`Pass.Shape`): it holds the packets built so far, then the current slot, then nothing.

`allocate_burst` returns `0` on success, which the loop takes for failure. So a successful
call only leaves its mbuf in the current slot, and a packet is built in the slot's mbuf
when a call fails.

## Key results

- `round_serveFlow`: a round of the loop is one of the five cases of `Round`
- `serveFlows_induct`: what every round preserves, the loop preserves
- `sendReady_report`: the report of a pass, in terms of the loop's final state
- `processFlows_eq_sendReady`: a pass chooses the ready flows and sends
-/

namespace TrafficGen

variable {r : Rng}

/-- The mbuf in the slot the loop works on. -/
def Pass.slot (p : Pass r) : Option MbufId := p.mbufs.getD p.mbufCount none

/-- The pass after the pool has put `m` in the current slot. -/
def Pass.takeMbuf (p : Pass r) (m : MbufId) : Pass r :=
  { p with
    heap := p.heap.set m (p.heap m).reset
    mbufs := p.mbufs.set p.mbufCount (some m)
    handedOut := p.handedOut ++ [m] }

/-- The pass after the mbuf `m` of the current slot, in the state `mb`, has been freed. -/
def Pass.freeMbuf (p : Pass r) (m : MbufId) (mb : Mbuf) (mutator : PacketMutator r) : Pass r :=
  { p with
    heap := p.heap.set m mb
    mutator := mutator
    mbufs := p.mbufs.set p.mbufCount none
    freed := p.freed ++ [m] }

/-- The pass after the packet `b` has joined the burst. -/
def Pass.push (p : Pass r) (b : BuiltPacket) (mutator : PacketMutator r) : Pass r :=
  { p with
    scheduler := p.scheduler.setFlow b.flowId b.after
    heap := p.heap.set b.mbuf b.frame
    mutator := mutator
    mbufCount := p.mbufCount + 1
    built := p.built ++ [b] }

/-- The flow is configured and active. -/
def FlowScheduler.isLive (s : FlowScheduler) (flowId : UInt32) : Bool :=
  (s.getFlow flowId).any (·.active)

theorem FlowScheduler.isLive_iff (s : FlowScheduler) (flowId : UInt32) :
    s.isLive flowId ↔ ∃ flow, s.getFlow flowId = some flow ∧ flow.active := by
  rw [isLive, Option.any_eq_true]

namespace Worker

variable (cfg : WorkerConfig) (d : Dpdk) (imix : IMIXEngine)

/-! ## The flow after its packet -/

theorem finishPacket_plain (mb : Mbuf) {flow : FlowConfigInternal} (timestampNs : UInt64)
    (h : flow.isStatefulTcp = false) :
    finishPacket cfg d mb flow timestampNs =
      (stampMbuf cfg mb timestampNs, { flow with
        packetsSent := flow.packetsSent + 1
        bytesSent := flow.bytesSent + (stampMbuf cfg mb timestampNs).pktLen.toUInt64 }) := by
  rw [finishPacket]
  cases hconn : flow.tcpState with
  | none => simp only [hconn]
  | some conn => simp only [h, hconn, Bool.false_eq_true, if_false]

theorem finishPacket_stateful (mb : Mbuf) {flow : FlowConfigInternal} (timestampNs : UInt64)
    {conn : TCPConnectionState} (h : flow.isStatefulTcp) (hconn : flow.tcpState = some conn) :
    finishPacket cfg d mb flow timestampNs =
      (stampMbuf cfg (rewriteStateful d mb conn).1 timestampNs, { flow with
        tcpState := some (rewriteStateful d mb conn).2
        packetsSent := flow.packetsSent + 1
        bytesSent := flow.bytesSent +
          (stampMbuf cfg (rewriteStateful d mb conn).1 timestampNs).pktLen.toUInt64 }) := by
  simp only [finishPacket, hconn, h, if_true]

/-- A packet leaves its flow's settings, template, bucket and flags alone. -/
theorem finishPacket_after (mb : Mbuf) (flow : FlowConfigInternal) (timestampNs : UInt64) :
    ∃ tcpState packetsSent bytesSent, (finishPacket cfg d mb flow timestampNs).2 =
        { flow with tcpState := tcpState, packetsSent := packetsSent, bytesSent := bytesSent } ∧
      tcpState.isSome = flow.tcpState.isSome := by
  cases hstate : flow.isStatefulTcp with
  | false =>
    exact ⟨flow.tcpState, _, _, by rw [finishPacket_plain cfg d mb timestampNs hstate], rfl⟩
  | true =>
    obtain ⟨conn, hconn⟩ := flow.exists_conn hstate
    exact ⟨_, _, _, by rw [finishPacket_stateful cfg d mb timestampNs hstate hconn],
      by rw [hconn]; rfl⟩

/-! ## One round of the loop -/

/-- The packet `buildPacket` puts in the burst. -/
def builtPacket (flowId : UInt32) (flow : FlowConfigInternal) (turn : Turn) (m : MbufId)
    (mb : Mbuf) : BuiltPacket where
  flowId := flowId
  mbuf := m
  frame := (finishPacket cfg d mb flow turn.timestampNs).1
  before := flow
  after := (finishPacket cfg d mb flow turn.timestampNs).2

/-- Everything one round for the flow `flowId` can make of a pass. -/
inductive Round (flowId : UInt32) (turn : Turn) (p : Pass r) : Pass r → Prop
  /-- The flow is gone or not active. -/
  | skip (hdead : p.scheduler.isLive flowId = false) : Round flowId turn p p
  /-- The call succeeds, its mbuf fills the slot, and no packet is built. -/
  | fill (flow : FlowConfigInternal) (m : MbufId)
      (hflow : p.scheduler.getFlow flowId = some flow) (hactive : flow.active)
      (halloc : turn.alloc = .filled m) : Round flowId turn p (p.takeMbuf m)
  /-- The call fails, and the slot is empty. -/
  | idle (flow : FlowConfigInternal) (errno : Errno)
      (hflow : p.scheduler.getFlow flowId = some flow) (hactive : flow.active)
      (halloc : turn.alloc = .failed errno) (hslot : p.slot = none) : Round flowId turn p p
  /-- The call fails, and so does the clone into the slot's mbuf. -/
  | free (flow : FlowConfigInternal) (errno : Errno) (m : MbufId) (mb : Mbuf)
      (mutator : PacketMutator r)
      (hflow : p.scheduler.getFlow flowId = some flow) (hactive : flow.active)
      (halloc : turn.alloc = .failed errno) (hslot : p.slot = some m)
      (hclone : p.mutator.cloneAndMutate d (p.heap m) (flow.finalTemplate imix turn.imixDraw)
        0 true = (false, mb, mutator)) : Round flowId turn p (p.freeMbuf m mb mutator)
  /-- The call fails, and a packet is built in the slot's mbuf. -/
  | build (flow : FlowConfigInternal) (errno : Errno) (m : MbufId) (mb : Mbuf)
      (mutator : PacketMutator r)
      (hflow : p.scheduler.getFlow flowId = some flow) (hactive : flow.active)
      (halloc : turn.alloc = .failed errno) (hslot : p.slot = some m)
      (hclone : p.mutator.cloneAndMutate d (p.heap m) (flow.finalTemplate imix turn.imixDraw)
        0 true = (true, mb, mutator)) :
      Round flowId turn p (p.push (builtPacket cfg d flowId flow turn m mb) mutator)

/-- With an mbuf in the slot, the round builds a packet in it or frees it. -/
private theorem round_buildPacket {flowId : UInt32} {turn : Turn} {p : Pass r}
    {flow : FlowConfigInternal} {errno : Errno} {m : MbufId}
    (hflow : p.scheduler.getFlow flowId = some flow) (hactive : flow.active)
    (halloc : turn.alloc = .failed errno) (hslot : p.slot = some m) :
    Round cfg d imix flowId turn p (buildPacket cfg d imix flowId flow turn m p) := by
  rcases hclone : p.mutator.cloneAndMutate d (p.heap m)
    (flow.finalTemplate imix turn.imixDraw) 0 true with ⟨ok, mb, mutator⟩
  have hclone' := hclone
  rw [FlowConfigInternal.finalTemplate] at hclone'
  cases ok with
  | false =>
    have hround : buildPacket cfg d imix flowId flow turn m p = p.freeMbuf m mb mutator := by
      simp only [buildPacket, hclone', Bool.false_eq_true, if_false, Pass.freeMbuf]
    rw [hround]
    exact .free flow errno m mb mutator hflow hactive halloc hslot hclone
  | true =>
    have hround : buildPacket cfg d imix flowId flow turn m p =
        p.push (builtPacket cfg d flowId flow turn m mb) mutator := by
      simp only [buildPacket, hclone', if_true, Pass.push, builtPacket]
    rw [hround]
    exact .build flow errno m mb mutator hflow hactive halloc hslot hclone

theorem round_serveFlow (flowId : UInt32) (turn : Turn) (p : Pass r) :
    Round cfg d imix flowId turn p (serveFlow cfg d imix flowId turn p) := by
  cases hflow : p.scheduler.getFlow flowId with
  | none =>
    have hdead : p.scheduler.isLive flowId = false := by
      rw [FlowScheduler.isLive, hflow]
      rfl
    simp only [serveFlow, hflow]
    exact .skip hdead
  | some flow =>
    cases hactive : flow.active with
    | false =>
      -- stopped since the ready flows were chosen
      have hdead : p.scheduler.isLive flowId = false := by
        rw [FlowScheduler.isLive, hflow, Option.any_some, hactive]
      simp only [serveFlow, hflow, hactive, Bool.not_false, if_true]
      exact .skip hdead
    | true =>
      cases halloc : turn.alloc with
      | filled m =>
        -- `0` is also what the loop expects of a call that allocated nothing
        have hround : serveFlow cfg d imix flowId turn p = p.takeMbuf m := by
          simp only [serveFlow, hflow, hactive, Bool.not_true, Bool.false_eq_true, if_false,
            allocateSlot, halloc, allocateBurst_filled, if_true, Pass.takeMbuf]
        rw [hround]
        exact .fill flow m hflow hactive halloc
      | failed errno =>
        -- the errno is not `0`, so the loop goes on with whatever is in the slot
        obtain ⟨hne, hmbufs⟩ := allocateBurst_failed errno p.mbufs p.mbufCount
        cases hslot : p.slot with
        | none =>
          have hempty : p.mbufs.getD p.mbufCount none = none := hslot
          have hround : serveFlow cfg d imix flowId turn p = p := by
            simp only [serveFlow, hflow, hactive, Bool.not_true, Bool.false_eq_true, if_false,
              allocateSlot, halloc, hmbufs, if_neg hne, hempty]
          rw [hround]
          exact .idle flow errno hflow hactive halloc hslot
        | some m =>
          have hholds : p.mbufs.getD p.mbufCount none = some m := hslot
          have hround : serveFlow cfg d imix flowId turn p =
              buildPacket cfg d imix flowId flow turn m p := by
            simp only [serveFlow, hflow, hactive, Bool.not_true, Bool.false_eq_true, if_false,
              allocateSlot, halloc, hmbufs, if_neg hne, hholds]
          rw [hround]
          exact round_buildPacket cfg d imix hflow hactive halloc hslot

/-- What every round preserves while there is room in the burst, the loop preserves. -/
theorem serveFlows_induct {P : Pass r → Prop}
    (hround : ∀ flowId turn p q, p.mbufCount < cfg.txBurstSize.toNat →
      Round cfg d imix flowId turn p q → P p → P q)
    (ready : List (UInt32 × Turn)) {p : Pass r} (hp : P p) :
    P (serveFlows cfg d imix ready p) := by
  induction ready generalizing p with
  | nil => exact hp
  | cons x ready ih =>
    rw [serveFlows]
    split
    · exact hp  -- the burst is full
    · exact ih (hround x.1 x.2 p _ (by omega) (round_serveFlow cfg d imix x.1 x.2 p) hp)

end Worker

/-- The outcomes of a burst are its packets, in order. -/
theorem PassReport.map_fst_outcomes (p : PassReport) : p.outcomes.map (·.1) = p.built := by
  refine List.ext_getElem (by simp only [outcomes, List.length_map, List.length_mapIdx])
    fun i hi hi' => ?_
  simp only [outcomes, List.getElem_map, List.getElem_mapIdx]

/-! ## The slot array -/

/-- The slots before the current one hold the packets built so far; those after it are empty. -/
structure Pass.Shape (cap : Nat) (p : Pass r) : Prop where
  length : p.mbufs.length = cap
  count : p.mbufCount = p.built.length
  before : p.mbufs.take p.mbufCount = p.built.map fun b => some b.mbuf
  after : ∀ j, p.mbufCount < j → p.mbufs.getD j none = none

namespace Pass

variable {cap : Nat} {p : Pass r}

theorem slot_takeMbuf (hshape : p.Shape cap) (hroom : p.mbufCount < cap) (m : MbufId) :
    (p.takeMbuf m).slot = some m := by
  have hlt : p.mbufCount < p.mbufs.length := by rw [hshape.length]; exact hroom
  simp only [slot, takeMbuf, List.getD_eq_getElem?_getD, List.getElem?_set_self hlt,
    Option.getD_some]

theorem slot_freeMbuf (p : Pass r) (m : MbufId) (mb : Mbuf) (mutator : PacketMutator r) :
    (p.freeMbuf m mb mutator).slot = none := by
  rw [slot, freeMbuf, List.getD_eq_getElem?_getD]
  rcases Nat.lt_or_ge p.mbufCount p.mbufs.length with hlt | hge
  · rw [List.getElem?_set_self hlt, Option.getD_some]
  · rw [List.getElem?_eq_none (by rwa [List.length_set]), Option.getD_none]

/-- Writing the current slot keeps the shape. -/
theorem Shape.set_slot (hshape : p.Shape cap) {q : Pass r} {v : Option MbufId}
    (hmbufs : q.mbufs = p.mbufs.set p.mbufCount v) (hcount : q.mbufCount = p.mbufCount)
    (hbuilt : q.built = p.built) : q.Shape cap where
  length := by rw [hmbufs, List.length_set, hshape.length]
  count := by rw [hcount, hbuilt, hshape.count]
  before := by
    rw [hmbufs, hcount, hbuilt, List.take_set_of_le (Nat.le_refl _), hshape.before]
  after := by
    intro j hj
    rw [hcount] at hj
    rw [hmbufs, List.getD_eq_getElem?_getD, List.getElem?_set_ne (Nat.ne_of_lt hj),
      ← List.getD_eq_getElem?_getD, hshape.after j hj]

/-- The slot after a packet has joined the burst is empty. -/
theorem slot_push (hshape : p.Shape cap) (b : BuiltPacket) (mutator : PacketMutator r) :
    (p.push b mutator).slot = none :=
  hshape.after _ (Nat.lt_succ_self _)

/-- Moving on from a slot that holds the packet just built keeps the shape. -/
theorem Shape.push (hshape : p.Shape cap) {b : BuiltPacket} (hslot : p.slot = some b.mbuf)
    (mutator : PacketMutator r) : (p.push b mutator).Shape cap where
  length := hshape.length
  count := by
    rw [Pass.push, hshape.count, List.length_append, List.length_singleton]
  before := by
    -- one more slot is taken, and it holds the packet's mbuf
    have hget : p.mbufs[p.mbufCount]? = some (some b.mbuf) := by
      rw [slot, List.getD_eq_getElem?_getD] at hslot
      cases hget : p.mbufs[p.mbufCount]? with
      | none => rw [hget, Option.getD_none] at hslot; cases hslot
      | some v => rw [hget, Option.getD_some] at hslot; rw [hslot]
    rw [Pass.push, List.take_add_one, hshape.before, hget, List.map_append]
    rfl
  after := fun j hj => hshape.after j (Nat.lt_of_succ_lt hj)

end Pass

namespace Worker

variable (cfg : WorkerConfig) (d : Dpdk) (imix : IMIXEngine)

/-! ## What a round preserves -/

theorem shape_startPass (r : Rng) (sys : System) (time : UInt64) :
    (startPass cfg r sys time).Shape cfg.txBurstSize.toNat where
  length := List.length_replicate
  count := rfl
  before := rfl
  after := fun j _ => by
    simp only [startPass, List.getD_eq_getElem?_getD, List.getElem?_replicate]
    split <;> rfl

theorem slot_startPass (r : Rng) (sys : System) (time : UInt64) :
    (startPass cfg r sys time).slot = none := by
  simp only [Pass.slot, startPass, List.getD_eq_getElem?_getD, List.getElem?_replicate]
  split <;> rfl

namespace Round

variable {cfg d imix} {flowId : UInt32} {turn : Turn} {p q : Pass r}

/-- A round keeps the shape of the slot array. -/
theorem shape (h : Round cfg d imix flowId turn p q) {cap : Nat} (hshape : p.Shape cap) :
    q.Shape cap := by
  cases h with
  | skip | idle => exact hshape
  | fill | free => exact hshape.set_slot rfl rfl rfl
  | build flow errno m mb mutator _ _ _ hslot _ => exact hshape.push hslot mutator

/-- A round builds at most one packet. -/
theorem mbufCount_le (h : Round cfg d imix flowId turn p q) :
    q.mbufCount ≤ p.mbufCount + 1 := by
  cases h with
  | skip | idle => omega
  | fill | free => exact Nat.le_succ _
  | build => exact Nat.le_refl _

/-- A round changes nothing of a flow but its connection and counters. -/
theorem getFlow (h : Round cfg d imix flowId turn p q) (id : UInt32) :
    q.scheduler.getFlow id = p.scheduler.getFlow id ∨
    ∃ f tcpState packetsSent bytesSent, p.scheduler.getFlow id = some f ∧
      tcpState.isSome = f.tcpState.isSome ∧
      q.scheduler.getFlow id = some { f with
        tcpState := tcpState, packetsSent := packetsSent, bytesSent := bytesSent } := by
  cases h with
  | skip | fill | idle | free => exact .inl rfl
  | build flow errno m mb mutator hflow _ _ _ _ =>
    by_cases hid : id = flowId
    · -- the flow the packet was built for
      subst hid
      obtain ⟨tcpState, packetsSent, bytesSent, hafter, hsome⟩ :=
        finishPacket_after cfg d mb flow turn.timestampNs
      refine .inr ⟨flow, tcpState, packetsSent, bytesSent, hflow, hsome, ?_⟩
      rw [← hafter]
      exact FlowScheduler.getFlow_setFlow_self _ _ _
    · exact .inl (FlowScheduler.getFlow_setFlow_ne _ _ hid)

/-- No round changes which flows are live. -/
theorem isLive (h : Round cfg d imix flowId turn p q) :
    q.scheduler.isLive = p.scheduler.isLive := by
  funext id
  rw [FlowScheduler.isLive, FlowScheduler.isLive]
  rcases h.getFlow id with heq | ⟨f, tcpState, packetsSent, bytesSent, hf, -, heq⟩
  · rw [heq]
  · rw [heq, hf]
    rfl

end Round

variable {cfg} in
/-- A burst of size 0 is full before the first flow, so only the flows that fit it are served. -/
theorem serveFlows_take (r : Rng) (sys : System) (time : UInt64) {ready : List (UInt32 × Turn)}
    (hlen : cfg.txBurstSize ≠ 0 → ready.length ≤ cfg.txBurstSize.toNat) :
    serveFlows cfg d imix (ready.take cfg.txBurstSize.toNat) (startPass cfg r sys time) =
      serveFlows cfg d imix ready (startPass cfg r sys time) := by
  by_cases hcap : cfg.txBurstSize = 0
  · have hzero : cfg.txBurstSize.toNat = 0 := congrArg UInt16.toNat hcap
    rw [hzero, List.take_zero]
    cases ready with
    | nil => rfl
    | cons x ready =>
      rw [serveFlows, serveFlows, if_pos (by rw [hzero]; exact Nat.zero_le _)]
  · rw [List.take_of_length_le (hlen hcap)]

theorem shape_serveFlows (ready : List (UInt32 × Turn)) {p : Pass r}
    (hshape : p.Shape cfg.txBurstSize.toNat) :
    (serveFlows cfg d imix ready p).Shape cfg.txBurstSize.toNat :=
  serveFlows_induct cfg d imix (fun _ _ _ _ _ h => h.shape) ready hshape

/-! ## The burst -/

/-- A burst without null slots is split between the NIC and the pool where the NIC stops. -/
theorem transmitBurst_split (tx : TxAnswer) (heap : Heap) (metrics : MetricsCollector)
    (burst : List MbufId) :
    (transmitBurst cfg tx heap metrics (burst.map some)).2.2 =
      (burst.take tx.accept.toNat, burst.drop tx.accept.toNat) := by
  have hfilter : ∀ l : List MbufId, (l.map some).filterMap id = l := fun l => by
    rw [List.filterMap_map, Function.id_comp, List.filterMap_some]
  rw [transmitBurst]
  split
  · next hnil =>
    rw [List.length_map, List.length_eq_zero_iff] at hnil
    rw [hnil, List.take_nil, List.drop_nil]
  · simp only [rteEthTxBurst, ← List.map_take, ← List.map_drop, hfilter, List.length_map]
    -- the NIC may offer to take more than there is
    rcases Nat.le_total tx.accept.toNat burst.length with hle | hle
    · rw [Nat.min_eq_left hle]
    · rw [Nat.min_eq_right hle, List.take_of_length_le hle, List.drop_of_length_le hle,
        List.take_length, List.drop_length]

/-- What `sendReady` reports, in terms of the loop's final state. -/
theorem sendReady_report (r : Rng) (sys : System) (time : UInt64)
    (ready : List (UInt32 × Turn)) (tx : TxAnswer) {p : Pass r}
    (hp : serveFlows cfg d sys.imixEngine ready (startPass cfg r sys time) = p) :
    (sendReady cfg d r sys time ready tx).2 =
      { handedOut := p.handedOut
        freed := p.freed ++ (p.built.map (·.mbuf)).drop tx.accept.toNat
        built := p.built
        accepted := (p.built.map (·.mbuf)).take tx.accept.toNat } := by
  have hshape : p.Shape cfg.txBurstSize.toNat :=
    hp ▸ shape_serveFlows cfg d sys.imixEngine ready (shape_startPass cfg r sys time)
  -- the slots handed over are those of the packets built
  have hburst : p.mbufs.take p.mbufCount = (p.built.map (·.mbuf)).map some := by
    rw [hshape.before, List.map_map]
    rfl
  have hsplit := transmitBurst_split cfg tx p.heap sys.metricsCollector (p.built.map (·.mbuf))
  simp only [Prod.ext_iff] at hsplit
  simp only [sendReady, hp, hburst, hsplit]

/-! ## A pass of `process_flows` -/

/-- The ready flows of a pass with the answers it meets, and the scheduler after choosing them. -/
def readyTurns (sys : System) (input : PassInput) : List (UInt32 × Turn) × FlowScheduler :=
  let (readyFlows, scheduler) := sys.scheduler.getReadyFlows cfg.txBurstSize.toUInt32
    input.order input.nowNs input.bucketNowNs
  (readyFlows.mapIdx fun i id => (id, input.turn i), scheduler)

/-- A pass chooses the ready flows and sends. Returning early when there are none makes no
    difference. -/
theorem processFlows_eq_sendReady (r : Rng) (sys : System) (input : PassInput) :
    processFlows cfg d r sys input =
      sendReady cfg d r { sys with scheduler := (readyTurns cfg sys input).2 } input.time
        (readyTurns cfg sys input).1 input.tx := by
  rw [processFlows, readyTurns]
  dsimp only
  split
  · next hnil =>
    -- an empty burst is neither counted nor freed
    rw [List.isEmpty_iff] at hnil
    rw [hnil]
    rfl
  · rfl

/-- The lists a pass works on fit the burst. -/
theorem length_readyTurns_le (sys : System) (input : PassInput) (hcap : cfg.txBurstSize ≠ 0) :
    (readyTurns cfg sys input).1.length ≤ cfg.txBurstSize.toNat := by
  have hne : cfg.txBurstSize.toUInt32 ≠ 0 := fun h =>
    hcap (UInt16.toNat_inj.mp (by simpa using congrArg UInt32.toNat h))
  have hle := sys.scheduler.length_getReadyFlows_le hne input.order input.nowNs input.bucketNowNs
  simpa only [readyTurns, List.length_mapIdx, UInt16.toNat_toUInt32] using hle

end Worker

/-! ## Fixed inputs -/

/-- Two flows are added and started. -/
def System.sampleHistory (stateless : Bool) : List FlowScheduler.Op :=
  [.addFlow (.sample 1 1000 stateless) 0, .addFlow (.sample 2 2000 stateless) 0,
    .startFlow 1 1 1, .startFlow 2 1 1]

/-- Two active flows of 64-byte packets, stateless or not, and a heap of fresh mbufs. -/
def System.sample (stateless : Bool) : System where
  scheduler := Run.run (FlowScheduler.step .reference) (.new []) (sampleHistory stateless)
  imixEngine := .new
  metricsCollector := .new 1 0
  heap := fun _ => .sample

/-- A worker of queue 0 with bursts of 32 and no timestamp field. -/
def WorkerConfig.sample : WorkerConfig where
  coreId := 1
  portId := 0
  queueId := 0
  txBurstSize := 32
  rxBurstSize := 32
  enableRx := false
  timestampDynfieldOffset := -1

/-- A NIC that takes the whole burst and leaves it alone. -/
def TxAnswer.all : TxAnswer where
  accept := 65535
  recycle := fun _ mb => mb

/-- `ENOENT`, the answer of an empty pool. -/
def Errno.noEntry : Errno := ⟨2, by decide, by decide⟩

/-- A turn of a flow whose allocation call is answered by `alloc`. -/
def Turn.sample (alloc : AllocResult) : Turn where
  alloc := alloc
  imixDraw := 0
  timestampNs := 0

/-- A pass in which the first call is answered with mbuf 7 and the others fail. -/
def Worker.PassInput.sample : Worker.PassInput where
  nowNs := 2
  bucketNowNs := fun _ => 2
  order := [1, 2]
  time := 0
  turn := fun i => .sample (if i = 0 then .filled 7 else .failed .noEntry)
  tx := .all

end TrafficGen
