import TrafficGen.Spec.PassInvariant

/-!
# The packets of a burst

Every packet a pass puts in the burst was cloned into a fresh mbuf from the template of
an accepted flow and finished for that flow (`BuiltPacket.Cloned`), provided the flows
in the table were accepted. What is proved of a frame needs no more than this.

## Key results

- `cloned_processFlows`: every packet of the burst is cloned
-/

namespace TrafficGen

variable {r : Rng}

namespace Worker

variable (cfg : WorkerConfig) (d : Dpdk)

variable {d} in
/-- The flow after its packet is still an accepted one. -/
theorem accepted_finishPacket {flow : FlowConfigInternal} (h : flow.Accepted d) (mb : Mbuf)
    (timestampNs : UInt64) : (finishPacket cfg d mb flow timestampNs).2.Accepted d := by
  obtain ⟨tcpState, packetsSent, bytesSent, hafter, -⟩ :=
    finishPacket_after cfg d mb flow timestampNs
  rw [hafter]
  exact h.congr rfl rfl

end Worker

/-- The packet was cloned into a fresh mbuf from the template of an accepted flow, and finished
    for that flow. -/
def BuiltPacket.Cloned (cfg : WorkerConfig) (d : Dpdk) (r : Rng) (imix : IMIXEngine)
    (b : BuiltPacket) : Prop :=
  b.before.Accepted d ∧ ∃ (mutator mutator' : PacketMutator r) (m mb : Mbuf) (turn : Turn),
    m.Fresh ∧
    mutator.cloneAndMutate d m (b.before.finalTemplate imix turn.imixDraw) 0 true =
      (true, mb, mutator') ∧
    b.frame = (Worker.finishPacket cfg d mb b.before turn.timestampNs).1 ∧
    b.after = (Worker.finishPacket cfg d mb b.before turn.timestampNs).2

/-- The mbuf in the current slot is fresh, the flows were accepted, and every packet built was
    cloned from its flow. -/
structure Pass.Sound (cfg : WorkerConfig) (d : Dpdk) (imix : IMIXEngine) (p : Pass r) :
    Prop where
  fresh : ∀ m, p.slot = some m → (p.heap m).Fresh
  accepted : p.scheduler.AllAccepted d
  cloned : ∀ b ∈ p.built, b.Cloned cfg d r imix

namespace Worker

variable (cfg : WorkerConfig) (d : Dpdk) (imix : IMIXEngine)

variable {cfg d imix} in
/-- A round keeps a pass sound while there is room in the burst. -/
theorem Round.sound {flowId : UInt32} {turn : Turn} {p q : Pass r}
    (h : Round cfg d imix flowId turn p q) (hshape : p.Shape cfg.txBurstSize.toNat)
    (hroom : p.mbufCount < cfg.txBurstSize.toNat) (hsound : p.Sound cfg d imix) :
    q.Sound cfg d imix := by
  cases h with
  | skip | idle => exact hsound
  | fill flow m _ _ _ =>
    -- the mbuf comes out of the pool reset
    refine ⟨fun m' hm' => ?_, hsound.accepted, hsound.cloned⟩
    rw [Pass.slot_takeMbuf hshape hroom, Option.some.injEq] at hm'
    rw [← hm']
    simp only [Pass.takeMbuf, Heap.set_self]
    exact Mbuf.fresh_reset _
  | free flow errno m mb mutator _ _ _ _ _ =>
    -- the slot is empty again
    refine ⟨fun m' hm' => ?_, hsound.accepted, hsound.cloned⟩
    rw [Pass.slot_freeMbuf] at hm'
    cases hm'
  | build flow errno m mb mutator hflow _ _ hslot hclone =>
    -- the next slot is empty, and the new packet came out of a fresh mbuf
    have hacc := hsound.accepted flowId flow hflow
    refine ⟨fun m' hm' => ?_, ?_, fun b hb => ?_⟩
    · rw [Pass.slot_push hshape] at hm'
      cases hm'
    · exact hsound.accepted.setFlow (accepted_finishPacket cfg hacc mb turn.timestampNs) flowId
    · rw [Pass.push, List.mem_append, List.mem_singleton] at hb
      rcases hb with hb | rfl
      · exact hsound.cloned b hb
      · exact ⟨hacc, p.mutator, mutator, p.heap m, mb, turn, hsound.fresh m hslot, hclone,
          rfl, rfl⟩

theorem sound_startPass (r : Rng) {sys : System} (time : UInt64)
    (hflows : sys.scheduler.AllAccepted d) :
    (startPass cfg r sys time).Sound cfg d imix := by
  refine ⟨fun m hm => ?_, hflows, fun b hb => absurd hb List.not_mem_nil⟩
  rw [slot_startPass] at hm
  cases hm

/-- The loop keeps a pass sound, from a table of accepted flows on. -/
theorem sound_serveFlows (r : Rng) {sys : System} (time : UInt64)
    (ready : List (UInt32 × Turn)) (hflows : sys.scheduler.AllAccepted d) :
    (serveFlows cfg d imix ready (startPass cfg r sys time)).Sound cfg d imix := by
  refine (serveFlows_induct cfg d imix
    (P := fun p => p.Shape cfg.txBurstSize.toNat ∧ p.Sound cfg d imix) ?_ ready
    ⟨shape_startPass cfg r sys time, sound_startPass cfg d imix r time hflows⟩).2
  intro flowId turn p q hroom hround ⟨hshape, hsound⟩
  exact ⟨hround.shape hshape, hround.sound hshape hroom hsound⟩

/-- Every packet `process_flows` puts in the burst was cloned from its flow. -/
theorem cloned_processFlows (r : Rng) {sys : System} (input : PassInput)
    (hflows : sys.scheduler.AllAccepted d) :
    ∀ b ∈ (processFlows cfg d r sys input).2.built, b.Cloned cfg d r sys.imixEngine := by
  rw [processFlows_eq_sendReady, sendReady_report cfg d r _ input.time _ input.tx rfl]
  exact (sound_serveFlows cfg d sys.imixEngine r input.time _
    (hflows.getReadyFlows _ _ _ _)).cloned

/-- A pass keeps the table accepted. -/
theorem accepted_processFlows (r : Rng) {sys : System} (input : PassInput)
    (hflows : sys.scheduler.AllAccepted d) :
    (processFlows cfg d r sys input).1.scheduler.AllAccepted d := by
  rw [processFlows_eq_sendReady]
  exact (sound_serveFlows cfg d sys.imixEngine r input.time _
    (hflows.getReadyFlows _ _ _ _)).accepted

end Worker

/-! ## What a cloned packet looks like -/

namespace Worker

theorem stampMbuf_eq (cfg : WorkerConfig) (mb : Mbuf) (timestampNs : UInt64) :
    ∃ timestamp, stampMbuf cfg mb timestampNs = { mb with timestamp := timestamp } := by
  rw [stampMbuf]
  split
  · exact ⟨timestampNs, rfl⟩
  · exact ⟨mb.timestamp, rfl⟩

/-- Finishing a packet changes neither its length nor the end of its buffer. -/
theorem finishPacket_lengths (cfg : WorkerConfig) (d : Dpdk) (mb : Mbuf)
    (flow : FlowConfigInternal) (timestampNs : UInt64) :
    (finishPacket cfg d mb flow timestampNs).1.pktLen = mb.pktLen ∧
      (finishPacket cfg d mb flow timestampNs).1.room = mb.room := by
  cases hstate : flow.isStatefulTcp with
  | false =>
    rw [finishPacket_plain cfg d mb timestampNs hstate]
    obtain ⟨timestamp, hstamp⟩ := stampMbuf_eq cfg mb timestampNs
    rw [hstamp]
    exact ⟨rfl, rfl⟩
  | true =>
    obtain ⟨conn, hconn⟩ := flow.exists_conn hstate
    rw [finishPacket_stateful cfg d mb timestampNs hstate hconn]
    obtain ⟨timestamp, hstamp⟩ := stampMbuf_eq cfg (rewriteStateful d mb conn).1 timestampNs
    rw [hstamp]
    exact ⟨rfl, rfl⟩

end Worker

/-- The mbuf as the clone left it, before the flow's finishing touches: a full frame of the
    flow's protocol, its checksums computed last, its size modulo `2^16` within the buffer. -/
structure ClonedFrame (d : Dpdk) (b : BuiltPacket) (mb : Mbuf) : Prop where
  checksums : ∃ mem, FrameHeader mem b.before.protocol mb.pktLen ∧
    mb.data = PacketMutator.recalculateChecksums d mem
  header : FrameHeader mb.data b.before.protocol mb.pktLen
  dataOff : b.before.protocol = "tcp" → mb.data 46 = 0x50
  headers_le : b.before.templatePacket.payloadOffset.toNat ≤ mb.pktLen.toNat
  pktLen : b.frame.pktLen = mb.pktLen
  room : b.frame.room = mb.room
  fits : mb.pktLen.toUInt16.toNat ≤ mb.room.toNat

theorem BuiltPacket.Cloned.exists_frame {cfg : WorkerConfig} {d : Dpdk} {imix : IMIXEngine}
    {b : BuiltPacket} (h : b.Cloned cfg d r imix) :
    ∃ mb timestampNs, ClonedFrame d b mb ∧
      b.frame = (Worker.finishPacket cfg d mb b.before timestampNs).1 ∧
      b.after = (Worker.finishPacket cfg d mb b.before timestampNs).2 := by
  obtain ⟨hacc, mutator, mutator', m, mb, turn, hfresh, hclone, hframe, hafter⟩ := h
  have hlengths := Worker.finishPacket_lengths cfg d mb b.before turn.timestampNs
  have hroom := mutator.room_cloneAndMutate d m (b.before.finalTemplate imix turn.imixDraw) 0 true
  rcases mutator.cloneAndMutate_cases d 0 true hfresh
      (hacc.finalTemplate_wellFormed imix turn.imixDraw)
      (hacc.payloadOffset_le_size imix turn.imixDraw) with
    ⟨-, heq⟩ | ⟨hfits, p', filled, mem, heq, hlen, -, hheader, hdataOff, hchecksums⟩
  · -- a packet that was built was not refused
    rw [hclone] at heq
    exact Bool.noConfusion (congrArg Prod.fst heq)
  · rw [hclone] at heq hroom
    simp only [Prod.mk.injEq, true_and] at heq
    obtain ⟨rfl, rfl⟩ := heq
    refine ⟨_, turn.timestampNs, ⟨?_, ?_, hdataOff, ?_, ?_, ?_, ?_⟩, hframe, hafter⟩
    · rw [hlen]
      exact hchecksums rfl
    · rw [hlen]
      exact hheader
    · rw [hlen]
      exact hacc.payloadOffset_le_size imix turn.imixDraw
    · rw [hframe, hlengths.1]
    · rw [hframe, hlengths.2]
    · rw [hlen, hroom]
      exact hfits

end TrafficGen
