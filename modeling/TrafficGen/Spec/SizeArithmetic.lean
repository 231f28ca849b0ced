import TrafficGen.Spec.ConnectionRuns
import TrafficGen.Spec.FlowActivity
import TrafficGen.Spec.PacketSizes

/-!
# The packet size covers the headers

`clone_and_mutate` copies `payload_offset` bytes of the template and fills
`final_size - header_size` more, and does not check that the difference is not negative. It
never is: `add_flow` accepts a template only when its size covers the headers, taking 64 for a
flow of the mix, and the sizes of a mix are at least 64. So it takes an invariant of the flow
table over everything that can happen to it, and one of the IMIX engine.

## Key results

- `accepted_run`: every flow of the table was accepted, whatever has happened
- `headers_covered`: the size of a packet is never less than its headers
-/

namespace TrafficGen

variable {r : Rng}

/-! ## Everything that happens to the table -/

namespace System

/-- An event of the generator, or any call on its scheduler or its IMIX engine. -/
inductive Act where
  | event (e : Event)
  | call (c : FlowScheduler.Call)
  | imix (op : IMIXEngine.Op)

/-- The generator after one of them. -/
def act (inetAton : String → Option UInt32) (d : Dpdk) (r : Rng) (sys : System) : Act → System
  | .event e => sys.step inetAton d r e
  | .call c => { sys with scheduler := sys.scheduler.call d c }
  | .imix op => { sys with imixEngine := sys.imixEngine.step op }

variable {inetAton : String → Option UInt32} {d : Dpdk} {sys : System}

/-- An event keeps the table accepted. -/
theorem accepted_step (h : sys.scheduler.AllAccepted d) (e : Event) :
    (sys.step inetAton d r e).scheduler.AllAccepted d := by
  apply scheduler_step_induct (P := fun s => s.AllAccepted d) h
  · exact fun s config nowNs hs => hs.addFlow config nowNs
  · exact fun s id nowNs bucketNowNs hs => hs.startFlow id nowNs bucketNowNs
  · exact fun s id hs => hs.stopFlow id
  · exact fun s key tcpHdr payloadLen nowNs hs => hs.handleTcpRx key tcpHdr payloadLen nowNs
  · exact fun cfg input => Worker.accepted_processFlows cfg d r input h

theorem accepted_act (h : sys.scheduler.AllAccepted d) (a : Act) :
    (sys.act inetAton d r a).scheduler.AllAccepted d := by
  cases a with
  | event e => exact accepted_step h e
  | imix op => exact h
  | call c =>
    show (sys.scheduler.call d c).AllAccepted d
    cases c with
    | control op => exact h.step op
    | poll p => exact h.getReadyFlows p.maxFlows p.order p.nowNs p.bucketNowNs

/-- From a generator that has just been started, whatever happens leaves accepted flows. -/
theorem accepted_run (h : sys.Initial) (acts : List Act) :
    (Run.run (act inetAton d r) sys acts).scheduler.AllAccepted d := by
  obtain ⟨srcMac, hnew⟩ := h
  have hstart : sys.scheduler.AllAccepted d := by
    rw [hnew]
    exact FlowScheduler.allAccepted_new d srcMac
  exact Run.run_induct (P := fun sys : System => sys.scheduler.AllAccepted d) hstart
    (fun _ a hs => accepted_act hs a) acts

end System

/-! ## The arithmetic of `clone_and_mutate` -/

/-- The headers of the template are all there, and the packet is large enough for them, so what
    is left for the payload is the difference of the two sizes. -/
structure PacketTemplate.CoversHeaders (t : PacketTemplate) : Prop where
  copied : t.payloadOffset.toNat ≤ t.data.length
  covered : t.payloadOffset ≤ t.totalSize
  payload : (t.totalSize.toUInt64 - t.payloadOffset.toUInt64).toNat =
    t.totalSize.toNat - t.payloadOffset.toNat

theorem FlowConfigInternal.Accepted.coversHeaders {d : Dpdk} {f : FlowConfigInternal}
    (h : f.Accepted d) (imix : IMIXEngine) (draw : Nat) :
    (f.finalTemplate imix draw).CoversHeaders := by
  have hcovered : (f.finalTemplate imix draw).payloadOffset ≤
      (f.finalTemplate imix draw).totalSize :=
    UInt32.le_iff_toNat_le.mpr (h.payloadOffset_le_size imix draw)
  refine ⟨h.wellFormed.headers_le, hcovered, ?_⟩
  rw [UInt64.toNat_sub_of_le]
  · simp only [UInt32.toNat_toUInt64]
  · rw [UInt64.le_iff_toNat_le, UInt32.toNat_toUInt64, UInt32.toNat_toUInt64]
    exact UInt32.le_iff_toNat_le.mp hcovered

/-- **No size wraps.** Whatever has happened to the generator since it was started, and whatever
    calls its IMIX engine has seen, the template that `process_flows` clones for a flow of the
    table covers its headers, at the size chosen for any draw. -/
theorem headers_covered (inetAton : String → Option UInt32) (d : Dpdk) (r : Rng) {sys : System}
    (hsys : sys.Initial) (acts : List System.Act) {id : UInt32} {f : FlowConfigInternal}
    (hf : (Run.run (System.act inetAton d r) sys acts).scheduler.getFlow id = some f)
    (calls : List IMIXEngine.Op) (draw : Nat) :
    let imix := Run.run IMIXEngine.step .new calls
    (f.finalTemplate imix draw).CoversHeaders ∧
      (f.finalTemplate imix draw).totalSize = Worker.choosePacketSize f imix draw :=
  ⟨(System.accepted_run hsys acts id f hf).coversHeaders _ draw, rfl⟩

/-- The engine is given a mix, reset, given the mix again and refused another one. -/
def IMIXEngine.sampleCalls : List IMIXEngine.Op :=
  [.configure jumboMix 1000, .reset, .configure jumboMix 2000,
    .configure [⟨63, 100, "udp", true⟩] 10]

theorem IMIXEngine.selectNextPacketSize_sampleCalls :
    (Run.run step new sampleCalls).selectNextPacketSize 5 = 9000 := by
  decide +kernel

/-- A flow of the mix is added, and the third entry of the mix is drawn for it. -/
theorem headers_covered_mix : ∃ f,
    (Run.run (System.act Server.sampleAton .reference .counting) System.fresh
      [.call (.control (.addFlow (.sized 0) 0))]).scheduler.getFlow 1 = some f ∧
    (f.finalTemplate (Run.run IMIXEngine.step .new IMIXEngine.sampleCalls) 5).CoversHeaders ∧
    (f.finalTemplate (Run.run IMIXEngine.step .new IMIXEngine.sampleCalls) 5).totalSize = 9000 := by
  have hmix : ((Run.run (System.act Server.sampleAton .reference .counting) System.fresh
      [.call (.control (.addFlow (.sized 0) 0))]).scheduler.getFlow 1).map (·.packetSize) =
        some 0 := by
    decide +kernel
  obtain ⟨f, hf, hzero⟩ := Option.map_eq_some_iff.mp hmix
  have hinitial : System.fresh.Initial := ⟨[], rfl⟩
  obtain ⟨hcovers, hsize⟩ := headers_covered Server.sampleAton .reference .counting hinitial _ hf
    IMIXEngine.sampleCalls 5
  refine ⟨f, hf, hcovers, hsize.trans ?_⟩
  rw [choosePacketSize_mix hzero, IMIXEngine.selectNextPacketSize_sampleCalls]

end TrafficGen
