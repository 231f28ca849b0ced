import TrafficGen.Spec.ConnectionRuns
import TrafficGen.Spec.LookupIndex

/-!
# What a flow request leaves in the table

`ConfigureFlows` adds the flows of a request one by one, so afterwards an id leads to the
last flow added under it, and a 5-tuple to the last flow indexed there. Addresses, ports
and MAC addresses are converted on the way, and a conversion that fails is not noticed:
the request is answered with success as soon as every protocol and size is supported.

## Key results

- `configureFlows_spec`: the request as a run of `add_flow`, and when it succeeds
- `getFlow_addAll`, `lookup_addAll`: table and index after several flows are added
- `configured_iff`: which requests are configured as they are written
-/

namespace TrafficGen

namespace FlowScheduler

/-! ## Adding several flows -/

/-- Settings, and the clock read of the call that adds them. -/
abbrev Addition := FlowSettings × UInt64

/-- Add flows one after the other. -/
def addAll (d : Dpdk) (s : FlowScheduler) (additions : List Addition) : FlowScheduler :=
  Run.run (fun s a => (s.addFlow d a.1 a.2).2) s additions

/-- The flow an addition stores under `id`, if it stores one there. -/
def storedUnder (d : Dpdk) (srcMac : List UInt8) (id : UInt32) (a : Addition) :
    Option FlowConfigInternal :=
  if a.1.flowId = id then newFlow d srcMac a.1 a.2 else none

/-- The id an addition enters in the index under `key`, if it enters one there. -/
def indexedUnder (d : Dpdk) (srcMac : List UInt8) (key : FlowKey) (a : Addition) :
    Option UInt32 :=
  if key = a.1.flowKey ∨ key = a.1.flowKey.reverse then
    (newFlow d srcMac a.1 a.2).map fun _ => a.1.flowId
  else none

variable {d : Dpdk}

theorem srcMac_addFlow (s : FlowScheduler) (config : FlowSettings) (nowNs : UInt64) :
    (s.addFlow d config nowNs).2.srcMac = s.srcMac := by
  rcases s.addFlow_cases d config nowNs with ⟨-, heq⟩ | ⟨-, f, -, heq⟩
  · rw [heq]
  · rw [heq]

/-- One addition, seen from an id. -/
theorem getFlow_addFlow (s : FlowScheduler) (a : Addition) (id : UInt32) :
    (s.addFlow d a.1 a.2).2.getFlow id =
      (storedUnder d s.srcMac id a).or (s.getFlow id) := by
  unfold storedUnder
  by_cases hid : a.1.flowId = id
  · rw [if_pos hid]
    rcases s.addFlow_cases d a.1 a.2 with ⟨hrej, heq⟩ | ⟨-, f, hf, heq⟩
    · have hnone : newFlow d s.srcMac a.1 a.2 = none := by
        rw [← Option.not_isSome_iff_eq_none, newFlow_isSome_iff]
        exact hrej
      rw [heq, hnone, Option.none_or]
    · rw [heq, hf, Option.some_or, ← hid]
      exact AList.lookup_insert s.flows
  · rw [if_neg hid, Option.none_or, getFlow_addFlow_ne s d a.2 (Ne.symm hid)]

/-- One addition, seen from a 5-tuple. -/
theorem lookup_addFlow_or (s : FlowScheduler) (a : Addition) (key : FlowKey) :
    (s.addFlow d a.1 a.2).2.flowLookup.lookup key =
      (indexedUnder d s.srcMac key a).or (s.flowLookup.lookup key) := by
  unfold indexedUnder
  rcases s.addFlow_cases d a.1 a.2 with ⟨hrej, heq⟩ | ⟨-, f, hf, heq⟩
  · have hnone : newFlow d s.srcMac a.1 a.2 = none := by
      rw [← Option.not_isSome_iff_eq_none, newFlow_isSome_iff]
      exact hrej
    rw [heq, hnone, Option.map_none, ite_self, Option.none_or]
  · by_cases hkey : key = a.1.flowKey ∨ key = a.1.flowKey.reverse
    · rw [if_pos hkey, hf, Option.map_some, Option.some_or]
      exact (lookup_addFlow hf hkey).1
    · rw [if_neg hkey, Option.none_or, heq]
      rw [not_or] at hkey
      show ((s.flowLookup.insert _ _).insert _ _).lookup key = _
      rw [AList.lookup_insert_ne hkey.2, AList.lookup_insert_ne hkey.1]

/-- An id leads to the last flow added under it. -/
theorem getFlow_addAll (s : FlowScheduler) (additions : List Addition) (id : UInt32) :
    (s.addAll d additions).getFlow id =
      (additions.filterMap (storedUnder d s.srcMac id)).getLast?.or (s.getFlow id) := by
  refine Run.entry_run (fun s' : FlowScheduler => s'.srcMac = s.srcMac)
    (fun s' => s'.getFlow id) (fun s' a h => ?_) (fun s' a h => ?_) rfl additions
  · exact (s'.srcMac_addFlow a.1 a.2).trans h
  · rw [← h]
    exact s'.getFlow_addFlow a id

/-- A 5-tuple leads to the last flow indexed under it. -/
theorem lookup_addAll (s : FlowScheduler) (additions : List Addition) (key : FlowKey) :
    (s.addAll d additions).flowLookup.lookup key =
      (additions.filterMap (indexedUnder d s.srcMac key)).getLast?.or
        (s.flowLookup.lookup key) := by
  refine Run.entry_run (fun s' : FlowScheduler => s'.srcMac = s.srcMac)
    (fun s' => s'.flowLookup.lookup key) (fun s' a h => ?_) (fun s' a h => ?_) rfl additions
  · exact (s'.srcMac_addFlow a.1 a.2).trans h
  · rw [← h]
    exact s'.lookup_addFlow_or a key

/-- After a flow has been added, its id leads to a flow of the list. -/
theorem exists_getFlow_addAll {s : FlowScheduler} {additions : List Addition} {a : Addition}
    (ha : a ∈ additions) (hacc : a.1.Acceptable) :
    ∃ a' ∈ additions, ∃ stored, a'.1.flowId = a.1.flowId ∧
      newFlow d s.srcMac a'.1 a'.2 = some stored ∧
      (s.addAll d additions).getFlow a.1.flowId = some stored := by
  obtain ⟨f, hf⟩ := Option.isSome_iff_exists.mp
    ((newFlow_isSome_iff d s.srcMac a.1 a.2).mpr hacc)
  have hmem : f ∈ additions.filterMap (storedUnder d s.srcMac a.1.flowId) :=
    List.mem_filterMap.mpr ⟨a, ha, by rw [storedUnder, if_pos rfl, hf]⟩
  have hlast := List.getLast?_eq_some_getLast (List.ne_nil_of_mem hmem)
  obtain ⟨a', ha', hstored⟩ := List.mem_filterMap.mp (List.getLast_mem (List.ne_nil_of_mem hmem))
  rw [storedUnder] at hstored
  split at hstored
  · next hid =>
    refine ⟨a', ha', _, hid, hstored, ?_⟩
    rw [getFlow_addAll, hlast, Option.some_or]
  · cases hstored

end FlowScheduler

namespace Server

open FlowScheduler

/-! ## A request as a run of `add_flow` -/

/-- The additions of a request, with the clock read of each. -/
def additions (inetAton : String → Option UInt32) (request : FlowConfig) (nowNs : Nat → UInt64) :
    List Addition :=
  request.flows.zipIdx.map fun (flow, i) =>
    (internalConfig inetAton request.stateless flow, nowNs i)

variable {inetAton : String → Option UInt32} {d : Dpdk}

theorem exists_mem_zipIdx {α : Type*} {l : List α} {x : α} (h : x ∈ l) :
    ∃ i, (x, i) ∈ l.zipIdx := by
  obtain ⟨i, hi⟩ := List.mem_iff_getElem?.mp h
  exact ⟨i, List.mem_zipIdx_iff_getElem?.mpr hi⟩

theorem mem_additions (inetAton : String → Option UInt32) {request : FlowConfig}
    (nowNs : Nat → UInt64) {flow : Flow} (h : flow ∈ request.flows) :
    ∃ t, (internalConfig inetAton request.stateless flow, t) ∈
      additions inetAton request nowNs := by
  obtain ⟨i, hi⟩ := exists_mem_zipIdx h
  exact ⟨nowNs i, List.mem_map.mpr ⟨(flow, i), hi, rfl⟩⟩

theorem exists_of_mem_additions {request : FlowConfig} {nowNs : Nat → UInt64} {a : Addition}
    (h : a ∈ additions inetAton request nowNs) :
    ∃ flow ∈ request.flows, a.1 = internalConfig inetAton request.stateless flow := by
  obtain ⟨⟨flow, i⟩, hmem, rfl⟩ := List.mem_map.mp h
  exact ⟨flow, List.fst_mem_of_mem_zipIdx hmem, rfl⟩

/-- What the error message says of a rejected flow. -/
def rejection (flow : Flow) : String :=
  "Failed to add flow " ++ toString flow.flowId.toNat ++ "; "

/-- A round adds one flow, and notes when it is rejected. -/
theorem addFlow_spec (inetAton : String → Option UInt32) (d : Dpdk) (res : AddResult)
    (stateless : Bool) (flow : Flow) (nowNs : UInt64) :
    (addFlow inetAton d stateless res flow nowNs).scheduler =
      (res.scheduler.addFlow d (internalConfig inetAton stateless flow) nowNs).2 ∧
    ((addFlow inetAton d stateless res flow nowNs).allSuccess = true ↔
      res.allSuccess = true ∧ (internalConfig inetAton stateless flow).Acceptable) ∧
    (addFlow inetAton d stateless res flow nowNs).errorMessage =
      if (internalConfig inetAton stateless flow).Acceptable then res.errorMessage
      else res.errorMessage ++ rejection flow := by
  rcases res.scheduler.addFlow_cases d (internalConfig inetAton stateless flow) nowNs with
    ⟨hrej, heq⟩ | ⟨hacc, f, -, heq⟩
  · have hout : addFlow inetAton d stateless res flow nowNs =
        ⟨false, res.errorMessage ++ rejection flow, res.scheduler⟩ := by
      unfold addFlow rejection
      rw [heq]
      rfl
    rw [hout, heq, if_neg hrej]
    exact ⟨rfl, by simp only [Bool.false_eq_true, hrej, and_false], rfl⟩
  · have hout : addFlow inetAton d stateless res flow nowNs =
        { res with scheduler := (res.scheduler.addFlow d
          (internalConfig inetAton stateless flow) nowNs).2 } := by
      unfold addFlow
      rw [heq]
      rfl
    rw [hout, if_pos hacc]
    exact ⟨rfl, by simp only [hacc, and_true], rfl⟩

/-- The loop, over any flows and from any result. -/
theorem foldl_addFlow_spec (inetAton : String → Option UInt32) (d : Dpdk) (stateless : Bool)
    (nowNs : Nat → UInt64) (flows : List (Flow × Nat)) (res : AddResult) :
    let out := flows.foldl
      (fun res (flow, i) => addFlow inetAton d stateless res flow (nowNs i)) res
    out.scheduler = res.scheduler.addAll d (flows.map fun (flow, i) =>
      (internalConfig inetAton stateless flow, nowNs i)) ∧
    (out.allSuccess = true ↔ res.allSuccess = true ∧ ∀ x ∈ flows,
      (internalConfig inetAton stateless x.1).Acceptable) ∧
    out.errorMessage = ((flows.map Prod.fst).filter fun flow =>
      ¬ (internalConfig inetAton stateless flow).Acceptable).foldl
        (fun message flow => message ++ rejection flow) res.errorMessage := by
  induction flows generalizing res with
  | nil => simp [addAll]
  | cons x flows ih =>
    obtain ⟨hscheduler, hsuccess, hmessage⟩ :=
      addFlow_spec inetAton d res stateless x.1 (nowNs x.2)
    obtain ⟨hscheduler', hsuccess', hmessage'⟩ :=
      ih (addFlow inetAton d stateless res x.1 (nowNs x.2))
    simp only [List.foldl_cons, List.map_cons, List.forall_mem_cons]
    rw [hscheduler', hscheduler, hsuccess', hsuccess, and_assoc, hmessage', hmessage]
    refine ⟨rfl, Iff.rfl, ?_⟩
    -- only a rejected flow adds to the message
    by_cases hacc : (internalConfig inetAton stateless x.1).Acceptable
    · simp [hacc]
    · simp [hacc]

/-- The flows of a request that `add_flow` rejects. -/
def rejectedFlows (inetAton : String → Option UInt32) (request : FlowConfig) : List Flow :=
  request.flows.filter fun flow =>
    ¬ (internalConfig inetAton request.stateless flow).Acceptable

/-- `ConfigureFlows` adds every flow it can, succeeds when it can add them all, and otherwise
    names the others in their order. -/
theorem configureFlows_spec (inetAton : String → Option UInt32) (d : Dpdk) (sys : System)
    (request : FlowConfig) (nowNs : Nat → UInt64) :
    (configureFlows inetAton d sys request nowNs).2 =
      { sys with scheduler := sys.scheduler.addAll d (additions inetAton request nowNs) } ∧
    ((configureFlows inetAton d sys request nowNs).1.success = true ↔
      ∀ flow ∈ request.flows, (internalConfig inetAton request.stateless flow).Acceptable) ∧
    ((configureFlows inetAton d sys request nowNs).1.success = false →
      (configureFlows inetAton d sys request nowNs).1.message =
        "Some flows failed to configure: " ++
          (rejectedFlows inetAton request).foldl (fun message flow => message ++ rejection flow)
            "") := by
  obtain ⟨hscheduler, hsuccess, hmessage⟩ :=
    foldl_addFlow_spec inetAton d request.stateless nowNs request.flows.zipIdx
      { scheduler := sys.scheduler }
  have hall : (∀ x ∈ request.flows.zipIdx,
      (internalConfig inetAton request.stateless x.1).Acceptable) ↔
      ∀ flow ∈ request.flows, (internalConfig inetAton request.stateless flow).Acceptable := by
    constructor
    · intro h flow hflow
      obtain ⟨i, hi⟩ := exists_mem_zipIdx hflow
      exact h (flow, i) hi
    · intro h x hx
      exact h x.1 (List.fst_mem_of_mem_zipIdx hx)
  simp only [true_and, hall] at hsuccess
  simp only [configureFlows]
  split
  · next htrue =>
    exact ⟨by rw [hscheduler]; rfl, iff_of_true rfl (hsuccess.mp htrue), by simp⟩
  · next hfalse =>
    refine ⟨by rw [hscheduler]; rfl, iff_of_false (by simp) fun h => hfalse (hsuccess.mpr h),
      fun _ => ?_⟩
    rw [List.zipIdx_map_fst] at hmessage
    rw [hmessage]
    rfl

end Server

/-! ## Requests configured as they are written -/

/-- The bytes are the MAC address the text denotes, broadcast when it is empty. -/
def DenotesMac (text : String) (bytes : List UInt8) : Prop :=
  if text.isEmpty then bytes = List.replicate 6 0xFF else MacText.Denotes text.toList bytes

namespace Flow

/-- Every field of the message has a value to configure. -/
structure Representable (inetAton : String → Option UInt32) (flow : Flow) : Prop where
  srcIp : (inetAton flow.srcIp).isSome
  dstIp : (inetAton flow.dstIp).isSome
  srcPort : flow.srcPort.toNat ≤ 65535
  dstPort : flow.dstPort.toNat ≤ 65535
  dstMac : ∃ bytes, DenotesMac flow.dstMac bytes

/-- A stored flow has the addresses, the ports and the destination the message names. -/
structure StoredAs (inetAton : String → Option UInt32) (flow : Flow)
    (stored : FlowConfigInternal) : Prop where
  srcIp : inetAton flow.srcIp = some stored.flowKey.srcIp
  dstIp : inetAton flow.dstIp = some stored.flowKey.dstIp
  srcPort : stored.flowKey.srcPort.toNat = flow.srcPort.toNat
  dstPort : stored.flowKey.dstPort.toNat = flow.dstPort.toNat
  dstMac : DenotesMac flow.dstMac (stored.templatePacket.data.take 6)

end Flow

/-- Every flow of the request is representable, and no two share an id. -/
structure FlowConfig.Representable (inetAton : String → Option UInt32) (request : FlowConfig) :
    Prop where
  flows : ∀ flow ∈ request.flows, flow.Representable inetAton
  ids : ∀ flow ∈ request.flows, ∀ flow' ∈ request.flows,
    flow'.flowId = flow.flowId → flow' = flow

/-- The answer to a request keeps its promise: after success the request was representable, and
    each flow of it is stored as its message says. -/
def FlowConfig.Configured (inetAton : String → Option UInt32) (request : FlowConfig)
    (response : StatusResponse) (sys : System) : Prop :=
  response.success = true → request.Representable inetAton ∧
    ∀ flow ∈ request.flows, ∃ stored, sys.scheduler.getFlow flow.flowId = some stored ∧
      flow.StoredAs inetAton stored

/-- The destination of a template is the MAC address of the settings. -/
theorem denotesMac_newFlow {d : Dpdk} {srcMac : List UInt8} {config : FlowSettings}
    {nowNs : UInt64} {f : FlowConfigInternal} {bytes : List UInt8}
    (h : FlowScheduler.newFlow d srcMac config nowNs = some f)
    (hmac : DenotesMac config.dstMac bytes) : f.templatePacket.data.take 6 = bytes := by
  rw [destination_of_buildTemplate (FlowScheduler.buildTemplate_newFlow h)]
  unfold DenotesMac at hmac
  split at hmac
  · next hempty =>
    rw [if_pos hempty, hmac]
    rfl
  · next hempty =>
    rw [if_neg hempty, defaultMac, if_neg hempty, macToBytes_of_denotes _ hmac]

/-- The flow stored for a representable message is the one it describes. -/
theorem Flow.storedAs_of_newFlow {inetAton : String → Option UInt32} {d : Dpdk}
    {srcMac : List UInt8} {flow : Flow} {stateless : Bool} {nowNs : UInt64}
    {f : FlowConfigInternal} (hflow : flow.Representable inetAton)
    (h : FlowScheduler.newFlow d srcMac (Server.internalConfig inetAton stateless flow) nowNs =
      some f) : flow.StoredAs inetAton f := by
  have hkey : f.flowKey = Server.convertProtoFlowKey inetAton flow :=
    FlowScheduler.flowKey_newFlow h
  obtain ⟨src, hsrc⟩ := Option.isSome_iff_exists.mp hflow.srcIp
  obtain ⟨dst, hdst⟩ := Option.isSome_iff_exists.mp hflow.dstIp
  obtain ⟨bytes, hbytes⟩ := hflow.dstMac
  have hsrcPort := hflow.srcPort
  have hdstPort := hflow.dstPort
  refine ⟨?_, ?_, ?_, ?_, ?_⟩
  · simp [hkey, Server.convertProtoFlowKey, Server.ipToUint32, hsrc]
  · simp [hkey, Server.convertProtoFlowKey, Server.ipToUint32, hdst]
  · simp only [hkey, Server.convertProtoFlowKey, UInt32.toNat_toUInt16]
    omega
  · simp only [hkey, Server.convertProtoFlowKey, UInt32.toNat_toUInt16]
    omega
  · rw [denotesMac_newFlow h hbytes]
    exact hbytes

/-- **Faithful configuration.** A request is configured as it is written exactly when one of its
    flows is rejected, or all of its fields are representable. -/
theorem Server.configured_iff (inetAton : String → Option UInt32) (d : Dpdk) (sys : System)
    (request : FlowConfig) (nowNs : Nat → UInt64) :
    request.Configured inetAton (configureFlows inetAton d sys request nowNs).1
        (configureFlows inetAton d sys request nowNs).2 ↔
      (∃ flow ∈ request.flows,
        ¬ (internalConfig inetAton request.stateless flow).Acceptable) ∨
      request.Representable inetAton := by
  obtain ⟨hsys, hsuccess, -⟩ := configureFlows_spec inetAton d sys request nowNs
  unfold FlowConfig.Configured
  rw [hsuccess, hsys]
  constructor
  · intro h
    by_cases hall : ∀ flow ∈ request.flows,
        (internalConfig inetAton request.stateless flow).Acceptable
    · exact .inr (h hall).1
    · push Not at hall
      exact .inl hall
  · rintro (⟨flow, hflow, hrej⟩ | hrep) hall
    · exact absurd (hall flow hflow) hrej
    · refine ⟨hrep, fun flow hflow => ?_⟩
      obtain ⟨t, ha⟩ := mem_additions inetAton nowNs hflow
      obtain ⟨a', ha', stored, hid, hnew, hget⟩ :=
        FlowScheduler.exists_getFlow_addAll (s := sys.scheduler) (d := d) ha (hall flow hflow)
      -- the flow found under the id is of this request, so it is this flow
      obtain ⟨flow', hflow', ha'⟩ := exists_of_mem_additions ha'
      rw [ha'] at hid hnew
      obtain rfl := hrep.ids flow hflow flow' hflow' hid
      exact ⟨stored, hget, Flow.storedAs_of_newFlow (hrep.flows _ hflow) hnew⟩

/-- A request for one flow from port 70000. -/
def FlowConfig.highPort : FlowConfig := ⟨[.sample 1 70000], true⟩

/-- It is answered with success, and its flow sends from port 4464. -/
theorem Server.not_configured_highPort :
    ¬ FlowConfig.highPort.Configured sampleAton
      (configureFlows sampleAton .reference .fresh .highPort fun _ => 0).1
      (configureFlows sampleAton .reference .fresh .highPort fun _ => 0).2 := by
  intro h
  have hsuccess : (configureFlows sampleAton .reference .fresh .highPort fun _ => 0).1.success =
      true := by decide
  obtain ⟨-, hstored⟩ := h hsuccess
  obtain ⟨stored, hget, hfaithful⟩ := hstored (.sample 1 70000) (List.mem_singleton_self _)
  have hport : ((configureFlows sampleAton .reference .fresh .highPort fun _ =>
      0).2.scheduler.getFlow 1).map (·.flowKey.srcPort.toNat) = some 4464 := by decide
  have hport' := hfaithful.srcPort
  rw [show (Flow.sample 1 70000).flowId = 1 from rfl] at hget
  rw [hget, Option.map_some, hport', Option.some.injEq] at hport
  exact absurd hport (by decide)

end TrafficGen
