import TrafficGen.Control.Client
import TrafficGen.Spec.FlowRequests

/-!
# Client and server on a flow

A flow is a dict in the client, a message on the wire and settings in the server, and both
conversions list the fields by hand. The client leaves the destination MAC out of the message,
and the server cuts ports to 16 bits and takes an address that does not parse for zero; all
other values arrive.

## Key results

- `carries_iff`: when the settings of one flow carry its dict
- `agree_iff`: when client and server agree on a list of flows
-/

namespace TrafficGen

/-- Settings carry the values of a dict, and the default of each key it does not have. -/
structure FlowDict.CarriedBy (inetAton : String → Option UInt32) (flow : FlowDict)
    (config : FlowSettings) : Prop where
  flowId : config.flowId = flow.flowId.getD 0
  srcIp : inetAton (flow.srcIp.getD "0.0.0.0") = some config.flowKey.srcIp
  dstIp : inetAton (flow.dstIp.getD "0.0.0.0") = some config.flowKey.dstIp
  srcPort : config.flowKey.srcPort.toNat = (flow.srcPort.getD 0).toNat
  dstPort : config.flowKey.dstPort.toNat = (flow.dstPort.getD 0).toNat
  protocol : config.protocol = flow.protocol.getD "udp"
  packetSize : config.packetSize = flow.packetSize.getD 64
  pps : config.pps = flow.pps.getD 1000
  durationSeconds : config.durationSeconds = flow.durationSeconds.getD 0
  dstMac : config.dstMac = flow.dstMac.getD ""

/-- A dict that says nothing of the destination MAC, with ports of 16 bits and addresses that
    parse. -/
structure FlowDict.Deliverable (inetAton : String → Option UInt32) (flow : FlowDict) : Prop where
  srcIp : (inetAton (flow.srcIp.getD "0.0.0.0")).isSome
  dstIp : (inetAton (flow.dstIp.getD "0.0.0.0")).isSome
  srcPort : (flow.srcPort.getD 0).toNat ≤ 65535
  dstPort : (flow.dstPort.getD 0).toNat ≤ 65535
  dstMac : flow.dstMac.getD "" = ""

namespace Server

variable {inetAton : String → Option UInt32} {stateless : Bool}

/-- An address arrives exactly when its text parses. -/
theorem ipToUint32_eq_iff (ip : String) :
    inetAton ip = some (ipToUint32 inetAton ip) ↔ (inetAton ip).isSome := by
  rw [ipToUint32]
  cases inetAton ip with
  | none => simp
  | some addr => simp

/-- A port arrives exactly when it has 16 bits. -/
theorem toNat_toUInt16_eq_iff (port : UInt32) :
    port.toUInt16.toNat = port.toNat ↔ port.toNat ≤ 65535 := by
  rw [UInt32.toNat_toUInt16]
  omega

/-- The settings the server builds of one dict. -/
theorem carries_iff (flow : FlowDict) :
    flow.CarriedBy inetAton (internalConfig inetAton stateless (Client.flowEntry flow)) ↔
      flow.Deliverable inetAton := by
  constructor
  · intro h
    exact {
      srcIp := (ipToUint32_eq_iff _).mp h.srcIp
      dstIp := (ipToUint32_eq_iff _).mp h.dstIp
      srcPort := (toNat_toUInt16_eq_iff _).mp h.srcPort
      dstPort := (toNat_toUInt16_eq_iff _).mp h.dstPort
      dstMac := h.dstMac.symm }
  · intro h
    exact {
      flowId := rfl
      srcIp := (ipToUint32_eq_iff _).mpr h.srcIp
      dstIp := (ipToUint32_eq_iff _).mpr h.dstIp
      srcPort := (toNat_toUInt16_eq_iff _).mpr h.srcPort
      dstPort := (toNat_toUInt16_eq_iff _).mpr h.dstPort
      protocol := rfl
      packetSize := rfl
      pps := rfl
      durationSeconds := rfl
      dstMac := h.dstMac.symm }

/-- The settings `ConfigureFlows` adds for a request of the client, in order. -/
theorem map_fst_additions (inetAton : String → Option UInt32) (flows : List FlowDict)
    (stateless : Bool) (nowNs : Nat → UInt64) :
    (additions inetAton (Client.flowConfig flows stateless) nowNs).map (·.1) =
      flows.map fun flow => internalConfig inetAton stateless (Client.flowEntry flow) := by
  have hfst := List.zipIdx_map_fst 0 (flows.map Client.flowEntry)
  rw [additions, List.map_map]
  show (List.zipIdx (flows.map Client.flowEntry)).map
    (fun x => internalConfig inetAton stateless x.1) = _
  rw [← Function.comp_def (internalConfig inetAton stateless) Prod.fst, ← List.map_map, hfst,
    List.map_map]
  rfl

/-- Client and server agree on flows: what is added for them carries them one by one. -/
def Agree (inetAton : String → Option UInt32) (flows : List FlowDict) (stateless : Bool)
    (nowNs : Nat → UInt64) : Prop :=
  List.Forall₂ (FlowDict.CarriedBy inetAton) flows
    ((additions inetAton (Client.flowConfig flows stateless) nowNs).map (·.1))

/-- For all dicts with values in range for the message, client and server agree exactly when
    every dict is deliverable. -/
theorem agree_iff (inetAton : String → Option UInt32) (flows : List FlowDict) (stateless : Bool)
    (nowNs : Nat → UInt64) :
    Agree inetAton flows stateless nowNs ↔ ∀ flow ∈ flows, flow.Deliverable inetAton := by
  rw [Agree, map_fst_additions, List.forall₂_map_right_iff]
  induction flows with
  | nil => simp
  | cons flow flows ih =>
    rw [List.forall₂_cons, List.forall_mem_cons, carries_iff, ih]

end Server

/-- The flow of `rfc2544_runner.py`. -/
def FlowDict.rfc2544 : FlowDict where
  flowId := some 1
  srcIp := some "10.130.3.168"
  dstIp := some "10.130.39.47"
  dstMac := some "02:e1:3e:35:fc:37"
  srcPort := some 10000
  dstPort := some 5201
  protocol := some "udp"
  pps := some 1000000
  packetSize := some 0

/-- What `inet_aton` makes of its addresses. -/
def Server.rfc2544Aton (ip : String) : Option UInt32 :=
  if ip = "10.130.3.168" then some 0xA803820A
  else if ip = "10.130.39.47" then some 0x2F27820A
  else none

/-- It is configured without its destination MAC. -/
theorem Server.not_agree_rfc2544 : ¬ Agree rfc2544Aton [.rfc2544] true fun _ => 0 := by
  intro h
  rw [Agree, map_fst_additions] at h
  cases h with
  | cons hcarried hnil => exact absurd hcarried.dstMac (by decide)

end TrafficGen
