import TrafficGen.Control.Client

/-!
# RFC 2544 runner

`control/python_client/rfc2544_runner.py`, and the part of the client it uses: the requests its
`main` makes, in order, as far as they change the generator. It gives up at the first one that is
refused.
-/

namespace TrafficGen

/-- An entry dict of a mix: what each key `configure_imix` documents holds, if the dict has it. -/
structure IMIXDict where
  packetSize : Option UInt32 := none
  percentage : Option Float := none
  protocol : Option String := none
  enableChecksum : Option Bool := none
deriving DecidableEq, Repr

/-- A request that changes the generator. -/
inductive ClientRequest where
  | configureIMIX (request : IMIXConfig)
  | configureFlows (request : FlowConfig)
  | startTraffic (request : StartRequest)
  | stopTraffic

namespace Client

/-- One round of the loop over the entries. A float of the message is narrower than one of
    Python. -/
def imixEntry (entry : IMIXDict) : IMIXEntry where
  packetSize := entry.packetSize.getD 64
  percentage := (entry.percentage.getD 100).narrow
  protocol := entry.protocol.getD "udp"
  enableChecksum := entry.enableChecksum.getD true

/-- The request `configure_imix` sends. -/
def imixConfig (entries : List IMIXDict) (targetPps : UInt64) : IMIXConfig where
  entries := entries.map imixEntry
  targetPps := targetPps

end Client

namespace Rfc2544Runner

/-- `TARGET_PPS` -/
def targetPps : UInt64 := 1000000

/-- `RFC2544_IMIX_PROFILE` -/
def profile : List IMIXDict :=
  [{ packetSize := some 64, percentage := some 58.33, protocol := some "udp" },
    { packetSize := some 594, percentage := some 33.33, protocol := some "udp" },
    { packetSize := some 1518, percentage := some 8.34, protocol := some "udp" }]

/-- The flow `main` configures: its packets are of the mix. -/
def flow (sourceIp targetIp targetMac : String) : FlowDict where
  flowId := some 1
  srcIp := some sourceIp
  dstIp := some targetIp
  dstMac := some targetMac
  srcPort := some 10000
  dstPort := some 5201
  protocol := some "udp"
  pps := some targetPps
  packetSize := some 0

/-- The requests of `main`. The addresses are to be filled in by the user. -/
def main (sourceIp targetIp targetMac : String) : List ClientRequest :=
  [.configureIMIX (Client.imixConfig profile targetPps),
    .configureFlows (Client.flowConfig [flow sourceIp targetIp targetMac] true),
    .startTraffic ⟨true⟩,
    .stopTraffic]

end Rfc2544Runner

namespace System

/-- The request an event serves. -/
def Event.request : Event → Option ClientRequest
  | .configureIMIX request => some (.configureIMIX request)
  | .configureFlows request _ => some (.configureFlows request)
  | .startTraffic request _ _ _ => some (.startTraffic request)
  | .stopTraffic _ => some .stopTraffic
  | .workerPass _ _ | .receive _ _ _ _ => none

end System

end TrafficGen
