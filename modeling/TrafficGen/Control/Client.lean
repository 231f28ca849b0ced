import TrafficGen.Control.Server

/-!
# Python client

The flow request of `control/python_client/client.py`. The values of a dict are in range for the
fields of the message, and the message reaches the server as it was built.
-/

namespace TrafficGen

/-- A flow dict: what each key `configure_flows` documents holds, if the dict has it, and the
    destination MAC that `rfc2544_runner.py` passes as well. -/
structure FlowDict where
  flowId : Option UInt32 := none
  srcIp : Option String := none
  dstIp : Option String := none
  srcPort : Option UInt32 := none
  dstPort : Option UInt32 := none
  protocol : Option String := none
  packetSize : Option UInt32 := none
  pps : Option UInt64 := none
  durationSeconds : Option UInt32 := none
  dstMac : Option String := none
deriving DecidableEq, Repr

namespace Client

/-- One round of the loop over the dicts. The field that is not set keeps the default of its
    type. -/
def flowEntry (flow : FlowDict) : Flow where
  flowId := flow.flowId.getD 0
  srcIp := flow.srcIp.getD "0.0.0.0"
  dstIp := flow.dstIp.getD "0.0.0.0"
  srcPort := flow.srcPort.getD 0
  dstPort := flow.dstPort.getD 0
  protocol := flow.protocol.getD "udp"
  packetSize := flow.packetSize.getD 64
  pps := flow.pps.getD 1000
  durationSeconds := flow.durationSeconds.getD 0
  dstMac := ""

/-- The request `configure_flows` sends. -/
def flowConfig (flows : List FlowDict) (stateless : Bool) : FlowConfig where
  flows := flows.map flowEntry
  stateless := stateless

end Client

end TrafficGen
