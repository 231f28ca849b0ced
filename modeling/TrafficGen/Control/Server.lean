import TrafficGen.Core.Worker
import TrafficGen.ForStd.Run

/-!
# Control server

The configuration RPCs of `control/grpc/server.cpp`, with the messages of
`proto/traffic_generator.proto`, and the runs of the whole generator: requests, worker
passes and received segments in any order. `inet_aton` is a parameter.
-/

namespace TrafficGen

/-! ## Messages -/

/-- A single traffic flow definition. -/
structure Flow where
  flowId : UInt32
  srcIp : String
  dstIp : String
  srcPort : UInt32
  dstPort : UInt32
  protocol : String
  packetSize : UInt32
  pps : UInt64
  durationSeconds : UInt32
  dstMac : String
deriving DecidableEq, Repr

/-- A request to configure multiple flows. -/
structure FlowConfig where
  flows : List Flow
  stateless : Bool
deriving DecidableEq, Repr

/-- An entry in the IMIX profile. -/
structure IMIXEntry where
  packetSize : UInt32
  percentage : Float32
  protocol : String
  enableChecksum : Bool
deriving DecidableEq, Repr

/-- Configuration for an IMIX traffic profile. -/
structure IMIXConfig where
  entries : List IMIXEntry
  targetPps : UInt64

structure StartRequest where
  resetStats : Bool
deriving DecidableEq, Repr

structure StatsRequest where
  /-- Include per-flow stats. -/
  detailed : Bool
deriving DecidableEq, Repr

structure GlobalMetrics where
  totalTxPackets : UInt64
  totalRxPackets : UInt64
  totalTxBytes : UInt64
  totalRxBytes : UInt64
  currentPps : Rat
  currentBps : Rat
  errors : UInt64
deriving DecidableEq, Repr

structure FlowStats where
  flowId : UInt32
  txPackets : UInt64
  txBytes : UInt64
  avgPps : Rat
deriving DecidableEq, Repr

structure StatsResponse where
  metrics : GlobalMetrics
  uptimeSeconds : UInt64
  flowStats : AList fun _ : UInt32 => FlowStats

/-- Generic status response for configuration RPCs. -/
structure StatusResponse where
  success : Bool
  message : String
  errorCode : Int
deriving DecidableEq, Repr

namespace Server

/-! ## Requests -/

/-- `ip_to_uint32`: the address in network byte order, `0` when it does not parse. -/
def ipToUint32 (inetAton : String → Option UInt32) (ip : String) : UInt32 :=
  (inetAton ip).getD 0

/-- Ports are cut to 16 bits, and an unknown protocol counts as UDP. -/
def convertProtoFlowKey (inetAton : String → Option UInt32) (flow : Flow) : FlowKey where
  srcIp := ipToUint32 inetAton flow.srcIp
  dstIp := ipToUint32 inetAton flow.dstIp
  srcPort := flow.srcPort.toUInt16
  dstPort := flow.dstPort.toUInt16
  protocol :=
    if flow.protocol = "tcp" then IPPROTO_TCP
    else if flow.protocol = "udp" then IPPROTO_UDP
    else if flow.protocol = "icmp" then IPPROTO_ICMP
    else IPPROTO_UDP

/-- The internal configuration of a flow message. -/
def internalConfig (inetAton : String → Option UInt32) (stateless : Bool) (flow : Flow) :
    FlowSettings where
  flowId := flow.flowId
  flowKey := convertProtoFlowKey inetAton flow
  packetSize := flow.packetSize
  protocol := flow.protocol
  pps := flow.pps
  durationSeconds := flow.durationSeconds
  stateless := stateless
  dstMac := flow.dstMac

/-- What the loop of `ConfigureFlows` keeps. -/
structure AddResult where
  allSuccess : Bool := true
  errorMessage : String := ""
  scheduler : FlowScheduler

/-- One round of the loop: a flow that fails is named in the error message, and the next is
    tried. -/
def addFlow (inetAton : String → Option UInt32) (d : Dpdk) (stateless : Bool) (res : AddResult)
    (flow : Flow) (nowNs : UInt64) : AddResult :=
  let (added, scheduler) :=
    res.scheduler.addFlow d (internalConfig inetAton stateless flow) nowNs
  if added then { res with scheduler := scheduler }
  else
    { allSuccess := false
      errorMessage :=
        res.errorMessage ++ ("Failed to add flow " ++ toString flow.flowId.toNat ++ "; ")
      scheduler := scheduler }

/-- Configure a set of specific flows. `nowNs` is the clock read for each flow. -/
def configureFlows (inetAton : String → Option UInt32) (d : Dpdk) (sys : System)
    (request : FlowConfig) (nowNs : Nat → UInt64) : StatusResponse × System :=
  let res := request.flows.zipIdx.foldl
    (fun res (flow, i) => addFlow inetAton d request.stateless res flow (nowNs i))
    { scheduler := sys.scheduler }
  let sys := { sys with scheduler := res.scheduler }
  if res.allSuccess then (⟨true, "All flows configured successfully", 0⟩, sys)
  else (⟨false, "Some flows failed to configure: " ++ res.errorMessage, -1⟩, sys)

def convertProtoImixEntry (entry : IMIXEntry) : IMIXEntryInternal where
  packetSize := entry.packetSize
  percentage := entry.percentage.widen
  protocol := entry.protocol
  enableChecksum := entry.enableChecksum

/-- Configure the IMIX profile. -/
def configureIMIX (sys : System) (request : IMIXConfig) : StatusResponse × System :=
  let entries := request.entries.map convertProtoImixEntry
  let (configured, imixEngine) := sys.imixEngine.configure entries request.targetPps
  let sys := { sys with imixEngine := imixEngine }
  if configured then (⟨true, "IMIX configured successfully", 0⟩, sys)
  else (⟨false, "Failed to configure IMIX", -1⟩, sys)

/-- The clock reads of one `start_flow` call: its own and its bucket's. -/
structure StartClock where
  nowNs : UInt64
  bucketNowNs : UInt64

/-- Start traffic generation for all configured flows, in the order `order` walks the table. -/
def startTraffic (sys : System) (request : StartRequest) (order : List UInt32) (nowNs : UInt64)
    (clock : UInt32 → StartClock) : StatusResponse × System :=
  let metrics :=
    if request.resetStats then sys.metricsCollector.resetAll nowNs else sys.metricsCollector
  let sys := { sys with metricsCollector := metrics }
  -- the statistics are reset even when there is nothing to start
  let allFlows := FlowScheduler.walk order sys.scheduler.flows.keys
  if allFlows.isEmpty then (⟨false, "No flows configured to start", -2⟩, sys)
  else
    let scheduler := allFlows.foldl
      (fun s id => (s.startFlow id (clock id).nowNs (clock id).bucketNowNs).2) sys.scheduler
    (⟨true, "Traffic generation started", 0⟩,
      { sys with scheduler := scheduler, metricsCollector := metrics.setRunning true })

/-- Stop traffic generation. -/
def stopTraffic (sys : System) (order : List UInt32) : StatusResponse × System :=
  let scheduler := (sys.scheduler.getActiveFlows order).foldl
    (fun s id => (s.stopFlow id).2) sys.scheduler
  (⟨true, "Traffic generation stopped", 0⟩,
    { sys with
      scheduler := scheduler
      metricsCollector := sys.metricsCollector.setRunning false })

/-! ## Statistics -/

/-- The clock reads of one `GetStats` request: two for each core's rates, one for the uptime, and
    one for the uptime each flow's average is taken over. -/
structure StatsClock where
  pps : UInt32 → UInt64 × UInt64
  bps : UInt32 → UInt64 × UInt64
  uptimeNowNs : UInt64
  flowNowNs : UInt32 → UInt64

/-- The statistics of one flow: its counters, and their average over the uptime. -/
def flowStats (metrics : MetricsCollector) (nowNs : UInt64) (cfg : FlowSnapshot) : FlowStats where
  flowId := cfg.flowId
  txPackets := cfg.packetsSent
  txBytes := cfg.bytesSent
  avgPps :=
    let uptime := metrics.getUptimeSeconds nowNs
    if uptime > 0 then cfg.packetsSent.toNat / uptime.toNat else 0

/-- Get summary statistics. The rates bring the collector's snapshots up to date. -/
def getStats (sys : System) (request : StatsRequest) (order : List UInt32) (clock : StatsClock) :
    StatsResponse × System :=
  let globalStats := sys.metricsCollector.getGlobalStats
  let (currentPps, metrics) := sys.metricsCollector.calculateGlobalRate
    MetricsCollector.calculateCurrentPps clock.pps
  let (currentBps, metrics) := metrics.calculateGlobalRate
    MetricsCollector.calculateCurrentBps clock.bps
  let flows := if request.detailed then sys.scheduler.getAllFlowsSnapshot order else []
  ({ metrics :=
       { totalTxPackets := globalStats.txPackets
         totalRxPackets := globalStats.rxPackets
         totalTxBytes := globalStats.txBytes
         totalRxBytes := globalStats.rxBytes
         currentPps
         currentBps
         errors := globalStats.errors }
     uptimeSeconds := metrics.getUptimeSeconds clock.uptimeNowNs
     flowStats := flows.foldl
       (fun stats cfg =>
         stats.insert cfg.flowId (flowStats metrics (clock.flowNowNs cfg.flowId) cfg)) ∅ },
    { sys with metricsCollector := metrics })

end Server

/-! ## Runs of the generator -/

namespace System

/-- One thing that happens to the generator. -/
inductive Event where
  | configureFlows (request : FlowConfig) (nowNs : Nat → UInt64)
  | configureIMIX (request : IMIXConfig)
  | startTraffic (request : StartRequest) (order : List UInt32) (nowNs : UInt64)
      (clock : UInt32 → Server.StartClock)
  | stopTraffic (order : List UInt32)
  | workerPass (cfg : WorkerConfig) (input : Worker.PassInput)
  | receive (key : FlowKey) (tcpHdr : RteTcpHdr) (payloadLen : UInt32) (nowNs : UInt64)

variable (inetAton : String → Option UInt32) (d : Dpdk) (r : Rng)

/-- The generator after an event. -/
def step (sys : System) : Event → System
  | .configureFlows request nowNs => (Server.configureFlows inetAton d sys request nowNs).2
  | .configureIMIX request => (Server.configureIMIX sys request).2
  | .startTraffic request order nowNs clock => (Server.startTraffic sys request order nowNs clock).2
  | .stopTraffic order => (Server.stopTraffic sys order).2
  | .workerPass cfg input => (Worker.processFlows cfg d r sys input).1
  | .receive key tcpHdr payloadLen nowNs =>
    { sys with scheduler := sys.scheduler.handleTcpRx key tcpHdr payloadLen nowNs }

/-- The packets an event puts in a burst, each with whether the NIC took it. -/
def outcomes (sys : System) : Event → List (BuiltPacket × Bool)
  | .workerPass cfg input => (Worker.processFlows cfg d r sys input).2.outcomes
  | _ => []

/-- The packets of a whole run. -/
def runOutcomes : System → List Event → List (BuiltPacket × Bool) :=
  Run.collect (step inetAton d r) (outcomes d r)

/-- A generator that has just been started: no flow is configured yet. -/
def Initial (sys : System) : Prop :=
  ∃ srcMac, sys.scheduler = .new srcMac

/-- A generator some run leads to. -/
def Reachable : System → Prop :=
  Run.Reachable (step inetAton d r) Initial

end System

end TrafficGen
