import TrafficGen.Core.EthDev
import TrafficGen.Core.Worker
import TrafficGen.Util.ConfigParser

/-!
# Start-up

The part of `main.cpp` between a configuration and its workers. Which lcores DPDK enabled is a
parameter, and so are the offset of the timestamp field it registered, its Ethernet devices and
what the file system holds.
-/

namespace TrafficGen.Main

/-! ## Configuration -/

/-- The configuration `main` goes on with: that of the file, or the defaults when no file is given
    or parsing it fails. -/
def loadConfig (readFile : String → Option String) (configPath : String) : AppConfig :=
  if configPath.isEmpty then ConfigParser.getDefaultConfig
  else
    match ConfigParser.parseFromFile (readFile configPath) with
    | none => ConfigParser.getDefaultConfig
    | some config => config

/-! ## Ports -/

/-- What setting up the ports leaves: the calls DPDK took, and the address of the first port
    that has one. -/
structure PortSetup where
  calls : List EthCall
  portMac : Option (List UInt8)
deriving DecidableEq, Repr

/-- One round of the loop of `configure_ports`. A port that is not there is passed over. -/
def configurePort (manager : MempoolManager) (eth : EthDevs) (setup : PortSetup)
    (portConfig : AppConfig.PortConfig) : Option PortSetup :=
  let portId := portConfig.portId
  if eth.countAvail ≤ portId then some setup
  else do
    let calls ← eth.call setup.calls
      (.devConfigure portId portConfig.nbRxQueues portConfig.nbTxQueues)
    let socketId := eth.socketId portId
    let socketId := if socketId < 0 ∨ RTE_MAX_NUMA_NODES ≤ socketId then 0 else socketId
    let calls ← (List.range portConfig.nbRxQueues.toNat).foldlM (fun calls q =>
      eth.call calls (.rxQueueSetup portId (UInt16.ofNat q) portConfig.nbRxDesc socketId
        (manager.getMempool socketId))) calls
    let calls ← (List.range portConfig.nbTxQueues.toNat).foldlM (fun calls q =>
      eth.call calls (.txQueueSetup portId (UInt16.ofNat q) portConfig.nbTxDesc socketId)) calls
    let calls ← eth.call calls (.devStart portId)
    some { calls, portMac := setup.portMac.or (eth.macaddr portId) }

/-- Probe and configure network ports. Nothing is returned when a call fails. -/
def configurePorts (manager : MempoolManager) (eth : EthDevs) (config : AppConfig) :
    Option PortSetup :=
  if eth.countAvail = 0 then none
  else config.ports.foldlM (configurePort manager eth) { calls := [], portMac := none }

/-! ## Workers -/

/-- Launch worker threads, one for each mapping of an enabled core. -/
def launchWorkers (rteLcoreIsEnabled : UInt32 → Bool) (timestampDynfieldOffset : Int)
    (config : AppConfig) : List WorkerConfig :=
  (config.coreMappings.filter fun mapping => rteLcoreIsEnabled mapping.coreId).map fun mapping =>
    { coreId := mapping.coreId
      portId := mapping.portId
      queueId := mapping.queueId
      txBurstSize := config.txBurstSize
      rxBurstSize := config.rxBurstSize
      enableRx := mapping.enableRx
      timestampDynfieldOffset }

/-- `main` from a configuration on: the metrics collector, with a slot for each core mapping,
    and the workers. Nothing starts when the configuration or the slot count is refused. -/
def start (rteLcoreIsEnabled : UInt32 → Bool) (timestampDynfieldOffset : Int) (nowNs : UInt64)
    (config : AppConfig) : Option (MetricsCollector × List WorkerConfig) :=
  if !ConfigParser.validateConfig config then none
  else
    -- the count is cut to 32 bits
    let numCores := UInt32.ofNat config.coreMappings.length
    match MetricsCollector.initializeCores numCores nowNs with
    | none => none
    | some metrics => some (metrics, launchWorkers rteLcoreIsEnabled timestampDynfieldOffset config)

end TrafficGen.Main
