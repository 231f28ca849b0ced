import Mathlib.Data.List.Nodup
import TrafficGen.ForStd.Run
import TrafficGen.Main

/-!
# The queues of the workers

`configure_ports` sets up, on each port that is there, the queues its entry counts
(`counted_configurePorts`), and each worker then uses the queue its mapping names.
`validate_config` looks only for an entry of the mapping's port, so the workers have queues of
their own exactly when the mappings pass the checks it leaves out.

## Key results

- `drawsFrom_configurePorts`: the pool of an RX queue is the one packets are sent from
- `ownQueues_iff`: the checks a configuration needs beyond those of `validate_config`
- `OwnQueues.launchWorkers`: with them, no worker is on a queue that is not set up
-/

namespace TrafficGen

/-- The entry of a port, the last one if it has several. -/
def AppConfig.entryOf (ports : List AppConfig.PortConfig) (portId : UInt16) :
    Option AppConfig.PortConfig :=
  ports.reverse.find? (·.portId = portId)

theorem AppConfig.entryOf_append (ports : List AppConfig.PortConfig) (port : AppConfig.PortConfig)
    (portId : UInt16) :
    entryOf (ports ++ [port]) portId =
      if port.portId = portId then some port else entryOf ports portId := by
  rw [entryOf, List.reverse_append, List.reverse_singleton, List.singleton_append, List.find?_cons]
  by_cases h : port.portId = portId
  · simp [h]
  · simp [h, entryOf]

theorem AppConfig.exists_entryOf {ports : List AppConfig.PortConfig} {portId : UInt16}
    (h : ports.any fun port => port.portId = portId) :
    ∃ entry, entryOf ports portId = some entry := by
  obtain ⟨port, hport, hid⟩ := List.any_eq_true.mp h
  exact Option.isSome_iff_exists.mp
    (List.find?_isSome.mpr ⟨port, List.mem_reverse.mpr hport, hid⟩)

namespace Main

/-! ## Setting up one port -/

/-- The queues of one port. -/
def queuesOf (portId nbQueues : UInt16) : List (UInt16 × UInt16) :=
  (List.range nbQueues.toNat).map fun q => (portId, UInt16.ofNat q)

theorem mem_queuesOf {portId nbQueues port queue : UInt16} :
    (port, queue) ∈ queuesOf portId nbQueues ↔ port = portId ∧ queue < nbQueues := by
  rw [queuesOf, List.mem_map]
  constructor
  · rintro ⟨q, hq, heq⟩
    obtain ⟨rfl, rfl⟩ := Prod.mk.inj heq
    rw [List.mem_range] at hq
    have hlt : q < 65536 := hq.trans nbQueues.toNat_lt
    refine ⟨rfl, ?_⟩
    rw [UInt16.lt_iff_toNat_lt, UInt16.toNat_ofNat_of_lt' hlt]
    exact hq
  · rintro ⟨rfl, hlt⟩
    exact ⟨queue.toNat, List.mem_range.mpr hlt, by rw [UInt16.ofNat_toNat]⟩

variable {manager : MempoolManager} {eth : EthDevs}

/-- The loop over the RX queues adds those of the port. -/
theorem rx_loop {portId nbRxDesc : UInt16} {socketId : Int} {pool : Option RteMempool} {n : Nat}
    {made calls : List EthCall}
    (h : (List.range n).foldlM (fun calls q =>
      eth.call calls (.rxQueueSetup portId (UInt16.ofNat q) nbRxDesc socketId pool)) made =
      some calls) :
    EthQueues.of calls = { EthQueues.of made with
      rx := (EthQueues.of made).rx ++ (List.range n).map fun q => (portId, UInt16.ofNat q) } := by
  apply Run.foldlM_induct (P := fun done calls => EthQueues.of calls = { EthQueues.of made with
    rx := (EthQueues.of made).rx ++ done.map fun q => (portId, UInt16.ofNat q) }) _ _ h
  · rw [List.map_nil, List.append_nil]
  · intro done q calls calls' hdone hcall
    rw [EthDevs.of_call hcall, hdone, EthQueues.after, List.map_append, List.append_assoc]
    rfl

/-- The loop over the TX queues adds those of the port. -/
theorem tx_loop {portId nbTxDesc : UInt16} {socketId : Int} {n : Nat} {made calls : List EthCall}
    (h : (List.range n).foldlM (fun calls q =>
      eth.call calls (.txQueueSetup portId (UInt16.ofNat q) nbTxDesc socketId)) made =
      some calls) :
    EthQueues.of calls = { EthQueues.of made with
      tx := (EthQueues.of made).tx ++ (List.range n).map fun q => (portId, UInt16.ofNat q) } := by
  apply Run.foldlM_induct (P := fun done calls => EthQueues.of calls = { EthQueues.of made with
    tx := (EthQueues.of made).tx ++ done.map fun q => (portId, UInt16.ofNat q) }) _ _ h
  · rw [List.map_nil, List.append_nil]
  · intro done q calls calls' hdone hcall
    rw [EthDevs.of_call hcall, hdone, EthQueues.after, List.map_append, List.append_assoc]
    rfl

/-- The calls that set up a port that is there. -/
theorem exists_calls_of_configurePort {setup setup' : PortSetup} {port : AppConfig.PortConfig}
    (hthere : port.portId < eth.countAvail)
    (h : configurePort manager eth setup port = some setup') :
    ∃ socketId configured received sending,
      eth.call setup.calls (.devConfigure port.portId port.nbRxQueues port.nbTxQueues) =
        some configured ∧
      (List.range port.nbRxQueues.toNat).foldlM (fun calls q => eth.call calls
        (.rxQueueSetup port.portId (UInt16.ofNat q) port.nbRxDesc socketId
          (manager.getMempool socketId))) configured = some received ∧
      (List.range port.nbTxQueues.toNat).foldlM (fun calls q => eth.call calls
        (.txQueueSetup port.portId (UInt16.ofNat q) port.nbTxDesc socketId)) received =
        some sending ∧
      eth.call sending (.devStart port.portId) = some setup'.calls := by
  rw [configurePort, if_neg (UInt16.not_le.mpr hthere)] at h
  simp only [Option.bind_eq_bind, Option.bind_eq_some_iff, Option.some.injEq] at h
  obtain ⟨configured, hconfigured, received, hreceived, sending, hsending, started, hstarted,
    rfl⟩ := h
  exact ⟨_, configured, received, sending, hconfigured, hreceived, hsending, hstarted⟩

/-- A port that is there has the queues of its entry, and the other ports have theirs still. -/
theorem of_configurePort {setup setup' : PortSetup} {port : AppConfig.PortConfig}
    (hthere : port.portId < eth.countAvail)
    (h : configurePort manager eth setup port = some setup') :
    EthQueues.of setup'.calls =
      { rx := (EthQueues.of setup.calls).rx.filter (·.1 ≠ port.portId) ++
          queuesOf port.portId port.nbRxQueues
        tx := (EthQueues.of setup.calls).tx.filter (·.1 ≠ port.portId) ++
          queuesOf port.portId port.nbTxQueues } := by
  obtain ⟨_, configured, received, sending, hconfigured, hreceived, hsending, hstarted⟩ :=
    exists_calls_of_configurePort hthere h
  rw [EthDevs.of_call hstarted, EthQueues.after, tx_loop hsending, rx_loop hreceived,
    EthDevs.of_call hconfigured]
  rfl

/-- A port that is not there is passed over. -/
theorem configurePort_absent {setup : PortSetup} {port : AppConfig.PortConfig}
    (habsent : ¬ port.portId < eth.countAvail) :
    configurePort manager eth setup port = some setup :=
  if_pos (UInt16.not_lt.mp habsent)

/-- The call sets up no RX queue, or one that takes its mbufs from the pool of its socket. -/
def DrawsFrom (manager : MempoolManager) (call : EthCall) : Prop :=
  ∀ portId queueId nbRxDesc socketId pool,
    call = .rxQueueSetup portId queueId nbRxDesc socketId pool →
      pool = manager.getMempool socketId

theorem drawsFrom_configurePort {setup setup' : PortSetup} {port : AppConfig.PortConfig}
    (h : configurePort manager eth setup port = some setup')
    (hsetup : ∀ call ∈ setup.calls, DrawsFrom manager call) :
    ∀ call ∈ setup'.calls, DrawsFrom manager call := by
  by_cases hthere : port.portId < eth.countAvail
  · obtain ⟨_, configured, received, sending, hconfigured, hreceived, hsending, hstarted⟩ :=
      exists_calls_of_configurePort hthere h
    have hmade := EthDevs.forall_of_call (Q := DrawsFrom manager) hconfigured hsetup
      (fun _ _ _ _ _ heq => by cases heq)
    have hrx : ∀ call ∈ received, DrawsFrom manager call := by
      apply Run.foldlM_induct (P := fun _ calls => ∀ call ∈ calls, DrawsFrom manager call)
        hmade _ hreceived
      intro _ _ _ _ hcalls hcall
      refine EthDevs.forall_of_call hcall hcalls fun _ _ _ _ _ heq => ?_
      cases heq
      rfl
    have htx : ∀ call ∈ sending, DrawsFrom manager call := by
      apply Run.foldlM_induct (P := fun _ calls => ∀ call ∈ calls, DrawsFrom manager call)
        hrx _ hsending
      intro _ _ _ _ hcalls hcall
      exact EthDevs.forall_of_call hcall hcalls (fun _ _ _ _ _ heq => by cases heq)
    exact EthDevs.forall_of_call hstarted htx (fun _ _ _ _ _ heq => by cases heq)
  · rw [configurePort_absent hthere, Option.some.injEq] at h
    rwa [← h]

/-! ## Setting up the ports -/

/-- Every RX queue takes its mbufs from the pool that the workers of its socket send from. -/
theorem drawsFrom_configurePorts {config : AppConfig} {setup : PortSetup}
    (h : configurePorts manager eth config = some setup) :
    ∀ call ∈ setup.calls, DrawsFrom manager call := by
  rw [configurePorts] at h
  split at h
  · cases h
  · apply Run.foldlM_induct
      (P := fun _ (setup : PortSetup) => ∀ call ∈ setup.calls, DrawsFrom manager call) _ _ h
    · exact fun _ hcall => absurd hcall List.not_mem_nil
    · exact fun _ _ _ _ hsetup hport => drawsFrom_configurePort hport hsetup

/-- One direction of the queues, after the entries `ports`: those that the entry of their port
    counts. -/
def Counted (eth : EthDevs) (count : AppConfig.PortConfig → UInt16)
    (ports : List AppConfig.PortConfig) (queues : List (UInt16 × UInt16)) : Prop :=
  ∀ port queue, (port, queue) ∈ queues ↔
    port < eth.countAvail ∧ ∃ entry, AppConfig.entryOf ports port = some entry ∧ queue < count entry

theorem counted_nil (count : AppConfig.PortConfig → UInt16) : Counted eth count [] [] := by
  intro port queue
  simp [AppConfig.entryOf]

theorem Counted.absent {count : AppConfig.PortConfig → UInt16} {ports : List AppConfig.PortConfig}
    {queues : List (UInt16 × UInt16)} (h : Counted eth count ports queues)
    {entry : AppConfig.PortConfig} (habsent : ¬ entry.portId < eth.countAvail) :
    Counted eth count (ports ++ [entry]) queues := by
  intro port queue
  rw [h port queue, AppConfig.entryOf_append]
  apply and_congr_right
  intro hthere
  rw [if_neg]
  rintro rfl
  exact habsent hthere

theorem Counted.configured {count : AppConfig.PortConfig → UInt16}
    {ports : List AppConfig.PortConfig} {queues : List (UInt16 × UInt16)}
    (h : Counted eth count ports queues) {entry : AppConfig.PortConfig}
    (hthere : entry.portId < eth.countAvail) :
    Counted eth count (ports ++ [entry])
      (queues.filter (·.1 ≠ entry.portId) ++ queuesOf entry.portId (count entry)) := by
  intro port queue
  rw [List.mem_append, List.mem_filter, h port queue, mem_queuesOf, AppConfig.entryOf_append]
  by_cases hport : entry.portId = port
  · subst hport
    simp [hthere]
  · simp [hport, Ne.symm hport]

/-- The queues set up are, on each port that is there, as many as its entry says. -/
theorem counted_configurePorts {config : AppConfig} {setup : PortSetup}
    (h : configurePorts manager eth config = some setup) :
    Counted eth (·.nbRxQueues) config.ports (EthQueues.of setup.calls).rx ∧
      Counted eth (·.nbTxQueues) config.ports (EthQueues.of setup.calls).tx := by
  rw [configurePorts] at h
  split at h
  · cases h
  · apply Run.foldlM_induct (P := fun ports setup =>
      Counted eth (·.nbRxQueues) ports (EthQueues.of setup.calls).rx ∧
        Counted eth (·.nbTxQueues) ports (EthQueues.of setup.calls).tx) _ _ h
    · exact ⟨counted_nil _, counted_nil _⟩
    · intro ports setup entry setup' ⟨hrx, htx⟩ hentry
      by_cases hthere : entry.portId < eth.countAvail
      · rw [of_configurePort hthere hentry]
        exact ⟨hrx.configured hthere, htx.configured hthere⟩
      · rw [configurePort_absent hthere, Option.some.injEq] at hentry
        subst hentry
        exact ⟨hrx.absent hthere, htx.absent hthere⟩

/-! ## A queue for each worker -/

/-- Every mapping has a queue of its own that may be used, and bursts are not empty. -/
structure OwnQueues (config : AppConfig) (queues : EthQueues) : Prop where
  tx : ∀ mapping ∈ config.coreMappings, (mapping.portId, mapping.queueId) ∈ queues.tx
  rx : ∀ mapping ∈ config.coreMappings, mapping.enableRx →
    (mapping.portId, mapping.queueId) ∈ queues.rx
  distinct : config.coreMappings.Pairwise fun a b => (a.portId, a.queueId) ≠ (b.portId, b.queueId)
  txBurst : 1 ≤ config.txBurstSize
  rxBurst : 1 ≤ config.rxBurstSize

/-- What `validate_config` leaves unchecked: the queue of each mapping against the counts of its
    port's entry, the port against the ports there are, two mappings against each other, and the
    burst sizes. -/
structure MappingsFit (nbPorts : UInt16) (config : AppConfig) : Prop where
  port : ∀ mapping ∈ config.coreMappings, mapping.portId < nbPorts
  queue : ∀ mapping ∈ config.coreMappings, ∀ entry,
    AppConfig.entryOf config.ports mapping.portId = some entry →
      mapping.queueId < entry.nbTxQueues ∧ (mapping.enableRx → mapping.queueId < entry.nbRxQueues)
  distinct : (config.coreMappings.map fun mapping => (mapping.portId, mapping.queueId)).Nodup
  bursts : config.txBurstSize ≠ 0 ∧ config.rxBurstSize ≠ 0

/-- A configuration that is accepted has an entry for the port of each mapping. -/
theorem exists_entryOf_of_validateConfig {config : AppConfig}
    (hvalid : ConfigParser.validateConfig config) :
    ∀ mapping ∈ config.coreMappings, ∃ entry,
      AppConfig.entryOf config.ports mapping.portId = some entry := by
  intro mapping hmapping
  have hports : config.coreMappings.all fun mapping =>
      config.ports.any fun port => port.portId = mapping.portId := by
    rw [ConfigParser.validateConfig] at hvalid
    split_ifs at hvalid
    exact hvalid
  exact AppConfig.exists_entryOf (List.all_eq_true.mp hports mapping hmapping)

theorem one_le_iff_ne_zero (n : UInt16) : 1 ≤ n ↔ n ≠ 0 := by
  rw [UInt16.le_iff_toNat_le, ne_eq, ← UInt16.toNat_inj]
  exact Nat.one_le_iff_ne_zero

/-- When the ports are set up for a configuration that was accepted, each worker has a usable
    queue of its own exactly if the mappings also pass the checks that are left out. -/
theorem ownQueues_iff (manager : MempoolManager) (eth : EthDevs) (config : AppConfig)
    (setup : PortSetup) (hvalid : ConfigParser.validateConfig config)
    (hports : configurePorts manager eth config = some setup) :
    OwnQueues config (EthQueues.of setup.calls) ↔ MappingsFit eth.countAvail config := by
  obtain ⟨hrx, htx⟩ := counted_configurePorts hports
  constructor
  · intro h
    have hqueue := fun mapping hmapping => (htx _ _).mp (h.tx mapping hmapping)
    refine ⟨fun mapping hmapping => (hqueue mapping hmapping).1, ?_, ?_, ?_⟩
    · intro mapping hmapping entry hentry
      obtain ⟨-, entry', hentry', hlt⟩ := hqueue mapping hmapping
      cases hentry.symm.trans hentry'
      refine ⟨hlt, fun henable => ?_⟩
      obtain ⟨-, entry', hentry', hlt⟩ := (hrx _ _).mp (h.rx mapping hmapping henable)
      cases hentry.symm.trans hentry'
      exact hlt
    · exact List.pairwise_map.mpr h.distinct
    · exact ⟨(one_le_iff_ne_zero _).mp h.txBurst, (one_le_iff_ne_zero _).mp h.rxBurst⟩
  · intro h
    have hentry := exists_entryOf_of_validateConfig hvalid
    refine ⟨?_, ?_, List.pairwise_map.mp h.distinct, (one_le_iff_ne_zero _).mpr h.bursts.1,
      (one_le_iff_ne_zero _).mpr h.bursts.2⟩
    · intro mapping hmapping
      obtain ⟨entry, hentry⟩ := hentry mapping hmapping
      exact (htx _ _).mpr ⟨h.port mapping hmapping, entry, hentry,
        (h.queue mapping hmapping entry hentry).1⟩
    · intro mapping hmapping henable
      obtain ⟨entry, hentry⟩ := hentry mapping hmapping
      exact (hrx _ _).mpr ⟨h.port mapping hmapping, entry, hentry,
        (h.queue mapping hmapping entry hentry).2 henable⟩

/-- One port, of which DPDK takes every call but an RX queue without a pool. -/
def EthDevs.single : EthDevs where
  countAvail := 1
  socketId := fun _ => 0
  macaddr := fun _ => some [2, 0, 0, 0, 0, 1]
  status := fun _ call =>
    match call with
    | .rxQueueSetup _ _ _ _ none => -22
    | _ => 0

/-- The pools for the default configuration on one socket. -/
def pools : MempoolManager :=
  (MempoolManager.new.initializePools (fun _ => ⟨true, true⟩) 1 8192 512 "pool").2

theorem configurePorts_default : ∃ setup,
    configurePorts pools EthDevs.single ConfigParser.getDefaultConfig = some setup :=
  ⟨_, rfl⟩

theorem ownQueues_iff_default : ∃ setup,
    configurePorts pools EthDevs.single ConfigParser.getDefaultConfig = some setup ∧
      (OwnQueues ConfigParser.getDefaultConfig (EthQueues.of setup.calls) ↔
        MappingsFit 1 ConfigParser.getDefaultConfig) := by
  obtain ⟨setup, hports⟩ := configurePorts_default
  exact ⟨setup, hports, ownQueues_iff pools EthDevs.single _ setup (by decide) hports⟩

/-- The default configuration with a second core on the next queue of the port, which has one
    queue in each direction. -/
def secondCore : AppConfig :=
  { ConfigParser.getDefaultConfig with
    coreMappings := [{ coreId := 1, portId := 0, queueId := 0, enableRx := false },
      { coreId := 2, portId := 0, queueId := 1, enableRx := true }] }

/-- It is accepted and its ports are set up, but the queue of the second worker is not. -/
theorem not_ownQueues_secondCore : ConfigParser.validateConfig secondCore ∧
    ∃ setup, configurePorts pools EthDevs.single secondCore = some setup ∧
      ¬ OwnQueues secondCore (EthQueues.of setup.calls) := by
  refine ⟨by decide, _, rfl, fun h => ?_⟩
  have htx := h.tx { coreId := 2, portId := 0, queueId := 1, enableRx := true } (by decide)
  exact absurd htx (by decide)

/-- Each worker that is launched is on the queue of a mapping, with the bursts and the directions
    of the configuration. -/
theorem exists_mapping_of_mem_launchWorkers {rteLcoreIsEnabled : UInt32 → Bool} {offset : Int}
    {config : AppConfig} {w : WorkerConfig}
    (hw : w ∈ launchWorkers rteLcoreIsEnabled offset config) :
    ∃ mapping ∈ config.coreMappings, w.portId = mapping.portId ∧ w.queueId = mapping.queueId ∧
      w.enableRx = mapping.enableRx ∧ w.txBurstSize = config.txBurstSize ∧
      w.rxBurstSize = config.rxBurstSize := by
  obtain ⟨mapping, hmapping, rfl⟩ := List.mem_map.mp hw
  exact ⟨mapping, List.mem_of_mem_filter hmapping, rfl, rfl, rfl, rfl, rfl⟩

/-- With a queue for each mapping, no two of the workers that are launched share a queue, and
    none is on a queue that is not set up. -/
theorem OwnQueues.launchWorkers {config : AppConfig} {queues : EthQueues}
    (h : OwnQueues config queues) (rteLcoreIsEnabled : UInt32 → Bool) (offset : Int) :
    let workers := launchWorkers rteLcoreIsEnabled offset config
    (∀ w ∈ workers, (w.portId, w.queueId) ∈ queues.tx ∧
      (w.enableRx → (w.portId, w.queueId) ∈ queues.rx)) ∧
    workers.Pairwise fun a b => (a.portId, a.queueId) ≠ (b.portId, b.queueId) := by
  constructor
  · intro w hw
    obtain ⟨mapping, hmapping, hport, hqueue, hrx, -, -⟩ := exists_mapping_of_mem_launchWorkers hw
    rw [hport, hqueue, hrx]
    exact ⟨h.tx mapping hmapping, h.rx mapping hmapping⟩
  · exact List.pairwise_map.mpr (h.distinct.filter _)

end Main

end TrafficGen
