import TrafficGen.Core.MempoolManager

/-!
# Ethernet devices

The `rte_ethdev` calls that set up ports. A device belongs to DPDK: whether it takes a call is
a parameter, and which queues it then has follows from the calls it took.
-/

namespace TrafficGen

/-- A call that sets up part of a port. -/
inductive EthCall where
  | devConfigure (portId nbRxQueues nbTxQueues : UInt16)
  | rxQueueSetup (portId queueId nbRxDesc : UInt16) (socketId : Int) (mbPool : Option RteMempool)
  | txQueueSetup (portId queueId nbTxDesc : UInt16) (socketId : Int)
  | devStart (portId : UInt16)
deriving DecidableEq, Repr

/-- The devices DPDK found, and what it answers about them. -/
structure EthDevs where
  /-- `rte_eth_dev_count_avail` -/
  countAvail : UInt16
  /-- `rte_eth_dev_socket_id` -/
  socketId : UInt16 → Int
  /-- `rte_eth_macaddr_get`, nothing when it fails. -/
  macaddr : UInt16 → Option (List UInt8)
  /-- What a call returns, after those made before it. -/
  status : List EthCall → EthCall → Int

/-- A limit of the DPDK build. -/
def RTE_MAX_NUMA_NODES : Int := 32

/-- Make a call: the calls made so far, or nothing when it fails. -/
def EthDevs.call (eth : EthDevs) (made : List EthCall) (call : EthCall) : Option (List EthCall) :=
  if eth.status made call < 0 then none else some (made ++ [call])

/-! ## Queues -/

/-- The queues that are set up, each a port and a queue of it. -/
structure EthQueues where
  rx : List (UInt16 × UInt16)
  tx : List (UInt16 × UInt16)
deriving DecidableEq, Repr

namespace EthQueues

/-- A call that was taken. Configuring a port anew takes its queues down. -/
def after (queues : EthQueues) : EthCall → EthQueues
  | .devConfigure portId _ _ =>
    { rx := queues.rx.filter (·.1 ≠ portId), tx := queues.tx.filter (·.1 ≠ portId) }
  | .rxQueueSetup portId queueId _ _ _ => { queues with rx := queues.rx ++ [(portId, queueId)] }
  | .txQueueSetup portId queueId _ _ => { queues with tx := queues.tx ++ [(portId, queueId)] }
  | .devStart _ => queues

/-- The queues there are after a list of calls. -/
def of (calls : List EthCall) : EthQueues := calls.foldl after ⟨[], []⟩

@[simp] theorem of_append (calls : List EthCall) (call : EthCall) :
    of (calls ++ [call]) = (of calls).after call := by
  simp [of]

end EthQueues

namespace EthDevs

variable {eth : EthDevs} {made calls : List EthCall} {call : EthCall}

/-- A call that succeeds is the last of those made. -/
theorem eq_append_of_call (h : eth.call made call = some calls) : calls = made ++ [call] := by
  rw [EthDevs.call] at h
  split at h
  · cases h
  · exact (Option.some.inj h).symm

theorem of_call (h : eth.call made call = some calls) :
    EthQueues.of calls = (EthQueues.of made).after call := by
  rw [eq_append_of_call h, EthQueues.of_append]

/-- What holds of the calls made before and of this one. -/
theorem forall_of_call {Q : EthCall → Prop} (h : eth.call made call = some calls)
    (hmade : ∀ c ∈ made, Q c) (hcall : Q call) : ∀ c ∈ calls, Q c := by
  rw [eq_append_of_call h]
  exact List.forall_mem_append.mpr ⟨hmade, List.forall_mem_singleton.mpr hcall⟩

end EthDevs

end TrafficGen
