import TrafficGen.Core.Mbuf

/-!
# Mempool manager

The pools of `core/mempools/mempool_manager.cpp`, and its `allocate_burst` for a burst of
one mbuf, the only size the workers ask for. A pool belongs to DPDK and is shared by
every worker of a socket, so its answers are arguments.
-/

namespace TrafficGen

/-! ## Pools -/

/-- Bytes in front of the packet data of an mbuf. -/
def RTE_PKTMBUF_HEADROOM : UInt16 := 128

/-- The headroom, and 2048 bytes for the packet. -/
def RTE_MBUF_DEFAULT_BUF_SIZE : UInt16 := 2048 + RTE_PKTMBUF_HEADROOM

/-- `rte_mempool` of packet mbufs, as it was created. -/
structure RteMempool where
  name : String
  n : UInt32
  cacheSize : UInt32
  privSize : UInt16
  dataRoomSize : UInt16
  socketId : Int
deriving DecidableEq, Repr

/-- The mbuf is one the pool may hand out: fresh, with the pool's room behind the headroom. -/
def RteMempool.HandsOut (pool : RteMempool) (m : Mbuf) : Prop :=
  m.Fresh ∧ m.room = pool.dataRoomSize - RTE_PKTMBUF_HEADROOM

/-- `rte_pktmbuf_pool_create`: the pool, or a null pointer. -/
def rtePktmbufPoolCreate (succeeds : Bool) (name : String) (n cacheSize : UInt32)
    (privSize dataRoomSize : UInt16) (socketId : Int) : Option RteMempool :=
  if succeeds then some { name, n, cacheSize, privSize, dataRoomSize, socketId } else none

/-- Whether the library creates a pool over the ring, and whether it creates a standard one. -/
structure PoolAnswer where
  byOps : Bool
  standard : Bool

/-- Create a mempool. -/
def createMempool (answer : PoolAnswer) (socketId : Int) (nbMbufs cacheSize : UInt32)
    (name : String) : Option RteMempool :=
  match rtePktmbufPoolCreate answer.byOps name nbMbufs cacheSize 0 RTE_MBUF_DEFAULT_BUF_SIZE
    socketId with
  | some pool => some pool
  | none =>
    -- the standard pool asks for the same mbufs
    rtePktmbufPoolCreate answer.standard name nbMbufs cacheSize 0 RTE_MBUF_DEFAULT_BUF_SIZE
      socketId

/-- Both attempts ask for mbufs of the default size. -/
theorem dataRoomSize_createMempool {answer : PoolAnswer} {socketId : Int}
    {nbMbufs cacheSize : UInt32} {name : String} {pool : RteMempool}
    (h : createMempool answer socketId nbMbufs cacheSize name = some pool) :
    pool.dataRoomSize = RTE_MBUF_DEFAULT_BUF_SIZE := by
  have hcreate : ∀ (succeeds : Bool) (pool : RteMempool),
      rtePktmbufPoolCreate succeeds name nbMbufs cacheSize 0 RTE_MBUF_DEFAULT_BUF_SIZE
        socketId = some pool → pool.dataRoomSize = RTE_MBUF_DEFAULT_BUF_SIZE := by
    intro succeeds pool hpool
    cases succeeds with
    | false => cases hpool
    | true =>
      rw [← Option.some.inj hpool]
  rw [createMempool] at h
  split at h
  · next created hcreated =>
    rw [← Option.some.inj h]
    exact hcreate _ _ hcreated
  · exact hcreate _ _ h

/-- The pool of one socket. -/
structure PoolEntry where
  socketId : Int
  pool : RteMempool
  poolName : String
deriving DecidableEq, Repr

/-- The pools created so far. All of them hold mbufs of the default size. -/
structure MempoolManager where
  pools : List PoolEntry
  initialized : Bool
  rooms : ∀ entry ∈ pools, entry.pool.dataRoomSize = RTE_MBUF_DEFAULT_BUF_SIZE

namespace MempoolManager

/-- A new manager has no pools. -/
def new : MempoolManager where
  pools := []
  initialized := false
  rooms := fun _ h => absurd h List.not_mem_nil

/-- The loop of `initialize`: one pool for each of the sockets left, or none at all. -/
def createPools (answers : Nat → PoolAnswer) (nbMbufs cacheSize : UInt32) (name : String) :
    Nat → Nat → Option (List PoolEntry)
  | 0, _ => some []
  | left + 1, socketId =>
    let poolName := name ++ "_socket" ++ toString socketId
    match createMempool (answers socketId) socketId nbMbufs cacheSize poolName with
    | none => none
    | some pool =>
      (createPools answers nbMbufs cacheSize name left (socketId + 1)).map
        ({ socketId, pool, poolName } :: ·)

theorem rooms_createPools (answers : Nat → PoolAnswer) (nbMbufs cacheSize : UInt32)
    (name : String) (left socketId : Nat) (pools : List PoolEntry)
    (h : createPools answers nbMbufs cacheSize name left socketId = some pools) :
    ∀ entry ∈ pools, entry.pool.dataRoomSize = RTE_MBUF_DEFAULT_BUF_SIZE := by
  induction left generalizing socketId pools with
  | zero =>
    rw [createPools, Option.some.injEq] at h
    subst h
    exact fun _ h => absurd h List.not_mem_nil
  | succ left ih =>
    simp only [createPools] at h
    split at h
    · cases h
    · next pool hpool =>
      obtain ⟨rest, hrest, rfl⟩ := Option.map_eq_some_iff.mp h
      intro entry hentry
      rcases List.mem_cons.mp hentry with rfl | hentry
      · exact dataRoomSize_createMempool hpool
      · exact ih _ _ hrest entry hentry

/-- `initialize`: create the pools of all sockets, once. -/
def initializePools (manager : MempoolManager) (answers : Nat → PoolAnswer) (rteSocketCount : Nat)
    (nbMbufs cacheSize : UInt32) (name : String) : Bool × MempoolManager :=
  if manager.initialized then (true, manager)
  else
    -- at least one socket
    let maxSocket := if rteSocketCount = 0 then 1 else rteSocketCount
    match h : createPools answers nbMbufs cacheSize name maxSocket 0 with
    | none => (false, new)
    | some pools =>
      (true, { pools, initialized := true, rooms := rooms_createPools _ _ _ _ _ _ _ h })

/-- The pool of a socket, else the first pool there is. -/
def getMempool (manager : MempoolManager) (socketId : Int) : Option RteMempool :=
  match manager.pools.find? (·.socketId = socketId) with
  | some entry => some entry.pool
  | none => manager.pools.head?.map (·.pool)

/-- Whatever pool a worker gets, its mbufs have room for 2048 bytes. -/
theorem room_getMempool {manager : MempoolManager} {socketId : Int} {pool : RteMempool}
    (h : manager.getMempool socketId = some pool) {m : Mbuf} (hm : pool.HandsOut m) :
    m.room = 2048 := by
  have hroom : pool.dataRoomSize = RTE_MBUF_DEFAULT_BUF_SIZE := by
    rw [getMempool] at h
    split at h
    · next entry hentry =>
      rw [← Option.some.inj h]
      exact manager.rooms entry (List.mem_of_find?_eq_some hentry)
    · obtain ⟨entry, hentry, rfl⟩ := Option.map_eq_some_iff.mp h
      exact manager.rooms entry (List.mem_of_head? hentry)
  rw [hm.2, hroom]
  rfl

end MempoolManager

/-! ## Allocation -/

/-- An errno: positive, and small enough to show in 16 bits. -/
structure Errno where
  val : Nat
  pos : 0 < val
  lt : val < 65536
deriving DecidableEq, Repr

/-- What a pool answers to `rte_pktmbuf_alloc_bulk` for one mbuf. -/
inductive AllocResult where
  | filled (mbuf : MbufId)
  | failed (errno : Errno)
deriving DecidableEq, Repr

/-- `rte_pktmbuf_alloc_bulk` into slot `i`: `0` with the slot filled, or a negative errno with
    the array untouched. -/
def rtePktmbufAllocBulk (answer : AllocResult) (mbufs : List (Option MbufId)) (i : Nat) :
    Int × List (Option MbufId) :=
  match answer with
  | .filled m => (0, mbufs.set i (some m))
  | .failed errno => (-errno.val, mbufs)

/-- Allocate a burst of mbufs. The library's `int` is returned as a `uint16_t`. -/
def allocateBurst (answer : AllocResult) (mbufs : List (Option MbufId)) (i : Nat) :
    UInt16 × List (Option MbufId) :=
  let (allocated, mbufs) := rtePktmbufAllocBulk answer mbufs i
  (UInt16.ofInt allocated, mbufs)

/-- A successful allocation returns `0` and fills the slot. -/
theorem allocateBurst_filled (m : MbufId) (mbufs : List (Option MbufId)) (i : Nat) :
    allocateBurst (.filled m) mbufs i = (0, mbufs.set i (some m)) := rfl

/-- A failed allocation returns something other than `0` and leaves the slots alone. -/
theorem allocateBurst_failed (errno : Errno) (mbufs : List (Option MbufId)) (i : Nat) :
    (allocateBurst (.failed errno) mbufs i).1 ≠ 0 ∧
      (allocateBurst (.failed errno) mbufs i).2 = mbufs := by
  refine ⟨fun h => ?_, rfl⟩
  -- the negated errno is a multiple of 2^16 only if it is zero
  have hpos := errno.pos
  have hlt := errno.lt
  have hcut : (-(errno.val : Int) % 65536).toNat % 65536 = 0 := by
    simpa [allocateBurst, rtePktmbufAllocBulk, UInt16.ofInt] using congrArg UInt16.toNat h
  omega

end TrafficGen
