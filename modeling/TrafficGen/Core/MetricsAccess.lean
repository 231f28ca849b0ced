import Mathlib.Logic.Function.Basic
import TrafficGen.Spec.MetricsSums

/-!
# Accesses to the metrics counters

The calls of `core/stats/metrics_collector.cpp` that touch the counters of the cores, one atomic
access at a time, for any number of callers. No mutex orders the accesses of different callers:
that of `reset_all` keeps other resets out only. The debug output is left out.
-/

namespace TrafficGen

/-- The counters in the order a snapshot or a reset goes over them. -/
def Counter.all : List Counter := [.txPackets, .rxPackets, .txBytes, .rxBytes, .errors]

/-- One counter is changed. -/
def CoreStats.update (s : CoreStats) (k : Counter) (f : UInt64 → UInt64) : CoreStats :=
  match k with
  | .txPackets => { s with txPackets := f s.txPackets }
  | .rxPackets => { s with rxPackets := f s.rxPackets }
  | .txBytes => { s with txBytes := f s.txBytes }
  | .rxBytes => { s with rxBytes := f s.rxBytes }
  | .errors => { s with errors := f s.errors }

namespace MetricsCollector

/-- An access to a counter of a core. -/
inductive Access where
  | fetchAdd (core : Nat) (counter : Counter) (amount : UInt64)
  /-- What is loaded is added to the caller's snapshot. -/
  | load (core : Nat) (counter : Counter)
  | clear (core : Nat) (counter : Counter)
deriving DecidableEq, Repr

/-- The calls that access the counters. -/
inductive Call where
  | updateTxStats (coreId : UInt32) (packets bytes : UInt64)
  | updateRxStats (coreId : UInt32) (packets bytes : UInt64)
  | updateErrors (coreId : UInt32) (count : UInt64)
  | getCoreStats (coreId : UInt32)
  | getGlobalStats
  | resetCore (coreId : UInt32)
  | resetAll
deriving DecidableEq, Repr

/-- The accesses of a call, in order, when there are `cores` cores. -/
def Call.accesses (cores : Nat) : Call → List Access
  | .updateTxStats coreId packets bytes =>
    if cores ≤ coreId.toNat then []
    else [.fetchAdd coreId.toNat .txPackets packets, .fetchAdd coreId.toNat .txBytes bytes]
  | .updateRxStats coreId packets bytes =>
    if cores ≤ coreId.toNat then []
    else [.fetchAdd coreId.toNat .rxPackets packets, .fetchAdd coreId.toNat .rxBytes bytes]
  | .updateErrors coreId count =>
    if cores ≤ coreId.toNat then [] else [.fetchAdd coreId.toNat .errors count]
  | .getCoreStats coreId =>
    if cores ≤ coreId.toNat then [] else Counter.all.map (.load coreId.toNat)
  | .getGlobalStats => (List.range cores).flatMap fun i => Counter.all.map (.load i)
  | .resetCore coreId =>
    if cores ≤ coreId.toNat then [] else Counter.all.map (.clear coreId.toNat)
  | .resetAll => (List.range cores).flatMap fun i => Counter.all.map (.clear i)

/-- The counters of the cores after an access, and the caller's snapshot. -/
def Access.perform (stats : List CoreStats) (snapshot : CoreStats) :
    Access → List CoreStats × CoreStats
  | .fetchAdd core k amount => (stats.modify core fun s => s.update k (· + amount), snapshot)
  | .load core k => (stats, snapshot.update k (· + (stats.getD core {}).get k))
  | .clear core k => (stats.modify core fun s => s.update k fun _ => 0, snapshot)

/-- The counters and their callers: what each has still to access, and its snapshot. Recorded
    beside them: what was added to each counter since it was last cleared, without the wrap at
    64 bits. -/
structure Shared (ι : Type*) where
  stats : List CoreStats
  rest : ι → List Access
  snapshot : ι → CoreStats
  counted : Nat → Counter → Nat

/-- A step of a caller. -/
inductive Step where
  | call (call : Call)
  | access
deriving DecidableEq, Repr

/-- What an access does to the record of one counter. -/
def Access.count (core : Nat) (k : Counter) (n : Nat) : Access → Nat
  | .fetchAdd core' k' amount => if core' = core ∧ k' = k then n + amount.toNat else n
  | .load _ _ => n
  | .clear core' k' => if core' = core ∧ k' = k then 0 else n

namespace Shared

open Function

variable {ι : Type*} [DecidableEq ι]

/-- Nobody has called yet. -/
def start (ι : Type*) (cores : Nat) : Shared ι where
  stats := List.replicate cores {}
  rest := fun _ => []
  snapshot := fun _ => {}
  counted := fun _ _ => 0

/-- Caller `c` makes the access `a`, with `rest` to follow. -/
def access (s : Shared ι) (c : ι) (a : Access) (rest : List Access) : Shared ι where
  stats := (a.perform s.stats (s.snapshot c)).1
  rest := update s.rest c rest
  snapshot := update s.snapshot c (a.perform s.stats (s.snapshot c)).2
  counted := fun core k => a.count core k (s.counted core k)

/-- A step of the callers. A call is made when the caller has no other in progress. -/
def step (s : Shared ι) (x : ι × Step) : Shared ι :=
  match x.2, s.rest x.1 with
  | .call call, [] =>
    { s with
      rest := update s.rest x.1 (call.accesses s.stats.length)
      snapshot := update s.snapshot x.1 {} }
  | .access, a :: rest => s.access x.1 a rest
  | _, _ => s

end Shared

end MetricsCollector

end TrafficGen
