import TrafficGen.ForStd.Double

/-!
# IMIX engine

`core/scheduler/imix_engine.cpp`: a weighted mix of packet sizes. A `double` is a `Float`: it may
be a NaN, which no comparison refuses, and a sum is rounded at each step. What
`std::discrete_distribution` draws is an argument.
-/

namespace TrafficGen

/-- IMIX profile entry. -/
structure IMIXEntryInternal where
  packetSize : UInt32
  percentage : Float
  protocol : String
  enableChecksum : Bool
deriving DecidableEq, Repr

/-- The checks made on one entry: size, percentage, protocol. -/
def IMIXEntryInternal.isValid (e : IMIXEntryInternal) : Bool :=
  !(e.packetSize < 64 || e.packetSize > 9000) &&
    !(e.percentage < 0 || e.percentage > 100) &&
    !(e.protocol ≠ "tcp" && e.protocol ≠ "udp" && e.protocol ≠ "icmp")

/-- The sum of the percentages, in the order of the entries. -/
def totalPercentage (entries : List IMIXEntryInternal) : Float :=
  (entries.map (·.percentage)).foldl (· + ·) 0

/-- Validate IMIX entries: there are some, each is valid, and the percentages sum to about
    100. -/
def validateEntries (entries : List IMIXEntryInternal) : Bool :=
  let total := totalPercentage entries
  !entries.isEmpty && entries.all (·.isValid) && !(total < 99 || total > 101)

-- a NaN is neither below a bound nor above it
example : validateEntries [⟨9000, 0 / 0, "udp", true⟩, ⟨64, 100, "udp", true⟩] = true := by
  decide +kernel

-- exactly the sum is less than 99, by `2 ^ (-48)`
example : validateEntries [⟨64, 98, "udp", true⟩, ⟨64, 1 - 1 / 16777216, "udp", true⟩,
    ⟨64, 1 / 16777216 - 1 / 281474976710656, "udp", true⟩] = true := by
  decide +kernel

/-- `std::discrete_distribution`: the indices each list of weights may give. It gives some index
    of the list, whatever the weights are. -/
structure DiscreteDistribution where
  Draws : List Float → Nat → Prop
  exists_draws : ∀ {weights}, weights ≠ [] → ∃ i < weights.length, Draws weights i

namespace DiscreteDistribution

/-- The weights the distribution is defined for: numbers that are not negative, and not all
    zero. -/
def Defined (weights : List Float) : Prop :=
  (∀ w ∈ weights, w.isFinite = true ∧ ¬ w < 0) ∧ ∃ w ∈ weights, 0 < w

/-- Where it is defined, the probability of an index is its share of the weights, so an index is
    given when its weight is positive. -/
def Proportional (dist : DiscreteDistribution) : Prop :=
  ∀ weights, Defined weights → ∀ i, dist.Draws weights i ↔ ∃ w, weights[i]? = some w ∧ 0 < w

end DiscreteDistribution

/-- IMIX engine for generating traffic patterns. Only validated entries get in. -/
structure IMIXEngine where
  entries : List IMIXEntryInternal
  targetPps : UInt64
  configured : Bool
  valid : configured = true → validateEntries entries = true

namespace IMIXEngine

/-- A new engine has no profile. -/
def new : IMIXEngine where
  entries := []
  targetPps := 0
  configured := false
  valid := nofun

/-- Configure IMIX profile. -/
def configure (e : IMIXEngine) (entries : List IMIXEntryInternal) (targetPps : UInt64) :
    Bool × IMIXEngine :=
  if h : validateEntries entries then
    (true, { entries, targetPps, configured := true, valid := fun _ => h })
  else (false, e)

/-- The weights `build_distribution` hands to the distribution. -/
def weights (e : IMIXEngine) : List Float :=
  e.entries.map (·.percentage)

/-- Reset engine. -/
def reset (_ : IMIXEngine) : IMIXEngine := new

/-- The calls that change the engine. -/
inductive Op where
  | configure (entries : List IMIXEntryInternal) (targetPps : UInt64)
  | reset

/-- The engine after one call, accepted or not. -/
def step (e : IMIXEngine) : Op → IMIXEngine
  | .configure entries targetPps => (e.configure entries targetPps).2
  | .reset => e.reset

/-- Select next packet size. `draw` stands for the number the distribution draws, one index
    for each entry. -/
def selectNextPacketSize (e : IMIXEngine) (draw : Nat) : UInt32 :=
  if !e.configured then 64
  else
    match e.entries[draw % e.entries.length]? with
    | none => 64
    | some entry => entry.packetSize

/-- Every size the engine selects lies between the bounds of `validate_entries`. -/
theorem selectNextPacketSize_bounds (e : IMIXEngine) (draw : Nat) :
    64 ≤ (e.selectNextPacketSize draw).toNat ∧ (e.selectNextPacketSize draw).toNat ≤ 9000 := by
  have hdefault : 64 ≤ (64 : UInt32).toNat ∧ (64 : UInt32).toNat ≤ 9000 := by decide
  rw [selectNextPacketSize]
  split
  · exact hdefault
  · next hconf =>
    split
    · exact hdefault
    · next entry hentry =>
      -- only validated entries are ever configured
      have hvalid := e.valid (by simpa using hconf)
      simp only [validateEntries, Bool.and_eq_true, List.all_eq_true] at hvalid
      have hsize := hvalid.1.2 entry (List.mem_of_getElem? hentry)
      simp only [IMIXEntryInternal.isValid, Bool.and_eq_true, Bool.not_eq_true',
        Bool.or_eq_false_iff, decide_eq_false_iff_not, UInt32.lt_iff_toNat_lt, gt_iff_lt] at hsize
      obtain ⟨⟨⟨hlo, hhi⟩, -⟩, -⟩ := hsize
      have h64 : (64 : UInt32).toNat = 64 := rfl
      have h9000 : (9000 : UInt32).toNat = 9000 := rfl
      omega

end IMIXEngine

end TrafficGen
