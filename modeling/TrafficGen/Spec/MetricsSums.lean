import Mathlib.Data.List.Perm.Basic
import TrafficGen.Spec.RateReporting
import TrafficGen.Spec.WorkerStats

/-!
# Metrics are exact sums

Workers update the counters of their cores, the control server resets one core or all of them,
and both read. After any sequence of such calls each counter of a core is the sum, modulo
`2^64`, of what was added to it since the core was last reset, and the global counters are the
sums over the cores.

## Key results

- `getCoreStats_apply`: what one call does to the counters of one core
- `toNat_get_run`: a counter after a run is a sum
- `metrics_exact`: the sums, of a core and of all of them, and the order of the updates
-/

namespace TrafficGen

/-! ## The five counters -/

/-- A counter of `CoreStats`. -/
inductive Counter where
  | txPackets
  | rxPackets
  | txBytes
  | rxBytes
  | errors
deriving DecidableEq, Repr

/-- The value of a counter. -/
def CoreStats.get (s : CoreStats) : Counter → UInt64
  | .txPackets => s.txPackets
  | .rxPackets => s.rxPackets
  | .txBytes => s.txBytes
  | .rxBytes => s.rxBytes
  | .errors => s.errors

/-- Counters added up one by one. -/
def CoreStats.add (s t : CoreStats) : CoreStats where
  txPackets := s.txPackets + t.txPackets
  rxPackets := s.rxPackets + t.rxPackets
  txBytes := s.txBytes + t.txBytes
  rxBytes := s.rxBytes + t.rxBytes
  errors := s.errors + t.errors

@[simp] theorem CoreStats.get_empty (k : Counter) : ({} : CoreStats).get k = 0 := by
  cases k <;> rfl

@[simp] theorem CoreStats.get_add (s t : CoreStats) (k : Counter) :
    (s.add t).get k = s.get k + t.get k := by
  cases k <;> rfl

theorem CoreStats.add_right_comm (s t u : CoreStats) : (s.add t).add u = (s.add u).add t := by
  have hcomm : ∀ a b c : UInt64, a + b + c = a + c + b := fun a b c => by
    rw [UInt64.add_assoc, UInt64.add_comm b, ← UInt64.add_assoc]
  simp only [CoreStats.add, CoreStats.mk.injEq]
  exact ⟨hcomm _ _ _, hcomm _ _ _, hcomm _ _ _, hcomm _ _ _, hcomm _ _ _⟩

namespace MetricsCollector

/-! ## Calls -/

/-- A call that may change the collector. The polls of a rate move its snapshot; the other reads
    change nothing. -/
inductive Op where
  | tx (coreId : UInt32) (packets bytes : UInt64)
  | rx (coreId : UInt32) (packets bytes : UInt64)
  | errors (coreId : UInt32) (count : UInt64)
  | resetCore (coreId : UInt32)
  | resetAll (nowNs : UInt64)
  | currentPps (coreId : UInt32) (nowNs rateNowNs : UInt64)
  | currentBps (coreId : UInt32) (nowNs rateNowNs : UInt64)
deriving DecidableEq, Repr

/-- The collector after a call. -/
def apply (c : MetricsCollector) : Op → MetricsCollector
  | .tx coreId packets bytes => c.updateTxStats coreId packets bytes
  | .rx coreId packets bytes => c.updateRxStats coreId packets bytes
  | .errors coreId count => c.updateErrors coreId count
  | .resetCore coreId => c.resetCore coreId
  | .resetAll nowNs => c.resetAll nowNs
  | .currentPps coreId nowNs rateNowNs => (c.calculateCurrentPps coreId nowNs rateNowNs).2
  | .currentBps coreId nowNs rateNowNs => (c.calculateCurrentBps coreId nowNs rateNowNs).2

/-- What a call adds to the counters of a core. -/
def Op.addend (coreId : UInt32) : Op → CoreStats
  | .tx id packets bytes => if id = coreId then { txPackets := packets, txBytes := bytes } else {}
  | .rx id packets bytes => if id = coreId then { rxPackets := packets, rxBytes := bytes } else {}
  | .errors id count => if id = coreId then { errors := count } else {}
  | _ => {}

/-- The call resets a core. -/
def Op.resets (coreId : UInt32) : Op → Bool
  | .resetCore id => id = coreId
  | .resetAll _ => true
  | _ => false

/-- The call is an update. -/
def Op.isUpdate : Op → Bool
  | .tx .. | .rx .. | .errors .. => true
  | _ => false

/-- The calls since a core was last reset. -/
def sinceReset (coreId : UInt32) (ops : List Op) : List Op :=
  (ops.reverse.takeWhile fun op => !op.resets coreId).reverse

theorem sinceReset_concat (coreId : UInt32) (ops : List Op) (op : Op) :
    sinceReset coreId (ops ++ [op]) =
      if op.resets coreId then [] else sinceReset coreId ops ++ [op] := by
  simp only [sinceReset, List.reverse_append, List.reverse_singleton, List.singleton_append,
    List.takeWhile_cons]
  cases op.resets coreId <;> simp

/-! ## One call -/

variable {c : MetricsCollector}

/-- The core a call is about. -/
def Op.coreId? : Op → Option UInt32
  | .tx coreId _ _ | .rx coreId _ _ | .errors coreId _ | .resetCore coreId
  | .currentPps coreId _ _ | .currentBps coreId _ _ => some coreId
  | .resetAll _ => none

/-- An update adds what it adds to the counters of its core. -/
theorem apply_update {op : Op} (hop : op.isUpdate = true) {coreId : UInt32}
    (hcore : op.coreId? = some coreId) (c : MetricsCollector) :
    c.apply op = c.updateCore coreId (·.add (op.addend coreId)) := by
  cases op with
  | tx | rx | errors =>
    obtain rfl := Option.some.inj hcore
    simp [apply, updateTxStats, updateRxStats, updateErrors, Op.addend, CoreStats.add]
  | resetCore | resetAll | currentPps | currentBps => cases hop

theorem getCoreStats_updateCore (c : MetricsCollector) (id : UInt32)
    (update : CoreStats → CoreStats) {coreId : UInt32}
    (h : coreId.toNat < c.perCoreStats.length) :
    (c.updateCore id update).getCoreStats coreId =
      if id = coreId then update (c.getCoreStats coreId) else c.getCoreStats coreId := by
  show (c.perCoreStats.modify id.toNat update).getD coreId.toNat {} = _
  rw [getCoreStats, List.getD_eq_getElem?_getD, List.getD_eq_getElem?_getD]
  by_cases hid : id = coreId
  · rw [if_pos hid, hid, List.getElem?_modify_eq, List.getElem?_eq_getElem h]
    rfl
  · have hidx : id.toNat ≠ coreId.toNat := fun heq => hid (UInt32.toNat_inj.mp heq)
    rw [if_neg hid, List.getElem?_modify_ne _ _ hidx]

theorem length_apply (c : MetricsCollector) (op : Op) :
    (c.apply op).perCoreStats.length = c.perCoreStats.length := by
  cases op with
  | tx | rx | errors => exact List.length_modify ..
  | resetCore id =>
    simp only [apply, resetCore]
    split
    · exact List.length_modify ..
    · rfl
  | resetAll => exact List.length_map ..
  | currentPps | currentBps => exact congrArg List.length (perCoreStats_calculateCurrentRate ..)

/-- One call, seen from one core: a reset clears its counters, any other call adds to them. -/
theorem getCoreStats_apply (c : MetricsCollector) (op : Op) {coreId : UInt32}
    (h : coreId.toNat < c.perCoreStats.length) :
    (c.apply op).getCoreStats coreId =
      if op.resets coreId then {} else (c.getCoreStats coreId).add (op.addend coreId) := by
  have hnothing : ∀ s : CoreStats, s.add {} = s := fun s => by simp [CoreStats.add]
  have hread : ∀ c' : MetricsCollector, c'.perCoreStats = c.perCoreStats →
      c'.getCoreStats coreId = (c.getCoreStats coreId).add {} := by
    intro c' hc'
    rw [hnothing, getCoreStats, hc', getCoreStats]
  cases op with
  | tx id | rx id | errors id =>
    -- an update of another core adds nothing to this one
    rw [apply_update rfl rfl, getCoreStats_updateCore c id _ h]
    by_cases hid : id = coreId
    · simp [hid, Op.resets]
    · simp [hid, Op.resets, Op.addend, hnothing]
  | resetCore id =>
    simp only [apply, resetCore, Op.resets, Op.addend]
    split
    · show (c.updateCore id fun _ => {}).getCoreStats coreId = _
      rw [getCoreStats_updateCore c id _ h]
      by_cases hid : id = coreId
      · simp [hid]
      · simp [hid, hnothing]
    · next hrange =>
      -- a core out of range is not the one we look at
      have hid : id ≠ coreId := by
        rintro rfl
        exact hrange h
      simp [hid, hnothing]
  | resetAll nowNs =>
    show (c.perCoreStats.map fun _ => ({} : CoreStats)).getD coreId.toNat {} = _
    simp [Op.resets, List.getD_eq_getElem?_getD, h]
  | currentPps | currentBps => exact hread _ (perCoreStats_calculateCurrentRate ..)

/-- A call about a core that does not exist changes nothing. -/
theorem apply_out_of_range {c : MetricsCollector} {op : Op} {coreId : UInt32}
    (hcore : op.coreId? = some coreId) (h : c.perCoreStats.length ≤ coreId.toNat) :
    c.apply op = c := by
  have hupdate : ∀ update, c.updateCore coreId update = c := fun update => by
    rw [updateCore, List.modify_eq_self h]
  have hnone : c.perCoreStats[coreId.toNat]? = none := List.getElem?_eq_none h
  cases op with
  | tx | rx | errors =>
    obtain rfl := Option.some.inj hcore
    exact hupdate _
  | resetCore =>
    obtain rfl := Option.some.inj hcore
    exact if_neg (by omega)
  | resetAll => cases hcore
  | currentPps | currentBps =>
    obtain rfl := Option.some.inj hcore
    simp [apply, calculateCurrentPps, calculateCurrentBps, calculateCurrentRate, hnone]

/-! ## Runs -/

theorem length_run (c : MetricsCollector) (ops : List Op) :
    (Run.run apply c ops).perCoreStats.length = c.perCoreStats.length :=
  Run.run_induct (P := fun c' : MetricsCollector =>
    c'.perCoreStats.length = c.perCoreStats.length) rfl
    (fun c' op h => (c'.length_apply op).trans h) ops

/-- A counter of a core is the sum, modulo `2^64`, of what was added since its last reset. -/
theorem toNat_get_run (numCores : UInt32) (nowNs : UInt64) (ops : List Op) {coreId : UInt32}
    (h : coreId.toNat < numCores.toNat) (k : Counter) :
    (((Run.run apply (new numCores nowNs) ops).getCoreStats coreId).get k).toNat =
      ((sinceReset coreId ops).map fun op => ((op.addend coreId).get k).toNat).sum % 2 ^ 64 := by
  induction ops using List.reverseRecOn with
  | nil =>
    have hzero : (new numCores nowNs).getCoreStats coreId = {} := by
      simp [getCoreStats, new, List.getD_eq_getElem?_getD, h]
    simp [hzero, sinceReset]
  | append_singleton ops op ih =>
    have hrange : coreId.toNat <
        (Run.run apply (new numCores nowNs) ops).perCoreStats.length := by
      rw [length_run, length_perCoreStats_new]
      exact h
    rw [Run.run_append, sinceReset_concat]
    show ((((Run.run apply (new numCores nowNs) ops).apply op).getCoreStats coreId).get k).toNat
      = _
    rw [getCoreStats_apply _ op hrange]
    split
    · simp
    · rw [CoreStats.get_add, UInt64.toNat_add, ih, List.map_append, List.sum_append,
        List.map_singleton, List.sum_singleton, Nat.mod_add_mod]

/-- A total over the cores, modulo `2^64`. -/
theorem toNat_aggregate (count : CoreStats → UInt64) (l : List CoreStats) :
    (aggregate count l).toNat = (l.map fun s => (count s).toNat).sum % 2 ^ 64 := by
  induction l with
  | nil => rfl
  | cons s l ih =>
    rw [aggregate_cons, UInt64.toNat_add, ih, List.map_cons, List.sum_cons, Nat.add_mod_mod]

theorem get_getGlobalStats (c : MetricsCollector) (k : Counter) :
    c.getGlobalStats.get k = aggregate (·.get k) c.perCoreStats := by
  cases k <;> rfl

/-- The counters of the cores, one after the other. -/
theorem perCoreStats_eq_map (c : MetricsCollector) {n : Nat} (hlen : c.perCoreStats.length = n)
    (hn : n < 2 ^ 32) :
    c.perCoreStats = (List.range n).map fun i => c.getCoreStats (UInt32.ofNat i) := by
  apply List.ext_getElem
  · simp [hlen]
  · intro i hi _
    have hofNat : (UInt32.ofNat i).toNat = i := by
      rw [UInt32.toNat_ofNat']
      omega
    rw [List.getElem_map, List.getElem_range, getCoreStats, hofNat,
      List.getD_eq_getElem?_getD, List.getElem?_eq_getElem hi, Option.getD_some]

/-! ## The order of the updates -/

theorem apply_comm {op op' : Op} (hop : op.isUpdate = true) (hop' : op'.isUpdate = true)
    (c : MetricsCollector) : (c.apply op).apply op' = (c.apply op').apply op := by
  have hcore : ∀ {op : Op}, op.isUpdate = true → ∃ coreId, op.coreId? = some coreId := by
    intro op h
    cases op with
    | tx id | rx id | errors id => exact ⟨id, rfl⟩
    | resetCore | resetAll | currentPps | currentBps => cases h
  obtain ⟨i, hi⟩ := hcore hop
  obtain ⟨j, hj⟩ := hcore hop'
  rw [apply_update hop hi, apply_update hop' hj, apply_update hop' hj, apply_update hop hi]
  simp only [updateCore, MetricsCollector.mk.injEq, and_true]
  apply List.ext_getElem?
  intro n
  simp only [List.getElem?_modify]
  cases c.perCoreStats[n]? with
  | none => rfl
  | some s =>
    by_cases hin : i.toNat = n
    · by_cases hjn : j.toNat = n
      · simp [hin, hjn, CoreStats.add_right_comm]
      · simp [hin, hjn]
    · by_cases hjn : j.toNat = n
      · simp [hin, hjn]
      · simp [hin, hjn]

/-- The counters after a call depend on the counters before it. -/
theorem perCoreStats_apply_congr {c c' : MetricsCollector}
    (h : c.perCoreStats = c'.perCoreStats) (op : Op) :
    (c.apply op).perCoreStats = (c'.apply op).perCoreStats := by
  cases op with
  | tx | rx | errors =>
    show c.perCoreStats.modify _ _ = c'.perCoreStats.modify _ _
    rw [h]
  | resetCore id =>
    simp only [apply, resetCore, h]
    split
    · show c.perCoreStats.modify _ _ = c'.perCoreStats.modify _ _
      rw [h]
    · exact h
  | resetAll =>
    show c.perCoreStats.map _ = c'.perCoreStats.map _
    rw [h]
  | currentPps | currentBps =>
    exact (perCoreStats_calculateCurrentRate ..).trans
      (h.trans (perCoreStats_calculateCurrentRate ..).symm)

theorem perCoreStats_run_congr {c c' : MetricsCollector}
    (h : c.perCoreStats = c'.perCoreStats) (ops : List Op) :
    (Run.run apply c ops).perCoreStats = (Run.run apply c' ops).perCoreStats := by
  induction ops generalizing c c' with
  | nil => exact h
  | cons op ops ih => exact ih (perCoreStats_apply_congr h op)

/-- The call resets no core. -/
def Op.isReset : Op → Bool
  | .resetCore _ | .resetAll _ => true
  | _ => false

/-- Calls that are no resets may change places: updates add up, and polls count nothing. -/
theorem perCoreStats_apply_comm {op op' : Op} (hop : op.isReset = false)
    (hop' : op'.isReset = false) (c : MetricsCollector) :
    ((c.apply op).apply op').perCoreStats = ((c.apply op').apply op).perCoreStats := by
  have hcases : ∀ {op : Op}, op.isReset = false → op.isUpdate = true ∨
      ∀ c : MetricsCollector, (c.apply op).perCoreStats = c.perCoreStats := by
    intro op h
    cases op with
    | tx | rx | errors => exact .inl rfl
    | resetCore | resetAll => cases h
    | currentPps | currentBps => exact .inr fun c => perCoreStats_calculateCurrentRate ..
  rcases hcases hop with hupdate | hpoll
  · rcases hcases hop' with hupdate' | hpoll'
    · rw [apply_comm hupdate hupdate']
    · rw [hpoll', perCoreStats_apply_congr (hpoll' c) op]
  · rw [hpoll, perCoreStats_apply_congr (hpoll c) op']

theorem perCoreStats_run_perm {segment segment' : List Op} (hperm : segment.Perm segment')
    (hsegment : ∀ op ∈ segment, op.isReset = false) (c : MetricsCollector) :
    (Run.run apply c segment).perCoreStats = (Run.run apply c segment').perCoreStats := by
  induction hperm generalizing c with
  | nil => rfl
  | cons op _ ih => exact ih (fun op' hop' => hsegment op' (List.mem_cons_of_mem op hop')) _
  | swap op op' l =>
    exact perCoreStats_run_congr (perCoreStats_apply_comm (hsegment op' List.mem_cons_self)
      (hsegment op (List.mem_cons_of_mem op' List.mem_cons_self)) c) l
  | trans hperm _ ih ih' =>
    exact (ih hsegment c).trans
      (ih' (fun op hop => hsegment op (hperm.mem_iff.mpr hop)) c)

/-- What the metrics are after the calls `ops` on a collector of `numCores` cores. -/
structure ExactSums (numCores : UInt32) (c₀ : MetricsCollector) (ops : List Op) : Prop where
  /-- A counter of a core is what was added to it since the core was last reset. -/
  core : ∀ coreId, coreId.toNat < numCores.toNat → ∀ k,
    (((Run.run apply c₀ ops).getCoreStats coreId).get k).toNat =
      ((sinceReset coreId ops).map fun op => ((op.addend coreId).get k).toNat).sum % 2 ^ 64
  /-- A call about a core that does not exist changes nothing. -/
  outOfRange : ∀ op coreId, op.coreId? = some coreId → numCores.toNat ≤ coreId.toNat →
    (Run.run apply c₀ ops).apply op = Run.run apply c₀ ops
  /-- The global counters are the sums over the cores. -/
  global : ∀ k, ((Run.run apply c₀ ops).getGlobalStats.get k).toNat =
    ((List.range numCores.toNat).map fun i =>
      (((Run.run apply c₀ ops).getCoreStats (UInt32.ofNat i)).get k).toNat).sum % 2 ^ 64
  /-- Between resets, updates and polls may come in any order, as far as counters go. -/
  counters : ∀ before segment segment' after, ops = before ++ segment ++ after →
    segment.Perm segment' → (∀ op ∈ segment, op.isReset = false) →
    (Run.run apply c₀ (before ++ segment' ++ after)).perCoreStats =
      (Run.run apply c₀ ops).perCoreStats
  /-- Updates alone may come in any order, as far as anything goes. -/
  updates : ∀ before segment segment' after, ops = before ++ segment ++ after →
    segment.Perm segment' → (∀ op ∈ segment, op.isUpdate = true) →
    Run.run apply c₀ (before ++ segment' ++ after) = Run.run apply c₀ ops

/-- **Metrics are exact sums.** -/
theorem metrics_exact (numCores : UInt32) (nowNs : UInt64) {c₀ : MetricsCollector}
    (h : initializeCores numCores nowNs = some c₀) (ops : List Op) :
    ExactSums numCores c₀ ops := by
  have hnew : c₀ = new numCores nowNs := by
    unfold initializeCores at h
    split at h
    · cases h
    · exact (Option.some.inj h).symm
  have hlen : (Run.run apply c₀ ops).perCoreStats.length = numCores.toNat := by
    rw [length_run, hnew, length_perCoreStats_new]
  refine ⟨fun coreId hcore k => ?_, fun op coreId hop hcore => ?_, fun k => ?_, ?_, ?_⟩
  · rw [hnew]
    exact toNat_get_run numCores nowNs ops hcore k
  · exact apply_out_of_range hop (by rw [hlen]; exact hcore)
  · rw [get_getGlobalStats, toNat_aggregate, perCoreStats_eq_map _ hlen numCores.toNat_lt,
      List.map_map]
    rfl
  · rintro before segment segment' after rfl hperm hsegment
    rw [Run.run_append, Run.run_append, Run.run_append, Run.run_append]
    exact perCoreStats_run_congr (perCoreStats_run_perm hperm hsegment _).symm after
  · rintro before segment segment' after rfl hperm hsegment
    rw [Run.run_append, Run.run_append, Run.run_append, Run.run_append]
    congr 1
    exact (hperm.foldl_eq' (fun op hop op' hop' c =>
      apply_comm (hsegment op hop) (hsegment op' hop') c) _).symm

/-- Two cores count, one is reset; the other keeps the sum of its two updates. -/
theorem metrics_exact_twoCores :
    ((Run.run apply (new 2 0) [.tx 0 3 300, .tx 1 1 60, .resetCore 1, .tx 0 4 400]).getCoreStats
      0).txBytes = 700 ∧
    ExactSums 2 (new 2 0) [.tx 0 3 300, .tx 1 1 60, .resetCore 1, .tx 0 4 400] :=
  ⟨by decide, metrics_exact 2 0 rfl _⟩

end MetricsCollector

end TrafficGen
