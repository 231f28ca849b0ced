import Mathlib.Data.List.GetD
import TrafficGen.Core.MetricsAccess

/-!
# Reading the counters while they are counted

`get_global_stats` adds up the counters one by one while the workers go on counting, so the totals
it returns need not be those of any moment. Without a reset each of them still lies between what had
been counted when the call began and what had been counted when it returned, and later calls return
no less than earlier ones.

## Key results

- `alone_getGlobalStats`, `alone_updateTxStats`: undisturbed, the accesses of a call do what the
  collector's function does
- `global_between`: a total read lies between the totals of the begin and the end of the call
-/

namespace TrafficGen

/-! ## One counter -/

theorem CoreStats.get_update (s : CoreStats) (k k' : Counter) (f : UInt64 → UInt64) :
    (s.update k f).get k' = if k' = k then f (s.get k') else s.get k' := by
  cases k <;> cases k' <;> rfl

namespace MetricsCollector

/-! ## Calls without interleaving -/

/-- The accesses of a call with no other caller in between. -/
def alone (stats : List CoreStats) (snapshot : CoreStats) (accesses : List Access) :
    List CoreStats × CoreStats :=
  accesses.foldl (fun x a => a.perform x.1 x.2) (stats, snapshot)

theorem alone_append (stats : List CoreStats) (snapshot : CoreStats) (as bs : List Access) :
    alone stats snapshot (as ++ bs) =
      alone (alone stats snapshot as).1 (alone stats snapshot as).2 bs := by
  rw [alone, List.foldl_append]
  rfl

theorem modify_of_length_le {stats : List CoreStats} {i : Nat} (h : stats.length ≤ i)
    (f : CoreStats → CoreStats) : stats.modify i f = stats :=
  List.modify_eq_self h

/-- Undisturbed, `update_tx_stats` counts its packets and bytes. -/
theorem alone_updateTxStats (c : MetricsCollector) (coreId : UInt32) (packets bytes : UInt64) :
    (alone c.perCoreStats {}
      (Call.accesses c.perCoreStats.length (.updateTxStats coreId packets bytes))).1 =
      (c.updateTxStats coreId packets bytes).perCoreStats := by
  rw [Call.accesses, updateTxStats, updateCore]
  split
  · next h => exact (modify_of_length_le h _).symm
  · simp only [alone, List.foldl_cons, List.foldl_nil, Access.perform, List.modify_modify_eq]
    rfl

/-- The loads of one core add its counters to the snapshot. -/
theorem alone_load (stats : List CoreStats) (snapshot : CoreStats) (i : Nat) :
    alone stats snapshot (Counter.all.map (.load i)) =
      (stats, snapshot.add (stats.getD i {})) := rfl

/-- Undisturbed, `get_global_stats` returns the sums over the cores. -/
theorem alone_getGlobalStats (c : MetricsCollector) :
    alone c.perCoreStats {} (Call.accesses c.perCoreStats.length .getGlobalStats) =
      (c.perCoreStats, c.getGlobalStats) := by
  -- after the first `n` cores the snapshot holds their sums
  have hprefix : ∀ n ≤ c.perCoreStats.length,
      alone c.perCoreStats {} ((List.range n).flatMap fun i => Counter.all.map (.load i)) =
        (c.perCoreStats, { c with perCoreStats := c.perCoreStats.take n }.getGlobalStats) := by
    intro n
    induction n with
    | zero => exact fun _ => rfl
    | succ n ih =>
      intro hle
      have hlt : n < c.perCoreStats.length := hle
      rw [List.range_succ, List.flatMap_append, alone_append, ih hlt.le, List.flatMap_singleton,
        alone_load, List.take_add_one, List.getElem?_eq_getElem hlt, List.getD_eq_getElem _ _ hlt]
      simp only [getGlobalStats, aggregate, Option.toList_some, List.foldl_append, List.foldl_cons,
        List.foldl_nil, CoreStats.add]
  rw [Call.accesses, hprefix _ (Nat.le_refl _), List.take_length]

/-! ## What was counted -/

/-- The access clears a counter. -/
def Access.clears : Access → Bool
  | .clear _ _ => true
  | _ => false

/-- The call is a reset. -/
def Step.resets : Step → Bool
  | .call (.resetCore _) | .call .resetAll => true
  | _ => false

/-- Only resets clear counters. -/
theorem Call.clears_of_mem_accesses {call : Call} (h : (Step.call call).resets = false)
    {cores : Nat} {a : Access} (ha : a ∈ call.accesses cores) : a.clears = false := by
  cases call with
  | updateTxStats | updateRxStats | updateErrors | getCoreStats =>
    rw [accesses] at ha
    split at ha
    · cases ha
    · simp only [Counter.all, List.map_cons, List.map_nil, List.mem_cons, List.not_mem_nil,
        or_false] at ha
      aesop
  | getGlobalStats =>
    obtain ⟨i, -, hload⟩ := List.mem_flatMap.mp ha
    obtain ⟨k, -, rfl⟩ := List.mem_map.mp hload
    rfl
  | resetCore | resetAll => cases h

namespace Shared

open Function

variable {ι : Type*} [DecidableEq ι]

/-- What was counted on all cores. -/
def total (s : Shared ι) (k : Counter) : Nat :=
  ((List.range s.stats.length).map (s.counted · k)).sum

/-- A state some interleaving of the callers leads to. -/
def Reachable (s : Shared ι) : Prop := Run.Reachable step (fun s => ∃ cores, s = start ι cores) s

/-- The counters hold what was counted, modulo `2^64`. -/
def Sound (s : Shared ι) : Prop :=
  ∀ i < s.stats.length, ∀ k, (s.stats.getD i {}).get k = UInt64.ofNat (s.counted i k)

@[simp] theorem rest_access_self (s : Shared ι) (c : ι) (a : Access) (rest : List Access) :
    (s.access c a rest).rest c = rest :=
  update_self ..

theorem rest_access_ne (s : Shared ι) {c c' : ι} (a : Access) (rest : List Access) (h : c' ≠ c) :
    (s.access c a rest).rest c' = s.rest c' :=
  update_of_ne h ..

theorem snapshot_access_ne (s : Shared ι) {c c' : ι} (a : Access) (rest : List Access)
    (h : c' ≠ c) : (s.access c a rest).snapshot c' = s.snapshot c' :=
  update_of_ne h ..

theorem length_access (s : Shared ι) (c : ι) (a : Access) (rest : List Access) :
    (s.access c a rest).stats.length = s.stats.length := by
  cases a <;> simp [access, Access.perform]

theorem Sound.access {s : Shared ι} (h : s.Sound) (c : ι) (a : Access) (rest : List Access) :
    (s.access c a rest).Sound := by
  intro i hi k
  rw [length_access] at hi
  have hsound := h i hi k
  rw [List.getD_eq_getElem _ _ hi] at hsound
  cases a with
  | load core k' =>
    simp only [Shared.access, Access.perform, Access.count]
    rw [List.getD_eq_getElem _ _ hi, hsound]
  | fetchAdd core k' amount =>
    simp only [Shared.access, Access.perform, Access.count]
    rw [List.getD_eq_getElem _ _ (by simpa using hi), List.getElem_modify]
    split
    · next hcore =>
      rw [CoreStats.get_update]
      by_cases hk : k = k'
      · rw [if_pos hk, if_pos ⟨hcore, hk.symm⟩, hsound, UInt64.ofNat_add, UInt64.ofNat_toNat]
      · rw [if_neg hk, if_neg fun h => hk h.2.symm, hsound]
    · next hcore => rw [if_neg fun h => hcore h.1, hsound]
  | clear core k' =>
    simp only [Shared.access, Access.perform, Access.count]
    rw [List.getD_eq_getElem _ _ (by simpa using hi), List.getElem_modify]
    split
    · next hcore =>
      rw [CoreStats.get_update]
      by_cases hk : k = k'
      · rw [if_pos hk, if_pos ⟨hcore, hk.symm⟩]
        rfl
      · rw [if_neg hk, if_neg fun h => hk h.2.symm, hsound]
    · next hcore => rw [if_neg fun h => hcore h.1, hsound]

/-- A step begins a call, makes an access, or does nothing. -/
theorem step_cases (s : Shared ι) (x : ι × Step) :
    (∃ call, x.2 = .call call ∧ s.rest x.1 = [] ∧ s.step x = { s with
      rest := update s.rest x.1 (call.accesses s.stats.length)
      snapshot := update s.snapshot x.1 {} }) ∨
    (∃ a rest, x.2 = .access ∧ s.rest x.1 = a :: rest ∧ s.step x = s.access x.1 a rest) ∨
    s.step x = s := by
  rw [step]
  split
  · next call hx hrest => exact .inl ⟨call, hx, hrest, rfl⟩
  · next a rest hx hrest => exact .inr (.inl ⟨a, rest, hx, hrest, rfl⟩)
  · exact .inr (.inr rfl)

theorem Sound.step {s : Shared ι} (h : s.Sound) (x : ι × Step) : (s.step x).Sound := by
  rcases s.step_cases x with ⟨call, -, -, heq⟩ | ⟨a, rest, -, -, heq⟩ | heq
  · rw [heq]
    exact h
  · rw [heq]
    exact h.access x.1 a rest
  · rwa [heq]

theorem sound_of_reachable {s : Shared ι} (h : s.Reachable) : s.Sound := by
  refine Run.Reachable.induct (P := Sound) h ?_ fun s x hs => hs.step x
  rintro _ ⟨cores, rfl⟩ i hi k
  rw [start, List.length_replicate] at hi
  simp [start, List.getD_eq_getElem?_getD, hi]

/-! ## While nothing is cleared -/

/-- Nothing is cleared: no caller is about to, and no reset is called. -/
structure NoResets (s : Shared ι) (steps : List (ι × Step)) : Prop where
  pending : ∀ c, ∀ a ∈ s.rest c, a.clears = false
  called : ∀ x ∈ steps, x.2.resets = false

theorem NoResets.step {s : Shared ι} {x : ι × Step} {steps : List (ι × Step)}
    (h : s.NoResets (x :: steps)) : (s.step x).NoResets steps where
  pending c a ha := by
    rcases s.step_cases x with ⟨call, hx, -, heq⟩ | ⟨a', rest, -, hrest, heq⟩ | heq
    · rw [heq] at ha
      dsimp only at ha
      by_cases hc : c = x.1
      · subst hc
        rw [update_self] at ha
        have hcall := h.called x List.mem_cons_self
        rw [hx] at hcall
        exact Call.clears_of_mem_accesses hcall ha
      · rw [update_of_ne hc] at ha
        exact h.pending c a ha
    · rw [heq] at ha
      by_cases hc : c = x.1
      · subst hc
        rw [rest_access_self] at ha
        exact h.pending _ a (hrest ▸ List.mem_cons_of_mem a' ha)
      · rw [rest_access_ne _ _ _ hc] at ha
        exact h.pending c a ha
    · rw [heq] at ha
      exact h.pending c a ha
  called x' hx' := h.called x' (List.mem_cons_of_mem x hx')

/-- Then nothing that was counted is forgotten. -/
theorem NoResets.counted_le {s : Shared ι} {x : ι × Step} {steps : List (ι × Step)}
    (h : s.NoResets (x :: steps)) (i : Nat) (k : Counter) :
    s.counted i k ≤ (s.step x).counted i k := by
  rcases s.step_cases x with ⟨call, -, -, heq⟩ | ⟨a, rest, -, hrest, heq⟩ | heq
  · rw [heq]
  · rw [heq]
    have hclears := h.pending x.1 a (hrest ▸ List.mem_cons_self)
    cases a with
    | fetchAdd core k' amount =>
      simp only [access, Access.count]
      split
      · exact Nat.le_add_right _ _
      · exact Nat.le_refl _
    | load => exact Nat.le_refl _
    | clear => cases hclears
  · rw [heq]

/-! ## A snapshot in progress -/

/-- What the loads of the counter `k` would add up to, if each counter held what `count` says. -/
def loaded (count : Nat → Counter → Nat) (k : Counter) : List Access → Nat
  | .load i k' :: accesses => (if k' = k then count i k else 0) + loaded count k accesses
  | _ :: accesses => loaded count k accesses
  | [] => 0

theorem loaded_append (count : Nat → Counter → Nat) (k : Counter) (as bs : List Access) :
    loaded count k (as ++ bs) = loaded count k as + loaded count k bs := by
  induction as with
  | nil => exact (Nat.zero_add _).symm
  | cons a as ih =>
    cases a with
    | load i k' => rw [List.cons_append, loaded, loaded, ih, Nat.add_assoc]
    | fetchAdd | clear => exact ih

theorem loaded_mono {count count' : Nat → Counter → Nat} (h : ∀ i k, count i k ≤ count' i k)
    (k : Counter) (accesses : List Access) :
    loaded count k accesses ≤ loaded count' k accesses := by
  induction accesses with
  | nil => exact Nat.le_refl _
  | cons a accesses ih =>
    cases a with
    | load i k' =>
      rw [loaded, loaded]
      split
      · exact Nat.add_le_add (h i k) ih
      · exact Nat.add_le_add_left ih 0
    | fetchAdd | clear => exact ih

/-- The loads of `get_global_stats` are those of the total. -/
theorem loaded_getGlobalStats (count : Nat → Counter → Nat) (k : Counter) (cores : Nat) :
    loaded count k (Call.accesses cores .getGlobalStats) =
      ((List.range cores).map (count · k)).sum := by
  rw [Call.accesses]
  induction cores with
  | zero => rfl
  | succ n ih =>
    rw [List.range_succ, List.flatMap_append, loaded_append, ih, List.map_append, List.sum_append,
      List.flatMap_singleton]
    cases k <;> simp [Counter.all, loaded]

/-- Since the state `s`, in which it was called, caller `c` has made the loads `done` of its
    snapshot, and each total so far lies between what these counters held at first and what they
    hold now. -/
structure Between (s t : Shared ι) (c : ι) (done : List Access) : Prop where
  sound : t.Sound
  length : t.stats.length = s.stats.length
  grows : ∀ i k, s.counted i k ≤ t.counted i k
  rest : Call.accesses s.stats.length .getGlobalStats = done ++ t.rest c
  sum : ∀ k, ∃ n, loaded s.counted k done ≤ n ∧ n ≤ loaded t.counted k done ∧
    (t.snapshot c).get k = UInt64.ofNat n

theorem between_call {s : Shared ι} (h : s.Sound) {c : ι} (hidle : s.rest c = []) :
    Between s (s.step (c, .call .getGlobalStats)) c [] := by
  have heq : s.step (c, .call .getGlobalStats) = { s with
      rest := update s.rest c (Call.accesses s.stats.length .getGlobalStats)
      snapshot := update s.snapshot c {} } := by
    simp only [step, hidle]
  rw [heq]
  exact
    { sound := h
      length := rfl
      grows := fun _ _ => Nat.le_refl _
      rest := by simp
      sum := fun k => ⟨0, Nat.le_refl _, Nat.le_refl _, by simp⟩ }

omit [DecidableEq ι] in
/-- A step of another caller only adds to the counters. -/
theorem Between.of_other {s t t' : Shared ι} {c : ι} {done : List Access} (h : Between s t c done)
    (hsound : t'.Sound) (hlength : t'.stats.length = t.stats.length)
    (hgrows : ∀ i k, t.counted i k ≤ t'.counted i k) (hrest : t'.rest c = t.rest c)
    (hsnapshot : t'.snapshot c = t.snapshot c) : Between s t' c done where
  sound := hsound
  length := hlength.trans h.length
  grows i k := (h.grows i k).trans (hgrows i k)
  rest := by rw [hrest]; exact h.rest
  sum k := by
    obtain ⟨n, hle, hge, hget⟩ := h.sum k
    exact ⟨n, hle, hge.trans (loaded_mono hgrows k done), by rw [hsnapshot, hget]⟩

/-- An access of the caller itself is the next load. -/
theorem Between.access {s t : Shared ι} {c : ι} {done : List Access} (h : Between s t c done)
    {a : Access} {rest : List Access} (hrest : t.rest c = a :: rest) :
    Between s (t.access c a rest) c (done ++ [a]) := by
  -- it is a load of a core in range
  have hmem : a ∈ Call.accesses s.stats.length .getGlobalStats := by
    rw [h.rest, hrest]
    exact List.mem_append_right _ List.mem_cons_self
  obtain ⟨i, hi, hload⟩ := List.mem_flatMap.mp hmem
  obtain ⟨k', -, rfl⟩ := List.mem_map.mp hload
  rw [List.mem_range, ← h.length] at hi
  refine
    { sound := h.sound.access c _ rest
      length := (length_access ..).trans h.length
      grows := h.grows
      rest := ?_
      sum := fun k => ?_ }
  · rw [h.rest, hrest, rest_access_self, List.append_assoc, List.singleton_append]
  · obtain ⟨n, hle, hge, hget⟩ := h.sum k
    have hcounted : (t.access c (.load i k') rest).counted = t.counted := rfl
    have hsnapshot : (t.access c (.load i k') rest).snapshot c =
        (t.snapshot c).update k' (· + (t.stats.getD i {}).get k') :=
      update_self ..
    rw [hcounted, hsnapshot, CoreStats.get_update, loaded_append, loaded_append]
    by_cases hk : k = k'
    · subst hk
      refine ⟨n + t.counted i k, ?_, ?_, ?_⟩
      · have := h.grows i k
        simp only [loaded, if_true]
        omega
      · simp only [loaded, if_true]
        omega
      · rw [if_pos rfl, hget, h.sound i hi k, UInt64.ofNat_add]
    · refine ⟨n, ?_, ?_, by rw [if_neg hk, hget]⟩
      · simp only [loaded, if_neg (Ne.symm hk)]
        omega
      · simp only [loaded, if_neg (Ne.symm hk)]
        omega

theorem Between.step {s t : Shared ι} {c : ι} {done : List Access} (h : Between s t c done)
    {x : ι × Step} {steps : List (ι × Step)} (hresets : t.NoResets (x :: steps))
    (hcaller : ∀ call, x ≠ (c, .call call)) : ∃ done', Between s (t.step x) c done' := by
  have hsound := h.sound.step x
  have hgrows := hresets.counted_le
  rcases t.step_cases x with ⟨call, hx, -, heq⟩ | ⟨a, rest, -, hrest, heq⟩ | heq
  · have hc : c ≠ x.1 := fun hc => hcaller call (Prod.ext hc.symm hx)
    rw [heq] at hsound hgrows ⊢
    exact ⟨done, h.of_other hsound rfl hgrows (update_of_ne hc ..) (update_of_ne hc ..)⟩
  · rw [heq] at hsound hgrows ⊢
    by_cases hc : c = x.1
    · subst hc
      exact ⟨_, h.access hrest⟩
    · exact ⟨done, h.of_other hsound (length_access ..) hgrows (rest_access_ne _ _ _ hc)
        (snapshot_access_ne _ _ _ hc)⟩
  · rw [heq]
    exact ⟨done, h⟩

theorem Between.run {s t : Shared ι} {c : ι} {done : List Access} (h : Between s t c done)
    {steps : List (ι × Step)} (hresets : t.NoResets steps)
    (hcaller : ∀ call, (c, .call call) ∉ steps) :
    ∃ done', Between s (Run.run Shared.step t steps) c done' := by
  induction steps generalizing t done with
  | nil => exact ⟨done, h⟩
  | cons x steps ih =>
    obtain ⟨done', h'⟩ := h.step hresets fun call hx => hcaller call (hx ▸ List.mem_cons_self)
    exact ih h' hresets.step fun call hmem => hcaller call (List.mem_cons_of_mem x hmem)

/-- **Totals read while counting goes on.** In any interleaving of any number of callers, when a
    call of `get_global_stats` is through and no counter was cleared meanwhile, each total in its
    snapshot is, modulo `2^64`, a number between what had been counted on all cores when it was
    called and what has been counted now. -/
theorem global_between {s : Shared ι} (h : s.Reachable) {c : ι} (hidle : s.rest c = [])
    {steps : List (ι × Step)} (hcaller : ∀ call, (c, .call call) ∉ steps)
    (hresets : s.NoResets ((c, .call .getGlobalStats) :: steps))
    (hdone : (Run.run step s ((c, .call .getGlobalStats) :: steps)).rest c = []) (k : Counter) :
    let s' := Run.run step s ((c, .call .getGlobalStats) :: steps)
    ∃ n, s.total k ≤ n ∧ n ≤ s'.total k ∧ (s'.snapshot c).get k = UInt64.ofNat n := by
  intro s'
  obtain ⟨done, hbetween⟩ :=
    (between_call (sound_of_reachable h) hidle).run hresets.step hcaller
  -- all the loads are done
  have hall : Call.accesses s.stats.length .getGlobalStats = done := by
    rw [hbetween.rest, ← Run.run_cons, hdone, List.append_nil]
  obtain ⟨n, hle, hge, hget⟩ := hbetween.sum k
  rw [← hall, loaded_getGlobalStats] at hle hge
  refine ⟨n, hle, ?_, hget⟩
  rwa [← hbetween.length] at hge

/-- A worker counts a packet while the totals are read, after its core was read. -/
theorem global_between_one_core :
    let s := Run.run step (start Bool 1)
      [(true, .call (.updateTxStats 0 3 180)), (true, .access), (true, .access)]
    let steps : List (Bool × Step) := [(false, .access), (true, .call (.updateTxStats 0 1 60)),
      (true, .access), (false, .access), (false, .access), (true, .access), (false, .access),
      (false, .access)]
    ∃ n, s.total .txBytes ≤ n ∧
      n ≤ (Run.run step s ((false, .call .getGlobalStats) :: steps)).total .txBytes ∧
      ((Run.run step s ((false, .call .getGlobalStats) :: steps)).snapshot false).get .txBytes =
        UInt64.ofNat n :=
  global_between ⟨start Bool 1, _, ⟨1, rfl⟩, rfl⟩ rfl (fun _ => by simp)
    { pending := by decide
      called := by decide }
    rfl .txBytes

end Shared

end MetricsCollector

end TrafficGen
