import Mathlib.Algebra.Order.Field.Rat
import Mathlib.Tactic.Positivity
import TrafficGen.Spec.WorkerStats

/-!
# Reported rates

A poll of `calculate_current_pps` or `calculate_current_bps` first brings the snapshot of its
core up to date and then measures against it. When the snapshot is a second old the poll
takes a new one and measures against that, so it reports no traffic whatever was sent. All
polls of a core share one snapshot.

## Key results

- `calculateCurrentRate_pos_iff`: a poll reports traffic exactly when the snapshot it finds is
  young enough to be kept, old enough to be measured against, and below the counter
- `trafficReported_iff`: over a run, growth between two polls is reported exactly when the
  later one finds such a snapshot
-/

namespace TrafficGen

namespace MetricsCollector

/-! ## One poll -/

private theorem tdiv_pos_iff {n : Int} (hn : 0 < n) (x : Int) : 0 < x.tdiv n ↔ n ≤ x := by
  cases Int.le_total 0 x with
  | inl hx =>
    rw [Int.tdiv_eq_ediv_of_nonneg hx]
    have := Int.le_ediv_iff_mul_le (a := 1) (b := x) hn
    omega
  | inr hx =>
    have hneg : (-x).tdiv n = -(x.tdiv n) := Int.neg_tdiv ..
    have hnonneg : 0 ≤ (-x).tdiv n := Int.tdiv_nonneg (by omega) (Int.le_of_lt hn)
    omega

/-- The rate a poll reports against a snapshot of that count and age. -/
def measuredRate (now last : UInt64) (unit : Rat) (elapsedMs : Int) : Rat :=
  if elapsedMs ≤ 0 then 0
  else
    let delta := if now > last then now - last else 0
    delta.toNat * unit / (elapsedMs / 1000)

theorem measuredRate_pos_iff {unit : Rat} (hunit : 0 < unit) (now last : UInt64)
    (elapsedMs : Int) :
    0 < measuredRate now last unit elapsedMs ↔ 0 < elapsedMs ∧ last < now := by
  unfold measuredRate
  split
  · next hle =>
    simp only [lt_irrefl, false_iff, not_and]
    omega
  · next hlt =>
    have hms : (0 : Rat) < elapsedMs / 1000 := by
      have : (0 : Rat) < elapsedMs := by exact_mod_cast Int.not_le.mp hlt
      positivity
    by_cases hgrew : last < now
    · have hdelta : 0 < (now - last).toNat := by
        rw [UInt64.toNat_sub_of_le _ _ (UInt64.le_of_lt hgrew)]
        rw [UInt64.lt_iff_toNat_lt] at hgrew
        omega
      have hcast : (0 : Rat) < (now - last).toNat := by exact_mod_cast hdelta
      simp only [gt_iff_lt, hgrew, if_true, and_true]
      exact iff_of_true (by positivity) (Int.not_le.mp hlt)
    · simp [hgrew]

/-- The snapshot a poll finds on record is kept by it, is at least a millisecond old when the
    rate is measured, and was taken at a lower count. -/
def Measurable (counted : RateSnapshot → UInt64) (now : UInt64) (nowNs rateNowNs : UInt64)
    (last : RateSnapshot) : Prop :=
  elapsedNs nowNs last.timestampNs < 1000000000 ∧
    1000000 ≤ elapsedNs rateNowNs last.timestampNs ∧ counted last < now

/-- The snapshot a poll measures against: the one on record, or a new one when there is none or
    it is a second old. -/
theorem lookup_updateSnapshot {c : MetricsCollector} {coreId : UInt32} {stats : CoreStats}
    (hstats : c.perCoreStats[coreId.toNat]? = some stats) (nowNs : UInt64) :
    (∃ last, c.lastSnapshot.lookup coreId = some last ∧
        elapsedNs nowNs last.timestampNs < 1000000000 ∧
        (c.updateSnapshot coreId nowNs).lastSnapshot.lookup coreId = some last) ∨
      (∀ last, c.lastSnapshot.lookup coreId = some last →
          ¬ elapsedNs nowNs last.timestampNs < 1000000000) ∧
        (c.updateSnapshot coreId nowNs).lastSnapshot.lookup coreId =
          some ⟨stats.txPackets, stats.txBytes, nowNs⟩ := by
  unfold updateSnapshot
  simp only [hstats]
  cases hlast : c.lastSnapshot.lookup coreId with
  | none =>
    right
    simp
  | some last =>
    have hold := tdiv_pos_iff (n := 1000000000) (by omega) (elapsedNs nowNs last.timestampNs)
    by_cases hyoung : elapsedNs nowNs last.timestampNs < 1000000000
    · left
      refine ⟨last, rfl, hyoung, ?_⟩
      dsimp only
      rw [if_neg (by omega), hlast]
    · right
      dsimp only
      rw [if_pos (by omega)]
      simpa using hyoung

theorem perCoreStats_calculateCurrentRate (c : MetricsCollector) (count : CoreStats → UInt64)
    (counted : RateSnapshot → UInt64) (unit : Rat) (coreId : UInt32) (nowNs rateNowNs : UInt64) :
    (calculateCurrentRate count counted unit c coreId nowNs rateNowNs).2.perCoreStats =
      c.perCoreStats := by
  have hupdate : (c.updateSnapshot coreId nowNs).perCoreStats = c.perCoreStats := by
    unfold updateSnapshot
    split
    · rfl
    · dsimp only
      split
      · rfl
      · split
        · rfl
        · rfl
  unfold calculateCurrentRate
  split
  · rfl
  · dsimp only
    split
    · exact hupdate
    · split
      · exact hupdate
      · exact hupdate

theorem lastSnapshot_calculateCurrentRate {count : CoreStats → UInt64}
    {counted : RateSnapshot → UInt64} {unit : Rat} {c : MetricsCollector} {coreId : UInt32}
    {stats : CoreStats} (hstats : c.perCoreStats[coreId.toNat]? = some stats)
    {nowNs rateNowNs : UInt64} :
    (calculateCurrentRate count counted unit c coreId nowNs rateNowNs).2.lastSnapshot =
      (c.updateSnapshot coreId nowNs).lastSnapshot := by
  unfold calculateCurrentRate
  rw [hstats]
  dsimp only
  split
  · rfl
  · split
    · rfl
    · rfl

/-- A poll reports traffic exactly when it can measure against the snapshot on record. -/
theorem calculateCurrentRate_pos_iff {count : CoreStats → UInt64}
    {counted : RateSnapshot → UInt64} {unit : Rat} (hunit : 0 < unit)
    (hsnapshot : ∀ (s : CoreStats) t, counted ⟨s.txPackets, s.txBytes, t⟩ = count s)
    (c : MetricsCollector) (coreId : UInt32) (nowNs rateNowNs : UInt64) :
    0 < (calculateCurrentRate count counted unit c coreId nowNs rateNowNs).1 ↔
      ∃ stats last, c.perCoreStats[coreId.toNat]? = some stats ∧
        c.lastSnapshot.lookup coreId = some last ∧
        Measurable counted (count stats) nowNs rateNowNs last := by
  cases hstats : c.perCoreStats[coreId.toNat]? with
  | none => simp [calculateCurrentRate, hstats]
  | some stats =>
    have hrate : ∀ last, (c.updateSnapshot coreId nowNs).lastSnapshot.lookup coreId = some last →
        (0 < (calculateCurrentRate count counted unit c coreId nowNs rateNowNs).1 ↔
          1000000 ≤ elapsedNs rateNowNs last.timestampNs ∧ counted last < count stats) := by
      intro last hlast
      rw [← tdiv_pos_iff (by omega), ← measuredRate_pos_iff hunit]
      unfold calculateCurrentRate measuredRate
      simp only [hstats, hlast]
      split
      · rfl
      · rfl
    cases lookup_updateSnapshot hstats nowNs with
    | inl hkept =>
      obtain ⟨last, hlast, hyoung, hkept⟩ := hkept
      simp [hrate last hkept, hlast, Measurable, hyoung]
    | inr hnew =>
      -- measured against the count itself, there is no growth
      obtain ⟨hold, hnew⟩ := hnew
      rw [hrate _ hnew, hsnapshot]
      constructor
      · intro h
        exact absurd h.2 (UInt64.lt_irrefl _)
      · intro h
        obtain ⟨stats', last, -, hlast, hyoung, -⟩ := h
        exact absurd hyoung (hold last hlast)

end MetricsCollector

/-! ## Runs of updates and polls -/

/-- A query of one of the two rates of a core, with its clock reads. -/
inductive RatePoll where
  | pps (coreId : UInt32) (nowNs rateNowNs : UInt64)
  | bps (coreId : UInt32) (nowNs rateNowNs : UInt64)
deriving DecidableEq, Repr

namespace RatePoll

/-- The core asked about. -/
def coreId : RatePoll → UInt32
  | pps coreId _ _ | bps coreId _ _ => coreId

/-- The clock read at which the snapshot is brought up to date. -/
def nowNs : RatePoll → UInt64
  | pps _ nowNs _ | bps _ nowNs _ => nowNs

/-- The clock read at which the rate is measured. -/
def rateNowNs : RatePoll → UInt64
  | pps _ _ rateNowNs | bps _ _ rateNowNs => rateNowNs

/-- The rate returned, and the collector with the snapshot brought up to date. -/
def query (c : MetricsCollector) : RatePoll → Rat × MetricsCollector
  | pps coreId nowNs rateNowNs => c.calculateCurrentPps coreId nowNs rateNowNs
  | bps coreId nowNs rateNowNs => c.calculateCurrentBps coreId nowNs rateNowNs

/-- The counter the rate is about. -/
def count (c : MetricsCollector) (poll : RatePoll) : UInt64 :=
  match poll with
  | pps coreId _ _ => (c.getCoreStats coreId).txPackets
  | bps coreId _ _ => (c.getCoreStats coreId).txBytes

/-- The counter in a snapshot. -/
def counted (last : RateSnapshot) : RatePoll → UInt64
  | pps _ _ _ => last.packets
  | bps _ _ _ => last.bytes

/-- The poll finds a snapshot it can measure against. -/
def FindsMeasurable (c : MetricsCollector) (poll : RatePoll) : Prop :=
  ∃ last, c.lastSnapshot.lookup poll.coreId = some last ∧
    MetricsCollector.Measurable (fun last => counted last poll) (poll.count c) poll.nowNs
      poll.rateNowNs last

/-- A poll changes nothing but snapshots. -/
theorem perCoreStats_query (c : MetricsCollector) (poll : RatePoll) :
    (poll.query c).2.perCoreStats = c.perCoreStats := by
  cases poll with
  | pps coreId nowNs rateNowNs => exact c.perCoreStats_calculateCurrentRate ..
  | bps coreId nowNs rateNowNs => exact c.perCoreStats_calculateCurrentRate ..

/-- The snapshots after a poll are those of `updateSnapshot`. -/
theorem lastSnapshot_query {c : MetricsCollector} {poll : RatePoll}
    (hcore : poll.coreId.toNat < c.perCoreStats.length) :
    (poll.query c).2.lastSnapshot = (c.updateSnapshot poll.coreId poll.nowNs).lastSnapshot := by
  have hstats := List.getElem?_eq_getElem hcore
  cases poll with
  | pps coreId nowNs rateNowNs => exact MetricsCollector.lastSnapshot_calculateCurrentRate hstats
  | bps coreId nowNs rateNowNs => exact MetricsCollector.lastSnapshot_calculateCurrentRate hstats

theorem query_pos_iff {c : MetricsCollector} {poll : RatePoll}
    (hcore : poll.coreId.toNat < c.perCoreStats.length) :
    0 < (poll.query c).1 ↔ poll.FindsMeasurable c := by
  have hstats := List.getElem?_eq_getElem hcore
  have hget : c.getCoreStats poll.coreId = c.perCoreStats[poll.coreId.toNat] := by
    rw [MetricsCollector.getCoreStats, List.getD_eq_getElem?_getD, hstats, Option.getD_some]
  unfold FindsMeasurable
  cases poll with
  | pps coreId nowNs rateNowNs =>
    have hpos := @MetricsCollector.calculateCurrentRate_pos_iff (·.txPackets) (·.packets) 1
      (by decide) (fun _ _ => rfl) c coreId nowNs rateNowNs
    show 0 < (MetricsCollector.calculateCurrentRate _ _ _ c coreId nowNs rateNowNs).1 ↔ _
    rw [hpos]
    simp only [RatePoll.coreId] at hstats hget
    simp [hstats, RatePoll.coreId, RatePoll.count, RatePoll.counted, RatePoll.nowNs,
      RatePoll.rateNowNs, hget]
  | bps coreId nowNs rateNowNs =>
    have hpos := @MetricsCollector.calculateCurrentRate_pos_iff (·.txBytes) (·.bytes) 8
      (by decide) (fun _ _ => rfl) c coreId nowNs rateNowNs
    show 0 < (MetricsCollector.calculateCurrentRate _ _ _ c coreId nowNs rateNowNs).1 ↔ _
    rw [hpos]
    simp only [RatePoll.coreId] at hstats hget
    simp [hstats, RatePoll.coreId, RatePoll.count, RatePoll.counted, RatePoll.nowNs,
      RatePoll.rateNowNs, hget]

end RatePoll

/-- One thing that happens to the collector. -/
inductive StatsEvent where
  | report (coreId : UInt32) (call : StatsCall)
  | poll (poll : RatePoll)
  | resetCore (coreId : UInt32)
  | resetAll (nowNs : UInt64)
deriving DecidableEq, Repr

namespace StatsEvent

/-- The collector after an event. -/
def step (c : MetricsCollector) : StatsEvent → MetricsCollector
  | report coreId call => c.report coreId call
  | poll p => (p.query c).2
  | resetCore coreId => c.resetCore coreId
  | resetAll nowNs => c.resetAll nowNs

/-- The event resets the counters of a core. -/
def Resets (coreId : UInt32) : StatsEvent → Prop
  | resetCore coreId' => coreId' = coreId
  | resetAll _ => True
  | _ => False

/-- No event changes how many cores there are. -/
theorem length_step (c : MetricsCollector) (e : StatsEvent) :
    (step c e).perCoreStats.length = c.perCoreStats.length := by
  cases e with
  | report coreId call => exact c.length_report coreId call
  | poll p => exact congrArg List.length (p.perCoreStats_query c)
  | resetCore coreId =>
    show (c.resetCore coreId).perCoreStats.length = _
    unfold MetricsCollector.resetCore
    split
    · exact List.length_modify ..
    · rfl
  | resetAll nowNs => exact List.length_map ..

theorem length_run (c : MetricsCollector) (events : List StatsEvent) :
    (Run.run step c events).perCoreStats.length = c.perCoreStats.length :=
  Run.run_induct (P := fun c' : MetricsCollector =>
      c'.perCoreStats.length = c.perCoreStats.length) rfl
    (fun c' e h => (length_step c' e).trans h) events

/-- A poll follows another of its core, in range, by a millisecond or more; the core was not
    reset in between, and its counter grew. -/
structure Grown (c : MetricsCollector) (earlier : RatePoll) (between : List StatsEvent)
    (later : RatePoll) : Prop where
  core : later.coreId = earlier.coreId
  inRange : later.coreId.toNat < c.perCoreStats.length
  noReset : ∀ e ∈ between, ¬ e.Resets later.coreId
  apart : 1000000 ≤ MetricsCollector.elapsedNs later.nowNs earlier.nowNs
  grew : later.count (earlier.query c).2 < later.count (Run.run step (earlier.query c).2 between)

/-- `P` holds, in the state it finds, of every poll of a run that follows another with growth in
    between. -/
def ForGrowth (P : MetricsCollector → RatePoll → Prop) (c : MetricsCollector)
    (events : List StatsEvent) : Prop :=
  ∀ pre earlier between later post,
    events = pre ++ .poll earlier :: (between ++ .poll later :: post) →
    Grown (Run.run step c pre) earlier between later →
    P (Run.run step c (pre ++ .poll earlier :: between)) later

/-- Growth between two polls is reported by the later one. -/
def TrafficReported : MetricsCollector → List StatsEvent → Prop :=
  ForGrowth fun c poll => 0 < (poll.query c).1

/-- Over any run of reports, polls and resets, growth between two polls of a core is reported if
    and only if the later one finds a snapshot of the core that it keeps, that is at least a
    millisecond old, and that was taken at a lower count. -/
theorem trafficReported_iff (c : MetricsCollector) (events : List StatsEvent) :
    TrafficReported c events ↔ ForGrowth (fun c poll => poll.FindsMeasurable c) c events := by
  unfold TrafficReported ForGrowth
  apply forall_congr'; intro pre
  apply forall_congr'; intro earlier
  apply forall_congr'; intro between
  apply forall_congr'; intro later
  apply forall_congr'; intro post
  apply imp_congr_right; intro _
  apply imp_congr_right; intro hgrown
  apply RatePoll.query_pos_iff
  rw [length_run, ← length_run c pre]
  exact hgrown.inRange

/-- Two polls two seconds apart, with a hundred packets sent between them: the first takes a
    snapshot, and the second replaces it before it measures. -/
theorem not_trafficReported_secondsApart :
    ¬ TrafficReported (MetricsCollector.new 1 0)
      [.poll (.pps 0 1 1), .report 0 (.tx 100 6400), .poll (.pps 0 2000000001 2000000001)] := by
  intro h
  have hpos := h [] (.pps 0 1 1) [.report 0 (.tx 100 6400)] (.pps 0 2000000001 2000000001) [] rfl
    ⟨rfl, by decide, by simp [Resets], by decide, by decide⟩
  obtain ⟨last, hlast, hyoung, -, -⟩ := (RatePoll.query_pos_iff (by decide)).mp hpos
  have : last = ⟨0, 0, 1⟩ := Option.some.inj (hlast.symm.trans (by decide))
  subst this
  exact absurd hyoung (by decide)

/-- Reports leave every snapshot alone. -/
theorem lastSnapshot_run_reports (c : MetricsCollector) (reports : List (UInt32 × StatsCall)) :
    (Run.run step c (reports.map fun x => .report x.1 x.2)).lastSnapshot = c.lastSnapshot := by
  induction reports generalizing c with
  | nil => rfl
  | cons x reports ih =>
    rw [List.map_cons, Run.run_cons, ih]
    show (c.report x.1 x.2).lastSnapshot = _
    rw [MetricsCollector.report_eq_updateCore]
    rfl

/-- A poll that takes the first snapshot of its core is followed, after reports only, by one
    that can measure against it: at most a second and at least a millisecond later. -/
theorem findsMeasurable_of_reports {c : MetricsCollector} {earlier later : RatePoll}
    {reports : List (UInt32 × StatsCall)} (hfirst : c.lastSnapshot.lookup earlier.coreId = none)
    (hgrown : Grown c earlier (reports.map fun x => .report x.1 x.2) later)
    (hyoung : MetricsCollector.elapsedNs later.nowNs earlier.nowNs < 1000000000)
    (hread : MetricsCollector.elapsedNs later.nowNs earlier.nowNs ≤
      MetricsCollector.elapsedNs later.rateNowNs earlier.nowNs) :
    later.FindsMeasurable (Run.run step c (.poll earlier :: reports.map fun x =>
      .report x.1 x.2)) := by
  have hcore := hgrown.inRange
  have hnew : (earlier.query c).2.lastSnapshot.lookup later.coreId =
      some ⟨(c.getCoreStats later.coreId).txPackets, (c.getCoreStats later.coreId).txBytes,
        earlier.nowNs⟩ := by
    rw [hgrown.core] at hcore ⊢
    have hstats := List.getElem?_eq_getElem hcore
    rw [RatePoll.lastSnapshot_query hcore, MetricsCollector.getCoreStats,
      List.getD_eq_getElem?_getD, hstats]
    cases MetricsCollector.lookup_updateSnapshot hstats earlier.nowNs with
    | inl hkept =>
      obtain ⟨last, hlast, -⟩ := hkept
      cases hfirst.symm.trans hlast
    | inr hnew => exact hnew.2
  refine ⟨_, (congrArg (AList.lookup later.coreId) ?_).trans hnew, hyoung, ?_, ?_⟩
  · exact lastSnapshot_run_reports (earlier.query c).2 reports
  · exact hgrown.apart.trans hread
  · have hcount : later.count (earlier.query c).2 = later.count c := by
      unfold RatePoll.count MetricsCollector.getCoreStats
      rw [RatePoll.perCoreStats_query]
    have hgrew := hcount ▸ hgrown.grew
    cases later with
    | pps coreId nowNs rateNowNs => exact hgrew
    | bps coreId nowNs rateNowNs => exact hgrew

end StatsEvent

end TrafficGen
