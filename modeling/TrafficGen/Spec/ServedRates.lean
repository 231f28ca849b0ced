import Mathlib.Algebra.Order.Floor.Div
import TrafficGen.Spec.FlowActivity
import TrafficGen.Spec.ReadyFlows
import TrafficGen.Spec.TokenBucketRefill

/-!
# Flows that are never served

A flow of `pps` packets a second earns a token in `⌈10^9 / pps⌉` nanoseconds, so a poll that long
after the flow was started or last returned should return it. Its bucket holds `pps / 10` tokens,
which rounds down to none for the rates below ten: such a flow is accepted, started and never
returned. The other way to be left out is a refill that wraps to zero.

The time of a call is what the flow's bucket reads from the clock in it.

## Key results

- `Tracked.served_iff_provided`: an overdue flow is returned unless its bucket can hold no token or
  the refill wraps
- `each_served_iff`: in a history an overdue flow is always returned exactly when its rate is at
  least ten and no refill wraps to zero
-/

namespace TrafficGen

namespace TokenBucket

variable {b : TokenBucket} {nowNs : UInt64}

/-- What is earned after `s` is added to what was earned before, and a fraction left over at `s`
    may complete one more token. -/
theorem earned_le_add_one {s t : Nat} (hlast : b.lastUpdateNs.toNat ≤ s) (hst : s ≤ t)
    (hshort : b.ratePps.toNat * (t - s) < nsPerSec) : b.earned t ≤ b.earned s + 1 := by
  have hsplit : (t - b.lastUpdateNs.toNat) * b.ratePps.toNat =
      (s - b.lastUpdateNs.toNat) * b.ratePps.toNat + b.ratePps.toNat * (t - s) := by
    rw [Nat.mul_comm b.ratePps.toNat, ← Nat.add_mul]
    congr 1
    omega
  rw [earned, earned, hsplit, ← Nat.add_div_right _ (by decide)]
  exact Nat.div_le_div_right (by omega)

/-- When less than a token was earned since the last time none was due, a bucket that is left
    without tokens has not been touched. -/
theorem updateTokens_of_short (hrate : b.ratePps ≠ 0) (htok : b.tokens.toNat ≤ b.burstSize.toNat)
    (hburst : b.burstSize ≠ 0) (hcap : b.burstSize.toNat < 2 ^ 64 - 1) {s : Nat}
    (hlast : b.lastUpdateNs.toNat ≤ s) (hidle : b.refill s = 0) (hst : s ≤ nowNs.toNat)
    (hshort : b.ratePps.toNat * (nowNs.toNat - s) < nsPerSec)
    (hempty : (b.updateTokens nowNs).tokens = 0) : b.updateTokens nowNs = b := by
  have hle := earned_le_add_one hlast hst hshort
  have hmono := b.earned_mono hst
  have hwrap := ((tokens_updateTokens_eq_zero_iff nowNs htok).mp hempty).resolve_left hburst
  have hzero : b.refill nowNs.toNat = 0 := by
    rw [Nat.dvd_iff_mod_eq_zero] at hwrap
    rw [refill] at hidle ⊢
    omega
  rcases updateTokens_of_idle hzero with heq | ⟨hno, -⟩
  · exact heq
  · exact absurd hno hrate

end TokenBucket

namespace FlowScheduler

open TokenBucket

/-! ## Watching one flow -/

/-- The scheduler, with the later of a flow's start and its last appearance, and the last time its
    bucket read the clock. -/
structure Watch where
  scheduler : FlowScheduler
  served : UInt64
  clock : UInt64

namespace Watch

/-- Nothing has happened yet. -/
def new (srcMac : List UInt8) : Watch where
  scheduler := .new srcMac
  served := 0
  clock := 0

/-- The watch on the flow `id` after a call. -/
def step (d : Dpdk) (id : UInt32) (w : Watch) (c : Call) : Watch :=
  let scheduler := w.scheduler.call d c
  match c with
  | .control (.startFlow id' _ bucketNowNs) =>
    if id' = id then { scheduler, served := bucketNowNs, clock := bucketNowNs }
    else { w with scheduler }
  | .control _ => { w with scheduler }
  | .poll p =>
    { scheduler
      served := if id ∈ w.scheduler.ready p then p.bucketNowNs id else w.served
      clock := p.bucketNowNs id }

/-- The clock does not run backwards, and a poll asks for as many flows as there are. -/
def Fair (id : UInt32) (w : Watch) : Call → Prop
  | .control (.startFlow id' _ bucketNowNs) => id' = id → w.clock ≤ bucketNowNs
  | .control _ => True
  | .poll p => w.clock ≤ p.bucketNowNs id ∧ w.scheduler.flows.keys.length ≤ p.maxFlows.toNat

/-- The poll comes when the flow has a positive rate, is active and not expired, and was started
    or returned long enough ago to have earned a token. -/
def Overdue (id : UInt32) (w : Watch) (p : Poll) (f : FlowConfigInternal) : Prop :=
  w.scheduler.getFlow id = some f ∧ f.active = true ∧ f.isExpired p.nowNs = false ∧
    1 ≤ f.pps.toNat ∧ w.served.toNat + nsPerSec ⌈/⌉ f.pps.toNat ≤ (p.bucketNowNs id).toNat

/-- An overdue flow is returned. -/
def Served (id : UInt32) (w : Watch) : Call → Prop
  | .poll p => ∀ f, Overdue id w p f → id ∈ w.scheduler.ready p
  | .control _ => True

/-- When the flow is overdue, its rate is at least ten, and its tokens with what was earned since
    the last refill are no positive multiple of `2 ^ 64`. -/
def Provided (id : UInt32) (w : Watch) : Call → Prop
  | .poll p => ∀ f, Overdue id w p f → 10 ≤ f.pps.toNat ∧
      ¬ (0 < f.tokenBucket.tokens.toNat + f.tokenBucket.earned (p.bucketNowNs id).toNat ∧
        2 ^ 64 ∣ f.tokenBucket.tokens.toNat + f.tokenBucket.earned (p.bucketNowNs id).toNat)
  | .control _ => True

end Watch

/-! ## What holds of the bucket -/

/-- The bucket is the one `add_flow` gives a flow of this rate, not overfull. -/
structure Provisioned (f : FlowConfigInternal) : Prop where
  rate : f.tokenBucket.ratePps = f.pps
  burst : f.tokenBucket.burstSize = if f.pps > 0 then f.pps / 10 else 1000
  tokens : f.tokenBucket.tokens.toNat ≤ f.tokenBucket.burstSize.toNat

variable {d : Dpdk} {f : FlowConfigInternal}

theorem provisioned_newFlow {srcMac : List UInt8} {config : FlowSettings} {nowNs : UInt64}
    (h : newFlow d srcMac config nowNs = some f) : Provisioned f := by
  have hbucket := tokenBucket_newFlow h
  refine ⟨?_, ?_, ?_⟩
  · rw [hbucket]; rfl
  · rw [hbucket]; rfl
  · rw [hbucket]; exact Nat.le_refl _

theorem Provisioned.visit (h : Provisioned f) (nowNs bucketNowNs : UInt64) :
    Provisioned (f.visit nowNs bucketNowNs).2 := by
  by_cases hdue : f.active = true ∧ f.isExpired nowNs = false
  · obtain ⟨hrate, hburst, -, hsum⟩ := tryConsume_spec f.tokenBucket 1 bucketNowNs
    have htokens := updateTokens_tokens_le f.tokenBucket bucketNowNs h.tokens
    rw [f.visit_of_due hdue.1 hdue.2]
    refine ⟨hrate.trans h.rate, hburst.trans h.burst, ?_⟩
    show (f.tokenBucket.tryConsume 1 bucketNowNs).2.tokens.toNat ≤
      (f.tokenBucket.tryConsume 1 bucketNowNs).2.burstSize.toNat
    rw [hburst]
    omega
  · rw [f.visit_of_not_due hdue]
    exact ⟨h.rate, h.burst, h.tokens⟩

theorem Provisioned.toNat_burst (h : Provisioned f) (hpps : 1 ≤ f.pps.toNat) :
    f.tokenBucket.burstSize.toNat = f.pps.toNat / 10 := by
  have hpos : f.pps > 0 := by
    rw [gt_iff_lt, UInt64.lt_iff_toNat_lt]
    exact hpps
  rw [h.burst, if_pos hpos, UInt64.toNat_div]
  rfl

/-- Flows of ten packets a second and more have a bucket for at least one token. -/
theorem Provisioned.burst_ne_zero_iff (h : Provisioned f) (hpps : 1 ≤ f.pps.toNat) :
    f.tokenBucket.burstSize ≠ 0 ↔ 10 ≤ f.pps.toNat := by
  rw [ne_eq, ← UInt64.toNat_inj, h.toNat_burst hpps, UInt64.toNat_zero]
  omega

/-- What starting the flow makes of it. -/
theorem getFlow_step_startFlow {s : FlowScheduler} {id : UInt32} {nowNs bucketNowNs : UInt64}
    {f' : FlowConfigInternal}
    (hf' : (s.step d (.startFlow id nowNs bucketNowNs)).getFlow id = some f') :
    ∃ f, s.getFlow id = some f ∧ f' = { f with
      startTimeNs := nowNs
      active := true
      tokenBucket := f.tokenBucket.reset bucketNowNs } := by
  have heffect := effect_step d s (.startFlow id nowNs bucketNowNs) id
  rw [hf'] at heffect
  generalize hout : some f' = out at heffect
  cases heffect with
  | keep _ hspares =>
    rw [hspares rfl] at hout
    cases hout
  | gone => cases hout
  | start _ _ f hf => exact ⟨f, hf, Option.some.inj hout⟩

/-- Any other control call leaves the flow alone, or leaves a flow that is not active. -/
theorem getFlow_step_of_ne {s : FlowScheduler} {id : UInt32} {op : Op}
    (hop : ∀ nowNs bucketNowNs, op ≠ .startFlow id nowNs bucketNowNs)
    (hprov : ∀ f, s.getFlow id = some f → Provisioned f) {f' : FlowConfigInternal}
    (hf' : (s.step d op).getFlow id = some f') :
    s.getFlow id = some f' ∨ Provisioned f' ∧ f'.active = false := by
  have heffect := effect_step d s op id
  rw [hf'] at heffect
  generalize hout : some f' = out at heffect
  cases heffect with
  | keep => exact .inl rfl
  | gone => cases hout
  | add config nowNs f _ _ hnew =>
    rw [Option.some.inj hout]
    exact .inr ⟨provisioned_newFlow hnew, active_newFlow hnew⟩
  | start nowNs bucketNowNs => exact absurd rfl (hop nowNs bucketNowNs)
  | stop f hf =>
    rw [Option.some.inj hout]
    have hf := hprov f hf
    exact .inr ⟨⟨hf.rate, hf.burst, hf.tokens⟩, rfl⟩

namespace Watch

/-- The bucket of the flow has not been refilled since the flow was started or last returned, and
    nothing was due at that time. -/
structure Tracked (id : UInt32) (w : Watch) : Prop where
  served_le : w.served ≤ w.clock
  provisioned : ∀ f, w.scheduler.getFlow id = some f → Provisioned f
  idle : ∀ f, w.scheduler.getFlow id = some f → f.active = true → 10 ≤ f.pps.toNat →
    f.tokenBucket.lastUpdateNs.toNat ≤ w.served.toNat ∧
      f.tokenBucket.refill w.served.toNat = 0

variable {id : UInt32} {w : Watch}

theorem tracked_new (srcMac : List UInt8) (id : UInt32) : (new srcMac).Tracked id := by
  have hnone : ∀ f, (new srcMac).scheduler.getFlow id ≠ some f := by
    intro f hf
    simp only [new, FlowScheduler.new, getFlow, AList.lookup_empty] at hf
    cases hf
  exact ⟨UInt64.le_refl 0, fun f hf => absurd hf (hnone f), fun f hf => absurd hf (hnone f)⟩

/-- The wait for a token, as a product. -/
theorem wait_le_iff {pps served t : Nat} (hpps : 1 ≤ pps) :
    served + nsPerSec ⌈/⌉ pps ≤ t ↔ served ≤ t ∧ nsPerSec ≤ pps * (t - served) := by
  have hns : 0 < nsPerSec := by decide
  rw [← ceilDiv_le_iff_le_mul hpps]
  omega

/-! ## One call -/

theorem step_control_of_ne {op : Op}
    (h : ∀ nowNs bucketNowNs, op ≠ .startFlow id nowNs bucketNowNs) :
    w.step d id (.control op) = { w with scheduler := w.scheduler.step d op } := by
  cases op with
  | startFlow id' nowNs bucketNowNs =>
    have hid : id' ≠ id := by
      rintro rfl
      exact h nowNs bucketNowNs rfl
    rw [step, if_neg hid]
    rfl
  | addFlow | removeFlow | clearAllFlows | stopFlow => rfl

/-- A control call on the flow gives it a fresh bucket, or leaves the bucket alone. -/
theorem Tracked.control (h : w.Tracked id) {op : Op} (hfair : Fair id w (.control op)) :
    (w.step d id (.control op)).Tracked id := by
  by_cases hstart : ∃ nowNs bucketNowNs, op = .startFlow id nowNs bucketNowNs
  · obtain ⟨nowNs, bucketNowNs, rfl⟩ := hstart
    have hstep : w.step d id (.control (.startFlow id nowNs bucketNowNs)) =
        { scheduler := w.scheduler.step d (.startFlow id nowNs bucketNowNs)
          served := bucketNowNs, clock := bucketNowNs } := by
      rw [step, if_pos rfl]
      rfl
    rw [hstep]
    constructor
    · exact UInt64.le_refl _
    · intro f' hf'
      obtain ⟨f, hf, rfl⟩ := getFlow_step_startFlow (d := d) hf'
      have hf := h.provisioned f hf
      exact ⟨hf.rate, hf.burst, Nat.le_refl _⟩
    · intro f' hf' _ _
      obtain ⟨f, hf, rfl⟩ := getFlow_step_startFlow (d := d) hf'
      refine ⟨Nat.le_refl _, ?_⟩
      have hzero : (f.tokenBucket.reset bucketNowNs).earned bucketNowNs.toNat = 0 :=
        earned_of_le (Nat.le_refl _)
      show (f.tokenBucket.reset bucketNowNs).earned bucketNowNs.toNat % 2 ^ 64 = 0
      rw [hzero, Nat.zero_mod]
  · push Not at hstart
    rw [step_control_of_ne hstart]
    constructor
    · exact h.served_le
    · intro f' hf'
      rcases getFlow_step_of_ne (d := d) hstart h.provisioned hf' with hf | ⟨hprov, -⟩
      · exact h.provisioned f' hf
      · exact hprov
    · -- a flow that is active afterwards was left alone
      intro f' hf' hactive hpps
      rcases getFlow_step_of_ne (d := d) hstart h.provisioned hf' with hf | ⟨-, hidle⟩
      · exact h.idle f' hf hactive hpps
      · rw [hidle] at hactive
        cases hactive

/-- A poll that asks for all flows returns a flow that may send when a token is there. -/
theorem mem_ready_iff {p : Poll} (hfair : Fair id w (.poll p))
    (hf : w.scheduler.getFlow id = some f) (hactive : f.active = true)
    (hexpired : f.isExpired p.nowNs = false) :
    id ∈ w.scheduler.ready p ↔
      (f.tokenBucket.updateTokens (p.bucketNowNs id)).tokens ≠ 0 := by
  rw [ready, (getReadyFlows_all p.order hfair.2 id).1, takes_iff, dry_iff hf]
  exact and_iff_right ⟨f, hf, hactive, hexpired⟩

/-- An overdue flow is returned when its bucket can hold a token and the refill does not wrap. -/
theorem Tracked.served_iff_provided (h : w.Tracked id) {c : Call} (hfair : Fair id w c) :
    Served id w c ↔ Provided id w c := by
  cases c with
  | control => exact Iff.rfl
  | poll p =>
    refine forall_congr' fun f => imp_congr_right fun hover => ?_
    obtain ⟨hf, hactive, hexpired, hpps, hwait⟩ := hover
    have hprov := h.provisioned f hf
    rw [mem_ready_iff hfair hf hactive hexpired, ne_eq,
      tokens_updateTokens_eq_zero_iff _ hprov.tokens, not_or, ← ne_eq,
      hprov.burst_ne_zero_iff hpps]
    refine and_congr_right fun hten => not_congr ?_
    -- by then a whole token has been earned
    have hearned : 0 < f.tokenBucket.earned (p.bucketNowNs id).toNat := by
      obtain ⟨hlast, -⟩ := h.idle f hf hactive hten
      rw [earned, hprov.rate, Nat.div_pos_iff]
      refine ⟨by decide, ?_⟩
      calc nsPerSec ≤ f.pps.toNat * ((p.bucketNowNs id).toNat - w.served.toNat) :=
            ((wait_le_iff hpps).mp hwait).2
        _ ≤ f.pps.toNat * ((p.bucketNowNs id).toNat - f.tokenBucket.lastUpdateNs.toNat) :=
            Nat.mul_le_mul_left _ (by omega)
        _ = _ := Nat.mul_comm _ _
    exact (and_iff_right (by omega)).symm

/-- A poll that finds no token is not overdue, and leaves the bucket alone. -/
theorem Tracked.updateTokens_eq (h : w.Tracked id) {p : Poll} (hfair : Fair id w (.poll p))
    (hserved : Served id w (.poll p)) (hf : w.scheduler.getFlow id = some f)
    (hactive : f.active = true) (hexpired : f.isExpired p.nowNs = false)
    (hten : 10 ≤ f.pps.toNat)
    (hempty : (f.tokenBucket.updateTokens (p.bucketNowNs id)).tokens = 0) :
    f.tokenBucket.updateTokens (p.bucketNowNs id) = f.tokenBucket := by
  have hprov := h.provisioned f hf
  have hready := mem_ready_iff hfair hf hactive hexpired
  have hnot : id ∉ w.scheduler.ready p := by rwa [hready, not_ne_iff]
  have hclock := UInt64.le_iff_toNat_le.mp hfair.1
  have hle := UInt64.le_iff_toNat_le.mp h.served_le
  have hpos : 1 ≤ f.pps.toNat := by omega
  -- an overdue flow would have been returned
  have hshort : f.pps.toNat * ((p.bucketNowNs id).toNat - w.served.toNat) < nsPerSec := by
    by_contra hlong
    exact hnot (hserved f ⟨hf, hactive, hexpired, hpos,
      (wait_le_iff hpos).mpr ⟨by omega, not_lt.mp hlong⟩⟩)
  have hrate : f.tokenBucket.ratePps ≠ 0 := by
    rw [hprov.rate, ne_eq, ← UInt64.toNat_inj, UInt64.toNat_zero]
    omega
  have hburst := (hprov.burst_ne_zero_iff hpos).mpr hten
  have hcap : f.tokenBucket.burstSize.toNat < 2 ^ 64 - 1 := by
    have hpps := f.pps.toNat_lt
    rw [hprov.toNat_burst hpos]
    omega
  obtain ⟨hlast, hidle⟩ := h.idle f hf hactive hten
  rw [← hprov.rate] at hshort
  exact updateTokens_of_short hrate hprov.tokens hburst hcap hlast hidle (by omega) hshort hempty

/-- A poll that returns the flow has just refilled its bucket, and one that does not, in time,
    leaves the bucket alone. -/
theorem Tracked.poll (h : w.Tracked id) {p : Poll} (hfair : Fair id w (.poll p))
    (hprovided : Provided id w (.poll p)) : (w.step d id (.poll p)).Tracked id := by
  have hserved := (h.served_iff_provided hfair).mpr hprovided
  have hafter : (w.scheduler.getReadyFlows p.maxFlows p.order p.nowNs p.bucketNowNs).2.getFlow id =
      (w.scheduler.getFlow id).map fun f => (f.visit p.nowNs (p.bucketNowNs id)).2 :=
    (getReadyFlows_all p.order hfair.2 id).2
  have hflow : ∀ f', (w.step d id (.poll p)).scheduler.getFlow id = some f' →
      ∃ f, w.scheduler.getFlow id = some f ∧ (f.visit p.nowNs (p.bucketNowNs id)).2 = f' := by
    intro f' hf'
    exact Option.map_eq_some_iff.mp (hafter.symm.trans hf')
  constructor
  · show (if _ then _ else _) ≤ p.bucketNowNs id
    split
    · exact UInt64.le_refl _
    · exact UInt64.le_trans h.served_le hfair.1
  · intro f' hf'
    obtain ⟨f, hf, rfl⟩ := hflow f' hf'
    exact (h.provisioned f hf).visit _ _
  · intro f' hf' hactive' hten
    obtain ⟨f, hf, rfl⟩ := hflow f' hf'
    by_cases hdue : f.active = true ∧ f.isExpired p.nowNs = false
    · obtain ⟨hactive, hexpired⟩ := hdue
      have hpps : (f.visit p.nowNs (p.bucketNowNs id)).2.pps = f.pps := by
        rw [f.visit_of_due hactive hexpired]
      rw [hpps] at hten
      obtain ⟨hlast, hidle⟩ := h.idle f hf hactive hten
      have hready := mem_ready_iff hfair hf hactive hexpired
      rw [f.visit_due _ _ hactive hexpired]
      by_cases hempty : (f.tokenBucket.updateTokens (p.bucketNowNs id)).tokens = 0
      · have hsame : (w.step d id (.poll p)).served = w.served :=
          if_neg (by rwa [hready, not_ne_iff])
        rw [if_pos hempty, hsame,
          h.updateTokens_eq hfair hserved hf hactive hexpired hten hempty]
        exact ⟨hlast, hidle⟩
      · have hsame : (w.step d id (.poll p)).served = p.bucketNowNs id :=
          if_pos (hready.mpr hempty)
        have hclock := UInt64.le_iff_toNat_le.mp hfair.1
        have hle := UInt64.le_iff_toNat_le.mp h.served_le
        rw [if_neg hempty, hsame]
        exact ⟨lastUpdateNs_updateTokens_le (by omega) (Nat.le_refl _),
          refill_updateTokens_self _ _⟩
    · -- not active afterwards
      rw [f.visit_of_not_due hdue] at hactive'
      cases hactive'

/-- **Every positive rate.** Throughout a history of calls on a new scheduler, whose clock does not
    run backwards and whose polls ask for as many flows as there are, a flow of a positive rate is
    returned by every poll that finds it active, unexpired, and at least `⌈10^9 / pps⌉` ns after
    its start and its last appearance, if and only if at every such poll its rate is at least ten
    and its refill does not wrap to zero. -/
theorem each_served_iff (d : Dpdk) (srcMac : List UInt8) (id : UInt32) (calls : List Call)
    (hfair : Run.Each (step d id) (Fair id) (new srcMac) calls) :
    Run.Each (step d id) (Served id) (new srcMac) calls ↔
      Run.Each (step d id) (Provided id) (new srcMac) calls := by
  refine Run.each_iff_each (P := Tracked id) (fun w c h hfair => ?_)
    (fun w c h hfair hprovided => ?_) (tracked_new srcMac id) hfair
  · exact h.served_iff_provided hfair
  · cases c with
    | control op => exact h.control hfair
    | poll p => exact h.poll hfair hprovided

/-! ## Fixed inputs -/

/-- A flow of `pps` packets a second is added, started at time 1, and polled at time 2 and a
    second later. -/
def sampleCalls (pps : UInt64) : List Call :=
  [.control (.addFlow { FlowSettings.sample 1 1000 true with pps := pps } 0),
    .control (.startFlow 1 1 1), .poll ⟨1, [], 2, fun _ => 2⟩,
    .poll ⟨1, [], 1000000002, fun _ => 1000000002⟩]

theorem each_served_iff_ten :
    Run.Each (step .reference 1) (Served 1) (new []) (sampleCalls 10) ↔
      Run.Each (step .reference 1) (Provided 1) (new []) (sampleCalls 10) := by
  exact each_served_iff .reference [] 1 (sampleCalls 10) ⟨trivial, fun _ => by decide,
    ⟨by decide, by decide +kernel⟩, ⟨by decide, by decide +kernel⟩, trivial⟩

/-- A flow of five packets a second is active a second after its start, and the poll does not
    return it. -/
theorem not_each_served_five :
    Run.Each (step .reference 1) (Fair 1) (new []) (sampleCalls 5) ∧
      ¬ Run.Each (step .reference 1) (Served 1) (new []) (sampleCalls 5) := by
  refine ⟨⟨trivial, fun _ => by decide, ⟨by decide, by decide +kernel⟩,
    ⟨by decide, by decide +kernel⟩, trivial⟩, ?_⟩
  rintro ⟨-, -, -, hserved, -⟩
  generalize hw : step .reference 1 _ _ = w at hserved
  -- the flow is there, may send, and has waited long enough
  have hwaiting : w.scheduler.getFlow 1 |>.any fun f =>
      f.active && !f.isExpired 1000000002 && f.pps == 5 := by
    rw [← hw]
    decide +kernel
  have hstart : w.served = 1 := by
    rw [← hw]
    decide +kernel
  have hnone : w.scheduler.ready ⟨1, [], 1000000002, fun _ => 1000000002⟩ = [] := by
    rw [← hw]
    decide +kernel
  obtain ⟨f, hf, hdue⟩ := (Option.any_eq_true _ _).mp hwaiting
  simp only [Bool.and_eq_true, Bool.not_eq_true', beq_iff_eq] at hdue
  obtain ⟨⟨hactive, hexpired⟩, hpps⟩ := hdue
  have hready := hserved f ⟨hf, hactive, hexpired, by rw [hpps]; decide, by
    rw [hpps, hstart, wait_le_iff (by decide)]; decide⟩
  rw [hnone] at hready
  cases hready

end Watch

end FlowScheduler

end TrafficGen
