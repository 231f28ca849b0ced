import TrafficGen.Core.TokenBucketAccess
import TrafficGen.Spec.TokenBucketRate

/-!
# Token buckets under interleaving

What a bucket has granted and what it holds never exceed what it started with and what refills
have added, as long as no exchange takes tokens between the load and the store of a refill: the
store would put them back. A call that nobody interrupts is the call of the sequential model.

## Key results

- `run_uninterrupted`: the steps of one call, without others in between, are `tryConsume`
- `conserved_of_undisturbed`: no token is granted twice while refills are undisturbed
- `not_conserved_disturbed`: an exchange inside a refill
-/

namespace TrafficGen.TokenBucket

/-- The caller is between the lock and the unlock of the mutex. -/
def Pc.inMutex : Pc → Bool
  | .locked .. | .refilling .. => true
  | _ => false

namespace Shared

variable {ι : Type*} [DecidableEq ι] {s : Shared ι} {c : ι}

@[simp] theorem bucket_goto (pc : Pc) : (s.goto c pc).bucket = s.bucket := rfl

@[simp] theorem holder_goto (pc : Pc) : (s.goto c pc).holder = s.holder := rfl

@[simp] theorem granted_goto (pc : Pc) : (s.goto c pc).granted = s.granted := rfl

@[simp] theorem added_goto (pc : Pc) : (s.goto c pc).added = s.added := rfl

@[simp] theorem pc_goto_self (pc : Pc) : (s.goto c pc).pc c = pc := Function.update_self _ _ _

theorem pc_goto_ne (pc : Pc) {c' : ι} (h : c' ≠ c) : (s.goto c pc).pc c' = s.pc c' :=
  Function.update_of_ne h _ _

/-! ## One call -/

/-- `update_tokens` without a refill is over with its first step, and with one it goes on with
    what is to be added. -/
theorem lockRefill_cases (s : Shared ι) (c : ι) (requested : UInt32) (nowNs : UInt64) :
    (∃ last, s.bucket.updateTokens nowNs = { s.bucket with lastUpdateNs := last } ∧
      s.lockRefill c requested nowNs =
        { s with bucket := s.bucket.updateTokens nowNs }.goto c (.updated requested)) ∨
    ∃ add, s.bucket.updateTokens nowNs = { s.bucket with
        tokens := min (s.bucket.tokens + add) s.bucket.burstSize, lastUpdateNs := nowNs } ∧
      s.lockRefill c requested nowNs =
        { s with holder := some c }.goto c (.locked requested nowNs add) := by
  by_cases hlate : nowNs ≤ s.bucket.lastUpdateNs
  · refine .inl ⟨s.bucket.lastUpdateNs, ?_⟩
    simp only [updateTokens, lockRefill, if_pos hlate, and_self]
  · by_cases hrate : s.bucket.ratePps = 0
    · refine .inl ⟨nowNs, ?_⟩
      simp only [updateTokens, lockRefill, if_neg hlate, if_pos hrate, and_self]
    · by_cases hadd : 0 < tokensToAdd (nowNs - s.bucket.lastUpdateNs) s.bucket.ratePps
      · refine .inr ⟨tokensToAdd (nowNs - s.bucket.lastUpdateNs) s.bucket.ratePps, ?_⟩
        simp only [updateTokens, lockRefill, if_neg hlate, if_neg hrate, if_pos hadd, and_self]
      · refine .inl ⟨s.bucket.lastUpdateNs, ?_⟩
        simp only [updateTokens, lockRefill, if_neg hlate, if_neg hrate, if_neg hadd, and_self]

/-- The steps of one call; those a branch leaves out change nothing. -/
def callSteps (c : ι) (requested : UInt32) (nowNs : UInt64) : List (ι × Access) :=
  [(c, .call requested), (c, .lock nowNs), (c, .refillLoad), (c, .refillStore), (c, .load),
    (c, .exchange false)]

/-- The first four steps are `update_tokens`. -/
theorem run_refill (hpc : s.pc c = .idle) (hfree : s.holder = none) (requested : UInt32)
    (nowNs : UInt64) :
    ∃ t, Run.run step s ((callSteps c requested nowNs).take 4) = t ∧
      t.bucket = s.bucket.updateTokens nowNs ∧ t.pc c = .updated requested ∧ t.holder = none ∧
      t.granted = s.granted := by
  have hcall : s.step (c, .call requested) = s.goto c (.called requested) := by
    simp only [step, access, hpc, Option.getD_some]
  have hlock : (s.goto c (.called requested)).step (c, .lock nowNs) =
      (s.goto c (.called requested)).lockRefill c requested nowNs := by
    simp only [step, access, pc_goto_self, holder_goto, hfree, Option.isNone_none, if_true,
      Option.getD_some]
  have hrun : Run.run step s ((callSteps c requested nowNs).take 4) =
      ((((s.step (c, .call requested)).step (c, .lock nowNs)).step (c, .refillLoad)).step
        (c, .refillStore)) := rfl
  refine ⟨_, hrun, ?_⟩
  rw [hcall, hlock]
  rcases lockRefill_cases (s.goto c (.called requested)) c requested nowNs with
    ⟨last, -, heq⟩ | ⟨add, hrefill, heq⟩
  · -- without a refill the last two steps wait
    rw [heq]
    simp only [step, access, pc_goto_self, Option.getD_none, bucket_goto, holder_goto,
      granted_goto, hfree, and_self]
  · rw [heq]
    rw [bucket_goto] at hrefill
    simp only [step, access, pc_goto_self, Option.getD_some, storeRefill, bucket_goto,
      holder_goto, granted_goto, hrefill, and_self]

/-- **One call.** A call nobody interrupts is the call of the sequential model: it leaves the
    same bucket and is granted the same number of tokens. -/
theorem run_uninterrupted (hpc : s.pc c = .idle) (hfree : s.holder = none) (requested : UInt32)
    (nowNs : UInt64) :
    ∃ t, Run.run step s (callSteps c requested nowNs) = t ∧
      t.bucket = (s.bucket.tryConsume requested nowNs).2 ∧
      t.granted = s.granted + (s.bucket.tryConsume requested nowNs).1.toNat ∧
      t.pc c = .idle ∧ t.holder = none := by
  obtain ⟨t, ht, hbucket, hat, hheld, hgranted⟩ := run_refill hpc hfree requested nowNs
  have hload : t.step (c, .load) = t.expect c requested := by
    simp only [step, access, hat, Option.getD_some]
  have hrun : Run.run step s (callSteps c requested nowNs) =
      (t.expect c requested).step (c, .exchange false) := by
    rw [← hload, ← ht]
    rfl
  refine ⟨_, hrun, ?_⟩
  simp only [expect, tryConsume, ← hbucket]
  split
  · -- nothing to grant: the call has returned
    simp only [step, access, pc_goto_self, Option.getD_none, bucket_goto, granted_goto,
      holder_goto, hgranted, hheld, UInt32.toNat_zero, Nat.add_zero, and_self]
  · simp only [step, access, pc_goto_self, bucket_goto, and_self, if_true, Option.getD_some,
      grant, granted_goto, holder_goto, hgranted, hheld]

/-! ## What one step does -/

/-- A step waits; moves a caller outside the mutex, perhaps setting the time; takes the mutex for
    a refill; loads `tokens_` for it; stores it; or grants tokens. -/
theorem step_cases (s : Shared ι) (c : ι) (a : Access) :
    s.step (c, a) = s ∨
    (∃ last pc, (s.pc c).inMutex = false ∧ pc.inMutex = false ∧
      s.step (c, a) = { s with bucket := { s.bucket with lastUpdateNs := last } }.goto c pc) ∨
    (∃ requested nowNs add, s.holder = none ∧
      s.step (c, a) = { s with holder := some c }.goto c (.locked requested nowNs add)) ∨
    (∃ requested nowNs add, s.pc c = .locked requested nowNs add ∧
      s.step (c, a) = s.goto c (.refilling requested nowNs add s.bucket.tokens)) ∨
    (∃ requested nowNs add current, s.pc c = .refilling requested nowNs add current ∧
      s.step (c, a) = s.storeRefill c requested nowNs add current) ∨
    ∃ requested, a = .exchange false ∧ s.pc c = .exchanging requested s.bucket.tokens ∧
      s.step (c, a) = s.grant c requested := by
  -- before the exchange the caller returns or goes on with what it loaded
  have hexpect : ∀ requested, ∃ pc, pc.inMutex = false ∧ s.expect c requested = s.goto c pc := by
    intro requested
    refine ⟨_, ?_, rfl⟩
    split
    · rfl
    · rfl
  cases a with
  | call requested =>
    cases hpc : s.pc c with
    | idle =>
      right; left
      exact ⟨s.bucket.lastUpdateNs, .called requested, rfl, rfl, by
        simp only [step, access, hpc, Option.getD_some]⟩
    | _ => simp only [step, access, hpc, Option.getD_none, true_or]
  | lock nowNs =>
    cases hpc : s.pc c with
    | called requested =>
      cases hheld : s.holder with
      | none =>
        have hstep : s.step (c, .lock nowNs) = s.lockRefill c requested nowNs := by
          simp only [step, access, hpc, hheld, Option.isNone_none, if_true, Option.getD_some]
        rw [hstep]
        rcases s.lockRefill_cases c requested nowNs with ⟨last, hlast, heq⟩ | ⟨add, -, heq⟩
        · right; left
          exact ⟨last, .updated requested, rfl, rfl, by rw [heq, hlast, hheld]⟩
        · right; right; left
          exact ⟨requested, nowNs, add, rfl, heq⟩
      | some holder =>
        -- the mutex is taken
        simp only [step, access, hpc, hheld, Option.isNone_some, Bool.false_eq_true, if_false,
          Option.getD_none, true_or]
    | _ => simp only [step, access, hpc, Option.getD_none, true_or]
  | refillLoad =>
    cases hpc : s.pc c with
    | locked requested nowNs add =>
      right; right; right; left
      exact ⟨requested, nowNs, add, rfl, by simp only [step, access, hpc, Option.getD_some]⟩
    | _ => simp only [step, access, hpc, Option.getD_none, true_or]
  | refillStore =>
    cases hpc : s.pc c with
    | refilling requested nowNs add current =>
      right; right; right; right; left
      exact ⟨requested, nowNs, add, current, rfl, by
        simp only [step, access, hpc, Option.getD_some]⟩
    | _ => simp only [step, access, hpc, Option.getD_none, true_or]
  | load =>
    cases hpc : s.pc c with
    | updated requested =>
      right; left
      obtain ⟨pc, hout, heq⟩ := hexpect requested
      exact ⟨s.bucket.lastUpdateNs, pc, rfl, hout, by
        simp only [step, access, hpc, Option.getD_some, heq]⟩
    | _ => simp only [step, access, hpc, Option.getD_none, true_or]
  | exchange spurious =>
    cases hpc : s.pc c with
    | exchanging requested expected =>
      by_cases hmeets : s.bucket.tokens = expected ∧ spurious = false
      · right; right; right; right; right
        obtain ⟨rfl, rfl⟩ := hmeets
        exact ⟨requested, rfl, rfl, by
          simp only [step, access, hpc, and_self, if_true, Option.getD_some]⟩
      · right; left
        obtain ⟨pc, hout, heq⟩ := hexpect requested
        exact ⟨s.bucket.lastUpdateNs, pc, rfl, hout, by
          simp only [step, access, hpc, if_neg hmeets, Option.getD_some, heq]⟩
    | _ => simp only [step, access, hpc, Option.getD_none, true_or]

/-! ## The ledger -/

/-- What was granted and what is left is no more than what there was and what was added. -/
def Conserved (b : TokenBucket) (s : Shared ι) : Prop :=
  s.granted + s.bucket.tokens.toNat ≤ b.tokens.toNat + s.added

instance (b : TokenBucket) (s : Shared ι) : Decidable (Conserved b s) :=
  inferInstanceAs (Decidable (_ ≤ _))

/-- The tokens a step takes out of the bucket. -/
def takes (s : Shared ι) (x : ι × Access) : Nat :=
  match x.2, s.pc x.1 with
  | .exchange false, .exchanging requested expected =>
    if s.bucket.tokens = expected then (min requested.toUInt64 expected).toNat else 0
  | _, _ => 0

/-- The holder of the mutex has loaded `tokens_` for a refill and not stored it yet. -/
def midRefill (s : Shared ι) : Bool :=
  match s.holder.map s.pc with
  | some (.refilling ..) => true
  | _ => false

/-- The step takes no tokens from under a refill. -/
def Undisturbed (s : Shared ι) (x : ι × Access) : Prop :=
  s.midRefill = true → s.takes x = 0

instance (s : Shared ι) (x : ι × Access) : Decidable (Undisturbed s x) :=
  inferInstanceAs (Decidable (s.midRefill = true → s.takes x = 0))

/-- What undisturbed steps keep: the mutex excludes, a refill has loaded the tokens there are, and
    the ledger is met. -/
structure Invariant (b : TokenBucket) (s : Shared ι) : Prop where
  excludes : ∀ c, (s.pc c).inMutex = true → s.holder = some c
  current : ∀ c requested nowNs add current, s.pc c = .refilling requested nowNs add current →
    current = s.bucket.tokens
  conserved : Conserved b s

omit [DecidableEq ι] in
/-- A caller in a refill makes the bucket one that is being refilled. -/
theorem Invariant.midRefill_of_refilling {b : TokenBucket} (h : Invariant b s)
    {requested : UInt32} {nowNs add current : UInt64}
    (hpc : s.pc c = .refilling requested nowNs add current) : s.midRefill = true := by
  have hholder := h.excludes c (by rw [hpc]; rfl)
  simp only [midRefill, hholder, Option.map_some, hpc]

omit [DecidableEq ι] in
theorem invariant_start (b : TokenBucket) : Invariant b (start ι b) where
  excludes := fun _ h => absurd h Bool.false_ne_true
  current := by
    intro c requested nowNs add current h
    cases h
  conserved := Nat.le_of_eq (Nat.zero_add _)

/-- A caller goes on: what is to show about it, and that the others are where they were. -/
theorem invariant_goto {b : TokenBucket} {pc : Pc} (hconserved : Conserved b s)
    (hself : pc.inMutex = true → s.holder = some c)
    (hcurrent : ∀ requested nowNs add current, pc = .refilling requested nowNs add current →
      current = s.bucket.tokens)
    (hothers : ∀ c' ≠ c, (s.pc c').inMutex = true → s.holder = some c' ∧
      ∀ requested nowNs add current, s.pc c' = .refilling requested nowNs add current →
        current = s.bucket.tokens) :
    Invariant b (s.goto c pc) where
  excludes := by
    intro c' hin
    by_cases hc : c' = c
    · rw [hc, pc_goto_self] at hin
      rw [hc]
      exact hself hin
    · rw [pc_goto_ne _ hc] at hin
      exact (hothers c' hc hin).1
  current := by
    intro c' requested nowNs add current hr
    by_cases hc : c' = c
    · rw [hc, pc_goto_self] at hr
      exact hcurrent _ _ _ _ hr
    · rw [pc_goto_ne _ hc] at hr
      exact (hothers c' hc (by rw [hr]; rfl)).2 _ _ _ _ hr
  conserved := hconserved

/-- A step that takes no tokens from under a refill keeps the invariant. -/
theorem Invariant.step {b : TokenBucket} (h : Invariant b s) (x : ι × Access)
    (hx : Undisturbed s x) : Invariant b (s.step x) := by
  obtain ⟨c, a⟩ := x
  rcases s.step_cases c a with heq | ⟨last, pc, hout, hpc, heq⟩ |
    ⟨requested, nowNs, add, hfree, heq⟩ | ⟨requested, nowNs, add, hat, heq⟩ |
    ⟨requested, nowNs, add, current, hat, heq⟩ | ⟨requested, rfl, hat, heq⟩
  · rw [heq]
    exact h
  · -- the caller stays outside the mutex
    rw [heq]
    refine invariant_goto h.conserved (fun hin => ?_) (fun _ _ _ _ hr => ?_) fun c' _ hin =>
      ⟨h.excludes c' hin, h.current c'⟩
    · rw [hpc] at hin
      cases hin
    · rw [hr] at hpc
      cases hpc
  · -- nobody else is inside a free mutex
    rw [heq]
    refine invariant_goto h.conserved (fun _ => rfl) (fun _ _ _ _ hr => by cases hr) ?_
    intro c' _ hin
    have hheld := h.excludes c' hin
    rw [hfree] at hheld
    cases hheld
  · -- the refill loads the tokens there are
    have hheld := h.excludes c (by rw [hat]; rfl)
    rw [heq]
    refine invariant_goto h.conserved (fun _ => hheld) (fun _ _ _ _ hr => ?_) fun c' _ hin =>
      ⟨h.excludes c' hin, h.current c'⟩
    injection hr with _ _ _ hcurrent
    exact hcurrent.symm
  · -- the store adds to the tokens there are
    have hheld := h.excludes c (by rw [hat]; rfl)
    have hcurrent := h.current c _ _ _ _ hat
    have hledger := h.conserved
    rw [heq]
    refine invariant_goto ?_ (fun hin => by cases hin) (fun _ _ _ _ hr => by cases hr) ?_
    · simp only [Conserved, hcurrent] at hledger ⊢
      omega
    · intro c' hne hin
      have hother := h.excludes c' hin
      exact absurd (Option.some.inj (hother.symm.trans hheld)) hne
  · -- what is granted leaves the bucket; if it is anything, no refill is going on
    have hsum := toNat_consumed requested s.bucket.tokens
    have hledger := h.conserved
    rw [heq]
    refine invariant_goto ?_ (fun hin => by cases hin) (fun _ _ _ _ hr => by cases hr) ?_
    · simp only [Conserved] at hledger ⊢
      omega
    · refine fun c' _ hin => ⟨h.excludes c' hin, fun _ _ _ current hr => ?_⟩
      have hnone := hx (h.midRefill_of_refilling hr)
      simp only [takes, hat, if_true] at hnone
      have hzero : min requested.toUInt64 s.bucket.tokens = 0 := by
        apply UInt64.toNat_inj.mp
        rw [hnone, UInt64.toNat_zero]
      simp only [hzero, UInt64.sub_zero]
      exact h.current c' _ _ _ _ hr

/-- **Conservation.** In every run of any number of callers in which no step takes tokens between
    the load and the store of a refill, every state reached is conserved: what was granted, with
    what the bucket holds, is at most what it held at the start with what refills have added. -/
theorem conserved_of_undisturbed (b : TokenBucket) (ops : List (ι × Access))
    (h : Run.Each step Undisturbed (start ι b) ops) :
    Run.Always step (Conserved b) (start ι b) ops :=
  (Run.always_of_each (fun _ x hs hx => hs.step x hx) (invariant_start b) h).imp
    fun _ hs => hs.conserved

/-- Two callers, the second taking its tokens once the first has refilled. -/
theorem conserved_of_undisturbed_twoCallers :
    Run.Always step (Conserved (new 10 10 0)) (start Nat (new 10 10 0))
      (callSteps 0 4 100000000 ++ callSteps 1 10 200000000) :=
  conserved_of_undisturbed (new 10 10 0) _ (by decide)

/-- The second caller is about to exchange when the first loads the ten tokens for its refill. -/
def disturbed : List (Nat × Access) :=
  [(1, .call 10), (1, .lock 0), (1, .load), (0, .call 1), (0, .lock 100000000), (0, .refillLoad),
    (1, .exchange false), (0, .refillStore)]

/-- All ten tokens are granted, and the store of the refill puts ten back. -/
theorem not_conserved_disturbed :
    (Run.run step (start Nat (new 10 10 0)) disturbed).granted = 10 ∧
      (Run.run step (start Nat (new 10 10 0)) disturbed).bucket.tokens = 10 ∧
      (Run.run step (start Nat (new 10 10 0)) disturbed).added = 0 ∧
      ¬ Conserved (new 10 10 0) (Run.run step (start Nat (new 10 10 0)) disturbed) := by
  decide

end Shared

end TrafficGen.TokenBucket
