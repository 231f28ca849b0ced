import Mathlib.Algebra.BigOperators.Ring.List
import TrafficGen.ForStd.Floors
import TrafficGen.Spec.TokenBucketRate

/-!
# What a refill adds

A refill adds what was earned since the last one, in 64-bit arithmetic: the sum of the
tokens and what was earned is taken modulo `2 ^ 64` before the cap is applied. Each refill
also throws away the fraction of a token earned beyond the last whole one, because
`last_update_ns_` moves to the time of the call. A call that adds nothing leaves the time
where it was.

## Key results

- `tokens_updateTokens`: the tokens after a refill, in unbounded arithmetic
- `exactRefill_iff`: a refill is exact as long as the sum does not wrap below the cap
- `scheduleFree_iff`: the polls do not matter as long as less than a token is thrown away
-/

namespace TrafficGen.TokenBucket

variable {b : TokenBucket} {nowNs : UInt64}

/-! ## One refill -/

theorem earned_of_le (h : nowNs.toNat ≤ b.lastUpdateNs.toNat) : b.earned nowNs.toNat = 0 := by
  rw [earned, Nat.sub_eq_zero_of_le h, Nat.zero_mul, Nat.zero_div]

theorem earned_of_rate_zero (h : b.ratePps = 0) : b.earned nowNs.toNat = 0 := by
  rw [earned, h, UInt64.toNat_zero, Nat.mul_zero, Nat.zero_div]

/-- A refill that is due is added under the cap, and the time moves. -/
theorem updateTokens_of_refill (h : 0 < b.refill nowNs.toNat) :
    b.updateTokens nowNs = { b with
      tokens := min (b.tokens + UInt64.ofNat (b.refill nowNs.toNat)) b.burstSize
      lastUpdateNs := nowNs } := by
  -- none of the early returns is taken
  have hlate : ¬ nowNs ≤ b.lastUpdateNs := by
    intro hle
    rw [refill, earned_of_le (UInt64.le_iff_toNat_le.mp hle)] at h
    omega
  have hrate : b.ratePps ≠ 0 := by
    intro hzero
    rw [refill, earned_of_rate_zero hzero] at h
    omega
  have hle : b.lastUpdateNs ≤ nowNs := by
    rw [UInt64.le_iff_toNat_le] at hlate ⊢
    omega
  have hadd := toNat_tokensToAdd_eq_refill b hle
  have hpos : 0 < tokensToAdd (nowNs - b.lastUpdateNs) b.ratePps := by
    rw [UInt64.lt_iff_toNat_lt, hadd, UInt64.toNat_zero]
    exact h
  rw [← hadd, UInt64.ofNat_toNat]
  simp only [updateTokens, if_neg hlate, if_neg hrate, if_pos hpos]

/-- A call that finds nothing to add leaves the tokens alone, and the time too unless the
    bucket has no rate. -/
theorem updateTokens_of_idle (h : b.refill nowNs.toNat = 0) :
    b.updateTokens nowNs = b ∨
      b.ratePps = 0 ∧ b.updateTokens nowNs = { b with lastUpdateNs := nowNs } := by
  by_cases hlate : nowNs ≤ b.lastUpdateNs
  · -- no time has passed
    exact .inl (by rw [updateTokens, if_pos hlate])
  · by_cases hrate : b.ratePps = 0
    · exact .inr ⟨hrate, by rw [updateTokens, if_neg hlate, if_pos hrate]⟩
    · have hle : b.lastUpdateNs ≤ nowNs := by
        rw [UInt64.le_iff_toNat_le] at hlate ⊢
        omega
      have hzero : ¬ 0 < tokensToAdd (nowNs - b.lastUpdateNs) b.ratePps := by
        rw [UInt64.lt_iff_toNat_lt, toNat_tokensToAdd_eq_refill b hle, h]
        simp
      exact .inl (by simp only [updateTokens, if_neg hlate, if_neg hrate, if_neg hzero])

/-- The tokens after a call: the sum wraps, and then the cap is applied. -/
theorem tokens_updateTokens (nowNs : UInt64) (h : b.tokens.toNat ≤ b.burstSize.toNat) :
    (b.updateTokens nowNs).tokens.toNat =
      min ((b.tokens.toNat + b.earned nowNs.toNat) % 2 ^ 64) b.burstSize.toNat := by
  have hlt := b.tokens.toNat_lt
  rcases Nat.eq_zero_or_pos (b.refill nowNs.toNat) with hidle | hdue
  · -- nothing was earned, or a multiple of `2 ^ 64`
    have hsame : (b.updateTokens nowNs).tokens = b.tokens := by
      rcases updateTokens_of_idle hidle with heq | ⟨-, heq⟩
      · rw [heq]
      · rw [heq]
    rw [refill] at hidle
    rw [hsame]
    omega
  · -- the sum is taken in 64 bits, and then capped
    rw [updateTokens_of_refill hdue]
    have hrefill : b.refill nowNs.toNat % 2 ^ 64 = b.earned nowNs.toNat % 2 ^ 64 := by
      rw [refill, Nat.mod_mod]
    simp only [UInt64.toNat_min, UInt64.toNat_add, UInt64.toNat_ofNat']
    omega

/-- No token is left after a refill when the bucket holds none at all, or the sum wraps to zero. -/
theorem tokens_updateTokens_eq_zero_iff (nowNs : UInt64)
    (h : b.tokens.toNat ≤ b.burstSize.toNat) :
    (b.updateTokens nowNs).tokens = 0 ↔
      b.burstSize = 0 ∨ 2 ^ 64 ∣ b.tokens.toNat + b.earned nowNs.toNat := by
  rw [← UInt64.toNat_inj, ← UInt64.toNat_inj, tokens_updateTokens nowNs h, UInt64.toNat_zero,
    Nat.dvd_iff_mod_eq_zero]
  omega

/-- Right after a call nothing more is due. -/
theorem refill_updateTokens_self (b : TokenBucket) (nowNs : UInt64) :
    (b.updateTokens nowNs).refill nowNs.toNat = 0 := by
  rcases updateTokens_cases b nowNs with ⟨heq, hle | hzero⟩ | ⟨-, -, hlast, -⟩
  · rw [heq, refill, earned_of_le hle, Nat.zero_mod]
  · rw [heq, hzero]
  · -- the time has moved to the call
    rw [refill, earned_of_le (by rw [hlast]), Nat.zero_mod]

theorem lastUpdateNs_updateTokens_le {t : Nat} (hlast : b.lastUpdateNs.toNat ≤ t)
    (hnow : nowNs.toNat ≤ t) : (b.updateTokens nowNs).lastUpdateNs.toNat ≤ t := by
  rcases updateTokens_cases b nowNs with ⟨heq, -⟩ | ⟨-, -, heq, -⟩
  · rwa [heq]
  · rwa [heq]

/-! ## Exactness -/

/-- `update_tokens` does at `nowNs` what unbounded arithmetic would: whole tokens earned are
    added up to the cap, no token is lost, and no earlier call would have left more. -/
structure ExactRefill (b : TokenBucket) (nowNs : UInt64) : Prop where
  exact : 0 < b.earned nowNs.toNat → (b.updateTokens nowNs).tokens.toNat =
    min (b.tokens.toNat + b.earned nowNs.toNat) b.burstSize.toNat
  keeps : b.tokens ≤ (b.updateTokens nowNs).tokens
  grows : ∀ s ≤ nowNs, (b.updateTokens s).tokens ≤ (b.updateTokens nowNs).tokens

theorem earned_mono {s t : Nat} (h : s ≤ t) : b.earned s ≤ b.earned t :=
  Nat.div_le_div_right (Nat.mul_le_mul_right _ (Nat.sub_le_sub_right h _))

/-- **Exact refills.** For every rate, burst, number of tokens up to the burst, and time, a
    refill is exact if and only if the tokens with what was earned stay below `2 ^ 64`, or wrap
    to no less than the burst. -/
theorem exactRefill_iff (htok : b.tokens ≤ b.burstSize) (nowNs : UInt64) :
    ExactRefill b nowNs ↔
      b.tokens.toNat + b.earned nowNs.toNat < 2 ^ 64 ∨
        b.burstSize.toNat ≤ (b.tokens.toNat + b.earned nowNs.toNat) % 2 ^ 64 := by
  have hcap := UInt64.le_iff_toNat_le.mp htok
  have htokens := fun t => tokens_updateTokens t hcap
  have hburst := b.burstSize.toNat_lt
  have hlt := b.tokens.toNat_lt
  constructor
  · -- a sum that wraps below the cap is no longer the unbounded one
    intro h
    have hexact := h.exact
    rw [htokens] at hexact
    omega
  · intro h
    refine ⟨fun _ => ?_, ?_, fun s hs => ?_⟩
    · rw [htokens]
      omega
    · rw [UInt64.le_iff_toNat_le, htokens]
      omega
    · -- an earlier call has earned less, or the later one has reached the cap
      have hmono := b.earned_mono (UInt64.le_iff_toNat_le.mp hs)
      rw [UInt64.le_iff_toNat_le, htokens, htokens]
      omega

/-- A bucket of ten packets a second, a tenth of a second after its only token was taken. -/
theorem exactRefill_iff_10 : ExactRefill ⟨10, 1, 0, 0⟩ 100000000 ↔
    (⟨10, 1, 0, 0⟩ : TokenBucket).tokens.toNat +
        (⟨10, 1, 0, 0⟩ : TokenBucket).earned (100000000 : UInt64).toNat < 2 ^ 64 ∨
      (⟨10, 1, 0, 0⟩ : TokenBucket).burstSize.toNat ≤
        ((⟨10, 1, 0, 0⟩ : TokenBucket).tokens.toNat +
          (⟨10, 1, 0, 0⟩ : TokenBucket).earned (100000000 : UInt64).toNat) % 2 ^ 64 :=
  exactRefill_iff (by decide) 100000000

/-- The bucket of a flow of `2 ^ 64 - 1` packets a second, with one token taken. -/
def fastest : TokenBucket :=
  ((new 18446744073709551615 1844674407370955161 1).tryConsume 1 1).2

/-- Nine tenths of a second later the sum wraps, and nearly all its tokens are gone. -/
theorem not_exactRefill_fastest :
    (fastest.updateTokens 900000002).tokens < fastest.tokens ∧
      ¬ ExactRefill fastest 900000002 := by
  have hlost : (fastest.updateTokens 900000002).tokens < fastest.tokens := by decide
  exact ⟨hlost, fun h => absurd h.keeps (UInt64.not_le.mpr hlost)⟩

/-! ## Refills over a run of calls -/

/-- The tokens that the refills of the calls add. -/
def added (b : TokenBucket) : List (UInt32 × UInt64) → Nat
  | [] => 0
  | (requested, nowNs) :: calls =>
    ((b.updateTokens nowNs).tokens.toNat - b.tokens.toNat) +
      added (b.tryConsume requested nowNs).2 calls

/-- No refill of the calls is cut off by the cap. -/
def Uncapped (b : TokenBucket) : List (UInt32 × UInt64) → Prop
  | [] => True
  | (requested, nowNs) :: calls =>
    b.tokens.toNat + b.earned nowNs.toNat ≤ b.burstSize.toNat ∧
      Uncapped (b.tryConsume requested nowNs).2 calls

instance decidableUncapped : ∀ (b : TokenBucket) calls, Decidable (b.Uncapped calls)
  | _, [] => inferInstanceAs (Decidable True)
  | b, (requested, nowNs) :: calls =>
    have : Decidable ((b.tryConsume requested nowNs).2.Uncapped calls) :=
      decidableUncapped (b.tryConsume requested nowNs).2 calls
    inferInstanceAs (Decidable (_ ∧ _))

/-- The stretches of time that refills are computed over, for calls at `times` after an update at
    `last`: each ends with a call by which a whole token was earned, the last with the last call. -/
def stretches (ratePps : Nat) : Nat → List Nat → List Nat
  | _, [] => []
  | last, [t] => [t - last]
  | last, t :: t' :: times =>
    if ratePps * (t - last) < nsPerSec then stretches ratePps last (t' :: times)
    else (t - last) :: stretches ratePps t (t' :: times)

/-- The stretches cover the time from the update to the last call. -/
theorem sum_stretches (ratePps : Nat) {last : Nat} {times : List Nat}
    (h : (last :: times).Pairwise (· ≤ ·)) :
    (stretches ratePps last times).sum = times.getLastD last - last := by
  fun_induction stretches ratePps last times with
  | case1 => simp
  | case2 last t => simp
  | case3 last t t' times hshort ih =>
    -- the stretch goes on over the call at `t`
    rw [ih (h.sublist (by simp))]
    simp
  | case4 last t t' times hlong ih =>
    -- the stretch ends at `t`, and the next ones begin there
    have hrest := ih h.of_cons
    rw [List.pairwise_cons] at h
    have hfirst : last ≤ t := h.1 t List.mem_cons_self
    have hend : t ≤ (t' :: times).getLastD t := by
      have hmem : (t' :: times).getLastD t ∈ t' :: times := by
        rw [List.getLastD_eq_getLast?, List.getLast?_eq_getLast_of_ne_nil (by simp)]
        exact List.getLast_mem _
      exact (List.pairwise_cons.mp h.2).1 _ hmem
    rw [List.sum_cons, hrest]
    simp only [List.getLastD_cons] at hend ⊢
    omega

/-- A call that the cap does not cut off adds what was earned, to the time of the call, or leaves
    the bucket alone when no whole token was earned. -/
theorem updateTokens_uncapped (hrate : b.ratePps ≠ 0)
    (hcap : b.tokens.toNat + b.earned nowNs.toNat ≤ b.burstSize.toNat) :
    (b.earned nowNs.toNat = 0 ∧ b.updateTokens nowNs = b) ∨
    (0 < b.earned nowNs.toNat ∧ (b.updateTokens nowNs).lastUpdateNs = nowNs ∧
      (b.updateTokens nowNs).tokens.toNat = b.tokens.toNat + b.earned nowNs.toNat) := by
  have hburst := b.burstSize.toNat_lt
  have hrefill : b.refill nowNs.toNat = b.earned nowNs.toNat :=
    Nat.mod_eq_of_lt (by omega)
  -- below the cap nothing wraps, so what is due is what was earned
  rcases Nat.eq_zero_or_pos (b.earned nowNs.toNat) with hzero | hpos
  · rcases updateTokens_of_idle (hrefill.trans hzero) with heq | ⟨hno, -⟩
    · exact .inl ⟨hzero, heq⟩
    · exact absurd hno hrate
  · refine .inr ⟨hpos, ?_, ?_⟩
    · rw [updateTokens_of_refill (hrefill ▸ hpos)]
    · rw [tokens_updateTokens nowNs (by omega)]
      omega

/-- Refills add what each stretch earns, rounded down by itself. -/
theorem added_eq_yield (hrate : b.ratePps ≠ 0) (calls : List (UInt32 × UInt64))
    (hcap : b.Uncapped calls) :
    b.added calls = Floors.yield nsPerSec ((stretches b.ratePps.toNat b.lastUpdateNs.toNat
      (calls.map (·.2.toNat))).map (b.ratePps.toNat * ·)) := by
  induction calls generalizing b with
  | nil => rfl
  | cons c calls ih =>
    obtain ⟨requested, nowNs⟩ := c
    obtain ⟨hfirst, hrest⟩ := hcap
    obtain ⟨hrate', -, hlast', -⟩ := tryConsume_spec b requested nowNs
    have hnext := ih (by rw [hrate']; exact hrate) hrest
    rw [hrate', hlast'] at hnext
    have hearned : b.earned nowNs.toNat =
        b.ratePps.toNat * (nowNs.toNat - b.lastUpdateNs.toNat) / nsPerSec := by
      rw [earned, Nat.mul_comm]
    have hns : 0 < nsPerSec := by decide
    rw [added, hnext]
    rcases updateTokens_uncapped hrate hfirst with ⟨hzero, heq⟩ | ⟨hpos, hlast, htokens⟩
    · -- no whole token yet: the stretch goes on
      have hshort : b.ratePps.toNat * (nowNs.toNat - b.lastUpdateNs.toNat) < nsPerSec := by
        rw [hearned] at hzero
        exact (Nat.div_eq_zero_iff_lt hns).mp hzero
      rw [heq, Nat.sub_self, Nat.zero_add]
      cases calls with
      | nil => simp [stretches, Floors.yield, Nat.div_eq_of_lt hshort]
      | cons c' calls => simp only [List.map_cons, stretches, if_pos hshort]
    · -- a refill: the next stretch begins here
      have hlong : ¬ b.ratePps.toNat * (nowNs.toNat - b.lastUpdateNs.toNat) < nsPerSec := by
        intro hshort
        rw [hearned, Nat.div_eq_of_lt hshort] at hpos
        omega
      rw [htokens, Nat.add_sub_cancel_left, hlast, hearned]
      cases calls with
      | nil => simp [stretches, Floors.yield]
      | cons c' calls =>
        simp only [List.map_cons, stretches, if_neg hlong, Floors.yield_cons]

/-- From a reset at `t₀` on, the calls add what the whole time up to the last of them earns. -/
def ScheduleFree (b : TokenBucket) (t₀ : UInt64) (calls : List (UInt32 × UInt64)) : Prop :=
  (b.reset t₀).added calls = b.ratePps.toNat *
    ((calls.map (·.2.toNat)).getLastD t₀.toNat - t₀.toNat) / nsPerSec

instance (b : TokenBucket) (t₀ : UInt64) (calls : List (UInt32 × UInt64)) :
    Decidable (ScheduleFree b t₀ calls) :=
  inferInstanceAs (Decidable (_ = _))

/-- The fractions of a token thrown away at the refills, and what is left over at the end, in
    billionths. -/
def lostFractions (b : TokenBucket) (t₀ : UInt64) (calls : List (UInt32 × UInt64)) : Nat :=
  Floors.leftover nsPerSec ((stretches b.ratePps.toNat t₀.toNat
    (calls.map (·.2.toNat))).map (b.ratePps.toNat * ·))

/-- **Polling.** For every positive rate, every burst and all calls at non-decreasing times after
    a reset that the cap does not cut off, the tokens added do not depend on the times of the
    calls in between if and only if the fractions thrown away make up less than a token. -/
theorem scheduleFree_iff (b : TokenBucket) (hrate : 0 < b.ratePps) (t₀ : UInt64)
    (calls : List (UInt32 × UInt64)) (hmono : (t₀ :: calls.map (·.2)).Pairwise (· ≤ ·))
    (hcap : (b.reset t₀).Uncapped calls) :
    ScheduleFree b t₀ calls ↔ lostFractions b t₀ calls < nsPerSec := by
  have hrate' : (b.reset t₀).ratePps ≠ 0 := by
    intro hzero
    rw [show b.ratePps = 0 from hzero] at hrate
    exact absurd hrate (by decide)
  have htimes : (t₀.toNat :: calls.map (·.2.toNat)).Pairwise (· ≤ ·) := by
    have hmap := hmono.map UInt64.toNat fun _ _ h => UInt64.le_iff_toNat_le.mp h
    rwa [List.map_cons, List.map_map] at hmap
  have hsum : ∀ l : List Nat, (l.map (b.ratePps.toNat * ·)).sum = b.ratePps.toNat * l.sum :=
    fun l => by simpa using List.sum_map_mul_left l id b.ratePps.toNat
  rw [ScheduleFree, lostFractions, added_eq_yield hrate' calls hcap,
    ← Floors.yield_eq_iff (by decide), hsum, sum_stretches _ htimes]
  rfl

/-- A bucket of 100 packets a second whose ten tokens are taken at once. -/
def hundred : TokenBucket := new 100 10 0

/-- Polled every ten milliseconds it loses nothing. -/
theorem scheduleFree_iff_hundred :
    ScheduleFree hundred 0 [(10, 1), (0, 10000000), (0, 20000000), (0, 30000000)] ↔
      lostFractions hundred 0 [(10, 1), (0, 10000000), (0, 20000000), (0, 30000000)] <
        nsPerSec :=
  scheduleFree_iff hundred (by decide) 0 _ (by decide) (by decide)

/-- Polled every fifteen milliseconds it adds two tokens in thirty, and polled once in thirty
    it adds three. -/
theorem not_scheduleFree_hundred :
    (hundred.reset 0).Uncapped [(10, 1), (0, 15000000), (0, 30000000)] ∧
      (hundred.reset 0).added [(10, 1), (0, 15000000), (0, 30000000)] = 2 ∧
      (hundred.reset 0).added [(10, 1), (0, 30000000)] = 3 ∧
      ¬ ScheduleFree hundred 0 [(10, 1), (0, 15000000), (0, 30000000)] := by
  decide

end TrafficGen.TokenBucket
