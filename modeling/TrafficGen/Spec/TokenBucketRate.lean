import Mathlib.Algebra.Order.Field.Basic
import Mathlib.Data.Rat.Cast.Order
import Mathlib.Tactic.Linarith
import Mathlib.Tactic.Ring
import TrafficGen.Core.TokenBucket

/-!
# Token bucket rate limit

Over any window of `try_consume` calls a bucket grants less than
`burst + rate * (t₂ - t₁) / 10^9 + 1` tokens. The proof carries one potential
through the calls: what was granted, what the bucket holds, and what the next
refill would add (`Funded`). Truncating the 128-bit quotient and wrapping the
64-bit addition only lower that potential.

## Key results

- `reachable_tokens_le_burst`: a bucket never holds more than its burst size
- `funded_tryConsume`: one call keeps the potential under the line
- `tryConsume_rate_limit`: the rate limit over any window
-/

namespace TrafficGen.TokenBucket

/-- The tokens earned between the last update and `now`, before any truncation. -/
def earned (b : TokenBucket) (now : Nat) : Nat :=
  (now - b.lastUpdateNs.toNat) * b.ratePps.toNat / nsPerSec

/-- The tokens a refill at `now` would add: what was earned, cut to 64 bits. -/
def refill (b : TokenBucket) (now : Nat) : Nat :=
  b.earned now % 2 ^ 64

/-! ## What `update_tokens` does -/

private theorem toNat_tokensToAdd (elapsedNs ratePps : UInt64) :
    (tokensToAdd elapsedNs ratePps).toNat =
      elapsedNs.toNat * ratePps.toNat / nsPerSec % 2 ^ 64 := by
  have hlt : elapsedNs.toNat * ratePps.toNat < 2 ^ 128 := by
    calc elapsedNs.toNat * ratePps.toNat
        < 2 ^ 64 * 2 ^ 64 := Nat.mul_lt_mul'' elapsedNs.toNat_lt ratePps.toNat_lt
      _ = 2 ^ 128 := by norm_num
  rw [tokensToAdd, Nat.mod_eq_of_lt hlt, UInt64.toNat_ofNat']

theorem toNat_tokensToAdd_eq_refill (b : TokenBucket) {nowNs : UInt64}
    (h : b.lastUpdateNs ≤ nowNs) :
    (tokensToAdd (nowNs - b.lastUpdateNs) b.ratePps).toNat = b.refill nowNs.toNat := by
  rw [toNat_tokensToAdd, UInt64.toNat_sub_of_le _ _ h, refill, earned]

/-- `update_tokens` leaves the bucket alone because no refill is due, or moves
    `lastUpdateNs` to `nowNs` with at most the due refill added under the cap. -/
theorem updateTokens_cases (b : TokenBucket) (nowNs : UInt64) :
    (b.updateTokens nowNs = b ∧
      (nowNs.toNat ≤ b.lastUpdateNs.toNat ∨ b.refill nowNs.toNat = 0)) ∨
    ((b.updateTokens nowNs).ratePps = b.ratePps ∧
      (b.updateTokens nowNs).burstSize = b.burstSize ∧
      (b.updateTokens nowNs).lastUpdateNs = nowNs ∧
      (b.updateTokens nowNs).tokens.toNat ≤ b.tokens.toNat + b.refill nowNs.toNat ∧
      (b.tokens.toNat ≤ b.burstSize.toNat →
        (b.updateTokens nowNs).tokens.toNat ≤ b.burstSize.toNat)) := by
  by_cases hle : nowNs ≤ b.lastUpdateNs
  · left
    exact ⟨by rw [updateTokens, if_pos hle], Or.inl (UInt64.le_iff_toNat_le.mp hle)⟩
  · have hlt : b.lastUpdateNs ≤ nowNs := by
      rw [UInt64.le_iff_toNat_le] at hle ⊢
      omega
    by_cases hrate : b.ratePps = 0
    · -- rate zero: the time moves, and nothing was earned
      right
      rw [updateTokens, if_neg hle, if_pos hrate]
      exact ⟨rfl, rfl, rfl, Nat.le_add_right _ _, id⟩
    · have hadd := toNat_tokensToAdd_eq_refill b hlt
      rw [updateTokens, if_neg hle, if_neg hrate]
      by_cases hpos : 0 < tokensToAdd (nowNs - b.lastUpdateNs) b.ratePps
      · -- a wrapped sum is smaller still, and the cap applies to it as well
        right
        simp only [if_pos hpos, UInt64.toNat_min, UInt64.toNat_add, hadd]
        exact ⟨trivial, trivial, trivial, by omega, by omega⟩
      · left
        refine ⟨by simp only [if_neg hpos], Or.inr ?_⟩
        rw [UInt64.lt_iff_toNat_lt, hadd, UInt64.toNat_zero] at hpos
        omega

@[simp] theorem updateTokens_ratePps (b : TokenBucket) (nowNs : UInt64) :
    (b.updateTokens nowNs).ratePps = b.ratePps := by
  rcases updateTokens_cases b nowNs with ⟨h, -⟩ | ⟨h, -⟩
  · rw [h]
  · exact h

@[simp] theorem updateTokens_burstSize (b : TokenBucket) (nowNs : UInt64) :
    (b.updateTokens nowNs).burstSize = b.burstSize := by
  rcases updateTokens_cases b nowNs with ⟨h, -⟩ | ⟨-, h, -⟩
  · rw [h]
  · exact h

/-- A refill keeps a bucket within its burst size. -/
theorem updateTokens_tokens_le (b : TokenBucket) (nowNs : UInt64)
    (h : b.tokens.toNat ≤ b.burstSize.toNat) :
    (b.updateTokens nowNs).tokens.toNat ≤ b.burstSize.toNat := by
  rcases updateTokens_cases b nowNs with ⟨heq, -⟩ | ⟨-, -, -, -, hcap⟩
  · rw [heq]
    exact h
  · exact hcap h

/-! ## What `try_consume` does -/

/-- What is consumed is taken from the tokens, and returned whole. -/
theorem toNat_consumed (requested : UInt32) (tokens : UInt64) :
    (min requested.toUInt64 tokens).toUInt32.toNat +
      (tokens - min requested.toUInt64 tokens).toNat = tokens.toNat := by
  have hle : min requested.toUInt64 tokens ≤ tokens := by
    rw [UInt64.le_iff_toNat_le, UInt64.toNat_min]
    omega
  have := requested.toNat_lt
  rw [UInt64.toNat_sub_of_le _ _ hle, UInt64.toNat_toUInt32, UInt64.toNat_min,
    UInt32.toNat_toUInt64]
  omega

/-- The bucket after a call is the refilled bucket less the granted tokens. -/
theorem tryConsume_spec (b : TokenBucket) (requested : UInt32) (nowNs : UInt64) :
    (b.tryConsume requested nowNs).2.ratePps = b.ratePps ∧
    (b.tryConsume requested nowNs).2.burstSize = b.burstSize ∧
    (b.tryConsume requested nowNs).2.lastUpdateNs = (b.updateTokens nowNs).lastUpdateNs ∧
    (b.tryConsume requested nowNs).1.toNat + (b.tryConsume requested nowNs).2.tokens.toNat =
      (b.updateTokens nowNs).tokens.toNat := by
  simp only [tryConsume]
  split
  · simp only [updateTokens_ratePps, updateTokens_burstSize, UInt32.toNat_zero, Nat.zero_add,
      and_self]
  · exact ⟨updateTokens_ratePps b nowNs, updateTokens_burstSize b nowNs, rfl,
      toNat_consumed _ _⟩

/-- Every bucket a history of calls leads to holds at most its burst size. -/
theorem reachable_tokens_le_burst {b : TokenBucket} (h : b.Reachable) :
    b.tokens.toNat ≤ b.burstSize.toNat := by
  refine Run.Reachable.induct (P := fun b => b.tokens.toNat ≤ b.burstSize.toNat) h ?_ ?_
  · rintro _ ⟨rate, burst, now, rfl⟩
    exact Nat.le_refl _
  · intro b op hb
    cases op with
    | tryConsume requested nowNs =>
      obtain ⟨-, hburst, -, hsum⟩ := tryConsume_spec b requested nowNs
      have := updateTokens_tokens_le b nowNs hb
      simp only [step, hburst]
      omega
    | setRate ratePps => exact hb
    | setBurstSize burstSize =>
      simp only [step, setBurstSize]
      split
      · exact Nat.le_refl _
      · next hgt =>
        rw [gt_iff_lt, UInt64.lt_iff_toNat_lt] at hgt
        omega
    | reset nowNs => exact Nat.le_refl _

/-! ## How fast a refill can grow -/

private theorem nsPerSec_mul_earned_le (b : TokenBucket) (now : Nat) :
    nsPerSec * b.earned now ≤ b.ratePps.toNat * (now - b.lastUpdateNs.toNat) := by
  rw [earned, Nat.mul_comm b.ratePps.toNat]
  exact Nat.mul_div_le _ _

theorem refill_le_earned (b : TokenBucket) (now : Nat) : b.refill now ≤ b.earned now :=
  Nat.mod_le _ _

/-- Whatever a refill adds was earned since the last update. -/
theorem refill_after_update (b : TokenBucket) (now : Nat) {s : Nat}
    (h : s ≤ b.lastUpdateNs.toNat) :
    nsPerSec * b.refill now ≤ b.ratePps.toNat * (now - s) := by
  calc nsPerSec * b.refill now
      ≤ nsPerSec * b.earned now := Nat.mul_le_mul_left _ (refill_le_earned b now)
    _ ≤ b.ratePps.toNat * (now - b.lastUpdateNs.toNat) := nsPerSec_mul_earned_le b now
    _ ≤ b.ratePps.toNat * (now - s) := Nat.mul_le_mul_left _ (by omega)

/-- When no refill is due at `s`, a later one adds at most what is earned from `s` on and
    the fraction of a token left over at `s`. A quotient that truncates to zero at `s` is a
    multiple of `2 ^ 64`, which the later quotient loses too. -/
theorem refill_after_idle (b : TokenBucket) {s now : Nat} (hnow : s ≤ now)
    (h : s ≤ b.lastUpdateNs.toNat ∨ b.refill s = 0) :
    nsPerSec * b.refill now < b.ratePps.toNat * (now - s) + nsPerSec := by
  by_cases hs : s ≤ b.lastUpdateNs.toNat
  · have := refill_after_update b now hs
    have : 0 < nsPerSec := by decide
    omega
  · -- from `s` on the quotient grows by what is earned then, plus the fraction carried over
    have hidle : b.earned s % 2 ^ 64 = 0 := h.resolve_left hs
    have hsplit : (now - b.lastUpdateNs.toNat) * b.ratePps.toNat =
        (s - b.lastUpdateNs.toNat) * b.ratePps.toNat + b.ratePps.toNat * (now - s) := by
      rw [Nat.mul_comm b.ratePps.toNat, ← Nat.add_mul]
      congr 1
      omega
    have hearned : b.earned s ≤ b.earned now := by
      rw [earned, earned, hsplit]
      exact Nat.div_le_div_right (Nat.le_add_right _ _)
    have hrefill : b.refill now ≤ b.earned now - b.earned s := by
      simp only [refill]
      omega
    have hnext : nsPerSec * b.earned now ≤
        (s - b.lastUpdateNs.toNat) * b.ratePps.toNat + b.ratePps.toNat * (now - s) := by
      rw [← hsplit, earned]
      exact Nat.mul_div_le _ _
    have hprev : (s - b.lastUpdateNs.toNat) * b.ratePps.toNat <
        nsPerSec * b.earned s + nsPerSec := by
      rw [earned]
      exact Nat.lt_mul_div_succ _ (by decide)
    have hns : 0 < nsPerSec := by decide
    calc nsPerSec * b.refill now
        ≤ nsPerSec * (b.earned now - b.earned s) := Nat.mul_le_mul_left _ hrefill
      _ = nsPerSec * b.earned now - nsPerSec * b.earned s := Nat.mul_sub _ _ _
      _ < b.ratePps.toNat * (now - s) + nsPerSec := by omega

/-! ## The potential of a window -/

/-- Nothing was granted yet, or what was granted since `t₁`, what the bucket holds and what
    any refill from `cur` on would add stay under the line of the rate limit. -/
def Funded (t₁ cur granted : Nat) (b : TokenBucket) : Prop :=
  granted = 0 ∨ ∀ now, cur ≤ now →
    nsPerSec * (granted + b.tokens.toNat + b.refill now) <
      nsPerSec * (b.burstSize.toNat + 1) + b.ratePps.toNat * (now - t₁)

/-- The line holds after the refill of a call, whether or not anything was granted before. -/
private theorem funded_updateTokens (b : TokenBucket) (nowNs : UInt64) {t₁ cur granted : Nat}
    (htok : b.tokens.toNat ≤ b.burstSize.toNat) (ht₁ : t₁ ≤ nowNs.toNat)
    (hcur : cur ≤ nowNs.toNat) (h : Funded t₁ cur granted b) (now : Nat)
    (hnow : nowNs.toNat ≤ now) :
    nsPerSec * (granted + (b.updateTokens nowNs).tokens.toNat +
        (b.updateTokens nowNs).refill now) <
      nsPerSec * (b.burstSize.toNat + 1) + b.ratePps.toNat * (now - t₁) := by
  have hns : 0 < nsPerSec := by decide
  have hrate : b.ratePps.toNat * (now - t₁) =
      b.ratePps.toNat * (nowNs.toNat - t₁) + b.ratePps.toNat * (now - nowNs.toNat) := by
    rw [← Nat.mul_add]
    congr 1
    omega
  have hcap : nsPerSec * b.tokens.toNat ≤ nsPerSec * b.burstSize.toNat :=
    Nat.mul_le_mul_left _ htok
  rcases updateTokens_cases b nowNs with ⟨heq, hidle⟩ | ⟨hr, -, hlast, hadd, hburst⟩
  · -- no refill: the bucket is as it was
    rw [heq]
    rcases h with rfl | h
    · -- first grant of the window: at most a full burst, and the carried fraction
      have := refill_after_idle b hnow hidle
      simp only [Nat.mul_add] at *
      omega
    · exact h now (by omega)
  · -- a refill at `nowNs`: later refills count from `nowNs` on
    have hlater := refill_after_update (b.updateTokens nowNs) now (s := nowNs.toNat)
      (by rw [hlast])
    rw [hr] at hlater
    rcases h with rfl | h
    · have := Nat.mul_le_mul_left nsPerSec (hburst htok)
      simp only [Nat.mul_add] at *
      omega
    · -- the refill was accounted for at `nowNs`, so it may be added to the tokens
      have hline := h nowNs.toNat hcur
      have := Nat.mul_le_mul_left nsPerSec hadd
      simp only [Nat.mul_add] at *
      omega

/-- One call keeps the window funded. -/
theorem funded_tryConsume (b : TokenBucket) (requested : UInt32) (nowNs : UInt64)
    {t₁ cur granted : Nat} (htok : b.tokens.toNat ≤ b.burstSize.toNat)
    (ht₁ : t₁ ≤ nowNs.toNat) (hcur : cur ≤ nowNs.toNat) (h : Funded t₁ cur granted b) :
    Funded t₁ nowNs.toNat (granted + (b.tryConsume requested nowNs).1.toNat)
      (b.tryConsume requested nowNs).2 := by
  obtain ⟨hrate, hburst, hlast, hsum⟩ := tryConsume_spec b requested nowNs
  -- granted tokens leave the bucket, so their sum is that after the refill
  right
  intro now hnow
  have hline := funded_updateTokens b nowNs htok ht₁ hcur h now hnow
  have hrefill : (b.tryConsume requested nowNs).2.refill now =
      (b.updateTokens nowNs).refill now := by
    simp only [refill, earned, hlast, hrate, updateTokens_ratePps]
  rw [hrate, hburst, hrefill, Nat.add_assoc granted, hsum]
  exact hline

/-! ## The rate limit -/

private theorem consumeAll_bound (t₁ t₂ : UInt64) (calls : List (UInt32 × UInt64))
    (b : TokenBucket) (cur granted : Nat) (htok : b.tokens.toNat ≤ b.burstSize.toNat)
    (hcur : cur ≤ t₂.toNat) (hmono : (calls.map Prod.snd).Pairwise (· ≤ ·))
    (hin : ∀ c ∈ calls, t₁ ≤ c.2 ∧ cur ≤ c.2.toNat ∧ c.2 ≤ t₂)
    (h : Funded t₁.toNat cur granted b) :
    nsPerSec * (granted + (b.consumeAll calls).1) <
      nsPerSec * (b.burstSize.toNat + 1) + b.ratePps.toNat * (t₂.toNat - t₁.toNat) := by
  -- induction on the calls; `Funded` carries what was granted before them
  induction calls generalizing b cur granted with
  | nil =>
    have hns : 0 < nsPerSec := by decide
    rcases h with rfl | h
    · simp only [consumeAll, Nat.mul_add]
      omega
    · have := h t₂.toNat hcur
      simp only [consumeAll, Nat.mul_add] at *
      omega
  | cons c calls ih =>
    obtain ⟨requested, nowNs⟩ := c
    obtain ⟨ht₁, hnow, ht₂⟩ := hin _ List.mem_cons_self
    rw [UInt64.le_iff_toNat_le] at ht₁ ht₂
    obtain ⟨hrate, hburst, -, hsum⟩ := tryConsume_spec b requested nowNs
    have htok' := updateTokens_tokens_le b nowNs htok
    rw [List.map_cons, List.pairwise_cons] at hmono
    have hrest := ih (b.tryConsume requested nowNs).2 nowNs.toNat
      (granted + (b.tryConsume requested nowNs).1.toNat) (by rw [hburst]; omega) ht₂ hmono.2
      (fun c hc => ⟨(hin c (List.mem_cons_of_mem _ hc)).1,
        UInt64.le_iff_toNat_le.mp (hmono.1 c.2 (List.mem_map_of_mem hc)),
        (hin c (List.mem_cons_of_mem _ hc)).2.2⟩)
      (funded_tryConsume b requested nowNs htok ht₁ hnow h)
    rw [hrate, hburst] at hrest
    simp only [consumeAll]
    rw [← Nat.add_assoc]
    exact hrest

/-- Over any window `[t₁, t₂]` the calls grant less than
    `burst + rate * (t₂ - t₁) / 10^9 + 1` tokens, whatever was asked for and when. -/
theorem tryConsume_rate_limit (b : TokenBucket) (hb : b.Reachable) (t₁ t₂ : UInt64)
    (hwin : t₁ ≤ t₂) (calls : List (UInt32 × UInt64))
    (hmono : (calls.map Prod.snd).Pairwise (· ≤ ·))
    (hin : ∀ c ∈ calls, t₁ ≤ c.2 ∧ c.2 ≤ t₂) :
    ((b.consumeAll calls).1 : ℚ) <
      b.burstSize.toNat + b.ratePps.toNat * ((t₂.toNat : ℚ) - t₁.toNat) / 10 ^ 9 + 1 := by
  have hwin' : t₁.toNat ≤ t₂.toNat := UInt64.le_iff_toNat_le.mp hwin
  have hbound := consumeAll_bound t₁ t₂ calls b t₁.toNat 0 (reachable_tokens_le_burst hb) hwin'
    hmono (fun c hc => ⟨(hin c hc).1, UInt64.le_iff_toNat_le.mp (hin c hc).1, (hin c hc).2⟩)
    (Or.inl rfl)
  rw [Nat.zero_add] at hbound
  have hcast : ((nsPerSec * (b.consumeAll calls).1 : Nat) : ℚ) <
      ((nsPerSec * (b.burstSize.toNat + 1) + b.ratePps.toNat * (t₂.toNat - t₁.toNat) : Nat) : ℚ) :=
    Nat.cast_lt.mpr hbound
  push_cast [nsPerSec, Nat.cast_sub hwin'] at hcast
  linarith

/-- Five tokens asked for twice of a full bucket of ten, one second apart. -/
theorem tryConsume_rate_limit_small :
    (((new 2 10 0).consumeAll [(5, 0), (9, 1000000000)]).1 : ℚ) <
      10 + 2 * (1000000000 - 0) / 10 ^ 9 + 1 := by
  have h := tryConsume_rate_limit (new 2 10 0) (Run.Reachable.start ⟨2, 10, 0, rfl⟩) 0 1000000000
    (by decide) [(5, 0), (9, 1000000000)] (List.pairwise_pair.mpr (by decide)) (by simp)
  simpa [new] using h

end TrafficGen.TokenBucket
