import TrafficGen.Spec.TokenBucketRefill

/-!
# Changing the rate of a bucket

`set_rate` stores the new rate and nothing else, so the next refill credits the whole time since
the last one at the new rate, the part before the change included. The excess is the difference
of the rates over that part; it stays unseen as long as it is less than the token that rounding
allows for.

## Key results

- `tokens_setRate`: what a bucket holds after a change of rate
- `notRetroactive_iff`: when time before the change is credited at the old rate only
-/

namespace TrafficGen.TokenBucket

variable {b : TokenBucket} {ratePps t t' : UInt64}

/-- The most a bucket should hold at `t'` when its rate changes at `t`: the time up to `t` earns
    the old rate, the time from there on the new one, and a fraction of a token is forgiven. -/
def rateChangeBound (b : TokenBucket) (ratePps t t' : UInt64) : Rat :=
  b.tokens.toNat + (b.ratePps.toNat * ((t.toNat : Rat) - b.lastUpdateNs.toNat) +
    ratePps.toNat * ((t'.toNat : Rat) - t.toNat)) / nsPerSec + 1

/-- The tokens available at `t'` after a change of rate at `t` with no calls in between. -/
def NotRetroactive (b : TokenBucket) (ratePps t t' : UInt64) : Prop :=
  (((b.setRate ratePps).updateTokens t').tokens.toNat : Rat) ≤ b.rateChangeBound ratePps t t'

/-- The change of rate reaches back to the last refill. -/
theorem earned_setRate (b : TokenBucket) (ratePps : UInt64) (now : Nat) :
    (b.setRate ratePps).earned now = (now - b.lastUpdateNs.toNat) * ratePps.toNat / nsPerSec :=
  rfl

/-- Below the cap the next refill adds all that was earned since the last. -/
theorem tokens_setRate (hburst : b.tokens.toNat + (b.setRate ratePps).earned t'.toNat ≤
      b.burstSize.toNat) :
    ((b.setRate ratePps).updateTokens t').tokens.toNat =
      b.tokens.toNat + (b.setRate ratePps).earned t'.toNat := by
  have hcap : (b.setRate ratePps).tokens.toNat ≤ (b.setRate ratePps).burstSize.toNat :=
    Nat.le_trans (Nat.le_add_right _ _) hburst
  have hlt := b.burstSize.toNat_lt
  rw [tokens_updateTokens t' hcap]
  show min ((b.tokens.toNat + _) % 2 ^ 64) b.burstSize.toNat = _
  rw [Nat.mod_eq_of_lt (by omega), Nat.min_eq_left hburst]

/-- **Rate changes.** For every bucket, rates and times of a change and a later call that finds
    the burst not reached, time before the change is credited at the old rate only if and only
    if what it earns more at the new rate is no more than a token and the fraction that the
    refill throws away. -/
theorem notRetroactive_iff (b : TokenBucket) (ratePps t t' : UInt64)
    (hlast : b.lastUpdateNs ≤ t) (hlater : t ≤ t')
    (hburst : b.tokens.toNat + (b.setRate ratePps).earned t'.toNat ≤ b.burstSize.toNat) :
    NotRetroactive b ratePps t t' ↔
      ((ratePps.toNat : Int) - b.ratePps.toNat) * (t.toNat - b.lastUpdateNs.toNat : Nat) ≤
        nsPerSec + ((t'.toNat - b.lastUpdateNs.toNat) * ratePps.toNat % nsPerSec : Nat) := by
  obtain ⟨before, hbefore⟩ := Nat.exists_eq_add_of_le (UInt64.le_iff_toNat_le.mp hlast)
  obtain ⟨after, hafter⟩ := Nat.exists_eq_add_of_le (UInt64.le_iff_toNat_le.mp hlater)
  have hwhole : t'.toNat - b.lastUpdateNs.toNat = before + after := by omega
  have hpart : t.toNat - b.lastUpdateNs.toNat = before := by omega
  -- the division throws the fraction away
  have hdiv := Nat.div_add_mod ((before + after) * ratePps.toNat) nsPerSec
  have hpos : (0 : Rat) < nsPerSec := by decide
  rw [NotRetroactive, tokens_setRate hburst, earned_setRate, hwhole, hpart]
  generalize (before + after) * ratePps.toNat / nsPerSec = earned at hdiv ⊢
  generalize (before + after) * ratePps.toNat % nsPerSec = fraction at hdiv ⊢
  have hbound : b.rateChangeBound ratePps t t' = b.tokens.toNat +
      ((b.ratePps.toNat * before + ratePps.toNat * after : Nat) : Rat) / nsPerSec + 1 := by
    rw [rateChangeBound, hafter, hbefore]
    push_cast
    ring
  rw [hbound, Nat.cast_add, add_assoc, add_le_add_iff_left, ← sub_le_iff_le_add,
    le_div_iff₀ hpos]
  have hscaled : ((earned : Rat) - 1) * nsPerSec ≤
      ((b.ratePps.toNat * before + ratePps.toNat * after : Nat) : Rat) ↔
      ((earned : Int) - 1) * nsPerSec ≤
        ((b.ratePps.toNat * before + ratePps.toNat * after : Nat) : Int) := by
    exact_mod_cast Iff.rfl
  rw [hscaled]
  have hdiv : (nsPerSec : Int) * earned + fraction = (before + after) * ratePps.toNat := by
    exact_mod_cast hdiv
  push_cast
  constructor
  · intro h
    linarith
  · intro h
    linarith

/-- An empty bucket of one packet a second, and room for a second at a million. -/
def slow : TokenBucket := ⟨1, 1000000, 0, 0⟩

/-- Slowed down or kept at its rate it credits nothing too much. -/
theorem notRetroactive_slow : NotRetroactive slow 1 1000000000 2000000000 :=
  (notRetroactive_iff slow 1 1000000000 2000000000 (by decide) (by decide) (by decide)).mpr
    (by decide)

/-- A second idle at one packet a second, and then a rate of a thousand: a refill right at the
    change finds a thousand tokens where there was one. -/
theorem not_notRetroactive_slow :
    slow.tokens.toNat + (slow.setRate 1000).earned (1000000000 : UInt64).toNat ≤
        slow.burstSize.toNat ∧
      ((slow.setRate 1000).updateTokens 1000000000).tokens = 1000 ∧
      ¬ NotRetroactive slow 1000 1000000000 1000000000 := by
  have htokens : ((slow.setRate 1000).updateTokens 1000000000).tokens = 1000 := by decide
  have hbound : slow.rateChangeBound 1000 1000000000 1000000000 = 2 := by
    have htime : (1000000000 : UInt64).toNat = 1000000000 := rfl
    have hslow : slow.tokens.toNat = 0 ∧ slow.ratePps.toNat = 1 ∧ slow.lastUpdateNs.toNat = 0 :=
      ⟨rfl, rfl, rfl⟩
    rw [rateChangeBound, htime, hslow.1, hslow.2.1, hslow.2.2, nsPerSec]
    norm_num
  refine ⟨by decide, htokens, ?_⟩
  rw [NotRetroactive, htokens, hbound, not_le]
  decide

end TrafficGen.TokenBucket
