import Mathlib.Algebra.Group.Nat.Defs
import TrafficGen.ForStd.Run

/-!
# Token bucket

`core/scheduler/token_bucket.cpp`. Every clock read is an argument. The calls are
modelled one at a time, so the compare-exchange of `try_consume` meets the value it
loaded: a spurious failure of the weak exchange reloads the same value and retries.
-/

namespace TrafficGen

/-- Token bucket rate limiter for traffic shaping. -/
structure TokenBucket where
  ratePps : UInt64
  burstSize : UInt64
  tokens : UInt64
  lastUpdateNs : UInt64
deriving DecidableEq, Repr

namespace TokenBucket

/-- Nanoseconds in a second. -/
def nsPerSec : Nat := 1000000000

/-- A new bucket starts full. -/
def new (ratePps burstSize nowNs : UInt64) : TokenBucket where
  ratePps := ratePps
  burstSize := burstSize
  tokens := burstSize
  lastUpdateNs := nowNs

/-- The whole tokens `rate` earns in `elapsedNs`, as the code computes them: the product
    in 128 bits, the quotient cut to 64. -/
def tokensToAdd (elapsedNs ratePps : UInt64) : UInt64 :=
  UInt64.ofNat (elapsedNs.toNat * ratePps.toNat % 2 ^ 128 / nsPerSec)

/-- Update tokens based on elapsed time. -/
def updateTokens (b : TokenBucket) (nowNs : UInt64) : TokenBucket :=
  if nowNs ≤ b.lastUpdateNs then b
  else if b.ratePps = 0 then { b with lastUpdateNs := nowNs }
  else
    let add := tokensToAdd (nowNs - b.lastUpdateNs) b.ratePps
    if 0 < add then
      -- the sum wraps before the cap is applied
      { b with tokens := min (b.tokens + add) b.burstSize, lastUpdateNs := nowNs }
    else b  -- the time goes on counting towards the first whole token

/-- Try to consume tokens. Returns the number of tokens consumed (0 to requested). -/
def tryConsume (b : TokenBucket) (requested : UInt32) (nowNs : UInt64) : UInt32 × TokenBucket :=
  let b := b.updateTokens nowNs
  if b.tokens = 0 then (0, b)
  else
    -- the exchange meets the value it loaded
    let consumed := min requested.toUInt64 b.tokens
    (consumed.toUInt32, { b with tokens := b.tokens - consumed })

/-- Update rate. -/
def setRate (b : TokenBucket) (ratePps : UInt64) : TokenBucket :=
  { b with ratePps }

/-- Update burst size, clipping the tokens to it. -/
def setBurstSize (b : TokenBucket) (burstSize : UInt64) : TokenBucket :=
  { b with burstSize, tokens := if b.tokens > burstSize then burstSize else b.tokens }

/-- Reset bucket to full. -/
def reset (b : TokenBucket) (nowNs : UInt64) : TokenBucket :=
  { b with tokens := b.burstSize, lastUpdateNs := nowNs }

/-- The calls a bucket accepts. -/
inductive Op where
  | tryConsume (requested : UInt32) (nowNs : UInt64)
  | setRate (ratePps : UInt64)
  | setBurstSize (burstSize : UInt64)
  | reset (nowNs : UInt64)

/-- The bucket after one call. -/
def step (b : TokenBucket) : Op → TokenBucket
  | .tryConsume requested nowNs => (b.tryConsume requested nowNs).2
  | .setRate ratePps => b.setRate ratePps
  | .setBurstSize burstSize => b.setBurstSize burstSize
  | .reset nowNs => b.reset nowNs

/-- A bucket some history of calls leads to. -/
def Reachable : TokenBucket → Prop :=
  Run.Reachable step fun b => ∃ rate burst now, b = new rate burst now

/-- Successive `try_consume` calls: the total granted and the bucket left. -/
def consumeAll (b : TokenBucket) : List (UInt32 × UInt64) → Nat × TokenBucket
  | [] => (0, b)
  | (requested, nowNs) :: calls =>
    let (granted, b) := b.tryConsume requested nowNs
    let (total, b) := consumeAll b calls
    (granted.toNat + total, b)

end TokenBucket

end TrafficGen
