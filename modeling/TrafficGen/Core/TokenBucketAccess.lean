import Mathlib.Logic.Function.Basic
import TrafficGen.Core.TokenBucket

/-!
# Accesses to a shared token bucket

`try_consume` and `update_tokens` of `core/scheduler/token_bucket.cpp`, one access to `tokens_`
at a time, for any number of callers. The refill loads and stores `tokens_` under the mutex; the
consumption loads it and exchanges it without. What the other members hold is read and written
under the mutex only, in the step that takes it.
-/

namespace TrafficGen.TokenBucket

/-- Where a caller is in `try_consume`. -/
inductive Pc where
  | idle
  /-- Before the mutex of `update_tokens`. -/
  | called (requested : UInt32)
  /-- Under the mutex, `tokens_` not loaded yet. -/
  | locked (requested : UInt32) (nowNs add : UInt64)
  /-- Under the mutex, `tokens_` loaded and not stored yet. -/
  | refilling (requested : UInt32) (nowNs add current : UInt64)
  /-- `update_tokens` has returned. -/
  | updated (requested : UInt32)
  /-- Before the compare-exchange. -/
  | exchanging (requested : UInt32) (expected : UInt64)
deriving DecidableEq, Repr

/-- A bucket and its callers. Recorded beside them: the tokens granted so far, and those that
    refills have added. -/
structure Shared (ι : Type*) where
  bucket : TokenBucket
  holder : Option ι
  pc : ι → Pc
  granted : Nat
  added : Nat

/-- One step of a caller. -/
inductive Access where
  | call (requested : UInt32)
  | lock (nowNs : UInt64)
  | refillLoad
  | refillStore
  | load
  /-- A weak exchange may fail on the expected value. -/
  | exchange (spurious : Bool)
deriving DecidableEq, Repr

namespace Shared

variable {ι : Type*} [DecidableEq ι]

/-- Nobody has called yet. -/
def start (ι : Type*) (b : TokenBucket) : Shared ι where
  bucket := b
  holder := none
  pc := fun _ => .idle
  granted := 0
  added := 0

/-- The caller goes on. -/
def goto (s : Shared ι) (c : ι) (pc : Pc) : Shared ι :=
  { s with pc := Function.update s.pc c pc }

/-- `tokens_` is loaded, before an exchange is tried: nothing is granted when there is none. -/
def expect (s : Shared ι) (c : ι) (requested : UInt32) : Shared ι :=
  s.goto c (if s.bucket.tokens = 0 then .idle else .exchanging requested s.bucket.tokens)

/-- `update_tokens` up to its load of `tokens_`. It returns before the load when there is nothing
    to add, and then the mutex is free again. -/
def lockRefill (s : Shared ι) (c : ι) (requested : UInt32) (nowNs : UInt64) : Shared ι :=
  let b := s.bucket
  if nowNs ≤ b.lastUpdateNs then s.goto c (.updated requested)
  else if b.ratePps = 0 then
    { s with bucket := { b with lastUpdateNs := nowNs } }.goto c (.updated requested)
  else
    let add := tokensToAdd (nowNs - b.lastUpdateNs) b.ratePps
    if 0 < add then { s with holder := some c }.goto c (.locked requested nowNs add)
    else s.goto c (.updated requested)

/-- The store of `update_tokens`, and its return. -/
def storeRefill (s : Shared ι) (c : ι) (requested : UInt32) (nowNs add current : UInt64) :
    Shared ι :=
  let newTokens := min (current + add) s.bucket.burstSize
  { s with
    bucket := { s.bucket with tokens := newTokens, lastUpdateNs := nowNs }
    holder := none
    added := s.added + (newTokens.toNat - current.toNat) }.goto c (.updated requested)

/-- The exchange that succeeds, and the return. -/
def grant (s : Shared ι) (c : ι) (requested : UInt32) : Shared ι :=
  let consumed := min requested.toUInt64 s.bucket.tokens
  { s with
    bucket := { s.bucket with tokens := s.bucket.tokens - consumed }
    granted := s.granted + consumed.toUInt32.toNat }.goto c .idle

/-- One access of caller `c`, if that is what it does next. -/
def access (s : Shared ι) (c : ι) : Access → Option (Shared ι)
  | .call requested =>
    match s.pc c with
    | .idle => some (s.goto c (.called requested))
    | _ => none
  | .lock nowNs =>
    match s.pc c with
    | .called requested =>
      if s.holder.isNone then some (s.lockRefill c requested nowNs) else none
    | _ => none
  | .refillLoad =>
    match s.pc c with
    | .locked requested nowNs add =>
      some (s.goto c (.refilling requested nowNs add s.bucket.tokens))
    | _ => none
  | .refillStore =>
    match s.pc c with
    | .refilling requested nowNs add current =>
      some (s.storeRefill c requested nowNs add current)
    | _ => none
  | .load =>
    match s.pc c with
    | .updated requested => some (s.expect c requested)
    | _ => none
  | .exchange spurious =>
    match s.pc c with
    | .exchanging requested expected =>
      -- a failure loads `tokens_` again
      if s.bucket.tokens = expected ∧ spurious = false then some (s.grant c requested)
      else some (s.expect c requested)
    | _ => none

/-- A step of the callers; one that cannot take its access waits. -/
def step (s : Shared ι) (x : ι × Access) : Shared ι :=
  (s.access x.1 x.2).getD s

end Shared

end TrafficGen.TokenBucket
