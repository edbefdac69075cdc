import BulkLoad.Api.Error

/-!
# Waiting between attempts

After a failed attempt the next one waits; the wait starts at an initial interval, doubles with each
failure and never exceeds a maximal interval. When the retries are used up the error of the first
attempt is reported, since later failures mostly follow from it.
-/

namespace BulkLoad.Api

/-- A span of time in nanoseconds, of less than `2 ^ 64` seconds. -/
structure Span where
  nanos : Nat
  lt_limit : nanos < 0x10000000000000000 * 1000000000
deriving DecidableEq

namespace Span

/-- The longest span. -/
def longest : Span := ⟨0x10000000000000000 * 1000000000 - 1, by decide⟩

/-- The span of a number of nanoseconds, or the longest. -/
def ofNanos (n : Nat) : Span :=
  if h : n < 0x10000000000000000 * 1000000000 then ⟨n, h⟩ else longest

def ofMillis (n : Nat) : Span := ofNanos (n * 1000000)

/-- The whole milliseconds of a span. -/
def millis (s : Span) : Nat := s.nanos / 1000000

/-- Twice the span, or the longest. -/
def double (s : Span) : Span := ofNanos (2 * s.nanos)

/-- The shorter of two spans. -/
def shorter (a b : Span) : Span := if b.nanos < a.nanos then b else a

end Span

/-- How often and after which waits a call is tried again. -/
structure RetryPolicy where
  /-- The number of attempts after the first. -/
  limit : Nat
  initial : Span
  maximal : Span
deriving DecidableEq

/-- What follows from a failed attempt. -/
inductive RetryDecision
  | retry (wait : Span)
  | giveUp (e : Error)
deriving DecidableEq

/-- The failures of a call so far. -/
structure RetryState where
  /-- The number of failed attempts. -/
  failures : Nat
  /-- The wait after the next failure. -/
  wait : Span
  /-- The error of the first attempt, until it is reported. -/
  first : Option Error
deriving DecidableEq

namespace RetryState

/-- Before the first attempt. -/
def start (policy : RetryPolicy) : RetryState :=
  ⟨0, policy.initial.shorter policy.maximal, none⟩

/-- Takes note of a failed attempt. -/
def record (policy : RetryPolicy) (state : RetryState) (e : Error) :
    RetryDecision × RetryState :=
  let first := state.first.getD e
  let failures := state.failures + 1
  if policy.limit < failures then (.giveUp first, { state with failures, first := none })
  else
    (.retry state.wait, ⟨failures, state.wait.double.shorter policy.maximal, some first⟩)

/-- Takes note of failed attempts, one after the other: what follows from each, and the state then.
-/
def recordAll (policy : RetryPolicy) (state : RetryState) :
    List Error → List (RetryDecision × RetryState)
  | [] => []
  | e :: rest => state.record policy e :: recordAll policy (state.record policy e).2 rest

end RetryState

end BulkLoad.Api
