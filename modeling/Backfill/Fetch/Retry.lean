/-
This file repeats an operation after failures that may pass, with growing delays.
-/

import Backfill.Event.Basic

namespace Backfill

/-- A span of time in nanoseconds. -/
structure Duration where
  nanoseconds : Nat
deriving DecidableEq, Repr

/-- A span of whole milliseconds. -/
def Duration.ofMilliseconds (count : Nat) : Duration :=
  ⟨count * 1000000⟩

/-- The whole milliseconds of a span. -/
def Duration.milliseconds (span : Duration) : Nat :=
  span.nanoseconds / 1000000

/-- A policy says how often to try, and how long to wait between tries. -/
structure RetryPolicy where
  firstDelay : Duration
  longestDelay : Duration
  factor : Float
  jitter : Float
  attempts : Nat

namespace RetryPolicy

/-- A value within two bounds. -/
def clamp (lower upper value : Float) : Float :=
  if value < lower then lower else if upper < value then upper else value

/-- The larger of a value and a bound, and the bound for a value that is no number. -/
def atLeast (bound value : Float) : Float :=
  if value.isNaN || value < bound then bound else value

/-- The smaller of a value and a bound, and the bound for a value that is no number. -/
def atMost (bound value : Float) : Float :=
  if value.isNaN || bound < value then bound else value

/-- A policy never shrinks its delays, varies them by at most their length, and tries at least
once. -/
def make (firstDelay longestDelay : Duration) (factor jitter : Float) (attempts : Nat) :
    RetryPolicy :=
  ⟨firstDelay, longestDelay, atLeast 1.0 factor, clamp 0.0 1.0 jitter, max attempts 1⟩

/-- The policy for blocks unless configured otherwise. -/
def standard : RetryPolicy :=
  ⟨.ofMilliseconds 200, .ofMilliseconds 5000, 2.0, 0.1, 3⟩

/-- A power by repeated squaring, in at most `steps` steps. -/
def power : Nat → Float → Nat → Float → Float
  | 0, _, _, result => result
  | steps + 1, base, exponent, result =>
      let result := if exponent % 2 = 1 then result * base else result
      if exponent / 2 = 0 then result else power steps (base * base) (exponent / 2) result

/-- The milliseconds of a span as one word. -/
def wordMilliseconds (span : Duration) : Float :=
  (UInt64.ofNat (min span.milliseconds (Nat.pow 2 64 - 1))).toFloat

/-- The exponent from which on every delay is the longest. -/
def greatestExponent : Nat := 31

/-- The delay after a failed attempt, counted from zero, in milliseconds before it is varied. -/
def baseDelay (policy : RetryPolicy) (attempt : Nat) : Float :=
  let grown := wordMilliseconds policy.firstDelay *
    power 6 policy.factor (min attempt greatestExponent) 1.0
  atMost (wordMilliseconds policy.longestDelay) grown

/-- The delay in whole milliseconds, varied by a draw between minus one and one. -/
def delay (policy : RetryPolicy) (draw : Float) (attempt : Nat) : Nat :=
  let base := policy.baseDelay attempt
  let varied :=
    if 0.0 < policy.jitter && 0.0 < base then base + base * policy.jitter * draw else base
  (atLeast 0.0 varied).toUInt64.toNat

end RetryPolicy

/-- What became of a repeated operation: the outcome of its last call, the number of calls, the
delays between them, and the events. -/
structure RetryRun (ε α : Type) where
  result : Except ε α
  attempts : Nat
  waits : List Nat
  events : List Event

namespace RetryRun

variable {ε α : Type}

/-- A further call was made before this run. -/
def after (wait : Nat) (event : Event) (run : RetryRun ε α) : RetryRun ε α :=
  { run with waits := wait :: run.waits, events := event :: run.events }

end RetryRun

/-- How an error is handled: whether trying again may help, and its wording. -/
structure RetryView (ε : Type) where
  isTransient : ε → Bool
  message : ε → String

namespace RetryPolicy

variable {ε α : Type}

/-- The event of a success that took more than one call. -/
def successEvents (calls : Nat) : List Event :=
  if calls = 0 then []
  else [⟨.debug, .retry, "operation succeeded after retries",
    [("total_attempts", .natural (calls + 1)), ("retries", .natural calls)]⟩]

/-- Calls from number `calls` on, with at most `left` of them after this one. -/
def runFrom (policy : RetryPolicy) (draw : Nat → Float) (view : RetryView ε)
    (operation : Nat → Except ε α) : Nat → Nat → RetryRun ε α
  | left, calls =>
      match operation calls with
      | .ok value => ⟨.ok value, calls + 1, [], successEvents calls⟩
      | .error error =>
          if !view.isTransient error then ⟨.error error, calls + 1, [], []⟩
          else
            match left with
            | 0 =>
                ⟨.error error, calls + 1, [],
                  [⟨.warn, .retry, "operation failed after all retry attempts",
                    [("attempt", .natural (calls + 1)),
                      ("max_attempts", .natural (max policy.attempts 1)),
                      ("error", .text (view.message error))]⟩]⟩
            | left + 1 =>
                let wait := policy.delay (draw calls) calls
                (policy.runFrom draw view operation left (calls + 1)).after wait
                  ⟨.debug, .retry, "retrying operation after failure",
                    [("attempt", .natural (calls + 1)), ("delay_ms", .natural wait),
                      ("error", .text (view.message error))]⟩

/-- The operation is called until it succeeds, fails for good, or has used up its attempts. -/
def run (policy : RetryPolicy) (draw : Nat → Float) (view : RetryView ε)
    (operation : Nat → Except ε α) : RetryRun ε α :=
  policy.runFrom draw view operation (max policy.attempts 1 - 1) 0

end RetryPolicy

end Backfill
