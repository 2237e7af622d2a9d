/-
This file shows where the repetition of an operation stops: at its first outcome after which another
call cannot help, or when it was called as often as its policy allows. Between two calls there is one
delay, and there is none after the last call.
-/

import Backfill.Fetch.Retry
import Mathlib.Data.List.Range

namespace Backfill

variable {ε α : Type}

namespace RetryView

/-- An outcome after which another call may help. -/
def Retries (view : RetryView ε) (outcome : Except ε α) : Prop :=
  ∃ error, outcome = .error error ∧ view.isTransient error = true

/-- The first of the outcomes after which another call cannot help has a number. -/
def SettlesAt (view : RetryView ε) (outcomes : Nat → Except ε α) (settled : Nat) : Prop :=
  ¬view.Retries (outcomes settled) ∧ ∀ earlier < settled, view.Retries (outcomes earlier)

theorem retriesError {view : RetryView ε} {error : ε} :
    view.Retries (.error error : Except ε α) ↔ view.isTransient error = true := by
  simp [Retries]

theorem notRetriesOk (view : RetryView ε) (value : α) : ¬view.Retries (.ok value) := by
  simp [Retries]

end RetryView

namespace RetryPolicy

/-- The most calls that a policy allows; there is always one. -/
def limit (policy : RetryPolicy) : Nat :=
  max policy.attempts 1

/-- The delays after a number of calls, from a first one on. -/
def delays (policy : RetryPolicy) (draw : Nat → Float) (first count : Nat) : List Nat :=
  (List.range' first count).map fun number => policy.delay (draw number) number

section Runs

variable {policy : RetryPolicy} {draw : Nat → Float} {view : RetryView ε}
  {outcomes : Nat → Except ε α}

/-- A run whose first call has a number ends after some more calls, at an outcome after which another
call cannot help or when none is left. -/
structure Ends (policy : RetryPolicy) (draw : Nat → Float) (view : RetryView ε)
    (outcomes : Nat → Except ε α) (left first more : Nat) (run : RetryRun ε α) : Prop where
  within : more ≤ left
  attempts : run.attempts = first + more + 1
  result : run.result = outcomes (first + more)
  waits : run.waits = policy.delays draw first more
  retried : ∀ number < more, view.Retries (outcomes (first + number))
  settled : more < left → ¬view.Retries (outcomes (first + more))

/-- A run that ends with its first call. -/
theorem endsAtOnce {left first : Nat} {run : RetryRun ε α} (attempts : run.attempts = first + 1)
    (result : run.result = outcomes first) (waits : run.waits = [])
    (settled : 0 < left → ¬view.Retries (outcomes first)) :
    Ends policy draw view outcomes left first 0 run where
  within := Nat.zero_le _
  attempts := attempts
  result := result
  waits := waits
  retried := by simp
  settled := settled

/-- A run that waits after its first call goes on as a run from the next call on. -/
theorem endsLater {left first more : Nat} {run : RetryRun ε α} (event : Event)
    (again : view.Retries (outcomes first))
    (ends : Ends policy draw view outcomes left (first + 1) more run) :
    Ends policy draw view outcomes (left + 1) first (more + 1)
      (run.after (policy.delay (draw first) first) event) where
  within := Nat.succ_le_succ ends.within
  attempts := by
    have attempts := ends.attempts
    simp only [RetryRun.after]
    omega
  result := by
    rw [RetryRun.after, ends.result]
    congr 1
    omega
  waits := by
    rw [RetryRun.after, ends.waits, delays, delays, List.range'_succ, List.map_cons]
  retried := by
    intro number below
    cases number with
    | zero => exact again
    | succ number =>
        have earlier := ends.retried number (by omega)
        rwa [show first + 1 + number = first + (number + 1) by omega] at earlier
  settled := by
    intro below
    have last := ends.settled (by omega)
    rwa [show first + 1 + more = first + (more + 1) by omega] at last

theorem runFromEnds (policy : RetryPolicy) (draw : Nat → Float) (view : RetryView ε)
    (outcomes : Nat → Except ε α) (left first : Nat) :
    ∃ more, Ends policy draw view outcomes left first more
      (policy.runFrom draw view outcomes left first) := by
  induction left generalizing first with
  | zero =>
      refine ⟨0, ?_⟩
      unfold runFrom
      split
      · rename_i value outcome
        exact endsAtOnce rfl outcome.symm rfl (by simp)
      · rename_i error outcome
        split
        · exact endsAtOnce rfl outcome.symm rfl (by simp)
        · exact endsAtOnce rfl outcome.symm rfl (by simp)
  | succ left inductionHypothesis =>
      unfold runFrom
      split
      · rename_i value outcome
        refine ⟨0, endsAtOnce rfl outcome.symm rfl fun _ => ?_⟩
        rw [outcome]
        exact view.notRetriesOk value
      · rename_i error outcome
        split
        · rename_i permanent
          refine ⟨0, endsAtOnce rfl outcome.symm rfl fun _ => ?_⟩
          rw [outcome, RetryView.retriesError]
          simpa using permanent
        · rename_i transient
          obtain ⟨more, ends⟩ := inductionHypothesis (first + 1)
          refine ⟨more + 1, endsLater _ ?_ ends⟩
          rw [outcome, RetryView.retriesError]
          simpa using transient

end Runs

end RetryPolicy

/-- What repeating an operation comes to: the outcome of its last call, and the number of calls. -/
structure RetryOutcome (ε α : Type) where
  result : Except ε α
  attempts : Nat

namespace RetryPolicy

section Effects

variable {m : Type → Type} [Monad m]

/-- Calls an operation that has effects, and counts its calls from a number on up to the limit at
most. -/
def repeatFrom (policy : RetryPolicy) (draw : Nat → Float) (view : RetryView ε)
    (call : m (Except ε α)) (pause : Nat → m Unit) (calls : Nat) : m (RetryOutcome ε α) := do
  match ← call with
  | .ok value => return ⟨.ok value, calls + 1⟩
  | .error error =>
      if !view.isTransient error then return ⟨.error error, calls + 1⟩
      else if reached : policy.limit ≤ calls + 1 then return ⟨.error error, calls + 1⟩
      else do
        pause (policy.delay (draw calls) calls)
        policy.repeatFrom draw view call pause (calls + 1)
termination_by policy.limit - calls

/-- Repeats an operation that has effects. -/
def repeatCall (policy : RetryPolicy) (draw : Nat → Float) (view : RetryView ε)
    (call : m (Except ε α)) (pause : Nat → m Unit) : m (RetryOutcome ε α) :=
  policy.repeatFrom draw view call pause 0

/-- Repeats an operation that has effects, where only the outcome of the last call is asked for. -/
def repeatPlain (policy : RetryPolicy) (draw : Nat → Float) (view : RetryView ε)
    (call : m (Except ε α)) (pause : Nat → m Unit) : m (Except ε α) :=
  RetryOutcome.result <$> policy.repeatCall draw view call pause

end Effects

end RetryPolicy

/-- What is done while an operation is repeated: it is called, or there is a delay. -/
inductive RetryDeed
  | call
  | wait (milliseconds : Nat)
deriving DecidableEq, Repr

namespace RetryDeed

/-- The operation that has given outcomes in turn, and notes its calls. -/
def perform (outcomes : Nat → Except ε α) : StateM (List RetryDeed) (Except ε α) := fun deeds =>
  (outcomes (deeds.count .call), deeds ++ [.call])

/-- A delay that is noted. -/
def pause (milliseconds : Nat) : StateM (List RetryDeed) Unit := fun deeds =>
  ((), deeds ++ [.wait milliseconds])

theorem performBind {β : Type} (outcomes : Nat → Except ε α)
    (next : Except ε α → StateM (List RetryDeed) β) (deeds : List RetryDeed) :
    (perform outcomes >>= next) deeds =
      next (outcomes (deeds.count .call)) (deeds ++ [.call]) :=
  rfl

theorem pauseBind {β : Type} (milliseconds : Nat) (next : Unit → StateM (List RetryDeed) β)
    (deeds : List RetryDeed) :
    (pause milliseconds >>= next) deeds = next () (deeds ++ [.wait milliseconds]) :=
  rfl

/-- A call, and then another one after each of some delays. -/
def between (waits : List Nat) : List RetryDeed :=
  .call :: waits.flatMap fun wait => [.wait wait, .call]

theorem betweenCons (wait : Nat) (waits : List Nat) :
    between (wait :: waits) = .call :: .wait wait :: between waits :=
  rfl

theorem countBetween (waits : List Nat) : (between waits).count .call = waits.length + 1 := by
  induction waits with
  | nil => rfl
  | cons wait rest inductionHypothesis =>
      rw [betweenCons, List.count_cons_self, List.count_cons_of_ne (by simp), inductionHypothesis,
        List.length_cons]

end RetryDeed

namespace RetryPolicy

variable {policy : RetryPolicy} {draw : Nat → Float} {view : RetryView ε}
  {outcomes : Nat → Except ε α}

/-- The loop makes the calls and the delays that the run tells, and comes to what the run does. -/
theorem repeatFromEq {left first : Nat} (remaining : first + left + 1 = policy.limit)
    {deeds : List RetryDeed} (made : deeds.count .call = first) :
    let run := policy.runFrom draw view outcomes left first
    policy.repeatFrom draw view (RetryDeed.perform outcomes) RetryDeed.pause first deeds =
      (⟨run.result, run.attempts⟩, deeds ++ RetryDeed.between run.waits) := by
  induction left generalizing first deeds with
  | zero =>
      have reached : policy.limit ≤ first + 1 := by omega
      unfold repeatFrom runFrom
      rw [RetryDeed.performBind, made]
      cases outcomes first with
      | ok value => rfl
      | error error =>
          dsimp only
          rw [dif_pos reached]
          cases view.isTransient error <;> rfl
  | succ left inductionHypothesis =>
      have further : ¬policy.limit ≤ first + 1 := by omega
      unfold repeatFrom runFrom
      rw [RetryDeed.performBind, made]
      cases outcomes first with
      | ok value => rfl
      | error error =>
          dsimp only
          rw [dif_neg further]
          cases view.isTransient error with
          | false => rfl
          | true =>
              simp only [Bool.not_true, Bool.false_eq_true, if_false, RetryDeed.pauseBind]
              rw [inductionHypothesis (by omega) (by simp [made])]
              simp [RetryRun.after, RetryDeed.betweenCons]

/-- An operation is called up to the first outcome after which another call cannot help, or as often
as the policy allows. -/
theorem retryStops (policy : RetryPolicy) (draw : Nat → Float) (view : RetryView ε)
    (outcomes : Nat → Except ε α) :
    let run := policy.run draw view outcomes
    let most := max 1 policy.attempts
    let deeds := RetryDeed.between (policy.delays draw 0 (run.attempts - 1))
    (∀ settled, view.SettlesAt outcomes settled → run.attempts = min (settled + 1) most) ∧
      ((∀ number, view.Retries (outcomes number)) → run.attempts = most) ∧
      run.result = outcomes (run.attempts - 1) ∧
      run.waits = policy.delays draw 0 (run.attempts - 1) ∧
      deeds.count .call = run.attempts ∧
      policy.repeatCall draw view (RetryDeed.perform outcomes) RetryDeed.pause [] =
        (⟨run.result, run.attempts⟩, deeds) ∧
      policy.repeatPlain draw view (RetryDeed.perform outcomes) RetryDeed.pause [] =
        (run.result, deeds) := by
  intro run most deeds
  obtain ⟨more, ends⟩ := runFromEnds policy draw view outcomes (max policy.attempts 1 - 1) 0
  change Ends policy draw view outcomes _ 0 more run at ends
  have attempts := ends.attempts
  have within := ends.within
  have waits : run.waits = policy.delays draw 0 (run.attempts - 1) := by
    rw [ends.waits, attempts]
    simp
  have called : policy.repeatCall draw view (RetryDeed.perform outcomes) RetryDeed.pause [] =
      (⟨run.result, run.attempts⟩, deeds) := by
    have made : policy.repeatCall draw view (RetryDeed.perform outcomes) RetryDeed.pause [] = _ :=
      repeatFromEq (show 0 + (max policy.attempts 1 - 1) + 1 = policy.limit by
        rw [limit]
        omega) rfl
    rw [made, List.nil_append]
    show (_, RetryDeed.between run.waits) = _
    rw [waits]
    rfl
  refine ⟨?_, ?_, ?_, waits, ?_, called, ?_⟩
  · intro settled settles
    obtain ⟨last, earlier⟩ := settles
    rcases Nat.lt_trichotomy more settled with below | same | above
    · -- The calls were used up before the outcome that settles.
      have used : ¬more < max policy.attempts 1 - 1 := by
        intro spare
        have stopped := ends.settled spare
        rw [Nat.zero_add] at stopped
        exact stopped (earlier more below)
      omega
    · omega
    · have retried := ends.retried settled above
      rw [Nat.zero_add] at retried
      exact absurd retried last
  · intro all
    have used : ¬more < max policy.attempts 1 - 1 := fun spare => ends.settled spare (all _)
    omega
  · rw [ends.result, attempts]
    congr 1
  · rw [RetryDeed.countBetween, delays, List.length_map, List.length_range']
    omega
  · show (fun answer : RetryOutcome ε α × List RetryDeed => (answer.1.result, answer.2))
      (policy.repeatCall draw view (RetryDeed.perform outcomes) RetryDeed.pause []) = _
    rw [called]

/-- An operation that fails twice and then succeeds is called three times, and one that fails for
ever is called once if no attempts are allowed. -/
theorem retryStopsThird (draw : Nat → Float) :
    let view : RetryView Bool := ⟨id, fun _ => "busy"⟩
    let outcomes : Nat → Except Bool Nat := fun number =>
      if number < 2 then .error true else .ok number
    let failures : Nat → Except Bool Nat := fun _ => .error true
    let patient := RetryPolicy.make (.ofMilliseconds 1) (.ofMilliseconds 5) 2.0 0.0 5
    let strict := { patient with attempts := 0 }
    (view.SettlesAt outcomes 2 ∧ (patient.run draw view outcomes).attempts = 3 ∧
        (patient.run draw view outcomes).result = .ok 2 ∧
        (patient.run draw view outcomes).waits = patient.delays draw 0 2) ∧
      (∀ number, view.Retries (failures number)) ∧
      (strict.run draw view failures).attempts = 1 ∧ (strict.run draw view failures).waits = [] := by
  intro view outcomes failures patient strict
  have settles : view.SettlesAt outcomes 2 := by
    refine ⟨view.notRetriesOk 2, fun earlier below => ?_⟩
    exact ⟨true, if_pos below, rfl⟩
  have fails : ∀ number, view.Retries (failures number) := fun _ => ⟨true, rfl, rfl⟩
  obtain ⟨reaches, _, result, waits, _⟩ := retryStops patient draw view outcomes
  obtain ⟨_, used, _, idle, _⟩ := retryStops strict draw view failures
  have third := reaches 2 settles
  have once := used fails
  change _ = 3 at third
  change _ = 1 at once
  rw [third] at result waits
  rw [once] at idle
  exact ⟨⟨settles, third, result, waits⟩, fails, once, idle⟩

end RetryPolicy

end Backfill
