/-
This file follows the workers of a window through every order of their steps. No order loses or
repeats a height, and none comes to a halt before all answers are collected.
-/

import Backfill.Acquisition.Pool
import Backfill.Proofs.Height.Windows

namespace Backfill

namespace Pool

variable {room workers : Nat} {heights : List Nat} {pool next last : Pool} {move : Move}
  {moves : List Move}

/-- The pool after moves, if each of them can be made in its turn. -/
def follow? (room : Nat) : List Move → Pool → Option Pool
  | [], pool => some pool
  | move :: rest, pool => (pool.step? room move).bind (follow? room rest)

/-- No move can be made any more. -/
def Stuck (room : Nat) (pool : Pool) : Prop :=
  ∀ move, pool.step? room move = none

/-- The heights that workers asked for so far. -/
def asked (pool : Pool) : List Nat :=
  pool.held ++ (pool.answers ++ pool.collected)

/-- In a pool of workers that share heights every height is in one place, and no queue holds more
than it has room for. -/
structure Sound (room workers : Nat) (heights : List Nat) (pool : Pool) : Prop where
  contents : pool.contents.Perm heights
  workers : pool.workers = workers
  jobs : pool.jobs.length ≤ room
  answers : pool.answers.length ≤ room

theorem startSound (room workers : Nat) (heights : List Nat) :
    Sound room workers heights (start workers heights) where
  contents := by simp [contents, start]
  workers := by simp [Pool.workers, start]
  jobs := Nat.zero_le _
  answers := Nat.zero_le _

/-- A queue gains a height only if it has room for it. -/
theorem stepQueues (made : pool.step? room move = some next) (jobs : pool.jobs.length ≤ room)
    (answers : pool.answers.length ≤ room) :
    next.jobs.length ≤ room ∧ next.answers.length ≤ room := by
  cases move with
  | hand =>
      simp only [step?, hand?] at made
      split at made
      · split at made
        · obtain rfl := Option.some.inj made
          rename_i free
          refine ⟨?_, answers⟩
          simp only [List.length_append, List.length_cons, List.length_nil]
          omega
        · cases made
      · cases made
  | take =>
      simp only [step?, take?] at made
      split at made
      · rename_i first queued _
        obtain rfl := Option.some.inj made
        rw [queued, List.length_cons] at jobs
        exact ⟨Nat.le_of_succ_le jobs, answers⟩
      · cases made
  | answer place =>
      simp only [step?, answer?] at made
      split at made
      · split at made
        · obtain rfl := Option.some.inj made
          rename_i free
          refine ⟨jobs, ?_⟩
          simp only [List.length_append, List.length_cons, List.length_nil]
          omega
        · cases made
      · cases made
  | collect =>
      simp only [step?, collect?] at made
      split at made
      · rename_i queued
        obtain rfl := Option.some.inj made
        rw [queued, List.length_cons] at answers
        exact ⟨jobs, Nat.le_of_succ_le answers⟩
      · cases made

theorem stepSound (made : pool.step? room move = some next)
    (sound : Sound room workers heights pool) : Sound room workers heights next where
  contents := (stepKeeps made).contents.trans sound.contents
  workers := (stepKeeps made).workers.trans sound.workers
  jobs := (stepQueues made sound.jobs sound.answers).1
  answers := (stepQueues made sound.jobs sound.answers).2

theorem followSound (reached : follow? room moves pool = some last)
    (sound : Sound room workers heights pool) : Sound room workers heights last := by
  induction moves generalizing pool with
  | nil =>
      obtain rfl := Option.some.inj reached
      exact sound
  | cons move rest inductionHypothesis =>
      obtain ⟨next, made, reached⟩ := Option.bind_eq_some_iff.mp reached
      exact inductionHypothesis reached (stepSound made sound)

/-- Every move takes one step off what is still to be done. -/
theorem followEffort (reached : follow? room moves pool = some last) :
    moves.length + last.effort = pool.effort := by
  induction moves generalizing pool with
  | nil =>
      obtain rfl := Option.some.inj reached
      simp
  | cons move rest inductionHypothesis =>
      obtain ⟨next, made, reached⟩ := Option.bind_eq_some_iff.mp reached
      have shorter := (stepKeeps made).effort
      have left := inductionHypothesis reached
      simp only [List.length_cons]
      omega

/-- A pool goes on by a move. -/
theorem advanceMove (made : pool.advance? room move = some next) :
    ∃ chosen, pool.step? room chosen = some next := by
  simp only [advance?, anyStep?, Option.or_eq_some_iff] at made
  rcases made with made | ⟨_, made | ⟨_, made | ⟨_, made | ⟨_, made⟩⟩⟩⟩
  · exact ⟨move, made⟩
  · exact ⟨.collect, made⟩
  · exact ⟨.answer 0, made⟩
  · exact ⟨.take, made⟩
  · exact ⟨.hand, made⟩

theorem anyStepOfStuck (stuck : Stuck room pool) : pool.anyStep? room = none := by
  simp only [anyStep?, Option.or_eq_none_iff]
  exact ⟨stuck .collect, stuck (.answer 0), stuck .take, stuck .hand⟩

/-- A pool comes to a halt only when all heights are collected. -/
theorem stuckCollected (roomy : 0 < room) (staffed : 0 < workers)
    (sound : Sound room workers heights pool) (stuck : Stuck room pool) :
    pool.collected.Perm heights := by
  rw [← collectedOfStuck roomy (sound.workers ▸ staffed) (anyStepOfStuck stuck)]
  exact sound.contents

/-- Once no height can come further, no move can be made. -/
theorem stuckOfAnyStep (stuck : pool.anyStep? room = none) : Stuck room pool := by
  simp only [anyStep?, Option.or_eq_none_iff] at stuck
  obtain ⟨noAnswer, noHeld, noJob, noWaiting⟩ := stuck
  intro move
  cases move with
  | hand => exact noWaiting
  | take => exact noJob
  | answer place =>
      -- No answer waits, so a worker that holds a height could answer it unless there is no room.
      simp only [step?, answer?] at noHeld ⊢
      split
      · rename_i inside
        rw [dif_pos (by omega)] at noHeld
        split at noHeld
        · cases noHeld
        · rename_i full
          rw [if_neg full]
      · rfl
  | collect => exact noAnswer

/-- Whatever a schedule prefers, it leads through moves that can be made to a halt. -/
theorem runReached (room : Nat) (schedule : Nat → Move) (count : Nat) (pool : Pool) :
    ∃ moves, follow? room moves pool = some (run room schedule count pool) ∧
      Stuck room (run room schedule count pool) := by
  fun_induction run room schedule count pool with
  | case1 count pool halted =>
      simp only [advance?, Option.or_eq_none_iff] at halted
      exact ⟨[], rfl, stuckOfAnyStep halted.2⟩
  | case2 count pool next made _ inductionHypothesis =>
      obtain ⟨moves, reached, stuck⟩ := inductionHypothesis
      obtain ⟨move, moved⟩ := advanceMove made
      exact ⟨move :: moves, by simp [follow?, moved, reached], stuck⟩

/-- What is asked for is part of the heights, and nothing is asked for twice. -/
theorem soundAsked (sound : Sound room workers heights pool) (distinct : heights.Nodup) :
    pool.asked.Nodup ∧ pool.asked ⊆ heights := by
  have part : pool.asked.Sublist pool.contents :=
    ((List.Sublist.refl _).append_left _).trans
      ((List.sublist_append_right _ _).trans (List.sublist_append_right _ _))
  exact ⟨(sound.contents.nodup_iff.mpr distinct).sublist part,
    fun height inside => sound.contents.subset (part.subset inside)⟩

/-- A schedule that prefers moves that can be made leads where they lead. -/
theorem runFollow {schedule : Nat → Move} {count : Nat}
    (reached : follow? room moves pool = some last) (stuck : Stuck room last)
    (agrees : ∀ place (inside : place < moves.length), schedule (count + place) = moves[place]) :
    run room schedule count pool = last := by
  induction moves generalizing pool count with
  | nil =>
      obtain rfl := Option.some.inj reached
      have halted : pool.advance? room (schedule count) = none := by
        simp [advance?, stuck (schedule count), anyStepOfStuck stuck]
      rw [run]
      split <;> simp_all
  | cons move rest inductionHypothesis =>
      obtain ⟨next, made, reached⟩ := Option.bind_eq_some_iff.mp reached
      have first : schedule count = move := agrees 0 (Nat.succ_pos _)
      have moved : pool.advance? room (schedule count) = some next := by
        simp [advance?, first, made]
      rw [run]
      split
      · simp_all
      · rename_i found
        obtain rfl := Option.some.inj (moved.symm.trans found)
        refine inductionHypothesis reached fun place inside => ?_
        have later := agrees (place + 1) (Nat.succ_lt_succ inside)
        rwa [← Nat.add_assoc, Nat.add_right_comm] at later

end Pool

namespace Crew

/-- The pool of a window after moves, if each of them can be made in its turn. -/
def reach? (crew : Crew) (window : HeightRange) (moves : List Pool.Move) : Option Pool :=
  Pool.follow? (crew.room window) moves (.start (crew.share window) window.heights)

/-- In whatever order the steps of its workers follow each other, a window halts only with each of
its heights collected once. -/
structure Drains (crew : Crew) (window : HeightRange) : Prop where
  sound : ∀ {moves pool}, crew.reach? window moves = some pool →
    pool.Sound (2 * crew.share window) (crew.share window) window.heights
  asked : ∀ {moves pool}, crew.reach? window moves = some pool →
    pool.asked.Nodup ∧ pool.asked ⊆ window.heights
  effort : ∀ {moves pool}, crew.reach? window moves = some pool →
    moves.length + pool.effort = 4 * window.size
  live : ∀ {moves pool}, crew.reach? window moves = some pool →
    pool.Stuck (2 * crew.share window) → pool.collected.Perm window.heights
  scheduled : ∀ {moves pool}, crew.reach? window moves = some pool →
    pool.Stuck (2 * crew.share window) →
    ∃ schedule, arrivals ⟨crew.workers, schedule⟩ window = pool.collected.reverse
  reached : ∃ moves pool, crew.reach? window moves = some pool ∧
    pool.Stuck (2 * crew.share window) ∧ crew.arrivals window = pool.collected.reverse
  arrived : (crew.arrivals window).Perm window.heights

theorem drains (crew : Crew) (window : HeightRange) : crew.Drains window := by
  have staffed := crew.sharePositive window
  have sound {moves : List Pool.Move} {pool : Pool}
      (reached : crew.reach? window moves = some pool) :
      pool.Sound (2 * crew.share window) (crew.share window) window.heights :=
    Pool.followSound reached (Pool.startSound _ _ _)
  obtain ⟨moves, reached, stuck⟩ := Pool.runReached (crew.room window) (crew.schedule window) 0
    (.start (crew.share window) window.heights)
  refine ⟨sound, fun reached => Pool.soundAsked (sound reached) window.heightsNodup, ?_,
    fun reached => Pool.stuckCollected (by omega) staffed (sound reached), ?_,
    ⟨moves, _, reached, stuck, rfl⟩, crew.arrivalsPerm window⟩
  · intro moves pool reached
    rw [Pool.followEffort reached]
    simp [Pool.effort, Pool.start, window.lengthHeights]
  · intro moves pool reached stuck
    refine ⟨fun _ place => moves.getD place .hand, ?_⟩
    have ran : Pool.run (crew.room window) (fun place => moves.getD place .hand) 0
        (.start (crew.share window) window.heights) = pool :=
      Pool.runFollow reached stuck fun place inside => by simp [inside]
    exact congrArg (fun final : Pool => final.collected.reverse) ran

end Crew

end Backfill
