/-
This file models the workers that fetch the heights of a window together. However their steps
follow each other, every height of the window is answered once.
-/

import Backfill.Height.Range

namespace Backfill

/-- Heights wait to be handed out, then in the queue of jobs, are held by a worker each, and wait in
the queue of answers until they are collected. -/
structure Pool where
  waiting : List Nat
  jobs : List Nat
  held : List Nat
  idle : Nat
  answers : List Nat
  /-- The heights that were collected, the last one first. -/
  collected : List Nat
deriving DecidableEq, Repr

namespace Pool

/-- A step hands out a height, gives one to an idle worker, answers one that a worker holds, or
collects an answer. -/
inductive Move
  | hand
  | take
  | answer (place : Nat)
  | collect
deriving DecidableEq, Repr

/-- At the start all heights wait and all workers are idle. -/
def start (workers : Nat) (heights : List Nat) : Pool :=
  ⟨heights, [], [], workers, [], []⟩

/-- Hands out the next height if the queue of jobs has room. -/
def hand? (room : Nat) (pool : Pool) : Option Pool :=
  match pool.waiting with
  | height :: rest =>
      if pool.jobs.length < room then
        some { pool with waiting := rest, jobs := pool.jobs ++ [height] }
      else none
  | [] => none

/-- An idle worker takes the first job. -/
def take? (pool : Pool) : Option Pool :=
  match pool.jobs, pool.idle with
  | height :: rest, idle + 1 =>
      some { pool with jobs := rest, idle, held := pool.held ++ [height] }
  | _, _ => none

/-- A worker answers the height that it holds if the queue of answers has room. -/
def answer? (room place : Nat) (pool : Pool) : Option Pool :=
  if inside : place < pool.held.length then
    if pool.answers.length < room then
      some { pool with
        held := pool.held.eraseIdx place
        idle := pool.idle + 1
        answers := pool.answers ++ [pool.held[place]] }
    else none
  else none

/-- The first answer is collected. -/
def collect? (pool : Pool) : Option Pool :=
  match pool.answers with
  | height :: rest => some { pool with answers := rest, collected := height :: pool.collected }
  | [] => none

/-- The pool after a step, if the step can be made with room for so many heights in each queue. -/
def step? (room : Nat) (pool : Pool) : Move → Option Pool
  | .hand => pool.hand? room
  | .take => pool.take?
  | .answer place => pool.answer? room place
  | .collect => pool.collect?

/-- The number of steps that the heights still have to make. -/
def effort (pool : Pool) : Nat :=
  4 * pool.waiting.length + 3 * pool.jobs.length + 2 * pool.held.length + pool.answers.length

/-- All heights of a pool, wherever they are. -/
def contents (pool : Pool) : List Nat :=
  pool.waiting ++ (pool.jobs ++ (pool.held ++ (pool.answers ++ pool.collected)))

/-- The number of workers of a pool. -/
def workers (pool : Pool) : Nat :=
  pool.idle + pool.held.length

/-- A step brings one height one place further, and changes neither the heights nor the workers. -/
structure Keeps (before after : Pool) : Prop where
  effort : after.effort + 1 = before.effort
  contents : after.contents.Perm before.contents
  workers : after.workers = before.workers

theorem permEraseIdx {heights : List Nat} {place : Nat} (inside : place < heights.length) :
    (heights[place] :: heights.eraseIdx place).Perm heights := by
  induction heights generalizing place with
  | nil => simp at inside
  | cons first rest inductionHypothesis =>
      cases place with
      | zero => simp
      | succ place =>
          simp only [List.length_cons, Nat.add_lt_add_iff_right] at inside
          simpa using (List.Perm.swap _ _ _).trans ((inductionHypothesis inside).cons first)

theorem handKeeps {room : Nat} {pool next : Pool} (made : pool.hand? room = some next) :
    Keeps pool next := by
  unfold hand? at made
  split at made
  · rename_i height rest waiting
    split at made
    · obtain rfl := Option.some.inj made
      refine ⟨?_, ?_, rfl⟩
      · simp only [effort, waiting, List.length_append, List.length_cons, List.length_nil]
        omega
      · simp only [contents, waiting, List.append_assoc, List.cons_append, List.nil_append]
        simpa only [List.append_assoc] using
          @List.perm_middle Nat height (rest ++ pool.jobs)
            (pool.held ++ (pool.answers ++ pool.collected))
    · cases made
  · cases made

theorem takeKeeps {pool next : Pool} (made : pool.take? = some next) : Keeps pool next := by
  unfold take? at made
  split at made
  · rename_i height rest idle jobs workers
    obtain rfl := Option.some.inj made
    refine ⟨?_, ?_, ?_⟩
    · simp only [effort, jobs, List.length_append, List.length_cons, List.length_nil]
      omega
    · simp only [contents, jobs, List.append_assoc, List.cons_append, List.nil_append]
      refine List.Perm.append_left _ ?_
      simpa only [List.append_assoc] using
        @List.perm_middle Nat height (rest ++ pool.held) (pool.answers ++ pool.collected)
    · simp only [Pool.workers, workers, List.length_append, List.length_cons, List.length_nil]
      omega
  · cases made

theorem answerKeeps {room place : Nat} {pool next : Pool}
    (made : pool.answer? room place = some next) : Keeps pool next := by
  unfold answer? at made
  split at made
  · rename_i inside
    split at made
    · obtain rfl := Option.some.inj made
      have erased := List.length_eraseIdx_of_lt inside
      refine ⟨?_, ?_, ?_⟩
      · simp only [effort, erased, List.length_append, List.length_cons, List.length_nil]
        omega
      · simp only [contents, List.append_assoc, List.cons_append, List.nil_append]
        refine List.Perm.append_left _ (List.Perm.append_left _ ?_)
        refine List.Perm.trans ?_ ((permEraseIdx inside).append_right _)
        simpa only [List.append_assoc, List.cons_append] using
          @List.perm_middle Nat pool.held[place] (pool.held.eraseIdx place ++ pool.answers)
            pool.collected
      · simp only [Pool.workers, erased]
        omega
    · cases made
  · cases made

theorem collectKeeps {pool next : Pool} (made : pool.collect? = some next) : Keeps pool next := by
  unfold collect? at made
  split at made
  · rename_i height rest answers
    obtain rfl := Option.some.inj made
    refine ⟨?_, ?_, rfl⟩
    · simp only [effort, answers, List.length_cons]
      omega
    · simp only [contents, answers, List.cons_append]
      refine List.Perm.append_left _ (List.Perm.append_left _ (List.Perm.append_left _ ?_))
      exact List.perm_middle
  · cases made

theorem stepKeeps {room : Nat} {pool next : Pool} {move : Move}
    (made : pool.step? room move = some next) : Keeps pool next := by
  cases move with
  | hand => exact handKeeps made
  | take => exact takeKeeps made
  | answer place => exact answerKeeps made
  | collect => exact collectKeeps made

/-- Some step that can be made; the heights that came furthest go first. -/
def anyStep? (room : Nat) (pool : Pool) : Option Pool :=
  pool.collect?.or ((pool.answer? room 0).or (pool.take?.or (pool.hand? room)))

/-- The pool after the preferred step, or after another one where that cannot be made. -/
def advance? (room : Nat) (move : Move) (pool : Pool) : Option Pool :=
  (pool.step? room move).or (pool.anyStep? room)

theorem anyStepKeeps {room : Nat} {pool next : Pool} (made : pool.anyStep? room = some next) :
    Keeps pool next := by
  simp only [anyStep?, Option.or_eq_some_iff] at made
  rcases made with made | ⟨_, made | ⟨_, made | ⟨_, made⟩⟩⟩
  · exact collectKeeps made
  · exact answerKeeps made
  · exact takeKeeps made
  · exact handKeeps made

theorem advanceKeeps {room : Nat} {move : Move} {pool next : Pool}
    (made : pool.advance? room move = some next) : Keeps pool next := by
  simp only [advance?, Option.or_eq_some_iff] at made
  rcases made with made | ⟨_, made⟩
  · exact stepKeeps made
  · exact anyStepKeeps made

theorem collectedOfStuck {room : Nat} {pool : Pool} (roomy : 0 < room)
    (staffed : 0 < pool.workers) (stuck : pool.anyStep? room = none) :
    pool.contents = pool.collected := by
  obtain ⟨waiting, jobs, held, idle, answers, collected⟩ := pool
  simp only [anyStep?, Option.or_eq_none_iff] at stuck
  obtain ⟨noAnswer, noHeld, noJob, noWaiting⟩ := stuck
  cases answers with
  | cons => simp [collect?] at noAnswer
  | nil =>
      cases held with
      | cons => simp [answer?, roomy] at noHeld
      | nil =>
          cases idle with
          | zero => simp [workers] at staffed
          | succ idle =>
              cases jobs with
              | cons => simp [take?] at noJob
              | nil =>
                  cases waiting with
                  | cons => simp [hand?, roomy] at noWaiting
                  | nil => rfl

/-- The pool when no step can be made any more, by a schedule that prefers a step at each point. -/
def run (room : Nat) (schedule : Nat → Move) (count : Nat) (pool : Pool) : Pool :=
  match made : pool.advance? room (schedule count) with
  | none => pool
  | some next =>
      have := (advanceKeeps made).effort
      run room schedule (count + 1) next
termination_by pool.effort
decreasing_by omega

theorem runCollected {room : Nat} {schedule : Nat → Move} {count : Nat} {pool : Pool}
    (roomy : 0 < room) (staffed : 0 < pool.workers) :
    (run room schedule count pool).collected.Perm pool.contents := by
  fun_induction run room schedule count pool with
  | case1 count pool stuck =>
      simp only [advance?, Option.or_eq_none_iff] at stuck
      rw [collectedOfStuck roomy staffed stuck.2]
  | case2 count pool next made _ inductionHypothesis =>
      have keeps := advanceKeeps made
      exact (inductionHypothesis (keeps.workers ▸ staffed)).trans keeps.contents

end Pool

/-- A schedule says which step the workers of a window prefer at each point. -/
abbrev Schedule := HeightRange → Nat → Pool.Move

/-- The schedule by which answers are collected as soon as they are there. -/
def Schedule.steady : Schedule :=
  fun _ _ => .collect

/-- A crew has so many workers, whose steps follow a schedule. -/
structure Crew where
  workers : Nat
  schedule : Schedule

namespace Crew

/-- The workers that share a window: at least one, and no more than there are heights. -/
def share (crew : Crew) (window : HeightRange) : Nat :=
  min (max crew.workers 1) window.size

/-- The heights that each queue has room for. -/
def room (crew : Crew) (window : HeightRange) : Nat :=
  2 * crew.share window

/-- The heights of a window in the order in which their answers are collected. -/
def arrivals (crew : Crew) (window : HeightRange) : List Nat :=
  (Pool.run (crew.room window) (crew.schedule window) 0
    (.start (crew.share window) window.heights)).collected.reverse

theorem sharePositive (crew : Crew) (window : HeightRange) : 0 < crew.share window := by
  have := window.sizePositive
  simp only [share]
  omega

theorem arrivalsPerm (crew : Crew) (window : HeightRange) :
    (crew.arrivals window).Perm window.heights := by
  have staffed := crew.sharePositive window
  refine (List.reverse_perm _).trans ?_
  have all := @Pool.runCollected (crew.room window) (crew.schedule window) 0
    (.start (crew.share window) window.heights) (by simp only [room]; omega)
    (by simpa [Pool.workers, Pool.start] using staffed)
  simpa [Pool.contents, Pool.start] using all

example : arrivals ⟨2, .steady⟩ ⟨3, 6, by decide⟩ = [3, 4, 5, 6] := by cbv

example : arrivals ⟨2, fun _ count => [.hand, .hand, .take, .take].getD count (.answer 1)⟩
    ⟨3, 6, by decide⟩ = [4, 3, 5, 6] := by cbv

end Crew

end Backfill
