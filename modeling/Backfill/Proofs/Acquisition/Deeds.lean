/-
This file shows what an acquisition does beside logging events: it asks for heights, hands on
records, and has them made durable. An observer sees this of every acquisition.
-/

import Backfill.Proofs.Acquisition.Calls

namespace Backfill

/-- An acquisition asks for a height, hands on a record, or has all records so far made durable. -/
inductive Deed
  | asked (height : Nat)
  | handed (record : Record)
  | settled
deriving DecidableEq, Repr

namespace Deed

/-- The height that a deed asks for. -/
def height? : Deed → Option Nat
  | .asked height => some height
  | _ => none

/-- The heights that deeds ask for, in order. -/
def heights (deeds : List Deed) : List Nat :=
  deeds.filterMap height?

@[simp] theorem heightsNil : heights [] = [] := rfl

@[simp] theorem heightsCons (deed : Deed) (deeds : List Deed) :
    heights (deed :: deeds) = deed.height?.toList ++ heights deeds := by
  rw [heights, List.filterMap_cons]
  cases deed.height? <;> rfl

@[simp] theorem heightsAppend (first second : List Deed) :
    heights (first ++ second) = heights first ++ heights second :=
  List.filterMap_append

@[simp] theorem heightsAsked (asked : List Nat) : heights (asked.map .asked) = asked := by
  induction asked with
  | nil => rfl
  | cons height rest inductionHypothesis => exact congrArg (height :: ·) inductionHypothesis

@[simp] theorem heightsHanded (records : List Record) : heights (records.map .handed) = [] := by
  induction records with
  | nil => rfl
  | cons record rest inductionHypothesis => exact inductionHypothesis

/-- The record that a deed hands on. -/
def record? : Deed → Option Record
  | .handed record => some record
  | _ => none

/-- The records that deeds hand on, in order. -/
def records (deeds : List Deed) : List Record :=
  deeds.filterMap record?

end Deed

namespace Call

/-- What a call does, unless it logs an event. -/
def deed? : Call → Option Deed
  | .consume record => some (.handed record)
  | .checkpoint => some .settled
  | .note activity => activity.height?.map .asked

/-- What calls do, in order. -/
def deeds (calls : List Call) : List Deed :=
  calls.filterMap deed?

@[simp] theorem deedsNil : deeds [] = [] := rfl

@[simp] theorem deedsCons (call : Call) (calls : List Call) :
    deeds (call :: calls) = call.deed?.toList ++ deeds calls := by
  rw [deeds, List.filterMap_cons]
  cases call.deed? <;> rfl

@[simp] theorem deedsAppend (first second : List Call) :
    deeds (first ++ second) = deeds first ++ deeds second :=
  List.filterMap_append

/-- The records that calls hand on are seen in what they do. -/
theorem recordsOfDeeds (calls : List Call) : Deed.records (deeds calls) = records calls := by
  rw [Deed.records, deeds, List.filterMap_filterMap, records]
  congr 1
  funext call
  cases call with
  | consume record => rfl
  | checkpoint => rfl
  | note activity => cases activity <;> rfl

end Call

namespace Consumer

variable {α : Type}

/-- The consumer that sees what is done and refuses nothing. -/
def observer : Consumer (List Deed) where
  consume record deeds := (.ok (), deeds ++ [.handed record])
  checkpoint deeds := (.ok (), deeds ++ [.settled])
  note activity deeds := deeds ++ (activity.height?.map Deed.asked).toList

theorem makeObserver (call : Call) (before : List Deed) :
    observer.make call before = (.ok (), before ++ call.deed?.toList) := by
  cases call <;> rfl

/-- The observer follows all calls and has seen what they do. -/
theorem followObserver (calls : List Call) (before : List Deed) :
    observer.follow calls before = (.ok (), before ++ Call.deeds calls) := by
  induction calls generalizing before with
  | nil => simp [follow]
  | cons call rest inductionHypothesis =>
      simp only [follow, makeObserver, inductionHypothesis, Call.deedsCons, List.append_assoc]

theorem performObserver (refused : RunError → α) (answer : α) (calls : List Call)
    (before : List Deed) :
    observer.perform refused answer calls before = (answer, before ++ Call.deeds calls) := by
  simp only [perform, followObserver]

@[simp] theorem consumeObserver (record : Record) (before : List Deed) :
    observer.consume record before = (.ok (), before ++ [.handed record]) := rfl

@[simp] theorem checkpointObserver (before : List Deed) :
    observer.checkpoint before = (.ok (), before ++ [.settled]) := rfl

@[simp] theorem logObserver (event : Event) (before : List Deed) :
    observer.log event before = before := by
  simp [log, observer, Activity.height?]

@[simp] theorem logAllObserver (events : List Event) (before : List Deed) :
    observer.logAll events before = before := by
  induction events generalizing before with
  | nil => rfl
  | cons event rest inductionHypothesis =>
      simp only [logAll, List.foldl_cons, logObserver] at inductionHypothesis ⊢
      exact inductionHypothesis before

@[simp] theorem consumeAllObserver (records : List Record) (before : List Deed) :
    observer.consumeAll records before = (.ok (), before ++ records.map .handed) := by
  rw [← followConsume, followObserver, Call.deeds, List.filterMap_map]
  congr 1
  simp [Function.comp_def, Call.deed?, List.filterMap_eq_map']

end Consumer

/-- An acquisition does these deeds with every consumer that takes them, and then gives this
answer. -/
def Does (acquire : ∀ κ : Type, Consumer κ → κ → Acquired × κ) (answer : Acquired)
    (deeds : List Deed) : Prop :=
  ∃ calls, Call.deeds calls = deeds ∧ ∀ (κ : Type) (consumer : Consumer κ) (state : κ),
    acquire κ consumer state = consumer.perform .ended answer calls state

/-- An acquisition that makes the same calls to all consumers does what the observer sees. -/
theorem doesOfObserved {acquire : ∀ κ : Type, Consumer κ → κ → Acquired × κ}
    {acquired answer : Acquired} {calls : List Call} {deeds : List Deed}
    (same : ∀ (κ : Type) (consumer : Consumer κ) (state : κ),
      acquire κ consumer state = consumer.perform .ended acquired calls state)
    (observed : acquire (List Deed) .observer [] = (answer, deeds)) :
    Does acquire answer deeds := by
  rw [same, Consumer.performObserver, List.nil_append, Prod.mk.injEq] at observed
  obtain ⟨rfl, rfl⟩ := observed
  exact ⟨calls, rfl, same⟩

end Backfill
