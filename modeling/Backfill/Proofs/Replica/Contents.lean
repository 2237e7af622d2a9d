/-
This file says what it means that a sink keeps contents in transactions, and shows that stores that
keep their records in a replica do so.
-/

import Backfill.Proofs.Replica.Backed

namespace Backfill

/-- What a sink with states of type `σ` holds, as contents of type `γ`, of which one is durable and
another one is there while a transaction is open. -/
structure Contents (σ γ : Type) where
  durable : σ → γ
  working : σ → Option γ
  put : Bool → γ → Record → γ

/-- The contents of a sink follow its answers, so that only a commit makes the working content
durable. -/
structure Sink.Transactional {σ γ : Type} (sink : Sink σ) (contents : Contents σ γ) : Prop where
  begun : ∀ {state next}, contents.working state = none → sink.begin state = (.ok (), next) →
    contents.durable next = contents.durable state ∧
      contents.working next = some (contents.durable state)
  beginRefused : ∀ {state cause next}, contents.working state = none →
    sink.begin state = (.error cause, next) →
    contents.durable next = contents.durable state ∧ contents.working next = none
  applied : ∀ {update records state content next}, contents.working state = some content →
    sink.apply update records state = (.ok (), next) →
    contents.durable next = contents.durable state ∧
      contents.working next = some (records.foldl (contents.put update) content)
  applyRefused : ∀ {update records state content cause next}, contents.working state = some content →
    sink.apply update records state = (.error cause, next) →
    contents.durable next = contents.durable state ∧ contents.working next = some content
  committed : ∀ {state content next}, contents.working state = some content →
    sink.commit state = (.ok (), next) →
    contents.durable next = content ∧ contents.working next = none
  commitRefused : ∀ {state cause next}, sink.commit state = (.error cause, next) →
    contents.durable next = contents.durable state
  rolledBack : ∀ {state next}, sink.rollback state = (.ok (), next) →
    contents.durable next = contents.durable state ∧ contents.working next = none
  rollbackRefused : ∀ {state cause next}, sink.rollback state = (.error cause, next) →
    contents.durable next = contents.durable state

namespace Replica

/-- The contents of states in which a replica can be found are its tables. -/
def contents {σ : Type} (replica : σ → Replica) : Contents σ Tables where
  durable state := (replica state).committed
  working state := (replica state).working
  put update tables record := tables.write update record

/-- A store that keeps its records in a replica keeps the tables in transactions. -/
theorem transactionalOfBacked {σ : Type} {store : Store σ} {replica : σ → Replica}
    (backed : store.Backed replica) : store.toSink.Transactional (contents replica) where
  begun := by
    intro state next _ answer
    obtain ⟨_, same⟩ := backed.begun answer
    simp [contents, same]
  beginRefused := by
    intro state cause next closed answer
    have same := backed.beginRefused answer
    simp only [contents, same]
    exact ⟨trivial, closed⟩
  applied := by
    intro update records state content next busy answer
    obtain ⟨tables, working, same, _⟩ := nextOfApply (backed.applied answer)
    obtain rfl := Option.some.inj (busy.symm.trans working)
    simp only [contents, same]
    exact ⟨trivial, rfl⟩
  applyRefused := by
    intro update records state content cause next busy answer
    have same := (sameOfRefusal (backed.applied answer)).1
    simp only [contents, same]
    exact ⟨trivial, busy⟩
  committed := by
    intro state content next busy answer
    obtain ⟨tables, working, same⟩ := backed.committed answer
    obtain rfl := Option.some.inj (busy.symm.trans working)
    simp [contents, same, ofTables]
  commitRefused := by
    intro state cause next answer
    simp only [contents, backed.commitRefused answer]
  rolledBack := by
    intro state next answer
    have same := backed.rolledBack state
    rw [answer] at same
    simp [contents, same, ofTables]
  rollbackRefused := by
    intro state cause next answer
    have same := backed.rolledBack state
    rw [answer] at same
    simp [contents, same, ofTables]

end Replica

end Backfill
