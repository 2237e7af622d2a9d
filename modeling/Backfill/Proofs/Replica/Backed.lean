/-
This file says what it means that a store keeps its records in a replica, also where some of the
calls to the store fail.
-/

import Backfill.Proofs.Replica.Missing
import Backfill.Replica.Trace

namespace Backfill

namespace Store

variable {σ : Type}

/-- A store with states of type `σ` keeps its records in a replica, which a transaction that fails
to be opened or committed does not change. -/
structure Backed (store : Store σ) (replica : σ → Replica) : Prop where
  begun : ∀ {state next}, store.begin state = (.ok (), next) →
    (replica state).working = none ∧
      replica next = ⟨(replica state).committed, some (replica state).committed⟩
  beginRefused : ∀ {state cause next}, store.begin state = (.error cause, next) →
    replica next = replica state
  applied : ∀ {update records state answer next},
    store.apply update records state = (answer, next) →
      (replica state).apply update records = (answer, replica next)
  committed : ∀ {state next}, store.commit state = (.ok (), next) →
    ∃ tables, (replica state).working = some tables ∧ replica next = .ofTables tables
  commitRefused : ∀ {state cause next}, store.commit state = (.error cause, next) →
    replica next = replica state
  rolledBack : ∀ state, replica (store.rollback state).2 = .ofTables (replica state).committed
  interior : ∀ state, store.interior state = Replica.store.interior (replica state)
  lowest : ∀ state, store.lowest state = Replica.store.lowest (replica state)
  holds : ∀ state, store.holds state = Replica.store.holds (replica state)

/-- A store opens and commits transactions whenever its replica does. -/
structure Reliable (store : Store σ) (replica : σ → Replica) : Prop where
  begins : ∀ state, (replica state).working = none → (store.begin state).1 = .ok ()
  commits : ∀ state, (replica state).working ≠ none → (store.commit state).1 = .ok ()

/-- A store detects what its replica detects. -/
theorem detectGapsBacked {store : Store σ} {replica : σ → Replica} (backed : store.Backed replica)
    (fromGenesis : Bool) (state : σ) :
    store.detectGaps fromGenesis state =
      Replica.store.detectGaps fromGenesis (replica state) := by
  simp only [HeightIndex.detectGaps, backed.lowest, backed.interior]

end Store

namespace Replica

/-- Replicas are backed by themselves. -/
theorem storeBacked : store.Backed id where
  begun := fun {state next} answer => by
    simp only [store, begin] at answer
    split at answer
    · cases answer
    · rename_i closed
      obtain rfl := (Prod.mk.inj answer).2
      exact ⟨closed, rfl⟩
  beginRefused := fun {state cause next} answer => by
    simp only [store, begin] at answer
    split at answer
    · exact (Prod.mk.inj answer).2.symm
    · cases answer
  applied := fun answer => answer
  committed := fun {state next} answer => by
    simp only [store, commit] at answer
    split at answer
    · cases answer
    · rename_i tables busy
      exact ⟨tables, busy, (Prod.mk.inj answer).2.symm⟩
  commitRefused := fun {state cause next} answer => by
    simp only [store, commit] at answer
    split at answer
    · exact (Prod.mk.inj answer).2.symm
    · cases answer
  rolledBack := fun _ => rfl
  interior := fun _ => rfl
  lowest := fun _ => rfl
  holds := fun _ => rfl

/-- Replicas can be relied on. -/
theorem storeReliable : store.Reliable id where
  begins := fun state closed => by
    simp only [id] at closed
    simp only [store, begin, closed]
  commits := fun state busy => by
    simp only [id] at busy
    simp only [store, commit]
    split
    · rename_i closed
      exact absurd closed busy
    · rfl

/-- A call that passes the guard is made, or refused and not made. -/
theorem innerOfGuard {σ : Type} {outages : Outages} {call : SinkCall}
    {act : σ → Except ReplicaError Unit × σ} {before after : Traced σ}
    {result : Except ReplicaError Unit}
    (answer : Sink.guard outages call act before = (result, after)) :
    act before.inner = (result, after.inner) ∨
      (∃ cause, outages call (before.count call.name + 1) = some cause ∧ result = .error cause) ∧
        after.inner = before.inner := by
  unfold Sink.guard Traced.record at answer
  obtain ⟨rfl, rfl⟩ := Prod.mk.inj answer
  cases refusal : outages call (before.count call.name + 1) with
  | none => exact .inl rfl
  | some cause => exact .inr ⟨⟨cause, rfl, rfl⟩, rfl⟩

/-- A traced replica is backed by the replica if no batch is refused from outside. -/
theorem tracedBacked {outages : Outages}
    (applies : ∀ update records count, outages (.apply update records) count = none) :
    (store.traced outages).Backed Traced.inner where
  begun := fun {state next} answer => by
    rcases innerOfGuard answer with made | ⟨⟨cause, _, refused⟩, _⟩
    · exact storeBacked.begun made
    · cases refused
  beginRefused := fun {state cause next} answer => by
    rcases innerOfGuard answer with made | ⟨_, same⟩
    · exact storeBacked.beginRefused made
    · exact same
  applied := fun {update records state answer next} made => by
    rcases innerOfGuard made with made | ⟨⟨cause, refusal, _⟩, _⟩
    · exact made
    · rw [applies] at refusal
      cases refusal
  committed := fun {state next} answer => by
    rcases innerOfGuard answer with made | ⟨⟨cause, _, refused⟩, _⟩
    · exact storeBacked.committed made
    · cases refused
  commitRefused := fun {state cause next} answer => by
    rcases innerOfGuard answer with made | ⟨_, same⟩
    · exact storeBacked.commitRefused made
    · exact same
  rolledBack := fun state => by
    simp only [Store.traced, Sink.traced, Sink.guardRollback, Traced.record]
    split <;> rfl
  interior := fun _ => rfl
  lowest := fun _ => rfl
  holds := fun _ => rfl

end Replica

end Backfill
