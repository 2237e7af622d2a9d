/-
This file states the protocol of transactions that a sink is used with: what calls are allowed after
those that were made. Who keeps to it is never told by a replica that no transaction is open.
-/

import Backfill.Proofs.Repair.Watched
import Backfill.Proofs.Replica.Backed

namespace Backfill

/-- A call to a sink with what it answered. -/
abbrev Exchange := SinkCall × Except ReplicaError Unit

/-- An answered state knows the calls that led to it with their answers, the last one first. -/
structure Answered (σ : Type) where
  inner : σ
  history : List Exchange

namespace Answered

variable {σ : Type}

/-- A state to which no call led. -/
def new (inner : σ) : Answered σ :=
  ⟨inner, []⟩

/-- The state after a call was answered. -/
def record (call : SinkCall) (before : Answered σ) (answer : Except ReplicaError Unit × σ) :
    Except ReplicaError Unit × Answered σ :=
  (answer.1, ⟨answer.2, (call, answer.1) :: before.history⟩)

/-- The answer of a recorded call is the answer of the call, which is written down. -/
theorem recordEq {call : SinkCall} {before next : Answered σ}
    {answer : Except ReplicaError Unit × σ} {result : Except ReplicaError Unit}
    (recorded : before.record call answer = (result, next)) :
    answer = (result, next.inner) ∧ next.history = (call, result) :: before.history := by
  obtain ⟨rfl, rfl⟩ := Prod.mk.inj recorded
  exact ⟨rfl, rfl⟩

end Answered

/-- The sink with its answers written down. -/
def Sink.answered {σ : Type} (sink : Sink σ) : Sink (Answered σ) where
  begin state := state.record .begin (sink.begin state.inner)
  apply update records state := state.record (.apply update records)
    (sink.apply update records state.inner)
  commit state := state.record .commit (sink.commit state.inner)
  rollback state := state.record .rollback (sink.rollback state.inner)
  applied := sink.applied

/-- Writing down answers changes nothing about them. -/
theorem Sink.answeredMirrors {σ : Type} (sink : Sink σ) :
    sink.answered.Mirrors sink Answered.inner where
  begin := fun _ => rfl
  apply := fun _ _ _ => rfl
  commit := fun _ => rfl
  rollback := fun _ => rfl
  applied := fun _ => rfl

/-- Records that may be handed to a sink together: there are some, not more than a limit, and all
have the same operation, which is not an insert. -/
structure IsBatch (limit : Nat) (records : List Record) : Prop where
  some : records ≠ []
  within : records.length ≤ limit
  uniform : ∃ operation, operation ≠ Operation.insert ∧
    ∀ record ∈ records, record.operation = operation

namespace IsBatch

variable {limit : Nat} {records : List Record}

/-- A batch stays one in any order. -/
theorem reverse (batch : IsBatch limit records) : IsBatch limit records.reverse where
  some := by simpa using batch.some
  within := by simpa using batch.within
  uniform := by simpa using batch.uniform

/-- Each record of a batch is a batch of its own. -/
theorem single (batch : IsBatch limit records) {record : Record} (member : record ∈ records) :
    IsBatch limit [record] where
  some := by simp
  within := (List.length_pos_of_mem member).trans_le batch.within
  uniform := by
    obtain ⟨operation, kept, all⟩ := batch.uniform
    exact ⟨operation, kept, by simpa using all record member⟩

end IsBatch

/-- Two conditions on a sink, one for when a transaction is open, are kept by the calls that the
protocol allows. -/
structure Sink.Keeps {σ : Type} (sink : Sink σ) (limit : Nat) (Good : Bool → σ → Prop) : Prop where
  begun : ∀ {state next}, Good false state → sink.begin state = (.ok (), next) → Good true next
  unopened : ∀ {state cause next}, Good false state → sink.begin state = (.error cause, next) →
    Good false next
  applied : ∀ {update records state}, Good true state → IsBatch limit records →
    Good true (sink.apply update records state).2
  committed : ∀ {state next}, Good true state → sink.commit state = (.ok (), next) →
    Good false next
  abandoned : ∀ {state cause next}, Good true state → sink.commit state = (.error cause, next) →
    Good false (sink.rollback next).2

/-- A history has an open transaction: one was begun well, and nothing was committed since. -/
def InTransaction (history : List Exchange) : Prop :=
  ∃ since before, history = since ++ (.begin, .ok ()) :: before ∧
    ∀ answer, (.commit, answer) ∉ since

/-- A call is allowed after earlier exchanges, the last one first: a transaction is begun where none
is open, batches and commits go to an open one, and a rollback follows a commit that failed. -/
def SinkCall.Allowed (limit : Nat) (earlier : List Exchange) : SinkCall → Prop
  | .begin => ¬InTransaction earlier
  | .apply _ records => InTransaction earlier ∧ IsBatch limit records
  | .commit => InTransaction earlier
  | .rollback => ∃ cause before, earlier = (.commit, .error cause) :: before

/-- Every call of a history is allowed after those before it. -/
def Permitted (limit : Nat) (history : List Exchange) : Prop :=
  ∀ later exchange earlier, history = later ++ exchange :: earlier →
    exchange.1.Allowed limit earlier

/-- Every commit that failed is followed by a rollback. -/
def Undone (history : List Exchange) : Prop :=
  ∀ later cause earlier, history = later ++ (.commit, .error cause) :: earlier →
    ∃ since answer, later = since ++ [(.rollback, answer)]

/-- A history, the last exchange first, keeps to the protocol of transactions. -/
structure Protocol (limit : Nat) (history : List Exchange) : Prop where
  permitted : Permitted limit history
  undone : Undone history

section History

variable {limit : Nat} {history : List Exchange}

theorem notInTransactionNil : ¬InTransaction [] := by
  rintro ⟨since, before, split, _⟩
  simp at split

theorem inTransactionBegin : InTransaction ((.begin, .ok ()) :: history) :=
  ⟨[], history, rfl, by simp⟩

theorem notInTransactionCommit {answer : Except ReplicaError Unit} :
    ¬InTransaction ((.commit, answer) :: history) := by
  rintro ⟨since, before, split, kept⟩
  rcases List.cons_eq_append_iff.mp split with ⟨_, begun⟩ | ⟨rest, rfl, _⟩
  · simp at begun
  · exact kept answer List.mem_cons_self

/-- Whether a transaction is open only depends on what is begun and committed. -/
theorem inTransactionCons {exchange : Exchange} (begun : exchange ≠ (.begin, .ok ()))
    (committed : ∀ answer, exchange ≠ (.commit, answer)) :
    InTransaction (exchange :: history) ↔ InTransaction history := by
  constructor
  · rintro ⟨since, before, split, kept⟩
    rcases List.cons_eq_append_iff.mp split with ⟨_, same⟩ | ⟨rest, rfl, shorter⟩
    · exact absurd (List.cons.inj same).1.symm begun
    · exact ⟨rest, before, shorter,
        fun answer member => kept answer (List.mem_cons_of_mem _ member)⟩
  · rintro ⟨since, before, rfl, kept⟩
    refine ⟨exchange :: since, before, rfl, fun answer member => ?_⟩
    rcases List.mem_cons.mp member with same | member
    · exact committed answer same.symm
    · exact kept answer member

theorem permittedNil : Permitted limit [] := by
  intro later exchange earlier split
  simp at split

theorem permittedCons {exchange : Exchange} (permitted : Permitted limit history)
    (allowed : exchange.1.Allowed limit history) : Permitted limit (exchange :: history) := by
  intro later other earlier split
  rcases List.cons_eq_append_iff.mp split with ⟨_, same⟩ | ⟨rest, _, shorter⟩
  · obtain ⟨rfl, rfl⟩ := List.cons.inj same
    exact allowed
  · exact permitted rest other earlier shorter

theorem undoneNil : Undone [] := by
  intro later cause earlier split
  simp at split

theorem undoneCons {exchange : Exchange} (undone : Undone history)
    (fine : ∀ cause, exchange ≠ (.commit, .error cause)) : Undone (exchange :: history) := by
  intro later cause earlier split
  rcases List.cons_eq_append_iff.mp split with ⟨_, same⟩ | ⟨rest, rfl, shorter⟩
  · exact absurd (List.cons.inj same).1.symm (fine cause)
  · obtain ⟨since, answer, rfl⟩ := undone rest cause earlier shorter
    exact ⟨exchange :: since, answer, rfl⟩

/-- A commit that failed is allowed together with its rollback. -/
theorem undoneRollback {cause : ReplicaError} {answer : Except ReplicaError Unit}
    (undone : Undone history) :
    Undone ((.rollback, answer) :: (.commit, .error cause) :: history) := by
  intro later other earlier split
  rcases List.cons_eq_append_iff.mp split with ⟨_, same⟩ | ⟨rest, rfl, shorter⟩
  · simp at same
  · rcases List.cons_eq_append_iff.mp shorter with ⟨rfl, _⟩ | ⟨rest, rfl, shortest⟩
    · exact ⟨[], answer, rfl⟩
    · obtain ⟨since, answer, rfl⟩ := undone rest other earlier shortest
      exact ⟨_ :: _ :: since, answer, rfl⟩

end History

/-- The histories of a committer; the flag says whether a transaction is open at the end. -/
inductive Orderly (limit : Nat) : Bool → List Exchange → Prop
  | blank : Orderly limit false []
  | begun {history} (quiet : Orderly limit false history) :
      Orderly limit true ((.begin, .ok ()) :: history)
  | unopened {history} (cause : ReplicaError) (quiet : Orderly limit false history) :
      Orderly limit false ((.begin, .error cause) :: history)
  | applied {history} (update : Bool) {records : List Record}
      (answer : Except ReplicaError Unit) (batch : IsBatch limit records)
      (busy : Orderly limit true history) :
      Orderly limit true ((.apply update records, answer) :: history)
  | committed {history} (busy : Orderly limit true history) :
      Orderly limit false ((.commit, .ok ()) :: history)
  | abandoned {history} (cause : ReplicaError) (answer : Except ReplicaError Unit)
      (busy : Orderly limit true history) :
      Orderly limit false ((.rollback, answer) :: (.commit, .error cause) :: history)

namespace Orderly

variable {limit : Nat} {busy : Bool} {history : List Exchange}

theorem inTransaction (orderly : Orderly limit busy history) :
    InTransaction history ↔ busy = true := by
  induction orderly with
  | blank => simp [notInTransactionNil]
  | begun => simp [inTransactionBegin]
  | unopened cause quiet inductionHypothesis => rwa [inTransactionCons (by simp) (by simp)]
  | applied update answer batch busy inductionHypothesis =>
      rwa [inTransactionCons (by simp) (by simp)]
  | committed => simp [notInTransactionCommit]
  | abandoned cause answer busy => simp [inTransactionCons, notInTransactionCommit]

/-- Such a history keeps to the protocol. -/
theorem protocol (orderly : Orderly limit busy history) : Protocol limit history := by
  induction orderly with
  | blank => exact ⟨permittedNil, undoneNil⟩
  | begun quiet kept =>
      exact ⟨permittedCons kept.permitted (by simp [SinkCall.Allowed, quiet.inTransaction]),
        undoneCons kept.undone (by simp)⟩
  | unopened cause quiet kept =>
      exact ⟨permittedCons kept.permitted (by simp [SinkCall.Allowed, quiet.inTransaction]),
        undoneCons kept.undone (by simp)⟩
  | applied update answer batch busy kept =>
      exact ⟨permittedCons kept.permitted ⟨busy.inTransaction.mpr rfl, batch⟩,
        undoneCons kept.undone (by simp)⟩
  | committed busy kept =>
      exact ⟨permittedCons kept.permitted (busy.inTransaction.mpr rfl),
        undoneCons kept.undone (by simp)⟩
  | @abandoned history cause answer busy kept =>
      have failed : Permitted limit ((.commit, .error cause) :: history) :=
        permittedCons kept.permitted (busy.inTransaction.mpr rfl)
      exact ⟨permittedCons failed ⟨cause, history, rfl⟩, undoneRollback kept.undone⟩

end Orderly

/-- A sink whose answers are written down has an orderly history. -/
theorem Sink.orderlyKept {σ : Type} (sink : Sink σ) (limit : Nat) :
    sink.answered.Keeps limit fun busy state => Orderly limit busy state.history where
  begun := fun good answer => by
    rw [(Answered.recordEq answer).2]
    exact .begun good
  unopened := fun good answer => by
    rw [(Answered.recordEq answer).2]
    exact .unopened _ good
  applied := fun good batch => .applied _ _ batch good
  committed := fun good answer => by
    rw [(Answered.recordEq answer).2]
    exact .committed good
  abandoned := fun {state cause next} good answer => by
    have failed := (Answered.recordEq answer).2
    show Orderly limit false ((.rollback, _) :: next.history)
    rw [failed]
    exact .abandoned _ _ good

/-- A computation fails only for a number that does not fit its column. -/
def Overflows {α : Type} (answer : Except ReplicaError α) : Prop :=
  ∀ cause, answer = .error cause → ∃ field, cause = .integerOverflow field

section Overflow

variable {α β : Type}

theorem overflowsOk (value : α) : Overflows (.ok value) := by
  intro cause failed
  cases failed

theorem overflowsBind {first : Except ReplicaError α} {next : α → Except ReplicaError β}
    (starts : Overflows first) (goesOn : ∀ value, Overflows (next value)) :
    Overflows (first >>= next) := by
  cases first with
  | ok value => exact goesOn value
  | error cause => exact fun other failed => starts other (Except.error.inj failed ▸ rfl)

theorem overflowsMap {answer : Except ReplicaError α} (next : α → β)
    (overflows : Overflows answer) : Overflows (answer.map next) := by
  cases answer with
  | ok value => exact overflowsOk _
  | error cause => exact fun other failed => overflows other (Except.error.inj failed ▸ rfl)

theorem signedColumnOverflows (field : String) (value : UInt64) :
    Overflows (signedColumn field value) := by
  intro cause failed
  unfold signedColumn at failed
  split at failed
  · cases failed
  · exact ⟨field, (Except.error.inj failed).symm⟩

theorem blockRowOverflows (record : Record) : Overflows (BlockRow.ofRecord record) :=
  overflowsBind (signedColumnOverflows _ _) fun _ =>
    overflowsBind (signedColumnOverflows _ _) fun _ => overflowsOk _

theorem changeRowOverflows (record : Record) : Overflows (ChangeRow.ofRecord record) :=
  overflowsBind (signedColumnOverflows _ _) fun _ => overflowsOk _

theorem applyRecordOverflows (update : Bool) (tables : Tables) (record : Record) :
    Overflows (tables.applyRecord update record) := by
  unfold Tables.applyRecord
  split
  · exact overflowsOk _
  · exact overflowsMap _ (blockRowOverflows record)
  · exact overflowsOk _
  · exact overflowsMap _ (changeRowOverflows record)

/-- Records are refused only for a number that does not fit its column. -/
theorem applyRecordsOverflow (update : Bool) (tables : Tables) (records : List Record) :
    Overflows (tables.applyRecords update records) := by
  induction records generalizing tables with
  | nil => exact overflowsOk _
  | cons record rest inductionHypothesis =>
      rw [Tables.applyRecords, List.foldlM_cons]
      exact overflowsBind (applyRecordOverflows update tables record) inductionHypothesis

end Overflow

namespace Replica

/-- A replica misses a transaction only where none is open. -/
theorem closedOfApply {update : Bool} {records : List Record} {replica next : Replica}
    (answer : replica.apply update records = (.error .noTransaction, next)) :
    replica.working = none := by
  unfold apply at answer
  split at answer
  · assumption
  · rename_i tables busy
    split at answer
    · rename_i cause failed
      obtain ⟨field, rfl⟩ := applyRecordsOverflow update tables records cause failed
      cases answer
    · cases answer

theorem closedOfCommit {replica next : Replica}
    (answer : replica.commit = (.error .noTransaction, next)) : replica.working = none := by
  unfold commit at answer
  split at answer
  · assumption
  · cases answer

theorem busyOfBegin {replica next : Replica} {cause : ReplicaError}
    (answer : replica.begin = (.error cause, next)) : cause ≠ .noTransaction := by
  unfold begin at answer
  split at answer
  · rintro rfl
    cases answer
  · cases answer

/-- A batch leaves the transaction open, whether it is applied or not. -/
theorem busyOfApply {update : Bool} {records : List Record} {replica next : Replica}
    {answer : Except ReplicaError Unit} (made : replica.apply update records = (answer, next))
    (busy : replica.working ≠ none) : next.working ≠ none := by
  cases answer with
  | ok => exact (workingOfApply made).2.1
  | error cause => rwa [(sameOfRefusal made).1]

/-- It is only said that a transaction is missing where an outage says so. -/
def Excused (outages : Outages) (history : List Exchange) : Prop :=
  ∀ call, (call, .error .noTransaction) ∈ history →
    ∃ count, outages call count = some .noTransaction

theorem excusedCons {outages : Outages} {history : List Exchange} {call : SinkCall}
    {answer : Except ReplicaError Unit} (excused : Excused outages history)
    (excuse : answer = .error .noTransaction → ∃ count, outages call count = some .noTransaction) :
    Excused outages ((call, answer) :: history) := by
  intro other member
  rcases List.mem_cons.mp member with same | member
  · obtain ⟨rfl, rfl⟩ := Prod.mk.inj same
    exact excuse rfl
  · exact excused other member

/-- A call that passes the guard misses a transaction only where the replica does, or where an
outage says so. -/
theorem excuseOfGuard {outages : Outages} {call : SinkCall}
    {act : Replica → Except ReplicaError Unit × Replica} {before after : Traced Replica}
    {answer : Except ReplicaError Unit}
    (made : Sink.guard outages call act before = (answer, after))
    (fine : ∀ next, act before.inner ≠ (.error .noTransaction, next))
    (missing : answer = .error .noTransaction) :
    ∃ count, outages call count = some .noTransaction := by
  subst missing
  rcases innerOfGuard made with made | ⟨⟨cause, refusal, same⟩, _⟩
  · exact absurd made (fine _)
  · cases same
    exact ⟨_, refusal⟩

/-- A replica that is used as the protocol says has a working copy while a transaction is open, and
never says that it misses one. -/
theorem excusedKept (outages : Outages) (limit : Nat) :
    (store.traced outages).toSink.answered.Keeps limit fun busy state =>
      (busy = true → state.inner.inner.working ≠ none) ∧ Excused outages state.history where
  begun := fun {state next} good answer => by
    obtain ⟨made, history⟩ := Answered.recordEq answer
    rw [history]
    refine ⟨fun _ => ?_, excusedCons good.2 (by simp)⟩
    rcases innerOfGuard made with begun | ⟨⟨cause, _, refused⟩, _⟩
    · simp [show next.inner.inner = _ from (storeBacked.begun begun).2]
    · cases refused
  unopened := fun {state cause next} good answer => by
    obtain ⟨made, history⟩ := Answered.recordEq answer
    rw [history]
    exact ⟨by simp, excusedCons good.2
      (excuseOfGuard made fun last refused => busyOfBegin refused rfl)⟩
  applied := fun {update records state} good batch => by
    have busy := good.1 rfl
    refine ⟨fun _ => ?_, excusedCons good.2 (excuseOfGuard rfl fun last refused =>
      busy (closedOfApply refused))⟩
    have guarded :
        Sink.guard outages (.apply update records) (store.apply update records) state.inner =
          (_, _) := rfl
    rcases innerOfGuard guarded with made | ⟨_, same⟩
    · exact busyOfApply made busy
    · exact same ▸ busy
  committed := fun {state next} good answer => by
    rw [(Answered.recordEq answer).2]
    exact ⟨by simp, excusedCons good.2 (by simp)⟩
  abandoned := fun {state cause next} good answer => by
    obtain ⟨made, history⟩ := Answered.recordEq answer
    have failed : Excused outages next.history := by
      rw [history]
      exact excusedCons good.2
        (excuseOfGuard made fun last refused => good.1 rfl (closedOfCommit refused))
    refine ⟨by simp, excusedCons failed fun missing => ?_⟩
    simp only [Store.traced, Sink.traced, Sink.guardRollback, Traced.record] at missing
    split at missing
    · rename_i other refusal
      exact ⟨_, Except.error.inj missing ▸ refusal⟩
    · cases missing

end Replica

end Backfill
