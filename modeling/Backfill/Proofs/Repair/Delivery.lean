/-
This file shows what is durable after a committer has worked off a range, or has broken off: the
first records that it took, up to some place and without those that the sink refused.
-/

import Backfill.Proofs.Repair.Watched
import Backfill.Proofs.Replica.Contents

namespace Backfill

/-- The records that were handed to a sink up to the last commit and since, each with whether it was
accepted, and those that are still to be handed on. -/
structure Delivery where
  durable : List (Record × Bool)
  pending : List (Record × Bool)
  rest : List Record
deriving DecidableEq

namespace Delivery

/-- Nothing is handed on before the first call. -/
def blank : Delivery :=
  ⟨[], [], []⟩

/-- The delivery after a call that was answered, where the records of a batch that is refused are
still to be handed on. -/
def enter (call : SinkCall × Bool) (delivery : Delivery) : Delivery :=
  match call, delivery.rest with
  | (.apply _ _, accepted), record :: rest =>
      { delivery with pending := delivery.pending ++ [(record, accepted)], rest }
  | (.apply _ records, true), [] =>
      { delivery with pending := delivery.pending ++ records.map (·, true) }
  | (.apply _ records, false), [] => { delivery with rest := records }
  | (.commit, true), _ => ⟨delivery.durable ++ delivery.pending, [], delivery.rest⟩
  | (.commit, false), _ => delivery
  | (.begin, _), _ => delivery
  | (.rollback, _), _ => { delivery with pending := [] }

/-- The delivery of calls, of which the last one comes first. -/
def ofCalls (calls : List (SinkCall × Bool)) : Delivery :=
  calls.foldr enter blank

/-- The records of a batch that is accepted are. -/
theorem enterBatch {delivery : Delivery} (none : delivery.rest = []) (update : Bool)
    (records : List Record) :
    delivery.enter (.apply update records, true) =
      ⟨delivery.durable, delivery.pending ++ records.map (·, true), []⟩ := by
  obtain ⟨durable, pending, rest⟩ := delivery
  obtain rfl := none
  rfl

/-- The records of a batch that is refused are still to be handed on. -/
theorem enterRefusal {delivery : Delivery} (none : delivery.rest = []) (update : Bool)
    (records : List Record) :
    delivery.enter (.apply update records, false) =
      ⟨delivery.durable, delivery.pending, records⟩ := by
  obtain ⟨durable, pending, rest⟩ := delivery
  obtain rfl := none
  rfl

/-- Of a batch that was refused the next record is handed on. -/
theorem enterRecord {delivery : Delivery} {record : Record} {rest : List Record}
    (some : delivery.rest = record :: rest) (update : Bool) (records : List Record)
    (accepted : Bool) :
    delivery.enter (.apply update records, accepted) =
      ⟨delivery.durable, delivery.pending ++ [(record, accepted)], rest⟩ := by
  obtain ⟨durable, pending, rest⟩ := delivery
  obtain rfl := some
  cases accepted <;> rfl

@[simp] theorem recordsAccepted (records : List Record) :
    (records.map (·, true)).map Prod.fst = records := by
  simp [Function.comp_def]

variable {γ : Type}

/-- A content with the accepted ones of some records. -/
def content (put : γ → Record → γ) (start : γ) (handed : List (Record × Bool)) : γ :=
  ((handed.filter Prod.snd).map Prod.fst).foldl put start

theorem contentAppend (put : γ → Record → γ) (start : γ) (first second : List (Record × Bool)) :
    content put start (first ++ second) = content put (content put start first) second := by
  rw [content, List.filter_append, List.map_append, List.foldl_append]
  rfl

/-- A batch that is accepted is written as a whole. -/
theorem contentAccepted (put : γ → Record → γ) (start : γ) (records : List Record) :
    content put start (records.map (·, true)) = records.foldl put start := by
  induction records generalizing start with
  | nil => rfl
  | cons record rest inductionHypothesis => exact inductionHypothesis (put start record)

end Delivery

namespace Traced

variable {σ : Type}

/-- What the calls so far have delivered. -/
def delivery (traced : Traced σ) : Delivery :=
  .ofCalls traced.calls

theorem deliveryOfCall {before next : Traced σ} {call : SinkCall × Bool}
    (calls : next.calls = call :: before.calls) :
    next.delivery = before.delivery.enter call := by
  rw [delivery, calls]
  rfl

end Traced

namespace Committer

variable {σ γ : Type} {sink : Sink σ} {contents : Contents σ γ} {update : Bool} {start : γ}
  {done sent rest : List Record} {committer : Committer (Traced σ)}

section Delivers

variable (contents : Contents σ γ) (update : Bool) (start : γ)

/-- A committer has delivered some records for good, others in the open transaction, and has still
to hand on the rest of a batch. -/
structure Delivers (done sent rest : List Record) (committer : Committer (Traced σ)) : Prop where
  mode : committer.update = update
  done : committer.sink.delivery.durable.map Prod.fst = done
  sent : committer.sink.delivery.pending.map Prod.fst = sent
  rest : committer.sink.delivery.rest = rest
  durable : contents.durable committer.sink.inner =
    Delivery.content (contents.put update) start committer.sink.delivery.durable
  working : contents.working committer.sink.inner =
    if committer.inTransaction then
      some (Delivery.content (contents.put update) start
        (committer.sink.delivery.durable ++ committer.sink.delivery.pending))
    else none

/-- A committer has broken off after it had delivered some records for good, without an open
transaction unless it could not be rolled back. -/
structure Halts (done : List Record) (cause : RunError) (committer : Committer (Traced σ)) :
    Prop where
  broken : ∃ stage fault, cause = .commit stage fault
  done : committer.sink.delivery.durable.map Prod.fst = done
  durable : contents.durable committer.sink.inner =
    Delivery.content (contents.put update) start committer.sink.delivery.durable
  closed : committer.inTransaction = false
  working : (SinkCall.rollback, false) ∉ committer.sink.calls →
    contents.working committer.sink.inner = none

end Delivers

/-- What a committer has delivered depends on its sink, on whether it replaces rows and on whether a
transaction is open. -/
theorem deliversCongr {first second : Committer (Traced σ)}
    (delivers : Delivers contents update start done sent rest first)
    (sink : second.sink = first.sink) (mode : second.update = first.update)
    (inTransaction : second.inTransaction = first.inTransaction) :
    Delivers contents update start done sent rest second := by
  constructor
  · rw [mode, delivers.mode]
  · rw [sink, delivers.done]
  · rw [sink, delivers.sent]
  · rw [sink, delivers.rest]
  · rw [sink, delivers.durable]
  · rw [sink, inTransaction, delivers.working]

/-- More records are delivered in the open transaction. -/
theorem deliversMore (delivers : Delivers contents update start done sent rest committer)
    (busy : committer.inTransaction = true) {next : Traced σ} {more : List (Record × Bool)}
    {left : List Record}
    (delivery : next.delivery = ⟨committer.sink.delivery.durable,
      committer.sink.delivery.pending ++ more, left⟩)
    (holds : ∀ content, contents.working committer.sink.inner = some content →
      contents.durable next.inner = contents.durable committer.sink.inner ∧
        contents.working next.inner =
          some (Delivery.content (contents.put committer.update) content more)) :
    Delivers contents update start done (sent ++ more.map Prod.fst) left
      { committer with sink := next } := by
  have working := delivers.working
  rw [if_pos busy] at working
  obtain ⟨durable, written⟩ := holds _ working
  constructor
  · exact delivers.mode
  · rw [delivery]
    exact delivers.done
  · rw [delivery, List.map_append, delivers.sent]
  · rw [delivery]
  · rw [durable, delivery]
    exact delivers.durable
  · rw [written, delivery, if_pos busy, ← List.append_assoc, Delivery.contentAppend _ _ (_ ++ _),
      delivers.mode]

/-- A record is delivered in the open transaction, if it is refused as one that is not accepted. -/
theorem deliversRecord (transactional : sink.Transactional contents) {record : Record}
    (delivers : Delivers contents update start done sent (record :: rest) committer)
    (busy : committer.inTransaction = true) :
    Delivers contents update start done (sent ++ [record]) rest
      (applyOne sink.watched committer record) := by
  obtain ⟨_, stays, mode⟩ := applyOneFrame sink.watched record committer
  have next := applyOneSink sink.watched record committer
  cases answer : sink.watched.apply committer.update [record] committer.sink with
  | mk result last =>
      obtain ⟨answered, calls⟩ := Traced.recordEq answer
      have delivery := Traced.deliveryOfCall calls
      rw [Delivery.enterRecord delivers.rest] at delivery
      rw [answer] at next
      apply deliversCongr (deliversMore delivers busy delivery _) next mode stays
      intro content working
      cases result with
      | ok => exact transactional.applied working answered
      | error cause => exact transactional.applyRefused working answered

/-- Every batch is delivered in the open transaction, record by record if it is refused. -/
theorem deliversBatch (transactional : sink.Transactional contents) (batch : List Record)
    (delivers : Delivers contents update start done sent [] committer)
    (busy : committer.inTransaction = true) :
    Delivers contents update start done (sent ++ batch) []
      (applyBatch sink.watched batch committer) := by
  have each (records sent : List Record) (committer : Committer (Traced σ))
      (delivers : Delivers contents update start done sent records committer)
      (busy : committer.inTransaction = true) :
      Delivers contents update start done (sent ++ records) []
        (records.foldl (applyOne sink.watched) committer) := by
    induction records generalizing sent committer with
    | nil => rwa [List.append_nil]
    | cons record rest inductionHypothesis =>
        rw [List.foldl_cons, List.append_cons]
        exact inductionHypothesis _ _ (deliversRecord transactional delivers busy)
          ((applyOneFrame sink.watched record committer).2.1.trans busy)
  unfold applyBatch
  cases answer : sink.watched.apply committer.update batch committer.sink with
  | mk result next =>
      obtain ⟨answered, calls⟩ := Traced.recordEq answer
      have delivery := Traced.deliveryOfCall calls
      cases result with
      | ok =>
          rw [Except.toBool, Delivery.enterBatch delivers.rest] at delivery
          have more := deliversMore delivers busy delivery fun content working => by
            rw [Delivery.contentAccepted]
            exact transactional.applied working answered
          rw [Delivery.recordsAccepted] at more
          apply deliversCongr more
          · simp [noteApplied, logAllEq]
          · simp [noteApplied, logAllEq]
          · simp [noteApplied, logAllEq]
      | error cause =>
          rw [Except.toBool, Delivery.enterRefusal delivers.rest,
            ← List.append_nil committer.sink.delivery.pending] at delivery
          have refused := deliversMore delivers busy delivery fun content working =>
            transactional.applyRefused working answered
          rw [List.map_nil, List.append_nil] at refused
          exact each batch sent _ (deliversCongr refused rfl rfl rfl) busy

/-- Nothing is delivered by opening a transaction. -/
theorem deliversOpened (transactional : sink.Transactional contents)
    (delivers : Delivers contents update start done [] [] committer)
    (closed : committer.inTransaction = false) {next : Traced σ}
    (answer : sink.watched.begin committer.sink = (.ok (), next)) :
    Delivers contents update start done [] [] (committer.opened next) := by
  obtain ⟨answered, calls⟩ := Traced.recordEq answer
  have delivery : next.delivery = committer.sink.delivery := Traced.deliveryOfCall calls
  have working := delivers.working
  rw [closed] at working
  obtain ⟨durable, opens⟩ := transactional.begun working answered
  have nothing := List.map_eq_nil_iff.mp delivers.sent
  unfold opened
  constructor
  · exact delivers.mode
  · rw [delivery, delivers.done]
  · rw [delivery, delivers.sent]
  · rw [delivery, delivers.rest]
  · rw [durable, delivery, delivers.durable]
  · rw [opens, delivery, nothing, List.append_nil, delivers.durable]
    rfl

/-- A transaction that cannot be opened leaves durable what was durable. -/
theorem haltsUnopened (transactional : sink.Transactional contents)
    (delivers : Delivers contents update start done [] [] committer)
    (closed : committer.inTransaction = false) {cause : ReplicaError} {next : Traced σ}
    (answer : sink.watched.begin committer.sink = (.error cause, next)) :
    Halts contents update start done (.commit .begin cause) { committer with sink := next } := by
  obtain ⟨answered, calls⟩ := Traced.recordEq answer
  have delivery : next.delivery = committer.sink.delivery := Traced.deliveryOfCall calls
  have working := delivers.working
  rw [closed] at working
  obtain ⟨durable, still⟩ := transactional.beginRefused working answered
  constructor
  · exact ⟨.begin, cause, rfl⟩
  · rw [delivery, delivers.done]
  · rw [durable, delivery, delivers.durable]
  · exact closed
  · exact fun _ => still

/-- By a commit all that was delivered in the open transaction is delivered for good. -/
theorem deliversSettled (transactional : sink.Transactional contents)
    (delivers : Delivers contents update start done sent [] committer)
    (busy : committer.inTransaction = true) {next : Traced σ}
    (answer : sink.watched.commit committer.sink = (.ok (), next)) :
    Delivers contents update start (done ++ sent) [] [] (committer.settled next) := by
  obtain ⟨answered, calls⟩ := Traced.recordEq answer
  have delivery : next.delivery = ⟨committer.sink.delivery.durable ++
      committer.sink.delivery.pending, [], committer.sink.delivery.rest⟩ :=
    Traced.deliveryOfCall calls
  have working := delivers.working
  rw [if_pos busy] at working
  obtain ⟨durable, closed⟩ := transactional.committed working answered
  unfold settled
  constructor
  · exact delivers.mode
  · rw [delivery, List.map_append, delivers.done, delivers.sent]
  · rw [delivery, List.map_nil]
  · rw [delivery, delivers.rest]
  · rw [durable, delivery]
  · exact closed

/-- A transaction that cannot be committed leaves durable what was durable, and it is open no longer
unless it cannot be rolled back either. -/
theorem haltsAbandoned (transactional : sink.Transactional contents)
    (delivers : Delivers contents update start done sent [] committer)
    {cause : ReplicaError} {next : Traced σ}
    (answer : sink.watched.commit committer.sink = (.error cause, next)) :
    Halts contents update start done (.commit .commit cause)
      (committer.abandoned (sink.watched.rollback next).2) := by
  obtain ⟨answered, calls⟩ := Traced.recordEq answer
  have refused : next.delivery = committer.sink.delivery := Traced.deliveryOfCall calls
  have durable := transactional.commitRefused answered
  cases undone : sink.watched.rollback next with
  | mk result last =>
      obtain ⟨undid, moreCalls⟩ := Traced.recordEq undone
      have delivery : last.delivery = { committer.sink.delivery with pending := [] } := by
        rw [Traced.deliveryOfCall moreCalls, refused]
        rfl
      have kept : contents.durable last.inner = contents.durable next.inner := by
        cases result with
        | ok => exact (transactional.rolledBack undid).1
        | error second => exact transactional.rollbackRefused undid
      constructor
      · exact ⟨.commit, cause, rfl⟩
      · show last.delivery.durable.map Prod.fst = done
        rw [delivery, delivers.done]
      · show contents.durable last.inner =
          Delivery.content (contents.put update) start last.delivery.durable
        rw [kept, durable, delivers.durable, delivery]
      · rfl
      · intro unrefused
        cases result with
        | ok => exact (transactional.rolledBack undid).2
        | error second =>
            have refusal : (SinkCall.rollback, false) ∈ last.calls := by
              rw [moreCalls]
              exact List.mem_cons_self
            exact absurd refusal unrefused

/-- Every batch keeps account of what is delivered, and so does every call that begins or ends a
transaction. -/
theorem deliversCustody (transactional : sink.Transactional contents) :
    Custody sink.watched (fun done sent => Delivers contents update start done sent [])
      (Halts contents update start) where
  alike := fun delivers alike =>
    deliversCongr delivers alike.sink alike.update alike.inTransaction
  alikeBad := by
    intro done cause first second halts alike
    constructor
    · exact halts.broken
    · rw [alike.sink, halts.done]
    · rw [alike.sink, halts.durable]
    · rw [alike.inTransaction, halts.closed]
    · rw [alike.sink]
      exact halts.working
  begun := fun delivers closed answer => deliversOpened transactional delivers closed answer
  beginFailed := fun delivers closed answer => haltsUnopened transactional delivers closed answer
  handed := fun batch delivers busy => deliversBatch transactional batch delivers busy
  committed := fun delivers busy answer => deliversSettled transactional delivers busy answer
  commitFailed := fun delivers _ answer => haltsAbandoned transactional delivers answer

/-- When a range is worked off, the durable content is what the accepted ones make of it among the
records that had been handed to the sink at the last commit. -/
theorem deliversPrefix (transactional : sink.Transactional contents) (cadence : Cadence)
    (range : HeightRange) (update : Bool) (calls : List Call) (before : Committer σ)
    (closed : before.inTransaction = false) (idle : contents.working before.sink = none) :
    let taken := (Call.records calls).map repeatable
    let made := before.sinkTrace sink cadence range update calls
    let delivered := made.delivery.durable
    let after := (before.work sink cadence range update calls).2
    contents.durable after.sink =
        Delivery.content (contents.put update) (contents.durable before.sink) delivered ∧
      after.inTransaction = false ∧
      match (before.work sink cadence range update calls).1 with
      | .ok _ => delivered.map Prod.fst = taken ∧ contents.working after.sink = none
      | .error cause => (∃ stage fault, cause = .commit stage fault) ∧
          delivered.map Prod.fst <+: taken ∧
          ((SinkCall.rollback, false) ∉ made.calls → contents.working after.sink = none) := by
  have begins : Delivers contents update (contents.durable before.sink) [] [] []
      (before.watch.beginRange range update) := by
    constructor
    · rfl
    · rfl
    · rfl
    · rfl
    · rfl
    · show contents.working before.sink = if before.inTransaction then _ else _
      rw [closed, idle]
      rfl
  have leaves := (deliversCustody transactional).workLeaves cadence calls begins
  rw [workWatched]
  unfold sinkTrace
  cases answer : before.watch.work sink.watched cadence range update calls with
  | mk result after =>
      rw [answer] at leaves
      cases result with
      | ok stats =>
          obtain ⟨last, delivers, _, same, quiet, ended⟩ := leaves
          have working := delivers.working
          rw [quiet, ← same] at working
          have durable := delivers.durable
          have all := delivers.done
          rw [← same] at durable all
          exact ⟨durable, ended, all, working⟩
      | error cause =>
          obtain ⟨done, initial, halts⟩ := leaves
          rw [← halts.done] at initial
          exact ⟨halts.durable, halts.closed, halts.broken, initial, halts.working⟩

/-- A replica whose second commit cannot be made. -/
def refusingStore : Store (Traced Replica) :=
  Replica.store.traced fun call count =>
    if call = .commit ∧ count = 2 then some .noTransaction else none

theorem refusingTransactional :
    refusingStore.toSink.Transactional (Replica.contents Traced.inner) :=
  Replica.transactionalOfBacked (Replica.tracedBacked (by simp))

/-- Of three blocks that are committed one by one, the first one is durable if the second commit
cannot be made, and no transaction stays open. -/
theorem deliversFirstBlock :
    let singly : Cadence := ⟨1, 1, Nat.one_pos, Nat.one_pos⟩
    let range : HeightRange := { start := 1, stop := 3 }
    let calls := [Record.blank 1, Record.blank 2, Record.blank 3].map Call.consume
    let before := new (Traced.new Replica.empty)
    let answer := before.work refusingStore.toSink singly range false calls
    before.inTransaction = false ∧ before.sink.inner.working = none ∧
      answer.1 = .error (.commit .commit .noTransaction) ∧
      answer.2.sink.inner.committed = Tables.empty.write false (.blank 1) ∧
      answer.2.sink.inner.working = none := by
  intro singly range calls before answer
  have delivered := deliversPrefix refusingTransactional singly range false calls before rfl rfl
  have broken : answer.1 = .error (.commit .commit .noTransaction) := by
    decide +kernel
  have made : (before.sinkTrace refusingStore.toSink singly range false calls).delivery =
      ⟨[(.blank 1, true)], [], []⟩ := by
    decide +kernel
  have undone : (SinkCall.rollback, false) ∉
      (before.sinkTrace refusingStore.toSink singly range false calls).calls := by
    decide +kernel
  dsimp only at delivered
  rw [made] at delivered
  obtain ⟨durable, _, halts⟩ := delivered
  rw [show (before.work refusingStore.toSink singly range false calls).1 = _ from broken] at halts
  exact ⟨rfl, rfl, broken, durable, halts.2.2 undone⟩

end Committer

end Backfill
