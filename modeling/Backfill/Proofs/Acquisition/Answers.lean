/-
This file says exactly what an observer sees of an acquisition from a fetcher: which heights are
asked for, what is handed on, and which failures are reported.
-/

import Backfill.Proofs.Acquisition.Deeds
import Backfill.Proofs.Acquisition.Remote

namespace Backfill.Fetcher

variable {fetcher : Fetcher} {heights : List Nat}

/-- The failure of a height, if the fetcher gives one. -/
def failureAt? (fetcher : Fetcher) (height : Nat) : Option FetchError :=
  match (fetcher height).fetched with
  | .failure error => some error
  | _ => none

/-- Whether a request for a height ends the worker that makes it. -/
def panics (fetcher : Fetcher) (height : Nat) : Bool :=
  match (fetcher height).fetched with
  | .panicked => true
  | _ => false

/-- The heights that fail with their failures, in the order of the heights. -/
def failures (fetcher : Fetcher) (heights : List Nat) : List (Nat × FetchError) :=
  heights.filterMap fun height => (fetcher.failureAt? height).map (height, ·)

/-- No request for one of these heights ends the worker that makes it. -/
def Calm (fetcher : Fetcher) (heights : List Nat) : Prop :=
  ∀ height ∈ heights, fetcher.panics height = false

instance (fetcher : Fetcher) (heights : List Nat) : Decidable (fetcher.Calm heights) :=
  inferInstanceAs (Decidable (∀ height ∈ heights, fetcher.panics height = false))

theorem recordsCons (fetcher : Fetcher) (height : Nat) (rest : List Nat) :
    fetcher.records (height :: rest) = (fetcher.recordAt? height).toList ++ fetcher.records rest := by
  rw [records, List.filterMap_cons]
  cases fetcher.recordAt? height <;> rfl

theorem failuresCons (fetcher : Fetcher) (height : Nat) (rest : List Nat) :
    fetcher.failures (height :: rest) =
      ((fetcher.failureAt? height).map (height, ·)).toList ++ fetcher.failures rest := by
  rw [failures, List.filterMap_cons]
  cases fetcher.failureAt? height <;> rfl

/-- The failures come in the order of the heights. -/
theorem failuresHeights (fetcher : Fetcher) (heights : List Nat) :
    (fetcher.failures heights).map Prod.fst =
      heights.filter fun height => (fetcher.failureAt? height).isSome := by
  induction heights with
  | nil => rfl
  | cons height rest inductionHypothesis =>
      cases failed : fetcher.failureAt? height <;>
        simp_all [failures]

/-- The answers with records come in the order of the heights. -/
theorem answersFound (fetcher : Fetcher) (heights : List Nat) :
    (fetcher.answers heights).map Prod.fst =
      heights.filter fun height => (fetcher.recordAt? height).isSome := by
  induction heights with
  | nil => rfl
  | cons height rest inductionHypothesis =>
      cases found : fetcher.recordAt? height <;>
        simp_all [answers]

/-- The records of heights are those of the answers to them. -/
theorem answersRecords (fetcher : Fetcher) (heights : List Nat) :
    (fetcher.answers heights).map Prod.snd = fetcher.records heights := by
  rw [answers, records, List.map_filterMap]
  congr 1
  funext height
  cases fetcher.recordAt? height <;> rfl

/-- A height that neither fails nor ends its worker has a record. -/
theorem recordOfAnswered {height : Nat} (calm : fetcher.panics height = false)
    (clean : fetcher.failureAt? height = none) : (fetcher.recordAt? height).isSome := by
  cases fetched : (fetcher height).fetched <;> simp_all [recordAt?, failureAt?, panics]

theorem failuresNil :
    fetcher.failures heights = [] ↔ ∀ height ∈ heights, fetcher.failureAt? height = none := by
  simp [failures, List.filterMap_eq_nil_iff]

/-- Calm heights without failures have as many records. -/
theorem recordsLength (calm : fetcher.Calm heights) (clean : fetcher.failures heights = []) :
    (fetcher.records heights).length = heights.length := by
  rw [← answersRecords, List.length_map, ← List.length_map (f := Prod.fst), answersFound,
    List.filter_eq_self.mpr]
  intro height inside
  exact recordOfAnswered (calm height inside) (failuresNil.mp clean height inside)

/-- What a request for a height by itself does: the height is asked for, and its record is handed
on at once. -/
def told (fetcher : Fetcher) (height : Nat) : List Deed :=
  .asked height :: ((fetcher.recordAt? height).map .handed).toList

@[simp] theorem askObserver (height : Nat) (before : List Deed) :
    Consumer.observer.ask fetcher height before =
      ((fetcher height).fetched, before ++ [.asked height]) := by
  simp only [Consumer.ask, Consumer.logAllObserver]
  rfl

/-- Requests one after another ask for each height and hand on the record of each that has one. -/
theorem fetchFromObserved (range : HeightRange) (left height : Nat) (tally : FetchTally)
    (before : List Deed) (calm : fetcher.Calm (List.range' height left)) :
    fetcher.fetchFrom .observer range left height tally before =
      (FetchTally.close range
          ⟨tally.emitted + (fetcher.records (List.range' height left)).length,
            (fetcher.failures (List.range' height left)).reverse ++ tally.failures⟩,
        before ++ (List.range' height left).flatMap fetcher.told) := by
  induction left generalizing height tally before with
  | zero => simp [fetchFrom, records, failures]
  | succ left inductionHypothesis =>
      rw [List.range'_succ] at calm ⊢
      have calmRest : fetcher.Calm (List.range' (height + 1) left) :=
        fun place inside => calm place (List.mem_cons_of_mem _ inside)
      cases fetched : (fetcher height).fetched with
      | record record =>
          have found := recordAtOfRecord fetched
          have clean : fetcher.failureAt? height = none := by simp [failureAt?, fetched]
          simp [fetchFrom, fetched, inductionHypothesis _ _ _ calmRest, recordsCons, failuresCons,
            found, clean, told, Nat.add_assoc, Nat.add_comm 1]
      | failure error =>
          have lacking := recordAtOfFailure fetched
          have failed : fetcher.failureAt? height = some error := by simp [failureAt?, fetched]
          simp [fetchFrom, fetched, inductionHypothesis _ _ _ calmRest, recordsCons, failuresCons,
            lacking, failed, told]
      | panicked =>
          have quiet := calm height List.mem_cons_self
          simp [panics, fetched] at quiet

/-- A height at which a worker ends has no record. -/
theorem lackingOfPanics {height : Nat} (panicked : fetcher.panics height = true) :
    fetcher.recordAt? height = none := by
  cases fetched : (fetcher height).fetched <;> simp_all [recordAt?, panics]

/-- Among heights that are not calm one has no record. -/
theorem lackingOfPanicked (panicked : ¬fetcher.Calm heights) :
    ∃ height ∈ heights, fetcher.recordAt? height = none := by
  simp only [Calm, not_forall, Bool.not_eq_false] at panicked
  obtain ⟨height, inside, ended⟩ := panicked
  exact ⟨height, inside, lackingOfPanics ended⟩

/-- Among heights that fail one has no record. -/
theorem lackingOfFailures (failed : fetcher.failures heights ≠ []) :
    ∃ height ∈ heights, fetcher.recordAt? height = none := by
  simp only [ne_eq, failuresNil, not_forall] at failed
  obtain ⟨height, inside, failed⟩ := failed
  refine ⟨height, inside, ?_⟩
  cases fetched : (fetcher height).fetched <;> simp_all [recordAt?, failureAt?]

/-- An acquisition of heights asks for an initial part of them, which is all of them unless one that
was asked for has no record. -/
def Asks (fetcher : Fetcher) (heights asked : List Nat) : Prop :=
  ∃ done left, heights = done ++ left ∧ asked.Perm done ∧
    (left = [] ∨ ∃ height ∈ done, fetcher.recordAt? height = none)

theorem asksAll {asked : List Nat} (perm : asked.Perm heights) : fetcher.Asks heights asked :=
  ⟨heights, [], (List.append_nil heights).symm, perm, .inl rfl⟩

theorem asksCons (height : Nat) {rest asked : List Nat} (asks : fetcher.Asks rest asked) :
    fetcher.Asks (height :: rest) (height :: asked) := by
  obtain ⟨done, left, rfl, perm, ends⟩ := asks
  refine ⟨height :: done, left, rfl, perm.cons height, ends.imp_right ?_⟩
  exact fun ⟨place, inside, lacking⟩ => ⟨place, List.mem_cons_of_mem height inside, lacking⟩

/-- A request that ends its worker ends the acquisition, which asks for every height up to that one.
-/
theorem fetchFromPanicked (range : HeightRange) (left height : Nat) (tally : FetchTally)
    (before : List Deed) (panicked : ¬fetcher.Calm (List.range' height left)) :
    ∃ deeds, fetcher.fetchFrom .observer range left height tally before =
        (.ended workerPanicked, before ++ deeds) ∧
      fetcher.Asks (List.range' height left) (Deed.heights deeds) := by
  induction left generalizing height tally before with
  | zero => simp [Calm] at panicked
  | succ left inductionHypothesis =>
      rw [List.range'_succ] at panicked ⊢
      have panickedRest (quiet : fetcher.panics height = false) :
          ¬fetcher.Calm (List.range' (height + 1) left) := fun calm =>
        panicked (List.forall_mem_cons.mpr ⟨quiet, calm⟩)
      cases fetched : (fetcher height).fetched with
      | record record =>
          obtain ⟨deeds, same, asked⟩ := inductionHypothesis (height + 1)
            { tally with emitted := tally.emitted + 1 }
            (before ++ [.asked height] ++ [.handed record])
            (panickedRest (by simp [panics, fetched]))
          refine ⟨.asked height :: .handed record :: deeds, ?_, ?_⟩
          · simp only [fetchFrom, askObserver, fetched, Consumer.consumeObserver, same]
            simp
          · exact asksCons height asked
      | failure error =>
          obtain ⟨deeds, same, asked⟩ := inductionHypothesis (height + 1)
            { tally with failures := (height, error) :: tally.failures }
            (before ++ [.asked height]) (panickedRest (by simp [panics, fetched]))
          refine ⟨.asked height :: deeds, ?_, ?_⟩
          · simp only [fetchFrom, askObserver, fetched, Consumer.logObserver, same]
            simp
          · exact asksCons height asked
      | panicked =>
          exact ⟨[.asked height], by simp [fetchFrom, fetched], [height], _, rfl, .refl _,
            .inr ⟨height, List.mem_cons_self, recordAtOfPanicked fetched⟩⟩

/-- One by one the heights of a range are asked for. -/
theorem acquireSequentialAsks (fetcher : Fetcher) (range : HeightRange) :
    fetcher.Asks range.heights
      (Deed.heights (fetcher.acquireSequential .observer range []).2) := by
  unfold acquireSequential
  by_cases calm : fetcher.Calm range.heights
  · rw [fetchFromObserved range range.size range.start .blank [] calm, List.nil_append]
    refine asksAll (.of_eq ?_)
    show Deed.heights (range.heights.flatMap fetcher.told) = range.heights
    induction range.heights with
    | nil => rfl
    | cons height rest inductionHypothesis =>
        rw [List.flatMap_cons, Deed.heightsAppend, inductionHypothesis, told]
        cases fetcher.recordAt? height <;> rfl
  · obtain ⟨deeds, same, asks⟩ :=
      fetchFromPanicked range range.size range.start .blank [] calm
    rw [same]
    exact asks

/-- The workers of a window ask for the heights that arrive, and bring every record and every
failure of them. -/
theorem haulFromObserved (window : HeightRange) (arrivals : List Nat) (received failed : Nat)
    (haul : Haul) (before : List Deed) :
    fetcher.haulFrom .observer window arrivals received failed haul before =
      (⟨(fetcher.answers arrivals).reverse ++ haul.records,
          (fetcher.failures arrivals).reverse ++ haul.failures,
          arrivals.any fetcher.panics || haul.panicked⟩,
        before ++ arrivals.map .asked) := by
  have progress (received failed : Nat) (deeds : List Deed) :
      noteProgress Consumer.observer window received failed deeds = deeds := by
    simp [noteProgress]
  induction arrivals generalizing received failed haul before with
  | nil => simp [haulFrom, answers, failures]
  | cons height rest inductionHypothesis =>
      cases fetched : (fetcher height).fetched with
      | record record =>
          simp [haulFrom, fetched, progress, inductionHypothesis, answers, failures, failureAt?,
            recordAt?, panics]
      | failure error =>
          simp [haulFrom, fetched, progress, inductionHypothesis, answers, failures, failureAt?,
            recordAt?, panics]
      | panicked =>
          simp [haulFrom, fetched, inductionHypothesis, answers, failures, failureAt?,
            recordAt?, panics]

end Backfill.Fetcher
