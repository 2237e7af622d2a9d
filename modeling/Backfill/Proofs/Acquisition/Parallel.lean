/-
This file says exactly what a crew does for a range, whatever its schedule: it goes through the
windows in order, and hands on each as a whole, up to the first window in which a height fails.
-/

import Backfill.Proofs.Acquisition.Answers
import Backfill.Proofs.Acquisition.Interleaving

namespace Backfill.Fetcher

variable {κ : Type} {fetcher : Fetcher} {crew : Crew}

/-- Acquires windows one after another, up to the first one that fails. -/
def acquireEach (fetcher : Fetcher) (consumer : Consumer κ) (crew : Crew) (range : HeightRange) :
    List HeightRange → Nat → κ → Acquired × κ
  | [], emitted, state => (.emitted emitted, state)
  | window :: rest, emitted, state =>
      match fetcher.acquireWindow consumer crew range window emitted state with
      | (.emitted emitted, state) => fetcher.acquireEach consumer crew range rest emitted state
      | (other, state) => (other, state)

/-- What is left of a range is acquired window by window. -/
theorem acquireWindowsEach (fetcher : Fetcher) (consumer : Consumer κ) (crew : Crew)
    (range : HeightRange) (width : Nat) (left : HeightRange) (emitted : Nat) (state : κ) :
    fetcher.acquireWindows consumer crew range width left emitted state =
      fetcher.acquireEach consumer crew range (left.windows width) emitted state := by
  fun_induction fetcher.acquireWindows consumer crew range width left emitted state with
  | case1 left emitted state count next acquired last =>
      simp [HeightRange.windowsOfNone last, acquireEach, acquired]
  | case2 left emitted state count next acquired rest more _ inductionHypothesis =>
      simp [HeightRange.windowsOfSome more, acquireEach, acquired, inductionHypothesis]
  | case3 left emitted state other next never acquired =>
      obtain ⟨later, windows⟩ := left.windowsFirst width
      rw [windows, acquireEach, acquired]
      cases other with
      | emitted count => exact (never count rfl).elim
      | failed error => rfl
      | ended cause => rfl

/-- What is done for a window that is handed on: its heights are asked for in the order in which
they arrive, its records are handed on in the order of heights, and then made durable. -/
def served (fetcher : Fetcher) (crew : Crew) (window : HeightRange) : List Deed :=
  (crew.arrivals window).map .asked ++
    ((fetcher.records window.heights).map .handed ++ [.settled])

/-- The records of a window are brought in the order of heights, whatever order they arrive in. -/
theorem sortedRecordsArrived (fetcher : Fetcher) (crew : Crew) (window : HeightRange) :
    (byHeight (fetcher.answers (crew.arrivals window)).reverse).map Prod.snd =
      fetcher.records window.heights := by
  rw [← answersRecords, byHeightOfPerm]
  · rw [answersFound]
    exact window.heightsAscend.filter _
  · exact (List.reverse_perm _).trans ((crew.arrivalsPerm window).filterMap _)

/-- The failures of a window are reported in the order of heights. -/
theorem sortedFailuresArrived (fetcher : Fetcher) (crew : Crew) (window : HeightRange) :
    byHeight (fetcher.failures (crew.arrivals window)).reverse =
      fetcher.failures window.heights := by
  refine byHeightOfPerm ?_ ?_
  · rw [failuresHeights]
    exact window.heightsAscend.filter _
  · exact (List.reverse_perm _).trans ((crew.arrivalsPerm window).filterMap _)

/-- A window is asked for in whatever order its heights arrive. -/
theorem acquireWindowObserved (crew : Crew) (range window : HeightRange) (emitted : Nat)
    (before : List Deed) (calm : fetcher.Calm window.heights) :
    fetcher.acquireWindow .observer crew range window emitted before =
      if fetcher.failures window.heights = [] then
        (.emitted (emitted + (fetcher.records window.heights).length),
          before ++ fetcher.served crew window)
      else
        (.failed (.ofFailures range (fetcher.failures window.heights)
            (emitted + (fetcher.records window.heights).length)),
          before ++ (crew.arrivals window).map .asked) := by
  have arrived := crew.arrivalsPerm window
  have quiet : (crew.arrivals window).any fetcher.panics = false := by
    rw [List.any_eq_false]
    intro height inside
    simp [calm height (arrived.mem_iff.mp inside)]
  have brought : (fetcher.answers (crew.arrivals window)).length =
      (fetcher.records window.heights).length := by
    rw [← answersRecords, List.length_map]
    exact (arrived.filterMap _).length_eq
  have failed : fetcher.failures (crew.arrivals window) = [] ↔
      fetcher.failures window.heights = [] := by
    simp only [failuresNil, arrived.mem_iff]
  simp only [acquireWindow, haulWindow, haulFromObserved, quiet, Haul.sortedRecords,
    Haul.sortedFailures, Haul.blank, List.append_nil, sortedRecordsArrived, sortedFailuresArrived,
    List.isEmpty_reverse, List.length_reverse, brought, Bool.or_false, Bool.false_eq_true, if_false]
  by_cases clean : fetcher.failures window.heights = []
  · simp [clean, failed, served]
  · simp [clean, failed]

/-- Windows in which no height fails are handed on one after another. -/
theorem acquireEachServed (crew : Crew) (range : HeightRange) {done : List HeightRange}
    (rest : List HeightRange) (emitted : Nat) (before : List Deed)
    (calm : ∀ window ∈ done, fetcher.Calm window.heights)
    (clean : ∀ window ∈ done, fetcher.failures window.heights = []) :
    fetcher.acquireEach .observer crew range (done ++ rest) emitted before =
      fetcher.acquireEach .observer crew range rest
        (emitted + (fetcher.records (done.flatMap (·.heights))).length)
        (before ++ done.flatMap (fetcher.served crew)) := by
  induction done generalizing emitted before with
  | nil => simp [records]
  | cons window done inductionHypothesis =>
      have first := acquireWindowObserved crew range window emitted before
        (calm window List.mem_cons_self)
      rw [if_pos (clean window List.mem_cons_self)] at first
      rw [List.cons_append, acquireEach, first]
      simp only [inductionHypothesis _ _ (List.forall_mem_cons.mp calm).2
        (List.forall_mem_cons.mp clean).2, List.flatMap_cons, recordsAppend, List.length_append,
        List.append_assoc, Nat.add_assoc]

/-- A request that ends its worker ends the run, once the whole window is asked for. -/
theorem acquireWindowPanicked (crew : Crew) (range window : HeightRange) (emitted : Nat)
    (before : List Deed) (panicked : ¬fetcher.Calm window.heights) :
    fetcher.acquireWindow .observer crew range window emitted before =
      (.ended workerPanicked, before ++ (crew.arrivals window).map .asked) := by
  have ended : (crew.arrivals window).any fetcher.panics = true := by
    simp only [Calm, not_forall, Bool.not_eq_false] at panicked
    obtain ⟨height, inside, ended⟩ := panicked
    exact List.any_eq_true.mpr ⟨height, (crew.arrivalsPerm window).mem_iff.mpr inside, ended⟩
  simp [acquireWindow, haulWindow, haulFromObserved, ended]

/-- A window is asked for as a whole, and is handed on unless one of its heights has no record. -/
theorem acquireWindowAsks (fetcher : Fetcher) (crew : Crew) (range window : HeightRange)
    (emitted : Nat) (before : List Deed) :
    ∃ acquired deeds,
      fetcher.acquireWindow .observer crew range window emitted before =
          (acquired, before ++ deeds) ∧
        Deed.heights deeds = crew.arrivals window ∧
        ((∃ count, acquired = .emitted count) ∨
          ∃ height ∈ window.heights, fetcher.recordAt? height = none) := by
  by_cases calm : fetcher.Calm window.heights
  · rw [acquireWindowObserved crew range window emitted before calm]
    by_cases clean : fetcher.failures window.heights = []
    · rw [if_pos clean]
      exact ⟨_, _, rfl, by simp [served, Deed.height?], .inl ⟨_, rfl⟩⟩
    · rw [if_neg clean]
      exact ⟨_, _, rfl, by simp, .inr (lackingOfFailures clean)⟩
  · exact ⟨.ended workerPanicked, (crew.arrivals window).map .asked,
      acquireWindowPanicked crew range window emitted before calm, by simp,
      .inr (lackingOfPanicked calm)⟩

/-- Windows are asked for in order, up to the first one in which a height has no record. -/
theorem acquireEachAsks (fetcher : Fetcher) (crew : Crew) (range : HeightRange)
    (windows : List HeightRange) (emitted : Nat) (before : List Deed) :
    ∃ deeds, (fetcher.acquireEach .observer crew range windows emitted before).2 =
        before ++ deeds ∧
      fetcher.Asks (windows.flatMap (·.heights)) (Deed.heights deeds) := by
  induction windows generalizing emitted before with
  | nil => exact ⟨[], (List.append_nil before).symm, asksAll (.refl [])⟩
  | cons window rest inductionHypothesis =>
      obtain ⟨acquired, deeds, same, asked, ends⟩ :=
        fetcher.acquireWindowAsks crew range window emitted before
      have arrived := crew.arrivalsPerm window
      have stopped (never : ∀ count, acquired ≠ .emitted count) :
          fetcher.Asks ((window :: rest).flatMap (·.heights)) (Deed.heights deeds) := by
        rcases ends with ⟨count, emitted⟩ | lacking
        · exact absurd emitted (never count)
        · exact ⟨window.heights, _, List.flatMap_cons, asked ▸ arrived, .inr lacking⟩
      rw [acquireEach, same]
      cases acquired with
      | failed error => exact ⟨deeds, rfl, stopped (by simp)⟩
      | ended cause => exact ⟨deeds, rfl, stopped (by simp)⟩
      | emitted count =>
          obtain ⟨more, sameRest, done, left, split, perm, last⟩ :=
            inductionHypothesis count (before ++ deeds)
          refine ⟨deeds ++ more, by rw [← List.append_assoc]; exact sameRest,
            window.heights ++ done, left, ?_, ?_, last.imp_right ?_⟩
          · rw [List.flatMap_cons, split, List.append_assoc]
          · rw [Deed.heightsAppend, asked]
            exact arrived.append perm
          · exact fun ⟨height, inside, lacking⟩ => ⟨height, List.mem_append_right _ inside, lacking⟩

/-- Window by window the heights of a range are asked for. -/
theorem acquireParallelAsks (fetcher : Fetcher) (crew : Crew) (width : Nat)
    (range : HeightRange) :
    fetcher.Asks range.heights
      (Deed.heights (fetcher.acquireParallel .observer crew width range []).2) := by
  obtain ⟨deeds, same, asks⟩ :=
    fetcher.acquireEachAsks crew range (range.windows width) 0 []
  rw [range.windowsHeights] at asks
  rw [acquireParallel, acquireWindowsEach, same]
  exact asks

/-- Whatever its schedule is, a crew hands on the windows of a range up to the first one in which
heights fail. -/
theorem acquireParallelWindows (fetcher : Fetcher) (crew : Crew) (width : Nat)
    (range : HeightRange) (calm : fetcher.Calm range.heights) :
    (∀ window ∈ range.windows width, crew.Drains window) ∧
    (fetcher.failures range.heights = [] →
      Does (fun _ consumer => fetcher.acquireParallel consumer crew width range)
        (.emitted range.size) ((range.windows width).flatMap (fetcher.served crew))) ∧
    (∀ done window later, range.windows width = done ++ window :: later →
      (∀ earlier ∈ done, fetcher.failures earlier.heights = []) →
      fetcher.failures window.heights ≠ [] →
      Does (fun _ consumer => fetcher.acquireParallel consumer crew width range)
        (.failed (.ofFailures range (fetcher.failures window.heights)
          (fetcher.records ((done ++ [window]).flatMap (·.heights))).length))
        (done.flatMap (fetcher.served crew) ++ (crew.arrivals window).map .asked)) := by
  obtain ⟨acquired, calls, same, -⟩ := fetcher.acquireParallelPerforms crew width range
  have calmWindow (window : HeightRange) (inside : window ∈ range.windows width) :
      fetcher.Calm window.heights :=
    fun height member => calm height (HeightRange.windowSubset inside member)
  refine ⟨fun window _ => crew.drains window, ?_, ?_⟩
  · intro clean
    refine doesOfObserved (fun _ => same) ?_
    have served := acquireEachServed crew range [] 0 [] calmWindow
      fun window inside => failuresNil.mpr fun height member =>
        failuresNil.mp clean height (HeightRange.windowSubset inside member)
    rw [acquireParallel, acquireWindowsEach, ← List.append_nil (range.windows width), served]
    simp [acquireEach, range.windowsHeights, recordsLength calm clean, range.lengthHeights]
  · intro done window later windows clean failing
    refine doesOfObserved (fun _ => same) ?_
    rw [windows] at calmWindow
    have served := acquireEachServed crew range (window :: later) 0 []
      (fun earlier inside => calmWindow earlier (List.mem_append_left _ inside)) clean
    have stopped := acquireWindowObserved crew range window
      (0 + (fetcher.records (done.flatMap (·.heights))).length)
      ([] ++ done.flatMap (fetcher.served crew)) (calmWindow window (by simp))
    rw [if_neg failing] at stopped
    rw [acquireParallel, acquireWindowsEach, windows, served, acquireEach, stopped]
    simp [recordsAppend]

/-- A fetcher that has the blank blocks of all heights but one. -/
def blanksBut (missing : Nat) : Fetcher := fun height =>
  if height = missing then ⟨.failure (.permanent height "missing"), []⟩
  else ⟨.record (.blank height), []⟩

/-- Two workers of whom the second one answers first. -/
def overtaking : Crew :=
  ⟨2, fun _ count => [.hand, .hand, .take, .take].getD count (.answer 1)⟩

/-- Two workers hand on the windows of six heights, but only the first one without the height three.
-/
theorem acquireParallelBlanks :
    Does (fun _ consumer => (blanksBut 9).acquireParallel consumer overtaking 2 ⟨0, 5, by decide⟩)
        (.emitted 6)
        ([[0, 1], [2, 3], [4, 5]].flatMap fun heights =>
          heights.reverse.map .asked ++ (heights.map (.handed ∘ .blank) ++ [.settled])) ∧
      Does (fun _ consumer => (blanksBut 3).acquireParallel consumer overtaking 2 ⟨0, 5, by decide⟩)
        (.failed ⟨⟨0, 5, by decide⟩, .partly [3] 1⟩)
        [.asked 1, .asked 0, .handed (.blank 0), .handed (.blank 1), .settled,
          .asked 3, .asked 2] := by
  have whole := (acquireParallelWindows (blanksBut 9) overtaking 2 ⟨0, 5, by decide⟩
    (by decide)).2.1 (by decide)
  have stopped := (acquireParallelWindows (blanksBut 3) overtaking 2 ⟨0, 5, by decide⟩
    (by decide)).2.2 [⟨0, 1, by decide⟩] ⟨2, 3, by decide⟩ [⟨4, 5, by decide⟩] (by cbv)
    (by decide) (by decide)
  have windows : HeightRange.windows ⟨0, 5, by decide⟩ 2 =
      [⟨0, 1, by decide⟩, ⟨2, 3, by decide⟩, ⟨4, 5, by decide⟩] := by cbv
  have first : overtaking.arrivals ⟨0, 1, by decide⟩ = [1, 0] := by cbv
  have second : overtaking.arrivals ⟨2, 3, by decide⟩ = [3, 2] := by cbv
  have third : overtaking.arrivals ⟨4, 5, by decide⟩ = [5, 4] := by cbv
  have failure : RangeError.ofFailures ⟨0, 5, by decide⟩ [(3, .permanent 3 "missing")] 3 =
      ⟨⟨0, 5, by decide⟩, .partly [3] 1⟩ := by cbv
  simp only [windows, served, first, second, third, List.flatMap_cons, List.flatMap_nil]
    at whole stopped
  exact ⟨whole, failure ▸ stopped⟩

end Backfill.Fetcher
