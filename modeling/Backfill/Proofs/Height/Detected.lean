/-
This file shows that missing ranges are detected only if they are in order. An index may answer
whatever it likes: its ranges are handed on as they are, refused at the first two neighbours that are
out of order, or not known at all.
-/

import Backfill.Height.Index
import Backfill.Proofs.Height.Complement

namespace Backfill

section Order

variable {ranges : List HeightRange}

/-- Ranges are separated as soon as each is separated from the next, since none of them is empty. -/
theorem separatedOfAccepted (accepted : gapConflict? ranges = none) : Separated ranges := by
  fun_induction gapConflict? ranges with
  | case1 first second rest touching => cases accepted
  | case2 first second rest distant inductionHypothesis =>
      have later := inductionHypothesis accepted
      refine List.pairwise_cons.mpr ⟨fun range member => ?_, later⟩
      have next : first.stop + 1 < second.start := Nat.lt_of_not_le distant
      rcases List.mem_cons.mp member with rfl | behind
      · exact next
      · have apart : second.stop + 1 < range.start := List.rel_of_pairwise_cons later behind
        have ordered := second.ordered
        omega
  | case3 ranges short =>
      cases ranges with
      | nil => exact List.Pairwise.nil
      | cons first rest =>
          cases rest with
          | nil => exact List.pairwise_singleton _ _
          | cons second rest => exact absurd rfl (short first second rest)

theorem acceptedIff : gapConflict? ranges = none ↔ Separated ranges :=
  ⟨separatedOfAccepted, gapConflictEqNone⟩

/-- A conflict is about two neighbours that touch, overlap or descend. -/
def GapConflict.Divides (conflict : GapConflict) (ranges : List HeightRange) : Prop :=
  [conflict.first, conflict.second] <:+: ranges ∧
    conflict.second.start ≤ conflict.first.stop + 1

theorem dividesOfConflict {conflict : GapConflict} (found : gapConflict? ranges = some conflict) :
    conflict.Divides ranges := by
  fun_induction gapConflict? ranges with
  | case1 first second rest touching =>
      obtain rfl := Option.some.inj found
      exact ⟨⟨[], rest, rfl⟩, touching⟩
  | case2 first second rest distant inductionHypothesis =>
      obtain ⟨inside, touching⟩ := inductionHypothesis found
      exact ⟨inside.trans (List.suffix_cons first _).isInfix, touching⟩
  | case3 => cases found

/-- Ranges that are not separated have two neighbours that are not. -/
theorem conflictOfTouching (touching : ¬Separated ranges) :
    ∃ conflict, gapConflict? ranges = some conflict ∧ conflict.Divides ranges := by
  obtain ⟨conflict, found⟩ := Option.ne_none_iff_exists'.mp (mt separatedOfAccepted touching)
  exact ⟨conflict, found, dividesOfConflict found⟩

/-- Words are accepted as the heights that they are, although the successor of the largest word is
that word itself. -/
theorem acceptsIff {words : List WordRange} (hold : WordRange.Hold words ranges) :
    WordRange.accepts words = true ↔ Separated ranges := by
  rw [WordRange.acceptsEq hold, Option.isNone_iff_eq_none, acceptedIff]

end Order

/-- The ranges between the heights of an index, behind the range below the lowest of them if that is
asked for and there is one. -/
def rangesNamed (fromGenesis : Bool) (lowest : Nat) (interior : List HeightRange) :
    List HeightRange :=
  if asked : fromGenesis = true ∧ 0 < lowest then
    ⟨0, lowest - 1, Nat.le_pred_of_lt asked.2⟩ :: interior
  else interior

theorem rangesNamedEq (fromGenesis : Bool) (lowest : Nat) (interior : List HeightRange) :
    rangesNamed fromGenesis lowest interior =
      (if fromGenesis then (rangeBelow? lowest).toList else []) ++ interior := by
  unfold rangesNamed rangeBelow?
  cases fromGenesis with
  | false => rfl
  | true =>
      by_cases positive : 0 < lowest
      · rw [dif_pos ⟨rfl, positive⟩, if_pos rfl, if_pos positive]
        rfl
      · rw [dif_neg (mt And.right positive), if_pos rfl, if_neg positive]
        rfl

/-- Behind the range below the lowest height, separated ranges lie above that height. -/
theorem aboveLowest {lowest : Nat} {interior : List HeightRange} (positive : 0 < lowest)
    (separated : Separated (rangesNamed true lowest interior)) :
    ∀ range ∈ interior, lowest < range.start := by
  intro range member
  rw [rangesNamed, dif_pos ⟨rfl, positive⟩] at separated
  have apart : lowest - 1 + 1 < range.start := List.rel_of_pairwise_cons separated member
  omega

namespace HeightIndex

variable {σ : Type} {index : HeightIndex σ} {state : σ} {fromGenesis : Bool}

/-- What is detected where the index names a lowest height and the ranges between its heights. -/
theorem detectGapsNamed {lowest : Nat} {interior : List HeightRange}
    (least : index.lowest state = .ok (some lowest)) (between : index.interior state = .ok interior) :
    index.detectGaps fromGenesis state =
      match gapConflict? (rangesNamed fromGenesis lowest interior) with
      | some conflict => .error (.gapOrder conflict.message)
      | none => .ok (rangesNamed fromGenesis lowest interior) := by
  rw [rangesNamedEq]
  unfold detectGaps
  rw [least, between]
  rfl

/-- What is detected was named by the index and is separated, unless the index is empty. -/
theorem namedOfDetected {gaps : List HeightRange}
    (detected : index.detectGaps fromGenesis state = .ok gaps) :
    (index.lowest state = .ok none ∧ gaps = []) ∨
      ∃ lowest interior, index.lowest state = .ok (some lowest) ∧
        index.interior state = .ok interior ∧
        gaps = rangesNamed fromGenesis lowest interior ∧ Separated gaps := by
  cases least : index.lowest state with
  | error cause =>
      rw [detectGaps, least] at detected
      cases detected
  | ok lowest =>
      cases lowest with
      | none =>
          rw [detectGaps, least] at detected
          cases detected
          exact .inl ⟨rfl, rfl⟩
      | some lowest =>
          cases between : index.interior state with
          | error cause =>
              rw [detectGaps, least, between] at detected
              cases detected
          | ok interior =>
              rw [detectGapsNamed least between] at detected
              split at detected
              · cases detected
              · rename_i accepted
                cases detected
                exact .inr ⟨lowest, interior, rfl, rfl, rfl, separatedOfAccepted accepted⟩

/-- Whatever an index answers, ranges are detected only if each of them is separated from every
later one. -/
theorem detectsInOrder {σ : Type} (index : HeightIndex σ) (state : σ) (fromGenesis : Bool) :
    (∀ cause, index.lowest state = .error cause →
      index.detectGaps fromGenesis state = .error cause) ∧
    (index.lowest state = .ok none → index.detectGaps fromGenesis state = .ok []) ∧
    (∀ lowest, index.lowest state = .ok (some lowest) →
      (∀ cause, index.interior state = .error cause →
        index.detectGaps fromGenesis state = .error cause) ∧
      ∀ interior, index.interior state = .ok interior →
        let ranges := rangesNamed fromGenesis lowest interior
        (Separated ranges → index.detectGaps fromGenesis state = .ok ranges) ∧
        (¬Separated ranges → ∃ conflict : GapConflict, conflict.Divides ranges ∧
          index.detectGaps fromGenesis state = .error (.gapOrder conflict.message)) ∧
        ∀ words, WordRange.Hold words ranges →
          (WordRange.accepts words = true ↔ Separated ranges)) ∧
    ∀ gaps, index.detectGaps fromGenesis state = .ok gaps → gaps ≠ [] →
      ∃ lowest interior, index.lowest state = .ok (some lowest) ∧
        index.interior state = .ok interior ∧
        gaps = rangesNamed fromGenesis lowest interior ∧ Separated gaps ∧
        (fromGenesis = true → 0 < lowest → ∀ range ∈ interior, lowest < range.start) := by
  refine ⟨fun cause failed => ?_, fun empty => ?_, fun lowest least => ⟨fun cause failed => ?_,
    fun interior between => ⟨fun separated => ?_, fun touching => ?_, fun words hold => ?_⟩⟩,
    fun gaps detected some => ?_⟩
  · rw [detectGaps, failed]
    rfl
  · rw [detectGaps, empty]
    rfl
  · rw [detectGaps, least, failed]
    rfl
  · rw [detectGapsNamed least between, gapConflictEqNone separated]
  · obtain ⟨conflict, found, divides⟩ := conflictOfTouching touching
    refine ⟨conflict, divides, ?_⟩
    rw [detectGapsNamed least between, found]
  · exact acceptsIff hold
  · rcases namedOfDetected detected with ⟨_, none⟩ | ⟨lowest, interior, least, between, named, apart⟩
    · exact absurd none some
    · refine ⟨lowest, interior, least, between, named, apart, ?_⟩
      rintro rfl positive
      exact aboveLowest positive (named ▸ apart)

/-- An index that answers with a range that touches the one below its lowest height is refused. -/
example :
    let index : HeightIndex Unit :=
      ⟨fun _ => .ok [⟨5, 7, by decide⟩], fun _ => .ok (some 5), fun _ _ => .ok true⟩
    index.detectGaps true () = .error (.gapOrder "[0, 4] followed by [5, 7]") := by
  rfl

end HeightIndex

end Backfill
