/-
This file shows what reading a file gives after a file was written: the file itself has the new
content, and every other file keeps its own.
-/

import Backfill.File.Host

namespace Backfill.FileTree

variable {tree next : FileTree} {spot place : Place} {path : String}

theorem nodePutOther (node : FileNode) (other : place ≠ spot) :
    (tree.put spot node).node? place = tree.node? place := by
  have kept : (tree.nodes.filter (·.1 ≠ spot)).lookup place = tree.nodes.lookup place := by
    induction tree.nodes with
    | nil => rfl
    | cons first rest inductionHypothesis =>
        obtain ⟨key, value⟩ := first
        by_cases same : key = spot
        · have different : (place == key) = false := beq_false_of_ne (same ▸ other)
          rw [List.filter_cons_of_neg (by simpa using same), inductionHypothesis,
            List.lookup_cons, different]
        · rw [List.filter_cons_of_pos (by simpa using same), List.lookup_cons, List.lookup_cons,
            inductionHypothesis]
  have different : (place == spot) = false := beq_false_of_ne other
  unfold node? put
  rw [List.lookup_cons, different, kept]

/-- A place at which no directory stands. -/
def IsPlain (tree : FileTree) (place : Place) : Prop :=
  ∀ mode, tree.node? place ≠ some ⟨.directory, mode⟩

/-- A path goes on only from directories. -/
theorem directoryOfEnter (entered : tree.enter place = .ok ()) :
    ∃ mode, tree.node? place = some ⟨.directory, mode⟩ := by
  unfold enter at entered
  split at entered
  · cases entered
  · exact ⟨_, ‹_›⟩
  · cases entered

/-- Paths lead where they led when something is put at a place that is no directory. -/
theorem followPut (node : FileNode) (plain : tree.IsPlain spot) {start : Place} {steps : List String}
    (followed : tree.follow start steps = .ok place) :
    (tree.put spot node).follow start steps = .ok place := by
  induction steps generalizing start with
  | nil => exact followed
  | cons step rest inductionHypothesis =>
      rw [follow] at followed ⊢
      cases entered : tree.enter start with
      | error fault =>
          rw [entered] at followed
          cases followed
      | ok =>
          obtain ⟨mode, directory⟩ := directoryOfEnter entered
          have other : start ≠ spot := by
            rintro rfl
            exact plain mode directory
          have enters : (tree.put spot node).enter start = .ok () := by
            rw [enter, nodePutOther node other]
            exact entered
          rw [entered] at followed
          rw [enters]
          exact inductionHypothesis followed

theorem placePut (node : FileNode) (plain : tree.IsPlain spot) (leads : tree.place path = .ok place) :
    (tree.put spot node).place path = .ok place := by
  unfold FileTree.place at leads ⊢
  split at leads
  · cases leads
  · rw [if_neg ‹_›]
    exact followPut node plain leads

/-- A path leads to a place, and a file with a content stands there. -/
def Has (tree : FileTree) (path : String) (place : Place) (content : Array UInt8) : Prop :=
  tree.place path = .ok place ∧ ∃ mode, tree.node? place = some ⟨.file content, mode⟩

theorem readOfHas {content : Array UInt8} (has : tree.Has path place content) :
    tree.read path = .ok content := by
  obtain ⟨leads, mode, node⟩ := has
  simp only [read, leads, bind, Except.bind, node]
  rfl

/-- Writing a file puts its new content where the path leads to. -/
theorem putOfModify {content : Array UInt8} (modified : tree.modify path (fun _ => content) = .ok next) :
    ∃ place mode, tree.place path = .ok place ∧ place ≠ [] ∧ tree.IsPlain place ∧
      next = tree.put place ⟨.file content, mode⟩ := by
  unfold modify at modified
  cases leads : tree.place path with
  | error fault =>
      rw [leads] at modified
      cases modified
  | ok place =>
      rw [leads] at modified
      simp only [bind, Except.bind] at modified
      have below (node : tree.node? place ≠ some ⟨.directory, directoryMode⟩) : place ≠ [] := by
        rintro rfl
        exact node rfl
      split at modified
      · rename_i nothing
        refine ⟨place, _, rfl, below (by simp [nothing]), ?_, (Except.ok.inj modified).symm⟩
        intro mode
        simp [nothing]
      · cases modified
      · rename_i old mode file
        refine ⟨place, _, rfl, below (by simp [file]), ?_, (Except.ok.inj modified).symm⟩
        intro mode
        simp [file]

/-- Writing a file changes no place that a path leads to. -/
theorem placeOfModify {content : Array UInt8} {other : String}
    (modified : tree.modify path (fun _ => content) = .ok next) (leads : tree.place other = .ok spot) :
    next.place other = .ok spot := by
  obtain ⟨place, mode, _, _, plain, rfl⟩ := putOfModify modified
  exact placePut _ plain leads

/-- A file that was written has the new content. -/
theorem hasOfModify {content : Array UInt8} (modified : tree.modify path (fun _ => content) = .ok next) :
    ∃ place, tree.place path = .ok place ∧ next.Has path place content := by
  obtain ⟨place, mode, leads, below, plain, rfl⟩ := putOfModify modified
  exact ⟨place, leads, placePut _ plain leads, mode, nodePut tree place _ below⟩

/-- A file keeps its content when another one is written. -/
theorem hasOfModifyOther {other : String} {content old : Array UInt8}
    (modified : tree.modify path (fun _ => content) = .ok next) (has : tree.Has other spot old)
    (apart : tree.place path ≠ .ok spot) : next.Has other spot old := by
  obtain ⟨place, mode, leads, below, plain, rfl⟩ := putOfModify modified
  obtain ⟨otherLeads, otherMode, node⟩ := has
  have different : spot ≠ place := by
    rintro rfl
    exact apart leads
  exact ⟨placePut _ plain otherLeads, otherMode, (nodePutOther _ different).trans node⟩

end Backfill.FileTree
