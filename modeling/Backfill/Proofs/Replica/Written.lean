/-
This file shows what records do to tables whose rows are not replaced. Provided that no hash stands
for two heights, a block record decides about its own height only.
-/

import Backfill.Proofs.Replica.Entries

namespace Backfill

/-- A relation of hashes to heights in which no hash stands for two heights. -/
def Unambiguous (names : String → Int → Prop) : Prop :=
  ∀ hash first second, names hash first → names hash second → first = second

/-- The record of a block whose hash stands for its height. -/
def Record.NamedBy (names : String → Int → Prop) (record : Record) : Prop :=
  record.isBlock = true ∧ names record.keyText record.height.toNat

namespace Tables

/-- Tables in which the hash of each block stands for its height. -/
def NamedBy (names : String → Int → Prop) (tables : Tables) : Prop :=
  ∀ (hash : String) (row : BlockRow), tables.blocks[hash]? = some row → names hash row.height

/-- Every row of the first tables is a row of the second ones. -/
structure Within (first second : Tables) : Prop where
  blocks : ∀ (hash : String) (row : BlockRow),
    first.blocks[hash]? = some row → second.blocks[hash]? = some row
  transactions : ∀ (key : TransactionKey) (raw : Bytes),
    first.transactions[key]? = some raw → second.transactions[key]? = some raw
  changes : ∀ (key : ChangeKey) (row : ChangeRow),
    first.changes[key]? = some row → second.changes[key]? = some row

theorem withinRefl (tables : Tables) : tables.Within tables :=
  ⟨fun _ _ found => found, fun _ _ found => found, fun _ _ found => found⟩

theorem withinTrans {first second third : Tables} (lower : first.Within second)
    (upper : second.Within third) : first.Within third :=
  ⟨fun hash row found => upper.blocks hash row (lower.blocks hash row found),
    fun key raw found => upper.transactions key raw (lower.transactions key raw found),
    fun key row found => upper.changes key row (lower.changes key row found)⟩

variable {names : String → Int → Prop} {tables : Tables} {record : Record} {height : Int}

/-- A record that deletes nothing leaves every row as it is. -/
theorem withinWrite (keeps : record.operation ≠ .delete) :
    tables.Within (tables.write false record) := by
  constructor
  · intro hash row found
    exact (tables.getBlockEnter ⟨false, record⟩ hash).trans (Write.effectKeeps rfl keeps found)
  · intro key raw found
    exact (tables.getTransactionEnter ⟨false, record⟩ key).trans
      (Write.effectKeeps rfl keeps found)
  · intro key row found
    exact (tables.getChangeEnter ⟨false, record⟩ key).trans (Write.effectKeeps rfl keeps found)

/-- Records that delete nothing leave every row as it is. -/
theorem withinWriteAll {records : List Record}
    (keep : ∀ record ∈ records, record.operation ≠ .delete) :
    tables.Within (tables.writeAll false records) := by
  induction records generalizing tables with
  | nil => exact withinRefl tables
  | cons record rest inductionHypothesis =>
      exact withinTrans (withinWrite (keep record List.mem_cons_self))
        (inductionHypothesis fun other member => keep other (List.mem_cons_of_mem _ member))

/-- Rows that stay keep their heights populated. -/
theorem populatedOfWithin {more : Tables} (within : tables.Within more)
    (populated : tables.Populated height) : more.Populated height := by
  obtain ⟨hash, row, found, same⟩ := populated
  exact ⟨hash, row, within.blocks hash row found, same⟩

/-- The row that a block which is stored adds, if it adds any, has the hash and the height of the
block. -/
theorem rowOfWrite {hash : String} {row : BlockRow}
    (found : (tables.write false record).blocks[hash]? = some row) :
    tables.blocks[hash]? = some row ∨
      record.operation ≠ .delete ∧ record.isStorable = true ∧ hash = record.keyText ∧
        row.height = record.height.toNat := by
  rcases rowOfEnter (show (tables.enter ⟨false, record⟩).blocks[hash]? = some row from found) with
    before | ⟨⟨⟨_, same⟩, storable⟩, keeps, stored⟩
  · exact .inl before
  · exact .inr ⟨keeps, storable, same.symm, (heightOfRow stored).1⟩

/-- The hashes of blocks go on standing for their heights. -/
theorem namedWrite (named : tables.NamedBy names) (recordNamed : record.NamedBy names) :
    (tables.write false record).NamedBy names := by
  intro hash row found
  rcases rowOfWrite found with before | ⟨_, _, rfl, same⟩
  · exact named hash row before
  · rw [same]
    exact recordNamed.2

/-- A record says nothing about other heights than its own. -/
theorem populatedOther (unambiguous : Unambiguous names) (named : tables.NamedBy names)
    (recordNamed : record.NamedBy names) (other : height ≠ record.height.toNat) :
    (tables.write false record).Populated height ↔ tables.Populated height := by
  constructor
  · rintro ⟨hash, row, found, rfl⟩
    rcases rowOfWrite found with before | ⟨_, _, _, same⟩
    · exact ⟨hash, row, before, rfl⟩
    · exact absurd same other
  · rintro ⟨hash, row, found, rfl⟩
    have apart : ¬(Write.mk false record).Of hash := by
      rintro ⟨⟨_, rfl⟩, _⟩
      exact other (unambiguous _ _ _ (named _ row found) recordNamed.2)
    have entered := tables.getBlockEnter ⟨false, record⟩ hash
    rw [Write.onBlockOf, if_neg apart, Effect.runIdle] at entered
    exact ⟨hash, row, entered.trans found, rfl⟩

/-- A block that is stored populates its height. -/
theorem populatedStored (unambiguous : Unambiguous names) (named : tables.NamedBy names)
    (recordNamed : record.NamedBy names) (keeps : record.operation ≠ .delete)
    (storable : record.isStorable = true) :
    (tables.write false record).Populated record.height.toNat := by
  have own : (Write.mk false record).Of record.keyText := ⟨⟨recordNamed.1, rfl⟩, storable⟩
  obtain ⟨row, stored, effect⟩ := Write.onBlockKept own keeps
  have entered := tables.getBlockEnter ⟨false, record⟩ record.keyText
  rw [effect] at entered
  cases known : tables.blocks[record.keyText]? with
  | some before =>
      apply populatedOfWithin (withinWrite keeps)
      exact ⟨_, before, known, unambiguous _ _ _ (named _ before known) recordNamed.2⟩
  | none =>
      rw [known] at entered
      exact ⟨record.keyText, row, entered, (heightOfRow stored).1⟩

/-- The height of a block record has a block afterwards if it had one before and the record does
not delete it, or if the record is stored. -/
theorem populatedOwn (unambiguous : Unambiguous names) (named : tables.NamedBy names)
    (recordNamed : record.NamedBy names)
    (settled : record.operation ≠ .delete ∨ ¬tables.Populated record.height.toNat) :
    (tables.write false record).Populated record.height.toNat ↔
      tables.Populated record.height.toNat ∨
        record.operation ≠ .delete ∧ record.isStorable = true := by
  constructor
  · rintro ⟨hash, row, found, same⟩
    rcases rowOfWrite found with before | ⟨keeps, storable, _, _⟩
    · exact .inl ⟨hash, row, before, same⟩
    · exact .inr ⟨keeps, storable⟩
  · rintro (populated | ⟨keeps, storable⟩)
    · rcases settled with keeps | absent
      · exact populatedOfWithin (withinWrite keeps) populated
      · exact absurd populated absent
    · exact populatedStored unambiguous named recordNamed keeps storable

section Several

variable {records : List Record}

theorem namedWriteAll (named : tables.NamedBy names)
    (recordsNamed : ∀ record ∈ records, record.NamedBy names) :
    (tables.writeAll false records).NamedBy names := by
  induction records generalizing tables with
  | nil => exact named
  | cons record rest inductionHypothesis =>
      exact inductionHypothesis (namedWrite named (recordsNamed record List.mem_cons_self))
        fun other member => recordsNamed other (List.mem_cons_of_mem _ member)

/-- Records say nothing about heights that none of them has. -/
theorem populatedAllOther (unambiguous : Unambiguous names) (named : tables.NamedBy names)
    (recordsNamed : ∀ record ∈ records, record.NamedBy names)
    (others : ∀ record ∈ records, height ≠ record.height.toNat) :
    (tables.writeAll false records).Populated height ↔ tables.Populated height := by
  induction records generalizing tables with
  | nil => rfl
  | cons record rest inductionHypothesis =>
      have first := recordsNamed record List.mem_cons_self
      rw [writeAll, List.foldl_cons, ← writeAll,
        inductionHypothesis (namedWrite named first)
          (fun other member => recordsNamed other (List.mem_cons_of_mem _ member))
          fun other member => others other (List.mem_cons_of_mem _ member),
        populatedOther unambiguous named first (others record List.mem_cons_self)]

/-- Of records with different heights, the one with a height that has no block decides about it: it
has a block afterwards if that record is stored. -/
theorem populatedAllOnce (unambiguous : Unambiguous names) (named : tables.NamedBy names)
    (recordsNamed : ∀ record ∈ records, record.NamedBy names)
    (once : (Record.heights records).Nodup) (absent : ¬tables.Populated height) :
    (tables.writeAll false records).Populated height ↔
      ∃ record ∈ records, height = record.height.toNat ∧ record.operation ≠ .delete ∧
        record.isStorable = true := by
  induction records generalizing tables with
  | nil => simp [writeAll, absent]
  | cons record rest inductionHypothesis =>
      have first := recordsNamed record List.mem_cons_self
      have later : ∀ other ∈ rest, other.NamedBy names :=
        fun other member => recordsNamed other (List.mem_cons_of_mem _ member)
      obtain ⟨apart, restOnce⟩ := List.nodup_cons.mp once
      rw [writeAll, List.foldl_cons, ← writeAll]
      by_cases own : height = record.height.toNat
      · subst own
        have others : ∀ other ∈ rest, (record.height.toNat : Int) ≠ other.height.toNat := by
          intro other member equal
          refine apart (List.mem_map.mpr ⟨other, member, ?_⟩)
          exact (Int.ofNat_inj.mp equal).symm
        rw [populatedAllOther unambiguous (namedWrite named first) later others,
          populatedOwn unambiguous named first (.inr absent)]
        constructor
        · rintro (populated | ⟨keeps, storable⟩)
          · exact absurd populated absent
          · exact ⟨record, List.mem_cons_self, rfl, keeps, storable⟩
        · rintro ⟨other, member, same, keeps, storable⟩
          rcases List.mem_cons.mp member with rfl | inside
          · exact .inr ⟨keeps, storable⟩
          · exact absurd same (others other inside)
      · have still : ¬(tables.write false record).Populated height :=
          mt (populatedOther unambiguous named first own).mp absent
        rw [inductionHypothesis (namedWrite named first) later restOnce still]
        simp [own]

/-- After blocks were stored, a height has a block if it had one before or if one of the blocks that
could be stored has it. -/
theorem populatedAllStored (unambiguous : Unambiguous names) (named : tables.NamedBy names)
    (recordsNamed : ∀ record ∈ records, record.NamedBy names)
    (keep : ∀ record ∈ records, record.operation ≠ .delete) :
    (tables.writeAll false records).Populated height ↔
      tables.Populated height ∨
        ∃ record ∈ records, height = record.height.toNat ∧ record.isStorable = true := by
  induction records generalizing tables with
  | nil => simp [writeAll]
  | cons record rest inductionHypothesis =>
      have first := recordsNamed record List.mem_cons_self
      have keeps := keep record List.mem_cons_self
      rw [writeAll, List.foldl_cons, ← writeAll,
        inductionHypothesis (namedWrite named first)
          (fun other member => recordsNamed other (List.mem_cons_of_mem _ member))
          fun other member => keep other (List.mem_cons_of_mem _ member)]
      have own : (tables.write false record).Populated height ↔ tables.Populated height ∨
          height = record.height.toNat ∧ record.isStorable = true := by
        by_cases same : height = record.height.toNat
        · subst same
          rw [populatedOwn unambiguous named first (.inl keeps)]
          simp [keeps]
        · rw [populatedOther unambiguous named first same]
          simp [same]
      rw [own, or_assoc]
      simp

end Several

end Tables

end Backfill
