/-
This file shows that sections of named values are read back as a table of tables, one line of the
file after the other.
-/

import Backfill.Config.Written
import Backfill.Proofs.Toml.Values

namespace Backfill

namespace Toml

variable {character : Char} {key name : String} {text rest : List Char}

/-- A key without quotes. -/
structure BareKey (key : String) : Prop where
  nonempty : key.toList ≠ []
  bare : ∀ character ∈ key.toList, isBare character = true

instance (key : String) : Decidable (BareKey key) :=
  decidable_of_iff (key.toList ≠ [] ∧ key.toList.all isBare = true)
    ⟨fun facts => ⟨facts.1, List.all_eq_true.mp facts.2⟩,
      fun key => ⟨key.nonempty, List.all_eq_true.mpr key.bare⟩⟩

section Keys

theorem dropGapsOther (other : isGap character = false) :
    dropGaps (character :: text) = character :: text :=
  List.dropWhile_cons_of_neg (by rw [other]; decide)

/-- A key without quotes begins with no character of a notation. -/
theorem BareKey.first (bareKey : BareKey key) :
    ∃ first more, key.toList = first :: more ∧ isBare first = true := by
  obtain ⟨first, more, same⟩ := List.exists_cons_of_ne_nil bareKey.nonempty
  exact ⟨first, more, same, bareKey.bare first (same ▸ List.mem_cons_self)⟩

theorem apartOfBare {mark : Char} (bare : isBare character = true) (other : isBare mark = false) :
    character ≠ mark := by
  rintro rfl
  exact absurd (bare.symm.trans other) (by decide)

theorem gapOfBare (bare : isBare character = true) : isGap character = false := by
  have blank := apartOfBare bare (show isBare ' ' = false by decide)
  have tab := apartOfBare bare (show isBare '\t' = false by decide)
  simp only [isGap, blank, tab, decide_false, Bool.or_self]

/-- A key without quotes is read up to another character. -/
theorem readKeyPartBare (bareKey : BareKey key) (other : isBare character = false) :
    readKeyPart (key.toList ++ character :: rest) = some (key.toList, character :: rest) := by
  have taken : (key.toList ++ character :: rest).takeWhile isBare = key.toList := by
    rw [List.takeWhile_append_of_pos bareKey.bare,
      List.takeWhile_cons_of_neg (by rw [other]; decide), List.append_nil]
  have dropped : (key.toList ++ character :: rest).dropWhile isBare = character :: rest := by
    rw [List.dropWhile_append_of_pos bareKey.bare,
      List.dropWhile_cons_of_neg (by rw [other]; decide)]
  obtain ⟨first, more, same, bare⟩ := bareKey.first
  rw [readKeyPart, taken, dropped]
  · rw [same]
  · intro after opens
    rw [same] at opens
    exact apartOfBare bare (by decide) (List.cons.inj opens).1
  · intro after opens
    rw [same] at opens
    exact apartOfBare bare (by decide) (List.cons.inj opens).1

/-- A key without quotes and dots is read up to the mark after it. -/
theorem readKeyBare {mark : Char} {after : List Char} (bareKey : BareKey key)
    (other : isBare character = false) (stops : dropGaps (character :: rest) = mark :: after)
    (dot : mark ≠ '.') :
    readKey (key.toList ++ character :: rest) = some (⟨[], key⟩, mark :: after) := by
  have atKey : dropGaps (key.toList ++ character :: rest) = key.toList ++ character :: rest := by
    obtain ⟨first, more, same, bare⟩ := bareKey.first
    rw [same]
    exact dropGapsOther (gapOfBare bare)
  have parts : readKeyParts (maxDepth - 1) (key.toList ++ character :: rest) =
      some ([key], mark :: after) := by
    change readKeyParts (78 + 1) _ = _
    rw [readKeyParts, atKey]
    simp only [readKeyPartBare bareKey other, Option.bind_eq_bind, Option.bind_some, stops,
      String.ofList_toList]
    split
    · rename_i same
      exact absurd (List.cons.inj same).1 dot
    · rfl
  rw [readKey, parts]
  rfl

end Keys

end Toml

namespace Entry

/-- A number fits a signed word. -/
def Fits : Entry → Prop
  | .number value => value ≤ maxSigned
  | _ => True

/-- What a value is written as, if it fits. -/
def spelled : Entry → List Char
  | .text value => (Toml.quoted value).toList
  | .number value => (toString value).toList
  | .boolean value => (if value then "true" else "false").toList

/-- What a value is read as. -/
def datum : Entry → Datum
  | .text value => .text (some value)
  | .number value => .number (.integer value)
  | .boolean value => .boolean value

theorem writtenOfFits {entry : Entry} (fits : entry.Fits) :
    ∃ text, entry.written? = some text ∧ text.toList = entry.spelled := by
  cases entry with
  | text value => exact ⟨_, rfl, rfl⟩
  | number value => exact ⟨_, if_pos fits, rfl⟩
  | boolean value => exact ⟨_, rfl, rfl⟩

theorem writtenNone {entry : Entry} (large : ¬entry.Fits) : entry.written? = none := by
  cases entry with
  | text value => exact absurd trivial large
  | number value => exact if_neg large
  | boolean value => exact absurd trivial large

/-- A value begins with no blank. -/
theorem spelledGaps (entry : Entry) (rest : List Char) :
    Toml.dropGaps (entry.spelled ++ rest) = entry.spelled ++ rest := by
  cases entry with
  | text value =>
      rw [spelled, Toml.quotedCharacters]
      cases (Toml.Needs.of value.toList).quoting <;> exact Toml.dropGapsOther (by decide)
  | number value =>
      obtain ⟨digits, writes⟩ := Json.digitsOfNat value
      obtain ⟨first, others, rfl⟩ := List.exists_cons_of_ne_nil writes.nonempty
      have gaps : ∀ digit < 10, Toml.isGap (Nat.digitChar digit) = false := by decide
      rw [spelled, Toml.naturalCharacters writes]
      exact Toml.dropGapsOther (gaps first (writes.small first List.mem_cons_self))
  | boolean value => cases value <;> rfl

/-- A value that fits is read back at the end of its line. -/
theorem readSpelled {entry : Entry} (fits : entry.Fits) (fuel depth : Nat) (rest : List Char) :
    Toml.readValue (fuel + 1) depth (entry.spelled ++ '\n' :: rest) =
      some (entry.datum, '\n' :: rest) := by
  cases entry with
  | text value => exact Toml.readValueQuoted value
  | number value => exact Toml.readValueNatural fits
  | boolean value => exact Toml.readValueBoolean value

/-- The line of a named value. -/
def line (named : String × Entry) : List Char :=
  named.1.toList ++ ' ' :: '=' :: ' ' :: (named.2.spelled ++ ['\n'])

end Entry

namespace Toml

/-- However much fuel there is beyond the length of the text, the lines of a file lead from a draft
to the members of its root. -/
def Reads (draft : Draft) (text : List Char) (members : Members) : Prop :=
  ∀ fuel, text.length < fuel → (readLines fuel draft text).bind Draft.finish = some members

section Lines

variable {draft next : Draft} {members : Members} {rest : List Char} {name : String}

theorem readsEnd (finished : draft.finish = some members) : Reads draft [] members := by
  intro fuel room
  obtain ⟨fuel, rfl⟩ := Nat.exists_eq_add_one_of_ne_zero (Nat.ne_of_gt room)
  exact finished

theorem readsBlank (reads : Reads draft rest members) : Reads draft ('\n' :: rest) members := by
  intro fuel room
  obtain ⟨fuel, rfl⟩ := Nat.exists_eq_add_one_of_ne_zero (Nat.ne_zero_of_lt room)
  rw [List.length_cons] at room
  exact reads fuel (by omega)

/-- A line with a header starts its table. -/
theorem readsHeader (bareKey : BareKey name) (starts : draft.startTable ⟨[], name⟩ = some next)
    (reads : Reads next rest members) :
    Reads draft ('[' :: (name.toList ++ ']' :: '\n' :: rest)) members := by
  intro fuel room
  obtain ⟨fuel, rfl⟩ := Nat.exists_eq_add_one_of_ne_zero (Nat.ne_zero_of_lt room)
  simp only [List.length_cons, List.length_append] at room
  have key : readKey (name.toList ++ ']' :: '\n' :: rest) =
      some (⟨[], name⟩, ']' :: '\n' :: rest) :=
    readKeyBare bareKey (by decide) (dropGapsOther (by decide)) (by decide)
  have ends : lineEnd? ('\n' :: rest) = some rest := rfl
  obtain ⟨first, more, same, bare⟩ := bareKey.first
  rw [← reads fuel (by omega), readLines, dropGapsOther (by decide)]
  split
  · rename_i none
    cases none
  · rename_i twice
    rw [same] at twice
    exact absurd (List.cons.inj (List.cons.inj twice).2).1 (apartOfBare bare (by decide))
  · rename_i once
    rw [← (List.cons.inj once).2, key]
    simp only [Option.bind_eq_bind, Option.bind_some, expect, if_true, starts, ends]
  · rename_i other
    exact absurd rfl (other _)

/-- A line with a key and a value defines the key. -/
theorem readsLine {named : String × Entry} (bareKey : BareKey named.1) (fits : named.2.Fits)
    (defines : draft.define ⟨[], named.1⟩ named.2.datum = some next)
    (reads : Reads next rest members) : Reads draft (Entry.line named ++ rest) members := by
  intro fuel room
  obtain ⟨fuel, rfl⟩ := Nat.exists_eq_add_one_of_ne_zero (Nat.ne_zero_of_lt room)
  have text : Entry.line named ++ rest =
      named.1.toList ++ ' ' :: '=' :: ' ' :: (named.2.spelled ++ '\n' :: rest) := by
    simp only [Entry.line, List.append_assoc, List.cons_append, List.nil_append]
  rw [text] at room ⊢
  simp only [List.length_cons, List.length_append] at room
  have key : readKey (named.1.toList ++ ' ' :: '=' :: ' ' :: (named.2.spelled ++ '\n' :: rest)) =
      some (⟨[], named.1⟩, '=' :: ' ' :: (named.2.spelled ++ '\n' :: rest)) :=
    readKeyBare bareKey (by decide) rfl (by decide)
  have value (fuel : Nat) : readValue (fuel + 1) 0
      (dropGaps (' ' :: (named.2.spelled ++ '\n' :: rest))) =
        some (named.2.datum, '\n' :: rest) := by
    rw [show dropGaps (' ' :: (named.2.spelled ++ '\n' :: rest)) =
      dropGaps (named.2.spelled ++ '\n' :: rest) from rfl, named.2.spelledGaps]
    exact Entry.readSpelled fits fuel 0 rest
  have ends : lineEnd? ('\n' :: rest) = some rest := rfl
  obtain ⟨first, more, same, bare⟩ := bareKey.first
  rw [same, List.cons_append] at key ⊢
  have bracket : first ≠ '[' := apartOfBare bare (by decide)
  have noComment : first ≠ '#' := apartOfBare bare (by decide)
  have noBreak : lineBreak? (first :: (more ++
      ' ' :: '=' :: ' ' :: (named.2.spelled ++ '\n' :: rest))) = none := by
    have feed : first ≠ '\n' := apartOfBare bare (by decide)
    have home : first ≠ '\r' := apartOfBare bare (by decide)
    unfold lineBreak?
    split <;> simp_all
  rw [← reads fuel (by omega), readLines, dropGapsOther (gapOfBare bare)]
  split
  · rename_i none
    cases none
  · rename_i opens
    exact absurd (List.cons.inj opens).1 bracket
  · rename_i opens
    exact absurd (List.cons.inj opens).1 bracket
  · rw [if_neg (by simp [noComment, noBreak]), key]
    simp only [Option.bind_eq_bind, Option.bind_some, expect, if_true, value, defines, ends]

end Lines

end Toml

namespace Section

open Toml (Members Draft Reads BareKey)

variable {part : Section} {parts : List Section} {root result : Members} {rest : List Char}

/-- All numbers of a section fit. -/
def Fits (part : Section) : Prop :=
  ∀ named ∈ part.entries, named.2.Fits

/-- The name and the keys of a section need no quotes, and the keys are distinct. -/
structure Plain (part : Section) : Prop where
  name : BareKey part.name
  keys : ∀ named ∈ part.entries, BareKey named.1
  distinct : (part.entries.map Prod.fst).Nodup

section Written

/-- What a section is written as, if its numbers fit. -/
def spelled (part : Section) : List Char :=
  '[' :: (part.name.toList ++ ']' :: '\n' :: part.entries.flatMap Entry.line)

theorem writtenLines {entries : List (String × Entry)} (fits : ∀ named ∈ entries, named.2.Fits) :
    ∃ lines, (entries.mapM fun (key, entry) => do
        return key ++ " = " ++ (← entry.written?) ++ "\n") = some lines ∧
      (String.join lines).toList = entries.flatMap Entry.line := by
  induction entries with
  | nil => exact ⟨[], rfl, rfl⟩
  | cons named rest inductionHypothesis =>
      obtain ⟨key, entry⟩ := named
      obtain ⟨here, later⟩ := List.forall_mem_cons.mp fits
      obtain ⟨text, written, same⟩ := Entry.writtenOfFits here
      obtain ⟨lines, others, joined⟩ := inductionHypothesis later
      refine ⟨(key ++ " = " ++ text ++ "\n") :: lines, ?_, ?_⟩
      · rw [List.mapM_cons, others]
        dsimp only
        rw [written]
        rfl
      · rw [String.join_cons, String.toList_append, joined, List.flatMap_cons]
        simp only [String.toList_append, same, Entry.line, List.append_assoc, List.cons_append]
        rfl

theorem writtenOfFits (fits : part.Fits) :
    ∃ text, part.written? = some text ∧ text.toList = part.spelled := by
  obtain ⟨lines, written, joined⟩ := writtenLines fits
  refine ⟨"[" ++ part.name ++ "]\n" ++ String.join lines, ?_, ?_⟩
  · rw [written?, written]
    rfl
  · simp only [String.toList_append, joined, spelled, List.append_assoc]
    rfl

/-- A list of readings fails if one of them does. -/
theorem mapMNone {α β : Type} {act : α → Option β} {items : List α} {item : α}
    (member : item ∈ items) (fails : act item = none) : items.mapM act = none := by
  induction items with
  | nil => cases member
  | cons first rest inductionHypothesis =>
      rw [List.mapM_cons]
      rcases List.mem_cons.mp member with rfl | later
      · rw [fails]
        rfl
      · rw [inductionHypothesis later]
        cases act first <;> rfl

theorem writtenNone (large : ¬part.Fits) : part.written? = none := by
  simp only [Fits, Classical.not_forall] at large
  obtain ⟨named, member, large⟩ := large
  have line : (do return named.1 ++ " = " ++ (← named.2.written?) ++ "\n") =
      (none : Option String) := by
    rw [Entry.writtenNone large]
    rfl
  rw [written?, mapMNone member line]
  rfl

/-- Sections are written if all their numbers fit. -/
theorem writtenAll (fits : ∀ part ∈ parts, part.Fits) :
    ∃ texts, parts.mapM written? = some texts ∧ texts.map String.toList = parts.map spelled := by
  induction parts with
  | nil => exact ⟨[], rfl, rfl⟩
  | cons part rest inductionHypothesis =>
      obtain ⟨here, later⟩ := List.forall_mem_cons.mp fits
      obtain ⟨text, written, same⟩ := writtenOfFits here
      obtain ⟨texts, others, spelt⟩ := inductionHypothesis later
      refine ⟨text :: texts, ?_, ?_⟩
      · rw [List.mapM_cons, written, others]
        rfl
      · rw [List.map_cons, List.map_cons, same, spelt]

end Written

section Read

theorem lookupFresh {members : Members} {key : String} (fresh : key ∉ members.map Prod.fst) :
    members.lookup key = none := by
  refine List.lookup_eq_none_iff.mpr fun member listed => ?_
  exact bne_iff_ne.mpr fun same => fresh (same ▸ List.mem_map_of_mem listed)

/-- The members that named values define. -/
def members (entries : List (String × Entry)) : Members :=
  entries.map fun named => (named.1, .value named.2.datum)

theorem membersNames (entries : List (String × Entry)) :
    (members entries).map Prod.fst = entries.map Prod.fst :=
  List.map_map

/-- The table that a section defines. -/
def node (part : Section) : String × Toml.Node :=
  (part.name, .table false false (members part.entries))

theorem defineOk {draft : Draft} {key : String} (datum : Datum)
    (fresh : key ∉ draft.current.map Prod.fst) :
    draft.define ⟨[], key⟩ datum =
      some { draft with current := draft.current ++ [(key, .value datum)] } := by
  have defined : Toml.define ⟨[], key⟩ datum false draft.current =
      if (draft.current.lookup key).isSome then none
      else some (draft.current ++ [(key, .value datum)]) := rfl
  rw [Draft.define, defined, lookupFresh fresh]
  rfl

theorem finishOk {current : Members} {name : String} (fresh : name ∉ root.map Prod.fst) :
    Draft.finish ⟨root, current, some (⟨[], name⟩, false)⟩ =
      some (root ++ [(name, .table false false current)]) := by
  unfold Draft.finish Toml.Edit.at
  dsimp only
  rw [lookupFresh fresh]
  rfl

theorem startOk {draft : Draft} {name : String} (finished : draft.finish = some root)
    (fresh : name ∉ root.map Prod.fst) :
    draft.startTable ⟨[], name⟩ = some ⟨root, [], some (⟨[], name⟩, false)⟩ := by
  have claimed : Toml.claim ⟨[], name⟩ root = some (root, []) := by
    rw [Toml.claim, Toml.claim.find, lookupFresh fresh]
    rfl
  rw [Draft.startTable, finished]
  change (Toml.claim ⟨[], name⟩ root >>= _) = _
  rw [claimed]
  rfl

/-- Lines add what they define to what is defined before. -/
theorem readsLines (before : List (String × Entry)) {entries : List (String × Entry)}
    {header : Option (Toml.KeyPath × Bool)} (keys : ∀ named ∈ entries, BareKey named.1)
    (fits : ∀ named ∈ entries, named.2.Fits) (distinct : ((before ++ entries).map Prod.fst).Nodup)
    (reads : Reads ⟨root, members (before ++ entries), header⟩ rest result) :
    Reads ⟨root, members before, header⟩ (entries.flatMap Entry.line ++ rest) result := by
  induction entries generalizing before with
  | nil =>
      rw [List.append_nil] at reads
      exact reads
  | cons named others inductionHypothesis =>
      obtain ⟨bareKey, keys⟩ := List.forall_mem_cons.mp keys
      obtain ⟨here, fits⟩ := List.forall_mem_cons.mp fits
      have fresh : named.1 ∉ (members before).map Prod.fst := by
        rw [membersNames]
        intro listed
        rw [List.map_append] at distinct
        exact (List.nodup_append.mp distinct).2.2 _ listed _ List.mem_cons_self rfl
      rw [List.append_cons] at distinct reads
      have later := inductionHypothesis _ keys fits distinct reads
      rw [List.flatMap_cons, List.append_assoc]
      refine Toml.readsLine bareKey here (defineOk named.2.datum fresh) ?_
      rw [members, List.map_append] at later
      exact later

/-- A section adds its table to the root. -/
theorem readsSection {draft : Draft} (plain : part.Plain) (fits : part.Fits)
    (finished : draft.finish = some root) (fresh : part.name ∉ root.map Prod.fst)
    (reads : ∀ next : Draft, next.finish = some (root ++ [part.node]) → Reads next rest result) :
    Reads draft (part.spelled ++ rest) result := by
  have text : part.spelled ++ rest =
      '[' :: (part.name.toList ++ ']' :: '\n' :: (part.entries.flatMap Entry.line ++ rest)) := by
    simp only [spelled, List.cons_append, List.append_assoc]
  rw [text]
  refine Toml.readsHeader plain.name (startOk finished fresh) ?_
  exact readsLines [] plain.keys fits plain.distinct (reads _ (finishOk fresh))

/-- Sections with a blank line between them add their tables to the root. -/
theorem readsSections {draft : Draft} (plain : ∀ part ∈ parts, part.Plain)
    (fits : ∀ part ∈ parts, part.Fits) (finished : draft.finish = some root)
    (distinct : (root.map Prod.fst ++ parts.map Section.name).Nodup) :
    Reads draft (List.intercalate ['\n'] (parts.map spelled)) (root ++ parts.map node) := by
  induction parts generalizing draft root with
  | nil =>
      rw [List.map_nil, List.map_nil, List.append_nil]
      exact Toml.readsEnd finished
  | cons part others inductionHypothesis =>
      obtain ⟨plainHere, plain⟩ := List.forall_mem_cons.mp plain
      obtain ⟨fitsHere, fits⟩ := List.forall_mem_cons.mp fits
      have fresh : part.name ∉ root.map Prod.fst := fun listed =>
        (List.nodup_append.mp distinct).2.2 _ listed _ List.mem_cons_self rfl
      have later (next : Draft) (finished : next.finish = some (root ++ [part.node])) :
          Reads next (List.intercalate ['\n'] (others.map spelled))
            (root ++ (part :: others).map node) := by
        rw [List.map_cons, List.append_cons]
        refine inductionHypothesis plain fits finished ?_
        rw [List.map_append, List.append_assoc]
        exact distinct
      cases others with
      | nil =>
          rw [List.map_singleton, List.intercalate_singleton, ← List.append_nil part.spelled]
          exact readsSection plainHere fitsHere finished fresh later
      | cons second others =>
          rw [List.map_cons, List.map_cons, List.intercalate_cons_cons, List.append_assoc,
            ← List.map_cons]
          exact readsSection plainHere fitsHere finished fresh fun next finished =>
            Toml.readsBlank (later next finished)

/-- What a section is read as. -/
def member (part : Section) : Option String × Datum :=
  (some part.name,
    .table (part.entries.map fun named => (some named.1, named.2.datum)) .closed)

theorem membersToData (entries : List (String × Entry)) :
    Toml.membersToData (members entries) =
      entries.map fun named => (some named.1, named.2.datum) := by
  induction entries with
  | nil => rfl
  | cons named rest inductionHypothesis =>
      rw [members, List.map_cons, Toml.membersToData, ← members, inductionHypothesis]
      rfl

theorem nodesToData (parts : List Section) :
    Toml.membersToData (parts.map node) = parts.map member := by
  induction parts with
  | nil => rfl
  | cons part rest inductionHypothesis =>
      rw [List.map_cons, node, Toml.membersToData, Toml.Node.toDatum, membersToData,
        inductionHypothesis]
      rfl

/-- Sections of distinct names are read back from the file that they are written as. -/
theorem readOfWritten {texts : List String} (plain : ∀ part ∈ parts, part.Plain)
    (fits : ∀ part ∈ parts, part.Fits) (distinct : (parts.map Section.name).Nodup)
    (same : texts.map String.toList = parts.map spelled) :
    Toml.ofText ("\n".intercalate texts) = some (.table (parts.map member) .closed) := by
  have spelt : ("\n".intercalate texts).toList =
      List.intercalate ['\n'] (parts.map spelled) := by
    rw [String.toList_intercalate, same]
    rfl
  have unmarked : Toml.dropMark (List.intercalate ['\n'] (parts.map spelled)) =
      List.intercalate ['\n'] (parts.map spelled) := by
    match parts with
    | [] => rfl
    | [part] => rfl
    | part :: second :: others => rfl
  have reads : Reads .blank (List.intercalate ['\n'] (parts.map spelled))
      ([] ++ parts.map node) :=
    readsSections plain fits rfl distinct
  have lines := reads _ (Nat.lt_succ_self _)
  rw [Toml.ofText, spelt, unmarked]
  obtain ⟨draft, read, finished⟩ := Option.bind_eq_some_iff.mp lines
  simp only [Option.bind_eq_bind, read, finished, Option.bind_some, List.nil_append, nodesToData]
  rfl

end Read

end Section

end Backfill
