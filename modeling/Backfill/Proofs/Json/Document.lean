/-
This file shows that a value that was written is read back as the tree of the value. A value is exact
if it has no doubles and its whole numbers are words.
-/

import Backfill.Proofs.Json.Tokens
import Mathlib.Data.List.Forall2

namespace Backfill.Json

open Text.Utf8 (encode)

/-- Bytes are read as a value, whatever containers are open and whatever follows. -/
def ReadsAs (bytes : List UInt8) (datum : Datum) : Prop :=
  ∀ rest, Ended rest → ∃ token more next, tokens (bytes ++ rest) = token :: more ∧
    expectationAfter? token = some next ∧
      ∀ frames, assemble next frames more = assemble (.separator datum) frames (tokens rest)

/-- Bytes are read as a member of a table. -/
def ReadsMember (bytes : List UInt8) (member : Option String × Datum) : Prop :=
  ∀ rest, Ended rest → ∃ pieces more, tokens (bytes ++ rest) = .text pieces :: more ∧
    ∀ frames members, assemble (.colon members (textOf? pieces)) frames more =
      assemble (.separator member.2) (.table members member.1 :: frames) (tokens rest)

/-- A token of its own is read as its value. -/
theorem readsToken {bytes : List UInt8} {token : Token} {datum : Datum}
    (expected : expectationAfter? token = some (.separator datum))
    (read : ∀ rest, Ended rest → tokens (bytes ++ rest) = token :: tokens rest) :
    ReadsAs bytes datum :=
  fun rest ended => ⟨token, tokens rest, .separator datum, read rest ended, expected, fun _ => rfl⟩

theorem readsQuoted (text : String) : ReadsAs (encode (quoted text)) (.text (some text)) := by
  obtain ⟨pieces, same, read⟩ := tokensQuoted text
  refine readsToken ?_ fun rest _ => read rest
  rw [expectationAfter?, same]

theorem readsInteger {value : Int} (fits : Fits value) :
    ReadsAs (encode (toString value)) (.number (.integer value)) := by
  obtain ⟨written, same, read⟩ := tokensInteger fits
  refine readsToken ?_ read
  rw [expectationAfter?, same]

/-- A word is read as its value. -/
theorem readsWord {text : String} {byte : UInt8} {more : List UInt8} {token : Token} {datum : Datum}
    (bytes : encode text = byte :: more) (space : isSpace byte = false) (mark : mark? byte = none)
    (word : words.lookup byte = some (more, token))
    (expected : expectationAfter? token = some (.separator datum)) : ReadsAs (encode text) datum := by
  refine readsToken expected fun rest _ => ?_
  rw [bytes]
  exact tokensWord rest space mark word

namespace ReadsAs

variable {bytes : List UInt8} {datum : Datum}

theorem value (reads : ReadsAs bytes datum) {rest : List UInt8} (ended : Ended rest)
    (frames : List Frame) : assemble .value frames (tokens (bytes ++ rest)) =
      assemble (.separator datum) frames (tokens rest) := by
  obtain ⟨token, more, next, read, expected, same⟩ := reads rest ended
  rw [read, assemble, expected]
  exact same frames

theorem firstItem (reads : ReadsAs bytes datum) {rest : List UInt8} (ended : Ended rest)
    (frames : List Frame) : assemble .firstItem frames (tokens (bytes ++ rest)) =
      assemble (.separator datum) (.list [] :: frames) (tokens rest) := by
  obtain ⟨token, more, next, read, expected, same⟩ := reads rest ended
  have other : token ≠ .closeList := by
    rintro rfl
    cases expected
  rw [read, assemble.eq_def]
  dsimp only
  split
  · exact absurd rfl other
  · rw [expected]
    exact same _

end ReadsAs

/-- The bytes of texts with commas between them: each but the first one follows a comma. -/
theorem encodeJoined (first : String) (more : List String) :
    encode (",".intercalate (first :: more)) =
      encode first ++ more.flatMap fun text => 0x2c :: encode text := by
  have comma : encode "," = [0x2c] := by
    rw [Text.Utf8.encodeEq]
    rfl
  induction more generalizing first with
  | nil => rw [String.intercalate_singleton, List.flatMap_nil, List.append_nil]
  | cons second rest inductionHypothesis =>
      rw [String.intercalate_cons_cons, Text.Utf8.encodeAppend, Text.Utf8.encodeAppend,
        inductionHypothesis, comma, List.flatMap_cons]
      simp

/-- What follows an item of a container ends the item. -/
theorem endedJoined (texts : List String) {close : UInt8} (rest : List UInt8)
    (closes : close = 0x5d ∨ close = 0x7d) :
    Ended ((texts.flatMap fun text => 0x2c :: encode text) ++ close :: rest) := by
  cases texts with
  | nil => exact .inr closes
  | cons text more => exact .inl rfl

/-- The items of a list after the first one are read. -/
theorem assembleItems {texts : List String} {data : List Datum}
    (reads : List.Forall₂ (fun text datum => ReadsAs (encode text) datum) texts data) (done : Datum)
    (items : List Datum) (below : List Frame) (rest : List UInt8) :
    assemble (.separator done) (.list items :: below)
        (tokens ((texts.flatMap fun text => 0x2c :: encode text) ++ 0x5d :: rest)) =
      assemble (.separator (.list ((done :: items).reverse ++ data) .closed)) below (tokens rest) := by
  induction reads generalizing done items with
  | nil =>
      rw [List.flatMap_nil, List.nil_append, tokensMark rest (by decide) rfl, assemble.eq_def,
        List.append_nil]
  | cons first others inductionHypothesis =>
      rename_i text datum texts data
      rw [List.flatMap_cons, List.cons_append, List.cons_append, tokensMark _ (by decide) rfl,
        assemble.eq_def]
      dsimp only
      rw [List.append_assoc, first.value (endedJoined texts rest (.inl rfl)), inductionHypothesis]
      simp

/-- The items of a list between its brackets are read. -/
theorem readsList {texts : List String} {data : List Datum}
    (reads : List.Forall₂ (fun text datum => ReadsAs (encode text) datum) texts data) :
    ReadsAs (encode ("[" ++ ",".intercalate texts ++ "]")) (.list data .closed) := by
  have opens : encode "[" = [0x5b] := by
    rw [Text.Utf8.encodeEq]
    rfl
  have closes : encode "]" = [0x5d] := by
    rw [Text.Utf8.encodeEq]
    rfl
  intro rest ended
  rw [Text.Utf8.encodeAppend, Text.Utf8.encodeAppend, opens, closes, List.append_assoc,
    List.append_assoc, List.singleton_append, List.singleton_append, tokensMark _ (by decide) rfl]
  refine ⟨.openList, _, .firstItem, rfl, rfl, fun frames => ?_⟩
  cases reads with
  | nil =>
      rw [String.intercalate_nil, Text.Utf8.encodeEq, String.toList_empty, List.flatMap_nil,
        List.nil_append, tokensMark rest (by decide) rfl, assemble.eq_def]
  | cons first others =>
      rename_i text datum texts data
      rw [encodeJoined, List.append_assoc, first.firstItem (endedJoined texts rest (.inl rfl)),
        assembleItems others]
      rfl

/-- A key, a colon and a value are read as a member. -/
theorem readsMember (key : String) {text : String} {datum : Datum}
    (reads : ReadsAs (encode text) datum) :
    ReadsMember (encode (quoted key ++ ":" ++ text)) (some key, datum) := by
  have colon : encode ":" = [0x3a] := by
    rw [Text.Utf8.encodeEq]
    rfl
  obtain ⟨pieces, same, read⟩ := tokensQuoted key
  intro rest ended
  refine ⟨pieces, tokens (0x3a :: (encode text ++ rest)), ?_, ?_⟩
  · rw [Text.Utf8.encodeAppend, Text.Utf8.encodeAppend, colon, List.append_assoc, List.append_assoc,
      read, List.singleton_append]
  · intro frames members
    rw [tokensMark _ (by decide) rfl, same, assemble.eq_def]
    exact reads.value ended _

/-- The members of a table after the first one are read. -/
theorem assembleMembers {texts : List String} {data : List (Option String × Datum)}
    (reads : List.Forall₂ (fun text member => ReadsMember (encode text) member) texts data)
    (done : Datum) (members : List (Option String × Datum)) (key : Option String)
    (below : List Frame) (rest : List UInt8) :
    assemble (.separator done) (.table members key :: below)
        (tokens ((texts.flatMap fun text => 0x2c :: encode text) ++ 0x7d :: rest)) =
      assemble (.separator (.table (((key, done) :: members).reverse ++ data) .closed)) below
        (tokens rest) := by
  induction reads generalizing done members key with
  | nil =>
      rw [List.flatMap_nil, List.nil_append, tokensMark rest (by decide) rfl, assemble.eq_def,
        List.append_nil]
  | cons first others inductionHypothesis =>
      rename_i text member texts data
      obtain ⟨pieces, more, read, same⟩ := first _ (endedJoined texts rest (.inr rfl))
      rw [List.flatMap_cons, List.cons_append, List.cons_append, tokensMark _ (by decide) rfl,
        assemble.eq_def]
      dsimp only
      rw [List.append_assoc, read, assemble.eq_def]
      dsimp only
      rw [same, inductionHypothesis]
      simp

/-- The members of a table between its braces are read. -/
theorem readsTable {texts : List String} {data : List (Option String × Datum)}
    (reads : List.Forall₂ (fun text member => ReadsMember (encode text) member) texts data) :
    ReadsAs (encode ("\x7b" ++ ",".intercalate texts ++ "\x7d")) (.table data .closed) := by
  have opens : encode "\x7b" = [0x7b] := by
    rw [Text.Utf8.encodeEq]
    rfl
  have closes : encode "\x7d" = [0x7d] := by
    rw [Text.Utf8.encodeEq]
    rfl
  intro rest ended
  rw [Text.Utf8.encodeAppend, Text.Utf8.encodeAppend, opens, closes, List.append_assoc,
    List.append_assoc, List.singleton_append, List.singleton_append, tokensMark _ (by decide) rfl]
  refine ⟨.openTable, _, .firstKey, rfl, rfl, fun frames => ?_⟩
  cases reads with
  | nil =>
      rw [String.intercalate_nil, Text.Utf8.encodeEq, String.toList_empty, List.flatMap_nil,
        List.nil_append, tokensMark rest (by decide) rfl, assemble.eq_def]
  | cons first others =>
      rename_i text member texts data
      obtain ⟨pieces, more, read, same⟩ := first _ (endedJoined texts rest (.inr rfl))
      rw [encodeJoined, List.append_assoc, read, assemble.eq_def]
      dsimp only
      rw [same, assembleMembers others]
      rfl

namespace Value

mutual

/-- The tree that a value is read as. -/
def datum : Value → Datum
  | .null => .null
  | .boolean value => .boolean value
  | .integer value => .number (.integer value)
  | .double value => .number (.double value)
  | .text value => .text (some value)
  | .list items => .list (itemData items) .closed
  | .table members => .table (memberData members) .closed

/-- The trees of the items of a list. -/
def itemData : List Value → List Datum
  | [] => []
  | item :: rest => item.datum :: itemData rest

/-- The trees of the members of a table. -/
def memberData : List (String × Value) → List (Option String × Datum)
  | [] => []
  | (key, value) :: rest => (some key, value.datum) :: memberData rest

end

mutual

/-- A value is exact if it has no doubles, and only whole numbers that are words. -/
def Exact : Value → Prop
  | .integer value => Fits value
  | .double _ => False
  | .list items => ItemsExact items
  | .table members => MembersExact members
  | _ => True

/-- Whether every item of a list is exact. -/
def ItemsExact : List Value → Prop
  | [] => True
  | item :: rest => item.Exact ∧ ItemsExact rest

/-- Whether every member of a table is exact. -/
def MembersExact : List (String × Value) → Prop
  | [] => True
  | (_, value) :: rest => value.Exact ∧ MembersExact rest

end

mutual

/-- The bytes of an exact value are read as the value. -/
theorem readsCompact : ∀ value : Value, value.Exact → ReadsAs (encode value.compact) value.datum
  | .null, _ => by
      rw [compact, datum]
      exact readsWord (by rw [Text.Utf8.encodeEq]; rfl) (by decide) (by decide) rfl rfl
  | .boolean true, _ => by
      rw [compact, datum]
      exact readsWord (by rw [Text.Utf8.encodeEq]; rfl) (by decide) (by decide) rfl rfl
  | .boolean false, _ => by
      rw [compact, datum]
      exact readsWord (by rw [Text.Utf8.encodeEq]; rfl) (by decide) (by decide) rfl rfl
  | .integer value, exact => by
      rw [compact, datum]
      exact readsInteger exact
  | .double _, exact => exact.elim
  | .text value, _ => by
      rw [compact, datum]
      exact readsQuoted value
  | .list items, exact => by
      rw [compact, datum]
      exact readsList (readsItems items exact)
  | .table members, exact => by
      rw [compact, datum]
      exact readsTable (readsMembers members exact)

theorem readsItems : ∀ items : List Value, ItemsExact items →
    List.Forall₂ (fun text datum => ReadsAs (encode text) datum) (compactItems items)
      (itemData items)
  | [], _ => .nil
  | item :: rest, exact => by
      rw [compactItems, itemData]
      exact .cons (readsCompact item exact.1) (readsItems rest exact.2)

theorem readsMembers : ∀ members : List (String × Value), MembersExact members →
    List.Forall₂ (fun text member => ReadsMember (encode text) member) (compactMembers members)
      (memberData members)
  | [], _ => .nil
  | (key, value) :: rest, exact => by
      rw [compactMembers, memberData]
      exact .cons (readsMember key (readsCompact value exact.1)) (readsMembers rest exact.2)

end

theorem memberDataAppend (first second : List (String × Value)) :
    memberData (first ++ second) = memberData first ++ memberData second := by
  induction first with
  | nil => rfl
  | cons member rest inductionHypothesis =>
      rw [List.cons_append, memberData, memberData, inductionHypothesis, List.cons_append]

theorem membersExactAppend {first second : List (String × Value)} (exactFirst : MembersExact first)
    (exactSecond : MembersExact second) : MembersExact (first ++ second) := by
  induction first with
  | nil => exact exactSecond
  | cons member rest inductionHypothesis =>
      exact ⟨exactFirst.1, inductionHypothesis exactFirst.2⟩

/-- A list of texts is exact. -/
theorem itemsExactTexts {α : Type} (write : α → String) (items : List α) :
    ItemsExact (items.map fun item => .text (write item)) := by
  induction items with
  | nil => trivial
  | cons item rest inductionHypothesis => exact ⟨trivial, inductionHypothesis⟩

/-- The trees of a list of texts are those of its texts. -/
theorem itemDataTexts {α : Type} (write : α → String) (items : List α) :
    itemData (items.map fun item => .text (write item)) =
      items.map fun item => .text (some (write item)) := by
  induction items with
  | nil => rfl
  | cons item rest inductionHypothesis =>
      rw [List.map_cons, List.map_cons, itemData, inductionHypothesis, datum]

/-- A document that holds an exact value is read as the tree of the value, and nothing is left. -/
theorem documentOfCompact (value : Value) (exact : value.Exact) :
    Document.ofBytes (encode value.compact) = ⟨value.datum, false⟩ := by
  have read := (readsCompact value exact).value (show Ended [] from trivial) []
  rw [List.append_nil, tokens] at read
  rw [Document.ofBytes, read]
  rfl

end Value

end Backfill.Json
