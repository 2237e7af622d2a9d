/-
This file says what typed values are read from. A field of a structure is read from what a document
has under its name, or in its place, and a document that is read has this at most once.
-/

import Backfill.Datum.Shape
import Mathlib.Data.List.Forall2

namespace Except

variable {ε α β : Type}

/-- A step after another one succeeds if the first one does and the second one does. -/
theorem bindOk {first : Except ε α} {next : α → Except ε β} {result : β} :
    (first >>= next) = .ok result ↔ ∃ value, first = .ok value ∧ next value = .ok result := by
  cases first with
  | error cause => exact ⟨nofun, nofun⟩
  | ok value => exact ⟨fun same => ⟨value, rfl, same⟩, fun ⟨_, rfl, same⟩ => same⟩

theorem mapOk {first : Except ε α} {change : α → β} {result : β} :
    first.map change = .ok result ↔ ∃ value, first = .ok value ∧ change value = result := by
  cases first with
  | error cause => exact ⟨nofun, nofun⟩
  | ok value =>
      exact ⟨fun same => ⟨value, rfl, Except.ok.inj same⟩, fun ⟨_, rfl, same⟩ => congrArg ok same⟩

theorem mapErrorOk {δ : Type} {first : Except ε α} {change : ε → δ} {result : α} :
    first.mapError change = .ok result ↔ first = .ok result := by
  cases first with
  | error cause => exact ⟨nofun, nofun⟩
  | ok value => exact ⟨fun same => congrArg ok (Except.ok.inj same), fun same =>
      congrArg ok (Except.ok.inj same)⟩

/-- A list is worked off if each of its items is. -/
theorem mapMOk {act : α → Except ε β} {items : List α} {results : List β} :
    items.mapM act = .ok results ↔
      List.Forall₂ (fun item result => act item = .ok result) items results := by
  induction items generalizing results with
  | nil =>
      rw [List.mapM_nil, List.forall₂_nil_left_iff]
      exact ⟨fun same => (Except.ok.inj same).symm, fun same => congrArg ok same.symm⟩
  | cons item rest inductionHypothesis =>
      rw [List.mapM_cons, bindOk]
      constructor
      · rintro ⟨result, acted, others⟩
        obtain ⟨more, followed, same⟩ := bindOk.mp others
        obtain rfl := Except.ok.inj same
        exact .cons acted (inductionHypothesis.mp followed)
      · rintro (_ | ⟨acted, others⟩)
        exact ⟨_, acted, bindOk.mpr ⟨_, inductionHypothesis.mpr others, rfl⟩⟩

end Except

namespace Backfill

namespace Datum

variable {α : Type} {medium : Medium} {datum : Datum}

theorem textOfRead {text : String} (read : readText medium datum = .ok text) :
    datum = .text (some text) := by
  unfold readText readTextAs at read
  split at read
  · rw [Except.ok.inj read]
  · cases read

/-- A text is read from an entry, or is empty where there is none. -/
theorem textOfEntry {found : List Datum} {text : String}
    (there : (∃ entry, found = [entry] ∧ readText medium entry = .ok text) ∨
      found = [] ∧ text = "") : found = [.text (some text)] ∨ found = [] ∧ text = "" := by
  rcases there with ⟨entry, rfl, read⟩ | absent
  · exact .inl (by rw [textOfRead read])
  · exact .inr absent

theorem numberOfRead {word : UInt64} (read : readWord64 medium datum = .ok word) :
    datum = .number (.integer word.toNat) := by
  obtain ⟨value, natural, rfl⟩ := Except.mapOk.mp read
  obtain ⟨whole, integer, rfl⟩ := Except.mapOk.mp natural
  unfold readInteger at integer
  split at integer
  · split at integer
    · rename_i found bounds
      obtain rfl := Except.ok.inj integer
      rw [Nat.pow_eq] at bounds
      have small : found.toNat < 2 ^ 64 := by omega
      rw [UInt64.toNat_ofNat_of_lt' small, Int.toNat_of_nonneg bounds.1]
    · cases integer
  · cases integer

/-- A value that may be absent is null or the value. -/
theorem optionOfRead {reader : DatumReader α} {value : Option α}
    (read : readOption reader medium datum = .ok value) :
    (datum = .null ∧ value = none) ∨
      ∃ inner, reader medium datum = .ok inner ∧ value = some inner := by
  unfold readOption at read
  split at read
  · exact .inl ⟨rfl, (Except.ok.inj read).symm⟩
  · obtain ⟨inner, filled, rfl⟩ := Except.mapOk.mp read
    exact .inr ⟨inner, filled, rfl⟩

theorem listOfRead {reader : DatumReader α} {values : List α}
    (read : readList reader medium datum = .ok values) :
    ∃ items, datum = .list items .closed ∧
      List.Forall₂ (fun item value => reader medium item = .ok value) items values := by
  unfold readList at read
  split at read
  · rename_i items ending
    obtain ⟨inner, each, complete⟩ := Except.bindOk.mp read
    split at complete
    · obtain rfl := Except.ok.inj complete
      cases ending with
      | closed => exact ⟨items, rfl, Except.mapMOk.mp each⟩
      | cut | strayKey => contradiction
    · cases complete
  · cases read

/-- The members with a name. -/
def named (name : String) (members : List (Option String × Datum)) : List Datum :=
  (members.filter fun member => member.1 = some name).map Prod.snd

@[simp] theorem namedCons (name : String) (key : Option String) (value : Datum)
    (rest : List (Option String × Datum)) : named name ((key, value) :: rest) =
      if key = some name then value :: named name rest else named name rest := by
  by_cases same : key = some name <;> simp [named, same]

theorem namedAbsent {name : String} {members : List (Option String × Datum)}
    (absent : ∀ member ∈ members, member.1 ≠ some name) : named name members = [] := by
  rw [named, List.map_eq_nil_iff, List.filter_eq_nil_iff]
  exact fun member inside same => absent member inside (of_decide_eq_true same)

/-- The items of a list have no member with a name that no field has. -/
theorem namedItemsAbsent {δ : Type} {name : String} {fields : List (DatumField δ)}
    (items : List Datum) (absent : name ∉ fields.map DatumField.name) :
    named name ((fields.map fun field => some field.name).zip items) = [] := by
  refine namedAbsent fun member inside same => absent ?_
  have listed := (List.of_mem_zip inside).1
  rw [same, List.mem_map] at listed
  obtain ⟨field, fieldInside, again⟩ := listed
  rw [← Option.some.inj again]
  exact List.mem_map_of_mem fieldInside

/-- A value is read from what is there, which is one value or none. -/
inductive ReadFrom (reader : DatumReader α) (medium : Medium) : List Datum → Option α → Prop
  | absent : ReadFrom reader medium [] none
  | present {datum : Datum} {value : α} (read : reader medium datum = .ok value) :
      ReadFrom reader medium [datum] (some value)

end Datum

open Datum (named ReadFrom)

theorem requireFieldOk {α : Type} {name : String} {value : Option α} {result : α} :
    requireField name value = .ok result ↔ value = some result := by
  cases value with
  | none => exact ⟨nofun, nofun⟩
  | some value => exact ⟨fun same => congrArg some (Except.ok.inj same), fun same =>
      congrArg Except.ok (Option.some.inj same)⟩

namespace DatumField

variable {δ β γ : Type} {name other : String} {defaulted : Bool} {reader : DatumReader β}
  {get : δ → γ} {put : β → γ}

/-- A field with a name stores what it reads where `get` finds it; one with another name leaves this
alone. -/
def Decides (name : String) (reader : DatumReader β) (get : δ → γ) (put : β → γ)
    (field : DatumField δ) : Prop :=
  ∀ medium datum draft next, field.read medium datum draft = .ok next →
    if field.name = name then ∃ value, reader medium datum = .ok value ∧ get next = put value
    else get next = get draft

theorem decidesOwn {store : β → δ → δ} (own : ∀ value draft, get (store value draft) = put value) :
    Decides name reader get put ⟨name, defaulted, fun medium datum draft =>
      (reader medium datum).map (store · draft)⟩ := by
  intro medium datum draft next stored
  obtain ⟨value, read, rfl⟩ := Except.mapOk.mp stored
  rw [if_pos rfl]
  exact ⟨value, read, own value draft⟩

theorem decidesOther {α : Type} {another : DatumReader α} {store : α → δ → δ} (apart : other ≠ name)
    (alone : ∀ value draft, get (store value draft) = get draft) :
    Decides name reader get put ⟨other, defaulted, fun medium datum draft =>
      (another medium datum).map (store · draft)⟩ := by
  intro medium datum draft next stored
  obtain ⟨value, _, rfl⟩ := Except.mapOk.mp stored
  rw [if_neg apart]
  exact alone value draft

end DatumField

namespace Shape

variable {δ α β γ : Type} {shape : Shape δ α} {name : String} {reader : DatumReader β}
  {get : δ → γ} {put : β → γ} {medium : Medium}

/-- The members of a document: those of a table, and the items of a list under the names of the
fields in whose place they stand. -/
def members (shape : Shape δ α) : Datum → List (Option String × Datum)
  | .table members _ => members
  | .list items _ => (shape.fields.map fun field => some field.name).zip items
  | _ => []

/-- What a document has for a field. -/
def entries (shape : Shape δ α) (name : String) (datum : Datum) : List Datum :=
  named name (shape.members datum)

/-- A list that is cut off is not read. -/
theorem closedOfItems {closed : Bool} {fields : List (DatumField δ)} {position : Nat}
    {items : List Datum} {draft last : δ}
    (read : shape.readItems medium closed position fields items draft = .ok last) :
    closed = true := by
  induction fields generalizing position items draft with
  | nil =>
      obtain ⟨_, _, ended⟩ := Except.bindOk.mp read
      split at ended
      · assumption
      · cases ended
  | cons field rest inductionHypothesis =>
      cases items with
      | nil =>
          rw [readItems] at read
          split at read
          · cases read
          · rename_i closed
            simpa using closed
      | cons item items =>
          obtain ⟨_, _, followed⟩ := Except.bindOk.mp read
          exact inductionHypothesis followed

/-- A structure that is read is complete. -/
theorem completeOfRead {datum : Datum} {result : α} (read : shape.read medium datum = .ok result) :
    datum.isComplete = true := by
  unfold Shape.read at read
  split at read
  · obtain ⟨draft, filled, ended⟩ := Except.bindOk.mp read
    split at ended
    · assumption
    · cases ended
  · obtain ⟨draft, filled, ended⟩ := Except.bindOk.mp read
    exact closedOfItems filled
  · cases read

/-- A member of a table that is read is no field and is passed over, or it is a field that was not
seen before and is read. -/
theorem memberOfRead {member : Option String × Datum} {rest : List (Option String × Datum)}
    {seen : List String} {draft last : δ}
    (read : shape.readMembers medium seen draft (member :: rest) = .ok last) :
    ∃ key, member.1 = some key ∧
      ((key ∉ shape.fields.map DatumField.name ∧
          shape.readMembers medium seen draft rest = .ok last) ∨
        ∃ field ∈ shape.fields, field.name = key ∧ key ∉ seen ∧
          ∃ next, field.read medium member.2 draft = .ok next ∧
            shape.readMembers medium (key :: seen) next rest = .ok last) := by
  obtain ⟨_ | key, datum⟩ := member
  · cases read
  refine ⟨key, rfl, ?_⟩
  rw [readMembers] at read
  split at read
  · rename_i absent
    refine .inl ⟨?_, ?_⟩
    · rw [List.mem_map]
      rintro ⟨field, inside, rfl⟩
      exact List.find?_eq_none.mp absent field inside (beq_self_eq_true _)
    · split at read
      · exact read
      · cases read
  · rename_i field found
    split at read
    · cases read
    rename_i unseen
    rw [List.contains_iff_mem] at unseen
    obtain ⟨next, stored, others⟩ := Except.bindOk.mp read
    exact .inr ⟨field, List.mem_of_find?_eq_some found, by simpa using List.find?_some found, unseen,
      next, stored, others⟩

section Supply

variable (decides : ∀ field ∈ shape.fields, field.Decides name reader get put)

include decides

/-- A table that is read has a field at most once, and the field is read from there. -/
theorem membersSupply (listed : name ∈ shape.fields.map DatumField.name)
    {members : List (Option String × Datum)} {seen : List String} {draft last : δ}
    (read : shape.readMembers medium seen draft members = .ok last) :
    if name ∈ seen then named name members = [] ∧ get last = get draft
    else ∃ value, ReadFrom reader medium (named name members) value ∧
      get last = value.elim (get draft) put := by
  induction members generalizing seen draft with
  | nil =>
      obtain rfl := Except.ok.inj read
      split
      · exact ⟨rfl, rfl⟩
      · exact ⟨none, .absent, rfl⟩
  | cons member rest inductionHypothesis =>
      obtain ⟨key, keyed, passed | ⟨field, inside, rfl, unseen, next, stored, others⟩⟩ :=
        memberOfRead read
      · obtain ⟨unlisted, others⟩ := passed
        have apart : some key ≠ some name := fun same => unlisted (Option.some.inj same ▸ listed)
        rw [Datum.namedCons, keyed, if_neg apart]
        exact inductionHypothesis others
      have decided := decides field inside medium member.2 draft next stored
      have left := inductionHypothesis others
      rw [Datum.namedCons, keyed]
      by_cases own : field.name = name
      · -- The field itself was not seen before, and is not seen again.
        subst own
        obtain ⟨value, valueRead, kept⟩ := (if_pos rfl).mp decided
        obtain ⟨once, got⟩ := (if_pos List.mem_cons_self).mp left
        rw [if_neg unseen, if_pos rfl, once]
        exact ⟨some value, .present valueRead, got.trans kept⟩
      · rw [if_neg own] at decided
        rw [if_neg (own <| Option.some.inj ·), ← decided]
        simpa [Ne.symm own] using left

/-- A list that is read has a field in its place, and the field is read from there. -/
theorem itemsSupply {closed : Bool} {fields : List (DatumField δ)} (part : fields ⊆ shape.fields)
    (distinct : (fields.map DatumField.name).Nodup) {position : Nat} {items : List Datum}
    {draft last : δ} (read : shape.readItems medium closed position fields items draft = .ok last) :
    ∃ value, ReadFrom reader medium
        (named name ((fields.map fun field => some field.name).zip items)) value ∧
      get last = value.elim (get draft) put := by
  induction fields generalizing position items draft with
  | nil =>
      obtain ⟨_, _, ended⟩ := Except.bindOk.mp read
      split at ended
      · obtain rfl := Except.ok.inj ended
        exact ⟨none, .absent, rfl⟩
      · cases ended
  | cons field rest inductionHypothesis =>
      obtain ⟨member, others⟩ := List.cons_subset.mp part
      obtain ⟨alone, apart⟩ := List.nodup_cons.mp distinct
      cases items with
      | nil =>
          rw [readItems] at read
          split at read
          · cases read
          · split at read
            · simpa using inductionHypothesis others apart read
            · cases read
      | cons item items =>
          obtain ⟨next, stored, followed⟩ := Except.bindOk.mp read
          have decided := decides field member medium item draft next stored
          obtain ⟨value, supplied, left⟩ := inductionHypothesis others apart followed
          rw [List.map_cons, List.zip_cons_cons, Datum.namedCons]
          by_cases own : field.name = name
          · subst own
            obtain ⟨value, valueRead, kept⟩ := (if_pos rfl).mp decided
            rw [Datum.namedItemsAbsent items alone] at supplied ⊢
            cases supplied
            rw [if_pos rfl]
            exact ⟨some value, .present valueRead, left.trans kept⟩
          · rw [if_neg own] at decided
            rw [if_neg (own <| Option.some.inj ·)]
            exact ⟨value, supplied, by rw [left, decided]⟩

/-- A structure that is read has a field at most once, and the field is read from there. -/
theorem readSupply (listed : name ∈ shape.fields.map DatumField.name)
    (distinct : (shape.fields.map DatumField.name).Nodup) {datum : Datum} {result : α}
    (read : shape.read medium datum = .ok result) :
    ∃ draft value, shape.finish draft = .ok result ∧
      ReadFrom reader medium (shape.entries name datum) value ∧
      get draft = value.elim (get shape.blank) put := by
  unfold Shape.read at read
  split at read
  · obtain ⟨draft, filled, ended⟩ := Except.bindOk.mp read
    split at ended
    · have supplied := membersSupply decides listed filled
      rw [if_neg List.not_mem_nil] at supplied
      obtain ⟨value, supplied, got⟩ := supplied
      exact ⟨draft, value, ended, supplied, got⟩
    · cases ended
  · obtain ⟨draft, filled, ended⟩ := Except.bindOk.mp read
    obtain ⟨value, supplied, got⟩ := itemsSupply decides (List.Subset.refl _) distinct filled
    exact ⟨draft, value, ended, supplied, got⟩
  · cases read

end Supply

variable (listed : name ∈ shape.fields.map DatumField.name)
  (distinct : (shape.fields.map DatumField.name).Nodup) {datum : Datum} {result : α} {value : β}

include listed distinct

/-- A required field of a structure that is read is there. -/
theorem requiredEntry {get : δ → Option β} (blank : get shape.blank = none)
    (decides : ∀ field ∈ shape.fields, field.Decides name reader get some)
    (stored : ∀ draft, shape.finish draft = .ok result → get draft = some value)
    (read : shape.read medium datum = .ok result) :
    ∃ entry, shape.entries name datum = [entry] ∧ reader medium entry = .ok value := by
  obtain ⟨draft, found, finished, supplied, got⟩ := readSupply decides listed distinct read
  rw [stored draft finished] at got
  generalize shape.entries name datum = entries at supplied ⊢
  cases supplied with
  | absent =>
      rw [Option.elim_none, blank] at got
      cases got
  | present inner =>
      obtain rfl := Option.some.inj got
      exact ⟨_, rfl, inner⟩

/-- An optional field of a structure that is read is there, or it is absent and has its default. -/
theorem optionalEntry {get : δ → β}
    (decides : ∀ field ∈ shape.fields, field.Decides name reader get id)
    (stored : ∀ draft, shape.finish draft = .ok result → get draft = value)
    (read : shape.read medium datum = .ok result) :
    (∃ entry, shape.entries name datum = [entry] ∧ reader medium entry = .ok value) ∨
      shape.entries name datum = [] ∧ value = get shape.blank := by
  obtain ⟨draft, found, finished, supplied, got⟩ := readSupply decides listed distinct read
  rw [stored draft finished] at got
  generalize shape.entries name datum = entries at supplied ⊢
  cases supplied with
  | absent => exact .inr ⟨rfl, got⟩
  | present inner => exact .inl ⟨_, rfl, got ▸ inner⟩

end Shape

end Backfill
