/-
This file shows what the address that serves blocks is made of. An accepted address keeps its scheme
and what stands behind it, unless nothing but slashes stands there: these are cut off with those of
the scheme itself.
-/

import Backfill.Fetch.Settings
import Backfill.Proofs.Text.Blank

namespace Backfill.NodeSettings

section Slashes

variable {before after : List Char}

theorem dropSlashesEq (text : List Char) : dropSlashes text = text.rdropWhile (· = '/') :=
  rfl

/-- Only slashes are cut off. -/
theorem slashesBehind (text : List Char) :
    ∃ count, text = dropSlashes text ++ List.replicate count '/' := by
  refine ⟨(text.rtakeWhile (· = '/')).length, ?_⟩
  have slashes : text.rtakeWhile (· = '/') =
      List.replicate (text.rtakeWhile (· = '/')).length '/' :=
    List.eq_replicate_of_mem fun character member => by
      simpa using List.mem_rtakeWhile_imp member
  rw [← slashes, dropSlashesEq, List.rdropWhile_append_rtakeWhile]

/-- All slashes at the end are cut off. -/
theorem dropSlashesLast (text : List Char) : (dropSlashes text).getLast? ≠ some '/' := by
  intro final
  obtain ⟨filled, slash⟩ := List.mem_getLast?_eq_getLast final
  apply List.rdropWhile_last_not (· = '/') text filled
  exact decide_eq_true slash.symm

/-- What stands before something that is not cut off stays. -/
theorem dropSlashesAppend (left : dropSlashes after ≠ []) :
    dropSlashes (before ++ after) = before ++ dropSlashes after := by
  have filled : (after.reverse.dropWhile (· = '/')).isEmpty = false := by
    simpa [dropSlashes] using left
  rw [dropSlashes, List.reverse_append, List.dropWhile_append, filled]
  simp [dropSlashes]

/-- Slashes behind a text change nothing. -/
theorem dropSlashesReplicate (before : List Char) (count : Nat) :
    dropSlashes (before ++ List.replicate count '/') = dropSlashes before := by
  rw [dropSlashes, List.reverse_append, List.reverse_replicate,
    List.dropWhile_append_of_pos (by simp), ← dropSlashes]

end Slashes

/-- A text is usable as an address if something stands behind a known scheme. -/
def IsUsable (text : List Char) : Prop :=
  ∃ scheme ∈ schemes, ∃ rest, rest ≠ [] ∧ text = scheme ++ rest

/-- A text is bare if nothing but slashes stands behind a known scheme. -/
def IsBare (text : List Char) : Prop :=
  ∃ scheme ∈ schemes, ∃ count, text = scheme ++ List.replicate count '/'

variable {text : List Char} {settings : NodeSettings}

theorem hasSchemeIff : hasScheme text = true ↔ ∃ scheme ∈ schemes, scheme <+: text := by
  simp only [hasScheme, List.any_eq_true, List.isPrefixOf_iff_prefix]

/-- Settings are accepted if the address has a known scheme, the time limit is not zero and at least
one request is made. -/
theorem validateIff : settings.validate = .ok () ↔
    hasScheme settings.address = true ∧ settings.timeoutSeconds ≠ 0 ∧ settings.attempts ≠ 0 := by
  by_cases known : hasScheme settings.address = true
  · have filled : settings.address.isEmpty = false := by
      cases same : settings.address with
      | nil =>
          rw [same] at known
          exact absurd known (by decide)
      | cons => rfl
    rw [validate, filled, known]
    by_cases limited : settings.timeoutSeconds = 0
    · simp [limited]
    · by_cases tried : settings.attempts = 0 <;> simp [limited, tried]
  · rw [validate]
    split
    · simp [known]
    · simp [known]

theorem schemeOfUsable (usable : IsUsable text) : hasScheme text = true := by
  obtain ⟨scheme, known, rest, _, rfl⟩ := usable
  exact hasSchemeIff.mpr ⟨scheme, known, List.prefix_append scheme rest⟩

/-- Of a bare text the slashes of its scheme are cut off as well. -/
theorem dropSlashesBare (bare : IsBare text) :
    dropSlashes text ∈ ["http:".toList, "https:".toList] := by
  obtain ⟨scheme, known, count, rfl⟩ := bare
  rw [dropSlashesReplicate]
  revert scheme
  decide

/-- What is left of a bare text is not usable. -/
theorem notUsableBare (bare : IsBare text) : ¬IsUsable (dropSlashes text) := by
  have lost : ∀ left ∈ ["http:".toList, "https:".toList], hasScheme left = false := by decide
  intro usable
  have known := schemeOfUsable usable
  rw [lost _ (dropSlashesBare bare)] at known
  cases known

/-- A text with a scheme is usable without its slashes unless it is bare. -/
theorem usableOfScheme (known : hasScheme text = true) (filled : ¬IsBare text) :
    IsUsable (dropSlashes text) := by
  obtain ⟨scheme, member, rest, rfl⟩ := hasSchemeIff.mp known
  have left : dropSlashes rest ≠ [] := by
    intro empty
    obtain ⟨count, same⟩ := slashesBehind rest
    rw [empty, List.nil_append] at same
    exact filled ⟨scheme, member, count, same ▸ rfl⟩
  exact ⟨scheme, member, dropSlashes rest, left, dropSlashesAppend left⟩

/-- The address without blanks around it and slashes at its end keeps its scheme with something
behind it, unless nothing but slashes stood there. -/
theorem endpointOfAccepted (settings : NodeSettings) (accepted : settings.validate = .ok ()) :
    Text.Trims settings.url.toList settings.address ∧
      ∃ base count, settings.address = base ++ List.replicate count '/' ∧
        base.getLast? ≠ some '/' ∧ settings.endpoint.toList = base ++ "/api/v1/block".toList ∧
        (IsUsable base ↔ ¬IsBare settings.address) ∧
        (IsBare settings.address → base ∈ ["http:".toList, "https:".toList]) := by
  obtain ⟨known, _, _⟩ := validateIff.mp accepted
  obtain ⟨count, cut⟩ := slashesBehind settings.address
  refine ⟨Text.trimsChars _, dropSlashes settings.address, count, cut, dropSlashesLast _, ?_,
    ?_, dropSlashesBare⟩
  · exact String.toList_ofList
  · constructor
    · intro usable bare
      exact notUsableBare bare usable
    · exact usableOfScheme known

/-- Settings with blanks around the address and slashes at its end. -/
def padded : NodeSettings :=
  { standard with url := "\t https://node:17001/api// " }

/-- The blanks and the slashes at the end are cut off, and the scheme and the host are left. -/
theorem endpointOfPadded :
    padded.validate = .ok () ∧ padded.endpoint = "https://node:17001/api/api/v1/block" ∧
      IsUsable "https://node:17001/api".toList ∧ ¬IsBare padded.address := by
  have accepted : padded.validate = .ok () := by decide
  have whole : padded.endpoint = "https://node:17001/api/api/v1/block" := by decide
  obtain ⟨_, base, _, _, _, place, usable, _⟩ := endpointOfAccepted padded accepted
  obtain rfl : "https://node:17001/api".toList = base := by
    apply List.append_cancel_right
    rw [← place, whole]
    decide
  have left : IsUsable "https://node:17001/api".toList :=
    ⟨"https://".toList, by decide, "node:17001/api".toList, by decide, by decide⟩
  exact ⟨accepted, whole, left, usable.mp left⟩

/-- Settings whose address is a scheme alone. -/
def hostless : NodeSettings :=
  { standard with url := "http://" }

/-- A scheme alone is accepted as an address, and blocks are then served at a place without one. -/
theorem endpointLosesScheme :
    hostless.validate = .ok () ∧ hostless.endpoint = "http:/api/v1/block" ∧
      ¬∃ base, hostless.endpoint.toList = base ++ "/api/v1/block".toList ∧ IsUsable base := by
  have whole : hostless.endpoint = "http:/api/v1/block" := by decide
  refine ⟨by decide, whole, ?_⟩
  rintro ⟨base, place, usable⟩
  obtain rfl : "http:".toList = base := by
    apply List.append_cancel_right
    rw [← place, whole]
    decide
  have known := schemeOfUsable usable
  exact absurd known (by decide)

end Backfill.NodeSettings
