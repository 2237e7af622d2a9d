/-
This file shows that trimming takes all blanks away from the two ends of a text, and nothing else.
-/

import Backfill.Text.Blank
import Mathlib.Data.List.DropRight

namespace Backfill.Text

/-- A text is trimmed to another one if it holds that one between blanks, and that one neither
starts nor ends with a blank. -/
structure Trims (text inner : List Char) : Prop where
  between : ∃ before after, text = before ++ inner ++ after ∧
    ∀ character ∈ before ++ after, isBlank character = true
  starts : ∀ character ∈ inner.head?, isBlank character = false
  ends : ∀ character ∈ inner.getLast?, isBlank character = false

theorem trimCharsEq (text : List Char) :
    trimChars text = (text.dropWhile isBlank).rdropWhile isBlank :=
  rfl

theorem trimsChars (text : List Char) : Trims text (trimChars text) where
  between := by
    refine ⟨text.takeWhile isBlank, (text.dropWhile isBlank).rtakeWhile isBlank, ?_, ?_⟩
    · rw [trimCharsEq, List.append_assoc, List.rdropWhile_append_rtakeWhile,
        List.takeWhile_append_dropWhile]
    · intro character member
      rcases List.mem_append.mp member with early | late
      · exact List.mem_takeWhile_imp early
      · exact List.mem_rtakeWhile_imp late
  starts := by
    intro character first
    obtain ⟨rest, cut⟩ := List.rdropWhile_prefix isBlank (text.dropWhile isBlank)
    have start : (text.dropWhile isBlank).head? = some character := by
      rw [← cut, List.head?_append, ← trimCharsEq, first]
      rfl
    simpa [start] using List.head?_dropWhile_not isBlank text
  ends := by
    intro character final
    obtain ⟨filled, rfl⟩ := List.mem_getLast?_eq_getLast final
    exact Bool.eq_false_iff.mpr (List.rdropWhile_last_not isBlank _ filled)

end Backfill.Text
