import Letterpress.Text.Blank
import Mathlib.Data.List.DropRight

/-! Trimming takes nothing more off a text that has been trimmed, and nothing off one without blanks. -/

namespace Letterpress
namespace Text

theorem trimEnd_eq (cs : List Char) : trimEnd cs = cs.rdropWhile isBlank := rfl

theorem trimChars_trimChars (cs : List Char) : trimChars (trimChars cs) = trimChars cs := by
  have hfront : (trimChars cs).dropWhile isBlank = trimChars cs := by
    refine List.dropWhile_eq_self_iff.mpr fun hl => ?_
    -- What is left begins like the text without the blanks at its front.
    have hfirst : trimChars cs <+: cs.dropWhile isBlank := List.rdropWhile_prefix _ _
    have hne : cs.dropWhile isBlank ≠ [] := fun h => by
      rw [h, List.prefix_nil] at hfirst
      simp [hfirst] at hl
    rw [hfirst.getElem hl]
    simpa [List.getElem_zero] using List.head_dropWhile_not isBlank hne
  rw [trimChars, hfront, trimEnd_eq, trimChars, trimEnd_eq, List.rdropWhile_idempotent]

theorem trim_of_forall {s : String} (h : ∀ c ∈ s.toList, isBlank c = false) : trim s = s := by
  have hblank : ∀ c : Char, isBlank c = false → ¬isBlank c = true := fun c hc => by simp [hc]
  have hfront : s.toList.dropWhile isBlank = s.toList :=
    List.dropWhile_eq_self_iff.mpr fun hl => hblank _ (h _ (List.getElem_mem hl))
  have hend : s.toList.rdropWhile isBlank = s.toList :=
    List.rdropWhile_eq_self_iff.mpr fun hne => hblank _ (h _ (List.getLast_mem hne))
  rw [trim, trimChars, hfront, trimEnd_eq, hend, String.ofList_toList]

/-- Nothing is left of a text only if all of it is blank. -/
theorem trim_eq_empty {s : String} : trim s = "" ↔ allBlank s = true := by
  rw [trim, String.ofList_eq_empty_iff, trimChars, trimEnd_eq, List.rdropWhile_eq_nil_iff, ← List.dropWhile_eq_nil_iff,
    List.dropWhile_idempotent, List.dropWhile_eq_nil_iff, allBlank, List.all_eq_true]

@[simp] theorem trim_trim (s : String) : trim (trim s) = trim s := by
  simp only [trim, String.toList_ofList, trimChars_trimChars]

end Text
end Letterpress
