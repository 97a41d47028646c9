import Approval.Text.Blank
import Mathlib.Tactic.Lemma

/-!
# The pieces of a text

A text falls into pieces at a separator as a list does, so two texts with a separator between them fall into
the pieces of the one and those of the other.
-/

namespace Approval.Text

variable (sep : Char)

lemma splitChars_eq_splitOn (cs : List Char) : splitChars sep cs = cs.splitOn sep := by
  induction cs with
  | nil => rfl
  | cons c cs ih =>
    rw [splitChars, List.splitOn_cons_eq_if_modifyHead, ih]
    by_cases h : c = sep
    · rw [if_pos h, if_pos (beq_iff_eq.mpr h)]
    · rw [if_neg h, if_neg (by simpa using h)]
      -- There is a first piece, to which the character is put.
      obtain ⟨piece, pieces, there⟩ := List.exists_cons_of_ne_nil (List.splitOn_ne_nil sep cs)
      rw [there, List.modifyHead_cons]

lemma split_eq_splitOn (s : String) : split sep s = (s.toList.splitOn sep).map String.ofList := by
  rw [split, splitChars_eq_splitOn]

lemma split_ne_nil (s : String) : split sep s ≠ [] := by
  rw [split_eq_splitOn, ne_eq, List.map_eq_nil_iff]
  exact List.splitOn_ne_nil sep s.toList

variable {sep}

/-- A text without the separator is one piece. -/
lemma split_of_not_mem {s : String} (whole : sep ∉ s.toList) : split sep s = [s] := by
  rw [split_eq_splitOn, List.splitOn_eq_singleton whole, List.map_singleton, String.ofList_toList]

/-- A separator between two texts parts the pieces of the one from those of the other. -/
@[simp] lemma split_append_singleton (s t : String) :
    split sep (s ++ String.singleton sep ++ t) = split sep s ++ split sep t := by
  have joint : (s ++ String.singleton sep ++ t).toList = s.toList ++ sep :: t.toList := by
    simp only [String.toList_append, String.toList_singleton, List.append_assoc, List.singleton_append]
  rw [split_eq_splitOn, joint, List.splitOn_append_cons_self, List.map_append, ← split_eq_splitOn,
    ← split_eq_splitOn]

end Approval.Text
