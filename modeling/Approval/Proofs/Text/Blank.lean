import Approval.Text.Blank
import Mathlib.Data.List.DropRight
import Mathlib.Tactic.Lemma

/-!
# What trimming keeps

Blanks around a text do not change what is left of it after trimming, trimming twice is trimming once, and
nothing is left of blanks.
-/

namespace Approval.Text

lemma trimLeft_append_of_blank {front : List Char} (h : front.all isBlank = true) (cs : List Char) :
    trimLeft (front ++ cs) = trimLeft cs := by
  have : front.dropWhile isBlank = [] := List.dropWhile_eq_nil_iff.mpr (List.all_eq_true.mp h)
  rw [trimLeft, List.dropWhile_append, this]
  rfl

@[simp] lemma trimLeft_trimLeft (cs : List Char) : trimLeft (trimLeft cs) = trimLeft cs :=
  List.dropWhile_idempotent _ _

/-- Blanks around a text are trimmed off. -/
lemma trimChars_pad {front back : List Char} (hf : front.all isBlank = true)
    (hb : back.all isBlank = true) (cs : List Char) :
    trimChars (front ++ cs ++ back) = trimChars cs := by
  rw [trimChars, trimChars, List.append_assoc, trimLeft_append_of_blank hf]
  by_cases blank : trimLeft cs = []
  · have all_blank : (cs ++ back).all isBlank = true := by
      rw [List.all_append, hb, Bool.and_true, List.all_eq_true]
      exact List.dropWhile_eq_nil_iff.mp blank
    have : trimLeft (cs ++ back) = [] := List.dropWhile_eq_nil_iff.mpr (List.all_eq_true.mp all_blank)
    rw [this, blank]
  · have : trimLeft (cs ++ back) = trimLeft cs ++ back := by
      rw [trimLeft, List.dropWhile_append]
      exact if_neg fun h => blank (List.isEmpty_iff.mp h)
    rw [this, List.reverse_append, trimLeft_append_of_blank (by rwa [List.all_reverse])]

/-- What trimming leaves does not start with a blank. -/
@[simp] lemma trimLeft_trimChars (cs : List Char) : trimLeft (trimChars cs) = trimChars cs := by
  obtain ⟨back, h⟩ : trimChars cs <+: trimLeft cs := by
    rw [← List.reverse_suffix, trimChars, List.reverse_reverse]
    exact List.dropWhile_suffix _
  generalize trimChars cs = t at h ⊢
  cases t with
  | nil => rfl
  | cons c t =>
    have starts := trimLeft_trimLeft cs
    rw [← h] at starts
    have not_blank := List.dropWhile_eq_self_iff.mp starts (by simp)
    simp only [List.cons_append, List.getElem_cons_zero] at not_blank
    rw [trimLeft, List.dropWhile_cons_of_neg not_blank]

@[simp] lemma trimChars_trimChars (cs : List Char) : trimChars (trimChars cs) = trimChars cs := by
  rw [trimChars, trimLeft_trimChars, trimChars, List.reverse_reverse, trimLeft_trimLeft]

/-- Trimming a trimmed text between blanks gives the text. -/
lemma trim_pad_trim {front back : String} (hf : isVacant front = true) (hb : isVacant back = true)
    (s : String) : trim (front ++ trim s ++ back) = trim s := by
  rw [trim, String.toList_append, String.toList_append, trimChars_pad hf hb, trim, String.toList_ofList,
    trimChars_trimChars]

@[simp] lemma trim_trim (s : String) : trim (trim s) = trim s := by
  rw [trim, trim, String.toList_ofList, trimChars_trimChars]

/-! ### Nothing but blanks -/

/-- Nothing is left of a text exactly if it holds blanks only. -/
@[simp] lemma trim_eq_empty_iff (s : String) : trim s = "" ↔ isVacant s = true := by
  rw [trim, String.ofList_eq_empty_iff, trimChars, List.reverse_eq_nil_iff, trimLeft,
    List.dropWhile_eq_nil_iff, isVacant, List.all_eq_true]
  simp only [List.mem_reverse]
  constructor
  · intro rest c mem
    -- What is not left over was dropped as a blank.
    rw [← List.takeWhile_append_dropWhile (p := isBlank) (l := s.toList), List.mem_append] at mem
    exact mem.elim List.mem_takeWhile_imp (rest c)
  · exact fun all c mem => all c ((List.dropWhile_suffix isBlank).mem mem)

lemma isVacant_eq_false_iff {s : String} : isVacant s = false ↔ trim s ≠ "" := by
  rw [ne_eq, trim_eq_empty_iff, Bool.not_eq_true]

end Approval.Text
