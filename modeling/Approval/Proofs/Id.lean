import Approval.Id
import Mathlib.Order.Monotone.Basic
import Mathlib.Tactic.Lemma
import Mathlib.Tactic.SplitIfs
import Mathlib.Tactic.Tauto

/-!
# Identifiers

An ascending list of identifiers has the members of the list that it is made of, and no other ascending list
has the same ones.
-/

namespace Approval.Id

/-! ### Ascending lists -/

variable {kind : Kind} {a b : Id kind} {ids : List (Id kind)}

@[simp] lemma mem_insert : a ∈ insert b ids ↔ a = b ∨ a ∈ ids := by
  induction ids with
  | nil => simp [insert]
  | cons c ids ih =>
    unfold insert
    split_ifs with less same
    · simp
    · simp [same]
    · simp only [List.mem_cons, ih]
      tauto

@[simp] lemma mem_ascending : a ∈ ascending ids ↔ a ∈ ids := by
  have folded (sorted : List (Id kind)) :
      a ∈ ids.foldl (fun sorted b => insert b sorted) sorted ↔ a ∈ sorted ∨ a ∈ ids := by
    induction ids generalizing sorted with
    | nil => simp
    | cons b ids ih =>
      simp only [List.foldl_cons, ih, mem_insert, List.mem_cons]
      tauto
  rw [ascending, folded, List.mem_nil_iff, false_or]

@[simp] lemma less_irrefl (a : Id kind) : a.less a = false := by simp [less]

lemma less_trans {c : Id kind} (h : a.less b = true) (h' : b.less c = true) : a.less c = true := by
  simp only [less, decide_eq_true_eq] at *
  exact h.trans h'

/-- Of two identifiers one is less, or they are the same. -/
lemma less_of_not_less (h : ¬a.less b = true) (other : a ≠ b) : b.less a = true := by
  obtain ⟨⟨m⟩⟩ := a
  obtain ⟨⟨n⟩⟩ := b
  have : m ≠ n := fun same => other (by rw [same])
  simp only [less, decide_eq_true_eq] at *
  omega

/-- The identifiers stand in strictly ascending order. -/
def Ascend (ids : List (Id kind)) : Prop := ids.Pairwise fun a b => a.less b = true

lemma ascend_insert (h : Ascend ids) : Ascend (insert a ids) := by
  induction ids with
  | nil => exact List.pairwise_singleton _ _
  | cons b ids ih =>
    obtain ⟨first, rest⟩ := List.pairwise_cons.mp h
    unfold insert
    split_ifs with less same
    · refine List.pairwise_cons.mpr ⟨fun c mem => ?_, h⟩
      rcases List.mem_cons.mp mem with rfl | later
      · exact less
      · exact less_trans less (first c later)
    · exact h
    · refine List.pairwise_cons.mpr ⟨fun c mem => ?_, ih rest⟩
      rcases mem_insert.mp mem with rfl | later
      · exact less_of_not_less less same
      · exact first c later

lemma ascend_ascending (ids : List (Id kind)) : Ascend (ascending ids) := by
  have folded (sorted : List (Id kind)) (h : Ascend sorted) :
      Ascend (ids.foldl (fun sorted b => insert b sorted) sorted) := by
    induction ids generalizing sorted with
    | nil => exact h
    | cons b ids ih => exact ih _ (ascend_insert h)
  exact folded [] .nil

lemma Ascend.nodup (h : Ascend ids) : ids.Nodup := by
  refine List.Pairwise.imp ?_ h
  rintro a _ less rfl
  simp at less

/-- Ascending lists with the same members are the same. -/
lemma Ascend.eq_of_mem_iff {others : List (Id kind)} (h : Ascend ids) (h' : Ascend others)
    (same : ∀ a, a ∈ ids ↔ a ∈ others) : ids = others := by
  refine List.Perm.eq_of_pairwise ?_ h h' ((List.perm_ext_iff_of_nodup h.nodup h'.nodup).mpr same)
  intro a b _ _ less greater
  exact absurd (less_trans less greater) (by simp)

/-- The list has the identifiers of which something holds, each once and in ascending order. -/
structure Enumerates (ids : List (Id kind)) (P : Id kind → Prop) : Prop where
  ascend : Ascend ids
  mem_iff : ∀ a, a ∈ ids ↔ P a

end Approval.Id
