import Approval.Time.Instant
import Mathlib.Order.Defs.PartialOrder
import Mathlib.Tactic.Lemma
import Mathlib.Tactic.SplitIfs

/-!
# Times that can be reckoned with

An instant in a year of four digits is far from the last one, so that a deadline some years later exists.
-/

namespace Approval

/-- Days whose year has four digits at most lie before the day number of the year 10000 or so. -/
lemma Date.days_lt_of_year_le (days : Int) (h : (Date.ofDays days).year ≤ 9999) :
    days < 25 * eraLength := by
  have nonneg := Int.emod_nonneg (days + epochShift) (b := eraLength) (by decide)
  have year_le : (days + epochShift) / eraLength * 400 ≤ (Date.ofDays days).year := by
    simp only [ofDays]
    generalize (days + epochShift) % eraLength = dayOfEra at nonneg ⊢
    generalize (days + epochShift) / eraLength = era
    split_ifs <;> omega
  unfold eraLength epochShift at *
  omega

namespace Instant

/-! ### The order of instants -/

@[grind =] lemma lt_iff {a b : Instant} :
    a < b ↔ a.second < b.second ∨ (a.second = b.second ∧ a.nano < b.nano) := by
  change a.before b = true ↔ _
  simp [before]

@[grind =] lemma le_iff {a b : Instant} :
    a ≤ b ↔ a.second < b.second ∨ (a.second = b.second ∧ a.nano ≤ b.nano) := by
  change ¬b < a ↔ _
  rw [lt_iff]
  omega

instance : Preorder Instant where
  le_refl a := by grind
  le_trans a b c hab hbc := by grind
  lt_iff_le_not_ge a b := by grind

lemma lt_or_eq_of_le {a b : Instant} (h : a ≤ b) : a < b ∨ a = b := by
  cases a
  cases b
  grind

/-- Instants that do not go back have one that none is after. -/
lemma exists_last {ts : List Instant} (h : ts.Pairwise (· ≤ ·)) : ∃ last, ∀ t ∈ ts, t ≤ last := by
  induction ts with
  | nil => exact ⟨default, by simp⟩
  | cons t ts ih =>
    obtain ⟨above, later⟩ := List.pairwise_cons.mp h
    obtain ⟨last, reaches⟩ := ih later
    cases ts with
    | nil => exact ⟨t, by simp⟩
    | cons u ts =>
      have up := le_trans (above u List.mem_cons_self) (reaches u List.mem_cons_self)
      exact ⟨last, List.forall_mem_cons.mpr ⟨up, reaches⟩⟩

/-! ### Instants in range -/

lemma second_lt_of_hasPlainYear {t : Instant} (h : t.hasPlainYear = true) :
    t.second < 25 * Date.eraLength * 86400 := by
  simp only [hasPlainYear, Bool.and_eq_true, decide_eq_true_eq] at h
  have := Date.days_lt_of_year_le (t.second / 86400) h.2
  unfold Date.eraLength at *
  omega

lemma exists_ofParts? {second : Int} {nano : Nat} (hs : firstSecond ≤ second ∧ second ≤ lastSecond)
    (hn : nano < 2000000000) : ∃ u, ofParts? second nano = some u :=
  ⟨⟨second, nano, hs, hn⟩, by simp [ofParts?, hs, hn]⟩

/-- A later second in range makes an instant. -/
lemma exists_add? {t : Instant} {seconds : Int} (nonneg : 0 ≤ seconds)
    (bound : t.second + seconds ≤ lastSecond) : ∃ u, t.add? seconds 0 = some u := by
  have hs := t.inRange
  have hn := t.nano_lt
  have not_neg : ¬seconds < 0 := by omega
  unfold add? nanosPerSecond
  simp only [not_neg, and_false, if_false, Nat.add_zero]
  split_ifs with stays leap total total
  · exact exists_ofParts? hs hn
  · exact exists_ofParts? ⟨by omega, bound⟩ (by omega)
  · omega
  · exact exists_ofParts? ⟨by omega, bound⟩ (by omega)
  · omega

/-- An instant in a year of four digits has one that is any hours up to a hundred years later. -/
lemma exists_addHours? {t : Instant} (h : t.hasPlainYear = true) {hours : Nat}
    (bound : hours ≤ 24 * 366 * 100) : ∃ u, t.addHours? hours = some u := by
  have := second_lt_of_hasPlainYear h
  refine exists_add? (by omega) ?_
  unfold lastSecond
  unfold Date.eraLength at this
  omega

end Instant

end Approval
