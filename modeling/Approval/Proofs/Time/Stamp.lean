import Approval.Proofs.Time.Calendar
import Approval.Proofs.Time.Instant
import Approval.Time.Stamp
import Mathlib.Data.List.Induction
import Mathlib.Tactic.IntervalCases

/-!
# The order of time stamps

Rows are ordered by the text of a time. For years of four digits this is the order of the times: all
numbers but the fraction have a fixed width, and a fraction that is cut off early goes on with the sign of
the zone, which comes before the point and before all digits.
-/

namespace Approval.Instant

open Date

/-! ### Numbers of a fixed width -/

/-- A number is written as the number in front of its last digit and then that digit. -/
lemma padded_succ {width n : Nat} (pos : 0 < width) :
    padded (width + 1) n = padded width (n / 10) ++ [Nat.digitChar (n % 10)] := by
  simp only [padded]
  rw [Nat.toDigits_eq_if (by decide : 1 < 10) (n := n)]
  split
  case isTrue small =>
    rw [Nat.div_eq_of_lt small, Nat.mod_eq_of_lt small]
    obtain ⟨w, rfl⟩ : ∃ w, width = w + 1 := ⟨width - 1, by omega⟩
    simp [List.replicate_succ']
  case isFalse large =>
    simp [Nat.add_sub_add_right]

lemma padded_one {n : Nat} (h : n < 10) : padded 1 n = [Nat.digitChar n] := by
  simp [padded, Nat.toDigits_of_lt_base h]

lemma length_padded {width n : Nat} (pos : 0 < width) (h : n < 10 ^ width) :
    (padded width n).length = width := by
  induction width, pos using Nat.le_induction generalizing n with
  | base => simp [padded_one (by simpa using h)]
  | succ width pos ih =>
    rw [padded_succ pos, List.length_append, ih (by rw [Nat.pow_succ] at h; omega)]
    rfl

lemma digitChar_lt {a b : Nat} (h : a < b) (hb : b < 10) : Nat.digitChar a < Nat.digitChar b := by
  interval_cases b <;> interval_cases a <;> decide

/-- Of two texts the one whose beginning is smaller is smaller, if the beginnings are of one length. -/
lemma append_lt {xs ys us vs : List Char} (h : xs < ys) (len : xs.length = ys.length) :
    xs ++ us < ys ++ vs := by
  induction xs generalizing ys with
  | nil =>
    obtain rfl := List.length_eq_zero_iff.mp len.symm
    exact absurd h (List.lt_irrefl [])
  | cons x xs ih =>
    cases ys with
    | nil => cases len
    | cons y ys =>
      rw [List.cons_append, List.cons_append, List.cons_lt_cons_iff]
      rcases List.cons_lt_cons_iff.mp h with less | ⟨same, rest⟩
      · exact .inl less
      · exact .inr ⟨same, ih rest (by simpa using len)⟩

lemma padded_lt {width n m : Nat} (pos : 0 < width) (h : n < m) (hm : m < 10 ^ width) :
    padded width n < padded width m := by
  induction width, pos using Nat.le_induction generalizing n m with
  | base =>
    have hm : m < 10 := by simpa using hm
    rw [padded_one hm, padded_one (by omega), List.cons_lt_cons_iff]
    exact .inl (digitChar_lt h hm)
  | succ width pos ih =>
    rw [padded_succ pos, padded_succ pos]
    rw [Nat.pow_succ] at hm
    rcases Nat.lt_or_ge (n / 10) (m / 10) with less | ge
    · refine append_lt (ih less (by omega)) ?_
      rw [length_padded pos (by omega), length_padded pos (by omega)]
    · rw [show n / 10 = m / 10 by omega]
      refine List.append_left_lt (List.cons_lt_cons_iff.mpr (.inl (digitChar_lt ?_ ?_))) <;> omega

/-- A text that begins with a number of a fixed width is smaller if the number is, or what follows. -/
lemma padded_append_lt {width n m : Nat} {us vs : List Char} (pos : 0 < width) (hn : n < 10 ^ width)
    (hm : m < 10 ^ width) (h : n < m ∨ n = m ∧ us < vs) : padded width n ++ us < padded width m ++ vs := by
  rcases h with less | ⟨rfl, less⟩
  · exact append_lt (padded_lt pos less hm) (by rw [length_padded pos hn, length_padded pos hm])
  · exact List.append_left_lt less

/-- A sign comes before all digits. -/
lemma plus_lt_padded {width n : Nat} {us vs : List Char} (pos : 0 < width) (h : n < 10 ^ width) :
    '+' :: us < padded width n ++ vs := by
  induction width, pos using Nat.le_induction generalizing n vs with
  | base =>
    have h : n < 10 := by simpa using h
    rw [padded_one h, List.cons_append, List.cons_lt_cons_iff]
    exact .inl (by interval_cases n <;> decide)
  | succ width pos ih =>
    rw [padded_succ pos, List.append_assoc]
    exact ih (by rw [Nat.pow_succ] at h; omega)

/-! ### Fractions -/

/-- The groups of three digits that a number is written in after a point, the last ones left out if they
are zero, and what follows. -/
def groups (zone : List Char) : Nat → Nat → List Char
  | 0, _ => zone
  | count + 1, n =>
    if n = 0 then zone else padded 3 (n / 1000 ^ count) ++ groups zone count (n % 1000 ^ count)

lemma groups_lt {zone : List Char} {count n m : Nat} (h : n < m) (hm : m < 1000 ^ count) :
    groups ('+' :: zone) count n < groups ('+' :: zone) count m := by
  induction count generalizing n m with
  | zero => omega
  | succ count ih =>
    have unit : 0 < 1000 ^ count := Nat.pow_pos (by decide)
    have first : m / 1000 ^ count < 10 ^ 3 := by
      rw [Nat.div_lt_iff_lt_mul unit]
      rwa [Nat.pow_succ'] at hm
    rw [groups, groups, if_neg (show ¬m = 0 by omega)]
    split
    · exact plus_lt_padded (by decide) first
    · have le := Nat.div_le_div_right (c := 1000 ^ count) h.le
      refine padded_append_lt (by decide) (by omega) first ?_
      rcases Nat.lt_or_eq_of_le le with less | same
      · exact .inl less
      · refine .inr ⟨same, ih ?_ (Nat.mod_lt _ unit)⟩
        have := Nat.div_add_mod n (1000 ^ count)
        have := Nat.div_add_mod m (1000 ^ count)
        rw [same] at *
        omega

/-- The last three digits of a number. -/
lemma padded_add_three {width n : Nat} (pos : 0 < width) :
    padded (width + 3) n = padded width (n / 1000) ++ padded 3 (n % 1000) := by
  have last : padded 3 (n % 1000) =
      [Nat.digitChar (n / 100 % 10), Nat.digitChar (n / 10 % 10), Nat.digitChar (n % 10)] := by
    have hundreds : n % 1000 / 10 / 10 = n / 100 % 10 := by omega
    have tens : n % 1000 / 10 % 10 = n / 10 % 10 := by omega
    have ones : n % 1000 % 10 = n % 10 := by omega
    rw [padded_succ (by decide), padded_succ (by decide), padded_one (by omega), hundreds, tens, ones]
    rfl
  rw [last, padded_succ (show 0 < width + 2 by omega), padded_succ (show 0 < width + 1 by omega),
    padded_succ pos]
  simp [Nat.div_div_eq_div_mul]

/-- A fraction and what follows it, as groups of three digits. -/
lemma fractionText_append (nano : Nat) (zone : List Char) :
    fractionText nano ++ zone = if nano % nanosPerSecond = 0 then zone
      else '.' :: groups zone 3 (nano % nanosPerSecond) := by
  simp only [fractionText]
  generalize nano % nanosPerSecond = n
  split
  case isTrue => rfl
  case isFalse hn =>
    have millis : n / 1000 ^ 2 = n / 1000000 := rfl
    have micros : n % 1000 ^ 2 / 1000 ^ 1 = n / 1000 % 1000 := by omega
    have nanos : n % 1000 ^ 2 % 1000 ^ 1 = n % 1000 := by omega
    have split : n / 1000 / 1000 = n / 1000000 := Nat.div_div_eq_div_mul n 1000 1000
    simp only [groups, hn, if_false, pow_zero, Nat.div_one, millis, micros, nanos]
    rcases Decidable.em (n % 1000000 = 0) with h6 | h6
    · simp [h6]
    · rcases Decidable.em (n % 1000 = 0) with h3 | h3
      · simp [h6, h3, padded_add_three (show 0 < 3 by decide), split]
      · simp [h6, h3, padded_add_three (show 0 < 3 by decide), padded_add_three (show 0 < 6 by decide), split]

lemma fractionText_lt {n m : Nat} (zone : List Char)
    (h : n % nanosPerSecond < m % nanosPerSecond) :
    fractionText n ++ '+' :: zone < fractionText m ++ '+' :: zone := by
  have bound : m % nanosPerSecond < 1000 ^ 3 := Nat.mod_lt _ (by decide)
  rw [fractionText_append, fractionText_append, if_neg (show ¬m % nanosPerSecond = 0 by omega)]
  split
  · exact List.cons_lt_cons_iff.mpr (.inl (by decide))
  · exact List.cons_lt_cons_self.mpr (groups_lt h bound)

/-! ### Stamps -/

/-- A leap second ends a minute, as it does in every time that is read and in every time that a clock
shows. -/
def IsCivil (t : Instant) : Prop := nanosPerSecond ≤ t.nano → t.second % 60 = 59

instance (t : Instant) : Decidable t.IsCivil := inferInstanceAs (Decidable (_ → _))

/-- A stamp with a plain year is made of numbers of a fixed width, the fraction and the zone. -/
lemma rowStamp_toList {t : Instant} (plain : t.hasPlainYear = true) :
    t.rowStamp.toList = padded 4 t.date.year.toNat ++ '-' :: (padded 2 t.date.month ++ '-' ::
      (padded 2 t.date.day ++ 'T' :: (padded 2 t.clock.1 ++ ':' :: (padded 2 t.clock.2.1 ++ ':' ::
        (padded 2 t.clock.2.2 ++ (fractionText t.nano ++ "+00:00".toList)))))) := by
  simp only [hasPlainYear, Bool.and_eq_true, decide_eq_true_eq] at plain
  have plain : 0 ≤ t.date.year ∧ t.date.year ≤ 9999 := plain
  simp [rowStamp, chars, dateText, minuteText, secondText, yearText, plain]

/-- The clock of an earlier time of the same day shows less, or the same and a smaller fraction. -/
lemma clock_lt {a b : Instant} (ca : a.IsCivil) (cb : b.IsCivil) (day : a.second / 86400 = b.second / 86400)
    (h : a < b) : a.clock.1 < b.clock.1 ∨ a.clock.1 = b.clock.1 ∧ (a.clock.2.1 < b.clock.2.1 ∨
      a.clock.2.1 = b.clock.2.1 ∧ (a.clock.2.2 < b.clock.2.2 ∨
        a.clock.2.2 = b.clock.2.2 ∧ a.nano % nanosPerSecond < b.nano % nanosPerSecond)) := by
  rw [lt_iff] at h
  have := a.nano_lt
  have := b.nano_lt
  unfold IsCivil nanosPerSecond at *
  obtain ⟨s, hs⟩ : ∃ s, s = (a.second % 86400).toNat := ⟨_, rfl⟩
  obtain ⟨s', hs'⟩ : ∃ s, s = (b.second % 86400).toNat := ⟨_, rfl⟩
  have order : s < s' ∨ s = s' ∧ a.nano < b.nano := by omega
  have leap : 1000000000 ≤ a.nano → s % 60 = 59 := by omega
  have leap' : 1000000000 ≤ b.nano → s' % 60 = 59 := by omega
  simp only [clock, nanosPerSecond, ← hs, ← hs']
  clear hs hs' h day ca cb
  rcases Nat.lt_or_ge a.nano 1000000000 with ha | ha <;>
    rcases Nat.lt_or_ge b.nano 1000000000 with hb | hb
  · rw [if_neg (by omega), if_neg (by omega)]
    omega
  · rw [if_neg (by omega), if_pos hb]
    omega
  · rw [if_pos ha, if_neg (by omega)]
    omega
  · rw [if_pos ha, if_pos hb]
    omega

lemma clock_bounds (t : Instant) : t.clock.1 < 10 ^ 2 ∧ t.clock.2.1 < 10 ^ 2 ∧ t.clock.2.2 < 10 ^ 2 := by
  simp only [clock]
  split_ifs <;> omega

/-- An earlier time has an earlier date, or the same one. -/
lemma date_lt {a b : Instant} (plain : a.hasPlainYear = true) (h : a < b) :
    a.date.year.toNat < b.date.year.toNat ∨ a.date.year.toNat = b.date.year.toNat ∧
      (a.date.month < b.date.month ∨ a.date.month = b.date.month ∧
        (a.date.day < b.date.day ∨ a.date.day = b.date.day ∧ a.second / 86400 = b.second / 86400)) := by
  simp only [hasPlainYear, Bool.and_eq_true, decide_eq_true_eq] at plain
  have year : 0 ≤ a.date.year := plain.1
  have day_le : a.second / 86400 ≤ b.second / 86400 := by
    rw [lt_iff] at h
    omega
  rcases Int.lt_or_eq_of_le day_le with earlier | same
  · have := ofDays_precedes earlier
    change a.date.Precedes b.date at this
    unfold Precedes at this
    omega
  · simp [date, same]

lemma year_lt {t : Instant} (plain : t.hasPlainYear = true) : t.date.year.toNat < 10 ^ 4 := by
  simp only [hasPlainYear, Bool.and_eq_true, decide_eq_true_eq] at plain
  have : t.date.year ≤ 9999 := plain.2
  omega

/-- The text of an earlier time comes before the text of a later one. -/
lemma rowStamp_lt {a b : Instant} (plain : a.hasPlainYear = true) (plain' : b.hasPlainYear = true)
    (ca : a.IsCivil) (cb : b.IsCivil) (h : a < b) : a.rowStamp < b.rowStamp := by
  rw [String.lt_iff, rowStamp_toList plain, rowStamp_toList plain']
  obtain ⟨month, day⟩ := ofDays_bounds (a.second / 86400)
  obtain ⟨month', day'⟩ := ofDays_bounds (b.second / 86400)
  obtain ⟨hour, minute, second⟩ := a.clock_bounds
  obtain ⟨hour', minute', second'⟩ := b.clock_bounds
  -- Number after number: an earlier one decides, and an equal one leaves it to the rest.
  refine padded_append_lt (by decide) (year_lt plain) (year_lt plain') ?_
  refine (date_lt plain h).imp_right (.imp_right fun months => ?_)
  refine List.cons_lt_cons_self.mpr (padded_append_lt (by decide) month month' ?_)
  refine months.imp_right (.imp_right fun days => ?_)
  refine List.cons_lt_cons_self.mpr (padded_append_lt (by decide) day day' ?_)
  refine days.imp_right (.imp_right fun same => ?_)
  have times := clock_lt ca cb same h
  refine List.cons_lt_cons_self.mpr (padded_append_lt (by decide) hour hour' ?_)
  refine times.imp_right (.imp_right fun minutes => ?_)
  refine List.cons_lt_cons_self.mpr (padded_append_lt (by decide) minute minute' ?_)
  refine minutes.imp_right (.imp_right fun seconds => ?_)
  refine List.cons_lt_cons_self.mpr (padded_append_lt (by decide) second second' ?_)
  exact seconds.imp_right (.imp_right (fractionText_lt _))

/-- The order of the texts of times with plain years is the order of the times. -/
theorem rowStamp_le_iff {a b : Instant} (plain : a.hasPlainYear = true) (plain' : b.hasPlainYear = true)
    (ca : a.IsCivil) (cb : b.IsCivil) : a.rowStamp ≤ b.rowStamp ↔ a ≤ b := by
  constructor
  · intro texts later
    exact String.not_lt.mpr texts (rowStamp_lt plain' plain cb ca later)
  · intro times
    rcases le_iff.mp times with earlier | ⟨second, nano⟩
    · exact String.not_lt.mp (String.lt_asymm (rowStamp_lt plain plain' ca cb (lt_iff.mpr (.inl earlier))))
    rcases Nat.lt_or_eq_of_le nano with earlier | same
    · have before := lt_iff.mpr (.inr ⟨second, earlier⟩)
      exact String.not_lt.mp (String.lt_asymm (rowStamp_lt plain plain' ca cb before))
    · obtain rfl : a = b := by
        cases a
        cases b
        simp_all
      exact String.le_refl _

/-! ### Times that are read -/

lemma ofDigits_lt {cs : List Char} (h : ∀ c ∈ cs, c.isDigit) :
    Number.ofDigits cs < 10 ^ cs.length := by
  induction cs using List.reverseRecOn with
  | nil => decide
  | append_singleton cs c ih =>
    obtain ⟨front, last⟩ := List.forall_mem_append.mp h
    have less := ih front
    have digit : Number.digitOf c < 10 := by
      have := Char.isDigit_iff_toNat.mp (last c List.mem_cons_self)
      unfold Number.digitOf
      rw [show '0'.toNat = 48 from rfl] at *
      rw [show '9'.toNat = 57 from rfl] at this
      omega
    rw [Number.ofDigits, List.foldl_append, List.length_append, List.length_singleton, Nat.pow_succ]
    change 10 * Number.ofDigits cs + Number.digitOf c < _
    omega

lemma fraction_lt {cs rest : List Char} {nano : Nat} (h : fraction? cs = some (nano, rest)) :
    nano < nanosPerSecond := by
  unfold fraction? at h
  split at h
  case h_1 digits =>
    simp only [Option.ite_none_left_eq_some, Option.some.injEq, Prod.mk.injEq] at h
    obtain ⟨-, rfl, -⟩ := h
    generalize hc : (digits.takeWhile Char.isDigit).take 9 = counted
    have less : Number.ofDigits counted < 10 ^ counted.length := ofDigits_lt fun c mem =>
      List.all_eq_true.mp List.all_takeWhile c (List.mem_of_mem_take (hc ▸ mem))
    have len : counted.length ≤ 9 := by simp [← hc]
    calc Number.ofDigits counted * 10 ^ (9 - counted.length)
      _ < 10 ^ counted.length * 10 ^ (9 - counted.length) :=
        Nat.mul_lt_mul_of_pos_right less (Nat.pow_pos (by decide))
      _ = nanosPerSecond := by rw [← Nat.pow_add, Nat.add_sub_cancel' len]; rfl
  case h_2 =>
    simp only [Option.some.injEq, Prod.mk.injEq] at h
    obtain ⟨rfl, -⟩ := h
    decide

/-- Offsets are whole minutes. -/
lemma offset_minutes {cs rest : List Char} {offset : Int} (h : offset? cs = some (offset, rest)) :
    offset % 60 = 0 := by
  have whole (sign : Int) (hours minutes : Nat) :
      sign * (hours * 3600 + minutes * 60 : Nat) % 60 = 0 := by
    rw [show (hours * 3600 + minutes * 60 : Nat) = (hours * 60 + minutes) * 60 by omega, Int.natCast_mul,
      ← Int.mul_assoc]
    exact Int.mul_emod_left _ _
  unfold offset? at h
  split at h
  · simp only [Option.some.injEq, Prod.mk.injEq] at h
    rw [← h.1]
    rfl
  · split at h
    iterate 2
      simp only [Option.some.injEq, Prod.mk.injEq] at h
      rw [← h.1]
      rfl
    simp only [Option.bind_eq_bind, Option.bind_eq_some_iff, Option.ite_none_right_eq_some,
      Option.some.injEq, Prod.mk.injEq, Prod.exists] at h
    obtain ⟨sign, rest, -, hours, rest, -, minutes, rest, -, -, rfl, -⟩ := h
    exact whole sign hours minutes

lemma isCivil_of_ofFields? {d : Date} {hour minute second nano : Nat} {offset : Int} {t : Instant}
    (fraction : nano < nanosPerSecond) (minutes : offset % 60 = 0)
    (h : ofFields? d hour minute second nano offset = some t) : t.IsCivil := by
  simp only [ofFields?, ofParts?, Option.bind_eq_bind, Option.bind_eq_some_iff,
    Option.ite_none_right_eq_some, Option.dite_none_right_eq_some, Option.some.injEq] at h
  obtain ⟨-, here, ⟨-, -, rfl⟩, -, -, rfl⟩ := h
  unfold IsCivil
  simp only
  split_ifs with leap <;> omega

/-- A time that is read is civil. -/
theorem isCivil_of_parse? {s : String} {t : Instant} (h : parse? s = some t) : t.IsCivil := by
  unfold parse? at h
  obtain ⟨⟨year, rest⟩, -, h⟩ := Option.bind_eq_some_iff.mp h
  obtain ⟨rest, -, h⟩ := Option.bind_eq_some_iff.mp h
  obtain ⟨⟨month, rest⟩, -, h⟩ := Option.bind_eq_some_iff.mp h
  obtain ⟨rest, -, h⟩ := Option.bind_eq_some_iff.mp h
  obtain ⟨⟨day, rest⟩, -, h⟩ := Option.bind_eq_some_iff.mp h
  dsimp only at h
  split at h
  case h_4 => cases h
  all_goals
    obtain ⟨rest, -, h⟩ := Option.bind_eq_some_iff.mp h
    obtain ⟨⟨hour, rest⟩, -, h⟩ := Option.bind_eq_some_iff.mp h
    obtain ⟨rest, -, h⟩ := Option.bind_eq_some_iff.mp h
    obtain ⟨⟨minute, rest⟩, -, h⟩ := Option.bind_eq_some_iff.mp h
    obtain ⟨rest, -, h⟩ := Option.bind_eq_some_iff.mp h
    obtain ⟨⟨second, rest⟩, -, h⟩ := Option.bind_eq_some_iff.mp h
    obtain ⟨⟨nano, rest⟩, fraction, h⟩ := Option.bind_eq_some_iff.mp h
    obtain ⟨⟨offset, rest⟩, zone, h⟩ := Option.bind_eq_some_iff.mp h
    simp only [Option.ite_none_right_eq_some] at h
    exact isCivil_of_ofFields? (fraction_lt fraction) (offset_minutes zone) h.2

end Approval.Instant
