import Approval.Proofs.Number.Digits
import Approval.Proofs.Time.Stamp

/-!
# Stamps are read as the times that they were made of

The date of a day is one of the calendar and has the number of the day, and each number of a stamp is read up to
the mark behind it.
-/

namespace Approval

/-! ### Dates -/

namespace Date

/-- A date is numbered as the day whose date it is. -/
@[simp] lemma toDays_ofDays (days : Int) : (ofDays days).toDays = days := by
  obtain ⟨year, month, day, falls, date⟩ := exists_falls days
  have := falls.month_bounds
  have := falls.day_bounds
  have sum := falls.sum
  rw [date]
  simp only [fromMarch, toDays]
  unfold daysToMarch daysToMonth epochShift at *
  unfold eraLength
  split_ifs <;> omega

/-- The date of a day is one that the calendar has. -/
@[simp] lemma valid_ofDays (days : Int) : (ofDays days).valid = true := by
  obtain ⟨year, month, day, falls, date⟩ := exists_falls days
  have bounds := falls.month_bounds
  have := falls.day_bounds
  have in_month := falls.in_month
  have in_year := falls.in_year
  have sum := falls.sum
  rw [date]
  unfold daysToMonth daysToMarch at *
  -- Only the last month depends on the year, which is then the one after.
  rcases Int.lt_or_eq_of_le bounds.2 with earlier | rfl
  · have len : ∀ y, monthLength y (if month < 10 then month + 3 else month - 9).toNat =
        ((153 * (month + 1) + 2) / 5 - (153 * month + 2) / 5).toNat := by
      intro y
      obtain ⟨low, -⟩ := bounds
      interval_cases month <;> rfl
    have month_bounds : 1 ≤ (if month < 10 then month + 3 else month - 9).toNat ∧
        (if month < 10 then month + 3 else month - 9).toNat ≤ 12 := by
      split_ifs <;> omega
    simp only [fromMarch, valid, len, Bool.and_eq_true]
    exact ⟨⟨⟨decide_eq_true month_bounds.1, decide_eq_true month_bounds.2⟩, decide_eq_true (by omega)⟩,
      decide_eq_true (by omega)⟩
  · have len : monthLength (year + 1) 2 = (28 + (year + 1) / 4 - year / 4 -
        ((year + 1) / 100 - year / 100) + ((year + 1) / 400 - year / 400)).toNat := by
      simp only [monthLength, isLeap, if_true, Bool.and_eq_true, Bool.or_eq_true, decide_eq_true_eq, bne_iff_ne,
        ne_eq]
      split_ifs <;> omega
    simp only [fromMarch, valid, Bool.and_eq_true]
    exact ⟨⟨⟨rfl, rfl⟩, decide_eq_true (by omega)⟩, decide_eq_true (len ▸ by omega)⟩

end Date

/-! ### Numbers -/

namespace Instant

open Number (EndsDigits endsDigits_cons ofDigits)

variable {width n : Nat}

lemma isDigit_of_mem_padded (width n : Nat) : ∀ c ∈ padded width n, c.isDigit = true := by
  refine List.forall_mem_append.mpr ⟨fun c mem => ?_, Number.isDigit_of_mem_toDigits⟩
  rw [List.eq_of_mem_replicate mem]
  rfl

@[simp] lemma ofDigits_padded (width n : Nat) : ofDigits (padded width n) = n := by
  rw [padded, Number.ofDigits_replicate_append, Number.ofDigits_toDigits]

lemma padded_ne_nil (width n : Nat) : padded width n ≠ [] := by
  simp [padded, Nat.toDigits_ne_nil]

lemma skipBlanks_cons {c : Char} (mark : Text.isBlank c = false) (cs : List Char) :
    skipBlanks (c :: cs) = c :: cs := by
  rw [skipBlanks, Text.trimLeft, List.dropWhile_cons_of_neg (by simp [mark])]

lemma isBlank_of_isDigit {c : Char} (digit : c.isDigit = true) : Text.isBlank c = false := by
  obtain ⟨low, high⟩ := Char.isDigit_iff_toNat.mp digit
  rw [show '0'.toNat = 48 from rfl] at low
  rw [show '9'.toNat = 57 from rfl] at high
  unfold Text.isBlank
  generalize c.toNat = code at low high
  interval_cases code <;> rfl

/-- A number has no blank in front. -/
@[simp] lemma skipBlanks_padded (width n : Nat) (rest : List Char) :
    skipBlanks (padded width n ++ rest) = padded width n ++ rest := by
  obtain ⟨c, cs, digits⟩ := List.exists_cons_of_ne_nil (padded_ne_nil width n)
  have digit := isDigit_of_mem_padded width n c (by simp [digits])
  rw [digits, List.cons_append, skipBlanks_cons (isBlank_of_isDigit digit)]

lemma digits?_padded (pos : 0 < width) (h : n < 10 ^ width) (rest : List Char) :
    digits? width (padded width n ++ rest) = some (n, rest) := by
  have len := length_padded pos h
  obtain ⟨taken, -⟩ := Number.span_of_digits (isDigit_of_mem_padded width n) Number.endsDigits_nil
  rw [List.append_nil] at taken
  simp only [digits?, skipBlanks_padded, List.take_left' len, taken, List.isEmpty_iff, padded_ne_nil, if_false,
    ofDigits_padded, List.drop_left]

lemma mark?_cons {c : Char} (mark : Text.isBlank c = false) (rest : List Char) :
    mark? c (c :: rest) = some rest := by
  rw [mark?, skipBlanks_cons mark]
  exact if_pos rfl

lemma year?_yearText (year : Int) {rest : List Char} (ends : EndsDigits rest) :
    year? (yearText year ++ rest) = some (year, rest) := by
  obtain ⟨taken, dropped⟩ := Number.span_of_digits (isDigit_of_mem_padded 4 year.natAbs) ends
  unfold yearText
  split_ifs with plain negative
  · obtain ⟨c, cs, digits⟩ := List.exists_cons_of_ne_nil (padded_ne_nil 4 year.toNat)
    have digit := isDigit_of_mem_padded 4 year.toNat c (by simp [digits])
    have value : (year.toNat : Int) = year := Int.toNat_of_nonneg plain.1
    have read := @digits?_padded 4 year.toNat (by decide) (by omega) rest
    rw [year?, skipBlanks_padded]
    split
    · simp_all
    · simp_all
    · rw [read, Option.map_some]
      simp only [value]
  · rw [List.cons_append, year?, skipBlanks_cons (by decide)]
    simp only [taken, dropped, List.isEmpty_iff, padded_ne_nil, if_false, ofDigits_padded]
    congr 2
    omega
  · rw [List.cons_append, year?, skipBlanks_cons (by decide)]
    simp only [taken, dropped, List.isEmpty_iff, padded_ne_nil, if_false, ofDigits_padded]
    congr 2
    omega

lemma fraction?_padded (pos : 0 < width) (le : width ≤ 9) (h : n < 10 ^ width) {rest : List Char}
    (ends : EndsDigits rest) : fraction? ('.' :: padded width n ++ rest) = some (n * 10 ^ (9 - width), rest) := by
  have len := length_padded pos h
  obtain ⟨taken, dropped⟩ := Number.span_of_digits (isDigit_of_mem_padded width n) ends
  simp only [List.cons_append, fraction?, taken, dropped, List.isEmpty_iff, padded_ne_nil, if_false,
    List.take_of_length_le (len.trans_le le), ofDigits_padded, len]
  rfl

/-- A fraction is written with as many digits as it needs. -/
@[simp] lemma fraction?_fractionText (nano : Nat) :
    fraction? (fractionText nano ++ ['Z']) = some (nano % nanosPerSecond, ['Z']) := by
  have ends : EndsDigits ['Z'] := endsDigits_cons rfl []
  have bound : nano % nanosPerSecond < 1000000000 := Nat.mod_lt _ (by decide)
  simp only [fractionText]
  generalize nano % nanosPerSecond = n at bound
  split_ifs with zero millis micros
  · rw [zero]
    rfl
  · rw [fraction?_padded (by decide) (by decide) (by omega) ends]
    congr 2
    omega
  · rw [fraction?_padded (by decide) (by decide) (by omega) ends]
    congr 2
    omega
  · rw [fraction?_padded (by decide) (by decide) (by omega) ends, Nat.sub_self, Nat.pow_zero, Nat.mul_one]

/-! ### Stamps -/

/-- The fields of a time make that time. -/
lemma ofFields?_clock {t : Instant} (civil : t.IsCivil) :
    ofFields? t.date t.clock.1 t.clock.2.1 t.clock.2.2 (t.nano % nanosPerSecond) 0 = some t := by
  have nano := t.nano_lt
  have made (second : Int) (part : Nat) (same : second = t.second) (same' : part = t.nano) :
      ofParts? second part = some t := by
    obtain rfl := same.symm
    obtain rfl := same'.symm
    simp only [ofParts?, dif_pos t.inRange, dif_pos t.nano_lt]
  have clock : t.clock.1 < 24 ∧ t.clock.2.1 < 60 ∧ t.clock.2.2 ≤ 60 := by
    simp only [Instant.clock]
    split_ifs <;> omega
  have leap : (t.clock.2.2 = 60 ↔ nanosPerSecond ≤ t.nano) ∧
      (t.clock.2.2 ≠ 60 → t.clock.2.2 = (t.second % 86400).toNat % 60) ∧
      (t.clock.2.2 = 60 → (t.second % 86400).toNat % 60 = 59) := by
    unfold IsCivil at civil
    simp only [Instant.clock]
    split_ifs <;> omega
  have hours : t.clock.1 = (t.second % 86400).toNat / 3600 := rfl
  have minutes : t.clock.2.1 = (t.second % 86400).toNat / 60 % 60 := rfl
  unfold nanosPerSecond at *
  rw [ofFields?, if_pos ⟨Date.valid_ofDays _, clock⟩,
    show t.date.toDays = t.second / 86400 from Date.toDays_ofDays _]
  simp only [Option.bind_eq_bind]
  rw [made, Option.bind_some]
  · exact made _ _ (Int.sub_zero _) rfl
  · split_ifs <;> omega
  · unfold nanosPerSecond
    split_ifs <;> omega

lemma stamp_toList (t : Instant) : t.stamp.toList =
    yearText t.date.year ++ '-' :: (padded 2 t.date.month ++ '-' :: (padded 2 t.date.day ++ 'T' ::
      (padded 2 t.clock.1 ++ ':' :: (padded 2 t.clock.2.1 ++ ':' :: (padded 2 t.clock.2.2 ++
        (fractionText t.nano ++ ['Z'])))))) := by
  simp [stamp, chars, dateText, minuteText, secondText]

/-- A time is read from its stamp. -/
theorem parse?_stamp {t : Instant} (civil : t.IsCivil) : parse? t.stamp = some t := by
  have month : t.date.month < 10 ^ 2 := (Date.ofDays_bounds _).1
  have day : t.date.day < 10 ^ 2 := (Date.ofDays_bounds _).2
  obtain ⟨hour, minute, second⟩ := t.clock_bounds
  have hyphen : Text.isBlank '-' = false := rfl
  have colon : Text.isBlank ':' = false := rfl
  have two : 0 < 2 := by decide
  rw [parse?, stamp_toList, year?_yearText _ (endsDigits_cons rfl _)]
  simp only [Option.bind_eq_bind, Option.bind_some, mark?_cons hyphen, mark?_cons colon, digits?_padded two month,
    digits?_padded two day, digits?_padded two hour, digits?_padded two minute, digits?_padded two second,
    fraction?_fractionText]
  exact ofFields?_clock civil

end Instant

end Approval
