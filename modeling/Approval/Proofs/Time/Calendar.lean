import Approval.Time.Calendar
import Mathlib.Tactic.Lemma
import Mathlib.Tactic.SplitIfs

/-!
# The order of dates

Dates follow each other as their day numbers do: a later day has a later year, or the same year and a
later month, or the same month and a later day of it. Years are counted from March on, as the calendar
counts them: the leap day is then the last one of the year.
-/

namespace Approval.Date

/-! ### Days of four hundred years -/

/-- A day of an era falls into the centuries, the groups of four years, the years and the days that have
gone by. Only the last year of a group has a leap day, and only if a century goes on or the era ends. -/
structure FallsInto (dayOfEra century group year day : Int) : Prop where
  century_bounds : 0 ≤ century ∧ century ≤ 3
  group_bounds : 0 ≤ group ∧ group ≤ 24
  year_bounds : 0 ≤ year ∧ year ≤ 3
  day_nonneg : 0 ≤ day
  day_le : day ≤ 364 ∨ day = 365 ∧ year = 3 ∧ (group ≤ 23 ∨ century = 3)
  sum : dayOfEra = 36524 * century + 1461 * group + 365 * year + day

lemma exists_fallsInto {dayOfEra : Int} (nonneg : 0 ≤ dayOfEra) (lt : dayOfEra < eraLength) :
    ∃ century group year day, FallsInto dayOfEra century group year day := by
  unfold eraLength at lt
  obtain ⟨century, hc⟩ : ∃ century, century = min (dayOfEra / 36524) 3 := ⟨_, rfl⟩
  have bounds : 0 ≤ dayOfEra - 36524 * century ∧ dayOfEra - 36524 * century ≤ 36524 ∧
      (dayOfEra - 36524 * century = 36524 → century = 3) := by omega
  generalize hr : dayOfEra - 36524 * century = rest at bounds
  obtain ⟨year, hy⟩ : ∃ year, year = min (rest % 1461 / 365) 3 := ⟨_, rfl⟩
  refine ⟨century, rest / 1461, year, rest % 1461 - 365 * year, ?_, ?_, ?_, ?_, ?_, ?_⟩ <;> omega

namespace FallsInto

variable {dayOfEra century group year day : Int}

/-- The year of the era that the calendar reckons is the one that the day falls into. -/
lemma yearOfEra_eq (h : FallsInto dayOfEra century group year day) :
    (dayOfEra - dayOfEra / 1460 + dayOfEra / 36524 - dayOfEra / 146096) / 365 =
      100 * century + 4 * group + year := by
  obtain ⟨hc, hg, hy, nonneg, le, sum⟩ := h
  have rest : 1461 * group + 365 * year + day ≤ 36523 ∨
      century = 3 ∧ 1461 * group + 365 * year + day = 36524 := by
    rcases le with le | ⟨last, leap, group_le | era_ends⟩ <;> omega
  have centuries : dayOfEra / 36524 - dayOfEra / 146096 = century := by omega
  have groups : dayOfEra / 1460 =
      25 * century + group + (24 * century + group + 365 * year + day) / 1460 := by omega
  generalize hs : (24 * century + group + 365 * year + day) / 1460 = slip at groups
  have day_bounds : 0 ≤ day - slip ∧ day - slip ≤ 364 := by
    rcases le with le | ⟨last, leap, group_le | era_ends⟩ <;> omega
  omega

/-- What remains of the era after its full years are the days. -/
lemma dayOfYear_eq (h : FallsInto dayOfEra century group year day) {y : Int}
    (hy : y = 100 * century + 4 * group + year) : dayOfEra - (365 * y + y / 4 - y / 100) = day := by
  obtain ⟨hc, hg, hy, -, -, sum⟩ := h
  have : y / 4 = 25 * century + group := by omega
  have : y / 100 = century := by omega
  omega

end FallsInto

/-! ### Days and months from March on -/

/-- The days from 0000-03-01 to the first of March of a year. -/
def daysToMarch (year : Int) : Int := 365 * year + year / 4 - year / 100 + year / 400

/-- The days from the first of March to the first of the month that is so many months later. -/
def daysToMonth (month : Int) : Int := (153 * month + 2) / 5

lemma daysToMarch_mono {a b : Int} (h : a ≤ b) : daysToMarch a ≤ daysToMarch b := by
  unfold daysToMarch
  omega

lemma daysToMonth_mono {a b : Int} (h : a ≤ b) : daysToMonth a ≤ daysToMonth b := by
  unfold daysToMonth
  omega

/-- The date with a month and a day that are counted from the first of March of a year on. -/
def fromMarch (year month day : Int) : Date :=
  ⟨if month < 10 then year else year + 1, (if month < 10 then month + 3 else month - 9).toNat,
    (day + 1).toNat⟩

/-- A day number, counted from 0000-03-01, is that of a day in a month of a year. -/
structure Falls (number year month day : Int) : Prop where
  month_bounds : 0 ≤ month ∧ month ≤ 11
  day_bounds : 0 ≤ day ∧ day ≤ 30
  in_month : daysToMonth month + day < daysToMonth (month + 1)
  in_year : number < daysToMarch (year + 1)
  sum : number = daysToMarch year + daysToMonth month + day

lemma Falls.nonneg {number year month day : Int} (h : Falls number year month day) :
    0 ≤ daysToMonth month + day := by
  have := h.month_bounds
  have := h.day_bounds
  unfold daysToMonth
  omega

/-- A day of an era is one of a month of a year. -/
lemma FallsInto.falls {dayOfEra century group year day : Int}
    (h : FallsInto dayOfEra century group year day) (era : Int) :
    Falls (era * eraLength + dayOfEra) (100 * century + 4 * group + year + era * 400)
      ((5 * day + 2) / 153) (day - daysToMonth ((5 * day + 2) / 153)) := by
  obtain ⟨hc, hg, hy, nonneg, le, sum⟩ := h
  have day_le : day ≤ 365 := by omega
  refine ⟨?_, ?_, ?_, ?_, ?_⟩
  · omega
  · unfold daysToMonth
    omega
  · unfold daysToMonth
    omega
  · unfold daysToMarch eraLength
    rcases le with le | ⟨last, leap, group_le | era_ends⟩ <;> omega
  · unfold daysToMarch eraLength
    omega

/-- Every day number is that of a day in a month of a year, and this is the date that it has. -/
lemma exists_falls (days : Int) :
    ∃ year month day, Falls (days + epochShift) year month day ∧ ofDays days = fromMarch year month day := by
  have split := Int.ediv_mul_add_emod (days + epochShift) eraLength
  obtain ⟨century, group, year, day, into⟩ := exists_fallsInto
    (Int.emod_nonneg (days + epochShift) (b := eraLength) (by decide))
    (Int.emod_lt_of_pos (days + epochShift) (b := eraLength) (by decide))
  have falls := into.falls ((days + epochShift) / eraLength)
  rw [split] at falls
  refine ⟨_, _, _, falls, ?_⟩
  have month_bounds := falls.month_bounds
  simp only [ofDays, into.yearOfEra_eq, into.dayOfYear_eq rfl, fromMarch, daysToMonth]
  generalize (5 * day + 2) / 153 = month at month_bounds
  congr 1
  split_ifs <;> omega

/-- A later day is one of a later year, or of a later month in it, or later in the month. -/
lemma Falls.lt {number number' year month day year' month' day' : Int} (h : Falls number year month day)
    (h' : Falls number' year' month' day') (lt : number < number') :
    year < year' ∨ year = year' ∧ (month < month' ∨ month = month' ∧ day < day') := by
  have year_le : year ≤ year' := by
    refine Int.not_lt.mp fun earlier => ?_
    have := daysToMarch_mono (a := year' + 1) (b := year) (by omega)
    have := h.nonneg
    have := h.sum
    have := h'.in_year
    omega
  rcases Int.lt_or_eq_of_le year_le with later | rfl
  · exact .inl later
  have month_le : month ≤ month' := by
    refine Int.not_lt.mp fun earlier => ?_
    have := daysToMonth_mono (a := month' + 1) (b := month) (by omega)
    have := h.day_bounds
    have := h.sum
    have := h'.sum
    have := h'.in_month
    omega
  rcases Int.lt_or_eq_of_le month_le with later | rfl
  · exact .inr ⟨rfl, .inl later⟩
  have := h.sum
  have := h'.sum
  exact .inr ⟨rfl, .inr ⟨rfl, by omega⟩⟩

/-! ### Dates -/

/-- The first date comes before the second one: by year, then by month, then by day. -/
def Precedes (a b : Date) : Prop :=
  a.year < b.year ∨ a.year = b.year ∧ (a.month < b.month ∨ a.month = b.month ∧ a.day < b.day)

/-- The date of an earlier day comes before that of a later one. -/
theorem ofDays_precedes {a b : Int} (h : a < b) : (ofDays a).Precedes (ofDays b) := by
  obtain ⟨year, month, day, falls, date⟩ := exists_falls a
  obtain ⟨year', month', day', falls', date'⟩ := exists_falls b
  have order := falls.lt falls' (by omega)
  have := falls.month_bounds
  have := falls.day_bounds
  have := falls'.month_bounds
  have := falls'.day_bounds
  rw [date, date']
  unfold Precedes fromMarch
  simp only
  split_ifs <;> omega

/-- The month and the day of a date have two digits at most. -/
lemma ofDays_bounds (days : Int) : (ofDays days).month < 100 ∧ (ofDays days).day < 100 := by
  obtain ⟨year, month, day, falls, date⟩ := exists_falls days
  have := falls.month_bounds
  have := falls.day_bounds
  rw [date]
  unfold fromMarch
  simp only
  split_ifs <;> omega

end Approval.Date
