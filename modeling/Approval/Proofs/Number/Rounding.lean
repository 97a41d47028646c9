import Approval.Number.Binary64
import Mathlib.Tactic.Ring
import Mathlib.Tactic.SplitIfs

/-!
# Whole numbers as binary64 numbers

The binary64 number nearest to a whole number is a multiple of the distance of its neighbours, which is one
below `2 ^ 53`. Rounding keeps the order of whole numbers, but numbers above that may fall together.
-/

namespace Approval.Number

/-! ### Rounded quotients -/

namespace Binary64

variable {n m d k : Nat}

lemma roundDiv_cases (n d : Nat) :
    (roundDiv n d = n / d ∧ 2 * (n % d) ≤ d) ∨ (roundDiv n d = n / d + 1 ∧ d ≤ 2 * (n % d)) := by
  unfold roundDiv
  simp only
  split_ifs <;> omega

@[simp] lemma roundDiv_one (n : Nat) : roundDiv n 1 = n := by
  simp [roundDiv, Nat.mod_one]

lemma mul_roundDiv_sub_le (pos : 0 < d) (n : Nat) :
    2 * (d * roundDiv n d) ≤ 2 * n + d ∧ 2 * n ≤ 2 * (d * roundDiv n d) + d := by
  have parts := Nat.div_add_mod n d
  have rest := Nat.mod_lt n pos
  rcases roundDiv_cases n d with ⟨down, le⟩ | ⟨up, le⟩
  · rw [down]
    omega
  · rw [up, Nat.mul_add, Nat.mul_one]
    omega

/-- A number between multiples of the divisor is rounded to something between them. -/
lemma le_roundDiv (pos : 0 < d) (h : d * k ≤ n) : k ≤ roundDiv n d := by
  have floor : k ≤ n / d := (Nat.le_div_iff_mul_le pos).mpr (by rwa [Nat.mul_comm])
  rcases roundDiv_cases n d with ⟨rounded, -⟩ | ⟨rounded, -⟩ <;> omega

lemma roundDiv_le (pos : 0 < d) (h : n ≤ d * k) : roundDiv n d ≤ k := by
  rcases Nat.lt_or_eq_of_le h with less | rfl
  · have floor : n / d < k := (Nat.div_lt_iff_lt_mul pos).mpr (by rwa [Nat.mul_comm] at less)
    rcases roundDiv_cases n d with ⟨rounded, -⟩ | ⟨rounded, -⟩ <;> omega
  · have exact : roundDiv (d * k) d = k := by
      simp [roundDiv, Nat.mul_div_cancel_left k pos, pos]
    exact exact.le

lemma roundDiv_mono (h : m ≤ n) (d : Nat) : roundDiv m d ≤ roundDiv n d := by
  have le := Nat.div_le_div_right (c := d) h
  rcases Nat.lt_or_eq_of_le le with less | same
  · rcases roundDiv_cases m d with ⟨down, -⟩ | ⟨up, -⟩ <;>
      rcases roundDiv_cases n d with ⟨down', -⟩ | ⟨up', -⟩ <;> omega
  · have rest : m % d ≤ n % d := by
      have := Nat.div_add_mod m d
      have := Nat.div_add_mod n d
      rw [same] at *
      omega
    unfold roundDiv
    simp only [same]
    split_ifs <;> omega

end Binary64

/-! ### Natural numbers -/

/-- The distance of the binary64 numbers around a natural number, but at least one. -/
def spacing (n : Nat) : Nat := Nat.pow 2 (n.log2 - 52)

/-- The multiple of its spacing nearest to a natural number, of two the even one. -/
def rounded (n : Nat) : Nat := spacing n * Binary64.roundDiv n (spacing n)

variable {m n : Nat}

lemma spacing_pos (n : Nat) : 0 < spacing n := Nat.pow_pos (by decide)

lemma spacing_of_lt (h : n < Nat.pow 2 53) : spacing n = 1 := by
  have short : n.log2 < 53 := by
    rcases Nat.eq_zero_or_pos n with rfl | pos
    · decide
    · exact (Nat.log2_lt pos.ne').mpr h
  rw [spacing, show n.log2 - 52 = 0 by omega, Nat.pow_eq, Nat.pow_zero]

/-- Below `2 ^ 53` nothing is rounded. -/
lemma rounded_of_lt (h : n < Nat.pow 2 53) : rounded n = n := by
  rw [rounded, spacing_of_lt h, Binary64.roundDiv_one, Nat.one_mul]

/-- A number is rounded by half its spacing at most. -/
lemma rounded_sub_le (n : Nat) : 2 * rounded n ≤ 2 * n + spacing n ∧ 2 * n ≤ 2 * rounded n + spacing n :=
  Binary64.mul_roundDiv_sub_le (spacing_pos n) n

/-- Powers of two are not rounded, so that a rounded number stays between the same ones. -/
lemma rounded_bounds (pos : n ≠ 0) : Nat.pow 2 n.log2 ≤ rounded n ∧ rounded n ≤ Nat.pow 2 (n.log2 + 1) := by
  have scale (k : Nat) (h : n.log2 ≤ k) : Nat.pow 2 k = spacing n * Nat.pow 2 (k - (n.log2 - 52)) := by
    unfold spacing
    simp only [Nat.pow_eq, ← Nat.pow_add]
    congr 1
    omega
  constructor
  · rw [scale _ (Nat.le_refl _)]
    refine Nat.mul_le_mul_left _ (Binary64.le_roundDiv (spacing_pos n) ?_)
    rw [← scale _ (Nat.le_refl _)]
    exact Nat.log2_self_le pos
  · rw [scale _ (Nat.le_succ _)]
    refine Nat.mul_le_mul_left _ (Binary64.roundDiv_le (spacing_pos n) ?_)
    rw [← scale _ (Nat.le_succ _)]
    exact Nat.lt_log2_self.le

@[simp] lemma rounded_eq_zero_iff : rounded n = 0 ↔ n = 0 := by
  constructor
  · intro zero
    by_contra nonzero
    have low := (rounded_bounds nonzero).1
    rw [zero] at low
    exact absurd low (Nat.not_le.mpr (Nat.pow_pos (by decide)))
  · rintro rfl
    exact rounded_of_lt (Nat.pow_pos (by decide))

/-- Rounding keeps the order. -/
lemma rounded_mono (h : m ≤ n) : rounded m ≤ rounded n := by
  rcases Nat.eq_zero_or_pos m with rfl | pos
  · rw [rounded_of_lt (by decide)]
    exact Nat.zero_le _
  have logs : m.log2 ≤ n.log2 := by
    by_contra less
    have := Nat.log2_self_le pos.ne'
    have := (Nat.lt_log2_self (n := n)).trans_le (Nat.pow_le_pow_right (by decide) (Nat.not_le.mp less))
    omega
  rcases Nat.lt_or_eq_of_le logs with less | same
  · calc rounded m
      _ ≤ Nat.pow 2 (m.log2 + 1) := (rounded_bounds pos.ne').2
      _ ≤ Nat.pow 2 n.log2 := Nat.pow_le_pow_right (by decide) less
      _ ≤ rounded n := (rounded_bounds (by omega)).1
  · have spacings : spacing m = spacing n := by rw [spacing, same, spacing]
    rw [rounded, rounded, spacings]
    exact Nat.mul_le_mul_left _ (Binary64.roundDiv_mono h _)

/-- Numbers that fall together are not below `2 ^ 53`. -/
lemma le_of_rounded_eq (differ : m ≠ n) (h : rounded m = rounded n) : Nat.pow 2 53 ≤ m := by
  by_contra small
  have exact := rounded_of_lt (Nat.not_le.mp small)
  rcases Nat.lt_or_ge n (Nat.pow 2 53) with small' | large
  · exact differ (by rw [← exact, h, rounded_of_lt small'])
  · have : rounded (Nat.pow 2 53) ≤ rounded n := rounded_mono large
    rw [← h, exact, show rounded (Nat.pow 2 53) = Nat.pow 2 53 by decide +kernel] at this
    exact small this

/-- Natural numbers of 64 bits that fall together are not far from each other. -/
lemma le_add_of_rounded_eq (hm : m < Nat.pow 2 64) (hn : n < Nat.pow 2 64) (h : rounded m = rounded n) :
    m ≤ n + Nat.pow 2 11 := by
  have bound (k : Nat) (hk : k < Nat.pow 2 64) : spacing k ≤ Nat.pow 2 11 := by
    refine Nat.pow_le_pow_right (by decide) ?_
    rcases Nat.eq_zero_or_pos k with rfl | pos
    · decide
    · have := (Nat.log2_lt pos.ne').mpr hk
      omega
  have := rounded_sub_le m
  have := rounded_sub_le n
  have := bound m hm
  have := bound n hn
  omega

/-! ### The nearest binary64 number -/

namespace Binary64

@[simp]
lemma scaleFraction_natCast (num den k : Nat) : scaleFraction num den k = (num * Nat.pow 2 k, den) := by
  rw [scaleFraction, if_pos (Int.natCast_nonneg k), Int.toNat_natCast]

lemma scaleFraction_neg_natCast (num den : Nat) {k : Nat} (pos : 0 < k) :
    scaleFraction num den (-k) = (num, den * Nat.pow 2 k) := by
  rw [scaleFraction, if_neg (by omega), Int.neg_neg, Int.toNat_natCast]

/-- The exponent at which the significand of a whole number has 53 bits. -/
lemma fittingExponent_one {n : Nat} (pos : n ≠ 0) : fittingExponent n 1 = (n.log2 : Int) - 52 := by
  have low := Nat.log2_self_le pos
  have unit : Nat.log2 1 = 0 := by decide
  have fits : ∀ a d, scaleFraction n 1 (-((n.log2 : Int) - 52)) = (a, d) → ¬a / d < Nat.pow 2 52 := by
    intro a d parts
    rw [Nat.not_lt]
    rcases Nat.lt_or_ge 52 n.log2 with large | small
    · rw [show (n.log2 : Int) - 52 = (n.log2 - 52 : Nat) by omega, scaleFraction_neg_natCast _ _ (by omega)] at parts
      obtain ⟨rfl, rfl⟩ := Prod.mk.inj parts
      rw [Nat.one_mul]
      refine (Nat.le_div_iff_mul_le (Nat.pow_pos (by decide))).mpr (Nat.le_trans (Nat.le_of_eq ?_) low)
      simp only [Nat.pow_eq, ← Nat.pow_add, Nat.add_sub_cancel' large.le]
    · rw [show -((n.log2 : Int) - 52) = (52 - n.log2 : Nat) by omega, scaleFraction_natCast] at parts
      obtain ⟨rfl, rfl⟩ := Prod.mk.inj parts
      rw [Nat.div_one]
      refine Nat.le_trans (Nat.le_of_eq ?_) (Nat.mul_le_mul_right _ low)
      simp only [Nat.pow_eq, ← Nat.pow_add, Nat.add_sub_cancel' small]
  rcases parts : scaleFraction n 1 (-((n.log2 : Int) - 52)) with ⟨a, d⟩
  simp only [fittingExponent, unit, Nat.cast_zero, Int.sub_zero, parts, if_neg (fits a d parts)]
  omega

/-- The least positive number is this power of two below one. -/
def leastPower : Nat := 1074

/-- The number has the value of a whole number, which is given with its sign. -/
def IsWhole (x : Binary64) (negative : Bool) (n : Nat) : Prop :=
  x.negative = negative ∧ x.significand * Nat.pow 2 (x.exponent + 1074).toNat = n * Nat.pow 2 leastPower

lemma exists_ofParts? {negative : Bool} {significand : Nat} {exponent : Int} (h : Canonical significand exponent)
    {n : Nat} (value : significand * Nat.pow 2 (exponent + 1074).toNat = n * Nat.pow 2 leastPower) :
    ∃ x, ofParts? negative significand exponent = some x ∧ x.IsWhole negative n :=
  ⟨_, dif_pos h, rfl, value⟩

/-- A whole number of 64 bits becomes the binary64 number of its rounded value. -/
lemma exists_ofFraction? (negative : Bool) {n : Nat} (bound : n < Nat.pow 2 64) :
    ∃ x, ofFraction? negative n 1 = some x ∧ x.IsWhole negative (rounded n) := by
  rcases Nat.eq_zero_or_pos n with rfl | pos
  · refine ⟨zero negative, rfl, rfl, ?_⟩
    rw [rounded_of_lt (Nat.pow_pos (by decide))]
    simp only [zero, Nat.zero_mul]
  have nonzero := pos.ne'
  have low := Nat.log2_self_le nonzero
  have high : n < 2 ^ (n.log2 + 1) := Nat.lt_log2_self
  have logs : n.log2 < 64 := (Nat.log2_lt nonzero).mpr bound
  have least : leastPower = 1074 := rfl
  simp only [ofFraction?, if_neg nonzero, fittingExponent_one nonzero]
  rcases Nat.lt_or_ge 52 n.log2 with large | small
  · obtain ⟨k, hk⟩ : ∃ k, n.log2 = 52 + k := ⟨n.log2 - 52, by omega⟩
    have distance : spacing n = Nat.pow 2 k := by rw [spacing, hk, Nat.add_sub_cancel_left]
    have scale (j : Nat) : 2 ^ (k + j) = Nat.pow 2 k * Nat.pow 2 j := by rw [Nat.pow_add]; rfl
    have lower : Nat.pow 2 52 ≤ roundDiv n (Nat.pow 2 k) := by
      refine le_roundDiv (Nat.pow_pos (by decide)) ?_
      rw [← scale, Nat.add_comm, ← hk]
      exact low
    have upper : roundDiv n (Nat.pow 2 k) ≤ Nat.pow 2 53 := by
      refine roundDiv_le (Nat.pow_pos (by decide)) ?_
      rw [← scale, show k + 53 = n.log2 + 1 by omega]
      exact high.le
    rw [show (n.log2 : Int) - 52 = k by omega, scaleFraction_neg_natCast _ _ (by omega), rounded, distance]
    simp only [Nat.one_mul]
    split_ifs with carry
    · refine exists_ofParts? ⟨by decide, by omega, by omega, .inl (Nat.le_refl _)⟩ ?_
      rw [carry, show ((k : Int) + 1 + 1074).toNat = k + (1 + leastPower) by omega]
      simp only [Nat.pow_eq, Nat.pow_add]
      ring
    · refine exists_ofParts? ⟨by omega, by omega, by omega, .inl lower⟩ ?_
      rw [show ((k : Int) + 1074).toNat = k + leastPower by omega]
      simp only [Nat.pow_eq, Nat.pow_add]
      ring
  · obtain ⟨k, hk⟩ : ∃ k, n.log2 + k = 52 := ⟨52 - n.log2, by omega⟩
    have lower : Nat.pow 2 52 ≤ n * Nat.pow 2 k := by
      rw [← hk, Nat.pow_eq, Nat.pow_add]
      exact Nat.mul_le_mul_right _ low
    have upper : n * Nat.pow 2 k < Nat.pow 2 53 := by
      rw [show 53 = n.log2 + 1 + k by omega, Nat.pow_eq, Nat.pow_eq, Nat.pow_add]
      exact Nat.mul_lt_mul_of_pos_right high (Nat.pow_pos (by decide))
    have exact : rounded n = n := rounded_of_lt <| high.trans_le (Nat.pow_le_pow_right (by decide) (by omega))
    rw [show (n.log2 : Int) - 52 = -(k : Int) by omega, Int.neg_neg, scaleFraction_natCast, exact]
    simp only [roundDiv_one, if_neg upper.ne]
    refine exists_ofParts? ⟨upper, by omega, by omega, .inl lower⟩ ?_
    have powers : k + (-(k : Int) + 1074).toNat = leastPower := by omega
    rw [Nat.mul_assoc, Nat.pow_eq, Nat.pow_eq, Nat.pow_eq, ← Nat.pow_add, powers]

end Binary64

/-! ### Whole numbers -/

/-- The whole number of the binary64 number nearest to a whole number. -/
def nearest (n : Int) : Int := if n < 0 then -(rounded n.natAbs : Int) else rounded n.natAbs

variable {m n : Int}

lemma nearest_of_nonneg (h : 0 ≤ n) : nearest n = rounded n.natAbs := if_neg (Int.not_lt.mpr h)

lemma nearest_of_neg (h : n < 0) : nearest n = -(rounded n.natAbs : Int) := if_pos h

/-- Rounding keeps the order of whole numbers. -/
lemma nearest_mono (h : m ≤ n) : nearest m ≤ nearest n := by
  rcases Int.lt_or_le m 0 with negative | nonneg
  · rcases Int.lt_or_le n 0 with negative' | nonneg'
    · have := rounded_mono (show n.natAbs ≤ m.natAbs by omega)
      rw [nearest_of_neg negative, nearest_of_neg negative']
      omega
    · rw [nearest_of_neg negative, nearest_of_nonneg nonneg']
      omega
  · have := rounded_mono (show m.natAbs ≤ n.natAbs by omega)
    rw [nearest_of_nonneg nonneg, nearest_of_nonneg (nonneg.trans h)]
    omega

/-- The two numbers differ, but the binary64 number nearest to both is the same. -/
def FallTogether (m n : Int) : Prop := m ≠ n ∧ nearest m = nearest n

instance (m n : Int) : Decidable (FallTogether m n) := inferInstanceAs (Decidable (_ ∧ _))

namespace FallTogether

lemma symm (h : FallTogether m n) : FallTogether n m := ⟨h.1.symm, h.2.symm⟩

/-- Numbers that fall together have the same sign. -/
lemma natAbs (h : FallTogether m n) :
    m.natAbs ≠ n.natAbs ∧ rounded m.natAbs = rounded n.natAbs ∧
      (m - n).natAbs = max m.natAbs n.natAbs - min m.natAbs n.natAbs := by
  obtain ⟨differ, same⟩ := h
  have zero (k : Int) (none : rounded k.natAbs = 0) : k = 0 := Int.natAbs_eq_zero.mp (rounded_eq_zero_iff.mp none)
  have zero_m := zero m
  have zero_n := zero n
  unfold nearest at same
  split_ifs at same <;> omega

/-- None of the two is below `2 ^ 53`. -/
lemma le_natAbs (h : FallTogether m n) : Nat.pow 2 53 ≤ m.natAbs ∧ Nat.pow 2 53 ≤ n.natAbs :=
  ⟨le_of_rounded_eq h.natAbs.1 h.natAbs.2.1, le_of_rounded_eq h.natAbs.1.symm h.natAbs.2.1.symm⟩

/-- Numbers of 64 bits that fall together are not far from each other. -/
lemma natAbs_sub_le (h : FallTogether m n) (hm : m.natAbs < Nat.pow 2 64) (hn : n.natAbs < Nat.pow 2 64) :
    (m - n).natAbs ≤ Nat.pow 2 11 := by
  obtain ⟨-, same, distance⟩ := h.natAbs
  have := le_add_of_rounded_eq hm hn same
  have := le_add_of_rounded_eq hn hm same.symm
  omega

end FallTogether

lemma nearest_lt_iff (apart : ¬FallTogether m n) : nearest m < nearest n ↔ m < n := by
  constructor
  · intro less
    by_contra ge
    exact absurd (nearest_mono (Int.not_lt.mp ge)) (Int.not_le.mpr less)
  · intro less
    exact lt_of_le_of_ne (nearest_mono less.le) fun same => apart ⟨less.ne, same⟩

lemma nearest_eq_iff (apart : ¬FallTogether m n) : nearest m = nearest n ↔ m = n :=
  ⟨fun same => by_contra fun differ => apart ⟨differ, same⟩, congrArg nearest⟩

@[simp] lemma natCast_mul_pow (a k : Nat) : ((a * Nat.pow 2 k : Nat) : Int) = a * Int.pow 2 k := by
  push_cast
  rfl

/-- The value of the binary64 number that a whole number of 64 bits becomes. -/
lemma units_ofInt? {n : Int} (bound : n.natAbs < Nat.pow 2 64) :
    ∃ x, Binary64.ofInt? n = some x ∧ x.units = nearest n * Int.pow 2 Binary64.leastPower := by
  obtain ⟨x, found, sign, value⟩ := Binary64.exists_ofFraction? (decide (n < 0)) bound
  have magnitude : (x.significand : Int) * Int.pow 2 (x.exponent + 1074).toNat =
      rounded n.natAbs * Int.pow 2 Binary64.leastPower :=
    (natCast_mul_pow _ _).symm.trans ((congrArg Nat.cast value).trans (natCast_mul_pow _ _))
  refine ⟨x, found, ?_⟩
  simp only [Binary64.units, magnitude, sign, nearest, decide_eq_true_eq]
  split_ifs
  · rw [Int.neg_mul]
  · rfl

end Approval.Number
