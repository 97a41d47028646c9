import Approval.Proofs.Json.Token
import Approval.Proofs.Number.Rounding
import Approval.Workflow.Evaluation

/-!
# Conditions on whole numbers

A condition compares two whole numbers by the binary64 numbers nearest to them. So it tells them apart, and
knows their order, unless they fall together; those that do count as equal.
-/

namespace Approval

open Number

/-- The relation of whole numbers that an operator stands for; membership is none. -/
def Operator.Orders (o : Operator) (m n : Int) : Prop :=
  match o with
  | .equal => m = n
  | .unequal => m ≠ n
  | .greater => n < m
  | .less => m < n
  | .greaterEqual => n ≤ m
  | .lessEqual => m ≤ n
  | .among | .contains => False

namespace Json

/-- The JSON value of a whole number. -/
def ofWord (n : Word) : Json := .number (.whole n)

@[simp]
lemma units_real (n : Word) : (real (.whole n)).units = nearest n.val * Int.pow 2 Binary64.leastPower := by
  obtain ⟨x, found, value⟩ := units_ofInt? n.natAbs_lt
  rw [real, found, Option.getD_some, value]

lemma leastUnit_pos : 0 < Int.pow 2 Binary64.leastPower := Int.pow_pos (by decide)

@[simp]
lemma equals_ofWord (m n : Word) : (ofWord m).equals (ofWord n) = true ↔ nearest m.val = nearest n.val := by
  rw [ofWord, ofWord, equals, Binary64.sameValue, beq_iff_eq, units_real, units_real]
  exact Int.mul_eq_mul_right_iff leastUnit_pos.ne'

@[simp] lemma compare?_ofWord (m n : Word) :
    (ofWord m).compare? (ofWord n) = some (compare (nearest m.val) (nearest n.val)) := by
  have scaled : compare (real (.whole m)).units (real (.whole n)).units = compare (nearest m.val) (nearest n.val) := by
    simp only [units_real, Int.compare_eq_ite_lt, Int.mul_lt_mul_right leastUnit_pos]
  rw [← scaled]
  rfl

end Json

/-- An operator relates two whole numbers as it orders the numbers that they are rounded to. -/
@[simp] lemma Operator.relates_ofWord (o : Operator) (m n : Word) :
    o.relates (.ofWord m) (.ofWord n) = true ↔ o.Orders (nearest m.val) (nearest n.val) := by
  cases o with
  | equal => exact Json.equals_ofWord m n
  | unequal => simp only [relates, Bool.not_eq_true', ← Bool.not_eq_true, Json.equals_ofWord, Orders, ne_eq]
  | greater => simp only [relates, Json.compare?_ofWord, comparesAs, Ordering.isGT_iff_eq_gt, Int.compare_eq_gt, Orders]
  | less => simp only [relates, Json.compare?_ofWord, comparesAs, Ordering.isLT_iff_eq_lt, Int.compare_eq_lt, Orders]
  | greaterEqual => simp only [relates, Json.compare?_ofWord, comparesAs, Int.isGE_compare, Orders]
  | lessEqual => simp only [relates, Json.compare?_ofWord, comparesAs, Int.isLE_compare, Orders]
  | among | contains => simp [relates, Json.ofWord, Json.holds, Orders]

section Rounded

variable {a b : Word}

/-- Towards a number that does not fall together with it, a number stands as it is. -/
lemma Operator.relates_ofWord_of_apart (apart : ¬FallTogether a.val b.val) (o : Operator) :
    o.relates (.ofWord a) (.ofWord b) = true ↔ o.Orders a.val b.val := by
  have less := nearest_lt_iff apart
  have same := nearest_eq_iff apart
  have greater := nearest_lt_iff fun together => apart together.symm
  rw [o.relates_ofWord]
  cases o <;> simp only [Orders] <;> omega

/-- Numbers that fall together are related as equal ones. -/
lemma Operator.relates_ofWord_of_together (together : FallTogether a.val b.val) (o : Operator) :
    o.relates (.ofWord a) (.ofWord b) = true ↔ o.Orders b.val b.val := by
  rw [o.relates_ofWord, together.2]
  cases o <;> simp [Orders]

/-- An array of whole numbers holds those that are in it and those that fall together with one of them. -/
@[simp] lemma Json.holds_ofWord (items : List Word) (n : Word) :
    (array (items.map ofWord)).holds (ofWord n) = true ↔
      ∃ m ∈ items, m.val = n.val ∨ FallTogether m.val n.val := by
  have equal (m : Word) : (ofWord m).equals (ofWord n) = true ↔ m.val = n.val ∨ FallTogether m.val n.val := by
    rw [equals_ofWord, FallTogether]
    constructor
    · intro same
      exact (eq_or_ne m.val n.val).imp_right fun differ => ⟨differ, same⟩
    · rintro (same | ⟨-, same⟩)
      · rw [same]
      · exact same
  simp only [Json.holds, ofWord, List.any_map, List.any_eq_true, Function.comp_apply] at equal ⊢
  simp only [equal]

end Rounded

/-! ### Conditions on a path -/

/-- The condition that the value at a path stands in a relation to a value. -/
def Condition.on (path : String) (o : Operator) (value : Json) : Condition := ⟨path, o, value⟩

lemma Condition.holds_on {data v : Json} {path : String} (found : data.at? path = some v) (o : Operator)
    (value : Json) : (on path o value).holds data = o.relates v value := by
  simp only [holds, on, found, Option.getD_some]

/-- How conditions judge the whole number `a` that stands at a path. -/
structure Json.JudgesWhole (data : Json) (path : String) (a : Word) : Prop where
  /-- They know how it stands to a number that does not fall together with it. -/
  exact (b : Word) (o : Operator) : ¬FallTogether a.val b.val →
    ((Condition.on path o (.ofWord b)).holds data = true ↔ o.Orders a.val b.val)
  /-- A number that falls together with it they take for the number itself. -/
  merged (b : Word) (o : Operator) : FallTogether a.val b.val →
    ((Condition.on path o (.ofWord b)).holds data = true ↔ o.Orders b.val b.val)
  /-- Only large numbers fall together, and only with numbers near to them. -/
  remote (b : Word) : FallTogether a.val b.val →
    (Nat.pow 2 53 ≤ a.val.natAbs ∧ Nat.pow 2 53 ≤ b.val.natAbs) ∧ (a.val - b.val).natAbs ≤ Nat.pow 2 11
  /-- An array of whole numbers holds it if one of them is the number or falls together with it. -/
  among (items : List Word) :
    (Condition.on path .among (.array (items.map .ofWord))).holds data = true ↔
      ∃ n ∈ items, n.val = a.val ∨ FallTogether n.val a.val
  /-- So does an array that stands at another path. -/
  contained (other : String) (items : List Word) : data.at? other = some (.array (items.map .ofWord)) →
    ((Condition.on other .contains (.ofWord a)).holds data = true ↔
      ∃ n ∈ items, n.val = a.val ∨ FallTogether n.val a.val)
  /-- It is less than a number, equal to it or greater, and only one of these. -/
  split (b : Word) : [Operator.less, .equal, .greater].countP
    (fun o => (Condition.on path o (.ofWord b)).holds data) = 1

/-- Conditions judge whole numbers by the nearest binary64 numbers. -/
theorem Json.judgesWhole {data : Json} {path : String} {a : Word} (found : data.at? path = some (.ofWord a)) :
    data.JudgesWhole path a where
  exact b o apart := by rw [Condition.holds_on found, o.relates_ofWord_of_apart apart]
  merged b o together := by rw [Condition.holds_on found, o.relates_ofWord_of_together together]
  remote b together := ⟨together.le_natAbs, together.natAbs_sub_le a.natAbs_lt b.natAbs_lt⟩
  among items := by rw [Condition.holds_on found, Operator.relates, holds_ofWord]
  contained other items there := by rw [Condition.holds_on there, Operator.relates, holds_ofWord]
  split b := by
    simp only [Condition.holds_on found, List.countP_cons, List.countP_nil, Operator.relates_ofWord, Operator.Orders]
    rcases Int.lt_trichotomy (nearest a.val) (nearest b.val) with less | same | greater
    · simp [less, less.ne, less.le]
    · simp [same]
    · simp [greater, greater.ne', greater.le]

namespace Leave

/-- The data of a request for one piece more than `2 ^ 53`, in one lot of `2 ^ 53` pieces. -/
def bulk : Json :=
  Condition.data (.object [("amount", .ofWord ⟨9007199254740993, by decide⟩),
    ("lots", .array [.ofWord ⟨9007199254740992, by decide⟩])]) none

theorem judges_bulk : bulk.at? "request_data.amount" = some (.ofWord ⟨9007199254740993, by decide⟩) ∧
    bulk.JudgesWhole "request_data.amount" ⟨9007199254740993, by decide⟩ :=
  ⟨rfl, Json.judgesWhole rfl⟩

/-- The two numbers differ, but no operator and no array tells them apart. -/
theorem merges_bulk :
    let holds (path : String) (o : Operator) (value : Json) := (Condition.on path o value).holds bulk
    let less : Json := .ofWord ⟨9007199254740992, by decide⟩
    let amount : Json := .ofWord ⟨9007199254740993, by decide⟩
    bulk.at? "request_data.amount" = some amount ∧
      [Operator.equal, .unequal, .greater, .less, .greaterEqual, .lessEqual].map
        (holds "request_data.amount" · less) = [true, false, false, false, true, true] ∧
      holds "request_data.amount" .among (.array [less]) = true ∧
      holds "request_data.lots" .contains amount = true :=
  ⟨rfl, by decide +kernel, by decide +kernel, by decide +kernel⟩

end Leave

end Approval
