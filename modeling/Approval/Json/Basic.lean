import Approval.Number.Binary64

/-!
# JSON values

A number is a whole number of 64 bits, signed or not, or a binary64 number; the members of an
object are in ascending order of their names, one for each name.
-/

namespace Approval

/-- The whole numbers that a signed or an unsigned word of 64 bits holds. -/
def IsWord (n : Int) : Prop := -Int.pow 2 63 ≤ n ∧ n < Int.pow 2 64

instance (n : Int) : Decidable (IsWord n) := by unfold IsWord; infer_instance

/-- A whole number that fits a word. -/
structure Word where
  val : Int
  isWord : IsWord val := by decide
  deriving DecidableEq

/-- A JSON number. -/
inductive JsonNumber
  | whole (n : Word)
  | real (x : Number.Binary64)
  deriving DecidableEq

/-- A JSON value. -/
inductive Json
  | null
  | bool (b : Bool)
  | number (n : JsonNumber)
  | text (s : String)
  | array (items : List Json)
  | object (members : List (String × Json))

namespace Json

instance : Inhabited Json := ⟨.null⟩

/-! ### Members -/

/-- Put a member into an ascending list, in place of the one that had its name. -/
def insertMember (name : String) (value : Json) : List (String × Json) → List (String × Json)
  | [] => [(name, value)]
  | (n, v) :: rest =>
    if name < n then (name, value) :: (n, v) :: rest
    else if name = n then (name, value) :: rest
    else (n, v) :: insertMember name value rest

/-- The object with the given members; of several with one name the last one stays. -/
def ofMembers (members : List (String × Json)) : Json :=
  .object (members.foldl (fun ms m => insertMember m.1 m.2 ms) [])

/-- The member of an object with a given name. -/
def member? (name : String) : Json → Option Json
  | .object members => members.lookup name
  | _ => none

/-! ### Numbers -/

/-- A whole number as a JSON number; past the words it is the nearest binary64 number. -/
def ofInt (n : Int) : Json :=
  if h : IsWord n then .number (.whole ⟨n, h⟩)
  else .number (.real ((Number.Binary64.ofInt? n).getD default))

def ofNat (n : Nat) : Json := ofInt n

/-- A member that is left out when it is none. -/
def optionalMember {α : Type} (name : String) (f : α → Json) : Option α → List (String × Json)
  | none => []
  | some a => [(name, f a)]

/-- The value, or null for none. -/
def ofOption {α : Type} (f : α → Json) : Option α → Json
  | none => .null
  | some a => f a

/-- The whole number of a JSON value that is one. -/
def toInt? : Json → Option Int
  | .number (.whole n) => some n.val
  | _ => none

/-! ### Nesting -/

mutual

/-- How deep the value nests: arrays and objects inside each other. -/
def depth : Json → Nat
  | .array items => depthOfItems items + 1
  | .object members => depthOfMembers members + 1
  | _ => 0

/-- The deepest nesting of the items. -/
def depthOfItems : List Json → Nat
  | [] => 0
  | v :: rest => max v.depth (depthOfItems rest)

/-- The deepest nesting of the members. -/
def depthOfMembers : List (String × Json) → Nat
  | [] => 0
  | (_, v) :: rest => max v.depth (depthOfMembers rest)

end

/-- Text that nests deeper than this is not read. -/
def depthLimit : Nat := 127

end Json

end Approval
