import Approval.Time.Stamp
import Approval.Uuid
import Approval.Wire.Record

/-!
# Identifiers of stored things

Each kind of thing has identifiers of its own, so that a user is never taken for a role. New things
get theirs from a supply, of which nothing is known but that it gives no two things of a kind the same
one. The supply at hand numbers things in the order in which they are stored, and the number shows in
the last digits of the identifier.
-/

namespace Approval

/-- The kinds of things that have identifiers. -/
inductive Kind
  | workflow
  | request
  | user
  | role
  | permission
  | auditEntry
  deriving DecidableEq

/-- The digit that marks the kind in a numbered identifier. -/
def Kind.digit : Kind → Nat
  | .workflow => 1
  | .request => 2
  | .user => 3
  | .role => 4
  | .permission => 5
  | .auditEntry => 6

/-- An identifier of a thing of the given kind. -/
structure Id (kind : Kind) where
  uuid : Uuid
  deriving DecidableEq

abbrev WorkflowId := Id .workflow
abbrev RequestId := Id .request
abbrev UserId := Id .user
abbrev RoleId := Id .role
abbrev PermissionId := Id .permission
abbrev AuditId := Id .auditEntry

namespace Id

variable {kind : Kind}

instance : Inhabited (Id kind) := ⟨⟨default⟩⟩

/-- The number whose hexadecimal digits are the decimal digits of `n`. -/
def spelled (n : Nat) : Nat := if n < 10 then n else 16 * spelled (n / 10) + n % 10

/-- The identifier of the `n`-th thing of a kind, with the decimal digits of `n` at its end. -/
def serial (kind : Kind) (n : Nat) : Id kind :=
  ⟨⟨0x700080ab000000000000 + kind.digit * Nat.pow 16 14 + spelled n⟩⟩

theorem spelled_of_lt {n : Nat} (h : n < 10) : spelled n = n := by
  rw [spelled, if_pos h]

theorem spelled_of_le {n : Nat} (h : 10 ≤ n) : spelled n = 16 * spelled (n / 10) + n % 10 := by
  rw [spelled, if_neg (by omega)]

theorem spelled_pos {n : Nat} (h : 0 < n) : 0 < spelled n := by
  by_cases small : n < 10
  · rwa [spelled_of_lt small]
  · have := spelled_pos (n := n / 10) (by omega)
    rw [spelled_of_le (by omega)]
    omega

/-- A greater number is spelled by a greater one: one digit after the other decides. -/
theorem spelled_lt {m n : Nat} (h : m < n) : spelled m < spelled n := by
  by_cases small : n < 10
  · rw [spelled_of_lt small, spelled_of_lt (by omega)]
    exact h
  · have pos := spelled_pos (n := n / 10) (by omega)
    rw [spelled_of_le (n := n) (by omega)]
    by_cases m_small : m < 10
    · rw [spelled_of_lt m_small]
      omega
    · rw [spelled_of_le (n := m) (by omega)]
      by_cases same : m / 10 = n / 10
      · rw [same]
        omega
      · have := spelled_lt (m := m / 10) (n := n / 10) (by omega)
        omega

theorem serial_injective (kind : Kind) {m n : Nat} (same : serial kind m = serial kind n) : m = n := by
  simp only [serial, Id.mk.injEq, Uuid.mk.injEq] at same
  rcases Nat.lt_trichotomy m n with less | equal | greater
  · have := spelled_lt less
    omega
  · exact equal
  · have := spelled_lt greater
    omega

def text (i : Id kind) : String := i.uuid.text

def parse? (s : String) : Option (Id kind) := (Uuid.parse? s).map Id.mk

/-- Numbered identifiers ascend in the order of their numbers. -/
def less (a b : Id kind) : Bool := a.uuid.value < b.uuid.value

def json (i : Id kind) : Json := .text i.text

def decode : Decoder (Id kind) := Decoder.refine parse? Decoder.text

/-- Put an identifier into an ascending list, unless it is there. -/
def insert (a : Id kind) : List (Id kind) → List (Id kind)
  | [] => [a]
  | b :: rest => if a.less b then a :: b :: rest else if a = b then b :: rest else b :: insert a rest

/-- The distinct identifiers of a list in ascending order. -/
def ascending (ids : List (Id kind)) : List (Id kind) := ids.foldl (fun sorted a => insert a sorted) []

end Id

/-- Where the identifiers of new things come from: one for each number, and no two of a kind the same. -/
class Supply where
  id (kind : Kind) (n : Nat) : Id kind
  id_injective (kind : Kind) {m n : Nat} (same : id kind m = id kind n) : m = n

/-- The supply at hand: identifiers that show the numbers of things. -/
instance : Supply := ⟨Id.serial, Id.serial_injective⟩

namespace Instant

def json (t : Instant) : Json := .text t.stamp

def decode : Decoder Instant := Decoder.refine parse? Decoder.text

end Instant

end Approval
