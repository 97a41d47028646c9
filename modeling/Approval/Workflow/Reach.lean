import Approval.Workflow.Basic

/-!
# What rules lead to

The steps that can be reached from given ones by following links, and the two ways to read rules as
links: forward, from a step to where its rules lead, and backward.
-/

namespace Approval

/-- The members of `left` that links reach from `pending`. Each one found is struck off, so that
circles come to an end. -/
def explore (links : Nat → List Nat) (left pending : List Nat) : List Nat :=
  match _found : pending.find? left.contains with
  | none => []
  | some order => order :: explore links (left.erase order) (links order ++ pending)
termination_by left.length
decreasing_by
  have member : order ∈ left := List.contains_iff_mem.mp (List.find?_some _found)
  have shorter := List.length_erase_of_mem member
  have positive := List.length_pos_of_mem member
  omega

namespace Rule

/-- The steps that the rules of a step lead to. -/
def targets (rules : List Rule) (order : Nat) : List Nat :=
  rules.filterMap fun r => if r.fromStep = order then r.toStep else none

/-- The steps with a rule that leads to a step. -/
def sources (rules : List Rule) (order : Nat) : List Nat :=
  rules.filterMap fun r => if r.toStep = some order then some r.fromStep else none

/-- The steps with a rule that leads to the end. -/
def lastSteps (rules : List Rule) : List Nat :=
  (rules.filter (·.isTerminal)).map (·.fromStep)

end Rule

end Approval
