import Approval.Proofs.Text.Pieces
import Approval.Workflow.Evaluation

/-!
# Paths

A path is followed segment by segment. So two paths with a dot between them lead to where the second one leads
from where the first one ends, and a path into the data that conditions look at is a path into the payload of the
request or into the data of the decision.
-/

namespace Approval

namespace Json

/-- A value has a part under a name: a member of an object, or the item of an array at the position that the
name spells. -/
inductive IsPart (name : String) : Json → Json → Prop
  | member {members : List (String × Json)} {part : Json} :
      members.lookup name = some part → IsPart name (.object members) part
  | item {items : List Json} {part : Json} {i : Nat} :
      position? name = some i → items[i]? = some part → IsPart name (.array items) part

@[simp]
lemma part?_eq_some_iff {name : String} {v part : Json} : v.part? name = some part ↔ IsPart name v part := by
  constructor
  · intro found
    cases v with
    | object members => exact .member found
    | array items =>
      obtain ⟨i, spelled, there⟩ := Option.bind_eq_some_iff.mp found
      exact .item spelled there
    | null | bool | number | text => cases found
  · rintro (found | ⟨spelled, there⟩)
    · exact found
    · exact Option.bind_eq_some_iff.mpr ⟨_, spelled, there⟩

/-! ### Following a path -/

/-- The rest of a path is followed from where its front leads. -/
@[simp] lemma follow?_append (v : Json) (front rest : List String) :
    v.follow? (front ++ rest) = (v.follow? front).bind (·.follow? rest) := by
  induction front generalizing v with
  | nil => rfl
  | cons segment front ih =>
    rw [List.cons_append, follow?, follow?]
    cases v.part? segment with
    | none => rfl
    | some part => exact ih part

@[simp]
lemma at?_append (v : Json) (p q : String) : v.at? (p ++ "." ++ q) = (v.at? p).bind (·.at? q) := by
  have segments : Text.split '.' (p ++ "." ++ q) = Text.split '.' p ++ Text.split '.' q :=
    Text.split_append_singleton p q
  rw [at?, segments, follow?_append]
  rfl

/-- A path without a dot is one segment. -/
lemma at?_of_not_mem {name : String} (single : '.' ∉ name.toList) (v : Json) : v.at? name = v.part? name := by
  rw [at?, Text.split_of_not_mem single, follow?]
  exact Option.bind_fun_some _

/-- A path through a part of a value is a path into this part. -/
lemma at?_append_of_part? {v part : Json} (name : String) (single : '.' ∉ name.toList)
    (found : v.part? name = some part) (path : String) : v.at? (name ++ "." ++ path) = part.at? path := by
  rw [at?_append, at?_of_not_mem single, found, Option.bind_some]

/-- No path leads into a value without parts. -/
lemma at?_eq_none {v : Json} (bare : ∀ name, v.part? name = none) (path : String) : v.at? path = none := by
  obtain ⟨segment, rest, split⟩ := List.exists_cons_of_ne_nil (Text.split_ne_nil '.' path)
  rw [at?, split, follow?, bare, Option.bind_none]

end Json

/-! ### Into the data of conditions -/

namespace Condition

variable (payload : Json) (context : Option Json) (path : String)

@[simp]
lemma at?_data_request : (data payload context).at? ("request_data." ++ path) = payload.at? path :=
  Json.at?_append_of_part? "request_data" (by decide) rfl path

@[simp] lemma at?_data_decision :
    (data payload context).at? ("decision_data." ++ path) = (context.getD (.object [])).at? path :=
  Json.at?_append_of_part? "decision_data" (by decide) rfl path

end Condition

/-! ### Composition -/

/-- How two paths compose. -/
structure Json.PathsCompose (p q : String) : Prop where
  /-- The two with a dot between them lead to a value exactly if the second one leads to it from where the first
  one ends. -/
  joined (v w : Json) : v.at? (p ++ "." ++ q) = some w ↔ ∃ u, v.at? p = some u ∧ u.at? q = some w
  /-- A path without a dot leads to a part. -/
  single (v w : Json) : '.' ∉ p.toList → (v.at? p = some w ↔ IsPart p v w)
  /-- The data of conditions have the payload of the request as a part. -/
  request (payload : Json) (context : Option Json) :
    (Condition.data payload context).at? ("request_data." ++ q) = payload.at? q
  /-- They have the data of the decision as the other part. -/
  decision (payload given : Json) :
    (Condition.data payload (some given)).at? ("decision_data." ++ q) = given.at? q
  /-- A decision without data has the empty object there, in which nothing is found. -/
  undecided (payload : Json) : (Condition.data payload none).at? ("decision_data." ++ q) = (object []).at? q ∧
    (object []).at? q = none

/-- Looking up along a path composes. -/
theorem Json.pathsCompose (p q : String) : PathsCompose p q where
  joined v w := by rw [at?_append, Option.bind_eq_some_iff]
  single v w dotless := by rw [at?_of_not_mem dotless, part?_eq_some_iff]
  request payload context := Condition.at?_data_request payload context q
  decision payload given := Condition.at?_data_decision payload (some given) q
  undecided payload := ⟨Condition.at?_data_decision payload none q, at?_eq_none (fun _ => rfl) q⟩

namespace Leave

def daysOff : Json := .object [("days", .array [.text "monday", .text "friday"])]

/-- The days off in a member without a name. -/
def nameless : Json := .object [("", daysOff)]

/-- An empty segment leads to the member without a name. -/
theorem pathsCompose_nameless :
    '.' ∉ "".toList ∧ nameless.at? "" = some daysOff ∧
      (Condition.data nameless none).at? "request_data..days.+1" = some (.text "friday") := by
  have dotless : '.' ∉ "".toList := by decide
  have first : nameless.at? "" = some daysOff :=
    ((Json.pathsCompose "" "days.+1").single nameless daysOff dotless).mpr (.member rfl)
  have joined : nameless.at? ".days.+1" = some (.text "friday") :=
    ((Json.pathsCompose "" "days.+1").joined nameless _).mpr ⟨daysOff, first, rfl⟩
  have inData := (Json.pathsCompose "request_data" ".days.+1").request nameless none
  exact ⟨dotless, first, inData.trans joined⟩

end Leave

end Approval
