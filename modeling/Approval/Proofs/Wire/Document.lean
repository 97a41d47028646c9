import Approval.Proofs.Result
import Approval.Wire.Record

/-!
# Documents of JSON text

A document that is read from JSON text, or made of a JSON value, has no scalar whose meaning is open and no
value that names its own kind.
-/

namespace Approval

namespace Doc

mutual

/-- The document has no forms but those of JSON text. -/
def IsJson : Doc → Prop
  | .list items => ItemsJson items
  | .object members => MembersJson members
  | .plain _ | .declared _ _ _ | .tagged _ _ => False
  | _ => True

/-- The items have no forms but those of JSON text. -/
def ItemsJson : List Doc → Prop
  | [] => True
  | d :: rest => d.IsJson ∧ ItemsJson rest

/-- The values of the members have no forms but those of JSON text. -/
def MembersJson : List (Option String × Doc) → Prop
  | [] => True
  | (_, d) :: rest => d.IsJson ∧ MembersJson rest

end

@[simp] lemma itemsJson_iff {items : List Doc} : ItemsJson items ↔ ∀ d ∈ items, d.IsJson := by
  induction items with
  | nil => simp [ItemsJson]
  | cons d items ih => rw [ItemsJson, ih, List.forall_mem_cons]

@[simp] lemma membersJson_iff {members : List (Option String × Doc)} :
    MembersJson members ↔ ∀ m ∈ members, m.2.IsJson := by
  induction members with
  | nil => simp [MembersJson]
  | cons m members ih => rw [MembersJson, ih, List.forall_mem_cons]

lemma depthOfMembers_le {members : List (Option String × Doc)} {n : Nat} (h : ∀ m ∈ members, m.2.depth ≤ n) :
    depthOfMembers members ≤ n := by
  induction members with
  | nil => exact Nat.zero_le _
  | cons m members ih =>
    obtain ⟨first, rest⟩ := List.forall_mem_cons.mp h
    exact Nat.max_le.mpr ⟨first, ih rest⟩

/-! ### What is read -/

lemma isJson_enclose {room : Nat} {d : Doc} (h : d.IsJson) : (enclose room d).IsJson := by
  unfold enclose
  split_ifs
  · exact h
  · trivial
  · trivial

/-- With so much fuel, what is read has no other forms. -/
structure ReadsJson (fuel : Nat) : Prop where
  value : ∀ room tokens, (readValue room fuel tokens).1.IsJson
  items : ∀ room tokens, ItemsJson (readItems room fuel tokens).1
  members : ∀ room tokens, MembersJson (readMembers room fuel tokens).1

namespace ReadsJson

variable {fuel : Nat}

lemma zero : ReadsJson 0 := ⟨fun _ _ => trivial, fun _ _ => ⟨trivial, trivial⟩, fun _ _ => ⟨trivial, trivial⟩⟩

lemma value_succ (h : ReadsJson fuel) (room : Nat) (tokens : List JsonToken) :
    (readValue room (fuel + 1) tokens).1.IsJson := by
  unfold readValue
  split
  all_goals try exact trivial
  · exact isJson_enclose trivial
  · exact isJson_enclose (h.items _ _)
  · exact isJson_enclose trivial
  · exact isJson_enclose (h.members _ _)

lemma items_succ (h : ReadsJson fuel) (room : Nat) (tokens : List JsonToken) :
    ItemsJson (readItems room (fuel + 1) tokens).1 := by
  have first := h.value room tokens
  simp only [readItems]
  split
  · exact ⟨first, h.items _ _⟩
  · exact ⟨first, trivial⟩
  · exact ⟨first, trivial, trivial⟩

lemma members_succ (h : ReadsJson fuel) (room : Nat) (tokens : List JsonToken) :
    MembersJson (readMembers room (fuel + 1) tokens).1 := by
  simp only [readMembers]
  split
  all_goals try exact ⟨trivial, trivial⟩
  all_goals
    rename_i rest
    have first := h.value room rest
    split
    · exact ⟨first, h.members _ _⟩
    · exact ⟨first, trivial⟩
    · exact ⟨first, trivial, trivial⟩

end ReadsJson

lemma readsJson (fuel : Nat) : ReadsJson fuel := by
  induction fuel with
  | zero => exact .zero
  | succ fuel ih => exact ⟨ih.value_succ, ih.items_succ, ih.members_succ⟩

lemma isJson_ofTokens (tokens : List JsonToken) : (ofTokens tokens).1.IsJson := (readsJson _).value _ _

/-! ### What is made of values -/

mutual

@[simp] lemma sound_ofJson (v : Json) : (ofJson v).sound = true := by
  match v with
  | .null | .bool _ | .number _ | .text _ => rfl
  | .array items => exact sound_ofItems items
  | .object members => exact sound_ofMembers members

@[simp] lemma sound_ofItems (items : List Json) : soundItems (ofItems items) = true := by
  match items with
  | [] => rfl
  | v :: rest => exact Bool.and_eq_true_iff.mpr ⟨sound_ofJson v, sound_ofItems rest⟩

@[simp]
lemma sound_ofMembers (members : List (String × Json)) : soundMembers (ofMembers members) = true := by
  match members with
  | [] => rfl
  | (_, v) :: rest => exact Bool.and_eq_true_iff.mpr ⟨sound_ofJson v, sound_ofMembers rest⟩

end

end Doc

end Approval
