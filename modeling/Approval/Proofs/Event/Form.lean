import Approval.Event.Basic
import Approval.Proofs.Request.Form

/-!
# Events read back

An event is written with the name of its kind beside its fields, and from these it is made again.
-/

namespace Approval

open Decoder (Settles)
open RecordDecoder (forall_seq_build forall_map_build)

/-! ### Objects with a tag -/

section Tag

variable {ms : List (String × Json)} {name : String} {u : Json}

lemma filter_eq_singleton (distinct : (ms.map Prod.fst).Nodup) (there : ms.lookup name = some u) :
    ms.filter (·.1 = name) = [(name, u)] := by
  induction ms with
  | nil => cases there
  | cons m ms ih =>
    obtain ⟨new, distinct⟩ := List.nodup_cons.mp distinct
    by_cases same : name = m.1
    · subst same
      obtain rfl : m.2 = u := Option.some.inj (List.lookup_cons_self.symm.trans there)
      have none : ∀ n ∈ ms, ¬decide (n.1 = m.1) = true := fun n mem => by
        simpa using fun same : n.1 = m.1 => new (same ▸ List.mem_map_of_mem mem)
      rw [List.filter_cons_of_pos (by simp), List.filter_eq_nil_iff.mpr none]
    · rw [List.lookup_cons, beq_false_of_ne same] at there
      rw [List.filter_cons_of_neg (by simpa using Ne.symm same), ih distinct there]

lemma lookup_filter_ne {other : String} (ne : other ≠ name) :
    (ms.filter (·.1 ≠ name)).lookup other = ms.lookup other := by
  induction ms with
  | nil => rfl
  | cons m ms ih =>
    by_cases same : m.1 = name
    · rw [List.filter_cons_of_neg (by simpa using same), ih, List.lookup_cons, beq_false_of_ne (same ▸ ne)]
    · rw [List.filter_cons_of_pos (by simpa using same), List.lookup_cons, List.lookup_cons, ih]

lemma Doc.ofMembers_eq_map (ms : List (String × Json)) :
    Doc.ofMembers ms = ms.map fun m => (some m.1, Doc.ofJson m.2) := by
  induction ms with
  | nil => rfl
  | cons m ms ih => rw [Doc.ofMembers, ih, List.map_cons]

/-- The member of a name set apart from the others. -/
lemma Doc.partition_ofMembers (distinct : (ms.map Prod.fst).Nodup) (there : ms.lookup name = some u) :
    (Doc.ofMembers ms).partition (·.1 = some name) =
      ([(some name, Doc.ofJson u)], Doc.ofMembers (ms.filter (·.1 ≠ name))) := by
  have named : (Doc.ofMembers ms).filter (·.1 = some name) = Doc.ofMembers (ms.filter (·.1 = name)) := by
    simp [ofMembers_eq_map, List.filter_map, Function.comp_def]
  have others : (Doc.ofMembers ms).filter (not ∘ (·.1 = some name)) = Doc.ofMembers (ms.filter (·.1 ≠ name)) := by
    simp [ofMembers_eq_map, List.filter_map, Function.comp_def]
  rw [List.partition_eq_filter_filter, named, filter_eq_singleton distinct there]
  exact congrArg _ others

end Tag

namespace Event

variable {e : Event} {r : RecordDecoder Event} {tag : String}

/-- What an event is decoded from is the tag of its kind and a document of its fields. -/
lemma exists_record {d : Doc} (shape : d.IsJson) (h : decode d = .ok e) :
    ∃ tag r d', record? tag = some r ∧ r.decode d' = .ok e ∧ d'.IsJson ∧ d'.depth ≤ d.depth := by
  have ofTag {tag d' : Doc} (shape' : d'.IsJson) (depth : d'.depth ≤ d.depth)
      (h : (recordOf tag >>= fun r => r.decode d') = .ok e) :
      ∃ tag r d', record? tag = some r ∧ r.decode d' = .ok e ∧ d'.IsJson ∧ d'.depth ≤ d.depth := by
    obtain ⟨r, named, decoded⟩ := Except.bind_eq_ok_iff.mp h
    obtain ⟨name, -, named⟩ := Except.bind_eq_ok_iff.mp named
    split at named
    · rename_i r' known
      obtain rfl := Except.ok.inj named
      exact ⟨name, _, d', known, decoded, shape', depth⟩
    · cases named
  cases d with
  | object members =>
    obtain ⟨-, -, h⟩ := Except.bind_eq_ok_iff.mp h
    split at h
    · rename_i type tag rest parted
      have among : rest ⊆ members := by
        rw [List.partition_eq_filter_filter] at parted
        exact (Prod.mk.inj parted).2 ▸ List.filter_subset_self _
      exact @ofTag tag (.object rest)
        (Doc.membersJson_iff.mpr fun m mem => Doc.membersJson_iff.mp shape m (among mem))
        (Nat.succ_le_succ (Doc.depthOfMembers_le fun m mem => Doc.depth_le_of_mem_members (among mem))) h
    · cases h
  | list items =>
    cases items with
    | nil => cases h
    | cons tag rest =>
      obtain ⟨r, named, h⟩ := Except.bind_eq_ok_iff.mp h
      obtain ⟨-, -, h⟩ := Except.bind_eq_ok_iff.mp h
      exact @ofTag tag (.list rest) shape.2 (Nat.succ_le_succ (Nat.le_max_right _ _))
        (Except.bind_eq_ok_iff.mpr ⟨r, named, h⟩)
  | plain | declared | tagged => exact shape.elim
  | _ => cases h

/-- What is written for an event makes its fields, beside the tag of its kind. -/
lemma rebuilds {get : String → Option Doc} {room : Nat} (supply : RecordDecoder.Supplies get room)
    (known : record? tag = some r) (e : Event) (built : r.build get = .ok e) :
    r.Rebuilds e.json room e ∧ e.json.member? "type" = some (.text tag) ∧
      e.json.IsObjectOf ("type" :: r.names) ∧ "type" ∉ r.names := by
  unfold record? at known
  split at known
  case h_4 => cases known
  all_goals
    obtain rfl := Option.some.inj known
    clear known
    revert e
    simp only [forall_seq_build, forall_map_build]
  · intro requestId h₁ workflowName h₂ order h₃ stepName h₄ role h₅ permission h₆ deadline h₇
    refine ⟨?_, rfl, ⟨_, rfl, by simp, by simp⟩, by simp⟩
    exact .seq (.seq (.seq (.seq (.seq (.seq (.map _
      (.required Id.settles supply h₁ rfl)) (.required .text supply h₂ rfl)) (.required .count supply h₃ rfl))
      (.required .text supply h₄ rfl)) (.maybe Id.settles supply h₅ rfl)) (.maybe Id.settles supply h₆ rfl))
      (.maybe Instant.settles supply h₇ rfl)
  · intro requestId h₁ workflowName h₂ status h₃
    refine ⟨?_, rfl, ⟨_, rfl, by simp, by simp⟩, by simp⟩
    exact .seq (.seq (.map _ (.required Id.settles supply h₁ rfl)) (.required .text supply h₂ rfl))
      (.required (.nameInWhole fun s => by cases s <;> rfl) supply h₃ rfl)
  · intro requestId h₁ workflowName h₂ order h₃ stepName h₄ deadline h₅
    refine ⟨?_, rfl, ⟨_, rfl, by simp, by simp⟩, by simp⟩
    exact .seq (.seq (.seq (.seq (.map _
      (.required Id.settles supply h₁ rfl)) (.required .text supply h₂ rfl)) (.required .count supply h₃ rfl))
      (.required .text supply h₄ rfl)) (.required Instant.settles supply h₅ rfl)

/-- An event is decoded from an object with its tag and its fields. -/
lemma decode_ofMembers {ms : List (String × Json)} {room : Nat} (known : record? tag = some r)
    (distinct : (ms.map Prod.fst).Nodup) (tagged : ms.lookup "type" = some (.text tag))
    (rebuilds : r.Rebuilds (.object ms) room e) (untyped : "type" ∉ r.names) :
    decode (.object (Doc.ofMembers ms)) = .ok e := by
  have named : recordOf (.text tag) = .ok r := by simp [recordOf, Decoder.text, known, bind, Except.bind]
  have fields : r.Rebuilds (.object (ms.filter (·.1 ≠ "type"))) room e := rebuilds.congr fun name mem =>
    lookup_filter_ne fun same => untyped (same ▸ mem)
  have distinct' : ((ms.filter (·.1 ≠ "type")).map Prod.fst).Nodup :=
    distinct.sublist (List.filter_sublist.map _)
  have taken : Decoder.whole (.object (Doc.ofMembers ms)) = .ok () := Decoder.whole_ofJson (.object ms)
  rw [decode, taken, Doc.partition_ofMembers distinct tagged, ← fields.decode_eq distinct']
  change (recordOf (.text tag) >>= _) = _
  rw [named]
  rfl

lemma settles : Settles decode json 0 := by
  have again {d : Doc} {e : Event} (shape : d.IsJson) (decoded : decode d = .ok e) :
      ∃ tag r room, record? tag = some r ∧ room < d.depth ∧ r.Rebuilds e.json room e ∧
        e.json.member? "type" = some (.text tag) ∧ e.json.IsObjectOf ("type" :: r.names) ∧ "type" ∉ r.names := by
    obtain ⟨tag, r, d', known, decoded, shape', depth⟩ := exists_record shape decoded
    obtain ⟨get, built, supply, deep⟩ := RecordDecoder.exists_supply shape' decoded
    exact ⟨tag, r, d'.depth - 1, known, by omega, rebuilds supply known e built⟩
  refine ⟨fun {d e} shape decoded => ?_, fun {d e} shape decoded => ?_, fun {d e} shape decoded null => ?_⟩
  all_goals
    obtain ⟨tag, r, room, known, deep, rebuilds, tagged, isObject, untyped⟩ := again shape decoded
    obtain ⟨ms, written, distinct, among⟩ := isObject
  · rw [written] at rebuilds tagged ⊢
    exact decode_ofMembers known distinct tagged rebuilds untyped
  · rw [written] at rebuilds tagged ⊢
    have depth : Json.depthOfMembers ms ≤ room := rebuilds.depthOfMembers_le distinct fun m mem => by
      rcases List.mem_cons.mp (among (List.mem_map_of_mem mem)) with type | field
      · have isTag : m.2 = .text tag := Option.some.inj ((type ▸ lookup_of_mem distinct mem).symm.trans tagged)
        exact .inr (isTag ▸ Nat.zero_le _)
      · exact .inl field
    rw [Json.depth]
    omega
  · cases written.symm.trans null

end Event

end Approval
