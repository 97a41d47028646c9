import Approval.Id
import Approval.Proofs.Json.Depth
import Approval.Proofs.Time.Reading
import Approval.Proofs.Uuid
import Approval.Proofs.Wire.Document

/-!
# What is written reads back

A value that a decoder makes of JSON text may stand there in several ways. It is written in one way, and from
that the decoder makes the same value.
-/

namespace Approval

/-! ### Members in order -/

namespace Json

/-- The members stand in ascending order of their names, one for each name. -/
def Ascending (ms : List (String × Json)) : Prop := ms.Pairwise fun m n => m.1 < n.1

variable {name : String} {v : Json} {ms : List (String × Json)}

lemma mem_insertMember {m : String × Json} (h : m ∈ insertMember name v ms) : m = (name, v) ∨ m ∈ ms := by
  induction ms with
  | nil => exact .inl (List.mem_singleton.mp h)
  | cons n ms ih =>
    unfold insertMember at h
    split_ifs at h
    · exact List.mem_cons.mp h
    · exact (List.mem_cons.mp h).imp_right (List.mem_cons_of_mem n)
    · rcases List.mem_cons.mp h with rfl | h
      · exact .inr List.mem_cons_self
      · exact (ih h).imp_right (List.mem_cons_of_mem n)

lemma ascending_insertMember (h : Ascending ms) (name : String) (v : Json) :
    Ascending (insertMember name v ms) := by
  induction ms with
  | nil => exact List.pairwise_singleton _ _
  | cons n ms ih =>
    obtain ⟨first, rest⟩ := List.pairwise_cons.mp h
    unfold insertMember
    split_ifs with before same
    · refine List.pairwise_cons.mpr ⟨List.forall_mem_cons.mpr ⟨before, fun m mem => ?_⟩, h⟩
      exact String.lt_trans before (first m mem)
    · exact List.pairwise_cons.mpr ⟨same ▸ first, rest⟩
    · refine List.pairwise_cons.mpr ⟨fun m mem => ?_, ih rest⟩
      rcases mem_insertMember mem with rfl | mem
      · exact String.not_le.mp fun le => same (String.le_antisymm le (String.not_lt.mp before))
      · exact first m mem

/-- The members that an object is made of are among those given, in order. -/
lemma exists_ofMembers (ms : List (String × Json)) :
    ∃ ordered, ofMembers ms = .object ordered ∧ Ascending ordered ∧ ordered ⊆ ms := by
  have folded (done : List (String × Json)) (ascending : Ascending done) :
      Ascending (ms.foldl (fun ms m => insertMember m.1 m.2 ms) done) ∧
        ms.foldl (fun ms m => insertMember m.1 m.2 ms) done ⊆ done ++ ms := by
    induction ms generalizing done with
    | nil => exact ⟨ascending, List.subset_append_left _ _⟩
    | cons m ms ih =>
      obtain ⟨inOrder, among⟩ := ih _ (ascending_insertMember ascending m.1 m.2)
      refine ⟨inOrder, fun n mem => ?_⟩
      rcases List.mem_append.mp (among mem) with mem | mem
      · rcases mem_insertMember mem with rfl | mem
        · simp
        · exact List.mem_append_left _ mem
      · simp [mem]
  exact ⟨_, rfl, folded [] .nil⟩

lemma insertMember_of_lt (h : ∀ m ∈ ms, m.1 < name) : insertMember name v ms = ms ++ [(name, v)] := by
  induction ms with
  | nil => rfl
  | cons m ms ih =>
    obtain ⟨first, rest⟩ := List.forall_mem_cons.mp h
    have ne : name ≠ m.1 := fun same => String.lt_irrefl _ (same ▸ first)
    rw [insertMember, if_neg (String.lt_asymm first), if_neg ne, ih rest, List.cons_append]

/-- Members that stand in order are the members of an object. -/
lemma ofMembers_of_ascending (h : Ascending ms) : ofMembers ms = .object ms := by
  have folded (done : List (String × Json)) (ascending : Ascending (done ++ ms)) :
      ms.foldl (fun ms m => insertMember m.1 m.2 ms) done = done ++ ms := by
    induction ms generalizing done with
    | nil => simp
    | cons m ms ih =>
      have later : ∀ n ∈ done, n.1 < m.1 := fun n mem =>
        (List.pairwise_append.mp ascending).2.2 n mem m List.mem_cons_self
      rw [List.append_cons] at ascending ⊢
      rw [List.foldl_cons, insertMember_of_lt later]
      exact ih (List.pairwise_cons.mp h).2 _ ascending
  exact congrArg Json.object (folded [] h)

end Json

namespace Decoder

/-! ### The property -/

/-- From what is written for a value that was decoded from JSON text the same value is decoded. It nests no
deeper than that text or than `level`, and is null only if that text was. -/
structure Settles {α : Type} (decode : Decoder α) (write : α → Json) (level : Nat) : Prop where
  again : ∀ {d a}, d.IsJson → decode d = .ok a → decode (Doc.ofJson (write a)) = .ok a
  depth_le : ∀ {d a}, d.IsJson → decode d = .ok a → (write a).depth ≤ max d.depth level
  eq_null : ∀ {d a}, d.IsJson → decode d = .ok a → write a = .null → d = .null

variable {α : Type} {decode : Decoder α} {write : α → Json} {level : Nat}

/-- What is written without nesting and never as null. -/
lemma Settles.of_scalar (depth : ∀ a, (write a).depth = 0) (ne : ∀ a, write a ≠ .null)
    (again : ∀ {d a}, d.IsJson → decode d = .ok a → decode (Doc.ofJson (write a)) = .ok a) :
    Settles decode write 0 where
  again := again
  depth_le {d a} _ _ := by rw [depth a]; exact Nat.zero_le _
  eq_null _ _ null := (ne _ null).elim

/-! ### Scalars -/

namespace Settles

lemma mono {higher : Nat} (h : Settles decode write level) (le : level ≤ higher) : Settles decode write higher :=
  ⟨h.again, fun shape decoded => Nat.le_trans (h.depth_le shape decoded) (by omega), h.eq_null⟩

lemma text : Settles Decoder.text .text 0 := of_scalar (fun _ => rfl) (fun _ => by simp) fun _ _ => rfl

lemma bool : Settles Decoder.bool .bool 0 := of_scalar (fun _ => rfl) (fun _ => by simp) fun _ _ => rfl

/-- One of several names, each with its own. -/
lemma name {known : String → Option α} {label : α → String} (knows : ∀ a, known (label a) = some a) :
    Settles (Decoder.name known) (fun a => .text (label a)) 0 :=
  of_scalar (fun _ => rfl) (fun _ => by simp) fun {_ a} _ _ => by simp [Doc.ofJson, Decoder.name, knows a]

lemma nameInWhole {known : String → Option α} {label : α → String} (knows : ∀ a, known (label a) = some a) :
    Settles (Decoder.nameInWhole known) (fun a => .text (label a)) 0 :=
  of_scalar (fun _ => rfl) (fun _ => by simp) fun {_ a} _ _ => by
    simp [Doc.ofJson, Decoder.nameInWhole, Decoder.name, knows a]

/-- A text that is read further, as long as its own text reads as it. -/
lemma refine {read : String → Option α} {label : α → String}
    (reads : ∀ {s a}, read s = some a → read (label a) = some a) :
    Settles (Decoder.refine read Decoder.text) (fun a => .text (label a)) 0 :=
  of_scalar (fun _ => rfl) (fun _ => by simp) fun {d a} _ h => by
    obtain ⟨s, -, h⟩ := Except.bind_eq_ok_iff.mp h
    have known : read s = some a := by
      split at h
      · rename_i b known
        exact known.trans (congrArg some (Except.ok.inj h))
      · cases h
    simp [Doc.ofJson, Decoder.refine, Decoder.text, reads known, bind, Except.bind]

end Settles

lemma within_of_int {low high n : Int} {d : Doc} (shape : d.IsJson) (h : int low high d = .ok n) :
    low ≤ n ∧ n ≤ high := by
  cases d with
  | number m =>
    cases m with
    | whole m =>
      change (if low ≤ m.val ∧ m.val ≤ high then Except.ok m.val else .error DecodeFault.mismatch) = .ok n at h
      split_ifs at h with within
      exact Except.ok.inj h ▸ within
    | real => cases h
  | plain | declared | tagged => exact shape.elim
  | _ => cases h

lemma lt_of_natBelow {bound n : Nat} {d : Doc} (shape : d.IsJson) (h : natBelow bound d = .ok n) : n < bound := by
  cases d with
  | number m =>
    cases m with
    | whole m =>
      simp only [natBelow] at h
      split_ifs at h with _ below
      exact Except.ok.inj h ▸ below
    | real => cases h
  | plain | declared | tagged => exact shape.elim
  | _ => cases h

lemma ofInt_of_isWord {n : Int} (h : IsWord n) : Json.ofInt n = .number (.whole ⟨n, h⟩) := dif_pos h

@[simp] lemma depth_ofInt (n : Int) : (Json.ofInt n).depth = 0 := by
  unfold Json.ofInt
  split <;> rfl

lemma ofInt_ne_null (n : Int) : Json.ofInt n ≠ .null := by
  unfold Json.ofInt
  split <;> simp

lemma Settles.int {low high : Int} (least : -Int.pow 2 63 ≤ low) (most : high < Int.pow 2 64) :
    Settles (Decoder.int low high) Json.ofInt 0 :=
  of_scalar depth_ofInt ofInt_ne_null fun {d n} shape h => by
    have within := within_of_int shape h
    rw [ofInt_of_isWord ⟨Int.le_trans least within.1, Int.lt_of_le_of_lt within.2 most⟩]
    exact if_pos within

lemma Settles.natBelow {bound : Nat} (most : bound ≤ Nat.pow 2 64) :
    Settles (Decoder.natBelow bound) Json.ofNat 0 :=
  of_scalar (fun n => depth_ofInt n) (fun n => ofInt_ne_null n) fun {d n} shape h => by
    have below := lt_of_natBelow shape h
    have small : n < 18446744073709551616 := Nat.lt_of_lt_of_le below most
    have isWord : IsWord n := by
      change -9223372036854775808 ≤ (n : Int) ∧ (n : Int) < 18446744073709551616
      omega
    rw [Json.ofNat, ofInt_of_isWord isWord]
    simp [Doc.ofJson, Decoder.natBelow, below]

/-! ### Options and lists -/

lemma optional_eq_map {d : Doc} (shape : d.IsJson) (ne : d ≠ .null) : decode.optional d = some <$> decode d := by
  cases d with
  | null => exact (ne rfl).elim
  | plain | declared | tagged => exact shape.elim
  | _ => rfl

namespace Settles

/-- What is there is written as it is, and what is not there as null. -/
lemma optional (h : Settles decode write level) : Settles decode.optional (Json.ofOption write) level where
  again {d o} shape decoded := by
    cases o with
    | none => rfl
    | some a =>
      have decoded' := of_optional decoded
      have ne : write a ≠ .null := fun null => by
        obtain rfl := h.eq_null shape decoded' null
        cases decoded
      have again : decode.optional (Doc.ofJson (write a)) = some <$> decode (Doc.ofJson (write a)) := by
        generalize write a = v at ne
        cases v with
        | null => exact (ne rfl).elim
        | _ => rfl
      rw [Json.ofOption, again, h.again shape decoded']
      rfl
  depth_le {d o} shape decoded := by
    cases o with
    | none => exact Nat.zero_le _
    | some a => exact h.depth_le shape (of_optional decoded)
  eq_null {d o} shape decoded null := by
    cases o with
    | none =>
      by_contra ne
      rw [optional_eq_map shape ne] at decoded
      obtain ⟨a, -, same⟩ := Except.map_eq_ok_iff.mp decoded
      cases same
    | some a => exact h.eq_null shape (of_optional decoded) null

lemma each (h : Settles decode write 0) {items : List Doc} (shape : Doc.ItemsJson items) {as : List α}
    (decoded : Decoder.each decode items = .ok as) :
    Decoder.each decode (Doc.ofItems (as.map write)) = .ok as ∧
      Json.depthOfItems (as.map write) ≤ Doc.depthOfItems items := by
  induction items generalizing as with
  | nil =>
    obtain rfl := Except.ok.inj decoded
    exact ⟨rfl, Nat.le_refl _⟩
  | cons d items ih =>
    simp only [Decoder.each, Except.bind_eq_ok_iff] at decoded
    obtain ⟨a, first, as, rest, same⟩ := decoded
    obtain rfl := Except.ok.inj same
    obtain ⟨again, depth⟩ := ih shape.2 rest
    have first_depth := h.depth_le shape.1 first
    simp only [List.map_cons, Doc.ofItems, Decoder.each, h.again shape.1 first, again]
    refine ⟨rfl, ?_⟩
    simp only [Json.depthOfItems, Doc.depthOfItems]
    omega

lemma list (h : Settles decode write 0) : Settles decode.list (fun as => .array (as.map write)) 0 where
  again {d as} shape decoded := by
    cases d with
    | list items => exact (h.each shape decoded).1
    | plain | declared | tagged => exact shape.elim
    | _ => cases decoded
  depth_le {d as} shape decoded := by
    cases d with
    | list items => exact Nat.le_trans (Nat.succ_le_succ (h.each shape decoded).2) (Nat.le_max_left _ _)
    | plain | declared | tagged => exact shape.elim
    | _ => cases decoded
  eq_null _ _ null := by cases null

end Settles

/-! ### JSON values -/

mutual

/-- A JSON value has a value throughout. -/
@[simp] lemma whole_ofJson (v : Json) : whole (Doc.ofJson v) = .ok () := by
  match v with
  | .null | .bool _ | .number _ | .text _ => rfl
  | .array items =>
    obtain ⟨vs, each⟩ := exists_jsonItems_ofItems items
    simp only [whole, Doc.ofJson, json, each]
    rfl
  | .object members =>
    obtain ⟨ms, each⟩ := exists_jsonMembers_ofMembers members
    simp only [whole, Doc.ofJson, json, each]
    rfl

lemma exists_jsonItems_ofItems (items : List Json) : ∃ vs, jsonItems (Doc.ofItems items) = .ok vs := by
  match items with
  | [] => exact ⟨[], rfl⟩
  | v :: rest =>
    obtain ⟨u, first, -⟩ := Except.map_eq_ok_iff.mp (whole_ofJson v)
    obtain ⟨vs, others⟩ := exists_jsonItems_ofItems rest
    simp only [Doc.ofItems, jsonItems, first, others]
    exact ⟨_, rfl⟩

lemma exists_jsonMembers_ofMembers (members : List (String × Json)) :
    ∃ ms, jsonMembers (Doc.ofMembers members) = .ok ms := by
  match members with
  | [] => exact ⟨[], rfl⟩
  | (name, v) :: rest =>
    obtain ⟨u, first, -⟩ := Except.map_eq_ok_iff.mp (whole_ofJson v)
    obtain ⟨ms, others⟩ := exists_jsonMembers_ofMembers rest
    simp only [Doc.ofMembers, jsonMembers, first, others]
    exact ⟨_, rfl⟩

end

lemma jsonMembers_ofMembers {ms : List (String × Json)} (h : ∀ m ∈ ms, json (Doc.ofJson m.2) = .ok m.2) :
    jsonMembers (Doc.ofMembers ms) = .ok ms := by
  induction ms with
  | nil => rfl
  | cons m ms ih =>
    obtain ⟨first, rest⟩ := List.forall_mem_cons.mp h
    simp only [Doc.ofMembers, jsonMembers, first, ih rest]
    rfl

mutual

/-- A value that was decoded is decoded from itself: the members of its objects stand in order. -/
lemma json_again {d : Doc} {v : Json} (shape : d.IsJson) (h : json d = .ok v) : json (Doc.ofJson v) = .ok v := by
  match d with
  | .null | .bool _ | .number _ | .text _ =>
    obtain rfl := Except.ok.inj h
    rfl
  | .list items =>
    simp only [json, Except.bind_eq_ok_iff] at h
    obtain ⟨vs, each, h⟩ := h
    obtain rfl := Except.ok.inj h
    simp only [Doc.ofJson, json, jsonItems_again shape each]
    rfl
  | .object members =>
    simp only [json, Except.bind_eq_ok_iff] at h
    obtain ⟨ms, each, h⟩ := h
    obtain rfl := Except.ok.inj h
    obtain ⟨ordered, made, ascending, among⟩ := Json.exists_ofMembers ms
    have settled : ∀ m ∈ ordered, json (Doc.ofJson m.2) = .ok m.2 := fun m mem =>
      jsonMembers_again shape each m (among mem)
    simp only [made, Doc.ofJson, json, jsonMembers_ofMembers settled]
    exact congrArg Except.ok (Json.ofMembers_of_ascending ascending)
  | .plain _ | .declared _ _ _ | .tagged _ _ => exact shape.elim
  | .huge | .brokenText | .tooDeep | .broken => simp [json] at h

lemma jsonItems_again {ds : List Doc} {vs : List Json} (shape : Doc.ItemsJson ds) (h : jsonItems ds = .ok vs) :
    jsonItems (Doc.ofItems vs) = .ok vs := by
  match ds with
  | [] =>
    obtain rfl := Except.ok.inj h
    rfl
  | d :: rest =>
    simp only [jsonItems, Except.bind_eq_ok_iff] at h
    obtain ⟨v, first, us, others, h⟩ := h
    obtain rfl := Except.ok.inj h
    simp only [Doc.ofItems, jsonItems, json_again shape.1 first, jsonItems_again shape.2 others]
    rfl

lemma jsonMembers_again {ds : List (Option String × Doc)} {ms : List (String × Json)}
    (shape : Doc.MembersJson ds) (h : jsonMembers ds = .ok ms) :
    ∀ m ∈ ms, json (Doc.ofJson m.2) = .ok m.2 := by
  match ds with
  | [] =>
    obtain rfl := Except.ok.inj h
    simp
  | (none, _) :: _ => simp [jsonMembers] at h
  | (some name, d) :: rest =>
    simp only [jsonMembers, Except.bind_eq_ok_iff] at h
    obtain ⟨v, first, us, others, h⟩ := h
    obtain rfl := Except.ok.inj h
    exact List.forall_mem_cons.mpr ⟨json_again shape.1 first, jsonMembers_again shape.2 others⟩

end

lemma eq_null_of_json {d : Doc} (shape : d.IsJson) (h : json d = .ok .null) : d = .null := by
  cases d with
  | null => rfl
  | list | object =>
    simp only [json, Except.bind_eq_ok_iff] at h
    obtain ⟨_, -, h⟩ := h
    cases h
  | plain | declared | tagged => exact shape.elim
  | _ => cases h

lemma Settles.json : Settles Decoder.json id 0 where
  again := json_again
  depth_le _ h := Nat.le_trans (depth_of_json h) (Nat.le_max_left _ _)
  eq_null shape h null := eq_null_of_json shape (h.trans (congrArg _ null))

end Decoder

/-- What is decoded from a text is decoded from a document of JSON that nests no deeper than the limit. -/
lemma Decoder.exists_json_of_decodeText {α : Type} {decode : Decoder α} {s : String} {a : α}
    (h : decode.decodeText s = .ok a) : ∃ d : Doc, d.IsJson ∧ d.depth ≤ Json.depthLimit ∧ decode d = .ok a := by
  obtain ⟨b, decoded, h⟩ := Except.bind_eq_ok_iff.mp h
  split_ifs at h
  obtain rfl := Except.ok.inj h
  exact ⟨_, Doc.isJson_ofTokens _, Doc.depth_ofTokens_le _, decoded⟩

/-! ### Identifiers and times -/

/-- An identifier is written in one of the forms in which it is read. -/
lemma Id.settles {kind : Kind} : Decoder.Settles (@Id.decode kind) Id.json 0 :=
  .refine fun {s i} read => by
    obtain ⟨u, parsed, rfl⟩ := Option.map_eq_some_iff.mp read
    exact Option.map_eq_some_iff.mpr ⟨u, Uuid.parse?_text (Uuid.value_lt_of_parse? parsed), rfl⟩

/-- A time is written without an offset, whichever it was read with. -/
lemma Instant.settles : Decoder.Settles Instant.decode Instant.json 0 :=
  .refine fun read => Instant.parse?_stamp (Instant.isCivil_of_parse? read)

end Approval
