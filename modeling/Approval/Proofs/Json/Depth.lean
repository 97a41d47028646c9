import Approval.Proofs.Result
import Approval.Wire.Record

/-!
# How deep values of a text nest

Text that is read as JSON nests no deeper than the limit, and so does every value that a decoder takes
out of it.
-/

namespace Approval

/-! ### Values -/

namespace Json

lemma depthOfMembers_insertMember (name : String) (v : Json) (ms : List (String × Json)) :
    depthOfMembers (insertMember name v ms) ≤ max v.depth (depthOfMembers ms) := by
  induction ms with
  | nil => simp [insertMember, depthOfMembers]
  | cons m ms ih =>
    obtain ⟨n, u⟩ := m
    simp only [insertMember]
    split_ifs
    all_goals
      simp only [depthOfMembers]
      omega

lemma depth_ofMembers (ms : List (String × Json)) : (ofMembers ms).depth ≤ depthOfMembers ms + 1 := by
  have folded (done : List (String × Json)) :
      depthOfMembers (ms.foldl (fun ms m => insertMember m.1 m.2 ms) done) ≤
        max (depthOfMembers done) (depthOfMembers ms) := by
    induction ms generalizing done with
    | nil => exact Nat.le_max_left _ _
    | cons m ms ih =>
      have first := depthOfMembers_insertMember m.1 m.2 done
      have rest := ih (insertMember m.1 m.2 done)
      simp only [List.foldl_cons, depthOfMembers]
      omega
  have all := folded []
  rw [depthOfMembers, Nat.zero_max] at all
  exact Nat.succ_le_succ all

end Json

namespace Scalar

@[simp] lemma depth_ofReal (x : Number.Extended) : (ofReal x).depth = 0 := by
  cases x <;> rfl

@[simp] lemma depth_realOrText (s : String) : (realOrText s).depth = 0 := by
  unfold realOrText
  split
  · rfl
  · split
    · exact depth_ofReal _
    · rfl

lemma depth_of_value? {s : String} {v : Json} (h : value? s = some v) : v.depth = 0 := by
  unfold value? at h
  split at h
  · exact Option.some.inj h ▸ rfl
  · split at h
    · exact Option.some.inj h ▸ rfl
    · split at h
      · split_ifs at h
        · exact Option.some.inj h ▸ rfl
        · exact Option.some.inj h ▸ depth_realOrText s
      · exact Option.some.inj h ▸ depth_realOrText s

lemma depth_of_valueAs? {kind : ScalarKind} {s : String} {v : Json} (h : valueAs? kind s = some v) :
    v.depth = 0 := by
  cases kind with
  | null =>
    simp only [valueAs?, Option.ite_none_right_eq_some, Option.some.injEq] at h
    exact h.2 ▸ rfl
  | bool =>
    obtain ⟨b, -, rfl⟩ := Option.map_eq_some_iff.mp h
    rfl
  | int =>
    obtain ⟨n, -, h⟩ := Option.bind_eq_some_iff.mp h
    split_ifs at h
    exact Option.some.inj h ▸ rfl
  | real =>
    obtain ⟨x, -, rfl⟩ := Option.map_eq_some_iff.mp h
    exact depth_ofReal x
  | text => exact Option.some.inj h ▸ rfl

end Scalar

/-! ### Documents -/

namespace Doc

lemma depth_le_of_mem_items {d : Doc} {items : List Doc} (h : d ∈ items) :
    d.depth ≤ depthOfItems items := by
  induction h with
  | head => exact Nat.le_max_left _ _
  | tail _ _ ih => exact Nat.le_trans ih (Nat.le_max_right _ _)

lemma depth_le_of_mem_members {name : Option String} {d : Doc} {members : List (Option String × Doc)}
    (h : (name, d) ∈ members) : d.depth ≤ depthOfMembers members := by
  induction members with
  | nil => cases h
  | cons m members ih =>
    rcases List.mem_cons.mp h with rfl | h
    · exact Nat.le_max_left _ _
    · exact Nat.le_trans (ih h) (Nat.le_max_right _ _)

lemma depth_enclose_le {room : Nat} {d : Doc} (h : room ≠ 0 → d.depth ≤ room) :
    (enclose room d).depth ≤ room := by
  unfold enclose
  split_ifs with some_room
  · exact h some_room
  · exact Nat.zero_le _
  · exact Nat.zero_le _

/-- With so much fuel, what is read nests no deeper than there is room. -/
structure ReadsWithin (fuel : Nat) : Prop where
  value : ∀ room tokens, (readValue room fuel tokens).1.depth ≤ room
  items : ∀ room tokens, depthOfItems (readItems room fuel tokens).1 ≤ room
  members : ∀ room tokens, depthOfMembers (readMembers room fuel tokens).1 ≤ room

namespace ReadsWithin

variable {fuel : Nat}

lemma zero : ReadsWithin 0 where
  value _ _ := Nat.zero_le _
  items room tokens := by simp [readItems, depthOfItems, depth]
  members room tokens := by simp [readMembers, depthOfMembers, depth]

lemma value_succ (h : ReadsWithin fuel) (room : Nat) (tokens : List JsonToken) :
    (readValue room (fuel + 1) tokens).1.depth ≤ room := by
  unfold readValue
  split
  all_goals try exact Nat.zero_le _
  · exact depth_enclose_le fun some_room => Nat.one_le_iff_ne_zero.mpr some_room
  · rename_i rest _
    refine depth_enclose_le fun some_room => ?_
    have := h.items (room - 1) rest
    simp only [depth]
    omega
  · exact depth_enclose_le fun some_room => Nat.one_le_iff_ne_zero.mpr some_room
  · rename_i rest _
    refine depth_enclose_le fun some_room => ?_
    have := h.members (room - 1) rest
    simp only [depth]
    omega

lemma items_succ (h : ReadsWithin fuel) (room : Nat) (tokens : List JsonToken) :
    depthOfItems (readItems room (fuel + 1) tokens).1 ≤ room := by
  have first := h.value room tokens
  rcases read : readValue room fuel tokens with ⟨d, rest⟩
  rw [read] at first
  change d.depth ≤ room at first
  simp only [readItems, read]
  split
  · rename_i rest
    exact Nat.max_le.mpr ⟨first, h.items room rest⟩
  · simpa [depthOfItems] using first
  · simpa [depthOfItems, depth] using first

lemma members_succ (h : ReadsWithin fuel) (room : Nat) (tokens : List JsonToken) :
    depthOfMembers (readMembers room (fuel + 1) tokens).1 ≤ room := by
  simp only [readMembers]
  split
  all_goals try exact Nat.zero_le _
  all_goals
    rename_i rest
    have first := h.value room rest
    rcases read : readValue room fuel rest with ⟨d, rest⟩
    rw [read] at first
    change d.depth ≤ room at first
    split
    · rename_i rest _
      exact Nat.max_le.mpr ⟨first, h.members room rest⟩
    · simpa [depthOfMembers] using first
    · simpa [depthOfMembers, depth] using first

end ReadsWithin

lemma readsWithin (fuel : Nat) : ReadsWithin fuel := by
  induction fuel with
  | zero => exact .zero
  | succ fuel ih => exact ⟨ih.value_succ, ih.items_succ, ih.members_succ⟩

lemma depth_ofTokens_le (tokens : List JsonToken) : (ofTokens tokens).1.depth ≤ Json.depthLimit :=
  (readsWithin _).value _ _

end Doc

/-! ### Decoding -/

namespace Decoder

mutual

/-- A value nests no deeper than the document that it is decoded from. -/
lemma depth_of_json {d : Doc} {v : Json} (h : json d = .ok v) : v.depth ≤ d.depth := by
  match d with
  | .null | .bool _ | .number _ | .text _ =>
    simp only [json, Except.ok.injEq] at h
    exact h ▸ Nat.zero_le _
  | .list items =>
    simp only [json, Except.bind_eq_ok_iff] at h
    obtain ⟨vs, each, h⟩ := h
    obtain rfl := Except.ok.inj h
    exact Nat.succ_le_succ (depth_of_jsonItems each)
  | .object members =>
    simp only [json, Except.bind_eq_ok_iff] at h
    obtain ⟨ms, each, h⟩ := h
    obtain rfl := Except.ok.inj h
    exact Nat.le_trans (Json.depth_ofMembers ms) (Nat.succ_le_succ (depth_of_jsonMembers each))
  | .plain s =>
    simp only [json] at h
    split at h
    · rename_i u named
      obtain rfl := Except.ok.inj h
      exact Nat.le_of_eq (Scalar.depth_of_value? named)
    · cases h
  | .declared kind s _ =>
    simp only [json] at h
    split at h
    · rename_i u named
      obtain rfl := Except.ok.inj h
      exact Nat.le_of_eq (Scalar.depth_of_valueAs? named)
    · cases h
  | .tagged _ _ | .huge | .brokenText | .tooDeep | .broken => simp [json] at h

lemma depth_of_jsonItems {ds : List Doc} {vs : List Json} (h : jsonItems ds = .ok vs) :
    Json.depthOfItems vs ≤ Doc.depthOfItems ds := by
  match ds with
  | [] =>
    obtain rfl := Except.ok.inj h
    exact Nat.le_refl _
  | d :: rest =>
    simp only [jsonItems, Except.bind_eq_ok_iff] at h
    obtain ⟨v, first, us, others, h⟩ := h
    obtain rfl := Except.ok.inj h
    have := depth_of_json first
    have := depth_of_jsonItems others
    simp only [Json.depthOfItems, Doc.depthOfItems]
    omega

lemma depth_of_jsonMembers {ds : List (Option String × Doc)} {ms : List (String × Json)}
    (h : jsonMembers ds = .ok ms) : Json.depthOfMembers ms ≤ Doc.depthOfMembers ds := by
  match ds with
  | [] =>
    obtain rfl := Except.ok.inj h
    exact Nat.le_refl _
  | (none, _) :: _ => simp [jsonMembers] at h
  | (some name, d) :: rest =>
    simp only [jsonMembers, Except.bind_eq_ok_iff] at h
    obtain ⟨v, first, us, others, h⟩ := h
    obtain rfl := Except.ok.inj h
    have := depth_of_json first
    have := depth_of_jsonMembers others
    simp only [Json.depthOfMembers, Doc.depthOfMembers]
    omega

end

/-- What is decoded from a text is decoded from a document that nests no deeper than the limit. -/
lemma exists_doc_of_decodeText {α : Type} {decode : Decoder α} {s : String} {a : α}
    (h : decode.decodeText s = .ok a) : ∃ d : Doc, decode d = .ok a ∧ d.depth ≤ Json.depthLimit := by
  have bound := Doc.depth_ofTokens_le (JsonToken.scan s.toList)
  rcases read : Doc.ofTokens (JsonToken.scan s.toList) with ⟨d, rest⟩
  rw [read] at bound
  simp only [decodeText, read, Except.bind_eq_ok_iff] at h
  obtain ⟨b, decoded, h⟩ := h
  split_ifs at h
  obtain rfl := Except.ok.inj h
  exact ⟨d, decoded, bound⟩

/-- A value that is there is one of the document. -/
lemma of_optional {α : Type} {decode : Decoder α} {d : Doc} {a : α} (h : decode.optional d = .ok (some a)) :
    decode d = .ok a := by
  have some_of {d : Doc} (h : some <$> decode d = .ok (some a)) : decode d = .ok a := by
    obtain ⟨b, decoded, same⟩ := Except.map_eq_ok_iff.mp h
    rwa [← Option.some.inj same]
  unfold optional at h
  split at h
  · cases h
  · split_ifs at h
    · cases h
    · exact some_of h
  · split_ifs at h
    cases h
  · exact some_of h
  · exact some_of h

/-- The values of a list are decoded from documents inside of it. -/
lemma exists_of_each {α : Type} {decode : Decoder α} {items : List Doc} {as : List α}
    (h : each decode items = .ok as) {a : α} (mem : a ∈ as) : ∃ d ∈ items, decode d = .ok a := by
  induction items generalizing as with
  | nil =>
    obtain rfl := Except.ok.inj h
    cases mem
  | cons d items ih =>
    simp only [each, Except.bind_eq_ok_iff] at h
    obtain ⟨b, first, bs, rest, h⟩ := h
    obtain rfl := Except.ok.inj h
    rcases List.mem_cons.mp mem with rfl | later
    · exact ⟨d, List.mem_cons_self, first⟩
    · obtain ⟨d', inside, decoded⟩ := ih rest later
      exact ⟨d', List.mem_cons_of_mem _ inside, decoded⟩

lemma exists_of_list {α : Type} {decode : Decoder α} {d : Doc} {as : List α} (h : decode.list d = .ok as)
    {a : α} (mem : a ∈ as) : ∃ item : Doc, decode item = .ok a ∧ item.depth < d.depth := by
  have inside {items : List Doc} (h : each decode items = .ok as) :
      ∃ item : Doc, decode item = .ok a ∧ item.depth < Doc.depthOfItems items + 1 := by
    obtain ⟨item, among, decoded⟩ := exists_of_each h mem
    exact ⟨item, decoded, Nat.lt_succ_of_le (Doc.depth_le_of_mem_items among)⟩
  unfold list at h
  split at h
  · exact inside h
  · exact inside h
  · cases h
  · obtain rfl := Except.ok.inj h
    cases mem
  · obtain rfl := Except.ok.inj h
    cases mem
  · cases h

end Decoder

lemma Json.depth_of_read? {s : String} {v : Json} (h : read? s = some v) : v.depth ≤ depthLimit := by
  unfold read? Except.toOption at h
  split at h
  · rename_i u decoded
    obtain ⟨d, decoded, bound⟩ := Decoder.exists_doc_of_decodeText decoded
    rw [← Option.some.inj h]
    exact Nat.le_trans (Decoder.depth_of_json decoded) bound
  · cases h

/-! ### Records -/

namespace RecordDecoder

lemma mem_of_lookup {α β : Type} [BEq α] [LawfulBEq α] {a : α} {b : β} {ps : List (α × β)}
    (h : ps.lookup a = some b) : (a, b) ∈ ps := by
  obtain ⟨before, after, rfl, -⟩ := List.lookup_eq_some_iff.mp h
  exact List.mem_append_right _ List.mem_cons_self

/-- What a record is made of are documents inside of the one that it is decoded from. -/
lemma exists_of_decode {α : Type} {r : RecordDecoder α} {d : Doc} {a : α} (h : r.decode d = .ok a) :
    ∃ get : String → Option Doc, r.build get = .ok a ∧
      ∀ name part, get name = some part → part.depth < d.depth := by
  have ofMembers {members : List (Option String × Doc)}
      (bound : ∀ m ∈ members, m.2.depth < d.depth) (h : r.ofMembers members = .ok a) :
      ∃ get : String → Option Doc, r.build get = .ok a ∧
        ∀ name part, get name = some part → part.depth < d.depth := by
    obtain ⟨-, -, built⟩ := Except.bind_eq_ok_iff.mp h
    exact ⟨_, built, fun name part found => bound _ (mem_of_lookup found)⟩
  have ofItems {items : List Doc} (bound : Doc.depthOfItems items < d.depth)
      (h : r.ofItems noExtra items = .ok a) :
      ∃ get : String → Option Doc, r.build get = .ok a ∧
        ∀ name part, get name = some part → part.depth < d.depth := by
    obtain ⟨-, -, built⟩ := Except.bind_eq_ok_iff.mp h
    refine ⟨_, built, fun name part found => Nat.lt_of_le_of_lt ?_ bound⟩
    exact Doc.depth_le_of_mem_items (List.of_mem_zip (mem_of_lookup found)).2
  have within {members : List (Option String × Doc)} (m : Option String × Doc) (mem : m ∈ members) :
      m.2.depth < Doc.depthOfMembers members + 1 := Nat.lt_succ_of_le (Doc.depth_le_of_mem_members mem)
  unfold decode decodeWith at h
  split at h
  · exact ofMembers within h
  · exact ofMembers within h
  · exact ofItems (Nat.lt_succ_self _) h
  · exact ofItems (Nat.lt_succ_self _) h
  · exact ofMembers (by simp) h
  · exact ofMembers (by simp) h
  · cases h
  · cases h

@[simp]
lemma map_build_eq_ok_iff {α β : Type} {f : α → β} {r : RecordDecoder α} {get : String → Option Doc} {b : β} :
    (f <$> r).build get = .ok b ↔ ∃ a, r.build get = .ok a ∧ f a = b :=
  Except.map_eq_ok_iff

@[simp] lemma seq_build_eq_ok_iff {α β : Type} {f : RecordDecoder (α → β)} {r : RecordDecoder α}
    {get : String → Option Doc} {b : β} :
    (f <*> r).build get = .ok b ↔ ∃ g a, f.build get = .ok g ∧ r.build get = .ok a ∧ g a = b := by
  change (f.build get >>= fun g => r.build get >>= fun a => .ok (g a)) = .ok b ↔ _
  simp only [Except.bind_eq_ok_iff, Except.ok.injEq, exists_and_left]

section Fields

variable {α : Type} {name : String} {decode : Decoder α} {get : String → Option Doc} {a default : α}

lemma exists_of_required (h : (required name decode).build get = .ok a) :
    ∃ d, get name = some d ∧ decode d = .ok a := by
  simp only [required, single] at h
  split at h
  · rename_i d found
    exact ⟨d, found, h⟩
  · cases h

lemma eq_or_exists_of_orElse (h : (orElse name decode default).build get = .ok a) :
    a = default ∨ ∃ d, get name = some d ∧ decode d = .ok a := by
  simp only [orElse, single] at h
  split at h
  · rename_i d found
    exact .inr ⟨d, found, h⟩
  · exact .inl (Except.ok.inj h).symm

/-- A value that may be lacking and is there is decoded from its document. -/
lemma exists_of_orNone (h : (orNone name decode).build get = .ok (some a)) :
    ∃ d, get name = some d ∧ decode d = .ok a := by
  rcases eq_or_exists_of_orElse h with lacking | ⟨d, found, decoded⟩
  · cases lacking
  · exact ⟨d, found, Decoder.of_optional decoded⟩

end Fields

end RecordDecoder

end Approval
