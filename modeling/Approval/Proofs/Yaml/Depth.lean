import Approval.Proofs.Json.Depth
import Approval.Yaml.Document

/-!
# How deep values of a YAML text nest

A document of a YAML text nests no deeper than the limit. A node that stands for another one counts like
that one.
-/

namespace Approval.Yaml

lemma depth_applyTag (tag : Option Tag) (d : Doc) : (applyTag tag d).depth ≤ d.depth := by
  unfold applyTag
  split
  · exact Nat.le_refl _
  · exact Nat.le_refl _
  all_goals simp [Doc.depth]

lemma depth_withProperties (anchor : Option String) (tag : Option (Option Tag)) (reading : Reading Doc) :
    (withProperties anchor tag reading).1.depth ≤ reading.1.depth := by
  unfold withProperties
  cases anchor <;> exact depth_applyTag _ _

lemma depth_aliased (room : Nat) (d : Doc) : (aliased room d).depth ≤ room := by
  unfold aliased
  split_ifs with fits
  · exact fits
  · exact Nat.zero_le _

lemma depth_listOf {room : Nat} {items : List Doc} (h : Doc.depthOfItems items ≤ room - 1) :
    (listOf room items).depth ≤ room :=
  Doc.depth_enclose_le fun some_room => by
    simp only [Doc.depth]
    omega

lemma depth_objectOf {room : Nat} {members : List (Option String × Doc)}
    (h : Doc.depthOfMembers members ≤ room - 1) : (objectOf room members).depth ≤ room :=
  Doc.depth_enclose_le fun some_room => by
    simp only [Doc.depth]
    omega

/-- What holds of what follows an item, and still holds with the item in front, holds of both. -/
lemma reading_cons {α β : Type} (P : List β → Prop) (item : α → β)
    (others : Anchors → List Token → Option (Reading (List β))) {first : Option (Reading α)}
    {reading : Reading (List β)}
    (follows : ∀ {anchors tokens reading}, others anchors tokens = some reading → P reading.1)
    (cons : ∀ r, first = some r → ∀ rest, P rest → P (item r.1 :: rest))
    (h : (first.bind fun r => (others r.2.1 r.2.2).bind fun rest =>
      some (item r.1 :: rest.1, rest.2.1, rest.2.2)) = some reading) : P reading.1 := by
  obtain ⟨r, front, h⟩ := Option.bind_eq_some_iff.mp h
  obtain ⟨rest, behind, h⟩ := Option.bind_eq_some_iff.mp h
  obtain rfl := Option.some.inj h
  exact cons r front rest.1 (follows behind)

lemma depth_of_absent {room : Nat} {anchors : Anchors} {tokens : List Token} {reading : Reading Doc}
    (h : some (absent, anchors, tokens) = some reading) : reading.1.depth ≤ room := by
  obtain rfl := Option.some.inj h
  exact Nat.zero_le _

/-- What the reading with so much fuel answers nests no deeper than there is room. -/
structure ReadsWithin (fuel : Nat) : Prop where
  node : ∀ {inBlock indentless room anchors tokens reading},
    readNode inBlock indentless room fuel anchors tokens = some reading → reading.1.depth ≤ room
  items : ∀ {room anchors tokens reading},
    readItems room fuel anchors tokens = some reading → Doc.depthOfItems reading.1 ≤ room
  looseItems : ∀ {room anchors tokens reading},
    readLooseItems room fuel anchors tokens = some reading → Doc.depthOfItems reading.1 ≤ room
  members : ∀ {room anchors tokens reading},
    readMembers room fuel anchors tokens = some reading → Doc.depthOfMembers reading.1 ≤ room
  flowValue : ∀ {room anchors tokens reading},
    readFlowValue room fuel anchors tokens = some reading → reading.1.depth ≤ room
  pair : ∀ {room anchors tokens reading},
    readPair room fuel anchors tokens = some reading → reading.1.2.depth ≤ room
  flowItems : ∀ {first room anchors tokens reading},
    readFlowItems first room fuel anchors tokens = some reading → Doc.depthOfItems reading.1 ≤ room
  flowMembers : ∀ {first room anchors tokens reading},
    readFlowMembers first room fuel anchors tokens = some reading → Doc.depthOfMembers reading.1 ≤ room

namespace ReadsWithin

lemma zero : ReadsWithin 0 := by
  constructor
  all_goals
    intros
    rename_i h
    cases h

variable {fuel : Nat}

lemma node_succ (h : ReadsWithin fuel) {inBlock indentless : Bool} {room : Nat} {anchors : Anchors}
    {tokens : List Token} {reading : Reading Doc}
    (read : readNode inBlock indentless room (fuel + 1) anchors tokens = some reading) :
    reading.1.depth ≤ room := by
  simp only [readNode, Option.map_eq_some_iff] at read
  obtain ⟨content, found, rfl⟩ := read
  refine Nat.le_trans (depth_withProperties _ _ _) ?_
  split at found
  · split_ifs at found
    obtain ⟨d, -, rfl⟩ := Option.map_eq_some_iff.mp found
    exact depth_aliased room d
  · obtain rfl := Option.some.inj found
    dsimp only
    split <;> exact Nat.zero_le _
  · obtain ⟨inner, within, rfl⟩ := Option.map_eq_some_iff.mp found
    exact depth_listOf (h.flowItems within)
  · obtain ⟨inner, within, rfl⟩ := Option.map_eq_some_iff.mp found
    exact depth_objectOf (h.flowMembers within)
  · split_ifs at found
    · obtain ⟨inner, within, rfl⟩ := Option.map_eq_some_iff.mp found
      exact depth_listOf (h.looseItems within)
    · obtain rfl := Option.some.inj found
      exact Nat.zero_le _
  · split_ifs at found
    obtain ⟨inner, within, rfl⟩ := Option.map_eq_some_iff.mp found
    exact depth_listOf (h.items within)
  · split_ifs at found
    obtain ⟨inner, within, rfl⟩ := Option.map_eq_some_iff.mp found
    exact depth_objectOf (h.members within)
  · split_ifs at found
    obtain rfl := Option.some.inj found
    exact Nat.zero_le _

lemma items_succ (h : ReadsWithin fuel) {room : Nat} {anchors : Anchors} {tokens : List Token}
    {reading : Reading (List Doc)} (read : readItems room (fuel + 1) anchors tokens = some reading) :
    Doc.depthOfItems reading.1 ≤ room := by
  have cons (d : Doc) (fits : d.depth ≤ room) (ds : List Doc) (within : Doc.depthOfItems ds ≤ room) :
      Doc.depthOfItems (d :: ds) ≤ room := Nat.max_le.mpr ⟨fits, within⟩
  simp only [readItems] at read
  split at read
  · obtain rfl := Option.some.inj read
    exact Nat.zero_le _
  · split at read
    · exact reading_cons _ id (readItems room fuel) h.items (fun r first => cons r.1 (depth_of_absent first)) read
    · exact reading_cons _ id (readItems room fuel) h.items (fun r first => cons r.1 (depth_of_absent first)) read
    · exact reading_cons _ id (readItems room fuel) h.items (fun r first => cons r.1 (h.node first)) read
  · cases read

lemma looseItems_succ (h : ReadsWithin fuel) {room : Nat} {anchors : Anchors} {tokens : List Token}
    {reading : Reading (List Doc)} (read : readLooseItems room (fuel + 1) anchors tokens = some reading) :
    Doc.depthOfItems reading.1 ≤ room := by
  have cons (d : Doc) (fits : d.depth ≤ room) (ds : List Doc) (within : Doc.depthOfItems ds ≤ room) :
      Doc.depthOfItems (d :: ds) ≤ room := Nat.max_le.mpr ⟨fits, within⟩
  simp only [readLooseItems] at read
  split at read
  · split at read
    · exact reading_cons _ id (readLooseItems room fuel) h.looseItems (fun r first => cons r.1 (depth_of_absent first)) read
    · split_ifs at read
      · exact reading_cons _ id (readLooseItems room fuel) h.looseItems (fun r first => cons r.1 (depth_of_absent first)) read
      · exact reading_cons _ id (readLooseItems room fuel) h.looseItems (fun r first => cons r.1 (h.node first)) read
  · obtain rfl := Option.some.inj read
    exact Nat.zero_le _

/-- The members from a value on: the value under its name, and what follows. -/
lemma members_of_value (h : ReadsWithin fuel) {room : Nat} {name : Doc} {first : Option (Reading Doc)}
    {reading : Reading (List (Option String × Doc))} (value : ∀ r, first = some r → r.1.depth ≤ room)
    (read : (first.bind fun r => (readMembers room fuel r.2.1 r.2.2).bind fun rest =>
      some ((keyName name, r.1) :: rest.1, rest.2.1, rest.2.2)) = some reading) :
    Doc.depthOfMembers reading.1 ≤ room :=
  reading_cons _ (fun d => (keyName name, d)) (readMembers room fuel) h.members
    (fun r found _ within => Nat.max_le.mpr ⟨value r found, within⟩) read

lemma members_succ (h : ReadsWithin fuel) {room : Nat} {anchors : Anchors} {tokens : List Token}
    {reading : Reading (List (Option String × Doc))}
    (read : readMembers room (fuel + 1) anchors tokens = some reading) :
    Doc.depthOfMembers reading.1 ≤ room := by
  simp only [readMembers] at read
  split at read
  · obtain rfl := Option.some.inj read
    exact Nat.zero_le _
  · split_ifs at read
    all_goals
      obtain ⟨name, -, read⟩ := Option.bind_eq_some_iff.mp read
      split at read
      · split_ifs at read
        · exact h.members_of_value (fun r => depth_of_absent) read
        · exact h.members_of_value (fun r => h.node) read
      · exact h.members_of_value (fun r => depth_of_absent) read
  · cases read

lemma flowValue_succ (h : ReadsWithin fuel) {room : Nat} {anchors : Anchors} {tokens : List Token}
    {reading : Reading Doc} (read : readFlowValue room (fuel + 1) anchors tokens = some reading) :
    reading.1.depth ≤ room := by
  simp only [readFlowValue] at read
  split at read
  · split_ifs at read
    · obtain rfl := Option.some.inj read
      exact Nat.zero_le _
    · exact h.node read
  · obtain rfl := Option.some.inj read
    exact Nat.zero_le _

lemma pair_succ (h : ReadsWithin fuel) {room : Nat} {anchors : Anchors} {tokens : List Token}
    {reading : Reading (Option String × Doc)}
    (read : readPair room (fuel + 1) anchors tokens = some reading) : reading.1.2.depth ≤ room := by
  simp only [readPair] at read
  split_ifs at read
  all_goals
    obtain ⟨name, -, read⟩ := Option.bind_eq_some_iff.mp read
    obtain ⟨value, found, read⟩ := Option.bind_eq_some_iff.mp read
    obtain rfl := Option.some.inj read
    exact h.flowValue found

/-- The items in brackets from the place of one on. -/
lemma flowItems_of_place (h : ReadsWithin fuel) {room : Nat} {anchors : Anchors} {tokens : List Token}
    {reading : Reading (List Doc)}
    (read : (match tokens with
      | .closeFlowSequence :: rest => some ([], anchors, rest)
      | .key :: rest =>
        (readPair (room - 1) fuel anchors rest).bind fun r =>
          (readFlowItems false room fuel r.2.1 r.2.2).bind fun rs =>
            some (Doc.enclose room (.object [r.1]) :: rs.1, rs.2.1, rs.2.2)
      | rest =>
        (readNode false false room fuel anchors rest).bind fun r =>
          (readFlowItems false room fuel r.2.1 r.2.2).bind fun rs =>
            some (r.1 :: rs.1, rs.2.1, rs.2.2)) = some reading) :
    Doc.depthOfItems reading.1 ≤ room := by
  split at read
  · obtain rfl := Option.some.inj read
    exact Nat.zero_le _
  · refine reading_cons (Doc.depthOfItems · ≤ room) (fun pair => Doc.enclose room (.object [pair]))
      (readFlowItems false room fuel) h.flowItems (fun r found ds within => ?_) read
    have fits : Doc.depthOfMembers [r.1] ≤ room - 1 := Nat.max_le.mpr ⟨h.pair found, Nat.zero_le _⟩
    exact Nat.max_le.mpr ⟨depth_objectOf fits, within⟩
  · exact reading_cons _ id (readFlowItems false room fuel) h.flowItems
      (fun r found ds within => Nat.max_le.mpr ⟨h.node found, within⟩) read

lemma flowItems_succ (h : ReadsWithin fuel) {first : Bool} {room : Nat} {anchors : Anchors}
    {tokens : List Token} {reading : Reading (List Doc)}
    (read : readFlowItems first room (fuel + 1) anchors tokens = some reading) :
    Doc.depthOfItems reading.1 ≤ room := by
  simp only [readFlowItems] at read
  split at read
  · obtain rfl := Option.some.inj read
    exact Nat.zero_le _
  · split at read
    · exact h.flowItems_of_place read
    · exact h.flowItems_of_place read
    · cases read

/-- The members in braces from the place of one on. -/
lemma flowMembers_of_place (h : ReadsWithin fuel) {room : Nat} {anchors : Anchors} {tokens : List Token}
    {reading : Reading (List (Option String × Doc))}
    (read : (match tokens with
      | .closeFlowMapping :: rest => some ([], anchors, rest)
      | .key :: rest =>
        (readPair room fuel anchors rest).bind fun r =>
          (readFlowMembers false room fuel r.2.1 r.2.2).bind fun rs =>
            some (r.1 :: rs.1, rs.2.1, rs.2.2)
      | rest =>
        (readNode false false room fuel anchors rest).bind fun r =>
          (readFlowMembers false room fuel r.2.1 r.2.2).bind fun rs =>
            some ((keyName r.1, absent) :: rs.1, rs.2.1, rs.2.2)) = some reading) :
    Doc.depthOfMembers reading.1 ≤ room := by
  split at read
  · obtain rfl := Option.some.inj read
    exact Nat.zero_le _
  · exact reading_cons _ id (readFlowMembers false room fuel) h.flowMembers
      (fun r found ds within => Nat.max_le.mpr ⟨h.pair found, within⟩) read
  · exact reading_cons _ (fun d => (keyName d, absent)) (readFlowMembers false room fuel)
      h.flowMembers (fun r found ds within => Nat.max_le.mpr ⟨Nat.zero_le _, within⟩) read

lemma flowMembers_succ (h : ReadsWithin fuel) {first : Bool} {room : Nat} {anchors : Anchors}
    {tokens : List Token} {reading : Reading (List (Option String × Doc))}
    (read : readFlowMembers first room (fuel + 1) anchors tokens = some reading) :
    Doc.depthOfMembers reading.1 ≤ room := by
  simp only [readFlowMembers] at read
  split at read
  · obtain rfl := Option.some.inj read
    exact Nat.zero_le _
  · split at read
    · exact h.flowMembers_of_place read
    · exact h.flowMembers_of_place read
    · cases read

end ReadsWithin

lemma readsWithin (fuel : Nat) : ReadsWithin fuel := by
  induction fuel with
  | zero => exact .zero
  | succ fuel ih =>
    exact ⟨ih.node_succ, ih.items_succ, ih.looseItems_succ, ih.members_succ, ih.flowValue_succ, ih.pair_succ,
      ih.flowItems_succ, ih.flowMembers_succ⟩

/-- The document of a text nests no deeper than the limit. -/
theorem depth_of_read? {text : String} {d : Doc} (h : read? text = some d) : d.depth ≤ depthLimit := by
  obtain ⟨tokens, -, h⟩ := Option.bind_eq_some_iff.mp h
  obtain ⟨content, -, h⟩ := Option.bind_eq_some_iff.mp h
  dsimp only at h
  split_ifs at h
  split at h
  all_goals
    obtain ⟨⟨d', rest⟩, read, h⟩ := Option.bind_eq_some_iff.mp h
    dsimp only at h
    split_ifs at h
    obtain rfl := Option.some.inj h
  · obtain ⟨rfl, -⟩ := Prod.mk.inj (Option.some.inj read)
    exact Nat.zero_le _
  · obtain ⟨rfl, -⟩ := Prod.mk.inj (Option.some.inj read)
    exact Nat.zero_le _
  · obtain ⟨rfl, -⟩ := Prod.mk.inj (Option.some.inj read)
    exact Nat.zero_le _
  · obtain ⟨rfl, -⟩ := Prod.mk.inj (Option.some.inj read)
    exact Nat.zero_le _
  · obtain ⟨reading, node, same⟩ := Option.map_eq_some_iff.mp read
    obtain ⟨rfl, -⟩ := Prod.mk.inj same
    exact (readsWithin _).node node

end Approval.Yaml
