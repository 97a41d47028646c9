import Approval.Proofs.Wire.Decoder
import Approval.Wire.Record

/-!
# Records read back

A record that was decoded from JSON text, in whatever way its fields stood there, is written as an object with a
member for each of them. From that object each field is decoded again as it was.
-/

namespace Approval

/-! ### Objects -/

lemma lookup_of_mem {α β : Type} [BEq α] [LawfulBEq α] {ps : List (α × β)} (distinct : (ps.map Prod.fst).Nodup)
    {a : α} {b : β} (mem : (a, b) ∈ ps) : ps.lookup a = some b := by
  induction ps with
  | nil => cases mem
  | cons p ps ih =>
    obtain ⟨new, distinct⟩ := List.nodup_cons.mp distinct
    rcases List.mem_cons.mp mem with rfl | mem
    · exact List.lookup_cons_self
    · have ne : ¬a = p.1 := fun same => new (same ▸ List.mem_map_of_mem mem)
      rw [List.lookup_cons, beq_false_of_ne ne, ih distinct mem]

namespace Json

/-- An object whose members have distinct names, all of them among those given. -/
def IsObjectOf (names : List String) (v : Json) : Prop :=
  ∃ ms, v = .object ms ∧ (ms.map Prod.fst).Nodup ∧ ms.map Prod.fst ⊆ names

lemma depthOfMembers_le {ms : List (String × Json)} {n : Nat} (h : ∀ m ∈ ms, m.2.depth ≤ n) :
    depthOfMembers ms ≤ n := by
  induction ms with
  | nil => exact Nat.zero_le _
  | cons m ms ih =>
    obtain ⟨first, rest⟩ := List.forall_mem_cons.mp h
    exact Nat.max_le.mpr ⟨first, ih rest⟩

end Json

namespace RecordDecoder

@[simp] lemma findMember_ofMembers (ms : List (String × Json)) (name : String) :
    findMember (Doc.ofMembers ms) name = (ms.lookup name).map Doc.ofJson := by
  unfold findMember
  induction ms with
  | nil => rfl
  | cons m ms ih =>
    rw [Doc.ofMembers, List.lookup_cons, List.lookup_cons]
    by_cases same : name = m.1
    · simp [same]
    · simp [beq_false_of_ne same, ih]

variable {α β : Type} {name : String} {decode : Decoder α} {write : α → Json} {get : String → Option Doc}
  {v : Json} {room level : Nat}

/-- The names of the fields. -/
def names (r : RecordDecoder α) : List String := r.fields.map (·.name)

section Names

variable {f : α → β} {r : RecordDecoder α} {g : RecordDecoder (α → β)} {default : α}

@[simp] lemma names_map : (f <$> r).names = r.names := rfl

@[simp] lemma names_seq : (g <*> r).names = g.names ++ r.names := List.map_append

@[simp] lemma names_required : (required name decode).names = [name] := rfl

@[simp] lemma names_maybe : (maybe name decode).names = [name] := rfl

@[simp] lemma names_orElse : (orElse name decode default).names = [name] := rfl

@[simp] lemma names_orNone : (orNone name decode).names = [name] := rfl

end Names

/-- What stands for the fields is JSON and nests at most so deep. -/
def Supplies (get : String → Option Doc) (room : Nat) : Prop :=
  ∀ name part, get name = some part → part.IsJson ∧ part.depth ≤ room

/-- What a record is decoded from stands inside of an object or a list. -/
lemma exists_supply {r : RecordDecoder α} {d : Doc} {a : α} (shape : d.IsJson) (h : r.decode d = .ok a) :
    ∃ get, r.build get = .ok a ∧ Supplies get (d.depth - 1) ∧ 0 < d.depth := by
  cases d with
  | object members =>
    obtain ⟨-, -, built⟩ := Except.bind_eq_ok_iff.mp h
    refine ⟨_, built, fun name part found => ?_, Nat.succ_pos _⟩
    have mem := mem_of_lookup found
    exact ⟨Doc.membersJson_iff.mp shape _ mem, Doc.depth_le_of_mem_members mem⟩
  | list items =>
    obtain ⟨-, -, built⟩ := Except.bind_eq_ok_iff.mp h
    refine ⟨_, built, fun name part found => ?_, Nat.succ_pos _⟩
    have mem := (List.of_mem_zip (mem_of_lookup found)).2
    exact ⟨Doc.itemsJson_iff.mp shape _ mem, Doc.depth_le_of_mem_items mem⟩
  | plain | declared | tagged => exact shape.elim
  | _ => cases h

/-! ### Building again -/

/-- The members of `v` make the record `a` and pass the checks of its fields. They nest at most so deep. -/
structure Rebuilds (r : RecordDecoder α) (v : Json) (room : Nat) (a : α) : Prop where
  build : ∀ get, (∀ f ∈ r.fields, get f.name = (v.member? f.name).map Doc.ofJson) → r.build get = .ok a
  check : ∀ f ∈ r.fields, ∀ u, v.member? f.name = some u → f.check (Doc.ofJson u) = .ok ()
  depth_le : ∀ f ∈ r.fields, ∀ u, v.member? f.name = some u → u.depth ≤ room

@[simp] lemma forall_map_build {f : α → β} {r : RecordDecoder α} {P : β → Prop} :
    (∀ b, (f <$> r).build get = .ok b → P b) ↔ ∀ a, r.build get = .ok a → P (f a) := by
  simp only [map_build_eq_ok_iff]
  constructor
  · exact fun h a built => h _ ⟨a, built, rfl⟩
  · rintro h _ ⟨a, built, rfl⟩
    exact h a built

/-- All that a sequence may make comes from what its parts make. -/
@[simp] lemma forall_seq_build {f : RecordDecoder (α → β)} {r : RecordDecoder α} {P : β → Prop} :
    (∀ b, (f <*> r).build get = .ok b → P b) ↔
      ∀ g, f.build get = .ok g → ∀ a, r.build get = .ok a → P (g a) := by
  simp only [seq_build_eq_ok_iff]
  constructor
  · exact fun h g first a second => h _ ⟨g, a, first, second, rfl⟩
  · rintro h _ ⟨g, a, first, second, rfl⟩
    exact h g first a second

namespace Rebuilds

lemma map {r : RecordDecoder α} {a : α} (f : α → β) (h : r.Rebuilds v room a) :
    (f <$> r).Rebuilds v room (f a) where
  build get found := map_build_eq_ok_iff.mpr ⟨a, h.build get found, rfl⟩
  check := h.check
  depth_le := h.depth_le

lemma seq {f : RecordDecoder (α → β)} {r : RecordDecoder α} {g : α → β} {a : α} (first : f.Rebuilds v room g)
    (second : r.Rebuilds v room a) : (f <*> r).Rebuilds v room (g a) where
  build get found := by
    obtain ⟨left, right⟩ := List.forall_mem_append.mp found
    exact seq_build_eq_ok_iff.mpr ⟨g, a, first.build get left, second.build get right, rfl⟩
  check := List.forall_mem_append.mpr ⟨first.check, second.check⟩
  depth_le := List.forall_mem_append.mpr ⟨first.depth_le, second.depth_le⟩

/-- It matters only which members there are for the fields. -/
lemma congr {r : RecordDecoder α} {w : Json} {a : α} (h : r.Rebuilds v room a)
    (same : ∀ name ∈ r.names, w.member? name = v.member? name) : r.Rebuilds w room a := by
  have same' {f : FieldRule} (mem : f ∈ r.fields) : w.member? f.name = v.member? f.name :=
    same _ (List.mem_map_of_mem mem)
  exact
    { build := fun get found => h.build get fun f mem => same' mem ▸ found f mem
      check := fun f mem u there => h.check f mem u (same' mem ▸ there)
      depth_le := fun f mem u there => h.depth_le f mem u (same' mem ▸ there) }

/-- A field whose member is there. -/
lemma present {defaulted : Bool} {absent : Except DecodeFault α} {u : Json} {a : α}
    (found : v.member? name = some u) (decoded : decode (Doc.ofJson u) = .ok a) (depth : u.depth ≤ room) :
    (single name decode defaulted absent).Rebuilds v room a where
  build get given := by
    have member : get name = some (Doc.ofJson u) := by
      rw [given _ (List.mem_singleton_self _), found]
      rfl
    simp only [single, member, decoded]
  check := List.forall_mem_singleton.mpr fun w there => by
    obtain rfl := Option.some.inj (found.symm.trans there)
    simp only [decoded]
    rfl
  depth_le := List.forall_mem_singleton.mpr fun w there => by
    obtain rfl := Option.some.inj (found.symm.trans there)
    exact depth

/-- A field whose member is left out. -/
lemma absent {defaulted : Bool} {a : α} (lacking : v.member? name = none) :
    (single name decode defaulted (.ok a)).Rebuilds v room a where
  build get given := by
    have member : get name = none := by
      rw [given _ (List.mem_singleton_self _), lacking]
      rfl
    simp only [single, member]
  check := List.forall_mem_singleton.mpr fun w there => nomatch lacking.symm.trans there
  depth_le := List.forall_mem_singleton.mpr fun w there => nomatch lacking.symm.trans there

/-! ### Fields -/

variable (settles : Decoder.Settles decode write 0) (supply : Supplies get room)
include settles supply

/-- A field is written as what was decoded for it or, if nothing was, as what it reads as then. -/
lemma field {defaulted : Bool} {absent : Except DecodeFault α} {a : α}
    (built : (single name decode defaulted absent).build get = .ok a) (found : v.member? name = some (write a))
    (lacking : absent = .ok a → decode (Doc.ofJson (write a)) = .ok a ∧ (write a).depth ≤ room) :
    (single name decode defaulted absent).Rebuilds v room a := by
  rcases there : get name with _ | part
  · simp only [single, there] at built
    exact present found (lacking built).1 (lacking built).2
  · simp only [single, there] at built
    obtain ⟨shape, depth⟩ := supply _ _ there
    exact present found (settles.again shape built)
      (Nat.le_trans (settles.depth_le shape built) (Nat.max_le.mpr ⟨depth, Nat.zero_le _⟩))

lemma required {a : α} (built : (required name decode).build get = .ok a)
    (found : v.member? name = some (write a)) : (RecordDecoder.required name decode).Rebuilds v room a :=
  field settles supply built found fun absent => nomatch absent

lemma orElse {default a : α} (built : (orElse name decode default).build get = .ok a)
    (found : v.member? name = some (write a)) (again : decode (Doc.ofJson (write default)) = .ok default)
    (depth : (write default).depth ≤ room) : (RecordDecoder.orElse name decode default).Rebuilds v room a :=
  field settles supply built found fun absent => Except.ok.inj absent ▸ ⟨again, depth⟩

lemma maybe {o : Option α} (built : (maybe name decode).build get = .ok o)
    (found : v.member? name = some (Json.ofOption write o)) :
    (RecordDecoder.maybe name decode).Rebuilds v room o :=
  field settles.optional supply built found fun absent => Except.ok.inj absent ▸ ⟨rfl, Nat.zero_le _⟩

lemma orNone {o : Option α} (built : (orNone name decode).build get = .ok o)
    (found : v.member? name = some (Json.ofOption write o)) :
    (RecordDecoder.orNone name decode).Rebuilds v room o :=
  orElse settles.optional supply built found rfl (Nat.zero_le _)

/-- A field that may be left out is left out when it is none. -/
lemma leftOut {o : Option α} (built : (RecordDecoder.orNone name decode).build get = .ok o)
    (found : v.member? name = o.map write) : (RecordDecoder.orNone name decode).Rebuilds v room o := by
  cases o with
  | none => exact absent found
  | some a => exact orNone settles supply built found

end Rebuilds

/-! ### The whole record -/

section Record

variable {r : RecordDecoder α} {a : α}

lemma checkMembers_ofMembers {fields : List FieldRule} {seen : List String} {ms : List (String × Json)}
    (distinct : (ms.map Prod.fst).Nodup) (new : ∀ m ∈ ms, m.1 ∉ seen)
    (passes : ∀ m ∈ ms, ∀ f ∈ fields, f.name = m.1 → f.check (Doc.ofJson m.2) = .ok ()) :
    checkMembers fields seen (Doc.ofMembers ms) = .ok () := by
  induction ms generalizing seen with
  | nil => rfl
  | cons m ms ih =>
    obtain ⟨fresh, distinct⟩ := List.nodup_cons.mp distinct
    obtain ⟨first, new⟩ := List.forall_mem_cons.mp new
    obtain ⟨pass, passes⟩ := List.forall_mem_cons.mp passes
    rw [Doc.ofMembers, checkMembers]
    split
    · rename_i f known
      have same : f.name = m.1 := by simpa using List.find?_some known
      have later : ∀ n ∈ ms, n.1 ∉ m.1 :: seen := fun n mem among => by
        rcases List.mem_cons.mp among with same | among
        · exact fresh (same ▸ List.mem_map_of_mem mem)
        · exact new n mem among
      rw [if_neg (by simpa using first), pass f (List.mem_of_find?_eq_some known) same]
      exact ih distinct later passes
    · rw [Decoder.skip, if_pos (Doc.sound_ofJson _)]
      exact ih distinct new passes

/-- From an object that makes the record the record is decoded. -/
lemma Rebuilds.decode_eq {ms : List (String × Json)} (h : r.Rebuilds (.object ms) room a)
    (distinct : (ms.map Prod.fst).Nodup) : r.decode (.object (Doc.ofMembers ms)) = .ok a := by
  have passes : ∀ m ∈ ms, ∀ f ∈ r.fields, f.name = m.1 → f.check (Doc.ofJson m.2) = .ok () :=
    fun m mem f known same => h.check f known m.2 (same ▸ lookup_of_mem distinct mem)
  change (checkMembers r.fields [] (Doc.ofMembers ms) >>= fun _ => r.build (findMember (Doc.ofMembers ms))) = _
  rw [checkMembers_ofMembers distinct (by simp) passes]
  exact h.build _ fun f _ => findMember_ofMembers ms f.name

/-- An object that makes the record nests no deeper than its fields and what else is in it. -/
lemma Rebuilds.depthOfMembers_le {ms : List (String × Json)} (h : r.Rebuilds (.object ms) room a)
    (distinct : (ms.map Prod.fst).Nodup) (shallow : ∀ m ∈ ms, m.1 ∈ r.names ∨ m.2.depth ≤ room) :
    Json.depthOfMembers ms ≤ room :=
  Json.depthOfMembers_le fun m mem => by
    rcases shallow m mem with named | fits
    · obtain ⟨f, mem', same⟩ := List.mem_map.mp named
      exact h.depth_le f mem' m.2 (same ▸ lookup_of_mem distinct mem)
    · exact fits

/-- A record settles if what is written for it makes it again. -/
lemma settles (isObject : ∀ a, (write a).IsObjectOf r.names)
    (rebuilds : ∀ {get room}, Supplies get room → level ≤ room + 1 →
      ∀ a, r.build get = .ok a → r.Rebuilds (write a) room a) : Decoder.Settles r.decode write level := by
  have again {d : Doc} {a : α} (shape : d.IsJson) (decoded : r.decode d = .ok a) :
      0 < d.depth ∧ r.Rebuilds (write a) (max d.depth level - 1) a := by
    obtain ⟨get, built, supply, deep⟩ := exists_supply shape decoded
    have supply' : Supplies get (max d.depth level - 1) := fun name part found =>
      ⟨(supply name part found).1, Nat.le_trans (supply name part found).2 (by omega)⟩
    exact ⟨deep, rebuilds supply' (by omega) a built⟩
  refine ⟨fun {d a} shape decoded => ?_, fun {d a} shape decoded => ?_, fun {d a} _ _ null => ?_⟩
  all_goals obtain ⟨ms, written, distinct, known⟩ := isObject a
  · have rebuilt := (again shape decoded).2
    rw [written] at rebuilt ⊢
    exact rebuilt.decode_eq distinct
  · obtain ⟨deep, rebuilt⟩ := again shape decoded
    rw [written] at rebuilt ⊢
    have depth := rebuilt.depthOfMembers_le distinct fun m mem => .inl (known (List.mem_map_of_mem mem))
    rw [Json.depth]
    omega
  · cases written.symm.trans null

end Record

end RecordDecoder

end Approval
