import Approval.Proofs.Run.Holding
import Approval.Proofs.Text.ByteOrder

/-!
# Tables

A table holds things under names: some calls create one, and some remove it. If each call does to the rows
what it is for, then after every run the rows are the things that were created and not removed, under names
that are as they must be and that no two of them share, and a list shows them in the order of their names.
-/

namespace Approval

open Work Operation

/-! ### Names -/

/-- The rows have good names, and no two of them share one. -/
structure Named {α : Type} (good : String → Prop) (name : α → String) (rows : List α) : Prop where
  good : ∀ row ∈ rows, good (name row)
  distinct : (rows.map name).Nodup

namespace Named

variable {α : Type} {good : String → Prop} {name : α → String} {rows : List α} {row : α}

lemma append (h : Named good name rows) (last : good (name row)) (new : ∀ y ∈ rows, name y ≠ name row) :
    Named good name (rows ++ [row]) where
  good := by simpa [or_imp, forall_and] using ⟨h.good, last⟩
  distinct := by
    rw [List.map_append, List.nodup_append]
    exact ⟨h.distinct, List.nodup_singleton _, by simpa using new⟩

lemma filter (h : Named good name rows) (keeps : α → Bool) : Named good name (rows.filter keeps) where
  good := fun row mem => h.good row (List.mem_of_mem_filter mem)
  distinct := h.distinct.sublist (List.filter_sublist.map _)

lemma map (h : Named good name rows) {f : α → α} (same : ∀ x, name (f x) = name x) :
    Named good name (rows.map f) where
  good := by simpa [same] using h.good
  distinct := by simpa [Function.comp_def, same] using h.distinct

/-- Sorted by their names, the rows ascend strictly. -/
lemma pairwise_byName (h : Named good name rows) : ((Store.byName name rows).map name).Pairwise (· < ·) := by
  have sorted : ((Store.byName name rows).map name).Pairwise (· ≤ ·) := by
    rw [List.pairwise_map]
    refine (List.pairwise_mergeSort (fun a b c => ?_) (fun a b => ?_) rows).imp ?_
    · simpa using le_trans
    · simpa using le_total _ _
    · simp
  have names : ((Store.byName name rows).map name).Nodup :=
    (((List.mergeSort_perm rows _).map name).nodup_iff).mpr h.distinct
  exact (sorted.and names).imp fun ⟨le, ne⟩ => lt_of_le_of_ne le ne

end Named

/-! ### Tables -/

/-- A table of the store. What a row is does not change but for the parts that its core leaves out. -/
structure Table (α : Type) where
  rows : Store → List α
  name : α → String
  /-- What names must be like. -/
  good : String → Prop
  read : α → Option α
  /-- The thing without what may change of it. -/
  core : α → α
  create? : ServiceCall → Option (Operation α)
  removes : ServiceCall → α → Bool
  /-- The acts that create rows which can be read. -/
  legible : Act → Prop
  empty : rows {} = []
  name_core : ∀ x, name (core x) = name x
  name_read : ∀ x y, read x = some y → name y = name x
  read_core : ∀ x, read (core x) = (read x).map core
  removes_core : ∀ call x, removes call (core x) = removes call x
  removes_of_create : ∀ call op x, create? call = some op → removes call x = false

namespace Table

variable {α : Type} {T : Table α} {acts : List Act} {a : Act} {k x y : α}

lemma name_eq_of_core (same : T.core x = T.core y) : T.name x = T.name y := by
  rw [← T.name_core x, same, T.name_core]

@[simp] lemma isSome_read_core (x : α) : (T.read (T.core x)).isSome = (T.read x).isSome := by
  rw [T.read_core, Option.isSome_map]

lemma isSome_read_of_core (same : T.core x = T.core y) : (T.read x).isSome = (T.read y).isSome := by
  rw [← isSome_read_core x, same, isSome_read_core]

/-! ### What stands -/

variable [Supply]

/-- After the acts, one more creates the thing: it answers with it. -/
def Creates (T : Table α) (acts : List Act) (a : Act) (k : α) : Prop :=
  ∃ op x w', T.create? a.call = some op ∧ op a.context (World.after {} acts) = (.ok x, w') ∧ T.core x = k

/-- After the acts, one more removes the thing: it names it and answers. -/
def Removes (T : Table α) (acts : List Act) (a : Act) (k : α) : Prop :=
  T.removes a.call k = true ∧ a.call.Answers a.context (World.after {} acts)

/-- The thing was created by one of the acts and has not been removed since. -/
inductive Stands (T : Table α) : List Act → α → Prop
  | created {acts : List Act} {a : Act} {k : α} (creates : T.Creates acts a k) : Stands T (acts ++ [a]) k
  | kept {acts : List Act} {a : Act} {k : α} (before : Stands T acts k) (stays : ¬T.Removes acts a k) :
      Stands T (acts ++ [a]) k

lemma not_stands_nil : ¬T.Stands [] k := by
  generalize none : ([] : List Act) = acts
  intro stands
  cases stands <;> simp at none

@[simp] lemma stands_append_singleton :
    T.Stands (acts ++ [a]) k ↔ T.Creates acts a k ∨ (T.Stands acts k ∧ ¬T.Removes acts a k) := by
  constructor
  · generalize whole : acts ++ [a] = run
    intro stands
    cases stands with
    | created creates =>
      obtain ⟨rfl, same⟩ := List.append_inj' whole rfl
      cases same
      exact .inl creates
    | kept before stays =>
      obtain ⟨rfl, same⟩ := List.append_inj' whole rfl
      cases same
      exact .inr ⟨before, stays⟩
  · rintro (creates | ⟨before, stays⟩)
    · exact .created creates
    · exact .kept before stays

/-! ### What calls do to the rows -/

variable {c : Context} {w w' : World} {call : ServiceCall}

/-- What a call does to the rows of a table: it adds the thing that it answers with, takes away those that it
names, or changes what may change of them. -/
inductive Step (T : Table α) (c : Context) (w : World) (call : ServiceCall) : List α → Prop
  | created {op : Operation α} {x row : α} {w' : World} (creates : T.create? call = some op)
      (answers : op c w = (.ok x, w')) (same : T.core row = T.core x) (good : T.good (T.name row))
      (new : ∀ y ∈ T.rows w.store, T.name y ≠ T.name row)
      (reads : T.legible ⟨c, call⟩ → (T.read row).isSome = true) :
      Step T c w call (T.rows w.store ++ [row])
  | removed (creates : T.create? call = none) (answers : call.Answers c w) :
      Step T c w call ((T.rows w.store).filter fun x => !T.removes call x)
  | kept {f : α → α} (creates : ∀ op x w', T.create? call = some op → op c w ≠ (.ok x, w'))
      (stays : ∀ x, T.removes call x = true → ¬call.Answers c w) (same : ∀ x, T.core (f x) = T.core x) :
      Step T c w call ((T.rows w.store).map f)

/-- Every call does to the rows of the table what it is for. -/
def Follows (T : Table α) : Prop :=
  ∀ (c : Context) (w : World) (call : ServiceCall), w.store.Keyed →
    T.Step c w call (T.rows (call.run c w).store)

namespace Step

/-- A call that neither creates nor removes changes what may change. -/
lemma of_map {f : α → α} {rows : List α} (creates : T.create? call = none) (removes : ∀ x, T.removes call x = false)
    (same : ∀ x, T.core (f x) = T.core x) (changed : rows = (T.rows w.store).map f) : T.Step c w call rows := by
  rw [changed]
  refine .kept (fun op x w' known => ?_) (fun x names => ?_) same
  · rw [creates] at known
    exact absurd known (by simp)
  · rw [removes] at names
    exact absurd names (by simp)

/-- A call that neither creates nor removes may change nothing. -/
lemma of_same {rows : List α} (creates : T.create? call = none) (removes : ∀ x, T.removes call x = false)
    (unchanged : rows = T.rows w.store) : T.Step c w call rows :=
  of_map (f := id) creates removes (fun _ => rfl) (by rw [unchanged, List.map_id])

/-- A call that fails may change nothing. -/
lemma of_failed {rows : List α} (creates : ∀ op x w', T.create? call = some op → op c w ≠ (.ok x, w'))
    (stays : ∀ x, T.removes call x = true → ¬call.Answers c w) (unchanged : rows = T.rows w.store) :
    T.Step c w call rows := by
  rw [unchanged, ← List.map_id (T.rows w.store)]
  exact .kept creates stays fun _ => rfl

/-- A call that removes and answers takes away what it names. -/
lemma of_filter {rows : List α} (creates : T.create? call = none) (answers : call.Answers c w)
    (left : rows = (T.rows w.store).filter fun x => !T.removes call x) : T.Step c w call rows := by
  rw [left]
  exact .removed creates answers

/-- A call that creates adds what it answers with, or fails and changes nothing. -/
lemma of_create {op : Operation α} (creates : T.create? call = some op) (runs : call.run c w = (op c w).2)
    (atomic : op.Atomic)
    (adds : ∀ x w', op c w = (.ok x, w') → ∃ row, T.rows w'.store = T.rows w.store ++ [row] ∧
      T.core row = T.core x ∧ T.good (T.name row) ∧ (∀ y ∈ T.rows w.store, T.name y ≠ T.name row) ∧
      (T.legible ⟨c, call⟩ → (T.read row).isSome = true)) :
    T.Step c w call (T.rows (call.run c w).store) := by
  rw [runs]
  rcases ran : op c w with ⟨e | x, w'⟩
  · obtain rfl := atomic c w e w' ran
    refine of_failed (fun other x v known answers => ?_) (fun x names => ?_) rfl
    · cases creates.symm.trans known
      exact absurd (ran.symm.trans answers) (by simp)
    · rw [T.removes_of_create call op x creates] at names
      exact absurd names (by simp)
  · obtain ⟨row, added, same, good, new, reads⟩ := adds x w' ran
    rw [added]
    exact .created creates ran same good new reads

end Step

/-! ### What the rows are -/

/-- The rows are those of the table after acts: what stands, under names that are good and distinct. -/
structure Registers (T : Table α) (acts : List Act) (rows : List α) : Prop where
  stands_iff : ∀ k, (∃ row ∈ rows, T.core row = k) ↔ T.Stands acts k
  named : Named T.good T.name rows
  reads : (∀ a ∈ acts, T.legible a) → ∀ row ∈ rows, (T.read row).isSome = true

namespace Registers

variable {rows : List α} {row : α} {op : Operation α}

lemma created (h : T.Registers acts rows) (creates : T.create? a.call = some op)
    (answers : op a.context (World.after {} acts) = (.ok x, w')) (same : T.core row = T.core x)
    (good : T.good (T.name row)) (new : ∀ y ∈ rows, T.name y ≠ T.name row)
    (reads : T.legible a → (T.read row).isSome = true) : T.Registers (acts ++ [a]) (rows ++ [row]) where
  stands_iff k := by
    have made : T.Creates acts a k ↔ T.core row = k := by
      constructor
      · rintro ⟨_, y, v, known, answered, rfl⟩
        cases creates.symm.trans known
        cases answers.symm.trans answered
        exact same
      · rintro rfl
        exact ⟨op, x, w', creates, answers, same.symm⟩
    have stays : ¬T.Removes acts a k := by
      simp [Removes, T.removes_of_create a.call op k creates]
    rw [stands_append_singleton, ← h.stands_iff, made, and_iff_left stays]
    simp only [List.mem_append, List.mem_singleton, or_and_right, exists_or, exists_eq_left]
    exact or_comm
  named := h.named.append good new
  reads all := by
    obtain ⟨before, last⟩ := List.forall_mem_append.mp all
    simpa [or_imp, forall_and] using ⟨h.reads before, reads (last a (by simp))⟩

lemma removed (h : T.Registers acts rows) (creates : T.create? a.call = none)
    (answers : a.call.Answers a.context (World.after {} acts)) :
    T.Registers (acts ++ [a]) (rows.filter fun x => !T.removes a.call x) where
  stands_iff k := by
    have made : ¬T.Creates acts a k := fun ⟨op, _, _, known, _⟩ => by simp [creates] at known
    have named : T.Removes acts a k ↔ T.removes a.call k = true := and_iff_left answers
    rw [stands_append_singleton, ← h.stands_iff, or_iff_right made, named]
    simp only [List.mem_filter, Bool.not_eq_eq_eq_not, Bool.not_true]
    constructor
    · rintro ⟨row, ⟨stored, other⟩, rfl⟩
      exact ⟨⟨row, stored, rfl⟩, by simp [T.removes_core, other]⟩
    · rintro ⟨⟨row, stored, rfl⟩, other⟩
      exact ⟨row, ⟨stored, by simpa [T.removes_core] using other⟩, rfl⟩
  named := h.named.filter _
  reads all := fun row mem => h.reads (List.forall_mem_append.mp all).1 row (List.mem_of_mem_filter mem)

lemma kept (h : T.Registers acts rows) {f : α → α} (creates : ∀ k, ¬T.Creates acts a k)
    (stays : ∀ k, ¬T.Removes acts a k) (same : ∀ x, T.core (f x) = T.core x) :
    T.Registers (acts ++ [a]) (rows.map f) where
  stands_iff k := by
    rw [stands_append_singleton, ← h.stands_iff, or_iff_right (creates k), and_iff_left (stays k)]
    simp only [List.mem_map, exists_exists_and_eq_and, same]
  named := h.named.map fun x => name_eq_of_core (same x)
  reads all := by
    simp only [List.forall_mem_map, isSome_read_of_core (same _)]
    exact h.reads (List.forall_mem_append.mp all).1

lemma append_singleton (h : T.Registers acts (T.rows (World.after {} acts).store))
    (step : T.Step a.context (World.after {} acts) a.call rows) : T.Registers (acts ++ [a]) rows := by
  cases step with
  | created creates answers same good new reads => exact h.created creates answers same good new reads
  | removed creates answers => exact h.removed creates answers
  | kept creates stays same =>
    exact h.kept (fun k ⟨op, x, v, known, answers, _⟩ => creates op x v known answers)
      (fun k removes => stays k removes.1 removes.2) same

end Registers

/-- After every run the rows of a table are what stands. -/
theorem Follows.registers (h : T.Follows) (acts : List Act) :
    T.Registers acts (T.rows (World.after {} acts).store) := by
  -- The induction takes acts off the end, since what an act creates depends on the acts before it.
  induction acts using List.reverseRecOn with
  | nil =>
    have none_there : T.rows (World.after {} []).store = [] := T.empty
    rw [none_there]
    exact ⟨fun k => by simp [not_stands_nil], ⟨by simp, by simp⟩, by simp⟩
  | append_singleton acts a ih =>
    refine ih.append_singleton ?_
    rw [World.after_append]
    exact h a.context _ a.call (World.keyed_after acts)

/-! ### Lists -/

/-- The rows in the order of their names, as they are read. -/
def list (T : Table α) : Operation (List α) :=
  Operation.read fun s => Store.readAll T.read (Store.byName T.name (T.rows s))

/-- A list shows a table after acts: in the order of the bytes of the names, it has the rows as they read, which
are all that stands and nothing else. -/
structure Shows (T : Table α) (acts : List Act) (xs : List α) : Prop where
  ascends : xs.Pairwise fun x y => Text.bytes (T.name x) < Text.bytes (T.name y)
  mem_iff : ∀ x, x ∈ xs ↔ ∃ row ∈ T.rows (World.after {} acts).store, T.read row = some x
  complete : ∀ k, T.Stands acts k → ∃ x ∈ xs, T.read k = some (T.core x)
  sound : ∀ x ∈ xs, ∃ k, T.Stands acts k ∧ T.read k = some (T.core x)

/-- What a list answers after acts. It changes nothing. -/
structure Lists (T : Table α) (list : Operation (List α)) (acts : List Act) : Prop where
  /-- Where all rows can be read, the list shows the table. -/
  answers : (∀ row ∈ T.rows (World.after {} acts).store, (T.read row).isSome = true) → ∀ c, ∃ xs,
    list c (World.after {} acts) = (.ok xs, World.after {} acts) ∧ T.Shows acts xs
  /-- It fails where one cannot be read. -/
  fails : (¬∀ row ∈ T.rows (World.after {} acts).store, (T.read row).isSome = true) → ∀ c,
    list c (World.after {} acts) = (.error (.ofStore Store.unreadable), World.after {} acts)
  reads : (∀ a ∈ acts, T.legible a) →
    ∀ row ∈ T.rows (World.after {} acts).store, (T.read row).isSome = true

omit [Supply] in
@[simp]
lemma mem_byName {name : α → String} {rows : List α} : x ∈ Store.byName name rows ↔ x ∈ rows :=
  List.mem_mergeSort

lemma Registers.shows {xs : List α} (h : T.Registers acts (T.rows (World.after {} acts).store))
    (read : Store.readAll T.read (Store.byName T.name (T.rows (World.after {} acts).store)) = .ok xs) :
    T.Shows acts xs := by
  generalize stored : T.rows (World.after {} acts).store = rows at h read
  have each := (forall₂_of_mapM_except read).imp fun _ _ => Store.read_eq_ok_iff.mp
  have names : xs.map T.name = (Store.byName T.name rows).map T.name := by
    rw [← List.forall₂_eq_eq_eq, List.forall₂_map_left_iff, List.forall₂_map_right_iff]
    exact each.flip.imp fun x row reads => T.name_read row x reads
  have mem_iff (x : α) : x ∈ xs ↔ ∃ row ∈ rows, T.read row = some x := by
    constructor
    · intro mem
      obtain ⟨row, sorted, reads⟩ := exists_of_forall₂_right each mem
      exact ⟨row, mem_byName.mp sorted, reads⟩
    · rintro ⟨row, mem, reads⟩
      obtain ⟨y, listed, same⟩ := exists_of_forall₂_right each.flip (mem_byName.mpr mem)
      cases reads.symm.trans same
      exact listed
  refine ⟨?_, stored ▸ mem_iff, fun k stands => ?_, fun x mem => ?_⟩
  · have ascends := h.named.pairwise_byName
    rw [← names, List.pairwise_map] at ascends
    exact ascends.imp Text.bytes_lt_iff.mpr
  · obtain ⟨row, among, rfl⟩ := (h.stands_iff k).mpr stands
    obtain ⟨x, mem, reads⟩ := exists_of_forall₂_right each.flip (mem_byName.mpr among)
    exact ⟨x, mem, by rw [T.read_core, reads]; rfl⟩
  · obtain ⟨row, among, reads⟩ := (mem_iff x).mp mem
    exact ⟨T.core row, (h.stands_iff _).mp ⟨row, among, rfl⟩, by rw [T.read_core, reads]; rfl⟩

theorem Registers.lists (h : T.Registers acts (T.rows (World.after {} acts).store)) : T.Lists T.list acts where
  answers readable c := by
    obtain ⟨xs, read⟩ := Store.exists_readAll fun row mem =>
      Option.isSome_iff_exists.mp (readable row (mem_byName.mp mem))
    exact ⟨xs, Operation.read_eq_ok_iff.mpr ⟨read, rfl⟩, h.shows read⟩
  fails unreadable c := by
    push Not at unreadable
    obtain ⟨row, stored, unread⟩ := unreadable
    have none_read : T.read row = none := by simpa using unread
    exact Operation.read_eq_error_iff.mpr
      ⟨_, Store.readAll_of_none (mem_byName.mpr stored) none_read, rfl, rfl⟩
  reads := h.reads

end Table

end Approval
