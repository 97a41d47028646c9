import Approval.Proofs.Run.Basic
import Approval.Proofs.Service.Requests
import Approval.Proofs.Store.Open

/-!
# The list of requests in pages

The rows that match a filter are put in order by the texts of the times of their creation, which is the order
of these times, and a page is cut out of them. So the pages, one after the other, are all that matches.
-/

namespace Approval

/-! ### Pages of a list -/

/-- Pages of one size, put together, are the beginning of the list. -/
lemma flatMap_drop_take {α : Type} (as : List α) (size count : Nat) :
    ((List.range count).flatMap fun k => (as.drop (k * size)).take size) = as.take (count * size) := by
  induction count with
  | zero => simp
  | succ count ih => rw [List.range_succ, List.flatMap_append, ih, Nat.succ_mul, List.take_add, List.flatMap_singleton]

/-! ### The rows that match -/

/-- A request as its row is read; a row that does not read back stays as it is. -/
def Request.asRead (r : Request) : Request := r.readBack?.getD r

lemma Request.readBack?_eq_asRead {row : Request} (h : ∃ r, row.readBack? = some r) :
    row.readBack? = some row.asRead := by
  obtain ⟨r, reads⟩ := h
  rw [asRead, reads, Option.getD_some]

@[simp] lemma Request.asRead_createdAt (row : Request) : row.asRead.createdAt = row.createdAt := by
  unfold asRead
  cases reads : row.readBack? with
  | none => rfl
  | some r => exact createdAt_of_readBack? reads

namespace Store

/-- The rows that a filter asks for, the latest first. -/
def matching (s : Store) (f : RequestFilter) : List Request := latestFirst (s.requests.filter f.accepts)

variable {s : Store} {f : RequestFilter}

lemma matching_perm (s : Store) (f : RequestFilter) : (s.matching f).Perm (s.requests.filter f.accepts) :=
  List.mergeSort_perm _ _

@[simp]
lemma mem_matching {r : Request} : r ∈ s.matching f ↔ r ∈ s.requests ∧ f.accepts r = true := by
  rw [(s.matching_perm f).mem_iff, List.mem_filter]

/-- Rows that read back are read as requests that were created at the same times. -/
lemma readAll_asRead {rows : List Request} (h : ∀ row ∈ rows, ∃ r, row.readBack? = some r) :
    readAll Request.readBack? rows = .ok (rows.map Request.asRead) := by
  rw [readAll_eq_filterMap h]
  refine congrArg _ ?_
  rw [← List.filterMap_eq_map]
  exact List.filterMap_congr fun row mem => Request.readBack?_eq_asRead (h row mem)

/-- A row that was created later comes before: the texts of the times are ordered as the times are. -/
lemma pairwise_matching (plain : ∀ r ∈ s.requests, r.createdAt.hasPlainYear = true)
    (civil : ∀ r ∈ s.requests, r.createdAt.IsCivil)
    (distinct : s.requests.Pairwise fun a b => a.createdAt ≠ b.createdAt) (f : RequestFilter) :
    (s.matching f).Pairwise fun a b => b.createdAt < a.createdAt := by
  have sorted : (s.matching f).Pairwise fun a b => decide (b.createdAt.rowStamp ≤ a.createdAt.rowStamp) = true := by
    refine List.pairwise_mergeSort ?_ ?_ _
    · intro a b c ab bc
      simp only [decide_eq_true_eq] at *
      exact String.le_trans bc ab
    · intro a b
      simpa using String.le_total _ _
  have differ : (s.matching f).Pairwise fun a b => a.createdAt ≠ b.createdAt :=
    (distinct.sublist List.filter_sublist).perm (s.matching_perm f).symm fun h => h.symm
  refine (sorted.and differ).imp_of_mem fun {a b} ha hb h => ?_
  have stored := (mem_matching.mp ha).1
  have stored' := (mem_matching.mp hb).1
  have le := (Instant.rowStamp_le_iff (plain b stored') (plain a stored) (civil b stored') (civil a stored)).mp
    (of_decide_eq_true h.1)
  exact (Instant.lt_or_eq_of_le le).resolve_right fun same => h.2 same.symm

end Store

/-! ### Listing -/

/-- How many requests a filter asks for. -/
def RequestFilter.size (f : RequestFilter) : Nat := (max 1 (min 200 (f.limit.getD 50))).toNat

/-- How many requests a filter passes over. -/
def RequestFilter.passed (f : RequestFilter) : Nat := (max 0 (f.offset.getD 0)).toNat

/-- The filter for a page of so many requests after the pages before. -/
def RequestFilter.onPage (f : RequestFilter) (size page : Nat) : RequestFilter :=
  { f with limit := some (size : Int), offset := some ((page * size : Nat) : Int) }

namespace Requests

variable {c : Context} {w : World} {f : RequestFilter}

/-- The page is cut out of the rows that match. -/
lemma list_eq (c : Context) (w : World) (f : RequestFilter) :
    list f c w = Operation.read (fun s =>
      Store.readAll Request.readBack? (((s.matching f).drop f.passed).take f.size)) c w := by
  have positive : ¬max 1 (min 200 (f.limit.getD 50)) < 0 := by omega
  exact congrArg (Operation.read · c w) (funext fun s => congrArg (Store.readAll Request.readBack?) (if_neg positive))

/-- A page whose rows read back is answered. -/
lemma list_of_reads (reads : ∀ row ∈ ((w.store.matching f).drop f.passed).take f.size, ∃ r, row.readBack? = some r) :
    list f c w = (.ok ((((w.store.matching f).drop f.passed).take f.size).map Request.asRead), w) := by
  rw [list_eq, Operation.read_eq_ok_iff]
  exact ⟨Store.readAll_asRead reads, rfl⟩

/-- A page one of whose rows does not read back is not. -/
lemma list_of_none {row : Request} (mem : row ∈ ((w.store.matching f).drop f.passed).take f.size)
    (unread : row.readBack? = none) : list f c w = (.error (.ofStore Store.unreadable), w) := by
  rw [list_eq, Operation.read_eq_error_iff]
  exact ⟨_, Store.readAll_of_none mem unread, rfl, rfl⟩

end Requests

/-- The requests that match a filter, as their rows are read, the latest first. -/
def World.listing (w : World) (f : RequestFilter) : List Request := (w.store.matching f).map Request.asRead

/-- The requests of a world are listed in pages. -/
structure World.ListsPages (w : World) (f : RequestFilter) : Prop where
  /-- All that match are listed, each once. -/
  once : (w.listing f).Perm ((w.store.requests.filter f.accepts).map Request.asRead)
  /-- The order is that of the times of creation. -/
  latest : (w.listing f).Pairwise fun a b => b.createdAt < a.createdAt
  /-- A page of any limit and offset is a part of that, answered if the rows in it read back. -/
  page (c : Context) : (∀ row ∈ ((w.store.matching f).drop f.passed).take f.size, ∃ r, row.readBack? = some r) →
    Requests.list f c w = (.ok (((w.listing f).drop f.passed).take f.size), w)
  /-- Otherwise it fails. -/
  unread (c : Context) : (∃ row ∈ ((w.store.matching f).drop f.passed).take f.size, row.readBack? = none) →
    ∃ cause, Requests.list f c w = (.error (.storage cause), w)
  /-- Where all that match read back, pages of one size are answered, and they lose and repeat nothing. -/
  whole (size : Nat) : 1 ≤ size → size ≤ 200 →
    (∀ row ∈ w.store.requests, f.accepts row = true → ∃ r, row.readBack? = some r) →
      ∃ pages : Nat → List Request,
        (∀ c k, Requests.list (f.onPage size k) c w = (.ok (pages k), w)) ∧
        (∀ count, (List.range count).flatMap pages = (w.listing f).take (count * size)) ∧
        ∀ count, w.store.requests.length ≤ count * size → (List.range count).flatMap pages = w.listing f

/-- Requests that were created at different times are listed in pages, whatever digits are written of the
times. -/
theorem World.listsPages {w : World} (plain : ∀ r ∈ w.store.requests, r.createdAt.hasPlainYear = true)
    (civil : ∀ r ∈ w.store.requests, r.createdAt.IsCivil)
    (distinct : w.store.requests.Pairwise fun a b => a.createdAt ≠ b.createdAt) (f : RequestFilter) :
    w.ListsPages f where
  once := (w.store.matching_perm f).map _
  latest := List.pairwise_map.mpr <| (Store.pairwise_matching plain civil distinct f).imp fun later => by
    simpa only [Request.asRead_createdAt] using later
  page c reads := by
    rw [Requests.list_of_reads reads, listing, List.map_take, List.map_drop]
  unread c := fun ⟨_, mem, lost⟩ => ⟨_, Requests.list_of_none mem lost⟩
  whole size low high reads := by
    have fits (k : Nat) : (f.onPage size k).size = size ∧ (f.onPage size k).passed = k * size := by
      simp only [RequestFilter.size, RequestFilter.passed, RequestFilter.onPage, Option.getD_some]
      omega
    have cut (count : Nat) : ((List.range count).flatMap fun k => ((w.listing f).drop (k * size)).take size) =
        (w.listing f).take (count * size) := flatMap_drop_take _ _ _
    refine ⟨fun k => ((w.listing f).drop (k * size)).take size, fun c k => ?_, cut, fun count all => ?_⟩
    · have answered := Requests.list_of_reads (c := c) (w := w) (f := f.onPage size k) fun row mem =>
        have stored := Store.mem_matching.mp (List.mem_of_mem_drop (List.mem_of_mem_take mem))
        reads row stored.1 stored.2
      rw [(fits k).1, (fits k).2, List.map_take, List.map_drop] at answered
      exact answered
    · rw [cut, List.take_of_length_le]
      calc (w.listing f).length
        _ = (w.store.requests.filter f.accepts).length := by
          rw [listing, List.length_map, (w.store.matching_perm f).length_eq]
        _ ≤ w.store.requests.length := List.length_filter_le _ _
        _ ≤ count * size := all

namespace Leave

/-- So many nanoseconds after noon of the first day. -/
def noon (nanos : Nat) : Context := { now := ((clock 12).now.add? 0 nanos).getD default }

/-- Three requests, which start within one second. -/
def brisk : List Act :=
  ⟨clock 12, .createWorkflow draft none⟩ ::
    [500000000, 1000, 0].map fun nanos => ⟨noon nanos, .start (.serial .workflow 1) admin.userId .null⟩

theorem listsPages_brisk :
    (World.after {} brisk).store.requests.length = 3 ∧
      (∀ r ∈ (World.after {} brisk).store.requests, r.createdAt.hasPlainYear = true) ∧
      (∀ r ∈ (World.after {} brisk).store.requests, r.createdAt.IsCivil) ∧
      (World.after {} brisk).store.requests.Pairwise (fun a b => a.createdAt ≠ b.createdAt) ∧
      (World.after {} brisk).ListsPages {} ∧
      ∀ row ∈ (World.after {} brisk).store.requests, ∃ r, row.readBack? = some r := by
  have plain : ∀ r ∈ (World.after {} brisk).store.requests, r.createdAt.hasPlainYear = true := by decide +kernel
  have civil : ∀ r ∈ (World.after {} brisk).store.requests, r.createdAt.IsCivil := by decide +kernel
  have distinct : (World.after {} brisk).store.requests.Pairwise fun a b => a.createdAt ≠ b.createdAt := by
    decide +kernel
  have decodes : (World.after {} brisk).store.Decodes := by decide +kernel
  exact ⟨by decide +kernel, plain, civil, distinct, World.listsPages plain civil distinct {}, decodes⟩

/-- A request starts an hour before the end of the year 9999 and is decided an hour after it. -/
def turned : List Act :=
  [⟨clock 12, .createWorkflow draft none⟩,
   ⟨clock 70389527, .start (.serial .workflow 1) admin.userId .null⟩,
   ⟨clock 70389529, .process request admin { outcome := "APPROVED" }⟩]

/-- It was created in a year of four digits, but no page with it is answered. -/
theorem unlisted_turned :
    (World.after {} turned).store.requests.length = 1 ∧
      (∀ r ∈ (World.after {} turned).store.requests, r.createdAt.hasPlainYear = true ∧ r.createdAt.IsCivil) ∧
      ∀ limit ∈ [none, some 1, some 200], (Requests.list { limit, offset := some 0 } (clock 70389529)
        (World.after {} turned)).1 matches .error (.storage _) := by
  decide +kernel

end Leave

end Approval
