import Approval.Proofs.Interleaving.Basic
import Approval.Proofs.Run.Change

/-!
# Commits one after the other

What committed decisions and breaches come to when each is made on its own, after the one before. Each
moves the version of a request on by one, so that no version is written twice and a copy that has the
stored version is the stored request.
-/

namespace Approval

namespace Store

/-- The row of the request with an identifier. -/
def row? (s : Store) (id : RequestId) : Option Request := s.requests.find? (·.id = id)

/-- The version of the stored request with an identifier. -/
def version? (s : Store) (id : RequestId) : Option Int := (s.row? id).map (·.version)

variable {s t : Store} {id : RequestId} {row r : Request}

lemma Keyed.row?_eq (hk : s.Keyed) (h : row ∈ s.requests) : s.row? row.id = some row := hk.find?_eq h

lemma mem_of_row? (h : s.row? id = some row) : row ∈ s.requests ∧ row.id = id :=
  ⟨List.mem_of_find?_eq_some h, by simpa using List.find?_some h⟩

@[simp] lemma request?_eq_ok_some : s.request? id = .ok (some r) ↔
    ∃ row, s.row? id = some row ∧ row.readBack? = some r :=
  readOption_eq_ok_some

/-- A change reaches the row of its request and no other one. -/
lemma row?_replaced (h : t.requests = s.replaced r) (id : RequestId) :
    t.row? id = (s.row? id).map fun row => if id = r.id then updateRow row r else row := by
  have same_id (row : Request) : (if row.id = r.id then updateRow row r else row).id = row.id := by
    split <;> rfl
  rw [row?, h, replaced, List.find?_map]
  simp only [Function.comp_def, same_id]
  cases found : s.requests.find? (·.id = id) with
  | none => simp [row?, found]
  | some row =>
    have : row.id = id := by simpa using List.find?_some found
    simp [row?, found, this]

end Store

namespace Race

open Sweep (Finding Report)

/-! ### Commits one after the other -/

/-- The version of a request that a commit writes; a breach that does not escalate writes none. -/
def Commit.written? : Commit → Option (RequestId × Int)
  | .decision _ id _ _ version => some (id, version + 1)
  | .breach escalate now f => (Sweep.escalated escalate now f.request).map fun r => (r.id, r.version)

variable [Supply] in
/-- The commit on its own: a whole call that decides a request, or a late step that is recorded, of the
request that is stored if that is escalated. -/
inductive Commit.Runs : Commit → World → World → Prop
  | decision {context : Context} {id : RequestId} {actor : Actor} {d : Decision} {version : Int}
      {r : Request} {w w' : World} (runs : Requests.process id actor d context w = (.ok r, w')) :
      Runs (.decision context id actor d version) w w'
  | breach {escalate : Bool} {now : Instant} {f : Finding} {w w' : World}
      (runs : ∀ c report,
        Sweep.record escalate now f report c w = (.ok (report.more escalate now f), w'))
      (current : (Sweep.escalated escalate now f.request).isSome = true →
        w.store.request? f.request.id = .ok (some f.request)) :
      Runs (.breach escalate now f) w w'

/-- The commit moves the version that it writes on by one and leaves all other requests as they are. -/
structure Commit.Writes (k : Commit) (s t : Store) : Prop where
  next : ∀ id v, k.written? = some (id, v) → s.version? id = some (v - 1) ∧ t.version? id = some v
  others : ∀ id, (∀ v, k.written? ≠ some (id, v)) → t.row? id = s.row? id

variable [Supply] in
/-- The second world is the first one after commits, one after the other. -/
inductive Serial (w : World) : List Commit → World → Prop
  | nil : Serial w [] w
  | snoc {ks : List Commit} {u v : World} {k : Commit} (before : Serial w ks u) (runs : k.Runs u v)
      (writes : k.Writes u.store v.store) : Serial w (ks ++ [k]) v

namespace Serial

variable [Supply] {w u : World} {ks : List Commit}

/-- No version that was written is above the stored one. -/
lemma written_le (h : Serial w ks u) {id : RequestId} {v : Int}
    (written : (id, v) ∈ ks.filterMap Commit.written?) :
    ∃ current, u.store.version? id = some current ∧ v ≤ current := by
  induction h with
  | nil => simp at written
  | @snoc ks u u' k _ _ writes ih =>
    rw [List.filterMap_append, List.mem_append] at written
    rcases written with old | new
    · obtain ⟨current, stored, le⟩ := ih old
      by_cases again : ∃ next, k.written? = some (id, next)
      · obtain ⟨next, again⟩ := again
        obtain ⟨before, after⟩ := writes.next id next again
        refine ⟨next, after, ?_⟩
        have : current = next - 1 := Option.some.inj (stored.symm.trans before)
        omega
      · refine ⟨current, ?_, le⟩
        rw [Store.version?, writes.others id fun next same => again ⟨next, same⟩]
        exact stored
    · obtain ⟨_, hm, same⟩ := List.mem_filterMap.mp new
      obtain rfl := List.mem_singleton.mp hm
      exact ⟨v, (writes.next id v same).2, Int.le_refl v⟩

/-- No version of a request is written twice. -/
lemma written_nodup (h : Serial w ks u) : (ks.filterMap Commit.written?).Nodup := by
  induction h with
  | nil => exact List.nodup_nil
  | @snoc ks u u' k before _ writes ih =>
    rw [List.filterMap_append, List.nodup_append]
    refine ⟨ih, ?_, ?_⟩
    · cases written : k.written? <;> simp [written]
    · rintro ⟨id, v⟩ old _ new rfl
      obtain ⟨_, hm, same⟩ := List.mem_filterMap.mp new
      obtain rfl := List.mem_singleton.mp hm
      obtain ⟨current, stored, le⟩ := before.written_le old
      have : current = v - 1 := Option.some.inj (stored.symm.trans (writes.next id v same).1)
      omega

end Serial

/-! ### Copies of requests -/

/-- A copy of a request that was read once: the stored request is at least as new, and if it has the
version of the copy it reads back as the copy. -/
def Tracks (s : Store) (copy : Request) : Prop :=
  ∃ row, s.row? copy.id = some row ∧ copy.version ≤ row.version ∧
    (row.version = copy.version → row.readBack? = some copy)

section Tracks

variable {s t : Store} {copy row : Request}

lemma tracks_of_row? {id : RequestId} (found : s.row? id = some row) (reads : row.readBack? = some copy) :
    Tracks s copy := by
  refine ⟨row, ?_, ?_, fun _ => reads⟩
  · rw [Request.id_of_readBack? reads, (Store.mem_of_row? found).2]
    exact found
  · rw [Request.version_of_readBack? reads]

/-- A copy that has the stored version is the stored request. -/
lemma Tracks.request?_eq (h : Tracks s copy) (same : s.version? copy.id = some copy.version) :
    s.request? copy.id = .ok (some copy) := by
  obtain ⟨row, found, -, reads⟩ := h
  refine Store.request?_eq_ok_some.mpr ⟨row, found, reads ?_⟩
  rw [Store.version?, found] at same
  exact Option.some.inj same

/-- A commit leaves copies older than what it writes. -/
lemma Commit.Writes.tracks {k : Commit} (writes : k.Writes s t) (h : Tracks s copy) : Tracks t copy := by
  obtain ⟨row, found, le, reads⟩ := h
  by_cases written : ∃ v, k.written? = some (copy.id, v)
  · obtain ⟨v, written⟩ := written
    obtain ⟨before, after⟩ := writes.next copy.id v written
    obtain ⟨next, found', version⟩ := Option.map_eq_some_iff.mp after
    rw [Store.version?, found] at before
    have : row.version = v - 1 := Option.some.inj before
    exact ⟨next, found', by omega, fun same => by omega⟩
  · refine ⟨row, ?_, le, reads⟩
    rw [writes.others copy.id fun v same => written ⟨v, same⟩]
    exact found

end Tracks

/-! ### Commits that are made -/

lemma Commit.writes_of_same {k : Commit} {s t : Store} (written : k.written? = none)
    (same : t.requests = s.requests) : k.Writes s t where
  next := fun id v h => absurd (written.symm.trans h) (by simp)
  others := fun id _ => by rw [Store.row?, same, Store.row?]

lemma Commit.writes_of_replaced {k : Commit} {s t : Store} {r : Request}
    (written : k.written? = some (r.id, r.version)) (before : s.version? r.id = some (r.version - 1))
    (replaced : t.requests = s.replaced r) : k.Writes s t where
  next := by
    intro id v h
    obtain ⟨⟨⟩⟩ := written.symm.trans h
    refine ⟨before, ?_⟩
    obtain ⟨row, found, -⟩ := Option.map_eq_some_iff.mp before
    rw [Store.version?, Store.row?_replaced replaced, found]
    simp [Store.updateRow]
  others := by
    intro id other
    have ne : id ≠ r.id := by
      rintro rfl
      exact other r.version written
    rw [Store.row?_replaced replaced]
    simp [ne]

section Made

variable [Supply] {c : Context} {w : World}

/-- A decision on the stored version is saved, and is the same as the whole call made on its own. -/
lemma commit_of_current (hk : w.store.Keyed) (hn : w.store.Numbered) {current : Request}
    (tracks : Tracks w.store current) {context : Context} {actor : Actor} {d : Decision} {x : Decided}
    (decides : current.decide actor d context.now = .ok x)
    (same : w.store.version? current.id = some current.version) :
    Requests.commit current.version x c w = (.ok x.request, Requests.decided x w) ∧
      (Commit.decision context current.id actor d current.version).Runs w (Requests.decided x w) ∧
      (Commit.decision context current.id actor d current.version).Writes w.store
        (Requests.decided x w).store := by
  obtain ⟨row, found, reads⟩ := Store.request?_eq_ok_some.mp (tracks.request?_eq same)
  obtain ⟨stored, hid⟩ := Store.mem_of_row? found
  refine ⟨?_, ?_, ?_⟩
  · refine (Requests.commit_eq_ok_iff hk).mpr ⟨⟨row, stored, ?_, ?_⟩, hn.fresh, rfl, rfl⟩
    · rw [Request.id_of_decide decides, hid]
    · rw [Request.version_of_readBack? reads]
  · exact .decision ((Requests.process_eq_ok_iff hk).mpr
      ⟨row, stored, current, x, hid, reads, decides, hn.fresh, rfl, rfl⟩)
  · refine Commit.writes_of_replaced (r := x.request) ?_ ?_ rfl
    · rw [Request.id_of_decide decides, Request.version_of_decide decides]
      rfl
    · rw [Request.id_of_decide decides, Request.version_of_decide decides, same]
      congr 1
      omega

/-- A decision on a version that is not the stored one is refused. -/
lemma commit_of_not_current (hk : w.store.Keyed) {current : Request} {context : Context} {actor : Actor}
    {d : Decision} {x : Decided} (decides : current.decide actor d context.now = .ok x)
    (other : w.store.version? current.id ≠ some current.version) :
    Requests.commit current.version x c w = (.error (.clash .stale), w) := by
  refine Requests.commit_of_stale fun row stored hid same => other ?_
  rw [Request.id_of_decide decides] at hid
  rw [← hid, Store.version?, hk.row?_eq stored, ← same]
  rfl

/-- A copy that is to be marked as escalated is the stored request. -/
lemma exists_row_of_marked (hk : w.store.Keyed) {escalate : Bool} {now : Instant} {f : Finding}
    (tracks : Tracks w.store f.request) (recordable : Sweep.Recordable escalate now f w.store)
    (marks : (Sweep.escalated escalate now f.request).isSome = true) :
    ∃ row ∈ w.store.requests, row.readBack? = some f.request := by
  obtain ⟨row, found, -, reads⟩ := tracks
  obtain ⟨current, stored, id, version⟩ := recordable.current marks
  rw [← id, hk.row?_eq stored] at found
  obtain rfl := Option.some.inj found
  exact ⟨current, stored, reads version⟩

/-- A finding that is recorded is about the stored request if it escalates that. -/
lemma record_of_recordable (hk : w.store.Keyed) {escalate : Bool} {now : Instant} {f : Finding}
    (tracks : Tracks w.store f.request) (recordable : Sweep.Recordable escalate now f w.store) :
    (Commit.breach escalate now f).Runs w (Sweep.breached escalate now f w) ∧
      (Commit.breach escalate now f).Writes w.store (Sweep.breached escalate now f w).store := by
  have current (marks : (Sweep.escalated escalate now f.request).isSome = true) :
      w.store.version? f.request.id = some f.request.version := by
    obtain ⟨row, stored, hid, same⟩ := recordable.current marks
    rw [← hid, Store.version?, hk.row?_eq stored, ← same]
    rfl
  refine ⟨.breach (fun c report => Sweep.record_of_recordable hk recordable report) fun marks =>
    tracks.request?_eq (current marks), ?_⟩
  cases marks : Sweep.escalated escalate now f.request with
  | none =>
    refine Commit.writes_of_same ?_ ?_
    · rw [Commit.written?, marks]
      rfl
    · simp [Sweep.breached, marks, Store.escalatedBy]
  | some marked =>
    refine Commit.writes_of_replaced (r := marked) ?_ ?_ ?_
    · rw [Commit.written?, marks]
      rfl
    · have before := current (by rw [marks]; rfl)
      obtain ⟨-, -, rfl⟩ := Sweep.escalated_eq_some.mp marks
      simpa using before
    · simp [Sweep.breached, marks, Store.escalatedBy]

end Made

end Race

end Approval
