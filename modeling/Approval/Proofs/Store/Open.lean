import Approval.Proofs.Request.Lifecycle
import Approval.Proofs.Time.Stamp

/-!
# The open requests

The open requests of a store are listed by the time of their creation, and each waits at one step. Tasks,
counts and sweeps are made from this list.
-/

namespace Approval

/-- A row that reads back was created in a year of four digits. -/
lemma Request.plain_of_readBack? {row r : Request} (h : row.readBack? = some r) :
    row.createdAt.hasPlainYear = true := by
  simp only [Request.readBack?, Option.bind_eq_bind, Option.bind_eq_some_iff] at h
  obtain ⟨payload, -, plan, -, steps, -, created, reads, -⟩ := h
  simp only [Instant.readBack?, Option.ite_none_right_eq_some] at reads
  exact reads.1

/-! ### Steps that wait -/

namespace Request.Lifecycle

variable {r : Request}

/-- An open request waits at one step, which is the current one and a step of the plan. -/
lemma exists_pending (hr : r.Lifecycle) (isOpen : r.isOpen = true) :
    ∃ record step, r.steps.filter (·.isPending) = [record] ∧ r.current? = some record ∧
      r.plan.step? record.order = some step ∧ r.pendingStep = .ok step := by
  obtain ⟨before, last, steps, waits, closed⟩ := hr.waiting isOpen
  obtain ⟨step, -, -, -, -, planned⟩ := hr.follows last (by simp [steps])
  have current := current?_eq_of_steps steps waits
  refine ⟨last, step, ?_, current, planned, pendingStep_eq_ok_iff.mpr ⟨?_, last, current, planned⟩⟩
  · have none_before : before.filter (·.isPending) = [] :=
      List.filter_eq_nil_iff.mpr fun s hs => by simp [closed s hs]
    simp [steps, none_before, waits]
  · simpa [Request.isOpen] using isOpen

/-- A request that is over waits at no step. -/
lemma filter_isPending_of_over (hr : r.Lifecycle) (ended : r.isOpen = false) :
    r.steps.filter (·.isPending) = [] :=
  List.filter_eq_nil_iff.mpr fun s hs => by simp [hr.finished ended s hs]

/-- An open request is in progress or escalated. -/
lemma isOpen_iff (hr : r.Lifecycle) : r.isOpen = true ↔ r.status = .inProgress ∨ r.status = .escalated := by
  have started := hr.notCreated
  unfold isOpen
  cases status : r.status <;> simp_all [Status.isTerminal]

end Request.Lifecycle

/-! ### The list of open requests -/

namespace Store

/-- All requests of the store read back. -/
def Decodes (s : Store) : Prop := ∀ row ∈ s.requests, ∃ r, row.readBack? = some r

instance (s : Store) : Decidable s.Decodes :=
  decidable_of_iff (∀ row ∈ s.requests, row.readBack?.isSome = true) (by
    simp only [Decodes, Option.isSome_iff_exists])

/-- What the rows of open requests read back as. -/
def openRequests (s : Store) : List Request := s.openRows.filterMap Request.readBack?

variable {s : Store} {r : Request}

@[simp] lemma mem_openRequests : r ∈ s.openRequests ↔
    ∃ row ∈ s.requests, (row.status = .inProgress ∨ row.status = .escalated) ∧ row.readBack? = some r := by
  simp [openRequests, and_assoc]

lemma Decodes.listOpen_eq (h : s.Decodes) : s.listOpen = .ok s.openRequests :=
  readAll_eq_filterMap fun row mem => h row (mem_openRows.mp mem).1

/-- The open requests are listed if their rows read back. -/
lemma eq_openRequests {rs : List Request} (listed : s.listOpen = .ok rs) : rs = s.openRequests := by
  have reads : ∀ row ∈ s.openRows, ∃ r, row.readBack? = some r := by
    intro row mem
    cases read : row.readBack? with
    | some r => exact ⟨r, rfl⟩
    | none => exact absurd (listed.symm.trans (readAll_of_none mem read)) (by simp)
  exact Except.ok.inj (listed.symm.trans (readAll_eq_filterMap reads))

/-- As many requests are listed as are open. -/
lemma Decodes.length_openRequests (h : s.Decodes) :
    s.openRequests.length = s.requests.countP fun r => r.status = .inProgress ∨ r.status = .escalated := by
  have all : s.openRows.countP (fun row => row.readBack?.isSome) = s.openRows.length :=
    List.countP_eq_length.mpr fun row mem => by
      obtain ⟨r, reads⟩ := h row (mem_openRows.mp mem).1
      simp [reads]
  rw [openRequests, List.length_filterMap_eq_countP, all, (openRows_perm s).length_eq, List.countP_eq_length_filter]

/-- The open requests are listed by the stamps of their creation. -/
lemma pairwise_rowStamp_openRequests (s : Store) :
    s.openRequests.Pairwise fun a b => a.createdAt.rowStamp ≤ b.createdAt.rowStamp := by
  have sorted : s.openRows.Pairwise fun a b => decide (a.createdAt.rowStamp ≤ b.createdAt.rowStamp) = true := by
    refine List.pairwise_mergeSort ?_ ?_ _
    · intro a b c ab bc
      simp only [decide_eq_true_eq] at *
      exact String.le_trans ab bc
    · intro a b
      simpa using String.le_total _ _
  refine List.pairwise_filterMap.mpr (sorted.imp fun stamps a ha b hb => ?_)
  rw [Request.createdAt_of_readBack? ha, Request.createdAt_of_readBack? hb]
  exact of_decide_eq_true stamps

/-- The open requests are listed by creation, if rows hold times whose texts tell their order. -/
lemma pairwise_openRequests (civil : ∀ r ∈ s.requests, r.createdAt.IsCivil) :
    s.openRequests.Pairwise fun a b => a.createdAt ≤ b.createdAt := by
  have read {r : Request} (mem : r ∈ s.openRequests) : r.createdAt.hasPlainYear = true ∧ r.createdAt.IsCivil := by
    obtain ⟨row, stored, -, reads⟩ := mem_openRequests.mp mem
    rw [Request.createdAt_of_readBack? reads]
    exact ⟨Request.plain_of_readBack? reads, civil row stored⟩
  refine (pairwise_rowStamp_openRequests s).imp_of_mem fun ha hb stamps => ?_
  exact (Instant.rowStamp_le_iff (read ha).1 (read hb).1 (read ha).2 (read hb).2).mp stamps

/-- No request is listed twice. -/
lemma Keyed.nodup_openRequests (hk : s.Keyed) : (s.openRequests.map (·.id)).Nodup := by
  have rows : (s.openRows.map (·.id)).Nodup := by
    refine ((openRows_perm s).map _).nodup_iff.mpr ?_
    exact hk.sublist (List.filter_sublist.map _)
  refine List.pairwise_map.mpr (List.pairwise_filterMap.mpr ?_)
  refine (List.pairwise_map.mp rows).imp fun differ a ha b hb => ?_
  rwa [Request.id_of_readBack? ha, Request.id_of_readBack? hb]

end Store

end Approval
