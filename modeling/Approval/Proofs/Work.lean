import Approval.Service.Basic
import Mathlib.Tactic.Lemma

/-!
# How work runs

Work runs step by step, and what follows a step that gives up is not run. The lemmas read the answer
of composed work off those of its parts, so that no proof about an operation unfolds the monad.
-/

namespace Approval

namespace Work

variable {ε δ α β : Type} {x : Work ε α} {f : α → Work ε β} {c : Context} {w w' : World}

@[simp] lemma pure_run (a : α) : (pure a : Work ε α) c w = (.ok a, w) := rfl

@[simp] lemma fail_run (e : ε) : (fail e : Work ε α) c w = (.error e, w) := rfl

@[simp] lemma ofResult_run (r : Except ε α) : ofResult r c w = (r, w) := rfl

@[simp] lemma context_run : (context : Work ε Context) c w = (.ok c, w) := rfl

@[simp] lemma now_run : (now : Work ε Instant) c w = (.ok c.now, w) := rfl

lemma bind_of_ok {a : α} {v : World} (h : x c w = (.ok a, v)) : (x >>= f) c w = f a c v := by
  simp only [bind, h]

lemma bind_of_error {e : ε} {v : World} (h : x c w = (.error e, v)) :
    (x >>= f) c w = (.error e, v) := by
  simp only [bind, h]

lemma mapError_of_ok {g : ε → δ} {a : α} {v : World} (h : x c w = (.ok a, v)) :
    mapError g x c w = (.ok a, v) := by
  simp only [mapError, h]

lemma mapError_of_error {g : ε → δ} {e : ε} {v : World} (h : x c w = (.error e, v)) :
    mapError g x c w = (.error (g e), v) := by
  simp only [mapError, h]

@[simp]
lemma mapError_eq_ok_iff {g : ε → δ} {a : α} : mapError g x c w = (.ok a, w') ↔ x c w = (.ok a, w') := by
  unfold mapError
  rcases x c w with ⟨_ | _, _⟩ <;> simp

/-- Composed work that answers does so through both of its parts. -/
@[simp] lemma bind_eq_ok_iff {b : β} :
    (x >>= f) c w = (.ok b, w') ↔ ∃ a v, x c w = (.ok a, v) ∧ f a c v = (.ok b, w') := by
  rcases h : x c w with ⟨e | a, v⟩
  · simp [bind_of_error h]
  · rw [bind_of_ok h]
    constructor
    · intro h'
      exact ⟨a, v, rfl, h'⟩
    · rintro ⟨a', v', ⟨⟩, h'⟩
      exact h'

/-- Composed work that gives up does so in one of its parts. -/
@[simp] lemma bind_eq_error_iff {e : ε} :
    (x >>= f) c w = (.error e, w') ↔
      x c w = (.error e, w') ∨ ∃ a v, x c w = (.ok a, v) ∧ f a c v = (.error e, w') := by
  rcases h : x c w with ⟨e' | a, v⟩
  · simp [bind_of_error h]
  · rw [bind_of_ok h]
    constructor
    · intro h'
      exact .inr ⟨a, v, rfl, h'⟩
    · rintro (⟨⟨⟩⟩ | ⟨a', v', ⟨⟩, h'⟩)
      exact h'

@[simp] lemma id_map_eq (x : Work ε α) : id <$> x = x := by
  funext c w
  rcases h : x c w with ⟨_ | a, v⟩
  · exact bind_of_error h
  · exact bind_of_ok h

lemma bind_assoc_eq {γ : Type} (x : Work ε α) (f : α → Work ε β) (g : β → Work ε γ) :
    x >>= f >>= g = x >>= fun a => f a >>= g := by
  funext c w
  rcases h : x c w with ⟨_ | a, v⟩
  · rw [bind_of_error h, bind_of_error (bind_of_error h)]
  · rw [bind_of_ok h]
    rcases h' : f a c v with ⟨_ | b, u⟩
    · rw [bind_of_error h', bind_of_error ((bind_of_ok h).trans h')]
    · rw [bind_of_ok h', bind_of_ok ((bind_of_ok h).trans h')]

instance : LawfulMonad (Work ε) :=
  LawfulMonad.mk' (Work ε) id_map_eq (fun _ _ => rfl) bind_assoc_eq

/-! ### What work leaves alone -/

/-- The work changes no world. -/
def Inert (x : Work ε α) : Prop := ∀ c w, (x c w).2 = w

/-- The work is never given up. -/
def Sure (x : Work ε α) : Prop := ∀ c w, ∃ a v, x c w = (.ok a, v)

/-- Work that is given up has changed nothing. -/
def Atomic (x : Work ε α) : Prop := ∀ c w e v, x c w = (.error e, v) → v = w

/-- Whatever the work answers, it leads to a world that `R` relates to the first one. -/
def Within (R : Context → World → World → Prop) (x : Work ε α) : Prop := ∀ c w, R c w (x c w).2

lemma Inert.pure (a : α) : (Pure.pure a : Work ε α).Inert := fun _ _ => rfl

lemma Inert.fail (e : ε) : (fail e : Work ε α).Inert := fun _ _ => rfl

lemma Inert.ofResult (r : Except ε α) : (ofResult r).Inert := fun _ _ => rfl

lemma Inert.now : (now : Work ε Instant).Inert := fun _ _ => rfl

lemma Inert.context : (context : Work ε Context).Inert := fun _ _ => rfl

lemma Inert.bind (hx : x.Inert) (hf : ∀ a, (f a).Inert) : (x >>= f).Inert := by
  intro c w
  have first := hx c w
  rcases h : x c w with ⟨_ | a, v⟩ <;> rw [h] at first
  · rw [bind_of_error h]
    exact first
  · rw [bind_of_ok h, hf a c v]
    exact first

lemma Inert.mapError (h : x.Inert) (g : ε → δ) : (mapError g x).Inert := by
  intro c w
  have same := h c w
  rcases run : x c w with ⟨e | a, v⟩ <;> simpa only [Work.mapError, run] using same

/-- What reads first and then answers does so in the same world. -/
lemma Inert.bind_eq_ok (hx : x.Inert) {b : β} (h : (x >>= f) c w = (.ok b, w')) :
    ∃ a, x c w = (.ok a, w) ∧ f a c w = (.ok b, w') := by
  obtain ⟨a, v, read, rest⟩ := bind_eq_ok_iff.mp h
  obtain rfl : v = w := by
    have same := hx c w
    rwa [read] at same
  exact ⟨a, read, rest⟩

lemma Inert.mapM {g : α → Work ε β} (hg : ∀ a, (g a).Inert) (as : List α) : (as.mapM g).Inert := by
  induction as with
  | nil => exact .pure _
  | cons a as ih =>
    rw [List.mapM_cons]
    exact (hg a).bind fun _ => ih.bind fun _ => .pure _

lemma Inert.atomic (hx : x.Inert) : x.Atomic := by
  intro c w e v h
  rw [← hx c w, h]

lemma Atomic.of_inert_bind (hx : x.Inert) (hf : ∀ a, (f a).Atomic) : (x >>= f).Atomic := by
  intro c w e v h
  rcases bind_eq_error_iff.mp h with h | ⟨a, u, h, h'⟩
  · exact hx.atomic c w e v h
  · rw [hf a c u e v h', ← hx c w, h]

lemma Atomic.bind_sure (hx : x.Atomic) (hf : ∀ a, (f a).Sure) : (x >>= f).Atomic := by
  intro c w e v h
  rcases bind_eq_error_iff.mp h with h | ⟨a, u, -, h'⟩
  · exact hx c w e v h
  · obtain ⟨b, u', h''⟩ := hf a c u
    rw [h''] at h'
    exact absurd h' (by simp)

lemma Sure.pure (a : α) : (Pure.pure a : Work ε α).Sure := fun _ w => ⟨a, w, rfl⟩

lemma Sure.bind (hx : x.Sure) (hf : ∀ a, (f a).Sure) : (x >>= f).Sure := by
  intro c w
  obtain ⟨a, v, h⟩ := hx c w
  rw [bind_of_ok h]
  exact hf a c v

end Work

/-! ### Operations on the store -/

namespace Operation

variable {α : Type} {c : Context} {w w' : World}

@[simp] lemma ask_run (f : Store → α) : ask f c w = (.ok (f w.store), w) := rfl

@[simp] lemma publish_run (e : Event) :
    publish e c w = (.ok (), { w with events := w.events ++ [e] }) := rfl

@[simp] lemma read_eq_ok_iff {f : Store → Store.Access α} {a : α} :
    read f c w = (.ok a, w') ↔ f w.store = .ok a ∧ w' = w := by
  unfold read
  cases f w.store <;> simp [eq_comm]

@[simp] lemma read_eq_error_iff {f : Store → Store.Access α} {e : Failure} :
    read f c w = (.error e, w') ↔ ∃ cause, f w.store = .error cause ∧ e = .ofStore cause ∧ w' = w := by
  unfold read
  cases f w.store <;> simp [eq_comm]

lemma read_inert (f : Store → Store.Access α) : (read f).Inert := by
  intro c w
  unfold read
  split <;> rfl

lemma ask_inert (f : Store → α) : (ask f).Inert := fun _ _ => rfl

@[simp] lemma readOr_eq_ok_iff {m : Missing} {f : Store → Store.Access (Option α)} {a : α} :
    readOr m f c w = (.ok a, w') ↔ f w.store = .ok (some a) ∧ w' = w := by
  unfold readOr
  rcases f w.store with _ | _ | b <;> simp [eq_comm]

lemma readOr_inert (m : Missing) (f : Store → Store.Access (Option α)) : (readOr m f).Inert := by
  intro c w
  unfold readOr
  split <;> rfl

@[simp]
lemma write_eq_ok_iff {f : Store → Store.Access Store} {g : StoreFault → Failure} {u : Unit} :
    write f g c w = (.ok u, w') ↔ ∃ s, f w.store = .ok s ∧ w' = { w with store := s } := by
  unfold write
  cases f w.store <;> simp [eq_comm]

@[simp]
lemma write_eq_error_iff {f : Store → Store.Access Store} {g : StoreFault → Failure} {e : Failure} :
    write f g c w = (.error e, w') ↔ ∃ cause, f w.store = .error cause ∧ e = g cause ∧ w' = w := by
  unfold write
  cases f w.store <;> simp [eq_comm]

lemma write_atomic (f : Store → Store.Access Store) (g : StoreFault → Failure) :
    (write f g).Atomic := by
  intro c w e v h
  obtain ⟨-, -, -, rfl⟩ := write_eq_error_iff.mp h
  rfl

lemma publish_sure (e : Event) : (publish e).Sure := fun _ _ => ⟨(), _, rfl⟩

end Operation

end Approval
