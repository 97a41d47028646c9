import Approval.Proofs.Work
import Mathlib.Data.List.Forall2

/-!
# Results and work that agree

Two results agree if they are the same failure or values that are related. Two pieces of work agree in two
worlds if their results do and the worlds that they leave are related. What is put together in the same way
from what agrees agrees.
-/

namespace Approval

section Lists

variable {α β γ δ : Type} {R : α → β → Prop} {S : γ → δ → Prop} {as : List α} {bs : List β}

lemma optionRel_bind {x : Option α} {y : Option β} {f : α → Option γ} {g : β → Option δ} (h : Option.Rel R x y)
    (hf : ∀ a b, R a b → Option.Rel S (f a) (g b)) : Option.Rel S (x.bind f) (y.bind g) := by
  cases h with
  | none => exact .none
  | some h => exact hf _ _ h

lemma optionRel_bind_same {x : Option α} {f : α → Option γ} {g : α → Option δ}
    (h : ∀ a, Option.Rel S (f a) (g a)) : Option.Rel S (x.bind f) (x.bind g) := by
  cases x with
  | none => exact .none
  | some a => exact h a

lemma optionRel_mapM {f : α → Option γ} {g : β → Option δ} (h : List.Forall₂ R as bs)
    (hf : ∀ a b, R a b → Option.Rel S (f a) (g b)) : Option.Rel (List.Forall₂ S) (as.mapM f) (bs.mapM g) := by
  induction h with
  | nil => exact .some .nil
  | cons first _ ih =>
    simp only [List.mapM_cons]
    refine optionRel_bind (hf _ _ first) fun c d related => ?_
    exact optionRel_bind ih fun cs ds rest => .some (.cons related rest)

/-- Of related lists related members are found. -/
lemma optionRel_find? {p : α → Bool} {q : β → Bool} (h : List.Forall₂ R as bs)
    (same : ∀ a b, R a b → p a = q b) : Option.Rel R (as.find? p) (bs.find? q) := by
  induction h with
  | nil => exact .none
  | @cons a b _ _ first _ ih =>
    simp only [List.find?_cons, same a b first]
    cases q b with
    | true => exact .some first
    | false => exact ih

/-- Members that are related are so in another way, if those of the first list are. -/
lemma forall₂_imp_mem {T : α → β → Prop} (h : List.Forall₂ R as bs) (imp : ∀ a ∈ as, ∀ b, R a b → T a b) :
    List.Forall₂ T as bs := by
  induction h with
  | nil => exact .nil
  | cons first _ ih =>
    exact .cons (imp _ List.mem_cons_self _ first) (ih fun a mem => imp a (List.mem_cons_of_mem _ mem))

lemma forall₂_filter {p : α → Bool} {q : β → Bool} (h : List.Forall₂ R as bs)
    (same : ∀ a b, R a b → p a = q b) : List.Forall₂ R (as.filter p) (bs.filter q) :=
  List.rel_filter (fun a b related => Iff.of_eq (congrArg (· = true) (same a b related))) h

lemma countP_eq_of_forall₂ {p : α → Bool} {q : β → Bool} (h : List.Forall₂ R as bs)
    (same : ∀ a b, R a b → p a = q b) : as.countP p = bs.countP q := by
  induction h with
  | nil => rfl
  | cons first _ ih => rw [List.countP_cons, List.countP_cons, ih, same _ _ first]

lemma any_eq_of_forall₂ {p : α → Bool} {q : β → Bool} (h : List.Forall₂ R as bs)
    (same : ∀ a b, R a b → p a = q b) : as.any p = bs.any q := by
  induction h with
  | nil => rfl
  | cons first _ ih => rw [List.any_cons, List.any_cons, ih, same _ _ first]

lemma filterMap_eq_of_forall₂ {f : α → Option γ} {g : β → Option γ} (h : List.Forall₂ R as bs)
    (same : ∀ a b, R a b → f a = g b) : as.filterMap f = bs.filterMap g := by
  induction h with
  | nil => rfl
  | cons first _ ih => rw [List.filterMap_cons, List.filterMap_cons, ih, same _ _ first]

lemma forall₂_map {f : α → γ} {g : β → δ} (h : List.Forall₂ R as bs) (related : ∀ a b, R a b → S (f a) (g b)) :
    List.Forall₂ S (as.map f) (bs.map g) :=
  List.rel_map (fun a b => related a b) h

end Lists

/-! ### Results -/

/-- The results are values that are related, or the same failure. -/
inductive Agree {ε α β : Type} (S : α → β → Prop) : Except ε α → Except ε β → Prop
  | ok {a : α} {b : β} (h : S a b) : Agree S (.ok a) (.ok b)
  | error (e : ε) : Agree S (.error e) (.error e)

namespace Agree

variable {ε α β γ δ : Type} {S T : α → β → Prop} {U : γ → δ → Prop} {x : Except ε α} {y : Except ε β}

lemma refl {S : α → α → Prop} (h : ∀ a, S a a) (x : Except ε α) : Agree S x x := by
  cases x with
  | ok a => exact .ok (h a)
  | error e => exact .error e

lemma rfl_eq (x : Except ε α) : Agree (· = ·) x x := refl (fun _ => rfl) x

lemma of_eq {x y : Except ε α} (h : x = y) : Agree (· = ·) x y := h ▸ rfl_eq x

lemma eq {x y : Except ε α} (h : Agree (· = ·) x y) : x = y := by
  cases h with
  | ok h => rw [h]
  | error => rfl

/-- A result agrees with itself, and what holds of every value of it may be kept in mind. -/
lemma self {P : α → Prop} {x : Except ε α} (h : ∀ a, x = .ok a → P a) : Agree (fun a b => a = b ∧ P a) x x := by
  cases x with
  | ok a => exact .ok ⟨rfl, h a rfl⟩
  | error e => exact .error e

lemma mono (h : Agree S x y) (le : ∀ a b, S a b → T a b) : Agree T x y := by
  cases h with
  | ok h => exact .ok (le _ _ h)
  | error e => exact .error e

/-- What holds of the values may be kept in mind. -/
lemma keep {P : α → Prop} {Q : β → Prop} (h : Agree S x y) (hx : ∀ a, x = .ok a → P a) (hy : ∀ b, y = .ok b → Q b) :
    Agree (fun a b => S a b ∧ P a ∧ Q b) x y := by
  cases h with
  | ok h => exact .ok ⟨h, hx _ rfl, hy _ rfl⟩
  | error e => exact .error e

lemma comp {z : Except ε γ} {V : β → γ → Prop} (h : Agree S x y) (h' : Agree V y z) :
    Agree (fun a c => ∃ b, S a b ∧ V b c) x z := by
  cases h with
  | ok h =>
    cases h' with
    | ok h' => exact .ok ⟨_, h, h'⟩
  | error e =>
    cases h'
    exact .error e

lemma bind {f : α → Except ε γ} {g : β → Except ε δ} (h : Agree S x y)
    (hf : ∀ a b, S a b → Agree U (f a) (g b)) : Agree U (x >>= f) (y >>= g) := by
  cases h with
  | ok h => exact hf _ _ h
  | error e => exact .error e

lemma map {f : α → γ} {g : β → δ} (h : Agree S x y) (hf : ∀ a b, S a b → U (f a) (g b)) :
    Agree U (f <$> x) (g <$> y) := by
  cases h with
  | ok h => exact .ok (hf _ _ h)
  | error e => exact .error e

lemma mapM {as : List α} {bs : List β} {f : α → Except ε γ} {g : β → Except ε δ} (h : List.Forall₂ S as bs)
    (hf : ∀ a b, S a b → Agree U (f a) (g b)) : Agree (List.Forall₂ U) (as.mapM f) (bs.mapM g) := by
  induction h with
  | nil => exact .ok .nil
  | cons first _ ih =>
    simp only [List.mapM_cons]
    exact (hf _ _ first).bind fun c d related => ih.bind fun cs ds rest => .ok (.cons related rest)

end Agree

/-! ### Rows -/

namespace Store

variable {α β : Type} {R : α → β → Prop} {f : α → Option α} {g : β → Option β}

lemma read_agree {a : α} {b : β} (h : Option.Rel R (f a) (g b)) : Agree R (read f a) (read g b) := by
  unfold read
  cases fa : f a <;> cases gb : g b <;> rw [fa, gb] at h
  · exact .error _
  · cases h
  · cases h
  · cases h with
    | some h => exact .ok h

lemma readAll_agree {as : List α} {bs : List β} (h : List.Forall₂ R as bs)
    (reads : ∀ a b, R a b → Option.Rel R (f a) (g b)) : Agree (List.Forall₂ R) (readAll f as) (readAll g bs) :=
  Agree.mapM h fun a b related => read_agree (reads a b related)

lemma readOption_agree {x : Option α} {y : Option β} (h : Option.Rel R x y)
    (reads : ∀ a b, R a b → Option.Rel R (f a) (g b)) :
    Agree (Option.Rel R) (readOption f x) (readOption g y) := by
  cases h with
  | none => exact .ok .none
  | some h => exact (read_agree (reads _ _ h)).map fun _ _ related => .some related

end Store

/-! ### Work -/

/-- In the two worlds the results of the work agree, and the worlds that it leaves are related. -/
structure Work.AgreeAt {ε α β : Type} (S : α → β → Prop) (R : World → World → Prop) (c : Context) (w v : World)
    (x : Work ε α) (y : Work ε β) : Prop where
  answer : Agree S (x c w).1 (y c v).1
  world : R (x c w).2 (y c v).2

namespace Work.AgreeAt

variable {ε α β γ δ : Type} {S : α → β → Prop} {T : γ → δ → Prop} {R : World → World → Prop} {c : Context}
  {w v : World} {x : Work ε α} {y : Work ε β} {f : α → Work ε γ} {g : β → Work ε δ}

lemma pure {a : α} {b : β} (hR : R w v) (h : S a b) :
    AgreeAt S R c w v (Pure.pure a : Work ε α) (Pure.pure b : Work ε β) := ⟨.ok h, hR⟩

lemma fail (hR : R w v) (e : ε) : AgreeAt S R c w v (fail e : Work ε α) (Work.fail e : Work ε β) :=
  ⟨.error e, hR⟩

lemma of_inert (hx : x.Inert) (hy : y.Inert) (hR : R w v) (h : Agree S (x c w).1 (y c v).1) :
    AgreeAt S R c w v x y := ⟨h, by rwa [hx c w, hy c v]⟩

lemma bind (h : AgreeAt S R c w v x y)
    (hf : ∀ a b w' v', S a b → R w' v' → AgreeAt T R c w' v' (f a) (g b)) :
    AgreeAt T R c w v (x >>= f) (y >>= g) := by
  obtain ⟨answer, world⟩ := h
  rcases left : x c w with ⟨e | a, w'⟩ <;> rcases right : y c v with ⟨e' | b, v'⟩
  all_goals rw [left, right] at answer world
  · cases answer
    exact ⟨by rw [bind_of_error left, bind_of_error right]; exact .error _,
      by rwa [bind_of_error left, bind_of_error right]⟩
  · cases answer
  · cases answer
  · cases answer with
    | ok related =>
      obtain ⟨answer, world⟩ := hf a b w' v' related world
      exact ⟨by rwa [bind_of_ok left, bind_of_ok right], by rwa [bind_of_ok left, bind_of_ok right]⟩

lemma congr {x' : Work ε α} {y' : Work ε β} (h : AgreeAt S R c w v x' y') (left : x c w = x' c w)
    (right : y c v = y' c v) : AgreeAt S R c w v x y := by
  obtain ⟨answer, world⟩ := h
  exact ⟨by rwa [left, right], by rwa [left, right]⟩

/-- What is read first leaves the worlds as they are. -/
lemma of_inert_bind (hx : x.Inert) (hy : y.Inert) (hR : R w v) (h : Agree S (x c w).1 (y c v).1)
    (hf : ∀ a b, S a b → AgreeAt T R c w v (f a) (g b)) : AgreeAt T R c w v (x >>= f) (y >>= g) := by
  have same := hx c w
  have same' := hy c v
  rcases left : x c w with ⟨e | a, w'⟩ <;> rcases right : y c v with ⟨e' | b, v'⟩
  all_goals
    rw [left] at h same
    rw [right] at h same'
    obtain rfl : w' = w := same
    obtain rfl : v' = v := same'
  · cases h
    exact ⟨by rw [bind_of_error left, bind_of_error right]; exact .error _,
      by rwa [bind_of_error left, bind_of_error right]⟩
  · cases h
  · cases h
  · cases h with
    | ok related =>
      obtain ⟨answer, world⟩ := hf a b related
      exact ⟨by rwa [bind_of_ok left, bind_of_ok right], by rwa [bind_of_ok left, bind_of_ok right]⟩

/-- What is read first is the same in both worlds. -/
lemma of_same_bind {x : Work ε α} {f : α → Work ε γ} {g : α → Work ε δ} (hx : x.Inert) (hR : R w v)
    (same : (x c w).1 = (x c v).1) (hf : ∀ a, AgreeAt T R c w v (f a) (g a)) :
    AgreeAt T R c w v (x >>= f) (x >>= g) :=
  of_inert_bind hx hx hR (.of_eq same) fun a _ same => same ▸ hf a

/-- What is done first answers the same in both worlds. -/
lemma bind_same {x y : Work ε α} {f : α → Work ε γ} {g : α → Work ε δ} (h : AgreeAt (· = ·) R c w v x y)
    (hf : ∀ a w' v', R w' v' → AgreeAt T R c w' v' (f a) (g a)) : AgreeAt T R c w v (x >>= f) (y >>= g) :=
  h.bind fun a _ w' v' same => same ▸ hf a w' v'

end Work.AgreeAt

/-- What is read in two worlds is the same, or cannot be read for the same reason. -/
lemma Work.Inert.run_same {ε α : Type} {c : Context} {w v : World} {x : Work ε α} (hx : x.Inert)
    (same : (x c w).1 = (x c v).1) :
    (∃ e, x c w = (.error e, w) ∧ x c v = (.error e, v)) ∨ ∃ a, x c w = (.ok a, w) ∧ x c v = (.ok a, v) := by
  have left : x c w = ((x c w).1, w) := Prod.ext rfl (hx c w)
  have right : x c v = ((x c w).1, v) := Prod.ext same.symm (hx c v)
  cases answer : (x c w).1 with
  | error e => exact .inl ⟨e, by rwa [answer] at left, by rwa [answer] at right⟩
  | ok a => exact .inr ⟨a, by rwa [answer] at left, by rwa [answer] at right⟩

namespace Operation

open Work

variable {α β : Type} {S : α → β → Prop} {R : World → World → Prop} {c : Context} {w v : World}

lemma read_agree {f : Store → Store.Access α} {g : Store → Store.Access β}
    (h : Agree S (f w.store) (g v.store)) : Agree S (read f c w).1 (read g c v).1 := by
  unfold read
  cases fw : f w.store <;> cases gv : g v.store <;> rw [fw, gv] at h
  · cases h
    exact .error _
  · cases h
  · cases h
  · cases h with
    | ok h => exact .ok h

lemma readOr_agree {m : Missing} {f : Store → Store.Access (Option α)} {g : Store → Store.Access (Option β)}
    (h : Agree (Option.Rel S) (f w.store) (g v.store)) : Agree S (readOr m f c w).1 (readOr m g c v).1 := by
  unfold readOr
  cases fw : f w.store <;> cases gv : g v.store <;> rw [fw, gv] at h
  · cases h
    exact .error _
  · cases h
  · cases h
  · cases h with
    | ok h =>
      cases h with
      | none => exact .error _
      | some h => exact .ok h

lemma answer_readOr_eq {m : Missing} {f g : Store → Store.Access (Option α)} (h : f w.store = g v.store) :
    (readOr m f c w).1 = (readOr m g c v).1 := by
  unfold readOr
  rw [h]
  split <;> rfl

/-- Writes agree if the stores that they make are related. -/
lemma write_agreeAt {P : Store → Store → Prop} {f g : Store → Store.Access Store}
    {explain : StoreFault → Failure} (hR : R w v) (h : Agree P (f w.store) (g v.store))
    (made : ∀ s t, P s t → R { w with store := s } { v with store := t }) :
    AgreeAt (· = ·) R c w v (write f explain) (write g explain) := by
  rcases fw : f w.store with e | s <;> rcases gv : g v.store with e' | t <;> rw [fw, gv] at h
  · cases h
    have left : write f explain c w = (.error (explain e), w) := write_eq_error_iff.mpr ⟨e, fw, rfl, rfl⟩
    have right : write g explain c v = (.error (explain e), v) := write_eq_error_iff.mpr ⟨e, gv, rfl, rfl⟩
    exact ⟨by rw [left, right]; exact .error _, by rwa [left, right]⟩
  · cases h
  · cases h
  · cases h with
    | ok h =>
      have left : write f explain c w = (.ok (), { w with store := s }) := write_eq_ok_iff.mpr ⟨s, fw, rfl⟩
      have right : write g explain c v = (.ok (), { v with store := t }) := write_eq_ok_iff.mpr ⟨t, gv, rfl⟩
      exact ⟨by rw [left, right]; exact .ok rfl, by rw [left, right]; exact made _ _ h⟩

end Operation

end Approval
