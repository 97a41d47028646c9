import Approval.Workflow.Reach
import Mathlib.Data.List.Basic
import Mathlib.Logic.Relation
import Mathlib.Tactic.Lemma

/-!
# What exploring finds

Exploring finds every number of the given ones that links lead to, and nothing that they do not lead to.
Read forward from the first step, it finds the steps that rules lead to. Read backward from the rules that
lead to the end, it finds the steps with a way out, and that is no longer than there are steps.
-/

namespace Approval

open Relation

/-! ### Exploring -/

variable {links : Nat → List Nat} {left pending : List Nat} {x y : Nat}

lemma mem_left_of_find? {left pending : List Nat} {order : Nat}
    (found : pending.find? left.contains = some order) : order ∈ pending ∧ order ∈ left :=
  ⟨List.mem_of_find?_eq_some found, List.contains_iff_mem.mp (List.find?_some found)⟩

/-- What is left and pending is found. -/
lemma mem_explore_of_mem_pending (hp : x ∈ pending) (hl : x ∈ left) : x ∈ explore links left pending := by
  fun_induction explore links left pending with
  | case1 left pending found =>
    have := List.find?_eq_none.mp found x hp
    exact absurd (List.contains_iff_mem.mpr hl) this
  | case2 left pending order found ih =>
    by_cases same : x = order
    · rw [same]
      exact List.mem_cons_self
    · refine List.mem_cons_of_mem _ (ih (List.mem_append_right _ hp) ?_)
      exact (List.mem_erase_of_ne same).mpr hl

/-- What is left and linked from something found is found. -/
lemma mem_explore_of_mem_links (hx : x ∈ explore links left pending) (hy : y ∈ links x)
    (hl : y ∈ left) : y ∈ explore links left pending := by
  fun_induction explore links left pending with
  | case1 left pending found => exact absurd hx List.not_mem_nil
  | case2 left pending order found ih =>
    by_cases same : y = order
    · rw [same]
      exact List.mem_cons_self
    · have left_y : y ∈ left.erase order := (List.mem_erase_of_ne same).mpr hl
      refine List.mem_cons_of_mem _ ?_
      rcases List.mem_cons.mp hx with rfl | hx
      · exact mem_explore_of_mem_pending (List.mem_append_left _ hy) left_y
      · exact ih hx left_y

/-- All that links lead to from what is pending is found, if links stay within what is left. -/
lemma mem_explore_of_path (within : ∀ m, ∀ n ∈ links m, n ∈ left) (hp : x ∈ pending) (hl : x ∈ left)
    (path : ReflTransGen (fun m n => n ∈ links m) x y) : y ∈ explore links left pending := by
  induction path with
  | refl => exact mem_explore_of_mem_pending hp hl
  | tail _ link ih => exact mem_explore_of_mem_links ih link (within _ _ link)

/-- Links lead to all that is found from something that was pending. -/
lemma exists_path_of_mem_explore (h : y ∈ explore links left pending) :
    ∃ x ∈ pending, ReflTransGen (fun m n => n ∈ links m) x y := by
  fun_induction explore links left pending with
  | case1 left pending found => exact absurd h List.not_mem_nil
  | case2 left pending order found ih =>
    obtain ⟨mem_pending, -⟩ := mem_left_of_find? found
    rcases List.mem_cons.mp h with rfl | h
    · exact ⟨y, mem_pending, .refl⟩
    · obtain ⟨x, hx, path⟩ := ih h
      rcases List.mem_append.mp hx with link | old
      · exact ⟨order, mem_pending, .head link path⟩
      · exact ⟨x, old, path⟩

namespace Rule

/-! ### Forward -/

/-- A rule leads from one step to another. -/
def Leads (rules : List Rule) (m n : Nat) : Prop :=
  ∃ r ∈ rules, r.fromStep = m ∧ r.toStep = some n

@[simp]
lemma mem_targets {rules : List Rule} {m n : Nat} : n ∈ targets rules m ↔ Leads rules m n := by
  simp [targets, Leads]

@[simp]
lemma mem_sources {rules : List Rule} {m n : Nat} : m ∈ sources rules n ↔ Leads rules m n := by
  simp only [sources, Leads, List.mem_filterMap, Option.ite_none_right_eq_some, Option.some.injEq]
  constructor
  · rintro ⟨r, hr, leads, starts⟩
    exact ⟨r, hr, starts, leads⟩
  · rintro ⟨r, hr, starts, leads⟩
    exact ⟨r, hr, leads, starts⟩

/-- All steps that rules lead to from the first one are found. -/
lemma mem_explore_of_leads {rules : List Rule} {orders : List Nat} {first n : Nat}
    (hf : first ∈ orders) (known : ∀ m n, Leads rules m n → n ∈ orders)
    (path : ReflTransGen (Leads rules) first n) : n ∈ explore (targets rules) orders [first] :=
  mem_explore_of_path (fun m n link => known m n (mem_targets.mp link)) List.mem_cons_self hf
    (ReflTransGen.mono (fun _ _ leads => mem_targets.mpr leads) _ _ path)

/-- Rules lead from the first step to all steps that are found. -/
lemma leads_of_mem_explore {rules : List Rule} {orders : List Nat} {first n : Nat}
    (h : n ∈ explore (targets rules) orders [first]) : ReflTransGen (Leads rules) first n := by
  obtain ⟨x, hx, path⟩ := exists_path_of_mem_explore h
  obtain rfl := List.mem_singleton.mp hx
  exact ReflTransGen.mono (fun _ _ link => mem_targets.mp link) _ _ path

/-! ### Backward -/

/-- Rules lead from a step to the end within so many decisions. -/
inductive Leaves (rules : List Rule) : Nat → Nat → Prop
  | last {n : Nat} {r : Rule} (mem : r ∈ rules) (ends : r.toStep = none) : Leaves rules (n + 1) r.fromStep
  | onward {n order : Nat} {r : Rule} (mem : r ∈ rules) (leads : r.toStep = some order)
      (rest : Leaves rules n order) : Leaves rules (n + 1) r.fromStep

lemma Leaves.succ {rules : List Rule} {n order : Nat} (h : Leaves rules n order) :
    Leaves rules (n + 1) order := by
  induction h with
  | last mem ends => exact .last mem ends
  | onward mem leads _ ih => exact .onward mem leads ih

lemma Leaves.mono {rules : List Rule} {m n order : Nat} (h : Leaves rules m order) (le : m ≤ n) :
    Leaves rules n order := by
  induction le with
  | refl => exact h
  | step _ ih => exact ih.succ

/-- Rules lead from a step to one whose rule leads to the end. -/
def HasWayOut (rules : List Rule) (order : Nat) : Prop :=
  ∃ r ∈ rules, r.toStep = none ∧ ReflTransGen (Leads rules) order r.fromStep

lemma Leaves.hasWayOut {rules : List Rule} {n order : Nat} (h : Leaves rules n order) :
    HasWayOut rules order := by
  induction h with
  | @last n r mem ends => exact ⟨r, mem, ends, .refl⟩
  | @onward n order r mem leads _ ih =>
    obtain ⟨last, mem_last, ends, path⟩ := ih
    exact ⟨last, mem_last, ends, .head ⟨r, mem, rfl, leads⟩ path⟩

/-- Every step with a way out is found backward, if all rules start from the given steps. -/
lemma HasWayOut.mem_explore {rules : List Rule} {orders : List Nat} (h : HasWayOut rules x)
    (known : ∀ r ∈ rules, r.fromStep ∈ orders) : x ∈ explore (sources rules) orders (lastSteps rules) := by
  obtain ⟨r, mem, ends, path⟩ := h
  have last : r.fromStep ∈ lastSteps rules :=
    List.mem_map.mpr ⟨r, List.mem_filter.mpr ⟨mem, Option.isNone_iff_eq_none.mpr ends⟩, rfl⟩
  refine mem_explore_of_path (fun m n link => ?_) last (known r mem) ?_
  · obtain ⟨source, mem_source, rfl, -⟩ := mem_sources.mp link
    exact known source mem_source
  · exact ReflTransGen.mono (fun _ _ leads => mem_sources.mpr leads) _ _ (ReflTransGen.swap _ _ path)

/-- Each step found backward takes at most one decision more than those before it. -/
lemma leaves_of_mem_explore {rules : List Rule} {n : Nat} (hp : ∀ x ∈ pending, Leaves rules n x)
    (hx : x ∈ explore (sources rules) left pending) : ∃ k < left.length, Leaves rules (n + k) x := by
  generalize hs : sources rules = links at hx
  fun_induction explore links left pending generalizing n with
  | case1 left pending found => exact absurd hx List.not_mem_nil
  | case2 left pending order found ih =>
    subst hs
    obtain ⟨mem_pending, mem_left⟩ := mem_left_of_find? found
    have positive := List.length_pos_of_mem mem_left
    rcases List.mem_cons.mp hx with rfl | hx
    · exact ⟨0, positive, hp x mem_pending⟩
    · have further (y : Nat) (hy : y ∈ sources rules order ++ pending) : Leaves rules (n + 1) y := by
        rcases List.mem_append.mp hy with source | old
        · obtain ⟨r, mem, rfl, leads⟩ := mem_sources.mp source
          exact .onward mem leads (hp order mem_pending)
        · exact (hp y old).succ
      obtain ⟨k, below, leaves⟩ := ih further hx
      rw [List.length_erase_of_mem mem_left] at below
      refine ⟨k + 1, by omega, ?_⟩
      rwa [Nat.add_assoc, Nat.add_comm 1 k] at leaves

/-- A step found backward from the rules that lead to the end has a way out of as many decisions as there
are steps. -/
lemma leaves_of_mem_explore_lastSteps {rules : List Rule} {orders : List Nat}
    (h : x ∈ explore (sources rules) orders (lastSteps rules)) : Leaves rules orders.length x := by
  have last (y : Nat) (hy : y ∈ lastSteps rules) : Leaves rules 1 y := by
    obtain ⟨r, hr, rfl⟩ := List.mem_map.mp hy
    obtain ⟨mem, ends⟩ := List.mem_filter.mp hr
    exact .last mem (Option.isNone_iff_eq_none.mp ends)
  obtain ⟨k, below, leaves⟩ := leaves_of_mem_explore last h
  exact leaves.mono (by omega)

end Rule

end Approval
