/-
  Lists built by `flatMap`: what a filter in front of it drops, and what it is when every member
  contributes one element or nothing, or all but one member contribute nothing.  Two lists that agree
  on the members with a property, up to order, are compared on the others.  A sorted list takes a new member between smaller and greater ones.
-/
import Mathlib.Data.List.Basic
import Mathlib.Data.List.Nodup

namespace JudgeDuck.Lib

variable {α β : Type}

/-- Members that contribute nothing may be filtered out first. -/
theorem flatMap_filter_of_nil {p : α → Bool} {f : α → List β} {l : List α}
    (h : ∀ x ∈ l, ¬ p x = true → f x = []) : (l.filter p).flatMap f = l.flatMap f := by
  induction l with
  | nil => rfl
  | cons x l ih =>
    have ih' := ih (fun y hy => h y (List.mem_cons_of_mem x hy))
    rw [List.filter_cons, List.flatMap_cons]
    by_cases hx : p x = true
    · rw [if_pos hx, List.flatMap_cons, ih']
    · rw [if_neg hx, ih', h x List.mem_cons_self hx, List.nil_append]

/-- Members that contribute one element or nothing. -/
theorem flatMap_ite_singleton {p : α → Prop} [DecidablePred p] (f : α → β) (l : List α) :
    (l.flatMap fun x => if p x then [f x] else []) = (l.filter fun x => decide (p x)).map f := by
  induction l with
  | nil => rfl
  | cons x l ih =>
    rw [List.flatMap_cons, ih, List.filter_cons]
    by_cases hx : p x
    · rw [if_pos hx, if_pos (decide_eq_true hx)]
      rfl
    · rw [if_neg hx, if_neg (fun h => hx (of_decide_eq_true h))]
      rfl

/-- If one member `a` of a duplicate-free list contributes at all, it is the whole. -/
theorem flatMap_eq_of_unique {f : α → List β} {l : List α} {a : α} (hn : l.Nodup) (ha : a ∈ l)
    (h : ∀ x ∈ l, x ≠ a → f x = []) : l.flatMap f = f a := by
  induction l with
  | nil => exact absurd ha List.not_mem_nil
  | cons x l ih =>
    rcases List.nodup_cons.mp hn with ⟨hx, hl⟩
    have htail : ∀ y ∈ l, y ≠ a → f y = [] := fun y hy => h y (List.mem_cons_of_mem x hy)
    rw [List.flatMap_cons]
    rcases List.mem_cons.mp ha with rfl | ha'
    · have hnil : l.flatMap f = [] :=
        List.flatMap_eq_nil_iff.mpr fun y hy => htail y hy (fun e => hx (e ▸ hy))
      rw [hnil, List.append_nil]
    · have hne : x ≠ a := fun e => hx (e ▸ ha')
      rw [h x List.mem_cons_self hne, ih hl ha' htail, List.nil_append]

/-- A common part, in whatever order, does not matter for equality up to order. -/
theorem map_perm_iff_of_filter {l1 l2 : List α} {p : α → Bool} (f : α → β)
    (h : (l1.filter p).Perm (l2.filter p)) :
    (l1.map f).Perm (l2.map f) ↔
      ((l1.filter fun x => !p x).map f).Perm ((l2.filter fun x => !p x).map f) := by
  have hsplit : ∀ l : List α,
      ((l.filter p).map f ++ (l.filter fun x => !p x).map f).Perm (l.map f) := by
    intro l
    rw [← List.map_append]
    exact (List.filter_append_perm p l).map f
  have h2 : ((l1.filter p).map f ++ (l2.filter fun x => !p x).map f).Perm (l2.map f) :=
    ((h.map f).append_right _).trans (hsplit l2)
  constructor
  · intro hmap
    exact (List.perm_append_left_iff _).mp (((hsplit l1).trans hmap).trans h2.symm)
  · intro hmap
    exact ((hsplit l1).symm.trans (hmap.append_left _)).trans h2

/-- A new member between the ones before it and the ones after it. -/
theorem pairwise_insert {R : α → α → Prop} {l1 l2 : List α} {x : α} (h : (l1 ++ l2).Pairwise R)
    (h1 : ∀ y ∈ l1, R y x) (h2 : ∀ y ∈ l2, R x y) : (l1 ++ x :: l2).Pairwise R := by
  rcases List.pairwise_append.mp h with ⟨hs1, hs2, hs12⟩
  refine List.pairwise_append.mpr ⟨hs1, List.pairwise_cons.mpr ⟨h2, hs2⟩, fun y hy z hz => ?_⟩
  rcases List.mem_cons.mp hz with rfl | hz
  · exact h1 y hy
  · exact hs12 y hy z hz

end JudgeDuck.Lib
