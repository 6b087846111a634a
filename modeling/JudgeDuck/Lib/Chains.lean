/-
  Chains of `next` pointers that share one pool of pages.

  A chain is a start pointer and a number of pages: `List.iterate next start n` are its pages.
  Chains are not terminated, only counted; the pointer in the last page of a chain may lead
  anywhere.  One chain, the free list, does end in the null pointer.  `Pool` says that the chains
  and the free list together visit every page of the pool exactly once.  The two operations on a
  pool are taking pages from the front of the free list (`Pool.take`) and putting a whole chain
  back in front of it by redirecting its last pointer (`Pool.release`); the second changes no
  other chain (`Pool.release_frame`).
-/
import Mathlib.Algebra.Order.Ring.Nat
import Mathlib.Data.List.Iterate
import Mathlib.Data.List.Nodup
import Mathlib.Data.List.Perm.Basic
import Mathlib.Logic.Function.Basic

namespace JudgeDuck.Lib

variable {α : Type}

/-! ## One chain -/

/-- Two pointer maps that agree on the pages of a chain, its last one apart, have the same chain. -/
theorem iterate_congr {next next' : α → α} : ∀ {n : Nat} {a : α},
    (∀ k, k + 1 < n → next' (next^[k] a) = next (next^[k] a)) →
    List.iterate next' a n = List.iterate next a n := by
  intro n
  induction n with
  | zero => exact fun _ => rfl
  | succ n ih =>
    intro a h
    rw [List.iterate, List.iterate]
    cases n with
    | zero => rfl
    | succ n =>
      have h0 : next' a = next a := h 0 (by omega)
      rw [h0, ih fun k hk => h (k + 1) (by omega)]

theorem mem_iterate_of_lt {next : α → α} {a : α} {k n : Nat} (h : k < n) :
    next^[k] a ∈ List.iterate next a n :=
  List.mem_iterate.mpr ⟨k, h, rfl⟩

/-- A write outside a chain leaves its pages alone. -/
theorem iterate_congr_of_mem {next next' : α → α} {n : Nat} {a : α}
    (h : ∀ p ∈ List.iterate next a n, next' p = next p) :
    List.iterate next' a n = List.iterate next a n :=
  iterate_congr fun k hk => h _ (mem_iterate_of_lt (by omega))

/-- A write outside a chain leaves the pointer after it alone. -/
theorem end_congr_of_mem {next next' : α → α} {n : Nat} {a : α}
    (h : ∀ p ∈ List.iterate next a n, next' p = next p) : next'^[n] a = next^[n] a := by
  induction n generalizing a with
  | zero => rfl
  | succ n ih =>
    rw [List.iterate] at h
    rcases List.forall_mem_cons.mp h with ⟨h0, hrest⟩
    rw [Function.iterate_succ_apply, Function.iterate_succ_apply, h0, ih hrest]

/-- The last page of a duplicate-free chain is redirected: the pages stay, and the chain now leads
    to the new target. -/
theorem redirect_last [DecidableEq α] {next : α → α} {a : α} {n : Nat} (free : α)
    (hn : (List.iterate next a (n + 1)).Nodup) :
    List.iterate (Function.update next (next^[n] a) free) a (n + 1) = List.iterate next a (n + 1) ∧
      (Function.update next (next^[n] a) free)^[n + 1] a = free := by
  have hne : ∀ k, k < n → next^[k] a ≠ next^[n] a := by
    intro k hk heq
    have hlen : n < (List.iterate next a (n + 1)).length := by rw [List.length_iterate]; omega
    apply List.nodup_iff_getElem?_ne_getElem?.mp hn k n hk hlen
    rw [List.getElem?_iterate _ _ _ _ (by omega), List.getElem?_iterate _ _ _ _ (by omega), heq]
  have hpages : List.iterate (Function.update next (next^[n] a) free) a n = List.iterate next a n :=
    iterate_congr fun k hk => Function.update_of_ne (hne k (by omega)) _ _
  have hend : (Function.update next (next^[n] a) free)^[n] a = next^[n] a := by
    refine end_congr_of_mem fun p hp => Function.update_of_ne ?_ _ _
    rcases List.mem_iterate.mp hp with ⟨k, hk, rfl⟩
    exact hne k hk
  constructor
  · rw [List.iterate_add, List.iterate_add, hpages, hend]
    rfl
  · rw [Function.iterate_succ_apply', hend, Function.update_self]

/-! ## The pool -/

/-- The pages of a chain, given by its start and its length. -/
def chainPages (next : α → α) (chain : α × Nat) : List α := List.iterate next chain.1 chain.2

/-- The chains and the free list partition the pages `all`, and the free list ends in `null`. -/
structure Pool (next : α → α) (chains : List (α × Nat)) (free : α) (nFree : Nat) (null : α)
    (all : List α) : Prop where
  pages : (chains.flatMap (chainPages next) ++ List.iterate next free nFree).Perm all
  ends : next^[nFree] free = null

section Pool

variable {next : α → α} {chains : List (α × Nat)} {free null : α} {nFree : Nat} {all : List α}

/-- The order of the chains is immaterial. -/
theorem Pool.of_perm {chains' : List (α × Nat)} (h : Pool next chains free nFree null all)
    (hp : chains'.Perm chains) : Pool next chains' free nFree null all :=
  ⟨((hp.flatMap_right _).append_right _).trans h.pages, h.ends⟩

/-- Every page of a chain belongs to the pool. -/
theorem Pool.mem_all {c : α × Nat} {p : α} (h : Pool next chains free nFree null all)
    (hc : c ∈ chains) (hp : p ∈ chainPages next c) : p ∈ all :=
  h.pages.subset (List.mem_append_left _ (List.mem_flatMap.mpr ⟨c, hc, hp⟩))

theorem Pool.free_mem_all {p : α} (h : Pool next chains free nFree null all)
    (hp : p ∈ List.iterate next free nFree) : p ∈ all :=
  h.pages.subset (List.mem_append_right _ hp)

/-- No page is counted twice, so the free list is no longer than the pool. -/
theorem Pool.length (h : Pool next chains free nFree null all) :
    (chains.map Prod.snd).sum + nFree = all.length := by
  have hlen := h.pages.length_eq
  rw [List.length_append, List.length_iterate, List.length_flatMap] at hlen
  rw [← hlen]
  refine congrArg (· + nFree) (congrArg List.sum (List.map_congr_left fun c _ => ?_))
  exact (List.length_iterate ..).symm

theorem Pool.disjoint_free {c : α × Nat} {p : α} (h : Pool next chains free nFree null all)
    (hall : all.Nodup) (hc : c ∈ chains) (hp : p ∈ chainPages next c) :
    p ∉ List.iterate next free nFree := by
  have hn := h.pages.nodup_iff.mpr hall
  intro hfree
  exact (List.nodup_append.mp hn).2.2 p (List.mem_flatMap.mpr ⟨c, hc, hp⟩) p hfree rfl

/-- The free list visits no page twice. -/
theorem Pool.nodup_free {n : Nat} (h : Pool next chains free nFree null all) (hall : all.Nodup)
    (hn : n ≤ nFree) : (List.iterate next free n).Nodup := by
  have hfree := (List.nodup_append.mp (h.pages.nodup_iff.mpr hall)).2.1
  have htake := hfree.sublist (List.take_sublist n _)
  rwa [List.take_iterate, Nat.min_eq_left hn] at htake

/-- **Allocation**: the first `n` free pages become a chain. -/
theorem Pool.take {n : Nat} (h : Pool next chains free nFree null all) (hn : n ≤ nFree) :
    Pool next ((free, n) :: chains) (next^[n] free) (nFree - n) null all := by
  obtain ⟨k, rfl⟩ := Nat.exists_eq_add_of_le hn
  rw [Nat.add_sub_cancel_left]
  obtain ⟨hpages, hends⟩ := h
  refine ⟨?_, by rw [← hends, Nat.add_comm, Function.iterate_add_apply]⟩
  rw [List.iterate_add] at hpages
  rw [List.flatMap_cons]
  show ((List.iterate next free n ++ _) ++ _).Perm all
  refine List.Perm.trans ?_ hpages
  rw [← List.append_assoc]
  exact List.perm_append_comm.append_right _

variable [DecidableEq α] {a : α} {n : Nat}

/-- Redirecting the last page of the first chain changes no other chain. -/
theorem Pool.release_frame (h : Pool next ((a, n + 1) :: chains) free nFree null all)
    (hall : all.Nodup) {c : α × Nat} (hc : c ∈ chains) :
    chainPages (Function.update next (next^[n] a) free) c = chainPages next c := by
  have hn := (List.nodup_append.mp (h.pages.nodup_iff.mpr hall)).1
  rw [List.flatMap_cons] at hn
  refine iterate_congr_of_mem fun p hp => Function.update_of_ne ?_ _ _
  rintro rfl
  have hlast : next^[n] a ∈ chainPages next (a, n + 1) := mem_iterate_of_lt (Nat.lt_succ_self n)
  exact (List.nodup_append.mp hn).2.2 _ hlast _ (List.mem_flatMap.mpr ⟨c, hc, hp⟩) rfl

/-- **Release**: the first chain is put in front of the free list. -/
theorem Pool.release (h : Pool next ((a, n + 1) :: chains) free nFree null all) (hall : all.Nodup) :
    Pool (Function.update next (next^[n] a) free) chains a (nFree + (n + 1)) null all := by
  have hlast : next^[n] a ∈ chainPages next (a, n + 1) := mem_iterate_of_lt (Nat.lt_succ_self n)
  have hnot := h.disjoint_free hall List.mem_cons_self hlast
  have hsame : ∀ p ∈ List.iterate next free nFree,
      Function.update next (next^[n] a) free p = next p := by
    intro p hp
    refine Function.update_of_ne ?_ _ _
    rintro rfl
    exact hnot hp
  have hnodup : (List.iterate next a (n + 1)).Nodup := by
    have hn := (List.nodup_append.mp (h.pages.nodup_iff.mpr hall)).1
    rw [List.flatMap_cons] at hn
    exact (List.nodup_append.mp hn).1
  obtain ⟨hpages, hend⟩ := redirect_last free hnodup
  rw [Nat.add_comm nFree]
  constructor
  · have hchains : chains.flatMap (chainPages (Function.update next (next^[n] a) free)) =
        chains.flatMap (chainPages next) :=
      List.flatMap_congr fun c hc => h.release_frame hall hc
    rw [hchains, List.iterate_add, hpages, hend, iterate_congr_of_mem hsame, ← List.append_assoc]
    refine List.Perm.trans ?_ h.pages
    exact List.perm_append_comm.append_right _
  · rw [Nat.add_comm, Function.iterate_add_apply, hend, end_congr_of_mem hsame]
    exact h.ends

end Pool

end JudgeDuck.Lib
