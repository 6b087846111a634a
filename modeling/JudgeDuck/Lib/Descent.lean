/-
  Recursion along a relation, with a bound on its depth.

  A function that calls itself for every `b` with `r a b` ends iff the calls from `a` have a bounded
  depth (`Descends`).  If only finitely many values can be reached, that depends on cycles alone: the
  recursion ends iff no value that can be reached lies on a cycle, and then the depth is at most the
  number of values (`exists_descends_iff`, `descends_of_acyclic`).
-/
import Mathlib.Data.Finset.Card
import Mathlib.Logic.Relation

namespace JudgeDuck.Lib

open Relation

variable {α : Type} {r : α → α → Prop} {a b : α} {d : Nat}

/-- Calls from `a` go less than `d` calls deep. -/
def Descends (r : α → α → Prop) : Nat → α → Prop
  | 0, _ => False
  | d + 1, a => ∀ b, r a b → Descends r d b

/-- No value that can be reached from `a` lies on a cycle. -/
def Acyclic (r : α → α → Prop) (a : α) : Prop := ∀ b, ReflTransGen r a b → ¬ TransGen r b b

theorem Acyclic.step (h : Acyclic r a) (hab : r a b) : Acyclic r b :=
  fun c hc => h c (ReflTransGen.head hab hc)

/-- A bounded depth excludes a cycle through `a`: the calls from the next value on the cycle go less
    deep, and it lies on the same cycle. -/
theorem Descends.not_transGen (h : Descends r d a) : ¬ TransGen r a a := by
  induction d generalizing a with
  | zero => exact h.elim
  | succ d ih =>
    intro hcycle
    obtain ⟨b, hab, hba⟩ := TransGen.head'_iff.mp hcycle
    exact ih (h b hab) (TransGen.tail' hba hab)

theorem Descends.acyclic (h : Descends r d a) : Acyclic r a := by
  induction d generalizing a with
  | zero => exact h.elim
  | succ d ih =>
    intro c hac
    rcases hac.cases_head with rfl | ⟨b, hab, hbc⟩
    · exact h.not_transGen
    · exact ih (h b hab) c hbc

/-- **Without cycles the depth is bounded** by the number of values that can be reached: what is called
    cannot reach its caller. -/
theorem descends_of_acyclic {S : Finset α} (hS : ∀ b, ReflTransGen r a b → b ∈ S) (hd : S.card ≤ d)
    (h : Acyclic r a) : Descends r d a := by
  classical
  induction d generalizing a S with
  | zero =>
    have hempty : S = ∅ := Finset.card_eq_zero.mp (Nat.le_zero.mp hd)
    have ha := hS a .refl
    rw [hempty] at ha
    exact absurd ha (Finset.notMem_empty a)
  | succ d ih =>
    intro b hab
    have hcard : (S.erase a).card ≤ d := by
      rw [Finset.card_erase_of_mem (hS a .refl)]
      omega
    refine ih ?_ hcard (h.step hab)
    intro c hbc
    refine Finset.mem_erase.mpr ⟨?_, hS c (.head hab hbc)⟩
    rintro rfl
    exact h c .refl (TransGen.head' hab hbc)

/-- **The recursion ends iff no cycle can be reached.** -/
theorem exists_descends_iff {S : Finset α} (hS : ∀ b, ReflTransGen r a b → b ∈ S) :
    (∃ d, Descends r d a) ↔ Acyclic r a := by
  constructor
  · rintro ⟨d, h⟩
    exact h.acyclic
  · intro h
    exact ⟨S.card, descends_of_acyclic hS le_rfl h⟩

end JudgeDuck.Lib
