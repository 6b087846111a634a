/-
  Tables with free slots.

  A table is a function from slots to what they hold, if anything.  `occupied f n` lists what the
  first `n` slots hold; filling a free slot adds to the list and emptying a slot takes away from it.

  A set of slots is often kept as a bitmap, an array of words.  `Bitmap.mem` says which slots are in
  the set, and the lemmas say what the usual operations with masks do to it.
-/
import Mathlib.Data.List.Basic
import Mathlib.Data.List.Range
import Mathlib.Logic.Function.Basic

namespace JudgeDuck.Lib

variable {α : Type} {f : Nat → Option α} {i n : Nat} {x : α}

/-- What the first `n` slots hold. -/
def occupied (f : Nat → Option α) (n : Nat) : List α := (List.range n).filterMap f

theorem mem_occupied : x ∈ occupied f n ↔ ∃ i, i < n ∧ f i = some x := by
  simp only [occupied, List.mem_filterMap, List.mem_range]

theorem occupied_congr {g : Nat → Option α} (h : ∀ i, i < n → f i = g i) :
    occupied f n = occupied g n :=
  List.filterMap_congr fun i hi => h i (List.mem_range.mp hi)

/-- The last slot, if it is taken. -/
theorem occupied_succ (f : Nat → Option α) (n : Nat) :
    occupied f (n + 1) = occupied f n ++ (f n).toList := by
  rw [occupied, List.range_succ, List.filterMap_append]
  cases h : f n <;> simp [occupied, h]

/-- **Filling a free slot**. -/
theorem occupied_insert (x : α) (hi : i < n) (hfree : f i = none) :
    (occupied (Function.update f i (some x)) n).Perm (x :: occupied f n) := by
  induction n with
  | zero => omega
  | succ n ih =>
    rw [occupied_succ, occupied_succ]
    rcases Nat.lt_or_eq_of_le (Nat.le_of_lt_succ hi) with hlt | rfl
    · rw [Function.update_of_ne (show n ≠ i by omega)]
      exact (ih hlt).append_right _
    · rw [Function.update_self, hfree,
        occupied_congr fun j hj => Function.update_of_ne (Nat.ne_of_lt hj) _ _]
      simp only [Option.toList_some, Option.toList_none, List.append_nil]
      exact List.perm_append_singleton _ _

/-- **Emptying a slot**. -/
theorem occupied_remove (hi : i < n) (hx : f i = some x) :
    (occupied f n).Perm (x :: occupied (Function.update f i none) n) := by
  have h := occupied_insert x hi (Function.update_self i none f)
  rwa [Function.update_idem, ← hx, Function.update_eq_self] at h

/-! ## Bitmaps -/

namespace Bitmap

variable {w : Nat} {x : BitVec w} {k : Nat}

/-- `x & (1 << k)` tests a bit. -/
theorem and_mask_ne_zero (hk : k < w) : (x &&& (1#w <<< k) != 0#w) = x.getLsbD k := by
  rw [← BitVec.twoPow_eq, BitVec.and_twoPow]
  cases x.getLsbD k with
  | false => simp
  | true =>
    have hne : BitVec.twoPow w k ≠ 0#w := by
      intro h
      have hbit := congrArg (fun y : BitVec w => y.getLsbD k) h
      simp [hk] at hbit
    simp [hne]

/-- `(x >> k) & 1` tests a bit. -/
theorem shift_and_one_ne_zero (hw : 0 < w) : ((x >>> k) &&& 1#w != 0#w) = x.getLsbD k := by
  have h := and_mask_ne_zero (x := x >>> k) hw
  simpa using h

theorem exists_getLsbD (hx : x ≠ 0#w) : ∃ k, k < w ∧ x.getLsbD k = true := by
  by_contra hno
  refine hx (BitVec.eq_of_getLsbD_eq fun i hi => ?_)
  rw [BitVec.getLsbD_zero, ← Bool.not_eq_true]
  exact fun hbit => hno ⟨i, hi, hbit⟩

/-- The slot `i` is in the set. -/
def mem (f : Nat → BitVec w) (i : Nat) : Bool := (f (i / w)).getLsbD (i % w)

variable {f : Nat → BitVec w} {i : Nat}

theorem mod_eq_mod_iff {j : Nat} (hword : j / w = i / w) : i % w = j % w ↔ j = i := by
  refine ⟨fun h => ?_, fun h => by rw [h]⟩
  rw [← Nat.div_add_mod j w, ← Nat.div_add_mod i w, hword, h]

/-- `f[i / w] |= 1 << (i % w)` puts a slot into the set. -/
theorem mem_set (hw : 0 < w) (j : Nat) :
    mem (Function.update f (i / w) (f (i / w) ||| (1#w <<< (i % w)))) j
      = (decide (j = i) || mem f j) := by
  have hi := Nat.mod_lt i hw
  rw [mem, mem, ← BitVec.twoPow_eq]
  by_cases hword : j / w = i / w
  · rw [hword, Function.update_self, BitVec.getLsbD_or, BitVec.getLsbD_twoPow, Bool.or_comm]
    simp [hi, mod_eq_mod_iff hword]
  · have hne : j ≠ i := fun h => hword (by rw [h])
    rw [Function.update_of_ne hword, decide_eq_false hne, Bool.false_or]

/-- `f[i / w] &= ~(1 << (i % w))` takes a slot out of the set. -/
theorem mem_clear (hw : 0 < w) (j : Nat) :
    mem (Function.update f (i / w) (f (i / w) &&& ~~~ (1#w <<< (i % w)))) j
      = (!decide (j = i) && mem f j) := by
  have hi := Nat.mod_lt i hw
  rw [mem, mem, ← BitVec.twoPow_eq]
  by_cases hword : j / w = i / w
  · rw [hword, Function.update_self, BitVec.getLsbD_and, BitVec.getLsbD_not, BitVec.getLsbD_twoPow,
      Bool.and_comm]
    simp [hi, mod_eq_mod_iff hword, Nat.mod_lt j hw]
  · have hne : j ≠ i := fun h => hword (by rw [h])
    rw [Function.update_of_ne hword, decide_eq_false hne, Bool.not_false, Bool.true_and]

end Bitmap

end JudgeDuck.Lib
