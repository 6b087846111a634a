/-
  Rings: an array of `n` slots that is written and read in rounds.

  Positions are counted without wrapping; the position `k` lives in the slot `k % n`.  What is
  between the position read next and the position written next is the list `window ring n lo hi`.
  As long as the window is no longer than the ring its positions have different slots
  (`slot_inj`), so storing at `hi` appends to the list (`window_push`) and reading at `lo` takes the
  head off (`window_pop`).  Programs keep the two positions modulo some `w`, a multiple of `n`, and
  compare them there.
-/
import Mathlib.Data.List.Basic
import Mathlib.Data.List.Range
import Mathlib.Data.Nat.ModEq
import Mathlib.Logic.Function.Basic
import Mathlib.Order.Interval.Finset.Nat

namespace JudgeDuck.Lib.Ring

variable {α : Type} {ring : Nat → α} {n lo hi : Nat}

/-! ## Positions and slots -/

/-- Positions less than `n` apart have different slots. -/
theorem slot_inj (lo : Nat) {a b : Nat} (ha : lo ≤ a ∧ a < lo + n) (hb : lo ≤ b ∧ b < lo + n)
    (h : a % n = b % n) : a = b :=
  Nat.mod_injOn_Ico lo n (Finset.mem_coe.mpr (Finset.mem_Ico.mpr ha))
    (Finset.mem_coe.mpr (Finset.mem_Ico.mpr hb)) h

/-- `x & (n - 1)` is the slot of a position kept modulo `w`. -/
theorem and_mask_slot {k x w e : Nat} (hn : n = 2 ^ e) (hw : n ∣ w) (hx : x = k % w) :
    x &&& (n - 1) = k % n := by
  rw [hn, Nat.and_two_pow_sub_one_eq_mod, hx, ← hn, Nat.mod_mod_of_dvd _ hw]

/-! ## What a ring holds -/

/-- What the slots hold from the position `lo` to the position `hi`. -/
def window (ring : Nat → α) (n lo hi : Nat) : List α :=
  (List.range' lo (hi - lo)).map fun k => ring (k % n)

@[simp] theorem length_window : (window ring n lo hi).length = hi - lo := by
  rw [window, List.length_map, List.length_range']

@[simp] theorem window_self : window ring n lo lo = [] := by
  rw [window, Nat.sub_self]
  rfl

theorem window_congr {ring' : Nat → α} (h : ∀ k, lo ≤ k → k < hi → ring (k % n) = ring' (k % n)) :
    window ring n lo hi = window ring' n lo hi := by
  refine List.map_congr_left fun k hk => ?_
  obtain ⟨h1, h2⟩ := List.mem_range'_1.mp hk
  exact h k h1 (by omega)

/-- The window as a program sees it, that keeps `lo` modulo `w`. -/
theorem map_range_mod (ring : Nat → α) {w e : Nat} (lo d : Nat) (hn : n = 2 ^ e) (hw : n ∣ w) :
    (List.range d).map (fun i => ring ((lo % w + i) % w &&& (n - 1))) = window ring n lo (lo + d) := by
  rw [window, Nat.add_sub_cancel_left, List.range'_eq_map_range, List.map_map]
  refine List.map_congr_left fun i _ => congrArg ring ?_
  rw [and_mask_slot hn hw (Nat.mod_add_mod lo w i)]

/-- Reading at `lo` takes the head off. -/
theorem window_pop (h : lo < hi) :
    window ring n lo hi = ring (lo % n) :: window ring n (lo + 1) hi := by
  obtain ⟨d, hd⟩ : ∃ d, hi - lo = d + 1 := ⟨hi - lo - 1, by omega⟩
  rw [window, window, hd, show hi - (lo + 1) = d by omega, List.range'_succ, List.map_cons]

theorem window_drop (k : Nat) : (window ring n lo hi).drop k = window ring n (lo + k) hi := by
  rw [window, window, ← List.map_drop, List.drop_range', Nat.mul_one, Nat.sub_sub]

theorem window_succ (h : lo ≤ hi) :
    window ring n lo (hi + 1) = window ring n lo hi ++ [ring (hi % n)] := by
  rw [window, window, show hi + 1 - lo = hi - lo + 1 by omega, List.range'_concat, List.map_append,
    show lo + 1 * (hi - lo) = hi by omega]
  rfl

/-- A position outside the window may be written. -/
theorem window_update {k : Nat} {x : α} (hlen : hi ≤ lo + n) (hk : hi ≤ k) (hk' : k < lo + n) :
    window (Function.update ring (k % n) x) n lo hi = window ring n lo hi := by
  refine window_congr fun j h1 h2 => Function.update_of_ne (fun hslot => ?_) _ _
  have := slot_inj lo ⟨h1, by omega⟩ ⟨by omega, hk'⟩ hslot
  omega

/-- **Storing at `hi`** appends, while there is room. -/
theorem window_push (x : α) (h : lo ≤ hi) (hroom : hi < lo + n) :
    window (Function.update ring (hi % n) x) n lo (hi + 1) = window ring n lo hi ++ [x] := by
  rw [window_succ h, Function.update_self, window_update (Nat.le_of_lt hroom) (Nat.le_refl hi) hroom]

end JudgeDuck.Lib.Ring
