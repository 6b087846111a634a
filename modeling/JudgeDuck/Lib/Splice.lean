/-
  Parts of a list.

  `part l off len` is what a list holds at an offset, and `splice l off d` is the list with `d` written over
  it there.  The lemmas say how the two go together, and what they are for the first elements of an array.
-/
import JudgeDuck.Lib.Arrays

namespace JudgeDuck.Lib

variable {α : Type} {l d : List α} {off len n : Nat}

/-- `len` elements from the position `off` on. -/
def part (l : List α) (off len : Nat) : List α := (l.drop off).take len

/-- The list with `d` from the position `off` on. -/
def splice (l : List α) (off : Nat) (d : List α) : List α := l.take off ++ (d ++ l.drop (off + d.length))

theorem length_part_le (l : List α) (off len : Nat) : (part l off len).length ≤ len := List.length_take_le _ _

theorem length_part (h : off + len ≤ l.length) : (part l off len).length = len := by
  rw [part, List.length_take, List.length_drop]
  omega

theorem length_splice (h : off + d.length ≤ l.length) : (splice l off d).length = l.length := by
  simp only [splice, List.length_append, List.length_take, List.length_drop]
  omega

theorem part_listOf (f : Nat → α) (h : off + len ≤ n) :
    part (listOf f n) off len = listOf (fun i => f (off + i)) len := by
  rw [part, drop_listOf, take_listOf, Nat.min_eq_left (by omega)]

/-- An array that is changed in one place. -/
theorem listOf_splice {f g : Nat → α} (h : off + d.length ≤ n)
    (hin : listOf (fun i => g (off + i)) d.length = d)
    (hout : ∀ i, i < n → i < off ∨ off + d.length ≤ i → g i = f i) :
    listOf g n = splice (listOf f n) off d := by
  obtain ⟨k, rfl⟩ := Nat.exists_eq_add_of_le h
  rw [splice, take_listOf, drop_listOf, Nat.min_eq_left (by omega), Nat.add_assoc off, listOf_add, listOf_add,
    hin]
  congr 1
  · exact listOf_congr fun i hi => hout i (by omega) (.inl hi)
  · congr 1
    rw [← Nat.add_assoc off, Nat.add_sub_cancel_left]
    refine listOf_congr fun i hi => ?_
    rw [← Nat.add_assoc off]
    exact hout _ (by omega) (.inr (by omega))

/-- What is elsewhere is not changed. -/
theorem part_splice_of_apart {off' : Nat} (hd : off' + d.length ≤ l.length) (h : off + len ≤ l.length)
    (hapart : off + len ≤ off' ∨ off' + d.length ≤ off) : part (splice l off' d) off len = part l off len := by
  refine List.ext_getElem? fun i => ?_
  simp only [part, splice, List.getElem?_take, List.getElem?_drop, List.getElem?_append, List.length_take]
  by_cases hi : i < len
  · rw [if_pos hi, if_pos hi]
    rcases hapart with hlow | hhigh
    · rw [if_pos (by omega), if_pos (by omega)]
    · rw [if_neg (by omega), if_neg (by omega)]
      congr 1
      omega
  · rw [if_neg hi, if_neg hi]

/-- What was written is there. -/
theorem part_splice (h : off + d.length ≤ l.length) : part (splice l off d) off d.length = d := by
  have htake : (l.take off).length = off := by rw [List.length_take]; omega
  rw [part, splice, List.drop_left' htake, List.take_left]

/-- Fewer elements from the same position. -/
theorem part_eq_take {k : Nat} (h : k ≤ len) : part l off k = (part l off len).take k := by
  rw [part, part, List.take_take, Nat.min_eq_left h]

/-! ## Several places -/

/-- Everything in `ds` is written to its position, one after the other. -/
def spliceAll (l : List α) (ds : List (Nat × List α)) : List α := ds.foldl (fun l d => splice l d.1 d.2) l

/-- Two places with no position in common. -/
def Apart (d e : Nat × List α) : Prop := d.1 + d.2.length ≤ e.1 ∨ e.1 + e.2.length ≤ d.1

variable {ds : List (Nat × List α)}

/-- What is apart from all places is not changed. -/
theorem part_spliceAll_of_apart (hin : ∀ d ∈ ds, d.1 + d.2.length ≤ l.length) (h : off + len ≤ l.length)
    (hapart : ∀ d ∈ ds, off + len ≤ d.1 ∨ d.1 + d.2.length ≤ off) :
    part (spliceAll l ds) off len = part l off len := by
  induction ds generalizing l with
  | nil => rfl
  | cons d ds ih =>
    obtain ⟨hd, hds⟩ := List.forall_mem_cons.mp hin
    obtain ⟨hfirst, hrest⟩ := List.forall_mem_cons.mp hapart
    have hlen := length_splice hd
    rw [← part_splice_of_apart hd h hfirst]
    exact ih (by rwa [hlen]) (by rwa [hlen]) hrest

/-- **Everything is where it was written**, if the places are apart. -/
theorem part_spliceAll (hin : ∀ d ∈ ds, d.1 + d.2.length ≤ l.length) (hapart : ds.Pairwise Apart)
    (d : Nat × List α) (hd : d ∈ ds) : part (spliceAll l ds) d.1 d.2.length = d.2 := by
  induction ds generalizing l with
  | nil => exact absurd hd List.not_mem_nil
  | cons e ds ih =>
    obtain ⟨he, hds⟩ := List.forall_mem_cons.mp hin
    obtain ⟨hfirst, hrest⟩ := List.pairwise_cons.mp hapart
    have hlen := length_splice he
    rcases List.mem_cons.mp hd with rfl | hd
    · refine (part_spliceAll_of_apart (by rwa [hlen]) (by rwa [hlen]) hfirst).trans ?_
      exact part_splice he
    · exact ih (by rwa [hlen]) hrest hd

end JudgeDuck.Lib
