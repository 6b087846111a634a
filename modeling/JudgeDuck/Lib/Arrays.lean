/-
  C arrays as total functions from indices.

  `listOf f n` lists the first `n` elements of the array `f`.  The operations of the C library on
  arrays are given on the functions (`memcpy`, `memmove` by one place, `std::lower_bound` and
  `std::upper_bound`), and so are two loops that C sources write by hand: dropping elements in
  place and halving an interval.  The lemmas say what they do to the list.
-/
import JudgeDuck.Lib.Loop
import Mathlib.Data.List.Basic
import Mathlib.Data.List.Range
import Mathlib.Logic.Function.Basic

namespace JudgeDuck.Lib

variable {α : Type}

/-! ## The first elements -/

/-- `f[0], …, f[n - 1]`. -/
def listOf (f : Nat → α) (n : Nat) : List α := (List.range n).map f

@[simp] theorem length_listOf (f : Nat → α) (n : Nat) : (listOf f n).length = n := by
  rw [listOf, List.length_map, List.length_range]

@[simp] theorem mem_listOf {f : Nat → α} {n : Nat} {x : α} :
    x ∈ listOf f n ↔ ∃ i, i < n ∧ f i = x := by
  simp only [listOf, List.mem_map, List.mem_range]

theorem getD_listOf {f : Nat → α} {n i : Nat} (hi : i < n) (x : α) :
    (listOf f n).getD i x = f i := by
  rw [List.getD_eq_getElem?_getD, listOf, List.getElem?_map, List.getElem?_range hi]
  rfl

theorem listOf_congr {f g : Nat → α} {n : Nat} (h : ∀ i, i < n → f i = g i) :
    listOf f n = listOf g n :=
  List.map_congr_left fun i hi => h i (List.mem_range.mp hi)

theorem listOf_succ (f : Nat → α) (n : Nat) : listOf f (n + 1) = listOf f n ++ [f n] := by
  rw [listOf, List.range_succ, List.map_append]
  rfl

theorem listOf_succ_left (f : Nat → α) (n : Nat) :
    listOf f (n + 1) = f 0 :: listOf (fun i => f (i + 1)) n := by
  rw [listOf, List.range_succ_eq_map, List.map_cons, List.map_map]
  rfl

theorem listOf_add (f : Nat → α) (m n : Nat) :
    listOf f (m + n) = listOf f m ++ listOf (fun i => f (m + i)) n := by
  rw [listOf, List.range_add, List.map_append, List.map_map]
  rfl

theorem take_listOf (f : Nat → α) (n k : Nat) : (listOf f n).take k = listOf f (min k n) := by
  rw [listOf, ← List.map_take, List.take_range]
  rfl

theorem drop_listOf (f : Nat → α) (n k : Nat) :
    (listOf f n).drop k = listOf (fun i => f (k + i)) (n - k) := by
  rcases Nat.le_total k n with hle | hle
  · obtain ⟨d, rfl⟩ := Nat.exists_eq_add_of_le hle
    rw [listOf_add, List.drop_left' (length_listOf f k), Nat.add_sub_cancel_left]
  · rw [List.drop_eq_nil_of_le (by rwa [length_listOf]), Nat.sub_eq_zero_of_le hle]
    rfl

/-- An element of the array, if its list is known. -/
theorem apply_of_listOf {f : Nat → α} {n i : Nat} {l : List α} (h : listOf f n = l) (hi : i < n)
    (x : α) : f i = l.getD i x := by
  rw [← h, getD_listOf hi]

/-- Two lists one after the other, each in its place. -/
theorem listOf_eq_append {f : Nat → α} {n : Nat} {l l' : List α} (h : listOf f n = l ++ l') :
    listOf f l.length = l ∧ listOf (fun i => f (l.length + i)) l'.length = l' := by
  have hn : n = l.length + l'.length := by
    rw [← List.length_append, ← h, length_listOf]
  rw [hn, listOf_add] at h
  exact List.append_inj h (length_listOf _ _)

theorem listOf_map {β : Type} (f : Nat → α) (g : α → β) (n : Nat) :
    (listOf f n).map g = listOf (fun i => g (f i)) n := by
  rw [listOf, List.map_map]
  rfl

/-- A relation between all pairs, by positions. -/
theorem listOf_pairwise {f : Nat → α} {R : α → α → Prop} {n : Nat} :
    (listOf f n).Pairwise R ↔ ∀ i j, i < j → j < n → R (f i) (f j) := by
  rw [listOf, List.pairwise_map, List.pairwise_iff_getElem]
  simp only [List.length_range, List.getElem_range]
  exact ⟨fun h i j hij hj => h i j (by omega) hj hij, fun h i j _ hj hij => h i j hij hj⟩

/-- Storing behind the first `n` elements. -/
theorem listOf_update_succ (f : Nat → α) (n : Nat) (x : α) :
    listOf (Function.update f n x) (n + 1) = listOf f n ++ [x] := by
  rw [listOf_succ, Function.update_self,
    listOf_congr fun i hi => Function.update_of_ne (Nat.ne_of_lt hi) _ _]

/-! ## Copying and moving -/

/-- `memcpy(dst + at, src, n)`. -/
def memcpy (dst : Nat → α) (start : Nat) (src : Nat → α) (n : Nat) : Nat → α :=
  fun i => if start ≤ i ∧ i < start + n then src (i - start) else dst i

theorem memcpy_zero (dst src : Nat → α) (n i : Nat) :
    memcpy dst 0 src n i = if i < n then src i else dst i := by
  simp [memcpy]

theorem memcpy_of_lt {dst src : Nat → α} {start n i : Nat} (h : i < start) :
    memcpy dst start src n i = dst i := by
  rw [memcpy, if_neg (by omega)]

theorem memcpy_of_ge {dst src : Nat → α} {start n i : Nat} (h : start + n ≤ i) :
    memcpy dst start src n i = dst i := by
  rw [memcpy, if_neg (by omega)]

/-- Only the first `n` elements of the source are copied. -/
theorem memcpy_congr {dst src src' : Nat → α} {start n : Nat} (h : ∀ i, i < n → src i = src' i) :
    memcpy dst start src n = memcpy dst start src' n := by
  funext i
  by_cases hi : start ≤ i ∧ i < start + n
  · rw [memcpy, memcpy, if_pos hi, if_pos hi, h _ (by omega)]
  · rw [memcpy, memcpy, if_neg hi, if_neg hi]

theorem memcpy_none (dst src : Nat → α) (start : Nat) : memcpy dst start src 0 = dst :=
  funext fun _ => if_neg (by omega)

/-- What was copied is there. -/
theorem listOf_memcpy (dst src : Nat → α) (start n : Nat) :
    listOf (fun t => memcpy dst start src n (start + t)) n = listOf src n := by
  refine listOf_congr fun i hi => ?_
  rw [memcpy, if_pos (by omega), Nat.add_sub_cancel_left]

/-- A list as an array. -/
theorem listOf_getD (l : List α) (x : α) : listOf (fun t => l.getD t x) l.length = l := by
  refine List.ext_getElem (length_listOf _ _) fun i h1 h2 => ?_
  simp [listOf, h2]

/-- A list that is copied to an address. -/
structure Write (α : Type) where
  addr : Nat
  data : List α

/-- The address is one of those written to. -/
def Write.covers (w : Write α) (i : Nat) : Bool :=
  decide (w.addr ≤ i ∧ i < w.addr + w.data.length)

/-- `memcpy(addr, data)`. -/
def store (z : α) (dst : Nat → α) (w : Write α) : Nat → α :=
  memcpy dst w.addr (fun i => w.data.getD i z) w.data.length

theorem store_apply (z : α) (dst : Nat → α) (w : Write α) (i : Nat) :
    store z dst w i = if w.covers i then w.data.getD (i - w.addr) z else dst i := by
  rw [store, memcpy, Write.covers]
  simp only [decide_eq_true_eq]

/-- **One write after the other**: the last one that covers an address decides. -/
theorem foldl_store (z : α) (ws : List (Write α)) (dst : Nat → α) (i : Nat) :
    ws.foldl (store z) dst i = ((ws.reverse.find? fun w => w.covers i).map
      fun w => w.data.getD (i - w.addr) z).getD (dst i) := by
  induction ws generalizing dst with
  | nil => rfl
  | cons w ws ih =>
    rw [List.foldl_cons, ih, List.reverse_cons, List.find?_append]
    cases ws.reverse.find? fun w => w.covers i with
    | some last => rfl
    | none =>
      rw [store_apply, Option.none_or, List.find?_singleton]
      cases w.covers i <;> rfl

theorem foldl_store_of_not_covers {z : α} {ws : List (Write α)} {dst : Nat → α} {i : Nat}
    (h : ∀ w ∈ ws, w.covers i = false) : ws.foldl (store z) dst i = dst i := by
  rw [foldl_store, List.find?_eq_none.mpr]
  · rfl
  · intro w hw
    simp [h w (List.mem_reverse.mp hw)]

/-- `memmove(f + idx + 1, f + idx, (n - idx) * sizeof(*f))`. -/
def memmoveUp (f : Nat → α) (idx n : Nat) : Nat → α :=
  fun i => if idx < i ∧ i < idx + 1 + (n - idx) then f (i - 1) else f i

/-- **Making room and storing** inserts into the list. -/
theorem listOf_insert (f : Nat → α) (idx k : Nat) (x : α) :
    listOf (Function.update (memmoveUp f idx (idx + k)) idx x) (idx + k + 1) =
      listOf f idx ++ x :: listOf (fun i => f (idx + i)) k := by
  rw [Nat.add_assoc, listOf_add, listOf_succ_left]
  refine congrArg₂ _ (listOf_congr fun i hi => ?_) (congrArg₂ _ ?_ (listOf_congr fun i hi => ?_))
  · rw [Function.update_of_ne (by omega), memmoveUp, if_neg (by omega)]
  · rw [Nat.add_zero, Function.update_self]
  · rw [Function.update_of_ne (by omega), memmoveUp, if_pos (by omega),
      show idx + (i + 1) - 1 = idx + i by omega]

/-! ## Dropping elements -/

/-- `if (drop(f[i])) continue; f[id++] = f[i];`, on the counter `id` and the array. -/
def compactStep (keep : α → Bool) (i : Nat) (s : Nat × (Nat → α)) : Nat × (Nat → α) :=
  if keep (s.2 i) then (s.1 + 1, Function.update s.2 s.1 (s.2 i)) else s

/-- The loop over `f[0], …, f[n - 1]` that moves the elements to keep to the front. -/
def compact (keep : α → Bool) (f : Nat → α) (n : Nat) : Nat × (Nat → α) :=
  forUp (compactStep keep) n (0, f)

/-- **Dropping elements in place** filters the list. -/
theorem listOf_compact (keep : α → Bool) (f : Nat → α) (n : Nat) :
    listOf (compact keep f n).2 (compact keep f n).1 = (listOf f n).filter keep := by
  -- elements below `id` are done, elements from `i` on untouched
  have hinv := forUp_inv (f := compactStep keep) (s := (0, f)) (n := n)
    (fun i t => t.1 ≤ i ∧ listOf t.2 t.1 = (listOf f i).filter keep ∧ ∀ k, i ≤ k → t.2 k = f k)
    ⟨Nat.le_refl 0, rfl, fun _ _ => rfl⟩ ?_
  · exact hinv.2.1
  · rintro i - ⟨id, g⟩ ⟨hle, hlist, hrest⟩
    have hi : g i = f i := hrest i (Nat.le_refl i)
    simp only at hle hlist
    rw [listOf_succ, List.filter_append, ← hlist, ← hi]
    by_cases hkeep : keep (g i) = true
    · rw [compactStep, if_pos hkeep, List.filter_cons_of_pos hkeep]
      refine ⟨Nat.succ_le_succ hle, listOf_update_succ _ _ _, fun k hk => ?_⟩
      exact (Function.update_of_ne (show k ≠ id by omega) _ _).trans (hrest k (by omega))
    · rw [compactStep, if_neg hkeep, List.filter_cons_of_neg hkeep]
      exact ⟨Nat.le_succ_of_le hle, (List.append_nil _).symm, fun k hk => hrest k (by omega)⟩

/-! ## Searching -/

/-- The first of the `k` indices from `lo` on with the property, or else `lo + k`. -/
def firstFrom (p : Nat → Bool) : Nat → Nat → Nat
  | 0, lo => lo
  | k + 1, lo => if p lo then lo else firstFrom p k (lo + 1)

theorem firstFrom_spec (p : Nat → Bool) : ∀ k lo,
    lo ≤ firstFrom p k lo ∧ firstFrom p k lo ≤ lo + k ∧
      (∀ i, lo ≤ i → i < firstFrom p k lo → p i = false) ∧
      (firstFrom p k lo < lo + k → p (firstFrom p k lo) = true) := by
  intro k
  induction k with
  | zero =>
    intro lo
    exact ⟨Nat.le_refl _, Nat.le_refl _, fun i h1 h2 => absurd h1 (Nat.not_le.mpr h2),
      fun h => absurd h (Nat.lt_irrefl _)⟩
  | succ k ih =>
    intro lo
    unfold firstFrom
    cases hp : p lo with
    | true =>
      rw [if_pos rfl]
      exact ⟨Nat.le_refl _, Nat.le_add_right _ _, fun i h1 h2 => absurd h1 (Nat.not_le.mpr h2),
        fun _ => hp⟩
    | false =>
      rw [if_neg Bool.false_ne_true]
      obtain ⟨h1, h2, h3, h4⟩ := ih (lo + 1)
      refine ⟨by omega, by omega, fun i hi hlt => ?_, fun h => h4 (by omega)⟩
      rcases Nat.eq_or_lt_of_le hi with rfl | hi'
      · exact hp
      · exact h3 i hi' hlt

/-- `std::lower_bound(f + lo, f + hi, v) - f`: the first element that is not less than `v`. -/
def lowerBound (f : Nat → Nat) (lo hi v : Nat) : Nat :=
  firstFrom (fun i => decide (v ≤ f i)) (hi - lo) lo

/-- `std::upper_bound(f + lo, f + hi, v) - f`: the first element greater than `v`. -/
def upperBound (f : Nat → Nat) (lo hi v : Nat) : Nat :=
  firstFrom (fun i => decide (v < f i)) (hi - lo) lo

section Bounds

variable {lo hi : Nat}

/-- **`std::lower_bound`**: what is before it is less than `v`, and it is not. -/
theorem lowerBound_spec (f : Nat → Nat) (v : Nat) (h : lo ≤ hi) :
    (lo ≤ lowerBound f lo hi v ∧ lowerBound f lo hi v ≤ hi) ∧
      (∀ i, lo ≤ i → i < lowerBound f lo hi v → f i < v) ∧
      (lowerBound f lo hi v < hi → v ≤ f (lowerBound f lo hi v)) := by
  obtain ⟨h1, h2, h3, h4⟩ := firstFrom_spec (fun i => decide (v ≤ f i)) (hi - lo) lo
  rw [← lowerBound] at h1 h2 h3 h4
  exact ⟨⟨h1, by omega⟩, fun i hi hlt => Nat.lt_of_not_le (of_decide_eq_false (h3 i hi hlt)),
    fun hlt => of_decide_eq_true (h4 (by omega))⟩

/-- **`std::upper_bound`**: what is before it is at most `v`, and it is not. -/
theorem upperBound_spec (f : Nat → Nat) (v : Nat) (h : lo ≤ hi) :
    (lo ≤ upperBound f lo hi v ∧ upperBound f lo hi v ≤ hi) ∧
      (∀ i, lo ≤ i → i < upperBound f lo hi v → f i ≤ v) ∧
      (upperBound f lo hi v < hi → v < f (upperBound f lo hi v)) := by
  obtain ⟨h1, h2, h3, h4⟩ := firstFrom_spec (fun i => decide (v < f i)) (hi - lo) lo
  rw [← upperBound] at h1 h2 h3 h4
  exact ⟨⟨h1, by omega⟩, fun i hi hlt => Nat.le_of_not_lt (of_decide_eq_false (h3 i hi hlt)),
    fun hlt => of_decide_eq_true (h4 (by omega))⟩

end Bounds

/-- `while (l < r) { mid = (l + r) >> 1; if (below(mid)) l = mid + 1; else r = mid; }`, and then
    `l`.  Every turn takes at least one place from the interval, which bounds the turns. -/
def bisect (below : Nat → Bool) : Nat → Nat → Nat → Nat
  | 0, l, _ => l
  | turns + 1, l, r =>
    if l < r then
      if below ((l + r) / 2) then bisect below turns ((l + r) / 2 + 1) r
      else bisect below turns l ((l + r) / 2)
    else l

/-- **Halving an interval** finds the place where `below` ends, if that is in the interval; the
    right end `r` is not looked at. -/
theorem bisect_spec {below : Nat → Bool} {n : Nat}
    (hmono : ∀ i j, i ≤ j → j < n → below j = true → below i = true) :
    ∀ turns l r, l ≤ r → r ≤ l + turns → r ≤ n →
      (l ≤ bisect below turns l r ∧ bisect below turns l r ≤ r) ∧
      (∀ i, l ≤ i → i < bisect below turns l r → below i = true) ∧
      (bisect below turns l r < r → below (bisect below turns l r) = false) := by
  intro turns
  induction turns with
  | zero =>
    intro l r hle hturns _
    unfold bisect
    exact ⟨⟨Nat.le_refl _, hle⟩, fun i h1 h2 => absurd h1 (Nat.not_le.mpr h2), fun h => by omega⟩
  | succ turns ih =>
    intro l r hle hturns hn
    unfold bisect
    by_cases hlt : l < r
    · rw [if_pos hlt]
      cases hmid : below ((l + r) / 2) with
      | true =>
        rw [if_pos rfl]
        obtain ⟨⟨h1, h2⟩, h3, h4⟩ := ih ((l + r) / 2 + 1) r (by omega) (by omega) hn
        refine ⟨⟨by omega, h2⟩, fun i hi hi' => ?_, h4⟩
        by_cases hleft : i ≤ (l + r) / 2
        · exact hmono i _ hleft (by omega) hmid
        · exact h3 i (by omega) hi'
      | false =>
        rw [if_neg Bool.false_ne_true]
        obtain ⟨⟨h1, h2⟩, h3, h4⟩ := ih l ((l + r) / 2) (by omega) (by omega) (by omega)
        refine ⟨⟨h1, by omega⟩, h3, fun _ => ?_⟩
        rcases Nat.lt_or_eq_of_le h2 with h | h
        · exact h4 h
        · rw [h]
          exact hmid
    · rw [if_neg hlt]
      exact ⟨⟨Nat.le_refl _, hle⟩, fun i h1 h2 => absurd h1 (Nat.not_le.mpr h2),
        fun h => absurd h hlt⟩

end JudgeDuck.Lib
