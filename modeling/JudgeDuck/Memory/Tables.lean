/-
  What `init_page_tables` builds.

  `Allocs` is the invariant of the allocator: what it has handed out are different pages from
  `kernel_break` on, all below `page_table_break`.  `Built` is the invariant of the tables: `Roles`
  names the page of each table (a P4, two P3, a P2 for each GiB, a P1 for each 2 MiB), the pages
  handed out are exactly these, and each entry is what its place says.  Both loops extend the tables
  by one P1 (`Built.addP1`), after one P2 where a GiB begins (`Built.addP2`).

  A run may end with a fault, and `Short` keeps what is known then.  Where the registered pages have
  no hole up to `page_table_break` the allocator takes one page after the other, so the only fault is
  the assertion, and only if the tables need more pages than there are.  `initPageTable4k_ends` is the
  result for every set of registered pages.
-/
import JudgeDuck.Memory.Allocator
import Mathlib.Data.List.Perm.Basic

namespace JudgeDuck.Memory

open JudgeDuck.Lib
open JudgeDuck.DuckCache (pageSize hugePageSize roundUp)

/-! ## New tables -/

/-- The allocator has handed out pages of the view `v`. -/
structure Seen (v : View) (b s : Boot) : Prop extends Allocs b s where
  seen : ∀ t ∈ s.tables, v.pages t

/-- The first `n` pages that the allocator can hand out are in the view. -/
def View.Shows (v : View) (b : Boot) (n : Nat) : Prop :=
  ∀ t, 2 ^ 12 ∣ t → kernelBreak ≤ t → t < maxMemorySize → t + pageSize ≤ b.pageTableBreak →
    b.usable (t / pageSize) → Nat.count b.usable (t / pageSize) < n → v.pages t

theorem View.Shows.mono {v : View} {b : Boot} {m n : Nat} (h : v.Shows b n) (hle : m ≤ n) :
    v.Shows b m :=
  fun t h1 h2 h3 h4 h5 h6 => h t h1 h2 h3 h4 h5 (Nat.lt_of_lt_of_le h6 hle)

section

variable {v : View} {b s : Boot}

theorem Seen.setPte (h : Seen v b s) (t i : Nat) (e : BitVec 64) : Seen v b (s.setPte t i e) :=
  ⟨h.toAllocs.setPte t i e, h.seen⟩

theorem Seen.fillTable (h : Seen v b s) (t : Nat) (f : Nat → BitVec 64) : Seen v b (s.fillTable t f) :=
  ⟨h.toAllocs.fillTable t f, by rw [fillTable_tables]; exact h.seen⟩

end

/-- A table has been allocated and cleared. -/
structure Fresh (v : View) (b s s' : Boot) (t : Nat) : Prop where
  seen : Seen v b s'
  tables : s'.tables = s.tables ++ [t]
  pte : ∀ t' i', v.pages t' → i' < 512 → s'.pte t' i' = if t' = t then 0#64 else s.pte t' i'

section

variable {v : View} {b s s' : Boot} {t : Nat}

theorem Fresh.mem (h : Fresh v b s s' t) : t ∈ s'.tables := by
  rw [h.tables]
  exact List.mem_append_right _ (List.mem_singleton.mpr rfl)

theorem Fresh.page (h : Fresh v b s s' t) : v.pages t := h.seen.seen t h.mem

/-- A table that was there before is another page. -/
theorem Fresh.ne {t' : Nat} (h : Fresh v b s s' t) (ht' : t' ∈ s.tables) : t' ≠ t := by
  have hnodup := h.seen.nodup
  rw [h.tables] at hnodup
  exact (List.nodup_append.mp hnodup).2.2 t' ht' t (List.mem_singleton.mpr rfl)

end

section

variable {v : View} {b s s' : Boot} {t T i0 : Nat} (h : Fresh v b s s' t) (hs : Seen v b s)
  (hT : T ∈ s.tables) (hi0 : i0 < 512) (e : BitVec 64)
include h hs hT hi0

/-- With an entry for the new table in an old one, the rest is as it was. -/
theorem Fresh.pte_old {t' i : Nat} (ht' : t' ∈ s.tables) (hi : i < 512) (hne : ¬ (t' = T ∧ i = i0)) :
    (s'.setPte T i0 e).pte t' i = s.pte t' i := by
  have hpage := hs.seen t' ht'
  rw [pte_setPte e (hs.seen T hT) hi0 hpage hi, if_neg hne, h.pte t' i hpage hi, if_neg (h.ne ht')]

theorem Fresh.pte_new {i : Nat} (hi : i < 512) : (s'.setPte T i0 e).pte t i = 0#64 := by
  rw [pte_setPte e (hs.seen T hT) hi0 h.page hi, if_neg fun heq => h.ne hT heq.1.symm,
    h.pte t i h.page hi, if_pos rfl]

omit h in
theorem pte_setPte_self : (s'.setPte T i0 e).pte T i0 = e := by
  have hpage := hs.seen T hT
  rw [pte_setPte e hpage hi0 hpage hi0, if_pos ⟨rfl, rfl⟩]

end

/-- **`page_table_alloc_zeroed`**, as long as the view shows what is handed out. -/
theorem pageTableAllocZeroed_ends {v : View} {b s : Boot} (h : Seen v b s)
    (hv : v.Shows b (s.tables.length + 1)) :
    Ends (Short b (s.tables.length + 1)) (fun p => Fresh v b s p.1 p.2) (pageTableAllocZeroed s) := by
  rw [pageTableAllocZeroed]
  refine (pageTableAlloc_ends h.toAllocs).bind ?_
  rintro ⟨s', t⟩ ⟨hs', heq, hcount⟩
  replace heq : s' = { s with nextPageTableAddress := t + pageSize, tables := s.tables ++ [t] } := heq
  replace hcount : Nat.count b.usable (t / pageSize) = s.tables.length := hcount
  have htables : s'.tables = s.tables ++ [t] := by rw [heq]
  have hmem : t ∈ s'.tables := by
    rw [htables]
    exact List.mem_append_right _ (List.mem_singleton.mpr rfl)
  have hpage : v.pages t := hv t (hs'.aligned t hmem) (hs'.le t hmem) (hs'.lt_max t hmem)
    (hs'.lt_break t hmem) (hs'.usable t hmem) (by omega)
  dsimp only
  rw [if_pos (v.reaches hpage)]
  refine ⟨⟨hs'.of_eq rfl rfl rfl rfl, ?_⟩, htables, fun t' i' ht' hi' => ?_⟩
  · show ∀ u ∈ s'.tables, v.pages u
    rw [htables]
    exact List.forall_mem_append.mpr ⟨h.seen, List.forall_mem_singleton.mpr hpage⟩
  · rw [heq]
    exact pte_zeroPage hpage ht' hi'

/-! ## The tables -/

/-- What an entry that leads to the table `t` is. -/
structure PointsTo (e : BitVec 64) (t : Nat) : Prop where
  present : has e ptePresent = true
  not_huge : has e pteHuge = false
  frame : frame e = t
  clear : (clearPageFlags e).toNat = t

theorem PointsTo.ne_zero {e : BitVec 64} {t : Nat} (h : PointsTo e t) : e ≠ 0#64 := by
  rintro rfl
  exact absurd h.present (by decide)

theorem pointsTo_entry {t : Nat} {flags : BitVec 64} (haligned : 2 ^ 12 ∣ t) (ht : t < maxMemorySize)
    (hflags : flags.toNat < 2 ^ 9) (hpresent : flags.getLsbD 0 = true)
    (hhuge : flags.getLsbD 7 = false) : PointsTo (entry t flags) t := by
  have hmax : maxMemorySize < 2 ^ 52 := by decide
  refine ⟨?_, ?_, frame_entry haligned (by omega) (by omega),
    clearPageFlags_entry haligned (by omega) hflags⟩
  · rw [ptePresent, has_bit (by decide), getLsbD_entry haligned (by decide)]
    exact hpresent
  · rw [pteHuge, has_bit (by decide), getLsbD_entry haligned (by decide)]
    exact hhuge

/-- The pages of the tables. -/
structure Roles where
  p4 : Nat
  p3High : Nat
  p3Low : Nat
  /-- The P2 of each GiB. -/
  p2 : Nat → Nat
  /-- The P1 of each 2 MiB. -/
  p1 : Nat → Nat

/-- The first `g` of the P2 and the first `k` of the P1 beside the others. -/
def Roles.list (r : Roles) (g k : Nat) : List Nat :=
  r.p4 :: r.p3High :: r.p3Low :: ((List.range g).map r.p2 ++ (List.range k).map r.p1)

/-- The entry for the page `j` of the 2 MiB at `h`, the registered pages `targets` being mapped after
    the kernel. -/
def leaf (targets : List Nat) (h j : Nat) : BitVec 64 :=
  if h < kernelBreak / hugePageSize then kernelPage h j
  else userPage (targets.getD (h - kernelBreak / hugePageSize) 0 * hugePageSize) j

/-- The tables with `g` of the P2 and `k` of the P1. -/
structure Built (s : Boot) (r : Roles) (g k : Nat) (targets : List Nat) : Prop where
  tables : s.tables.Perm (r.list g k)
  le : k ≤ 512 * g
  self : PointsTo (s.pte r.p4 511) r.p4
  window : PointsTo (s.pte r.p4 510) r.p3High
  high : ∀ i, i < 512 → s.pte r.p3High i = entry (i * p3PageSize) (kernelFlags ||| pteHuge)
  p4 : PointsTo (s.pte r.p4 0) r.p3Low
  p3 : ∀ i, i < g → PointsTo (s.pte r.p3Low i) (r.p2 i)
  p3_free : ∀ i, g ≤ i → i < 512 → s.pte r.p3Low i = 0#64
  p2 : ∀ i j, i < g → j < 512 → 512 * i + j < k →
    PointsTo (s.pte (r.p2 i) j) (r.p1 (512 * i + j))
  p2_free : ∀ i j, i < g → j < 512 → k ≤ 512 * i + j → s.pte (r.p2 i) j = 0#64
  p1 : ∀ h j, h < k → j < 512 → s.pte (r.p1 h) j = leaf targets h j

section

variable {v : View} {b s s' : Boot} {r : Roles} {g k : Nat} {targets : List Nat}

theorem Built.length (h : Built s r g k targets) : s.tables.length = 3 + g + k := by
  rw [h.tables.length_eq, Roles.list]
  simp only [List.length_cons, List.length_append, List.length_map, List.length_range]
  omega

theorem Built.p4_mem (h : Built s r g k targets) : r.p4 ∈ s.tables :=
  h.tables.mem_iff.mpr List.mem_cons_self

theorem Built.p3High_mem (h : Built s r g k targets) : r.p3High ∈ s.tables :=
  h.tables.mem_iff.mpr (List.mem_cons_of_mem _ List.mem_cons_self)

theorem Built.p3Low_mem (h : Built s r g k targets) : r.p3Low ∈ s.tables :=
  h.tables.mem_iff.mpr (List.mem_cons_of_mem _ (List.mem_cons_of_mem _ List.mem_cons_self))

theorem Built.p2_mem (h : Built s r g k targets) {i : Nat} (hi : i < g) : r.p2 i ∈ s.tables := by
  apply h.tables.mem_iff.mpr
  refine List.mem_cons_of_mem _ (List.mem_cons_of_mem _ (List.mem_cons_of_mem _ ?_))
  exact List.mem_append_left _ (List.mem_map_of_mem (List.mem_range.mpr hi))

theorem Built.p1_mem (h : Built s r g k targets) {i : Nat} (hi : i < k) : r.p1 i ∈ s.tables := by
  apply h.tables.mem_iff.mpr
  refine List.mem_cons_of_mem _ (List.mem_cons_of_mem _ (List.mem_cons_of_mem _ ?_))
  exact List.mem_append_right _ (List.mem_map_of_mem (List.mem_range.mpr hi))

/-- Different roles are different pages. -/
structure Distinct (r : Roles) (g k : Nat) : Prop where
  p4_p3Low : r.p4 ≠ r.p3Low
  p4_p2 : ∀ i, i < g → r.p4 ≠ r.p2 i
  p3High_p3Low : r.p3High ≠ r.p3Low
  p3High_p2 : ∀ i, i < g → r.p3High ≠ r.p2 i
  p3Low_p2 : ∀ i, i < g → r.p3Low ≠ r.p2 i
  p3Low_p1 : ∀ i, i < k → r.p3Low ≠ r.p1 i
  p2_p1 : ∀ i j, i < g → j < k → r.p2 i ≠ r.p1 j
  p2_inj : ∀ i j, i < g → j < g → r.p2 i = r.p2 j → i = j

/-- **The tables are different pages**, as the allocator hands each out once. -/
theorem Built.distinct (h : Built s r g k targets) (hs : Seen v b s) : Distinct r g k := by
  have hnodup : (r.list g k).Nodup := h.tables.nodup_iff.mp hs.nodup
  simp only [Roles.list, List.nodup_cons, List.nodup_append, List.mem_cons, List.mem_append,
    List.mem_map, List.mem_range, not_or, not_exists, not_and] at hnodup
  obtain ⟨⟨-, hp4, hp4p2, -⟩, ⟨hhigh, hhighp2, -⟩, ⟨hp3p2, hp3p1⟩, hp2, -, hp2p1⟩ := hnodup
  refine ⟨hp4, fun i hi heq => hp4p2 i hi heq.symm, hhigh, fun i hi heq => hhighp2 i hi heq.symm,
    fun i hi heq => hp3p2 i hi heq.symm, fun i hi heq => hp3p1 i hi heq.symm,
    fun i j hi hj => hp2p1 _ ⟨i, hi, rfl⟩ _ ⟨j, hj, rfl⟩,
    fun i j hi hj heq => ?_⟩
  exact List.inj_on_of_nodup_map hp2 (List.mem_range.mpr hi) (List.mem_range.mpr hj) heq

theorem map_range_update {α : Type} (f : Nat → α) (n : Nat) (x : α) :
    (List.range (n + 1)).map (Function.update f n x) = (List.range n).map f ++ [x] := by
  rw [List.range_succ, List.map_append, List.map_singleton, Function.update_self]
  congr 1
  refine List.map_congr_left fun i hi => Function.update_of_ne ?_ _ _
  exact Nat.ne_of_lt (List.mem_range.mp hi)

/-- **A P2 for the next GiB.** -/
theorem Built.addP2 {t : Nat} {e : BitVec 64} (h : Built s r g k targets) (hs : Seen v b s)
    (ht : Fresh v b s s' t) (he : PointsTo e t) (hg : g < 512) :
    Built (s'.setPte r.p3Low g e) { r with p2 := Function.update r.p2 g t } (g + 1) k targets := by
  have hd := h.distinct hs
  have hp2 : ∀ i, i < g → Function.update r.p2 g t i = r.p2 i := fun i hi =>
    Function.update_of_ne (Nat.ne_of_lt hi) _ _
  have hle := h.le
  have hold : ∀ t' i, t' ∈ s.tables → i < 512 → ¬ (t' = r.p3Low ∧ i = g) →
      (s'.setPte r.p3Low g e).pte t' i = s.pte t' i := fun t' i ht' hi hne =>
    ht.pte_old hs h.p3Low_mem hg e ht' hi hne
  refine
    { tables := ?_
      le := by omega
      self := ?_
      window := ?_
      high := fun i hi => ?_
      p4 := ?_
      p3 := fun i hi => ?_
      p3_free := fun i hi hi' => ?_
      p2 := fun i j hi hj hk => ?_
      p2_free := fun i j hi hj hk => ?_
      p1 := fun i j hi hj => ?_ }
  · rw [setPte_tables, ht.tables, Roles.list, map_range_update]
    refine (h.tables.append_right [t]).trans ?_
    rw [Roles.list, List.cons_append, List.cons_append, List.cons_append, List.append_assoc,
      List.append_assoc]
    refine List.Perm.cons _ (List.Perm.cons _ (List.Perm.cons _ (List.Perm.append_left _ ?_)))
    exact List.perm_append_comm
  · rw [hold _ _ h.p4_mem (by omega) fun heq => hd.p4_p3Low heq.1]
    exact h.self
  · rw [hold _ _ h.p4_mem (by omega) fun heq => hd.p4_p3Low heq.1]
    exact h.window
  · rw [hold _ _ h.p3High_mem hi fun heq => hd.p3High_p3Low heq.1]
    exact h.high i hi
  · rw [hold _ _ h.p4_mem (by omega) fun heq => hd.p4_p3Low heq.1]
    exact h.p4
  · show PointsTo _ (Function.update r.p2 g t i)
    obtain hlt | rfl := Nat.lt_succ_iff_lt_or_eq.mp hi
    · rw [hold _ _ h.p3Low_mem (by omega) (by omega), hp2 i hlt]
      exact h.p3 i hlt
    · rw [Function.update_self, pte_setPte_self hs h.p3Low_mem hg e]
      exact he
  · rw [hold _ _ h.p3Low_mem hi' (by omega)]
    exact h.p3_free i (by omega) hi'
  · have hlt : i < g := by omega
    show PointsTo ((s'.setPte r.p3Low g e).pte (Function.update r.p2 g t i) j) _
    rw [hp2 i hlt, hold _ _ (h.p2_mem hlt) hj fun heq => hd.p3Low_p2 i hlt heq.1.symm]
    exact h.p2 i j hlt hj hk
  · show (s'.setPte r.p3Low g e).pte (Function.update r.p2 g t i) j = _
    obtain hlt | rfl := Nat.lt_succ_iff_lt_or_eq.mp hi
    · rw [hp2 i hlt, hold _ _ (h.p2_mem hlt) hj fun heq => hd.p3Low_p2 i hlt heq.1.symm]
      exact h.p2_free i j hlt hj hk
    · rw [Function.update_self]
      exact ht.pte_new hs h.p3Low_mem hg e hj
  · rw [hold _ _ (h.p1_mem hi) hj fun heq => hd.p3Low_p1 i hi heq.1.symm]
    exact h.p1 i j hi hj

/-- **A P1 for the next 2 MiB**, filled with `leaf`. -/
theorem Built.addP1 (targets' : List Nat) {t : Nat} {e : BitVec 64} (f : Nat → BitVec 64)
    (h : Built s r g k targets) (hs : Seen v b s) (ht : Fresh v b s s' t) (he : PointsTo e t)
    (hk : k < 512 * g) (hg : g ≤ 512) (hf : ∀ j, j < 512 → f j = leaf targets' k j)
    (hsame : ∀ h j, h < k → leaf targets' h j = leaf targets h j) :
    Built ((s'.setPte (r.p2 (k / 512)) (k % 512) e).fillTable t f)
      { r with p1 := Function.update r.p1 k t } g (k + 1) targets' := by
  have hd := h.distinct hs
  have hg' : k / 512 < g := by omega
  have hj' : k % 512 < 512 := Nat.mod_lt _ (by omega)
  have hT := h.p2_mem hg'
  -- the entries of the old tables: filling the new one does not change them
  have hfill : ∀ t' i, t' ∈ s.tables → i < 512 →
      ((s'.setPte (r.p2 (k / 512)) (k % 512) e).fillTable t f).pte t' i =
        (s'.setPte (r.p2 (k / 512)) (k % 512) e).pte t' i := by
    intro t' i ht' hi
    rw [pte_fillTable f ht.page (hs.seen t' ht') hi, if_neg (ht.ne ht')]
  have hold : ∀ t' i, t' ∈ s.tables → i < 512 → ¬ (t' = r.p2 (k / 512) ∧ i = k % 512) →
      ((s'.setPte (r.p2 (k / 512)) (k % 512) e).fillTable t f).pte t' i = s.pte t' i := by
    intro t' i ht' hi hne
    rw [hfill t' i ht' hi, ht.pte_old hs hT hj' e ht' hi hne]
  have hp1 : ∀ i, i < k → Function.update r.p1 k t i = r.p1 i := fun i hi =>
    Function.update_of_ne (Nat.ne_of_lt hi) _ _
  refine
    { tables := ?_
      le := hk
      self := ?_
      window := ?_
      high := fun i hi => ?_
      p4 := ?_
      p3 := fun i hi => ?_
      p3_free := fun i hi hi' => ?_
      p2 := fun i j hi hj hlt => ?_
      p2_free := fun i j hi hj hle => ?_
      p1 := fun i j hi hj => ?_ }
  · rw [fillTable_tables, setPte_tables, ht.tables, Roles.list, map_range_update]
    refine (h.tables.append_right [t]).trans ?_
    rw [Roles.list, List.cons_append, List.cons_append, List.cons_append, List.append_assoc]
  · rw [hold _ _ h.p4_mem (by omega) fun heq => hd.p4_p2 _ hg' heq.1]
    exact h.self
  · rw [hold _ _ h.p4_mem (by omega) fun heq => hd.p4_p2 _ hg' heq.1]
    exact h.window
  · rw [hold _ _ h.p3High_mem hi fun heq => hd.p3High_p2 _ hg' heq.1]
    exact h.high i hi
  · rw [hold _ _ h.p4_mem (by omega) fun heq => hd.p4_p2 _ hg' heq.1]
    exact h.p4
  · rw [hold _ _ h.p3Low_mem (by omega) fun heq => hd.p3Low_p2 _ hg' heq.1]
    exact h.p3 i hi
  · rw [hold _ _ h.p3Low_mem hi' fun heq => hd.p3Low_p2 _ hg' heq.1]
    exact h.p3_free i hi hi'
  · show PointsTo _ (Function.update r.p1 k t (512 * i + j))
    obtain hlt | heq := Nat.lt_succ_iff_lt_or_eq.mp hlt
    · rw [hold _ _ (h.p2_mem hi) hj, hp1 _ hlt]
      · exact h.p2 i j hi hj hlt
      · rintro ⟨hi', rfl⟩
        have := hd.p2_inj _ _ hi hg' hi'
        omega
    · obtain ⟨rfl, rfl⟩ : i = k / 512 ∧ j = k % 512 := by omega
      rw [hfill _ _ hT hj, pte_setPte_self hs hT hj' e, heq, Function.update_self]
      exact he
  · rw [hold _ _ (h.p2_mem hi) hj]
    · exact h.p2_free i j hi hj (by omega)
    · rintro ⟨hi', rfl⟩
      have := hd.p2_inj _ _ hi hg' hi'
      omega
  · show ((s'.setPte (r.p2 (k / 512)) (k % 512) e).fillTable t f).pte (Function.update r.p1 k t i) j = _
    obtain hlt | rfl := Nat.lt_succ_iff_lt_or_eq.mp hi
    · rw [hp1 i hlt, hold _ _ (h.p1_mem hlt) hj fun heq => hd.p2_p1 _ i hg' hlt heq.1.symm,
        hsame i j hlt]
      exact h.p1 i j hlt hj
    · rw [Function.update_self, pte_fillTable f ht.page ht.page hj, if_pos rfl]
      exact hf j hj

end

/-! ## The kernel's part -/

/-- All tables are empty. -/
def AllZero (s : Boot) : Prop := ∀ t ∈ s.tables, ∀ i, i < 512 → s.pte t i = 0#64

/-- A fresh table is zero, and no other one has changed. -/
theorem Fresh.allZero {v : View} {b s s' : Boot} {t : Nat} (h : Fresh v b s s' t) (hs : AllZero s) :
    AllZero s' := by
  intro t' ht' i hi
  rw [h.pte t' i (h.seen.seen t' ht') hi]
  by_cases heq : t' = t
  · rw [if_pos heq]
  · rw [if_neg heq]
    apply hs t' _ i hi
    rw [h.tables] at ht'
    exact (List.mem_append.mp ht').resolve_right fun hmem => heq (List.mem_singleton.mp hmem)

theorem pointsTo_kernel {v : View} {t : Nat} {flags : BitVec 64} (ht : v.pages t)
    (hflags : flags = kernelFlags ∨ flags = kernelFlags ||| pteUser) : PointsTo (entry t flags) t := by
  obtain rfl | rfl := hflags
  · exact pointsTo_entry (v.aligned t ht) (v.lt t ht) (by decide) (by decide) (by decide)
  · exact pointsTo_entry (v.aligned t ht) (v.lt t ht) (by decide) (by decide) (by decide)

/-- What `init_empty_kernel_page_table` writes into its tables before the loop. -/
def Boot.linkKernel (s : Boot) (P4 P3high P3low P2low : Nat) : Boot :=
  ((((s.setPte P4 511 (entry P4 kernelFlags)).setPte P4 510 (entry P3high kernelFlags)).fillTable
    P3high fun i => entry (i * p3PageSize) (kernelFlags ||| pteHuge)).setPte
      P4 0 (entry P3low (kernelFlags ||| pteUser))).setPte
        P3low 0 (entry P2low (kernelFlags ||| pteUser))

section

variable {v : View} {b s : Boot} {P4 P3high P3low P2low : Nat}

theorem linkKernel_tables : (s.linkKernel P4 P3high P3low P2low).tables = s.tables := by
  rw [Boot.linkKernel, setPte_tables, setPte_tables, fillTable_tables, setPte_tables, setPte_tables]

theorem Seen.linkKernel (hs : Seen v b s) (P4 P3high P3low P2low : Nat) :
    Seen v b (s.linkKernel P4 P3high P3low P2low) :=
  ((((hs.setPte _ _ _).setPte _ _ _).fillTable _ _).setPte _ _ _).setPte _ _ _

/-- **The entries after the kernel's tables are linked**, by cases on the table and the index. -/
theorem pte_linkKernel (s : Boot) (P2low : Nat) {t i : Nat} (ha4 : v.pages P4)
    (ha3h : v.pages P3high) (ha3l : v.pages P3low) (ht : v.pages t) (hi : i < 512) :
    (s.linkKernel P4 P3high P3low P2low).pte t i =
      if t = P3low ∧ i = 0 then entry P2low (kernelFlags ||| pteUser)
      else if t = P4 ∧ i = 0 then entry P3low (kernelFlags ||| pteUser)
      else if t = P3high then entry (i * p3PageSize) (kernelFlags ||| pteHuge)
      else if t = P4 ∧ i = 510 then entry P3high kernelFlags
      else if t = P4 ∧ i = 511 then entry P4 kernelFlags
      else s.pte t i := by
  rw [Boot.linkKernel, pte_setPte _ ha3l (by decide) ht hi, pte_setPte _ ha4 (by decide) ht hi,
    pte_fillTable _ ha3h ht hi, pte_setPte _ ha4 (by decide) ht hi, pte_setPte _ ha4 (by decide) ht hi]

/-- The four tables are linked, and the first GiB is still empty. -/
theorem built_kernel (hs : Seen v b s) (hzero : AllZero s)
    (htables : s.tables = [P4, P3high, P3low, P2low]) :
    Built (s.linkKernel P4 P3high P3low P2low) ⟨P4, P3high, P3low, fun _ => P2low, fun _ => 0⟩ 1 0
      [] := by
  have hnodup := hs.nodup
  have hseen := hs.seen
  simp only [htables, List.nodup_cons, List.mem_cons, List.not_mem_nil, or_false, not_or, forall_eq_or_imp,
    forall_eq] at hnodup hseen
  obtain ⟨⟨h43h, h43l, h42⟩, ⟨h3h3l, h3h2⟩, h3l2, -⟩ := hnodup
  obtain ⟨ha4, ha3h, ha3l, ha2⟩ := hseen
  have hpte {t i : Nat} (ht : v.pages t) (hi : i < 512) :=
    pte_linkKernel s P2low ha4 ha3h ha3l ht hi
  refine
    { tables := ?_
      le := Nat.zero_le _
      self := ?_
      window := ?_
      high := fun i hi => ?_
      p4 := ?_
      p3 := fun i hi => ?_
      p3_free := fun i hi hi' => ?_
      p2 := fun i j hi hj hk => absurd hk (Nat.not_lt_zero _)
      p2_free := fun i j hi hj hk => ?_
      p1 := fun i j hi => absurd hi (Nat.not_lt_zero _) }
  · rw [linkKernel_tables, htables]
    rfl
  · rw [hpte ha4 (by decide), if_neg (fun h => h43l h.1), if_neg (by simp), if_neg h43h,
      if_neg (by simp), if_pos ⟨rfl, rfl⟩]
    exact pointsTo_kernel ha4 (Or.inl rfl)
  · rw [hpte ha4 (by decide), if_neg (fun h => h43l h.1), if_neg (by simp), if_neg h43h,
      if_pos ⟨rfl, rfl⟩]
    exact pointsTo_kernel ha3h (Or.inl rfl)
  · rw [hpte ha3h hi, if_neg (fun h => h3h3l h.1), if_neg (fun h => h43h h.1.symm), if_pos rfl]
  · rw [hpte ha4 (by decide), if_neg (fun h => h43l h.1), if_pos ⟨rfl, rfl⟩]
    exact pointsTo_kernel ha3l (Or.inr rfl)
  · obtain rfl : i = 0 := by omega
    rw [hpte ha3l (by decide), if_pos ⟨rfl, rfl⟩]
    exact pointsTo_kernel ha2 (Or.inr rfl)
  · rw [hpte ha3l hi', if_neg (by omega), if_neg (fun h => h43l h.1.symm), if_neg (fun h => h3h3l h.symm),
      if_neg (fun h => h43l h.1.symm), if_neg (fun h => h43l h.1.symm)]
    exact hzero P3low (by rw [htables]; simp) i hi'
  · rw [hpte ha2 hj, if_neg (fun h => h3l2 h.1.symm), if_neg (fun h => h42 h.1.symm),
      if_neg (fun h => h3h2 h.symm), if_neg (fun h => h42 h.1.symm), if_neg (fun h => h42 h.1.symm)]
    exact hzero P2low (by rw [htables]; simp) j hj

end

/-- **The kernel's part**: it runs out of pages, or it has built the tables for the first 16 MiB. -/
theorem initEmptyKernelPageTable_ends {v : View} {b : Boot} {needed : Nat} (hb : Seen v b b)
    (hnil : b.tables = []) (hv : v.Shows b needed) (hneeded : 12 ≤ needed) :
    Ends (Short b needed) (fun p => ∃ r, r.p4 = p.2 ∧ Seen v b p.1 ∧
      Built p.1 r 1 (kernelBreak / hugePageSize) []) (initEmptyKernelPageTable b) := by
  -- the four tables
  have hzero : AllZero b := by
    intro t ht
    rw [hnil] at ht
    exact absurd ht List.not_mem_nil
  have halloc : ∀ {s : Boot}, Seen v b s → s.tables.length + 1 ≤ 12 →
      Ends (Short b needed) (fun p => Fresh v b s p.1 p.2) (pageTableAllocZeroed s) := fun hs hlen =>
    (pageTableAllocZeroed_ends hs (hv.mono (Nat.le_trans hlen hneeded))).mono
      (fun _ he => he.mono (Nat.le_trans hlen hneeded)) fun _ h => h
  rw [initEmptyKernelPageTable]
  refine (halloc hb (by simp [hnil])).bind ?_
  rintro ⟨s1, P4⟩ h1
  have ht1 : s1.tables = [P4] := by rw [h1.tables, hnil]; rfl
  refine (halloc h1.seen (by simp [ht1])).bind ?_
  rintro ⟨s2, P3high⟩ h2
  have ht2 : s2.tables = [P4, P3high] := by rw [h2.tables, ht1]; rfl
  refine (halloc h2.seen (by simp [ht2])).bind ?_
  rintro ⟨s3, P3low⟩ h3
  have ht3 : s3.tables = [P4, P3high, P3low] := by rw [h3.tables, ht2]; rfl
  refine (halloc h3.seen (by simp [ht3])).bind ?_
  rintro ⟨s4, P2low⟩ h4
  have ht4 : s4.tables = [P4, P3high, P3low, P2low] := by rw [h4.tables, ht3]; rfl
  have hzero4 := h4.allZero (h3.allZero (h2.allZero (h1.allZero hzero)))
  -- the loop
  have hallocs := h4.seen.linkKernel P4 P3high P3low P2low
  have hbuilt := built_kernel h4.seen hzero4 ht4
  refine Ends.bind (P := fun s => ∃ r, r.p4 = P4 ∧ r.p2 0 = P2low ∧ Seen v b s ∧
    Built s r 1 (kernelBreak / hugePageSize) []) ?_ ?_
  · refine forUpM_ends (fun i s => ∃ r, r.p4 = P4 ∧ r.p2 0 = P2low ∧ Seen v b s ∧ Built s r 1 i [])
      ⟨_, rfl, rfl, hallocs, hbuilt⟩ fun i hi s hs => ?_
    obtain ⟨r, hp4, hp2, hs, h⟩ := hs
    have hi8 : i < 8 := hi
    have hlen := h.length
    rw [mapKernelPage]
    refine (halloc hs (by omega)).bind ?_
    rintro ⟨s', t⟩ ht
    have hpoints : PointsTo (entry t kernelFlags) t :=
      pointsTo_kernel ht.page (Or.inl rfl)
    refine ⟨{ r with p1 := Function.update r.p1 i t }, hp4, hp2,
      (ht.seen.setPte _ _ _).fillTable _ _, ?_⟩
    have hadd := h.addP1 [] (kernelPage i) hs ht hpoints (by omega) (by omega)
      (fun j _ => (if_pos hi).symm) (fun _ _ _ => rfl)
    rw [Nat.div_eq_of_lt (by omega), Nat.mod_eq_of_lt (by omega), hp2] at hadd
    exact hadd
  · rintro s ⟨r, hp4, -, hs, h⟩
    exact ⟨r, hp4, hs, h⟩

/-! ## The registered pages -/

/-- How many P2 it takes for the first `k` pieces of 2 MiB. -/
def groups (k : Nat) : Nat := (k + 511) / 512

/-- The tables for `m` mapped pages: P4, two P3, P2 and P1. -/
def tablesNeeded (m : Nat) : Nat :=
  let k := kernelBreak / hugePageSize + m
  3 + groups k + k

/-- The indices of the 2 MiB piece `k`. -/
theorem index_huge {k : Nat} (hk : k < 2 ^ 18) :
    p4Index (k * hugePageSize) = 0 ∧ p3Index (k * hugePageSize) = k / 512 ∧
      p2Index (k * hugePageSize) = k % 512 := by
  simp only [p4Index, p3Index, p2Index, shift_and, hugePageSize]
  omega

section

variable {v : View} {b s : Boot} {t i : Nat}

theorem pteCreate_old (flags : BitVec 64) (ht : v.pages t) (h : s.pte t i ≠ 0#64) :
    pteCreate s t i flags = .ok (s, s.pte t i) := by
  rw [pteCreate, v.reaches ht, Bool.not_true, if_neg Bool.false_ne_true, if_neg h]

/-- An entry that is not there gets a fresh table. -/
theorem pteCreate_new (hs : Seen v b s) (hv : v.Shows b (s.tables.length + 1)) (ht : t ∈ s.tables)
    (h : s.pte t i = 0#64) :
    Ends (Short b (s.tables.length + 1)) (fun p => ∃ s' t', Fresh v b s s' t' ∧
      PointsTo (entry t' userFlags) t' ∧
      p = (s'.setPte t i (entry t' userFlags), entry t' userFlags)) (pteCreate s t i userFlags) := by
  rw [pteCreate, v.reaches (hs.seen t ht), Bool.not_true, if_neg Bool.false_ne_true, if_pos h]
  refine (pageTableAllocZeroed_ends hs hv).bind ?_
  rintro ⟨s', t'⟩ ht'
  refine ⟨s', t', ht', ?_, rfl⟩
  exact pointsTo_entry (v.aligned t' ht'.page) (v.lt t' ht'.page) (by decide) (by decide) (by decide)

end

section

variable {v : View} {b s : Boot} {r : Roles} {k needed : Nat} {targets : List Nat}

/-- The P2 for the piece `k`: there is one, or it is made. -/
theorem ensureP2 (hs : Seen v b s) (h : Built s r (groups k) k targets) (hk : k < 2 ^ 18)
    (hv : v.Shows b needed) (hneeded : 3 + groups (k + 1) + k ≤ needed) :
    Ends (Short b needed) (fun p => ∃ r', r'.p4 = r.p4 ∧ Seen v b p.1 ∧
      Built p.1 r' (groups (k + 1)) k targets ∧ (clearPageFlags p.2).toNat = r'.p2 (k / 512))
      (pteCreate s r.p3Low (k / 512) userFlags) := by
  have hlen := h.length
  by_cases hmod : k % 512 = 0
  · have hgroups : groups k = k / 512 ∧ groups (k + 1) = k / 512 + 1 := by
      simp only [groups]
      omega
    rw [hgroups.1] at h hlen
    rw [hgroups.2] at hneeded ⊢
    have hfree := h.p3_free (k / 512) (Nat.le_refl _) (by omega)
    refine (pteCreate_new hs (hv.mono (by omega)) h.p3Low_mem hfree).mono
      (fun e he => he.mono (by omega)) ?_
    rintro _ ⟨s', t', ht', hpoints, rfl⟩
    refine ⟨{ r with p2 := Function.update r.p2 (k / 512) t' }, rfl, ht'.seen.setPte _ _ _,
      h.addP2 hs ht' hpoints (by omega), ?_⟩
    exact hpoints.clear.trans (Function.update_self (k / 512) t' r.p2).symm
  · have hgroups : groups (k + 1) = groups k ∧ k / 512 < groups k := by
      simp only [groups]
      omega
    have hpoints := h.p3 _ hgroups.2
    rw [pteCreate_old _ (hs.seen _ h.p3Low_mem) hpoints.ne_zero, hgroups.1]
    exact ⟨r, rfl, hs, h, hpoints.clear⟩

/-- **A turn of the loop**: the registered page `i` is mapped at the next 2 MiB. -/
theorem mapHugePage_ends {i : Nat} (hs : Seen v b s) (h : Built s r (groups k) k targets)
    (htargets : k = kernelBreak / hugePageSize + targets.length) (hk : k < 2 ^ 18)
    (hmap : b.hugePageMap i = true) (hv : v.Shows b needed)
    (hneeded : 3 + groups (k + 1) + (k + 1) ≤ needed) :
    Ends (Short b needed) (fun p => p.2 = (k + 1) * hugePageSize ∧ ∃ r', r'.p4 = r.p4 ∧
      Seen v b p.1 ∧ Built p.1 r' (groups (k + 1)) (k + 1) (targets ++ [i]))
      (mapHugePage r.p4 i (s, k * hugePageSize)) := by
  obtain ⟨hi4, hi3, hi2⟩ := index_huge hk
  have hmap' : s.hugePageMap i = true := by rw [hs.map, hmap]
  rw [mapHugePage, hmap', Bool.not_true, if_neg (by decide)]
  simp only [hi4, hi3, hi2]
  rw [bind_of_ok (pteCreate_old _ (hs.seen _ h.p4_mem) h.p4.ne_zero)]
  simp only [h.p4.clear]
  refine (ensureP2 hs h hk hv (by omega)).bind ?_
  rintro ⟨s1, e2⟩ ⟨r1, hp4, hs1, h1, hclear⟩
  replace hclear : (clearPageFlags e2).toNat = r1.p2 (k / 512) := hclear
  have hlen := h1.length
  have hgroups : k < 512 * groups (k + 1) ∧ groups (k + 1) ≤ 512 ∧ k / 512 < groups (k + 1) := by
    simp only [groups]
    omega
  have hfree := h1.p2_free (k / 512) (k % 512) hgroups.2.2 (Nat.mod_lt _ (by decide)) (by omega)
  simp only [hclear]
  refine ((pteCreate_new hs1 (hv.mono (by omega)) (h1.p2_mem hgroups.2.2) hfree).mono
    (fun e he => he.mono (by omega)) fun _ h => h).bind ?_
  rintro _ ⟨s2, t, ht, hpoints, rfl⟩
  simp only [hpoints.clear, v.reaches ht.page, if_true]
  refine ⟨(Nat.succ_mul k hugePageSize).symm, { r1 with p1 := Function.update r1.p1 k t }, hp4, ?_, ?_⟩
  · exact (ht.seen.setPte _ _ _).fillTable _ _
  · refine h1.addP1 (targets ++ [i]) _ hs1 ht hpoints hgroups.1 hgroups.2.1 (fun j _ => ?_)
      fun a j ha => ?_
    · rw [leaf, if_neg (by omega), htargets, Nat.add_sub_cancel_left, List.getD_append_right _ _ _ _
        (Nat.le_refl _), Nat.sub_self]
      rfl
    · rw [leaf, leaf]
      by_cases ha8 : a < kernelBreak / hugePageSize
      · rw [if_pos ha8, if_pos ha8]
      · rw [if_neg ha8, if_neg ha8, List.getD_append _ _ _ _ (by omega)]

end

/-- The registered pages at or above `page_table_break`, in order. -/
def targetsOf (b : Boot) : List Nat :=
  let start := b.pageTableBreak / hugePageSize
  (List.range' start (maxNHugePages - start)).filter b.hugePageMap

theorem mem_targetsOf {b : Boot} {i : Nat} :
    i ∈ targetsOf b ↔ b.pageTableBreak / hugePageSize ≤ i ∧ i < maxNHugePages ∧
      b.hugePageMap i = true := by
  rw [targetsOf, List.mem_filter, List.mem_range'_1]
  constructor
  · exact fun ⟨⟨h1, h2⟩, h3⟩ => ⟨h1, by omega, h3⟩
  · exact fun ⟨h1, h2, h3⟩ => ⟨⟨h1, by omega⟩, h3⟩

theorem last_mem_targetsOf {b : Boot} {ts : List Nat} {i : Nat} (hts : (ts ++ [i]) <+: targetsOf b) :
    i ∈ targetsOf b := hts.subset (List.mem_append_right _ (List.mem_singleton.mpr rfl))

theorem nodup_targetsOf {b : Boot} : (targetsOf b).Nodup := (List.nodup_range').filter _

/-- **The loop of `init_page_table_4k`**: a property of the pages mapped so far and of the state that
    every turn for a registered page extends holds of all of them at the end. -/
theorem mapHugePages_ends {E : Fault → Prop} {b : Boot} {P4 : Nat} {p : Boot × Nat}
    (Q : List Nat → Boot × Nat → Prop) (hmap : ∀ ts p, Q ts p → p.1.hugePageMap = b.hugePageMap)
    (h0 : Q [] p)
    (hstep : ∀ ts i p, (ts ++ [i]) <+: targetsOf b → Q ts p →
      Ends E (Q (ts ++ [i])) (mapHugePage P4 i p)) :
    Ends E (Q (targetsOf b)) (forUpM
      (fun i => mapHugePage P4 (b.pageTableBreak / hugePageSize + i))
      (maxNHugePages - b.pageTableBreak / hugePageSize) p) := by
  set start := b.pageTableBreak / hugePageSize with hstart
  set n := maxNHugePages - start with hn
  have htargets : targetsOf b = (List.range' start n).filter b.hugePageMap := rfl
  rw [htargets]
  -- after `i` turns: the registered pages among the first `i`
  refine forUpM_ends (fun i p => Q ((List.range' start i).filter b.hugePageMap) p) h0 fun i hi p hp => ?_
  have hsucc : List.range' start (i + 1) = List.range' start i ++ [start + i] := by
    rw [List.range'_concat, Nat.one_mul]
  by_cases hregistered : b.hugePageMap (start + i) = true
  · have hfilter : (List.range' start (i + 1)).filter b.hugePageMap =
        (List.range' start i).filter b.hugePageMap ++ [start + i] := by
      rw [hsucc, List.filter_append, List.filter_singleton, hregistered, cond_true]
    rw [hfilter]
    refine hstep _ _ p ?_ hp
    have hpre : List.range' start (i + 1) <+: List.range' start n := by
      obtain ⟨m, hm⟩ := Nat.exists_eq_add_of_le (Nat.succ_le_of_lt hi)
      rw [hm]
      exact ⟨_, List.range'_append_1⟩
    rw [← hfilter, htargets]
    exact hpre.filter _
  · have hfilter : (List.range' start (i + 1)).filter b.hugePageMap =
        (List.range' start i).filter b.hugePageMap := by
      rw [hsucc, List.filter_append, List.filter_singleton, Bool.not_eq_true _ |>.mp hregistered,
        cond_false, List.append_nil]
    have hskip : p.1.hugePageMap (start + i) = false := by
      rw [hmap _ p hp]
      exact Bool.not_eq_true _ |>.mp hregistered
    rw [mapHugePage, hskip, Bool.not_false, if_pos rfl, hfilter]
    exact hp

/-- The pieces that are mapped when the registered pages `ts` are. -/
def piecesOf (ts : List Nat) : Nat := kernelBreak / hugePageSize + ts.length

/-- What `init_page_table_4k` has built. -/
structure Mapped (v : View) (b s : Boot) (r : Roles) : Prop where
  seen : Seen v b s
  le_break : kernelBreak ≤ b.pageTableBreak
  built : Built s r (groups (piecesOf (targetsOf b))) (piecesOf (targetsOf b)) (targetsOf b)
  vaddrBreak : s.vaddrBreak = kernelBreak + hugePageSize * (targetsOf b).length

theorem Mapped.length {v : View} {b s : Boot} {r : Roles} (h : Mapped v b s r) :
    s.tables.length = tablesNeeded (targetsOf b).length := h.built.length

/-- More pieces take more tables. -/
theorem tables_mono {j m : Nat} (h : j ≤ m) : 3 + groups j + j ≤ 3 + groups m + m := by
  simp only [groups]
  omega

/-- The tables for the registered pages `ts`, and `vaddr` behind them. -/
def BuiltFor (v : View) (b : Boot) (P4 : Nat) (ts : List Nat) (p : Boot × Nat) : Prop :=
  p.2 = piecesOf ts * hugePageSize ∧ ∃ r : Roles, r.p4 = P4 ∧ Seen v b p.1 ∧
    Built p.1 r (groups (piecesOf ts)) (piecesOf ts) ts

section

variable {v : View} {b : Boot}

theorem piecesOf_concat (ts : List Nat) (i : Nat) : piecesOf (ts ++ [i]) = piecesOf ts + 1 := by
  rw [piecesOf, piecesOf, List.length_append, List.length_singleton, Nat.add_assoc]

theorem piecesOf_le {ts ts' : List Nat} (h : ts <+: ts') : piecesOf ts ≤ piecesOf ts' :=
  Nat.add_le_add_left h.length_le _

/-- There are not more pieces than a P4 entry has room for. -/
theorem piecesOf_targetsOf_lt (hle : kernelBreak ≤ b.pageTableBreak) :
    piecesOf (targetsOf b) < 2 ^ 18 := by
  have h8 : kernelBreak / hugePageSize = 8 := rfl
  have hmax : maxNHugePages < 2 ^ 18 := by decide
  have hstart := Nat.div_le_div_right (c := hugePageSize) hle
  have hfilter := List.length_filter_le b.hugePageMap
    (List.range' (b.pageTableBreak / hugePageSize) (maxNHugePages - b.pageTableBreak / hugePageSize))
  rw [List.length_range'] at hfilter
  rw [piecesOf, targetsOf]
  omega

theorem piecesOf_lt {ts : List Nat} {i : Nat} (hle : kernelBreak ≤ b.pageTableBreak)
    (hts : (ts ++ [i]) <+: targetsOf b) : piecesOf ts < 2 ^ 18 := by
  have h1 := piecesOf_le hts
  have h2 := piecesOf_targetsOf_lt hle
  rw [piecesOf_concat] at h1
  omega

/-- One more registered page. -/
theorem BuiltFor.step {P4 i needed : Nat} {ts : List Nat} {p : Boot × Nat} (h : BuiltFor v b P4 ts p)
    (hle : kernelBreak ≤ b.pageTableBreak) (hts : (ts ++ [i]) <+: targetsOf b) (hv : v.Shows b needed)
    (hneeded : 3 + groups (piecesOf ts + 1) + (piecesOf ts + 1) ≤ needed) :
    Ends (Short b needed) (BuiltFor v b P4 (ts ++ [i])) (mapHugePage P4 i p) := by
  obtain ⟨s, vaddr⟩ := p
  obtain ⟨hvaddr, r, rfl, hs, hbuilt⟩ := h
  replace hvaddr : vaddr = piecesOf ts * hugePageSize := hvaddr
  subst hvaddr
  have hmap := (mem_targetsOf.mp (last_mem_targetsOf hts)).2.2
  refine (mapHugePage_ends hs hbuilt rfl (piecesOf_lt hle hts) hmap hv hneeded).mono (fun _ he => he) ?_
  intro p hp
  rw [← piecesOf_concat] at hp
  exact hp

/-- **When the loop is through, everything is mapped.** -/
theorem BuiltFor.mapped {P4 : Nat} {p : Boot × Nat} (h : BuiltFor v b P4 (targetsOf b) p)
    (hle : kernelBreak ≤ b.pageTableBreak) :
    ∃ r : Roles, r.p4 = P4 ∧ Mapped v b { p.1 with vaddrBreak := p.2 } r := by
  have hkernel : kernelBreak = 8 * hugePageSize := rfl
  obtain ⟨hvaddr, r, hp4, hs, h⟩ := h
  refine ⟨r, hp4, ⟨hs.of_eq rfl rfl rfl rfl, hs.seen⟩, hle, ?_, ?_⟩
  · exact ⟨h.tables, h.le, h.self, h.window, h.high, h.p4, h.p3, h.p3_free, h.p2, h.p2_free, h.p1⟩
  · show p.2 = _
    rw [hvaddr, piecesOf, Nat.add_mul, Nat.mul_comm (targetsOf b).length]
    rfl

/-- A table has been handed out below the break, so the break is above the kernel. -/
theorem Seen.le_break {s : Boot} {t : Nat} (h : Seen v b s) (ht : t ∈ s.tables) :
    kernelBreak ≤ b.pageTableBreak := by
  have h1 := h.le t ht
  have h2 := h.lt_break t ht
  omega

/-- **`init_page_table_4k`**, for every set of registered pages for which the view shows the tables: it
    maps all of them that are not reserved, or there is a shortage of tables. -/
theorem initPageTable4k_ends (hb : Seen v b b) (hnil : b.tables = [])
    (hv : v.Shows b (tablesNeeded (targetsOf b).length)) :
    Ends (Short b (tablesNeeded (targetsOf b).length)) (fun p => ∃ r, r.p4 = p.2 ∧ Mapped v b p.1 r)
      (initPageTable4k b) := by
  have hneeded : 12 ≤ tablesNeeded (targetsOf b).length := by
    have := tables_mono (Nat.le_add_right 8 (targetsOf b).length)
    exact Nat.le_trans (by decide) this
  rw [initPageTable4k]
  refine (initEmptyKernelPageTable_ends hb hnil hv hneeded).bind ?_
  rintro ⟨s0, P4⟩ ⟨r0, rfl, hs0, h0⟩
  have hle := hs0.le_break h0.p4_mem
  dsimp only
  rw [hs0.pageTableBreak]
  refine Ends.bind (P := BuiltFor v b r0.p4 (targetsOf b)) ?_ fun p hp => hp.mapped hle
  refine mapHugePages_ends (BuiltFor v b r0.p4) ?_ ⟨rfl, r0, rfl, hs0, h0⟩ fun ts i p hts hp => ?_
  · rintro ts p ⟨-, r, -, hs, -⟩
    exact hs.map
  · refine hp.step hle hts hv (tables_mono ?_)
    rw [← piecesOf_concat]
    exact piecesOf_le hts

end

end JudgeDuck.Memory
