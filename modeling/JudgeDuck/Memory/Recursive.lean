/-
  The recursive mapping.

  While the tables are built, entries are reached through the window of `boot.asm` at -1024 GiB.  The new
  tables have a window at the same place, in pages of 1 GiB (`Mapped.translate_remap`).  Later entries are
  reached through P4 itself: its last entry points to it, so each time a walk goes through that entry it
  ends one level earlier, and what it ends at is a table (`translate_of_pointsTo`).
  `recursive_mapping_iff`: the three ways lead to the same words, for the four entries on the way to any
  address below `vaddr_break`, iff the tables are below 4 GiB.
-/
import JudgeDuck.Memory.Space

namespace JudgeDuck.Memory

open JudgeDuck.Lib
open JudgeDuck.DuckCache (pageSize hugePageSize roundUp)

/-! ## The explicit walk -/

section

variable (s : Boot) (cr3 v : Nat)

/-- The P3 of an address, as `init_page_table_4k` finds it. -/
def p3Table : Nat := (clearPageFlags (s.pte cr3 (p4Index v))).toNat

/-- The P2 of an address. -/
def p2Table : Nat := (clearPageFlags (s.pte (p3Table s cr3 v) (p3Index v))).toNat

/-- The P1 of an address. -/
def p1Table : Nat := (clearPageFlags (s.pte (p2Table s cr3 v) (p2Index v))).toNat

/-- What `PTE(P4, P4_index(v))` remaps. -/
def p4Cell : Nat := cr3 ||| (p4Index v * 8)

/-- What `PTE(P3, P3_index(v))` remaps. -/
def p3Cell : Nat := p3Table s cr3 v ||| (p3Index v * 8)

/-- What `PTE(P2, P2_index(v))` remaps. -/
def p2Cell : Nat := p2Table s cr3 v ||| (p2Index v * 8)

/-- What `PTE(P1, P1_index(v))` remaps. -/
def p1Cell : Nat := p1Table s cr3 v ||| (p1Index v * 8)

end

/-! ## Addresses -/

section

variable {v : Nat}

/-- `get_p2` as arithmetic. -/
theorem getP2_eq (hv : v < 2 ^ 39) : getP2 v = 2 ^ 64 - 2 ^ 30 + v / 2 ^ 21 * 8 := by
  have hshift : v >>> 18 = v / 2 ^ 18 := Nat.shiftRight_eq_div_pow v 18
  rw [getP2, hshift, and_or_eq (by omega) (by decide)]
  omega

/-- `get_p3` as arithmetic. -/
theorem getP3_eq (hv : v < 2 ^ 39) : getP3 v = 2 ^ 64 - 2 ^ 21 + v / 2 ^ 30 * 8 := by
  have hshift : v >>> 27 = v / 2 ^ 27 := Nat.shiftRight_eq_div_pow v 27
  rw [getP3, hshift, and_or_eq (by omega) (by decide)]
  omega

/-- `get_p4` as arithmetic: there is one such table. -/
theorem getP4_eq (hv : v < 2 ^ 39) : getP4 v = 2 ^ 64 - 2 ^ 12 := by
  have hshift : v >>> 36 = v / 2 ^ 36 := Nat.shiftRight_eq_div_pow v 36
  rw [getP4, hshift, and_or_eq (by omega) (by decide)]
  omega

end

/-! ## Two ways to an entry -/

section

variable {v : Nat}

/-- `get_P2` goes through P4 twice. -/
theorem index_getP2 (hv : v < 2 ^ 39) :
    p4Index (getP2 v) = 511 ∧ p3Index (getP2 v) = 511 ∧ p2Index (getP2 v) = 0 ∧
      p1Index (getP2 v) = v / 2 ^ 21 / 512 := by
  simp only [p4Index, p3Index, p2Index, p1Index, shift_and, getP2_eq hv]
  omega

/-- `get_P3` goes through it three times. -/
theorem index_getP3 (hv : v < 2 ^ 39) :
    p4Index (getP3 v) = 511 ∧ p3Index (getP3 v) = 511 ∧ p2Index (getP3 v) = 511 ∧
      p1Index (getP3 v) = 0 := by
  simp only [p4Index, p3Index, p2Index, p1Index, shift_and, getP3_eq hv]
  omega

/-- `get_P4` goes through nothing else. -/
theorem index_getP4 (hv : v < 2 ^ 39) :
    p4Index (getP4 v) = 511 ∧ p3Index (getP4 v) = 511 ∧ p2Index (getP4 v) = 511 ∧
      p1Index (getP4 v) = 511 := by
  simp only [p4Index, p3Index, p2Index, p1Index, shift_and, getP4_eq hv]
  decide

end

section

variable {b s : Boot} {r : Roles} {cr3 a i t1 t2 t3 t : Nat}

/-- A walk through four entries that point to tables ends in the last table. -/
theorem translate_of_pointsTo (h4 : PointsTo (s.word cr3 (p4Index a)) t3)
    (h3 : PointsTo (s.word t3 (p3Index a)) t2) (h2 : PointsTo (s.word t2 (p2Index a)) t1)
    (h1 : PointsTo (s.word t1 (p1Index a)) t) (ht : 2 ^ 12 ∣ t) :
    translate s cr3 a = some (t + a % 2 ^ 12) := by
  have hwalk : walk s cr3 a = some (s.word t1 (p1Index a), pageSize) := by
    simp only [walk, h4.frame, h3.frame, h2.frame, h4.present, h3.present, h2.present, h1.present,
      h3.not_huge, h2.not_huge, Bool.not_true, Bool.false_eq_true, if_false]
  have hframe : t / pageSize * pageSize = t := Nat.div_mul_cancel ht
  rw [translate, hwalk]
  simp only [Option.map_some, h1.frame, hframe]
  rfl

/-- **The new window**: physical memory is at -1024 GiB, all of it. -/
theorem Mapped.translate_remap (h : Mapped .low b s r) (ha : a < 2 ^ 39) :
    translate s r.p4 (remap a) = some a := by
  have hremap : remap a = 2 ^ 64 - 2 ^ 40 + a := by
    rw [remap, u64]
    omega
  have hi4 : p4Index (remap a) = 510 := by
    rw [p4Index, shift_and, hremap]
    omega
  have hi3 : p3Index (remap a) = a / 2 ^ 30 := by
    rw [p3Index, shift_and, hremap]
    omega
  have hwindow : PointsTo (s.word r.p4 510) r.p3High := by
    rw [h.word_eq h.built.p4_mem (by decide)]
    exact h.built.window
  have hhigh : s.word r.p3High (a / 2 ^ 30) =
      entry (a / 2 ^ 30 * p3PageSize) (kernelFlags ||| pteHuge) := by
    rw [h.word_eq h.built.p3High_mem (by omega)]
    exact h.built.high (a / 2 ^ 30) (by omega)
  have haligned : 2 ^ 12 ∣ a / 2 ^ 30 * p3PageSize :=
    Nat.dvd_trans (by decide) (Nat.dvd_mul_left p3PageSize _)
  have hpresent : has (s.word r.p3High (a / 2 ^ 30)) ptePresent = true := by
    rw [hhigh, ptePresent, has_bit (by decide), getLsbD_entry haligned (by decide)]
    decide
  have hhuge : has (s.word r.p3High (a / 2 ^ 30)) pteHuge = true := by
    rw [hhigh, pteHuge, has_bit (by decide), getLsbD_entry haligned (by decide)]
    decide
  have hframe : frame (s.word r.p3High (a / 2 ^ 30)) = a / 2 ^ 30 * p3PageSize := by
    rw [hhigh]
    refine frame_entry haligned ?_ (by decide)
    rw [p3PageSize]
    omega
  have hwalk : Memory.walk s r.p4 (remap a) = some (s.word r.p3High (a / 2 ^ 30), p3PageSize) := by
    simp only [Memory.walk, hi4, hi3, hwindow.frame, hwindow.present, hpresent, hhuge, Bool.not_true,
      Bool.false_eq_true, if_false, if_true]
  rw [translate, hwalk]
  simp only [Option.map_some, hframe, Option.some.injEq, hremap]
  rw [p3PageSize]
  omega

end

/-- The address `a` leads to the word that `remap(paddr)` is, with the tables of `boot.asm` as with the new
    ones. -/
structure SameCell (s : Boot) (cr3 a paddr : Nat) : Prop where
  recursive : translate s cr3 a = some (window paddr)
  remapped : translate s cr3 (remap paddr) = some (window paddr)

/-- The word `i` of the table `t`, by an address whose walk goes through entries that point to
    tables. -/
theorem Mapped.sameCell {b s : Boot} {r : Roles} {a i t1 t2 t3 t : Nat} (h : Mapped .low b s r)
    (h4 : PointsTo (s.word r.p4 (p4Index a)) t3) (h3 : PointsTo (s.word t3 (p3Index a)) t2)
    (h2 : PointsTo (s.word t2 (p2Index a)) t1) (h1 : PointsTo (s.word t1 (p1Index a)) t)
    (ht : t ∈ s.tables) (hi : i < 512) (ha : a % 2 ^ 12 = i * 8) :
    SameCell s r.p4 a (t ||| (i * 8)) := by
  have hlow : LowPage t := h.seen.seen t ht
  have hwindow : window (t ||| (i * 8)) = t + i * 8 := by
    rw [View.low.window_index hlow hi, hlow.mod]
  constructor
  · rw [hwindow, translate_of_pointsTo h4 h3 h2 h1 hlow.1, ha]
  · rw [hwindow, or_index hlow.1 hi]
    refine h.translate_remap ?_
    have := hlow.2.2
    omega

/-- The recursive mapping and the explicit walk lead to the same words. -/
structure RecursiveMapping (s : Boot) (cr3 v : Nat) : Prop where
  p1 : SameCell s cr3 (getP1 v) (p1Cell s cr3 v)
  p2 : SameCell s cr3 (getP2 v) (p2Cell s cr3 v)
  p3 : SameCell s cr3 (getP3 v) (p3Cell s cr3 v)
  p4 : SameCell s cr3 (getP4 v) (p4Cell cr3 v)

/-- **Tables below 4 GiB make the recursive mapping work**: at each level the last entry leads
    back. -/
theorem Mapped.recursiveMapping {b s : Boot} {r : Roles} {v : Nat} (h : Mapped .low b s r)
    (hv : v < s.vaddrBreak) : RecursiveMapping s r.p4 v := by
  have hpiece := h.piece_lt hv
  have hlt := nPieces_lt h
  have hhuge : hugePageSize = 2097152 := rfl
  have hpage : pageSize = 4096 := rfl
  obtain ⟨hi4, hi3, hi2, hi1⟩ := index_eq (v := v) (by omega)
  have hv39 : v < 2 ^ 39 := by
    rw [hhuge] at hpiece
    omega
  have hgroup : v / hugePageSize / 512 < groups (nPieces b) := by
    rw [groups]
    omega
  have hmod : v / hugePageSize % 512 < 512 := Nat.mod_lt _ (by decide)
  -- the entries on the way, and the tables as the code finds them
  obtain ⟨e5, e4, e3, e2, -⟩ := h.path hpiece
  have ht3 : p3Table s r.p4 v = r.p3Low := by
    rw [p3Table, hi4, ← h.word_eq h.built.p4_mem (by decide), e4.clear]
  have ht2 : p2Table s r.p4 v = r.p2 (v / hugePageSize / 512) := by
    rw [p2Table, ht3, hi3, ← h.word_eq h.built.p3Low_mem (by omega), e3.clear]
  have ht1 : p1Table s r.p4 v = r.p1 (v / hugePageSize) := by
    rw [p1Table, ht2, hi2, ← h.word_eq (h.built.p2_mem hgroup) hmod, e2.clear]
  constructor
  case p1 =>
    obtain ⟨j4, j3, j2, j1⟩ := index_getP1 hv39
    rw [p1Cell, ht1, hi1]
    refine h.sameCell (by rw [j4]; exact e5) (by rw [j3]; exact e4) (by rw [j2]; exact e3)
      (by rw [j1]; exact e2) (h.built.p1_mem hpiece) (Nat.mod_lt _ (by decide)) ?_
    rw [getP1_eq hv39, hpage]
    omega
  case p2 =>
    obtain ⟨j4, j3, j2, j1⟩ := index_getP2 hv39
    rw [p2Cell, ht2, hi2]
    refine h.sameCell (by rw [j4]; exact e5) (by rw [j3]; exact e5) (by rw [j2]; exact e4)
      (by rw [j1]; exact e3) (h.built.p2_mem hgroup) hmod ?_
    rw [getP2_eq hv39, hhuge]
    omega
  case p3 =>
    obtain ⟨j4, j3, j2, j1⟩ := index_getP3 hv39
    rw [p3Cell, ht3, hi3]
    refine h.sameCell (by rw [j4]; exact e5) (by rw [j3]; exact e5) (by rw [j2]; exact e5)
      (by rw [j1]; exact e4) h.built.p3Low_mem (by omega) ?_
    rw [getP3_eq hv39, hhuge]
    omega
  case p4 =>
    obtain ⟨j4, j3, j2, j1⟩ := index_getP4 hv39
    rw [p4Cell, hi4]
    refine h.sameCell (by rw [j4]; exact e5) (by rw [j3]; exact e5) (by rw [j2]; exact e5)
      (by rw [j1]; exact e5) h.built.p4_mem (by decide) ?_
    rw [getP4_eq hv39]
    rfl

/-- **The recursive mapping agrees with the explicit walk**, for all registered pages with which
    `init_page_tables` returns, at every address below `vaddr_break`, iff the registered pages below 4 GiB
    hold all tables.  An entry of a table above is written below 4 GiB, and `get_P1` looks for it above. -/
theorem recursive_mapping_iff (mem : Nat → BitVec 64) (addrs : List Nat) (s0 s : Boot) (cr3 : Nat)
    (hreg : registerAll mem addrs = .ok s0) (hinit : initPageTables s0 = .ok (s, cr3)) :
    (TablesLow s0 → ∀ v, v < s.vaddrBreak → RecursiveMapping s cr3 v) ∧
      ((∀ a, 2 ^ 32 ≤ a → mem a = 0#64) →
        (∀ v, v < s.vaddrBreak → RecursiveMapping s cr3 v) → TablesLow s0) := by
  constructor
  · intro hlow v hv
    obtain ⟨r, rfl, hmapped⟩ := (registered_all hreg).mapped hlow hinit
    exact hmapped.recursiveMapping hv
  · intro hmem hall
    by_contra hlow
    obtain ⟨v, hv, -, hp1⟩ := exists_lost hreg hinit hlow hmem
    have hle := hp1 _ (hall v hv).p1.recursive
    exact absurd hle (Nat.not_le.mpr (window_lt _))

/-- Eight pages below 4 GiB, and then a hole: an address of user space whose page is behind the hole. -/
theorem recursive_mapping_split : ∃ s0 s cr3, registerAll (fun _ => 0#64) (splitPages 8) = .ok s0 ∧
    initPageTables s0 = .ok (s, cr3) ∧ kernelBreak ≤ 5 * 2 ^ 30 + 7 * pageSize ∧
    5 * 2 ^ 30 + 7 * pageSize < s.vaddrBreak ∧ RecursiveMapping s cr3 (5 * 2 ^ 30 + 7 * pageSize) := by
  obtain ⟨s0, hreg, hset⟩ := registerAll_split (fun _ => 0#64) 8 (by decide)
  have hs := registered_all hreg
  obtain ⟨⟨s, cr3⟩, hinit, hbreak⟩ := hset.returns hs (by decide) (by decide) (hset.low_shows hs)
  have hlt : 5 * 2 ^ 30 + 7 * pageSize < s.vaddrBreak :=
    Nat.lt_of_lt_of_eq (by decide : _ < kernelBreak + hugePageSize * (8 + 3134)) hbreak.symm
  exact ⟨s0, s, cr3, hreg, hinit, by decide, hlt,
    (recursive_mapping_iff _ _ s0 s cr3 hreg hinit).1 (hset.tablesLow hs) _ hlt⟩

/-- One page below 4 GiB, and then the hole: no assertion fails, and for an address of the address space
    `get_P1` does not lead to the entry that the code has written. -/
theorem recursive_mapping_torn : ∃ s0 s cr3 v, registerAll (fun _ => 0#64) (splitPages 1) = .ok s0 ∧
    initPageTables s0 = .ok (s, cr3) ∧ v < s.vaddrBreak ∧
    translate s cr3 (getP1 v) ≠ some (window (p1Cell s cr3 v)) ∧ ¬ RecursiveMapping s cr3 v := by
  obtain ⟨s0, hreg, hset⟩ := registerAll_split (fun _ => 0#64) 1 (by decide)
  have hs := registered_all hreg
  obtain ⟨⟨s, cr3⟩, hinit, -⟩ := hset.returns hs (by decide) (by decide) (hset.shows hs)
  obtain ⟨v, hv, -, hp1⟩ := exists_lost hreg hinit (hset.not_tablesLow hs) fun _ _ => rfl
  have hne : translate s cr3 (getP1 v) ≠ some (window (p1Cell s cr3 v)) := fun heq =>
    absurd (hp1 _ heq) (Nat.not_le.mpr (window_lt _))
  exact ⟨s0, s, cr3, v, hreg, hinit, hv, hne, fun hmapping => hne hmapping.p1.recursive⟩

end JudgeDuck.Memory
