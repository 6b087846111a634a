/-
  Tables above 4 GiB.

  The allocator goes on above 4 GiB when there are too few registered pages below, and the window shows
  such a table 4 GiB (or 8, or more) lower: the code clears, links and fills some page down there.  The
  processor, which knows no window, finds nothing at the table's own address.

  From the first such table on every entry that the code writes is `Dead`: it is 0, or its frame is above
  4 GiB.  The writes go through the window and can hit anything below, older tables too, but what they
  leave is dead (`Fades`), and above 4 GiB nothing is ever written (`Blank`).  So the way to the piece
  whose table was the first one above 4 GiB ends at a dead entry (`Lost`), whatever else the run destroys
  (`exists_lost`).
-/
import JudgeDuck.Memory.Walk

namespace JudgeDuck.Memory

open JudgeDuck.Lib
open JudgeDuck.DuckCache (pageSize hugePageSize roundUp)

/-! ## Dead entries -/

/-- An entry that leads to nothing below 4 GiB. -/
def Dead (e : BitVec 64) : Prop := e = 0#64 ∨ (has e pteHuge = false ∧ 2 ^ 32 ≤ frame e)

theorem dead_zero : Dead 0#64 := Or.inl rfl

theorem PointsTo.dead {e : BitVec 64} {t : Nat} (h : PointsTo e t) (ht : 2 ^ 32 ≤ t) : Dead e := by
  right
  rw [h.frame]
  exact ⟨h.not_huge, ht⟩

/-- The pages above 4 GiB that `init_page_table_4k` maps. -/
theorem dead_userPage {i j : Nat} (hi : i < maxNHugePages) (hhigh : 2 ^ 32 ≤ i * hugePageSize)
    (hj : j < 512) : Dead (userPage (i * hugePageSize) j) := by
  have hdvd : 2 ^ 21 ∣ i * hugePageSize := Nat.dvd_mul_left _ _
  have hpage : 2 ^ 12 ∣ i * hugePageSize := Nat.dvd_trans (by decide) hdvd
  have hlt : i * hugePageSize < maxMemorySize := by
    rw [show maxMemorySize = maxNHugePages * hugePageSize from rfl]
    exact Nat.mul_lt_mul_of_pos_right hi (by decide)
  have hleaf : 2 ^ 12 ∣ i * hugePageSize + j * pageSize := Nat.dvd_add hpage (Nat.dvd_mul_left _ j)
  right
  rw [userPage_eq j hpage, frame_leaf hdvd hlt hj (by decide), pteHuge, has_bit (by decide),
    getLsbD_entry hleaf (by decide)]
  exact ⟨by decide, Nat.le_trans hhigh (Nat.le_add_right _ _)⟩

/-! ## Nothing is written above 4 GiB -/

/-- There is nothing above 4 GiB. -/
def Blank (s : Boot) : Prop := ∀ a, 2 ^ 32 ≤ a → s.mem a = 0#64

section

variable {b s : Boot}

theorem Blank.setPte (h : Blank s) (t i : Nat) (e : BitVec 64) : Blank (s.setPte t i e) := by
  intro a ha
  have hlt := window_lt (t ||| (i * 8))
  show Function.update s.mem _ e a = 0#64
  rw [Function.update_of_ne (by omega)]
  exact h a ha

theorem Blank.fillTable (h : Blank s) (t : Nat) (f : Nat → BitVec 64) : Blank (s.fillTable t f) :=
  forUp_inv (fun _ (u : Boot) => Blank u) h fun j _ _ hu => hu.setPte t j (f j)

theorem Blank.zeroPage (h : Blank s) {t : Nat} (haligned : 2 ^ 12 ∣ t) (hlt : t < maxMemorySize) :
    Blank (s.zeroPage t) := by
  have hmax : maxMemorySize = 511 * 2 ^ 30 := rfl
  have hsize : pageSize = 2 ^ 12 := rfl
  intro a ha
  have hwindow : window t = t % 2 ^ 32 := window_eq (by omega)
  show (if window t ≤ a ∧ a < window t + pageSize then 0#64 else s.mem a) = 0#64
  split
  · rfl
  · exact h a ha

/-- Behind an entry that leads above 4 GiB there is nothing. -/
theorem Blank.word (h : Blank s) {t : Nat} (ht : 2 ^ 32 ≤ t) (i : Nat) : s.word t i = 0#64 :=
  h _ (Nat.le_trans ht Nat.left_le_or)

/-- A table is handed out and cleared; it is the next one in the count. -/
structure Handed (b s s' : Boot) (t : Nat) : Prop where
  allocs : Allocs b s'
  tables : s'.tables = s.tables ++ [t]
  count : Nat.count b.usable (t / pageSize) = s.tables.length
  mem : s'.mem = (s.zeroPage t).mem

theorem Handed.mem_tables {s' : Boot} {t : Nat} (h : Handed b s s' t) : t ∈ s'.tables := by
  rw [h.tables]
  exact List.mem_append_right _ (List.mem_singleton.mpr rfl)

theorem Handed.blank {s' : Boot} {t : Nat} (h : Handed b s s' t) (hs : Blank s) : Blank s' := by
  intro a ha
  rw [h.mem]
  exact hs.zeroPage (h.allocs.aligned t h.mem_tables) (h.allocs.lt_max t h.mem_tables) a ha

/-- When the pages below 4 GiB are used up the next table is above. -/
theorem Handed.high {s' : Boot} {t : Nat} (h : Handed b s s' t) (hfull : lowRoom b ≤ s.tables.length) :
    2 ^ 32 ≤ t := by
  refine Nat.le_of_not_lt fun hlt => ?_
  have hcount := (lt_iff_lowRoom (h.allocs.aligned t h.mem_tables) (h.allocs.usable t h.mem_tables)).mp hlt
  rw [h.count] at hcount
  omega

/-- **What `page_table_alloc_zeroed` does**, if it returns. -/
theorem pageTableAllocZeroed_handed (h : Allocs b s) :
    Ends (fun _ => True) (fun p => Handed b s p.1 p.2) (pageTableAllocZeroed s) := by
  rw [pageTableAllocZeroed]
  refine ((pageTableAlloc_ends h).mono (fun _ _ => trivial) fun _ hp => hp).bind ?_
  rintro ⟨s', t⟩ ⟨hs', heq, hcount⟩
  replace heq : s' = { s with nextPageTableAddress := t + pageSize, tables := s.tables ++ [t] } := heq
  dsimp only
  split
  · refine ⟨hs'.of_eq rfl rfl rfl rfl, ?_, hcount, ?_⟩
    · show s'.tables = _
      rw [heq]
    · rw [heq]
      rfl
  · trivial

end

/-- The allocator at work, with nothing above 4 GiB. -/
structure Windowed (b s : Boot) : Prop where
  allocs : Allocs b s
  blank : Blank s

section

variable {b s : Boot}

theorem Windowed.setPte (h : Windowed b s) (t i : Nat) (e : BitVec 64) : Windowed b (s.setPte t i e) :=
  ⟨h.allocs.setPte t i e, h.blank.setPte t i e⟩

theorem Windowed.fillTable (h : Windowed b s) (t : Nat) (f : Nat → BitVec 64) :
    Windowed b (s.fillTable t f) := ⟨h.allocs.fillTable t f, h.blank.fillTable t f⟩

theorem Windowed.alloc (h : Windowed b s) :
    Ends (fun _ => True) (fun p => Handed b s p.1 p.2 ∧ Windowed b p.1) (pageTableAllocZeroed s) :=
  (pageTableAllocZeroed_handed h.allocs).mono (fun _ _ => trivial)
    fun _ hp => ⟨hp, hp.allocs, hp.blank h.blank⟩

/-- The kernel's part: if no page below 4 GiB is registered, the first table is already above. -/
theorem Windowed.initEmptyKernelPageTable (hb : Windowed b b) :
    Ends (fun _ => True) (fun p => Windowed b p.1 ∧ (lowRoom b = 0 → 2 ^ 32 ≤ p.2))
      (initEmptyKernelPageTable b) := by
  rw [Memory.initEmptyKernelPageTable]
  refine hb.alloc.bind ?_
  rintro ⟨s1, P4⟩ ⟨hP4, h1⟩
  have hhigh : lowRoom b = 0 → 2 ^ 32 ≤ P4 := fun hzero => hP4.high (by rw [hzero]; exact Nat.zero_le _)
  refine h1.alloc.bind ?_
  rintro ⟨s2, P3high⟩ ⟨-, h2⟩
  refine h2.alloc.bind ?_
  rintro ⟨s3, P3low⟩ ⟨-, h3⟩
  refine h3.alloc.bind ?_
  rintro ⟨s4, P2low⟩ ⟨-, h4⟩
  refine Ends.bind (P := Windowed b) ?_ fun s hs => ⟨hs, hhigh⟩
  refine forUpM_ends (fun _ s => Windowed b s) ?_ fun i _ s hs => ?_
  · exact ((((h4.setPte _ _ _).setPte _ _ _).fillTable _ _).setPte _ _ _).setPte _ _ _
  · rw [mapKernelPage]
    refine hs.alloc.bind ?_
    rintro ⟨s', P1⟩ ⟨-, hs'⟩
    exact (hs'.setPte _ _ _).fillTable _ _

end

/-! ## Fading -/

/-- What has happened since `s`: if the pages below 4 GiB were used up by then, what has changed is
    dead. -/
structure Fades (b s s' : Boot) : Prop extends Windowed b s' where
  length_le : s.tables.length ≤ s'.tables.length
  mem : lowRoom b ≤ s.tables.length → ∀ a, s'.mem a = s.mem a ∨ Dead (s'.mem a)

section

variable {b s s' : Boot}

theorem Fades.refl (h : Windowed b s) : Fades b s s := ⟨h, Nat.le_refl _, fun _ _ => Or.inl rfl⟩

theorem Fades.setPte (h : Fades b s s') (t i : Nat) {e : BitVec 64}
    (he : lowRoom b ≤ s.tables.length → Dead e) : Fades b s (s'.setPte t i e) := by
  refine ⟨h.toWindowed.setPte t i e, h.length_le, fun hfull a => ?_⟩
  show Function.update s'.mem _ e a = s.mem a ∨ Dead (Function.update s'.mem _ e a)
  by_cases ha : a = window (t ||| (i * 8))
  · right
    rw [ha, Function.update_self]
    exact he hfull
  · rw [Function.update_of_ne ha]
    exact h.mem hfull a

theorem Fades.fillTable (h : Fades b s s') (t : Nat) {f : Nat → BitVec 64}
    (hf : ∀ j, j < 512 → Dead (f j)) : Fades b s (s'.fillTable t f) :=
  forUp_inv (fun _ (u : Boot) => Fades b s u) h fun j hj _ hu => hu.setPte t j fun _ => hf j hj

theorem Fades.handed {s'' : Boot} {t : Nat} (h : Fades b s s') (ht : Handed b s' s'' t) :
    Fades b s s'' := by
  refine ⟨⟨ht.allocs, ht.blank h.blank⟩, ?_, fun hfull a => ?_⟩
  · rw [ht.tables, List.length_append]
    exact Nat.le_trans h.length_le (Nat.le_add_right _ _)
  · rw [ht.mem]
    show (if _ then 0#64 else s'.mem a) = s.mem a ∨ Dead (if _ then 0#64 else s'.mem a)
    split
    · exact Or.inr dead_zero
    · exact h.mem hfull a

/-- `PTE_create`, with any table: a new entry leads above 4 GiB. -/
theorem Fades.pteCreate (h : Fades b s s') (t i : Nat) :
    Ends (fun _ => True) (fun p => Fades b s p.1) (pteCreate s' t i userFlags) := by
  rw [Memory.pteCreate]
  split
  · trivial
  split
  · refine (pageTableAllocZeroed_handed h.allocs).bind ?_
    rintro ⟨s'', t'⟩ ht'
    have hmem := ht'.mem_tables
    refine (h.handed ht').setPte t i fun hfull => PointsTo.dead ?_
      (ht'.high (Nat.le_trans hfull h.length_le))
    exact pointsTo_entry (ht'.allocs.aligned t' hmem) (ht'.allocs.lt_max t' hmem) (by decide) (by decide)
      (by decide)
  · exact h

section

variable {i : Nat} (vaddr : Nat) (hi : i < maxNHugePages) (hhigh : 2 ^ 32 ≤ i * hugePageSize)
include hi hhigh

/-- The end of a turn: the P1 and its entries. -/
theorem Fades.mapP1 (h : Fades b s s') (P2 j : Nat) :
    Ends (fun _ => True) (fun p => p.2 = vaddr + hugePageSize ∧ Fades b s p.1) (do
      let (s, e1) ← Memory.pteCreate s' P2 j userFlags
      let P1 := (clearPageFlags e1).toNat
      if reaches P1 then .ok (s.fillTable P1 (userPage (i * hugePageSize)), vaddr + hugePageSize)
      else .error .bufferOverflow) := by
  refine (h.pteCreate P2 j).bind ?_
  rintro ⟨s1, e1⟩ h1
  dsimp only
  split
  · exact ⟨rfl, h1.fillTable _ fun j hj => dead_userPage hi hhigh hj⟩
  · trivial

/-- **A turn of the loop** makes nothing alive. -/
theorem Fades.mapHugePage (h : Fades b s s') (P4 : Nat) (hmap : b.hugePageMap i = true) :
    Ends (fun _ => True) (fun p => p.2 = vaddr + hugePageSize ∧ Fades b s p.1)
      (mapHugePage P4 i (s', vaddr)) := by
  have hmap' : s'.hugePageMap i = true := by rw [h.allocs.map, hmap]
  rw [Memory.mapHugePage, hmap', Bool.not_true, if_neg (by decide)]
  refine (h.pteCreate _ _).bind ?_
  rintro ⟨s1, e3⟩ h1
  refine (h1.pteCreate _ _).bind ?_
  rintro ⟨s2, e2⟩ h2
  exact h2.mapP1 vaddr hi hhigh _ _

end

end

/-! ## The lost piece -/

/-- The way to the piece `k` through the tables `p4`, `p3` and `p2` ends at a dead entry. -/
structure Lost (s : Boot) (p4 p3 p2 k : Nat) : Prop where
  self : PointsTo (s.word p4 511) p4 ∨ Dead (s.word p4 511)
  p4 : PointsTo (s.word p4 0) p3 ∨ Dead (s.word p4 0)
  p3 : PointsTo (s.word p3 (k / 512)) p2 ∧ Dead (s.word p2 (k % 512)) ∨ Dead (s.word p3 (k / 512))

section

variable {b s s' : Boot} {p4 p3 p2 k : Nat}

/-- A dead end stays one. -/
theorem Lost.fades (h : Lost s p4 p3 p2 k) (hs : Fades b s s') (hfull : lowRoom b ≤ s.tables.length) :
    Lost s' p4 p3 p2 k := by
  have hpoints : ∀ t i u, PointsTo (s.word t i) u → PointsTo (s'.word t i) u ∨ Dead (s'.word t i) := by
    intro t i u hu
    rcases hs.mem hfull (t ||| (i * 8)) with heq | hdead
    · left
      rw [Boot.word, heq]
      exact hu
    · exact Or.inr hdead
  have hdead : ∀ t i, Dead (s.word t i) → Dead (s'.word t i) := by
    intro t i hd
    rcases hs.mem hfull (t ||| (i * 8)) with heq | hd'
    · rw [Boot.word, heq]
      exact hd
    · exact hd'
  refine ⟨?_, ?_, ?_⟩
  · rcases h.self with hu | hd
    · exact hpoints _ _ _ hu
    · exact Or.inr (hdead _ _ hd)
  · rcases h.p4 with hu | hd
    · exact hpoints _ _ _ hu
    · exact Or.inr (hdead _ _ hd)
  · rcases h.p3 with ⟨hu, hd⟩ | hd
    · rcases hpoints _ _ _ hu with hu' | hd'
      · exact Or.inl ⟨hu', hdead _ _ hd⟩
      · exact Or.inr hd'
    · exact Or.inr (hdead _ _ hd)

/-- The piece behind the last one has no P1 yet, so it is lost. -/
theorem Built.lost {r : Roles} {g : Nat} {targets : List Nat} (h : Built s r g k targets)
    (hs : Seen .low b s) (hk : k < 2 ^ 18) : Lost s r.p4 r.p3Low (r.p2 (k / 512)) k := by
  have hword : ∀ t i, t ∈ s.tables → i < 512 → s.word t i = s.pte t i := fun t i ht hi =>
    View.word_eq (hs.seen t ht) hi
  have hmod : k % 512 < 512 := Nat.mod_lt _ (by decide)
  refine ⟨Or.inl ?_, Or.inl ?_, ?_⟩
  · rw [hword _ _ h.p4_mem (by decide)]
    exact h.self
  · rw [hword _ _ h.p4_mem (by decide)]
    exact h.p4
  · rw [hword _ _ h.p3Low_mem (by omega)]
    by_cases hg : k / 512 < g
    · left
      refine ⟨h.p3 _ hg, ?_⟩
      rw [hword _ _ (h.p2_mem hg) hmod, h.p2_free _ _ hg hmod (by omega)]
      exact dead_zero
    · right
      rw [h.p3_free _ (Nat.le_of_not_lt hg) (by omega)]
      exact dead_zero

end

section

variable {s : Boot} {cr3 v t3 t2 t1 : Nat} (hblank : Blank s)
include hblank

/-- A dead entry that is present leads to empty memory, and is not the end of a walk. -/
theorem Blank.dead {e : BitVec 64} (he : Dead e) (hpresent : has e ptePresent = true) :
    has e pteHuge = false ∧ ∀ i, s.word (frame e) i = 0#64 := by
  rcases he with rfl | ⟨hhuge, hframe⟩
  · exact absurd hpresent (by decide)
  · exact ⟨hhuge, fun i => hblank.word hframe i⟩

/-- A walk whose first entry is dead. -/
theorem walk_dead4 (h4 : Dead (s.word cr3 (p4Index v))) : walk s cr3 v = none := by
  have hzero : has 0#64 ptePresent = false := by decide
  cases hpresent : has (s.word cr3 (p4Index v)) ptePresent with
  | false => simp [walk, hpresent]
  | true => simp [walk, hpresent, (hblank.dead h4 hpresent).2, hzero]

/-- A walk that begins above 4 GiB. -/
theorem walk_blank (hcr3 : 2 ^ 32 ≤ cr3) (v : Nat) : walk s cr3 v = none := by
  refine walk_dead4 hblank ?_
  rw [hblank.word hcr3]
  exact dead_zero

/-- A walk whose second entry is dead. -/
theorem walk_dead3 (h4 : PointsTo (s.word cr3 (p4Index v)) t3) (h3 : Dead (s.word t3 (p3Index v))) :
    walk s cr3 v = none := by
  have hzero : has 0#64 ptePresent = false := by decide
  cases hpresent : has (s.word t3 (p3Index v)) ptePresent with
  | false => simp [walk, h4.frame, hpresent]
  | true =>
    obtain ⟨hhuge, hword⟩ := hblank.dead h3 hpresent
    simp [walk, h4.frame, hhuge, hword, hzero]

/-- A walk whose third entry is dead. -/
theorem walk_dead2 (h4 : PointsTo (s.word cr3 (p4Index v)) t3)
    (h3 : PointsTo (s.word t3 (p3Index v)) t2) (h2 : Dead (s.word t2 (p2Index v))) :
    walk s cr3 v = none := by
  have hzero : has 0#64 ptePresent = false := by decide
  cases hpresent : has (s.word t2 (p2Index v)) ptePresent with
  | false => simp [walk, h4.frame, h3.frame, h3.not_huge, hpresent]
  | true =>
    obtain ⟨hhuge, hword⟩ := hblank.dead h2 hpresent
    simp [walk, h4.frame, h3.frame, h3.not_huge, hhuge, hword, hzero]

omit hblank in
/-- A walk whose last entry is dead leads above 4 GiB if anywhere. -/
theorem translate_dead1 (h4 : PointsTo (s.word cr3 (p4Index v)) t3)
    (h3 : PointsTo (s.word t3 (p3Index v)) t2) (h2 : PointsTo (s.word t2 (p2Index v)) t1)
    (h1 : Dead (s.word t1 (p1Index v))) {p : Nat} (hp : translate s cr3 v = some p) : 2 ^ 32 ≤ p := by
  have hwalk : walk s cr3 v = if !has (s.word t1 (p1Index v)) ptePresent then none
      else some (s.word t1 (p1Index v), pageSize) := by
    simp only [walk, h4.frame, h3.frame, h2.frame, h4.present, h3.present, h2.present, h3.not_huge,
      h2.not_huge, Bool.not_true, Bool.false_eq_true, if_false]
  rw [translate, hwalk] at hp
  rcases h1 with hzero | ⟨-, hframe⟩
  · rw [hzero, if_pos (by decide)] at hp
    cases hp
  · split at hp
    · cases hp
    · have hdvd : pageSize ∣ frame (s.word t1 (p1Index v)) := by
        rw [frame]
        exact Nat.dvd_mul_left _ _
      rw [Option.map_some, Option.some.injEq] at hp
      dsimp only at hp
      rw [Nat.div_mul_cancel hdvd] at hp
      omega

/-- **The processor does not find the lost piece**, neither its memory nor, through the recursive mapping,
    the entries that the code has written for it. -/
theorem Lost.not_found {p4 p3 p2 k : Nat} (h : Lost s p4 p3 p2 k) (hk : k < 2 ^ 18) :
    walk s p4 (k * hugePageSize) = none ∧
      ∀ p, translate s p4 (getP1 (k * hugePageSize)) = some p → 2 ^ 32 ≤ p := by
  have hhuge : hugePageSize = 2097152 := rfl
  obtain ⟨hi4, hi3, hi2⟩ := index_huge hk
  obtain ⟨j4, j3, j2, j1⟩ := index_getP1 (v := k * hugePageSize) (by rw [hhuge]; omega)
  rw [Nat.mul_div_cancel _ (by decide)] at j2 j1
  have hnone : ∀ {v : Nat}, walk s p4 v = none → ∀ p, translate s p4 v = some p → 2 ^ 32 ≤ p := by
    intro v hw p hp
    rw [translate, hw] at hp
    cases hp
  constructor
  · rcases h.p4 with h4 | h4
    swap
    · exact walk_dead4 hblank (by rwa [hi4])
    rw [← hi4] at h4
    rcases h.p3 with ⟨h3, h2⟩ | h3
    · exact walk_dead2 hblank h4 (by rwa [hi3]) (by rwa [hi2])
    · exact walk_dead3 hblank h4 (by rwa [hi3])
  · rcases h.self with h4 | h4
    swap
    · exact hnone (walk_dead4 hblank (by rwa [j4]))
    rw [← j4] at h4
    rcases h.p4 with h3 | h3
    swap
    · exact hnone (walk_dead3 hblank h4 (by rwa [j3]))
    rw [← j3] at h3
    rcases h.p3 with ⟨h2, h1⟩ | h2
    · exact fun p hp => translate_dead1 h4 h3 (by rwa [j2]) (by rwa [j1]) hp
    · exact hnone (walk_dead2 hblank h4 h3 (by rwa [j2]))

end

/-! ## Whole runs -/

/-- The registered pages `ts` are mapped, and there was room for their tables below 4 GiB; or there was
    not, and one of the pieces is lost. -/
structure Tracked (b : Boot) (P4 : Nat) (ts : List Nat) (p : Boot × Nat) : Prop where
  windowed : Windowed b p.1
  vaddr : p.2 = piecesOf ts * hugePageSize
  cases : (BuiltFor .low b P4 ts p ∧ 3 + groups (piecesOf ts) + piecesOf ts ≤ lowRoom b) ∨
    (lowRoom b ≤ p.1.tables.length ∧ ∃ p3 p2 k, k < piecesOf ts ∧ Lost p.1 P4 p3 p2 k)

section

variable {b : Boot} {P4 i : Nat} {ts : List Nat} {p : Boot × Nat}

section

variable (hbreak : 2 ^ 32 ≤ b.pageTableBreak) (hts : (ts ++ [i]) <+: targetsOf b)
include hbreak hts

/-- The mapped pages are above the break. -/
theorem target_high : 2 ^ 32 ≤ i * hugePageSize := by
  have hi := (mem_targetsOf.mp (last_mem_targetsOf hts)).1
  rw [hugePageSize] at hi ⊢
  omega

/-- The turn in which the first table above 4 GiB is handed out.  The piece of this turn is lost: it has
    no P1 when the pages below are used up, and from then on everything fades. -/
theorem BuiltFor.crosses (h : BuiltFor .low b P4 ts p) (hs : Windowed b p.1)
    (hcross : lowRoom b < 3 + groups (piecesOf ts + 1) + (piecesOf ts + 1)) :
    Ends (fun _ => True) (fun q => lowRoom b ≤ q.1.tables.length ∧
      ∃ p3 p2, Lost q.1 P4 p3 p2 (piecesOf ts)) (mapHugePage P4 i p) := by
  obtain ⟨s, vaddr⟩ := p
  obtain ⟨hvaddr, r, rfl, hseen, hbuilt⟩ := h
  replace hvaddr : vaddr = piecesOf ts * hugePageSize := hvaddr
  subst hvaddr
  have hk := piecesOf_lt (Nat.le_trans (by decide) hbreak) hts
  have hhigh := target_high hbreak hts
  obtain ⟨-, hi, hmap⟩ := mem_targetsOf.mp (last_mem_targetsOf hts)
  have hlen : s.tables.length = 3 + groups (piecesOf ts) + piecesOf ts := hbuilt.length
  generalize hkdef : piecesOf ts = k at *
  by_cases hfull : lowRoom b ≤ s.tables.length
  · -- no table fits any more
    refine ((Fades.refl hs).mapHugePage _ hi hhigh r.p4 hmap).mono (fun _ _ => trivial) ?_
    rintro q ⟨-, hq⟩
    exact ⟨Nat.le_trans hfull hq.length_le, _, _, (hbuilt.lost hseen hk).fades hq hfull⟩
  · -- the P2 that this piece needs still fits, and then the pages are used up
    obtain ⟨hi4, hi3, hi2⟩ := index_huge hk
    have hmap' : s.hugePageMap i = true := by rw [hseen.map, hmap]
    have hgroups : groups (k + 1) ≤ groups k + 1 := by
      simp only [groups]
      omega
    rw [mapHugePage, hmap', Bool.not_true, if_neg (by decide)]
    simp only [hi4, hi3, hi2]
    rw [bind_of_ok (pteCreate_old _ (hseen.seen _ hbuilt.p4_mem) hbuilt.p4.ne_zero)]
    simp only [hbuilt.p4.clear]
    cases hp2 : pteCreate s r.p3Low (k / 512) userFlags with
    | error e => trivial
    | ok q =>
      obtain ⟨s1, e2⟩ := q
      obtain ⟨r1, hp4, hs1, h1, -⟩ := (ensureP2 hseen hbuilt hk (low_shows (Nat.le_refl _))
        (by omega)).of_ok hp2
      have hw1 : Windowed b s1 := (((Fades.refl hs).pteCreate r.p3Low (k / 512)).of_ok hp2).toWindowed
      have hlen1 : s1.tables.length = 3 + groups (k + 1) + k := h1.length
      have hfull1 : lowRoom b ≤ s1.tables.length := by omega
      refine ((Fades.refl hw1).mapP1 _ hi hhigh _ _).mono (fun _ _ => trivial) ?_
      rintro q ⟨-, hq⟩
      rw [← hp4]
      exact ⟨Nat.le_trans hfull1 hq.length_le, _, _, (h1.lost hs1 hk).fades hq hfull1⟩

/-- **One huge page** is mapped, or the call faults. -/
theorem Tracked.step (h : Tracked b P4 ts p) :
    Ends (fun _ => True) (Tracked b P4 (ts ++ [i])) (mapHugePage P4 i p) := by
  obtain ⟨-, hi, hmap⟩ := mem_targetsOf.mp (last_mem_targetsOf hts)
  have hturn := (Fades.refl h.windowed).mapHugePage p.2 hi (target_high hbreak hts) P4 hmap
  cases hrun : mapHugePage P4 i p with
  | error e => trivial
  | ok q =>
    obtain ⟨hvaddr, hq⟩ := hturn.of_ok hrun
    refine ⟨hq.toWindowed, ?_, ?_⟩
    · rw [hvaddr, h.vaddr, piecesOf_concat, Nat.succ_mul]
    rw [piecesOf_concat]
    rcases h.cases with ⟨hbuilt, hfits⟩ | ⟨hfull, p3, p2, k, hk, hlost⟩
    · by_cases hcross : 3 + groups (piecesOf ts + 1) + (piecesOf ts + 1) ≤ lowRoom b
      · left
        exact ⟨(hbuilt.step (Nat.le_trans (by decide) hbreak) hts (low_shows (Nat.le_refl _)) hcross).of_ok hrun, hcross⟩
      · right
        obtain ⟨hfull, p3, p2, hlost⟩ := (hbuilt.crosses hbreak hts h.windowed
          (Nat.lt_of_not_le hcross)).of_ok hrun
        exact ⟨hfull, p3, p2, _, Nat.lt_succ_self _, hlost⟩
    · right
      exact ⟨Nat.le_trans hfull hq.length_le, p3, p2, k, Nat.lt_succ_of_lt hk, hlost.fades hq hfull⟩

end

end

section

variable {b s : Boot} (hbreak : 2 ^ 32 ≤ b.pageTableBreak) (P4 : Nat)
include hbreak

/-- The loop of `init_page_table_4k`, whatever has become of the tables. -/
theorem Windowed.mapHugePages (h : Windowed b s) :
    Ends (fun _ => True) (fun p => Windowed b p.1 ∧ p.2 = piecesOf (targetsOf b) * hugePageSize) (forUpM
      (fun i => mapHugePage P4 (b.pageTableBreak / hugePageSize + i))
      (maxNHugePages - b.pageTableBreak / hugePageSize) (s, kernelBreak)) := by
  refine mapHugePages_ends (fun ts p => Windowed b p.1 ∧ p.2 = piecesOf ts * hugePageSize)
    (fun _ _ hp => hp.1.allocs.map) ⟨h, rfl⟩ fun ts i p hts hp => ?_
  obtain ⟨-, hi, hmap⟩ := mem_targetsOf.mp (last_mem_targetsOf hts)
  refine ((Fades.refl hp.1).mapHugePage p.2 hi (target_high hbreak hts) P4 hmap).mono
    (fun _ _ => trivial) ?_
  rintro q ⟨hvaddr, hq⟩
  refine ⟨hq.toWindowed, ?_⟩
  rw [hvaddr, hp.2, piecesOf_concat, Nat.succ_mul]

theorem Tracked.mapHugePages (h : Tracked b P4 [] (s, kernelBreak)) :
    Ends (fun _ => True) (Tracked b P4 (targetsOf b)) (forUpM
      (fun i => mapHugePage P4 (b.pageTableBreak / hugePageSize + i))
      (maxNHugePages - b.pageTableBreak / hugePageSize) (s, kernelBreak)) :=
  mapHugePages_ends (Tracked b P4) (fun _ _ hp => hp.windowed.allocs.map) h
    fun _ _ _ hts hp => hp.step hbreak hts

end

section

variable {mem : Nat → BitVec 64} {addrs : List Nat} {s0 s : Boot} {cr3 : Nat}
  (hreg : registerAll mem addrs = .ok s0) (hinit : initPageTables s0 = .ok (s, cr3))
  (hlow : ¬ TablesLow s0)
include hreg hinit hlow

/-- There is a table above 4 GiB, so the break is above. -/
theorem break_high : 2 ^ 32 ≤ (initPageTableBreak s0).pageTableBreak := by
  have h := registered_all hreg
  obtain ⟨hseen, hnil⟩ := h.seen View.low
  refine Nat.le_of_not_lt fun hlt => hlow ?_
  have hshows := low_shows_of_break (Nat.le_of_lt hlt)
    (tablesNeeded (targetsOf (initPageTableBreak s0)).length)
  obtain ⟨r, -, hmapped⟩ := (initPageTable4k_ends hseen hnil hshows).of_ok hinit
  rw [h.tablesLow_iff hmapped.le_break, ← hmapped.length]
  refine Nat.le_trans hmapped.seen.length_le ?_
  exact Nat.count_monotone _ (Nat.div_le_div_right (Nat.le_of_lt hlt))

/-- **A table above 4 GiB is lost**: if the registered pages below 4 GiB do not hold all tables, there is
    an address below `vaddr_break` that the processor cannot translate, and `get_P1` of it leads to no word
    that the code has written. -/
theorem exists_lost (hmem : ∀ a, 2 ^ 32 ≤ a → mem a = 0#64) :
    ∃ v, v < s.vaddrBreak ∧ walk s cr3 v = none ∧
      ∀ p, translate s cr3 (getP1 v) = some p → 2 ^ 32 ≤ p := by
  have h := registered_all hreg
  have hbreak := break_high hreg hinit hlow
  obtain ⟨hseen, hnil⟩ := h.seen View.low
  have hle : kernelBreak ≤ (initPageTableBreak s0).pageTableBreak := Nat.le_trans (by decide) hbreak
  rw [h.tablesLow_iff hle] at hlow
  have hb : Windowed (initPageTableBreak s0) (initPageTableBreak s0) := by
    refine ⟨hseen.toAllocs, fun a ha => ?_⟩
    show s0.mem a = 0#64
    rw [registerAll_mem hreg]
    exact hmem a ha
  have hlowRoom := lowRoom_eq s0
  replace hinit : initPageTable4k (initPageTableBreak s0) = .ok (s, cr3) := hinit
  generalize initPageTableBreak s0 = b at *
  rw [initPageTable4k] at hinit
  obtain ⟨⟨s1, P4⟩, h1, hinit⟩ := bind_ok hinit
  obtain ⟨⟨s2, vaddr⟩, h2, hinit⟩ := bind_ok hinit
  cases hinit
  obtain ⟨hw1, hP4⟩ := hb.initEmptyKernelPageTable.of_ok h1
  rw [hw1.allocs.pageTableBreak] at h2
  obtain ⟨hw2, hvaddr⟩ := (hw1.mapHugePages hbreak cr3).of_ok h2
  replace hvaddr : vaddr = piecesOf (targetsOf b) * hugePageSize := hvaddr
  by_cases hzero : lowRoom b = 0
  · -- P4 itself is above 4 GiB
    have hnone : ∀ v, walk s2 cr3 v = none := fun v => walk_blank hw2.blank (hP4 hzero) v
    refine ⟨0, ?_, hnone 0, fun p hp => ?_⟩
    · show 0 < vaddr
      rw [hvaddr]
      exact Nat.mul_pos (Nat.lt_of_lt_of_le (by decide) (Nat.le_add_right _ _)) (by decide)
    · replace hp : translate s2 cr3 (getP1 0) = some p := hp
      rw [translate, hnone] at hp
      cases hp
  · -- the kernel's tables are below
    have h12 : 12 ≤ lowRoom b := by omega
    obtain ⟨r, rfl, hs1, hbuilt⟩ := (initEmptyKernelPageTable_ends hseen hnil (low_shows (Nat.le_refl _))
      h12).of_ok h1
    have htracked : Tracked b r.p4 [] (s1, kernelBreak) :=
      ⟨hw1, rfl, Or.inl ⟨⟨rfl, r, rfl, hs1, hbuilt⟩, h12⟩⟩
    rcases ((htracked.mapHugePages hbreak r.p4).of_ok h2).cases with
      ⟨-, hfits⟩ | ⟨-, p3, p2, k, hk, hlost⟩
    · exact absurd hfits hlow
    · have hk18 := Nat.lt_trans hk (piecesOf_targetsOf_lt hle)
      obtain ⟨hwalk, hp1⟩ := hlost.not_found hw2.blank hk18
      refine ⟨k * hugePageSize, ?_, hwalk, hp1⟩
      show k * hugePageSize < vaddr
      rw [hvaddr]
      exact Nat.mul_lt_mul_of_pos_right hk (by decide)

end

end JudgeDuck.Memory
