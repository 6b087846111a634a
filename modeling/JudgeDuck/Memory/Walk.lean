/-
  The address space that the kernel builds.

  `Mapped.walk` reads the tables the way the processor does: below `vaddr_break` every walk ends at
  the leaf of its 4 KiB page.  The rest is about leaves: the kernel's are the identity without
  `PTE_USER`, the others go, 2 MiB by 2 MiB, to the registered pages above `page_table_break` in
  increasing order, so no two pages share a frame.  `Mapped.walk_getP1` is the recursive mapping: the
  address that `get_P1` computes is that of the leaf itself.
-/
import JudgeDuck.Memory.Budget
import Mathlib.Data.Finset.Image

namespace JudgeDuck.Memory

open JudgeDuck.Lib
open JudgeDuck.DuckCache (pageSize hugePageSize roundUp)

/-! ## Leaves -/

/-- The flags that `init_page_table_4k` leaves: no `PTE_USER`, and `PTE_DUCK_WRITTEN`. -/
def bootFlags : BitVec 64 := kernelFlags ||| pteDuckWritten

theorem userPage_eq {paddr : Nat} (j : Nat) (hpaddr : 2 ^ 12 ∣ paddr) :
    userPage paddr j = entry (paddr + j * pageSize) bootFlags := by
  have haligned : 2 ^ 12 ∣ paddr + j * pageSize := Nat.dvd_add hpaddr (Nat.dvd_mul_left _ j)
  have hflags : ∀ i, i < 64 → i ≠ 2 →
      (userFlags.getLsbD i || pteDuckWritten.getLsbD i) = bootFlags.getLsbD i := by decide
  have huser : ∀ i, i < 64 → pteUser.getLsbD i = decide (i = 2) := fun i _ => getLsbD_bit (by decide)
  apply BitVec.eq_of_getLsbD_eq
  intro i hi
  simp only [userPage, BitVec.getLsbD_or, BitVec.getLsbD_and, BitVec.getLsbD_not, huser i hi]
  by_cases h2 : i = 2
  · rw [h2, getLsbD_entry haligned (by decide), getLsbD_entry haligned (by decide)]
    decide
  · rw [entry, entry, BitVec.getLsbD_or, BitVec.getLsbD_or, ← hflags i hi h2, decide_eq_false h2]
    simp only [hi, decide_true, Bool.not_false, Bool.and_true, Bool.or_assoc]

/-- What a leaf says: its frame, and its low flags. -/
theorem frame_leaf {paddr j : Nat} {flags : BitVec 64} (hpaddr : 2 ^ 21 ∣ paddr)
    (hlt : paddr < maxMemorySize) (hj : j < 512) (hflags : flags.toNat < 2 ^ 12) :
    frame (entry (paddr + j * pageSize) flags) = paddr + j * pageSize := by
  have hsize : pageSize = 2 ^ 12 := rfl
  have hmax : maxMemorySize = 511 * 2 ^ 30 := rfl
  apply frame_entry
  · rw [hsize]
    omega
  · rw [hsize]
    omega
  · exact hflags

section

variable {b s : Boot} {r : Roles}

/-- How many pieces of 2 MiB are mapped. -/
def nPieces (b : Boot) : Nat := piecesOf (targetsOf b)

theorem nPieces_lt (h : Mapped .low b s r) : nPieces b < 2 ^ 18 := piecesOf_targetsOf_lt h.le_break

/-- The piece `h` of user space goes to a registered page. -/
theorem target_mem {h : Nat} (h8 : kernelBreak / hugePageSize ≤ h) (hh : h < nPieces b) :
    (targetsOf b).getD (h - kernelBreak / hugePageSize) 0 ∈ targetsOf b := by
  have hlt : h - kernelBreak / hugePageSize < (targetsOf b).length := by
    rw [nPieces, piecesOf] at hh
    omega
  rw [List.getD_eq_getElem _ _ hlt]
  exact List.getElem_mem hlt

theorem leaf_kernel {h j : Nat} (hh : h < kernelBreak / hugePageSize) :
    leaf (targetsOf b) h j = entry (h * hugePageSize + j * pageSize) kernelFlags := if_pos hh

theorem leaf_user {h j : Nat} (hh : kernelBreak / hugePageSize ≤ h) :
    leaf (targetsOf b) h j =
      entry ((targetsOf b).getD (h - kernelBreak / hugePageSize) 0 * hugePageSize + j * pageSize)
        bootFlags := by
  rw [leaf, if_neg (Nat.not_lt.mpr hh)]
  exact userPage_eq j (Nat.dvd_trans (by decide) (Nat.dvd_mul_left _ _))

/-- All leaves are present. -/
theorem leaf_present {h j : Nat} : has (leaf (targetsOf b) h j) ptePresent = true := by
  have haligned : ∀ x, 2 ^ 12 ∣ x * hugePageSize + j * pageSize := fun x =>
    Nat.dvd_add (Nat.dvd_trans (by decide) (Nat.dvd_mul_left hugePageSize x)) (Nat.dvd_mul_left _ j)
  rw [ptePresent, has_bit (by decide)]
  obtain hh | hh := Nat.lt_or_ge h (kernelBreak / hugePageSize)
  · rw [leaf_kernel hh, getLsbD_entry (haligned _) (by decide)]
    decide
  · rw [leaf_user hh, getLsbD_entry (haligned _) (by decide)]
    decide

/-! ## Walks -/

/-- The indices of an address below 512 GiB. -/
theorem index_eq {v : Nat} (hv : v / hugePageSize < 2 ^ 18) :
    p4Index v = 0 ∧ p3Index v = v / hugePageSize / 512 ∧ p2Index v = v / hugePageSize % 512 ∧
      p1Index v = v / pageSize % 512 := by
  rw [hugePageSize] at hv
  simp only [p4Index, p3Index, p2Index, p1Index, shift_and, hugePageSize, pageSize]
  omega

/-- The entries on the way to the piece `k`, as the processor reads them. -/
structure Path (b s : Boot) (r : Roles) (k : Nat) : Prop where
  self : PointsTo (s.word r.p4 511) r.p4
  p4 : PointsTo (s.word r.p4 0) r.p3Low
  p3 : PointsTo (s.word r.p3Low (k / 512)) (r.p2 (k / 512))
  p2 : PointsTo (s.word (r.p2 (k / 512)) (k % 512)) (r.p1 k)
  p1 : ∀ j, j < 512 → s.word (r.p1 k) j = leaf (targetsOf b) k j

/-- A table below 4 GiB has been written where the processor looks for it. -/
theorem Mapped.word_eq (h : Mapped .low b s r) {t i : Nat} (ht : t ∈ s.tables) (hi : i < 512) :
    s.word t i = s.pte t i := View.word_eq (h.seen.seen t ht) hi

/-- **The way down the tables** to a piece. -/
theorem Mapped.path (h : Mapped .low b s r) {k : Nat} (hk : k < nPieces b) : Path b s r k := by
  have hlt := nPieces_lt h
  have hgroup : k / 512 < groups (nPieces b) := by
    rw [groups]
    omega
  have hmod : k % 512 < 512 := Nat.mod_lt _ (by decide)
  have hsplit := Nat.div_add_mod k 512
  constructor
  case self =>
    rw [h.word_eq h.built.p4_mem (by decide)]
    exact h.built.self
  case p4 =>
    rw [h.word_eq h.built.p4_mem (by decide)]
    exact h.built.p4
  case p3 =>
    rw [h.word_eq h.built.p3Low_mem (by omega)]
    exact h.built.p3 _ hgroup
  case p2 =>
    have e2 := h.built.p2 (k / 512) (k % 512) hgroup hmod (by rw [hsplit]; exact hk)
    rw [hsplit] at e2
    rw [h.word_eq (h.built.p2_mem hgroup) hmod]
    exact e2
  case p1 =>
    intro j hj
    rw [h.word_eq (h.built.p1_mem hk) hj]
    exact h.built.p1 k j hk hj

/-- **Every walk below `vaddr_break` ends at a leaf.** -/
theorem Mapped.walk (h : Mapped .low b s r) {v : Nat} (hv : v / hugePageSize < nPieces b) :
    walk s r.p4 v = some (leaf (targetsOf b) (v / hugePageSize) (v / pageSize % 512), pageSize) := by
  have hlt := nPieces_lt h
  obtain ⟨hi4, hi3, hi2, hi1⟩ := index_eq (v := v) (by omega)
  obtain ⟨-, e4, e3, e2, e1⟩ := h.path hv
  have e1 := e1 (v / pageSize % 512) (Nat.mod_lt _ (by decide))
  simp only [Memory.walk, hi4, hi3, hi2, hi1, e4.frame, e3.frame, e2.frame, e1, e4.present, e3.present,
    e2.present, e3.not_huge, e2.not_huge, leaf_present, Bool.not_true, Bool.false_eq_true, if_false]

theorem and_neg_eight {x : Nat} (hx : x < 2 ^ 64) : x &&& (2 ^ 64 - 8) = x / 2 ^ 3 * 2 ^ 3 := by
  apply Nat.eq_of_testBit_eq
  intro i
  rw [show 2 ^ 64 - 8 = (2 ^ 61 - 1) * 2 ^ 3 by decide, Nat.testBit_and, Nat.testBit_mul_two_pow,
    Nat.testBit_mul_two_pow, Nat.testBit_two_pow_sub_one, Nat.testBit_div_two_pow]
  by_cases h3 : 3 ≤ i
  · rw [Nat.sub_add_cancel h3]
    by_cases h64 : i < 64
    · simp [h3, show i - 3 < 61 by omega]
    · have hhigh : x.testBit i = false :=
        Nat.testBit_lt_two_pow (Nat.lt_of_lt_of_le hx (Nat.pow_le_pow_right (by decide) (by omega)))
      simp [hhigh]
  · simp [h3]

/-- The address of a word in the upper part of the address space. -/
theorem and_or_eq {x n : Nat} (hx : x < 2 ^ n) (hn : n ≤ 64) :
    (x &&& (2 ^ 64 - 8)) ||| (2 ^ 64 - 2 ^ n) = 2 ^ 64 - 2 ^ n + x / 8 * 8 := by
  have hpow : 2 ^ 64 = 2 ^ n * 2 ^ (64 - n) := by rw [← Nat.pow_add, Nat.add_sub_cancel' hn]
  have hbase : 2 ^ 64 - 2 ^ n = 2 ^ n * (2 ^ (64 - n) - 1) := by rw [Nat.mul_sub, ← hpow, Nat.mul_one]
  have hlt : x < 2 ^ 64 := Nat.lt_of_lt_of_le hx (Nat.pow_le_pow_right (by decide) hn)
  rw [and_neg_eight hlt, Nat.or_comm, hbase]
  exact (Nat.two_pow_add_eq_or_of_lt (by omega) _).symm

/-- The leaves are the words of the last 512 GiB. -/
theorem getP1_eq {v : Nat} (hv : v < 2 ^ 39) : getP1 v = 2 ^ 64 - 2 ^ 39 + v / 4096 * 8 := by
  have hshift : v >>> 9 = v / 2 ^ 9 := Nat.shiftRight_eq_div_pow v 9
  rw [getP1, hshift, and_or_eq (by omega) (by decide)]
  omega

/-- The indices of that address: those of `v`, one level later. -/
theorem index_getP1 {v : Nat} (hv : v < 2 ^ 39) :
    p4Index (getP1 v) = 511 ∧ p3Index (getP1 v) = 0 ∧
      p2Index (getP1 v) = v / hugePageSize / 512 ∧ p1Index (getP1 v) = v / hugePageSize % 512 := by
  simp only [p4Index, p3Index, p2Index, p1Index, shift_and, getP1_eq hv, hugePageSize]
  omega

/-- **The recursive mapping**: `get_P1` is the address of the leaf. -/
theorem Mapped.walk_getP1 (h : Mapped .low b s r) {v : Nat} (hv : v / hugePageSize < nPieces b) :
    ∃ p, translate s r.p4 (getP1 v) = some p ∧
      s.mem p = leaf (targetsOf b) (v / hugePageSize) (v / pageSize % 512) := by
  have hlt := nPieces_lt h
  have hsize : pageSize = 4096 := rfl
  have hhuge : hugePageSize = 2097152 := rfl
  obtain ⟨e5, e4, e3, e2, e1⟩ := h.path hv
  have haligned : 2 ^ 12 ∣ r.p1 (v / hugePageSize) := h.seen.aligned _ (h.built.p1_mem hv)
  have hv39 : v < 2 ^ 39 := by
    rw [hhuge] at hv
    omega
  have haddr := getP1_eq hv39
  have hi := index_getP1 hv39
  have hwalk : Memory.walk s r.p4 (getP1 v) =
      some (s.word (r.p2 (v / hugePageSize / 512)) (v / hugePageSize % 512), pageSize) := by
    simp only [Memory.walk, hi.1, hi.2.1, hi.2.2.1, hi.2.2.2, e5.frame, e4.frame, e3.frame, e5.present,
      e4.present, e3.present, e2.present, e4.not_huge, e3.not_huge, Bool.not_true, Bool.false_eq_true,
      if_false]
  refine ⟨_, ?_, e1 (v / pageSize % 512) (Nat.mod_lt _ (by decide))⟩
  rw [translate, hwalk]
  simp only [Option.map_some, e2.frame, or_index haligned (Nat.mod_lt _ (by decide)), haddr, hsize,
    Option.some.injEq]
  omega

/-- An address below `vaddr_break` is in one of the pieces. -/
theorem Mapped.piece_lt (h : Mapped .low b s r) {v : Nat} (hlt : v < s.vaddrBreak) :
    v / hugePageSize < nPieces b := by
  rw [h.vaddrBreak] at hlt
  rw [nPieces, piecesOf]
  apply (Nat.div_lt_iff_lt_mul (by decide)).mpr
  rw [Nat.add_mul, Nat.mul_comm (targetsOf b).length]
  exact hlt

/-- The frame of a page of user space. -/
theorem Mapped.user (h : Mapped .low b s r) {v : Nat} (hle : kernelBreak ≤ v) (hlt : v < s.vaddrBreak) :
    ∃ t, t ∈ targetsOf b ∧ (targetsOf b)[v / hugePageSize - kernelBreak / hugePageSize]? = some t ∧
      Memory.walk s r.p4 v = some (entry (t * hugePageSize + v / pageSize % 512 * pageSize) bootFlags,
        pageSize) ∧
      frame (entry (t * hugePageSize + v / pageSize % 512 * pageSize) bootFlags) =
        t * hugePageSize + v / pageSize % 512 * pageSize := by
  have hv := h.piece_lt hlt
  have h8 : kernelBreak / hugePageSize ≤ v / hugePageSize := Nat.div_le_div_right hle
  have hidx : v / hugePageSize - kernelBreak / hugePageSize < (targetsOf b).length := by
    rw [nPieces, piecesOf] at hv
    omega
  have hmem := target_mem h8 hv
  have hmax := (mem_targetsOf.mp hmem).2.1
  refine ⟨_, hmem, ?_, ?_, ?_⟩
  · rw [List.getD_eq_getElem _ _ hidx]
    exact List.getElem?_eq_getElem hidx
  · rw [h.walk hv, leaf_user h8]
  · apply frame_leaf
    · exact Nat.dvd_mul_left _ _
    · rw [show maxMemorySize = maxNHugePages * hugePageSize from rfl]
      exact Nat.mul_lt_mul_of_pos_right hmax (by decide)
    · exact Nat.mod_lt _ (by decide)
    · decide

/-- Two pages of user space have two frames: the 2 MiB page and the page in it are read off the
    frame, and no 2 MiB page is mapped twice. -/
theorem Mapped.frame_inj (h : Mapped .low b s r) {v v' : Nat} {e e' : BitVec 64} (hle : kernelBreak ≤ v)
    (hlt : v < s.vaddrBreak) (hle' : kernelBreak ≤ v') (hlt' : v' < s.vaddrBreak)
    (he : Memory.walk s r.p4 v = some (e, pageSize))
    (he' : Memory.walk s r.p4 v' = some (e', pageSize)) (hframe : frame e = frame e') :
    v / pageSize = v' / pageSize := by
  have hsize : pageSize = 4096 := rfl
  have hhuge : hugePageSize = 2097152 := rfl
  have hkernel : kernelBreak = 16777216 := rfl
  obtain ⟨t, -, hget, hwalk, hf⟩ := h.user hle hlt
  obtain ⟨t', -, hget', hwalk', hf'⟩ := h.user hle' hlt'
  obtain rfl : _ = e := congrArg Prod.fst (Option.some.inj (hwalk.symm.trans he))
  obtain rfl : _ = e' := congrArg Prod.fst (Option.some.inj (hwalk'.symm.trans he'))
  rw [hf, hf'] at hframe
  obtain ⟨rfl, hpage⟩ : t = t' ∧ v / pageSize % 512 = v' / pageSize % 512 := by
    rw [hhuge] at hframe
    rw [hsize] at hframe ⊢
    omega
  have hidx := (List.getElem?_inj (List.getElem?_eq_some_iff.mp hget).1 nodup_targetsOf).mp
    (hget.trans hget'.symm)
  rw [hhuge, hkernel] at hidx
  rw [hsize] at hpage ⊢
  omega

/-- The kernel's addresses are physical addresses, and not the user's. -/
theorem Mapped.kernel (h : Mapped .low b s r) {v : Nat} (hv : v < kernelBreak) :
    translate s r.p4 v = some v ∧
      ∃ e, Memory.walk s r.p4 v = some (e, pageSize) ∧ has e pteUser = false := by
  have hsize : pageSize = 4096 := rfl
  have hhuge : hugePageSize = 2097152 := rfl
  have hkernel : kernelBreak = 16777216 := rfl
  have hpiece : v / hugePageSize < kernelBreak / hugePageSize := by
    rw [hkernel] at hv
    rw [hhuge, hkernel]
    omega
  have hwalk := h.walk (Nat.lt_of_lt_of_le hpiece (Nat.le_add_right _ _))
  rw [leaf_kernel hpiece] at hwalk
  have hframe : frame (entry (v / hugePageSize * hugePageSize + v / pageSize % 512 * pageSize)
      kernelFlags) = v / hugePageSize * hugePageSize + v / pageSize % 512 * pageSize := by
    apply frame_leaf
    · exact Nat.dvd_mul_left _ _
    · rw [hkernel] at hv
      rw [hhuge, show maxMemorySize = 511 * 2 ^ 30 from rfl]
      omega
    · exact Nat.mod_lt _ (by decide)
    · decide
  refine ⟨?_, _, hwalk, ?_⟩
  · rw [translate, hwalk]
    simp only [Option.map_some, hframe, Option.some.injEq]
    rw [hsize, hhuge]
    omega
  · rw [pteUser, has_bit (by decide), getLsbD_entry _ (by decide)]
    · decide
    · exact Nat.dvd_add (Nat.dvd_trans (by decide) (Nat.dvd_mul_left hugePageSize _))
        (Nat.dvd_mul_left _ _)

end

/-! ## The address space -/

/-- What the processor sees once the tables for the registered pages `addrs` are in `cr3`. -/
structure AddressSpace (addrs : List Nat) (s : Boot) (cr3 : Nat) : Prop where
  /-- A page of user space lies in a registered page that is not reserved, which is apart from the
      kernel and from the tables. -/
  user : ∀ v, kernelBreak ≤ v → v < s.vaddrBreak → ∃ e, walk s cr3 v = some (e, pageSize) ∧
    frame e / hugePageSize * hugePageSize ∈ addrs ∧
    s.pageTableBreak ≤ frame e / hugePageSize * hugePageSize ∧ kernelBreak ≤ frame e ∧
    ∀ t ∈ s.tables, t + pageSize ≤ frame e
  /-- Two pages have two frames. -/
  injective : ∀ v v' e e', kernelBreak ≤ v → v < s.vaddrBreak → kernelBreak ≤ v' →
    v' < s.vaddrBreak → walk s cr3 v = some (e, pageSize) → walk s cr3 v' = some (e', pageSize) →
    frame e = frame e' → v / pageSize = v' / pageSize
  /-- All registered pages that are not reserved are there. -/
  size : s.vaddrBreak - kernelBreak =
    hugePageSize * (addrs.toFinset.filter (s.pageTableBreak ≤ ·)).card
  /-- The kernel sees itself, and the user does not. -/
  kernel : ∀ v, v < kernelBreak → translate s cr3 v = some v ∧
    ∃ e, walk s cr3 v = some (e, pageSize) ∧ has e pteUser = false

/-- Everything below `vaddr_break` is there. -/
theorem AddressSpace.walk_ne_none {addrs : List Nat} {s : Boot} {cr3 v : Nat} (h : AddressSpace addrs s cr3)
    (hv : v < s.vaddrBreak) : walk s cr3 v ≠ none := by
  intro hnone
  by_cases hle : kernelBreak ≤ v
  · obtain ⟨e, he, -⟩ := h.user v hle hv
    cases hnone.symm.trans he
  · obtain ⟨-, e, he, -⟩ := h.kernel v (Nat.lt_of_not_le hle)
    cases hnone.symm.trans he

/-- The registered pages that are not reserved are the mapped ones. -/
theorem card_targetsOf {addrs : List Nat} {s0 b : Boot} (h : Registered addrs s0)
    (hmap : b.hugePageMap = s0.hugePageMap) (hle : kernelBreak ≤ b.pageTableBreak)
    (hbreak : hugePageSize ∣ b.pageTableBreak) :
    (addrs.toFinset.filter (b.pageTableBreak ≤ ·)).card = (targetsOf b).length := by
  have himage : addrs.toFinset.filter (b.pageTableBreak ≤ ·) =
      (targetsOf b).toFinset.image (· * hugePageSize) := by
    ext a
    simp only [Finset.mem_filter, List.mem_toFinset, Finset.mem_image]
    constructor
    · rintro ⟨hmem, ha⟩
      obtain ⟨i, hi⟩ := h.aligned a hmem
      rw [Nat.mul_comm] at hi
      have hregistered : s0.hugePageMap i = true := by
        rw [h.map, ← hi]
        exact ⟨Nat.le_trans hle ha, hmem⟩
      refine ⟨i, mem_targetsOf.mpr ⟨?_, h.lt i hregistered, by rw [hmap, hregistered]⟩, hi.symm⟩
      rw [hi] at ha
      exact Nat.div_le_of_le_mul (by rwa [Nat.mul_comm])
    · rintro ⟨i, hi, rfl⟩
      obtain ⟨h1, -, h3⟩ := mem_targetsOf.mp hi
      rw [hmap] at h3
      refine ⟨((h.map i).mp h3).2, ?_⟩
      calc b.pageTableBreak = b.pageTableBreak / hugePageSize * hugePageSize :=
            (Nat.div_mul_cancel hbreak).symm
        _ ≤ i * hugePageSize := Nat.mul_le_mul_right _ h1
  have hinj : Set.InjOn (· * hugePageSize) (targetsOf b).toFinset := fun i _ j _ hij =>
    Nat.eq_of_mul_eq_mul_right (by decide) hij
  rw [himage, Finset.card_image_of_injOn hinj, List.toFinset_card_of_nodup nodup_targetsOf]

section

variable {addrs : List Nat} {s0 s : Boot}

/-- With the tables below 4 GiB, what `init_page_tables` returns is mapped. -/
theorem Registered.mapped {cr3 : Nat} (h : Registered addrs s0) (hlow : TablesLow s0)
    (hinit : initPageTables s0 = .ok (s, cr3)) :
    ∃ r, r.p4 = cr3 ∧ Mapped .low (initPageTableBreak s0) s r := by
  obtain ⟨hseen, hnil⟩ := h.seen View.low
  exact (initPageTable4k_ends hseen hnil (h.low_shows hlow)).of_ok hinit

/-- **The address space does not alias**, once the tables are where the processor looks for them. -/
theorem Mapped.addressSpace {r : Roles} (h : Registered addrs s0)
    (hmapped : Mapped .low (initPageTableBreak s0) s r) : AddressSpace addrs s r.p4 := by
  have hbreak := dvd_pageTableBreak h
  set b := initPageTableBreak s0 with hb
  have hmap : b.hugePageMap = s0.hugePageMap := rfl
  have hsbreak : s.pageTableBreak = b.pageTableBreak := hmapped.seen.pageTableBreak
  refine ⟨fun v hle hlt => ?_, fun v v' e e' hle hlt hle' hlt' he he' hframe => ?_, ?_,
    fun v hv => ?_⟩
  · obtain ⟨t, hmem, -, hwalk, hframe⟩ := hmapped.user hle hlt
    obtain ⟨h1, -, h3⟩ := mem_targetsOf.mp hmem
    have hpage : v / pageSize % 512 < 512 := Nat.mod_lt _ (by decide)
    have hdiv : (t * hugePageSize + v / pageSize % 512 * pageSize) / hugePageSize = t := by
      rw [hugePageSize, pageSize]
      omega
    have habove : b.pageTableBreak ≤ t * hugePageSize := by
      rw [← Nat.div_mul_cancel hbreak]
      exact Nat.mul_le_mul_right _ h1
    refine ⟨_, hwalk, ?_, ?_, ?_, fun t' ht' => ?_⟩
    · rw [hframe, hdiv]
      exact ((h.map t).mp h3).2
    · rw [hframe, hdiv, hsbreak]
      exact habove
    · rw [hframe]
      exact Nat.le_trans (Nat.le_trans hmapped.le_break habove) (Nat.le_add_right _ _)
    · rw [hframe]
      exact Nat.le_trans (Nat.le_trans (hmapped.seen.lt_break t' ht') habove) (Nat.le_add_right _ _)
  · exact hmapped.frame_inj hle hlt hle' hlt' he he' hframe
  · rw [hmapped.vaddrBreak, Nat.add_sub_cancel_left, hsbreak,
      card_targetsOf h hmap hmapped.le_break hbreak]
  · exact hmapped.kernel hv

end

end JudgeDuck.Memory
