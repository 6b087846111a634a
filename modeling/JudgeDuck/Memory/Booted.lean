/-
  The machine after `Memory::init`.

  `Machine.boot` reads the flags of the pages out of the tables that `init_page_table_4k` has built,
  the way `get_P1` does.  `Booted` is what the rest relies on: no page belongs to the user, and every
  page that user space can get is marked with `PTE_DUCK_WRITTEN`, because nobody has cleared it.
  `allocate_virtual_memory` takes memory away from the end and keeps that.
-/
import JudgeDuck.Memory.Flags
import JudgeDuck.Memory.Walk

namespace JudgeDuck.Memory

open JudgeDuck.Lib
open JudgeDuck.DuckCache (pageSize hugePageSize roundUp)

/-- The machine with the tables `s`; its bytes can be anything. -/
def Machine.boot (s : Boot) (cr3 : Nat) (mem : Nat → UInt8) : Machine where
  vaddrBreak := s.vaddrBreak
  mapped := s.vaddrBreak
  p1 := fun p =>
    if p * pageSize < s.vaddrBreak then
      ((translate s cr3 (getP1 (p * pageSize))).map s.mem).getD 0#64
    else 0#64
  mem := mem
  touched := fun _ => false

/-- What holds before the first program. -/
structure Booted (m : Machine) : Prop where
  dvd_break : hugePageSize ∣ m.vaddrBreak
  dvd_mapped : hugePageSize ∣ m.mapped
  kernel_le : kernelBreak ≤ m.vaddrBreak
  le_mapped : m.vaddrBreak ≤ m.mapped
  mapped_lt : m.mapped < 2 ^ 48
  user : ∀ p, has (m.p1 p) pteUser = false
  duck : ∀ p, kernelBreak / pageSize ≤ p → p < m.mapped / pageSize →
    has (m.p1 p) pteDuckWritten = true

/-- The flags of a leaf: the user has none of them, and those of user space are marked. -/
theorem leaf_flags (targets : List Nat) (h j : Nat) :
    has (leaf targets h j) pteUser = false ∧
      (kernelBreak / hugePageSize ≤ h → has (leaf targets h j) pteDuckWritten = true) := by
  have haligned : ∀ x, 2 ^ 12 ∣ x * hugePageSize := fun x =>
    Nat.dvd_trans (by decide) (Nat.dvd_mul_left hugePageSize x)
  have hpage : ∀ x, 2 ^ 12 ∣ x * hugePageSize + j * pageSize := fun x =>
    Nat.dvd_add (haligned x) (Nat.dvd_mul_left _ j)
  rw [pteUser, pteDuckWritten, has_bit (by decide), has_bit (by decide), leaf]
  split
  · next hh =>
    rw [kernelPage, getLsbD_entry (hpage _) (by decide)]
    exact ⟨by decide, fun hle => absurd hle (Nat.not_le.mpr hh)⟩
  · rw [userPage_eq j (haligned _), getLsbD_entry (hpage _) (by decide),
      getLsbD_entry (hpage _) (by decide)]
    exact ⟨by decide, fun _ => by decide⟩

/-- **`Memory::init`** leaves such a machine, as long as its tables are below 4 GiB. -/
theorem booted_init {mem : Nat → BitVec 64} {addrs : List Nat} {s0 s : Boot} {cr3 : Nat}
    (hreg : registerAll mem addrs = .ok s0) (hlow : TablesLow s0)
    (hinit : initPageTables s0 = .ok (s, cr3)) (bytes : Nat → UInt8) :
    Booted (Machine.boot s cr3 bytes) := by
  obtain ⟨r, rfl, hmapped⟩ := (registered_all hreg).mapped hlow hinit
  have hbreak := hmapped.vaddrBreak
  -- a page below `vaddr_break` has its leaf, and no other page has flags
  have hleaf : ∀ p, p * pageSize < s.vaddrBreak → (Machine.boot s r.p4 bytes).p1 p =
      leaf (targetsOf (initPageTableBreak s0)) (p * pageSize / hugePageSize)
        (p * pageSize / pageSize % 512) := by
    intro p hp
    have hpiece := hmapped.piece_lt hp
    obtain ⟨q, htranslate, hq⟩ := hmapped.walk_getP1 hpiece
    rw [← hq]
    refine (if_pos hp).trans ?_
    rw [htranslate]
    rfl
  have hdvd : hugePageSize ∣ s.vaddrBreak := by
    rw [hbreak]
    exact Nat.dvd_add (by decide) (Nat.dvd_mul_right _ _)
  have hkernel : kernelBreak ≤ s.vaddrBreak := by
    rw [hbreak]
    exact Nat.le_add_right _ _
  have hlt : s.vaddrBreak < 2 ^ 48 := by
    have hlen : (targetsOf (initPageTableBreak s0)).length ≤ maxNHugePages := by
      rw [targetsOf]
      refine Nat.le_trans (List.length_filter_le _ _) ?_
      rw [List.length_range']
      exact Nat.sub_le _ _
    have hmul := Nat.mul_le_mul_left hugePageSize hlen
    rw [hbreak]
    exact Nat.lt_of_le_of_lt (Nat.add_le_add_left hmul _) (by decide)
  refine ⟨hdvd, hdvd, hkernel, Nat.le_refl _, hlt, ?_, ?_⟩
  · intro p
    by_cases hp : p * pageSize < s.vaddrBreak
    · rw [hleaf p hp]
      exact (leaf_flags _ _ _).1
    · have hzero : (Machine.boot s r.p4 bytes).p1 p = 0#64 := if_neg hp
      rw [hzero]
      decide
  · intro p hle hlt
    have hp : p * pageSize < s.vaddrBreak := by
      have := Nat.div_mul_le_self s.vaddrBreak pageSize
      exact Nat.lt_of_lt_of_le (Nat.mul_lt_mul_of_pos_right hlt (by decide)) this
    rw [hleaf p hp]
    refine (leaf_flags _ _ _).2 ?_
    have hmul := Nat.mul_le_mul_right pageSize hle
    exact Nat.div_le_div_right (c := hugePageSize) hmul

/-- Moving `vaddr_break` down keeps it. -/
theorem Booted.lower {m : Machine} (h : Booted m) {v : Nat} (hdvd : hugePageSize ∣ v)
    (hkernel : kernelBreak ≤ v) (hle : v ≤ m.mapped) : Booted { m with vaddrBreak := v } :=
  ⟨hdvd, h.dvd_mapped, hkernel, hle, h.mapped_lt, h.user, h.duck⟩

theorem Booted.allocate {m : Machine} (h : Booted m) (size : Nat) :
    Booted (allocateVirtualMemory size m).1 := by
  have hround : hugePageSize ∣ roundUp size hugePageSize := by
    rw [roundUp]
    exact Nat.dvd_mul_left _ _
  rw [allocateVirtualMemory]
  generalize roundUp size hugePageSize = n at *
  by_cases hfits : m.vaddrBreak - kernelBreak < n
  · rw [if_pos hfits]
    exact h
  · rw [if_neg hfits]
    refine h.lower (Nat.dvd_sub h.dvd_break hround) ?_ ?_
    · exact Nat.le_sub_of_add_le (Nat.add_le_of_le_sub' h.kernel_le (Nat.le_of_not_lt hfits))
    · exact Nat.le_trans (Nat.sub_le _ _) h.le_mapped

/-! ## Machines after `Memory::init` -/

/-- A machine after `Memory::init`, for any registered pages of which those below 4 GiB hold all tables
    and any bytes, from which some memory may have been allocated.  Without that condition there may be
    pages that the processor does not find, and `get_P1` may be the address of nothing. -/
inductive AfterInit : Machine → Prop
  | init {mem : Nat → BitVec 64} {addrs : List Nat} {s0 s : Boot} {cr3 : Nat}
      (registered : registerAll mem addrs = .ok s0) (low : TablesLow s0)
      (built : initPageTables s0 = .ok (s, cr3)) (bytes : Nat → UInt8) :
      AfterInit (Machine.boot s cr3 bytes)
  | allocate {m : Machine} (h : AfterInit m) (size : Nat) : AfterInit (allocateVirtualMemory size m).1

/-- **After `init` the machine is booted**, after any number of allocations. -/
theorem AfterInit.booted {m : Machine} (h : AfterInit m) : Booted m := by
  induction h with
  | init registered low built bytes => exact booted_init registered low built bytes
  | allocate _ size ih => exact ih.allocate size

/-- With `n` registered pages above the kernel there is such a machine. -/
theorem exists_afterInit {n : Nat} (h9 : 9 ≤ n) (hmax : 8 + n ≤ maxNHugePages) (hn : n ∉ tooSmall)
    (bytes : Nat → UInt8) :
    ∃ m, AfterInit m ∧ m.vaddrBreak = kernelBreak + hugePageSize * (n - reserved n) ∧
      m.mapped = m.vaddrBreak ∧ m.mem = bytes ∧ ∀ p, m.touched p = false := by
  obtain ⟨s0, hreg, hset⟩ := registerAll_pages (fun _ => 0#64) hmax
  have h := registered_all hreg
  obtain ⟨⟨s, cr3⟩, hinit, -⟩ | ⟨-, hfits⟩ := hset.initPageTables h h9 hmax
  · have hlow := hset.tablesLow h h9 hmax hn
    obtain ⟨r, -, hmapped⟩ := h.mapped hlow hinit
    have hbreak := hmapped.vaddrBreak
    rw [hset.length_targetsOf h h9 hmax] at hbreak
    exact ⟨_, .init hreg hlow hinit bytes, hbreak, rfl, rfl, fun _ => rfl⟩
  · exact absurd ((fits_iff h9).mpr hn) hfits

end JudgeDuck.Memory
