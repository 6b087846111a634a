/-
  The address space, and memory with a hole.

  `address_space_iff`: the address space is as it should be when the registered pages below 4 GiB hold all
  tables, and only then.  A machine with a hole shows both sides.  `splitPages low` has `low` pages from
  `kernel_break` on and 3141 pages above 4 GiB, so seven pages are reserved for tables; with eight pages
  below they are all there, with one page below six of them are above 4 GiB.
-/
import JudgeDuck.Memory.Lost

namespace JudgeDuck.Memory

open JudgeDuck.Lib
open JudgeDuck.DuckCache (pageSize hugePageSize roundUp)

/-! ## Memory with a hole -/

/-- The first `low` pages from `kernel_break` on, and the pages 2060 to 5200. -/
def splitPages (low : Nat) : List Nat :=
  pages low ++ (List.range 3141).map fun i => (2060 + i) * hugePageSize

/-- These are the registered pages. -/
def IsSplit (s : Boot) (low : Nat) : Prop :=
  ∀ i, s.hugePageMap i = true ↔ 8 ≤ i ∧ i < 8 + low ∨ 2060 ≤ i ∧ i < 5201

/-- The two blocks of pages, by their numbers. -/
theorem mem_split {low i : Nat} :
    i * hugePageSize ∈ splitPages low ↔ 8 ≤ i ∧ i < 8 + low ∨ 2060 ≤ i ∧ i < 5201 := by
  have hhuge : hugePageSize = 2097152 := rfl
  simp only [splitPages, pages, List.mem_append, List.mem_map, List.mem_range, hhuge]
  constructor
  · rintro (⟨j, hj, heq⟩ | ⟨j, hj, heq⟩)
    · omega
    · omega
  · rintro (⟨h1, h2⟩ | ⟨h1, h2⟩)
    · exact Or.inl ⟨i - 8, by omega, by omega⟩
    · exact Or.inr ⟨i - 2060, by omega, by omega⟩

theorem registerAll_split (mem : Nat → BitVec 64) (low : Nat) (hlow : low ≤ 2052) :
    ∃ s, registerAll mem (splitPages low) = .ok s ∧ IsSplit s low := by
  have hall : ∀ addr ∈ splitPages low, ∃ i, addr = i * hugePageSize := by
    intro addr haddr
    simp only [splitPages, pages, List.mem_append, List.mem_map] at haddr
    rcases haddr with ⟨i, -, rfl⟩ | ⟨i, -, rfl⟩
    · exact ⟨8 + i, rfl⟩
    · exact ⟨2060 + i, rfl⟩
  have hmax : maxMemorySize = 261632 * hugePageSize := rfl
  obtain ⟨s, hs⟩ : ∃ s, registerAll mem (splitPages low) = .ok s := registerAll_ok mem
    (fun addr haddr => by
      obtain ⟨i, rfl⟩ := hall addr haddr
      exact Nat.dvd_mul_left _ _)
    (fun addr haddr => by
      obtain ⟨i, rfl⟩ := hall addr haddr
      have hi := mem_split.mp haddr
      rw [hmax]
      exact Nat.mul_lt_mul_of_pos_right (by omega) (by decide))
  refine ⟨s, hs, fun i => ?_⟩
  have hkernel : kernelBreak = 8 * hugePageSize := rfl
  rw [(registered_all hs).map, mem_split, hkernel]
  refine ⟨fun h => h.2, fun h => ⟨Nat.mul_le_mul_right _ ?_, h⟩⟩
  omega

section

variable {addrs : List Nat} {s : Boot} {low : Nat}

theorem IsSplit.nRegistered (h : IsSplit s low) (hlow : low ≤ 2052) (m : Nat) :
    s.nRegistered m = min m (8 + low) - 8 + (min m 5201 - 2060) := by
  induction m with
  | zero =>
    rw [Boot.nRegistered, Nat.count_zero]
    omega
  | succ m ih =>
    have hsucc : s.nRegistered (m + 1) = s.nRegistered m + if s.hugePageMap m = true then 1 else 0 :=
      Nat.count_succ _ _
    have hm := h m
    rw [hsucc, ih]
    split
    · next hmap =>
      have := hm.mp hmap
      omega
    · next hmap =>
      have := mt hm.mpr hmap
      omega

theorem IsSplit.nHugePages (h : IsSplit s low) (hs : Registered addrs s) (hlow : low ≤ 2052) :
    s.nHugePages = low + 3141 := by
  have hmax : maxNHugePages = 261632 := rfl
  rw [← hs.nRegistered_max, h.nRegistered hlow]
  omega

/-- Up to eight pages below the hole seven pages are reserved, beginning with those below. -/
theorem IsSplit.pageTableBreak (h : IsSplit s low) (hs : Registered addrs s) (hlow : low ≤ 8) :
    ∃ m, (initPageTableBreak s).pageTableBreak = m * hugePageSize ∧
      min m (8 + low) - 8 + (min m 5201 - 2060) = 7 ∧ reserved s.nHugePages = 7 := by
  have hn := h.nHugePages hs (by omega)
  have hreserved : reserved s.nHugePages = 7 := by
    rw [hn, reserved]
    omega
  have hcases := hs.break_cases
  rw [hreserved] at hcases
  rcases hcases with ⟨m, hbreak, hm⟩ | ⟨-, hlt⟩
  · rw [h.nRegistered (by omega)] at hm
    exact ⟨m, hbreak, hm, hreserved⟩
  · rw [h.nRegistered (by omega), hn] at hlt
    omega

/-- With a view of the tables the run is as it would be without the window: seven pages hold the tables
    for the 3134 pages, or a few more, that remain. -/
theorem IsSplit.returns (h : IsSplit s low) (hs : Registered addrs s) (hpos : 0 < low) (hlow : low ≤ 8)
    {v : View} (hv : ∀ n, v.Shows (initPageTableBreak s) n) :
    ∃ p, initPageTables s = .ok p ∧ p.1.vaddrBreak = kernelBreak + hugePageSize * (low + 3134) := by
  obtain ⟨m, hbreak, hm, hreserved⟩ := h.pageTableBreak hs hlow
  have hle : kernelBreak ≤ (initPageTableBreak s).pageTableBreak := by
    rw [hbreak, show kernelBreak = 8 * hugePageSize from rfl]
    exact Nat.mul_le_mul_right _ (by omega)
  have hlen := hs.length_targetsOf hle
  have hroom := hs.room_eq hle
  rw [hreserved, h.nHugePages hs (by omega)] at hlen
  rw [hreserved] at hroom
  obtain ⟨hseen, hnil⟩ := hs.seen v
  have hends := initPageTable4k_ends hseen hnil (hv _)
  cases hinit : initPageTables s with
  | error e =>
    have hshort := (hends.of_error hinit).1
    have h8 : kernelBreak / hugePageSize = 8 := rfl
    rw [hroom, hlen] at hshort
    simp only [tablesNeeded, groups, h8] at hshort
    omega
  | ok p =>
    obtain ⟨r, -, hmapped⟩ := hends.of_ok hinit
    exact ⟨p, rfl, by rw [hmapped.vaddrBreak, hlen, Nat.add_sub_assoc (by decide)]⟩

/-- With eight pages below the hole the tables are there. -/
theorem IsSplit.tablesLow (h : IsSplit s 8) (hs : Registered addrs s) : TablesLow s := by
  have h8 : kernelBreak / hugePageSize = 8 := rfl
  have hlimit : 2 ^ 32 / hugePageSize = 2048 := rfl
  rw [TablesLow, h.nHugePages hs (by decide), hlimit, h.nRegistered (by decide)]
  simp only [tablesNeeded, groups, reserved, h8]
  omega

theorem IsSplit.low_shows (h : IsSplit s 8) (hs : Registered addrs s) (n : Nat) :
    View.low.Shows (initPageTableBreak s) n := by
  obtain ⟨m, hbreak, hm, -⟩ := h.pageTableBreak hs (by decide)
  refine low_shows_of_break ?_ n
  rw [hbreak, hugePageSize]
  omega

/-- With one page they are not. -/
theorem IsSplit.not_tablesLow (h : IsSplit s 1) (hs : Registered addrs s) : ¬ TablesLow s := by
  have h8 : kernelBreak / hugePageSize = 8 := rfl
  have hlimit : 2 ^ 32 / hugePageSize = 2048 := rfl
  rw [TablesLow, h.nHugePages hs (by decide), hlimit, h.nRegistered (by decide)]
  simp only [tablesNeeded, groups, reserved, h8]
  omega

end

/-- The pages from which the tables are taken when one page is below the hole. -/
def SplitTable (t : Nat) : Prop :=
  2 ^ 12 ∣ t ∧ (8 * 2 ^ 21 ≤ t ∧ t < 9 * 2 ^ 21 ∨ 2060 * 2 ^ 21 ≤ t ∧ t < 2066 * 2 ^ 21)

/-- The window shows them from 16 MiB and from 24 MiB on. -/
theorem SplitTable.window {t : Nat} (ht : SplitTable t) :
    t < maxMemorySize ∧ kernelBreak ≤ t % 2 ^ 32 ∧
      ∀ t', SplitTable t' → t % 2 ^ 32 = t' % 2 ^ 32 → t = t' := by
  have hmax : maxMemorySize = 511 * 2 ^ 30 := rfl
  have hkernel : kernelBreak = 16 * 2 ^ 20 := rfl
  simp only [SplitTable] at ht ⊢
  refine ⟨by omega, by omega, fun t' ht' heq => by omega⟩

def View.split : View where
  pages := SplitTable
  aligned := fun _ ht => ht.1
  lt := fun _ ht => ht.window.1
  kernel_le := fun _ ht => ht.window.2.1
  inj := fun _ t' ht ht' => ht.window.2.2 t' ht'

theorem IsSplit.shows {addrs : List Nat} {s : Boot} (h : IsSplit s 1) (hs : Registered addrs s) (n : Nat) :
    View.split.Shows (initPageTableBreak s) n := by
  obtain ⟨m, hbreak, hm, -⟩ := h.pageTableBreak hs (by decide)
  intro t ht _ _ hroom husable _
  have hpage := (h (t / pageSize / 512)).mp husable
  have hhuge : hugePageSize = 2097152 := rfl
  have hsize : pageSize = 4096 := rfl
  rw [hbreak, hhuge, hsize] at hroom
  rw [hsize] at hpage
  exact ⟨ht, by omega⟩

/-! ## The address space -/

/-- **The address space does not alias**, for all registered pages with which `init_page_tables` returns,
    iff the registered pages below 4 GiB hold all tables.  With fewer of them it could only be right by what
    lies in the memory above 4 GiB beforehand. -/
theorem address_space_iff (mem : Nat → BitVec 64) (addrs : List Nat) (s0 s : Boot) (cr3 : Nat)
    (hreg : registerAll mem addrs = .ok s0) (hinit : initPageTables s0 = .ok (s, cr3)) :
    (TablesLow s0 → AddressSpace addrs s cr3) ∧
      ((∀ a, 2 ^ 32 ≤ a → mem a = 0#64) → AddressSpace addrs s cr3 → TablesLow s0) := by
  constructor
  · intro hlow
    obtain ⟨r, rfl, hmapped⟩ := (registered_all hreg).mapped hlow hinit
    exact hmapped.addressSpace (registered_all hreg)
  · intro hmem hspace
    by_contra hlow
    obtain ⟨v, hv, hnone, -⟩ := exists_lost hreg hinit hlow hmem
    exact absurd hnone (hspace.walk_ne_none hv)

/-- Eight pages below 4 GiB, and then a hole: the pages behind the hole are mapped right behind the kernel. -/
theorem address_space_split : ∃ s0 s cr3, registerAll (fun _ => 0#64) (splitPages 8) = .ok s0 ∧
    initPageTables s0 = .ok (s, cr3) ∧ s.vaddrBreak = kernelBreak + hugePageSize * 3142 ∧
    AddressSpace (splitPages 8) s cr3 := by
  obtain ⟨s0, hreg, hset⟩ := registerAll_split (fun _ => 0#64) 8 (by decide)
  have hs := registered_all hreg
  obtain ⟨⟨s, cr3⟩, hinit, hbreak⟩ := hset.returns hs (by decide) (by decide) (hset.low_shows hs)
  exact ⟨s0, s, cr3, hreg, hinit, hbreak,
    (address_space_iff _ _ s0 s cr3 hreg hinit).1 (hset.tablesLow hs)⟩

/-- One page below 4 GiB, and then the hole: no assertion fails, and a page of the address space is not
    there. -/
theorem address_space_torn : ∃ s0 s cr3 v, registerAll (fun _ => 0#64) (splitPages 1) = .ok s0 ∧
    initPageTables s0 = .ok (s, cr3) ∧ v < s.vaddrBreak ∧ walk s cr3 v = none ∧
    ¬ AddressSpace (splitPages 1) s cr3 := by
  obtain ⟨s0, hreg, hset⟩ := registerAll_split (fun _ => 0#64) 1 (by decide)
  have hs := registered_all hreg
  obtain ⟨⟨s, cr3⟩, hinit, -⟩ := hset.returns hs (by decide) (by decide) (hset.shows hs)
  obtain ⟨v, hv, hnone, -⟩ := exists_lost hreg hinit (hset.not_tablesLow hs) fun _ _ => rfl
  exact ⟨s0, s, cr3, v, hreg, hinit, hv, hnone, fun hspace => hspace.walk_ne_none hv hnone⟩

end JudgeDuck.Memory
