/-
  Which pages the boot loader's memory map makes available, and what `load` leaves.

  The start of an entry is rounded up, its end is rounded down, and the start is raised to the end of
  the kernel, rounded up again.  All roundings are to 2 MiB, so none of this is visible on the pages:
  a page is registered iff it lies in an entry and behind the kernel.

  1. `roundUp_le_iff` and `mem_entryPages`: the pages of one entry.
  2. `registerRange_ok`, `loadEntry_ok`, `loadMmap_ok`: each loop makes the calls for a list of pages.
  3. `loadMmap_registers`: the map and the count after `load_mmap`.
  4. `load_leaves`: any list of tags leaves what calls of `register_available_huge_page` leave, and a
     command line that ends inside its buffer.
-/
import JudgeDuck.Multiboot.Model
import JudgeDuck.Elf.Model
import JudgeDuck.Memory.Registered
import Mathlib.Data.List.TakeWhile
import Mathlib.Data.Nat.Digits.Lemmas
import Mathlib.Data.Set.Card

namespace JudgeDuck.Multiboot

open JudgeDuck.Lib
open JudgeDuck.DuckCache (hugePageSize roundUp)
open JudgeDuck.Elf (leBytes)
open JudgeDuck.Memory

/-! ## The pages of an entry -/

theorem hugePageSize_eq : hugePageSize = 2 ^ 21 := rfl

/-- The least multiple that is not below `x`. -/
theorem roundUp_le_iff {x : Nat} (hx : x < 2 ^ 63) (i : Nat) :
    roundUp x hugePageSize ≤ i * hugePageSize ↔ x ≤ i * hugePageSize := by
  rw [roundUp, u64_of_lt (by rw [hugePageSize_eq]; omega), hugePageSize_eq]
  omega

theorem dvd_roundUp (x : Nat) : hugePageSize ∣ roundUp x hugePageSize := Nat.dvd_mul_left _ _

/-- The first page of an entry that is registered: its address. -/
def firstPage (img : Image) (e : MmapEntry) : Nat :=
  if roundUp e.addr hugePageSize < img.ebss then roundUp img.ebss hugePageSize
  else roundUp e.addr hugePageSize

/-- Where the pages of an entry end. -/
def pagesEnd (e : MmapEntry) : Nat := roundDown (u64 (e.addr + e.len)) hugePageSize

/-- The pages from `start` to `stop`. -/
def pagesBetween (start stop : Nat) : List Nat :=
  (List.range' (start / hugePageSize) (stop / hugePageSize - start / hugePageSize)).map
    (· * hugePageSize)

/-- The addresses that `load_mmap` registers for an entry. -/
def entryPages (img : Image) (e : MmapEntry) : List Nat :=
  if e.type = memoryAvailable then pagesBetween (firstPage img e) (pagesEnd e) else []

theorem dvd_firstPage (img : Image) (e : MmapEntry) : hugePageSize ∣ firstPage img e := by
  rw [firstPage]
  split
  · exact dvd_roundUp _
  · exact dvd_roundUp _

theorem dvd_pagesEnd (e : MmapEntry) : hugePageSize ∣ pagesEnd e := Nat.dvd_mul_left _ _

theorem mem_pagesBetween {start stop : Nat} (hstart : hugePageSize ∣ start) (hstop : hugePageSize ∣ stop)
    (i : Nat) :
    i * hugePageSize ∈ pagesBetween start stop ↔
      start ≤ i * hugePageSize ∧ (i + 1) * hugePageSize ≤ stop := by
  obtain ⟨a, rfl⟩ := hstart
  obtain ⟨b, rfl⟩ := hstop
  rw [pagesBetween, List.mem_map]
  simp only [List.mem_range'_1, hugePageSize_eq]
  constructor
  · rintro ⟨j, hj, heq⟩
    omega
  · intro h
    exact ⟨i, by omega, rfl⟩

/-- The start is raised after it was rounded: it is the first page in the entry and behind the
    kernel. -/
theorem firstPage_le_iff (img : Image) {e : MmapEntry} (he : e.addr < 2 ^ 63) (i : Nat) :
    firstPage img e ≤ i * hugePageSize ↔ e.addr ≤ i * hugePageSize ∧ img.ebss ≤ i * hugePageSize := by
  have hebss := img.ebss_lt
  have haddr := roundUp_le_iff he i
  have hkernel := roundUp_le_iff (show img.ebss < 2 ^ 63 by omega) i
  rw [firstPage]
  split
  · constructor
    · intro h
      have hle := hkernel.mp h
      exact ⟨haddr.mp (by omega), hle⟩
    · exact fun h => hkernel.mpr h.2
  · constructor
    · exact fun h => ⟨haddr.mp h, by omega⟩
    · exact fun h => haddr.mpr h.1

/-- **The pages of an entry** are those that lie entirely in it and behind the kernel. -/
theorem mem_entryPages (img : Image) {e : MmapEntry}
    (he : e.type = memoryAvailable → e.addr + e.len < maxMemorySize) (i : Nat) :
    i * hugePageSize ∈ entryPages img e ↔ img.ebss ≤ i * hugePageSize ∧ e.type = memoryAvailable ∧
      e.addr ≤ i * hugePageSize ∧ (i + 1) * hugePageSize ≤ e.addr + e.len := by
  rw [entryPages]
  split
  · rename_i htype
    have hlt := he htype
    have hmax : maxMemorySize < 2 ^ 40 := by decide
    have hstop : (i + 1) * hugePageSize ≤ pagesEnd e ↔ (i + 1) * hugePageSize ≤ e.addr + e.len := by
      rw [pagesEnd, roundDown, u64_of_lt (by omega), hugePageSize_eq]
      omega
    rw [mem_pagesBetween (dvd_firstPage img e) (dvd_pagesEnd e), firstPage_le_iff img (by omega), hstop]
    constructor
    · rintro ⟨⟨h1, h2⟩, h3⟩
      exact ⟨h2, htype, h1, h3⟩
    · rintro ⟨h1, -, h2, h3⟩
      exact ⟨⟨h2, h1⟩, h3⟩
  · rename_i htype
    constructor
    · exact fun h => absurd h List.not_mem_nil
    · exact fun h => absurd h.2.1 htype

/-! ## The loops -/

section

variable {words : Nat → BitVec 64} {addrs : List Nat} {s : Boot}

/-- A turn makes one call. -/
theorem pageTurn_ok {va : Nat} (hs : registerAll words addrs = .ok s) (hdvd : hugePageSize ∣ va)
    (hlt : va < maxMemorySize) :
    ∃ s', pageTurn (va, s) = .ok (va + hugePageSize, s') ∧ registerAll words (addrs ++ [va]) = .ok s' := by
  have hmax : maxMemorySize + hugePageSize < 2 ^ 64 := by decide
  obtain ⟨s', hs'⟩ := register_ok s hdvd hlt
  refine ⟨s', ?_, registerAll_concat hs hs'⟩
  rw [pageTurn, bind_of_ok hs', u64_of_lt (by omega)]

/-- **The loop over the pages** makes a call for each of them. -/
theorem registerRange_ok {start stop : Nat} (hs : registerAll words addrs = .ok s)
    (hstart : hugePageSize ∣ start) (hstop : hugePageSize ∣ stop) (hle : stop ≤ maxMemorySize) :
    ∃ s', registerRange start stop s = .ok s' ∧
      registerAll words (addrs ++ pagesBetween start stop) = .ok s' := by
  obtain ⟨a, rfl⟩ := hstart
  obtain ⟨b, rfl⟩ := hstop
  have hmax : maxMemorySize < 2 ^ 40 := by decide
  have hpos : 0 < hugePageSize := by decide
  have hb : b ≤ hugePageSize * b := Nat.le_mul_of_pos_left b hpos
  obtain ⟨⟨va, s'⟩, hrun, -, hall⟩ :
      ∃ p, whileM (fun p => decide (p.1 < hugePageSize * b)) pageTurn (2 ^ 64) (hugePageSize * a, s) = .ok p ∧
        p.1 = hugePageSize * (a + (b - a)) ∧
        registerAll words (addrs ++ (List.range' a (b - a)).map (· * hugePageSize)) = .ok p.2 := by
    refine whileM_inv (fun k (p : Nat × Boot) => p.1 = hugePageSize * (a + k) ∧
      registerAll words (addrs ++ (List.range' a k).map (· * hugePageSize)) = .ok p.2)
      ⟨rfl, by simpa using hs⟩ (by omega) ?_ ?_
    · rintro k hk ⟨va, t⟩ ⟨hva, ht⟩
      dsimp only at hva ht
      have hlt : va < hugePageSize * b := by
        rw [hva]
        exact Nat.mul_lt_mul_of_pos_left (by omega) hpos
      obtain ⟨t', hturn, hcall⟩ := pageTurn_ok ht (hva ▸ Nat.dvd_mul_right hugePageSize (a + k)) (by omega)
      refine ⟨decide_eq_true hlt, _, hturn, ?_, ?_⟩
      · dsimp only
        rw [hva, ← Nat.add_assoc, Nat.mul_succ]
      · rwa [hva, Nat.mul_comm, List.append_assoc, ← List.map_singleton (f := (· * hugePageSize)),
          ← List.map_append, ← List.range'_1_concat] at hcall
    · rintro ⟨va, t⟩ ⟨hva, -⟩
      have hge : hugePageSize * b ≤ va := by
        rw [show va = hugePageSize * (a + (b - a)) from hva]
        exact Nat.mul_le_mul_left _ (by omega)
      exact decide_eq_false (by omega)
  refine ⟨s', ?_, ?_⟩
  · rw [registerRange, bind_of_ok hrun]
  · rwa [pagesBetween, Nat.mul_div_cancel_left _ hpos, Nat.mul_div_cancel_left _ hpos]

/-- **One entry of the map**: its whole huge pages are registered, if it ends below the largest
    address. -/
theorem loadEntry_ok (img : Image) {e : MmapEntry} (hs : registerAll words addrs = .ok s)
    (he : e.type = memoryAvailable → e.addr + e.len < maxMemorySize) :
    ∃ s', loadEntry img e s = .ok s' ∧ registerAll words (addrs ++ entryPages img e) = .ok s' := by
  rw [loadEntry, entryPages]
  split
  · rename_i htype
    have hlt := he htype
    have hmax : maxMemorySize < 2 ^ 40 := by decide
    refine registerRange_ok hs (dvd_firstPage img e) (dvd_pagesEnd e) ?_
    have hstop : pagesEnd e ≤ u64 (e.addr + e.len) := Nat.div_mul_le_self _ _
    rw [u64_of_lt (by omega)] at hstop
    exact hstop.trans hlt.le
  · exact ⟨s, rfl, by rwa [List.append_nil]⟩

/-- The entry `k` of the map. -/
def entryOf (mem : Nat → UInt8) (mmap k : Nat) : MmapEntry :=
  mmapEntry mem (u64 (mmap + offEntries + k * entrySize mem mmap))

/-- A number of `n` bytes. -/
theorem word_lt (mem : Nat → UInt8) (a n : Nat) : word mem a n < 256 ^ n := by
  have hdigits : word mem a n = Nat.ofDigits 256 ((List.range n).map fun i => (mem (a + i)).toNat) := by
    rw [word, Nat.ofDigits_eq_foldr, List.foldr_map]
    rfl
  rw [hdigits]
  refine (Nat.ofDigits_lt_base_pow_length (by decide) ?_).trans_eq (by simp)
  intro x hx
  obtain ⟨i, -, rfl⟩ := List.mem_map.mp hx
  exact (mem (a + i)).toNat_lt

/-- The addresses that `load_mmap` registers for the first `n` entries. -/
def mmapPages (img : Image) (mem : Nat → UInt8) (mmap n : Nat) : List Nat :=
  (List.range n).flatMap fun k => entryPages img (entryOf mem mmap k)

/-- **The loop over the entries** makes the calls for the pages of each of them. -/
theorem loadMmap_ok (img : Image) {mem : Nat → UInt8} {mmap n : Nat}
    (hs : registerAll words addrs = .ok s)
    (hsize : tagSize mem mmap = offEntries + n * entrySize mem mmap) (hstep : entrySize mem mmap ≠ 0)
    (hentries : ∀ k < n, (entryOf mem mmap k).type = memoryAvailable →
      (entryOf mem mmap k).addr + (entryOf mem mmap k).len < maxMemorySize) :
    ∃ s', loadMmap img mem mmap s = .ok s' ∧
      registerAll words (addrs ++ mmapPages img mem mmap n) = .ok s' := by
  have hlt : tagSize mem mmap < 2 ^ 32 := word_lt mem (mmap + 4) 4
  have hn : n ≤ n * entrySize mem mmap := Nat.le_mul_of_pos_right n (Nat.pos_of_ne_zero hstep)
  obtain ⟨⟨e, s'⟩, hrun, -, hall⟩ :
      ∃ p, whileM (fun p => p.1 != u64 (mmap + tagSize mem mmap)) (entryTurn img mem mmap) (2 ^ 64)
          (u64 (mmap + offEntries), s) = .ok p ∧
        p.1 = u64 (mmap + offEntries + n * entrySize mem mmap) ∧
        registerAll words (addrs ++ mmapPages img mem mmap n) = .ok p.2 := by
    refine whileM_inv (fun k (p : Nat × Boot) => p.1 = u64 (mmap + offEntries + k * entrySize mem mmap) ∧
      registerAll words (addrs ++ mmapPages img mem mmap k) = .ok p.2)
      ⟨by rw [Nat.zero_mul]; rfl, by simpa [mmapPages] using hs⟩ (by omega) ?_ ?_
    · rintro k hk ⟨e, t⟩ ⟨he, ht⟩
      dsimp only at he ht
      subst he
      obtain ⟨t', ht', hall⟩ := loadEntry_ok img ht (hentries k hk)
      have hlt' : k * entrySize mem mmap < n * entrySize mem mmap :=
        Nat.mul_lt_mul_of_pos_right hk (Nat.pos_of_ne_zero hstep)
      refine ⟨?_, _, bind_of_ok ht', ?_, ?_⟩
      · -- the distance of the pointer from the end is below `2 ^ 64`
        refine bne_iff_ne.mpr ?_
        dsimp only
        rw [hsize, u64, u64]
        omega
      · dsimp only
        rw [u64, u64, u64, Nat.succ_mul]
        omega
      · rw [mmapPages, List.range_succ, List.flatMap_append, List.flatMap_singleton, ← List.append_assoc]
        exact hall
    · rintro ⟨e, t⟩ ⟨he, -⟩
      dsimp only at he ⊢
      rw [he, hsize, Nat.add_assoc]
      exact bne_self_eq_false _
  refine ⟨s', ?_, hall⟩
  rw [loadMmap, bind_of_ok hrun]

end

/-- **Only whole free pages are registered**, and each is counted once. -/
theorem loadMmap_registers (img : Image) (mem : Nat → UInt8) (mmap n : Nat) (words : Nat → BitVec 64)
    (hsize : tagSize mem mmap = offEntries + n * entrySize mem mmap) (hstep : entrySize mem mmap ≠ 0)
    (hentries : ∀ k < n, (entryOf mem mmap k).type = memoryAvailable →
      (entryOf mem mmap k).addr + (entryOf mem mmap k).len < maxMemorySize) :
    ∃ s, loadMmap img mem mmap (Boot.bss words) = .ok s ∧
      (∀ i, s.hugePageMap i = true ↔ kernelBreak ≤ i * hugePageSize ∧ img.ebss ≤ i * hugePageSize ∧
        ∃ k < n, (entryOf mem mmap k).type = memoryAvailable ∧
          (entryOf mem mmap k).addr ≤ i * hugePageSize ∧
          (i + 1) * hugePageSize ≤ (entryOf mem mmap k).addr + (entryOf mem mmap k).len) ∧
      s.nHugePages = {i | s.hugePageMap i = true}.ncard := by
  have hbss : registerAll words [] = .ok (Boot.bss words) := rfl
  obtain ⟨s, hs, hall⟩ := loadMmap_ok img hbss hsize hstep hentries
  have hreg := registered_all hall
  refine ⟨s, hs, ?_, ?_⟩
  · intro i
    rw [hreg.map, List.nil_append, mmapPages, List.mem_flatMap]
    refine and_congr_right fun _ => ?_
    constructor
    · rintro ⟨k, hk, hmem⟩
      have hk := List.mem_range.mp hk
      obtain ⟨h1, h2⟩ := (mem_entryPages img (hentries k hk) i).mp hmem
      exact ⟨h1, k, hk, h2⟩
    · rintro ⟨h1, k, hk, h2⟩
      exact ⟨k, List.mem_range.mpr hk, (mem_entryPages img (hentries k hk) i).mpr ⟨h1, h2⟩⟩
  · rw [hreg.count, ← Set.ncard_coe_finset]
    congr 1
    ext i
    simp only [Finset.coe_filter, Finset.mem_range, Set.mem_ofPred_eq, and_iff_right_iff_imp]
    exact hreg.lt i

/-- A map of three entries of 24 bytes: free memory from 1 MiB to 22 MiB, a device in it, and free
    memory from 19 MiB to 23 MiB again. -/
def overlapping : List UInt8 :=
  leBytes 4 tagTypeMmap ++ leBytes 4 88 ++ leBytes 4 24 ++ leBytes 4 0 ++
  leBytes 8 0x100000 ++ leBytes 8 0x1500000 ++ leBytes 4 1 ++ leBytes 4 0 ++
  leBytes 8 0x1200000 ++ leBytes 8 0x1000 ++ leBytes 4 2 ++ leBytes 4 0 ++
  leBytes 8 0x1300000 ++ leBytes 8 0x400000 ++ leBytes 4 1 ++ leBytes 4 0

/-- Two entries that overlap: a page in both is registered once. -/
theorem loadMmap_registers_overlapping :
    ∃ s, loadMmap ⟨0x4a5678, by decide⟩ (overlapping.getD · 0) 0 (Boot.bss fun _ => 0) = .ok s ∧
      (∀ i, s.hugePageMap i = true ↔ 8 ≤ i ∧ i ≤ 10) ∧ s.nHugePages = 3 := by
  have h0 : entryOf (overlapping.getD · 0) 0 0 = ⟨0x100000, 0x1500000, 1⟩ := by decide
  have h1 : entryOf (overlapping.getD · 0) 0 1 = ⟨0x1200000, 0x1000, 2⟩ := by decide
  have h2 : entryOf (overlapping.getD · 0) 0 2 = ⟨0x1300000, 0x400000, 1⟩ := by decide
  obtain ⟨s, hs, hmap, hcount⟩ := loadMmap_registers ⟨0x4a5678, by decide⟩ (overlapping.getD · 0) 0 3
    (fun _ => 0) (by decide) (by decide) (by decide)
  have hpages : ∀ i, s.hugePageMap i = true ↔ 8 ≤ i ∧ i ≤ 10 := by
    intro i
    rw [hmap, hugePageSize_eq, kernelBreak, memoryAvailable]
    dsimp only
    constructor
    · rintro ⟨hkernel, -, k, hk, hrest⟩
      obtain rfl | rfl | rfl : k = 0 ∨ k = 1 ∨ k = 2 := by omega
      · rw [h0] at hrest
        dsimp only at hrest
        omega
      · rw [h1] at hrest
        dsimp only at hrest
        omega
      · rw [h2] at hrest
        dsimp only at hrest
        omega
    · intro hi
      refine ⟨by omega, by omega, 0, by decide, ?_⟩
      rw [h0]
      dsimp only
      omega
  refine ⟨s, hs, hpages, ?_⟩
  have hset : {i | s.hugePageMap i = true} = ↑(Finset.Icc 8 10) := by
    ext i
    rw [Set.mem_ofPred_eq, hpages, Finset.coe_Icc, Set.mem_Icc]
  rw [hcount, hset, Set.ncard_coe_finset]
  rfl

/-! ## Any list of tags -/

/-- Calls of `register_available_huge_page` lead to `s`. -/
def Reached (words : Nat → BitVec 64) (s : Boot) : Prop := ∃ addrs, registerAll words addrs = .ok s

section

variable {words : Nat → BitVec 64}

theorem registerRange_reached {start stop : Nat} {s s' : Boot} (hs : Reached words s)
    (h : registerRange start stop s = .ok s') : Reached words s' := by
  rw [registerRange] at h
  obtain ⟨⟨va, t⟩, hloop, heq⟩ := bind_ok h
  cases heq
  refine whileM_keeps (fun p : Nat × Boot => Reached words p.2) ?_ hs hloop
  rintro ⟨va, t⟩ p ⟨addrs, ht⟩ hturn
  obtain ⟨t', ht', heq⟩ := bind_ok hturn
  obtain rfl := Except.ok.inj heq
  exact ⟨_, registerAll_concat ht ht'⟩

theorem loadMmap_reached {img : Image} {mem : Nat → UInt8} {mmap : Nat} {s s' : Boot}
    (hs : Reached words s) (h : loadMmap img mem mmap s = .ok s') : Reached words s' := by
  rw [loadMmap] at h
  obtain ⟨⟨e, t⟩, hloop, heq⟩ := bind_ok h
  cases heq
  refine whileM_keeps (fun p : Nat × Boot => Reached words p.2) ?_ hs hloop
  rintro ⟨e, t⟩ p ht hturn
  obtain ⟨t', ht', heq⟩ := bind_ok hturn
  obtain rfl := Except.ok.inj heq
  rw [loadEntry] at ht'
  split at ht'
  · exact registerRange_reached ht ht'
  · cases ht'
    exact ht

end

/-- A command line in its buffer: a string without zeros, and zeros after it. -/
structure Stored (buf line : List UInt8) : Prop where
  no_zero : 0 ∉ line
  length_lt : line.length < maxLength
  eq : buf = line ++ List.replicate (maxLength - line.length) 0

/-- The last byte of the buffer is not written, so it stays zero. -/
theorem Stored.drop {buf line : List UInt8} (h : Stored buf line) : buf.drop (maxLength - 1) = [0] := by
  have hlt := h.length_lt
  have hlen : maxLength = 256 := rfl
  rw [h.eq, List.drop_append, List.drop_eq_nil_of_le (by omega), List.drop_replicate, List.nil_append,
    show maxLength - line.length - (maxLength - 1 - line.length) = 1 by omega]
  rfl

/-- The line that `strncpy` takes from memory. -/
def lineAt (mem : Nat → UInt8) (src : Nat) : List UInt8 :=
  ((List.range (maxLength - 1)).map fun i => mem (src + i)).takeWhile (· != 0)

theorem stored_strncpy {mem : Nat → UInt8} {buf line : List UInt8} (h : Stored buf line) (src : Nat) :
    Stored (strncpy mem buf src (maxLength - 1)) (lineAt mem src) := by
  have hlen : maxLength = 256 := rfl
  have hle : (lineAt mem src).length ≤ maxLength - 1 := by
    refine (List.takeWhile_prefix _).length_le.trans_eq ?_
    rw [List.length_map, List.length_range]
  refine ⟨?_, by omega, ?_⟩
  · intro hzero
    have hne := List.mem_takeWhile_imp hzero
    exact absurd hne (by decide)
  · rw [strncpy, h.drop, show maxLength - (lineAt mem src).length =
      maxLength - 1 - (lineAt mem src).length + 1 by omega, List.replicate_succ', ← List.append_assoc]
    rfl

/-- **What `load` leaves**: the pages that calls of `register_available_huge_page` register, and a
    command line that ends inside its buffer. -/
theorem load_leaves {img : Image} {mem : Nat → UInt8} {multibootAddr : Nat} {words : Nat → BitVec 64}
    {l : Loader} (h : load img mem multibootAddr (Loader.bss words) = .ok l) :
    Reached words l.boot ∧ ∃ line, Stored l.commandLine line := by
  rw [load] at h
  obtain ⟨⟨tag, l⟩, hloop, heq⟩ := bind_ok h
  cases heq
  refine whileM_keeps (fun p : Nat × Loader => Reached words p.2.boot ∧ ∃ line, Stored p.2.commandLine line)
    ?_ ?_ hloop
  · rintro ⟨tag, l⟩ p ⟨hboot, line, hline⟩ hturn
    obtain ⟨l', hl', heq⟩ := bind_ok hturn
    obtain rfl := Except.ok.inj heq
    rw [loadTag] at hl'
    dsimp only at hl'
    split at hl'
    · obtain ⟨boot, hload, heq⟩ := bind_ok hl'
      cases heq
      exact ⟨loadMmap_reached hboot hload, line, hline⟩
    split at hl'
    · cases hl'
      exact ⟨hboot, _, stored_strncpy hline _⟩
    · cases hl'
      exact ⟨hboot, line, hline⟩
  · exact ⟨⟨[], rfl⟩, [], List.not_mem_nil, by decide, rfl⟩

end JudgeDuck.Multiboot
