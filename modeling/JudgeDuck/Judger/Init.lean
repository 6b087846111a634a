/-
  The judger after `init`.

  Memory is given away from the upper end of the address space downwards: the buffer first, then the
  ELF cache, then the data cache.  So `vaddr_break`, below which programs run, is where the data cache
  starts, and the buffer is at least the two caches away from it (`Placed`).
-/
import JudgeDuck.DuckCache.Init
import JudgeDuck.Judger.Model
import JudgeDuck.Memory.Booted
import JudgeDuck.Memory.Script

namespace JudgeDuck.Judger

open JudgeDuck.Lib JudgeDuck.Memory
open JudgeDuck.DuckCache (Cache Region pageSize hugePageSize roundUp)

/-- Where the buffer is. -/
structure Placed (s : State) : Prop where
  above : s.m.vaddrBreak + hugePageSize ≤ s.buffer
  fits : s.buffer + s.bufferSize ≤ s.m.mapped
  mapped_lt : s.m.mapped < 2 ^ 48
  size_lt : s.bufferSize < 2 ^ 32

/-- The judger after `init` on the machine `m`. -/
structure Started (m : Machine) (s : State) : Prop where
  placed : Placed s
  booted : Booted s.m
  elf : DuckCache.Inv s.elfCache
  data : DuckCache.Inv s.dataCache
  empty : s.elfCache.nCurObjects = 0 ∧ s.dataCache.nCurObjects = 0
  room : 0 < s.elfCache.nTotalPages
  fresh : s.judgeResultCleared = true ∧ s.judgeSeqNum = 2 ^ 64 - 1 ∧ s.judgeResult = notJudged
  zero : ∀ i, i < s.bufferSize → s.m.mem (s.buffer + i) = 0
  kept : ∀ a, a < s.buffer → s.m.mem a = m.mem a

/-! ## Allocating -/

theorem roundUp_huge {size : Nat} (hdvd : hugePageSize ∣ size) (hlt : size < 2 ^ 48) :
    roundUp size hugePageSize = size := by
  rw [roundUp]
  rw [hugePageSize] at *
  rw [u64_of_lt (by omega)]
  omega

section

variable {m m' : Machine} {raw c : Cache} {n size a : Nat}

/-- What is allocated was right below `vaddr_break`. -/
theorem allocate_inv (hboot : Booted m) (hdvd : hugePageSize ∣ size) (hlt : size < 2 ^ 48)
    (h : allocateVirtualMemory size m = (m', some a)) :
    m.vaddrBreak = a + size ∧ kernelBreak ≤ a ∧ m' = { m with vaddrBreak := a } := by
  rw [allocateVirtualMemory, roundUp_huge hdvd hlt] at h
  have hkernel := hboot.kernel_le
  by_cases hfits : m.vaddrBreak - kernelBreak < size
  · rw [if_pos hfits] at h
    cases h
  · rw [if_neg hfits, Prod.mk.injEq, Option.some.injEq] at h
    obtain ⟨hm', ha⟩ := h
    rw [ha] at hm'
    exact ⟨by omega, by omega, hm'.symm⟩

/-- If the machine does not reboot, there was memory. -/
theorem orReboot_inv {r : Machine × Option Nat} (h : orReboot r = .ok (m', a)) : r = (m', some a) := by
  obtain ⟨m1, a?⟩ := r
  cases a? with
  | none => cases h
  | some a1 =>
    cases h
    rfl

theorem allocate_of_le (hdvd : hugePageSize ∣ size) (hlt : size < 2 ^ 48)
    (hbreak : m.vaddrBreak = a + size) (hkernel : kernelBreak ≤ a) :
    orReboot (allocateVirtualMemory size m) = .ok ({ m with vaddrBreak := a }, a) := by
  have hsub : m.vaddrBreak - size = a := by omega
  rw [allocateVirtualMemory, roundUp_huge hdvd hlt]
  rw [if_neg (by omega), hsub]
  rfl

/-- The part of the address space that is left, as the caches see it. -/
def region (hboot : Booted m) : Region where
  kernelBreak := kernelBreak
  vaddrBreak := m.vaddrBreak
  pos := by decide
  le := hboot.kernel_le
  lt := Nat.lt_of_le_of_lt hboot.le_mapped hboot.mapped_lt
  kernelBreak_aligned := by decide
  vaddrBreak_aligned := hboot.dvd_break

/-- A cache gets its memory, and the invariant of caches holds. -/
theorem initCache_inv (hboot : Booted m) (hdvd : hugePageSize ∣ size) (hlt : size < 2 ^ 48)
    (hpos : 1 ≤ n) (hn : n < 2 ^ 57) (h : initCache raw n size m = .ok (m', c)) :
    ∃ a, m.vaddrBreak = a + size ∧ m' = { m with vaddrBreak := a } ∧ Booted m' ∧
      DuckCache.Inv c ∧ c.nCurObjects = 0 ∧ 0 < c.nTotalPages := by
  have hbooted := hboot.allocate size
  obtain ⟨⟨m1, a⟩, halloc, h⟩ := bind_ok h
  obtain ⟨c', hblock, hok⟩ := bind_ok h
  cases hok
  replace halloc := orReboot_inv halloc
  rw [halloc] at hbooted
  obtain ⟨hbreak, hkernel, hm1⟩ := allocate_inv hboot hdvd hlt halloc
  -- the cache sees the same address
  have haddr : DuckCache.allocateVirtualMemory (region hboot) size = a := by
    have hsub : m.vaddrBreak - size = a := by omega
    have hroom : ¬ m.vaddrBreak - kernelBreak < size := by omega
    rw [DuckCache.allocateVirtualMemory, roundUp_huge hdvd hlt]
    exact (if_neg hroom).trans hsub
  have hne : a ≠ 0 := by
    have hpos : 0 < kernelBreak := by decide
    omega
  have hinit : DuckCache.init (region hboot) raw n size = .ok (some c) := by
    rw [DuckCache.init, haddr, if_neg hne, hblock]
    rfl
  have hmul : pageSize ∣ size := Nat.dvd_trans (by decide) hdvd
  obtain ⟨hinv, hcur, -, hroom⟩ := DuckCache.init_spec hn hmul (by omega) hinit hpos
  exact ⟨a, hbreak, hm1, hbooted, hinv, hcur, hroom⟩

/-- A cache with room for its tables and two pages can be set up. -/
theorem exists_initCache (raw : Cache) (hboot : Booted m) (hdvd : hugePageSize ∣ size)
    (hlt : size < 2 ^ 48) (hbreak : m.vaddrBreak = a + size) (hkernel : kernelBreak ≤ a)
    (hroom : 72 * n + 8 * 4096 ≤ size) :
    ∃ c, initCache raw n size m = .ok ({ m with vaddrBreak := a }, c) := by
  have htop := Nat.lt_of_le_of_lt hboot.le_mapped hboot.mapped_lt
  have hdvd' : 4096 ∣ size := Nat.dvd_trans (by decide) hdvd
  obtain ⟨⟨h1, h2, h3, h4⟩, hpages, hfirst⟩ :=
    DuckCache.tables_spec (show a < 2 ^ 48 by omega) (show n < 2 ^ 57 by omega)
  have hpage : pageSize = 4096 := rfl
  rw [initCache, bind_of_ok (allocate_of_le hdvd hlt hbreak hkernel)]
  obtain ⟨k, hk⟩ : ∃ k, DuckCache.firstPageAddr a n + 4096 * k + 4096 = a + size :=
    ⟨(a + size - DuckCache.firstPageAddr a n) / 4096 - 1, by omega⟩
  obtain ⟨t, hlink, -⟩ := DuckCache.linkPages_spec raw.next (size + 1)
    (show DuckCache.firstPageAddr a n + 4096 * k + 4096 < 2 ^ 64 by omega) (by omega)
  have hblock : DuckCache.initBlock raw a n size =
      .ok (raw.linked size n (DuckCache.firstPageAddr a n) t) := by
    rw [DuckCache.initBlock, hpage, u64_of_lt (show a + size < 2 ^ 64 by omega)]
    rw [u64_of_lt (show DuckCache.firstPageAddr a n + 4096 < 2 ^ 64 by omega)]
    rw [if_neg (by omega), ← hk, bind_of_ok hlink]
    rfl
  exact ⟨_, bind_of_ok hblock⟩

end

/-! ## `init` -/

/-- A write does not change what the tables say. -/
theorem booted_stored {m : Machine} (h : Booted m) (w : Write UInt8) : Booted (m.stored w) :=
  ⟨h.dvd_break, h.dvd_mapped, h.kernel_le, h.le_mapped, h.mapped_lt, h.user, h.duck⟩

/-- The sizes that `init` chooses from. -/
theorem sizes (small : Bool) :
    (hugePageSize ∣ chooseBufferSize small ∧ chooseBufferSize small < 2 ^ 32) ∧
      hugePageSize ∣ chooseDataCacheSize small ∧ chooseDataCacheSize small < 2 ^ 48 ∧
      72 * dataCacheN + 8 * 4096 ≤ chooseDataCacheSize small := by
  cases small <;> decide

section

variable {m : Machine} {s : State} {rawElf rawData : Cache}

/-- **`init`**: the buffer is in its place and holds zeros, the caches are empty. -/
theorem init_started (hboot : Booted m) (h : init rawElf rawData m = .ok s) : Started m s := by
  obtain ⟨⟨hbuf, hbuflt⟩, hdat, hdatlt, -⟩ := sizes (useSmall m)
  obtain ⟨⟨m1, buffer⟩, halloc, h⟩ := bind_ok h
  obtain ⟨m2, hwrite, h⟩ := bind_ok h
  obtain ⟨⟨m3, elfCache⟩, helf, h⟩ := bind_ok h
  obtain ⟨⟨m4, dataCache⟩, hdata, h⟩ := bind_ok h
  have hs := Except.ok.inj h
  generalize chooseBufferSize (useSmall m) = size at *
  generalize chooseDataCacheSize (useSmall m) = dataSize at *
  have hboot1 := hboot.allocate size
  replace halloc := orReboot_inv halloc
  obtain ⟨hbreak, -, hm1⟩ := allocate_inv hboot hbuf (by omega) halloc
  rw [halloc] at hboot1
  obtain ⟨-, hm2⟩ := (Machine.write_iff (w := ⟨buffer, _⟩)).mp hwrite
  have hboot2 : Booted m2 := by
    rw [hm2]
    exact booted_stored hboot1 _
  obtain ⟨a3, hbreak3, hm3, hboot3, helfInv, helfEmpty, helfRoom⟩ :=
    initCache_inv hboot2 (by decide) (by decide) (by decide) (by decide) helf
  obtain ⟨a4, hbreak4, hm4, hboot4, hdataInv, hdataEmpty, -⟩ :=
    initCache_inv hboot3 hdat hdatlt (by decide) (by decide) hdata
  -- the caches leave the bytes alone
  have hmem4 : m4.mem = store 0 m.mem ⟨buffer, List.replicate size 0⟩ := by
    rw [hm4, hm3, hm2, hm1]
    rfl
  have hbreak2 : m2.vaddrBreak = buffer := by
    rw [hm2, hm1]
    rfl
  have hbreak4' : m4.vaddrBreak + dataSize + elfCacheSize = buffer := by
    have h3 : m3.vaddrBreak = a3 := by rw [hm3]
    have h4 : m4.vaddrBreak = a4 := by rw [hm4]
    omega
  have hmapped4 : m4.mapped = m.mapped := by
    rw [hm4, hm3, hm2, hm1]
    rfl
  subst hs
  refine ⟨⟨?_, ?_, ?_, hbuflt⟩, hboot4, helfInv, hdataInv, ⟨helfEmpty, hdataEmpty⟩, helfRoom,
    ⟨rfl, rfl, rfl⟩, ?_, ?_⟩
  · have : hugePageSize ≤ elfCacheSize := by decide
    show m4.vaddrBreak + hugePageSize ≤ buffer
    omega
  · show buffer + size ≤ m4.mapped
    rw [hmapped4, ← hbreak]
    exact hboot.le_mapped
  · exact hboot4.mapped_lt
  · intro i hi
    show m4.mem (buffer + i) = 0
    have hcovers : Write.covers ⟨buffer, List.replicate size (0 : UInt8)⟩ (buffer + i) = true := by
      simp [Write.covers, hi]
    rw [hmem4, store_apply, hcovers, Nat.add_sub_cancel_left]
    simp
  · intro a ha
    show m4.mem a = m.mem a
    have hcovers : Write.covers ⟨buffer, List.replicate size (0 : UInt8)⟩ a = false := by
      simp only [Write.covers, decide_eq_false_iff_not]
      intro h
      exact Nat.not_le.mpr ha h.1
    rw [hmem4, store_apply, hcovers]
    rfl

/-- With enough memory `init` returns. -/
theorem exists_init (rawElf rawData : Cache) {a : Nat} (hboot : Booted m) (hkernel : kernelBreak ≤ a)
    (hbreak : m.vaddrBreak =
      a + chooseDataCacheSize (useSmall m) + elfCacheSize + chooseBufferSize (useSmall m)) :
    ∃ s, init rawElf rawData m = .ok s ∧ s.m.vaddrBreak = a ∧
      s.buffer = a + chooseDataCacheSize (useSmall m) + elfCacheSize ∧
      s.bufferSize = chooseBufferSize (useSmall m) := by
  obtain ⟨⟨hbuf, hbuflt⟩, hdat, hdatlt, hroom⟩ := sizes (useSmall m)
  rw [init]
  generalize chooseBufferSize (useSmall m) = size at *
  generalize chooseDataCacheSize (useSmall m) = dataSize at *
  obtain ⟨buffer, hbuffer⟩ : ∃ buffer, buffer = a + dataSize + elfCacheSize := ⟨_, rfl⟩
  obtain ⟨m1, hm1⟩ : ∃ m1, m1 = { m with vaddrBreak := buffer } := ⟨_, rfl⟩
  obtain ⟨m2, hm2⟩ : ∃ m2, m2 = m1.stored ⟨buffer, List.replicate size 0⟩ := ⟨_, rfl⟩
  obtain ⟨m3, hm3⟩ : ∃ m3, m3 = { m2 with vaddrBreak := a + dataSize } := ⟨_, rfl⟩
  have hbreak1 : m.vaddrBreak = buffer + size := by rw [hbreak, hbuffer]
  have hkernel2 : kernelBreak ≤ a + dataSize := Nat.le_add_right_of_le hkernel
  have hkernel1 : kernelBreak ≤ buffer := by
    rw [hbuffer]
    exact Nat.le_add_right_of_le hkernel2
  have halloc := allocate_of_le hbuf (by omega) hbreak1 hkernel1
  have hboot1 := hboot.allocate size
  rw [orReboot_inv halloc, ← hm1] at hboot1
  rw [← hm1] at halloc
  have hwrite : m1.write buffer (List.replicate size 0) = .ok m2 := by
    rw [hm2]
    refine Machine.write_of_le ?_
    rw [List.length_replicate, ← hbreak1, hm1]
    exact hboot.le_mapped
  have hboot2 : Booted m2 := by
    rw [hm2]
    exact booted_stored hboot1 _
  have hbreak2 : m2.vaddrBreak = a + dataSize + elfCacheSize := by
    rw [hm2, ← hbuffer, hm1]
    rfl
  have hroom2 : 72 * elfCacheN + 8 * 4096 ≤ elfCacheSize := by decide
  obtain ⟨elfCache, helf⟩ := exists_initCache rawElf hboot2 (by decide) (by decide) hbreak2 hkernel2
    hroom2
  rw [← hm3] at helf
  have hboot3 : Booted m3 := by
    obtain ⟨-, -, -, hboot3, -⟩ :=
      initCache_inv hboot2 (by decide) (by decide) (by decide) (by decide) helf
    exact hboot3
  have hbreak3 : m3.vaddrBreak = a + dataSize := by rw [hm3]
  obtain ⟨dataCache, hdata⟩ := exists_initCache rawData hboot3 hdat hdatlt hbreak3 hkernel hroom
  refine ⟨_, (bind_of_ok halloc).trans ((bind_of_ok hwrite).trans ((bind_of_ok helf).trans
    (bind_of_ok hdata))), rfl, hbuffer, rfl⟩

end

end JudgeDuck.Judger
