/-
  The smallest programs.

  A file header and one program header, without any file contents, and then bytes that no header
  mentions.  Such a file asks for one page at 0x8048000; with a second one for the stack and an output
  region of any size, the last region ends wherever one likes (`layout32_tiny`).  The loader puts the
  first page of the file behind it.

  `looping` is a program with contents: its segment is the whole file, and it has an input.
-/
import JudgeDuck.Elf.Load

namespace JudgeDuck.Elf

open JudgeDuck.Lib JudgeDuck.Memory
open JudgeDuck.DuckCache (pageSize hugePageSize roundUp)

/-- A header that asks for one page at 0x8048000. -/
def tinyHeader : List UInt8 :=
  [0x7f, 0x45, 0x4c, 0x46, 1, 1, 1, 0, 0, 0, 0, 0, 0, 0, 0, 0,
   2, 0, 3, 0, 1, 0, 0, 0, 0x00, 0x80, 0x04, 0x08, 52, 0, 0, 0, 0, 0, 0, 0, 0, 0, 0, 0,
   52, 0, 32, 0, 1, 0, 0, 0, 0, 0, 0, 0,
   1, 0, 0, 0, 0, 0, 0, 0, 0x00, 0x80, 0x04, 0x08, 0, 0, 0, 0, 0, 0, 0, 0, 0x00, 0x10, 0, 0,
   5, 0, 0, 0, 0x00, 0x10, 0, 0]

theorem zero_lt_word : 0 < 2 ^ 64 := by decide

/-- Two pages of memory, and an output region. -/
def tinyConfig (stdoutMaxSize : Nat) (h : stdoutMaxSize < 2 ^ 64) : AppConfig where
  memoryHardLimit := 2 * pageSize
  stdin := []
  stdoutMaxSize := stdoutMaxSize
  stderrMaxSize := 0
  IB := []
  OB := []
  OBNeedClear := true
  memoryHardLimit_lt := by decide
  stdin_lt := by decide
  stdoutMaxSize_lt := h
  stderrMaxSize_lt := by decide
  IB_lt := by decide
  OB_lt := by decide

/-- The header, and then any bytes. -/
def tiny (tail : List UInt8) (stdoutMaxSize : Nat) (htail : tail.length < 2 ^ 31)
    (h : stdoutMaxSize < 2 ^ 64) : Request where
  buf := tinyHeader ++ tail
  config := tinyConfig stdoutMaxSize h
  len_lt := by
    have hlen : tinyHeader.length = 84 := rfl
    rw [List.length_append, hlen]
    omega

/-- A file whose only segment is the file itself: behind the headers is a jump to the jump. -/
def loopingFile : List UInt8 :=
  [0x7f, 0x45, 0x4c, 0x46, 1, 1, 1, 0, 0, 0, 0, 0, 0, 0, 0, 0,
   2, 0, 3, 0, 1, 0, 0, 0, 0x54, 0x80, 0x04, 0x08, 52, 0, 0, 0, 0, 0, 0, 0, 0, 0, 0, 0,
   52, 0, 32, 0, 1, 0, 0, 0, 0, 0, 0, 0,
   1, 0, 0, 0, 0, 0, 0, 0, 0x00, 0x80, 0x04, 0x08, 0, 0, 0, 0, 86, 0, 0, 0, 86, 0, 0, 0,
   5, 0, 0, 0, 0x00, 0x10, 0, 0, 0xeb, 0xfe]

/-- It gets `hi` as its input. -/
def looping : Request where
  buf := loopingFile
  config := { tinyConfig 0 zero_lt_word with stdin := [0x68, 0x69], stdin_lt := by decide }
  len_lt := by decide

theorem layout32_looping : layout32 (214 * 2 ^ 20) looping =
    some ⟨0x804a000, 0x804b000, 0x804b000, 0x804b000, 0x804b000, 0x804b000⟩ := by
  decide +kernel

/-- Fields of the header do not depend on what follows. -/
theorem le_append {xs : List UInt8} (ys : List UInt8) {off n : Nat} (h : off + n ≤ xs.length) :
    le (xs ++ ys) off n = le xs off n := by
  rw [le, le]
  refine List.foldr_ext _ _ _ fun i hi x => ?_
  have hlt := List.mem_range.mp hi
  rw [List.getD_append _ _ _ _ (by omega)]

section

variable (tail : List UInt8)

/-- The fields of the header do not depend on the tail. -/
theorem header_tiny : elf32.header (tinyHeader ++ tail) = ⟨0x8048000, 52, 32, 1⟩ := by
  simp only [elf32, le_append tail (show 24 + 4 ≤ tinyHeader.length by decide),
    le_append tail (show 28 + 4 ≤ tinyHeader.length by decide),
    le_append tail (show 42 + 2 ≤ tinyHeader.length by decide),
    le_append tail (show 44 + 2 ≤ tinyHeader.length by decide)]
  decide

theorem phdr_tiny : elf32.phdr (tinyHeader ++ tail) 52 =
    ⟨1, 0, 0x8048000, 0, pageSize, 5, pageSize⟩ := by
  simp only [elf32, le_append tail (show 52 + 4 ≤ tinyHeader.length by decide),
    le_append tail (show 52 + 4 + 4 ≤ tinyHeader.length by decide),
    le_append tail (show 52 + 8 + 4 ≤ tinyHeader.length by decide),
    le_append tail (show 52 + 16 + 4 ≤ tinyHeader.length by decide),
    le_append tail (show 52 + 20 + 4 ≤ tinyHeader.length by decide),
    le_append tail (show 52 + 24 + 4 ≤ tinyHeader.length by decide),
    le_append tail (show 52 + 28 + 4 ≤ tinyHeader.length by decide)]
  decide

theorem length_tiny : (tinyHeader ++ tail).length = 84 + tail.length := List.length_append

theorem checkHeader_tiny : checkHeader elf32 (tinyHeader ++ tail) = some () := by
  -- the first 24 bytes
  have hfield : ∀ off n v, off + n ≤ tinyHeader.length → le tinyHeader off n = v →
      le (tinyHeader ++ tail) off n = v := fun off n v h hv => (le_append tail h).trans hv
  simp only [checkHeader, failIf_bind, failIf_eq_some, header_tiny, length_tiny,
    hfield 0 1 0x7f (by decide) (by decide), hfield 1 1 0x45 (by decide) (by decide),
    hfield 2 1 0x4c (by decide) (by decide), hfield 3 1 0x46 (by decide) (by decide),
    hfield 4 1 1 (by decide) (by decide), hfield 5 1 1 (by decide) (by decide),
    hfield 6 1 1 (by decide) (by decide), hfield 7 1 0 (by decide) (by decide),
    hfield 16 2 2 (by decide) (by decide), hfield 18 2 3 (by decide) (by decide),
    hfield 20 4 1 (by decide) (by decide)]
  simp only [elf32]
  omega

theorem checkPhdr_tiny (s : Nat × Nat) :
    checkPhdr elf32 (tinyHeader ++ tail) s 0 =
      some (min s.1 0x8048000, max s.2 (0x8048000 + pageSize)) := by
  have hoff : phdrOffset (elf32.header (tinyHeader ++ tail)) 0 = 52 := by
    rw [header_tiny]
    rfl
  have hlen : ¬ (tinyHeader ++ tail).length < u64 (52 + elf32.phdrSize) := by
    rw [length_tiny]
    exact Nat.not_lt.mpr (Nat.le_add_right 84 _)
  rw [checkPhdr, hoff, phdr_tiny]
  simp only [failIf, hlen, if_false]
  rfl

variable {tail}

theorem programRegion_tiny {size vaddrBreak : Nat} (htail : tail.length < 2 ^ 31)
    (hsize : size < 2 ^ 64) (h : 0x804a000 ≤ vaddrBreak) :
    programRegion elf32 vaddrBreak (tiny tail size htail hsize) = some 0x804a000 := by
  have hmax : ¬ (roundUp (0x8048000 + pageSize) pageSize ≤ 0x8048000 / pageSize * pageSize ∨
      vaddrBreak < roundUp (0x8048000 + pageSize) pageSize) := by
    rw [show roundUp (0x8048000 + pageSize) pageSize = 0x8049000 by decide,
      show 0x8048000 / pageSize * pageSize = 0x8048000 by decide]
    omega
  have hlimit : roundUp (2 * pageSize) pageSize = 0x2000 := by decide
  have hsum : u64 (elf32.loadVaddrStart + 0x2000) = 0x804a000 := by decide
  rw [programRegion, regionAt, tiny]
  simp only [regionBreak, checkHeader_tiny, header_tiny, List.range_one, List.foldlM_cons, List.foldlM_nil,
    checkPhdr_tiny, Option.bind_eq_bind, Option.bind_some, Option.pure_def]
  simp only [← Option.bind_eq_bind, failIf_bind, tinyConfig, hlimit, hsum]
  exact ⟨by decide, hmax, by decide, by decide, by decide, by decide, Nat.not_lt.mpr h, trivial⟩

theorem allocRegion_of_dvd {cur size : Nat} (hdvd : pageSize ∣ size) (hlt : cur + size < 2 ^ 64) :
    allocRegion cur size = some (cur + size) := by
  have hround : roundUp size pageSize = size := by
    rw [roundUp, u64, pageSize] at *
    omega
  rw [allocRegion]
  simp only [failIf_bind, hround, u64_of_lt hlt]
  exact ⟨Nat.lt_irrefl _, Nat.not_lt.mpr (Nat.le_add_right _ _), trivial⟩

/-- Where a tiny program ends: two pages and the output region behind 0x8048000. -/
def tinyLayout (special : Nat) : Layout := ⟨0x804a000, 0x804a000, special, special, special, special⟩

/-- **The last region can end anywhere** between the stack and the two limits. -/
theorem layout32_tiny {size vaddrBreak : Nat} (htail : tail.length < 2 ^ 31) (hsize : size < 2 ^ 64)
    (hdvd : pageSize ∣ size) (hle : 0x804a000 + size ≤ vaddrBreak) (h4g : 0x804a000 + size ≤ 2 ^ 32) :
    layout32 vaddrBreak (tiny tail size htail hsize) = some (tinyLayout (0x804a000 + size)) := by
  have hstdin : allocRegion 0x804a000 0 = some 0x804a000 := by decide
  have hstdout : allocRegion 0x804a000 size = some (0x804a000 + size) :=
    allocRegion_of_dvd hdvd (Nat.lt_of_le_of_lt h4g (by decide))
  generalize hspecial : 0x804a000 + size = special at *
  have hstart : 0x804a000 ≤ special := hspecial ▸ Nat.le_add_right _ _
  have hrest : allocRegion special 0 = some special :=
    allocRegion_of_dvd (Nat.dvd_zero pageSize) (Nat.lt_of_le_of_lt h4g (by decide))
  have himage : ¬ u64 (special + pageSize) < special := by
    rw [u64_of_lt (Nat.lt_of_le_of_lt (Nat.add_le_add_right h4g _) (by decide))]
    exact Nat.not_lt.mpr (Nat.le_add_right _ _)
  rw [layout32, programRegion_tiny htail hsize (Nat.le_trans hstart hle)]
  simp only [regions32, tiny, tinyConfig, List.length_nil, Option.bind_eq_bind, Option.bind_some, hstdin,
    hstdout, hrest]
  simp only [← Option.bind_eq_bind, failIf_bind]
  exact ⟨Nat.not_lt.mpr hstart, Nat.not_lt.mpr hle, himage, by decide, Nat.not_lt.mpr h4g, rfl⟩

end

end JudgeDuck.Elf
