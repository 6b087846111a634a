/-
  What the checks of the loaders establish.

  `load_elf64` accepts nothing (`programRegion_elf64`).  When `load_elf32` accepts, `Fits` holds: the
  regions follow each other from 0x8048000 on, page by page and large enough for what goes into them,
  the segments leave one page for the stack, and everything ends at `vaddr_break` and at 4 GiB at the
  latest.  Sums of 64-bit numbers that wrap around are all caught.
-/
import JudgeDuck.Elf.Model

namespace JudgeDuck.Elf

open JudgeDuck.Lib JudgeDuck.Memory
open JudgeDuck.DuckCache (pageSize hugePageSize roundUp)

/-! ## Checks -/

theorem failIf_eq_some {p : Prop} [Decidable p] {u : Unit} : failIf p = some u ↔ ¬ p := by
  by_cases h : p
  · simp [failIf, h]
  · simp [failIf, h]

/-- What comes after a check sees that it has not failed. -/
theorem failIf_bind {α : Type} {p : Prop} [Decidable p] {f : Unit → Option α} {x : α} :
    (failIf p >>= f) = some x ↔ ¬ p ∧ f () = some x := by
  by_cases h : p
  · simp [failIf, h]
  · simp [failIf, h]

/-- A field of `n` bytes is below `256 ^ n`. -/
theorem le_lt (buf : List UInt8) (off n : Nat) : le buf off n < 256 ^ n := by
  rw [le]
  induction n generalizing off with
  | zero => exact Nat.one_pos
  | succ n ih =>
    rw [List.range_succ_eq_map, List.foldr_cons, List.foldr_map, Nat.pow_succ]
    have hrest := ih (off + 1)
    have hbyte := (buf.getD (off + 0) 0).toNat_lt
    simp only [Nat.add_assoc, Nat.add_comm 1] at hrest
    simp only [Nat.succ_eq_add_one] at *
    omega

/-- The checks of one header, and what it does to the bounds. -/
structure PhdrOk (len : Nat) (p : Phdr) (s : Nat × Nat) : Prop where
  file : p.filesz ≠ 0 → p.offset ≤ len ∧ u64 (p.offset + p.filesz) ≤ len
  file_le : p.filesz ≤ p.memsz
  no_wrap : p.vaddr ≤ u64 (p.vaddr + p.memsz)
  min_le : s.1 ≤ p.vaddr
  le_max : u64 (p.vaddr + p.memsz) ≤ s.2

section

variable {fmt : Format} {buf : List UInt8} {s s' : Nat × Nat}

/-- **One program header**: the range only grows, and a segment that is accepted lies in the file
    and in the range. -/
theorem checkPhdr_spec {i : Nat} (h : checkPhdr fmt buf s i = some s') :
    (s'.1 ≤ s.1 ∧ s.2 ≤ s'.2) ∧ (s.2 < 2 ^ 64 → s'.2 < 2 ^ 64) ∧
      ((fmt.phdr buf (phdrOffset (fmt.header buf) i)).type = 1 →
        PhdrOk buf.length (fmt.phdr buf (phdrOffset (fmt.header buf) i)) s') := by
  rw [checkPhdr, failIf_bind] at h
  obtain ⟨-, h⟩ := h
  by_cases htype : (fmt.phdr buf (phdrOffset (fmt.header buf) i)).type = 1
  · simp only [htype, ne_eq, not_true_eq_false, if_false, failIf_bind, Option.some.injEq] at h
    obtain ⟨hfile, -, hle, hwrap, rfl⟩ := h
    refine ⟨⟨Nat.min_le_left _ _, Nat.le_max_left _ _⟩,
      fun hlt => Nat.max_lt.mpr ⟨hlt, Nat.mod_lt _ (by decide)⟩,
      fun _ => ⟨fun hne => ?_, ?_, ?_, ?_, ?_⟩⟩
    · exact ⟨Nat.le_of_not_lt fun hlt => hfile ⟨hne, .inl hlt⟩,
        Nat.le_of_not_lt fun hlt => hfile ⟨hne, .inr hlt⟩⟩
    · exact Nat.le_of_not_lt hle
    · exact Nat.le_of_not_lt hwrap
    · exact Nat.min_le_right _ _
    · exact Nat.le_max_right _ _
  · simp only [htype, ne_eq, not_false_eq_true, if_true, Option.some.injEq] at h
    subst h
    exact ⟨⟨Nat.le_refl _, Nat.le_refl _⟩, id, fun h => absurd h htype⟩

theorem PhdrOk.mono {len : Nat} {p : Phdr} (h : PhdrOk len p s) (hmin : s'.1 ≤ s.1)
    (hmax : s.2 ≤ s'.2) : PhdrOk len p s' :=
  ⟨h.file, h.file_le, h.no_wrap, Nat.le_trans hmin h.min_le, Nat.le_trans h.le_max hmax⟩

/-- The loop over the headers: the bounds include what each of them asks for. -/
theorem checkPhdrs_spec {l : List Nat} (h : l.foldlM (checkPhdr fmt buf) s = some s') :
    (s'.1 ≤ s.1 ∧ s.2 ≤ s'.2) ∧ (s.2 < 2 ^ 64 → s'.2 < 2 ^ 64) ∧
      ∀ i ∈ l, (fmt.phdr buf (phdrOffset (fmt.header buf) i)).type = 1 →
        PhdrOk buf.length (fmt.phdr buf (phdrOffset (fmt.header buf) i)) s' := by
  induction l generalizing s with
  | nil =>
    rw [List.foldlM_nil] at h
    cases h
    exact ⟨⟨Nat.le_refl _, Nat.le_refl _⟩, id, fun i hi => absurd hi List.not_mem_nil⟩
  | cons i l ih =>
    rw [List.foldlM_cons] at h
    obtain ⟨s1, hfirst, hrest⟩ := Option.bind_eq_some_iff.mp h
    obtain ⟨⟨hmin1, hmax1⟩, hlt1, hi⟩ := checkPhdr_spec hfirst
    obtain ⟨⟨hmin2, hmax2⟩, hlt2, hl⟩ := ih hrest
    refine ⟨⟨Nat.le_trans hmin2 hmin1, Nat.le_trans hmax1 hmax2⟩, fun hlt => hlt2 (hlt1 hlt),
      List.forall_mem_cons.mpr ⟨fun htype => (hi htype).mono hmin2 hmax2, hl⟩⟩

end

/-- What both loaders have checked when they know `load_vaddr_break`. -/
structure RegionOk (fmt : Format) (vaddrBreak : Nat) (r : Request) (loadVaddrBreak : Nat)
    (s : Nat × Nat) : Prop where
  header : checkHeader fmt r.buf = some ()
  loop : (List.range (fmt.header r.buf).phnum).foldlM (checkPhdr fmt r.buf) (2 ^ 64 - 1, 0) = some s
  above_kernel : kernelBreak ≤ s.1 / pageSize * pageSize
  min_lt_max : s.1 / pageSize * pageSize < roundUp s.2 pageSize
  one_page : u64 (roundUp s.2 pageSize - s.1 / pageSize * pageSize + pageSize) ≤
    roundUp r.config.memoryHardLimit pageSize
  start : s.1 / pageSize * pageSize = fmt.loadVaddrStart
  break_eq : loadVaddrBreak = u64 (fmt.loadVaddrStart + roundUp r.config.memoryHardLimit pageSize)
  no_wrap : fmt.loadVaddrStart ≤ loadVaddrBreak
  break_le : loadVaddrBreak ≤ vaddrBreak

theorem programRegion_spec {fmt : Format} {vaddrBreak : Nat} {r : Request} {loadVaddrBreak : Nat}
    (h : programRegion fmt vaddrBreak r = some loadVaddrBreak) :
    ∃ s, RegionOk fmt vaddrBreak r loadVaddrBreak s := by
  obtain ⟨_, hheader, h⟩ := Option.bind_eq_some_iff.mp h
  obtain ⟨s, hloop, h⟩ := Option.bind_eq_some_iff.mp h
  rw [regionBreak] at h
  simp only [failIf_bind, Option.some.injEq] at h
  obtain ⟨habove, hmax, -, hpage, hstart, hwrap, hbreak, rfl⟩ := h
  exact ⟨s, hheader, hloop, Nat.le_of_not_lt habove,
    Nat.lt_of_not_le fun hle => hmax (.inl hle), Nat.le_of_not_lt hpage,
    not_not.mp hstart, rfl, Nat.le_of_not_lt hwrap, Nat.le_of_not_lt hbreak⟩

/-- **No 64-bit program is accepted**: it would have to start at 4 MiB, in the kernel. -/
theorem programRegion_elf64 (vaddrBreak : Nat) (r : Request) :
    programRegion elf64 vaddrBreak r = none := by
  cases h : programRegion elf64 vaddrBreak r with
  | none => rfl
  | some loadVaddrBreak =>
    obtain ⟨s, hs⟩ := programRegion_spec h
    have habove := hs.above_kernel
    rw [hs.start] at habove
    exact absurd habove (by decide)

/-! ## Regions -/

theorem loadVaddrStart_eq : loadVaddrStart = 0x8048000 := rfl

theorem loadVaddrStart_dvd : pageSize ∣ loadVaddrStart := by decide

theorem roundUp_spec (x : Nat) :
    pageSize ∣ roundUp x pageSize ∧ roundUp x pageSize < 2 ^ 64 := by
  simp only [roundUp, u64, pageSize]
  omega

/-- **A region that is allocated** has room for its bytes: the sum did not wrap. -/
theorem allocRegion_spec {cur size loadBreak : Nat} (h : allocRegion cur size = some loadBreak) :
    loadBreak = u64 (cur + roundUp size pageSize) ∧ cur + size ≤ loadBreak ∧
      (pageSize ∣ cur → pageSize ∣ loadBreak) := by
  rw [allocRegion, failIf_bind, failIf_bind, Option.some.injEq] at h
  obtain ⟨hsize, hwrap, rfl⟩ := h
  obtain ⟨hdvd, hlt⟩ := roundUp_spec size
  refine ⟨rfl, ?_, ?_⟩
  · simp only [u64] at *
    omega
  · simp only [u64, pageSize] at *
    omega

/-- An accepted region is exactly as long as its size, in pages: neither rounding nor adding wraps around. -/
theorem allocRegion_eq {cur size loadBreak : Nat} (h : allocRegion cur size = some loadBreak)
    (hcur : cur < 2 ^ 64) : loadBreak = cur + roundUp size pageSize ∧ loadBreak < 2 ^ 64 := by
  rw [allocRegion, failIf_bind, failIf_bind, Option.some.injEq] at h
  obtain ⟨-, hwrap, rfl⟩ := h
  have hlt := (roundUp_spec size).2
  rw [u64] at *
  omega

/-- A segment inside the program region. -/
structure SegmentFits (r : Request) (lay : Layout) (p : Phdr) : Prop where
  start_le : loadVaddrStart ≤ p.vaddr
  memory : p.vaddr + p.memsz + pageSize ≤ lay.loadVaddrBreak
  file_le : p.filesz ≤ p.memsz
  file : p.filesz ≠ 0 → p.offset + p.filesz ≤ r.buf.length

/-- Everything has its place. -/
structure Fits (vaddrBreak : Nat) (r : Request) (lay : Layout) : Prop where
  dvd_break : pageSize ∣ lay.loadVaddrBreak
  dvd_stdin : pageSize ∣ lay.stdinBreak
  dvd_stdout : pageSize ∣ lay.stdoutBreak
  dvd_stderr : pageSize ∣ lay.stderrBreak
  dvd_IB : pageSize ∣ lay.IBBreak
  dvd_special : pageSize ∣ lay.specialRegionBreak
  two_pages : loadVaddrStart + 2 * pageSize ≤ lay.loadVaddrBreak
  stdin_le : lay.loadVaddrBreak + r.config.stdin.length ≤ lay.stdinBreak
  stdout_le : lay.stdinBreak + r.config.stdoutMaxSize ≤ lay.stdoutBreak
  stderr_le : lay.stdoutBreak + r.config.stderrMaxSize ≤ lay.stderrBreak
  IB_le : lay.stderrBreak + r.config.IB.length ≤ lay.IBBreak
  OB_le : lay.IBBreak + r.config.OB.length ≤ lay.specialRegionBreak
  OB_eq : u64 (lay.IBBreak + roundUp r.config.OB.length pageSize) = lay.specialRegionBreak
  le_vaddrBreak : lay.specialRegionBreak ≤ vaddrBreak
  le_4g : lay.specialRegionBreak ≤ 2 ^ 32
  segment : ∀ p ∈ segments r.buf, SegmentFits r lay p

section

variable {vaddrBreak loadVaddrBreak : Nat} {r : Request} {s : Nat × Nat}

theorem RegionOk.two_pages (h : RegionOk elf32 vaddrBreak r loadVaddrBreak s) :
    pageSize ∣ loadVaddrBreak ∧ loadVaddrStart + 2 * pageSize ≤ loadVaddrBreak ∧
      s.2 + pageSize ≤ loadVaddrBreak := by
  have hstart : s.1 / pageSize * pageSize = 0x8048000 := h.start
  have hmax := h.min_lt_max
  have hpage := h.one_page
  have hbreak : loadVaddrBreak = u64 (0x8048000 + roundUp r.config.memoryHardLimit pageSize) :=
    h.break_eq
  have hwrap : 0x8048000 ≤ loadVaddrBreak := h.no_wrap
  have hlt := (checkPhdrs_spec h.loop).2.1 (by decide)
  rw [loadVaddrStart_eq]
  simp only [roundUp, u64, pageSize] at *
  omega

/-- The segments are the program headers of type `PT_LOAD`. -/
theorem mem_segmentsOf {fmt : Format} {buf : List UInt8} {p : Phdr} :
    p ∈ segmentsOf fmt buf ↔ p.type = 1 ∧ ∃ i, i < (fmt.header buf).phnum ∧
      fmt.phdr buf (phdrOffset (fmt.header buf) i) = p := by
  simp only [segmentsOf, List.mem_filter, List.mem_map, List.mem_range, beq_iff_eq]
  exact and_comm

theorem RegionOk.segment (h : RegionOk elf32 vaddrBreak r loadVaddrBreak s) {lay : Layout}
    (hlay : lay.loadVaddrBreak = loadVaddrBreak) {p : Phdr} (hp : p ∈ segments r.buf) :
    SegmentFits r lay p := by
  obtain ⟨htype, i, hi, rfl⟩ := mem_segmentsOf.mp hp
  have hok := (checkPhdrs_spec h.loop).2.2 i (List.mem_range.mpr hi) htype
  have hlen := r.len_lt
  have hvaddr : (elf32.phdr r.buf (phdrOffset (elf32.header r.buf) i)).vaddr < 2 ^ 32 := le_lt ..
  have hmemsz : (elf32.phdr r.buf (phdrOffset (elf32.header r.buf) i)).memsz < 2 ^ 32 := le_lt ..
  have hoffset : (elf32.phdr r.buf (phdrOffset (elf32.header r.buf) i)).offset < 2 ^ 32 := le_lt ..
  have hfilesz : (elf32.phdr r.buf (phdrOffset (elf32.header r.buf) i)).filesz < 2 ^ 32 := le_lt ..
  generalize elf32.phdr r.buf (phdrOffset (elf32.header r.buf) i) = p at *
  have hmin := hok.min_le
  have hmax := hok.le_max
  have hregion := h.two_pages.2.2
  have hstart : s.1 / pageSize * pageSize = loadVaddrStart := h.start
  rw [u64_of_lt (by omega)] at hmax
  refine ⟨?_, ?_, hok.file_le, fun hne => ?_⟩
  · rw [← hstart]
    exact Nat.le_trans (Nat.div_mul_le_self _ _) hmin
  · rw [hlay]
    omega
  · have hfile := (hok.file hne).2
    rwa [u64_of_lt (by omega)] at hfile

end

/-- An accepted layout has the program region of the first checks. -/
theorem layout32_region {vaddrBreak : Nat} {r : Request} {lay : Layout}
    (h : layout32 vaddrBreak r = some lay) :
    programRegion elf32 vaddrBreak r = some lay.loadVaddrBreak := by
  obtain ⟨b, hregion, h⟩ := Option.bind_eq_some_iff.mp h
  obtain ⟨b1, -, h⟩ := Option.bind_eq_some_iff.mp h
  obtain ⟨b2, -, h⟩ := Option.bind_eq_some_iff.mp h
  obtain ⟨b3, -, h⟩ := Option.bind_eq_some_iff.mp h
  obtain ⟨b4, -, h⟩ := Option.bind_eq_some_iff.mp h
  obtain ⟨b5, -, h⟩ := Option.bind_eq_some_iff.mp h
  simp only [failIf_bind, Option.some.injEq] at h
  obtain ⟨-, -, -, -, -, rfl⟩ := h
  exact hregion

/-- **The checks of `load_elf32`**. -/
theorem layout32_fits {vaddrBreak : Nat} {r : Request} {lay : Layout}
    (h : layout32 vaddrBreak r = some lay) : Fits vaddrBreak r lay := by
  obtain ⟨b, hregion, h⟩ := Option.bind_eq_some_iff.mp h
  obtain ⟨b1, hstdin, h⟩ := Option.bind_eq_some_iff.mp h
  obtain ⟨b2, hstdout, h⟩ := Option.bind_eq_some_iff.mp h
  obtain ⟨b3, hstderr, h⟩ := Option.bind_eq_some_iff.mp h
  obtain ⟨b4, hIB, h⟩ := Option.bind_eq_some_iff.mp h
  obtain ⟨b5, hOB, h⟩ := Option.bind_eq_some_iff.mp h
  simp only [failIf_bind, Option.some.injEq] at h
  obtain ⟨-, hspecial, -, -, h4g, rfl⟩ := h
  obtain ⟨s, hs⟩ := programRegion_spec hregion
  obtain ⟨hdvd, htwo, -⟩ := hs.two_pages
  obtain ⟨-, hle1, hdvd1⟩ := allocRegion_spec hstdin
  obtain ⟨-, hle2, hdvd2⟩ := allocRegion_spec hstdout
  obtain ⟨-, hle3, hdvd3⟩ := allocRegion_spec hstderr
  obtain ⟨-, hle4, hdvd4⟩ := allocRegion_spec hIB
  obtain ⟨heq, hle5, hdvd5⟩ := allocRegion_spec hOB
  have h1 := hdvd1 hdvd
  have h2 := hdvd2 h1
  have h3 := hdvd3 h2
  have h4 := hdvd4 h3
  exact ⟨hdvd, h1, h2, h3, h4, hdvd5 h4, htwo, hle1, hle2, hle3, hle4, hle5, heq.symm,
    Nat.le_of_not_lt hspecial, Nat.le_of_not_lt h4g, fun p hp => hs.segment rfl hp⟩

/-! ## The end of the regions -/

/-- Where the regions of a request end: 0x8048000 plus the memory limit and the sizes of `stdin`, `stdout`,
    `stderr`, `IB` and `OB`, each rounded up to a page. -/
def Request.regionsEnd (r : Request) : Nat :=
  loadVaddrStart + roundUp r.config.memoryHardLimit pageSize + roundUp r.config.stdin.length pageSize +
    roundUp r.config.stdoutMaxSize pageSize + roundUp r.config.stderrMaxSize pageSize +
    roundUp r.config.IB.length pageSize + roundUp r.config.OB.length pageSize

/-- **`special_region_break`** of an accepted request is the plain sum. -/
theorem layout32_end {vaddrBreak : Nat} {r : Request} {lay : Layout}
    (h : layout32 vaddrBreak r = some lay) : lay.specialRegionBreak = r.regionsEnd := by
  obtain ⟨b, hregion, h⟩ := Option.bind_eq_some_iff.mp h
  obtain ⟨b1, hstdin, h⟩ := Option.bind_eq_some_iff.mp h
  obtain ⟨b2, hstdout, h⟩ := Option.bind_eq_some_iff.mp h
  obtain ⟨b3, hstderr, h⟩ := Option.bind_eq_some_iff.mp h
  obtain ⟨b4, hIB, h⟩ := Option.bind_eq_some_iff.mp h
  obtain ⟨b5, hOB, h⟩ := Option.bind_eq_some_iff.mp h
  simp only [failIf_bind, Option.some.injEq] at h
  obtain ⟨-, -, -, -, -, rfl⟩ := h
  obtain ⟨s, hs⟩ := programRegion_spec hregion
  -- the limit is rounded up to less than 2^64, and the sum with the start is checked
  have hbreak : b = u64 (loadVaddrStart + roundUp r.config.memoryHardLimit pageSize) := hs.break_eq
  have hwrap : loadVaddrStart ≤ b := hs.no_wrap
  have hlimit := (roundUp_spec r.config.memoryHardLimit).2
  have hb : b = loadVaddrStart + roundUp r.config.memoryHardLimit pageSize ∧ b < 2 ^ 64 := by
    rw [loadVaddrStart_eq, u64] at *
    omega
  obtain ⟨h1, hlt1⟩ := allocRegion_eq hstdin hb.2
  obtain ⟨h2, hlt2⟩ := allocRegion_eq hstdout hlt1
  obtain ⟨h3, hlt3⟩ := allocRegion_eq hstderr hlt2
  obtain ⟨h4, hlt4⟩ := allocRegion_eq hIB hlt3
  obtain ⟨h5, -⟩ := allocRegion_eq hOB hlt4
  rw [h5, h4, h3, h2, h1, hb.1, Request.regionsEnd]

end JudgeDuck.Elf
