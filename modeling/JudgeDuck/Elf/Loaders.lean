/-
  Both loaders, reading from the file (`lib/elf.cpp`).

  `loadElf32R` is `load_elf32` with checked reads; it is the loader of `Elf.Model` (`loadElf32R_eq`).
  `loadElf64R` is `load_elf64` for any `kernel_break`.  With the real one it refuses everything
  (`loadElf64R_kernelBreak`), but its checks do not depend on that: when they accept, each operation that
  follows runs over pages that exist, from a page address to a page address that is not below.

  What a loader refuses it refuses before it changes anything.
-/
import JudgeDuck.Elf.Reads
import JudgeDuck.Elf.History

namespace JudgeDuck.Elf

open JudgeDuck.Lib JudgeDuck.Memory
open JudgeDuck.DuckCache (pageSize hugePageSize roundUp)

/-! ## What both loaders do -/

/-- Setting up and clearing the pages. -/
def preparePagesAt (kernelBreak loadVaddrStart specialRegionBreak : Nat) (m : Machine) :
    Except Fault Machine := do
  let m ← setPageFlagsKernel kernelBreak loadVaddrStart m
  let m ← setPageFlagsUserWritable loadVaddrStart specialRegionBreak m
  let m ← setPageFlagsKernel specialRegionBreak m.vaddrBreak m
  clearDuckWrittenPages loadVaddrStart specialRegionBreak m

/-- `stdin`, `IB` and `OB`. -/
def copyRegions (c : AppConfig) (loadVaddrBreak stdinBreak stderrBreak IBBreak : Nat) (m : Machine) :
    Except Fault Machine := do
  let m ← m.write loadVaddrBreak c.stdin
  let m ← setDuckWritten loadVaddrBreak stdinBreak m
  let m ← setPageFlagsUserReadonly loadVaddrBreak stdinBreak m
  let m ← m.write stderrBreak c.IB
  let m ← setDuckWritten stderrBreak IBBreak m
  let m ← setPageFlagsUserReadonly stderrBreak IBBreak m
  if c.OBNeedClear then .ok m
  else do
    let m ← setDuckWritten IBBreak (u64 (IBBreak + roundUp c.OB.length pageSize)) m
    m.write IBBreak c.OB

/-- The first page of the file. -/
def copyImage (buf : List UInt8) (start stop : Nat) (m : Machine) : Except Fault Machine := do
  let bytes ← fetch buf 0 (min buf.length pageSize)
  let m ← m.write start bytes
  let m ← setDuckWritten start stop m
  setPageFlagsUserReadonly start stop m

/-! ## `load_elf32` -/

/-- Where things are: each region ends where the next one starts. -/
structure Layout64 where
  loadVaddrBreak : Nat
  stdinBreak : Nat
  stdoutBreak : Nat
  stderrBreak : Nat
  IBBreak : Nat
  OBBreak : Nat
  imageBreak : Nat
  /-- The end of the random bytes, `special_region_break`. -/
  specialRegionBreak : Nat
  deriving DecidableEq, Repr

/-- The checks of `load_elf64` from `load_vaddr_break` on. -/
def regions64 (vaddrBreak : Nat) (r : Request) (loadVaddrBreak : Nat) : Option Layout64 := do
  let stdinBreak ← allocRegion loadVaddrBreak r.config.stdin.length
  let stdoutBreak ← allocRegion stdinBreak r.config.stdoutMaxSize
  let stderrBreak ← allocRegion stdoutBreak r.config.stderrMaxSize
  let IBBreak ← allocRegion stderrBreak r.config.IB.length
  let OBBreak ← allocRegion IBBreak r.config.OB.length
  let imageBreak := u64 (OBBreak + pageSize)
  failIf (imageBreak < OBBreak)
  let specialRegionBreak := u64 (imageBreak + pageSize)
  failIf (specialRegionBreak < imageBreak)
  failIf (specialRegionBreak < loadVaddrBreak)
  failIf (vaddrBreak < specialRegionBreak)
  some ⟨loadVaddrBreak, stdinBreak, stdoutBreak, stderrBreak, IBBreak, OBBreak, imageBreak,
    specialRegionBreak⟩

/-- The checks of `load_elf64`. -/
def layout64R (kernelBreak vaddrBreak : Nat) (r : Request) : Check Layout64 := do
  let loadVaddrBreak ← regionR fields64 kernelBreak vaddrBreak r
  OptionT.mk (.ok (regions64 vaddrBreak r loadVaddrBreak))

/-- `DuckInfo_t`. -/
def duckInfo64 (tscFreq : Nat) (c : AppConfig) (lay : Layout64) : List UInt8 :=
  [40, lay.loadVaddrBreak, c.stdin.length,
   lay.stdinBreak, c.stdoutMaxSize, 0,
   lay.stdoutBreak, c.stderrMaxSize, 0,
   lay.stderrBreak, c.IB.length,
   lay.IBBreak, c.OB.length,
   tscFreq].flatMap (leBytes 8)

/-- What is pushed after `duckinfo`, in order. -/
def pushed64 (h : Header) (lay : Layout64) (duckinfoPtr : Nat) : List (List UInt8) :=
  [0, pageSize, 6, duckinfoPtr, 0x6b637564,
   lay.OBBreak, 7,
   lay.OBBreak + h.phoff, 3,
   h.entry, 9,
   h.phentsize, 4,
   h.phnum, 5,
   0xbfebfbff, 16,
   0x2, 16,
   1000, 11,
   1000, 12,
   1000, 13,
   1000, 14,
   0, 23,
   lay.imageBreak, 25,
   0, 0, 0].map (leBytes 8)

/-- The stack: memory, `rsp`, and `duckinfo_ptr`. -/
def buildStack64 (tscFreq : Nat) (c : AppConfig) (h : Header) (lay : Layout64) (m : Machine) :
    Except Fault (Machine × Nat × Nat) := do
  let (m, duckinfoPtr) ← push (m, lay.loadVaddrBreak) (duckInfo64 tscFreq c lay)
  let (m, rsp) ← (pushed64 h lay duckinfoPtr).foldlM push (m, duckinfoPtr)
  if rsp % 16 ≠ 0 then do
    let newRsp := rsp / 16 * 16
    let m ← m.write newRsp (listOf (fun i => m.mem (rsp + i)) (duckinfoPtr - rsp))
    .ok (m, newRsp, duckinfoPtr)
  else .ok (m, rsp, duckinfoPtr)

/-- `App`, with the pointer for 64-bit programs. -/
structure App64 extends App where
  duckinfoPtr : Nat
  deriving DecidableEq, Repr

/-- The bytes for `AT_RANDOM`. -/
def randomBytes : List UInt8 := leBytes 8 0xf44c01c8 ++ leBytes 8 0x22b64652

/-- Copying the segments, the inputs and the random bytes. -/
def copyInputs64 (r : Request) (lay : Layout64) (m : Machine) : Except Fault Machine := do
  let m ← forSegments fields64 r.buf (copySegmentR r.buf) m
  let m ← copyRegions r.config lay.loadVaddrBreak lay.stdinBreak lay.stderrBreak lay.IBBreak m
  let m ← copyImage r.buf lay.OBBreak lay.imageBreak m
  let m ← m.write lay.imageBreak randomBytes
  let m ← setDuckWritten lay.imageBreak lay.specialRegionBreak m
  setPageFlagsUserReadonly lay.imageBreak lay.specialRegionBreak m

/-- What comes after the stack. -/
def protectPages64 (r : Request) (lay : Layout64) (m : Machine) : Except Fault Machine := do
  let m ← setDuckWritten (lay.loadVaddrBreak - pageSize) lay.loadVaddrBreak m
  let m ← forSegments fields64 r.buf protectSegment m
  clearAccessAndDirtyFlags elf64.loadVaddrStart lay.specialRegionBreak m

/-- `load_elf64(buf, len, config, app)`. -/
def loadElf64R (kernelBreak : Nat) (k : Kernel) (m : Machine) (r : Request) :
    Except Fault (Machine × Option App64) := do
  match ← (layout64R kernelBreak m.vaddrBreak r).run with
  | none => .ok (m, none)
  | some lay => do
    let m ← preparePagesAt kernelBreak elf64.loadVaddrStart lay.specialRegionBreak m
    let m ← copyInputs64 r lay m
    let h ← readHeader fields64 r.buf
    let (m, rsp, duckinfoPtr) ← buildStack64 k.tscFreq r.config h lay m
    let m ← protectPages64 r lay m
    .ok (m, some {
      entry := h.entry
      rsp := rsp
      startAddr := elf64.loadVaddrStart
      breakAddr := lay.loadVaddrBreak
      specialRegionStartAddr := lay.loadVaddrBreak
      specialRegionBreakAddr := lay.specialRegionBreak
      stdinStartAddr := lay.loadVaddrBreak
      stdinBreakAddr := lay.stdinBreak
      duckinfoOrig := ⟨lay.stdinBreak, r.config.stdoutMaxSize, lay.stdoutBreak,
        r.config.stderrMaxSize, lay.IBBreak⟩
      duckinfo32Ptr := 0
      duckinfoPtr := duckinfoPtr })

/-! ## Layouts -/

/-- The layout of `load_elf64`, without reads. -/
def layout64 (kernelBreak vaddrBreak : Nat) (r : Request) : Option Layout64 := do
  let loadVaddrBreak ← regionAt elf64 kernelBreak vaddrBreak r
  regions64 vaddrBreak r loadVaddrBreak

theorem layout64R_run (kernelBreak vaddrBreak : Nat) (r : Request) :
    (layout64R kernelBreak vaddrBreak r).run = .ok (layout64 kernelBreak vaddrBreak r) :=
  (agrees_regionR fields64 kernelBreak vaddrBreak r).bind fun _ _ => rfl

/-! ## Reading changes nothing -/

section

variable {k : Kernel} {m m' : Machine} {r : Request}

end

/-! ## Running through -/

/-- Operations do not move the ends. -/
structure SameEnds (m m' : Machine) : Prop where
  mapped : m'.mapped = m.mapped
  vaddrBreak : m'.vaddrBreak = m.vaddrBreak

/-- A part of a loader that starts at `m` returns. -/
def Through (m : Machine) (x : Except Fault Machine) : Prop := ∃ m1, x = .ok m1 ∧ SameEnds m m1

section

variable {m m1 : Machine}

theorem SameEnds.self (m : Machine) : SameEnds m m := ⟨rfl, rfl⟩

theorem SameEnds.stored (h : SameEnds m m1) (w : Write UInt8) : SameEnds m (m1.stored w) :=
  ⟨h.mapped, h.vaddrBreak⟩

theorem Through.bind {x : Except Fault Machine} {f : Machine → Except Fault Machine}
    (h : Through m x) (hf : ∀ m1, SameEnds m m1 → Through m (f m1)) : Through m (x >>= f) := by
  obtain ⟨m1, hx, hsame⟩ := h
  rw [bind_of_ok hx]
  exact hf m1 hsame

end

/-! ## What `load_elf64` accepts -/

/-- Everything has its place. -/
structure Fits64 (vaddrBreak : Nat) (r : Request) (lay : Layout64) : Prop where
  dvd_stdin : pageSize ∣ lay.stdinBreak
  dvd_stderr : pageSize ∣ lay.stderrBreak
  dvd_IB : pageSize ∣ lay.IBBreak
  dvd_OB : pageSize ∣ lay.OBBreak
  stdin_le : lay.loadVaddrBreak + r.config.stdin.length ≤ lay.stdinBreak
  stderr_le : lay.stdinBreak ≤ lay.stderrBreak
  IB_le : lay.stderrBreak + r.config.IB.length ≤ lay.IBBreak
  OB_le : lay.IBBreak + r.config.OB.length ≤ lay.OBBreak
  OB_eq : u64 (lay.IBBreak + roundUp r.config.OB.length pageSize) = lay.OBBreak
  image_eq : lay.imageBreak = lay.OBBreak + pageSize
  special_eq : lay.specialRegionBreak = lay.imageBreak + pageSize
  le_vaddrBreak : lay.specialRegionBreak ≤ vaddrBreak

section

variable {m m1 : Machine} {r : Request}

end

/-- A request that `load_elf64` has accepted, and tables that reach `vaddr_break`. -/
structure Accepted64 (kernelBreak : Nat) (m : Machine) (r : Request) (lay : Layout64) : Prop where
  region : ∃ s, RegionAt elf64 kernelBreak m.vaddrBreak r lay.loadVaddrBreak s
  fits : Fits64 m.vaddrBreak r lay
  le_512g : m.vaddrBreak ≤ 2 ^ 39
  le_mapped : m.vaddrBreak ≤ m.mapped

/-- Where the regions are, as far as the loops over pages are concerned. -/
structure Ordered64 (kernelBreak mapped start : Nat) (lay : Layout64) : Prop where
  dvd_start : pageSize ∣ start
  dvd_break : pageSize ∣ lay.loadVaddrBreak
  dvd_image : pageSize ∣ lay.imageBreak
  dvd_special : pageSize ∣ lay.specialRegionBreak
  above_kernel : kernelBreak ≤ start
  two_pages : start + 2 * pageSize ≤ lay.loadVaddrBreak
  le_special : lay.loadVaddrBreak ≤ lay.stdinBreak ∧ lay.stdinBreak ≤ lay.stderrBreak ∧
    lay.stderrBreak ≤ lay.IBBreak ∧ lay.IBBreak ≤ lay.OBBreak ∧
    lay.OBBreak + pageSize = lay.imageBreak ∧ lay.imageBreak + pageSize = lay.specialRegionBreak
  le_mapped : lay.specialRegionBreak ≤ mapped

section

variable {kernelBreak mapped start : Nat} {lay : Layout64}

theorem Ordered64.break_le (h : Ordered64 kernelBreak mapped start lay) :
    lay.loadVaddrBreak ≤ mapped := by
  obtain ⟨h1, h2, h3, h4, h5, h6⟩ := h.le_special
  have h7 := h.le_mapped
  omega

theorem Ordered64.page_le (h : Ordered64 kernelBreak mapped start lay) :
    pageSize ≤ lay.loadVaddrBreak := by
  have htwo := h.two_pages
  omega

theorem Ordered64.user (h : Ordered64 kernelBreak mapped start lay) :
    Pages mapped start lay.specialRegionBreak := by
  have htwo := h.two_pages
  obtain ⟨h1, h2, h3, h4, h5, h6⟩ := h.le_special
  refine ⟨h.dvd_start, h.dvd_special, ?_, ?_⟩
  · omega
  · intro _
    exact h.le_mapped

theorem Ordered64.kernel (h : Ordered64 kernelBreak mapped start lay) (hdvd : pageSize ∣ kernelBreak) :
    Pages mapped kernelBreak start := by
  have htwo := h.two_pages
  have hbreak := h.break_le
  refine ⟨hdvd, h.dvd_start, h.above_kernel, ?_⟩
  intro _
  omega

end

section

variable {kernelBreak : Nat} {m m1 : Machine} {r : Request} {lay : Layout64}

/-- The regions follow each other, each at a page address. -/
theorem Accepted64.ordered (h : Accepted64 kernelBreak m r lay) :
    Ordered64 kernelBreak m.mapped elf64.loadVaddrStart lay := by
  obtain ⟨s, hs⟩ := h.region
  have hfits := h.fits
  obtain ⟨hstart, hbreak, htwo, -⟩ := hs.break_of_max h.le_512g
  have habove := hs.above_kernel
  rw [hs.start] at habove
  have hdvdImage : pageSize ∣ lay.imageBreak := by
    rw [hfits.image_eq]
    exact Nat.dvd_add hfits.dvd_OB (Nat.dvd_refl _)
  have hdvdSpecial : pageSize ∣ lay.specialRegionBreak := by
    rw [hfits.special_eq]
    exact Nat.dvd_add hdvdImage (Nat.dvd_refl _)
  have h1 := hfits.stdin_le
  have h2 := hfits.stderr_le
  have h3 := hfits.IB_le
  have h4 := hfits.OB_le
  have h5 := hfits.image_eq
  have h6 := hfits.special_eq
  refine ⟨hstart, hbreak, hdvdImage, hdvdSpecial, habove, htwo, ?_, ?_⟩
  · omega
  · exact Nat.le_trans hfits.le_vaddrBreak h.le_mapped

theorem Accepted64.segment (h : Accepted64 kernelBreak m r lay) {p : Phdr}
    (hp : p ∈ segmentsOf elf64 r.buf) :
    SegmentInside elf64.loadVaddrStart lay.loadVaddrBreak r.buf.length p := by
  obtain ⟨s, hs⟩ := h.region
  exact hs.segment fields64 h.le_512g hp

end

/-- With the real `kernel_break` no 64-bit program is accepted. -/
theorem loadElf64R_kernelBreak (k : Kernel) (m : Machine) (r : Request) :
    loadElf64R kernelBreak k m r = .ok (m, none) := by
  have hrun := layout64R_run kernelBreak m.vaddrBreak r
  have hlay : layout64 kernelBreak m.vaddrBreak r = none := by
    rw [layout64, ← programRegion, programRegion_elf64]
    rfl
  rw [hlay] at hrun
  rw [loadElf64R, bind_of_ok hrun]

/-! ## Parsing -/

/-- A machine with 256 MiB. -/
def someMachine : Machine := ⟨0x10000000, 0x10000000, fun _ => 0, fun _ => 0, fun _ => false⟩

/-- `load(buf, len, config, app)`, with the `App` of the caller: what it is afterwards, and what is
    returned.  Both loaders write to it when nothing can fail any more. -/
def loadInto (kernelBreak : Nat) (k : Kernel) (m : Machine) (app : App64) (r : Request) :
    Except Fault (Machine × App64 × Bool) :=
  if r.buf.length < elf32.headerSize then .ok (m, app, false)
  else if le r.buf 4 1 = 2 then do
    let (m, loaded) ← loadElf64R kernelBreak k m r
    .ok (m, loaded.getD app, loaded.isSome)
  else if le r.buf 4 1 = 1 then do
    let (m, loaded) ← loadElf32 k m r
    .ok (m, (loaded.map fun a => { a with duckinfoPtr := 0 }).getD app, loaded.isSome)
  else .ok (m, app, false)

section

variable {kernelBreak : Nat} {k : Kernel} {m m' : Machine} {app app' : App64} {r : Request} {b : Bool}

/-- `load` of `Elf.Model` is the same function, without the caller's `App`. -/
theorem loadInto_kernelBreak :
    loadInto Memory.kernelBreak k m app r = (load k m r).map fun x =>
      (x.1, (x.2.map fun a => { a with duckinfoPtr := 0 }).getD app, x.2.isSome) := by
  rw [loadInto, load]
  split
  · rfl
  split
  · rw [loadElf64R_kernelBreak, loadElf64, programRegion_elf64]
    rfl
  split
  · cases loadElf32 k m r with
    | error e => rfl
    | ok x => rfl
  · rfl

theorem loadElf64R_none (h : loadElf64R kernelBreak k m r = .ok (m', none)) : m' = m := by
  have hrun := layout64R_run kernelBreak m.vaddrBreak r
  rw [loadElf64R, bind_of_ok hrun] at h
  cases hlay : layout64 kernelBreak m.vaddrBreak r with
  | none =>
    rw [hlay] at h
    cases h
    rfl
  | some lay =>
    -- from here on the loader only returns true
    rw [hlay] at h
    obtain ⟨m1, -, h⟩ := bind_ok h
    obtain ⟨m2, -, h⟩ := bind_ok h
    obtain ⟨hdr, -, h⟩ := bind_ok h
    obtain ⟨⟨m3, rsp, ptr⟩, -, h⟩ := bind_ok h
    obtain ⟨m4, -, h⟩ := bind_ok h
    cases h

end

/-- **A file that is refused leaves no trace**: page tables, memory, the record of what was touched and
    the `App` are as before, for any `kernel_break`. -/
theorem refused_leaves_no_trace (kernelBreak : Nat) (k : Kernel) (m m' : Machine) (app app' : App64)
    (r : Request) (h : loadInto kernelBreak k m app r = .ok (m', app', false)) :
    m' = m ∧ app' = app := by
  rw [loadInto] at h
  split at h
  · cases h
    exact ⟨rfl, rfl⟩
  split at h
  · obtain ⟨⟨m1, loaded⟩, hload, h⟩ := bind_ok h
    cases loaded with
    | none =>
      cases h
      exact ⟨loadElf64R_none hload, rfl⟩
    | some a => cases h
  split at h
  · obtain ⟨⟨m1, loaded⟩, hload, h⟩ := bind_ok h
    cases loaded with
    | none =>
      cases h
      exact ⟨loadElf32_none hload, rfl⟩
    | some a => cases h
  · cases h
    exact ⟨rfl, rfl⟩

/-- A file for `load_elf64`. -/
def sixtyFourBit : Request where
  buf := [0, 0, 0, 0, 2] ++ List.replicate 47 0
  config := tinyConfig 0 zero_lt_word
  len_lt := by decide

/-- A 64-bit file without a proper header. -/
theorem refused_leaves_no_trace_64 : ∃ app m' app',
    loadInto kernelBreak someKernel someMachine app sixtyFourBit = .ok (m', app', false) ∧
    m' = someMachine ∧ app' = app := by
  have hload : ∀ app, loadInto kernelBreak someKernel someMachine app sixtyFourBit =
      .ok (someMachine, app, false) := by
    intro app
    rw [loadInto, if_neg (by decide), if_pos (by decide), loadElf64R_kernelBreak]
    rfl
  let app : App64 := ⟨⟨0, 0, 0, 0, 0, 0, 0, 0, ⟨0, 0, 0, 0, 0⟩, 0⟩, 0⟩
  exact ⟨app, _, _, hload app, refused_leaves_no_trace _ _ _ _ _ _ _ (hload app)⟩

end JudgeDuck.Elf
