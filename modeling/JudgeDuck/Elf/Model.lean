/-
  Loading and running user programs (`lib/elf.cpp`).

  A loader first checks the file and lays out memory; if anything is wrong it returns `false`, and
  nothing has changed.  Then it resets the flags of the pages, clears the pages marked with
  `PTE_DUCK_WRITTEN`, copies the segments and the inputs, builds the stack and sets the flags of the
  segments.  A program runs on the pages it may write; `run` then marks the pages it has made dirty.

  The two loaders begin in the same way (`programRegion`).  `load_elf64` asks for a program at
  0x400000 after it has refused everything below `kernel_break`, so what follows there is never
  reached (`programRegion_elf64`); it is a field of `Kernel`.

  The pointers of a request lead to memory that a load does not change, so a request carries bytes.
  Processor counters and what a program does are given (`Behaviour`).  `PTE_ACCESSED` and `PTE_DIRTY`
  are set for the program's own accesses only: the loader clears them after its last write.
  Left out: log messages.
-/
import JudgeDuck.Memory.Flags
import JudgeDuck.Timer.Conversions

namespace JudgeDuck.Elf

open JudgeDuck.Lib JudgeDuck.Memory
open JudgeDuck.DuckCache (pageSize hugePageSize roundUp)

/-! ## Requests -/

/-- `AppConfig`, with the bytes that its pointers lead to. -/
structure AppConfig where
  memoryHardLimit : Nat
  stdin : List UInt8
  stdoutMaxSize : Nat
  stderrMaxSize : Nat
  IB : List UInt8
  OB : List UInt8
  OBNeedClear : Bool
  memoryHardLimit_lt : memoryHardLimit < 2 ^ 64
  stdin_lt : stdin.length < 2 ^ 64
  stdoutMaxSize_lt : stdoutMaxSize < 2 ^ 64
  stderrMaxSize_lt : stderrMaxSize < 2 ^ 64
  IB_lt : IB.length < 2 ^ 64
  OB_lt : OB.length < 2 ^ 64

/-- What `load` is called with: the file, and the configuration. -/
structure Request where
  buf : List UInt8
  config : AppConfig
  len_lt : buf.length < 2 ^ 32

/-! ## Files -/

/-- `n` bytes at `off`, as a number. -/
def le (buf : List UInt8) (off n : Nat) : Nat :=
  (List.range n).foldr (fun i x => (buf.getD (off + i) 0).toNat + 256 * x) 0

/-- The bytes of a number. -/
def leBytes (n x : Nat) : List UInt8 := (List.range n).map fun i => UInt8.ofNat (x / 256 ^ i)

/-- The fields of a file header that are used. -/
structure Header where
  entry : Nat
  phoff : Nat
  phentsize : Nat
  phnum : Nat
  deriving DecidableEq, Repr

/-- The fields of a program header that are used. -/
structure Phdr where
  type : Nat
  offset : Nat
  vaddr : Nat
  filesz : Nat
  memsz : Nat
  flags : Nat
  align : Nat
  deriving DecidableEq, Repr

/-- What differs between the two loaders. -/
structure Format where
  headerSize : Nat
  elfClass : Nat
  machine : Nat
  header : List UInt8 → Header
  phdrSize : Nat
  phdr : List UInt8 → Nat → Phdr
  alignOk : Nat → Bool
  loadVaddrStart : Nat

/-- `Elf32_Ehdr`, `Elf32_Phdr` and the constants of `load_elf32`. -/
def elf32 : Format where
  headerSize := 52
  elfClass := 1
  machine := 3
  header := fun buf => ⟨le buf 24 4, le buf 28 4, le buf 42 2, le buf 44 2⟩
  phdrSize := 32
  phdr := fun buf off => ⟨le buf off 4, le buf (off + 4) 4, le buf (off + 8) 4, le buf (off + 16) 4,
    le buf (off + 20) 4, le buf (off + 24) 4, le buf (off + 28) 4⟩
  alignOk := fun align => align == pageSize
  loadVaddrStart := 0x8048000

/-- `Elf64_Ehdr`, `Elf64_Phdr` and the constants of `load_elf64`. -/
def elf64 : Format where
  headerSize := 64
  elfClass := 2
  machine := 62
  header := fun buf => ⟨le buf 24 8, le buf 32 8, le buf 54 2, le buf 56 2⟩
  phdrSize := 56
  phdr := fun buf off => ⟨le buf off 4, le buf (off + 8) 8, le buf (off + 16) 8, le buf (off + 32) 8,
    le buf (off + 40) 8, le buf (off + 4) 4, le buf (off + 48) 8⟩
  alignOk := fun align => align == pageSize || align == hugePageSize
  loadVaddrStart := 0x400000

/-! ## Checks -/

/-- `if (p) return false;`. -/
def failIf (p : Prop) [Decidable p] : Option Unit := if p then none else some ()

/-- The checks of the file header. -/
def checkHeader (fmt : Format) (buf : List UInt8) : Option Unit := do
  failIf (buf.length < fmt.headerSize)
  failIf (le buf 0 1 ≠ 0x7f)
  failIf (le buf 1 1 ≠ 0x45)
  failIf (le buf 2 1 ≠ 0x4c)
  failIf (le buf 3 1 ≠ 0x46)
  failIf (le buf 4 1 ≠ fmt.elfClass)
  failIf (le buf 5 1 ≠ 1)
  failIf (le buf 6 1 ≠ 1)
  failIf (le buf 7 1 ≠ 0 ∧ le buf 7 1 ≠ 3)
  failIf (le buf 16 2 ≠ 2)
  failIf (le buf 18 2 ≠ fmt.machine)
  failIf (le buf 20 4 ≠ 1)
  failIf (buf.length ≤ (fmt.header buf).phoff)
  failIf (buf.length ≤ (fmt.header buf).phentsize)
  failIf (buf.length ≤ (fmt.header buf).phnum)

/-- `e_phoff + i * e_phentsize`. -/
def phdrOffset (h : Header) (i : Nat) : Nat := u64 (h.phoff + i * h.phentsize)

/-- A turn of the loop over the program headers; the state is `min_vaddr` and `max_vaddr`. -/
def checkPhdr (fmt : Format) (buf : List UInt8) (s : Nat × Nat) (i : Nat) : Option (Nat × Nat) := do
  let off := phdrOffset (fmt.header buf) i
  failIf (buf.length < u64 (off + fmt.phdrSize))
  let p := fmt.phdr buf off
  if p.type ≠ 1 then some s
  else do
    failIf (p.filesz ≠ 0 ∧ (buf.length < p.offset ∨ buf.length < u64 (p.offset + p.filesz)))
    failIf (fmt.alignOk p.align = false)
    failIf (p.memsz < p.filesz)
    failIf (u64 (p.vaddr + p.memsz) < p.vaddr)
    some (min s.1 p.vaddr, max s.2 (u64 (p.vaddr + p.memsz)))

/-- From `min_vaddr` and `max_vaddr` to `load_vaddr_break`. -/
def regionBreak (fmt : Format) (kernelBreak vaddrBreak : Nat) (r : Request) (s : Nat × Nat) :
    Option Nat := do
  let minVaddr := s.1 / pageSize * pageSize
  let maxVaddr := roundUp s.2 pageSize
  failIf (minVaddr < kernelBreak)
  failIf (maxVaddr ≤ minVaddr ∨ vaddrBreak < maxVaddr)
  let memoryLimit := roundUp r.config.memoryHardLimit pageSize
  let memoryNeeded := maxVaddr - minVaddr
  failIf (memoryLimit < memoryNeeded)
  failIf (memoryLimit < u64 (memoryNeeded + pageSize))
  failIf (minVaddr ≠ fmt.loadVaddrStart)
  let loadVaddrBreak := u64 (fmt.loadVaddrStart + memoryLimit)
  failIf (loadVaddrBreak < fmt.loadVaddrStart)
  failIf (vaddrBreak < loadVaddrBreak)
  some loadVaddrBreak

/-- What both loaders check up to the end of the program region, for any `kernel_break`. -/
def regionAt (fmt : Format) (kernelBreak vaddrBreak : Nat) (r : Request) : Option Nat := do
  checkHeader fmt r.buf
  let s ← (List.range (fmt.header r.buf).phnum).foldlM (checkPhdr fmt r.buf) (2 ^ 64 - 1, 0)
  regionBreak fmt kernelBreak vaddrBreak r s

/-- The same with the kernel's: `load_vaddr_break`. -/
def programRegion (fmt : Format) (vaddrBreak : Nat) (r : Request) : Option Nat :=
  regionAt fmt kernelBreak vaddrBreak r

/-- The end of a region of `size` bytes that starts at `cur`. -/
def allocRegion (cur size : Nat) : Option Nat := do
  let allocSize := roundUp size pageSize
  failIf (allocSize < size)
  let loadBreak := u64 (cur + allocSize)
  failIf (loadBreak < cur)
  some loadBreak

/-- Where things are: each region ends where the next one starts. -/
structure Layout where
  loadVaddrBreak : Nat
  stdinBreak : Nat
  stdoutBreak : Nat
  stderrBreak : Nat
  IBBreak : Nat
  /-- The end of the last region, `special_region_break`. -/
  specialRegionBreak : Nat
  deriving DecidableEq, Repr

/-- The checks of `load_elf32` from `load_vaddr_break` on. -/
def regions32 (vaddrBreak : Nat) (r : Request) (loadVaddrBreak : Nat) : Option Layout := do
  let stdinBreak ← allocRegion loadVaddrBreak r.config.stdin.length
  let stdoutBreak ← allocRegion stdinBreak r.config.stdoutMaxSize
  let stderrBreak ← allocRegion stdoutBreak r.config.stderrMaxSize
  let IBBreak ← allocRegion stderrBreak r.config.IB.length
  let specialRegionBreak ← allocRegion IBBreak r.config.OB.length
  failIf (specialRegionBreak < loadVaddrBreak)
  failIf (vaddrBreak < specialRegionBreak)
  failIf (u64 (specialRegionBreak + pageSize) < specialRegionBreak)
  failIf (2 ^ 32 < elf32.loadVaddrStart)
  failIf (2 ^ 32 < specialRegionBreak)
  some ⟨loadVaddrBreak, stdinBreak, stdoutBreak, stderrBreak, IBBreak, specialRegionBreak⟩

/-- The checks of `load_elf32`. -/
def layout32 (vaddrBreak : Nat) (r : Request) : Option Layout := do
  let loadVaddrBreak ← programRegion elf32 vaddrBreak r
  regions32 vaddrBreak r loadVaddrBreak

/-! ## Loading -/

/-- The program headers with `PT_LOAD`, in order. -/
def segmentsOf (fmt : Format) (buf : List UInt8) : List Phdr :=
  ((List.range (fmt.header buf).phnum).map fun i =>
    fmt.phdr buf (phdrOffset (fmt.header buf) i)).filter fun p => p.type == 1

/-- Those of a 32-bit file. -/
def segments (buf : List UInt8) : List Phdr := segmentsOf elf32 buf

/-- A turn of the loop that copies. -/
def copySegment (buf : List UInt8) (m : Machine) (p : Phdr) : Except Fault Machine :=
  if p.filesz = 0 then .ok m
  else do
    let m ← m.write p.vaddr ((buf.drop p.offset).take p.filesz)
    setDuckWritten (p.vaddr / pageSize * pageSize) (roundUp (u64 (p.vaddr + p.filesz)) pageSize) m

/-- A turn of the loop that sets the flags. -/
def protectSegment (m : Machine) (p : Phdr) : Except Fault Machine := do
  let start := p.vaddr / pageSize * pageSize
  let stop := roundUp (u64 (p.vaddr + p.memsz)) pageSize
  let m ← setPageFlagsUserReadonly start stop m
  let m ← if p.flags &&& 1 ≠ 0 then addPageFlagsExecutable start stop m else .ok m
  if p.flags &&& 2 ≠ 0 then addPageFlagsWritable start stop m else .ok m

/-- `DuckInfo_t`, what `run` uses of it. -/
structure DuckInfo where
  stdoutPtr : Nat
  stdoutLimit : Nat
  stderrPtr : Nat
  stderrLimit : Nat
  OBPtr : Nat
  deriving DecidableEq, Repr

/-- `DuckInfo32_t`. -/
def duckInfo32 (tscFreq : Nat) (c : AppConfig) (lay : Layout) : List UInt8 :=
  leBytes 4 40 ++
  leBytes 4 lay.loadVaddrBreak ++ leBytes 4 c.stdin.length ++
  leBytes 4 lay.stdinBreak ++ leBytes 4 c.stdoutMaxSize ++ leBytes 4 0 ++
  leBytes 4 lay.stdoutBreak ++ leBytes 4 c.stderrMaxSize ++ leBytes 4 0 ++
  leBytes 4 lay.stderrBreak ++ leBytes 4 c.IB.length ++
  leBytes 4 lay.IBBreak ++ leBytes 4 c.OB.length ++
  leBytes 8 tscFreq

/-- What is pushed after `duckinfo32`, in order. -/
def pushed (h : Header) (lay : Layout) (duckinfo32Ptr : Nat) : List (List UInt8) :=
  [leBytes 4 0, leBytes 4 pageSize, leBytes 4 6, leBytes 4 duckinfo32Ptr, leBytes 4 0x6b637564,
   leBytes 8 lay.specialRegionBreak, leBytes 8 7,
   leBytes 8 (lay.specialRegionBreak + h.phoff), leBytes 8 3,
   leBytes 8 h.entry, leBytes 8 9,
   leBytes 8 h.phentsize, leBytes 8 4,
   leBytes 8 h.phnum, leBytes 8 5,
   leBytes 4 0, leBytes 4 0, leBytes 4 0]

/-- `push`, `pushl` and `pushq`; the state is memory and `esp`. -/
def push (s : Machine × Nat) (bytes : List UInt8) : Except Fault (Machine × Nat) := do
  let esp := s.2 - bytes.length
  let m ← s.1.write esp bytes
  .ok (m, esp)

/-- The stack: memory, `esp`, and `duckinfo32_ptr`. -/
def buildStack (tscFreq : Nat) (r : Request) (lay : Layout) (m : Machine) :
    Except Fault (Machine × Nat × Nat) := do
  let (m, duckinfo32Ptr) ← push (m, lay.loadVaddrBreak) (duckInfo32 tscFreq r.config lay)
  let (m, esp) ← (pushed (elf32.header r.buf) lay duckinfo32Ptr).foldlM push (m, duckinfo32Ptr)
  if esp % 16 ≠ 0 then do
    let newEsp := esp / 16 * 16
    let m ← m.write newEsp (listOf (fun i => m.mem (esp + i)) (duckinfo32Ptr - esp))
    .ok (m, newEsp, duckinfo32Ptr)
  else .ok (m, esp, duckinfo32Ptr)

/-- `App`. -/
structure App where
  entry : Nat
  rsp : Nat
  startAddr : Nat
  breakAddr : Nat
  specialRegionStartAddr : Nat
  specialRegionBreakAddr : Nat
  stdinStartAddr : Nat
  stdinBreakAddr : Nat
  duckinfoOrig : DuckInfo
  duckinfo32Ptr : Nat
  deriving DecidableEq, Repr

/-- Where programs are loaded. -/
def loadVaddrStart : Nat := elf32.loadVaddrStart

/-- `Timer::tsc_freq`, the frequency of the other clock, and what `load_elf64` does when it has found
    `load_vaddr_break`. -/
structure Kernel where
  tscFreq : Nat
  clkFreq : Nat
  restElf64 : Machine → Request → Nat → Except Fault (Machine × Option App)

/-- `load_elf32` after the checks: setting up and clearing the pages. -/
def preparePages (lay : Layout) (m : Machine) : Except Fault Machine := do
  let m ← setPageFlagsKernel kernelBreak loadVaddrStart m
  let m ← setPageFlagsUserWritable loadVaddrStart lay.specialRegionBreak m
  let m ← setPageFlagsKernel lay.specialRegionBreak m.vaddrBreak m
  clearDuckWrittenPages loadVaddrStart lay.specialRegionBreak m

/-- Copying the segments and the inputs. -/
def copyInputs (r : Request) (lay : Layout) (m : Machine) : Except Fault Machine := do
  let m ← (segments r.buf).foldlM (copySegment r.buf) m
  let m ← m.write lay.loadVaddrBreak r.config.stdin
  let m ← setDuckWritten lay.loadVaddrBreak lay.stdinBreak m
  let m ← setPageFlagsUserReadonly lay.loadVaddrBreak lay.stdinBreak m
  let m ← m.write lay.stderrBreak r.config.IB
  let m ← setDuckWritten lay.stderrBreak lay.IBBreak m
  let m ← setPageFlagsUserReadonly lay.stderrBreak lay.IBBreak m
  let m ← if r.config.OBNeedClear then .ok m
    else do
      let m ← setDuckWritten lay.IBBreak
        (u64 (lay.IBBreak + roundUp r.config.OB.length pageSize)) m
      m.write lay.IBBreak r.config.OB
  let m ← m.write lay.specialRegionBreak (r.buf.take (min r.buf.length pageSize))
  let m ← setDuckWritten lay.specialRegionBreak (u64 (lay.specialRegionBreak + pageSize)) m
  setPageFlagsUserReadonly lay.specialRegionBreak (u64 (lay.specialRegionBreak + pageSize)) m

/-- What comes after the stack. -/
def protectPages (r : Request) (lay : Layout) (m : Machine) : Except Fault Machine := do
  let m ← setDuckWritten (lay.loadVaddrBreak - pageSize) lay.loadVaddrBreak m
  let m ← (segments r.buf).foldlM protectSegment m
  clearAccessAndDirtyFlags loadVaddrStart lay.specialRegionBreak m

/-- `load_elf32(buf, len, config, app)`. -/
def loadElf32 (k : Kernel) (m : Machine) (r : Request) : Except Fault (Machine × Option App) :=
  match layout32 m.vaddrBreak r with
  | none => .ok (m, none)
  | some lay => do
    let m ← preparePages lay m
    let m ← copyInputs r lay m
    let (m, esp, duckinfo32Ptr) ← buildStack k.tscFreq r lay m
    let m ← protectPages r lay m
    .ok (m, some {
      entry := (elf32.header r.buf).entry
      rsp := esp
      startAddr := loadVaddrStart
      breakAddr := lay.loadVaddrBreak
      specialRegionStartAddr := lay.loadVaddrBreak
      specialRegionBreakAddr := lay.specialRegionBreak
      stdinStartAddr := lay.loadVaddrBreak
      stdinBreakAddr := lay.stdinBreak
      duckinfoOrig := ⟨lay.stdinBreak, r.config.stdoutMaxSize, lay.stdoutBreak,
        r.config.stderrMaxSize, lay.IBBreak⟩
      duckinfo32Ptr := duckinfo32Ptr })

/-- `load_elf64(buf, len, config, app)`. -/
def loadElf64 (k : Kernel) (m : Machine) (r : Request) : Except Fault (Machine × Option App) :=
  match programRegion elf64 m.vaddrBreak r with
  | none => .ok (m, none)
  | some loadVaddrBreak => k.restElf64 m r loadVaddrBreak

/-- `load(buf, len, config, app)`. -/
def load (k : Kernel) (m : Machine) (r : Request) : Except Fault (Machine × Option App) :=
  if r.buf.length < elf32.headerSize then .ok (m, none)
  else if le r.buf 4 1 = 2 then loadElf64 k m r
  else if le r.buf 4 1 = 1 then loadElf32 k m r
  else .ok (m, none)

/-! ## Running -/

/-- What happens between the entry to a program and its end: the pages that the program reads and
    writes, what it leaves in the latter, and the counters. -/
structure Behaviour where
  accessed : Nat → Bool
  dirty : Nat → Bool
  mem : Nat → UInt8
  countInst : Nat
  clkThread : Nat
  clkRefTsc : Nat
  timeTsc : Nat
  trapNum : Nat
  returnCode : Int
  trapEpc : Nat
  trapCr2 : Nat

/-- A program runs: it writes to the pages it may write, and the processor marks them. -/
def runUser (u : Behaviour) (m : Machine) : Machine :=
  { m with
    mem := fun a => if m.userWritable (a / pageSize) && u.dirty (a / pageSize) then u.mem a
      else m.mem a
    p1 := fun p =>
      let e := if u.accessed p && has (m.p1 p) pteUser then m.p1 p ||| pteAccessed else m.p1 p
      if m.userWritable p && u.dirty p then e ||| (pteAccessed ||| pteDirty) else e }

/-- `RunResult`. -/
structure RunResult where
  countInst : Nat
  clkThread : Nat
  clkRefTsc : Nat
  timeTsc : Nat
  timeNs : Nat
  timeNsRefTsc : Nat
  timeNsReal : Nat
  memoryBytes : Nat
  memoryKb : Nat
  memoryKbAccessed : Nat
  trapNum : Nat
  returnCode : Int
  trapEpc : Nat
  trapCr2 : Nat
  stdoutPtr : Nat
  stdoutSize : Nat
  stderrPtr : Nat
  stderrSize : Nat
  OBPtr : Nat

/-- A `uint32_t` in memory. -/
def read32 (m : Machine) (a : Nat) : Nat := le (listOf (fun i => m.mem (a + i)) 4) 0 4

/-- `run(app, time_limit_ns)` for a 32-bit program; `stdout_size` and `stderr_size` are the sixth and
    the ninth word of `DuckInfo32_t`. -/
def run (k : Kernel) (app : App) (u : Behaviour) (m : Machine) :
    Except Fault (Machine × RunResult) := do
  let m := runUser u m
  let m ← setDuckWrittenByDirty app.startAddr app.specialRegionBreakAddr m
  let dirty ← countDirtyPages app.startAddr app.specialRegionBreakAddr m
  let accessed ← countAccessedPages app.startAddr app.specialRegionBreakAddr m
  let accessedStdin ← countAccessedPages app.stdinStartAddr app.stdinBreakAddr m
  let memoryBytes := u64 (pageSize * dirty)
  .ok (m, {
    countInst := u.countInst
    clkThread := u.clkThread
    clkRefTsc := u.clkRefTsc
    timeTsc := u.timeTsc
    timeNs := (Timer.clkToNs (.ofNat k.clkFreq) (.ofNat u.clkThread)).toNat
    timeNsRefTsc := (Timer.tscToNs (.ofNat k.tscFreq) (.ofNat u.clkRefTsc)).toNat
    timeNsReal := (Timer.tscToNs (.ofNat k.tscFreq) (.ofNat u.timeTsc)).toNat
    memoryBytes := memoryBytes
    memoryKb := memoryBytes / 1024
    memoryKbAccessed := u64 (pageSize * (accessed - accessedStdin)) / 1024
    trapNum := u.trapNum
    returnCode := u.returnCode
    trapEpc := u.trapEpc
    trapCr2 := u.trapCr2
    stdoutPtr := app.duckinfoOrig.stdoutPtr
    stdoutSize := min app.duckinfoOrig.stdoutLimit (read32 m (app.duckinfo32Ptr + 20))
    stderrPtr := app.duckinfoOrig.stderrPtr
    stderrSize := min app.duckinfoOrig.stderrLimit (read32 m (app.duckinfo32Ptr + 32))
    OBPtr := app.duckinfoOrig.OBPtr })

/-! ## Histories -/

/-- A call. -/
inductive Event where
  | load (r : Request)
  | run (u : Behaviour)

/-- One call on the machine and an `App`; a load that fails leaves both as they are. -/
def step (k : Kernel) (s : Machine × Option App) : Event → Except Fault (Machine × Option App)
  | .load r => do
    let (m, app) ← load k s.1 r
    .ok (m, app.or s.2)
  | .run u =>
    match s.2 with
    | none => .ok s
    | some app => do
      let (m, _) ← run k app u s.1
      .ok (m, s.2)

/-- One call after the other. -/
def history (k : Kernel) (m : Machine) (evs : List Event) : Except Fault (Machine × Option App) :=
  evs.foldlM (step k) (m, none)

end JudgeDuck.Elf
