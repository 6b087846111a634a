/-
  What the boot loader tells the kernel (`lib/multiboot2_loader.cpp`).

  The boot loader leaves a list of tags in memory.  The kernel reads two of them: the memory map,
  whose free 2 MiB pages it registers, and the command line, which it copies into a static buffer.

  Memory is a function from addresses to bytes.  The loops are bounded by `2 ^ 64` turns: each is a
  function of a 64-bit pointer, so one that goes on for longer does not end.

  Left out: the messages to the log.
-/
import JudgeDuck.Memory.Boot

namespace JudgeDuck.Multiboot

open JudgeDuck.Lib
open JudgeDuck.DuckCache (hugePageSize roundUp)
open JudgeDuck.Memory (Boot registerAvailableHugePage)

/-- `Utils::round_down(x, r)`. -/
def roundDown (x r : Nat) : Nat := x / r * r

/-- Where the kernel ends.  It is linked from 1 MiB on and entered by 32-bit code. -/
structure Image where
  ebss : Nat
  ebss_lt : ebss < 2 ^ 32

/-- `n` bytes at `a`, as a number. -/
def word (mem : Nat → UInt8) (a n : Nat) : Nat :=
  (List.range n).foldr (fun i x => (mem (a + i)).toNat + 256 * x) 0

/-! ## `load_mmap` -/

/-- `MULTIBOOT_MEMORY_AVAILABLE`. -/
def memoryAvailable : Nat := 1

/-- `offsetof(multiboot_tag_mmap, entries)`. -/
def offEntries : Nat := 16

/-- `multiboot_memory_map_t`, without `zero`. -/
structure MmapEntry where
  addr : Nat
  len : Nat
  type : Nat
deriving DecidableEq

/-- The entry at `e`. -/
def mmapEntry (mem : Nat → UInt8) (e : Nat) : MmapEntry :=
  ⟨word mem e 8, word mem (e + 8) 8, word mem (e + 16) 4⟩

/-- `tag->size`. -/
def tagSize (mem : Nat → UInt8) (tag : Nat) : Nat := word mem (tag + 4) 4

/-- `mmap->entry_size`. -/
def entrySize (mem : Nat → UInt8) (mmap : Nat) : Nat := word mem (mmap + 8) 4

/-- A turn of the loop over the pages of an entry; the state is `va` and the variables of `memory.cpp`. -/
def pageTurn (p : Nat × Boot) : Except Fault (Nat × Boot) := do
  let s ← registerAvailableHugePage p.2 p.1
  .ok (u64 (p.1 + hugePageSize), s)

/-- `for (va = start; va < end; va += HUGE_PAGE_SIZE) register_available_huge_page(va)`. -/
def registerRange (start stop : Nat) (s : Boot) : Except Fault Boot := do
  let (_, s) ← whileM (fun p : Nat × Boot => decide (p.1 < stop)) pageTurn (2 ^ 64) (start, s)
  .ok s

/-- What is done with an entry. -/
def loadEntry (img : Image) (e : MmapEntry) (s : Boot) : Except Fault Boot :=
  if e.type = memoryAvailable then
    let start := roundUp e.addr hugePageSize
    let stop := roundDown (u64 (e.addr + e.len)) hugePageSize
    let start := if start < img.ebss then roundUp img.ebss hugePageSize else start
    registerRange start stop s
  else .ok s

/-- A turn of the loop of `load_mmap`; the state is `e` and the variables of `memory.cpp`. -/
def entryTurn (img : Image) (mem : Nat → UInt8) (mmap : Nat) (p : Nat × Boot) :
    Except Fault (Nat × Boot) := do
  let s ← loadEntry img (mmapEntry mem p.1) p.2
  .ok (u64 (p.1 + entrySize mem mmap), s)

/-- `load_mmap(mmap)`. -/
def loadMmap (img : Image) (mem : Nat → UInt8) (mmap : Nat) (s : Boot) : Except Fault Boot := do
  let (_, s) ← whileM (fun p : Nat × Boot => p.1 != u64 (mmap + tagSize mem mmap)) (entryTurn img mem mmap)
    (2 ^ 64) (u64 (mmap + offEntries), s)
  .ok s

/-! ## `load` -/

/-- `MAX_LENGTH`. -/
def maxLength : Nat := 256

/-- `MULTIBOOT_TAG_TYPE_END`. -/
def tagTypeEnd : Nat := 0

/-- `MULTIBOOT_TAG_TYPE_CMDLINE`. -/
def tagTypeCmdline : Nat := 1

/-- `MULTIBOOT_TAG_TYPE_MMAP`. -/
def tagTypeMmap : Nat := 6

/-- `strncpy(dest, src, n)`: the string, without its end where it is longer, and zeros after it. -/
def strncpy (mem : Nat → UInt8) (dest : List UInt8) (src n : Nat) : List UInt8 :=
  let string := ((List.range n).map fun i => mem (src + i)).takeWhile (· != 0)
  string ++ List.replicate (n - string.length) 0 ++ dest.drop n

/-- What `load` writes: the variables of `memory.cpp` and `_command_line`. -/
structure Loader where
  boot : Boot
  commandLine : List UInt8

/-- The variables at the start. -/
def Loader.bss (words : Nat → BitVec 64) : Loader where
  boot := Boot.bss words
  commandLine := List.replicate maxLength 0

/-- The `switch` of `load`. -/
def loadTag (img : Image) (mem : Nat → UInt8) (tag : Nat) (l : Loader) : Except Fault Loader :=
  let type := word mem tag 4
  if type = tagTypeMmap then do
    let boot ← loadMmap img mem tag l.boot
    .ok { l with boot := boot }
  else if type = tagTypeCmdline then
    .ok { l with commandLine := strncpy mem l.commandLine (tag + 8) (maxLength - 1) }
  else .ok l

/-- A turn of the loop of `load`; the state is `tag` and what `load` writes. -/
def tagTurn (img : Image) (mem : Nat → UInt8) (p : Nat × Loader) : Except Fault (Nat × Loader) := do
  let l ← loadTag img mem p.1 p.2
  .ok (u64 (p.1 + u32 (tagSize mem p.1 + 7) / 8 * 8), l)

/-- `load()`. -/
def load (img : Image) (mem : Nat → UInt8) (multibootAddr : Nat) (l : Loader) :
    Except Fault Loader := do
  let (_, l) ← whileM (fun p : Nat × Loader => word mem p.1 4 != tagTypeEnd) (tagTurn img mem)
    (2 ^ 64) (multibootAddr + 8, l)
  .ok l

end JudgeDuck.Multiboot
