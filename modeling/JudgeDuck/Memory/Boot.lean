/-
  How the kernel builds its page tables (`lib/memory.cpp`, the part that runs once).

  The boot loader registers the 2 MiB pages of the machine.  `init_page_table_break` reserves the
  first of them for page tables, `page_table_alloc` hands out 4 KiB pages from there, and
  `init_page_table_4k` maps the kernel and then all registered pages above the reserved ones, one
  after the other, from `kernel_break` on.  `walk` is the processor's side: how it reads the tables.

  Physical memory is a function from the addresses of words.  While the tables are built the ones of
  `boot.asm` are in force, and the code reaches physical memory through their window at -1024 GiB.
  Their P3 has only 32 bits of each address, so the window shows the first 4 GiB again and again
  (`window`).  What it shows below `kernel_break` are the variables of the kernel, among them the ones
  of this model, so an access there is a fault here, as is one that the tables do not map.  `walk` has
  the new tables and no window.

  Addresses are below 2 ^ 40, so no sum of them wraps around; reading `huge_page_map` past its end is
  a fault.
-/
import JudgeDuck.Lib.Loop
import JudgeDuck.DuckCache.Model
import JudgeDuck.Memory.Entry

namespace JudgeDuck.Memory

open JudgeDuck.Lib
open JudgeDuck.DuckCache (pageSize hugePageSize roundUp)

/-- `P3_PAGE_SIZE`. -/
def p3PageSize : Nat := 2 ^ 30

/-- `MAX_MEMORY_SIZE`. -/
def maxMemorySize : Nat := 511 * 2 ^ 30

/-- `MAX_N_HUGE_PAGES`. -/
def maxNHugePages : Nat := maxMemorySize / hugePageSize

/-- `kernel_break`. -/
def kernelBreak : Nat := 16 * 2 ^ 20

/-- `PAGE_SIZE / 8`: the entries of a table. -/
def nEntries : Nat := pageSize / 8

/-- The variables of `memory.cpp`, and physical memory.  `tables` is not in the code: it lists what
    `page_table_alloc` has returned. -/
structure Boot where
  hugePageMap : Nat → Bool
  nHugePages : Nat
  nextPageTableAddress : Nat
  pageTableBreak : Nat
  vaddrBreak : Nat
  mem : Nat → BitVec 64
  tables : List Nat

/-- The variables at the start. -/
def Boot.bss (mem : Nat → BitVec 64) : Boot where
  hugePageMap := fun _ => false
  nHugePages := 0
  nextPageTableAddress := kernelBreak
  pageTableBreak := 0
  vaddrBreak := 0
  mem := mem
  tables := []

/-- `register_available_huge_page(addr)`. -/
def registerAvailableHugePage (s : Boot) (addr : Nat) : Except Fault Boot :=
  if addr % hugePageSize ≠ 0 then .error .assertion
  else if ¬ addr < maxMemorySize then .error .assertion
  else if addr < kernelBreak then .ok s
  else
    let pageNum := u32 (addr / hugePageSize)
    if s.hugePageMap pageNum then .ok s
    else .ok { s with
      hugePageMap := Function.update s.hugePageMap pageNum true
      nHugePages := s.nHugePages + 1 }

/-- The boot loader's calls. -/
def registerAll (mem : Nat → BitVec 64) (addrs : List Nat) : Except Fault Boot :=
  addrs.foldlM registerAvailableHugePage (Boot.bss mem)

/-! ## Indices -/

/-- `P4_index(vaddr)`. -/
def p4Index (vaddr : Nat) : Nat := (vaddr >>> 39) &&& (nEntries - 1)

/-- `P3_index(vaddr)`. -/
def p3Index (vaddr : Nat) : Nat := (vaddr >>> 30) &&& (nEntries - 1)

/-- `P2_index(vaddr)`. -/
def p2Index (vaddr : Nat) : Nat := (vaddr >>> 21) &&& (nEntries - 1)

/-- `P1_index(vaddr)`. -/
def p1Index (vaddr : Nat) : Nat := (vaddr >>> 12) &&& (nEntries - 1)

/-! ## The window -/

/-- `remap(addr)`: the address in the window through which `PTE` reads and writes. -/
def remap (addr : Nat) : Nat := u64 ((2 ^ 64 - 1024 * 2 ^ 30) + addr)

/-- The address in entry `i` of `p3_table` (`boot.asm`): `mul ecx` has the upper half of `1 GiB * i` in
    `edx`, and only `eax` is stored. -/
def bootP3 (i : Nat) : Nat := u32 (p3PageSize * i)

/-- Where the tables of `boot.asm` lead `vaddr`: entries 0 and 510 of `p4_table` are `p3_table`, whose
    entries are pages of 1 GiB; nothing else is present. -/
def bootTranslate (vaddr : Nat) : Option Nat :=
  if vaddr < 2 ^ 39 ∨ (2 ^ 64 - 2 ^ 40 ≤ vaddr ∧ vaddr < 2 ^ 64 - 2 ^ 39) then
    some (bootP3 (p3Index vaddr) + vaddr % p3PageSize)
  else none

/-- The physical address at `remap(addr)`. -/
def window (addr : Nat) : Nat := (bootTranslate (remap addr)).getD 0

/-- There is something at `remap(addr)`, and it is not the kernel's. -/
def reaches (addr : Nat) : Bool := (bootTranslate (remap addr)).any fun paddr => kernelBreak ≤ paddr

/-! ## Tables -/

/-- `while (!huge_page_map[next / HUGE_PAGE_SIZE]) next += HUGE_PAGE_SIZE`, with a bound on the
    number of tests. -/
def nextAvailable (hugePageMap : Nat → Bool) : Nat → Nat → Except Fault Nat
  | 0, _ => .error .diverges
  | fuel + 1, next =>
    if maxNHugePages ≤ next / hugePageSize then .error .bufferOverflow
    else if hugePageMap (next / hugePageSize) then .ok next
    else nextAvailable hugePageMap fuel (next + hugePageSize)

/-- `page_table_alloc()`. -/
def pageTableAlloc (s : Boot) : Except Fault (Boot × Nat) := do
  let ret ← nextAvailable s.hugePageMap (maxNHugePages + 1) s.nextPageTableAddress
  if ret + pageSize ≤ s.pageTableBreak then
    .ok ({ s with nextPageTableAddress := ret + pageSize, tables := s.tables ++ [ret] }, ret)
  else .error .assertion

/-- `memset(remap(t), 0, PAGE_SIZE)`. -/
def Boot.zeroPage (s : Boot) (t : Nat) : Boot :=
  { s with mem := fun a => if window t ≤ a ∧ a < window t + pageSize then 0#64 else s.mem a }

/-- `page_table_alloc_zeroed()`. -/
def pageTableAllocZeroed (s : Boot) : Except Fault (Boot × Nat) := do
  let (s, ret) ← pageTableAlloc s
  if reaches ret then .ok (s.zeroPage ret, ret) else .error .bufferOverflow

/-- `PTE(page_table_paddr, index)`, read. -/
def Boot.pte (s : Boot) (table index : Nat) : BitVec 64 := s.mem (window (table ||| (index * 8)))

/-- `PTE(page_table_paddr, index) = e`. -/
def Boot.setPte (s : Boot) (table index : Nat) (e : BitVec 64) : Boot :=
  { s with mem := Function.update s.mem (window (table ||| (index * 8))) e }

/-- `PTE_create(page_table_paddr, index, creation_flags)`, read. -/
def pteCreate (s : Boot) (table index : Nat) (creationFlags : BitVec 64) :
    Except Fault (Boot × BitVec 64) :=
  if !reaches table then .error .bufferOverflow
  else if s.pte table index = 0#64 then do
    let (s, t) ← pageTableAllocZeroed s
    .ok (s.setPte table index (entry t creationFlags), entry t creationFlags)
  else .ok (s, s.pte table index)

/-! ## Building them -/

/-- `page_table_size` in `init_page_table_break`. -/
def pageTableSize (nHugePages : Nat) : Nat :=
  let size := pageSize * 4
  let size := size + nHugePages * pageSize
  let size := size + roundUp (nHugePages * 8) pageSize
  let size := size + pageSize * 2
  roundUp size hugePageSize

/-- A turn of the loop of `init_page_table_break`: `cur_size`, and the break once it is found. -/
def breakStep (hugePageMap : Nat → Bool) (size i : Nat) (s : Nat × Option Nat) : Nat × Option Nat :=
  if s.2.isSome then s
  else if !hugePageMap i then s
  else
    let curSize := s.1 + hugePageSize
    (curSize, if size ≤ curSize then some ((i + 1) * hugePageSize) else none)

/-- `init_page_table_break()`. -/
def initPageTableBreak (s : Boot) : Boot :=
  let loop := forUp (breakStep s.hugePageMap (pageTableSize s.nHugePages)) s.nHugePages (0, none)
  { s with pageTableBreak := loop.2.getD s.pageTableBreak }

/-- The flags of the kernel's pages. -/
def kernelFlags : BitVec 64 := ptePresent ||| pteWritable ||| pteDirty ||| pteAccessed

/-- `flags` in `init_page_table_4k`. -/
def userFlags : BitVec 64 := ptePresent ||| pteWritable ||| pteUser ||| pteAccessed ||| pteDirty

/-- `for (j = 0; j < PAGE_SIZE / 8; j++) PTE(table, j) = f(j)`. -/
def Boot.fillTable (s : Boot) (table : Nat) (f : Nat → BitVec 64) : Boot :=
  forUp (fun j s => s.setPte table j (f j)) nEntries s

/-- The page `j` of the kernel's 2 MiB page `i`. -/
def kernelPage (i j : Nat) : BitVec 64 := entry (i * hugePageSize + j * pageSize) kernelFlags

/-- The page `j` of the 2 MiB page at `paddr`, as `init_page_table_4k` leaves it. -/
def userPage (paddr j : Nat) : BitVec 64 :=
  let e := entry (paddr + j * pageSize) userFlags
  let e := e &&& ~~~ pteUser
  e ||| pteDuckWritten

/-- A turn of the loop of `init_empty_kernel_page_table` over the kernel's 2 MiB pages. -/
def mapKernelPage (P2low i : Nat) (s : Boot) : Except Fault Boot := do
  let (s, P1) ← pageTableAllocZeroed s
  let s := s.setPte P2low i (entry P1 kernelFlags)
  .ok (s.fillTable P1 (kernelPage i))

/-- `init_empty_kernel_page_table()`. -/
def initEmptyKernelPageTable (s : Boot) : Except Fault (Boot × Nat) := do
  let (s, P4) ← pageTableAllocZeroed s
  let (s, P3high) ← pageTableAllocZeroed s
  let (s, P3low) ← pageTableAllocZeroed s
  let (s, P2low) ← pageTableAllocZeroed s
  let s := s.setPte P4 511 (entry P4 kernelFlags)
  let s := s.setPte P4 510 (entry P3high kernelFlags)
  let s := s.fillTable P3high fun i => entry (i * p3PageSize) (kernelFlags ||| pteHuge)
  let s := s.setPte P4 0 (entry P3low (kernelFlags ||| pteUser))
  let s := s.setPte P3low 0 (entry P2low (kernelFlags ||| pteUser))
  let s ← forUpM (mapKernelPage P2low) (kernelBreak / hugePageSize) s
  .ok (s, P4)

/-- A turn of the loop of `init_page_table_4k`; the state is the tables and `vaddr`. -/
def mapHugePage (P4 i : Nat) (s : Boot × Nat) : Except Fault (Boot × Nat) :=
  if !s.1.hugePageMap i then .ok s
  else do
    let vaddr := s.2
    let (s, e3) ← pteCreate s.1 P4 (p4Index vaddr) userFlags
    let P3 := (clearPageFlags e3).toNat
    let (s, e2) ← pteCreate s P3 (p3Index vaddr) userFlags
    let P2 := (clearPageFlags e2).toNat
    let (s, e1) ← pteCreate s P2 (p2Index vaddr) userFlags
    let P1 := (clearPageFlags e1).toNat
    if reaches P1 then .ok (s.fillTable P1 (userPage (i * hugePageSize)), vaddr + hugePageSize)
    else .error .bufferOverflow

/-- `init_page_table_4k()`. -/
def initPageTable4k (s : Boot) : Except Fault (Boot × Nat) := do
  let (s, P4) ← initEmptyKernelPageTable s
  let start := s.pageTableBreak / hugePageSize
  let (s, vaddr) ← forUpM (fun i => mapHugePage P4 (start + i)) (maxNHugePages - start) (s, kernelBreak)
  .ok ({ s with vaddrBreak := vaddr }, P4)

/-- `init_page_tables()`: the tables, and what it loads into `cr3`. -/
def initPageTables (s : Boot) : Except Fault (Boot × Nat) := initPageTable4k (initPageTableBreak s)

/-- The address that `get_P1(vaddr)` reads and writes. -/
def getP1 (vaddr : Nat) : Nat := ((vaddr >>> 9) &&& (2 ^ 64 - 8)) ||| (2 ^ 64 - 2 ^ 39)

/-- The address that `get_P2(vaddr)` reads and writes. -/
def getP2 (vaddr : Nat) : Nat := ((vaddr >>> 18) &&& (2 ^ 64 - 8)) ||| (2 ^ 64 - 2 ^ 30)

/-- The address that `get_P3(vaddr)` reads and writes. -/
def getP3 (vaddr : Nat) : Nat := ((vaddr >>> 27) &&& (2 ^ 64 - 8)) ||| (2 ^ 64 - 2 ^ 21)

/-- The address that `get_P4(vaddr)` reads and writes. -/
def getP4 (vaddr : Nat) : Nat := ((vaddr >>> 36) &&& (2 ^ 64 - 8)) ||| (2 ^ 64 - 2 ^ 12)

/-! ## The processor -/

/-- The entry `index` of the table at the physical address `table`. -/
def Boot.word (s : Boot) (table index : Nat) : BitVec 64 := s.mem (table ||| (index * 8))

/-- The last entry on the way to `vaddr`, and the size of the page it maps. -/
def walk (s : Boot) (cr3 vaddr : Nat) : Option (BitVec 64 × Nat) :=
  let e4 := s.word cr3 (p4Index vaddr)
  let e3 := s.word (frame e4) (p3Index vaddr)
  let e2 := s.word (frame e3) (p2Index vaddr)
  let e1 := s.word (frame e2) (p1Index vaddr)
  if !has e4 ptePresent then none
  else if !has e3 ptePresent then none
  else if has e3 pteHuge then some (e3, p3PageSize)
  else if !has e2 ptePresent then none
  else if has e2 pteHuge then some (e2, hugePageSize)
  else if !has e1 ptePresent then none
  else some (e1, pageSize)

/-- The physical address of `vaddr`. -/
def translate (s : Boot) (cr3 vaddr : Nat) : Option Nat :=
  (walk s cr3 vaddr).map fun (e, size) => frame e / size * size + vaddr % size

end JudgeDuck.Memory
