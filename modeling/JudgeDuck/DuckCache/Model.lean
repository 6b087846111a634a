/-
  The content cache of `kern/duck_cache.cpp`.

  A `DuckCache` keeps objects (byte strings) under 256-bit digests.  It is one block of memory: four
  tables of `n_max_objects` entries, then content pages of 4096 bytes.  The index is three parallel
  arrays, sorted by digest; an object's bytes are spread over a chain of pages, 4088 bytes in each
  after the `next` pointer, and the chain is delimited only by the object's length.  Free pages form
  a list that ends in the null pointer.  When space runs out the objects that were not used for the
  longest time are removed.

  The tables are functions from indices, the pages a `next` pointer and 4088 bytes for each address;
  that the tables and the pages do not overlap is proved in `DuckCache.Init`.  Accesses through a
  page pointer are checked: one that does not point to a content page is a fault.  `std::sort` is
  not stable, so it is a parameter with its documented behaviour.  The clock reading of a call is an
  argument.

  Left out: `info` and the log output.
-/
import JudgeDuck.Lib.Arrays
import JudgeDuck.Lib.Loop

namespace JudgeDuck.DuckCache

open JudgeDuck.Lib

/-- `Memory::PAGE_SIZE`. -/
def pageSize : Nat := 4096

/-- `PAGE_SIZE - sizeof(uint64_t)`. -/
def onePageContentSize : Nat := pageSize - 8

/-- `Utils::round_up(x, r)`, for `uint64_t`. -/
def roundUp (x r : Nat) : Nat := u64 (x + r - 1) / r * r

/-- `Digest256`: four words. -/
structure Digest256 where
  a0 : Nat
  a1 : Nat
  a2 : Nat
  a3 : Nat
  deriving DecidableEq, Repr

def Digest256.a (d : Digest256) : List Nat := [d.a0, d.a1, d.a2, d.a3]

structure Metadata where
  lastUsedTsc : Nat
  startAddr : Nat
  len : Nat
  deriving DecidableEq, Repr

/-- The object; its four table pointers stand for the tables. -/
structure Cache where
  cacheSize : Nat
  nMaxObjects : Nat
  nCurObjects : Nat
  freeListAddr : Nat
  nFreePages : Nat
  nTotalPages : Nat
  objHash : Nat → Nat
  objDigest : Nat → Digest256
  objMetadata : Nat → Metadata
  sortIds : List Nat
  /-- The address of the first content page. -/
  firstPage : Nat
  /-- The `next` pointer of the page at an address. -/
  next : Nat → Nat
  /-- The bytes of the page at an address, after the pointer. -/
  content : Nat → Nat → UInt8

/-- `std::sort(ids, ids + n, cmp)` with `cmp(i, j)` being `key[i] < key[j]`. -/
structure StdSort where
  sort : (Nat → Nat) → List Nat → List Nat
  perm : ∀ key ids, (sort key ids).Perm ids
  sorted : ∀ key ids, (sort key ids).Pairwise fun i j => key i ≤ key j

/-! ## Setting up -/

/-- `Memory::HUGE_PAGE_SIZE`. -/
def hugePageSize : Nat := 2097152

/-- The part of the address space that is not given away, with `Memory::allocate_virtual_memory`
    taking from its upper end.  Both ends are multiples of `HUGE_PAGE_SIZE`, the kernel lies
    below. -/
structure Region where
  kernelBreak : Nat
  vaddrBreak : Nat
  pos : 0 < kernelBreak
  le : kernelBreak ≤ vaddrBreak
  lt : vaddrBreak < 2 ^ 48
  kernelBreak_aligned : hugePageSize ∣ kernelBreak
  vaddrBreak_aligned : hugePageSize ∣ vaddrBreak

/-- `Memory::allocate_virtual_memory(size)`: the address, or `NULL`. -/
def allocateVirtualMemory (r : Region) (size : Nat) : Nat :=
  if r.vaddrBreak - r.kernelBreak < roundUp size hugePageSize then 0
  else r.vaddrBreak - roundUp size hugePageSize

/-- `cache += round_up(n_max_objects * sizeof(...), PAGE_SIZE)`: where the next table starts. -/
def nextTable (cache nMaxObjects size : Nat) : Nat :=
  u64 (cache + roundUp (u64 (nMaxObjects * size)) pageSize)

/-- `obj_digest`, after the hashes. -/
def objDigestAddr (cache nMaxObjects : Nat) : Nat := nextTable cache nMaxObjects 8

/-- `obj_metadata`, after the digests. -/
def objMetadataAddr (cache nMaxObjects : Nat) : Nat :=
  nextTable (objDigestAddr cache nMaxObjects) nMaxObjects 32

/-- `sort_ids`, after the metadata. -/
def sortIdsAddr (cache nMaxObjects : Nat) : Nat :=
  nextTable (objMetadataAddr cache nMaxObjects) nMaxObjects 24

/-- The first content page, after the ids. -/
def firstPageAddr (cache nMaxObjects : Nat) : Nat :=
  nextTable (sortIdsAddr cache nMaxObjects) nMaxObjects 8

/-- The state of the loop that links the pages. -/
structure LinkState where
  cache : Nat
  nPages : Nat
  next : Nat → Nat

/-- `for (; cache + PAGE_SIZE < cache_end; cache += PAGE_SIZE)`. -/
def linkPages (cacheEnd fuel : Nat) : LinkState → Except Fault LinkState :=
  whileM (fun s => decide (u64 (s.cache + pageSize) < cacheEnd))
    (fun s => .ok { cache := u64 (s.cache + pageSize), nPages := s.nPages + 1
                    next := Function.update s.next s.cache (u64 (s.cache + pageSize)) }) fuel

/-- The part of `init` after the allocation; `raw` is what the memory and the object hold before. -/
def initBlock (raw : Cache) (cache nMaxObjects cacheSize : Nat) : Except Fault Cache :=
  let cacheEnd := u64 (cache + cacheSize)
  let firstPage := firstPageAddr cache nMaxObjects
  if cacheEnd ≤ u64 (firstPage + pageSize) then .error .abort
  else do
    let s ← linkPages cacheEnd (cacheSize + 1) ⟨firstPage, 0, raw.next⟩
    .ok { raw with
      cacheSize := cacheSize, nMaxObjects := nMaxObjects, nCurObjects := 0
      freeListAddr := firstPage, nFreePages := s.nPages + 1, nTotalPages := s.nPages + 1
      firstPage := firstPage, next := Function.update s.next s.cache 0 }

/-- `DuckCache::init(n_max_objects, cache_size)`; `none` is the result `false`. -/
def init (r : Region) (raw : Cache) (nMaxObjects cacheSize : Nat) : Except Fault (Option Cache) :=
  if allocateVirtualMemory r cacheSize = 0 then .ok none
  else (initBlock raw (allocateVirtualMemory r cacheSize) nMaxObjects cacheSize).map some

/-! ## Looking up -/

/-- The loop of `cmp_digest` over the words. -/
def cmpWords : List Nat → List Nat → Int
  | x :: xs, y :: ys => if x < y then -1 else if y < x then 1 else cmpWords xs ys
  | _, _ => 0

/-- `cmp_digest(a, b)`. -/
def cmpDigest (a b : Digest256) : Int := cmpWords a.a b.a

/-- The loop of `find` over `[idx1, idx2)`, `k = idx2 - idx1`. -/
def scan (c : Cache) (digest : Digest256) : Nat → Nat → Bool × Nat
  | 0, idx => (false, idx)
  | k + 1, idx =>
    let r := cmpDigest (c.objDigest idx) digest
    if 0 ≤ r then (decide (r = 0), idx) else scan c digest k (idx + 1)

/-- `DuckCache::find(digest, &lower_bound_index)`. -/
def find (c : Cache) (digest : Digest256) : Bool × Nat :=
  if c.nCurObjects = 0 then (false, 0)
  else
    let hash := digest.a0
    let idx1 := lowerBound c.objHash 0 c.nCurObjects hash
    let idx2 := upperBound c.objHash idx1 c.nCurObjects hash
    scan c digest (idx2 - idx1) idx1

/-! ## Pages -/

/-- Does the address point to a content page? -/
def isPage (c : Cache) (addr : Nat) : Bool :=
  decide (c.firstPage ≤ addr ∧ (addr - c.firstPage) % pageSize = 0 ∧
    (addr - c.firstPage) / pageSize < c.nTotalPages)

/-- `max((len + ONE_PAGE_CONTENT_SIZE - 1) / ONE_PAGE_CONTENT_SIZE, 1ul)`. -/
def nNeedPages (len : Nat) : Nat := max (u64 (len + onePageContentSize - 1) / onePageContentSize) 1

/-- The state of the loops that copy page by page. -/
structure CopyState (σ : Type) where
  curLen : Nat
  addr : Nat
  /-- How far the pointer outside the cache has moved. -/
  off : Nat
  mem : σ

/-- `for (cur_len = 0; cur_len < len; cur_len += ONE_PAGE_CONTENT_SIZE)`: `copy addr off n` moves
    `n` bytes between the page at `addr` and the outside memory at `off`. -/
def copyLoop {σ : Type} (c : Cache) (copy : Nat → Nat → Nat → σ → σ) (len : Nat)
    (s : CopyState σ) : Except Fault (CopyState σ) :=
  whileM (fun s => decide (s.curLen < len))
    (fun s =>
      if isPage c s.addr then
        .ok { curLen := u64 (s.curLen + onePageContentSize), addr := c.next s.addr
              off := s.off + onePageContentSize
              mem := copy s.addr s.off (min (len - s.curLen) onePageContentSize) s.mem }
      else .error .bufferOverflow) (len + 1) s

/-- `memcpy(dst, (uint64_t *) addr + 1, n)`. -/
def copyOut (c : Cache) (addr off n : Nat) (dst : Nat → UInt8) : Nat → UInt8 :=
  memcpy dst off (c.content addr) n

/-- `memcpy((uint64_t *) addr + 1, src, n)`. -/
def copyIn (src : Nat → UInt8) (addr off n : Nat) (content : Nat → Nat → UInt8) :
    Nat → Nat → UInt8 :=
  Function.update content addr (memcpy (content addr) 0 (fun i => src (off + i)) n)

/-- `DuckCache::load(digest, dst, required_len)`: the cache, the result, and the memory at `dst`. -/
def load (c : Cache) (digest : Digest256) (dst : Nat → UInt8) (requiredLen tsc : Nat) :
    Except Fault (Cache × Bool × (Nat → UInt8)) :=
  let (found, idx) := find c digest
  if found = false then .ok (c, false, dst)
  else
    let metadata := c.objMetadata idx
    if metadata.len ≠ requiredLen then .ok (c, false, dst)
    else do
      let s ← copyLoop c (copyOut c) requiredLen ⟨0, metadata.startAddr, 0, dst⟩
      .ok ({ c with objMetadata :=
        Function.update c.objMetadata idx { metadata with lastUsedTsc := tsc } }, true, s.mem)

/-! ## Storing -/

/-- `metadata->last_used_tsc = 0;  // Invalidate`. -/
def Metadata.invalidate (m : Metadata) : Metadata := { m with lastUsedTsc := 0 }

/-- The state of the eviction loop. -/
structure EvictState where
  nRemovedPages : Nat
  nRemovedObjects : Nat
  objMetadata : Nat → Metadata
  next : Nat → Nat
  freeListAddr : Nat

/-- `for (page_id = 1; page_id < n_pages; page_id++) addr = next(addr)`. -/
def lastPage (c : Cache) (next : Nat → Nat) (nPages addr : Nat) : Except Fault Nat :=
  forUpM (fun _ addr => if isPage c addr then .ok (next addr) else .error .bufferOverflow)
    (nPages - 1) addr

/-- The eviction loop over the sorted `ids`; it ends early when enough has been removed. -/
def evict (c : Cache) (nNeed : Nat) : List Nat → EvictState → Except Fault EvictState
  | [], s => .ok s
  | id :: ids, s => do
    let metadata := s.objMetadata id
    let nPages := nNeedPages metadata.len
    let addr ← lastPage c s.next nPages metadata.startAddr
    if isPage c addr then
      let s := { nRemovedPages := s.nRemovedPages + nPages
                 nRemovedObjects := s.nRemovedObjects + 1
                 objMetadata := Function.update s.objMetadata id metadata.invalidate
                 next := Function.update s.next addr s.freeListAddr
                 freeListAddr := metadata.startAddr }
      if nNeed > c.nFreePages + s.nRemovedPages ∨
          c.nCurObjects + 1 > c.nMaxObjects + s.nRemovedObjects then evict c nNeed ids s
      else .ok s
    else .error .bufferOverflow

/-- The state of the loop that closes the gaps in the tables. -/
structure DefragState where
  j : Nat
  objHash : Nat → Nat
  objDigest : Nat → Digest256
  objMetadata : Nat → Metadata

/-- One turn of that loop: an entry that was not removed moves to index `j`. -/
def defragStep (i : Nat) (s : DefragState) : DefragState :=
  if (s.objMetadata i).lastUsedTsc = 0 then s
  else { j := s.j + 1
         objHash := Function.update s.objHash s.j (s.objHash i)
         objDigest := Function.update s.objDigest s.j (s.objDigest i)
         objMetadata := Function.update s.objMetadata s.j (s.objMetadata i) }

/-- `// Defrag` and the counters after it, `s` being how the eviction loop over `ids` ended. -/
def defrag (c : Cache) (ids : List Nat) (s : EvictState) : Cache :=
  let t := forUp defragStep c.nCurObjects ⟨0, c.objHash, c.objDigest, s.objMetadata⟩
  { c with
    sortIds := ids, next := s.next, freeListAddr := s.freeListAddr
    objHash := t.objHash, objDigest := t.objDigest, objMetadata := t.objMetadata
    nCurObjects := c.nCurObjects - s.nRemovedObjects
    nFreePages := c.nFreePages + s.nRemovedPages }

/-- The branch `if (need_remove)` of `store`; it computes the index again. -/
def makeRoom (sorter : StdSort) (c : Cache) (digest : Digest256) (nNeed : Nat) :
    Except Fault (Cache × Nat) := do
  let ids := sorter.sort (fun i => (c.objMetadata i).lastUsedTsc) (List.range c.nCurObjects)
  let s ← evict c nNeed ids ⟨0, 0, c.objMetadata, c.next, c.freeListAddr⟩
  let c := defrag c ids s
  let (found, idx) := find c digest
  if found then .error .assertion else .ok (c, idx)

/-- `need_remove` and what is done about it; `idx` is the index found before. -/
def ensureRoom (sorter : StdSort) (c : Cache) (digest : Digest256) (idx nNeed : Nat) :
    Except Fault (Cache × Nat) :=
  if nNeed > c.nFreePages ∨ c.nCurObjects + 1 > c.nMaxObjects then makeRoom sorter c digest nNeed
  else .ok (c, idx)

/-- `// Move [idx, n)` and `// Store at idx`. -/
def insertRow (c : Cache) (digest : Digest256) (idx : Nat) (metadata : Metadata) : Cache :=
  { c with
    objHash := Function.update (memmoveUp c.objHash idx c.nCurObjects) idx digest.a0
    objDigest := Function.update (memmoveUp c.objDigest idx c.nCurObjects) idx digest
    objMetadata := Function.update (memmoveUp c.objMetadata idx c.nCurObjects) idx metadata
    nCurObjects := c.nCurObjects + 1 }

/-- `store` once there is room: the entry goes to index `idx`, the bytes to the first free pages.
    The tables have `n_max_objects` entries. -/
def insert (c : Cache) (digest : Digest256) (idx : Nat) (src : Nat → UInt8) (len tsc : Nat) :
    Except Fault Cache :=
  if c.nMaxObjects ≤ c.nCurObjects then .error .bufferOverflow
  else do
    let metadata : Metadata := { lastUsedTsc := tsc, startAddr := c.freeListAddr, len := len }
    let s ← copyLoop c (copyIn src) len ⟨0, metadata.startAddr, 0, c.content⟩
    if len = 0 ∧ isPage c s.addr = false then .error .bufferOverflow
    else
      .ok { insertRow c digest idx metadata with
        content := s.mem
        nFreePages := c.nFreePages - nNeedPages len
        freeListAddr := if len = 0 then c.next s.addr else s.addr }

/-- `DuckCache::store(digest, src, len)`. -/
def store (sorter : StdSort) (c : Cache) (digest : Digest256) (src : Nat → UInt8)
    (len tsc : Nat) : Except Fault (Cache × Bool) :=
  let (found, idx) := find c digest
  if found then .ok (c, true)
  else if nNeedPages len > c.nTotalPages then .ok (c, false)
  else do
    let (c, idx) ← ensureRoom sorter c digest idx (nNeedPages len)
    let c ← insert c digest idx src len tsc
    .ok (c, true)

/-! ## Runs -/

/-- A call, with the reading of the clock. -/
inductive Op where
  | load (digest : Digest256) (dst : Nat → UInt8) (requiredLen tsc : Nat)
  | store (digest : Digest256) (src : Nat → UInt8) (len tsc : Nat)

/-- What a call returns; `dst` is the memory at the destination after a `load`. -/
inductive Out where
  | load (found : Bool) (dst : Nat → UInt8)
  | store (stored : Bool)

/-- One call. -/
def step (sorter : StdSort) (c : Cache) : Op → Except Fault (Cache × Out)
  | .load digest dst requiredLen tsc => do
    let (c, found, dst) ← load c digest dst requiredLen tsc
    .ok (c, .load found dst)
  | .store digest src len tsc => do
    let (c, stored) ← store sorter c digest src len tsc
    .ok (c, .store stored)

/-- A run: one call after the other. -/
def run (sorter : StdSort) (c : Cache) : List Op → Except Fault Cache
  | [] => .ok c
  | op :: ops => do
    let (c, _) ← step sorter c op
    run sorter c ops

end JudgeDuck.DuckCache
