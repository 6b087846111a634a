/-
  The judger (`kern/judger.cpp`).

  Clients send operations on one large buffer: they fill it, read it, compare parts of it, and move
  parts to and from two caches.  A judge request names six parts of the buffer: the program, its
  inputs, and where its outputs go.  The result of the latest judge call is kept, for clients that
  ask again, until an operation changes the buffer.

  The buffer and the caches are at the upper end of the address space, the buffer above the caches;
  programs run below.  Bytes are those of the machine.  The caches are those of `DuckCache`, and not
  kept as bytes, so a cache that copies to or from an address outside of the buffer and of the
  pages of programs is a fault here, whatever it would do.  One write to a cache is described: a
  program can end where the data cache starts, and then the page of its file is the first page of
  the hashes (`overwritten`).

  `std::sort` and the kernel's constants are given (`Platform`), and so is the reading of the clock
  in a cache operation.  Left out: log messages, `stdout_size` and `stderr_size` of the judger
  (nothing reads them), `get_statistics`, `query_buffer_size` and `get_cache_info`.
-/
import JudgeDuck.DuckCache.Model
import JudgeDuck.Elf.Model

namespace JudgeDuck.Judger

open JudgeDuck.Lib JudgeDuck.Memory
open JudgeDuck.DuckCache (Cache Digest256 StdSort pageSize)
open JudgeDuck.Elf (Kernel App Behaviour)

/-- What the judger is given. -/
structure Platform where
  kernel : Kernel
  sorter : StdSort

/-! ## Requests and results -/

/-- A part of the buffer. -/
structure BufferDesc where
  off : Nat
  len : Nat
  off_lt : off < 2 ^ 64
  len_lt : len < 2 ^ 64

/-- `JudgeRequest`. -/
structure JudgeRequest where
  seqNum : Nat
  timeLimitNs : Nat
  memoryHardLimitKb : Nat
  ELF : BufferDesc
  stdin : BufferDesc
  stdout : BufferDesc
  stderr : BufferDesc
  IB : BufferDesc
  OB : BufferDesc
  OBNeedClear : Nat
  seqNum_lt : seqNum < 2 ^ 64
  timeLimitNs_lt : timeLimitNs < 2 ^ 64
  memoryHardLimitKb_lt : memoryHardLimitKb < 2 ^ 64

/-- `JudgeResult`; `error` is a text, or nothing for `NULL`. -/
structure JudgeResult where
  error : Option String
  countInst : Nat
  clkThread : Nat
  clkRefTsc : Nat
  timeNs : Nat
  timeNsRefTsc : Nat
  timeNsReal : Nat
  timeTsc : Nat
  memoryKb : Nat
  memoryKbAccessed : Nat
  stdoutSize : Nat
  stderrSize : Nat
  returnCode : Int
  trapNum : Nat
  trapEpc : Nat
  trapCr2 : Nat
  isRE : Bool
  isTLE : Bool
  deriving DecidableEq, Repr

/-- `memset(&judge_result, 0, …)`, and then the error. -/
def notJudged : JudgeResult :=
  ⟨some "Not Judged", 0, 0, 0, 0, 0, 0, 0, 0, 0, 0, 0, 0, 0, 0, 0, false, false⟩

/-! ## State -/

/-- The machine, and the static variables. -/
structure State where
  m : Machine
  buffer : Nat
  bufferSize : Nat
  elfCache : Cache
  dataCache : Cache
  nJudges : Nat
  totalTimeNs : Nat
  judgeSeqNum : Nat
  judgeResult : JudgeResult
  judgeResultCleared : Bool

/-- `clear_judge_result()`. -/
def clearJudgeResult (s : State) : State :=
  if s.judgeResultCleared then s
  else { s with
    judgeResultCleared := true, judgeSeqNum := 2 ^ 64 - 1, judgeResult := notJudged }

/-! ## Setting up -/

/-- `INITIAL_BUFFER_SIZE`. -/
def initialBufferSize : Nat := 3072 * 2 ^ 20

/-- `INITIAL_BUFFER_SIZE_SMALL`. -/
def initialBufferSizeSmall : Nat := 512 * 2 ^ 20

/-- `ELF_CACHE_N`. -/
def elfCacheN : Nat := 1000

/-- `ELF_CACHE_SIZE`. -/
def elfCacheSize : Nat := 256 * 2 ^ 20

/-- `DATA_CACHE_N`. -/
def dataCacheN : Nat := 100000

/-- `DATA_CACHE_SIZE`. -/
def dataCacheSize : Nat := 8192 * 2 ^ 20

/-- `DATA_CACHE_SIZE_SMALL`. -/
def dataCacheSizeSmall : Nat := 256 * 2 ^ 20

/-- Memory that was allocated, or a reboot. -/
def orReboot : Machine × Option Nat → Except Fault (Machine × Nat)
  | (_, none) => .error .abort
  | (m, some a) => .ok (m, a)

/-- `cache.init(n, size)`, or a reboot. -/
def initCache (raw : Cache) (n size : Nat) (m : Machine) : Except Fault (Machine × Cache) := do
  let (m, cache) ← orReboot (allocateVirtualMemory size m)
  let c ← DuckCache.initBlock raw cache n size
  .ok (m, c)

/-- `use_small`. -/
def useSmall (m : Machine) : Bool :=
  !canAllocateVirtualMemory (initialBufferSize + elfCacheSize + dataCacheSize + 3072 * 2 ^ 20) m

/-- `buffer_size`. -/
def chooseBufferSize (small : Bool) : Nat :=
  if !small then initialBufferSize else initialBufferSizeSmall

/-- `data_cache_size`. -/
def chooseDataCacheSize (small : Bool) : Nat :=
  if !small then dataCacheSize else dataCacheSizeSmall

/-- `init()`; `rawElf` and `rawData` are what the two caches and their memory hold before. -/
def init (rawElf rawData : Cache) (m : Machine) : Except Fault State := do
  let small := useSmall m
  let bufferSize := chooseBufferSize small
  let (m, buffer) ← orReboot (allocateVirtualMemory bufferSize m)
  let m ← m.write buffer (List.replicate bufferSize 0)
  let (m, elfCache) ← initCache rawElf elfCacheN elfCacheSize m
  let (m, dataCache) ← initCache rawData dataCacheN (chooseDataCacheSize small) m
  .ok { m, buffer, bufferSize, elfCache, dataCache, nJudges := 0, totalTimeNs := 0
        judgeSeqNum := 2 ^ 64 - 1, judgeResult := notJudged, judgeResultCleared := true }

/-! ## The buffer -/

/-- `off < buffer_size && len <= buffer_size - off`. -/
def State.inBuffer (s : State) (off len : Nat) : Bool :=
  decide (off < s.bufferSize ∧ len ≤ s.bufferSize - off)

/-- `buffer + off`. -/
def State.addr (s : State) (off : Nat) : Nat := u64 (s.buffer + off)

/-- `memcpy` from the address `a`. -/
def read (m : Machine) (a len : Nat) : Except Fault (List UInt8) :=
  if len ≠ 0 ∧ m.mapped < a + len then .error .bufferOverflow
  else .ok (listOf (fun i => m.mem (a + i)) len)

/-- `memcpy(dst, src, len)`. -/
def copy (dst src len : Nat) (m : Machine) : Except Fault Machine := do
  let bytes ← read m src len
  m.write dst bytes

/-- `clear_buffer(off, len)`. -/
def clearBuffer (off len : Nat) (s : State) : Except Fault (State × Bool) :=
  if s.inBuffer off len then do
    let m ← s.m.write (s.addr off) (List.replicate len 0)
    .ok (clearJudgeResult { s with m }, true)
  else .ok (s, false)

/-- `read_buffer(off, len, data)`: the data, or nothing for `false`. -/
def readBuffer (off len : Nat) (s : State) : Except Fault (Option (List UInt8)) :=
  if s.inBuffer off len then do
    let data ← read s.m (s.addr off) len
    .ok (some data)
  else .ok none

/-- `write_buffer(off, data, len)`. -/
def writeBuffer (off : Nat) (data : List UInt8) (s : State) : Except Fault (State × Bool) :=
  if s.inBuffer off data.length then do
    let m ← s.m.write (s.addr off) data
    .ok (clearJudgeResult { s with m }, true)
  else .ok (s, false)

/-- `copy_buffer(dst_off, src_off, len)`. -/
def copyBuffer (dstOff srcOff len : Nat) (s : State) : Except Fault (State × Bool) :=
  let noOverlap := decide (u64 (dstOff + len) ≤ srcOff ∨ u64 (srcOff + len) ≤ dstOff)
  if s.inBuffer dstOff len && s.inBuffer srcOff len && noOverlap then do
    let m ← copy (s.addr dstOff) (s.addr srcOff) len s.m
    .ok (clearJudgeResult { s with m }, true)
  else .ok (s, false)

/-- `compare_buffer(off1, off2, len, result)`: the result, or nothing for `false`. -/
def compareBuffer (off1 off2 len : Nat) (s : State) : Except Fault (Option Bool) :=
  if s.inBuffer off1 len && s.inBuffer off2 len then do
    let bytes1 ← read s.m (s.addr off1) len
    let bytes2 ← read s.m (s.addr off2) len
    .ok (some (decide (bytes1 = bytes2)))
  else .ok none

/-! ## The caches -/

/-- The value of a hexadecimal digit. -/
def hexVal (c : Char) : Option Nat :=
  if '0' ≤ c ∧ c ≤ '9' then some (c.toNat - '0'.toNat)
  else if 'a' ≤ c ∧ c ≤ 'f' then some (c.toNat - 'a'.toNat + 10)
  else if 'A' ≤ c ∧ c ≤ 'F' then some (c.toNat - 'A'.toNat + 10)
  else none

/-- The word `idx` of a digest.  A string that is too short ends with a character that is not a
    digit. -/
def hexWord (hex : List Char) (idx : Nat) : Option Nat :=
  (List.range 16).foldlM (fun sum i => do
    let c ← hex[idx * 16 + i]?
    let val ← hexVal c
    some (sum ||| val <<< (i * 4))) 0

/-- `digest_from_hex(hex, digest)`. -/
def digestFromHex (hex : List Char) : Option Digest256 := do
  let a0 ← hexWord hex 0
  let a1 ← hexWord hex 1
  let a2 ← hexWord hex 2
  let a3 ← hexWord hex 3
  some ⟨a0, a1, a2, a3⟩

/-- One of the two caches. -/
inductive Which where
  | elf
  | data
  deriving DecidableEq, Repr

/-- `strcmp(cache_name, …)`. -/
def cacheNamed (cacheName : List Char) : Option Which :=
  if cacheName = ['e', 'l', 'f'] then some .elf
  else if cacheName = ['d', 'a', 't', 'a'] then some .data
  else none

def State.cache (s : State) : Which → Cache
  | .elf => s.elfCache
  | .data => s.dataCache

def State.setCache (s : State) (c : Cache) : Which → State
  | .elf => { s with elfCache := c }
  | .data => { s with dataCache := c }

/-- The range holds neither the kernel nor the caches. -/
def State.plain (s : State) (a len : Nat) : Bool :=
  decide (len = 0 ∨ (kernelBreak ≤ a ∧ a + len ≤ s.m.vaddrBreak) ∨
    (s.buffer ≤ a ∧ a + len ≤ s.m.mapped))

/-- Memory with `dst` from the address `a` on. -/
def place (m : Machine) (a : Nat) (dst : Nat → UInt8) : Machine :=
  { m with mem := fun i => if a ≤ i then dst (i - a) else m.mem i }

/-- The state after a cache has copied to the address `a`. -/
def State.afterLoad (s : State) (which : Which) (c : Cache) (a : Nat) (dst : Nat → UInt8) : State :=
  { s.setCache c which with m := place s.m a dst }

/-- `load_cache(cache_name, dst_off, dst_len, hex)`. -/
def loadCache (cacheName : List Char) (dstOff dstLen : Nat) (hex : List Char) (tsc : Nat)
    (s : State) : Except Fault (State × Bool) :=
  match digestFromHex hex with
  | none => .ok (s, false)
  | some digest =>
    match cacheNamed cacheName with
    | none => .ok (s, false)
    | some which => do
      let a := s.addr dstOff
      let (c, ret, dst) ← DuckCache.load (s.cache which) digest (fun i => s.m.mem (a + i)) dstLen
        tsc
      if ret && !s.plain a dstLen then .error .bufferOverflow
      else
        let s := s.afterLoad which c a dst
        .ok (if ret then clearJudgeResult s else s, ret)

/-- `store` gets as far as copying the bytes. -/
def copies (c : Cache) (digest : Digest256) (len : Nat) : Bool :=
  !(DuckCache.find c digest).1 && decide (DuckCache.nNeedPages len ≤ c.nTotalPages)

/-- `store_cache(cache_name, src_off, src_len, hex)`. -/
def storeCache (sorter : StdSort) (cacheName : List Char) (srcOff srcLen : Nat) (hex : List Char)
    (tsc : Nat) (s : State) : Except Fault (State × Bool) :=
  match digestFromHex hex with
  | none => .ok (s, false)
  | some digest =>
    match cacheNamed cacheName with
    | none => .ok (s, false)
    | some which =>
      let a := s.addr srcOff
      if copies (s.cache which) digest srcLen && !s.plain a srcLen then .error .bufferOverflow
      else do
        let (c, ret) ← DuckCache.store sorter (s.cache which) digest (fun i => s.m.mem (a + i))
          srcLen tsc
        .ok (s.setCache c which, ret)

/-! ## Judging -/

/-- `MAX_TIME_LIMIT_NS`. -/
def maxTimeLimitNs : Nat := 500 * 10 ^ 9

/-- A judge call that ends with an error. -/
def fail (s : State) (error : String) : State × JudgeResult :=
  let s := { s with judgeResult := { s.judgeResult with error := some error } }
  (s, s.judgeResult)

/-- `can_not_load_elf()`. -/
def canNotLoadElf (s : State) : State × JudgeResult := fail s "Can't load ELF"

/-- `invalid_time_limit()`. -/
def invalidTimeLimit (s : State) : State × JudgeResult := fail s "Invalid time limit"

/-- `is_valid_buffer(b)`. -/
def isValidBuffer (s : State) (b : BufferDesc) : Bool := s.inBuffer b.off b.len

/-- `check_overlap(b1, b2)`. -/
def checkOverlap (b1 b2 : BufferDesc) : Bool :=
  !decide (u64 (b1.off + b1.len) ≤ b2.off ∨ u64 (b2.off + b2.len) ≤ b1.off)

/-- `check_buffers(b, n)`; `before` are the buffers that have been checked. -/
def checkBuffers (s : State) : List BufferDesc → List BufferDesc → Bool
  | _, [] => true
  | before, b :: bs =>
    isValidBuffer s b && before.all (fun b' => !checkOverlap b b') &&
      checkBuffers s (before ++ [b]) bs

/-- `buffers` of `judge`. -/
def JudgeRequest.buffers (req : JudgeRequest) : List BufferDesc :=
  [req.ELF, req.stdin, req.stdout, req.stderr, req.IB, req.OB]

/-- The bytes of a part of the buffer. -/
def State.bytes (s : State) (off len : Nat) : List UInt8 :=
  listOf (fun i => s.m.mem (s.addr off + i)) len

/-- What `ELF::load` is called with; its `len` is a `uint32_t`. -/
def elfRequest (s : State) (req : JudgeRequest) : Elf.Request where
  buf := s.bytes req.ELF.off (req.ELF.len % 2 ^ 32)
  config := {
    memoryHardLimit := u64 (req.memoryHardLimitKb * 1024)
    stdin := s.bytes req.stdin.off req.stdin.len
    stdoutMaxSize := req.stdout.len
    stderrMaxSize := req.stderr.len
    IB := s.bytes req.IB.off req.IB.len
    OB := s.bytes req.OB.off req.OB.len
    OBNeedClear := req.OBNeedClear != 0
    memoryHardLimit_lt := Nat.mod_lt _ (by decide)
    stdin_lt := by rw [State.bytes, length_listOf]; exact req.stdin.len_lt
    stdoutMaxSize_lt := req.stdout.len_lt
    stderrMaxSize_lt := req.stderr.len_lt
    IB_lt := by rw [State.bytes, length_listOf]; exact req.IB.len_lt
    OB_lt := by rw [State.bytes, length_listOf]; exact req.OB.len_lt }
  len_lt := by rw [State.bytes, length_listOf]; exact Nat.mod_lt _ (by decide)

/-- A cache whose memory starts with `bytes` now: those are hashes. -/
def overwritten (c : Cache) (bytes : List UInt8) : Cache :=
  let byte := fun j i => bytes.getD (8 * j + i) (UInt8.ofNat (c.objHash j / 256 ^ i))
  { c with objHash := fun j => Elf.le (listOf (byte j) 8) 0 8 }

/-- `return` before the program runs. -/
def early (r : State × JudgeResult) : Except Fault (State × (JudgeResult ⊕ App)) :=
  .ok (r.1, .inl r.2)

/-- `judge(req)` up to the call of `ELF::run`: it returns a result, or goes on with a program. -/
def judgeLoad (p : Platform) (req : JudgeRequest) (s : State) :
    Except Fault (State × (JudgeResult ⊕ App)) :=
  if req.seqNum = s.judgeSeqNum then .ok (s, .inl s.judgeResult)
  else
    let s := { s with
      nJudges := u64 (s.nJudges + 1), judgeResultCleared := false, judgeSeqNum := req.seqNum }
    if u64 (req.memoryHardLimitKb * 1024) < req.memoryHardLimitKb then early (canNotLoadElf s)
    else if !checkBuffers s [] req.buffers then early (canNotLoadElf s)
    else if req.timeLimitNs = 0 ∨ req.timeLimitNs > maxTimeLimitNs then early (invalidTimeLimit s)
    else do
      let r := elfRequest s req
      let (m, app) ← Elf.load p.kernel s.m r
      match app with
      | none => early (canNotLoadElf { s with m })
      | some app =>
        -- the page of the file may be the first one of the data cache
        let dataCache := if app.specialRegionBreakAddr = s.m.vaddrBreak then
          overwritten s.dataCache (r.buf.take pageSize) else s.dataCache
        .ok ({ s with m, dataCache }, .inr app)

/-- `judge_result` after a run. -/
def resultOf (req : JudgeRequest) (res : Elf.RunResult) : JudgeResult :=
  let result : JudgeResult := {
    error := none
    countInst := res.countInst
    clkThread := res.clkThread
    clkRefTsc := res.clkRefTsc
    timeNs := res.timeNs
    timeNsRefTsc := res.timeNsRefTsc
    timeNsReal := res.timeNsReal
    timeTsc := res.timeTsc
    memoryKb := res.memoryKb
    memoryKbAccessed := res.memoryKbAccessed
    stdoutSize := res.stdoutSize
    stderrSize := res.stderrSize
    returnCode := res.returnCode
    trapNum := res.trapNum
    trapEpc := res.trapEpc
    trapCr2 := res.trapCr2
    isRE := res.trapNum != 255
    isTLE := res.trapNum == 32 }
  if res.timeNs > req.timeLimitNs ∨ result.isTLE = true then
    { result with isRE := false, isTLE := true, timeNs := req.timeLimitNs }
  else result

/-- `judge(req)` from the call of `ELF::run` on. -/
def judgeRun (p : Platform) (req : JudgeRequest) (u : Behaviour) (app : App) (s : State) :
    Except Fault (State × JudgeResult) := do
  let (m, res) ← Elf.run p.kernel app u s.m
  let result := resultOf req res
  let m ← copy (s.addr req.stdout.off) res.stdoutPtr res.stdoutSize m
  let m ← copy (s.addr req.stderr.off) res.stderrPtr res.stderrSize m
  let m ← copy (s.addr req.OB.off) res.OBPtr req.OB.len m
  let totalTimeNs := u64 (s.totalTimeNs + result.timeNs)
  .ok ({ s with m, judgeResult := result, totalTimeNs }, result)

/-- `judge(req)`, for a program that behaves as `u` says. -/
def judge (p : Platform) (req : JudgeRequest) (u : Behaviour) (s : State) :
    Except Fault (State × JudgeResult) := do
  let (s, next) ← judgeLoad p req s
  match next with
  | .inl result => .ok (s, result)
  | .inr app => judgeRun p req u app s

/-! ## Sequences of calls -/

/-- The operations on the buffer. -/
inductive Op where
  | clear (off len : Nat)
  | read (off len : Nat)
  | write (off : Nat) (data : List UInt8)
  | copy (dstOff srcOff len : Nat)
  | compare (off1 off2 len : Nat)
  | loadCache (cacheName : List Char) (dstOff dstLen : Nat) (hex : List Char) (tsc : Nat)
  | storeCache (cacheName : List Char) (srcOff srcLen : Nat) (hex : List Char) (tsc : Nat)

/-- What they return. -/
inductive Out where
  | done (ret : Bool)
  | data (data : Option (List UInt8))
  | same (result : Option Bool)
  deriving DecidableEq

/-- One operation. -/
def exec (p : Platform) (s : State) : Op → Except Fault (State × Out)
  | .clear off len => (clearBuffer off len s).map fun r => (r.1, .done r.2)
  | .read off len => (readBuffer off len s).map fun r => (s, .data r)
  | .write off data => (writeBuffer off data s).map fun r => (r.1, .done r.2)
  | .copy dstOff srcOff len => (copyBuffer dstOff srcOff len s).map fun r => (r.1, .done r.2)
  | .compare off1 off2 len => (compareBuffer off1 off2 len s).map fun r => (s, .same r)
  | .loadCache name off len hex tsc =>
    (loadCache name off len hex tsc s).map fun r => (r.1, .done r.2)
  | .storeCache name off len hex tsc =>
    (storeCache p.sorter name off len hex tsc s).map fun r => (r.1, .done r.2)

/-- A call: an operation, or a judge request and what the program does. -/
inductive Call where
  | op (op : Op)
  | judge (req : JudgeRequest) (u : Behaviour)

def call (p : Platform) (s : State) : Call → Except Fault State
  | .op op => (exec p s op).map Prod.fst
  | .judge req u => (judge p req u s).map Prod.fst

/-- One call after the other. -/
def session (p : Platform) (s : State) (calls : List Call) : Except Fault State :=
  calls.foldlM (call p) s

end JudgeDuck.Judger
