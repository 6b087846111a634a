/-
  The server of the judge (`kern/duck_server.cpp`): requests and replies are UDP datagrams.

  A datagram to port 9999 is offered to five functions `process_…`, one after the other, until one of
  them knows it; that function may leave a reply, which goes back to where the datagram came from.
  Most requests are texts that are read by `sscanf`.  `write-buffer` is binary behind its name, and the
  digest of a cache request is in the last 64 bytes, wherever the numbers before it end.

  A datagram is a list of bytes; the zero that is written behind it is where `sscanf` ends (`cstr`).
  A reply is a list of bytes, too: most are written over the request (`Sizes` is about the room that
  they have there).  What the machine reads off its clocks and registers, and what a judged program
  does, is given for each datagram (`Readings`); what stays the same is in `Setup`.  That a number with
  digits behind the point is printed, `clock-MHz`, is a field of it.

  Left out: log messages, and setting up `turbo boost`, which does nothing.
-/
import JudgeDuck.Judger.Model
import JudgeDuck.DuckServer.Text

namespace JudgeDuck.DuckServer

open JudgeDuck.Lib
open JudgeDuck.Judger (Platform State JudgeRequest JudgeResult BufferDesc Which)
open JudgeDuck.Network (Scanned)
open JudgeDuck.DuckCache (Cache)
open JudgeDuck.Elf (Behaviour le leBytes)

/-! ## Comparing -/

/-- `equals_to(s1, len1, s2)`. -/
def equalsTo (s1 : List UInt8) (s2 : String) : Bool := s1 == text s2

/-- `starts_with(s1, len1, s2)`. -/
def startsWith (s1 : List UInt8) (s2 : String) : Bool := (text s2).isPrefixOf s1

/-! ## What is given -/

/-- What stays the same while the server runs. -/
structure Setup where
  platform : Platform
  extFreq : Nat
  microcodeOrigRev : Nat
  /-- `%.5lf` of `clk_thread / (double) clk_ref_tsc * tsc_MHz`, or of zero. -/
  clockMHz : (clkThread clkRefTsc tscMHz : Nat) → List UInt8
  clockMHz_length : ∀ clkThread clkRefTsc tscMHz, (clockMHz clkThread clkRefTsc tscMHz).length ≤ 40

/-- What the machine reads while it handles a datagram, and what a judged program does. -/
structure Readings where
  secSinceEpoch : Nat
  tsc : Nat
  temperatureTarget : Nat
  thermStatus : Nat
  microcodeRev : Nat
  user : Behaviour

/-- What a function `process_…` returns: `false`; or `true`, without or with a reply. -/
inductive Processed where
  | unknown
  | silent
  | reply (res : List UInt8)
  deriving DecidableEq

/-! ## Controls -/

/-- `extract_bits(x, hi, lo)`. -/
def extractBits (x hi lo : Nat) : Nat := u64 (x * 2 ^ (63 - hi)) / 2 ^ (lo + 63 - hi)

/-- `temp` of `cpu-temp`; a difference of unsigned numbers. -/
def cpuTemp (e : Readings) : Nat :=
  u64 (2 ^ 64 + extractBits e.temperatureTarget 23 16 - extractBits e.thermStatus 22 16)

/-- The reply to `uptime`. -/
def uptimeReply (e : Readings) : List UInt8 := text "uptime " ++ lu e.secSinceEpoch

/-- The reply to `statistics`. -/
def statisticsReply (s : State) : List UInt8 :=
  text "statistics " ++ lu s.nJudges ++ text " " ++ lu s.totalTimeNs

/-- The reply to `cpu-temp`. -/
def cpuTempReply (e : Readings) : List UInt8 := text "cpu-temp " ++ lu (cpuTemp e)

/-- The reply to `sysinfo`. -/
def sysinfoReply (c : Setup) (e : Readings) : List UInt8 :=
  text "microcode-orig-rev = 0x" ++ x02 c.microcodeOrigRev ++ text "\n" ++
    text "microcode-current-rev = 0x" ++ x02 e.microcodeRev ++ text "\n"

/-- `process_controls(content, len, res, res_len)`. -/
def processControls (c : Setup) (e : Readings) (s : State) (content : List UInt8) : Processed :=
  if equalsTo content "uptime" then .reply (uptimeReply e)
  else if equalsTo content "statistics" then .reply (statisticsReply s)
  else if equalsTo content "cpu-temp" then .reply (cpuTempReply e)
  else if equalsTo content "sysinfo" then .reply (sysinfoReply c e)
  else .unknown

/-! ## The buffer -/

/-- `MAX_QUERY_LEN`. -/
def maxQueryLen : Nat := 1400

/-- The reply to an operation that returned `true`, and none to one that returned `false`. -/
def replyIf (ret : Bool) (res : List UInt8) : Processed := if ret then .reply res else .silent

/-- `clear-buffer`. -/
def clearRequest (qOff qLen : Nat) (s : State) : Except Fault (State × Processed) := do
  let (s, ret) ← Judger.clearBuffer qOff qLen s
  .ok (s, replyIf ret (text "ok-clear-buffer " ++ lu qOff ++ text " " ++ lu qLen))

/-- `read-buffer`. -/
def readRequest (qOff qLen : Nat) (s : State) : Except Fault (State × Processed) :=
  if qLen > maxQueryLen then .ok (s, .silent)
  else do
    let qRes ← Judger.readBuffer qOff qLen s
    .ok (s, match qRes with
      | none => .silent
      | some qRes => .reply (text "ok-read-buffer" ++ leBytes 8 qOff ++ qRes))

/-- `write-buffer`; `data` is what follows the name. -/
def writeRequest (data : List UInt8) (s : State) : Except Fault (State × Processed) :=
  if data.length < 8 then .ok (s, .silent)
  else do
    let qOff := le data 0 8
    let (s, ret) ← Judger.writeBuffer qOff (data.drop 8) s
    .ok (s, replyIf ret
      (text "ok-write-buffer " ++ lu qOff ++ text " " ++ lu (data.length - 8)))

/-- `copy-buffer`. -/
def copyRequest (qOff qOff2 qLen : Nat) (s : State) : Except Fault (State × Processed) := do
  let (s, ret) ← Judger.copyBuffer qOff qOff2 qLen s
  .ok (s, replyIf ret
    (text "ok-copy-buffer " ++ lu qOff ++ text " " ++ lu qOff2 ++ text " " ++ lu qLen))

/-- `compare-buffer`. -/
def compareRequest (qOff qOff2 qLen : Nat) (s : State) : Except Fault (State × Processed) := do
  let compResult ← Judger.compareBuffer qOff qOff2 qLen s
  .ok (s, match compResult with
    | none => .silent
    | some compResult => .reply (text "ok-compare-buffer " ++ lu qOff ++ text " " ++ lu qOff2 ++
        text " " ++ lu qLen ++ text " " ++ lu compResult.toNat))

/-- `process_data(content, len, res, res_len)`. -/
def processData (content : List UInt8) (s : State) : Except Fault (State × Processed) :=
  if equalsTo content "query-buffer-size" then
    .ok (s, .reply (text "ok-query-buffer-size " ++ lu s.bufferSize))
  else
  match scan "clear-buffer %lu %lu" content with
  | [.num qOff, .num qLen] => clearRequest qOff qLen s
  | _ =>
  match scan "read-buffer %lu %lu" content with
  | [.num qOff, .num qLen] => readRequest qOff qLen s
  | _ =>
  if startsWith content "write-buffer" then writeRequest (content.drop 12) s
  else
  match scan "copy-buffer %lu %lu %lu" content with
  | [.num qOff, .num qOff2, .num qLen] => copyRequest qOff qOff2 qLen s
  | _ =>
  match scan "compare-buffer %lu %lu %lu" content with
  | [.num qOff, .num qOff2, .num qLen] => compareRequest qOff qOff2 qLen s
  | _ => .ok (s, .unknown)

/-! ## Judging -/

/-- The format of `judge`: no white space is asked for between the two lines of numbers. -/
def judgeFormat : String :=
  "judge %lu %lu %lu " ++ "%lu %lu %lu %lu %lu %lu %lu %lu" ++ "%lu %lu %lu %lu %lu"

/-- A part of the buffer that was read. -/
def scannedDesc (off len : Nat) : BufferDesc where
  off := u64 off
  len := u64 len
  off_lt := Nat.mod_lt _ (by decide)
  len_lt := Nat.mod_lt _ (by decide)

/-- The numbers in the order in which `sscanf` stores them. -/
def scannedRequest (n : Nat → Nat) : JudgeRequest where
  seqNum := u64 (n 0)
  timeLimitNs := u64 (n 1)
  memoryHardLimitKb := u64 (n 2)
  ELF := scannedDesc (n 3) (n 4)
  stdin := scannedDesc (n 5) (n 6)
  stdout := scannedDesc (n 7) (n 8)
  stderr := scannedDesc (n 9) (n 10)
  IB := scannedDesc (n 11) (n 12)
  OB := scannedDesc (n 13) (n 14)
  OBNeedClear := n 15
  seqNum_lt := Nat.mod_lt _ (by decide)
  timeLimitNs_lt := Nat.mod_lt _ (by decide)
  memoryHardLimitKb_lt := Nat.mod_lt _ (by decide)

/-- The numbers among what was read. -/
def numbers (vs : List Scanned) : List Nat := vs.filterMap fun
  | .num x => some x
  | .str _ => none

/-- A line of the reply: a name and a value. -/
def line (name : String) (value : List UInt8) : List UInt8 := text name ++ text " " ++ value ++ text "\n"

/-- `RE_STR`, `TLE_STR` or `FINISH_STR`. -/
def status (r : JudgeResult) : String :=
  if r.isRE then "Runtime Error" else if r.isTLE then "Time Limit Exceeded" else "Run Finished"

/-- `res_str` of `process_judge`. -/
def judgeReply (c : Setup) (r : JudgeResult) : List UInt8 :=
  match r.error with
  | some error => text "ok-judge\nJudge Failed\n" ++ text error ++ text "\n"
  | none =>
    let tscMHz := c.platform.kernel.tscFreq / 1000000
    text "ok-judge\n" ++
    line "count-inst" (lu r.countInst) ++
    line "clk-thread" (lu r.clkThread) ++
    line "clk-ref-tsc" (lu r.clkRefTsc) ++
    line "clock-MHz" (c.clockMHz r.clkThread r.clkRefTsc tscMHz) ++
    line "tsc-MHz" (lu tscMHz) ++
    line "ext-MHz" (lu (c.extFreq / 1000000)) ++
    line "time-ns" (lu r.timeNs) ++
    line "time-ns-ref-tsc" (lu r.timeNsRefTsc) ++
    line "time-ns-real" (lu r.timeNsReal) ++
    line "time-tsc" (lu r.timeTsc) ++
    line "memory-kb" (lu r.memoryKb) ++
    line "memory-kb-accessed" (lu r.memoryKbAccessed) ++
    line "stdout-size" (lu r.stdoutSize) ++
    line "stderr-size" (lu r.stderrSize) ++
    line "return-code" (d r.returnCode) ++
    line "trap-num" (d (r.trapNum % 256)) ++
    line "trap-epc" (text "0x" ++ lx r.trapEpc) ++
    line "trap-cr2" (text "0x" ++ lx r.trapCr2) ++
    line "status" (text (status r))

/-- `process_judge(content, len, res, res_len)`. -/
def processJudge (c : Setup) (e : Readings) (content : List UInt8) (s : State) :
    Except Fault (State × Processed) :=
  let ns := numbers (scan judgeFormat content)
  if ns.length = 16 then do
    let (s, r) ← Judger.judge c.platform (scannedRequest fun i => ns.getD i 0) e.user s
    .ok (s, .reply (judgeReply c r))
  else .ok (s, .unknown)

/-! ## The caches -/

/-- The characters of a string in memory. -/
def chars (bs : List UInt8) : List Char := bs.map fun b => Char.ofNat b.toNat

/-- `cache.info(output)`. -/
def info (c : Cache) : List UInt8 :=
  text "size " ++ lu c.cacheSize ++ text ", n_objects " ++ lu c.nCurObjects ++ text " / " ++
    lu c.nMaxObjects ++ text ", n_pages " ++ lu (u64 (2 ^ 64 + c.nTotalPages - c.nFreePages)) ++
    text " / " ++ lu c.nTotalPages

/-- `get_cache_info(cache_name, output)`. -/
def getCacheInfo (cacheName : List UInt8) (s : State) : List UInt8 :=
  match Judger.cacheNamed (chars cacheName) with
  | some which => info (s.cache which)
  | none => text "no-such-cache"

/-- `content + len - 64`. -/
def hexOf (content : List UInt8) : List Char := chars (content.drop (content.length - 64))

/-- A reply to a cache request repeats its words. -/
def cacheReply (name : String) (qCacheName : List UInt8) (qOff qLen : Nat) : List UInt8 :=
  text name ++ text " " ++ qCacheName ++ text " " ++ lu qOff ++ text " " ++ lu qLen

/-- `load-cache`. -/
def loadRequest (e : Readings) (qCacheName : List UInt8) (qOff qLen : Nat) (hex : List Char)
    (s : State) : Except Fault (State × Processed) := do
  let (s, ret) ← Judger.loadCache (chars qCacheName) qOff qLen hex e.tsc s
  .ok (s, .reply (cacheReply (if ret then "ok-load-cache" else "fail-load-cache") qCacheName qOff qLen))

/-- `store-cache`. -/
def storeRequest (c : Setup) (e : Readings) (qCacheName : List UInt8) (qOff qLen : Nat)
    (hex : List Char) (s : State) : Except Fault (State × Processed) := do
  let (s, ret) ← Judger.storeCache c.platform.sorter (chars qCacheName) qOff qLen hex e.tsc s
  .ok (s, .reply (cacheReply (if ret then "ok-store-cache" else "fail-store-cache") qCacheName qOff qLen))

/-- `info-cache`. -/
def infoReply (qCacheName : List UInt8) (s : State) : List UInt8 :=
  text "info-cache " ++ qCacheName ++ text " " ++ getCacheInfo qCacheName s

/-- `len > 64 && 3 == sscanf(content, format, q_cache_name, &q_off, &q_len)`. -/
def scanCache (format : String) (content : List UInt8) : List Scanned :=
  if content.length > 64 then scan format content else []

/-- `process_cache(content, len, res, res_len)`. -/
def processCache (c : Setup) (e : Readings) (content : List UInt8) (s : State) :
    Except Fault (State × Processed) :=
  match scanCache "load-cache %s %lu %lu" content with
  | [.str qCacheName, .num qOff, .num qLen] => loadRequest e qCacheName qOff qLen (hexOf content) s
  | _ =>
  match scanCache "store-cache %s %lu %lu" content with
  | [.str qCacheName, .num qOff, .num qLen] => storeRequest c e qCacheName qOff qLen (hexOf content) s
  | _ =>
  match scan "info-cache %s" content with
  | [.str qCacheName] => .ok (s, .reply (infoReply qCacheName s))
  | _ => .ok (s, .unknown)

/-! ## Several at once -/

/-- `APPEND_RESULT()`; without a result, a null pointer is read. -/
def appendResult (res : List UInt8) : Processed → Except Fault (List UInt8)
  | .reply tmpRes => .ok (res ++ tmpRes ++ text "\n")
  | _ => .error .bufferOverflow

/-- `process_special(content, len, res, res_len)`. -/
def processSpecial (c : Setup) (e : Readings) (content : List UInt8) (s : State) :
    Except Fault (State × Processed) :=
  if equalsTo content "query-all" then do
    let res ← appendResult [] (processControls c e s (text "uptime"))
    let res ← appendResult res (processControls c e s (text "statistics"))
    let (s, tmpRes) ← processCache c e (text "info-cache elf") s
    let res ← appendResult res tmpRes
    let (s, tmpRes) ← processCache c e (text "info-cache data") s
    let res ← appendResult res tmpRes
    let res ← appendResult res (processControls c e s (text "cpu-temp"))
    .ok (s, .reply res)
  else .ok (s, .unknown)

/-! ## Datagrams -/

/-- `a || b`, for functions `process_…`. -/
def orElse (a b : State → Except Fault (State × Processed)) (s : State) :
    Except Fault (State × Processed) := do
  let (s, processed) ← a s
  match processed with
  | .unknown => b s
  | processed => .ok (s, processed)

/-- The five functions. -/
def process (c : Setup) (e : Readings) (content : List UInt8) :
    State → Except Fault (State × Processed) :=
  orElse (fun s => .ok (s, processControls c e s content)) <|
  orElse (processData content) <|
  orElse (processJudge c e content) <|
  orElse (processCache c e content) <|
  processSpecial c e content

/-- `duck_packet_handle(src, sport, content, content_len)`, without sending: the reply, if there is
    one.  `reboot` does not return. -/
def duckPacketHandle (c : Setup) (e : Readings) (content : List UInt8) (s : State) :
    Except Fault (State × Option (List UInt8)) :=
  if equalsTo content "reboot" then .error .abort
  else do
    let (s, processed) ← process c e content s
    .ok (s, match processed with
      | .reply res => some res
      | _ => none)

end JudgeDuck.DuckServer
