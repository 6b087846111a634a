/-
  What the judger is for.

  Seen from outside, the judger is a string of bytes that clients write and read, two finite maps that they
  keep strings in, and judging: a request names parts of the string, and what comes of it is a result and
  three strings that are written back (`Service`).  `Service.Step` says what a call may do and what it returns.
  The only freedom is in a map, which may drop entries when a new one is stored.  What a judge request comes to
  (`Service.verdict`) depends on the parts that it names and on what the program does, and on nothing else.

  `State.service` reads this off the machine and the caches, and `Refines.perform` says that every call is a
  step of the service, as long as cache requests stay inside the buffer.  Behind it is the invariant of the
  program region: pages without a mark are zero there, whatever was judged (`Tidy`).
-/
import JudgeDuck.Elf.Outcome
import JudgeDuck.Judger.Replay
import JudgeDuck.Lib.Splice

namespace JudgeDuck.Judger

open JudgeDuck.Lib JudgeDuck.Memory
open JudgeDuck.DuckCache (Cache Digest256 Contents pageSize hugePageSize)
open JudgeDuck.Elf (Behaviour Layout Kernel App)

/-! ## The service -/

/-- What never changes: the kernel's constants, the end of the memory for programs, and how many pages the
    caches have. -/
structure Site where
  kernel : Kernel
  room : Nat
  capacity : Which → Nat

/-- What a client can know. -/
structure Service where
  bytes : List UInt8
  contents : Which → Contents
  nJudges : Nat
  totalTimeNs : Nat
  seqNum : Nat
  result : JudgeResult

/-- What a call returns. -/
inductive Reply where
  | op (out : Out)
  | judge (result : JudgeResult)
  deriving DecidableEq

/-! The sizes in a request are 64-bit words. -/

theorem JudgeRequest.memoryHardLimit_lt (req : JudgeRequest) : u64 (req.memoryHardLimitKb * 1024) < 2 ^ 64 :=
  Nat.mod_lt _ (Nat.two_pow_pos 64)

theorem JudgeRequest.stdout_lt (req : JudgeRequest) : req.stdout.len < 2 ^ 64 := req.stdout.len_lt

theorem JudgeRequest.stderr_lt (req : JudgeRequest) : req.stderr.len < 2 ^ 64 := req.stderr.len_lt

namespace Service

/-- Before the first call. -/
def fresh (size : Nat) : Service := ⟨List.replicate size 0, fun _ _ => none, 0, 0, 2 ^ 64 - 1, notJudged⟩

variable (v : Service)

/-- A part of the bytes that may be named; it does not start at their end. -/
def Holds (off len : Nat) : Prop := off < v.bytes.length ∧ off + len ≤ v.bytes.length

instance (off len : Nat) : Decidable (v.Holds off len) := inferInstanceAs (Decidable (_ ∧ _))

/-- Bytes are changed, and with that the latest result is gone. -/
def write (off : Nat) (data : List UInt8) : Service :=
  { v with bytes := splice v.bytes off data, seqNum := 2 ^ 64 - 1, result := notJudged }

/-- The operations on the bytes are carried out if they are in range. -/
def Accepts : Op → Prop
  | .clear off len => v.Holds off len
  | .read off len => v.Holds off len
  | .write off data => v.Holds off data.length
  | .copy dstOff srcOff len =>
    v.Holds dstOff len ∧ v.Holds srcOff len ∧ (dstOff + len ≤ srcOff ∨ srcOff + len ≤ dstOff)
  | .compare off1 off2 len => v.Holds off1 len ∧ v.Holds off2 len
  | _ => False

/-- The program of a request, with its inputs. -/
def request (req : JudgeRequest) : Elf.Request where
  buf := part v.bytes req.ELF.off (req.ELF.len % 2 ^ 32)
  config := {
    memoryHardLimit := u64 (req.memoryHardLimitKb * 1024)
    stdin := part v.bytes req.stdin.off req.stdin.len
    stdoutMaxSize := req.stdout.len
    stderrMaxSize := req.stderr.len
    IB := part v.bytes req.IB.off req.IB.len
    OB := part v.bytes req.OB.off req.OB.len
    OBNeedClear := req.OBNeedClear != 0
    memoryHardLimit_lt := req.memoryHardLimit_lt
    stdin_lt := Nat.lt_of_le_of_lt (length_part_le _ _ _) req.stdin.len_lt
    stdoutMaxSize_lt := req.stdout_lt
    stderrMaxSize_lt := req.stderr_lt
    IB_lt := Nat.lt_of_le_of_lt (length_part_le _ _ _) req.IB.len_lt
    OB_lt := Nat.lt_of_le_of_lt (length_part_le _ _ _) req.OB.len_lt }
  len_lt := Nat.lt_of_le_of_lt (length_part_le _ _ _) (Nat.mod_lt _ (Nat.two_pow_pos 32))

/-- The buffers of a request are in range and have no byte in common. -/
def Sane (req : JudgeRequest) : Prop :=
  (∀ b ∈ req.buffers, v.Holds b.off b.len) ∧ req.buffers.Pairwise BufferDesc.Apart

instance : DecidableRel BufferDesc.Apart := fun _ _ => inferInstanceAs (Decidable (_ ∨ _))

instance (req : JudgeRequest) : Decidable (v.Sane req) := inferInstanceAs (Decidable (_ ∧ _))

/-- The outputs of a program, and where they go. -/
def outputs (kernel : Kernel) (req : JudgeRequest) (r : Elf.Request) (lay : Layout) (u : Behaviour) :
    List (Nat × List UInt8) :=
  let res := Elf.outcome kernel r lay u
  let final := fun a n => listOf (fun i => Elf.finalByte kernel r lay u (a + i)) n
  [(req.stdout.off, final lay.stdinBreak res.stdoutSize), (req.stderr.off, final lay.stdoutBreak res.stderrSize),
    (req.OB.off, final lay.IBBreak req.OB.len)]

/-- **What a judge request comes to**: an error, or a result and the outputs of the program. -/
def verdict (site : Site) (req : JudgeRequest) (u : Behaviour) :
    Except String (JudgeResult × List (Nat × List UInt8)) :=
  if u64 (req.memoryHardLimitKb * 1024) < req.memoryHardLimitKb then .error "Can't load ELF"
  else if ¬ v.Sane req then .error "Can't load ELF"
  else if req.timeLimitNs = 0 ∨ req.timeLimitNs > maxTimeLimitNs then .error "Invalid time limit"
  else
    match Elf.layout32 site.room (v.request req) with
    | none => .error "Can't load ELF"
    | some lay => .ok (resultOf req (Elf.outcome site.kernel (v.request req) lay u),
        outputs site.kernel req (v.request req) lay u)

/-- A judge request: the number of the latest one gives its result again. -/
def judge (site : Site) (req : JudgeRequest) (u : Behaviour) : Service × JudgeResult :=
  if req.seqNum = v.seqNum then (v, v.result)
  else
    match v.verdict site req u with
    | .error error =>
      let result := { v.result with error := some error }
      ({ v with nJudges := u64 (v.nJudges + 1), seqNum := req.seqNum, result }, result)
    | .ok (result, outs) =>
      ({ v with
          bytes := spliceAll v.bytes outs
          nJudges := u64 (v.nJudges + 1), seqNum := req.seqNum, result
          totalTimeNs := u64 (v.totalTimeNs + result.timeNs) }, result)

end Service

/-- **The calls of a client.** -/
inductive Service.Step (site : Site) : Service → Call → Reply → Service → Prop
  | refused {v : Service} {op : Op} : op.cached = false → ¬ v.Accepts op →
      Step site v (.op op) (.op op.refused) v
  | clear {v : Service} {off len : Nat} : v.Holds off len →
      Step site v (.op (.clear off len)) (.op (.done true)) (v.write off (List.replicate len 0))
  | read {v : Service} {off len : Nat} : v.Holds off len →
      Step site v (.op (.read off len)) (.op (.data (some (part v.bytes off len)))) v
  | write {v : Service} {off : Nat} {data : List UInt8} : v.Holds off data.length →
      Step site v (.op (.write off data)) (.op (.done true)) (v.write off data)
  | copy {v : Service} {dstOff srcOff len : Nat} : v.Accepts (.copy dstOff srcOff len) →
      Step site v (.op (.copy dstOff srcOff len)) (.op (.done true))
        (v.write dstOff (part v.bytes srcOff len))
  | compare {v : Service} {off1 off2 len : Nat} : v.Accepts (.compare off1 off2 len) →
      Step site v (.op (.compare off1 off2 len))
        (.op (.same (some (decide (part v.bytes off1 len = part v.bytes off2 len))))) v
  | loadUnknown {v : Service} {name hex : List Char} {off len tsc : Nat} :
      digestFromHex hex = none ∨ cacheNamed name = none →
      Step site v (.op (.loadCache name off len hex tsc)) (.op (.done false)) v
  | loadHit {v : Service} {name hex : List Char} {off tsc : Nat} {d : Digest256} {which : Which}
      {b : List UInt8} : digestFromHex hex = some d → cacheNamed name = some which →
      v.contents which d = some b →
      Step site v (.op (.loadCache name off b.length hex tsc)) (.op (.done true)) (v.write off b)
  | loadMiss {v : Service} {name hex : List Char} {off len tsc : Nat} {d : Digest256} {which : Which} :
      digestFromHex hex = some d → cacheNamed name = some which →
      (∀ b, v.contents which d = some b → b.length ≠ len) →
      Step site v (.op (.loadCache name off len hex tsc)) (.op (.done false)) v
  | storeUnknown {v : Service} {name hex : List Char} {off len tsc : Nat} :
      digestFromHex hex = none ∨ cacheNamed name = none →
      Step site v (.op (.storeCache name off len hex tsc)) (.op (.done false)) v
  | storePresent {v : Service} {name hex : List Char} {off len tsc : Nat} {d : Digest256} {which : Which}
      {b : List UInt8} : digestFromHex hex = some d → cacheNamed name = some which →
      v.contents which d = some b →
      Step site v (.op (.storeCache name off len hex tsc)) (.op (.done true)) v
  | storeRefused {v : Service} {name hex : List Char} {off len tsc : Nat} {d : Digest256} {which : Which} :
      digestFromHex hex = some d → cacheNamed name = some which → v.contents which d = none →
      site.capacity which < DuckCache.pageCount len →
      Step site v (.op (.storeCache name off len hex tsc)) (.op (.done false)) v
  | storeNew {v : Service} {name hex : List Char} {off len tsc : Nat} {d : Digest256} {which : Which}
      {A : Contents} : digestFromHex hex = some d → cacheNamed name = some which →
      v.contents which d = none → A d = some (part v.bytes off len) →
      (∀ d', d' ≠ d → A d' = v.contents which d' ∨ A d' = none) →
      Step site v (.op (.storeCache name off len hex tsc)) (.op (.done true))
        { v with contents := Function.update v.contents which A }
  | judge {v : Service} {req : JudgeRequest} {u : Behaviour} :
      Step site v (.judge req u) (.judge (v.judge site req u).2) (v.judge site req u).1

/-- One call after the other. -/
inductive Service.Run (site : Site) : Service → List Call → List Reply → Service → Prop
  | nil {v : Service} : Run site v [] [] v
  | cons {v v1 v2 : Service} {c : Call} {r : Reply} {cs : List Call} {rs : List Reply} :
      Step site v c r v1 → Run site v1 cs rs v2 → Run site v (c :: cs) (r :: rs) v2

/-! ## The judger as a service -/

/-- A call, and what it returns. -/
def perform (p : Platform) (s : State) : Call → Except Fault (State × Reply)
  | .op op => (exec p s op).map fun r => (r.1, .op r.2)
  | .judge req u => (judge p req u s).map fun r => (r.1, .judge r.2)

/-- One call after the other, with what they return. -/
def performAll (p : Platform) : State → List Call → Except Fault (State × List Reply)
  | s, [] => .ok (s, [])
  | s, c :: cs => do
    let (s, r) ← perform p s c
    let (s, rs) ← performAll p s cs
    .ok (s, r :: rs)

/-- The bytes of the buffer. -/
def State.view (s : State) (m : Machine) : List UInt8 :=
  listOf (fun i => m.mem (s.buffer + i)) s.bufferSize

/-- What a client can know of a state. -/
def State.service (s : State) : Service where
  bytes := s.view s.m
  contents which := (s.cache which).contents
  nJudges := s.nJudges
  totalTimeNs := s.totalTimeNs
  seqNum := s.judgeSeqNum
  result := s.judgeResult

def State.site (p : Platform) (s : State) : Site :=
  ⟨p.kernel, s.m.vaddrBreak, fun which => (s.cache which).nTotalPages⟩

/-- The program region is as loads and runs leave it. -/
def Tidy (s0 s : State) : Prop := ∃ app?, Elf.Inv s0.m (s.m, app?)

/-- What holds after every call: `s0` is the state after `init`. -/
structure Serves (s0 s : State) : Prop where
  fit : Fit s
  runs : Runs s0 s
  tidy : Tidy s0 s
  kept : s.judgeResultCleared = true → s.judgeSeqNum = 2 ^ 64 - 1 ∧ s.judgeResult = notJudged
  pages : ∀ which, (s.cache which).nTotalPages = (s0.cache which).nTotalPages

/-! ## The buffer -/

section Buffer

variable {s : State} {m m' : Machine} {off len : Nat}

theorem length_view (s : State) (m : Machine) : (s.view m).length = s.bufferSize := length_listOf _ _

theorem holds_service : s.service.Holds off len ↔ s.inBuffer off len = true := by
  rw [inBuffer_iff, Service.Holds, State.service, length_view]

/-- Reading a part of the buffer. -/
theorem read_view (hp : Placed s) (hm : m.mapped = s.m.mapped) (h : off + len ≤ s.bufferSize) :
    read m (s.addr off) len = .ok (part (s.view m) off len) := by
  have hfits := hp.fits
  rw [read, addr_of_le hp (by omega), if_neg (by rw [hm]; omega), State.view, part_listOf _ h]
  exact congrArg Except.ok (listOf_congr fun i _ => by rw [Nat.add_assoc])

/-- Writing to a part of the buffer. -/
theorem write_view (hp : Placed s) (hm : m.mapped = s.m.mapped) (data : List UInt8)
    (h : off + data.length ≤ s.bufferSize) :
    ∃ m', m.write (s.addr off) data = .ok m' ∧ SameTables m m' ∧ s.view m' = splice (s.view m) off data ∧
      ∀ a, a < s.buffer → m'.mem a = m.mem a := by
  have hfits := hp.fits
  have haddr : s.addr off = s.buffer + off := addr_of_le hp (by omega)
  have hwrite : m.write (s.addr off) data = .ok (m.stored ⟨s.addr off, data⟩) :=
    Machine.write_of_le (by rw [haddr, hm]; omega)
  have hmem : ∀ a, (m.stored ⟨s.addr off, data⟩).mem a =
      if s.buffer + off ≤ a ∧ a < s.buffer + off + data.length then data.getD (a - (s.buffer + off)) 0
      else m.mem a := by
    intro a
    refine (store_apply ..).trans ?_
    simp only [Write.covers, haddr, decide_eq_true_eq]
  refine ⟨_, hwrite, .of_write hwrite, ?_, ?_⟩
  · refine listOf_splice h ?_ ?_
    · refine (listOf_congr fun i hi => ?_).trans (listOf_getD data 0)
      rw [hmem, if_pos (by omega)]
      congr 1
      omega
    · intro i hi hout
      rw [hmem, if_neg (by omega)]
  · intro a ha
    rw [hmem, if_neg (by omega)]

end Buffer

/-! ## What every call keeps -/

section Keeping

variable {p : Platform} {s0 s s' : State} {op : Op} {out : Out}

/-- Bytes at and above the buffer do not matter to the program region. -/
theorem Tidy.of_frame (habove : s.m.vaddrBreak ≤ s.buffer) (h : Tidy s0 s) (htables : SameTables s.m s'.m)
    (hframe : ∀ a, a < s.buffer → s'.m.mem a = s.m.mem a) : Tidy s0 s' := by
  obtain ⟨app?, hinv⟩ := h
  refine ⟨app?, htables.protect hinv.toProtected, ?_⟩
  intro a hlow hhigh hduck
  have hbreak : s'.m.vaddrBreak = s.m.vaddrBreak := htables.vaddrBreak
  have hmem : s'.m.mem a = s.m.mem a := hframe a (by rw [hbreak] at hhigh; omega)
  rw [hmem]
  refine hinv.clean a hlow (hbreak ▸ hhigh) ?_
  rw [← htables.p1]
  exact hduck

/-- A call is inside: only cache requests do not test their ranges. -/
def Call.Inside (size : Nat) : Call → Prop
  | .op op => op.cached = true → op.Inside size
  | .judge _ _ => True

/-- An operation that stays inside leaves everything below the buffer alone. -/
theorem exec_frame (hp : Placed s) (hinside : op.cached = true → op.Inside s.bufferSize)
    (h : exec p s op = .ok (s', out)) : SameTables s.m s'.m ∧ ∀ a, a < s.buffer → s'.m.mem a = s.m.mem a := by
  have hkeeps : KeepsToBuffer p s op := by
    refine (keepsToBuffer_iff hp op).mpr fun haccepted => ?_
    cases hcached : op.cached with
    | true => exact hinside hcached
    | false => cases op <;> first | exact haccepted.elim | cases hcached
  refine ⟨?_, fun a ha => hkeeps.writes s' out h a fun hin => ?_⟩
  · rcases exec_effect h with ⟨e, d, rfl⟩ | ⟨m, e, d, htables, rfl⟩
    · exact ⟨rfl, rfl, rfl⟩
    · rw [clearJudgeResult_m]
      exact htables
  · exact absurd hin.1 (Nat.not_le.mpr ha)

theorem Effect.kept (h : Effect s s')
    (hkept : s.judgeResultCleared = true → s.judgeSeqNum = 2 ^ 64 - 1 ∧ s.judgeResult = notJudged) :
    s'.judgeResultCleared = true → s'.judgeSeqNum = 2 ^ 64 - 1 ∧ s'.judgeResult = notJudged := by
  rcases h with ⟨e, d, rfl⟩ | ⟨m, e, d, -, rfl⟩
  · exact hkept
  · intro _
    rw [clearJudgeResult]
    split
    · next hcleared => exact hkept hcleared
    · exact ⟨rfl, rfl⟩

/-- What an operation keeps, up to the number of pages of the caches. -/
theorem Serves.exec (h : Serves s0 s) (hop : op.Timed) (hinside : op.cached = true → op.Inside s.bufferSize)
    (hexec : exec p s op = .ok (s', out))
    (hpages : ∀ which, (s'.cache which).nTotalPages = (s.cache which).nTotalPages) : Serves s0 s' := by
  obtain ⟨htables, hframe⟩ := exec_frame h.fit.placed hinside hexec
  have heffect := exec_effect hexec
  have habove := Nat.le_of_add_right_le h.fit.placed.above
  exact ⟨h.fit.exec hop hexec, heffect.runs h.runs, h.tidy.of_frame habove htables hframe,
    heffect.kept h.kept, fun which => (hpages which).trans (h.pages which)⟩

end Keeping

end JudgeDuck.Judger
