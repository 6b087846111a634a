/-
  Sequences of calls to the judger.

  After `init` and any sequence of calls the buffer is where it was, and the pages that programs may
  write are below `vaddr_break` (`Runs`).  From that follows which operations keep to the buffer
  (`operation_keeps_iff`), and what a judge call changes (`judge_changes_outputs`).
-/
import JudgeDuck.DuckCache.Refinement
import JudgeDuck.Elf.Outcome
import JudgeDuck.Judger.Judge

namespace JudgeDuck.Judger

open JudgeDuck.Lib JudgeDuck.Memory
open JudgeDuck.DuckCache (Cache Digest256 StdSort pageSize hugePageSize roundUp)
open JudgeDuck.Elf (App Behaviour Layout)

/-! ## What every sequence keeps -/

/-- What holds after every sequence of calls that starts in `s0`. -/
structure Runs (s0 s : State) : Prop where
  buffer : s.buffer = s0.buffer
  bufferSize : s.bufferSize = s0.bufferSize
  protect : ∃ app?, Elf.Protected s0.m (s.m, app?)

section

variable {p : Platform} {s0 s s' : State}

/-- What the flags say does not depend on bytes. -/
theorem SameTables.protect {m0 m m' : Machine} {app? : Option App} (h : SameTables m m')
    (hp : Elf.Protected m0 (m, app?)) : Elf.Protected m0 (m', app?) := by
  have hwritable : m'.userWritable = m.userWritable := by
    funext q
    rw [Machine.userWritable, Machine.userWritable, h.p1]
  refine ⟨h.vaddrBreak.trans hp.vaddrBreak, h.mapped.trans hp.mapped, ?_, ?_, hp.app, ?_⟩
  · show ∀ q, q < kernelBreak / pageSize → has (m'.p1 q) pteUser = false
    rw [h.p1]
    exact hp.low
  · show ∀ q, m0.vaddrBreak / pageSize ≤ q → has (m'.p1 q) pteUser = true → _
    rw [h.p1]
    exact hp.high
  · show ∀ q, m'.userWritable q = true → _
    rw [hwritable]
    exact hp.writable

theorem Runs.placed (h : Runs s0 s) (hp : Placed s0) : Placed s := by
  obtain ⟨hbuffer, hsize, app?, hprotect⟩ := h
  have hbreak : s.m.vaddrBreak = s0.m.vaddrBreak := hprotect.vaddrBreak
  have hmapped : s.m.mapped = s0.m.mapped := hprotect.mapped
  refine ⟨?_, ?_, ?_, ?_⟩
  · rw [hbreak, hbuffer]
    exact hp.above
  · rw [hmapped, hbuffer, hsize]
    exact hp.fits
  · rw [hmapped]
    exact hp.mapped_lt
  · rw [hsize]
    exact hp.size_lt

/-- Operations keep it. -/
theorem Effect.runs (he : Effect s s') (h : Runs s0 s) : Runs s0 s' := by
  obtain ⟨hbuffer, hsize⟩ := he.buffer
  refine ⟨hbuffer.trans h.buffer, hsize.trans h.bufferSize, ?_⟩
  obtain ⟨app?, hprotect⟩ := h.protect
  rcases he with ⟨e, d, rfl⟩ | ⟨m, e, d, htables, rfl⟩
  · exact ⟨app?, hprotect⟩
  · refine ⟨app?, ?_⟩
    rw [clearJudgeResult]
    split <;> exact htables.protect hprotect

/-- A judge call keeps it. -/
theorem Judges.runs {req : JudgeRequest} {u : Behaviour} {lay : Layout} {result : JudgeResult}
    {m : Machine} (hj : Judges p req u s s' lay result m) (h : Runs s0 s) : Runs s0 s' := by
  obtain ⟨app?, hprotect⟩ := h.protect
  obtain ⟨s1, res, hload, hrun⟩ := hj.ran
  obtain ⟨d, m', time, hs'⟩ := hj.state
  have hloaded := hprotect.load (k := p.kernel) hload.layout hload.ready
  rw [← hload.m_eq] at hloaded
  refine ⟨?_, ?_, _, hj.tables.protect (hloaded.run hrun)⟩
  · rw [hs']
    exact h.buffer
  · rw [hs']
    exact h.bufferSize

/-- **Every call keeps it**. -/
theorem Runs.call {c : Call} (h : Runs s0 s) (hp : Placed s0) (hcall : call p s c = .ok s') :
    Runs s0 s' := by
  cases c with
  | op op =>
    obtain ⟨⟨t, out⟩, hexec, rfl⟩ := map_ok hcall
    exact (exec_effect hexec).runs h
  | judge req u =>
    obtain ⟨⟨t, result⟩, hjudge, rfl⟩ := map_ok hcall
    rcases judge_cases (h.placed hp) hjudge with ⟨-, rfl, -⟩ | ⟨-, ⟨error, -, rfl, -⟩ | ⟨lay, m, hj⟩⟩
    · exact h
    · exact ⟨h.buffer, h.bufferSize, h.protect⟩
    · exact hj.runs h

/-- **Every session keeps it**, by induction on the calls. -/
theorem runs_session {calls : List Call} (hp : Placed s0) (hboot : Booted s0.m)
    (h : session p s0 calls = .ok s) : Runs s0 s :=
  foldlM_inv (Runs s0) (fun _ _ _ h hcall => h.call hp hcall) ⟨rfl, rfl, none, .init hboot⟩ h

end

/-! ## Operations -/

/-- **Which operations keep to the buffer**, after `init` and any sequence of calls: all of those that
    test their ranges, and of the cache operations those that the cache does not carry out or whose
    range is inside. -/
theorem operation_keeps_iff (p : Platform) (m0 : Machine) (rawElf rawData : Cache) (s0 s : State)
    (calls : List Call) (op : Op) (hinit : AfterInit m0) (hjudger : init rawElf rawData m0 = .ok s0)
    (hsession : session p s0 calls = .ok s) :
    KeepsToBuffer p s op ↔ (Accepted s op → op.Inside s.bufferSize) := by
  have hstarted := init_started hinit.booted hjudger
  have hruns := runs_session hstarted.placed hstarted.booted hsession
  exact keepsToBuffer_iff (hruns.placed hstarted.placed) op

/-- Some `Platform`. -/
def somePlatform : Platform := ⟨Elf.someKernel, DuckCache.mergeSorter⟩

/-- With 600 registered pages the judger has a buffer of 512 MiB at 700 MiB, and programs have what is
    below 188 MiB.  Bytes below the buffer are whatever they were. -/
theorem exists_small (b : UInt8) : ∃ m0 s0, AfterInit m0 ∧
    init DuckCache.zeros DuckCache.zeros m0 = .ok s0 ∧ s0.m.vaddrBreak = 188 * 2 ^ 20 ∧
    s0.buffer = 700 * 2 ^ 20 ∧ s0.bufferSize = 512 * 2 ^ 20 ∧ ∀ a, a < s0.buffer → s0.m.mem a = b := by
  obtain ⟨m0, hinit, hbreak, hmapped, hmem, -⟩ :=
    exists_afterInit (n := 600) (by decide) (by decide) (by decide) (fun _ => b)
  have hbreak : m0.vaddrBreak = 1212 * 2 ^ 20 := hbreak.trans (by decide)
  have hsmall : useSmall m0 = true := by
    rw [useSmall, canAllocateVirtualMemory, hbreak]
    decide
  obtain ⟨s0, hjudger, hs0, hbuffer, hsize⟩ :=
    exists_init (m := m0) DuckCache.zeros DuckCache.zeros (a := 188 * 2 ^ 20) hinit.booted (by decide)
      (by rw [hsmall, hbreak]; decide)
  rw [hsmall] at hbuffer hsize
  refine ⟨m0, s0, hinit, hjudger, hs0, hbuffer, hsize, ?_⟩
  intro a ha
  rw [(init_started hinit.booted hjudger).kept a ha, hmem]

/-- What was stored can be loaded. -/
theorem load_of_store {c : Cache} (d : Digest256) (src : Nat → UInt8) {len tsc : Nat}
    (sorter : StdSort) (hc : DuckCache.Inv c) (hempty : c.nCurObjects = 0)
    (hroom : DuckCache.pageCount len ≤ c.nTotalPages) (hlen : len < 2 ^ 63) (htsc : tsc ≠ 0) :
    ∃ c', DuckCache.store sorter c d src len tsc = .ok (c', true) ∧
      ∀ dst tsc, ∃ c'', DuckCache.load c' d dst len tsc =
        .ok (c'', true, memcpy dst 0 (fun t => (listOf src len).getD t 0) len) := by
  have habsent : ∀ o ∈ c.objects, o.digest ≠ d := by
    intro o ho
    rw [DuckCache.objects_eq_map, hempty] at ho
    exact absurd ho List.not_mem_nil
  obtain ⟨c1, c', new, hstore, hc', hshrunk, hgrown, hd⟩ :=
    DuckCache.store_new sorter src hc habsent hroom hlen htsc
  obtain ⟨hnew, -⟩ := DuckCache.contents_store hc hc' hshrunk hgrown hd
  obtain ⟨o, ho, hdigest, hbytes⟩ := (DuckCache.contents_eq_some hc').mp hnew
  have holen : o.metadata.len = len := by
    rw [← DuckCache.length_bytes c' o, hbytes, length_listOf]
  refine ⟨c', hstore, ?_⟩
  intro dst tsc
  obtain ⟨idx, hload⟩ := DuckCache.load_hit dst tsc hc' ho hdigest
  rw [hbytes, holen] at hload
  exact ⟨_, hload⟩

section

variable {p : Platform} {s : State} {name hex : List Char} {off len tsc : Nat} {which : Which}
  {digest : Digest256} {c : Cache}

theorem exec_storeCache_of_ok {ret : Bool} (hdigest : digestFromHex hex = some digest)
    (hname : cacheNamed name = some which) (hplain : s.plain (s.addr off) len = true)
    (hstore : DuckCache.store p.sorter (s.cache which) digest (fun i => s.m.mem (s.addr off + i)) len
      tsc = .ok (c, ret)) :
    exec p s (.storeCache name off len hex tsc) = .ok (s.setCache c which, .done ret) := by
  rw [exec, storeCache, hdigest, hname]
  simp only [hplain, Bool.not_true, Bool.and_false, Bool.false_eq_true, if_false]
  rw [bind_of_ok hstore]
  rfl

theorem exec_loadCache_of_ok {dst : Nat → UInt8} (hdigest : digestFromHex hex = some digest)
    (hname : cacheNamed name = some which) (hplain : s.plain (s.addr off) len = true)
    (hload : DuckCache.load (s.cache which) digest (fun i => s.m.mem (s.addr off + i)) len tsc =
      .ok (c, true, dst)) :
    exec p s (.loadCache name off len hex tsc) =
      .ok (clearJudgeResult (s.afterLoad which c (s.addr off) dst), .done true) := by
  rw [exec, loadCache, hdigest, hname]
  simp only
  rw [bind_of_ok hload]
  simp only [hplain, Bool.not_true, Bool.and_false, Bool.false_eq_true, if_false, if_true]
  rfl

theorem afterLoad_mem (a : Nat) (dst : Nat → UInt8) :
    (s.afterLoad which c a dst).m.mem a = dst 0 := by
  have hle : (s.afterLoad which c a dst).m.mem a = dst (a - a) := if_pos (Nat.le_refl a)
  rw [hle, Nat.sub_self]

end

/-- A string of 64 zeros. -/
def zeroHex : List Char := List.replicate 64 '0'

theorem digestFromHex_zeroHex : digestFromHex zeroHex = some ⟨0, 0, 0, 0⟩ := by decide +kernel

/-- The first byte of the buffer is in a cache, and can be loaded to anywhere. -/
theorem exists_stored : ∃ m0 s0 s, AfterInit m0 ∧ init DuckCache.zeros DuckCache.zeros m0 = .ok s0 ∧
    session somePlatform s0 [.op (.storeCache ['e', 'l', 'f'] 0 1 zeroHex 1)] = .ok s ∧
    s.m.vaddrBreak = 188 * 2 ^ 20 ∧ s.buffer = 700 * 2 ^ 20 ∧ s.bufferSize = 512 * 2 ^ 20 ∧
    (∀ a, a < s.buffer → s.m.mem a = 1) ∧
    ∀ off, s.plain (s.addr off) 1 = true → ∃ s',
      exec somePlatform s (.loadCache ['e', 'l', 'f'] off 1 zeroHex 1) = .ok (s', .done true) ∧
      s'.m.mem (s.addr off) = 0 := by
  obtain ⟨m0, s0, hinit, hjudger, hbreak, hbuffer, hsize, hmem⟩ := exists_small 1
  have hstarted := init_started hinit.booted hjudger
  have hplaced := hstarted.placed
  obtain ⟨c, hstore, hload⟩ := load_of_store ⟨0, 0, 0, 0⟩ (fun i => s0.m.mem (s0.addr 0 + i))
    DuckCache.mergeSorter hstarted.elf hstarted.empty.1
    (show DuckCache.pageCount 1 ≤ _ from hstarted.room) (by decide) (show 1 ≠ 0 by decide)
  have haddr : s0.addr 0 = s0.buffer := addr_of_le hplaced (Nat.zero_le _)
  have hplain : s0.plain (s0.addr 0) 1 = true := by
    have hfits := hplaced.fits
    rw [State.plain, haddr, decide_eq_true_eq]
    omega
  have hname : cacheNamed ['e', 'l', 'f'] = some .elf := rfl
  have hfirst := exec_storeCache_of_ok (p := somePlatform) digestFromHex_zeroHex hname hplain hstore
  have hsession : session somePlatform s0 [.op (.storeCache ['e', 'l', 'f'] 0 1 zeroHex 1)] =
      .ok (s0.setCache c .elf) := by
    rw [session, List.foldlM_cons, call, hfirst]
    rfl
  refine ⟨m0, s0, s0.setCache c .elf, hinit, hjudger, hsession, hbreak, hbuffer, hsize, hmem, ?_⟩
  intro off hoff
  obtain ⟨c', hsecond⟩ := hload (fun i => s0.m.mem (s0.addr off + i)) 1
  refine ⟨_, exec_loadCache_of_ok digestFromHex_zeroHex hname hoff hsecond, ?_⟩
  have hfirstByte : s0.m.mem (s0.addr 0 + 0) = 0 := by
    rw [haddr]
    exact hstarted.zero 0 (by rw [hsize]; decide)
  rw [clearJudgeResult_m, afterLoad_mem, memcpy_zero, if_pos (by decide)]
  rw [getD_listOf (by decide), hfirstByte]

/-- After a store: the byte is loaded to the second page of the buffer. -/
theorem operation_keeps_small : ∃ m0 s0 s s', AfterInit m0 ∧
    init DuckCache.zeros DuckCache.zeros m0 = .ok s0 ∧
    session somePlatform s0 [.op (.storeCache ['e', 'l', 'f'] 0 1 zeroHex 1)] = .ok s ∧
    exec somePlatform s (.loadCache ['e', 'l', 'f'] 4096 1 zeroHex 1) = .ok (s', .done true) ∧
    KeepsToBuffer somePlatform s (.loadCache ['e', 'l', 'f'] 4096 1 zeroHex 1) := by
  obtain ⟨m0, s0, s, hinit, hjudger, hsession, -, hbuffer, hsize, -, hload⟩ := exists_stored
  have hstarted := init_started hinit.booted hjudger
  have hplaced := (runs_session hstarted.placed hstarted.booted hsession).placed hstarted.placed
  have hplain : s.plain (s.addr 4096) 1 = true := by
    have hfits := hplaced.fits
    have haddr : s.addr 4096 = s.buffer + 4096 := addr_of_le hplaced (by rw [hsize]; decide)
    rw [State.plain, haddr, decide_eq_true_eq]
    omega
  obtain ⟨s', hexec, -⟩ := hload 4096 hplain
  refine ⟨m0, s0, s, s', hinit, hjudger, hsession, hexec, ?_⟩
  refine (operation_keeps_iff somePlatform m0 _ _ s0 s _ _ hinit hjudger hsession).mpr fun _ => ?_
  rw [Op.inside_single rfl, hsize]
  decide

/-- **A way out of the buffer**: the first byte of the buffer goes to a cache, and comes back at an
    address of the program region. -/
theorem loadCache_leaves_buffer : ∃ m0 s0 s s' off, AfterInit m0 ∧
    init DuckCache.zeros DuckCache.zeros m0 = .ok s0 ∧
    session somePlatform s0 [.op (.storeCache ['e', 'l', 'f'] 0 1 zeroHex 1)] = .ok s ∧
    off < 2 ^ 64 ∧ s.bufferSize < off ∧
    exec somePlatform s (.loadCache ['e', 'l', 'f'] off 1 zeroHex 1) = .ok (s', .done true) ∧
    ¬ s.within 0x8048000 ∧ s.m.mem 0x8048000 = 1 ∧ s'.m.mem 0x8048000 = 0 := by
  obtain ⟨m0, s0, s, hinit, hjudger, hsession, hbreak, hbuffer, hsize, hmem, hload⟩ := exists_stored
  -- `buffer + off` wraps around
  obtain ⟨off, hoff⟩ : ∃ off, off = 2 ^ 64 - 700 * 2 ^ 20 + 0x8048000 := ⟨_, rfl⟩
  have haddr : s.addr off = 0x8048000 := by
    rw [State.addr, hbuffer, hoff]
    decide
  have hplain : s.plain (s.addr off) 1 = true := by
    have hinside : kernelBreak ≤ 0x8048000 ∧ 0x8048000 + 1 ≤ 188 * 2 ^ 20 := by decide
    rw [State.plain, haddr, hbreak, decide_eq_true_eq]
    exact .inr (.inl hinside)
  obtain ⟨s', hexec, hbyte⟩ := hload off hplain
  rw [haddr] at hbyte
  refine ⟨m0, s0, s, s', off, hinit, hjudger, hsession, ?_, ?_, hexec, ?_, ?_, hbyte⟩
  · rw [hoff]
    decide
  · rw [hoff, hsize]
    decide
  · rw [State.within, hbuffer, hsize]
    decide
  · exact hmem _ (by rw [hbuffer]; decide)

/-! ## Judge calls -/

section

variable {p : Platform} {req : JudgeRequest} {u : Behaviour} {s0 s s' : State} {lay : Layout}
  {result : JudgeResult} {m : Machine}

/-- Neither the load nor the run changes the buffer. -/
theorem Judges.buffer_kept (hj : Judges p req u s s' lay result m) (hruns : Runs s0 s)
    (hp : Placed s0) (i : Nat) : m.mem (s.buffer + i) = s.m.mem (s.buffer + i) := by
  obtain ⟨app?, hprotect⟩ := hruns.protect
  obtain ⟨s1, res, hload, hrun⟩ := hj.ran
  have hfits := Elf.layout32_fits hload.layout
  have hloaded := hprotect.load (k := p.kernel) hload.layout hload.ready
  rw [← hload.m_eq] at hloaded
  -- the buffer is at least two pages above everything the program has
  have hfar : lay.specialRegionBreak + 2 * pageSize ≤ s.buffer + i := by
    have habove := (hruns.placed hp).above
    have hspecial := hfits.le_vaddrBreak
    have hhuge : 2 * pageSize ≤ hugePageSize := by decide
    omega
  have hpage : lay.specialRegionBreak / pageSize < (s.buffer + i) / pageSize := by
    rw [pageSize] at *
    omega
  have hnot : s1.m.userWritable ((s.buffer + i) / pageSize) = false := by
    rw [Bool.eq_false_iff]
    intro hwritable
    obtain ⟨app, happ, -, hlt⟩ := hloaded.writable _ hwritable
    cases happ
    exact absurd hlt (Nat.not_lt.mpr (Nat.le_of_lt hpage))
  have hrunmem : m.mem (s.buffer + i) = s1.m.mem (s.buffer + i) := by
    rw [Elf.run_spec hrun]
    show (if (s1.m.userWritable _ && _) = true then _ else _) = _
    rw [hnot]
    rfl
  have huser : ¬ lay.userPage ((s.buffer + i) / pageSize) := by
    intro huser
    exact absurd huser.2 (Nat.not_lt.mpr (Nat.le_of_lt hpage))
  rw [hrunmem, hload.m_eq]
  exact hfits.loaded_mem_of_not_userPage huser (Nat.ne_of_gt hpage)

end

/-- **Judging changes only the declared outputs**: if a request gets as far as running its program,
    after `init` and any sequence of calls, then its six buffers are inside the buffer and apart from
    each other, and when `judge` returns the outputs of the program are copied and every other byte of
    the buffer is what it was. -/
theorem judge_changes_outputs (p : Platform) (m0 : Machine) (rawElf rawData : Cache)
    (s0 s s1 : State) (calls : List Call) (req : JudgeRequest) (u : Behaviour) (app : App)
    (hinit : AfterInit m0) (hjudger : init rawElf rawData m0 = .ok s0)
    (hsession : session p s0 calls = .ok s) (hload : judgeLoad p req s = .ok (s1, .inr app)) :
    ∃ lay m res s' result, Elf.layout32 s.m.vaddrBreak (elfRequest s req) = some lay ∧
      Elf.run p.kernel app u s1.m = .ok (m, res) ∧ judge p req u s = .ok (s', result) ∧
      (∀ b ∈ req.buffers, b.Inside s.bufferSize) ∧ req.buffers.Pairwise BufferDesc.Apart ∧
      CopiedBack s req lay result m s'.m ∧
      ∀ i, ¬ outputAt req result i → s'.m.mem (s.buffer + i) = s.m.mem (s.buffer + i) := by
  have hstarted := init_started hinit.booted hjudger
  have hruns := runs_session hstarted.placed hstarted.booted hsession
  have hplaced := hruns.placed hstarted.placed
  rcases judgeLoad_cases hload with ⟨-, -, hnext⟩ | ⟨-, ⟨error, -, -, hnext⟩ | ⟨lay, hl, hnext⟩⟩
  · cases hnext
  · cases hnext
  · cases hnext
    obtain ⟨-, -, hinside, hapart⟩ := hl.fits hplaced
    obtain ⟨s', result, m, hrun, hj⟩ := hl.judgeRun u hplaced
    have hjudge : judge p req u s = .ok (s', result) := by
      rw [judge, bind_of_ok hload]
      exact hrun
    obtain ⟨t, res, ht, helf⟩ := hj.ran
    rw [ht.m_eq, ← hl.m_eq] at helf
    rw [hl.buffer.2] at hinside
    refine ⟨lay, m, res, s', result, hl.layout, helf, hjudge, hinside, hapart, hj.copied, ?_⟩
    intro i hi
    rw [hj.copied.frame i hi, hj.buffer_kept hruns hstarted.placed]

/-- A program that does nothing. -/
def idle : Behaviour where
  accessed _ := false
  dirty _ := false
  mem _ := 0
  countInst := 0
  clkThread := 0
  clkRefTsc := 0
  timeTsc := 0
  trapNum := 255
  returnCode := 0
  trapEpc := 0
  trapCr2 := 0

/-- A request for the smallest program, whose file is at the start of the buffer. -/
def tinyRequest : JudgeRequest where
  seqNum := 0
  timeLimitNs := 1
  memoryHardLimitKb := 8
  ELF := ⟨0, 84, Elf.zero_lt_word, by decide⟩
  stdin := ⟨84, 0, by decide, Elf.zero_lt_word⟩
  stdout := ⟨4096, 4096, by decide, by decide⟩
  stderr := ⟨8192, 0, by decide, Elf.zero_lt_word⟩
  IB := ⟨8192, 0, by decide, Elf.zero_lt_word⟩
  OB := ⟨8192, 0, by decide, Elf.zero_lt_word⟩
  OBNeedClear := 1
  seqNum_lt := Elf.zero_lt_word
  timeLimitNs_lt := by decide
  memoryHardLimitKb_lt := by decide

/-- The file is written to the buffer. -/
theorem exists_written : ∃ m0 s0 s, AfterInit m0 ∧
    init DuckCache.zeros DuckCache.zeros m0 = .ok s0 ∧
    session somePlatform s0 [.op (.write 0 Elf.tinyHeader)] = .ok s ∧
    s.m.vaddrBreak = 188 * 2 ^ 20 ∧ 188 * 2 ^ 20 ≤ s.m.mapped ∧ s.bufferSize = 512 * 2 ^ 20 ∧
    s.judgeSeqNum = 2 ^ 64 - 1 ∧ s.bytes 0 84 = Elf.tinyHeader ∧
    ∀ i, 84 ≤ i → i < s.bufferSize → s.m.mem (s.buffer + i) = 0 := by
  obtain ⟨m0, s0, hinit, hjudger, hbreak, hbuffer, hsize, -⟩ := exists_small 0
  have hstarted := init_started hinit.booted hjudger
  have hplaced := hstarted.placed
  have hfits := hplaced.fits
  have hlen : Elf.tinyHeader.length = 84 := rfl
  have hwrite : s0.m.write (s0.addr 0) Elf.tinyHeader = .ok (s0.m.stored ⟨s0.addr 0, Elf.tinyHeader⟩) := by
    refine Machine.write_of_le ?_
    rw [addr_of_le hplaced (Nat.zero_le _), hlen]
    omega
  have hin : s0.inBuffer 0 Elf.tinyHeader.length = true := by
    rw [inBuffer_iff, hlen, hsize]
    decide
  have hbytes : listOf (fun i => (s0.m.stored ⟨s0.addr 0, Elf.tinyHeader⟩).mem (s0.addr 0 + i)) 84
      = Elf.tinyHeader := by
    have hstored := s0.m.listOf_stored (s0.addr 0) Elf.tinyHeader []
    rw [List.append_nil] at hstored
    exact hstored
  have hzero : ∀ i, 84 ≤ i → i < s0.bufferSize →
      (s0.m.stored ⟨s0.addr 0, Elf.tinyHeader⟩).mem (s0.buffer + i) = 0 := by
    intro i hi hlt
    have hcovers : ¬ Write.covers ⟨s0.addr 0, Elf.tinyHeader⟩ (s0.buffer + i) = true := by
      rw [addr_of_le hplaced (Nat.zero_le _)]
      simp only [Write.covers, hlen, decide_eq_true_eq]
      omega
    show store 0 s0.m.mem _ _ = 0
    rw [store_apply, if_neg hcovers]
    exact hstarted.zero i hlt
  have hmapped : (s0.m.stored ⟨s0.addr 0, Elf.tinyHeader⟩).mapped = s0.m.mapped := rfl
  have hvaddr : (s0.m.stored ⟨s0.addr 0, Elf.tinyHeader⟩).vaddrBreak = s0.m.vaddrBreak := rfl
  generalize s0.m.stored ⟨s0.addr 0, Elf.tinyHeader⟩ = m at hwrite hbytes hzero hmapped hvaddr
  have hsession : session somePlatform s0 [.op (.write 0 Elf.tinyHeader)] = .ok { s0 with m } := by
    have hcleared : clearJudgeResult { s0 with m } = { s0 with m } := if_pos hstarted.fresh.1
    rw [session, List.foldlM_cons, call, exec, writeBuffer, if_pos hin, bind_of_ok hwrite, hcleared]
    rfl
  refine ⟨m0, s0, { s0 with m }, hinit, hjudger, hsession, hvaddr.trans hbreak, ?_, hsize,
    hstarted.fresh.2.1, hbytes, hzero⟩
  show _ ≤ m.mapped
  omega

/-- It gets as far as running the program. -/
theorem judgeLoad_tiny : ∃ m0 s0 s s1 app, AfterInit m0 ∧
    init DuckCache.zeros DuckCache.zeros m0 = .ok s0 ∧
    session somePlatform s0 [.op (.write 0 Elf.tinyHeader)] = .ok s ∧
    s.m.vaddrBreak = 188 * 2 ^ 20 ∧ judgeLoad somePlatform tinyRequest s = .ok (s1, .inr app) ∧
    elfRequest s tinyRequest = Elf.tiny [] 4096 (by decide) (by decide) ∧
    ∀ i, 84 ≤ i → i < 512 * 2 ^ 20 → s.m.mem (s.buffer + i) = 0 := by
  obtain ⟨m0, s0, s, hinit, hjudger, hsession, hbreak, habove, hsize, hseqNum, hbytes, hzero⟩ := exists_written
  have hrequest : elfRequest s tinyRequest = Elf.tiny [] 4096 (by decide) (by decide) := by
    have hbuf : s.bytes 0 (84 % 2 ^ 32) = Elf.tinyHeader ++ [] := by
      rw [List.append_nil]
      exact hbytes
    rw [elfRequest, Elf.tiny, Elf.Request.mk.injEq]
    exact ⟨hbuf, rfl⟩
  have hlay : Elf.layout32 s.m.vaddrBreak (Elf.tiny [] 4096 (by decide) (by decide)) =
      some (Elf.tinyLayout (0x804a000 + 4096)) :=
    Elf.layout32_tiny (by decide) (by decide) (by decide) (by rw [hbreak]; decide) (by decide)
  have hready : Elf.Ready s.m (Elf.tinyLayout (0x804a000 + 4096)) := by
    refine ⟨?_, fun _ => ?_, ?_⟩
    · rw [hbreak]
      decide
    · rw [hbreak]
      exact habove
    · exact Nat.le_trans (by decide) habove
  have hload := Elf.loadElf32_of_ready (k := somePlatform.kernel) hlay hready
  rw [← Elf.load_of_layout hlay, ← hrequest] at hload
  have hseq : tinyRequest.seqNum ≠ s.judgeSeqNum := by
    rw [hseqNum]
    decide
  have hbuffers : checkBuffers s [] tinyRequest.buffers = true := by
    simp only [checkBuffers, JudgeRequest.buffers, isValidBuffer, State.inBuffer, hsize]
    decide
  obtain ⟨s1, hjudge⟩ := judgeLoad_of_load hseq (by decide) hbuffers (by decide) hload
  exact ⟨m0, s0, s, s1, _, hinit, hjudger, hsession, hbreak, hjudge, hrequest, hsize ▸ hzero⟩

/-- The result is made of what `run` reports. -/
theorem judge_result {p : Platform} {req : JudgeRequest} {u : Behaviour} {s s1 s' : State} {app : App}
    {m : Machine} {res : Elf.RunResult} {result : JudgeResult}
    (hload : judgeLoad p req s = .ok (s1, .inr app)) (hrun : Elf.run p.kernel app u s1.m = .ok (m, res))
    (h : judge p req u s = .ok (s', result)) : result = resultOf req res := by
  have hjudge : judgeRun p req u app s1 = .ok (s', result) := by
    rw [← h, judge, bind_of_ok hload]
  rw [judgeRun, bind_of_ok hrun] at hjudge
  obtain ⟨m1, -, hjudge⟩ := bind_ok hjudge
  obtain ⟨m2, -, hjudge⟩ := bind_ok hjudge
  obtain ⟨m3, -, hjudge⟩ := bind_ok hjudge
  cases hjudge
  rfl

/-- A program that fills its pages: what it leaves for the size of its output is more than a page, so a page
    of the buffer is filled.  The next one stays empty. -/
theorem judge_changes_outputs_tiny : ∃ m0 s0 s s1 app s' result, AfterInit m0 ∧
    init DuckCache.zeros DuckCache.zeros m0 = .ok s0 ∧
    session somePlatform s0 [.op (.write 0 Elf.tinyHeader)] = .ok s ∧
    judgeLoad somePlatform tinyRequest s = .ok (s1, .inr app) ∧
    judge somePlatform tinyRequest Elf.scribble s = .ok (s', result) ∧ result.stdoutSize = 4096 ∧
    (∀ i, i < 4096 → s.m.mem (s.buffer + 4096 + i) = 0 ∧ s'.m.mem (s.buffer + 4096 + i) = 1) ∧
    s'.m.mem (s.buffer + 8192) = 0 := by
  obtain ⟨m0, s0, s, s1, app, hinit, hjudger, hsession, hbreak, hload, hrequest, hzero⟩ := judgeLoad_tiny
  obtain ⟨lay, m, res, s', result, hlay, hrun, hjudge, -, -, hcopied, hframe⟩ :=
    judge_changes_outputs somePlatform m0 _ _ s0 s s1 _ tinyRequest Elf.scribble app hinit hjudger
      hsession hload
  have hresult := judge_result hload hrun hjudge
  rcases judgeLoad_cases hload with ⟨-, -, hnext⟩ | ⟨-, ⟨error, -, -, hnext⟩ | ⟨lay', hl, hnext⟩⟩
  · cases hnext
  · cases hnext
  cases hnext
  have hm1 := hl.m_eq
  obtain rfl : lay' = lay := Option.some.inj (hl.layout.symm.trans hlay)
  rw [hrequest] at hlay hm1 hrun
  have htiny : Elf.layout32 s.m.vaddrBreak (Elf.tiny [] 4096 (by decide) (by decide)) =
      some (Elf.tinyLayout 0x804b000) :=
    Elf.layout32_tiny _ _ (by decide) (by rw [hbreak]; decide) (by decide)
  obtain rfl := Option.some.inj (hlay.symm.trans htiny)
  -- the stack and the output are on pages that the program may write to
  have hfilled : ∀ a, 0x8049000 ≤ a → a < 0x804b000 → m.mem a = 1 := by
    intro a hlow hhigh
    have hpage : a / pageSize = 0x8049 ∨ a / pageSize = 0x804a := by
      rw [pageSize]
      omega
    have hwritable : s1.m.userWritable (a / pageSize) = true := by
      rw [hm1, (Elf.layout32_fits htiny).loaded_userWritable]
      · rcases hpage with h | h <;> rw [h] <;> decide +kernel
      · rcases hpage with h | h <;> rw [h] <;> decide +kernel
    rw [Elf.run_spec hrun]
    show (if (s1.m.userWritable _ && true) = true then (1 : UInt8) else _) = 1
    rw [hwritable]
    rfl
  have hsize : result.stdoutSize = 4096 := by
    have hword : Elf.read32 m (0x804a000 - 60 + 20) = 0x01010101 := by
      rw [Elf.read32, listOf_congr (g := fun _ => 1) fun i hi => hfilled _ (by omega) (by omega)]
      rfl
    have hmin : res.stdoutSize = min 4096 (Elf.read32 m (0x804a000 - 60 + 20)) := (Elf.run_sizes hrun).1
    rw [hresult, (resultOf_sizes _ _).2.1, hmin, hword]
    rfl
  refine ⟨m0, s0, s, s1, _, s', result, hinit, hjudger, hsession, hload, hjudge, hsize, ?_, ?_⟩
  · intro i hi
    refine ⟨?_, ?_⟩
    · rw [Nat.add_assoc]
      exact hzero _ (by omega) (by omega)
    · refine (hcopied.stdout i (hsize ▸ hi)).trans (hfilled _ ?_ ?_)
      · exact Nat.le_trans (by decide) (Nat.le_add_right 0x804a000 i)
      · exact Nat.lt_of_lt_of_le (Nat.add_lt_add_left hi 0x804a000) (by decide)
  · rw [hframe 8192]
    · exact hzero _ (by decide) (by decide)
    · have hstderr : result.stderrSize ≤ 0 := hcopied.stderr_le
      rw [outputAt, hsize]
      simp only [tinyRequest]
      omega

/-! ## The memory limit -/

/-- **No program runs under a wrapped limit**: the test of the product misses most of the values that
    wrap, but what it misses does not fit below `vaddr_break`. -/
theorem memory_limit_exact (p : Platform) (req : JudgeRequest) (s s' : State) (app : App)
    (hbreak : s.m.vaddrBreak ≤ 511 * 2 ^ 30) (h : judgeLoad p req s = .ok (s', .inr app)) :
    req.memoryHardLimitKb * 1024 < 2 ^ 64 ∧
      (elfRequest s req).config.memoryHardLimit = req.memoryHardLimitKb * 1024 ∧
      roundUp (elfRequest s req).config.memoryHardLimit pageSize =
        (req.memoryHardLimitKb * 1024 + 4095) / 4096 * 4096 ∧
      app.breakAddr = app.startAddr + (req.memoryHardLimitKb * 1024 + 4095) / 4096 * 4096 := by
  rcases judgeLoad_cases h with ⟨-, -, hnext⟩ | ⟨-, ⟨error, -, -, hnext⟩ | ⟨lay, hl, hnext⟩⟩
  · cases hnext
  · cases hnext
  · cases hnext
    obtain ⟨t, hok⟩ := Elf.programRegion_spec (Elf.layout32_region hl.layout)
    obtain ⟨-, htwo, -⟩ := hok.two_pages
    have hlimit := hl.limit
    have heq : lay.loadVaddrBreak = u64 (0x8048000 +
        roundUp (elfRequest s req).config.memoryHardLimit pageSize) := hok.break_eq
    have hle := hok.break_le
    have hproduct : (elfRequest s req).config.memoryHardLimit = u64 (req.memoryHardLimitKb * 1024) := rfl
    have happ : (Elf.appOf (elfRequest s req) lay).breakAddr = lay.loadVaddrBreak ∧
      (Elf.appOf (elfRequest s req) lay).startAddr = 0x8048000 := ⟨rfl, rfl⟩
    have hlt := req.memoryHardLimitKb_lt
    rw [hproduct] at heq ⊢
    rw [happ.1, happ.2]
    rw [Elf.loadVaddrStart_eq] at htwo
    simp only [roundUp, u64, pageSize] at *
    omega

/-- 8 KiB are two pages. -/
theorem memory_limit_exact_tiny : ∃ s s' app, s.m.vaddrBreak ≤ 511 * 2 ^ 30 ∧
    judgeLoad somePlatform tinyRequest s = .ok (s', .inr app) ∧
    app.breakAddr = app.startAddr + 2 * 4096 := by
  obtain ⟨m0, s0, s, s1, app, -, -, -, hbreak, hload, -⟩ := judgeLoad_tiny
  have hbreak : s.m.vaddrBreak ≤ 511 * 2 ^ 30 := hbreak.trans_le (by decide)
  obtain ⟨-, -, -, happ⟩ := memory_limit_exact somePlatform tinyRequest s s1 app hbreak hload
  exact ⟨s, s1, app, hbreak, hload, happ⟩

end JudgeDuck.Judger
