/-
  What a judge call can do.

  `judgeLoad_cases` lists the ways through the first part of `judge`: the kept result is given back,
  the request fails, or a program is loaded (`Loads`).  The second part always returns if the buffer is
  in its place, and `judgeRun_spec` says what is in memory then.
-/
import JudgeDuck.Elf.History
import JudgeDuck.Judger.Buffer

namespace JudgeDuck.Judger

open JudgeDuck.Lib JudgeDuck.Memory
open JudgeDuck.DuckCache (Cache pageSize hugePageSize roundUp)
open JudgeDuck.Elf (App Behaviour Layout)

/-! ## The first part -/

/-- The state once a request is executed. -/
def beginJudge (req : JudgeRequest) (s : State) : State :=
  { s with nJudges := u64 (s.nJudges + 1), judgeResultCleared := false, judgeSeqNum := req.seqNum }

/-- A program is loaded, laid out as `lay` says. -/
structure Loads (p : Platform) (req : JudgeRequest) (s s' : State) (lay : Layout) : Prop where
  limit : req.memoryHardLimitKb ≤ u64 (req.memoryHardLimitKb * 1024)
  buffers : checkBuffers s [] req.buffers = true
  layout : Elf.layout32 s.m.vaddrBreak (elfRequest s req) = some lay
  ready : Elf.Ready s.m lay
  state : ∃ dataCache, s' = { beginJudge req s with
    m := Elf.loaded p.kernel (elfRequest s req) lay s.m, dataCache }

section

variable {p : Platform} {req : JudgeRequest} {u : Behaviour} {s s' : State}

/-- Whether buffers are inside depends on the size of the buffer. -/
theorem checkBuffers_congr (h : s'.bufferSize = s.bufferSize) (before bs : List BufferDesc) :
    checkBuffers s' before bs = checkBuffers s before bs := by
  induction bs generalizing before with
  | nil => rfl
  | cons b bs ih =>
    rw [checkBuffers, checkBuffers, ih, isValidBuffer, isValidBuffer, State.inBuffer, State.inBuffer, h]

/-- What is loaded does not depend on the counters. -/
theorem elfRequest_begin : elfRequest (beginJudge req s) req = elfRequest s req := rfl

/-- **The ways through the first part**. -/
theorem judgeLoad_cases {next : JudgeResult ⊕ App} (h : judgeLoad p req s = .ok (s', next)) :
    (req.seqNum = s.judgeSeqNum ∧ s' = s ∧ next = .inl s.judgeResult) ∨
      req.seqNum ≠ s.judgeSeqNum ∧
        ((∃ error, error ≠ "Not Judged" ∧ s' = (fail (beginJudge req s) error).1 ∧
          next = .inl (fail (beginJudge req s) error).2) ∨
        ∃ lay, Loads p req s s' lay ∧ next = .inr (Elf.appOf (elfRequest s req) lay)) := by
  rw [judgeLoad] at h
  by_cases hseq : req.seqNum = s.judgeSeqNum
  · rw [if_pos hseq] at h
    cases h
    exact .inl ⟨hseq, rfl, rfl⟩
  rw [if_neg hseq] at h
  refine .inr ⟨hseq, ?_⟩
  simp only at h
  rw [← beginJudge, elfRequest_begin] at h
  obtain ⟨t, ht⟩ : ∃ t, t = beginJudge req s := ⟨_, rfl⟩
  rw [← ht] at h ⊢
  split at h
  · cases h
    exact .inl ⟨"Can't load ELF", by decide, rfl, rfl⟩
  next hlimit =>
  split at h
  · cases h
    exact .inl ⟨"Can't load ELF", by decide, rfl, rfl⟩
  next hbuffers =>
  split at h
  · cases h
    exact .inl ⟨"Invalid time limit", by decide, rfl, rfl⟩
  obtain ⟨⟨m, app?⟩, hload, h⟩ := bind_ok h
  rcases Elf.load_cases hload with ⟨hm, happ⟩ | ⟨lay, hlay, hready, hm, happ⟩
  · rw [hm, happ] at h
    cases h
    refine .inl ⟨"Can't load ELF", by decide, ?_, ?_⟩
    · rw [ht]
      rfl
    · rw [ht]
      rfl
  · rw [hm, happ] at h
    obtain ⟨hs', hnext⟩ := Prod.mk.injEq .. |>.mp (Except.ok.inj h)
    refine .inr ⟨lay, ⟨Nat.le_of_not_lt hlimit, ?_, hlay, hready, s'.dataCache, ?_⟩, hnext.symm⟩
    · rw [Bool.not_eq_true, Bool.not_eq_false', ht] at hbuffers
      exact (checkBuffers_congr rfl _ _).symm.trans hbuffers
    · simp only [← hs', beginJudge]

end

/-! ## Buffers -/

/-- The buffer of a request is inside the buffer of the judger; nothing wraps here. -/
def BufferDesc.Inside (size : Nat) (b : BufferDesc) : Prop := b.off + b.len ≤ size

/-- Two buffers have no byte in common. -/
def BufferDesc.Apart (b b' : BufferDesc) : Prop :=
  b.off + b.len ≤ b'.off ∨ b'.off + b'.len ≤ b.off

section

variable {s : State} {b b' : BufferDesc}

theorem isValidBuffer_inside (h : isValidBuffer s b = true) : b.Inside s.bufferSize :=
  (inBuffer_iff.mp h).2

/-- For buffers that are inside, the sums of the test do not wrap. -/
theorem checkOverlap_apart {size : Nat} (hsize : size < 2 ^ 64) (hb : b.Inside size)
    (hb' : b'.Inside size) (h : checkOverlap b b' = false) : b.Apart b' := by
  rw [checkOverlap, Bool.not_eq_false', decide_eq_true_eq] at h
  rw [BufferDesc.Inside] at hb hb'
  rw [u64_of_lt (Nat.lt_of_le_of_lt hb hsize), u64_of_lt (Nat.lt_of_le_of_lt hb' hsize)] at h
  exact h

/-- **The quadratic test**: all buffers are inside, and apart from each other. -/
theorem checkBuffers_spec (hsize : s.bufferSize < 2 ^ 64) {before bs : List BufferDesc}
    (hbefore : ∀ b ∈ before, b.Inside s.bufferSize) (h : checkBuffers s before bs = true) :
    (∀ b ∈ bs, b.Inside s.bufferSize) ∧ (∀ b ∈ bs, ∀ b' ∈ before, b.Apart b') ∧
      bs.Pairwise BufferDesc.Apart := by
  induction bs generalizing before with
  | nil => exact ⟨fun b hb => absurd hb List.not_mem_nil, fun b hb => absurd hb List.not_mem_nil, .nil⟩
  | cons b bs ih =>
    rw [checkBuffers, Bool.and_eq_true, Bool.and_eq_true, List.all_eq_true] at h
    obtain ⟨⟨hvalid, hfirst⟩, hrest⟩ := h
    have hb := isValidBuffer_inside hvalid
    have hfar : ∀ b' ∈ before, b.Apart b' := by
      intro b' hb'
      have htest := hfirst b' hb'
      rw [Bool.not_eq_true'] at htest
      exact checkOverlap_apart hsize hb (hbefore b' hb') htest
    have hbefore' : ∀ b' ∈ before ++ [b], b'.Inside s.bufferSize := by
      intro b' hb'
      rcases List.mem_append.mp hb' with hold | hnew
      · exact hbefore b' hold
      · rw [List.mem_singleton.mp hnew]
        exact hb
    obtain ⟨hinside, hapart, hpairwise⟩ := ih hbefore' hrest
    refine ⟨List.forall_mem_cons.mpr ⟨hb, hinside⟩, List.forall_mem_cons.mpr ⟨hfar, ?_⟩, ?_⟩
    · intro c hc b' hb'
      exact hapart c hc b' (List.mem_append_left _ hb')
    · refine List.pairwise_cons.mpr ⟨fun c hc => ?_, hpairwise⟩
      exact (hapart c hc b (by simp)).symm

end

/-! ## The second part -/

section

variable {m m' m'' : Machine}

theorem SameTables.trans (h : SameTables m m') (h' : SameTables m' m'') : SameTables m m'' :=
  ⟨h'.vaddrBreak.trans h.vaddrBreak, h'.mapped.trans h.mapped, h'.p1.trans h.p1⟩

/-- A copy within the tables. -/
theorem copy_of_le (dst src len : Nat) (hsrc : src + len ≤ m.mapped) (hdst : dst + len ≤ m.mapped) :
    ∃ m', copy dst src len m = .ok m' ∧ SameTables m m' ∧
      ∀ a, m'.mem a = if dst ≤ a ∧ a < dst + len then m.mem (src + (a - dst)) else m.mem a := by
  have hread : read m src len = .ok (listOf (fun i => m.mem (src + i)) len) :=
    if_neg fun h => absurd hsrc (Nat.not_le.mpr h.2)
  have hcopy : copy dst src len m = .ok (m.stored ⟨dst, listOf (fun i => m.mem (src + i)) len⟩) := by
    rw [copy, bind_of_ok hread]
    exact Machine.write_of_le (by rwa [length_listOf])
  refine ⟨_, hcopy, .of_copy hcopy, ?_⟩
  intro a
  refine (store_apply ..).trans ?_
  simp only [Write.covers, length_listOf, decide_eq_true_eq]
  split
  · next ha => exact getD_listOf (by omega) 0
  · rfl

end

/-- An offset that `judge` copies to: one of the bytes of the three outputs. -/
def outputAt (req : JudgeRequest) (result : JudgeResult) (i : Nat) : Prop :=
  (req.stdout.off ≤ i ∧ i < req.stdout.off + result.stdoutSize) ∨
    (req.stderr.off ≤ i ∧ i < req.stderr.off + result.stderrSize) ∨
    (req.OB.off ≤ i ∧ i < req.OB.off + req.OB.len)

/-- The outputs of a program are in the buffer: `m` is the machine after its run, and `m'` the one
    after the copying.  The regions of the program are those of `lay`. -/
structure CopiedBack (s : State) (req : JudgeRequest) (lay : Layout) (result : JudgeResult)
    (m m' : Machine) : Prop where
  stdout_le : result.stdoutSize ≤ req.stdout.len
  stderr_le : result.stderrSize ≤ req.stderr.len
  stdout : ∀ i, i < result.stdoutSize →
    m'.mem (s.buffer + req.stdout.off + i) = m.mem (lay.stdinBreak + i)
  stderr : ∀ i, i < result.stderrSize →
    m'.mem (s.buffer + req.stderr.off + i) = m.mem (lay.stdoutBreak + i)
  OB : ∀ i, i < req.OB.len → m'.mem (s.buffer + req.OB.off + i) = m.mem (lay.IBBreak + i)
  frame : ∀ i, ¬ outputAt req result i → m'.mem (s.buffer + i) = m.mem (s.buffer + i)

section

variable {p : Platform} {req : JudgeRequest} {u : Behaviour} {s : State}

theorem resultOf_sizes (req : JudgeRequest) (res : Elf.RunResult) :
    (resultOf req res).error = none ∧ (resultOf req res).stdoutSize = res.stdoutSize ∧
      (resultOf req res).stderrSize = res.stderrSize := by
  rw [resultOf]
  split <;> exact ⟨rfl, rfl, rfl⟩

/-- The three outputs of a request are inside the buffer, and apart from each other. -/
theorem outputs_apart (hinside : ∀ b ∈ req.buffers, b.Inside s.bufferSize)
    (hapart : req.buffers.Pairwise BufferDesc.Apart) :
    (req.stdout.Inside s.bufferSize ∧ req.stderr.Inside s.bufferSize ∧ req.OB.Inside s.bufferSize) ∧
      req.stdout.Apart req.stderr ∧ req.stdout.Apart req.OB ∧ req.stderr.Apart req.OB := by
  simp only [JudgeRequest.buffers, List.forall_mem_cons, List.pairwise_cons] at hinside hapart
  obtain ⟨-, -, hout, herr, -, hOB, -⟩ := hinside
  obtain ⟨-, -, houts, herrs, -⟩ := hapart
  exact ⟨⟨hout, herr, hOB⟩, houts.1, houts.2.2.1, herrs.2.1⟩

/-- The three copies of `judge`.  The sources are below `vaddr_break`, so no copy changes what a
    later one reads. -/
theorem copy_outputs {m : Machine} {lay : Layout} {result : JudgeResult} (hp : Placed s)
    (hmapped : m.mapped = s.m.mapped) (hsize1 : result.stdoutSize ≤ req.stdout.len)
    (hsize2 : result.stderrSize ≤ req.stderr.len)
    (hsrc1 : lay.stdinBreak + req.stdout.len ≤ s.m.vaddrBreak)
    (hsrc2 : lay.stdoutBreak + req.stderr.len ≤ s.m.vaddrBreak)
    (hsrc3 : lay.IBBreak + req.OB.len ≤ s.m.vaddrBreak)
    (hinside : ∀ b ∈ req.buffers, b.Inside s.bufferSize)
    (hapart : req.buffers.Pairwise BufferDesc.Apart) :
    ∃ m1 m2 m3, copy (s.addr req.stdout.off) lay.stdinBreak result.stdoutSize m = .ok m1 ∧
      copy (s.addr req.stderr.off) lay.stdoutBreak result.stderrSize m1 = .ok m2 ∧
      copy (s.addr req.OB.off) lay.IBBreak req.OB.len m2 = .ok m3 ∧
      SameTables m m3 ∧ CopiedBack s req lay result m m3 := by
  obtain ⟨⟨hin1, hin2, hin3⟩, hapart1, hapart2, hapart3⟩ := outputs_apart hinside hapart
  rw [BufferDesc.Inside] at hin1 hin2 hin3
  rw [BufferDesc.Apart] at hapart1 hapart2 hapart3
  have habove := hp.above
  have hplace := hp.fits
  rw [addr_of_le hp (show req.stdout.off ≤ s.bufferSize by omega),
    addr_of_le hp (show req.stderr.off ≤ s.bufferSize by omega),
    addr_of_le hp (show req.OB.off ≤ s.bufferSize by omega)]
  obtain ⟨m1, hcopy1, htables1, hmem1⟩ := copy_of_le (m := m) (s.buffer + req.stdout.off)
    lay.stdinBreak result.stdoutSize (by omega) (by omega)
  obtain ⟨m2, hcopy2, htables2, hmem2⟩ := copy_of_le (m := m1) (s.buffer + req.stderr.off)
    lay.stdoutBreak result.stderrSize (by rw [htables1.mapped]; omega)
    (by rw [htables1.mapped]; omega)
  obtain ⟨m3, hcopy3, htables3, hmem3⟩ := copy_of_le (m := m2) (s.buffer + req.OB.off)
    lay.IBBreak req.OB.len (by rw [htables2.mapped, htables1.mapped]; omega)
    (by rw [htables2.mapped, htables1.mapped]; omega)
  refine ⟨m1, m2, m3, hcopy1, hcopy2, hcopy3, (htables1.trans htables2).trans htables3, ?_⟩
  refine ⟨hsize1, hsize2, ?_, ?_, ?_, ?_⟩
  · intro i hi
    rw [hmem3, if_neg (by omega), hmem2, if_neg (by omega), hmem1, if_pos (by omega)]
    rw [Nat.add_sub_cancel_left]
  · intro i hi
    rw [hmem3, if_neg (by omega), hmem2, if_pos (by omega), hmem1, if_neg (by omega)]
    rw [Nat.add_sub_cancel_left]
  · intro i hi
    rw [hmem3, if_pos (by omega), hmem2, if_neg (by omega), hmem1, if_neg (by omega)]
    rw [Nat.add_sub_cancel_left]
  · intro i hi
    rw [outputAt, not_or, not_or] at hi
    rw [hmem3, if_neg (by omega), hmem2, if_neg (by omega), hmem1, if_neg (by omega)]

/-- **The second part of a judge call** returns, with the outputs in the buffer. -/
theorem judgeRun_spec (p : Platform) (u : Behaviour) {r : Elf.Request} {lay : Layout} (hp : Placed s)
    (hfits : Elf.Fits s.m.vaddrBreak r lay) (hout : r.config.stdoutMaxSize = req.stdout.len)
    (herr : r.config.stderrMaxSize = req.stderr.len) (hOB : r.config.OB.length = req.OB.len)
    (hinside : ∀ b ∈ req.buffers, b.Inside s.bufferSize)
    (hapart : req.buffers.Pairwise BufferDesc.Apart) :
    ∃ m res m' result time, Elf.run p.kernel (Elf.appOf r lay) u s.m = .ok (m, res) ∧
      judgeRun p req u (Elf.appOf r lay) s =
        .ok ({ s with m := m', judgeResult := result, totalTimeNs := time }, result) ∧
      result.error = none ∧ SameTables m m' ∧ CopiedBack s req lay result m m' := by
  have habove := hp.above
  have hplace := hp.fits
  obtain ⟨hord0, hord1, hord2, hord3, hord4, hord5⟩ := hfits.ordered
  have hroom1 := hfits.stdout_le
  have hroom2 := hfits.stderr_le
  have hroom3 := hfits.OB_le
  have hspecial := hfits.le_vaddrBreak
  rw [hout] at hroom1
  rw [herr] at hroom2
  rw [hOB] at hroom3
  obtain ⟨hspace, hstdin⟩ := hfits.pages_run (show lay.specialRegionBreak ≤ s.m.mapped by omega)
  obtain ⟨m, res, hrun⟩ := Elf.exists_run p.kernel u hspace hstdin
  have hmapped : m.mapped = s.m.mapped := by
    rw [Elf.run_spec hrun]
    rfl
  obtain ⟨⟨hptr1, hptr2, hptr3⟩, hsize1, hsize2⟩ := Elf.run_outputs hrun
  obtain ⟨herror, hres1, hres2⟩ := resultOf_sizes req res
  have hsrc1 : lay.stdinBreak + req.stdout.len ≤ s.m.vaddrBreak := by omega
  have hsrc2 : lay.stdoutBreak + req.stderr.len ≤ s.m.vaddrBreak := by omega
  have hsrc3 : lay.IBBreak + req.OB.len ≤ s.m.vaddrBreak := by omega
  obtain ⟨m1, m2, m3, hcopy1, hcopy2, hcopy3, htables, hcopied⟩ := copy_outputs hp hmapped
    (hres1.trans_le (hout ▸ hsize1)) (hres2.trans_le (herr ▸ hsize2)) hsrc1 hsrc2 hsrc3 hinside hapart
  have hptr1 : res.stdoutPtr = lay.stdinBreak := hptr1
  have hptr2 : res.stderrPtr = lay.stdoutBreak := hptr2
  have hptr3 : res.OBPtr = lay.IBBreak := hptr3
  rw [hres1, ← hptr1] at hcopy1
  rw [hres2, ← hptr2] at hcopy2
  rw [← hptr3] at hcopy3
  have hjudge : judgeRun p req u (Elf.appOf r lay) s = .ok ({ s with
      m := m3, judgeResult := resultOf req res,
      totalTimeNs := u64 (s.totalTimeNs + (resultOf req res).timeNs) }, resultOf req res) :=
    (bind_of_ok hrun).trans ((bind_of_ok hcopy1).trans ((bind_of_ok hcopy2).trans
      (bind_of_ok hcopy3)))
  exact ⟨m, res, m3, resultOf req res, _, hrun, hjudge, herror, htables, hcopied⟩

/-! ## The whole call -/

theorem Loads.m_eq {s' : State} {lay : Layout} (h : Loads p req s s' lay) :
    s'.m = Elf.loaded p.kernel (elfRequest s req) lay s.m := by
  obtain ⟨d, hs'⟩ := h.state
  rw [hs']

/-- The first part does not move the buffer. -/
theorem Loads.buffer {s' : State} {lay : Layout} (h : Loads p req s s' lay) :
    s'.buffer = s.buffer ∧ s'.bufferSize = s.bufferSize := by
  obtain ⟨d, hs'⟩ := h.state
  rw [hs']
  exact ⟨rfl, rfl⟩

/-- A program that was loaded fits, and so do the buffers of the request. -/
theorem Loads.fits {s' : State} {lay : Layout} (hp : Placed s) (h : Loads p req s s' lay) :
    Placed s' ∧ Elf.Fits s'.m.vaddrBreak (elfRequest s req) lay ∧
      (∀ b ∈ req.buffers, b.Inside s'.bufferSize) ∧ req.buffers.Pairwise BufferDesc.Apart := by
  obtain ⟨-, hbuffers, hlay, -, d, rfl⟩ := h
  have hsize := hp.size_lt
  obtain ⟨hinside, -, hapart⟩ := checkBuffers_spec (by omega)
    (fun b hb => absurd hb List.not_mem_nil) hbuffers
  have hbreak : (Elf.loaded p.kernel (elfRequest s req) lay s.m).vaddrBreak = s.m.vaddrBreak :=
    Elf.loaded_vaddrBreak
  have hmapped : (Elf.loaded p.kernel (elfRequest s req) lay s.m).mapped = s.m.mapped :=
    Elf.loaded_mapped
  refine ⟨⟨?_, ?_, ?_, hp.size_lt⟩, ?_, hinside, hapart⟩
  · exact Nat.le_trans (Nat.le_of_eq (congrArg (· + hugePageSize) hbreak)) hp.above
  · exact Nat.le_trans hp.fits (Nat.le_of_eq hmapped.symm)
  · exact Nat.lt_of_le_of_lt (Nat.le_of_eq hmapped) hp.mapped_lt
  · have hfits := Elf.layout32_fits hlay
    rw [← hbreak] at hfits
    exact hfits

/-- What a judge call that loads a program leaves: `m` is the machine after the run. -/
structure Judges (p : Platform) (req : JudgeRequest) (u : Behaviour) (s s' : State) (lay : Layout)
    (result : JudgeResult) (m : Machine) : Prop where
  ran : ∃ s1 res, Loads p req s s1 lay ∧
    Elf.run p.kernel (Elf.appOf (elfRequest s req) lay) u s1.m = .ok (m, res)
  state : ∃ d m' time, s' = { beginJudge req s with
    m := m', dataCache := d, judgeResult := result, totalTimeNs := time }
  error : result.error = none
  tables : SameTables m s'.m
  copied : CopiedBack s req lay result m s'.m

/-- The second part, for a program that was loaded. -/
theorem Loads.judgeRun {s1 : State} {lay : Layout} (u : Behaviour) (hp : Placed s)
    (h : Loads p req s s1 lay) :
    ∃ s' result m, judgeRun p req u (Elf.appOf (elfRequest s req) lay) s1 = .ok (s', result) ∧
      Judges p req u s s' lay result m := by
  obtain ⟨hp1, hfits, hinside, hapart⟩ := h.fits hp
  obtain ⟨m, res, m', result, time, hrun, hjudge, herror, htables, hcopied⟩ :=
    judgeRun_spec (r := elfRequest s req) p u hp1 hfits rfl rfl (length_listOf _ _) hinside hapart
  refine ⟨_, result, m, hjudge, ⟨s1, res, h, hrun⟩, ?_, herror, htables, ?_⟩
  · obtain ⟨d, hs1⟩ := h.state
    refine ⟨d, m', time, ?_⟩
    rw [hs1]
  · obtain ⟨hout, herr, hstdout, hstderr, hOB, hframe⟩ := hcopied
    rw [h.buffer.1] at hstdout hstderr hOB hframe
    exact ⟨hout, herr, hstdout, hstderr, hOB, hframe⟩

/-- **The ways through a judge call**. -/
theorem judge_cases {s' : State} {result : JudgeResult} (hp : Placed s)
    (h : judge p req u s = .ok (s', result)) :
    (req.seqNum = s.judgeSeqNum ∧ s' = s ∧ result = s.judgeResult) ∨
      req.seqNum ≠ s.judgeSeqNum ∧
        ((∃ error, error ≠ "Not Judged" ∧ s' = (fail (beginJudge req s) error).1 ∧
          result = (fail (beginJudge req s) error).2) ∨
        ∃ lay m, Judges p req u s s' lay result m) := by
  obtain ⟨⟨s1, next⟩, hload, h⟩ := bind_ok h
  rcases judgeLoad_cases hload with ⟨hseq, rfl, rfl⟩ | ⟨hseq, ⟨error, hne, rfl, rfl⟩ | ⟨lay, hl, rfl⟩⟩
  · cases h
    exact .inl ⟨hseq, rfl, rfl⟩
  · cases h
    exact .inr ⟨hseq, .inl ⟨error, hne, rfl, rfl⟩⟩
  · obtain ⟨t, res, m, hrun, hjudges⟩ := hl.judgeRun u hp
    have heq : (t, res) = (s', result) := Except.ok.inj (hrun.symm.trans h)
    cases heq
    exact .inr ⟨hseq, .inr ⟨lay, m, hjudges⟩⟩

/-- The first part returns, for a buffer in its place. -/
theorem exists_judgeLoad (p : Platform) (req : JudgeRequest) (hp : Placed s)
    (hdvd : pageSize ∣ s.m.vaddrBreak) : ∃ s' next, judgeLoad p req s = .ok (s', next) := by
  have hready : ∀ lay, Elf.layout32 s.m.vaddrBreak (elfRequest s req) = some lay →
      Elf.Ready s.m lay := by
    intro lay hlay
    have hspecial := (Elf.layout32_fits hlay).le_vaddrBreak
    have habove := hp.above
    have hfits := hp.fits
    have hpage : pageSize ≤ hugePageSize := by decide
    exact ⟨hdvd, fun _ => by omega, by omega⟩
  have hload : ∃ m app?, Elf.load p.kernel s.m (elfRequest s req) = .ok (m, app?) :=
    Elf.exists_load p.kernel hready
  obtain ⟨m, app?, hload⟩ := hload
  rw [judgeLoad]
  split
  · exact ⟨_, _, rfl⟩
  simp only
  split
  · exact ⟨_, _, rfl⟩
  split
  · exact ⟨_, _, rfl⟩
  split
  · exact ⟨_, _, rfl⟩
  rw [← beginJudge, elfRequest_begin, bind_of_ok hload]
  cases app? with
  | none => exact ⟨_, _, rfl⟩
  | some app => exact ⟨_, _, rfl⟩

theorem judgeLoad_of_load {m : Machine} {app : App} (hseq : req.seqNum ≠ s.judgeSeqNum)
    (hlimit : req.memoryHardLimitKb ≤ u64 (req.memoryHardLimitKb * 1024))
    (hbuffers : checkBuffers s [] req.buffers = true)
    (htime : ¬ (req.timeLimitNs = 0 ∨ req.timeLimitNs > maxTimeLimitNs))
    (hload : Elf.load p.kernel s.m (elfRequest s req) = .ok (m, some app)) :
    ∃ s', judgeLoad p req s = .ok (s', .inr app) := by
  have hcheck : checkBuffers (beginJudge req s) [] req.buffers = true :=
    (checkBuffers_congr rfl _ _).trans hbuffers
  rw [judgeLoad, if_neg hseq]
  simp only
  rw [← beginJudge, elfRequest_begin, if_neg (Nat.not_lt.mpr hlimit), hcheck]
  rw [if_neg (by decide), if_neg htime, bind_of_ok hload]
  exact ⟨_, rfl⟩

/-- **Every judge call returns**. -/
theorem exists_judge (p : Platform) (req : JudgeRequest) (u : Behaviour) (hp : Placed s)
    (hdvd : pageSize ∣ s.m.vaddrBreak) : ∃ s' result, judge p req u s = .ok (s', result) := by
  obtain ⟨s1, next, hload⟩ := exists_judgeLoad p req hp hdvd
  rw [judge, bind_of_ok hload]
  rcases judgeLoad_cases hload with ⟨-, -, rfl⟩ | ⟨-, ⟨error, -, -, rfl⟩ | ⟨lay, hl, rfl⟩⟩
  · exact ⟨_, _, rfl⟩
  · exact ⟨_, _, rfl⟩
  · obtain ⟨t, res, m, hrun, -⟩ := hl.judgeRun u hp
    exact ⟨t, res, hrun⟩

end

end JudgeDuck.Judger
