/-
  Judging is fair.

  What a judge request comes to is a function of the bytes that it names (`Service.verdict_congr`), and its
  outputs do not get into each other's way (`outputs_fit`).  As the judger refines the service, two clients
  with different histories who send the same program and the same inputs get the same result and the same
  outputs, wherever the caches, the counters and the rest of the buffer stand.
-/
import JudgeDuck.Judger.Refinement

namespace JudgeDuck.Judger

open JudgeDuck.Lib JudgeDuck.Memory
open JudgeDuck.DuckCache (Cache)
open JudgeDuck.Elf (Behaviour Layout Kernel)

/-- The parts of the buffer that a program gets to see. -/
def JudgeRequest.inputs (req : JudgeRequest) : List BufferDesc := [req.ELF, req.stdin, req.IB, req.OB]

/-! ## What a verdict depends on -/

section Verdict

variable {site : Site} {v w : Service} {req : JudgeRequest} {u : Behaviour}

theorem sane_congr (hlen : v.bytes.length = w.bytes.length) : v.Sane req ↔ w.Sane req := by
  simp only [Service.Sane, Service.Holds, hlen]

theorem request_congr
    (h : ∀ b ∈ req.inputs, part v.bytes b.off b.len = part w.bytes b.off b.len) :
    v.request req = w.request req := by
  simp only [JudgeRequest.inputs, List.forall_mem_cons] at h
  obtain ⟨helf, hstdin, hIB, hOB, -⟩ := h
  have helf' : part v.bytes req.ELF.off (req.ELF.len % 2 ^ 32) = part w.bytes req.ELF.off (req.ELF.len % 2 ^ 32) := by
    rw [part_eq_take (Nat.mod_le _ _), helf, ← part_eq_take (Nat.mod_le _ _)]
  simp only [Service.request, helf', hstdin, hIB, hOB]

/-- **A verdict depends on the length of the bytes and on the inputs.** -/
theorem Service.verdict_congr (hlen : v.bytes.length = w.bytes.length)
    (h : v.Sane req → ∀ b ∈ req.inputs, part v.bytes b.off b.len = part w.bytes b.off b.len) :
    v.verdict site req u = w.verdict site req u := by
  have hsane : v.Sane req ↔ w.Sane req := sane_congr hlen
  rw [Service.verdict, Service.verdict]
  by_cases hs : v.Sane req
  · rw [if_neg (not_not.mpr hs), if_neg (not_not.mpr (hsane.mp hs)), request_congr (h hs)]
  · rw [if_pos hs, if_pos (mt hsane.mpr hs)]

/-- What a program comes to, if it is run. -/
theorem Service.verdict_ok {result : JudgeResult} {outs : List (Nat × List UInt8)}
    (h : v.verdict site req u = .ok (result, outs)) : v.Sane req ∧ ∃ lay,
      result = resultOf req (Elf.outcome site.kernel (v.request req) lay u) ∧
      outs = outputs site.kernel req (v.request req) lay u := by
  rw [Service.verdict] at h
  split at h
  · cases h
  split at h
  · cases h
  next hsane =>
  split at h
  · cases h
  split at h
  · cases h
  · next lay _ =>
    cases h
    exact ⟨not_not.mp hsane, lay, rfl, rfl⟩

/-- The outputs of a program stay in the places that the request gives them, which are apart. -/
theorem outputs_fit (k : Kernel) (lay : Layout) (u : Behaviour) (hsane : v.Sane req) :
    (∀ d ∈ Service.outputs k req (v.request req) lay u, d.1 + d.2.length ≤ v.bytes.length) ∧
      (Service.outputs k req (v.request req) lay u).Pairwise Apart := by
  obtain ⟨hholds, hapart⟩ := hsane
  simp only [JudgeRequest.buffers, List.forall_mem_cons, List.pairwise_cons] at hholds hapart
  obtain ⟨-, -, ⟨-, hout⟩, ⟨-, herr⟩, -, ⟨-, hOB⟩, -⟩ := hholds
  obtain ⟨-, -, houts, herrs, -⟩ := hapart
  obtain ⟨hapart1, -, hapart2, -⟩ := houts
  obtain ⟨-, hapart3, -⟩ := herrs
  rw [BufferDesc.Apart] at hapart1 hapart2 hapart3
  have hsize1 : (Elf.outcome k (v.request req) lay u).stdoutSize ≤ req.stdout.len := Nat.min_le_left _ _
  have hsize2 : (Elf.outcome k (v.request req) lay u).stderrSize ≤ req.stderr.len := Nat.min_le_left _ _
  simp only [Service.outputs, List.forall_mem_cons, List.pairwise_cons, Apart, length_listOf]
  refine ⟨⟨by omega, by omega, hOB, fun d hd => absurd hd List.not_mem_nil⟩, ⟨?_, ?_, ?_⟩, ⟨?_, ?_⟩, ?_⟩
  · omega
  · omega
  · exact fun d hd => absurd hd List.not_mem_nil
  · omega
  · exact fun d hd => absurd hd List.not_mem_nil
  · exact ⟨fun d hd => absurd hd List.not_mem_nil, .nil⟩

end Verdict

/-! ## Two histories -/

section Histories

variable {p : Platform} {m0 : Machine} {rawElf rawData : Cache} {s0 s s1 s2 : State} {req : JudgeRequest}
  {calls : List Call} {rs : List Reply}

theorem bytes_service (hp : Placed s) {off len : Nat} (h : off + len ≤ s.bufferSize) :
    s.bytes off len = part s.service.bytes off len := by
  show listOf _ _ = part (s.view s.m) off len
  rw [State.view, part_listOf _ h, addr_of_le hp (by omega)]
  exact listOf_congr fun i _ => by rw [Nat.add_assoc]

theorem length_service (s : State) : s.service.bytes.length = s.bufferSize := length_view s s.m

/-- **A new judge request**, by its verdict: the outputs are in the buffer, each in its place. -/
theorem judge_of_verdict (h : Serves s0 s) (hstart : Roomy s0) (hnew : req.seqNum ≠ s.judgeSeqNum)
    (u : Behaviour) : ∃ s' result, judge p req u s = .ok (s', result) ∧
      match s.service.verdict (s0.site p) req u with
      | .error error => result.error = some error
      | .ok (final, outs) => result = final ∧ ∀ d ∈ outs, s'.bytes d.1 d.2.length = d.2 := by
  obtain ⟨s', result, hjudge, hservice, h'⟩ := judge_service (p := p) h hstart req u
  have hnew : ¬ req.seqNum = s.service.seqNum := hnew
  refine ⟨s', result, hjudge, ?_⟩
  rw [Service.judge, if_neg hnew] at hservice
  cases hverdict : s.service.verdict (s0.site p) req u with
  | error error =>
    rw [hverdict] at hservice
    simp only [Prod.mk.injEq] at hservice
    rw [← hservice.2]
  | ok x =>
    obtain ⟨final, outs⟩ := x
    rw [hverdict] at hservice
    simp only [Prod.mk.injEq] at hservice
    refine ⟨hservice.2.symm, fun d hd => ?_⟩
    obtain ⟨hsane, lay, -, rfl⟩ := Service.verdict_ok hverdict
    obtain ⟨hin, hapart⟩ := outputs_fit (s0.site p).kernel lay u hsane
    have hbytes := congrArg Service.bytes hservice.1
    have hroom := hin d hd
    rw [length_service, h.runs.bufferSize, ← h'.runs.bufferSize] at hroom
    rw [bytes_service h'.fit.placed hroom, ← hbytes]
    exact part_spliceAll hin hapart d hd

theorem serves_of_performAll (hboot : Booted m0) (hjudger : init rawElf rawData m0 = .ok s0) (hstart : Roomy s0)
    (hcalls : ∀ c ∈ calls, c.Timed ∧ c.Inside s0.bufferSize) (h : performAll p s0 calls = .ok (s, rs)) :
    Serves s0 s := by
  obtain ⟨s', rs', h', -, hs'⟩ := performAll_refines (p := p) (init_serves hboot hjudger) hstart hcalls
  cases h.symm.trans h'
  exact hs'

/-- The same inputs after two histories. -/
theorem verdict_of_same (hs1 : Serves s0 s1) (hs2 : Serves s0 s2) (u : Behaviour)
    (hsame : ∀ b ∈ req.inputs, s1.bytes b.off b.len = s2.bytes b.off b.len) :
    s1.service.verdict (s0.site p) req u = s2.service.verdict (s0.site p) req u := by
  have hlen : s1.service.bytes.length = s2.service.bytes.length := by
    rw [length_service, length_service, hs1.runs.bufferSize, hs2.runs.bufferSize]
  refine Service.verdict_congr hlen fun hsane b hb => ?_
  have hmem : b ∈ req.buffers := by
    simp only [JudgeRequest.inputs, JudgeRequest.buffers, List.mem_cons] at hb ⊢
    tauto
  have hin : b.off + b.len ≤ s1.bufferSize := (inBuffer_iff.mp (holds_service.mp (hsane.1 b hmem))).2
  have hin2 : b.off + b.len ≤ s2.bufferSize := by
    rwa [hs2.runs.bufferSize, ← hs1.runs.bufferSize]
  rw [← bytes_service hs1.fit.placed hin, ← bytes_service hs2.fit.placed hin2]
  exact hsame b hb

end Histories

/-- **Judging is fair**: after any two sequences of calls, the same request with the same inputs gets the same
    answer from a program that does the same.  It is refused for the same reason, or its results are equal and
    so are its outputs. -/
theorem judging_is_fair (p : Platform) (m0 : Machine) (rawElf rawData : Cache) (s0 s1 s2 : State)
    (calls1 calls2 : List Call) (rs1 rs2 : List Reply) (req : JudgeRequest) (u : Behaviour)
    (hinit : AfterInit m0) (hjudger : init rawElf rawData m0 = .ok s0) (hroom : 2 ^ 32 < s0.m.vaddrBreak)
    (hcalls : ∀ c ∈ calls1 ++ calls2, c.Timed ∧ c.Inside s0.bufferSize)
    (h1 : performAll p s0 calls1 = .ok (s1, rs1)) (h2 : performAll p s0 calls2 = .ok (s2, rs2))
    (hnew : req.seqNum ≠ s1.judgeSeqNum ∧ req.seqNum ≠ s2.judgeSeqNum)
    (hsame : ∀ b ∈ req.inputs, s1.bytes b.off b.len = s2.bytes b.off b.len) :
    ∃ t1 t2 r1 r2, judge p req u s1 = .ok (t1, r1) ∧ judge p req u s2 = .ok (t2, r2) ∧ r1.error = r2.error ∧
      (r1.error = none → r1 = r2 ∧
        t1.bytes req.stdout.off r1.stdoutSize = t2.bytes req.stdout.off r1.stdoutSize ∧
        t1.bytes req.stderr.off r1.stderrSize = t2.bytes req.stderr.off r1.stderrSize ∧
        t1.bytes req.OB.off req.OB.len = t2.bytes req.OB.off req.OB.len) := by
  have hstart := init_roomy hinit.booted hjudger hroom
  have hs1 := serves_of_performAll hinit.booted hjudger hstart
    (fun c hc => hcalls c (List.mem_append_left _ hc)) h1
  have hs2 := serves_of_performAll hinit.booted hjudger hstart
    (fun c hc => hcalls c (List.mem_append_right _ hc)) h2
  have hverdict := verdict_of_same (p := p) hs1 hs2 u hsame
  obtain ⟨t1, r1, hjudge1, hres1⟩ := judge_of_verdict (p := p) hs1 hstart hnew.1 u
  obtain ⟨t2, r2, hjudge2, hres2⟩ := judge_of_verdict (p := p) hs2 hstart hnew.2 u
  refine ⟨t1, t2, r1, r2, hjudge1, hjudge2, ?_⟩
  rw [← hverdict] at hres2
  cases hcase : s1.service.verdict (s0.site p) req u with
  | error error =>
    simp only [hcase] at hres1 hres2
    rw [hres1, hres2]
    exact ⟨rfl, fun hnone => absurd hnone (Option.some_ne_none error)⟩
  | ok x =>
    obtain ⟨result, outs⟩ := x
    simp only [hcase] at hres1 hres2
    obtain ⟨rfl, houts1⟩ := hres1
    obtain ⟨rfl, houts2⟩ := hres2
    obtain ⟨-, lay, hresult, rfl⟩ := Service.verdict_ok hcase
    obtain ⟨-, hsize1, hsize2⟩ := resultOf_sizes req (Elf.outcome p.kernel (s1.service.request req) lay u)
    have hout : ∀ d ∈ Service.outputs p.kernel req (s1.service.request req) lay u,
        t1.bytes d.1 d.2.length = t2.bytes d.1 d.2.length :=
      fun d hd => (houts1 d hd).trans (houts2 d hd).symm
    simp only [Service.outputs, List.forall_mem_cons, length_listOf] at hout
    obtain ⟨hstdout, hstderr, hOB, -⟩ := hout
    refine ⟨rfl, fun _ => ⟨rfl, ?_, ?_, hOB⟩⟩
    · rw [hresult]
      show t1.bytes _ (resultOf req _).stdoutSize = t2.bytes _ (resultOf req _).stdoutSize
      rw [show (s0.site p).kernel = p.kernel from rfl, hsize1]
      exact hstdout
    · rw [hresult]
      show t1.bytes _ (resultOf req _).stderrSize = t2.bytes _ (resultOf req _).stderrSize
      rw [show (s0.site p).kernel = p.kernel from rfl, hsize2]
      exact hstderr

/-- Bytes that are in range are written. -/
theorem write_performed {p : Platform} {s0 s : State} {off : Nat} {data : List UInt8} (h : Serves s0 s)
    (hin : s.inBuffer off data.length = true) :
    ∃ s', perform p s (.op (.write off data)) = .ok (s', .op (.done true)) ∧
      s'.service = s.service.write off data ∧ Serves s0 s' := by
  obtain ⟨s', r, hperform, hstep, h'⟩ := write_refines (p := p) h off data
  generalize hv : s'.service = v at hstep
  cases hstep with
  | refused _ hno => exact absurd (holds_service.mpr hin) hno
  | write _ => exact ⟨s', hperform, hv, h'⟩

/-- A client who has written something else before. -/
theorem judging_is_fair_tiny : ∃ m0 s0 s1 s2 rs1 rs2 t1 t2 r1 r2, AfterInit m0 ∧
    init DuckCache.zeros DuckCache.zeros m0 = .ok s0 ∧
    performAll somePlatform s0 [.op (.write 0 Elf.tinyHeader)] = .ok (s1, rs1) ∧
    performAll somePlatform s0 [.op (.write 16384 [7]), .op (.write 0 Elf.tinyHeader)] = .ok (s2, rs2) ∧
    judge somePlatform tinyRequest idle s1 = .ok (t1, r1) ∧ judge somePlatform tinyRequest idle s2 = .ok (t2, r2) ∧
    r1.error = r2.error := by
  obtain ⟨m0, s0, hinit, hjudger, hroom, hsize⟩ := exists_large
  have hstart := init_roomy hinit.booted hjudger hroom
  have hserves := init_serves hinit.booted hjudger
  have hlen : Elf.tinyHeader.length = 84 := rfl
  have hin : ∀ {s}, Serves s0 s → s.inBuffer 0 Elf.tinyHeader.length = true := by
    intro s hs
    rw [inBuffer_iff, hs.runs.bufferSize, hsize, hlen]
    decide
  have hin' : s0.inBuffer 16384 [(7 : UInt8)].length = true := by
    rw [inBuffer_iff, hsize]
    decide
  obtain ⟨s1, hwrite1, hservice1, hs1⟩ := write_performed (p := somePlatform) hserves (hin hserves)
  obtain ⟨t, hwrite, -, ht⟩ := write_performed (p := somePlatform) hserves hin'
  obtain ⟨s2, hwrite2, hservice2, hs2⟩ := write_performed (p := somePlatform) ht (hin ht)
  have hbytes : ∀ {s s'}, Serves s0 s → Serves s0 s' → s'.service = s.service.write 0 Elf.tinyHeader →
      s'.bytes 0 84 = Elf.tinyHeader := by
    intro s s' hs hs' hservice
    rw [bytes_service hs'.fit.placed (by rw [hs'.runs.bufferSize, hsize]; decide), hservice]
    exact part_splice (by rw [length_service, hs.runs.bufferSize, hsize, hlen]; decide)
  have hperform1 : performAll somePlatform s0 [.op (.write 0 Elf.tinyHeader)] = .ok (s1, [.op (.done true)]) := by
    rw [performAll, bind_of_ok hwrite1]
    rfl
  have hperform2 : performAll somePlatform s0 [.op (.write 16384 [7]), .op (.write 0 Elf.tinyHeader)] =
      .ok (s2, [.op (.done true), .op (.done true)]) := by
    rw [performAll, bind_of_ok hwrite]
    simp only
    rw [performAll, bind_of_ok hwrite2]
    rfl
  have hseq1 : s1.judgeSeqNum = 2 ^ 64 - 1 := congrArg Service.seqNum hservice1
  have hseq2 : s2.judgeSeqNum = 2 ^ 64 - 1 := congrArg Service.seqNum hservice2
  obtain ⟨t1, t2, r1, r2, hjudge1, hjudge2, herror, -⟩ :=
    judging_is_fair somePlatform m0 _ _ s0 s1 s2 _ _ _ _ tinyRequest idle hinit hjudger hroom
      (by simp [Call.Timed, Op.Timed, Call.Inside, Op.cached]) hperform1 hperform2
      ⟨by rw [hseq1]; decide, by rw [hseq2]; decide⟩ (by
        simp only [JudgeRequest.inputs, List.forall_mem_cons]
        exact ⟨(hbytes hserves hs1 hservice1).trans (hbytes ht hs2 hservice2).symm, rfl, rfl, rfl,
          fun b hb => absurd hb List.not_mem_nil⟩)
  exact ⟨m0, s0, s1, s2, _, _, t1, t2, r1, r2, hinit, hjudger, hperform1, hperform2, hjudge1, hjudge2, herror⟩

end JudgeDuck.Judger
