/-
  The result that is kept.

  A client that asks again with the number of the latest judge call gets the kept result.  `Produced`
  says what makes that right: an earlier call of the sequence with this number was executed and has
  returned the result, and the buffer is still as that call has left it.  `Kept` is the invariant
  behind it: while the flag `judge_result_cleared` is down, the kept result is one that was produced;
  while it is up, the number is the largest one and the result says `Not Judged`.  So the one request
  that gets a wrong reply is a request with the largest number while the flag is up (`coherent_iff`).

  All that is about memory that only the judger changes.  `load_cache` does not test its range, so a cache
  may copy over the judger's own variables; the model stops there.  `judge_reply_iff` puts both together:
  the calls return and the reply is right iff no call makes a cache copy outside of the buffer and the
  pages of programs, and the request is not the one above.
-/
import JudgeDuck.Judger.Replay

namespace JudgeDuck.Judger

open JudgeDuck.Lib JudgeDuck.Memory
open JudgeDuck.DuckCache (Cache)
open JudgeDuck.Elf (Behaviour)

/-- The number of judge calls grows by one. -/
def Executed (s s' : State) : Prop := s'.nJudges = u64 (s.nJudges + 1)

/-- Two states with the same bytes in the buffer. -/
def SameBuffer (s s' : State) : Prop :=
  s'.buffer = s.buffer ∧ s'.bufferSize = s.bufferSize ∧
    ∀ i, i < s.bufferSize → s'.m.mem (s.buffer + i) = s.m.mem (s.buffer + i)

/-- An executed judge call of the sequence, with this number, returned `result`, and since then no
    call has changed the buffer. -/
def Produced (p : Platform) (s0 : State) (calls : List Call) (seqNum : Nat) (result : JudgeResult) :
    Prop :=
  ∃ before req u after s1 s2, calls = before ++ .judge req u :: after ∧
    session p s0 before = .ok s1 ∧ judge p req u s1 = .ok (s2, result) ∧ Executed s1 s2 ∧
    req.seqNum = seqNum ∧
    ∀ calls' s', calls' <+: after → session p s2 calls' = .ok s' → SameBuffer s2 s'

/-- A request is executed, or the reply is a result that was produced and nothing changes. -/
def Coherent (p : Platform) (s0 : State) (calls : List Call) (s : State) (req : JudgeRequest)
    (u : Behaviour) : Prop :=
  ∃ s' result, judge p req u s = .ok (s', result) ∧
    (Executed s s' ∨ s' = s ∧ Produced p s0 calls req.seqNum result)

/-- The invariant of the kept result. -/
def Kept (p : Platform) (s0 : State) (calls : List Call) (s : State) : Prop :=
  if s.judgeResultCleared then s.judgeSeqNum = 2 ^ 64 - 1 ∧ s.judgeResult = notJudged
  else Produced p s0 calls s.judgeSeqNum s.judgeResult

section

variable {p : Platform} {s0 s s' : State} {calls : List Call} {c : Call}

theorem session_append {l : List Call} (h : session p s0 calls = .ok s) :
    session p s0 (calls ++ l) = session p s l := by
  rw [session, List.foldlM_append]
  exact bind_of_ok h

theorem session_single (h : call p s c = .ok s') : session p s [c] = .ok s' := by
  rw [session, List.foldlM_cons, bind_of_ok h]
  rfl

theorem SameBuffer.trans {s1 s2 s3 : State} (h : SameBuffer s1 s2) (h' : SameBuffer s2 s3) :
    SameBuffer s1 s3 := by
  obtain ⟨hbuffer, hsize, hbytes⟩ := h
  obtain ⟨hbuffer', hsize', hbytes'⟩ := h'
  refine ⟨hbuffer'.trans hbuffer, hsize'.trans hsize, ?_⟩
  intro i hi
  rw [← hbytes i hi, ← hbuffer]
  exact hbytes' i (by rw [hsize]; exact hi)

/-- A call that leaves the buffer alone changes nothing about what was produced. -/
theorem Produced.snoc {seqNum : Nat} {result : JudgeResult}
    (h : Produced p s0 calls seqNum result) (hsession : session p s0 calls = .ok s)
    (hcall : call p s c = .ok s') (hsame : SameBuffer s s') :
    Produced p s0 (calls ++ [c]) seqNum result := by
  obtain ⟨before, req, u, after, s1, s2, hcalls, hbefore, hjudge, hexecuted, hseq, hquiet⟩ := h
  refine ⟨before, req, u, after ++ [c], s1, s2, ?_, hbefore, hjudge, hexecuted, hseq, ?_⟩
  · rw [hcalls, List.append_assoc, List.cons_append]
  -- the rest of the sequence runs from `s2` to `s`
  have hstep : call p s1 (.judge req u) = .ok s2 := by
    rw [call, hjudge]
    rfl
  have hafter : session p s2 after = .ok s := by
    have hfirst : session p s0 (before ++ [.judge req u]) = .ok s2 :=
      (session_append hbefore).trans (session_single hstep)
    rw [hcalls, ← List.singleton_append, ← List.append_assoc, session_append hfirst] at hsession
    exact hsession
  intro calls' t hprefix ht
  rcases List.prefix_concat_iff.mp hprefix with hall | hpart
  · have hlast : session p s2 (after ++ [c]) = .ok s' :=
      (session_append hafter).trans (session_single hcall)
    rw [hall, hlast] at ht
    cases ht
    exact (hquiet after s (List.prefix_refl _) hafter).trans hsame
  · exact hquiet calls' t hpart ht

theorem SameBuffer.of_m (hbuffer : s'.buffer = s.buffer) (hsize : s'.bufferSize = s.bufferSize)
    (hm : s'.m = s.m) : SameBuffer s s' := by
  refine ⟨hbuffer, hsize, ?_⟩
  intro i hi
  rw [hm]

/-- The result of a call that was executed just now. -/
theorem Produced.new {req : JudgeRequest} {u : Behaviour} {result : JudgeResult}
    (hsession : session p s0 calls = .ok s) (hjudge : judge p req u s = .ok (s', result))
    (hexecuted : Executed s s') : Produced p s0 (calls ++ [.judge req u]) req.seqNum result := by
  refine ⟨calls, req, u, [], s, s', rfl, hsession, hjudge, hexecuted, rfl, ?_⟩
  intro calls' t hprefix ht
  rw [List.prefix_nil.mp hprefix] at ht
  cases ht
  exact .of_m rfl rfl rfl

/-! ## The invariant -/

/-- After `init` nothing is kept. -/
theorem Kept.init {m0 : Machine} (h : Started m0 s0) : Kept p s0 [] s0 := by
  rw [Kept, if_pos h.fresh.1]
  exact h.fresh.2

/-- A call that changes neither the buffer nor what is kept. -/
theorem Kept.quiet (h : Kept p s0 calls s) (hsession : session p s0 calls = .ok s)
    (hcall : call p s c = .ok s') (hsame : SameBuffer s s')
    (hcleared : s'.judgeResultCleared = s.judgeResultCleared)
    (hseq : s'.judgeSeqNum = s.judgeSeqNum) (hresult : s'.judgeResult = s.judgeResult) :
    Kept p s0 (calls ++ [c]) s' := by
  rw [Kept, hcleared, hseq, hresult]
  rw [Kept] at h
  split
  · next hup =>
    rw [if_pos hup] at h
    exact h
  · next hdown =>
    rw [if_neg hdown] at h
    exact h.snoc hsession hcall hsame

/-- A judge call that was executed. -/
theorem Kept.executed {req : JudgeRequest} {u : Behaviour} {result : JudgeResult}
    (hsession : session p s0 calls = .ok s) (hjudge : judge p req u s = .ok (s', result))
    (hexecuted : Executed s s') (hcleared : s'.judgeResultCleared = false)
    (hseq : s'.judgeSeqNum = req.seqNum) (hresult : s'.judgeResult = result) :
    Kept p s0 (calls ++ [.judge req u]) s' := by
  rw [Kept, hcleared, hseq, hresult]
  exact Produced.new hsession hjudge hexecuted

/-- **Every call keeps the invariant**. -/
theorem Kept.call (hp : Placed s) (h : Kept p s0 calls s) (hsession : session p s0 calls = .ok s)
    (hcall : call p s c = .ok s') : Kept p s0 (calls ++ [c]) s' := by
  cases c with
  | op op =>
    obtain ⟨⟨t, out⟩, hexec, rfl⟩ := map_ok hcall
    rcases exec_effect hexec with ⟨e, d, ht⟩ | ⟨m, e, d, -, ht⟩
    · refine h.quiet hsession hcall ?_ ?_ ?_ ?_ <;> rw [ht]
      exact .of_m rfl rfl rfl
    · -- bytes may have changed, and the flag is up
      rw [Kept] at h
      show Kept p s0 _ t
      rw [ht, clearJudgeResult]
      split
      · next hup =>
        rw [if_pos hup] at h
        rw [Kept]
        exact (if_pos hup).mpr h
      · exact ⟨rfl, rfl⟩
  | judge req u =>
    obtain ⟨⟨t, result⟩, hjudge, rfl⟩ := map_ok hcall
    rcases judge_cases hp hjudge with ⟨-, rfl, -⟩ | ⟨-, ⟨error, -, rfl, rfl⟩ | ⟨lay, m, hj⟩⟩
    · exact h.quiet hsession hcall (.of_m rfl rfl rfl) rfl rfl rfl
    · exact .executed hsession hjudge rfl rfl rfl rfl
    · obtain ⟨d, m', time, rfl⟩ := hj.state
      exact .executed hsession hjudge rfl rfl rfl rfl

/-- **What is kept is the last result**, along every session. -/
theorem kept_session (hp : Placed s0) (hboot : Booted s0.m) (h0 : Kept p s0 [] s0)
    (h : session p s0 calls = .ok s) : Kept p s0 calls s := by
  induction calls using List.reverseRecOn generalizing s with
  | nil =>
    cases h
    exact h0
  | append_singleton calls c ih =>
    rw [session, List.foldlM_append] at h
    obtain ⟨t, ht, hlast⟩ := bind_ok h
    have hcall : Judger.call p t c = .ok s := by
      rw [List.foldlM_cons] at hlast
      obtain ⟨s', hs', hnil⟩ := bind_ok hlast
      cases hnil
      exact hs'
    exact (ih ht).call ((runs_session hp hboot ht).placed hp) ht hcall

/-! ## Replies -/

theorem not_executed_self : ¬ Executed s s := by
  rw [Executed, u64]
  omega

/-- No call that is executed says `Not Judged`. -/
theorem error_of_executed {req : JudgeRequest} {u : Behaviour} {result : JudgeResult} (hp : Placed s)
    (hjudge : judge p req u s = .ok (s', result)) (hexecuted : Executed s s') :
    result ≠ notJudged := by
  intro hresult
  rcases judge_cases hp hjudge with ⟨-, hs', -⟩ | ⟨-, ⟨error, herror, -, hfail⟩ | ⟨lay, m, hj⟩⟩
  · rw [hs'] at hexecuted
    exact not_executed_self hexecuted
  · have heq : some error = some "Not Judged" :=
      congrArg JudgeResult.error (hfail.symm.trans hresult)
    exact herror (Option.some.inj heq)
  · have hnone := hj.error
    rw [hresult] at hnone
    cases hnone

end

/-- `vaddr_break` is still a multiple of a page. -/
theorem Runs.dvd_vaddrBreak {s0 s : State} (h : Runs s0 s) (hboot : Booted s0.m) :
    DuckCache.pageSize ∣ s.m.vaddrBreak := by
  obtain ⟨-, -, app?, hprotect⟩ := h
  have hbreak : s.m.vaddrBreak = s0.m.vaddrBreak := hprotect.vaddrBreak
  rw [hbreak]
  exact Nat.dvd_trans (by decide) hboot.dvd_break

/-- **Which replies are right** after a sequence of calls that returned: a judge request is executed or gets
    a result that was produced, unless it has the largest number while no result is kept. -/
theorem coherent_iff {p : Platform} {m0 : Machine} {rawElf rawData : Cache} {s0 s : State}
    {calls : List Call} (req : JudgeRequest) (u : Behaviour) (hinit : AfterInit m0)
    (hjudger : init rawElf rawData m0 = .ok s0) (hsession : session p s0 calls = .ok s) :
    Coherent p s0 calls s req u ↔ ¬ (req.seqNum = 2 ^ 64 - 1 ∧ s.judgeResultCleared = true) := by
  have hstarted := init_started hinit.booted hjudger
  have hplaced : ∀ l t, session p s0 l = .ok t → Placed t := fun l t ht =>
    (runs_session hstarted.placed hstarted.booted ht).placed hstarted.placed
  have hkept := kept_session hstarted.placed hstarted.booted (Kept.init (p := p) hstarted) hsession
  rw [Kept] at hkept
  constructor
  · rintro ⟨s', result, hjudge, hreply⟩ ⟨hseq, hup⟩
    rw [if_pos hup] at hkept
    obtain ⟨hnum, hresult⟩ := hkept
    rcases judge_cases (hplaced _ _ hsession) hjudge with ⟨-, hs', hres⟩ | ⟨hne, -⟩
    · rcases hreply with hexecuted | ⟨-, before, req', u', after, s1, s2, -, h1, h2, h3, -, -⟩
      · rw [hs'] at hexecuted
        exact not_executed_self hexecuted
      · exact error_of_executed (hplaced _ _ h1) h2 h3 (hres.trans hresult)
    · exact hne (hseq.trans hnum.symm)
  · intro hnot
    have hdvd := (runs_session hstarted.placed hstarted.booted hsession).dvd_vaddrBreak hstarted.booted
    obtain ⟨s', result, hjudge⟩ := exists_judge p req u (hplaced _ _ hsession) hdvd
    refine ⟨s', result, hjudge, ?_⟩
    rcases judge_cases (hplaced _ _ hsession) hjudge with
      ⟨hseq, hs', hres⟩ | ⟨-, ⟨error, -, hs', -⟩ | ⟨lay, m, hj⟩⟩
    · refine .inr ⟨hs', ?_⟩
      split at hkept
      · next hup => exact absurd ⟨hseq.trans hkept.1, hup⟩ hnot
      · rw [hres, hseq]
        exact hkept
    · rw [hs']
      exact .inl rfl
    · obtain ⟨d, m', time, rfl⟩ := hj.state
      exact .inl rfl

/-! ## Sequences that return -/

/-- Every call of the sequence meets `P` in the state before it. -/
def Along (P : State → Call → Prop) (p : Platform) : State → List Call → Prop
  | _, [] => True
  | s, c :: cs => P s c ∧ ∀ s', call p s c = .ok s' → Along P p s' cs

/-- **Which sequences return**, call by call: the caches are sound in every state on the way. -/
theorem session_returns_iff {p : Platform} {s0 : State} (hp : Placed s0) (hboot : Booted s0.m) :
    ∀ {calls : List Call} {s : State}, Runs s0 s → Fit s → (∀ c ∈ calls, c.Timed) →
      Along Call.PageApart p s calls →
      ((∃ s', session p s calls = .ok s') ↔ Along Call.Stays p s calls) := by
  intro calls
  induction calls with
  | nil => exact fun _ _ _ _ => ⟨fun _ => trivial, fun _ => ⟨_, rfl⟩⟩
  | cons c calls ih =>
    intro s hruns hfit htimed hapart
    obtain ⟨htimed1, htimed2⟩ := List.forall_mem_cons.mp htimed
    have hreturns := call_returns_iff (p := p) hfit (hruns.dvd_vaddrBreak hboot) htimed1
    have hrest : ∀ s1, call p s c = .ok s1 →
        ((∃ s', session p s1 calls = .ok s') ↔ Along Call.Stays p s1 calls) := fun s1 h1 =>
      ih (hruns.call hp h1) (hfit.call hruns hp hapart.1 htimed1 h1) htimed2 (hapart.2 s1 h1)
    constructor
    · rintro ⟨s', h⟩
      rw [session, List.foldlM_cons] at h
      obtain ⟨s1, h1, h⟩ := bind_ok h
      refine ⟨hreturns.mp ⟨s1, h1⟩, fun t ht => ?_⟩
      cases h1.symm.trans ht
      exact (hrest s1 h1).mp ⟨s', h⟩
    · rintro ⟨hstays, hall⟩
      obtain ⟨s1, h1⟩ := hreturns.mpr hstays
      obtain ⟨s', h⟩ := (hrest s1 h1).mpr (hall s1 h1)
      refine ⟨s', ?_⟩
      rw [session, List.foldlM_cons, bind_of_ok h1]
      exact h

/-- **Coherence of the replies**, after `init` and any sequence of calls.  The calls return and a request
    that follows is executed or gets a result that was produced, iff no call makes a cache copy outside of
    the buffer and the pages of programs and the request does not have the largest number while no result
    is kept.  Here no judged program may have its file's page in the data cache, since a cache with wrong
    hashes may fail an assertion; of the sequences that do return the reply is right all the same. -/
theorem judge_reply_iff (p : Platform) (m0 : Machine) (rawElf rawData : Cache) (s0 : State)
    (calls : List Call) (req : JudgeRequest) (u : Behaviour) (hinit : AfterInit m0)
    (hjudger : init rawElf rawData m0 = .ok s0) (htimed : ∀ c ∈ calls, c.Timed) :
    (Along Call.PageApart p s0 calls →
      ((∃ s, session p s0 calls = .ok s ∧ Coherent p s0 calls s req u) ↔
        Along Call.Stays p s0 calls ∧ ∀ s, session p s0 calls = .ok s →
          ¬ (req.seqNum = 2 ^ 64 - 1 ∧ s.judgeResultCleared = true))) ∧
      ∀ s, session p s0 calls = .ok s →
        (Coherent p s0 calls s req u ↔ ¬ (req.seqNum = 2 ^ 64 - 1 ∧ s.judgeResultCleared = true)) := by
  have hcoherent : ∀ s, session p s0 calls = .ok s → (Coherent p s0 calls s req u ↔
      ¬ (req.seqNum = 2 ^ 64 - 1 ∧ s.judgeResultCleared = true)) :=
    fun s hsession => coherent_iff req u hinit hjudger hsession
  refine ⟨fun hapart => ?_, hcoherent⟩
  have hstarted := init_started hinit.booted hjudger
  have hreturns := session_returns_iff hstarted.placed hstarted.booted
    ⟨rfl, rfl, none, .init hstarted.booted⟩ (init_fit hinit.booted hjudger) htimed hapart
  constructor
  · rintro ⟨s, hsession, hreply⟩
    refine ⟨hreturns.mp ⟨s, hsession⟩, fun t ht => ?_⟩
    cases hsession.symm.trans ht
    exact (hcoherent s hsession).mp hreply
  · rintro ⟨hstays, hnot⟩
    obtain ⟨s, hsession⟩ := hreturns.mpr hstays
    exact ⟨s, hsession, (hcoherent s hsession).mpr (hnot s hsession)⟩

/-- A file is written to the buffer, stored in a cache and judged. -/
def judgedOnce : List Call :=
  [.op (.write 0 Elf.tinyHeader), .op (.storeCache ['e', 'l', 'f'] 0 84 zeroHex 1),
    .judge tinyRequest idle]

/-- The request is sent again: the judger does not execute it, and replies with the result that the first
    one has produced. -/
theorem judge_reply_repeated : ∃ m0 s0 s result, AfterInit m0 ∧
    init DuckCache.zeros DuckCache.zeros m0 = .ok s0 ∧
    session somePlatform s0 judgedOnce = .ok s ∧
    judge somePlatform tinyRequest idle s = .ok (s, result) ∧
    Produced somePlatform s0 judgedOnce tinyRequest.seqNum result := by
  obtain ⟨m0, s0, hinit, hjudger, hbreak, -, hsize, -⟩ := exists_small 0
  have hstarted := init_started hinit.booted hjudger
  have hstep : ∀ {s s' c}, Runs s0 s → call somePlatform s c = .ok s' → Runs s0 s' :=
    fun hruns h => hruns.call hstarted.placed h
  have h0 : Runs s0 s0 := ⟨rfl, rfl, none, .init hstarted.booted⟩
  have htimed : ∀ c ∈ judgedOnce, c.Timed := by
    simp [judgedOnce, Call.Timed, Op.Timed]
  -- the regions of the program end at 0x804b000, and programs have what is below 188 MiB
  have hapart : Along Call.PageApart somePlatform s0 judgedOnce := by
    refine ⟨trivial, fun s1 h1 => ⟨trivial, fun s2 h2 => ⟨?_, fun _ _ => trivial⟩⟩⟩
    obtain ⟨-, -, app?, hprotect⟩ := hstep (hstep h0 h1) h2
    have hbreak2 : s2.m.vaddrBreak = 188 * 2 ^ 20 := hprotect.vaddrBreak.trans hbreak
    have hend : (elfRequest s2 tinyRequest).regionsEnd = 0x804b000 := by
      simp only [Elf.Request.regionsEnd, elfRequest, State.bytes, length_listOf]
      decide
    rw [Call.PageApart, hend, hbreak2]
    exact fun _ => by decide
  have hstays : Along Call.Stays somePlatform s0 judgedOnce := by
    refine ⟨fun h => h.elim, fun s1 h1 => ⟨?_, fun s2 h2 => ⟨trivial, fun _ _ => trivial⟩⟩⟩
    have hruns := hstep h0 h1
    refine Op.stays_of_inside (hruns.placed hstarted.placed) ((Op.inside_single rfl).mpr ?_)
    rw [hruns.bufferSize, hsize]
    decide
  obtain ⟨s, hsession, s', result, hjudge, hreply⟩ :=
    ((judge_reply_iff somePlatform m0 _ _ s0 judgedOnce tinyRequest idle hinit hjudger htimed).1
      hapart).mpr ⟨hstays, fun _ _ h => absurd h.1 (by decide)⟩
  have hagain : ∃ first, judge somePlatform tinyRequest idle s = .ok (s, first) := by
    have hrun := hsession
    rw [session, judgedOnce, List.foldlM_cons] at hrun
    obtain ⟨s1, h1, hrun⟩ := bind_ok hrun
    rw [List.foldlM_cons] at hrun
    obtain ⟨s2, h2, hrun⟩ := bind_ok hrun
    obtain ⟨t, ht, hnil⟩ := bind_ok hrun
    cases hnil
    obtain ⟨⟨s3, first⟩, hfirst, rfl⟩ := map_ok ht
    exact ⟨first, judge_replay idle ((hstep (hstep h0 h1) h2).placed hstarted.placed) hfirst⟩
  obtain ⟨first, hagain⟩ := hagain
  cases hagain.symm.trans hjudge
  refine ⟨m0, s0, s, _, hinit, hjudger, hsession, hagain, ?_⟩
  rcases hreply with hexecuted | ⟨-, hproduced⟩
  · exact absurd hexecuted not_executed_self
  · exact hproduced

/-- A request with the largest number. -/
def largestRequest : JudgeRequest :=
  { tinyRequest with seqNum := 2 ^ 64 - 1, seqNum_lt := by decide }

/-- **A wrong reply**: the first call after `init` has the largest number; it is not executed, and no
    call was executed before. -/
theorem first_reply_not_judged : ∃ m0 s0, AfterInit m0 ∧
    init DuckCache.zeros DuckCache.zeros m0 = .ok s0 ∧
    judge somePlatform largestRequest idle s0 = .ok (s0, notJudged) ∧
    ¬ Coherent somePlatform s0 [] s0 largestRequest idle := by
  obtain ⟨m0, s0, hinit, hjudger, -⟩ := exists_small 0
  obtain ⟨-, hseq, hresult⟩ := (init_started hinit.booted hjudger).fresh
  have hjudge : judge somePlatform largestRequest idle s0 = .ok (s0, notJudged) := by
    have hload : judgeLoad somePlatform largestRequest s0 = .ok (s0, .inl s0.judgeResult) :=
      if_pos hseq.symm
    rw [judge, bind_of_ok hload, hresult]
  refine ⟨m0, s0, hinit, hjudger, hjudge, ?_⟩
  rintro ⟨s', result, hjudge', hreply⟩
  rw [hjudge] at hjudge'
  cases hjudge'
  rcases hreply with hexecuted | ⟨-, before, req, u, after, s1, s2, hcalls, -⟩
  · exact not_executed_self hexecuted
  · simp at hcalls

end JudgeDuck.Judger
