/-
  The digit stream cut into TCP segments in different ways.

  lwIP hands `tcp_recv_fn_10001` chains of up to `TCP_WND` bytes.  The callback copies the chain
  into a buffer of `MTU` bytes without checking its length, and `recv_input` asserts at most 400
  digits; so a stream that is cut finely enough is accepted and the same stream in longer segments
  is not.  Below that bound the answers depend on the cut through the false hits of `M1` and
  `M2` only (`segmentation_iff`).
-/
import JudgeDuck.Contestant.Session
import JudgeDuck.Solver.Cuts

namespace JudgeDuck.Contestant

open JudgeDuck.Lib JudgeDuck.Solver

/-- The segments arrive one after the other. -/
def recvEvents (segs : List (List UInt8)) : List Event := segs.map fun p => .recv10001 (some p)

/-- Segments of digits as lwIP may deliver them. -/
def IsCut (segs : List (List UInt8)) : Prop :=
  ∀ p ∈ segs, (1 ≤ p.length ∧ p.length ≤ tcpWnd) ∧ ∀ b ∈ p, IsDigit b

instance (segs : List (List UInt8)) : Decidable (IsCut segs) :=
  inferInstanceAs (Decidable (∀ p ∈ segs, (1 ≤ p.length ∧ p.length ≤ tcpWnd) ∧ ∀ b ∈ p, IsDigit b))

/-- What the server sees of an answer. -/
def Submission.answer (sub : Submission) : MNumber × List UInt8 := sub.call.answer

/-- Both cuts are processed without a fault, and the same answers are submitted. -/
def SameAnswers (d : Bool) (s : State) (segs1 segs2 : List (List UInt8)) : Prop :=
  ∃ r1 r2, run d s (recvEvents segs1) = .ok r1 ∧ run d s (recvEvents segs2) = .ok r2 ∧
    (r1.2.map Submission.answer).Perm (r2.2.map Submission.answer)

/-! ## Segments that are too long -/

/-- A digit segment of more than 400 bytes overflows the buffer or trips the assertion. -/
theorem recv_long {p : List UInt8} (d : Bool) (s : State) (hdigits : ∀ b ∈ p, IsDigit b)
    (hlong : 400 < p.length) : step d s (.recv10001 (some p)) =
      .error (if mtu < p.length then .bufferOverflow else .assertion) := by
  have hall : p.all isDigitChar = true :=
    List.all_eq_true.mpr fun b hb => isDigitChar_of_isDigit (hdigits b hb)
  show tcpRecvFn10001 d s (some p) = _
  rw [tcpRecvFn10001]
  by_cases hmtu : mtu < p.length
  · rw [if_pos hmtu, if_pos hmtu]
  · have hlen : ¬ (1 ≤ p.length ∧ p.length ≤ maxBatchSize) := by
      rintro ⟨-, h400⟩
      have : p.length ≤ 400 := h400
      omega
    rw [if_neg hmtu, if_neg hmtu]
    simp only [hall, if_true]
    rw [feedSolver, feed, recvInput, if_neg hlen]
    rfl

/-- A run of segments returns only if none is longer than 400 digits. -/
theorem isBatch_of_run {d : Bool} : ∀ {segs : List (List UInt8)} {s : State} {r},
    IsCut segs → run d s (recvEvents segs) = .ok r → ∀ p ∈ segs, p.length ≤ 400 := by
  intro segs
  induction segs with
  | nil => exact fun _ _ p hp => absurd hp List.not_mem_nil
  | cons p segs ih =>
    intro s r hcut hrun
    obtain ⟨⟨s1, subs1⟩, hstep, hrun1⟩ := bind_ok hrun
    obtain ⟨r2, hrest, -⟩ := bind_ok hrun1
    refine List.forall_mem_cons.mpr ⟨?_, ih (fun p hp => hcut p (List.mem_cons_of_mem _ hp)) hrest⟩
    by_contra hlong
    rw [recv_long d s (hcut p List.mem_cons_self).2 (by omega)] at hstep
    nomatch hstep

/-! ## Segments of at most 400 digits -/

theorem IsCut.isBatch {segs : List (List UInt8)} (hcut : IsCut segs)
    (hshort : ∀ p ∈ segs, p.length ≤ 400) : ∀ p ∈ segs, IsBatch p :=
  fun p hp => ⟨(hcut p hp).1.1, hshort p hp, (hcut p hp).2⟩

/-- `contestant_send` passes on every call, or none. -/
theorem contestantSend_answers (d : Bool) (s : State) (calls : List Call) :
    (calls.flatMap (contestantSend d s)).map Submission.answer =
      if s.state = .connected ∧ d = false then calls.map Call.answer else [] := by
  by_cases hconn : s.state = .connected ∧ d = false
  · rw [if_pos hconn, List.map_flatMap, List.map_eq_flatMap]
    refine List.flatMap_congr fun c _ => ?_
    rw [contestantSend, if_neg (fun h => h hconn.1), hconn.2]
    rfl
  · rw [if_neg hconn, List.map_flatMap]
    refine List.flatMap_eq_nil_iff.mpr fun c _ => ?_
    unfold contestantSend
    by_cases hst : s.state = .connected
    · have hd : d = true := by
        cases d with
        | true => rfl
        | false => exact absurd ⟨hst, rfl⟩ hconn
      rw [if_neg (fun h => h hst), if_pos hd, List.map_nil]
    · rw [if_pos hst, List.map_nil]

/-- The answers of one batch, in terms of a stream that goes on after it. -/
theorem submissions_answers {s : State} (d : Bool) (hs : Fed s) (buf rest : List UInt8) :
    (submissions d s buf).map Submission.answer =
      if s.state = .connected ∧ d = false then
        ((batchCalls (arrayAt (s.fed ++ (buf ++ rest)) (s.fed.length - N)) buf.length).map
          (Call.shift (s.fed.length - N))).map Call.answer
      else [] := by
  have hcongr : batchCalls (arrayAt (s.fed ++ buf) (s.fed.length - N)) buf.length =
      batchCalls (arrayAt (s.fed ++ (buf ++ rest)) (s.fed.length - N)) buf.length := by
    refine batchCalls_congr fun i hi => ?_
    have hlt : s.fed.length - N + i < (s.fed ++ buf).length := by
      have := hs.len
      rw [List.length_append]
      omega
    rw [arrayAt, arrayAt, digitAt, digitAt, ← List.append_assoc, List.getD_append _ _ _ _ hlt]
  rw [submissions, hcongr]
  exact contestantSend_answers d _ _

/-- **A run of short segments** returns, and submits the solver's calls. -/
theorem run_segments {d : Bool} : ∀ {segs : List (List UInt8)} {s : State}, Fed s →
    (∀ p ∈ segs, IsBatch p) →
    ∃ r, run d s (recvEvents segs) = .ok r ∧ r.2.map Submission.answer =
      if s.state = .connected ∧ d = false then
        (runCalls (s.fed ++ segs.flatten) (s.fed.length - N) segs).map Call.answer
      else [] := by
  intro segs
  induction segs with
  | nil =>
    intro s _ _
    refine ⟨_, rfl, ?_⟩
    split <;> rfl
  | cons p segs ih =>
    intro s hs hsegs
    rcases List.forall_mem_cons.mp hsegs with ⟨hp, hsegs'⟩
    obtain ⟨solver, hstep, hs1⟩ := recv10001_eq d hs hp
    obtain ⟨⟨s2, subs2⟩, hrun, hans⟩ := ih hs1 hsegs'
    refine ⟨_, run_cons hstep hrun, ?_⟩
    have hs' : Fed { s with session := s.session ++ p } := ⟨hs.len, hs.digits, hs.tracks⟩
    have hoff : (s.fed ++ p).length - N = s.fed.length - N + p.length := by
      rw [List.length_append, Nat.sub_add_comm hs.len]
    rw [List.map_append, hans, submissions_answers d hs' p segs.flatten]
    simp only [hoff, List.append_assoc, List.flatten_cons, runCalls, List.map_append]
    split <;> rfl

/-! ## Two cuts -/

/-- **The answers are independent of the cut** iff no segment has more than 400 digits and, where
    answers are submitted at all, both cuts give the same false hits of `M1` and `M2`. -/
theorem segmentation_iff (d : Bool) :
    ∃ s0, contestantInit d = .ok s0 ∧ ∀ evs : List Event, (∀ ev ∈ evs, Legal ev) →
      ∀ s subs, run d s0 evs = .ok (s, subs) →
        ∀ segs1 segs2 : List (List UInt8), IsCut segs1 → IsCut segs2 →
          segs1.flatten = segs2.flatten →
          (SameAnswers d s segs1 segs2 ↔
            (∀ p ∈ segs1 ++ segs2, p.length ≤ 400) ∧
            (s.state = .connected → d = false →
              (falseHits (s.fed ++ segs1.flatten) (s.fed.length - N) segs1).Perm
                (falseHits (s.fed ++ segs1.flatten) (s.fed.length - N) segs2))) := by
  obtain ⟨s0, hinit, hfresh⟩ := contestantInit_spec d
  refine ⟨s0, hinit, fun evs hlegal s subs hrun segs1 segs2 hcut1 hcut2 heq => ?_⟩
  have hinv := (run_spec hfresh.inv hlegal hrun).1
  have hD : (∀ b ∈ segs1.flatten, IsDigit b) := by
    intro b hb
    rcases List.mem_flatten.mp hb with ⟨p, hp, hbp⟩
    exact (hcut1 p hp).2 b hbp
  have hlen : s.fed.length - N + N + segs1.flatten.length ≤ (s.fed ++ segs1.flatten).length := by
    rw [Nat.sub_add_cancel hinv.len, List.length_append]
  have hiff := fun h1 h2 =>
    runCalls_perm_iff (isDigit_append hinv.digits hD) (hcut1.isBatch h1) (hcut2.isBatch h2) heq hlen
  constructor
  · rintro ⟨r1, r2, hrun1, hrun2, hperm⟩
    have h1 := isBatch_of_run hcut1 hrun1
    have h2 := isBatch_of_run hcut2 hrun2
    refine ⟨List.forall_mem_append.mpr ⟨h1, h2⟩, fun hst hd => (hiff h1 h2).mp ?_⟩
    obtain ⟨r1', hrun1', hans1⟩ := run_segments hinv.toFed (hcut1.isBatch h1)
    obtain ⟨r2', hrun2', hans2⟩ := run_segments hinv.toFed (hcut2.isBatch h2)
    rw [hrun1] at hrun1'
    rw [hrun2] at hrun2'
    cases hrun1'
    cases hrun2'
    rwa [hans1, hans2, if_pos ⟨hst, hd⟩, if_pos ⟨hst, hd⟩, ← heq] at hperm
  · rintro ⟨hshort, hfalse⟩
    rcases List.forall_mem_append.mp hshort with ⟨h1, h2⟩
    obtain ⟨r1, hrun1, hans1⟩ := run_segments hinv.toFed (hcut1.isBatch h1)
    obtain ⟨r2, hrun2, hans2⟩ := run_segments hinv.toFed (hcut2.isBatch h2)
    refine ⟨r1, r2, hrun1, hrun2, ?_⟩
    rw [hans1, hans2, ← heq]
    by_cases hc : s.state = .connected ∧ d = false
    · rw [if_pos hc, if_pos hc]
      exact (hiff h1 h2).mpr (hfalse hc.1 hc.2)
    · rw [if_neg hc, if_neg hc]

/-- Right after the connections are opened the server sends `20260408820022`, a multiple of `M1`, in one segment
    or cut after the seventh digit.  No window is a false hit, and the answers are the same. -/
theorem segmentation_iff_multiple :
    ∃ s0, contestantInit false = .ok s0 ∧ ∃ s subs, run false s0 connectEvents = .ok (s, subs) ∧
      s.state = .connected ∧
      SameAnswers false s [[50, 48, 50, 54, 48, 52, 48, 56, 56, 50, 48, 48, 50, 50]]
        [[50, 48, 50, 54, 48, 52, 48], [56, 56, 50, 48, 48, 50, 50]] := by
  obtain ⟨s0, hinit, hall⟩ := segmentation_iff false
  obtain ⟨s0', hinit', hfresh⟩ := contestantInit_spec false
  cases Except.ok.inj (hinit.symm.trans hinit')
  obtain ⟨s, subs, hconn, -, hst, -, hfed⟩ := connect_spec false hfresh
  have hlegal : ∀ ev ∈ connectEvents, Legal ev := by
    intro ev hev
    simp only [connectEvents, List.mem_cons, List.not_mem_nil, or_false] at hev
    rcases hev with rfl | rfl | rfl <;> trivial
  have hcut1 : IsCut [[50, 48, 50, 54, 48, 52, 48, 56, 56, 50, 48, 48, 50, 50]] := by decide +kernel
  have hcut2 : IsCut [[50, 48, 50, 54, 48, 52, 48], [56, 56, 50, 48, 48, 50, 50]] := by decide +kernel
  refine ⟨s0, hinit, s, subs, hconn, hst,
    (hall _ hlegal s subs hconn _ _ hcut1 hcut2 rfl).mpr ⟨by decide, fun _ _ => ?_⟩⟩
  have hoff : s.fed.length - N = s0.fed.length + 0 := by
    rw [hfed, List.length_append, show invalidBuffer.length = N from List.length_replicate, Nat.add_sub_cancel,
      Nat.add_zero]
  have hkeys : ∀ i < 14, ∀ l < N, ¬ FalseHit .m2 (invalidBuffer ++
      [[50, 48, 50, 54, 48, 52, 48, 56, 56, 50, 48, 48, 50, 50]].flatten) 0 (0 + (N + i)) (l + 1) := by
    decide +kernel
  rw [hoff, hfed, List.append_assoc, falseHits_append, falseHits_append,
    falseHits_cons_of_even (by decide +kernel) (by decide +kernel)
      (by exact hkeys),
    falseHits_cons_of_even (by decide +kernel) (by decide +kernel)
      (by exact fun i hi => hkeys i (Nat.lt_trans hi (by decide))),
    falseHits_cons_of_even (by decide +kernel) (by decide +kernel) (by decide +kernel)]
  exact List.Perm.refl _

/-- 401 ones in one segment trip the assertion of `recv_input`; cut after the 400th they do not,
    so the two runs differ. -/
theorem segmentation_401_digits :
    ∃ s0, contestantInit false = .ok s0 ∧ ∃ s subs, run false s0 connectEvents = .ok (s, subs) ∧
      s.state = .connected ∧ IsCut [List.replicate 401 49] ∧
      IsCut [List.replicate 400 49, List.replicate 1 49] ∧
      [List.replicate 401 (49 : UInt8)].flatten =
        [List.replicate 400 49, List.replicate 1 49].flatten ∧
      run false s (recvEvents [List.replicate 401 49]) = .error .assertion ∧
      (∃ r, run false s (recvEvents [List.replicate 400 49, List.replicate 1 49]) = .ok r) ∧
      ¬ SameAnswers false s [List.replicate 401 49]
        [List.replicate 400 49, List.replicate 1 49] := by
  obtain ⟨s0, hinit, hfresh⟩ := contestantInit_spec false
  obtain ⟨s, subs, hconn, hinv, hst, -, -⟩ := connect_spec false hfresh
  have hone : ∀ n, ∀ b ∈ List.replicate n (49 : UInt8), IsDigit b := by
    intro n b hb
    rw [List.eq_of_mem_replicate hb]
    decide
  have hcut : ∀ n, 1 ≤ n → n ≤ tcpWnd →
      (1 ≤ (List.replicate n (49 : UInt8)).length ∧
        (List.replicate n (49 : UInt8)).length ≤ tcpWnd) ∧
        ∀ b ∈ List.replicate n (49 : UInt8), IsDigit b := by
    intro n h1 h2
    rw [List.length_replicate]
    exact ⟨⟨h1, h2⟩, hone n⟩
  have hcut1 : IsCut [List.replicate 401 49] :=
    List.forall_mem_singleton.mpr (hcut 401 (by decide) (by decide))
  have hcut2 : IsCut [List.replicate 400 49, List.replicate 1 49] :=
    List.forall_mem_cons.mpr ⟨hcut 400 (by decide) (by decide),
      List.forall_mem_singleton.mpr (hcut 1 (by decide) (by decide))⟩
  have hlong : run false s (recvEvents [List.replicate 401 49]) = .error .assertion := by
    have hlen : (List.replicate 401 (49 : UInt8)).length = 401 := List.length_replicate
    show (step false s _ >>= fun r => _) = _
    rw [recv_long false s (hone 401) (by rw [hlen]; decide), hlen]
    rfl
  have hshort : ∀ p ∈ [List.replicate 400 (49 : UInt8), List.replicate 1 49], p.length ≤ 400 :=
    List.forall_mem_cons.mpr ⟨Nat.le_of_eq List.length_replicate,
      List.forall_mem_singleton.mpr (by rw [List.length_replicate]; decide)⟩
  obtain ⟨r, hrun, -⟩ := run_segments (d := false) hinv.toFed (hcut2.isBatch hshort)
  refine ⟨s0, hinit, s, subs, hconn, hst, hcut1, hcut2, ?_, hlong, ⟨r, hrun⟩, ?_⟩
  · rw [List.flatten_cons, List.flatten_cons, List.flatten_cons, List.flatten_nil, List.append_nil,
      List.append_nil, List.replicate_append_replicate]
  · rintro ⟨r1, r2, hrun1, -⟩
    rw [hlong] at hrun1
    nomatch hrun1

end JudgeDuck.Contestant
