/-
  Which digits an answer can contain.

  `Inv` holds of every state the contestant reaches with digit segments: the solver tracks the last
  `N` digits it was given, and the digits of the session are the last ones of those.  From it
  `feedSolver_spec` says what a batch submits: in state `S_CONNECTED`, and unless answers are not
  to be sent, exactly the windows that pass the solver's test.

  The window is not emptied between sessions.  `tcp_connected_fn` flushes it by feeding 256 nines,
  but in state `S_CONNECTED` already, and the nines stay in the window until 256 digits of the new
  session have come in.  So an answer may contain digits of an earlier session (submitted during
  the flush) or filler nines (submitted after it); `answers_in_session_iff` says which runs are free
  of that.
-/
import JudgeDuck.Contestant.Model
import JudgeDuck.Solver.Cuts

namespace JudgeDuck.Contestant

open JudgeDuck.Lib JudgeDuck.Solver

/-! ## The invariant -/

/-- The solver tracks the last `N` digits of `fed`. -/
structure Fed (s : State) : Prop where
  len : N ≤ s.fed.length
  digits : ∀ b ∈ s.fed, IsDigit b
  tracks : Tracks s.solver (arrayAt s.fed (s.fed.length - N))

/-- What holds of the contestant between two events. -/
structure Inv (s : State) : Prop extends Fed s where
  /-- The session's digits are the last ones the solver was given. -/
  suffix : s.session <:+ s.fed

/-- The stream of the solver when the batch `buf` is processed. -/
theorem Fed.tracks_append {s : State} (hs : Fed s) (buf : List UInt8) :
    Tracks s.solver (arrayAt (s.fed ++ buf) (s.fed.length - N)) := by
  refine hs.tracks.congr fun i hi => ?_
  have hlt : s.fed.length - N + i < s.fed.length := by
    have := hs.len
    omega
  rw [arrayAt, arrayAt, digitAt, digitAt, List.getD_append _ _ _ _ hlt]

theorem isDigit_append {fed buf : List UInt8} (hfed : ∀ b ∈ fed, IsDigit b)
    (hbuf : ∀ b ∈ buf, IsDigit b) : ∀ b ∈ fed ++ buf, IsDigit b := by
  intro b hb
  rcases List.mem_append.mp hb with h | h
  · exact hfed b h
  · exact hbuf b h

/-- What the calls of one batch submit. -/
def submissions (d : Bool) (s : State) (buf : List UInt8) : List Submission :=
  ((batchCalls (arrayAt (s.fed ++ buf) (s.fed.length - N)) buf.length).map
    (Call.shift (s.fed.length - N))).flatMap
      (contestantSend d { s with fed := s.fed ++ buf })

/-- **One batch**: it returns, and the solver tracks the longer stream. -/
theorem feedSolver_spec {s : State} {buf : List UInt8} (d : Bool) (hs : Fed s)
    (hbuf : IsBatch buf) :
    ∃ solver, feedSolver d s buf
        = .ok ({ s with solver := solver, fed := s.fed ++ buf }, submissions d s buf) ∧
      Fed { s with solver := solver, fed := s.fed ++ buf } := by
  have hD := isDigit_append hs.digits hbuf.2.2
  have hdrop : (s.fed ++ buf).drop (s.fed.length - N + N) = buf := by
    rw [Nat.sub_add_cancel hs.len, List.drop_left]
  have hnext : buf <+: (s.fed ++ buf).drop (s.fed.length - N + N) := ⟨[], by simp [hdrop]⟩
  obtain ⟨solver, hfeed, htracks⟩ := feed_stream hD (hs.tracks_append buf) hbuf hnext
  refine ⟨solver, ?_, ?_⟩
  · rw [feedSolver, hfeed]
    rfl
  · refine ⟨?_, hD, ?_⟩
    · have := hs.len
      show N ≤ (s.fed ++ buf).length
      rw [List.length_append]
      omega
    · show Tracks solver (arrayAt (s.fed ++ buf) ((s.fed ++ buf).length - N))
      rwa [List.length_append, Nat.sub_add_comm hs.len]

/-- The submissions of a batch, one by one. -/
theorem mem_submissions {s : State} {buf : List UInt8} {d : Bool} (hs : Fed s)
    (hbuf : IsBatch buf) {sub : Submission} :
    sub ∈ submissions d s buf ↔ s.state = .connected ∧ d = false ∧
      ∃ m i L, i < buf.length ∧ (1 ≤ L ∧ L ≤ N) ∧
        Passes m (s.fed ++ buf) (s.fed.length - N) (s.fed.length + i) L ∧
        sub = { call := callOf m (s.fed ++ buf) (s.fed.length + i) L
                wire := (callOf m (s.fed ++ buf) (s.fed.length + i) L).request
                session := s.session
                start := (s.fed ++ buf).length - s.session.length } := by
  have hD := isDigit_append hs.digits hbuf.2.2
  have hlen := hs.len
  have hlen' : s.fed.length - N + N + buf.length ≤ (s.fed ++ buf).length := by
    rw [List.length_append]
    omega
  rw [submissions, List.mem_flatMap]
  constructor
  · rintro ⟨c, hc, hsub⟩
    rcases (mem_batchCalls hD hlen').mp hc with ⟨m, q, L, hq, hL, hpass, rfl⟩
    obtain ⟨i, rfl⟩ := Nat.exists_eq_add_of_le (show s.fed.length ≤ q by omega)
    unfold contestantSend at hsub
    by_cases hconn : s.state = .connected
    · rw [if_neg (fun h => h hconn)] at hsub
      cases d with
      | true => exact absurd hsub List.not_mem_nil
      | false => exact ⟨hconn, rfl, m, i, L, by omega, hL, hpass, List.mem_singleton.mp hsub⟩
    · rw [if_pos hconn] at hsub
      exact absurd hsub List.not_mem_nil
  · rintro ⟨hconn, rfl, m, i, L, hi, hL, hpass, rfl⟩
    refine ⟨callOf m (s.fed ++ buf) (s.fed.length + i) L,
      (mem_batchCalls hD hlen').mpr ⟨m, s.fed.length + i, L, by omega, hL, hpass, rfl⟩, ?_⟩
    rw [contestantSend, if_neg (fun h => h hconn)]
    exact List.mem_singleton.mpr rfl

/-! ## Answers and sessions -/

/-- The answer is made of digits of its own session: its window begins after the session did, so
    it is a contiguous part of the session's digits. -/
def Submission.InSession (sub : Submission) : Prop :=
  sub.start + sub.call.str.length ≤ sub.call.q + 1 ∧ sub.call.str <:+: sub.session

theorem window_infix {D ses : List UInt8} {q L : Nat} (hses : ses <:+ D)
    (hstart : D.length - ses.length + L ≤ q + 1) : window D q L <:+: ses := by
  have hdrop : ses = D.drop (D.length - ses.length) := List.suffix_iff_eq_drop.mp hses
  have hsplit : q + 1 - L = D.length - ses.length + (q + 1 - L - (D.length - ses.length)) := by
    omega
  rw [window, hsplit, ← List.drop_drop, ← hdrop]
  exact (List.take_prefix _ _).isInfix.trans (List.drop_suffix _ _).isInfix

/-- A batch that submits only in-session answers is one without a hit that reaches back past the
    session's first digit. -/
theorem submissions_inSession_iff {s : State} {buf : List UInt8} {d : Bool} (hs : Fed s)
    (hbuf : IsBatch buf) (hses : s.session <:+ s.fed ++ buf) :
    (∀ sub ∈ submissions d s buf, sub.InSession) ↔
      (s.state = .connected → d = false → ∀ m i L, i < buf.length → 1 ≤ L → L ≤ N →
        s.fed.length + i + 1 < (s.fed ++ buf).length - s.session.length + L →
        ¬ Hit m (s.fed ++ buf) (s.fed.length - N) (s.fed.length + i) L) := by
  have hlen := hs.len
  have hhit : ∀ m i L, i < buf.length → L ≤ N →
      (Passes m (s.fed ++ buf) (s.fed.length - N) (s.fed.length + i) L ↔
        Hit m (s.fed ++ buf) (s.fed.length - N) (s.fed.length + i) L) := by
    intro m i L hi hL
    have h400 : buf.length ≤ 400 := hbuf.2.1
    have hN : N = 256 := rfl
    apply passes_iff_hit (by omega) (by omega)
    rw [List.length_append]
    omega
  have hwin : ∀ i L, i < buf.length → L ≤ N →
      (window (s.fed ++ buf) (s.fed.length + i) L).length = L := by
    intro i L hi hL
    apply length_window (by omega)
    rw [List.length_append]
    omega
  constructor
  · intro hall hconn hd m i L hi h1 hN hlate hpass
    have hin := hall _ ((mem_submissions hs hbuf).mpr
      ⟨hconn, hd, m, i, L, hi, ⟨h1, hN⟩, (hhit m i L hi hN).mpr hpass, rfl⟩)
    have hpos : (s.fed ++ buf).length - s.session.length +
        (window (s.fed ++ buf) (s.fed.length + i) L).length ≤ s.fed.length + i + 1 := hin.1
    rw [hwin i L hi hN] at hpos
    omega
  · intro hno sub hsub
    rcases (mem_submissions hs hbuf).mp hsub with ⟨hconn, hd, m, i, L, hi, hL, hpass, rfl⟩
    have hpos : (s.fed ++ buf).length - s.session.length + L ≤ s.fed.length + i + 1 := by
      by_contra hlate
      exact hno hconn hd m i L hi hL.1 hL.2 (by omega) ((hhit m i L hi hL.2).mp hpass)
    refine ⟨?_, window_infix hses hpos⟩
    show _ + (window (s.fed ++ buf) (s.fed.length + i) L).length ≤ _
    rw [hwin i L hi hL.2]
    exact hpos

/-- The segments received are digit segments of 1 to 400 digits. -/
def Legal : Event → Prop
  | .recv10001 (some p) => IsBatch p
  | _ => True

/-- The condition under which an event submits only in-session answers, on the digits read before it.
    While the window is flushed no window at all may be a hit, that is a multiple of one of the moduli or
    one of the numbers that the solver takes for one; while the session runs, none that is longer than
    the part of the session read so far. -/
def StepOk (d : Bool) (s : State) : Event → Prop
  | .connected _ => s.state = .connecting10001 → d = false → ∀ m i L, i < 256 → 1 ≤ L → L ≤ N →
      ¬ Hit m (s.fed ++ invalidBuffer) (s.fed.length - N) (s.fed.length + i) L
  | .recv10001 (some p) => s.state = .connected → d = false → ∀ m i L, i < p.length → L ≤ N →
      s.session.length + i + 1 < L →
      ¬ Hit m (s.fed ++ p) (s.fed.length - N) (s.fed.length + i) L
  | _ => True

theorem isBatch_invalidBuffer : IsBatch invalidBuffer := by
  have hlen : invalidBuffer.length = 256 := List.length_replicate
  refine ⟨by rw [hlen]; decide, by rw [hlen]; decide, fun b hb => ?_⟩
  rw [List.eq_of_mem_replicate hb]
  decide

theorem isDigitChar_of_isDigit {b : UInt8} (h : IsDigit b) : isDigitChar b = true := by
  have hval := h.charVal_sub
  have hlt := h.val_lt
  rw [isDigitChar, decide_eq_true_iff]
  omega

theorem Inv.of_eq {s s' : State} (hs : Inv s) (hsolver : s'.solver = s.solver)
    (hfed : s'.fed = s.fed) (hses : s'.session = s.session) : Inv s' where
  len := hfed ▸ hs.len
  digits := hfed ▸ hs.digits
  tracks := by rw [hsolver, hfed]; exact hs.tracks
  suffix := by rw [hses, hfed]; exact hs.suffix

theorem inSession_nil : (∀ sub ∈ ([] : List Submission), sub.InSession) ↔ True :=
  ⟨fun _ => trivial, fun _ _ hsub => absurd hsub List.not_mem_nil⟩

/-- A tick neither feeds nor submits. -/
theorem contestantTick_inv {s s' : State} {hasIp pcb : Bool} (hs : Inv s)
    (h : contestantTick s hasIp pcb = .ok s') : Inv s' := by
  unfold contestantTick at h
  split at h
  · split at h
    · unfold startConnecting at h
      split at h
      · cases h
        exact hs.of_eq rfl rfl rfl
      · nomatch h
    · cases h
      exact hs
  · split at h
    · cases h
      refine hs.of_eq ?_ ?_ ?_ <;>
        (simp only [abort10002, abort10001, tcpErrFn10001, tcpErrFn10002]; split <;> split <;> rfl)
    · cases h
      exact hs

/-- The flush: a new session begins, and every answer it submits is out of session. -/
theorem connected_spec {d pcb : Bool} {s s' : State} {subs : List Submission} (hs : Inv s)
    (h : tcpConnectedFn d s pcb = .ok (s', subs)) :
    Inv s' ∧ ((∀ sub ∈ subs, sub.InSession) ↔ StepOk d s (.connected pcb)) := by
  unfold tcpConnectedFn at h
  by_cases h2 : s.state = .connecting10002
  · rw [if_pos h2] at h
    obtain ⟨s1, h1, h'⟩ := bind_ok h
    unfold startConnecting10001 at h1
    split at h1
    · cases h1
      cases h'
      refine ⟨hs.of_eq rfl rfl rfl, inSession_nil.trans ⟨fun _ hst => ?_, fun _ => trivial⟩⟩
      rw [h2] at hst
      nomatch hst
    · nomatch h1
  · rw [if_neg h2] at h
    by_cases h1 : s.state = .connecting10001
    · rw [if_pos h1] at h
      have hs1 : Fed { s with state := .connected, session := [] } :=
        ⟨hs.len, hs.digits, hs.tracks⟩
      obtain ⟨solver, hfeed, hfed⟩ := feedSolver_spec d hs1 isBatch_invalidBuffer
      rw [hfeed] at h
      cases h
      refine ⟨⟨hfed, List.nil_suffix⟩, ?_⟩
      rw [submissions_inSession_iff hs1 isBatch_invalidBuffer List.nil_suffix]
      -- every window that ends in the flush begins before the session
      have hlen : invalidBuffer.length = 256 := List.length_replicate
      constructor
      · intro hno _ hd m i L hi h1' hN
        apply hno rfl hd m i L (by omega) h1' hN
        show s.fed.length + i + 1 < (s.fed ++ invalidBuffer).length - 0 + L
        rw [List.length_append]
        omega
      · intro hno _ hd m i L hi h1' hN _
        exact hno h1 hd m i L (by omega) h1' hN
    · rw [if_neg h1] at h
      nomatch h

/-- `tcp_recv_fn_10001` on a segment of 1 to 400 digits: it returns, and the solver has been fed. -/
theorem recv10001_eq {s : State} {p : List UInt8} (d : Bool) (hs : Fed s) (hp : IsBatch p) :
    ∃ solver, tcpRecvFn10001 d s (some p)
        = .ok ({ s with session := s.session ++ p, solver := solver, fed := s.fed ++ p
                        lastRecvLen := p.length },
            submissions d { s with session := s.session ++ p } p) ∧
      Fed { s with session := s.session ++ p, solver := solver, fed := s.fed ++ p
                   lastRecvLen := p.length } := by
  have hmtu : ¬ mtu < p.length := by
    have h400 : p.length ≤ 400 := hp.2.1
    have : mtu = 1500 := rfl
    omega
  have hall : p.all isDigitChar = true :=
    List.all_eq_true.mpr fun b hb => isDigitChar_of_isDigit (hp.2.2 b hb)
  have hs1 : Fed { s with session := s.session ++ p } := ⟨hs.len, hs.digits, hs.tracks⟩
  obtain ⟨solver, hfeed, hfed⟩ := feedSolver_spec d hs1 hp
  refine ⟨solver, ?_, hfed.len, hfed.digits, hfed.tracks⟩
  rw [tcpRecvFn10001, if_neg hmtu]
  simp only [hall, if_true]
  rw [bind_of_ok hfeed]

/-- A segment of the session. -/
theorem recv10001_spec {d : Bool} {s s' : State} {p : Option (List UInt8)} {subs : List Submission}
    (hs : Inv s) (hp : Legal (.recv10001 p)) (h : tcpRecvFn10001 d s p = .ok (s', subs)) :
    Inv s' ∧ ((∀ sub ∈ subs, sub.InSession) ↔ StepOk d s (.recv10001 p)) := by
  cases p with
  | none =>
    cases h
    exact ⟨hs.of_eq rfl rfl rfl, inSession_nil⟩
  | some p =>
    have hp' : IsBatch p := hp
    obtain ⟨solver, hrecv, hfed⟩ := recv10001_eq d hs.toFed hp'
    rw [hrecv] at h
    cases h
    have hs1 : Fed { s with session := s.session ++ p } := ⟨hs.len, hs.digits, hs.tracks⟩
    have hses : s.session ++ p <:+ s.fed ++ p := List.suffix_append_self_iff.mpr hs.suffix
    refine ⟨⟨hfed, hses⟩, ?_⟩
    rw [submissions_inSession_iff hs1 hp' hses]
    have hle := hs.suffix.length_le
    have hstart : ∀ i L, s.fed.length + i + 1 < (s.fed ++ p).length - (s.session ++ p).length + L ↔
        s.session.length + i + 1 < L := by
      intro i L
      rw [List.length_append, List.length_append]
      omega
    constructor
    · intro hno hconn hd m i L hi hN hlate
      exact hno hconn hd m i L hi (by omega) hN ((hstart i L).mpr hlate)
    · intro hno hconn hd m i L hi _ hN hlate
      exact hno hconn hd m i L hi hN ((hstart i L).mp hlate)

/-- **One event** keeps the invariant, and what it submits is in-session iff `StepOk`. -/
theorem step_spec {d : Bool} {s s' : State} {ev : Event} {subs : List Submission} (hs : Inv s)
    (hev : Legal ev) (hstep : step d s ev = .ok (s', subs)) :
    Inv s' ∧ ((∀ sub ∈ subs, sub.InSession) ↔ StepOk d s ev) := by
  cases ev with
  | tick hasIp pcb =>
    obtain ⟨s1, h1, h2⟩ := bind_ok hstep
    cases h2
    exact ⟨contestantTick_inv hs h1, inSession_nil⟩
  | connected pcb => exact connected_spec hs hstep
  | recv10001 p => exact recv10001_spec hs hev hstep
  | recv10002 p =>
    cases hstep
    refine ⟨?_, inSession_nil⟩
    cases p with
    | none => exact hs.of_eq rfl rfl rfl
    | some p => exact hs
  | err10001 =>
    cases hstep
    exact ⟨hs.of_eq rfl rfl rfl, inSession_nil⟩
  | err10002 =>
    cases hstep
    exact ⟨hs.of_eq rfl rfl rfl, inSession_nil⟩

/-! ## Whole runs -/

/-- Before the first connection: the solver is set up and nothing has been delivered. -/
structure Fresh (s : State) : Prop extends Fed s where
  state : s.state = .notConnected
  session : s.session = []

theorem Fresh.inv {s : State} (hs : Fresh s) : Inv s :=
  ⟨hs.toFed, by rw [hs.session]; exact List.nil_suffix⟩

/-- The benchmark feeds nines to the solver. -/
theorem recv1e7_spec {s : State} (d : Bool) (hs : Fresh s) :
    ∃ s', recv1e7 d s = .ok s' ∧ Fresh s' := by
  unfold recv1e7
  refine forUpM_inv (fun _ t => Fresh t) hs fun i _ t ht => ?_
  obtain ⟨solver, hfeed, hfed⟩ := feedSolver_spec d ht.toFed isBatch_invalidBuffer
  refine ⟨{ t with solver := solver, fed := t.fed ++ invalidBuffer }, ?_, hfed, ht.state,
    ht.session⟩
  rw [hfeed]
  rfl

/-- `contestant_init` succeeds. -/
theorem contestantInit_spec (d : Bool) : ∃ s, contestantInit d = .ok s ∧ Fresh s := by
  have hdigits : ∀ b ∈ List.replicate N (57 : UInt8), IsDigit b := by
    intro b hb
    rw [List.eq_of_mem_replicate hb]
    decide
  have hlen : (List.replicate N (57 : UInt8)).length = N := List.length_replicate
  have hlt : ∀ i, arrayAt (List.replicate N 57) 0 i < 10 := fun i => digitAt_lt hdigits _
  have hinit : Tracks init (arrayAt (List.replicate N 57) 0) := by
    refine init_tracks hlt fun i hi => ?_
    rw [arrayAt, Nat.zero_add, digitAt, List.getD_eq_getElem _ _ (by rw [hlen]; exact hi),
      List.getElem_replicate]
    rfl
  have hprep : Tracks (prepare init) (arrayAt (List.replicate N 57) 0) :=
    prepare_tracks hlt hinit.digits (fun m => (hinit.ready m).rows) (fun m => (hinit.ready m).adds)
  have hfed : solverReady.fed.length = N := hlen
  have hfresh : Fresh solverReady := by
    refine ⟨⟨Nat.le_of_eq hfed.symm, hdigits, ?_⟩, rfl, rfl⟩
    rw [hfed, Nat.sub_self]
    exact hprep
  obtain ⟨s1, h1, hs1⟩ := recv1e7_spec d hfresh
  obtain ⟨s2, h2, hs2⟩ := recv1e7_spec d hs1
  refine ⟨s2, ?_, hs2⟩
  rw [contestantInit, bind_of_ok h1]
  exact h2

/-- Every event of the run meets `StepOk` in the state it finds. -/
def StepsOk (d : Bool) (s : State) : List Event → Prop
  | [] => True
  | ev :: evs => StepOk d s ev ∧ ∀ s' subs, step d s ev = .ok (s', subs) → StepsOk d s' evs

/-- A run keeps the invariant, and what it submits is in-session iff every step meets `StepOk`. -/
theorem run_spec {d : Bool} : ∀ {evs : List Event} {s s' : State} {subs : List Submission},
    Inv s → (∀ ev ∈ evs, Legal ev) → run d s evs = .ok (s', subs) →
    Inv s' ∧ ((∀ sub ∈ subs, sub.InSession) ↔ StepsOk d s evs) := by
  intro evs
  induction evs with
  | nil =>
    intro s s' subs hs _ hrun
    cases hrun
    exact ⟨hs, inSession_nil⟩
  | cons ev evs ih =>
    intro s s' subs hs hlegal hrun
    obtain ⟨⟨s1, subs1⟩, hstep, hrun1⟩ := bind_ok hrun
    obtain ⟨⟨s2, subs2⟩, hrest, hrun2⟩ := bind_ok hrun1
    cases hrun2
    obtain ⟨hs1, hiff1⟩ := step_spec hs (hlegal ev List.mem_cons_self) hstep
    obtain ⟨hs2, hiff2⟩ := ih hs1 (fun e he => hlegal e (List.mem_cons_of_mem ev he)) hrest
    refine ⟨hs2, ?_⟩
    rw [List.forall_mem_append, hiff1, hiff2]
    constructor
    · rintro ⟨h1, h2⟩
      refine ⟨h1, fun t more ht => ?_⟩
      rw [hstep] at ht
      cases ht
      exact h2
    · rintro ⟨h1, h2⟩
      exact ⟨h1, h2 s1 subs1 hstep⟩

/-! ## The first segment of a session -/

theorem run_cons {d : Bool} {s s1 s2 : State} {ev : Event} {evs : List Event}
    {subs1 subs2 : List Submission} (h1 : step d s ev = .ok (s1, subs1))
    (h2 : run d s1 evs = .ok (s2, subs2)) : run d s (ev :: evs) = .ok (s2, subs1 ++ subs2) := by
  rw [run, bind_of_ok h1]
  show (run d s1 evs >>= fun r => Except.ok (r.1, subs1 ++ r.2)) = _
  rw [bind_of_ok h2]

theorem run_append {d : Bool} {evs2 : List Event} {s1 s2 : State} {subs2 : List Submission}
    (h2 : run d s1 evs2 = .ok (s2, subs2)) :
    ∀ {evs1 : List Event} {s : State} {subs1 : List Submission}, run d s evs1 = .ok (s1, subs1) →
      run d s (evs1 ++ evs2) = .ok (s2, subs1 ++ subs2) := by
  intro evs1
  induction evs1 with
  | nil =>
    intro s subs1 h1
    cases h1
    exact h2
  | cons ev evs1 ih =>
    intro s subs1 h1
    obtain ⟨⟨t, subs⟩, hstep, h⟩ := bind_ok h1
    obtain ⟨⟨t', more⟩, hrest, h'⟩ := bind_ok h
    cases h'
    rw [List.append_assoc]
    exact run_cons hstep (ih hrest)

/-- The events that open both connections. -/
def connectEvents : List Event := [.tick true true, .connected true, .connected true]

/-- After `contestant_init` the two connections can be opened; the window is then all nines. -/
theorem connect_spec {s : State} (d : Bool) (hs : Fresh s) :
    ∃ s' subs, run d s connectEvents = .ok (s', subs) ∧ Inv s' ∧ s'.state = .connected ∧
      s'.session = [] ∧ s'.fed = s.fed ++ invalidBuffer := by
  have hs1 : Fed { s with
      state := .connected, conn10002 := true, conn10001 := true, session := [] } :=
    ⟨hs.len, hs.digits, hs.tracks⟩
  obtain ⟨solver, hfeed, hfed⟩ := feedSolver_spec d hs1 isBatch_invalidBuffer
  have htick : step d s (.tick true true) =
      .ok ({ s with state := .connecting10002, conn10002 := true }, []) := by
    show (contestantTick s true true >>= fun s => Except.ok (s, [])) = _
    rw [contestantTick, if_pos hs.state]
    rfl
  have hflush : step d { s with state := .connecting10001, conn10002 := true, conn10001 := true }
      (.connected true) = _ := hfeed
  have hrun := run_cons hflush (show run d _ [] = .ok (_, []) from rfl)
  exact ⟨_, _, run_cons htick (run_cons rfl hrun), ⟨hfed, List.nil_suffix⟩, rfl, rfl, rfl⟩

/-- **The first segment of the first session**: a window that passes in it is submitted.  The digits before
    the segment are the filler. -/
theorem submitted_after_connect {p : List UInt8} {m : MNumber} {i L : Nat} (hp : IsBatch p)
    (hi : i < p.length) (hL : 1 ≤ L ∧ L ≤ N) (hpass : Passes m (invalidBuffer ++ p) 0 (256 + i) L) :
    ∃ s0, contestantInit false = .ok s0 ∧ ∃ s subs,
      run false s0 (connectEvents ++ [.recv10001 (some p)]) = .ok (s, subs) ∧ ∃ sub ∈ subs,
        sub.call.str = window (invalidBuffer ++ p) (256 + i) L ∧ sub.session = p ∧
        sub.call.q = sub.start + i := by
  obtain ⟨s0, hinit, hfresh⟩ := contestantInit_spec false
  obtain ⟨s1, subs1, hconn, hinv, hst, hses, hfed⟩ := connect_spec false hfresh
  obtain ⟨solver, hrecv, -⟩ := recv10001_eq false hinv.toFed hp
  have hs1 : Fed { s1 with session := s1.session ++ p } := ⟨hinv.len, hinv.digits, hinv.tracks⟩
  have hstep : step false s1 (.recv10001 (some p)) = _ := hrecv
  have hrun := run_append (run_cons hstep (show run _ _ [] = .ok (_, []) from rfl)) hconn
  have hfiller : invalidBuffer.length = 256 := List.length_replicate
  have hN : N = 256 := rfl
  have hlen : s1.fed.length = s0.fed.length + 256 := by rw [hfed, List.length_append, hfiller]
  have hoff : s1.fed.length - N = s0.fed.length + 0 := by omega
  have hq : s1.fed.length + i = s0.fed.length + (256 + i) := by omega
  have hpass' : Passes m (s1.fed ++ p) (s1.fed.length - N) (s1.fed.length + i) L := by
    rw [hoff, hq, hfed, List.append_assoc, passes_append (by omega)]
    exact hpass
  have hmem := (mem_submissions hs1 hp).mpr ⟨hst, rfl, m, i, L, hi, hL, hpass', rfl⟩
  refine ⟨s0, hinit, _, _, hrun, _, List.mem_append_right _ (List.mem_append_left _ hmem), ?_, ?_, ?_⟩
  · show window (s1.fed ++ p) (s1.fed.length + i) L = _
    rw [hq, hfed, List.append_assoc, window_append (by omega)]
  · show s1.session ++ p = p
    rw [hses, List.nil_append]
  · show s1.fed.length + i = (s1.fed ++ p).length - (s1.session ++ p).length + i
    rw [hses, List.nil_append, List.length_append, Nat.add_sub_cancel]

/-! ## Which runs submit only digits of their session -/

/-- **The runs that submit only digits of the current session** are those in which every event
    meets `StepOk`: no hit ends in the filler fed at a transition to `S_CONNECTED`, and none reaches back
    past the first digit of the session. -/
theorem answers_in_session_iff (d : Bool) :
    ∃ s0, contestantInit d = .ok s0 ∧ ∀ evs : List Event, (∀ ev ∈ evs, Legal ev) →
      ∀ s subs, run d s0 evs = .ok (s, subs) →
        ((∀ sub ∈ subs, sub.InSession) ↔ StepsOk d s0 evs) := by
  obtain ⟨s0, hinit, hfresh⟩ := contestantInit_spec d
  exact ⟨s0, hinit, fun evs hlegal s subs hrun => (run_spec hfresh.inv hlegal hrun).2⟩

/-- The server sends `20260408820022`, a multiple of `M1`, in its first segment.  It is submitted, and it is
    an answer of the session. -/
theorem answers_in_session_iff_multiple :
    ∃ s0, contestantInit false = .ok s0 ∧ ∃ s subs,
      run false s0 (connectEvents ++
        [.recv10001 (some [50, 48, 50, 54, 48, 52, 48, 56, 56, 50, 48, 48, 50, 50])]) = .ok (s, subs) ∧
      (∃ sub ∈ subs, sub.call.str = [50, 48, 50, 54, 48, 52, 48, 56, 56, 50, 48, 48, 50, 50] ∧
        sub.InSession) ∧
      ((∀ sub ∈ subs, sub.InSession) ↔ StepsOk false s0 (connectEvents ++
        [.recv10001 (some [50, 48, 50, 54, 48, 52, 48, 56, 56, 50, 48, 48, 50, 50])])) := by
  have hp : IsBatch [50, 48, 50, 54, 48, 52, 48, 56, 56, 50, 48, 48, 50, 50] := by decide
  obtain ⟨s0, hinit, s, subs, hrun, sub, hsub, hstr, hses, hq⟩ :=
    submitted_after_connect (m := .m1) (i := 13) (L := 14) hp (by decide) (by decide) (by decide +kernel)
  obtain ⟨s0', hinit', hall⟩ := answers_in_session_iff false
  cases Except.ok.inj (hinit.symm.trans hinit')
  have htext : sub.call.str = [50, 48, 50, 54, 48, 52, 48, 56, 56, 50, 48, 48, 50, 50] := by
    rw [hstr]
    decide +kernel
  refine ⟨s0, hinit, s, subs, hrun, ⟨sub, hsub, htext, ?_, ?_⟩, hall _ ?_ s subs hrun⟩
  · rw [htext, hq]
    exact Nat.le_refl _
  · simp only [htext, hses]
    exact List.infix_refl _
  · intro ev hev
    simp only [connectEvents, List.mem_append, List.mem_cons, List.not_mem_nil, or_false] at hev
    rcases hev with (rfl | rfl | rfl) | rfl
    · trivial
    · trivial
    · trivial
    · exact hp

/-- Right after the connections are opened the server sends `467137485`.  Preceded by 59 filler
    nines this is a multiple of `3^18`, and it is submitted with them. -/
theorem filler_submitted :
    ∃ s0, contestantInit false = .ok s0 ∧ ∃ s subs,
      run false s0 (connectEvents ++ [.recv10001 (some [52, 54, 55, 49, 51, 55, 52, 56, 53])])
        = .ok (s, subs) ∧ ∃ sub ∈ subs, ¬ sub.InSession := by
  obtain ⟨s0, hinit, s, subs, hrun, sub, hsub, hstr, hses, -⟩ :=
    submitted_after_connect (p := [52, 54, 55, 49, 51, 55, 52, 56, 53]) (m := .m4) (i := 8) (L := 68)
      (by decide) (by decide) (by decide) (by decide +kernel)
  refine ⟨s0, hinit, s, subs, hrun, sub, hsub, ?_⟩
  -- the answer has 68 digits, the session has nine
  rintro ⟨-, hinfix⟩
  have hle := hinfix.length_le
  rw [hstr, hses, length_window (by decide) (by decide +kernel)] at hle
  exact absurd hle (by decide)

end JudgeDuck.Contestant
