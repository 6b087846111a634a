/-
  Runs of the server: one datagram after the other, with the replies (`serve`).

  A datagram means a request or nothing, whatever the state is, and a request is at most one call of the
  judger: so a run of the server is a session of the judger (`serve_session`), and what holds after every
  session holds here.  From that follow
    * which datagrams can stop the server (`exists_serve`): only `reboot` and cache requests;
    * what a missing reply says (`serve_answered`): nothing was changed;
    * that a client may send a request again until it gets a reply, while others ask for this and that
      (`serve_again`).  For `judge` that is what `seq_num` is for, for the rest the operations can be repeated.
-/
import JudgeDuck.DuckServer.Requests
import JudgeDuck.Judger.Replay

namespace JudgeDuck.DuckServer

open JudgeDuck.Lib JudgeDuck.Memory
open JudgeDuck.Judger (State Op Out Call Placed Fit exec Runs)
open JudgeDuck.Elf (leBytes)

/-! ## Datagrams -/

/-- What is sent for what a function `process_…` returned. -/
def Processed.sent : Processed → Option (List UInt8)
  | .reply res => some res
  | _ => none

/-- One datagram after the other; the replies to them. -/
def serve (c : Setup) : State → List (Readings × List UInt8) →
    Except Fault (State × List (Option (List UInt8)))
  | s, [] => .ok (s, [])
  | s, (e, content) :: ds => do
    let (s, res) ← duckPacketHandle c e content s
    let (s, rs) ← serve c s ds
    .ok (s, res :: rs)

/-- Some `Setup`. -/
def someSetup : Setup where
  platform := Judger.somePlatform
  extFreq := 0
  microcodeOrigRev := 0
  clockMHz := fun _ _ _ => text "0.00000"
  clockMHz_length := fun _ _ _ => by decide

/-- Some `Readings`. -/
def someReadings : Readings := ⟨0, 1, 0, 0, 0, Judger.idle⟩

section Runs

variable {c : Setup} {e : Readings} {s s1 s2 : State} {content : List UInt8}
variable {d : Readings × List UInt8} {ds : List (Readings × List UInt8)}
variable {res : Option (List UInt8)} {rs : List (Option (List UInt8))}

theorem duckPacketHandle_eq (h : content ≠ text "reboot") :
    duckPacketHandle c e content s = (process c e content s).map fun r => (r.1, r.2.sent) := by
  rw [duckPacketHandle, equalsTo, beq_eq_false_iff_ne.mpr h]
  cases process c e content s with
  | error fault => rfl
  | ok r =>
    obtain ⟨s1, x⟩ := r
    cases x <;> rfl

/-- `reboot` does not return. -/
theorem ne_reboot_of_ok (h : duckPacketHandle c e content s = .ok (s1, res)) : content ≠ text "reboot" := by
  rintro rfl
  cases h

theorem serve_cons_ok : serve c s (d :: ds) = .ok (s2, rs) ↔ ∃ s1 res rs',
    duckPacketHandle c d.1 d.2 s = .ok (s1, res) ∧ serve c s1 ds = .ok (s2, rs') ∧ rs = res :: rs' := by
  constructor
  · intro h
    obtain ⟨⟨s1, res⟩, hfirst, h⟩ := bind_ok h
    obtain ⟨⟨s2', rs'⟩, hrest, h⟩ := bind_ok h
    cases h
    exact ⟨s1, res, rs', hfirst, hrest, rfl⟩
  · rintro ⟨s1, res, rs', hfirst, hrest, rfl⟩
    rw [serve, bind_of_ok hfirst]
    show serve c s1 ds >>= _ = _
    rw [bind_of_ok hrest]

end Runs

/-! ## Requests as calls -/

/-- The operation of the judger that a request asks for. -/
def Request.op (e : Readings) : Request → Option Op
  | .clear off len => some (.clear off.toNat len.toNat)
  | .read off len => if len.toNat > maxQueryLen then none else some (.read off.toNat len.toNat)
  | .write off data => some (.write off.toNat data)
  | .copy dstOff srcOff len => some (.copy dstOff.toNat srcOff.toNat len.toNat)
  | .compare off1 off2 len => some (.compare off1.toNat off2.toNat len.toNat)
  | .loadCache name off len hex =>
    some (.loadCache (chars name.1) off.toNat len.toNat (chars hex.1) e.tsc)
  | .storeCache name off len hex =>
    some (.storeCache (chars name.1) off.toNat len.toNat (chars hex.1) e.tsc)
  | _ => none

/-- What is answered when the operation has returned. -/
def Request.answer : Request → Out → Processed
  | .clear off len, .done ret =>
    replyIf ret (text "ok-clear-buffer " ++ lu off.toNat ++ text " " ++ lu len.toNat)
  | .read off _, .data (some qRes) => .reply (text "ok-read-buffer" ++ leBytes 8 off.toNat ++ qRes)
  | .write off data, .done ret =>
    replyIf ret (text "ok-write-buffer " ++ lu off.toNat ++ text " " ++ lu data.length)
  | .copy dstOff srcOff len, .done ret =>
    replyIf ret (text "ok-copy-buffer " ++ lu dstOff.toNat ++ text " " ++ lu srcOff.toNat ++ text " " ++
      lu len.toNat)
  | .compare off1 off2 len, .same (some compResult) =>
    .reply (text "ok-compare-buffer " ++ lu off1.toNat ++ text " " ++ lu off2.toNat ++ text " " ++
      lu len.toNat ++ text " " ++ lu compResult.toNat)
  | .loadCache name off len _, .done ret =>
    .reply (cacheReply (if ret then "ok-load-cache" else "fail-load-cache") name.1 off.toNat len.toNat)
  | .storeCache name off len _, .done ret =>
    .reply (cacheReply (if ret then "ok-store-cache" else "fail-store-cache") name.1 off.toNat len.toNat)
  | _, _ => .silent

/-- The numbers of a judge request, as the judger gets them. -/
def judged (n : Fin 16 → UInt64) : Judger.JudgeRequest :=
  scannedRequest fun i => (judgeNumbers n).getD i 0

/-- The call of the judger that a request asks for. -/
def Request.call (e : Readings) : Request → Option Call
  | .judge n => some (.judge (judged n) e.user)
  | r => (r.op e).map .op

section Calls

variable {c : Setup} {e : Readings} {s s1 : State} {r : Request} {op : Op} {out : Out} {x : Processed}

/-- **A request with an operation** is that operation and an answer to what it returns. -/
theorem perform_of_op (h : r.op e = some op) :
    r.perform c e s = (exec c.platform s op).map fun y => (y.1, r.answer y.2) := by
  cases r with
  | clear off len =>
    cases h
    rw [Request.perform, clearRequest, exec]
    cases Judger.clearBuffer off.toNat len.toNat s <;> rfl
  | read off len =>
    rw [Request.op] at h
    split at h
    · cases h
    · rename_i hlen
      cases h
      rw [Request.perform, readRequest, if_neg hlen, exec]
      cases Judger.readBuffer off.toNat len.toNat s with
      | error fault => rfl
      | ok qRes => cases qRes <;> rfl
  | write off data =>
    cases h
    have hlen : (leBytes 8 off.toNat).length = 8 := by rw [leBytes, List.length_map, List.length_range]
    have hoff : Elf.le (leBytes 8 off.toNat ++ data) 0 8 = off.toNat := by
      rw [Elf.le_leBytes]
      exact Nat.mod_eq_of_lt off.toNat_lt
    have hdata : (leBytes 8 off.toNat ++ data).drop 8 = data := List.drop_left' hlen
    have hsize : (leBytes 8 off.toNat ++ data).length = 8 + data.length := by rw [List.length_append, hlen]
    rw [Request.perform, writeRequest, hoff, hdata, hsize, if_neg (by omega), Nat.add_sub_cancel_left, exec]
    simp only
    cases Judger.writeBuffer off.toNat data s <;> rfl
  | copy dstOff srcOff len =>
    cases h
    rw [Request.perform, copyRequest, exec]
    cases Judger.copyBuffer dstOff.toNat srcOff.toNat len.toNat s <;> rfl
  | compare off1 off2 len =>
    cases h
    rw [Request.perform, compareRequest, exec]
    cases Judger.compareBuffer off1.toNat off2.toNat len.toNat s with
    | error fault => rfl
    | ok compResult => cases compResult <;> rfl
  | loadCache name off len hex =>
    cases h
    rw [Request.perform, loadRequest, exec]
    cases Judger.loadCache (chars name.1) off.toNat len.toNat (chars hex.1) e.tsc s <;> rfl
  | storeCache name off len hex =>
    cases h
    rw [Request.perform, storeRequest, exec]
    cases Judger.storeCache c.platform.sorter (chars name.1) off.toNat len.toNat (chars hex.1) e.tsc s <;> rfl
  | _ => cases h

/-- **Every other request** is a judge request, or it only reports. -/
theorem perform_of_no_op (c : Setup) (s : State) (h : r.op e = none) :
    (∃ n, r = .judge n) ∨ r.call e = none ∧ ∃ x, r.perform c e s = .ok (s, x) := by
  cases r with
  | judge n => exact .inl ⟨n, rfl⟩
  | read off len =>
    refine .inr ⟨congrArg (Option.map Call.op) h, ?_⟩
    rw [Request.op] at h
    split at h
    · rename_i hlen
      exact ⟨.silent, if_pos hlen⟩
    · cases h
  | uptime | statistics | cpuTemp | sysinfo | queryBufferSize | infoCache name | queryAll => exact .inr ⟨rfl, _, rfl⟩
  | _ => cases h

theorem call_of_op (h : r.op e = some op) : r.call e = some (.op op) := by
  cases r with
  | judge n => cases h
  | _ => exact congrArg (Option.map Call.op) h

theorem timed_op (htsc : e.tsc ≠ 0) (h : r.op e = some op) : op.Timed := by
  cases r with
  | clear off len | write off data | copy dstOff srcOff len | compare off1 off2 len => cases h; exact trivial
  | read off len =>
    rw [Request.op] at h
    split at h
    · cases h
    · cases h
      exact trivial
  | loadCache name off len hex => cases h; exact htsc
  | storeCache name off len hex => cases h; exact ⟨len.toNat_lt, htsc⟩
  | _ => cases h

/-- A call is that of a judge request, or of an operation. -/
theorem call_cases {k : Call} (h : r.call e = some k) :
    (∃ n, r = .judge n ∧ k = .judge (judged n) e.user) ∨ ∃ op, r.op e = some op ∧ k = .op op := by
  cases hop : r.op e with
  | some op =>
    rw [call_of_op hop] at h
    cases h
    exact .inr ⟨op, rfl, rfl⟩
  | none =>
    cases r with
    | judge n =>
      cases h
      exact .inl ⟨n, rfl, rfl⟩
    | _ => cases (congrArg (Option.map Call.op) hop).symm.trans h

theorem timed_call {k : Call} (htsc : e.tsc ≠ 0) (h : r.call e = some k) : k.Timed := by
  rcases call_cases h with ⟨n, -, rfl⟩ | ⟨op, hop, rfl⟩
  · exact trivial
  · exact timed_op htsc hop

/-- What a request does to the state is what its call does. -/
theorem perform_state : (r.perform c e s).map Prod.fst =
    match r.call e with
    | some k => Judger.call c.platform s k
    | none => .ok s := by
  cases h : r.op e with
  | some op =>
    rw [perform_of_op h, call_of_op h]
    show _ = (exec c.platform s op).map Prod.fst
    cases exec c.platform s op <;> rfl
  | none =>
    rcases perform_of_no_op c s h with ⟨n, rfl⟩ | ⟨hcall, x, hx⟩
    · show ((Judger.judge c.platform (judged n) e.user s).map _).map Prod.fst =
        (Judger.judge c.platform (judged n) e.user s).map Prod.fst
      cases Judger.judge c.platform (judged n) e.user s <;> rfl
    · rw [hx, hcall]
      rfl

end Calls

/-! ## A run is a session -/

section Sessions

variable {c : Setup} {e : Readings} {s s1 s2 : State} {content : List UInt8} {r : Request}
variable {ds : List (Readings × List UInt8)} {res : Option (List UInt8)} {rs : List (Option (List UInt8))}

theorem handle_of_means (h : Means content (some r)) (hreboot : content ≠ text "reboot") :
    duckPacketHandle c e content s = (r.perform c e s).map fun x => (x.1, x.2.sent) := by
  rw [duckPacketHandle_eq hreboot, h.2]

theorem handle_of_means_none (h : Means content none) (hreboot : content ≠ text "reboot") :
    duckPacketHandle c e content s = .ok (s, none) := by
  rw [duckPacketHandle_eq hreboot]
  rcases h c e s with hunknown | hsilent
  · rw [hunknown]
    rfl
  · rw [hsilent]
    rfl

/-- No request is encoded as `reboot`. -/
theorem encode_ne_reboot (r : Request) : r.encode ≠ text "reboot" := by
  intro h
  have hname : text r.name <+: text "reboot" := h ▸ starts_of_named (named_encode r)
  cases r <;> (rw [Request.name] at hname; exact absurd hname (by decide))

/-- **Every request reaches the judger as it was encoded**, and what it returns is what is sent. -/
theorem duckPacketHandle_encode (c : Setup) (e : Readings) (s : State) (r : Request) :
    duckPacketHandle c e r.encode s = (r.perform c e s).map fun x => (x.1, x.2.sent) := by
  rw [duckPacketHandle_eq (encode_ne_reboot r), process_encode]

/-- What a datagram means. -/
noncomputable def meaning : List UInt8 → Option Request := Classical.choose exists_decoder

/-- **Decoding gives the request back.** -/
theorem meaning_encode (r : Request) : meaning r.encode = some r := (Classical.choose_spec exists_decoder).1 r

theorem means_meaning (content : List UInt8) : Means content (meaning content) :=
  (Classical.choose_spec exists_decoder).2 content

/-- The call that a datagram asks for. -/
noncomputable def callOf (e : Readings) (content : List UInt8) : Option Call :=
  (meaning content).bind (Request.call e)

theorem handle_state (hreboot : content ≠ text "reboot") :
    (duckPacketHandle c e content s).map Prod.fst =
      match callOf e content with
      | some k => Judger.call c.platform s k
      | none => .ok s := by
  have hmeans := means_meaning content
  rw [callOf]
  cases hmeaning : meaning content with
  | none =>
    rw [hmeaning] at hmeans
    rw [handle_of_means_none hmeans hreboot]
    rfl
  | some r =>
    rw [hmeaning] at hmeans
    have hstate := perform_state (c := c) (e := e) (s := s) (r := r)
    rw [handle_of_means hmeans hreboot]
    show _ = match r.call e with
      | some k => Judger.call c.platform s k
      | none => .ok s
    rw [← hstate]
    cases r.perform c e s <;> rfl

/-- The state after a run is the one after the session of its calls. -/
theorem serve_state (hreboot : ∀ d ∈ ds, d.2 ≠ text "reboot") :
    (serve c s ds).map Prod.fst =
      Judger.session c.platform s (ds.filterMap fun d => callOf d.1 d.2) := by
  induction ds generalizing s with
  | nil => rfl
  | cons d ds ih =>
    have hfirst := handle_state (c := c) (e := d.1) (s := s) (hreboot d List.mem_cons_self)
    have hrest := fun t => ih (s := t) fun d' hd' => hreboot d' (List.mem_cons_of_mem d hd')
    have hserve : (serve c s (d :: ds)).map Prod.fst =
        (duckPacketHandle c d.1 d.2 s).map Prod.fst >>= fun t => (serve c t ds).map Prod.fst := by
      rw [serve]
      cases duckPacketHandle c d.1 d.2 s with
      | error fault => rfl
      | ok x =>
        show Except.map Prod.fst (serve c x.1 ds >>= _) = (serve c x.1 ds).map Prod.fst
        cases serve c x.1 ds <;> rfl
    rw [hserve, hfirst]
    cases hcall : callOf d.1 d.2 with
    | none =>
      have hcalls : (d :: ds).filterMap (fun d => callOf d.1 d.2) = _ := List.filterMap_cons_none hcall
      rw [hcalls]
      exact hrest s
    | some k =>
      have hcalls : (d :: ds).filterMap (fun d => callOf d.1 d.2) = _ := List.filterMap_cons_some hcall
      rw [hcalls, Judger.session, List.foldlM_cons]
      exact bind_congr hrest

/-- **A run of the server is a session of the judger**: the wire format has a decoder, under which every
    datagram is at most one call, in whatever state it arrives. -/
theorem serve_session : ∃ decode : List UInt8 → Option Request, (∀ r, decode r.encode = some r) ∧
    ∀ (c : Setup) (s : State) (ds : List (Readings × List UInt8)), (∀ d ∈ ds, d.2 ≠ text "reboot") →
      (serve c s ds).map Prod.fst =
        Judger.session c.platform s (ds.filterMap fun d => (decode d.2).bind (Request.call d.1)) :=
  ⟨meaning, meaning_encode, fun _ _ _ => serve_state⟩

end Sessions

/-! ## What every run keeps -/

section Keeping

variable {c : Setup} {e : Readings} {s0 s s1 s2 : State} {content : List UInt8} {r : Request}
variable {ds : List (Readings × List UInt8)} {res : Option (List UInt8)} {rs : List (Option (List UInt8))}

/-- A datagram that was handled: nothing was done, or a call. -/
theorem handle_cases (h : duckPacketHandle c e content s = .ok (s1, res)) :
    s1 = s ∨ ∃ k, callOf e content = some k ∧ Judger.call c.platform s k = .ok s1 := by
  have hstate := handle_state (c := c) (e := e) (s := s) (ne_reboot_of_ok h)
  rw [h] at hstate
  cases hcall : callOf e content with
  | none =>
    rw [hcall] at hstate
    exact .inl (Except.ok.inj hstate)
  | some k =>
    rw [hcall] at hstate
    exact .inr ⟨k, rfl, hstate.symm⟩

theorem runs_handle (hruns : Runs s0 s) (hp : Placed s0)
    (h : duckPacketHandle c e content s = .ok (s1, res)) : Runs s0 s1 := by
  rcases handle_cases h with rfl | ⟨k, -, hcall⟩
  · exact hruns
  · exact hruns.call hp hcall

theorem fit_handle (hfit : Fit s) (hruns : Runs s0 s) (hp : Placed s0) (hroom : 2 ^ 32 < s0.m.vaddrBreak)
    (htsc : e.tsc ≠ 0) (h : duckPacketHandle c e content s = .ok (s1, res)) : Fit s1 := by
  rcases handle_cases h with rfl | ⟨k, hk, hcall⟩
  · exact hfit
  · obtain ⟨r, -, hr⟩ := Option.bind_eq_some_iff.mp hk
    obtain ⟨app?, hprotect⟩ := hruns.protect
    have hbreak : s.m.vaddrBreak = s0.m.vaddrBreak := hprotect.vaddrBreak
    exact hfit.call hruns hp (k.pageApart_of_room (hbreak ▸ hroom)) (timed_call htsc hr) hcall

/-- The buffer stays where it is, and the caches stay sound. -/
theorem keeps_serve (hfit : Fit s) (hruns : Runs s0 s) (hp : Placed s0) (hroom : 2 ^ 32 < s0.m.vaddrBreak)
    (htsc : ∀ d ∈ ds, d.1.tsc ≠ 0) (h : serve c s ds = .ok (s2, rs)) : Runs s0 s2 ∧ Fit s2 := by
  induction ds generalizing s rs with
  | nil =>
    cases h
    exact ⟨hruns, hfit⟩
  | cons d ds ih =>
    obtain ⟨s1, res, rs', hfirst, hrest, -⟩ := serve_cons_ok.mp h
    have hd := htsc d List.mem_cons_self
    exact ih (fit_handle hfit hruns hp hroom hd hfirst) (runs_handle hruns hp hfirst)
      (fun d' hd' => htsc d' (List.mem_cons_of_mem d hd')) hrest

end Keeping

/-! ## Datagrams without a reply -/

section Silence

variable {c : Setup} {e : Readings} {s s1 s2 : State} {content : List UInt8} {r : Request}
variable {ds : List (Readings × List UInt8)} {rs : List (Option (List UInt8))}

theorem update_false {inRange : Bool} {W : Except Fault Machine}
    (h : (if inRange = true then W >>= fun m => .ok (Judger.clearJudgeResult { s with m }, true)
      else .ok (s, false)) = .ok (s1, false)) : s1 = s := by
  -- only the branch that is out of range returns `false`
  split at h
  · obtain ⟨m, -, h⟩ := bind_ok h
    cases h
  · cases h
    rfl

/-- An operation that is not answered did nothing. -/
theorem exec_of_silent {op : Op} {out : Out} (hop : r.op e = some op)
    (h : exec c.platform s op = .ok (s1, out)) (hsilent : (r.answer out).sent = none) : s1 = s := by
  have hrefused : ∀ {ret : Bool} {res : List UInt8}, (replyIf ret res).sent = none → ret = false := by
    intro ret res hnone
    cases ret with
    | false => rfl
    | true => cases hnone
  cases r with
  | clear off len | write off data | copy dstOff srcOff len =>
    cases hop
    obtain ⟨⟨t, ret⟩, hrun, hout⟩ := map_ok h
    cases hout
    cases hrefused hsilent
    exact update_false hrun
  | read off len =>
    rw [Request.op] at hop
    split at hop
    · cases hop
    · cases hop
      obtain ⟨qRes, hrun, hout⟩ := map_ok h
      cases hout
      rfl
  | compare off1 off2 len =>
    cases hop
    obtain ⟨compResult, hrun, hout⟩ := map_ok h
    cases hout
    rfl
  | loadCache name off len hex | storeCache name off len hex =>
    cases hop
    obtain ⟨⟨t, ret⟩, hrun, hout⟩ := map_ok h
    cases hout
    cases hsilent
  | _ => cases hop

/-- A datagram that is not answered did nothing. -/
theorem handle_unanswered (h : duckPacketHandle c e content s = .ok (s1, none)) : s1 = s := by
  have hreboot := ne_reboot_of_ok h
  obtain ⟨r?, hmeans⟩ := exists_meaning content
  cases r? with
  | none =>
    rw [handle_of_means_none hmeans hreboot] at h
    cases h
    rfl
  | some r =>
    rw [handle_of_means hmeans hreboot] at h
    cases hop : r.op e with
    | some op =>
      rw [perform_of_op hop] at h
      obtain ⟨⟨t, x⟩, hperform, hsent⟩ := map_ok h
      obtain ⟨⟨t', out⟩, hexec, hx⟩ := map_ok hperform
      cases hx
      obtain ⟨rfl, hnone⟩ := Prod.mk.injEq .. |>.mp hsent
      exact exec_of_silent hop hexec hnone
    | none =>
      rcases perform_of_no_op c s hop with ⟨n, rfl⟩ | ⟨-, x, hx⟩
      · obtain ⟨⟨t, x⟩, hperform, hsent⟩ := map_ok h
        obtain ⟨⟨t', result⟩, -, hx⟩ := map_ok hperform
        cases hx
        cases hsent
      · rw [hx] at h
        exact (Prod.mk.inj (Except.ok.inj h)).1.symm

/-- **What is not answered has no effect**: a run without the datagrams that got no reply ends in the same
    state, and the others get the same replies. -/
theorem serve_answered (h : serve c s ds = .ok (s2, rs)) :
    serve c s ((ds.zip rs).filterMap fun x => x.2.map fun _ => x.1) = .ok (s2, rs.filter Option.isSome) := by
  induction ds generalizing s rs with
  | nil =>
    cases h
    rfl
  | cons d ds ih =>
    obtain ⟨s1, res, rs', hfirst, hrest, rfl⟩ := serve_cons_ok.mp h
    have hrun := ih hrest
    cases res with
    | none =>
      cases handle_unanswered hfirst
      exact hrun
    | some reply =>
      rw [List.zip_cons_cons]
      exact serve_cons_ok.mpr ⟨s1, some reply, _, hfirst, hrun, rfl⟩

/-- A read that is too long gets no answer, and changes nothing for the next request. -/
theorem serve_answered_uptime : ∃ s,
    serve someSetup s [(someReadings, text "read-buffer 0 1401"), (someReadings, text "uptime")] =
      .ok (s, [none, some (text "uptime 0")]) ∧
    serve someSetup s [(someReadings, text "uptime")] = .ok (s, [some (text "uptime 0")]) := by
  obtain ⟨-, s, -⟩ := Judger.exists_small 0
  have hserve : serve someSetup s
      [(someReadings, text "read-buffer 0 1401"), (someReadings, text "uptime")] =
      .ok (s, [none, some (text "uptime 0")]) := rfl
  exact ⟨s, hserve, serve_answered hserve⟩

end Silence

/-! ## What can stop the server -/

section Returning

variable {c : Setup} {e : Readings} {s0 s : State} {content : List UInt8} {r : Request}
variable {ds : List (Readings × List UInt8)}

/-- A request stays in a buffer of `size` bytes; requests that are not to a cache are tested for that. -/
def Request.Inside (size : Nat) : Request → Prop
  | .loadCache _ off len _ => off.toNat + len.toNat ≤ size
  | .storeCache _ off len _ => off.toNat + len.toNat ≤ size
  | _ => True

/-- A datagram that cannot stop a server with a buffer of `size` bytes. -/
def Harmless (size : Nat) (content : List UInt8) : Prop :=
  content ≠ text "reboot" ∧ ∃ r?, Means content r? ∧ ∀ r ∈ r?, r.Inside size

theorem cached_inside {op : Op} {size : Nat} (h : r.op e = some op) (hop : op.cached = true)
    (hinside : r.Inside size) : op.Inside size := by
  cases r with
  | loadCache name off len hex =>
    cases h
    exact (Op.inside_single rfl).mpr hinside
  | storeCache name off len hex =>
    cases h
    exact (Op.inside_single rfl).mpr hinside
  | read off len =>
    rw [Request.op] at h
    split at h
    · cases h
    · cases h
      cases hop
  | _ => cases h <;> cases hop

theorem cached_name {op : Op} (h : r.op e = some op) (hop : op.cached = true) :
    r.name = "load-cache" ∨ r.name = "store-cache" := by
  cases r with
  | loadCache name off len hex => exact .inl rfl
  | storeCache name off len hex => exact .inr rfl
  | read off len =>
    rw [Request.op] at h
    split at h
    · cases h
    · cases h
      cases hop
  | _ => cases h <;> cases hop

/-- A request returns, when its operation does. -/
theorem exists_perform (hp : Placed s) (hdvd : DuckCache.pageSize ∣ s.m.vaddrBreak)
    (h : ∀ op, r.op e = some op → op.cached = true → Fit s ∧ op.Timed ∧ op.Inside s.bufferSize) :
    ∃ s1 x, r.perform c e s = .ok (s1, x) := by
  cases hop : r.op e with
  | some op =>
    obtain ⟨s1, out, hexec⟩ := Judger.exists_exec (p := c.platform) hp (h op hop)
    refine ⟨s1, r.answer out, ?_⟩
    rw [perform_of_op hop, hexec]
    rfl
  | none =>
    rcases perform_of_no_op c s hop with ⟨n, rfl⟩ | ⟨-, x, hx⟩
    · obtain ⟨s1, result, hjudge⟩ := Judger.exists_judge c.platform (judged n) e.user hp hdvd
      refine ⟨s1, .reply (judgeReply c result), ?_⟩
      show (Judger.judge c.platform (judged n) e.user s).map _ = _
      rw [hjudge]
      rfl
    · exact ⟨s, x, hx⟩

/-- **A datagram is handled without a fault**, if a cache operation has a fit cache, a time and a
    range inside. -/
theorem exists_handle {r? : Option Request} (hmeans : Means content r?) (hreboot : content ≠ text "reboot")
    (hp : Placed s) (hdvd : DuckCache.pageSize ∣ s.m.vaddrBreak)
    (h : ∀ r ∈ r?, ∀ op, r.op e = some op → op.cached = true → Fit s ∧ op.Timed ∧ op.Inside s.bufferSize) :
    ∃ s1 res, duckPacketHandle c e content s = .ok (s1, res) := by
  cases r? with
  | none => exact ⟨s, none, handle_of_means_none hmeans hreboot⟩
  | some r =>
    obtain ⟨s1, x, hx⟩ := exists_perform (c := c) hp hdvd (h r rfl)
    refine ⟨s1, x.sent, ?_⟩
    rw [handle_of_means hmeans hreboot, hx]
    rfl

theorem runs_dvd (hruns : Runs s0 s) (hboot : Booted s0.m) : DuckCache.pageSize ∣ s.m.vaddrBreak := by
  obtain ⟨app?, hprotect⟩ := hruns.protect
  have hbreak : s.m.vaddrBreak = s0.m.vaddrBreak := hprotect.vaddrBreak
  rw [hbreak]
  exact Nat.dvd_trans (by decide) hboot.dvd_break

/-- Datagrams are handled one after the other, as long as the states have a property that lets them. -/
theorem serve_inv (P : State → Prop) (hstep : ∀ s d, d ∈ ds → P s →
      ∃ s1 res, duckPacketHandle c d.1 d.2 s = .ok (s1, res) ∧ P s1) (hs : P s) :
    ∃ s2 rs, serve c s ds = .ok (s2, rs) ∧ P s2 := by
  induction ds generalizing s with
  | nil => exact ⟨s, [], rfl, hs⟩
  | cons d ds ih =>
    obtain ⟨s1, res, hfirst, hs1⟩ := hstep s d List.mem_cons_self hs
    obtain ⟨s2, rs, hrest, hs2⟩ := ih (fun t d' hd' => hstep t d' (List.mem_cons_of_mem d hd')) hs1
    exact ⟨s2, res :: rs, serve_cons_ok.mpr ⟨s1, res, rs, hfirst, hrest, rfl⟩, hs2⟩

/-- **Only `reboot` and cache requests can stop the server**: whatever else is sent, in any order, every
    datagram is handled. -/
theorem exists_serve (c : Setup) (m0 : Machine) (rawElf rawData : DuckCache.Cache) (s0 : State)
    (ds : List (Readings × List UInt8)) (hinit : AfterInit m0) (hjudger : Judger.init rawElf rawData m0 = .ok s0)
    (hds : ∀ d ∈ ds, d.2 ≠ text "reboot" ∧ ¬ text "load-cache" <+: d.2 ∧ ¬ text "store-cache" <+: d.2) :
    ∃ s rs, serve c s0 ds = .ok (s, rs) := by
  have hstarted := Judger.init_started hinit.booted hjudger
  have hstep : ∀ s d, d ∈ ds → Runs s0 s →
      ∃ s1 res, duckPacketHandle c d.1 d.2 s = .ok (s1, res) ∧ Runs s0 s1 := by
    intro s d hd hruns
    obtain ⟨hreboot, hload, hstore⟩ := hds d hd
    obtain ⟨r?, hmeans⟩ := exists_meaning d.2
    obtain ⟨s1, res, hhandle⟩ := exists_handle (c := c) (e := d.1) hmeans hreboot
      (hruns.placed hstarted.placed) (runs_dvd hruns hstarted.booted) (by
        rintro r hr op hop hcached
        cases hr
        rcases cached_name hop hcached with hname | hname
        · exact absurd (hname ▸ starts_of_named hmeans.1) hload
        · exact absurd (hname ▸ starts_of_named hmeans.1) hstore)
    exact ⟨s1, res, hhandle, runs_handle hruns hstarted.placed hhandle⟩
  obtain ⟨s, rs, hserve, -⟩ := serve_inv (fun s => Runs s0 s) hstep ⟨rfl, rfl, none, .init hstarted.booted⟩
  exact ⟨s, rs, hserve⟩

/-- **Nor can cache requests that stay in the buffer**, when there is room for programs up to 4 GiB and the
    clock does not read zero. -/
theorem serve_returns_inside (c : Setup) (m0 : Machine) (rawElf rawData : DuckCache.Cache) (s0 : State)
    (ds : List (Readings × List UInt8)) (hinit : AfterInit m0) (hjudger : Judger.init rawElf rawData m0 = .ok s0)
    (hroom : 2 ^ 32 < s0.m.vaddrBreak)
    (hds : ∀ d ∈ ds, d.1.tsc ≠ 0 ∧ Harmless s0.bufferSize d.2) : ∃ s rs, serve c s0 ds = .ok (s, rs) := by
  have hstarted := Judger.init_started hinit.booted hjudger
  have hp := hstarted.placed
  have hstep : ∀ s d, d ∈ ds → Runs s0 s ∧ Fit s →
      ∃ s1 res, duckPacketHandle c d.1 d.2 s = .ok (s1, res) ∧ Runs s0 s1 ∧ Fit s1 := by
    rintro s d hd ⟨hruns, hfit⟩
    obtain ⟨htsc, hreboot, r?, hmeans, hinside⟩ := hds d hd
    obtain ⟨s1, res, hhandle⟩ := exists_handle (c := c) (e := d.1) hmeans hreboot hfit.placed
      (runs_dvd hruns hstarted.booted) (by
        intro r hr op hop hcached
        refine ⟨hfit, timed_op htsc hop, cached_inside hop hcached ?_⟩
        rw [hruns.bufferSize]
        exact hinside r hr)
    exact ⟨s1, res, hhandle, runs_handle hruns hp hhandle, fit_handle hfit hruns hp hroom htsc hhandle⟩
  obtain ⟨s, rs, hserve, -⟩ := serve_inv (fun s => Runs s0 s ∧ Fit s) hstep
    ⟨⟨rfl, rfl, none, .init hstarted.booted⟩, Judger.init_fit hinit.booted hjudger⟩
  exact ⟨s, rs, hserve⟩

/-- The first 16 bytes of the buffer go to the cache of programs. -/
def someStore : Request :=
  .storeCache ⟨text "elf", by rw [IsWord]; decide +kernel, by decide⟩ 0 16 ⟨List.replicate 64 48, by decide⟩

/-- A store right after `init`. -/
theorem serve_returns_store : ∃ m0 s0, AfterInit m0 ∧
    Judger.init DuckCache.zeros DuckCache.zeros m0 = .ok s0 ∧ 2 ^ 32 < s0.m.vaddrBreak ∧
    ∃ s rs, serve someSetup s0 [(someReadings, someStore.encode)] = .ok (s, rs) := by
  obtain ⟨m0, s0, hinit, hjudger, hroom, hsize⟩ := Judger.exists_large
  have hinside : someStore.Inside s0.bufferSize := by
    rw [hsize]
    show (0 : UInt64).toNat + (16 : UInt64).toNat ≤ _
    decide
  refine ⟨m0, s0, hinit, hjudger, hroom, serve_returns_inside someSetup m0 _ _ s0 _ hinit hjudger hroom ?_⟩
  intro d hd
  cases List.mem_singleton.mp hd
  refine ⟨by decide, encode_ne_reboot someStore, some someStore, means_encode someStore, ?_⟩
  rintro r hr
  cases hr
  exact hinside

end Returning

/-! ## Sending again -/

section Again

variable {c : Setup} {e e1 : Readings} {s0 s s1 : State} {r : Request} {op : Op}
variable {ds : List (Readings × List UInt8)} {res : Option (List UInt8)} {rs : List (Option (List UInt8))}

/-- The requests whose reply does not tell a clock, a temperature or a register. -/
def Request.steady : Request → Bool
  | .uptime => false
  | .cpuTemp => false
  | .sysinfo => false
  | .queryAll => false
  | _ => true

/-- A datagram that changes nothing, wherever it comes. -/
def Query (content : List UInt8) : Prop :=
  ∀ c e s, Placed s → ∃ res, duckPacketHandle c e content s = .ok (s, res)

/-- The requests for which that is so: all but those that write and those that load or store. -/
theorem query_encode (h : ∀ e op, r.op e = some op →
      (∃ off len, op = .read off len) ∨ ∃ off1 off2 len, op = .compare off1 off2 len)
    (hjudge : ∀ n, r ≠ .judge n) : Query r.encode := by
  intro c e s hp
  rw [duckPacketHandle_encode]
  cases hop : r.op e with
  | none =>
    rcases perform_of_no_op c s hop with ⟨n, hn⟩ | ⟨-, x, hx⟩
    · exact absurd hn (hjudge n)
    · rw [hx]
      exact ⟨x.sent, rfl⟩
  | some op =>
    have hcached : op.cached = true → Fit s ∧ op.Timed ∧ op.Inside s.bufferSize := by
      intro htrue
      rcases h e op hop with ⟨off, len, rfl⟩ | ⟨off1, off2, len, rfl⟩
      · cases htrue
      · cases htrue
    obtain ⟨s1, out, hexec⟩ := Judger.exists_exec (p := c.platform) hp hcached
    have hs1 : s1 = s := by
      rcases h e op hop with ⟨off, len, rfl⟩ | ⟨off1, off2, len, rfl⟩
      · obtain ⟨x, -, hx⟩ := map_ok hexec
        cases hx
        rfl
      · obtain ⟨x, -, hx⟩ := map_ok hexec
        cases hx
        rfl
    subst hs1
    rw [perform_of_op hop, hexec]
    exact ⟨_, rfl⟩

theorem op_retimed (h : r.op e = some op) : r.op e1 = some (op.retimed e1.tsc) := by
  cases r with
  | clear off len => cases h; rfl
  | read off len =>
    rw [Request.op] at h ⊢
    split at h
    · cases h
    · rename_i hlen
      cases h
      exact if_neg hlen
  | write off data => cases h; rfl
  | copy dstOff srcOff len => cases h; rfl
  | compare off1 off2 len => cases h; rfl
  | loadCache name off len hex => cases h; rfl
  | storeCache name off len hex => cases h; rfl
  | _ => cases h

/-- A report that is steady is the same at another time. -/
theorem perform_steady (hr : r.steady = true) (hop : r.op e = none) (hjudge : ∀ n, r ≠ .judge n) :
    r.perform c e1 s = r.perform c e s := by
  cases r with
  | statistics => rfl
  | queryBufferSize => rfl
  | infoCache name => rfl
  | read off len => rfl
  | judge n => exact absurd rfl (hjudge n)
  | uptime => cases hr
  | cpuTemp => cases hr
  | sysinfo => cases hr
  | queryAll => cases hr
  | _ => cases hop

/-- The state is the one after `r`, which was answered with `res`, up to times. -/
def Settled (c : Setup) (r : Request) (res : Option (List UInt8)) (s : State) : Prop :=
  Placed s ∧ ∃ s0 e, Fit s0 ∧ e.tsc ≠ 0 ∧ duckPacketHandle c e r.encode s0 = .ok (s, res)

/-- **The same request again** gets the same reply, and changes times at most. -/
theorem settled_again (hr : r.steady = true) (htsc : e.tsc ≠ 0) (h : Settled c r res s) :
    ∃ s1, duckPacketHandle c e r.encode s = .ok (s1, res) ∧ s1.untimed = s.untimed ∧ Settled c r res s1 := by
  have hsettled := h
  obtain ⟨hp, s0, e0, hfit, htsc0, hfirst⟩ := h
  rw [duckPacketHandle_encode] at hfirst
  rw [duckPacketHandle_encode]
  cases hop : r.op e0 with
  | some op =>
    rw [perform_of_op hop] at hfirst
    obtain ⟨⟨t, x⟩, hperform, hsent⟩ := map_ok hfirst
    obtain ⟨⟨t', out⟩, hexec, hx⟩ := map_ok hperform
    cases hx
    cases hsent
    have htimed := timed_op htsc0 hop
    obtain ⟨s1, hagain, htimes⟩ := Judger.exec_replay e.tsc hfit htimed hexec
    have hfit1 := hfit.exec htimed hexec
    have hperform1 : (r.perform c e t').map (fun x => (x.1, x.2.sent)) = .ok (s1, (r.answer out).sent) := by
      rw [perform_of_op (op_retimed hop), hagain]
      rfl
    have hfit2 := hfit1.exec (timed_op htsc (op_retimed hop)) hagain
    refine ⟨s1, hperform1, htimes, hfit2.placed, t', e, hfit1, htsc, ?_⟩
    rw [duckPacketHandle_encode, hperform1]
  | none =>
    rcases perform_of_no_op c s0 hop with ⟨n, rfl⟩ | ⟨hcall, x, hx⟩
    · obtain ⟨⟨t, x⟩, hperform, hsent⟩ := map_ok hfirst
      obtain ⟨⟨t', result⟩, hjudge, hx⟩ := map_ok hperform
      cases hx
      cases hsent
      have hagain := Judger.judge_replay e.user hfit.placed hjudge
      refine ⟨t', ?_, rfl, hsettled⟩
      show ((Judger.judge c.platform (judged n) e.user t').map _).map _ = _
      rw [show judged n = scannedRequest fun i => (judgeNumbers n).getD i 0 from rfl, hagain]
      rfl
    · have hjudge : ∀ n, r ≠ .judge n := by
        rintro n rfl
        cases hcall
      have hs : s = s0 := by
        rw [hx] at hfirst
        exact (Prod.mk.inj (Except.ok.inj hfirst)).1.symm
      subst hs
      rw [perform_steady hr hop hjudge]
      exact ⟨s, hfirst, rfl, hsettled⟩

/-- **The reply stays the same**: along repetitions of the request and queries the state changes in
    its time stamps only, which no reply depends on. -/
theorem settled_run (hr : r.steady = true) (h : Settled c r res s)
    (hds : ∀ d ∈ ds, d.1.tsc ≠ 0 ∧ (d.2 = r.encode ∨ Query d.2)) :
    ∃ s1 rs, serve c s ds = .ok (s1, rs) ∧ s1.untimed = s.untimed ∧
      List.Forall₂ (fun d res' => d.2 = r.encode → res' = res) ds rs := by
  induction ds generalizing s with
  | nil => exact ⟨s, [], rfl, rfl, .nil⟩
  | cons d ds ih =>
    obtain ⟨htsc, hd⟩ := hds d List.mem_cons_self
    have hrest := fun d' hd' => hds d' (List.mem_cons_of_mem d hd')
    by_cases heq : d.2 = r.encode
    · obtain ⟨s1, hfirst, htimes, hsettled⟩ := settled_again hr htsc h
      rw [← heq] at hfirst
      obtain ⟨s2, rs, hserve, htimes2, hreplies⟩ := ih hsettled hrest
      exact ⟨s2, res :: rs, serve_cons_ok.mpr ⟨s1, res, rs, hfirst, hserve, rfl⟩, htimes2.trans htimes,
        .cons (fun _ => rfl) hreplies⟩
    · obtain ⟨res', hfirst⟩ := (hd.resolve_left heq) c d.1 s h.1
      obtain ⟨s2, rs, hserve, htimes, hreplies⟩ := ih h hrest
      exact ⟨s2, res' :: rs, serve_cons_ok.mpr ⟨s, res', rs, hfirst, hserve, rfl⟩, htimes,
        .cons (fun hcopy => absurd hcopy heq) hreplies⟩

/-- **A client may send its request again and again**, after any run of the server and while others send
    queries: every copy is answered as the request was, and in the end the state is the one after the
    request, up to the times at which cached objects were used. -/
theorem serve_again (c : Setup) (m0 : Machine) (rawElf rawData : DuckCache.Cache) (s0 s s1 : State)
    (before later : List (Readings × List UInt8)) (rs : List (Option (List UInt8))) (e : Readings) (r : Request)
    (res : Option (List UInt8)) (hinit : AfterInit m0) (hjudger : Judger.init rawElf rawData m0 = .ok s0)
    (hroom : 2 ^ 32 < s0.m.vaddrBreak) (hbefore : ∀ d ∈ before, d.1.tsc ≠ 0)
    (hserve : serve c s0 before = .ok (s, rs)) (hr : r.steady = true) (htsc : e.tsc ≠ 0)
    (hfirst : duckPacketHandle c e r.encode s = .ok (s1, res))
    (hlater : ∀ d ∈ later, d.1.tsc ≠ 0 ∧ (d.2 = r.encode ∨ Query d.2)) :
    ∃ s2 rs', serve c s1 later = .ok (s2, rs') ∧ s2.untimed = s1.untimed ∧
      List.Forall₂ (fun d res' => d.2 = r.encode → res' = res) later rs' := by
  have hstarted := Judger.init_started hinit.booted hjudger
  obtain ⟨hruns, hfit⟩ := keeps_serve (Judger.init_fit hinit.booted hjudger)
    ⟨rfl, rfl, none, .init hstarted.booted⟩ hstarted.placed hroom hbefore hserve
  have hplaced := (runs_handle hruns hstarted.placed hfirst).placed hstarted.placed
  exact settled_run hr ⟨hplaced, s, e, hfit, htsc, hfirst⟩ hlater

/-- A store, a query and the same store again. -/
theorem serve_again_store : ∃ m0 s0 s1 s2 res res', AfterInit m0 ∧
    Judger.init DuckCache.zeros DuckCache.zeros m0 = .ok s0 ∧ 2 ^ 32 < s0.m.vaddrBreak ∧
    duckPacketHandle someSetup someReadings someStore.encode s0 = .ok (s1, res) ∧
    serve someSetup s1 [(someReadings, text "query-all"), (someReadings, someStore.encode)] =
      .ok (s2, [res', res]) ∧ s2.untimed = s1.untimed := by
  obtain ⟨m0, s0, hinit, hjudger, hroom, hsize⟩ := Judger.exists_large
  have hstarted := Judger.init_started hinit.booted hjudger
  have hinside : ∀ r ∈ some someStore, ∀ op, r.op someReadings = some op → op.cached = true →
      Fit s0 ∧ op.Timed ∧ op.Inside s0.bufferSize := by
    rintro r hr op hop hcached
    cases hr
    refine ⟨Judger.init_fit hinit.booted hjudger, timed_op (by decide) hop, cached_inside hop hcached ?_⟩
    rw [hsize]
    show (0 : UInt64).toNat + (16 : UInt64).toNat ≤ _
    decide
  obtain ⟨s1, res, hfirst⟩ := exists_handle (c := someSetup) (means_encode someStore)
    (encode_ne_reboot _) hstarted.placed (Nat.dvd_trans (by decide) hstarted.booted.dvd_break) hinside
  have hquery : Query (text "query-all") :=
    query_encode (r := .queryAll) (fun e op hop => by cases hop) (fun n => Request.noConfusion)
  obtain ⟨s2, rs, hserve, htimes, hreplies⟩ := serve_again someSetup m0 _ _ s0 s0 s1 []
    [(someReadings, text "query-all"), (someReadings, someStore.encode)] [] someReadings someStore res
    hinit hjudger hroom (fun d hd => absurd hd List.not_mem_nil) rfl rfl (by decide) hfirst (by
      intro d hd
      rcases List.mem_cons.mp hd with rfl | hd
      · exact ⟨by decide, .inr hquery⟩
      · cases List.mem_singleton.mp hd
        exact ⟨by decide, .inl rfl⟩)
  obtain ⟨res', rs, -, hcopy, rfl⟩ := List.forall₂_cons_left_iff.mp hreplies
  obtain ⟨res2, rs, hres2, hnone, rfl⟩ := List.forall₂_cons_left_iff.mp hcopy
  cases List.forall₂_nil_left_iff.mp hnone
  rw [hres2 rfl] at hserve
  exact ⟨m0, s0, s1, s2, res, res', hinit, hjudger, hroom, hfirst, hserve, htimes⟩

end Again

end JudgeDuck.DuckServer
