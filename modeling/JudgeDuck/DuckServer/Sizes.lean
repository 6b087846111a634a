/-
  The room that replies have.

  Most replies are written where the request was.  The buffer of `ducknet_step` for a received frame has
  `MAX_MTU + 64` bytes, 42 of them are headers; so a reply and the zero behind it have 1522 bytes.
  The reply to a judge request has a buffer of 1024 bytes, and `snprintf` would not say that it was cut.
  A reply of more than 1472 bytes would not be sent at all.

  A reply to a cache request repeats the name of the cache, which may be as long as the request lets it,
  and adds 48 bytes at most; the other replies are bounded, judge replies by 1024 because the judger knows
  four errors only (`errors`).  So after `init`, whatever was sent before, every reply has room
  (`replies_fit`).
-/
import JudgeDuck.DuckServer.Protocol

namespace JudgeDuck.DuckServer

open JudgeDuck.Lib JudgeDuck.Memory
open JudgeDuck.Judger (State Op Out Call JudgeResult JudgeRequest exec)
open JudgeDuck.Elf (Behaviour leBytes)

/-! ## Lengths of texts -/

section Texts

@[simp]
theorem length_text (s : String) : (text s).length = s.toList.length := List.length_map _

/-- A number below `base ^ k` has at most `k` digits. -/
theorem length_numeral {base x k : Nat} (hbase : 1 < base) (hk : 0 < k) (hx : x < base ^ k) :
    (numeral base x).length ≤ k := by
  rw [numeral, List.length_map]
  exact (Nat.length_toDigits_le_iff hbase hk).mpr hx

theorem length_lu (x : Nat) : (lu x).length ≤ 20 :=
  length_numeral (by decide) (by decide) (Nat.lt_of_lt_of_le (Nat.mod_lt x (by decide)) (by decide))

theorem length_lx (x : Nat) : (lx x).length ≤ 16 :=
  length_numeral (by decide) (by decide) (Nat.lt_of_lt_of_le (Nat.mod_lt x (by decide)) (by decide))

theorem length_x02 (x : Nat) : (x02 x).length ≤ 8 := by
  have hdigits : (numeral 16 (u32 x)).length ≤ 8 :=
    length_numeral (by decide) (by decide) (Nat.lt_of_lt_of_le (Nat.mod_lt x (by decide)) (by decide))
  rw [x02]
  split
  · rename_i hshort
    rw [List.length_cons]
    omega
  · exact hdigits

/-- An `int` has at most ten digits and a sign. -/
theorem length_d (x : Int) : (d x).length ≤ 11 := by
  have hlow : -(2 ^ 31) ≤ x.bmod (2 ^ 32) := Int.le_bmod (by decide)
  have hhigh : x.bmod (2 ^ 32) < (2 ^ 32 + 1) / 2 := Int.bmod_lt (by decide)
  have hdigits : (numeral 10 (x.bmod (2 ^ 32)).natAbs).length ≤ 10 :=
    length_numeral (by decide) (by decide) (by omega)
  rw [d]
  split
  · rw [List.length_cons]
    omega
  · omega

theorem length_line (name : String) (value : List UInt8) :
    (line name value).length = name.toList.length + value.length + 2 := by
  simp only [line, List.length_append, length_text]
  show name.toList.length + 1 + value.length + 1 = _
  omega

end Texts

/-! ## Errors of the judger -/

/-- `judge_result.error`, at any time. -/
def errors : List (Option String) :=
  [none, some "Not Judged", some "Can't load ELF", some "Invalid time limit"]

section Errors

variable {p : Judger.Platform} {s s1 : State}

theorem exec_error {op : Op} {out : Out} (hs : s.judgeResult.error ∈ errors)
    (h : exec p s op = .ok (s1, out)) : s1.judgeResult.error ∈ errors := by
  rcases Judger.exec_effect h with ⟨e, d, rfl⟩ | ⟨m, e, d, -, rfl⟩
  · exact hs
  · rw [Judger.clearJudgeResult]
    split
    · exact hs
    · show Judger.notJudged.error ∈ errors
      decide

theorem judgeLoad_error {req : JudgeRequest} {next : JudgeResult ⊕ Elf.App}
    (hs : s.judgeResult.error ∈ errors) (h : Judger.judgeLoad p req s = .ok (s1, next)) :
    s1.judgeResult.error ∈ errors ∧ ∀ result, next = .inl result → result.error ∈ errors := by
  rw [Judger.judgeLoad] at h
  split at h
  · cases h
    exact ⟨hs, fun result hresult => by cases hresult; exact hs⟩
  simp only at h
  have hfail : ∀ t error, some error ∈ errors → (Judger.fail t error).1.judgeResult.error ∈ errors ∧
      ∀ result, (Sum.inl (Judger.fail t error).2 : JudgeResult ⊕ Elf.App) = .inl result →
        result.error ∈ errors := by
    intro t error herror
    refine ⟨herror, fun result hresult => ?_⟩
    cases hresult
    exact herror
  split at h
  · cases h
    exact hfail _ _ (by decide)
  split at h
  · cases h
    exact hfail _ _ (by decide)
  split at h
  · cases h
    exact hfail _ _ (by decide)
  obtain ⟨⟨m, app?⟩, -, h⟩ := bind_ok h
  cases app? with
  | none =>
    cases h
    exact hfail _ _ (by decide)
  | some app =>
    cases h
    exact ⟨hs, fun result hresult => by cases hresult⟩

theorem judge_error {req : JudgeRequest} {u : Behaviour} {result : JudgeResult}
    (hs : s.judgeResult.error ∈ errors) (h : Judger.judge p req u s = .ok (s1, result)) :
    s1.judgeResult.error ∈ errors ∧ result.error ∈ errors := by
  obtain ⟨⟨t, next⟩, hload, h⟩ := bind_ok h
  obtain ⟨ht, hnext⟩ := judgeLoad_error hs hload
  cases next with
  | inl result' =>
    cases h
    exact ⟨ht, hnext _ rfl⟩
  | inr app =>
    obtain ⟨⟨m, res⟩, -, h⟩ := bind_ok h
    obtain ⟨m1, -, h⟩ := bind_ok h
    obtain ⟨m2, -, h⟩ := bind_ok h
    obtain ⟨m3, -, h⟩ := bind_ok h
    cases h
    have hnone : (Judger.resultOf req res).error = none := by
      rw [Judger.resultOf]
      simp only
      split <;> rfl
    show (Judger.resultOf req res).error ∈ errors ∧ (Judger.resultOf req res).error ∈ errors
    rw [hnone]
    decide

end Errors

/-! ## Lengths of replies -/

section Replies

variable {c : Setup} {e : Readings} {s0 s s1 : State} {content : List UInt8} {r : Request}
variable {ds : List (Readings × List UInt8)} {rs : List (Option (List UInt8))}

/-- **A judge reply** is not cut. -/
theorem length_judgeReply (c : Setup) {result : JudgeResult} (h : result.error ∈ errors) :
    (judgeReply c result).length < 1024 := by
  rw [judgeReply]
  cases herror : result.error with
  | some error =>
    have hshort : ∀ error, some error ∈ errors → error.toList.length ≤ 18 := by
      intro error hmem
      simp only [errors, List.mem_cons, reduceCtorEq, Option.some.injEq, List.not_mem_nil, or_false,
        false_or] at hmem
      rcases hmem with rfl | rfl | rfl <;> decide
    have hlen := hshort error (herror ▸ h)
    simp only [List.length_append, length_text]
    show 22 + error.toList.length + 1 < 1024
    omega
  | none =>
    have hclock := c.clockMHz_length result.clkThread result.clkRefTsc (c.platform.kernel.tscFreq / 1000000)
    have hstatus : (status result).toList.length ≤ 19 := by
      rw [status]
      split
      · decide
      · split <;> decide
    simp only [List.length_append, length_line, length_text, String.reduceToList, List.length_cons,
      List.length_nil, Nat.reduceAdd]
    grind [length_lu, length_lx, length_d]

/-- What is read is as long as was asked for. -/
theorem length_read {p : Judger.Platform} {op : Op} {data : List UInt8} (hop : r.op e = some op)
    (h : exec p s op = .ok (s1, .data (some data))) : data.length ≤ maxQueryLen := by
  cases r with
  | read off len =>
    rw [Request.op] at hop
    split at hop
    · cases hop
    rename_i hlen
    cases hop
    obtain ⟨qRes, hread, hout⟩ := map_ok h
    cases hout
    rw [Judger.readBuffer] at hread
    split at hread
    · obtain ⟨bytes, hbytes, hread⟩ := bind_ok hread
      cases hread
      rw [Judger.read] at hbytes
      split at hbytes
      · cases hbytes
      · cases hbytes
        rw [length_listOf]
        omega
    · cases hread
  | compare off1 off2 len | clear off len | write off bytes | copy dstOff srcOff len
  | loadCache name off len hex | storeCache name off len hex =>
    cases hop
    obtain ⟨x, -, hout⟩ := map_ok h
    cases hout
  | _ => cases hop

/-- The bound for the reply to a request. -/
def Request.bound (r : Request) : Nat := max 1422 ((text r.name).length + r.word.length + 48)

theorem reply_of_replyIf {ret : Bool} {res res' : List UInt8} (h : replyIf ret res = .reply res') :
    res' = res := by
  cases ret with
  | false => cases h
  | true =>
    cases h
    rfl

theorem length_cacheReply (name : String) (w : List UInt8) (off len : Nat) :
    (cacheReply name w off len).length ≤ name.toList.length + w.length + 43 := by
  simp only [cacheReply, List.length_append, length_text, String.reduceToList, List.length_cons,
    List.length_nil, Nat.reduceAdd]
  grind [length_lu]

theorem length_answer {out : Out} {res : List UInt8} (h : r.answer out = .reply res)
    (hdata : ∀ data, out = .data (some data) → data.length ≤ maxQueryLen) : res.length ≤ r.bound := by
  have hle : ∀ n, n ≤ 1422 → n ≤ r.bound := fun n hn => Nat.le_trans hn (Nat.le_max_left _ _)
  rw [Request.answer.eq_def] at h
  split at h
  · rw [reply_of_replyIf h]
    refine hle _ ?_
    simp only [List.length_append, length_text, String.reduceToList, List.length_cons, List.length_nil,
      Nat.reduceAdd]
    grind [length_lu]
  · rename_i off len qRes
    cases h
    have hlen := hdata qRes rfl
    have hoff : (leBytes 8 off.toNat).length = 8 := by rw [leBytes, List.length_map, List.length_range]
    refine hle _ ?_
    rw [List.length_append, List.length_append, hoff, length_text]
    show 14 + 8 + qRes.length ≤ 1422
    unfold maxQueryLen at hlen
    omega
  · rw [reply_of_replyIf h]
    refine hle _ ?_
    simp only [List.length_append, length_text, String.reduceToList, List.length_cons, List.length_nil,
      Nat.reduceAdd]
    grind [length_lu]
  · rw [reply_of_replyIf h]
    refine hle _ ?_
    simp only [List.length_append, length_text, String.reduceToList, List.length_cons, List.length_nil,
      Nat.reduceAdd]
    grind [length_lu]
  · cases h
    refine hle _ ?_
    simp only [List.length_append, length_text, String.reduceToList, List.length_cons, List.length_nil,
      Nat.reduceAdd]
    grind [length_lu]
  · rename_i name off len hex ret
    cases h
    refine Nat.le_trans (length_cacheReply _ _ _ _) (Nat.le_trans ?_ (Nat.le_max_right _ _))
    have hname : (text "load-cache").length = 10 := rfl
    show _ ≤ (text "load-cache").length + name.1.length + 48
    rw [hname]
    cases ret with
    | true =>
      show 13 + name.1.length + 43 ≤ _
      omega
    | false =>
      show 15 + name.1.length + 43 ≤ _
      omega
  · rename_i name off len hex ret
    cases h
    refine Nat.le_trans (length_cacheReply _ _ _ _) (Nat.le_trans ?_ (Nat.le_max_right _ _))
    have hname : (text "store-cache").length = 11 := rfl
    show _ ≤ (text "store-cache").length + name.1.length + 48
    rw [hname]
    cases ret with
    | true =>
      show 14 + name.1.length + 43 ≤ _
      omega
    | false =>
      show 16 + name.1.length + 43 ≤ _
      omega
  · cases h

theorem length_info (c : DuckCache.Cache) : (info c).length ≤ 133 := by
  simp only [info, List.length_append, length_text, String.reduceToList, List.length_cons,
    List.length_nil, Nat.reduceAdd]
  grind [length_lu]

theorem length_infoReply (w : List UInt8) (s : State) :
    (infoReply w s).length ≤ max 149 (w.length + 25) := by
  rw [infoReply, List.length_append, List.length_append, List.length_append, getCacheInfo]
  have hfixed : (text "info-cache ").length = 11 ∧ (text " ").length = 1 := ⟨rfl, rfl⟩
  rw [hfixed.1, hfixed.2]
  split
  · rename_i which hwhich
    have hinfo := length_info (s.cache which)
    have hshort : w.length ≤ 4 := by
      rw [Judger.cacheNamed] at hwhich
      split at hwhich
      · rename_i hname
        have hlen := congrArg List.length hname
        rw [chars, List.length_map] at hlen
        exact Nat.le_trans (Nat.le_of_eq hlen) (by decide)
      · split at hwhich
        · rename_i hname
          have hlen := congrArg List.length hname
          rw [chars, List.length_map] at hlen
          exact Nat.le_trans (Nat.le_of_eq hlen) (by decide)
        · cases hwhich
    omega
  · show 11 + w.length + 1 + 13 ≤ _
    omega

/-- **The reply to a request is bounded**: 1422 bytes, or the name of the request and of the cache and 48
    bytes more. -/
theorem length_perform {res : List UInt8} (hs : s.judgeResult.error ∈ errors)
    (h : r.perform c e s = .ok (s1, .reply res)) : res.length ≤ r.bound := by
  have hle : ∀ n, n ≤ 1422 → n ≤ r.bound := fun n hn => Nat.le_trans hn (Nat.le_max_left _ _)
  cases hop : r.op e with
  | some op =>
    rw [perform_of_op hop] at h
    obtain ⟨⟨t, out⟩, hexec, hout⟩ := map_ok h
    obtain ⟨-, hanswer⟩ := Prod.mk.inj hout
    refine length_answer hanswer fun data hdata => ?_
    subst hdata
    exact length_read hop hexec
  | none =>
    cases r with
    | uptime =>
      cases h
      refine hle _ ?_
      simp only [uptimeReply, List.length_append, length_text, String.reduceToList, List.length_cons,
        List.length_nil, Nat.reduceAdd]
      grind [length_lu]
    | statistics =>
      cases h
      refine hle _ ?_
      simp only [statisticsReply, List.length_append, length_text, String.reduceToList, List.length_cons,
        List.length_nil, Nat.reduceAdd]
      grind [length_lu]
    | cpuTemp =>
      cases h
      refine hle _ ?_
      simp only [cpuTempReply, List.length_append, length_text, String.reduceToList, List.length_cons,
        List.length_nil, Nat.reduceAdd]
      grind [length_lu]
    | sysinfo =>
      cases h
      refine hle _ ?_
      simp only [sysinfoReply, List.length_append, length_text, String.reduceToList, List.length_cons,
        List.length_nil, Nat.reduceAdd]
      grind [length_x02]
    | queryBufferSize =>
      cases h
      refine hle _ ?_
      simp only [List.length_append, length_text, String.reduceToList, List.length_cons, List.length_nil,
        Nat.reduceAdd]
      grind [length_lu]
    | judge n =>
      obtain ⟨⟨t, result⟩, hjudge, hout⟩ := map_ok h
      cases hout
      exact hle _ (Nat.le_trans (Nat.le_of_lt (length_judgeReply c (judge_error hs hjudge).2)) (by decide))
    | infoCache name =>
      cases h
      refine Nat.le_trans (length_infoReply name.1 s) (Nat.max_le.mpr ⟨hle _ (by decide), ?_⟩)
      refine Nat.le_trans ?_ (Nat.le_max_right _ _)
      show name.1.length + 25 ≤ (text "info-cache").length + name.1.length + 48
      omega
    | queryAll =>
      cases h
      have helf := length_infoReply (text "elf") s
      have hdata := length_infoReply (text "data") s
      refine hle _ ?_
      simp only [queryAllReply, uptimeReply, statisticsReply, cpuTempReply, List.length_append, length_text,
        String.reduceToList, List.length_cons, List.length_nil, Nat.reduceAdd] at *
      grind [length_lu]
    | read off len =>
      rw [Request.perform, readRequest] at h
      rw [Request.op] at hop
      split at hop
      · rename_i hlen
        rw [if_pos hlen] at h
        cases h
      · cases hop
    | _ => cases hop

/-- Only judge requests start with `judge`. -/
theorem judge_of_named (hjudge : text "judge" <+: content) (h : r.Named content) : ∃ n, r = .judge n := by
  have htag : tag (text r.name) = tag (text "judge") := by
    rw [← tag_of_starts (by decide) hjudge]
    refine (tag_of_starts ?_ (starts_of_named h)).symm
    cases r <;> (rw [Request.name]; decide)
  cases r with
  | judge n => exact ⟨n, rfl⟩
  | _ =>
    rw [Request.name] at htag
    exact absurd htag (by decide)

/-- What a reply to a datagram may be long. -/
structure Fits (content reply : List UInt8) : Prop where
  frame : reply.length ≤ max 1422 (content.length + 48)
  judge : text "judge" <+: content → reply.length < 1024

/-- **One datagram**: whatever is replied fits. -/
theorem fits_handle {res : List UInt8} (hs : s.judgeResult.error ∈ errors)
    (h : duckPacketHandle c e content s = .ok (s1, some res)) : Fits content res := by
  have hreboot := ne_reboot_of_ok h
  obtain ⟨r?, hmeans⟩ := exists_meaning content
  cases r? with
  | none =>
    rw [handle_of_means_none hmeans hreboot] at h
    cases h
  | some r =>
    rw [handle_of_means hmeans hreboot] at h
    obtain ⟨⟨t, x⟩, hperform, hsent⟩ := map_ok h
    obtain ⟨-, hx⟩ := Prod.mk.inj hsent
    have hreply : x = .reply res := by
      cases x with
      | reply res' =>
        cases hx
        rfl
      | unknown => cases hx
      | silent => cases hx
    subst hreply
    constructor
    · have hbound := length_perform hs hperform
      obtain ⟨rest, hrest, hword⟩ := hmeans.1
      have hcontent : (text r.name).length + r.word.length ≤ content.length := by
        rw [hrest, List.length_append]
        exact Nat.add_le_add_left hword.length_le _
      rw [Request.bound] at hbound
      omega
    · intro hjudge
      obtain ⟨n, rfl⟩ := judge_of_named hjudge hmeans.1
      obtain ⟨⟨t', result⟩, hrun, hout⟩ := map_ok hperform
      cases hout
      exact length_judgeReply c (judge_error hs hrun).2

theorem handle_error {res : Option (List UInt8)} (hs : s.judgeResult.error ∈ errors)
    (h : duckPacketHandle c e content s = .ok (s1, res)) : s1.judgeResult.error ∈ errors := by
  rcases handle_cases h with rfl | ⟨k, -, hcall⟩
  · exact hs
  · cases k with
    | op op =>
      obtain ⟨⟨t, out⟩, hexec, rfl⟩ := map_ok hcall
      exact exec_error hs hexec
    | judge req u =>
      obtain ⟨⟨t, result⟩, hjudge, rfl⟩ := map_ok hcall
      exact (judge_error hs hjudge).1

theorem fits_serve (hs : s.judgeResult.error ∈ errors) (h : serve c s ds = .ok (s1, rs)) :
    List.Forall₂ (fun d res => ∀ reply, res = some reply → Fits d.2 reply) ds rs := by
  induction ds generalizing s rs with
  | nil =>
    cases h
    exact .nil
  | cons d ds ih =>
    obtain ⟨t, res, rs', hfirst, hrest, rfl⟩ := serve_cons_ok.mp h
    refine .cons ?_ (ih (handle_error hs hfirst) hrest)
    rintro reply rfl
    exact fits_handle hs hfirst

/-- **Every reply has room**, after `init` and whatever was sent before: where the request was there is
    room for it and the zero behind it, `snprintf` does not cut it, and the reply to a request of at most
    1424 bytes can be sent. -/
theorem replies_fit (c : Setup) (m0 : Machine) (rawElf rawData : DuckCache.Cache) (s0 s : State)
    (ds : List (Readings × List UInt8)) (rs : List (Option (List UInt8))) (hinit : AfterInit m0)
    (hjudger : Judger.init rawElf rawData m0 = .ok s0) (hds : ∀ d ∈ ds, d.2.length ≤ 1472)
    (hserve : serve c s0 ds = .ok (s, rs)) :
    List.Forall₂ (fun d res => ∀ reply, res = some reply →
      reply.length + 1 ≤ 1522 ∧ (text "judge" <+: d.2 → reply.length < 1024) ∧
        (d.2.length ≤ 1424 → reply.length ≤ 1472)) ds rs := by
  have hfresh := (Judger.init_started hinit.booted hjudger).fresh.2.2
  have hs0 : s0.judgeResult.error ∈ errors := by
    rw [hfresh]
    decide
  have hall := fits_serve hs0 hserve
  rw [List.forall₂_iff_get] at hall ⊢
  refine ⟨hall.1, fun i hi hi' reply hreply => ?_⟩
  obtain ⟨hframe, hjudge⟩ := hall.2 i hi hi' reply hreply
  have hlen := hds _ (List.get_mem ds ⟨i, hi⟩)
  exact ⟨by omega, hjudge, by omega⟩

/-- The shortest exchange, right after `init`. -/
theorem replies_fit_uptime : ∃ m0 s0 s rs, AfterInit m0 ∧
    Judger.init DuckCache.zeros DuckCache.zeros m0 = .ok s0 ∧
    serve someSetup s0 [(someReadings, text "uptime")] = .ok (s, rs) ∧
    List.Forall₂ (fun (d : Readings × List UInt8) res => ∀ reply, res = some reply →
      reply.length + 1 ≤ 1522 ∧ (text "judge" <+: d.2 → reply.length < 1024) ∧
        (d.2.length ≤ 1424 → reply.length ≤ 1472))
      [(someReadings, text "uptime")] rs := by
  obtain ⟨m0, s0, hinit, hjudger, -⟩ := Judger.exists_small 0
  refine ⟨m0, s0, s0, [some (text "uptime 0")], hinit, hjudger, rfl,
    replies_fit someSetup m0 _ _ s0 s0 _ _ hinit hjudger ?_ rfl⟩
  intro d hd
  cases List.mem_singleton.mp hd
  decide

end Replies

end JudgeDuck.DuckServer
