/-
  The judger refines its service.

  One lemma for each kind of call: the operations on the bytes write or read the part that they name, those
  on the caches are steps of a map (`DuckCache.step_refines`), and a judge request runs the program that is in
  the buffer and copies three outputs back, with what `Elf.run_loaded` says about the run.
-/
import JudgeDuck.Judger.Service

namespace JudgeDuck.Judger

open JudgeDuck.Lib JudgeDuck.Memory
open JudgeDuck.DuckCache (Cache Digest256 Contents pageSize hugePageSize)
open JudgeDuck.Elf (Behaviour Layout Kernel App)

/-! ## Operations on the bytes -/

/-- A call is a step of the service, and everything is kept. -/
def Refines (p : Platform) (s0 s : State) (c : Call) : Prop :=
  ∃ s' r, perform p s c = .ok (s', r) ∧ Service.Step (s0.site p) s.service c r s'.service ∧ Serves s0 s'

section Bytes

variable {p : Platform} {s0 s : State} {m : Machine} {off len : Nat}

/-- Bytes were written, and the rest of the service is as before: its latest result goes. -/
theorem service_clear {t : State} {data : List UInt8} (h : Serves s0 s)
    (hcleared : t.judgeResultCleared = s.judgeResultCleared)
    (ht : t.service = { s.service with bytes := splice (s.view s.m) off data }) :
    (clearJudgeResult t).service = s.service.write off data := by
  rw [clearJudgeResult]
  split
  · next ht' =>
    obtain ⟨hseq, hresult⟩ := h.kept (hcleared ▸ ht')
    rw [ht, Service.write, ← hseq, ← hresult]
    rfl
  · show { t.service with seqNum := 2 ^ 64 - 1, result := notJudged } = _
    rw [ht]
    rfl

/-- The three operations that write bytes, once they are in range. -/
theorem Refines.update {op : Op} {data : List UInt8} (h : Serves s0 s) (hcached : op.cached = false)
    (hop : op.Timed) (hview : s.view m = splice (s.view s.m) off data)
    (hrun : exec p s op = .ok (clearJudgeResult { s with m }, .done true))
    (hstep : Service.Step (s0.site p) s.service (.op op) (.op (.done true)) (s.service.write off data)) :
    Refines p s0 s (.op op) := by
  refine ⟨clearJudgeResult { s with m }, .op (.done true), ?_, ?_, ?_⟩
  · rw [perform, hrun]
    rfl
  · have hservice : (State.service { s with m }) =
        { s.service with bytes := splice (s.view s.m) off data } := by
      rw [← hview]
      rfl
    rw [service_clear (t := { s with m }) h rfl hservice]
    exact hstep
  · refine h.exec hop (fun hc => ?_) hrun fun which => ?_
    · rw [hcached] at hc
      cases hc
    · rw [clearJudgeResult_cache]
      cases which <;> rfl

/-- An operation that leaves everything as it is. -/
theorem Refines.same {op : Op} {out : Out} (h : Serves s0 s) (hexec : exec p s op = .ok (s, out))
    (hstep : Service.Step (s0.site p) s.service (.op op) (.op out) s.service) : Refines p s0 s (.op op) := by
  refine ⟨s, .op out, ?_, hstep, h⟩
  rw [perform, hexec]
  rfl

theorem clear_refines (h : Serves s0 s) (off len : Nat) : Refines p s0 s (.op (.clear off len)) := by
  by_cases hin : s.inBuffer off len = true
  · have hlen : off + (List.replicate len (0 : UInt8)).length ≤ s.bufferSize := by
      rw [List.length_replicate]
      exact (inBuffer_iff.mp hin).2
    obtain ⟨m, hwrite, -, hview, -⟩ := write_view (m := s.m) h.fit.placed rfl _ hlen
    refine Refines.update h rfl trivial hview ?_ (.clear (holds_service.mpr hin))
    rw [exec, clearBuffer, if_pos hin, bind_of_ok hwrite]
    rfl
  · refine Refines.same h ?_ (.refused rfl fun hholds => hin (holds_service.mp hholds))
    rw [exec, clearBuffer, if_neg hin]
    rfl

theorem write_refines (h : Serves s0 s) (off : Nat) (data : List UInt8) :
    Refines p s0 s (.op (.write off data)) := by
  by_cases hin : s.inBuffer off data.length = true
  · obtain ⟨m, hwrite, -, hview, -⟩ := write_view (m := s.m) h.fit.placed rfl data (inBuffer_iff.mp hin).2
    refine Refines.update h rfl trivial hview ?_ (.write (holds_service.mpr hin))
    rw [exec, writeBuffer, if_pos hin, bind_of_ok hwrite]
    rfl
  · refine Refines.same h ?_ (.refused rfl fun hholds => hin (holds_service.mp hholds))
    rw [exec, writeBuffer, if_neg hin]
    rfl

theorem read_refines (h : Serves s0 s) (off len : Nat) : Refines p s0 s (.op (.read off len)) := by
  by_cases hin : s.inBuffer off len = true
  · have hread := read_view (m := s.m) h.fit.placed rfl (inBuffer_iff.mp hin).2
    refine Refines.same h ?_ (.read (holds_service.mpr hin))
    rw [exec, readBuffer, if_pos hin, bind_of_ok hread]
    rfl
  · refine Refines.same h ?_ (.refused rfl fun hholds => hin (holds_service.mp hholds))
    rw [exec, readBuffer, if_neg hin]
    rfl

/-- Inside the buffer the sums of the test do not wrap. -/
theorem accepts_copy {dstOff srcOff : Nat} (hp : Placed s) :
    s.service.Accepts (.copy dstOff srcOff len) ↔ (s.inBuffer dstOff len && s.inBuffer srcOff len &&
      decide (u64 (dstOff + len) ≤ srcOff ∨ u64 (srcOff + len) ≤ dstOff)) = true := by
  rw [Service.Accepts, holds_service, holds_service, Bool.and_eq_true, Bool.and_eq_true, decide_eq_true_eq,
    and_assoc]
  refine and_congr_right fun hdst => and_congr_right fun hsrc => ?_
  have hsize := hp.size_lt
  rw [inBuffer_iff] at hdst hsrc
  rw [u64_of_lt (by omega), u64_of_lt (by omega)]

theorem copy_refines (h : Serves s0 s) (dstOff srcOff len : Nat) :
    Refines p s0 s (.op (.copy dstOff srcOff len)) := by
  have hp := h.fit.placed
  by_cases haccepts : s.service.Accepts (.copy dstOff srcOff len)
  · have hin := (accepts_copy hp).mp haccepts
    obtain ⟨⟨-, hdst⟩, ⟨-, hsrc⟩, -⟩ := haccepts
    have hsize : s.service.bytes.length = s.bufferSize := length_view s s.m
    rw [hsize] at hdst hsrc
    have hread := read_view (m := s.m) hp rfl hsrc
    have hlen : (part (s.view s.m) srcOff len).length = len := length_part (by rw [length_view]; exact hsrc)
    have hroom : dstOff + (part (s.view s.m) srcOff len).length ≤ s.bufferSize := by
      rw [hlen]
      exact hdst
    obtain ⟨m, hwrite, -, hview, -⟩ := write_view (m := s.m) hp rfl _ hroom
    have hcopy : copy (s.addr dstOff) (s.addr srcOff) len s.m = .ok m := by
      rw [copy, bind_of_ok hread, hwrite]
    refine Refines.update h rfl trivial hview ?_ (.copy ((accepts_copy hp).mpr hin))
    rw [exec, copyBuffer]
    simp only [if_pos hin]
    rw [bind_of_ok hcopy]
    rfl
  · have hin := fun hin => haccepts ((accepts_copy hp).mpr hin)
    refine Refines.same h ?_ (.refused rfl haccepts)
    rw [exec, copyBuffer]
    simp only [if_neg hin]
    rfl

theorem compare_refines (h : Serves s0 s) (off1 off2 len : Nat) :
    Refines p s0 s (.op (.compare off1 off2 len)) := by
  by_cases hin : (s.inBuffer off1 len && s.inBuffer off2 len) = true
  · obtain ⟨hin1, hin2⟩ := Bool.and_eq_true_iff.mp hin
    have hread1 := read_view (m := s.m) h.fit.placed rfl (inBuffer_iff.mp hin1).2
    have hread2 := read_view (m := s.m) h.fit.placed rfl (inBuffer_iff.mp hin2).2
    refine Refines.same h ?_ (.compare ⟨holds_service.mpr hin1, holds_service.mpr hin2⟩)
    rw [exec, compareBuffer, if_pos hin, bind_of_ok hread1, bind_of_ok hread2]
    rfl
  · refine Refines.same h ?_ (.refused rfl fun hholds => hin ?_)
    · rw [exec, compareBuffer, if_neg hin]
      rfl
    · rw [Bool.and_eq_true]
      exact ⟨holds_service.mp hholds.1, holds_service.mp hholds.2⟩

end Bytes

/-! ## Operations on the maps -/

section Maps

variable {capacity : Nat} {A A' : Contents} {d : Digest256} {len tsc : Nat}

theorem load_cases {dst dst' : Nat → UInt8} {ret : Bool}
    (h : DuckCache.AbsStep capacity A (.load d dst len tsc) (.load ret dst') A') :
    A' = A ∧ ((ret = true ∧ ∃ b, A d = some b ∧ b.length = len ∧
        dst' = memcpy dst 0 (fun t => b.getD t 0) b.length) ∨
      ret = false ∧ dst' = dst ∧ ∀ b, A d = some b → b.length ≠ len) := by
  cases h with
  | loadHit hb => exact ⟨rfl, .inl ⟨rfl, _, hb, rfl, rfl⟩⟩
  | loadMiss hmiss => exact ⟨rfl, .inr ⟨rfl, rfl, hmiss⟩⟩

theorem store_cases {src : Nat → UInt8} {ret : Bool}
    (h : DuckCache.AbsStep capacity A (.store d src len tsc) (.store ret) A') :
    (ret = true ∧ A' = A ∧ ∃ b, A d = some b) ∨
      (ret = false ∧ A' = A ∧ A d = none ∧ capacity < DuckCache.pageCount len) ∨
      ret = true ∧ A d = none ∧ A' d = some (listOf src len) ∧ ∀ d', d' ≠ d → A' d' = A d' ∨ A' d' = none := by
  cases h with
  | storePresent hb => exact .inl ⟨rfl, rfl, _, hb⟩
  | storeRefused hnone hbig => exact .inr (.inl ⟨rfl, rfl, hnone, hbig⟩)
  | storeNew hnone hnew hold => exact .inr (.inr ⟨rfl, hnone, hnew, hold⟩)

end Maps

section Caches

variable {p : Platform} {s0 s : State} {c : Cache} {which : Which} {off len tsc : Nat} {name hex : List Char}

theorem cache_set (s : State) (c : Cache) (which : Which) :
    (s.setCache c which).cache = Function.update s.cache which c := by
  funext w
  cases which <;> cases w <;> rfl

theorem nTotalPages_set (h : c.contentPages = (s.cache which).contentPages) (w : Which) :
    ((s.setCache c which).cache w).nTotalPages = (s.cache w).nTotalPages := by
  rw [cache_set]
  by_cases hw : w = which
  · rw [hw, Function.update_self]
    simpa [Cache.contentPages] using congrArg List.length h
  · rw [Function.update_of_ne hw]

theorem contents_set (s : State) (c : Cache) (which : Which) :
    (fun w => ((s.setCache c which).cache w).contents) =
      Function.update (fun w => (s.cache w).contents) which c.contents := by
  funext w
  rw [cache_set]
  by_cases hw : w = which
  · rw [hw, Function.update_self, Function.update_self]
  · rw [Function.update_of_ne hw, Function.update_of_ne hw]

/-- A cache copies a string to a place in the buffer. -/
theorem view_place (hp : Placed s) (b : List UInt8) (h : off + b.length ≤ s.bufferSize) :
    s.view (place s.m (s.addr off)
      (memcpy (fun i => s.m.mem (s.addr off + i)) 0 (fun t => b.getD t 0) b.length)) =
      splice (s.view s.m) off b := by
  have hmem : ∀ i, (place s.m (s.addr off)
      (memcpy (fun i => s.m.mem (s.addr off + i)) 0 (fun t => b.getD t 0) b.length)).mem (s.buffer + i) =
        if off ≤ i ∧ i < off + b.length then b.getD (i - off) 0 else s.m.mem (s.buffer + i) := by
    intro i
    simp only [place, addr_of_le hp (show off ≤ s.bufferSize by omega), memcpy_zero]
    by_cases hoff : off ≤ i
    · obtain ⟨j, rfl⟩ := Nat.exists_eq_add_of_le hoff
      have hsub : s.buffer + (off + j) - (s.buffer + off) = j := by omega
      rw [if_pos (by omega), hsub, Nat.add_sub_cancel_left, Nat.add_assoc]
      by_cases hj : j < b.length
      · rw [if_pos hj, if_pos (by omega)]
      · rw [if_neg hj, if_neg (by omega)]
    · rw [if_neg (by omega), if_neg (by omega)]
  refine listOf_splice h ?_ ?_
  · refine (listOf_congr fun i hi => ?_).trans (listOf_getD b 0)
    rw [hmem, if_pos (by omega), Nat.add_sub_cancel_left]
  · intro i hi hout
    rw [hmem, if_neg (by omega)]

/-- The state after a load that found something. -/
theorem service_afterLoad {a : Nat} {dst : Nat → UInt8} {b : List UInt8} (c : Cache)
    (hcontents : c.contents = (s.cache which).contents)
    (hview : s.view (place s.m a dst) = splice (s.view s.m) off b) :
    (s.afterLoad which c a dst).service = { s.service with bytes := splice (s.view s.m) off b } := by
  have hmaps := contents_set s c which
  rw [hcontents, Function.update_eq_self] at hmaps
  rw [← hview, State.service, State.service, ← hmaps]
  cases which <;> rfl

/-- The digest and the name of a request are known. -/
theorem known_cases (name hex : List Char) : (digestFromHex hex = none ∨ cacheNamed name = none) ∨
    ∃ d which, digestFromHex hex = some d ∧ cacheNamed name = some which := by
  cases digestFromHex hex <;> cases cacheNamed name <;> simp

/-- **A load refines**: a hit splices the stored bytes into the buffer. -/
theorem loadCache_refines (h : Serves s0 s) (htsc : tsc ≠ 0) (hin : off + len ≤ s.bufferSize) :
    Refines p s0 s (.op (.loadCache name off len hex tsc)) := by
  rcases known_cases name hex with hunknown | ⟨d, which, hdigest, hwhich⟩
  · refine Refines.same h ?_ (.loadUnknown hunknown)
    rw [exec, loadCache]
    rcases hunknown with hnone | hnone
    · rw [hnone]
      rfl
    · rw [hnone]
      cases digestFromHex hex <;> rfl
  have hp := h.fit.placed
  have hlegal : DuckCache.Op.Legal (.load d (fun i => s.m.mem (s.addr off + i)) len tsc) := htsc
  obtain ⟨c, out, hstep, -, ⟨hpages, -⟩, habs, hidle⟩ :=
    DuckCache.step_refines p.sorter (h.fit.cache which).toInv hlegal
  obtain ⟨⟨c', ret, dst⟩, hload, hout⟩ := bind_ok hstep
  cases hout
  obtain ⟨hcontents, ⟨rfl, b, hb, rfl, hdst⟩ | ⟨rfl, hdst, hmiss⟩⟩ := load_cases habs
  · -- the bytes are copied, and in the cache only a time changes
    have hrun := exec_loadCache_of_ok (p := p) hdigest hwhich (plain_of_inside hp hin) hload
    have hview : s.view (place s.m (s.addr off) dst) = splice (s.view s.m) off b := by
      rw [hdst]
      exact view_place hp b hin
    have hsame : (s.afterLoad which c (s.addr off) dst).judgeResultCleared = s.judgeResultCleared := by
      cases which <;> rfl
    refine ⟨_, _, congrArg (Except.map _) hrun, ?_, ?_⟩
    · rw [service_clear h hsame (service_afterLoad c hcontents hview)]
      exact .loadHit hdigest hwhich hb
    · have htimed : Op.Timed (.loadCache name off b.length hex tsc) := htsc
      refine h.exec htimed (fun _ => (Op.inside_single rfl).mpr hin) hrun fun w => ?_
      rw [clearJudgeResult_cache, ← nTotalPages_set hpages w]
      cases which <;> cases w <;> rfl
  · have hc : c = s.cache which := hidle rfl
    refine Refines.same h ?_ (.loadMiss hdigest hwhich hmiss)
    rw [exec, loadCache, hdigest, hwhich]
    show (DuckCache.load _ _ _ _ _ >>= _).map _ = _
    rw [bind_of_ok hload, hc, hdst]
    exact congrArg (fun s => Except.ok (s, Out.done false)) (afterLoad_self which (s.addr off))

/-- **A store refines**: what is stored is a part of the buffer. -/
theorem storeCache_refines (h : Serves s0 s) (htsc : tsc ≠ 0) (hin : off + len ≤ s.bufferSize) :
    Refines p s0 s (.op (.storeCache name off len hex tsc)) := by
  rcases known_cases name hex with hunknown | ⟨d, which, hdigest, hwhich⟩
  · refine Refines.same h ?_ (.storeUnknown hunknown)
    rw [exec, storeCache]
    rcases hunknown with hnone | hnone
    · rw [hnone]
      rfl
    · rw [hnone]
      cases digestFromHex hex <;> rfl
  have hp := h.fit.placed
  have hsize := hp.size_lt
  have hlegal : DuckCache.Op.Legal (.store d (fun i => s.m.mem (s.addr off + i)) len tsc) :=
    ⟨by omega, htsc⟩
  obtain ⟨c, out, hstep, -, ⟨hpages, -⟩, habs, hidle⟩ :=
    DuckCache.step_refines p.sorter (h.fit.cache which).toInv hlegal
  obtain ⟨⟨c', ret⟩, hstore, hout⟩ := bind_ok hstep
  cases hout
  have hrun := exec_storeCache_of_ok (p := p) hdigest hwhich (plain_of_inside hp hin) hstore
  have hunchanged : c = s.cache which → exec p s (.storeCache name off len hex tsc) = .ok (s, .done ret) := by
    intro hc
    rw [hrun, hc, setCache_self]
  rcases store_cases habs with ⟨rfl, -, b, hb⟩ | ⟨rfl, -, hnone, hbig⟩ | ⟨rfl, hnone, hnew, hold⟩
  · refine Refines.same h (hunchanged (hidle (.inl ?_))) (.storePresent hdigest hwhich hb)
    rw [hb]
    exact Option.some_ne_none b
  · refine Refines.same h (hunchanged (hidle (.inr rfl))) (.storeRefused hdigest hwhich hnone ?_)
    show (s0.cache which).nTotalPages < _
    rw [← h.pages which]
    exact hbig
  · refine ⟨_, _, congrArg (Except.map _) hrun, ?_, ?_⟩
    · have hbytes : listOf (fun i => s.m.mem (s.addr off + i)) len = part (s.view s.m) off len := by
        rw [State.view, part_listOf _ hin]
        refine listOf_congr fun i _ => ?_
        rw [addr_of_le hp (by omega), Nat.add_assoc]
      have hservice : (s.setCache c which).service =
          { s.service with contents := Function.update s.service.contents which c.contents } := by
        rw [State.service, contents_set]
        cases which <;> rfl
      rw [hservice]
      exact .storeNew hdigest hwhich hnone (hnew.trans (congrArg some hbytes)) hold
    · have htimed : Op.Timed (.storeCache name off len hex tsc) := ⟨by omega, htsc⟩
      exact h.exec htimed (fun _ => (Op.inside_single rfl).mpr hin) hrun fun w => nTotalPages_set hpages w

end Caches

/-! ## Judging -/

/-- The start: there is room for programs of up to 4 GiB. -/
structure Roomy (s0 : State) : Prop where
  placed : Placed s0
  booted : Booted s0.m
  room : 2 ^ 32 < s0.m.vaddrBreak

section Requests

variable {s : State} {req : JudgeRequest} {b b' : BufferDesc}

theorem checkOverlap_iff (hsize : s.bufferSize < 2 ^ 64) (hb : b.Inside s.bufferSize)
    (hb' : b'.Inside s.bufferSize) : checkOverlap b b' = false ↔ b.Apart b' := by
  rw [BufferDesc.Inside] at hb hb'
  rw [checkOverlap, Bool.not_eq_false', decide_eq_true_eq, u64_of_lt (by omega), u64_of_lt (by omega)]
  rfl

/-- The quadratic test is exact. -/
theorem checkBuffers_iff (hsize : s.bufferSize < 2 ^ 64) {before bs : List BufferDesc}
    (hbefore : ∀ b ∈ before, b.Inside s.bufferSize) : checkBuffers s before bs = true ↔
      (∀ b ∈ bs, s.service.Holds b.off b.len) ∧ (∀ b ∈ bs, ∀ b' ∈ before, b.Apart b') ∧
        bs.Pairwise BufferDesc.Apart := by
  induction bs generalizing before with
  | nil => simp [checkBuffers]
  | cons b bs ih =>
    rw [checkBuffers, Bool.and_eq_true, Bool.and_eq_true, isValidBuffer, ← holds_service, List.all_eq_true,
      List.forall_mem_cons, List.forall_mem_cons, List.pairwise_cons, and_assoc, and_assoc]
    refine and_congr_right fun hholds => ?_
    have hb : b.Inside s.bufferSize := (inBuffer_iff.mp (holds_service.mp hholds)).2
    have hfar : (∀ b' ∈ before, (!checkOverlap b b') = true) ↔ ∀ b' ∈ before, b.Apart b' := by
      refine forall₂_congr fun b' hb' => ?_
      rw [Bool.not_eq_true', checkOverlap_iff hsize hb (hbefore b' hb')]
    have hnext : ∀ b' ∈ before ++ [b], b'.Inside s.bufferSize := by
      intro b' hb'
      rcases List.mem_append.mp hb' with hold | hnew
      · exact hbefore b' hold
      · rw [List.mem_singleton.mp hnew]
        exact hb
    rw [hfar, ih hnext]
    constructor
    · rintro ⟨hbefore, hall, hapart, hpairwise⟩
      refine ⟨hall, ⟨hbefore, fun c hc b' hb' => hapart c hc b' (List.mem_append_left _ hb')⟩, ?_, hpairwise⟩
      exact fun c hc => (hapart c hc b (by simp)).symm
    · rintro ⟨hall, ⟨hbefore, hapart⟩, hnew, hpairwise⟩
      refine ⟨hbefore, hall, fun c hc b' hb' => ?_, hpairwise⟩
      rcases List.mem_append.mp hb' with hold | hlast
      · exact hapart c hc b' hold
      · rw [List.mem_singleton.mp hlast]
        exact (hnew c hc).symm

/-- The checks of `judge` accept exactly the sane requests. -/
theorem sane_iff (hp : Placed s) : s.service.Sane req ↔ checkBuffers s [] req.buffers = true := by
  have hsize := hp.size_lt
  rw [checkBuffers_iff (by omega) fun b hb => absurd hb List.not_mem_nil, Service.Sane]
  simp

/-- The parts of a request that is sane are read from the buffer. -/
theorem request_service (hp : Placed s) (hsane : s.service.Sane req) :
    s.service.request req = elfRequest s req := by
  have hpart : ∀ b ∈ req.buffers, ∀ n, n ≤ b.len → part (s.view s.m) b.off n = s.bytes b.off n := by
    intro b hb n hn
    have hin : b.off + b.len ≤ s.bufferSize := (inBuffer_iff.mp (holds_service.mp (hsane.1 b hb))).2
    rw [State.view, part_listOf _ (by omega), State.bytes, addr_of_le hp (by omega)]
    exact listOf_congr fun i _ => by rw [Nat.add_assoc]
  have helf := hpart req.ELF (by simp [JudgeRequest.buffers]) _ (Nat.mod_le _ (2 ^ 32))
  have hstdin := hpart req.stdin (by simp [JudgeRequest.buffers]) _ le_rfl
  have hIB := hpart req.IB (by simp [JudgeRequest.buffers]) _ le_rfl
  have hOB := hpart req.OB (by simp [JudgeRequest.buffers]) _ le_rfl
  simp only [Service.request, elfRequest, State.service, helf, hstdin, hIB, hOB]

end Requests

section Judging

variable {p : Platform} {req : JudgeRequest} {u : Behaviour} {s0 s s' : State} {lay : Layout}
  {result : JudgeResult} {m : Machine}

theorem Serves.vaddrBreak (h : Serves s0 s) : s.m.vaddrBreak = s0.m.vaddrBreak := by
  obtain ⟨app?, hinv⟩ := h.tidy
  exact hinv.vaddrBreak

/-- What is left to show about a judge call. -/
theorem Serves.judge (h : Serves s0 s) (hstart : Roomy s0) (hjudge : judge p req u s = .ok (s', result))
    (htidy : Tidy s0 s') (hcleared : s'.judgeResultCleared = false) : Serves s0 s' := by
  have hcall : call p s (.judge req u) = .ok s' := congrArg (Except.map Prod.fst) hjudge
  have hapart := Call.pageApart_of_room (s := s) (.judge req u) (h.vaddrBreak ▸ hstart.room)
  have hcache := judge_cache (fun _ hlay => hapart.layout hlay) hjudge
  refine ⟨h.fit.call h.runs hstart.placed hapart trivial hcall, h.runs.call hstart.placed hcall, htidy,
    ?_, fun which => ?_⟩
  · rw [hcleared]
    exact fun hfalse => absurd hfalse Bool.false_ne_true
  · rw [hcache]
    exact h.pages which

/-- There is nothing that a load could stumble over. -/
theorem Serves.ready (h : Serves s0 s) (hstart : Roomy s0) {r : Elf.Request}
    (hlay : Elf.layout32 s.m.vaddrBreak r = some lay) : Elf.Ready s.m lay := by
  have hspecial := (Elf.layout32_fits hlay).le_vaddrBreak
  have habove := h.fit.placed.above
  have hfits := h.fit.placed.fits
  have hpage : pageSize ≤ hugePageSize := by decide
  refine ⟨?_, fun _ => by omega, by omega⟩
  rw [h.vaddrBreak]
  exact Nat.dvd_trans (by decide) hstart.booted.dvd_break

/-- A program with a layout is loaded, and it ends below the room that there is. -/
theorem Serves.load_of_layout {lay : Elf.Layout} (h : Serves s0 s) (hstart : Roomy s0)
    (hlay : Elf.layout32 s.m.vaddrBreak (elfRequest s req) = some lay) :
    Elf.load p.kernel s.m (elfRequest s req) =
        .ok (Elf.loaded p.kernel (elfRequest s req) lay s.m, some (Elf.appOf (elfRequest s req) lay)) ∧
      (Elf.appOf (elfRequest s req) lay).specialRegionBreakAddr ≠ s.m.vaddrBreak := by
  refine ⟨(Elf.load_of_layout hlay).trans (Elf.loadElf32_of_ready hlay (h.ready hstart hlay)), ?_⟩
  have h4g := (Elf.layout32_fits hlay).le_4g
  have hroom := hstart.room
  rw [← h.vaddrBreak] at hroom
  exact Nat.ne_of_lt (Nat.lt_of_le_of_lt h4g hroom)

/-- The ways through the first part, by what the request comes to. -/
theorem judgeLoad_of_verdict (h : Serves s0 s) (hstart : Roomy s0) (hseq : req.seqNum ≠ s.judgeSeqNum) :
    (∃ error, s.service.verdict (s0.site p) req u = .error error ∧
        judgeLoad p req s = early (fail (beginJudge req s) error)) ∨
      ∃ lay s1, s1 = { beginJudge req s with m := Elf.loaded p.kernel (elfRequest s req) lay s.m } ∧
        Loads p req s s1 lay ∧ judgeLoad p req s = .ok (s1, .inr (Elf.appOf (elfRequest s req) lay)) ∧
        s.service.verdict (s0.site p) req u = .ok (resultOf req (Elf.outcome p.kernel (elfRequest s req) lay u),
          Service.outputs p.kernel req (elfRequest s req) lay u) := by
  have hp := h.fit.placed
  have hroom : (s0.site p).room = s.m.vaddrBreak := h.vaddrBreak.symm
  have hcheck : checkBuffers (beginJudge req s) [] req.buffers = checkBuffers s [] req.buffers :=
    checkBuffers_congr rfl _ _
  rw [judgeLoad, if_neg hseq, Service.verdict]
  simp only
  rw [← beginJudge, elfRequest_begin, hcheck]
  by_cases hlimit : u64 (req.memoryHardLimitKb * 1024) < req.memoryHardLimitKb
  · exact .inl ⟨"Can't load ELF", if_pos hlimit, if_pos hlimit⟩
  rw [if_neg hlimit, if_neg hlimit]
  by_cases hsane : s.service.Sane req
  swap
  · have hfailed : (!checkBuffers s [] req.buffers) = true := by
      rw [Bool.not_eq_true', ← Bool.not_eq_true, ← sane_iff hp]
      exact hsane
    exact .inl ⟨"Can't load ELF", if_pos hsane, if_pos hfailed⟩
  have hpassed : ¬ (!checkBuffers s [] req.buffers) = true := by
    rw [(sane_iff hp).mp hsane]
    decide
  rw [if_neg (not_not.mpr hsane), if_neg hpassed]
  by_cases htime : req.timeLimitNs = 0 ∨ req.timeLimitNs > maxTimeLimitNs
  · exact .inl ⟨"Invalid time limit", if_pos htime, if_pos htime⟩
  rw [if_neg htime, if_neg htime, request_service hp hsane, hroom]
  cases hlay : Elf.layout32 s.m.vaddrBreak (elfRequest s req) with
  | none =>
    obtain ⟨m', app?, hload⟩ := Elf.exists_load p.kernel (m := s.m) (r := elfRequest s req)
      fun lay hlay => h.ready hstart hlay
    refine .inl ⟨"Can't load ELF", rfl, ?_⟩
    rcases Elf.load_cases hload with ⟨hm, happ⟩ | ⟨lay, hsome, -⟩
    · rw [bind_of_ok hload, hm, happ]
      rfl
    · rw [hlay] at hsome
      cases hsome
  | some lay =>
    have hloads : Loads p req s _ lay :=
      ⟨Nat.le_of_not_lt hlimit, (sane_iff hp).mp hsane, hlay, h.ready hstart hlay, s.dataCache, rfl⟩
    refine .inr ⟨lay, _, rfl, hloads, ?_, rfl⟩
    obtain ⟨hload, hbelow⟩ := h.load_of_layout hstart hlay
    rw [bind_of_ok hload]
    simp only [if_neg hbelow]
    rfl

/-- Bytes from below the buffer are copied into it. -/
theorem copy_view {off src len : Nat} (hp : Placed s) (hm : m.mapped = s.m.mapped)
    (h : off + len ≤ s.bufferSize) (hsrc : src + len ≤ s.buffer) :
    ∃ m', copy (s.addr off) src len m = .ok m' ∧ SameTables m m' ∧
      s.view m' = splice (s.view m) off (listOf (fun i => m.mem (src + i)) len) ∧
      ∀ a, a < s.buffer → m'.mem a = m.mem a := by
  have hfits := hp.fits
  have hread : read m src len = .ok (listOf (fun i => m.mem (src + i)) len) := by
    rw [read, hm, if_neg (by omega)]
  obtain ⟨m', hwrite, hrest⟩ := write_view hp hm (listOf (fun i => m.mem (src + i)) len)
    (by rw [length_listOf]; exact h)
  refine ⟨m', ?_, hrest⟩
  rw [copy, bind_of_ok hread, hwrite]

/-- Where the bytes of an output are, and where they go. -/
def outputOf (m : Machine) (off ptr len : Nat) : Nat × List UInt8 := (off, listOf (fun i => m.mem (ptr + i)) len)

/-- What is done after a program was run: sources are below the buffer, so no copy changes what a later one
    reads. -/
theorem judgeRun_view {app : App} {res : Elf.RunResult} (hp : Placed s) (hm : m.mapped = s.m.mapped)
    (hrun : Elf.run p.kernel app u s.m = .ok (m, res))
    (hdst : req.stdout.off + res.stdoutSize ≤ s.bufferSize ∧ req.stderr.off + res.stderrSize ≤ s.bufferSize ∧
      req.OB.off + req.OB.len ≤ s.bufferSize)
    (hsrc : res.stdoutPtr + res.stdoutSize ≤ s.buffer ∧ res.stderrPtr + res.stderrSize ≤ s.buffer ∧
      res.OBPtr + req.OB.len ≤ s.buffer) :
    ∃ m', judgeRun p req u app s = .ok ({ s with
          m := m', judgeResult := resultOf req res, totalTimeNs := u64 (s.totalTimeNs + (resultOf req res).timeNs) },
        resultOf req res) ∧ SameTables m m' ∧
      s.view m' = spliceAll (s.view m) [outputOf m req.stdout.off res.stdoutPtr res.stdoutSize,
        outputOf m req.stderr.off res.stderrPtr res.stderrSize, outputOf m req.OB.off res.OBPtr req.OB.len] ∧
      ∀ a, a < s.buffer → m'.mem a = m.mem a := by
  obtain ⟨m1, hcopy1, htables1, hview1, hmem1⟩ := copy_view hp hm hdst.1 hsrc.1
  obtain ⟨m2, hcopy2, htables2, hview2, hmem2⟩ :=
    copy_view hp (htables1.mapped.trans hm) hdst.2.1 hsrc.2.1
  obtain ⟨m3, hcopy3, htables3, hview3, hmem3⟩ :=
    copy_view hp (htables2.mapped.trans (htables1.mapped.trans hm)) hdst.2.2 hsrc.2.2
  have hmem2' : ∀ a, a < s.buffer → m2.mem a = m.mem a := fun a ha => (hmem2 a ha).trans (hmem1 a ha)
  refine ⟨m3, ?_, (htables1.trans htables2).trans htables3, ?_, fun a ha => (hmem3 a ha).trans (hmem2' a ha)⟩
  · rw [judgeRun, bind_of_ok hrun]
    simp only
    rw [bind_of_ok hcopy1, bind_of_ok hcopy2, bind_of_ok hcopy3]
  · have hsame2 : listOf (fun i => m1.mem (res.stderrPtr + i)) res.stderrSize =
        listOf (fun i => m.mem (res.stderrPtr + i)) res.stderrSize :=
      listOf_congr fun i hi => hmem1 _ (by omega)
    have hsame3 : listOf (fun i => m2.mem (res.OBPtr + i)) req.OB.len =
        listOf (fun i => m.mem (res.OBPtr + i)) req.OB.len :=
      listOf_congr fun i hi => hmem2' _ (by omega)
    rw [hview3, hview2, hview1, hsame2, hsame3]
    rfl

/-- Neither the load nor the run changes the buffer. -/
theorem Loads.view_run {s1 : State} {res : Elf.RunResult} (hl : Loads p req s s1 lay) (h : Serves s0 s)
    (hstart : Roomy s0) (hrun : Elf.run p.kernel (Elf.appOf (elfRequest s req) lay) u s1.m = .ok (m, res)) :
    s.view m = s.view s.m := by
  obtain ⟨s', result, m', -, hj⟩ := hl.judgeRun u h.fit.placed
  obtain ⟨t, res', ht, hrun'⟩ := hj.ran
  rw [ht.m_eq, ← hl.m_eq, hrun] at hrun'
  cases hrun'
  exact listOf_congr fun i _ => hj.buffer_kept h.runs hstart.placed i

/-- The outputs have their places in the memory of the program. -/
theorem Loads.rooms {s1 : State} (hl : Loads p req s s1 lay) :
    lay.stdinBreak + req.stdout.len ≤ lay.stdoutBreak ∧ lay.stdoutBreak + req.stderr.len ≤ lay.stderrBreak ∧
      lay.IBBreak + req.OB.len ≤ lay.specialRegionBreak := by
  have hfits := Elf.layout32_fits hl.layout
  refine ⟨hfits.stdout_le, hfits.stderr_le, ?_⟩
  have hle := hfits.OB_le
  rwa [show (elfRequest s req).config.OB.length = req.OB.len from length_listOf _ _] at hle

/-- **The second part**: the program runs, and its outputs are written to the buffer. -/
theorem judgeRun_service {s1 : State} (hl : Loads p req s s1 lay) (h : Serves s0 s) (hstart : Roomy s0)
    (u : Behaviour) : ∃ m', judgeRun p req u (Elf.appOf (elfRequest s req) lay) s1 =
        .ok ({ s1 with
            m := m', judgeResult := resultOf req (Elf.outcome p.kernel (elfRequest s req) lay u)
            totalTimeNs := u64 (s1.totalTimeNs +
              (resultOf req (Elf.outcome p.kernel (elfRequest s req) lay u)).timeNs) },
          resultOf req (Elf.outcome p.kernel (elfRequest s req) lay u)) ∧
      s.view m' = spliceAll (s.view s.m) (Service.outputs p.kernel req (elfRequest s req) lay u) ∧
      ∃ app?, Elf.Inv s0.m (m', app?) := by
  obtain ⟨hp1, -, hinside, hapart⟩ := hl.fits h.fit.placed
  obtain ⟨⟨hout, herr, hOB⟩, -⟩ := outputs_apart hinside hapart
  rw [BufferDesc.Inside] at hout herr hOB
  obtain ⟨app?, hinv⟩ := h.tidy
  have hfits := Elf.layout32_fits hl.layout
  obtain ⟨m, hrun, hfinal⟩ := Elf.run_loaded (k := p.kernel) hinv hfits hl.ready u
  have hinv1 := (hinv.load (k := p.kernel) hl.layout hl.ready).run hrun
  rw [← hl.m_eq] at hrun
  have hmapped : m.mapped = s1.m.mapped := by
    rw [Elf.run_spec hrun]
    rfl
  have hbytes : ∀ n, s1.view n = s.view n := by
    intro n
    rw [State.view, State.view, hl.buffer.1, hl.buffer.2]
  -- the sizes are within the limits, and the outputs within the regions of the program
  have hsize1 : (Elf.outcome p.kernel (elfRequest s req) lay u).stdoutSize ≤ req.stdout.len := Nat.min_le_left _ _
  have hsize2 : (Elf.outcome p.kernel (elfRequest s req) lay u).stderrSize ≤ req.stderr.len := Nat.min_le_left _ _
  have hord := hfits.ordered
  obtain ⟨hroom1, hroom2, hroom3⟩ := hl.rooms
  have hbelow : lay.specialRegionBreak ≤ s1.buffer := by
    have hspecial := hfits.le_vaddrBreak
    have habove := h.fit.placed.above
    rw [hl.buffer.1]
    omega
  have houtput : ∀ off ptr n, Elf.loadVaddrStart ≤ ptr → ptr + n ≤ lay.specialRegionBreak →
      outputOf m off ptr n = (off, listOf (fun i => Elf.finalByte p.kernel (elfRequest s req) lay u (ptr + i)) n) :=
    fun off ptr n hstart hend => congrArg _ (listOf_congr fun i hi => hfinal _ (by omega) (by omega))
  obtain ⟨m', hjudge, htables, hview, hframe⟩ := judgeRun_view hp1 hmapped hrun
    ⟨(by omega : req.stdout.off + _ ≤ _), (by omega : req.stderr.off + _ ≤ _), hOB⟩
    ⟨(by omega : lay.stdinBreak + _ ≤ _), (by omega : lay.stdoutBreak + _ ≤ _), (by omega : lay.IBBreak + _ ≤ _)⟩
  refine ⟨m', hjudge, ?_, ?_⟩
  · rw [← hbytes, hview, hbytes, hl.view_run h hstart hrun, Service.outputs]
    simp only
    rw [← houtput _ lay.stdinBreak _ (by omega) (by omega), ← houtput _ lay.stdoutBreak _ (by omega) (by omega),
      ← houtput _ lay.IBBreak _ (by omega) (by omega)]
    rfl
  · have htidy : Tidy s0 { s1 with m := m } := ⟨_, hinv1⟩
    have habove : m.vaddrBreak ≤ s1.buffer := by
      have hbreak : m.vaddrBreak = s0.m.vaddrBreak := hinv1.vaddrBreak
      rw [hbreak, ← h.vaddrBreak, hl.buffer.1]
      exact Nat.le_of_add_right_le h.fit.placed.above
    show Tidy s0 { s1 with m := m' }
    exact htidy.of_frame habove htables hframe

/-- **A judge request** comes to what the service says. -/
theorem judge_service (h : Serves s0 s) (hstart : Roomy s0) (req : JudgeRequest) (u : Behaviour) :
    ∃ s' result, judge p req u s = .ok (s', result) ∧
      s.service.judge (s0.site p) req u = (s'.service, result) ∧ Serves s0 s' := by
  by_cases hseq : req.seqNum = s.judgeSeqNum
  · have hload : judgeLoad p req s = .ok (s, .inl s.judgeResult) := if_pos hseq
    exact ⟨s, s.judgeResult, bind_of_ok hload, if_pos hseq, h⟩
  have hservice : s.service.judge (s0.site p) req u = _ := if_neg hseq
  rcases judgeLoad_of_verdict (p := p) (u := u) h hstart hseq with ⟨error, hverdict, hload⟩ |
    ⟨lay, s1, hs1, hl, hload, hverdict⟩
  · rw [hverdict] at hservice
    have hjudge : judge p req u s = .ok (fail (beginJudge req s) error) := bind_of_ok hload
    exact ⟨_, _, hjudge, hservice, h.judge hstart hjudge h.tidy rfl⟩
  · rw [hverdict] at hservice
    obtain ⟨m', hrun, hview, htidy⟩ := judgeRun_service hl h hstart u
    have hjudge : judge p req u s = .ok _ := (bind_of_ok hload).trans hrun
    refine ⟨_, _, hjudge, ?_, h.judge hstart hjudge htidy ?_⟩
    · rw [hservice]
      simp only
      rw [show s.service.bytes = s.view s.m from rfl, ← hview, hs1]
      rfl
    · rw [hs1]
      rfl

end Judging

/-! ## Runs -/

section Runs

variable {p : Platform} {m0 : Machine} {rawElf rawData : Cache} {s0 s : State}

/-- **Every call** is a step of the service. -/
theorem Refines.perform {c : Call} (h : Serves s0 s) (hstart : Roomy s0) (htimed : c.Timed)
    (hinside : c.Inside s.bufferSize) : Refines p s0 s c := by
  cases c with
  | op op =>
    cases op with
    | clear off len => exact clear_refines h off len
    | read off len => exact read_refines h off len
    | write off data => exact write_refines h off data
    | copy dstOff srcOff len => exact copy_refines h dstOff srcOff len
    | compare off1 off2 len => exact compare_refines h off1 off2 len
    | loadCache name off len hex tsc =>
      exact loadCache_refines h htimed ((Op.inside_single rfl).mp (hinside rfl))
    | storeCache name off len hex tsc =>
      exact storeCache_refines h htimed.2 ((Op.inside_single rfl).mp (hinside rfl))
  | judge req u =>
    obtain ⟨s', result, hjudge, hservice, h'⟩ := judge_service (p := p) h hstart req u
    have hstep : Service.Step (s0.site p) s.service (.judge req u) _ _ := .judge
    rw [hservice] at hstep
    refine ⟨s', .judge result, ?_, hstep, h'⟩
    rw [Judger.perform, hjudge]
    rfl

/-- **Every sequence of calls** is a run of the service. -/
theorem performAll_refines {calls : List Call} (h : Serves s0 s) (hstart : Roomy s0)
    (hcalls : ∀ c ∈ calls, c.Timed ∧ c.Inside s0.bufferSize) :
    ∃ s' rs, performAll p s calls = .ok (s', rs) ∧ Service.Run (s0.site p) s.service calls rs s'.service ∧
      Serves s0 s' := by
  induction calls generalizing s with
  | nil => exact ⟨s, [], rfl, .nil, h⟩
  | cons c calls ih =>
    obtain ⟨⟨htimed, hinside⟩, hrest⟩ := List.forall_mem_cons.mp hcalls
    rw [← h.runs.bufferSize] at hinside
    obtain ⟨s1, r, hperform, hstep, h1⟩ := Refines.perform (p := p) h hstart htimed hinside
    obtain ⟨s2, rs, hall, hrun, h2⟩ := ih h1 hrest
    refine ⟨s2, r :: rs, ?_, .cons hstep hrun, h2⟩
    rw [performAll, bind_of_ok hperform]
    simp only
    rw [bind_of_ok hall]

/-- What `init` leaves serves. -/
theorem init_serves (hboot : Booted m0) (h : init rawElf rawData m0 = .ok s0) : Serves s0 s0 := by
  have hstarted := init_started hboot h
  obtain ⟨-, hseq, hresult⟩ := hstarted.fresh
  exact ⟨init_fit hboot h, ⟨rfl, rfl, none, .init hstarted.booted⟩, ⟨none, .init hstarted.booted⟩,
    fun _ => ⟨hseq, hresult⟩, fun _ => rfl⟩

theorem init_roomy (hboot : Booted m0) (h : init rawElf rawData m0 = .ok s0) (hroom : 2 ^ 32 < s0.m.vaddrBreak) :
    Roomy s0 :=
  ⟨(init_started hboot h).placed, (init_started hboot h).booted, hroom⟩

/-- The service starts with zeros and nothing else. -/
theorem init_service (hboot : Booted m0) (h : init rawElf rawData m0 = .ok s0) :
    s0.service = .fresh s0.bufferSize := by
  have hstarted := init_started hboot h
  have hbytes : s0.view s0.m = List.replicate s0.bufferSize 0 := by
    refine List.eq_replicate_iff.mpr ⟨length_view _ _, fun b hb => ?_⟩
    obtain ⟨i, hi, rfl⟩ := mem_listOf.mp hb
    exact hstarted.zero i hi
  have hempty : (fun which => (s0.cache which).contents) = fun _ _ => none := by
    funext which d
    refine DuckCache.contents_eq_none.mpr fun o ho => ?_
    have hzero : (s0.cache which).nCurObjects = 0 := by
      cases which
      · exact hstarted.empty.1
      · exact hstarted.empty.2
    rw [Cache.objects, hzero] at ho
    exact absurd ho List.not_mem_nil
  obtain ⟨-, hseq, hresult⟩ := hstarted.fresh
  have hcounts : s0.nJudges = 0 ∧ s0.totalTimeNs = 0 := by
    obtain ⟨⟨m1, buffer⟩, -, h⟩ := bind_ok h
    obtain ⟨m2, -, h⟩ := bind_ok h
    obtain ⟨⟨m3, elfCache⟩, -, h⟩ := bind_ok h
    obtain ⟨⟨m4, dataCache⟩, -, h⟩ := bind_ok h
    cases h
    exact ⟨rfl, rfl⟩
  rw [State.service, hbytes, hempty, hcounts.1, hcounts.2, hseq, hresult]
  rfl

end Runs

/-- **The judger is a service**: after `init`, every sequence of calls returns, and what the calls return is
    what the service returns, as long as there is room for programs of up to 4 GiB and cache requests stay
    inside the buffer. -/
theorem judger_is_service (p : Platform) (m0 : Machine) (rawElf rawData : Cache) (s0 : State)
    (calls : List Call) (hinit : AfterInit m0) (hjudger : init rawElf rawData m0 = .ok s0)
    (hroom : 2 ^ 32 < s0.m.vaddrBreak) (hcalls : ∀ c ∈ calls, c.Timed ∧ c.Inside s0.bufferSize) :
    ∃ s rs, performAll p s0 calls = .ok (s, rs) ∧
      Service.Run (s0.site p) (.fresh s0.bufferSize) calls rs s.service := by
  obtain ⟨s, rs, hall, hrun, -⟩ := performAll_refines (p := p) (init_serves hinit.booted hjudger)
    (init_roomy hinit.booted hjudger hroom) hcalls
  rw [init_service hinit.booted hjudger] at hrun
  exact ⟨s, rs, hall, hrun⟩

/-- Two bytes go to a cache and come back, and a program is judged. -/
theorem judger_is_service_large : ∃ m0 s0, AfterInit m0 ∧ init DuckCache.zeros DuckCache.zeros m0 = .ok s0 ∧
    2 ^ 32 < s0.m.vaddrBreak ∧ ∃ s rs, performAll somePlatform s0 [.op (.write 0 [1, 2]),
        .op (.storeCache ['e', 'l', 'f'] 0 2 zeroHex 1), .op (.clear 0 2),
        .op (.loadCache ['e', 'l', 'f'] 0 2 zeroHex 2), .judge tinyRequest idle] = .ok (s, rs) ∧
      Service.Run (s0.site somePlatform) (.fresh s0.bufferSize) [.op (.write 0 [1, 2]),
        .op (.storeCache ['e', 'l', 'f'] 0 2 zeroHex 1), .op (.clear 0 2),
        .op (.loadCache ['e', 'l', 'f'] 0 2 zeroHex 2), .judge tinyRequest idle] rs s.service := by
  obtain ⟨m0, s0, hinit, hjudger, hroom, hsize⟩ := exists_large
  refine ⟨m0, s0, hinit, hjudger, hroom,
    judger_is_service somePlatform m0 DuckCache.zeros DuckCache.zeros s0 _ hinit hjudger hroom ?_⟩
  rw [hsize]
  simp [Call.Timed, Op.Timed, Call.Inside, Op.cached, Op.Inside, Op.ranges]

end JudgeDuck.Judger
