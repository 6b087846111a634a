/-
  Doing an operation again.

  A client that misses a reply sends its request again, so every operation may be carried out twice.
  Carried out again right away, an operation returns what it returned, and what it leaves is the same
  up to the times at which cached objects were used last (`exec_replay`, `judge_replay`): bytes are written
  where they are already, an object that was stored is found, and a judge request finds its own result.

  The caches have to be sound for that: a stored object must be found again.  They are after `init`
  (`init_fit`), and every operation keeps them so (`Fit.exec`); a judge call does if the page of its file
  is not in the data cache (`Call.PageApart`).  With sound caches the calls that return are those that
  do not make a cache copy to or from other memory than the buffer and the pages of programs
  (`call_returns_iff`).
-/
import JudgeDuck.DuckCache.Stores
import JudgeDuck.Judger.Session

namespace JudgeDuck.Judger

open JudgeDuck.Lib JudgeDuck.Memory
open JudgeDuck.DuckCache (Cache Digest256 Sound Inv pageSize hugePageSize)
open JudgeDuck.Elf (Behaviour)

/-! ## Up to times -/

/-- A cache without the times of last use. -/
def untimedCache (c : Cache) : Cache :=
  { c with objMetadata := fun i => (c.objMetadata i).invalidate }

/-- A state without the times of last use. -/
def State.untimed (s : State) : State :=
  { s with elfCache := untimedCache s.elfCache, dataCache := untimedCache s.dataCache }

theorem untimedCache_touch (c : Cache) (idx tsc : Nat) : untimedCache (c.touch idx tsc) = untimedCache c := by
  have hmetadata : (fun i => ((c.touch idx tsc).objMetadata i).invalidate) =
      fun i => (c.objMetadata i).invalidate := by
    funext i
    by_cases hi : i = idx
    · subst hi
      simp [Cache.touch, DuckCache.Metadata.invalidate]
    · simp [Cache.touch, hi]
  rw [untimedCache, hmetadata]
  rfl

/-- The same operation at another time. -/
def Op.retimed (tsc : Nat) : Op → Op
  | .loadCache name off len hex _ => .loadCache name off len hex tsc
  | .storeCache name off len hex _ => .storeCache name off len hex tsc
  | op => op

/-- The clock does not read zero, and the length of a store is a 64-bit word. -/
def Op.Timed : Op → Prop
  | .loadCache _ _ _ _ tsc => tsc ≠ 0
  | .storeCache _ _ len _ tsc => len < 2 ^ 64 ∧ tsc ≠ 0
  | _ => True

/-- The buffer is in its place, and the caches are sound. -/
structure Fit (s : State) : Prop where
  placed : Placed s
  elf : Sound s.elfCache
  data : Sound s.dataCache

theorem Fit.cache {s : State} (h : Fit s) : ∀ which, Sound (s.cache which)
  | .elf => h.elf
  | .data => h.data

/-! ## Writing again -/

section Writing

variable {s s1 : State} {m m1 : Machine}

theorem stored_again (m : Machine) (w : Write UInt8) : (m.stored w).stored w = m.stored w := by
  have hmem : store 0 (store 0 m.mem w) w = store 0 m.mem w := by
    funext i
    rw [store_apply, store_apply]
    split <;> rfl
  have htouched : (fun q => (m.touched q || decide (overlaps w q)) || decide (overlaps w q)) =
      fun q => m.touched q || decide (overlaps w q) := by
    funext q
    rw [Bool.or_assoc, Bool.or_self]
  rw [Machine.stored, Machine.stored, hmem, htouched]

theorem write_again {a : Nat} {bytes : List UInt8} (h : m.write a bytes = .ok m1) :
    m1.write a bytes = .ok m1 := by
  obtain ⟨hfits, rfl⟩ := (Machine.write_iff (w := ⟨a, bytes⟩)).mp h
  refine (Machine.write_iff (w := ⟨a, bytes⟩)).mpr ⟨hfits, ?_⟩
  rw [stored_again]

/-- A write does not change what is read elsewhere. -/
theorem read_write {a a' len : Nat} {bytes data : List UInt8} (h : m.write a bytes = .ok m1)
    (hapart : a' + len ≤ a ∨ a + bytes.length ≤ a') (hread : read m a' len = .ok data) :
    read m1 a' len = .ok data := by
  obtain ⟨-, rfl⟩ := (Machine.write_iff (w := ⟨a, bytes⟩)).mp h
  rw [read] at hread ⊢
  rw [Machine.stored_mapped]
  split at hread
  · cases hread
  · rename_i hfits
    rw [if_neg hfits, ← hread]
    refine congrArg Except.ok (listOf_congr fun i hi => ?_)
    have hcovers : Write.covers ⟨a, bytes⟩ (a' + i) = false := by
      rw [Write.covers, decide_eq_false_iff_not]
      rintro ⟨hlow, hhigh⟩
      change a ≤ a' + i at hlow
      change a' + i < a + bytes.length at hhigh
      omega
    show store 0 m.mem ⟨a, bytes⟩ (a' + i) = m.mem (a' + i)
    rw [store_apply, hcovers]
    rfl

theorem copy_again {dst src len : Nat} (hapart : src + len ≤ dst ∨ dst + len ≤ src)
    (h : copy dst src len m = .ok m1) : copy dst src len m1 = .ok m1 := by
  obtain ⟨bytes, hread, hwrite⟩ := bind_ok h
  have hlen : bytes.length = len := by
    rw [read] at hread
    split at hread
    · cases hread
    · cases hread
      exact length_listOf _ _
  have hread1 := read_write hwrite (by rw [hlen]; exact hapart) hread
  rw [copy, bind_of_ok hread1]
  exact write_again hwrite

theorem clearJudgeResult_again (s : State) :
    clearJudgeResult { clearJudgeResult s with m := s.m } = clearJudgeResult s := by
  cases hcleared : s.judgeResultCleared with
  | true =>
    have hself : clearJudgeResult s = s := if_pos hcleared
    rw [hself]
    exact hself
  | false =>
    have hnew : clearJudgeResult s = { s with
        judgeResultCleared := true, judgeSeqNum := 2 ^ 64 - 1, judgeResult := notJudged } :=
      if_neg (by rw [hcleared]; decide)
    rw [hnew]
    exact if_pos rfl

/-- An operation that tests its ranges, writes, and forgets the result of the judger. -/
theorem update_again {inRange ret : Bool} {W : Machine → Except Fault Machine}
    (hW : ∀ m1, W s.m = .ok m1 → W m1 = .ok m1)
    (h : (if inRange = true then W s.m >>= fun m => .ok (clearJudgeResult { s with m }, true)
      else .ok (s, false)) = .ok (s1, ret)) :
    (if inRange = true then W s1.m >>= fun m => .ok (clearJudgeResult { s1 with m }, true)
      else .ok (s1, false)) = .ok (s1, ret) := by
  split at h
  · rename_i hrange
    obtain ⟨m, hm, h⟩ := bind_ok h
    cases h
    have hs1 : (clearJudgeResult { s with m }).m = m := clearJudgeResult_m
    rw [if_pos hrange, hs1, bind_of_ok (hW m hm), clearJudgeResult_again { s with m }]
  · rename_i hrange
    cases h
    rw [if_neg hrange]

end Writing

/-! ## The operations again -/

section Operations

variable {p : Platform} {s s1 : State} {off len tsc : Nat}

theorem inBuffer_congr (h : Effect s s1) : s1.inBuffer off len = s.inBuffer off len := by
  rw [State.inBuffer, State.inBuffer, h.buffer.2]

theorem addr_congr (h : Effect s s1) : s1.addr off = s.addr off := by
  rw [State.addr, State.addr, h.buffer.1]

/-- The operations one by one, done a second time. -/
theorem clear_again {ret : Bool} (h : clearBuffer off len s = .ok (s1, ret)) :
    clearBuffer off len s1 = .ok (s1, ret) := by
  have heffect : Effect s s1 := .of_update (fun m hm => .of_write hm) h
  rw [clearBuffer, inBuffer_congr heffect, addr_congr heffect]
  exact update_again (W := fun m => m.write (s.addr off) (List.replicate len 0))
    (fun m1 hm => write_again hm) h

theorem writeBuffer_again {data : List UInt8} {ret : Bool} (h : writeBuffer off data s = .ok (s1, ret)) :
    writeBuffer off data s1 = .ok (s1, ret) := by
  have heffect : Effect s s1 := .of_update (fun m hm => .of_write hm) h
  rw [writeBuffer, inBuffer_congr heffect, addr_congr heffect]
  exact update_again (W := fun m => m.write (s.addr off) data) (fun m1 hm => write_again hm) h

theorem copyBuffer_again {dstOff srcOff : Nat} {ret : Bool} (hp : Placed s)
    (h : copyBuffer dstOff srcOff len s = .ok (s1, ret)) :
    copyBuffer dstOff srcOff len s1 = .ok (s1, ret) := by
  have heffect : Effect s s1 := .of_update (fun m hm => .of_copy hm) h
  rw [copyBuffer, inBuffer_congr heffect, inBuffer_congr heffect, addr_congr heffect, addr_congr heffect]
  by_cases hrange : (s.inBuffer dstOff len && s.inBuffer srcOff len &&
      decide (u64 (dstOff + len) ≤ srcOff ∨ u64 (srcOff + len) ≤ dstOff)) = true
  · refine update_again (W := copy (s.addr dstOff) (s.addr srcOff) len) (fun m1 hm => copy_again ?_ hm) h
    rw [Bool.and_eq_true, Bool.and_eq_true, decide_eq_true_eq, inBuffer_iff, inBuffer_iff] at hrange
    obtain ⟨⟨hdst, hsrc⟩, hapart⟩ := hrange
    have hsize := hp.size_lt
    rw [u64_of_lt (by omega), u64_of_lt (by omega)] at hapart
    rw [addr_of_le hp (by omega), addr_of_le hp (by omega)]
    omega
  · rw [copyBuffer] at h
    simp only [if_neg hrange] at h ⊢
    cases h
    rfl

theorem place_self (m : Machine) (a : Nat) : place m a (fun i => m.mem (a + i)) = m := by
  have hmem : (place m a fun i => m.mem (a + i)).mem = m.mem := by
    funext i
    simp only [place]
    split
    · next hi => rw [Nat.add_sub_cancel' hi]
    · rfl
  rw [Machine.mk.injEq]
  exact ⟨rfl, rfl, rfl, hmem, rfl⟩

theorem place_mem (m : Machine) (a : Nat) (dst : Nat → UInt8) :
    (fun i => (place m a dst).mem (a + i)) = dst := by
  funext i
  show (if a ≤ a + i then dst (a + i - a) else m.mem (a + i)) = dst i
  rw [if_pos (Nat.le_add_right a i), Nat.add_sub_cancel_left]

theorem clearJudgeResult_cache (s : State) (which : Which) :
    (clearJudgeResult s).cache which = s.cache which := by
  rw [clearJudgeResult]
  split
  · rfl
  · cases which <;> rfl

theorem clearJudgeResult_cleared (s : State) : (clearJudgeResult s).judgeResultCleared = true := by
  rw [clearJudgeResult]
  split
  · assumption
  · rfl

/-- An object that was just used is still there, with its length and its bytes. -/
theorem mem_touch {c : Cache} {o : DuckCache.Object} (idx tsc : Nat) (ho : o ∈ c.objects) :
    ∃ o' ∈ (c.touch idx tsc).objects, o'.digest = o.digest ∧ o'.metadata.len = o.metadata.len ∧
      (c.touch idx tsc).bytes o' = c.bytes o := by
  obtain ⟨i, hi, rfl⟩ := mem_listOf.mp ho
  obtain ⟨-, hdigest, -, hlen, hbytes⟩ := DuckCache.touch_object c idx tsc i
  exact ⟨(c.touch idx tsc).object i, mem_listOf.mpr ⟨i, hi, rfl⟩, hdigest, hlen, hbytes⟩

theorem memcpy_again {dst src : Nat → UInt8} {len : Nat} :
    memcpy (memcpy dst 0 src len) 0 src len = memcpy dst 0 src len := by
  funext t
  rw [memcpy_zero, memcpy_zero]
  split <;> rfl

/-- `load_cache` of an object that is there. -/
theorem loadCache_hit {name hex : List Char} {digest : Digest256} {which : Which} {o : DuckCache.Object}
    (off tsc : Nat) (hdigest : digestFromHex hex = some digest) (hwhich : cacheNamed name = some which)
    (hc : Inv (s.cache which)) (ho : o ∈ (s.cache which).objects) (hd : o.digest = digest) :
    ∃ idx, loadCache name off o.metadata.len hex tsc s =
      if s.plain (s.addr off) o.metadata.len = true then
        .ok (clearJudgeResult (s.afterLoad which ((s.cache which).touch idx tsc) (s.addr off)
          (memcpy (fun i => s.m.mem (s.addr off + i)) 0
            (fun t => ((s.cache which).bytes o).getD t 0) o.metadata.len)), true)
      else .error .bufferOverflow := by
  obtain ⟨idx, hload⟩ := DuckCache.load_hit (fun i => s.m.mem (s.addr off + i)) tsc hc ho hd
  refine ⟨idx, ?_⟩
  rw [loadCache, hdigest, hwhich]
  show DuckCache.load _ _ _ _ _ >>= _ = _
  rw [bind_of_ok hload]
  cases s.plain (s.addr off) o.metadata.len <;> rfl

/-- What is known about the state after bytes were loaded. -/
theorem afterLoad_spec (s : State) (which : Which) (c : Cache) (a : Nat) (dst : Nat → UInt8) :
    let t := clearJudgeResult (s.afterLoad which c a dst)
    t.cache which = c ∧ t.m = place s.m a dst ∧ t.buffer = s.buffer ∧ t.judgeResultCleared = true := by
  refine ⟨?_, ?_, ?_, clearJudgeResult_cleared _⟩
  · rw [clearJudgeResult_cache]
    cases which <;> rfl
  · rw [clearJudgeResult_m]
    rfl
  · rw [clearJudgeResult]
    split <;> cases which <;> rfl

/-- Up to time stamps a hit does not change the state. -/
theorem untimed_setCache {which : Which} (idx tsc : Nat) :
    (s.setCache ((s.cache which).touch idx tsc) which).untimed = s.untimed := by
  cases which with
  | elf =>
    show { s.untimed with elfCache := untimedCache (s.elfCache.touch idx tsc) } = s.untimed
    rw [untimedCache_touch]
    rfl
  | data =>
    show { s.untimed with dataCache := untimedCache (s.dataCache.touch idx tsc) } = s.untimed
    rw [untimedCache_touch]
    rfl

/-- Bytes that are loaded where they are already: only a time changes. -/
theorem afterLoad_again {which : Which} {a : Nat} {dst : Nat → UInt8} (c : Cache)
    (hdst : (fun i => s.m.mem (a + i)) = dst) (hcleared : s.judgeResultCleared = true) :
    clearJudgeResult (s.afterLoad which c a dst) = s.setCache c which := by
  rw [State.afterLoad, ← hdst, place_self]
  cases which <;> exact if_pos hcleared

/-- `load_cache` again, of an object that is there. -/
theorem loadHit_again {name hex : List Char} {digest : Digest256} {which : Which} {o : DuckCache.Object}
    {ret : Bool} (tsc' : Nat) (hdigest : digestFromHex hex = some digest)
    (hwhich : cacheNamed name = some which) (hc : Inv (s.cache which))
    (ho : o ∈ (s.cache which).objects) (hd : o.digest = digest) (htsc : tsc ≠ 0)
    (h : loadCache name off o.metadata.len hex tsc s = .ok (s1, ret)) :
    ∃ s2, loadCache name off o.metadata.len hex tsc' s1 = .ok (s2, ret) ∧ s2.untimed = s1.untimed := by
  obtain ⟨idx, hload⟩ := loadCache_hit off tsc hdigest hwhich hc ho hd
  rw [hload] at h
  split at h
  · rename_i hplain
    obtain ⟨c1, hc1⟩ : ∃ c1, (s.cache which).touch idx tsc = c1 := ⟨_, rfl⟩
    obtain ⟨dst, hdst⟩ : ∃ dst, memcpy (fun i => s.m.mem (s.addr off + i)) 0
        (fun t => ((s.cache which).bytes o).getD t 0) o.metadata.len = dst := ⟨_, rfl⟩
    rw [hc1, hdst] at h
    cases h
    obtain ⟨t, ht⟩ : ∃ t, clearJudgeResult (s.afterLoad which c1 (s.addr off) dst) = t := ⟨_, rfl⟩
    obtain ⟨hcache, hm, hbuffer, hcleared⟩ := afterLoad_spec s which c1 (s.addr off) dst
    rw [ht] at hcache hm hbuffer hcleared ⊢
    have haddr : t.addr off = s.addr off := by rw [State.addr, State.addr, hbuffer]
    have hplain1 : t.plain (s.addr off) o.metadata.len = true := by
      rw [← hplain, State.plain, State.plain, hm, hbuffer]
      rfl
    have hmem : (fun i => t.m.mem (s.addr off + i)) = dst := by rw [hm, place_mem]
    -- the object is still there, and its bytes are where they go
    obtain ⟨o1, ho1, hd1, hlen1, hbytes1⟩ := mem_touch idx tsc ho
    rw [hc1, ← hcache] at ho1 hbytes1
    have hinv1 : Inv (t.cache which) := by
      rw [hcache, ← hc1]
      exact hc.touch idx htsc
    obtain ⟨idx1, hload1⟩ := loadCache_hit off tsc' hdigest hwhich hinv1 ho1 (hd1.trans hd)
    rw [hlen1, hbytes1, haddr, hmem, if_pos hplain1, ← hdst, memcpy_again, hdst,
      afterLoad_again _ hmem hcleared] at hload1
    exact ⟨_, hload1, untimed_setCache idx1 tsc'⟩
  · cases h

/-- **`load_cache` again.** -/
theorem loadCache_again {name hex : List Char} {ret : Bool} (tsc' : Nat) (hfit : Fit s) (htsc : tsc ≠ 0)
    (h : loadCache name off len hex tsc s = .ok (s1, ret)) :
    ∃ s2, loadCache name off len hex tsc' s1 = .ok (s2, ret) ∧ s2.untimed = s1.untimed := by
  cases hdigest : digestFromHex hex with
  | none =>
    have hrefused : ∀ tsc s, loadCache name off len hex tsc s = .ok (s, false) := by
      intro tsc s
      rw [loadCache, hdigest]
    rw [hrefused] at h
    cases h
    exact ⟨s, hrefused tsc' s, rfl⟩
  | some digest =>
  cases hwhich : cacheNamed name with
  | none =>
    have hrefused : ∀ tsc s, loadCache name off len hex tsc s = .ok (s, false) := by
      intro tsc s
      rw [loadCache, hdigest, hwhich]
    rw [hrefused] at h
    cases h
    exact ⟨s, hrefused tsc' s, rfl⟩
  | some which =>
  have hc : Inv (s.cache which) := (hfit.cache which).toInv
  by_cases hit : ∃ o ∈ (s.cache which).objects, o.digest = digest ∧ o.metadata.len = len
  · obtain ⟨o, ho, hd, rfl⟩ := hit
    exact loadHit_again tsc' hdigest hwhich hc ho hd htsc h
  · have hmiss : ∀ tsc, loadCache name off len hex tsc s = .ok (s, false) := by
      intro tsc
      rw [loadCache, hdigest, hwhich]
      show DuckCache.load _ _ _ _ _ >>= _ = _
      rw [bind_of_ok (DuckCache.load_miss tsc hc fun o ho hd hlen => hit ⟨o, ho, hd, hlen⟩)]
      exact congrArg (fun s => Except.ok (s, false)) (afterLoad_self which (s.addr off))
    rw [hmiss] at h
    cases h
    exact ⟨s, hmiss tsc', rfl⟩

theorem setCache_self (which : Which) : s.setCache (s.cache which) which = s := by
  cases which <;> rfl

theorem cache_setCache (c : Cache) (which : Which) : (s.setCache c which).cache which = c := by
  cases which <;> rfl

/-- `store_cache` of an object that is there. -/
theorem storeCache_present {name hex : List Char} {digest : Digest256} {which : Which}
    {o : DuckCache.Object} (sorter : DuckCache.StdSort) (off len tsc : Nat)
    (hdigest : digestFromHex hex = some digest) (hwhich : cacheNamed name = some which)
    (hc : Inv (s.cache which)) (ho : o ∈ (s.cache which).objects) (hd : o.digest = digest) :
    storeCache sorter name off len hex tsc s = .ok (s, true) := by
  obtain ⟨idx, hfind, -, -⟩ := DuckCache.find_present hc ho hd
  have hcopies : copies (s.cache which) digest len = false := by rw [copies, hfind]; rfl
  rw [storeCache, hdigest, hwhich]
  simp only [hcopies, Bool.false_and, Bool.false_eq_true, if_false]
  rw [bind_of_ok (DuckCache.store_present sorter _ len tsc hc ho hd)]
  exact congrArg (fun s => Except.ok (s, true)) (setCache_self which)

/-- `store_cache` of too many bytes. -/
theorem storeCache_refused {name hex : List Char} {digest : Digest256} {which : Which}
    (sorter : DuckCache.StdSort) (off tsc : Nat) (hdigest : digestFromHex hex = some digest)
    (hwhich : cacheNamed name = some which) (hc : Inv (s.cache which))
    (habsent : ∀ o ∈ (s.cache which).objects, o.digest ≠ digest)
    (hbig : DuckCache.nNeedPages len > (s.cache which).nTotalPages) :
    storeCache sorter name off len hex tsc s = .ok (s, false) := by
  have hcopies : copies (s.cache which) digest len = false := by
    rw [copies, decide_eq_false (Nat.not_le.mpr hbig), Bool.and_false]
  rw [storeCache, hdigest, hwhich]
  simp only [hcopies, Bool.false_and, Bool.false_eq_true, if_false]
  rw [bind_of_ok (DuckCache.store_refused sorter _ tsc hc habsent hbig)]
  exact congrArg (fun s => Except.ok (s, false)) (setCache_self which)

/-- `store_cache` of a new object that fits leaves it in the cache. -/
theorem storeCache_new {name hex : List Char} {digest : Digest256} {which : Which} {ret : Bool}
    {sorter : DuckCache.StdSort} (hdigest : digestFromHex hex = some digest)
    (hwhich : cacheNamed name = some which) (hc : Sound (s.cache which))
    (habsent : ∀ o ∈ (s.cache which).objects, o.digest ≠ digest)
    (hfits : ¬ DuckCache.nNeedPages len > (s.cache which).nTotalPages) (hlen : len < 2 ^ 64) (htsc : tsc ≠ 0)
    (h : storeCache sorter name off len hex tsc s = .ok (s1, ret)) :
    ret = true ∧ Inv (s1.cache which) ∧ ∃ o ∈ (s1.cache which).objects, o.digest = digest := by
  rw [storeCache, hdigest, hwhich] at h
  simp only at h
  split at h
  · cases h
  obtain ⟨⟨c, stored⟩, hstore, h⟩ := bind_ok h
  cases h
  -- a length that wraps around would have run over the pages
  have hnowrap : ¬ 2 ^ 64 ≤ len + 4087 := by
    intro hwrap
    rw [DuckCache.store_wrapped sorter hc habsent hlen hwrap] at hstore
    cases hstore
  have hcount := DuckCache.nNeedPages_exact (Nat.lt_of_not_le hnowrap)
  have hshort : len < 2 ^ 63 := by
    have hbound := hc.bound
    have hfull := DuckCache.fullPages_le len
    unfold DuckCache.fullPages at hfull
    omega
  obtain ⟨c1, c', new, hnew, hinv, -, hgrown, hd⟩ := DuckCache.store_new sorter
    (fun i => s.m.mem (s.addr off + i)) hc.toInv habsent (by omega) hshort htsc
  rw [hnew] at hstore
  cases hstore
  rw [cache_setCache]
  obtain ⟨l1, l2, -, hobjects⟩ := hgrown.objects
  exact ⟨rfl, hinv, new, by rw [hobjects]; simp, hd⟩

/-- **`store_cache` again** does nothing. -/
theorem storeCache_again {name hex : List Char} {ret : Bool} {sorter : DuckCache.StdSort} (tsc' : Nat)
    (hfit : Fit s) (hlen : len < 2 ^ 64) (htsc : tsc ≠ 0)
    (h : storeCache sorter name off len hex tsc s = .ok (s1, ret)) :
    storeCache sorter name off len hex tsc' s1 = .ok (s1, ret) := by
  cases hdigest : digestFromHex hex with
  | none =>
    rw [storeCache, hdigest] at h ⊢
    cases h
    rfl
  | some digest =>
  cases hwhich : cacheNamed name with
  | none =>
    rw [storeCache, hdigest, hwhich] at h ⊢
    cases h
    rfl
  | some which =>
  have hc := hfit.cache which
  by_cases hpresent : ∃ o ∈ (s.cache which).objects, o.digest = digest
  · obtain ⟨o, ho, hd⟩ := hpresent
    have hthere := fun tsc => storeCache_present sorter off len tsc hdigest hwhich hc.toInv ho hd
    rw [hthere] at h
    cases h
    exact hthere tsc'
  have habsent : ∀ o ∈ (s.cache which).objects, o.digest ≠ digest := fun o ho hd => hpresent ⟨o, ho, hd⟩
  by_cases hbig : DuckCache.nNeedPages len > (s.cache which).nTotalPages
  · have hrefused := fun tsc => storeCache_refused sorter off tsc hdigest hwhich hc.toInv habsent hbig
    rw [hrefused] at h
    cases h
    exact hrefused tsc'
  · obtain ⟨rfl, hinv, o, ho, hd⟩ := storeCache_new hdigest hwhich hc habsent hbig hlen htsc h
    exact storeCache_present sorter off len tsc' hdigest hwhich hinv ho hd

theorem done_of_ok {r : Except Fault (State × Bool)} {ret : Bool} (h : r = .ok (s1, ret)) :
    r.map (fun r => (r.1, Out.done r.2)) = .ok (s1, .done ret) := by
  rw [h]
  rfl

/-- **Every operation can be repeated**: it returns the same, and changes times at most. -/
theorem exec_replay {op : Op} {out : Out} (tsc' : Nat) (hfit : Fit s) (hop : op.Timed)
    (h : exec p s op = .ok (s1, out)) :
    ∃ s2, exec p s1 (op.retimed tsc') = .ok (s2, out) ∧ s2.untimed = s1.untimed := by
  cases op with
  | clear off len =>
    obtain ⟨⟨t, ret⟩, hrun, hout⟩ := map_ok h
    cases hout
    exact ⟨t, done_of_ok (clear_again hrun), rfl⟩
  | read off len | compare off1 off2 len =>
    obtain ⟨r, hrun, hout⟩ := map_ok h
    cases hout
    exact ⟨s, h, rfl⟩
  | write off data =>
    obtain ⟨⟨t, ret⟩, hrun, hout⟩ := map_ok h
    cases hout
    exact ⟨t, done_of_ok (writeBuffer_again hrun), rfl⟩
  | copy dstOff srcOff len =>
    obtain ⟨⟨t, ret⟩, hrun, hout⟩ := map_ok h
    cases hout
    exact ⟨t, done_of_ok (copyBuffer_again hfit.placed hrun), rfl⟩
  | loadCache name off len hex tsc =>
    obtain ⟨⟨t, ret⟩, hrun, hout⟩ := map_ok h
    cases hout
    obtain ⟨s2, hagain, htimes⟩ := loadCache_again tsc' hfit hop hrun
    exact ⟨s2, done_of_ok hagain, htimes⟩
  | storeCache name off len hex tsc =>
    obtain ⟨⟨t, ret⟩, hrun, hout⟩ := map_ok h
    cases hout
    have hagain := storeCache_again tsc' hfit hop.1 hop.2 hrun
    exact ⟨t, done_of_ok hagain, rfl⟩

/-- **A judge request can be repeated**: it finds its own result, whatever the program does then. -/
theorem judge_replay {req : JudgeRequest} {u : Behaviour} {result : JudgeResult} (u' : Behaviour)
    (hp : Placed s) (h : judge p req u s = .ok (s1, result)) : judge p req u' s1 = .ok (s1, result) := by
  have hkept : req.seqNum = s1.judgeSeqNum ∧ result = s1.judgeResult := by
    rcases judge_cases hp h with ⟨hseq, rfl, hresult⟩ | ⟨-, ⟨error, -, rfl, hresult⟩ | ⟨lay, m, hj⟩⟩
    · exact ⟨hseq, hresult⟩
    · exact ⟨rfl, hresult⟩
    · obtain ⟨d, m', time, hs1⟩ := hj.state
      rw [hs1]
      exact ⟨rfl, rfl⟩
  obtain ⟨hseq, rfl⟩ := hkept
  rw [judge, judgeLoad, if_pos hseq]
  rfl

/-! ## Sound caches -/

theorem Effect.placed (h : Effect s s1) (hp : Placed s) : Placed s1 := by
  have hbuffer := h.buffer
  rcases h with ⟨e, d, rfl⟩ | ⟨m, e, d, htables, rfl⟩
  · exact ⟨hp.above, hp.fits, hp.mapped_lt, hp.size_lt⟩
  · have hm : (clearJudgeResult { s with m := m, elfCache := e, dataCache := d }).m = m := clearJudgeResult_m
    refine ⟨?_, ?_, ?_, ?_⟩
    · rw [hm, hbuffer.1, htables.vaddrBreak]
      exact hp.above
    · rw [hm, hbuffer.1, hbuffer.2, htables.mapped]
      exact hp.fits
    · rw [hm, htables.mapped]
      exact hp.mapped_lt
    · rw [hbuffer.2]
      exact hp.size_lt

theorem update_cache {inRange ret : Bool} {W : Except Fault Machine}
    (h : (if inRange = true then W >>= fun m => .ok (clearJudgeResult { s with m }, true)
      else .ok (s, false)) = .ok (s1, ret)) (which : Which) : s1.cache which = s.cache which := by
  split at h
  · obtain ⟨m, -, h⟩ := bind_ok h
    cases h
    rw [clearJudgeResult_cache]
    cases which <;> rfl
  · cases h
    rfl

theorem sound_setCache {c : Cache} (which : Which) (hs : ∀ w, Sound (s.cache w)) (hc : Sound c) (w : Which) :
    Sound ((s.setCache c which).cache w) := by
  cases which <;> cases w
  · exact hc
  · exact hs .data
  · exact hs .elf
  · exact hc

theorem loadCache_sound {name hex : List Char} {ret : Bool} (hs : ∀ w, Sound (s.cache w)) (htsc : tsc ≠ 0)
    (h : loadCache name off len hex tsc s = .ok (s1, ret)) (w : Which) : Sound (s1.cache w) := by
  rw [loadCache] at h
  cases hdigest : digestFromHex hex with
  | none =>
    rw [hdigest] at h
    cases h
    exact hs w
  | some digest =>
  cases hwhich : cacheNamed name with
  | none =>
    rw [hdigest, hwhich] at h
    cases h
    exact hs w
  | some which =>
    rw [hdigest, hwhich] at h
    obtain ⟨⟨c, found, dst⟩, hload, h⟩ := bind_ok h
    have hstep : DuckCache.step DuckCache.mergeSorter (s.cache which)
        (.load digest (fun i => s.m.mem (s.addr off + i)) len tsc) = .ok (c, .load found dst) := by
      rw [DuckCache.step, bind_of_ok hload]
    have htimed : DuckCache.Op.Timed (.load digest (fun i => s.m.mem (s.addr off + i)) len tsc) := htsc
    have hc : Sound c := (hs which).step htimed hstep
    have hafter : Sound ((s.afterLoad which c (s.addr off) dst).cache w) := by
      have hset := sound_setCache which hs hc w
      cases which <;> cases w <;> exact hset
    simp only at h
    split at h
    · cases h
    · cases h
      cases ret with
      | true =>
        rw [if_pos rfl, clearJudgeResult_cache]
        exact hafter
      | false => exact hafter

theorem storeCache_sound {name hex : List Char} {ret : Bool} {sorter : DuckCache.StdSort}
    (hs : ∀ w, Sound (s.cache w)) (hlen : len < 2 ^ 64) (htsc : tsc ≠ 0)
    (h : storeCache sorter name off len hex tsc s = .ok (s1, ret)) (w : Which) : Sound (s1.cache w) := by
  rw [storeCache] at h
  cases hdigest : digestFromHex hex with
  | none =>
    rw [hdigest] at h
    cases h
    exact hs w
  | some digest =>
  cases hwhich : cacheNamed name with
  | none =>
    rw [hdigest, hwhich] at h
    cases h
    exact hs w
  | some which =>
    rw [hdigest, hwhich] at h
    simp only at h
    split at h
    · cases h
    · obtain ⟨⟨c, stored⟩, hstore, h⟩ := bind_ok h
      cases h
      have hstep : DuckCache.step sorter (s.cache which)
          (.store digest (fun i => s.m.mem (s.addr off + i)) len tsc) = .ok (c, .store stored) := by
        rw [DuckCache.step, bind_of_ok hstore]
      have htimed : DuckCache.Op.Timed (.store digest (fun i => s.m.mem (s.addr off + i)) len tsc) :=
        ⟨hlen, htsc⟩
      exact sound_setCache which hs ((hs which).step htimed hstep) w

/-- **Operations keep the caches sound.** -/
theorem Fit.exec {op : Op} {out : Out} (hfit : Fit s) (hop : op.Timed) (h : exec p s op = .ok (s1, out)) :
    Fit s1 := by
  have hcache : ∀ w, Sound (s1.cache w) := by
    intro w
    cases op with
    | clear off len | write off data | copy dstOff srcOff len =>
      obtain ⟨⟨t, ret⟩, hrun, hout⟩ := map_ok h
      cases hout
      rw [update_cache hrun w]
      exact hfit.cache w
    | read off len | compare off1 off2 len =>
      obtain ⟨r, hrun, hout⟩ := map_ok h
      cases hout
      exact hfit.cache w
    | loadCache name off len hex tsc =>
      obtain ⟨⟨t, ret⟩, hrun, hout⟩ := map_ok h
      cases hout
      exact loadCache_sound hfit.cache hop hrun w
    | storeCache name off len hex tsc =>
      obtain ⟨⟨t, ret⟩, hrun, hout⟩ := map_ok h
      cases hout
      exact storeCache_sound hfit.cache hop.1 hop.2 hrun w
  exact ⟨(exec_effect h).placed hfit.placed, hcache .elf, hcache .data⟩

/-- The page of a program's file comes behind its regions.  Where these do not end at what is allocated, a
    judge call leaves the caches alone. -/
theorem judgeLoad_cache {req : JudgeRequest} {next : JudgeResult ⊕ Elf.App}
    (hapart : ∀ lay, Elf.layout32 s.m.vaddrBreak (elfRequest s req) = some lay →
      lay.specialRegionBreak ≠ s.m.vaddrBreak)
    (h : judgeLoad p req s = .ok (s1, next)) (w : Which) : s1.cache w = s.cache w := by
  rw [judgeLoad] at h
  split at h
  · cases h
    rfl
  simp only at h
  split at h
  · cases h
    cases w <;> rfl
  split at h
  · cases h
    cases w <;> rfl
  split at h
  · cases h
    cases w <;> rfl
  obtain ⟨⟨m, app?⟩, hload, h⟩ := bind_ok h
  rcases Elf.load_cases hload with ⟨-, rfl⟩ | ⟨lay, hlay, -, -, rfl⟩
  · cases h
    cases w <;> rfl
  · cases h
    cases w with
    | elf => rfl
    | data => exact if_neg (hapart lay hlay)

theorem judge_cache {req : JudgeRequest} {u : Behaviour} {result : JudgeResult}
    (hapart : ∀ lay, Elf.layout32 s.m.vaddrBreak (elfRequest s req) = some lay →
      lay.specialRegionBreak ≠ s.m.vaddrBreak)
    (h : judge p req u s = .ok (s1, result)) (w : Which) : s1.cache w = s.cache w := by
  obtain ⟨⟨t, next⟩, hload, h⟩ := bind_ok h
  rw [← judgeLoad_cache hapart hload w]
  cases next with
  | inl result =>
    cases h
    rfl
  | inr app =>
    obtain ⟨⟨m, res⟩, -, h⟩ := bind_ok h
    obtain ⟨m1, -, h⟩ := bind_ok h
    obtain ⟨m2, -, h⟩ := bind_ok h
    obtain ⟨m3, -, h⟩ := bind_ok h
    cases h
    cases w <;> rfl

/-- The clock does not read zero in a call. -/
def Call.Timed : Call → Prop
  | .op o => o.Timed
  | .judge _ _ => True

/-- The regions of a program that is loaded do not end exactly at what is allocated: the page of its file
    is not the first one of the data cache. -/
def Call.PageApart (s : State) : Call → Prop
  | .op _ => True
  | .judge req _ => (Elf.layout32 s.m.vaddrBreak (elfRequest s req)).isSome = true →
      (elfRequest s req).regionsEnd ≠ s.m.vaddrBreak

theorem Call.PageApart.layout {req : JudgeRequest} {u : Behaviour} (h : Call.PageApart s (.judge req u))
    {lay : Elf.Layout} (hlay : Elf.layout32 s.m.vaddrBreak (elfRequest s req) = some lay) :
    lay.specialRegionBreak ≠ s.m.vaddrBreak := by
  rw [Elf.layout32_end hlay]
  exact h (by rw [hlay]; rfl)

/-- Programs end at 4 GiB or below: there is no way to the caches when these are above. -/
theorem Call.pageApart_of_room (k : Call) (hroom : 2 ^ 32 < s.m.vaddrBreak) : k.PageApart s := by
  cases k with
  | op => trivial
  | judge req u =>
    intro hsome
    obtain ⟨lay, hlay⟩ := Option.isSome_iff_exists.mp hsome
    have h4g := (Elf.layout32_fits hlay).le_4g
    rw [← Elf.layout32_end hlay]
    omega

/-- **Calls keep the caches sound**, if the page of the file is not in one. -/
theorem Fit.call {s0 : State} {k : Call} (hfit : Fit s) (hruns : Runs s0 s) (hp : Placed s0)
    (hapart : k.PageApart s) (htimed : k.Timed) (h : call p s k = .ok s1) : Fit s1 := by
  cases k with
  | op op =>
    obtain ⟨⟨t, out⟩, hexec, rfl⟩ := map_ok h
    exact hfit.exec htimed hexec
  | judge req u =>
    have hplaced := (hruns.call hp h).placed hp
    obtain ⟨⟨t, result⟩, hjudge, rfl⟩ := map_ok h
    have hcache := judge_cache (fun _ hlay => hapart.layout hlay) hjudge
    refine ⟨hplaced, ?_, ?_⟩
    · exact (congrArg Sound (hcache .elf)).mpr hfit.elf
    · exact (congrArg Sound (hcache .data)).mpr hfit.data

/-! ## Returning -/

/-- The operations on a cache. -/
def Op.cached : Op → Bool
  | .loadCache _ _ _ _ _ => true
  | .storeCache _ _ _ _ _ => true
  | _ => false

theorem exists_read (hp : Placed s) (h : off + len ≤ s.bufferSize) :
    ∃ data, read s.m (s.addr off) len = .ok data ∧ data.length = len := by
  have hfits := hp.fits
  have hin : ¬ (len ≠ 0 ∧ s.m.mapped < s.addr off + len) := by
    rw [addr_of_le hp (by omega)]
    omega
  exact ⟨_, if_neg hin, length_listOf _ _⟩

theorem exists_write (hp : Placed s) (data : List UInt8) (h : off + data.length ≤ s.bufferSize) :
    ∃ m, s.m.write (s.addr off) data = .ok m := by
  have hfits := hp.fits
  refine ⟨_, Machine.write_of_le ?_⟩
  rw [addr_of_le hp (by omega)]
  omega

/-- An operation on the buffer returns if its change does. -/
theorem exists_update {inRange : Bool} {W : Except Fault Machine} (h : inRange = true → ∃ m, W = .ok m) :
    ∃ s1 ret, (if inRange = true then W >>= fun m => .ok (clearJudgeResult { s with m }, true)
      else .ok (s, false)) = .ok (s1, ret) := by
  split
  · rename_i hrange
    obtain ⟨m, hm⟩ := h hrange
    rw [hm]
    exact ⟨_, _, rfl⟩
  · exact ⟨_, _, rfl⟩

/-- What is inside the buffer is plain memory. -/
theorem plain_of_inside (hp : Placed s) (h : off + len ≤ s.bufferSize) : s.plain (s.addr off) len = true := by
  have hfits := hp.fits
  rw [State.plain, decide_eq_true_eq, addr_of_le hp (by omega)]
  exact .inr (.inr ⟨by omega, by omega⟩)

/-- A cache carries out the operation: it copies an object that it has, with the length asked for, or takes
    in one that it does not have and that fits. -/
def Op.Copies (s : State) : Op → Prop
  | .loadCache name _ len hex _ => ∃ digest which, digestFromHex hex = some digest ∧
      cacheNamed name = some which ∧
      ∃ o ∈ (s.cache which).objects, o.digest = digest ∧ o.metadata.len = len
  | .storeCache name _ len hex _ => ∃ digest which, digestFromHex hex = some digest ∧
      cacheNamed name = some which ∧ (∀ o ∈ (s.cache which).objects, o.digest ≠ digest) ∧
      DuckCache.nNeedPages len ≤ (s.cache which).nTotalPages
  | _ => False

/-- What a cache copies stays in the buffer and in the pages of programs. -/
def Op.Stays (s : State) (op : Op) : Prop :=
  op.Copies s → ∀ r ∈ op.ranges, s.plain (s.addr r.1) r.2 = true

theorem Op.stays_of_inside {op : Op} (hp : Placed s) (h : op.Inside s.bufferSize) : op.Stays s :=
  fun _ r hr => plain_of_inside hp (h r hr)

theorem Op.stays_single {op : Op} (h : op.ranges = [(off, len)]) :
    op.Stays s ↔ (op.Copies s → s.plain (s.addr off) len = true) := by
  rw [Op.Stays, h]
  simp

/-- **`load_cache` returns** iff what it copies stays in plain memory. -/
theorem loadCache_returns_iff (name hex : List Char) (hfit : Fit s) :
    (∃ s1 ret, loadCache name off len hex tsc s = .ok (s1, ret)) ↔
      Op.Stays s (.loadCache name off len hex tsc) := by
  rw [Op.stays_single rfl]
  cases hdigest : digestFromHex hex with
  | none =>
    have hno : ¬ Op.Copies s (.loadCache name off len hex tsc) := by
      rintro ⟨_, _, hsome, _⟩
      cases hdigest.symm.trans hsome
    refine ⟨fun _ hcopies => absurd hcopies hno, fun _ => ?_⟩
    rw [loadCache, hdigest]
    exact ⟨_, _, rfl⟩
  | some digest =>
  cases hwhich : cacheNamed name with
  | none =>
    have hno : ¬ Op.Copies s (.loadCache name off len hex tsc) := by
      rintro ⟨_, _, _, hsome, _⟩
      cases hwhich.symm.trans hsome
    refine ⟨fun _ hcopies => absurd hcopies hno, fun _ => ?_⟩
    rw [loadCache, hdigest, hwhich]
    exact ⟨_, _, rfl⟩
  | some which =>
  have hc : Inv (s.cache which) := (hfit.cache which).toInv
  by_cases hit : ∃ o ∈ (s.cache which).objects, o.digest = digest ∧ o.metadata.len = len
  · have hcopies : Op.Copies s (.loadCache name off len hex tsc) := ⟨digest, which, hdigest, hwhich, hit⟩
    obtain ⟨o, ho, hd, rfl⟩ := hit
    obtain ⟨idx, hload⟩ := loadCache_hit off tsc hdigest hwhich hc ho hd
    rw [hload]
    constructor
    · rintro ⟨s1, ret, hok⟩ -
      by_contra hplain
      rw [if_neg hplain] at hok
      cases hok
    · intro hstays
      rw [if_pos (hstays hcopies)]
      exact ⟨_, _, rfl⟩
  · have hmiss : loadCache name off len hex tsc s = .ok (s, false) := by
      rw [loadCache, hdigest, hwhich]
      show DuckCache.load _ _ _ _ _ >>= _ = _
      rw [bind_of_ok (DuckCache.load_miss tsc hc fun o ho hd hlen => hit ⟨o, ho, hd, hlen⟩)]
      exact congrArg (fun s => Except.ok (s, false)) (afterLoad_self which (s.addr off))
    refine ⟨?_, fun _ => ⟨s, false, hmiss⟩⟩
    rintro - ⟨digest', which', hdigest', hwhich', hit'⟩
    cases hdigest.symm.trans hdigest'
    cases hwhich.symm.trans hwhich'
    exact absurd hit' hit

/-- A range of plain memory is not long. -/
theorem lt_of_plain {a : Nat} (hp : Placed s) (h : s.plain a len = true) : len < 2 ^ 63 := by
  have habove := hp.above
  have hfits := hp.fits
  have hlt := hp.mapped_lt
  rw [State.plain, decide_eq_true_eq] at h
  omega

/-- **`store_cache` returns** iff what it copies stays in plain memory. -/
theorem storeCache_returns_iff (sorter : DuckCache.StdSort) (name hex : List Char) (hfit : Fit s)
    (htsc : tsc ≠ 0) : (∃ s1 ret, storeCache sorter name off len hex tsc s = .ok (s1, ret)) ↔
      Op.Stays s (.storeCache name off len hex tsc) := by
  rw [Op.stays_single rfl]
  cases hdigest : digestFromHex hex with
  | none =>
    have hno : ¬ Op.Copies s (.storeCache name off len hex tsc) := by
      rintro ⟨_, _, hsome, _⟩
      cases hdigest.symm.trans hsome
    refine ⟨fun _ hcopies => absurd hcopies hno, fun _ => ?_⟩
    rw [storeCache, hdigest]
    exact ⟨_, _, rfl⟩
  | some digest =>
  cases hwhich : cacheNamed name with
  | none =>
    have hno : ¬ Op.Copies s (.storeCache name off len hex tsc) := by
      rintro ⟨_, _, _, hsome, _⟩
      cases hwhich.symm.trans hsome
    refine ⟨fun _ hcopies => absurd hcopies hno, fun _ => ?_⟩
    rw [storeCache, hdigest, hwhich]
    exact ⟨_, _, rfl⟩
  | some which =>
  have hc : Inv (s.cache which) := (hfit.cache which).toInv
  -- only a new object that fits is copied
  have hcopies : Op.Copies s (.storeCache name off len hex tsc) ↔
      (∀ o ∈ (s.cache which).objects, o.digest ≠ digest) ∧
        DuckCache.nNeedPages len ≤ (s.cache which).nTotalPages := by
    refine ⟨?_, fun h => ⟨digest, which, hdigest, hwhich, h⟩⟩
    rintro ⟨digest', which', hdigest', hwhich', h⟩
    cases hdigest.symm.trans hdigest'
    cases hwhich.symm.trans hwhich'
    exact h
  rw [hcopies]
  by_cases hpresent : ∃ o ∈ (s.cache which).objects, o.digest = digest
  · obtain ⟨o, ho, hd⟩ := hpresent
    exact ⟨fun _ hnew => absurd hd (hnew.1 o ho),
      fun _ => ⟨s, true, storeCache_present sorter off len tsc hdigest hwhich hc ho hd⟩⟩
  have habsent : ∀ o ∈ (s.cache which).objects, o.digest ≠ digest := fun o ho hd => hpresent ⟨o, ho, hd⟩
  by_cases hbig : DuckCache.nNeedPages len > (s.cache which).nTotalPages
  · exact ⟨fun _ hnew => absurd hnew.2 (Nat.not_le.mpr hbig),
      fun _ => ⟨s, false, storeCache_refused sorter off tsc hdigest hwhich hc habsent hbig⟩⟩
  have hfits := Nat.le_of_not_lt hbig
  rw [storeCache, hdigest, hwhich]
  simp only [copies, DuckCache.find_absent hc habsent, Bool.not_false, Bool.true_and, decide_eq_true hfits]
  constructor
  · rintro ⟨s1, ret, hok⟩ -
    by_contra hplain
    rw [Bool.eq_false_iff.mpr hplain, Bool.not_false, if_pos rfl] at hok
    cases hok
  · intro hstays
    have hplain := hstays ⟨habsent, hfits⟩
    have hlegal : DuckCache.Op.Legal (.store digest (fun i => s.m.mem (s.addr off + i)) len tsc) :=
      ⟨lt_of_plain hfit.placed hplain, htsc⟩
    obtain ⟨c, out, hstep, -⟩ := DuckCache.step_refines sorter hc hlegal
    obtain ⟨⟨c1, ret⟩, hstore, -⟩ := bind_ok hstep
    rw [hplain, Bool.not_true, if_neg Bool.false_ne_true, bind_of_ok hstore]
    exact ⟨_, _, rfl⟩

theorem done_of_exec {r : Except Fault (State × Bool)} :
    (∃ s1 out, (r.map fun x => (x.1, Out.done x.2)) = .ok (s1, out)) ↔ ∃ s1 ret, r = .ok (s1, ret) := by
  constructor
  · rintro ⟨s1, out, h⟩
    obtain ⟨⟨t, ret⟩, hrun, -⟩ := map_ok h
    exact ⟨t, ret, hrun⟩
  · rintro ⟨s1, ret, h⟩
    exact ⟨s1, .done ret, done_of_ok h⟩

/-- The operations that test their ranges return. -/
theorem exists_exec_tested {op : Op} (hp : Placed s) (h : op.cached = false) :
    ∃ s1 out, exec p s op = .ok (s1, out) := by
  cases op with
  | clear off len =>
    have hwrite : s.inBuffer off len = true → ∃ m, s.m.write (s.addr off) (List.replicate len 0) = .ok m :=
      fun hin => exists_write hp _ (by rw [List.length_replicate]; exact (inBuffer_iff.mp hin).2)
    obtain ⟨s1, ret, hrun⟩ := exists_update hwrite
    exact ⟨s1, .done ret, done_of_ok hrun⟩
  | read off len =>
    rw [exec, readBuffer]
    split
    · rename_i hin
      obtain ⟨data, hread, -⟩ := exists_read hp (inBuffer_iff.mp hin).2
      rw [hread]
      exact ⟨_, _, rfl⟩
    · exact ⟨_, _, rfl⟩
  | write off data =>
    obtain ⟨s1, ret, hrun⟩ := exists_update (s := s) fun hin => exists_write hp data (inBuffer_iff.mp hin).2
    exact ⟨s1, .done ret, done_of_ok hrun⟩
  | copy dstOff srcOff len =>
    have hcopy : (s.inBuffer dstOff len && s.inBuffer srcOff len &&
        decide (u64 (dstOff + len) ≤ srcOff ∨ u64 (srcOff + len) ≤ dstOff)) = true →
        ∃ m, copy (s.addr dstOff) (s.addr srcOff) len s.m = .ok m := by
      intro hin
      rw [Bool.and_eq_true, Bool.and_eq_true] at hin
      obtain ⟨data, hread, hlen⟩ := exists_read hp (inBuffer_iff.mp hin.1.2).2
      obtain ⟨m, hwrite⟩ := exists_write hp data (hlen ▸ (inBuffer_iff.mp hin.1.1).2)
      exact ⟨m, by rw [copy, bind_of_ok hread, hwrite]⟩
    obtain ⟨s1, ret, hrun⟩ := exists_update hcopy
    exact ⟨s1, .done ret, done_of_ok hrun⟩
  | compare off1 off2 len =>
    rw [exec, compareBuffer]
    split
    · rename_i hin
      rw [Bool.and_eq_true] at hin
      obtain ⟨data1, hread1, -⟩ := exists_read hp (inBuffer_iff.mp hin.1).2
      obtain ⟨data2, hread2, -⟩ := exists_read hp (inBuffer_iff.mp hin.2).2
      rw [bind_of_ok hread1, bind_of_ok hread2]
      exact ⟨_, _, rfl⟩
    · exact ⟨_, _, rfl⟩
  | loadCache => cases h
  | storeCache => cases h

/-- **Which operations return**: all of those that test their ranges, and of the others, if the caches are
    sound, those that stay in plain memory. -/
theorem exec_returns_iff {op : Op} (hfit : Fit s) (htimed : op.Timed) :
    (∃ s1 out, exec p s op = .ok (s1, out)) ↔ op.Stays s := by
  by_cases hcached : op.cached = false
  · refine ⟨fun _ hcopies => ?_, fun _ => exists_exec_tested hfit.placed hcached⟩
    cases op with
    | loadCache => cases hcached
    | storeCache => cases hcached
    | _ => exact hcopies.elim
  · cases op with
    | loadCache name off len hex tsc => exact done_of_exec.trans (loadCache_returns_iff name hex hfit)
    | storeCache name off len hex tsc =>
      exact done_of_exec.trans (storeCache_returns_iff p.sorter name hex hfit htimed.2)
    | _ => exact absurd rfl hcached

/-- **Operations return**: all of those that test their ranges, and those on a cache if they stay in the
    buffer and the caches are sound. -/
theorem exists_exec {op : Op} (hp : Placed s)
    (h : op.cached = true → Fit s ∧ op.Timed ∧ op.Inside s.bufferSize) :
    ∃ s1 out, exec p s op = .ok (s1, out) := by
  cases hcached : op.cached with
  | false => exact exists_exec_tested hp hcached
  | true =>
    obtain ⟨hfit, htimed, hinside⟩ := h hcached
    exact (exec_returns_iff hfit htimed).mpr (Op.stays_of_inside hp hinside)

/-- A call whose cache operation, if it is one, stays in the buffer and in the pages of programs. -/
def Call.Stays (s : State) : Call → Prop
  | .op o => o.Stays s
  | .judge _ _ => True

/-- **Which calls return.** -/
theorem call_returns_iff {k : Call} (hfit : Fit s) (hdvd : pageSize ∣ s.m.vaddrBreak) (htimed : k.Timed) :
    (∃ s1, call p s k = .ok s1) ↔ k.Stays s := by
  cases k with
  | op op =>
    refine Iff.trans ?_ (exec_returns_iff (p := p) hfit htimed)
    constructor
    · rintro ⟨s1, h⟩
      obtain ⟨⟨t, out⟩, hexec, -⟩ := map_ok h
      exact ⟨t, out, hexec⟩
    · rintro ⟨s1, out, hexec⟩
      exact ⟨s1, by rw [Judger.call, hexec]; rfl⟩
  | judge req u =>
    obtain ⟨s1, result, hjudge⟩ := exists_judge p req u hfit.placed hdvd
    exact ⟨fun _ => trivial, fun _ => ⟨s1, by rw [Judger.call, hjudge]; rfl⟩⟩

end Operations

section Init

variable {m m' : Machine} {c raw rawElf rawData : Cache} {s : State} {n size : Nat}

/-- A cache that was set up by the judger was set up by `DuckCache::init`. -/
theorem initCache_sound (hboot : Booted m) (hdvd : hugePageSize ∣ size) (hlt : size < 2 ^ 48)
    (hpos : 1 ≤ n) (hn : n < 2 ^ 57) (h : initCache raw n size m = .ok (m', c)) : Sound c := by
  obtain ⟨⟨m1, a⟩, halloc, h⟩ := bind_ok h
  obtain ⟨c', hblock, hok⟩ := bind_ok h
  cases hok
  obtain ⟨hbreak, hkernel, -⟩ := allocate_inv hboot hdvd hlt (orReboot_inv halloc)
  have haddr : DuckCache.allocateVirtualMemory (region hboot) size = a := by
    have hsub : m.vaddrBreak - size = a := by omega
    have hroom : ¬ m.vaddrBreak - kernelBreak < size := by omega
    rw [DuckCache.allocateVirtualMemory, roundUp_huge hdvd hlt]
    exact (if_neg hroom).trans hsub
  have hne : a ≠ 0 := by
    have hkernel0 : 0 < kernelBreak := by decide
    omega
  have hinit : DuckCache.init (region hboot) raw n size = .ok (some c) := by
    rw [DuckCache.init, haddr, if_neg hne, hblock]
    rfl
  have hreach : DuckCache.Reachable DuckCache.mergeSorter c :=
    .init hpos hn (Nat.dvd_trans (by decide) hdvd) (by omega) hinit
  exact hreach.sound

/-- **The judger starts with sound caches.** -/
theorem init_fit (hboot : Booted m) (h : init rawElf rawData m = .ok s) : Fit s := by
  have hstarted := init_started hboot h
  obtain ⟨⟨hbuf, hbuflt⟩, hdat, hdatlt, -⟩ := sizes (useSmall m)
  obtain ⟨⟨m1, buffer⟩, halloc, h⟩ := bind_ok h
  obtain ⟨m2, hwrite, h⟩ := bind_ok h
  obtain ⟨⟨m3, elfCache⟩, helf, h⟩ := bind_ok h
  obtain ⟨⟨m4, dataCache⟩, hdata, h⟩ := bind_ok h
  have hs := Except.ok.inj h
  generalize chooseBufferSize (useSmall m) = size at *
  generalize chooseDataCacheSize (useSmall m) = dataSize at *
  have hboot1 := hboot.allocate size
  rw [orReboot_inv halloc] at hboot1
  obtain ⟨-, hm2⟩ := (Machine.write_iff (w := ⟨buffer, _⟩)).mp hwrite
  have hboot2 : Booted m2 := by
    rw [hm2]
    exact booted_stored hboot1 _
  obtain ⟨-, -, -, hboot3, -⟩ := initCache_inv hboot2 (by decide) (by decide) (by decide) (by decide) helf
  have helfSound := initCache_sound hboot2 (by decide) (by decide) (by decide) (by decide) helf
  have hdataSound := initCache_sound hboot3 hdat hdatlt (by decide) (by decide) hdata
  refine ⟨hstarted.placed, ?_, ?_⟩
  · rw [← hs]
    exact helfSound
  · rw [← hs]
    exact hdataSound

/-- With 7900 registered pages the judger takes what it wants, and programs have what is below 4264 MiB. -/
theorem exists_large : ∃ m0 s0, AfterInit m0 ∧ init DuckCache.zeros DuckCache.zeros m0 = .ok s0 ∧
    2 ^ 32 < s0.m.vaddrBreak ∧ s0.bufferSize = 3072 * 2 ^ 20 := by
  obtain ⟨m0, hinit, hbreak, -⟩ :=
    exists_afterInit (n := 7900) (by decide) (by decide) (by decide) (fun _ => 0)
  have hbreak : m0.vaddrBreak = 4264 * 2 ^ 20 + dataCacheSize + elfCacheSize + initialBufferSize :=
    hbreak.trans (by decide)
  have hsmall : useSmall m0 = false := by
    rw [useSmall, canAllocateVirtualMemory, hbreak]
    decide
  obtain ⟨s0, hjudger, hs0, -, hsize⟩ :=
    exists_init (m := m0) DuckCache.zeros DuckCache.zeros (a := 4264 * 2 ^ 20) hinit.booted (by decide)
      (by rw [hsmall, hbreak]; decide)
  rw [hsmall] at hsize
  exact ⟨m0, s0, hinit, hjudger, by rw [hs0]; decide, hsize⟩

end Init

end JudgeDuck.Judger
