/-
  Operations keep to the buffer.

  That an operation neither reads nor writes a byte outside of the buffer is said with two machines:
  whatever other bytes there are outside, it returns the same, does the same to the buffer, and the
  other bytes are still there afterwards (`Local`).  A request for a range that is not inside the
  buffer is to return `false` and to change nothing.

  The five operations that test their ranges do that.  The two cache operations do not test theirs:
  they do it exactly if every request that the cache carries out has its range inside the buffer
  (`keepsToBuffer_iff`).
-/
import JudgeDuck.Judger.Init

namespace JudgeDuck.Judger

open JudgeDuck.Lib JudgeDuck.Memory
open JudgeDuck.DuckCache (Cache Digest256 pageSize)

/-! ## What is to hold -/

/-- The ranges of a request: offset and length. -/
def Op.ranges : Op → List (Nat × Nat)
  | .clear off len => [(off, len)]
  | .read off len => [(off, len)]
  | .write off data => [(off, data.length)]
  | .copy dstOff srcOff len => [(dstOff, len), (srcOff, len)]
  | .compare off1 off2 len => [(off1, len), (off2, len)]
  | .loadCache _ off len _ _ => [(off, len)]
  | .storeCache _ off len _ _ => [(off, len)]

/-- They are inside a buffer of this size; nothing wraps here. -/
def Op.Inside (size : Nat) (op : Op) : Prop := ∀ r ∈ op.ranges, r.1 + r.2 ≤ size

theorem Op.inside_single {op : Op} {off len size : Nat} (h : op.ranges = [(off, len)]) :
    op.Inside size ↔ off + len ≤ size := by
  rw [Op.Inside, h]
  simp

/-- `false`, and no data. -/
def Op.refused : Op → Out
  | .read .. => .data none
  | .compare .. => .same none
  | _ => .done false

/-- The address is one of the buffer. -/
def State.within (s : State) (a : Nat) : Prop := s.buffer ≤ a ∧ a < s.buffer + s.bufferSize

instance (s : State) (a : Nat) : Decidable (s.within a) := inferInstanceAs (Decidable (_ ∧ _))

/-- A machine with the bytes `mem` outside of the buffer. -/
def withOutside (s : State) (mem : Nat → UInt8) (m : Machine) : Machine :=
  { m with mem := fun a => if s.within a then m.mem a else mem a }

def State.overlay (s : State) (mem : Nat → UInt8) : State := { s with m := withOutside s mem s.m }

/-- Bytes outside of the buffer do not matter, and they stay. -/
def Local (p : Platform) (s : State) (op : Op) : Prop :=
  ∀ mem, exec p (s.overlay mem) op = (exec p s op).map fun r => (r.1.overlay mem, r.2)

/-- An operation keeps to the buffer. -/
structure KeepsToBuffer (p : Platform) (s : State) (op : Op) : Prop where
  refused : ¬ op.Inside s.bufferSize → exec p s op = .ok (s, op.refused)
  reads : Local p s op
  writes : ∀ s' out, exec p s op = .ok (s', out) → ∀ a, ¬ s.within a → s'.m.mem a = s.m.mem a

/-- The cache carries out the request. -/
def Accepted (s : State) : Op → Prop
  | .loadCache name _ len hex _ => ∃ digest which, digestFromHex hex = some digest ∧
      cacheNamed name = some which ∧ DuckCache.Hit (s.cache which) digest len
  | .storeCache name _ len hex _ => ∃ digest which, digestFromHex hex = some digest ∧
      cacheNamed name = some which ∧ DuckCache.Storable (s.cache which) digest len
  | _ => False

/-! ## What an operation can do -/

/-- The tables, and the end of what programs can have. -/
structure SameTables (m m' : Machine) : Prop where
  vaddrBreak : m'.vaddrBreak = m.vaddrBreak
  mapped : m'.mapped = m.mapped
  p1 : m'.p1 = m.p1

section

variable {p : Platform} {s s' : State} {m m' : Machine}

/-- A write changes bytes, and no entry of a table. -/
theorem SameTables.of_write {a : Nat} {bytes : List UInt8} (h : m.write a bytes = .ok m') :
    SameTables m m' := by
  obtain ⟨-, rfl⟩ := (Machine.write_iff (w := ⟨a, bytes⟩)).mp h
  exact ⟨rfl, rfl, rfl⟩

theorem SameTables.of_copy {dst src len : Nat} (h : copy dst src len m = .ok m') :
    SameTables m m' := by
  obtain ⟨bytes, -, hwrite⟩ := bind_ok h
  exact .of_write hwrite

theorem clearJudgeResult_m : (clearJudgeResult s).m = s.m := by
  rw [clearJudgeResult]
  split <;> rfl

/-- What an operation does to the state: it changes the caches at most, or it changes bytes, and then
    the result of the judger goes. -/
def Effect (s s' : State) : Prop :=
  (∃ e d, s' = { s with elfCache := e, dataCache := d }) ∨
    ∃ m e d, SameTables s.m m ∧
      s' = clearJudgeResult { s with m := m, elfCache := e, dataCache := d }

theorem Effect.of_update {inRange ret : Bool} {W : Except Fault Machine}
    (hW : ∀ m, W = .ok m → SameTables s.m m)
    (h : (if inRange = true then W >>= fun m => .ok (clearJudgeResult { s with m }, true)
      else .ok (s, false)) = .ok (s', ret)) : Effect s s' := by
  split at h
  · obtain ⟨m, hm, h⟩ := bind_ok h
    cases h
    exact .inr ⟨m, s.elfCache, s.dataCache, hW m hm, rfl⟩
  · cases h
    exact .inl ⟨_, _, rfl⟩

theorem afterLoad_self (which : Which) (a : Nat) :
    s.afterLoad which (s.cache which) a (fun i => s.m.mem (a + i)) = s := by
  have hmem : (place s.m a fun i => s.m.mem (a + i)).mem = s.m.mem := by
    funext i
    simp only [place]
    split
    · next hi => rw [Nat.add_sub_cancel' hi]
    · rfl
  have hplace : place s.m a (fun i => s.m.mem (a + i)) = s.m := by
    rw [Machine.mk.injEq]
    exact ⟨rfl, rfl, rfl, hmem, rfl⟩
  rw [State.afterLoad, hplace]
  cases which <;> rfl

/-- **A load from a cache** changes bytes and the cache, and drops the kept result if it hits. -/
theorem Effect.of_loadCache {name hex : List Char} {off len tsc : Nat} {ret : Bool}
    (h : loadCache name off len hex tsc s = .ok (s', ret)) : Effect s s' := by
  rw [loadCache] at h
  cases hdigest : digestFromHex hex with
  | none =>
    rw [hdigest] at h
    cases h
    exact .inl ⟨_, _, rfl⟩
  | some digest =>
    cases hwhich : cacheNamed name with
    | none =>
      rw [hdigest, hwhich] at h
      cases h
      exact .inl ⟨_, _, rfl⟩
    | some which =>
      rw [hdigest, hwhich] at h
      obtain ⟨⟨c, found, dst⟩, hload, h⟩ := bind_ok h
      simp only at h
      -- no digest, no cache of that name, no object, or a hit
      split at h
      · cases h
      · cases h
        cases ret with
        | true =>
          refine .inr ⟨place s.m (s.addr off) dst, (s.setCache c which).elfCache,
            (s.setCache c which).dataCache, ⟨rfl, rfl, rfl⟩, ?_⟩
          cases which <;> rfl
        | false =>
          have hmiss : ¬ DuckCache.Hit (s.cache which) digest len := fun hit =>
            absurd (DuckCache.ret_of_hit hit hload) (by decide)
          rw [DuckCache.load_of_not_hit hmiss] at hload
          cases hload
          refine .inl ⟨s.elfCache, s.dataCache, ?_⟩
          exact afterLoad_self which (s.addr off)

/-- **A store** changes the cache only. -/
theorem Effect.of_storeCache {name hex : List Char} {off len tsc : Nat} {ret : Bool}
    (h : storeCache p.sorter name off len hex tsc s = .ok (s', ret)) : Effect s s' := by
  rw [storeCache] at h
  cases hdigest : digestFromHex hex with
  | none =>
    rw [hdigest] at h
    cases h
    exact .inl ⟨_, _, rfl⟩
  | some digest =>
    cases hwhich : cacheNamed name with
    | none =>
      rw [hdigest, hwhich] at h
      cases h
      exact .inl ⟨_, _, rfl⟩
    | some which =>
      rw [hdigest, hwhich] at h
      simp only at h
      split at h
      · cases h
      · obtain ⟨⟨c, stored⟩, -, h⟩ := bind_ok h
        cases h
        refine .inl ⟨(s.setCache c which).elfCache, (s.setCache c which).dataCache, ?_⟩
        cases which <;> rfl

/-- **What an operation can do**. -/
theorem exec_effect {op : Op} {out : Out} (h : exec p s op = .ok (s', out)) : Effect s s' := by
  cases op with
  | clear off len | write off data =>
    obtain ⟨⟨t, ret⟩, hop, hout⟩ := map_ok h
    cases hout
    exact .of_update (fun m hm => .of_write hm) hop
  | read off len | compare off1 off2 len =>
    obtain ⟨r, -, hout⟩ := map_ok h
    cases hout
    exact .inl ⟨_, _, rfl⟩
  | copy dstOff srcOff len =>
    obtain ⟨⟨t, ret⟩, hop, hout⟩ := map_ok h
    cases hout
    exact .of_update (fun m hm => .of_copy hm) hop
  | loadCache name off len hex tsc =>
    obtain ⟨⟨t, ret⟩, hop, hout⟩ := map_ok h
    cases hout
    exact .of_loadCache hop
  | storeCache name off len hex tsc =>
    obtain ⟨⟨t, ret⟩, hop, hout⟩ := map_ok h
    cases hout
    exact .of_storeCache hop

end

/-! ## Reading and writing inside -/

section

variable {s : State} {m : Machine} {mem : Nat → UInt8} {off len : Nat}

/-- Inside the buffer, addresses do not wrap around. -/
theorem addr_of_le (hp : Placed s) (h : off ≤ s.bufferSize) : s.addr off = s.buffer + off := by
  have hfits := hp.fits
  have hlt := hp.mapped_lt
  exact u64_of_lt (by omega)

theorem inBuffer_iff : s.inBuffer off len = true ↔ off < s.bufferSize ∧ off + len ≤ s.bufferSize := by
  rw [State.inBuffer, decide_eq_true_eq]
  omega

theorem read_over (hp : Placed s) (h : off + len ≤ s.bufferSize) :
    read (withOutside s mem m) (s.addr off) len = read m (s.addr off) len := by
  have hbytes : listOf (fun i => (withOutside s mem m).mem (s.addr off + i)) len =
      listOf (fun i => m.mem (s.addr off + i)) len := by
    refine listOf_congr fun i hi => ?_
    rw [addr_of_le hp (by omega)]
    exact if_pos (by rw [State.within]; omega)
  rw [read, read, hbytes]
  rfl

theorem write_over (hp : Placed s) (bytes : List UInt8) (h : off + bytes.length ≤ s.bufferSize) :
    (withOutside s mem m).write (s.addr off) bytes = (m.write (s.addr off) bytes).map (withOutside s mem) := by
  have hmem : memcpy (withOutside s mem m).mem (s.addr off) (fun i => bytes.getD i 0) bytes.length =
      fun a => if s.within a then memcpy m.mem (s.addr off) (fun i => bytes.getD i 0) bytes.length a
        else mem a := by
    funext a
    rw [memcpy, memcpy, withOutside, addr_of_le hp (by omega)]
    by_cases ha : s.buffer + off ≤ a ∧ a < s.buffer + off + bytes.length
    · rw [if_pos ha, if_pos ha, if_pos (by rw [State.within]; omega)]
    · rw [if_neg ha, if_neg ha]
  rw [Machine.write, Machine.write, hmem]
  have hmapped : (withOutside s mem m).mapped = m.mapped := rfl
  rw [hmapped]
  split
  · rfl
  · rfl

theorem copy_over {dstOff srcOff : Nat} (hp : Placed s) (hdst : dstOff + len ≤ s.bufferSize)
    (hsrc : srcOff + len ≤ s.bufferSize) :
    copy (s.addr dstOff) (s.addr srcOff) len (withOutside s mem m) =
      (copy (s.addr dstOff) (s.addr srcOff) len m).map (withOutside s mem) := by
  rw [copy, copy, read_over hp hsrc, read]
  split
  · rfl
  · refine write_over hp _ ?_
    rw [length_listOf]
    exact hdst

theorem clearJudgeResult_overlay :
    clearJudgeResult (s.overlay mem) = (clearJudgeResult s).overlay mem := by
  rw [clearJudgeResult, clearJudgeResult]
  show (if s.judgeResultCleared = true then _ else _) = _
  split <;> rfl

end

/-! ## The operations, one by one -/

section

variable {p : Platform} {s : State} {mem : Nat → UInt8}

/-- The three operations that write: memory is changed, and the result of the judger goes. -/
theorem update_overlay {inRange : Bool} {W W' : Except Fault Machine}
    (hW : inRange = true → W' = W.map (withOutside s mem)) :
    (if inRange = true then W' >>= fun m => .ok (clearJudgeResult { s.overlay mem with m }, true)
      else .ok (s.overlay mem, false) : Except Fault (State × Bool)) =
    (if inRange = true then W >>= fun m => .ok (clearJudgeResult { s with m }, true)
      else .ok (s, false)).map fun r => (r.1.overlay mem, r.2) := by
  by_cases h : inRange = true
  · rw [if_pos h, if_pos h, hW h]
    cases W with
    | error e => rfl
    | ok m =>
      show Except.ok (clearJudgeResult (State.overlay { s with m } mem), true) = _
      rw [clearJudgeResult_overlay]
      rfl
  · rw [if_neg h, if_neg h]
    rfl

/-- A result of an operation, with other bytes outside. -/
theorem map_overlay {r r' : Except Fault (State × Bool)}
    (h : r' = r.map fun r => (r.1.overlay mem, r.2)) :
    (r'.map fun r => (r.1, Out.done r.2)) =
      (r.map fun r => (r.1, Out.done r.2)).map fun r => (r.1.overlay mem, r.2) := by
  rw [h]
  cases r <;> rfl

theorem local_clear (hp : Placed s) (off len : Nat) : Local p s (.clear off len) := by
  intro mem
  refine map_overlay (update_overlay fun h => write_over hp _ ?_)
  rw [List.length_replicate]
  exact (inBuffer_iff.mp h).2

theorem local_write (hp : Placed s) (off : Nat) (data : List UInt8) :
    Local p s (.write off data) := by
  intro mem
  refine map_overlay (update_overlay fun h => write_over hp _ ?_)
  exact (inBuffer_iff.mp h).2

theorem local_copy (hp : Placed s) (dstOff srcOff len : Nat) :
    Local p s (.copy dstOff srcOff len) := by
  intro mem
  refine map_overlay (update_overlay fun h => ?_)
  obtain ⟨⟨hdst, hsrc⟩, -⟩ := (Bool.and_eq_true_iff.trans (and_congr_left' Bool.and_eq_true_iff)).mp h
  show copy (s.addr dstOff) (s.addr srcOff) len (withOutside s mem s.m) = _
  exact copy_over hp (inBuffer_iff.mp hdst).2 (inBuffer_iff.mp hsrc).2

theorem local_read (hp : Placed s) (off len : Nat) : Local p s (.read off len) := by
  intro mem
  rw [exec, exec, readBuffer, readBuffer]
  show Except.map _ (if s.inBuffer off len = true then _ else _) = _
  by_cases h : s.inBuffer off len = true
  · rw [if_pos h, if_pos h]
    show Except.map _ (read (withOutside s mem s.m) (s.addr off) len >>= _) = _
    rw [read_over hp (inBuffer_iff.mp h).2]
    cases read s.m (s.addr off) len <;> rfl
  · rw [if_neg h, if_neg h]
    rfl

theorem local_compare (hp : Placed s) (off1 off2 len : Nat) : Local p s (.compare off1 off2 len) := by
  intro mem
  rw [exec, exec, compareBuffer, compareBuffer]
  show Except.map _ (if (s.inBuffer off1 len && s.inBuffer off2 len) = true then _ else _) = _
  by_cases h : (s.inBuffer off1 len && s.inBuffer off2 len) = true
  · obtain ⟨h1, h2⟩ := Bool.and_eq_true_iff.mp h
    rw [if_pos h, if_pos h]
    show Except.map _ (read (withOutside s mem s.m) (s.addr off1) len >>= fun bytes1 =>
      read (withOutside s mem s.m) (s.addr off2) len >>= _) = _
    rw [read_over hp (inBuffer_iff.mp h1).2, read_over hp (inBuffer_iff.mp h2).2]
    cases read s.m (s.addr off1) len with
    | error e => rfl
    | ok bytes1 => cases read s.m (s.addr off2) len <;> rfl
  · rw [if_neg h, if_neg h]
    rfl

/-- The destination of a load, with other bytes outside of the buffer. -/
def overFrom (s : State) (mem : Nat → UInt8) (a : Nat) (dst : Nat → UInt8) : Nat → UInt8 :=
  fun i => if s.within (a + i) then dst i else mem (a + i)

/-- A load to a range inside the buffer. -/
theorem load_overFrom {c : Cache} {digest : Digest256} {off len tsc : Nat} (hp : Placed s)
    (h : off + len ≤ s.bufferSize) (dst : Nat → UInt8) :
    DuckCache.load c digest (overFrom s mem (s.addr off) dst) len tsc =
      (DuckCache.load c digest dst len tsc).map
        fun r => (r.1, r.2.1, overFrom s mem (s.addr off) r.2.2) := by
  have hsize := hp.size_lt
  have haddr := addr_of_le hp (show off ≤ s.bufferSize by omega)
  refine DuckCache.load_map (overFrom s mem (s.addr off)) (by omega) ?_
  intro f src start n hn
  funext i
  rw [memcpy, overFrom, overFrom, memcpy, haddr]
  by_cases hi : start ≤ i ∧ i < start + n
  · rw [if_pos hi, if_pos hi, if_pos (by rw [State.within]; omega)]
  · rw [if_neg hi, if_neg hi]

/-- A load into the buffer, over other bytes outside. -/
theorem afterLoad_overlay (which : Which) (c : Cache) (a : Nat) (dst : Nat → UInt8) :
    (s.overlay mem).afterLoad which c a (overFrom s mem a dst) =
      (s.afterLoad which c a dst).overlay mem := by
  have hmem : (place (withOutside s mem s.m) a (overFrom s mem a dst)).mem =
      (withOutside s mem (place s.m a dst)).mem := by
    funext i
    simp only [place, withOutside, overFrom]
    by_cases hi : a ≤ i
    · rw [if_pos hi, if_pos hi, Nat.add_sub_cancel' hi]
    · rw [if_neg hi, if_neg hi]
  have hplace : place (withOutside s mem s.m) a (overFrom s mem a dst) =
      withOutside s mem (place s.m a dst) := by
    rw [Machine.mk.injEq]
    exact ⟨rfl, rfl, rfl, hmem, rfl⟩
  rw [State.afterLoad, show (s.overlay mem).m = withOutside s mem s.m from rfl, hplace]
  cases which <;> rfl

/-- **A load is local only if its range is inside**: nothing tests it. -/
theorem local_loadCache (hp : Placed s) (name : List Char) (off len : Nat) (hex : List Char)
    (tsc : Nat) (h : off + len ≤ s.bufferSize) : Local p s (.loadCache name off len hex tsc) := by
  intro mem
  refine map_overlay ?_
  rw [loadCache, loadCache]
  cases digestFromHex hex with
  | none => rfl
  | some digest =>
    cases cacheNamed name with
    | none => rfl
    | some which =>
      have hcache : (s.overlay mem).cache which = s.cache which := by cases which <;> rfl
      show DuckCache.load ((s.overlay mem).cache which) digest
        (overFrom s mem (s.addr off) fun i => s.m.mem (s.addr off + i)) len tsc >>= _ = _
      rw [hcache, load_overFrom hp h]
      show _ = Except.map _ (DuckCache.load (s.cache which) digest
        (fun i => s.m.mem (s.addr off + i)) len tsc >>= _)
      cases DuckCache.load (s.cache which) digest (fun i => s.m.mem (s.addr off + i)) len tsc with
      | error e => rfl
      | ok r =>
        obtain ⟨c, ret, dst⟩ := r
        show (if (ret && !s.plain (s.addr off) len) = true then _ else _) =
          Except.map _ (if (ret && !s.plain (s.addr off) len) = true then _ else _)
        split
        · rfl
        · rw [show (s.overlay mem).addr off = s.addr off from rfl, afterLoad_overlay]
          rw [clearJudgeResult_overlay]
          cases ret <;> rfl

/-- **And so is a store.** -/
theorem local_storeCache (hp : Placed s) (name : List Char) (off len : Nat) (hex : List Char)
    (tsc : Nat) (h : off + len ≤ s.bufferSize) : Local p s (.storeCache name off len hex tsc) := by
  intro mem
  refine map_overlay ?_
  rw [storeCache, storeCache]
  cases digestFromHex hex with
  | none => rfl
  | some digest =>
    cases cacheNamed name with
    | none => rfl
    | some which =>
      have hsize := hp.size_lt
      have haddr := addr_of_le hp (show off ≤ s.bufferSize by omega)
      have hcache : (s.overlay mem).cache which = s.cache which := by cases which <;> rfl
      have hstore : DuckCache.store p.sorter (s.cache which) digest
            (fun i => (s.overlay mem).m.mem (s.addr off + i)) len tsc =
          DuckCache.store p.sorter (s.cache which) digest
            (fun i => s.m.mem (s.addr off + i)) len tsc := by
        refine DuckCache.store_congr (by omega) ?_
        intro i hi
        rw [haddr]
        exact if_pos (by rw [State.within]; omega)
      show (if (copies ((s.overlay mem).cache which) digest len && !s.plain (s.addr off) len) = true
        then _ else DuckCache.store p.sorter ((s.overlay mem).cache which) digest
          (fun i => (s.overlay mem).m.mem (s.addr off + i)) len tsc >>= _) = _
      rw [hcache, hstore]
      show _ = Except.map _ (if (copies (s.cache which) digest len && !s.plain (s.addr off) len) = true
        then _ else _)
      split
      · rfl
      · cases DuckCache.store p.sorter (s.cache which) digest (fun i => s.m.mem (s.addr off + i)) len
          tsc with
        | error e => rfl
        | ok r => cases which <;> rfl

/-! ## Refusals -/

/-- A range that is not inside the buffer does not pass the test. -/
theorem inBuffer_eq_false {off len : Nat} (h : ¬ off + len ≤ s.bufferSize) :
    s.inBuffer off len = false :=
  Bool.eq_false_iff.mpr fun h' => h (inBuffer_iff.mp h').2

/-- A cache that does not carry out a load leaves everything as it is. -/
theorem exec_loadCache_of_not_accepted {name : List Char} {off len : Nat} {hex : List Char}
    {tsc : Nat} (h : ¬ Accepted s (.loadCache name off len hex tsc)) :
    exec p s (.loadCache name off len hex tsc) = .ok (s, .done false) := by
  rw [exec, loadCache]
  cases hdigest : digestFromHex hex with
  | none => rfl
  | some digest =>
    cases hwhich : cacheNamed name with
    | none => rfl
    | some which =>
      have hmiss : ¬ DuckCache.Hit (s.cache which) digest len := fun hit =>
        h ⟨digest, which, hdigest, hwhich, hit⟩
      simp only
      rw [bind_of_ok (DuckCache.load_of_not_hit hmiss)]
      show Except.ok (s.afterLoad which (s.cache which) (s.addr off) _, Out.done false) = _
      rw [afterLoad_self]

theorem exec_storeCache_of_not_accepted {name : List Char} {off len : Nat} {hex : List Char}
    {tsc : Nat} (h : ¬ Accepted s (.storeCache name off len hex tsc)) :
    exec p s (.storeCache name off len hex tsc) = .ok (s, .done false) := by
  rw [exec, storeCache]
  cases hdigest : digestFromHex hex with
  | none => rfl
  | some digest =>
    cases hwhich : cacheNamed name with
    | none => rfl
    | some which =>
      have hno : ¬ DuckCache.Storable (s.cache which) digest len := fun hyes =>
        h ⟨digest, which, hdigest, hwhich, hyes⟩
      have hcopies : copies (s.cache which) digest len = false := by
        rw [copies, decide_eq_false fun hle => hno (.inr hle), Bool.and_false]
      simp only [hcopies, Bool.false_and]
      show Except.map _ (DuckCache.store p.sorter (s.cache which) digest
        (fun i => s.m.mem (s.addr off + i)) len tsc >>= _) = _
      rw [bind_of_ok (DuckCache.store_of_not_storable hno)]
      cases which <;> rfl

/-- A request with a range that is not inside the buffer, and that no cache carries out. -/
theorem exec_refused {op : Op} (hinside : ¬ op.Inside s.bufferSize) (hno : ¬ Accepted s op) :
    exec p s op = .ok (s, op.refused) := by
  cases op with
  | clear off len =>
    have hin : s.inBuffer off len = false :=
      inBuffer_eq_false ((Op.inside_single rfl).not.mp hinside)
    rw [exec, clearBuffer, hin]
    rfl
  | read off len =>
    have hin : s.inBuffer off len = false :=
      inBuffer_eq_false ((Op.inside_single rfl).not.mp hinside)
    rw [exec, readBuffer, hin]
    rfl
  | write off data =>
    have hin : s.inBuffer off data.length = false :=
      inBuffer_eq_false ((Op.inside_single rfl).not.mp hinside)
    rw [exec, writeBuffer, hin]
    rfl
  | copy dstOff srcOff len =>
    have hin : (s.inBuffer dstOff len && s.inBuffer srcOff len) = false := by
      rw [← Bool.not_eq_true, Bool.and_eq_true, inBuffer_iff, inBuffer_iff]
      rintro ⟨⟨-, h1⟩, -, h2⟩
      exact hinside (by simp [Op.Inside, Op.ranges, h1, h2])
    rw [exec, copyBuffer, hin]
    rfl
  | compare off1 off2 len =>
    have hin : (s.inBuffer off1 len && s.inBuffer off2 len) = false := by
      rw [← Bool.not_eq_true, Bool.and_eq_true, inBuffer_iff, inBuffer_iff]
      rintro ⟨⟨-, h1⟩, -, h2⟩
      exact hinside (by simp [Op.Inside, Op.ranges, h1, h2])
    rw [exec, compareBuffer, hin]
    rfl
  | loadCache name off len hex tsc => exact exec_loadCache_of_not_accepted hno
  | storeCache name off len hex tsc => exact exec_storeCache_of_not_accepted hno

/-- A request that a cache carries out does not return `false`. -/
theorem out_of_accepted {op : Op} {s' : State} {out : Out} (h : Accepted s op)
    (hexec : exec p s op = .ok (s', out)) : out = .done true := by
  cases op with
  | loadCache name off len hex tsc =>
    obtain ⟨digest, which, hdigest, hwhich, hit⟩ := h
    rw [exec, loadCache, hdigest, hwhich] at hexec
    obtain ⟨⟨t, ret⟩, hop, hout⟩ := map_ok hexec
    obtain ⟨⟨c, found, dst⟩, hload, hop⟩ := bind_ok hop
    have hfound := DuckCache.ret_of_hit hit hload
    simp only at hop
    split at hop
    · cases hop
    · cases hop
      cases hout
      rw [hfound]
  | storeCache name off len hex tsc =>
    obtain ⟨digest, which, hdigest, hwhich, hyes⟩ := h
    rw [exec, storeCache, hdigest, hwhich] at hexec
    obtain ⟨⟨t, ret⟩, hop, hout⟩ := map_ok hexec
    simp only at hop
    split at hop
    · cases hop
    · obtain ⟨⟨c, stored⟩, hstore, hop⟩ := bind_ok hop
      have hstored := DuckCache.ret_of_storable hyes hstore
      cases hop
      cases hout
      rw [hstored]
  | _ => exact h.elim

/-! ## All operations -/

theorem Effect.buffer {s' : State} (h : Effect s s') :
    s'.buffer = s.buffer ∧ s'.bufferSize = s.bufferSize := by
  rcases h with ⟨e, d, rfl⟩ | ⟨m, e, d, -, rfl⟩
  · exact ⟨rfl, rfl⟩
  · rw [clearJudgeResult]
    split <;> exact ⟨rfl, rfl⟩

theorem overlay_self : s.overlay s.m.mem = s := by
  have hmem : (withOutside s s.m.mem s.m).mem = s.m.mem := by
    funext a
    exact ite_self _
  have hover : withOutside s s.m.mem s.m = s.m := by
    rw [Machine.mk.injEq]
    exact ⟨rfl, rfl, rfl, hmem, rfl⟩
  rw [State.overlay, hover]

theorem local_of_inside (hp : Placed s) {op : Op} (h : op.Inside s.bufferSize) : Local p s op := by
  cases op with
  | clear off len => exact local_clear hp off len
  | read off len => exact local_read hp off len
  | write off data => exact local_write hp off data
  | copy dstOff srcOff len => exact local_copy hp dstOff srcOff len
  | compare off1 off2 len => exact local_compare hp off1 off2 len
  | loadCache name off len hex tsc =>
    exact local_loadCache hp name off len hex tsc ((Op.inside_single rfl).mp h)
  | storeCache name off len hex tsc =>
    exact local_storeCache hp name off len hex tsc ((Op.inside_single rfl).mp h)

/-- **Which operations keep to the buffer**: all of those that a cache does not carry out, or whose
    range is inside. -/
theorem keepsToBuffer_iff (hp : Placed s) (op : Op) :
    KeepsToBuffer p s op ↔ (Accepted s op → op.Inside s.bufferSize) := by
  constructor
  · intro h haccepted
    by_contra hinside
    have hout := out_of_accepted haccepted (h.refused hinside)
    cases op with
    | loadCache => cases hout
    | storeCache => cases hout
    | _ => exact haccepted
  · intro h
    have hrefused : ¬ op.Inside s.bufferSize → exec p s op = .ok (s, op.refused) := by
      intro hinside
      exact exec_refused hinside fun haccepted => hinside (h haccepted)
    have hlocal : Local p s op := by
      by_cases hinside : op.Inside s.bufferSize
      · exact local_of_inside hp hinside
      · -- other bytes do not change whether a cache carries out the request
        intro mem
        have haccepted : ¬ Accepted (s.overlay mem) op := by
          intro hacc
          refine hinside (h ?_)
          cases op with
          | loadCache =>
            obtain ⟨digest, which, hdigest, hwhich, hit⟩ := hacc
            refine ⟨digest, which, hdigest, hwhich, ?_⟩
            cases which <;> exact hit
          | storeCache =>
            obtain ⟨digest, which, hdigest, hwhich, hyes⟩ := hacc
            refine ⟨digest, which, hdigest, hwhich, ?_⟩
            cases which <;> exact hyes
          | _ => exact hacc
        have hover : exec p (s.overlay mem) op = .ok (s.overlay mem, op.refused) :=
          exec_refused hinside haccepted
        rw [hrefused hinside, hover]
        rfl
    refine ⟨hrefused, hlocal, ?_⟩
    intro s' out hexec a ha
    have hsame := hlocal s.m.mem
    rw [overlay_self, hexec] at hsame
    obtain ⟨hbuffer, hsize⟩ := (exec_effect hexec).buffer
    have hs' : s' = s'.overlay s.m.mem := congrArg Prod.fst (Except.ok.inj hsame)
    rw [hs']
    refine if_neg ?_
    rw [State.within, hbuffer, hsize]
    exact ha

end

end JudgeDuck.Judger
