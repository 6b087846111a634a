/-
  What the user libraries read and write.

  An output holds the first `limit` bytes of all that was written to it (`Output.Holds`).  The two
  libraries differ in what `duck_write` returns, and so in where `duck_writev` stops; but a loop that
  stops early has met a full output, and then the vectors it leaves out change nothing
  (`Holds.full`).  Reading is the same with the end of the input: a short read has met it.
-/
import JudgeDuck.UserLib.Model

namespace JudgeDuck.UserLib

open JudgeDuck.Lib

/-! ## Specification -/

/-- All bytes of some vectors. -/
def gather (mem : Mem) (iov : List Iovec) : List UInt8 :=
  iov.flatMap fun v => listOf (fun i => mem (v.base + i)) v.len

/-- How many bytes some vectors have. -/
def total (iov : List Iovec) : Nat := (iov.map Iovec.len).sum

/-- Bytes are stored to some vectors, in order, as far as they go. -/
def scatter (mem : Mem) : List Iovec → List UInt8 → Mem
  | [], _ => mem
  | v :: iov, l =>
    scatter (memcpy mem v.base (fun i => l.getD i 0) (min v.len l.length)) iov (l.drop v.len)

/-- Bytes for the output `k`, when they are written to `fd`. -/
def sentTo (k fd : Int) (l : List UInt8) : List UInt8 := if fd = k then l else []

/-- What a call writes to the output `k`. -/
def Syscall.written (k : Int) (mem : Mem) : Syscall → List UInt8
  | .write fd buf len => sentTo k fd (gather mem [⟨buf, len⟩])
  | .writev fd iov => sentTo k fd (gather mem iov)
  | _ => []

/-- How many bytes of the input a call asks for. -/
def Syscall.asked : Syscall → Nat
  | .read fd _ len => if fd = 0 then len else 0
  | .readv fd iov => if fd = 0 then total iov else 0
  | _ => 0

/-- What is left of the input when `asked` bytes of it were asked for. -/
def DuckInfo.input (info : DuckInfo) (asked : Nat) : List UInt8 :=
  (listOf info.stdin info.stdinSize).drop asked

/-- The sizes that go through an `int` are not negative there. -/
def Syscall.Fits : Syscall → Prop
  | .read _ _ len => len < 2 ^ 31
  | .readv _ iov => iov.length < 2 ^ 31
  | .writev _ iov => iov.length < 2 ^ 31
  | _ => True

instance : DecidablePred Syscall.Fits
  | .brk _ => inferInstanceAs (Decidable True)
  | .read _ _ len => inferInstanceAs (Decidable (len < 2 ^ 31))
  | .readv _ iov => inferInstanceAs (Decidable (iov.length < 2 ^ 31))
  | .write _ _ _ => inferInstanceAs (Decidable True)
  | .writev _ iov => inferInstanceAs (Decidable (iov.length < 2 ^ 31))
  | .mmap _ _ => inferInstanceAs (Decidable True)

/-! ## An output -/

/-- The output holds the first `limit` bytes of `data`, and its region is as before behind them. -/
structure Output.Holds (o : Output) (bytes : Nat → UInt8) (limit : Nat) (data : List UInt8) :
    Prop where
  maxSize : o.maxSize = limit
  size : o.size = min limit data.length
  content : listOf o.bytes o.size = data.take limit
  rest : ∀ i, o.size ≤ i → o.bytes i = bytes i

/-- What the kernel sees of an output. -/
def Output.Shows (o : Output) (bytes : Nat → UInt8) (limit : Nat) (data : List UInt8) : Prop :=
  o.size = min limit data.length ∧ listOf o.bytes o.size = data.take limit ∧
    ∀ i, limit ≤ i → o.bytes i = bytes i

theorem Output.Holds.shows {o : Output} {bytes : Nat → UInt8} {limit : Nat} {data : List UInt8}
    (h : o.Holds bytes limit data) : o.Shows bytes limit data := by
  have hsize := h.size
  exact ⟨h.size, h.content, fun i hi => h.rest i (by omega)⟩

theorem two_pow_bits (lib : Library) : 2 ^ 32 ≤ 2 ^ lib.bits := by
  cases lib <;> decide

theorem word_of_lt (lib : Library) {x : Nat} (hx : x < 2 ^ 32) : lib.word x = x :=
  Nat.mod_eq_of_lt (Nat.lt_of_lt_of_le hx (two_pow_bits lib))

/-- A difference of words. -/
theorem word_sub (lib : Library) {x y : Nat} (hx : x < 2 ^ 32) (hy : y ≤ x) :
    lib.word (x + 2 ^ lib.bits - y) = x - y := by
  have hbits := two_pow_bits lib
  rw [Library.word, show x + 2 ^ lib.bits - y = x - y + 2 ^ lib.bits by omega,
    Nat.add_mod_right]
  exact Nat.mod_eq_of_lt (by omega)

section

variable {o : Output} {bytes : Nat → UInt8} {limit : Nat} {data : List UInt8}

/-- **Appending**: as many bytes as there is room for. -/
theorem Output.Holds.append (h : o.Holds bytes limit data) (hlimit : limit < 2 ^ 32)
    (lib : Library) (buf : Nat → UInt8) (len : Nat) :
    (o.append lib buf len).1.Holds bytes limit (data ++ listOf buf len) ∧
      (o.append lib buf len).2 = min len (limit - o.size) := by
  have hsize := h.size
  have havailable : lib.word (o.maxSize + 2 ^ lib.bits - o.size) = limit - o.size := by
    rw [h.maxSize]
    exact word_sub lib hlimit (by omega)
  have hactual : (o.append lib buf len).2 = min len (limit - o.size) := by
    rw [Output.append, havailable]
  set actual := min len (limit - o.size) with hdef
  have hnew : (o.append lib buf len).1 =
      { o with bytes := memcpy o.bytes o.size buf actual, size := o.size + actual } := by
    have hword : lib.word (o.size + actual) = o.size + actual := word_of_lt lib (by omega)
    rw [Output.append, havailable, ← hdef, hword]
  refine ⟨?_, hactual⟩
  rw [hnew]
  refine ⟨h.maxSize, ?_, ?_, fun i hi => ?_⟩
  · show o.size + actual = min limit (data ++ listOf buf len).length
    rw [List.length_append, length_listOf]
    omega
  · show listOf (memcpy o.bytes o.size buf actual) (o.size + actual) = _
    have hold : listOf (memcpy o.bytes o.size buf actual) o.size = data.take limit := by
      rw [← h.content]
      exact listOf_congr fun i hi => memcpy_of_lt hi
    rw [listOf_add, hold, listOf_memcpy, List.take_append, take_listOf,
      show min (limit - data.length) len = actual by omega]
  · have hi : o.size + actual ≤ i := hi
    show memcpy o.bytes o.size buf actual i = bytes i
    rw [memcpy_of_ge hi, h.rest i (by omega)]

/-- What is written behind the limit is not stored. -/
theorem Output.Holds.full (h : o.Holds bytes limit data) (hfull : o.size = limit)
    (more : List UInt8) : o.Holds bytes limit (data ++ more) := by
  have hsize := h.size
  refine ⟨h.maxSize, ?_, ?_, h.rest⟩
  · rw [List.length_append]
    omega
  · rw [h.content, List.take_append_of_le_length (by omega)]

/-- The same for `more` bytes that are not written, when the result of `duck_write` is short: the
    output is full then. -/
theorem Output.Holds.write (h : o.Holds bytes limit data) (hlimit : limit < 2 ^ 32)
    (lib : Library) (buf : Nat → UInt8) (len : Nat) {more : List UInt8}
    (hmore : more = [] ∨ lib.writeResult len (o.append lib buf len).2 ≠ len) :
    (o.append lib buf len).1.Holds bytes limit (data ++ (listOf buf len ++ more)) := by
  obtain ⟨happend, hactual⟩ := h.append hlimit lib buf len
  rcases hmore with rfl | hshort
  · rw [List.append_nil]
    exact happend
  · rw [← List.append_assoc]
    refine happend.full ?_ more
    have hsize := h.size
    have hsize' := happend.size
    rw [List.length_append, length_listOf] at hsize'
    cases lib with
    | duck64 => exact absurd rfl hshort
    | duck32 =>
      have hshort : (o.append .duck32 buf len).2 ≠ len := hshort
      omega

end

/-! ## The state -/

/-- After some calls: `out` and `err` were written, and `asked` bytes of the input asked for. -/
structure Served (info : DuckInfo) (s : State) (out err : List UInt8) (asked : Nat) : Prop where
  inited : s.inited = true
  stdout : s.stdout.Holds info.stdout info.stdoutLimit out
  stderr : s.stderr.Holds info.stderr info.stderrLimit err
  stdin : s.stdin = info.stdin
  stdinSize : s.stdinSize = info.stdinSize
  stdinCurrPos : s.stdinCurrPos = min info.stdinSize asked

/-- What goes to a descriptor, one part after the other. -/
theorem sentTo_append (k fd : Int) (l l' : List UInt8) :
    sentTo k fd (l ++ l') = sentTo k fd l ++ sentTo k fd l' := by
  by_cases h : fd = k
  · simp only [sentTo, if_pos h]
  · simp only [sentTo, if_neg h, List.append_nil]

theorem sentTo_self (k : Int) (l : List UInt8) : sentTo k k l = l := if_pos rfl

theorem sentTo_of_ne {k fd : Int} (h : fd ≠ k) (l : List UInt8) : sentTo k fd l = [] := if_neg h

theorem DuckInfo.length_input (info : DuckInfo) (asked : Nat) :
    (info.input asked).length = info.stdinSize - asked := by
  rw [DuckInfo.input, List.length_drop, length_listOf]

section

variable {info : DuckInfo} {s : State} {out err : List UInt8} {asked : Nat}

/-- `init` of a fresh program. -/
theorem init_served (lib : Library) (img : Image) (info : DuckInfo) :
    Served info (init lib img (State.fresh img info)) [] [] 0 where
  inited := rfl
  stdout := ⟨rfl, (Nat.min_zero _).symm, List.take_nil.symm, fun _ _ => rfl⟩
  stderr := ⟨rfl, (Nat.min_zero _).symm, List.take_nil.symm, fun _ _ => rfl⟩
  stdin := rfl
  stdinSize := rfl
  stdinCurrPos := (Nat.min_zero _).symm

/-! ## Writing -/

/-- **`duck_write`**, and `more` bytes that are not written after a short result. -/
theorem duckWrite_served (h : Served info s out err asked) (lib : Library) (mem : Mem) (fd : Int)
    (v : Iovec) {more : List UInt8}
    (hmore : more = [] ∨ (duckWrite lib mem s fd v.base v.len).2 ≠ v.len) :
    Served info (duckWrite lib mem s fd v.base v.len).1
      (out ++ sentTo 1 fd (listOf (fun i => mem (v.base + i)) v.len ++ more))
      (err ++ sentTo 2 fd (listOf (fun i => mem (v.base + i)) v.len ++ more)) asked := by
  rw [duckWrite] at hmore ⊢
  rcases eq_or_ne fd 1 with rfl | h1
  · rw [if_pos rfl] at hmore ⊢
    rw [sentTo_self, sentTo_of_ne (by decide), List.append_nil]
    exact { h with stdout := h.stdout.write info.stdoutLimit_lt lib _ _ hmore }
  · rw [if_neg h1] at hmore ⊢
    rw [sentTo_of_ne h1, List.append_nil]
    rcases eq_or_ne fd 2 with rfl | h2
    · rw [if_pos rfl] at hmore ⊢
      rw [sentTo_self]
      exact { h with stderr := h.stderr.write info.stderrLimit_lt lib _ _ hmore }
    · rw [if_neg h2, sentTo_of_ne h2, List.append_nil]
      exact h

/-- The buffers of a vector, one after the other. -/
theorem gather_cons (mem : Mem) (v : Iovec) (iov : List Iovec) :
    gather mem (v :: iov) = listOf (fun i => mem (v.base + i)) v.len ++ gather mem iov :=
  List.flatMap_cons

theorem gather_singleton (mem : Mem) (v : Iovec) :
    gather mem [v] = listOf (fun i => mem (v.base + i)) v.len := by
  rw [gather_cons, gather, List.flatMap_nil, List.append_nil]

/-- **`duck_writev`**: the same as one write of all vectors, wherever the loop stops. -/
theorem writevLoop_served (h : Served info s out err asked) (lib : Library) (mem : Mem) (fd : Int)
    (iov : List Iovec) (ret : Nat) :
    Served info (vectorLoop lib (fun s v => duckWrite lib mem s fd v.base v.len) iov s ret).1
      (out ++ sentTo 1 fd (gather mem iov)) (err ++ sentTo 2 fd (gather mem iov)) asked := by
  induction iov generalizing s out err ret with
  | nil =>
    have hnil : ∀ k, sentTo k fd (gather mem []) = [] := fun k => ite_self []
    rw [hnil, hnil, List.append_nil, List.append_nil]
    exact h
  | cons v iov ih =>
    rw [gather_cons]
    rcases eq_or_ne (duckWrite lib mem s fd v.base v.len).2 v.len with hwhole | hshort
    · rw [vectorLoop_whole lib hwhole, sentTo_append, sentTo_append, ← List.append_assoc,
        ← List.append_assoc]
      have h' := duckWrite_served h lib mem fd v (Or.inl rfl)
      rw [List.append_nil] at h'
      exact ih h' _
    · rw [vectorLoop_short lib hshort]
      exact duckWrite_served h lib mem fd v (Or.inr hshort)

/-! ## Reading -/

/-- The input is at its end. -/
theorem Served.exhausted (h : Served info s out err asked) (hend : info.stdinSize ≤ asked)
    (more : Nat) : Served info s out err (asked + more) := by
  refine { h with stdinCurrPos := ?_ }
  rw [h.stdinCurrPos]
  omega

/-- **`duck_read`** gives the next bytes of the input. -/
theorem duckRead_served (h : Served info s out err asked) (lib : Library) (mem : Mem) (v : Iovec) :
    let r := duckRead lib s mem 0 v.base v.len
    let rest := info.input asked
    Served info r.1.1 out err (asked + v.len) ∧
      r.1.2 = memcpy mem v.base (fun i => rest.getD i 0) (min v.len rest.length) ∧
      r.2 = min v.len rest.length := by
  intro r rest
  have hlt := info.stdinSize_lt
  have hrest : rest.length = info.stdinSize - asked := info.length_input asked
  have hpos := h.stdinCurrPos
  have havailable : lib.word (s.stdinSize + 2 ^ lib.bits - s.stdinCurrPos) = rest.length := by
    rw [h.stdinSize, word_sub lib hlt (by omega)]
    omega
  have hr : r = (({ s with stdinCurrPos := lib.word (s.stdinCurrPos + min v.len rest.length) },
      memcpy mem v.base (fun i => s.stdin (s.stdinCurrPos + i)) (min v.len rest.length)),
      min v.len rest.length) := by
    show duckRead lib s mem 0 v.base v.len = _
    rw [duckRead, if_pos rfl, havailable]
  rw [hr]
  refine ⟨{ h with stdinCurrPos := ?_ }, ?_, rfl⟩
  · show lib.word (s.stdinCurrPos + min v.len rest.length) = min info.stdinSize (asked + v.len)
    rw [word_of_lt lib (by omega)]
    omega
  · show memcpy mem v.base (fun i => s.stdin (s.stdinCurrPos + i)) (min v.len rest.length) = _
    refine memcpy_congr fun i hi => ?_
    have hi : i < info.stdinSize - asked := by omega
    show s.stdin (s.stdinCurrPos + i) = (info.input asked).getD i 0
    rw [DuckInfo.input, drop_listOf, getD_listOf hi, h.stdin, hpos,
      Nat.min_eq_right (show asked ≤ info.stdinSize by omega)]

theorem scatter_nil (mem : Mem) (iov : List Iovec) : scatter mem iov [] = mem := by
  induction iov generalizing mem with
  | nil => rfl
  | cons v iov ih =>
    rw [scatter, List.drop_nil, ih, List.length_nil, Nat.min_zero, memcpy_none]

/-- **`duck_readv`** fills the vectors with the next bytes of the input. -/
theorem readvLoop_served (h : Served info s out err asked) (lib : Library) (mem : Mem)
    (iov : List Iovec) (ret : Nat) (hret : ret + (info.stdinSize - asked) < 2 ^ 32) :
    let r := vectorLoop lib (fun s v => duckRead lib s.1 s.2 0 v.base v.len) iov (s, mem) ret
    Served info r.1.1 out err (asked + total iov) ∧
      r.1.2 = scatter mem iov (info.input asked) ∧
      r.2 = ret + min (total iov) (info.stdinSize - asked) := by
  induction iov generalizing s asked mem ret with
  | nil => exact ⟨h, rfl, (congrArg (ret + ·) (Nat.zero_min _)).symm⟩
  | cons v iov ih =>
    obtain ⟨hserved, hmem, htmp⟩ := duckRead_served h lib mem v
    have hlength := info.length_input asked
    have htotal : total (v :: iov) = v.len + total iov := rfl
    rw [htotal, scatter, ← hmem, ← Nat.add_assoc]
    rcases Nat.lt_or_ge (info.stdinSize - asked) v.len with hend | henough
    · -- the input ends here
      have hshort : (duckRead lib s mem 0 v.base v.len).2 ≠ v.len := by omega
      rw [vectorLoop_short lib hshort, List.drop_eq_nil_of_le (by omega), scatter_nil]
      refine ⟨hserved.exhausted (by omega) _, rfl, ?_⟩
      show (if (duckRead lib s mem 0 v.base v.len).2 ≤ v.len then _ else _) = _
      rw [if_pos (by omega), htmp, word_of_lt lib (by omega)]
      omega
    · have hwhole : (duckRead lib s mem 0 v.base v.len).2 = v.len := by omega
      rw [vectorLoop_whole lib hwhole, word_of_lt lib (by omega)]
      obtain ⟨hserved', hmem', hret'⟩ := ih hserved (duckRead lib s mem 0 v.base v.len).1.2
        (ret + v.len) (by omega)
      have hrest : (info.input asked).drop v.len = info.input (asked + v.len) := List.drop_drop
      rw [hrest]
      refine ⟨hserved', hmem', ?_⟩
      rw [hret']
      omega

/-! ## Calls -/

/-- Lengths below 2^31 are not negative as an `int`. -/
theorem toInt_of_lt {n : Nat} (h : n < 2 ^ 31) : toInt n = n := by
  rw [toInt, BitVec.toInt_ofNat']
  exact Int.bmod_eq_of_le (by omega) (by omega)

theorem sizeT_toInt (lib : Library) {n : Nat} (h : n < 2 ^ 31) : lib.sizeT (toInt n) = n := by
  have hword := word_of_lt lib (show n < 2 ^ 32 by omega)
  rw [toInt_of_lt h, Library.sizeT, ← Int.natCast_mod, Int.toNat_natCast]
  exact hword

theorem take_toInt {iov : List Iovec} (h : iov.length < 2 ^ 31) :
    iov.take (toInt iov.length).toNat = iov := by
  rw [toInt_of_lt h, Int.toNat_natCast, List.take_length]

/-- **One call**, of either library. -/
theorem serve_served (h : Served info s out err asked) (lib : Library) (mem : Mem) {call : Syscall}
    (hfit : call.Fits) :
    Served info (serve lib s mem call).1.1 (out ++ call.written 1 mem) (err ++ call.written 2 mem)
      (asked + call.asked) := by
  cases call with
  | brk addr =>
    show Served info (duckBrk s addr).1 (out ++ []) (err ++ []) asked
    rw [List.append_nil, List.append_nil, duckBrk_fst]
    exact { h with }
  | read fd buf len =>
    simp only [serve, Syscall.written, Syscall.asked, List.append_nil]
    rw [sizeT_toInt lib hfit]
    rcases eq_or_ne fd 0 with rfl | hfd
    · rw [if_pos rfl]
      exact (duckRead_served h lib mem ⟨buf, len⟩).1
    · rw [if_neg hfd, duckRead, if_neg hfd]
      exact h
  | readv fd iov =>
    simp only [serve, Syscall.written, Syscall.asked, List.append_nil]
    rw [duckReadv, take_toInt hfit]
    rcases eq_or_ne fd 0 with rfl | hfd
    · rw [if_pos rfl]
      have hlt := info.stdinSize_lt
      exact (readvLoop_served h lib mem iov 0 (by omega)).1
    · rw [if_neg hfd]
      refine vectorLoop_inv (P := fun s : State × Mem => Served info s.1 out err asked) lib ?_ iov h 0
      intro s v h
      rw [duckRead, if_neg hfd]
      exact h
  | write fd buf len =>
    simp only [serve, Syscall.written, Syscall.asked, Nat.add_zero]
    have hwrite := duckWrite_served h lib mem fd ⟨buf, len⟩ (Or.inl rfl)
    rw [List.append_nil, ← gather_singleton mem ⟨buf, len⟩] at hwrite
    exact hwrite
  | writev fd iov =>
    have hwritev : duckWritev lib mem s fd iov (toInt iov.length) = _ :=
      congrArg (fun iov => vectorLoop lib _ iov s 0) (take_toInt hfit)
    simp only [serve, Syscall.written, Syscall.asked, Nat.add_zero, hwritev]
    exact writevLoop_served h lib mem fd iov 0
  | mmap addr size =>
    show Served info _ (out ++ []) (err ++ []) asked
    rw [List.append_nil, List.append_nil]
    cases lib with
    | duck64 => exact { h with }
    | duck32 => exact h

/-- Vectors take no more bytes than they have. -/
theorem scatter_take (mem : Mem) (iov : List Iovec) (l : List UInt8) :
    scatter mem iov (l.take (total iov)) = scatter mem iov l := by
  induction iov generalizing mem l with
  | nil => rfl
  | cons v iov ih =>
    have htotal : total (v :: iov) = v.len + total iov := rfl
    have hlength : min v.len (l.take (total (v :: iov))).length = min v.len l.length := by
      rw [List.length_take]
      omega
    have hcopy : memcpy mem v.base (fun i => (l.take (total (v :: iov))).getD i 0)
          (min v.len l.length) =
        memcpy mem v.base (fun i => l.getD i 0) (min v.len l.length) := by
      refine memcpy_congr fun i hi => ?_
      rw [List.getD_eq_getElem?_getD, List.getD_eq_getElem?_getD, List.getElem?_take_of_lt (by omega)]
    rw [scatter, scatter, hlength, hcopy, List.drop_take, htotal, Nat.add_sub_cancel_left, ih]

/-- What a call that reads the input does with the memory, and its result. -/
theorem serve_reads (h : Served info s out err asked) (lib : Library) (mem : Mem) :
    (∀ buf len, len < 2 ^ 31 →
      (serve lib s mem (.read 0 buf len)).1.2 =
          scatter mem [⟨buf, len⟩] ((info.input asked).take len) ∧
        (serve lib s mem (.read 0 buf len)).2 = ((info.input asked).take len).length) ∧
    ∀ iov : List Iovec, iov.length < 2 ^ 31 →
      (serve lib s mem (.readv 0 iov)).1.2 = scatter mem iov ((info.input asked).take (total iov)) ∧
        (serve lib s mem (.readv 0 iov)).2 = ((info.input asked).take (total iov)).length := by
  refine ⟨fun buf len hlen => ?_, fun iov hiov => ?_⟩
  · obtain ⟨-, hmem, hresult⟩ := duckRead_served h lib mem ⟨buf, len⟩
    rw [serve, sizeT_toInt lib hlen, hresult, List.length_take]
    have hpiece := scatter_take mem [⟨buf, len⟩] (info.input asked)
    exact ⟨hmem.trans hpiece.symm, rfl⟩
  · have hlt := info.stdinSize_lt
    obtain ⟨-, hmem, hresult⟩ := readvLoop_served h lib mem iov 0 (by omega)
    rw [serve, duckReadv, take_toInt hiov, hresult, scatter_take, List.length_take,
      info.length_input, Nat.zero_add]
    exact ⟨hmem, rfl⟩

/-! ## Every sequence of calls -/

/-- The state in which a call is served: the first one runs `init`. -/
def ready (lib : Library) (img : Image) (s : State) : State :=
  if s.inited then s else init lib img s

theorem syscallHandler_eq (lib : Library) (img : Image) (s : State) (mem : Mem) (call : Syscall) :
    syscallHandler lib img s mem call = serve lib (ready lib img s) mem call := rfl

theorem Served.ready_eq (h : Served info s out err asked) (lib : Library) (img : Image) :
    ready lib img s = s := if_pos h.inited

/-- Any number of calls. -/
theorem run_served {lib : Library} {img : Image} {calls : List (Mem × Syscall)}
    (h : Served info (ready lib img s) out err asked) (hfit : ∀ c ∈ calls, c.2.Fits) :
    Served info (ready lib img (run lib img s calls))
      (out ++ calls.flatMap fun c => c.2.written 1 c.1)
      (err ++ calls.flatMap fun c => c.2.written 2 c.1)
      (asked + (calls.map fun c => c.2.asked).sum) ∧
    (run lib img s calls = s ∨ (run lib img s calls).inited = true) := by
  induction calls generalizing s out err asked with
  | nil =>
    rw [List.flatMap_nil, List.flatMap_nil, List.append_nil, List.append_nil]
    exact ⟨h, Or.inl rfl⟩
  | cons c calls ih =>
    have hcall := serve_served h lib c.1 (hfit c List.mem_cons_self)
    obtain ⟨hrun, hinited⟩ := ih (hcall.ready_eq lib img ▸ hcall)
      fun c' hc' => hfit c' (List.mem_cons_of_mem c hc')
    rw [List.append_assoc, List.append_assoc, Nat.add_assoc] at hrun
    refine ⟨hrun, Or.inr ?_⟩
    rcases hinited with hsame | hinited
    · exact (congrArg State.inited hsame).trans hcall.inited
    · exact hinited

/-- **Both libraries write and read the same.**  After any calls, an output holds the first `limit`
    bytes of all that was written to it, and nothing is stored at the limit or behind it; the next
    call of `read` or `readv` gets what the calls before it left of the input, up to the size that it
    asks for. -/
theorem libraries_agree (lib : Library) (img : Image) (info : DuckInfo)
    (calls : List (Mem × Syscall)) (hfit : ∀ c ∈ calls, c.2.Fits) :
    let s := run lib img (State.fresh img info) calls
    let out := calls.flatMap fun c => c.2.written 1 c.1
    let err := calls.flatMap fun c => c.2.written 2 c.1
    let rest := info.input (calls.map fun c => c.2.asked).sum
    s.stdout.Shows info.stdout info.stdoutLimit out ∧
    s.stderr.Shows info.stderr info.stderrLimit err ∧
    ∀ mem : Mem,
      (∀ buf len, len < 2 ^ 31 →
        let r := syscallHandler lib img s mem (.read 0 buf len)
        r.1.2 = scatter mem [⟨buf, len⟩] (rest.take len) ∧ r.2 = (rest.take len).length) ∧
      ∀ iov : List Iovec, iov.length < 2 ^ 31 →
        let r := syscallHandler lib img s mem (.readv 0 iov)
        r.1.2 = scatter mem iov (rest.take (total iov)) ∧ r.2 = (rest.take (total iov)).length := by
  intro s out err rest
  have hfresh : Served info (ready lib img (State.fresh img info)) [] [] 0 :=
    init_served lib img info
  obtain ⟨h, hinited⟩ := run_served hfresh hfit
  rw [List.nil_append, List.nil_append, Nat.zero_add] at h
  replace h : Served info (ready lib img s) out err (calls.map fun c => c.2.asked).sum := h
  have houtputs : s.stdout.Shows info.stdout info.stdoutLimit out ∧
      s.stderr.Shows info.stderr info.stderrLimit err := by
    rcases hinited with hsame | hinited
    · -- no call yet: `init` would leave the regions and the sizes as they are
      have hready : ready lib img s = init lib img (State.fresh img info) := by
        show ready lib img (run lib img _ calls) = _
        rw [hsame]
        rfl
      rw [show s = State.fresh img info from hsame]
      rw [hready] at h
      exact ⟨h.stdout.shows, h.stderr.shows⟩
    · have hready : ready lib img s = s := if_pos hinited
      rw [hready] at h
      exact ⟨h.stdout.shows, h.stderr.shows⟩
  refine ⟨houtputs.1, houtputs.2, fun mem => ?_⟩
  simp only [syscallHandler_eq]
  exact serve_reads h lib mem

/-- Three vectors of seven bytes and a limit of four: the 32-bit library stops in the second. -/
theorem libraries_agree_truncated :
    let img : Image := ⟨0x500000, 0x400000, 4096⟩
    let info : DuckInfo :=
      ⟨fun _ => 0, 0, fun _ => 0, 4, fun _ => 0, 4, by decide, by decide, by decide⟩
    let call := Syscall.writev 1 [⟨10, 3⟩, ⟨20, 3⟩, ⟨30, 1⟩]
    (run .duck32 img (State.fresh img info) [(UInt8.ofNat, call)]).stdout.Shows (fun _ => 0) 4
      [10, 11, 12, 20, 21, 22, 30] :=
  (libraries_agree .duck32 ⟨0x500000, 0x400000, 4096⟩ _ [(UInt8.ofNat, _)] (by decide)).1

end

end JudgeDuck.UserLib
