/-
  Whole runs of the solver, in terms of the digit stream.

  `Tracks s a` says that the statics `s` are ready for the next batch, `a` being the digits from
  the oldest one still in the window on.  `init` establishes it, `feed` keeps it (one batch further
  on in the stream) and makes the calls `batchCalls`; so a run of any length returns, and its
  calls are the closed form `runCalls` (`feedAll_spec`).  `Passes` is the test that a window of the
  stream has to pass to be in that list; the list itself is read in `Solver/Windows`.
-/
import Mathlib.Data.List.GetD
import JudgeDuck.Solver.Sums

namespace JudgeDuck.Solver

open JudgeDuck.Lib

/-! ## Digits as text -/

/-- `'0' <= b && b <= '9'`. -/
def IsDigit (b : UInt8) : Prop := 48 ≤ b.toNat ∧ b.toNat ≤ 57

instance (b : UInt8) : Decidable (IsDigit b) := inferInstanceAs (Decidable (_ ∧ _))

/-- The value of a decimal digit. -/
def digitVal (b : UInt8) : Nat := b.toNat - 48

/-- A batch: 1 to 400 decimal digits. -/
def IsBatch (buf : List UInt8) : Prop :=
  1 ≤ buf.length ∧ buf.length ≤ maxBatchSize ∧ ∀ b ∈ buf, IsDigit b

instance (buf : List UInt8) : Decidable (IsBatch buf) :=
  have : Decidable (∀ b ∈ buf, IsDigit b) := List.decidableBAll _ _
  inferInstanceAs (Decidable (_ ∧ _ ∧ _))

theorem IsDigit.val_lt {b : UInt8} (h : IsDigit b) : digitVal b < 10 := by
  obtain ⟨h1, h2⟩ := h
  unfold digitVal
  omega

theorem IsDigit.charVal_sub {b : UInt8} (h : IsDigit b) : charVal b - 48 = (digitVal b : Int) := by
  obtain ⟨h1, h2⟩ := h
  have hint : charVal b = (b.toNat : Int) := by
    show BitVec.toInt b.toBitVec = _
    rw [BitVec.toInt_eq_toNat_of_lt]
    · rfl
    · show 2 * b.toNat < 2 ^ 8
      omega
  rw [hint, digitVal]
  omega

theorem IsDigit.toChar_val {b : UInt8} (h : IsDigit b) : toChar ((digitVal b : Int) + 48) = b := by
  obtain ⟨h1, h2⟩ := h
  have hval : (((digitVal b : Int) + 48) % 256).toNat = b.toNat := by
    unfold digitVal
    omega
  rw [toChar, hval]
  exact UInt8.ofNat_toNat

/-! ## One batch -/

/-- The statics are ready for the next batch; `a` are the digits from the window on. -/
structure Tracks (s : State) (a : Nat → Nat) : Prop where
  digits : ∀ i, i < N → s.digits i = (a i : Int)
  sum : ∀ m, (s.chan m).sum = residue m a N
  ready : ∀ m, Ready m a N (s.chan m)

/-- The digits after the window are still free. -/
theorem Tracks.congr {s : State} {a b : Nat → Nat} (hs : Tracks s a)
    (h : ∀ i, i < N → a i = b i) : Tracks s b where
  digits := fun i hi => by rw [hs.digits i hi, h i hi]
  sum := fun m => by rw [hs.sum m, residue_congr h]
  ready := fun m => (hs.ready m).congr h

/-- **`prepare`** sums up the window of digits and builds the tables for it. -/
theorem prepare_tracks {s : State} {a : Nat → Nat} (ha : ∀ i, a i < 10)
    (hdig : ∀ i, i < N → s.digits i = (a i : Int))
    (hrows : ∀ m i, i < 656 → RowOk m (s.chan m).e i) (hadds : ∀ m, AddsOk m (s.chan m).adds) :
    Tracks (prepare s) a where
  digits := hdig
  sum := fun m => (doPrepareDigits_spec hdig ha (hrows m) (hadds m)).1
  ready := fun m => (doPrepareDigits_spec hdig ha (hrows m) (hadds m)).2

/-- `init` starts with a window of nines. -/
theorem init_tracks {a : Nat → Nat} (ha : ∀ i, a i < 10) (hnine : ∀ i, i < N → a i = 9) :
    Tracks init a := by
  have hempty : ∀ m, AddsOk m (zeroState.chan m).adds := fun m x hx => absurd hx List.not_mem_nil
  refine prepare_tracks ha ?_ (fun m => (initE_spec (hempty m)).1)
    (fun m => (initE_spec (hempty m)).2)
  intro i hi
  show (if i < N then (9 : Int) else _) = _
  rw [if_pos hi, hnine i hi]
  rfl

/-- The calls of a batch, in the order they are made. -/
def batchCalls (a : Nat → Nat) (len : Nat) : List Call :=
  [MNumber.m1, .m4, .m3, .m2].flatMap fun m =>
    (List.range len).flatMap fun i => callsAt m a (N + i)

/-- Only the digits up to the end of the batch are looked at. -/
theorem batchCalls_congr {a b : Nat → Nat} {len : Nat} (h : ∀ i, i < N + len → a i = b i) :
    batchCalls a len = batchCalls b len := by
  have hkey : ∀ m k, k < N + len → keyAt m a k = keyAt m b k := fun m k hk =>
    congrArg u64 (residue_congr fun i hi => h i (by omega))
  refine List.flatMap_congr fun m _ => List.flatMap_congr fun i hi => ?_
  refine List.flatMap_congr fun l hl => ?_
  have hi' := List.mem_range.mp hi
  have hl' := List.mem_range.mp hl
  have htext : textOf a (N + i - l) (l + 1) = textOf b (N + i - l) (l + 1) := by
    refine List.map_congr_left fun j hj => ?_
    have := List.mem_range.mp hj
    rw [h _ (by omega)]
  rw [windowCalls, windowCalls, hkey m _ (by omega), hkey m _ (by omega), h _ (by omega), htext]

/-- The array after `memcpy` holds the window, then the batch. -/
theorem appendDigits_eq {s : State} {a : Nat → Nat} {buf : List UInt8} (hs : Tracks s a)
    (hdigits : ∀ b ∈ buf, IsDigit b)
    (hnew : ∀ i, i < buf.length → a (N + i) = digitVal (buf.getD i 0)) {i : Nat}
    (hi : i < N + buf.length) :
    appendDigits s.digits (fun i => charVal (buf.getD i 0) - 48) buf.length i = (a i : Int) := by
  by_cases hN : N ≤ i
  · have hlt : i - N < buf.length := by omega
    have hmem : buf.getD (i - N) 0 ∈ buf := by
      rw [List.getD_eq_getElem _ _ hlt]
      exact List.getElem_mem hlt
    have ha' : a i = digitVal (buf.getD (i - N) 0) := by
      rw [← hnew (i - N) hlt, Nat.add_sub_cancel' hN]
    rw [appendDigits, if_pos ⟨hN, hi⟩, (hdigits _ hmem).charVal_sub, ha']
  · rw [appendDigits, if_neg (fun e => hN e.1)]
    exact hs.digits i (Nat.lt_of_not_le hN)

/-- `recv_input` on a batch returns; the window has moved on, the tables are as before. -/
theorem recvInput_spec {s : State} {a : Nat → Nat} {buf : List UInt8} (hs : Tracks s a)
    (ha : ∀ i, a i < 10) (hbuf : IsBatch buf)
    (hnew : ∀ i, i < buf.length → a (N + i) = digitVal (buf.getD i 0)) :
    ∃ s', recvInput s buf = .ok (s', batchCalls a buf.length) ∧
      (∀ i, i < N → s'.digits i = (a (i + buf.length) : Int)) ∧
      ∀ m, Ready m a (N + buf.length) (s'.chan m) := by
  obtain ⟨h1, h400, hdigits⟩ := hbuf
  have hdig := fun i => appendDigits_eq hs hdigits hnew (i := i)
  have hadd := fun m => doAddDigits_spec h400 hdig ha (hs.sum m) (hs.ready m)
  obtain ⟨c1, hc1, hr1⟩ := hadd .m1
  obtain ⟨c2, hc2, hr2⟩ := hadd .m2
  obtain ⟨c3, hc3, hr3⟩ := hadd .m3
  obtain ⟨c4, hc4, hr4⟩ := hadd .m4
  refine ⟨{ digits := shiftDigits
              (appendDigits s.digits (fun i => charVal (buf.getD i 0) - 48) buf.length) buf.length
            chan := channels c1 c2 c3 c4 }, ?_, ?_, ?_⟩
  · have hcalls : batchCalls a buf.length =
        (List.range buf.length).flatMap (fun i => callsAt .m1 a (N + i)) ++
        (List.range buf.length).flatMap (fun i => callsAt .m4 a (N + i)) ++
        (List.range buf.length).flatMap (fun i => callsAt .m3 a (N + i)) ++
        (List.range buf.length).flatMap (fun i => callsAt .m2 a (N + i)) := by
      simp only [batchCalls, List.flatMap_cons, List.flatMap_nil, List.append_nil,
        List.append_assoc]
    rw [recvInput, if_pos ⟨h1, h400⟩, addDigits, hc1, hc4, hc3, hc2, hcalls]
    rfl
  · intro i hi
    show shiftDigits _ buf.length i = _
    rw [shiftDigits, if_pos hi, hdig (i + buf.length) (by omega)]
  · intro m
    cases m
    · exact hr1
    · exact hr2
    · exact hr3
    · exact hr4

/-- **One batch.**  It returns, makes the calls `batchCalls`, and the window has moved on. -/
theorem feed_spec {s : State} {a : Nat → Nat} {buf : List UInt8} (hs : Tracks s a)
    (ha : ∀ i, a i < 10) (hbuf : IsBatch buf)
    (hnew : ∀ i, i < buf.length → a (N + i) = digitVal (buf.getD i 0)) :
    ∃ s', feed s buf = .ok (s', batchCalls a buf.length) ∧
      Tracks s' fun k => a (k + buf.length) := by
  obtain ⟨s', hrecv, hdig, hready⟩ := recvInput_spec hs ha hbuf hnew
  refine ⟨prepare s', ?_, ?_⟩
  · rw [feed, hrecv]
    rfl
  · exact prepare_tracks (fun i => ha _) hdig (fun m => (hready m).rows) (fun m => (hready m).adds)

/-! ## The stream -/

/-- The window set up by `init`. -/
def nines : List UInt8 := List.replicate N 57

/-- All digits of a run: the initial window, then the batches. -/
def stream (bufs : List (List UInt8)) : List UInt8 := nines ++ bufs.flatten

/-- The digit at place `k` of the stream. -/
def digitAt (D : List UInt8) (k : Nat) : Nat := digitVal (D.getD k 48)

/-- The solver's array when `off` digits have been shifted out. -/
def arrayAt (D : List UInt8) (off k : Nat) : Nat := digitAt D (off + k)

/-- The `L` digits ending at place `q`. -/
def window (D : List UInt8) (q L : Nat) : List UInt8 := (D.drop (q + 1 - L)).take L

/-- The decimal value of a string of digits. -/
def decimal (s : List UInt8) : Nat := Nat.ofDigits 10 (s.map digitVal).reverse

theorem digitAt_lt {D : List UInt8} (hD : ∀ b ∈ D, IsDigit b) (k : Nat) : digitAt D k < 10 := by
  rcases Nat.lt_or_ge k D.length with hk | hk
  · rw [digitAt, List.getD_eq_getElem _ _ hk]
    exact (hD _ (List.getElem_mem hk)).val_lt
  · rw [digitAt, List.getD_eq_default _ _ hk]
    decide

theorem window_eq_map {D : List UInt8} {q L : Nat} (hL : L ≤ q + 1) (hq : q < D.length) :
    window D q L = (List.range L).map fun i => D.getD (q + 1 - L + i) 48 := by
  refine List.ext_getElem ?_ fun i h1 h2 => ?_
  · rw [window, List.length_take, List.length_drop, List.length_map, List.length_range]
    omega
  · have hi : i < L := by
      rw [List.length_map, List.length_range] at h2
      exact h2
    rw [List.getElem_map, List.getElem_range, List.getD_eq_getElem _ _ (by omega)]
    simp only [window, List.getElem_take, List.getElem_drop]

theorem length_window {D : List UInt8} {q L : Nat} (hL : L ≤ q + 1) (hq : q < D.length) :
    (window D q L).length = L := by
  rw [window_eq_map hL hq, List.length_map, List.length_range]

/-- The text reported is the window of the stream. -/
theorem textOf_arrayAt {D : List UInt8} (hD : ∀ b ∈ D, IsDigit b) {off q l : Nat} (hl : l ≤ q)
    (hq : off + q < D.length) :
    textOf (arrayAt D off) (q - l) (l + 1) = window D (off + q) (l + 1) := by
  rw [window_eq_map (by omega) hq, textOf]
  refine List.map_congr_left fun i hi => ?_
  have hi' : i < l + 1 := List.mem_range.mp hi
  have hplace : off + (q - l + i) = off + q + 1 - (l + 1) + i := by omega
  have hlt : off + (q - l + i) < D.length := by omega
  rw [arrayAt, digitAt, ← hplace, List.getD_eq_getElem _ _ hlt]
  exact (hD _ (List.getElem_mem hlt)).toChar_val

/-- The test a window of `L` digits ending at place `q` must pass to be reported for modulus `m`,
    in a batch that begins when `off` digits have been shifted out: the prefix sums at its two ends
    have the same key, it does not begin with `0`, and it is long enough. -/
def Passes (m : MNumber) (D : List UInt8) (off q L : Nat) : Prop :=
  keyAt m (arrayAt D off) (q - off - L) = keyAt m (arrayAt D off) (q - off) ∧
    digitAt D (q + 1 - L) ≠ 0 ∧ m.minLen ≤ L

instance (m : MNumber) (D : List UInt8) (off q L : Nat) : Decidable (Passes m D off q L) :=
  inferInstanceAs (Decidable (_ ∧ _ ∧ _))

/-- The calls of one window, placed in the stream. -/
theorem windowCalls_shift {m : MNumber} {D : List UInt8} (hD : ∀ b ∈ D, IsDigit b) {off q l : Nat}
    (hl : l ≤ q) (hq : off + q < D.length) :
    (windowCalls m (arrayAt D off) q l).map (Call.shift off) =
      if Passes m D off (off + q) (l + 1) then [⟨off + q, window D (off + q) (l + 1), m⟩]
      else [] := by
  have hstart : off + (q - l) = off + q + 1 - (l + 1) := by omega
  have hiff : (keyAt m (arrayAt D off) (q - l - 1) = keyAt m (arrayAt D off) q ∧
      arrayAt D off (q - l) ≠ 0 ∧ m.minLen ≤ l + 1) ↔ Passes m D off (off + q) (l + 1) := by
    rw [Passes, Nat.add_sub_cancel_left, Nat.sub_sub, arrayAt, hstart]
  by_cases h : Passes m D off (off + q) (l + 1)
  · rw [windowCalls, if_pos (hiff.mpr h), if_pos h, textOf_arrayAt hD hl hq]
    rfl
  · rw [windowCalls, if_neg (fun e => h (hiff.mp e)), if_neg h]
    rfl

/-- One batch, in terms of the stream. -/
theorem feed_stream {D : List UInt8} (hD : ∀ b ∈ D, IsDigit b) {off : Nat} {s : State}
    {buf : List UInt8} (hs : Tracks s (arrayAt D off)) (hbuf : IsBatch buf)
    (hnext : buf <+: D.drop (off + N)) :
    ∃ s', feed s buf = .ok (s', batchCalls (arrayAt D off) buf.length) ∧
      Tracks s' (arrayAt D (off + buf.length)) := by
  have hnew : ∀ i, i < buf.length → arrayAt D off (N + i) = digitVal (buf.getD i 0) := by
    intro i hi
    have hget : D[off + N + i]? = some buf[i] := by
      rw [← List.getElem?_drop]
      exact List.prefix_iff_getElem?.mp hnext i hi
    rw [arrayAt, digitAt, ← Nat.add_assoc, List.getD_eq_getElem?_getD, hget,
      List.getD_eq_getElem _ _ hi]
    rfl
  obtain ⟨s', hfeed, hs'⟩ := feed_spec hs (fun i => digitAt_lt hD _) hbuf hnew
  have harr : (fun k => arrayAt D off (k + buf.length)) = arrayAt D (off + buf.length) := by
    funext k
    rw [arrayAt, arrayAt, Nat.add_assoc off, Nat.add_comm k]
  exact ⟨s', hfeed, by rwa [harr] at hs'⟩

/-! ## Whole runs -/

/-- The calls of a run from a stream of which `off` digits have been shifted out. -/
def runCalls (D : List UInt8) (off : Nat) : List (List UInt8) → List Call
  | [] => []
  | buf :: bufs =>
    (batchCalls (arrayAt D off) buf.length).map (Call.shift off) ++
      runCalls D (off + buf.length) bufs

/-- **A run returns and its calls are `runCalls`.**  `D` is the whole stream, of which the window
    of `N` digits at `off` has been read and `bufs` is still to come. -/
theorem feedAll_spec {D : List UInt8} (hD : ∀ b ∈ D, IsDigit b) : ∀ {bufs : List (List UInt8)}
    {off : Nat} {s : State}, Tracks s (arrayAt D off) → (∀ buf ∈ bufs, IsBatch buf) →
    D.drop (off + N) = bufs.flatten →
    ∃ s', feedAll s off bufs = .ok (s', runCalls D off bufs) ∧
      Tracks s' (arrayAt D (off + bufs.flatten.length)) := by
  intro bufs
  induction bufs with
  | nil =>
    intro off s hs _ _
    exact ⟨s, rfl, hs⟩
  | cons buf bufs ih =>
    intro off s hs hbufs hrest
    have hbuf : IsBatch buf := hbufs buf List.mem_cons_self
    have hnext : buf <+: D.drop (off + N) := by
      rw [hrest, List.flatten_cons]
      exact List.prefix_append buf _
    obtain ⟨s1, hfeed, hs1⟩ := feed_stream hD hs hbuf hnext
    have hrest' : D.drop (off + buf.length + N) = bufs.flatten := by
      rw [show off + buf.length + N = off + N + buf.length by omega, ← List.drop_drop, hrest,
        List.flatten_cons, List.drop_left]
    obtain ⟨s2, hfeed2, hs2⟩ := ih hs1 (fun b hb => hbufs b (List.mem_cons_of_mem buf hb)) hrest'
    refine ⟨s2, ?_, ?_⟩
    · rw [feedAll, hfeed]
      show (feedAll s1 (off + buf.length) bufs >>= fun r => _) = _
      rw [hfeed2]
      rfl
    · rwa [List.flatten_cons, List.length_append, ← Nat.add_assoc]

/-- The stream consists of digits, if the batches do. -/
theorem isDigit_stream {bufs : List (List UInt8)} (hbufs : ∀ buf ∈ bufs, IsBatch buf) :
    ∀ b ∈ stream bufs, IsDigit b := by
  intro b hb
  rcases List.mem_append.mp hb with h | h
  · rw [List.eq_of_mem_replicate h]
    decide
  · rcases List.mem_flatten.mp h with ⟨buf, hbuf, hmem⟩
    exact (hbufs buf hbuf).2.2 b hmem

/-- A run from `init`. -/
theorem feedAll_init {bufs : List (List UInt8)} (hbufs : ∀ buf ∈ bufs, IsBatch buf) :
    ∃ s, feedAll init 0 bufs = .ok (s, runCalls (stream bufs) 0 bufs) ∧
      Tracks s (arrayAt (stream bufs) bufs.flatten.length) := by
  have hD := isDigit_stream hbufs
  have hinit : Tracks init (arrayAt (stream bufs) 0) := by
    refine init_tracks (fun i => digitAt_lt hD _) fun i hi => ?_
    have hlen : i < nines.length := by
      rw [nines, List.length_replicate]
      exact hi
    rw [arrayAt, Nat.zero_add, digitAt, stream, List.getD_append _ _ _ _ hlen,
      List.getD_eq_getElem _ _ hlen]
    simp only [nines, List.getElem_replicate]
    rfl
  have hrest : (stream bufs).drop (0 + N) = bufs.flatten := by
    rw [Nat.zero_add, stream, List.drop_left' (by rw [nines, List.length_replicate])]
  obtain ⟨s, hrun, hs⟩ := feedAll_spec hD hinit hbufs hrest
  exact ⟨s, hrun, by rwa [Nat.zero_add] at hs⟩

end JudgeDuck.Solver
