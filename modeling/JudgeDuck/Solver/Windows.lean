/-
  The calls of a run, window by window.

  A window is given by the place `q` of its last digit, its length `L` and the modulus.  `InBatch`
  says in which batch `q` was read, `Passes` what the solver tests.  `mem_runCalls` lists the calls
  of a run, `runCalls_once` counts them: one per window that passes.

  What the test says about the number is arithmetic.  In a batch, the digit at index `i` of the
  array has weight `10 ^ (655 - i)`, so equal prefix sums mean that the modulus divides
  `number · 10 ^ k`, `k` depending on the place of the window in the batch
  (`residue_eq_iff_dvd`).  `M3` and `M4` are coprime to ten and their residues are compared whole:
  for them the test is exact (`passes_iff_of_coprime`).  `M1 = 2 · 149618273` loses its factor two
  unless `k = 0` (`passes_m1_iff`), and of `M2` only the low 64 bits of the residues are compared.
-/
import JudgeDuck.Solver.Run

namespace JudgeDuck.Solver

open JudgeDuck.Lib

/-! ## The calls of a run -/

/-- `InBatch off bufs o q`: place `q` of the stream is read in the batch that begins when `o`
    digits have been shifted out, `off` having been shifted out before the first batch. -/
def InBatch : Nat → List (List UInt8) → Nat → Nat → Prop
  | _, [], _, _ => False
  | off, buf :: bufs, o, q =>
    (o = off ∧ off + N ≤ q ∧ q < off + N + buf.length) ∨ InBatch (off + buf.length) bufs o q

/-- The call that reports the window of `L` digits ending at `q`. -/
def callOf (m : MNumber) (D : List UInt8) (q L : Nat) : Call := ⟨q, window D q L, m⟩

/-- The calls of a batch, placed in the stream. -/
theorem batchCalls_shift {D : List UInt8} (hD : ∀ b ∈ D, IsDigit b) {off len : Nat}
    (hlen : off + N + len ≤ D.length) :
    (batchCalls (arrayAt D off) len).map (Call.shift off) =
      [MNumber.m1, .m4, .m3, .m2].flatMap fun m => (List.range len).flatMap fun i =>
        (List.range N).flatMap fun l =>
          if Passes m D off (off + (N + i)) (l + 1) then [callOf m D (off + (N + i)) (l + 1)]
          else [] := by
  rw [batchCalls, List.map_flatMap]
  refine List.flatMap_congr fun m _ => ?_
  rw [List.map_flatMap]
  refine List.flatMap_congr fun i hi => ?_
  rw [callsAt, List.map_flatMap]
  refine List.flatMap_congr fun l hl => ?_
  have hi' := List.mem_range.mp hi
  have hl' := List.mem_range.mp hl
  exact windowCalls_shift hD (by omega) (by omega)

theorem mem_order (m : MNumber) : m ∈ [MNumber.m1, .m4, .m3, .m2] := by
  cases m <;> decide

theorem mem_ite_nil {p : Prop} [Decidable p] {x c : Call} :
    c ∈ (if p then [x] else []) ↔ p ∧ c = x := by
  by_cases h : p
  · rw [if_pos h, List.mem_singleton]
    exact ⟨fun e => ⟨h, e⟩, fun e => e.2⟩
  · rw [if_neg h]
    exact ⟨fun e => absurd e List.not_mem_nil, fun e => absurd e.1 h⟩

/-- **The calls of a batch**: one for every window that ends in the batch and is a hit. -/
theorem mem_batchCalls {D : List UInt8} (hD : ∀ b ∈ D, IsDigit b) {off len : Nat}
    (hlen : off + N + len ≤ D.length) {c : Call} :
    c ∈ (batchCalls (arrayAt D off) len).map (Call.shift off) ↔
      ∃ m q L, (off + N ≤ q ∧ q < off + N + len) ∧ (1 ≤ L ∧ L ≤ N) ∧ Passes m D off q L ∧
        c = callOf m D q L := by
  rw [batchCalls_shift hD hlen]
  simp only [List.mem_flatMap, List.mem_range, mem_ite_nil]
  constructor
  · rintro ⟨m, -, i, hi, l, hl, hp, rfl⟩
    exact ⟨m, off + (N + i), l + 1, by omega, by omega, hp, rfl⟩
  · rintro ⟨m, q, L, hq, hL, hp, rfl⟩
    refine ⟨m, mem_order m, q - off - N, by omega, L - 1, by omega, ?_⟩
    rw [show off + (N + (q - off - N)) = q by omega, Nat.sub_add_cancel hL.1]
    exact ⟨hp, rfl⟩

/-- **The calls of a run are the windows that pass.** -/
theorem mem_runCalls {D : List UInt8} (hD : ∀ b ∈ D, IsDigit b) {c : Call} :
    ∀ {bufs : List (List UInt8)} {off : Nat}, off + N + bufs.flatten.length ≤ D.length →
    (c ∈ runCalls D off bufs ↔ ∃ m o q L, InBatch off bufs o q ∧ (1 ≤ L ∧ L ≤ N) ∧
      Passes m D o q L ∧ c = callOf m D q L) := by
  intro bufs
  induction bufs with
  | nil =>
    intro off _
    constructor
    · intro h
      exact absurd h List.not_mem_nil
    · rintro ⟨m, o, q, L, h, -⟩
      exact h.elim
  | cons buf bufs ih =>
    intro off hlen
    rw [List.flatten_cons, List.length_append] at hlen
    rw [runCalls, List.mem_append, mem_batchCalls hD (by omega), ih (by omega)]
    constructor
    · rintro (⟨m, q, L, hq, hL, hp, rfl⟩ | ⟨m, o, q, L, hin, h⟩)
      · exact ⟨m, off, q, L, Or.inl ⟨rfl, hq⟩, hL, hp, rfl⟩
      · exact ⟨m, o, q, L, Or.inr hin, h⟩
    · rintro ⟨m, o, q, L, (⟨rfl, hq⟩ | hin), h⟩
      · exact Or.inl ⟨m, q, L, hq, h⟩
      · exact Or.inr ⟨m, o, q, L, hin, h⟩

/-- The batch of a place: it begins at most `N` digits and one batch before. -/
theorem InBatch.bounds : ∀ {bufs : List (List UInt8)} {off o q : Nat}, InBatch off bufs o q →
    off ≤ o ∧ o + N ≤ q ∧ q < off + N + bufs.flatten.length := by
  intro bufs
  induction bufs with
  | nil => exact fun h => h.elim
  | cons buf bufs ih =>
    intro off o q h
    rw [List.flatten_cons, List.length_append]
    rcases h with ⟨rfl, h1, h2⟩ | h
    · omega
    · have := ih h
      omega

/-- Every place after the initial window is read in some batch. -/
theorem exists_inBatch : ∀ {bufs : List (List UInt8)} {off q : Nat}, off + N ≤ q →
    q < off + N + bufs.flatten.length → ∃ o, InBatch off bufs o q := by
  intro bufs
  induction bufs with
  | nil =>
    intro off q h1 h2
    rw [List.flatten_nil, List.length_nil] at h2
    omega
  | cons buf bufs ih =>
    intro off q h1 h2
    rw [List.flatten_cons, List.length_append] at h2
    rcases Nat.lt_or_ge q (off + N + buf.length) with h | h
    · exact ⟨off, Or.inl ⟨rfl, h1, h⟩⟩
    · have hoff : off + buf.length + N ≤ q := by omega
      obtain ⟨o, ho⟩ := ih hoff (by omega)
      exact ⟨o, Or.inr ho⟩

/-! ## Digits that have left the window

A batch is processed on the array alone.  The stream before it may be replaced by any other of the same
length, and dropped altogether if the places are counted from there. -/

section Shift

variable {pre D : List UInt8} {o q L : Nat}

theorem digitAt_append (k : Nat) : digitAt (pre ++ D) (pre.length + k) = digitAt D k := by
  rw [digitAt, digitAt, List.getD_append_right _ _ _ _ (Nat.le_add_right _ _), Nat.add_sub_cancel_left]

theorem arrayAt_append : arrayAt (pre ++ D) (pre.length + o) = arrayAt D o := by
  funext k
  rw [arrayAt, arrayAt, Nat.add_assoc, digitAt_append]

theorem window_append (hL : L ≤ q + 1) : window (pre ++ D) (pre.length + q) L = window D q L := by
  rw [window, window, Nat.add_assoc, Nat.add_sub_assoc hL, ← List.drop_drop, List.drop_left]

/-- The test does not look at what has left the window. -/
theorem passes_append {m : MNumber} (hL : L ≤ q + 1) :
    Passes m (pre ++ D) (pre.length + o) (pre.length + q) L ↔ Passes m D o q L := by
  rw [Passes, Passes, arrayAt_append, Nat.add_sub_add_left, Nat.add_assoc, Nat.add_sub_assoc hL, digitAt_append]

end Shift

/-! ## Counting calls -/

/-- The call is for the window of length `L` ending at `q`, and for modulus `m`. -/
def isFor (m : MNumber) (q L : Nat) (c : Call) : Bool :=
  decide (c.q = q ∧ c.str.length = L ∧ c.m = m)

/-- A call is for one place, length and modulus. -/
theorem isFor_callOf {m m' : MNumber} {D : List UInt8} {q q' L L' : Nat} (hL : L' ≤ q' + 1)
    (hq : q' < D.length) :
    isFor m q L (callOf m' D q' L') = true ↔ q' = q ∧ L' = L ∧ m' = m := by
  rw [isFor, decide_eq_true_iff, callOf, length_window hL hq]

theorem filter_ite_nil {m m' : MNumber} {D : List UInt8} {q q' L L' : Nat} {p : Prop} [Decidable p]
    (hL : L' ≤ q' + 1) (hq : q' < D.length) (hne : ¬ (q' = q ∧ L' = L ∧ m' = m)) :
    (if p then [callOf m' D q' L'] else []).filter (isFor m q L) = [] := by
  by_cases h : p
  · rw [if_pos h, List.filter_cons_of_neg (fun e => hne ((isFor_callOf hL hq).mp e))]
    rfl
  · rw [if_neg h]
    rfl

/-- Within a batch each window is tested once. -/
theorem filter_batchCalls {D : List UInt8} (hD : ∀ b ∈ D, IsDigit b) {off len q L : Nat}
    {m : MNumber} (hlen : off + N + len ≤ D.length) (hq : off + N ≤ q ∧ q < off + N + len)
    (hL : 1 ≤ L ∧ L ≤ N) :
    ((batchCalls (arrayAt D off) len).map (Call.shift off)).filter (isFor m q L) =
      if Passes m D off q L then [callOf m D q L] else [] := by
  rw [batchCalls_shift hD hlen, List.filter_flatMap]
  -- peel the three loops: every index but the one of the window contributes nothing
  rw [flatMap_eq_of_unique (a := m) (by decide) (mem_order m), List.filter_flatMap,
    flatMap_eq_of_unique (a := q - off - N) List.nodup_range (List.mem_range.mpr (by omega)),
    List.filter_flatMap,
    flatMap_eq_of_unique (a := L - 1) List.nodup_range (List.mem_range.mpr (by omega)),
    show off + (N + (q - off - N)) = q by omega, Nat.sub_add_cancel hL.1]
  · by_cases hp : Passes m D off q L
    · rw [if_pos hp,
        List.filter_cons_of_pos ((isFor_callOf (by omega) (by omega)).mpr ⟨rfl, rfl, rfl⟩)]
      rfl
    · rw [if_neg hp]
      rfl
  · intro l hl hne
    have := List.mem_range.mp hl
    exact filter_ite_nil (by omega) (by omega) (fun e => by omega)
  · intro i hi hne
    rw [List.filter_flatMap]
    have := List.mem_range.mp hi
    refine List.flatMap_eq_nil_iff.mpr fun l hl => ?_
    have := List.mem_range.mp hl
    exact filter_ite_nil (by omega) (by omega) (fun e => by omega)
  · intro m' _ hne
    rw [List.filter_flatMap]
    refine List.flatMap_eq_nil_iff.mpr fun i hi => ?_
    rw [List.filter_flatMap]
    refine List.flatMap_eq_nil_iff.mpr fun l hl => ?_
    have := List.mem_range.mp hi
    have := List.mem_range.mp hl
    exact filter_ite_nil (by omega) (by omega) (fun e => hne e.2.2)

theorem filter_eq_nil_of_place {calls : List Call} {m : MNumber} {q L : Nat}
    (h : ∀ c ∈ calls, c.q ≠ q) : calls.filter (isFor m q L) = [] := by
  refine List.filter_eq_nil_iff.mpr fun c hc hfor => ?_
  exact h c hc (of_decide_eq_true hfor).1

/-- **Each window is reported once if it passes**, and otherwise never. -/
theorem runCalls_once {D : List UInt8} (hD : ∀ b ∈ D, IsDigit b) {o q L : Nat} {m : MNumber}
    (hL : 1 ≤ L ∧ L ≤ N) : ∀ {bufs : List (List UInt8)} {off : Nat},
    off + N + bufs.flatten.length ≤ D.length → InBatch off bufs o q →
    (runCalls D off bufs).filter (isFor m q L) =
      if Passes m D o q L then [callOf m D q L] else [] := by
  intro bufs
  induction bufs with
  | nil => exact fun _ h => h.elim
  | cons buf bufs ih =>
    intro off hlen hin
    rw [List.flatten_cons, List.length_append] at hlen
    rw [runCalls, List.filter_append]
    rcases hin with ⟨rfl, hq⟩ | hin
    · have hlater : (runCalls D (o + buf.length) bufs).filter (isFor m q L) = [] := by
        refine filter_eq_nil_of_place fun c hc e => ?_
        rcases (mem_runCalls hD (by omega)).mp hc with ⟨m', o', q', L', hin', -, -, rfl⟩
        have := hin'.bounds
        have : q' = q := e
        omega
      rw [filter_batchCalls hD (by omega) hq hL, hlater, List.append_nil]
    · have hearlier : ((batchCalls (arrayAt D off) buf.length).map (Call.shift off)).filter
          (isFor m q L) = [] := by
        refine filter_eq_nil_of_place fun c hc e => ?_
        rcases (mem_batchCalls hD (by omega)).mp hc with ⟨m', q', L', hq', -, -, rfl⟩
        have := hin.bounds
        have : q' = q := e
        omega
      rw [hearlier, List.nil_append]
      exact ih (by omega) hin

/-! ## What the test says about the number -/

/-- The value of a window, read from the array. -/
theorem decimal_window {D : List UInt8} {off q L : Nat} (hL : off + L ≤ q + 1) (hq : q < D.length) :
    decimal (window D q L) = value 10 (arrayAt D off) (q + 1 - L - off) L := by
  rw [value_eq_ofDigits, decimal, window_eq_map (by omega) hq, List.map_map]
  refine congrArg (fun l : List Nat => Nat.ofDigits 10 l.reverse)
    (List.map_congr_left fun i _ => ?_)
  show digitVal (D.getD (q + 1 - L + i) 48) = digitVal (D.getD (off + (q + 1 - L - off + i)) 48)
  rw [show off + (q + 1 - L - off + i) = q + 1 - L + i by omega]

/-- In a batch of legal length the index of a digit is below the length of the array. -/
theorem InBatch.lt_add {bufs : List (List UInt8)} {off o q : Nat}
    (hbufs : ∀ buf ∈ bufs, IsBatch buf) (h : InBatch off bufs o q) : q < o + 656 := by
  induction bufs generalizing off with
  | nil => exact h.elim
  | cons buf bufs ih =>
    rcases h with ⟨rfl, -, h2⟩ | h
    · have hle : buf.length ≤ 400 := (hbufs buf List.mem_cons_self).2.1
      have hN : N = 256 := rfl
      omega
    · exact ih (fun b hb => hbufs b (List.mem_cons_of_mem buf hb)) h

/-- **Equal prefix sums mean that the modulus divides the number, shifted.** -/
theorem residue_eq_iff_dvd {m : MNumber} {D : List UInt8} {off q L : Nat} (hL : off + L ≤ q)
    (hi : q < off + 656) (hq : q < D.length) :
    residue m (arrayAt D off) (q - off - L + 1) = residue m (arrayAt D off) (q - off + 1) ↔
      m.modulus ∣ decimal (window D q L) * 10 ^ (655 - (q - off)) := by
  have hsplit : q - off + 1 = (q - off - L + 1) + L := by omega
  have hexp : 655 - (q - off) = 655 + 1 - ((q - off - L + 1) + L) := by omega
  have hlo : q + 1 - L - off = q - off - L + 1 := by omega
  have hfrom : off + L ≤ q + 1 := by omega
  rw [decimal_window hfrom hq, hlo, hexp, residue, residue, hsplit]
  exact eq_comm.trans (residue_eq_iff (by omega))

/-- A residue below `2 ^ 64` is its own key. -/
theorem keyAt_eq_iff {m : MNumber} (hm : m.modulus ≤ 2 ^ 64) {a : Nat → Nat} {i j : Nat} :
    keyAt m a i = keyAt m a j ↔ residue m a (i + 1) = residue m a (j + 1) := by
  have hkey : ∀ k, keyAt m a k = residue m a (k + 1) := fun k =>
    Nat.mod_eq_of_lt (Nat.lt_of_lt_of_le (residue_lt m a (k + 1)) hm)
  rw [hkey, hkey]

section Moduli

variable {D : List UInt8} {off q L : Nat}

/-- A multiple of the modulus passes, whatever the modulus. -/
theorem passes_of_dvd {m : MNumber} (hL : off + L ≤ q) (hi : q < off + 656) (hq : q < D.length)
    (hdvd : m.modulus ∣ decimal (window D q L)) (hlead : digitAt D (q + 1 - L) ≠ 0)
    (hmin : m.minLen ≤ L) : Passes m D off q L := by
  have hres := (residue_eq_iff_dvd hL hi hq).mpr (Nat.dvd_mul_right_of_dvd hdvd _)
  exact ⟨congrArg u64 hres, hlead, hmin⟩

/-- If the residues are compared whole, the test is divisibility of the shifted number. -/
theorem passes_iff {m : MNumber} (hm : m.modulus ≤ 2 ^ 64) (hL : off + L ≤ q) (hi : q < off + 656)
    (hq : q < D.length) :
    Passes m D off q L ↔ m.modulus ∣ decimal (window D q L) * 10 ^ (655 - (q - off)) ∧
      digitAt D (q + 1 - L) ≠ 0 ∧ m.minLen ≤ L := by
  rw [Passes, keyAt_eq_iff hm, residue_eq_iff_dvd hL hi hq]

/-- For a modulus coprime to ten the test is exact. -/
theorem passes_iff_of_coprime {m : MNumber} (hm : m.modulus ≤ 2 ^ 64)
    (hco : Nat.Coprime m.modulus 10) (hL : off + L ≤ q) (hi : q < off + 656) (hq : q < D.length) :
    Passes m D off q L ↔ m.modulus ∣ decimal (window D q L) ∧ digitAt D (q + 1 - L) ≠ 0 ∧
      m.minLen ≤ L := by
  rw [passes_iff hm hL hi hq, dvd_mul_pow_iff hco]

/-- For `M1` the factor two is tested only at the last digit of a full batch. -/
theorem passes_m1_iff (hL : off + L ≤ q) (hi : q < off + 656) (hq : q < D.length) :
    Passes .m1 D off q L ↔
      (if q = off + 655 then 299236546 else 149618273) ∣ decimal (window D q L) ∧
      digitAt D (q + 1 - L) ≠ 0 ∧ 14 ≤ L := by
  rw [passes_iff (by decide) hL hi hq]
  by_cases hlast : q = off + 655
  · rw [if_pos hlast, show 655 - (q - off) = 0 by omega, Nat.pow_zero, Nat.mul_one]
    rfl
  · have htwo : 2 ∣ 10 ^ (655 - (q - off)) :=
      Nat.dvd_trans (by decide) (dvd_pow_self 10 (by omega))
    have hM1 : MNumber.m1.modulus = 2 * 149618273 := rfl
    rw [if_neg hlast, hM1, mul_dvd_mul_pow_iff htwo (by decide)]
    rfl

end Moduli

/-- The last digit tells whether a number is even. -/
theorem decimal_window_mod_two {D : List UInt8} {q L : Nat} (hL : L ≤ q) (hq : q < D.length) :
    decimal (window D q (L + 1)) % 2 = digitAt D q % 2 := by
  have hsplit : window D q (L + 1) = ((List.range L).map fun i => D.getD (q + 1 - (L + 1) + i) 48) ++
      [D.getD q 48] := by
    rw [window_eq_map (by omega) hq, List.range_succ, List.map_append, List.map_singleton,
      show q + 1 - (L + 1) + L = q by omega]
  rw [hsplit, decimal, List.map_append, List.reverse_append, List.map_singleton, List.reverse_singleton,
    List.singleton_append, Nat.ofDigits_cons, digitAt]
  omega

/-- The prefix sums modulo `M2` at the two ends of the window differ, but their low 64 bits do
    not. -/
def KeyCollision (D : List UInt8) (o q L : Nat) : Prop :=
  residue .m2 (arrayAt D o) (q - o - L + 1) ≠ residue .m2 (arrayAt D o) (q - o + 1) ∧
    u64 (residue .m2 (arrayAt D o) (q - o - L + 1)) = u64 (residue .m2 (arrayAt D o) (q - o + 1))

instance (D : List UInt8) (o q L : Nat) : Decidable (KeyCollision D o q L) :=
  inferInstanceAs (Decidable (_ ∧ _))

/-- Equal sums modulo `M2` do mean that the window is a multiple of `M2`. -/
theorem residue_m2_eq_iff {D : List UInt8} {o q L : Nat} (hL : o + L ≤ q) (hi : q < o + 656)
    (hq : q < D.length) :
    residue .m2 (arrayAt D o) (q - o - L + 1) = residue .m2 (arrayAt D o) (q - o + 1) ↔
      MNumber.m2.modulus ∣ decimal (window D q L) := by
  rw [residue_eq_iff_dvd hL hi hq, dvd_mul_pow_iff (by decide)]

end JudgeDuck.Solver
