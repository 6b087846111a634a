/-
  The same stream, cut into batches in different ways.

  Whether a window is a multiple of its modulus does not depend on the cut, and every multiple is
  reported once, so the multiples contribute the same calls to every run (`mem_multiples`).  What
  the solver reports beyond them does depend on the cut: `FalseHit` says which windows these are,
  and `runCalls_perm_iff` that two cuts give the same answers iff they agree on them.
-/
import JudgeDuck.Lib.Lists
import JudgeDuck.Solver.Windows

namespace JudgeDuck.Solver

open JudgeDuck.Lib

/-! ## False hits -/

/-- The window passes the test but is not a multiple: for `M1` an odd multiple of `M1 / 2` that
    does not end at the 400th digit of its batch, for `M2` a collision of the 64-bit keys.  `o` is
    the place in the stream of the first digit of the array. -/
def FalseHit (m : MNumber) (D : List UInt8) (o q L : Nat) : Prop :=
  digitAt D (q + 1 - L) ≠ 0 ∧ m.minLen ≤ L ∧
    match m with
    | .m1 => decimal (window D q L) % 299236546 = 149618273 ∧ q ≠ o + 655
    | .m2 => KeyCollision D o q L
    | .m3 => False
    | .m4 => False

instance (m : MNumber) (D : List UInt8) (o q L : Nat) : Decidable (FalseHit m D o q L) :=
  match m with
  | .m1 => inferInstanceAs (Decidable (_ ∧ _ ∧ _ ∧ _))
  | .m2 => inferInstanceAs (Decidable (_ ∧ _ ∧ KeyCollision D o q L))
  | .m3 => inferInstanceAs (Decidable (_ ∧ _ ∧ False))
  | .m4 => inferInstanceAs (Decidable (_ ∧ _ ∧ False))

/-- A string with its modulus. -/
def Call.answer (c : Call) : MNumber × List UInt8 := (c.m, c.str)

/-- The false hits of a run, in the order of the solver's calls. -/
def falseHits (D : List UInt8) (off : Nat) : List (List UInt8) → List (MNumber × List UInt8)
  | [] => []
  | buf :: bufs =>
    ([MNumber.m1, .m4, .m3, .m2].flatMap fun m => (List.range buf.length).flatMap fun i =>
      (List.range N).flatMap fun l =>
        if FalseHit m D off (off + (N + i)) (l + 1) then [(m, window D (off + (N + i)) (l + 1))]
        else []) ++ falseHits D (off + buf.length) bufs

/-- The string is a multiple of the modulus it was reported for. -/
def isMultiple (c : Call) : Bool := decide (c.m.modulus ∣ decimal c.str)

section Window

variable {D : List UInt8} {o q L : Nat}

/-- **A window passes without being a multiple** iff it is a false hit. -/
theorem falseHit_iff {m : MNumber} (hL : o + L ≤ q) (hi : q < o + 656) (hq : q < D.length) :
    FalseHit m D o q L ↔ Passes m D o q L ∧ ¬ m.modulus ∣ decimal (window D q L) := by
  cases m with
  | m1 =>
    have hM1 : MNumber.m1.modulus = 299236546 := rfl
    rw [passes_m1_iff hL hi hq, hM1]
    constructor
    · rintro ⟨hlead, hmin, hodd, hlast⟩
      rw [if_neg hlast]
      exact ⟨⟨by omega, hlead, hmin⟩, by omega⟩
    · rintro ⟨⟨hdvd, hlead, hmin⟩, hnot⟩
      by_cases hlast : q = o + 655
      · rw [if_pos hlast] at hdvd
        exact absurd hdvd hnot
      · rw [if_neg hlast] at hdvd
        exact ⟨hlead, hmin, by omega, hlast⟩
  | m2 =>
    constructor
    · rintro ⟨hlead, hmin, hne, hkey⟩
      exact ⟨⟨hkey, hlead, hmin⟩, fun hdvd => hne ((residue_m2_eq_iff hL hi hq).mpr hdvd)⟩
    · rintro ⟨⟨hkey, hlead, hmin⟩, hnot⟩
      exact ⟨hlead, hmin, fun heq => hnot ((residue_m2_eq_iff hL hi hq).mp heq), hkey⟩
  | m3 =>
    rw [passes_iff_of_coprime (by decide) (by decide) hL hi hq]
    exact ⟨fun h => h.2.2.elim, fun h => absurd h.1.1 h.2⟩
  | m4 =>
    rw [passes_iff_of_coprime (by decide) (by decide) hL hi hq]
    exact ⟨fun h => h.2.2.elim, fun h => absurd h.1.1 h.2⟩

/-- No odd multiple of anything ends in an even digit. -/
theorem not_falseHit_m1_of_even (hL : L ≤ q) (hq : q < D.length) (heven : digitAt D q % 2 = 0) :
    ¬ FalseHit .m1 D o q (L + 1) := by
  rintro ⟨-, -, hodd, -⟩
  have hparity := decimal_window_mod_two hL hq
  omega

/-- Like the test, whether a window is a false hit does not depend on what has left the array. -/
theorem falseHit_append {m : MNumber} {pre : List UInt8} (hL : L ≤ q + 1) :
    FalseHit m (pre ++ D) (pre.length + o) (pre.length + q) L ↔ FalseHit m D o q L := by
  have hlead : digitAt (pre ++ D) (pre.length + q + 1 - L) = digitAt D (q + 1 - L) := by
    rw [Nat.add_assoc, Nat.add_sub_assoc hL, digitAt_append]
  have hlast : pre.length + q ≠ pre.length + o + 655 ↔ q ≠ o + 655 := by omega
  unfold FalseHit
  rw [hlead]
  cases m with
  | m1 => simp only [window_append hL, hlast]
  | m2 => simp only [KeyCollision, arrayAt_append, Nat.add_sub_add_left]
  | m3 => exact Iff.rfl
  | m4 => exact Iff.rfl

/-- **What is reported**, in terms of the number: a window that does not begin with `0`, is long enough
    and is a multiple of the modulus, or a false hit. -/
def Hit (m : MNumber) (D : List UInt8) (o q L : Nat) : Prop :=
  (digitAt D (q + 1 - L) ≠ 0 ∧ m.minLen ≤ L ∧ m.modulus ∣ decimal (window D q L)) ∨ FalseHit m D o q L

/-- The solver's test, which compares keys, finds the hits. -/
theorem passes_iff_hit {m : MNumber} (hL : o + L ≤ q) (hi : q < o + 656) (hq : q < D.length) :
    Passes m D o q L ↔ Hit m D o q L := by
  have hfalse := falseHit_iff (m := m) hL hi hq
  constructor
  · intro hpass
    by_cases hdvd : m.modulus ∣ decimal (window D q L)
    · exact .inl ⟨hpass.2.1, hpass.2.2, hdvd⟩
    · exact .inr (hfalse.mpr ⟨hpass, hdvd⟩)
  · rintro (⟨hlead, hmin, hdvd⟩ | hhit)
    · exact passes_of_dvd hL hi hq hdvd hlead hmin
    · exact (hfalse.mp hhit).1

/-- What one window contributes beyond the multiples. -/
theorem window_falseHit (m : MNumber) (hL : o + L ≤ q) (hi : q < o + 656) (hq : q < D.length) :
    ((if Passes m D o q L then [callOf m D q L] else []).filter fun c => !isMultiple c).map
        Call.answer =
      if FalseHit m D o q L then [(m, window D q L)] else [] := by
  have hiff := falseHit_iff (m := m) hL hi hq
  have hmul : isMultiple (callOf m D q L) = decide (m.modulus ∣ decimal (window D q L)) := rfl
  by_cases hp : Passes m D o q L
  · rw [if_pos hp, List.filter_cons, hmul]
    by_cases hdvd : m.modulus ∣ decimal (window D q L)
    · rw [if_neg (fun hf => (hiff.mp hf).2 hdvd), decide_eq_true hdvd]
      rfl
    · rw [if_pos (hiff.mpr ⟨hp, hdvd⟩), decide_eq_false hdvd]
      rfl
  · rw [if_neg hp, if_neg (fun hf => hp (hiff.mp hf).1)]
    rfl

end Window

theorem falseHits_append {pre D : List UInt8} : ∀ {bufs : List (List UInt8)} {off : Nat},
    falseHits (pre ++ D) (pre.length + off) bufs = falseHits D off bufs := by
  intro bufs
  induction bufs with
  | nil => exact rfl
  | cons buf bufs ih =>
    intro off
    rw [falseHits, falseHits, Nat.add_assoc, ih]
    congr 1
    refine List.flatMap_congr fun m _ => List.flatMap_congr fun i _ => List.flatMap_congr fun l hl => ?_
    have hl' : l + 1 ≤ off + (N + i) + 1 := by
      have := List.mem_range.mp hl
      omega
    simp only [Nat.add_assoc pre.length off, falseHit_append hl', window_append hl']

/-- A batch that ends in even digits only, and whose keys do not collide, adds no false hit. -/
theorem falseHits_cons_of_even {D : List UInt8} {off : Nat} {buf : List UInt8} {bufs : List (List UInt8)}
    (hlen : off + N + buf.length ≤ D.length)
    (heven : ∀ i < buf.length, digitAt D (off + (N + i)) % 2 = 0)
    (hkeys : ∀ i < buf.length, ∀ l < N, ¬ FalseHit .m2 D off (off + (N + i)) (l + 1)) :
    falseHits D off (buf :: bufs) = falseHits D (off + buf.length) bufs := by
  rw [falseHits, List.append_left_eq_self]
  refine List.flatMap_eq_nil_iff.mpr fun m _ => List.flatMap_eq_nil_iff.mpr fun i hi =>
    List.flatMap_eq_nil_iff.mpr fun l hl => if_neg ?_
  have hi' := List.mem_range.mp hi
  have hl' := List.mem_range.mp hl
  cases m with
  | m1 => exact not_falseHit_m1_of_even (by omega) (by omega) (heven i hi')
  | m2 => exact hkeys i hi' l hl'
  | m3 => exact fun h => h.2.2
  | m4 => exact fun h => h.2.2

/-! ## Two cuts of one stream -/

section Cuts

variable {D : List UInt8} (hD : ∀ b ∈ D, IsDigit b)

include hD

/-- The calls that are not multiples are the false hits. -/
theorem runCalls_falseHits : ∀ {bufs : List (List UInt8)} {off : Nat},
    (∀ buf ∈ bufs, IsBatch buf) → off + N + bufs.flatten.length ≤ D.length →
    ((runCalls D off bufs).filter fun c => !isMultiple c).map Call.answer =
      falseHits D off bufs := by
  intro bufs
  induction bufs with
  | nil => exact fun _ _ => rfl
  | cons buf bufs ih =>
    intro off hbufs hlen
    rw [List.flatten_cons, List.length_append] at hlen
    have hbuf : buf.length ≤ 400 := (hbufs buf List.mem_cons_self).2.1
    have hN : N = 256 := rfl
    rw [runCalls, falseHits, List.filter_append, List.map_append,
      ih (fun b hb => hbufs b (List.mem_cons_of_mem buf hb)) (by omega),
      batchCalls_shift hD (by omega), List.filter_flatMap, List.map_flatMap]
    refine congrArg (· ++ _) (List.flatMap_congr fun m _ => ?_)
    rw [List.filter_flatMap, List.map_flatMap]
    refine List.flatMap_congr fun i hi => ?_
    rw [List.filter_flatMap, List.map_flatMap]
    refine List.flatMap_congr fun l hl => ?_
    have hi' := List.mem_range.mp hi
    have hl' := List.mem_range.mp hl
    exact window_falseHit m (by omega) (by omega) (by omega)

/-- No call is made twice. -/
theorem runCalls_nodup {bufs : List (List UInt8)} {off : Nat}
    (hlen : off + N + bufs.flatten.length ≤ D.length) : (runCalls D off bufs).Nodup := by
  refine List.nodup_iff_sublist.mpr fun c hcc => ?_
  obtain ⟨m, o, q, L, hin, hL, -, rfl⟩ :=
    (mem_runCalls hD hlen).mp (hcc.subset List.mem_cons_self)
  have hb := hin.bounds
  have hfor : isFor m q L (callOf m D q L) = true :=
    (isFor_callOf (by omega) (by omega)).mpr ⟨rfl, rfl, rfl⟩
  -- two equal calls would both be for this window
  have htwo := (hcc.filter (isFor m q L)).length_le
  rw [runCalls_once hD hL hlen hin, List.filter_cons_of_pos hfor, List.filter_cons_of_pos hfor]
    at htwo
  split at htwo <;> exact absurd htwo (by simp)

/-- The multiples are reported whatever the cut. -/
theorem mem_multiples {bufs : List (List UInt8)} {off : Nat} {c : Call}
    (hbufs : ∀ buf ∈ bufs, IsBatch buf) (hlen : off + N + bufs.flatten.length ≤ D.length) :
    c ∈ (runCalls D off bufs).filter isMultiple ↔
      ∃ m q L, (off + N ≤ q ∧ q < off + N + bufs.flatten.length) ∧ (1 ≤ L ∧ L ≤ N) ∧
        (m.modulus ∣ decimal (window D q L) ∧ digitAt D (q + 1 - L) ≠ 0 ∧ m.minLen ≤ L) ∧
        c = callOf m D q L := by
  rw [List.mem_filter, mem_runCalls hD hlen]
  constructor
  · rintro ⟨⟨m, o, q, L, hin, hL, hpass, rfl⟩, hmul⟩
    have hb := hin.bounds
    exact ⟨m, q, L, by omega, hL, ⟨of_decide_eq_true hmul, hpass.2⟩, rfl⟩
  · rintro ⟨m, q, L, hq, hL, ⟨hdvd, hlead, hmin⟩, rfl⟩
    obtain ⟨o, hin⟩ := exists_inBatch hq.1 hq.2
    have hb := hin.bounds
    have hpass := passes_of_dvd (by omega) (hin.lt_add hbufs) (by omega) hdvd hlead hmin
    exact ⟨⟨m, o, q, L, hin, hL, hpass, rfl⟩, decide_eq_true hdvd⟩

/-- **Two cuts of one stream** give the same answers, up to order, iff they have the same false
    hits. -/
theorem runCalls_perm_iff {bufs1 bufs2 : List (List UInt8)} {off : Nat}
    (h1 : ∀ buf ∈ bufs1, IsBatch buf) (h2 : ∀ buf ∈ bufs2, IsBatch buf)
    (heq : bufs1.flatten = bufs2.flatten) (hlen : off + N + bufs1.flatten.length ≤ D.length) :
    ((runCalls D off bufs1).map Call.answer).Perm ((runCalls D off bufs2).map Call.answer) ↔
      (falseHits D off bufs1).Perm (falseHits D off bufs2) := by
  have hlen2 : off + N + bufs2.flatten.length ≤ D.length := heq ▸ hlen
  have hperm : ((runCalls D off bufs1).filter isMultiple).Perm
      ((runCalls D off bufs2).filter isMultiple) := by
    rw [List.perm_ext_iff_of_nodup ((runCalls_nodup hD hlen).filter _)
      ((runCalls_nodup hD hlen2).filter _)]
    intro c
    rw [mem_multiples hD h1 hlen, mem_multiples hD h2 hlen2, heq]
  rw [map_perm_iff_of_filter Call.answer hperm, runCalls_falseHits hD h1 hlen,
    runCalls_falseHits hD h2 hlen2]

end Cuts

end JudgeDuck.Solver
