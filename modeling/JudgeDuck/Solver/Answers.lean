/-
  What the solver reports: completeness, and soundness modulus by modulus.

  Throughout, a run is `init` followed by any number of batches of 1 to 400 digits, each batch
  `recv_input` and then `prepare`; `stream bufs` is the initial window of nines followed by all
  digits received.  `report_complete`: no window is missed or reported twice, for any modulus.
  `report_sound_m3_m4`: for `M3` and `M4` nothing else is reported.  The other two moduli report
  strings that are not multiples of the modulus, and the two remaining theorems say exactly in which
  runs: `M1` when a window is an odd multiple of `M1 / 2` and does not end on the 400th digit of
  a batch (`report_sound_m1_iff`), `M2` when two different residues agree in their low 64 bits
  (`report_sound_m2_iff`).
-/
import JudgeDuck.Solver.Windows

namespace JudgeDuck.Solver

open JudgeDuck.Lib

section Runs

variable {bufs : List (List UInt8)}

/-- The window of nines at the start, and the batches. -/
theorem length_stream : (stream bufs).length = 0 + N + bufs.flatten.length := by
  rw [stream, List.length_append, nines, List.length_replicate, Nat.zero_add]

/-- A window that ends in a batch, with its bounds. -/
theorem InBatch.window_bounds (hbufs : ∀ buf ∈ bufs, IsBatch buf) {o q L : Nat}
    (h : InBatch 0 bufs o q) (hL : L ≤ N) :
    o + L ≤ q ∧ q < o + 656 ∧ q < (stream bufs).length := by
  obtain ⟨-, h1, h2⟩ := h.bounds
  rw [length_stream]
  exact ⟨by omega, h.lt_add hbufs, h2⟩

/-- The calls of a run from `init`. -/
theorem mem_calls (hbufs : ∀ buf ∈ bufs, IsBatch buf) {c : Call} :
    c ∈ runCalls (stream bufs) 0 bufs ↔ ∃ m o q L, InBatch 0 bufs o q ∧ (1 ≤ L ∧ L ≤ N) ∧
      Passes m (stream bufs) o q L ∧ c = callOf m (stream bufs) q L :=
  mem_runCalls (isDigit_stream hbufs) (Nat.le_of_eq length_stream.symm)

/-- The same, of a run that is given. -/
theorem mem_of_feedAll (hbufs : ∀ buf ∈ bufs, IsBatch buf) {s : State} {calls : List Call}
    (hrun : feedAll init 0 bufs = .ok (s, calls)) {c : Call} :
    c ∈ calls ↔ ∃ m o q L, InBatch 0 bufs o q ∧ (1 ≤ L ∧ L ≤ N) ∧
      Passes m (stream bufs) o q L ∧ c = callOf m (stream bufs) q L := by
  obtain ⟨s', hrun', -⟩ := feedAll_init hbufs
  obtain ⟨-, rfl⟩ := Prod.mk.inj (Except.ok.inj (hrun.symm.trans hrun'))
  exact mem_calls hbufs

/-- The add_mod log of a run: no operand leaves `[0, M)`, no sum wraps, no result leaves
    `[0, M)`. -/
theorem Tracks.adds_in_range {s : State} {a : Nat → Nat} (h : Tracks s a) (m : MNumber) :
    ∀ x ∈ (s.chan m).adds, x.1 < m.modulus ∧ x.2 < m.modulus ∧ x.1 + x.2 < 2 ^ m.bits ∧
      addMod m x.1 x.2 < m.modulus := by
  intro x hx
  obtain ⟨h1, h2⟩ := (h.ready m).adds x hx
  have hfit := m.two_modulus_le
  refine ⟨h1, h2, by omega, ?_⟩
  rw [addMod_eq h1 h2]
  exact Nat.mod_lt _ m.modulus_pos

end Runs

/-! ## Completeness -/

/-- **No window is missed or repeated.**  A window of legal length that ends in a batch, does not
    begin with `0` and is a multiple of the modulus is reported, with its own digits, by exactly one
    call of the run. -/
theorem report_complete (bufs : List (List UInt8)) (hbufs : ∀ buf ∈ bufs, IsBatch buf) :
    ∃ s calls, feedAll init 0 bufs = .ok (s, calls) ∧
      ∀ (m : MNumber) (q L : Nat), N ≤ q → q < (stream bufs).length → m.minLen ≤ L → L ≤ N →
        digitAt (stream bufs) (q + 1 - L) ≠ 0 →
        m.modulus ∣ decimal (window (stream bufs) q L) →
        calls.filter (isFor m q L) = [⟨q, window (stream bufs) q L, m⟩] := by
  obtain ⟨s, hrun, -⟩ := feedAll_init hbufs
  refine ⟨s, _, hrun, ?_⟩
  intro m q L hq1 hq2 hmin hN hlead hdvd
  rw [length_stream] at hq2
  have hafter : 0 + N ≤ q := by omega
  obtain ⟨o, ho⟩ := exists_inBatch hafter (by omega)
  obtain ⟨h1, h2, h3⟩ := ho.window_bounds hbufs hN
  have hpos : 1 ≤ L := by
    have : 1 ≤ m.minLen := by cases m <;> decide
    omega
  have hpass : Passes m (stream bufs) o q L := passes_of_dvd h1 h2 h3 hdvd hlead hmin
  rw [runCalls_once (isDigit_stream hbufs) ⟨hpos, hN⟩ (Nat.le_of_eq length_stream.symm) ho,
    if_pos hpass]
  rfl

/-- `29923654600000 = 100000 · M1`, received in one batch. -/
theorem report_complete_m1 :
    let bufs : List (List UInt8) := [[50, 57, 57, 50, 51, 54, 53, 52, 54, 48, 48, 48, 48, 48]]
    ∃ s calls, feedAll init 0 bufs = .ok (s, calls) ∧
      calls.filter (isFor .m1 269 14) = [⟨269, window (stream bufs) 269 14, .m1⟩] := by
  intro bufs
  obtain ⟨s, calls, hrun, h⟩ := report_complete bufs (by decide)
  exact ⟨s, calls, hrun, h .m1 269 14 (by decide) (by rw [length_stream]; decide) (by decide)
    (by decide) (by decide +kernel) (by decide +kernel)⟩

/-! ## Soundness for `M3` and `M4` -/

/-- **Nothing else is reported for `M3` and `M4`**, and no `add_mod` of the run leaves its range. -/
theorem report_sound_m3_m4 (bufs : List (List UInt8)) (hbufs : ∀ buf ∈ bufs, IsBatch buf) :
    ∃ s calls, feedAll init 0 bufs = .ok (s, calls) ∧
      (∀ c ∈ calls, c.m = .m3 ∨ c.m = .m4 →
        N ≤ c.q ∧ c.q < (stream bufs).length ∧
        ∃ L, c.m.minLen ≤ L ∧ L ≤ N ∧ c.str = window (stream bufs) c.q L ∧
          digitAt (stream bufs) (c.q + 1 - L) ≠ 0 ∧ c.m.modulus ∣ decimal c.str) ∧
      ∀ m, m = .m3 ∨ m = .m4 → ∀ x ∈ (s.chan m).adds,
        x.1 < m.modulus ∧ x.2 < m.modulus ∧ x.1 + x.2 < 2 ^ m.bits ∧
          addMod m x.1 x.2 < m.modulus := by
  obtain ⟨s, hrun, hs⟩ := feedAll_init hbufs
  refine ⟨s, _, hrun, ?_, fun m _ => hs.adds_in_range m⟩
  intro c hc hm
  rcases (mem_calls hbufs).mp hc with ⟨m, o, q, L, hin, hL, hpass, rfl⟩
  obtain ⟨h1, h2, h3⟩ := hin.window_bounds hbufs hL.2
  have hsmall : m.modulus ≤ 2 ^ 64 ∧ Nat.Coprime m.modulus 10 := by
    rcases hm with rfl | rfl
    · exact ⟨by decide, by decide⟩
    · exact ⟨by decide, by decide⟩
  rcases (passes_iff_of_coprime hsmall.1 hsmall.2 h1 h2 h3).mp hpass with ⟨hdvd, hlead, hmin⟩
  refine ⟨?_, h3, L, hmin, hL.2, rfl, hlead, hdvd⟩
  have := hin.bounds
  show N ≤ q
  omega

/-- `10 ^ 36 · M3`, received in one batch. -/
theorem report_sound_m3_m4_one :
    ∃ s calls, feedAll init 0 [[53] ++ List.replicate 14 48 ++ [50, 52, 51] ++
        List.replicate 36 48] = .ok (s, calls) ∧
      ∀ c ∈ calls, c.m = .m3 → c.m.modulus ∣ decimal c.str := by
  obtain ⟨s, calls, hrun, h, -⟩ := report_sound_m3_m4 [[53] ++ List.replicate 14 48 ++
    [50, 52, 51] ++ List.replicate 36 48] (by decide)
  refine ⟨s, calls, hrun, fun c hc hm => ?_⟩
  obtain ⟨-, -, L, -, -, -, -, hdvd⟩ := h c hc (Or.inl hm)
  exact hdvd

/-! ## Soundness for `M1` -/

/-- **The runs in which every string reported for `M1` is a multiple of `M1`** are those without
    a window that is an odd multiple of `M1 / 2 = 149618273` and ends elsewhere than on the 400th
    digit of a batch. -/
theorem report_sound_m1_iff (bufs : List (List UInt8)) (hbufs : ∀ buf ∈ bufs, IsBatch buf) :
    ∃ s calls, feedAll init 0 bufs = .ok (s, calls) ∧
      ((∀ c ∈ calls, c.m = .m1 → MNumber.m1.modulus ∣ decimal c.str) ↔
        ∀ o q L, InBatch 0 bufs o q → q ≠ o + 655 → 14 ≤ L → L ≤ N →
          digitAt (stream bufs) (q + 1 - L) ≠ 0 →
          decimal (window (stream bufs) q L) % 299236546 ≠ 149618273) := by
  obtain ⟨s, hrun, -⟩ := feedAll_init hbufs
  refine ⟨s, _, hrun, ?_, ?_⟩
  · intro hsound o q L hin hlast h14 hN hlead hodd
    obtain ⟨h1, h2, h3⟩ := hin.window_bounds hbufs hN
    have hhalf : 149618273 ∣ decimal (window (stream bufs) q L) := by omega
    have hpass : Passes .m1 (stream bufs) o q L := by
      rw [passes_m1_iff h1 h2 h3, if_neg hlast]
      exact ⟨hhalf, hlead, h14⟩
    have hdvd := hsound _ ((mem_calls hbufs).mpr ⟨.m1, o, q, L, hin, by omega, hpass, rfl⟩) rfl
    have hdvd' : 299236546 ∣ decimal (window (stream bufs) q L) := hdvd
    omega
  · intro hno c hc hm
    rcases (mem_calls hbufs).mp hc with ⟨m, o, q, L, hin, hL, hpass, rfl⟩
    obtain rfl : m = .m1 := hm
    obtain ⟨h1, h2, h3⟩ := hin.window_bounds hbufs hL.2
    rcases (passes_m1_iff h1 h2 h3).mp hpass with ⟨hdvd, hlead, h14⟩
    show 299236546 ∣ decimal (window (stream bufs) q L)
    by_cases hlast : q = o + 655
    · rwa [if_pos hlast] at hdvd
    · rw [if_neg hlast] at hdvd
      have := hno o q L hin hlast h14 hL.2 hlead
      omega

/-- `20260408820022` is a multiple of `M1`.  It is reported; all its digits are even, so no window of the run
    is an odd multiple of anything, and nothing else is. -/
theorem report_sound_m1_iff_even :
    ∃ s calls, feedAll init 0 [[50, 48, 50, 54, 48, 52, 48, 56, 56, 50, 48, 48, 50, 50]] = .ok (s, calls) ∧
      (∃ c ∈ calls, c.m = .m1 ∧ decimal c.str = 20260408820022) ∧
      ∀ c ∈ calls, c.m = .m1 → MNumber.m1.modulus ∣ decimal c.str := by
  have hbufs : ∀ buf ∈ [([50, 48, 50, 54, 48, 52, 48, 56, 56, 50, 48, 48, 50, 50] : List UInt8)],
      IsBatch buf := by decide
  obtain ⟨s, calls, hrun, hiff⟩ := report_sound_m1_iff _ hbufs
  refine ⟨s, calls, hrun, ?_, hiff.mpr ?_⟩
  · refine ⟨callOf .m1 _ 269 14, (mem_of_feedAll hbufs hrun).mpr
      ⟨.m1, 0, 269, 14, Or.inl (by decide), by decide, ?_, rfl⟩, rfl, by decide +kernel⟩
    rw [passes_m1_iff (by decide) (by decide) (by rw [length_stream]; decide)]
    decide +kernel
  · intro o q L hin _ h14 hN _ hodd
    obtain ⟨h1, -, h3⟩ := hin.window_bounds hbufs hN
    obtain ⟨L, rfl⟩ : ∃ L', L = L' + 1 := ⟨L - 1, by omega⟩
    have heven : ∀ i < 14, digitAt (stream [[50, 48, 50, 54, 48, 52, 48, 56, 56, 50, 48, 48, 50, 50]])
        (256 + i) % 2 = 0 := by decide +kernel
    obtain ⟨-, hq1, hq2⟩ := hin.resolve_right id
    obtain ⟨i, rfl⟩ := Nat.exists_eq_add_of_le hq1
    have hlast := heven i (by simpa using hq2)
    have hparity := decimal_window_mod_two (by omega) h3 (L := L)
    rw [show 0 + N + i = 256 + i from rfl] at *
    omega

/-- `14961976918273 = 100001 · 149618273` is odd, hence no multiple of `M1`, and it is reported. -/
theorem report_m1_unsound :
    ∃ s calls, feedAll init 0 [[49, 52, 57, 54, 49, 57, 55, 54, 57, 49, 56, 50, 55, 51]]
        = .ok (s, calls) ∧
      ∃ c ∈ calls, c.m = .m1 ∧ decimal c.str = 14961976918273 ∧
        ¬ MNumber.m1.modulus ∣ decimal c.str := by
  have hbufs : ∀ buf ∈ [([49, 52, 57, 54, 49, 57, 55, 54, 57, 49, 56, 50, 55, 51] : List UInt8)],
      IsBatch buf := by decide
  obtain ⟨s, hrun, -⟩ := feedAll_init hbufs
  refine ⟨s, _, hrun, callOf .m1 _ 269 14, (mem_calls hbufs).mpr
    ⟨.m1, 0, 269, 14, Or.inl (by decide), by decide, ?_, rfl⟩, rfl, ?_, ?_⟩
  · rw [passes_m1_iff (by decide) (by decide) (by rw [length_stream]; decide)]
    decide +kernel
  · decide +kernel
  · decide +kernel

/-! ## Soundness for `M2` -/

/-- **The runs in which every string reported for `M2` is a multiple of `M2`** are those without
    a window whose prefix sums collide in their 64-bit keys. -/
theorem report_sound_m2_iff (bufs : List (List UInt8)) (hbufs : ∀ buf ∈ bufs, IsBatch buf) :
    ∃ s calls, feedAll init 0 bufs = .ok (s, calls) ∧
      ((∀ c ∈ calls, c.m = .m2 → MNumber.m2.modulus ∣ decimal c.str) ↔
        ∀ o q L, InBatch 0 bufs o q → 27 ≤ L → L ≤ N →
          digitAt (stream bufs) (q + 1 - L) ≠ 0 → ¬ KeyCollision (stream bufs) o q L) := by
  obtain ⟨s, hrun, -⟩ := feedAll_init hbufs
  refine ⟨s, _, hrun, ?_, ?_⟩
  · rintro hsound o q L hin h27 hN hlead ⟨hne, hkey⟩
    obtain ⟨h1, h2, h3⟩ := hin.window_bounds hbufs hN
    have hpass : Passes .m2 (stream bufs) o q L := ⟨hkey, hlead, h27⟩
    have hdvd := hsound _ ((mem_calls hbufs).mpr ⟨.m2, o, q, L, hin, by omega, hpass, rfl⟩) rfl
    exact hne ((residue_m2_eq_iff h1 h2 h3).mpr hdvd)
  · intro hno c hc hm
    rcases (mem_calls hbufs).mp hc with ⟨m, o, q, L, hin, hL, hpass, rfl⟩
    obtain rfl : m = .m2 := hm
    obtain ⟨h1, h2, h3⟩ := hin.window_bounds hbufs hL.2
    obtain ⟨hkey, hlead, h27⟩ := hpass
    apply (residue_m2_eq_iff h1 h2 h3).mp
    by_contra hne
    exact hno o q L hin h27 hL.2 hlead ⟨hne, hkey⟩

/-- The digits of `M2` itself: they are reported, no keys collide, and nothing else is reported. -/
theorem report_sound_m2_iff_modulus :
    ∃ s calls, feedAll init 0 [[49, 48, 52, 54, 52, 56, 50, 53, 55, 49, 49, 56, 51, 52, 56, 51, 55, 48, 55, 48,
        52, 55, 50, 51, 52, 48, 49]] = .ok (s, calls) ∧
      (∃ c ∈ calls, c.m = .m2 ∧ decimal c.str = MNumber.m2.modulus) ∧
      ∀ c ∈ calls, c.m = .m2 → MNumber.m2.modulus ∣ decimal c.str := by
  have hbufs : ∀ buf ∈ [([49, 48, 52, 54, 52, 56, 50, 53, 55, 49, 49, 56, 51, 52, 56, 51, 55, 48, 55, 48, 52,
      55, 50, 51, 52, 48, 49] : List UInt8)], IsBatch buf := by decide
  obtain ⟨s, calls, hrun, hiff⟩ := report_sound_m2_iff _ hbufs
  have hkeys : ∀ i < 27, ∀ l < 230, ¬ KeyCollision (stream [[49, 48, 52, 54, 52, 56, 50, 53, 55, 49, 49, 56,
      51, 52, 56, 51, 55, 48, 55, 48, 52, 55, 50, 51, 52, 48, 49]]) 0 (256 + i) (27 + l) := by
    decide +kernel
  refine ⟨s, calls, hrun, ?_, hiff.mpr ?_⟩
  · refine ⟨callOf .m2 _ 282 27, (mem_of_feedAll hbufs hrun).mpr
      ⟨.m2, 0, 282, 27, Or.inl (by decide), by decide, ?_, rfl⟩, rfl, by decide +kernel⟩
    decide +kernel
  · intro o q L hin h27 hN _
    obtain ⟨rfl, hq1, hq2⟩ := hin.resolve_right id
    obtain ⟨i, rfl⟩ := Nat.exists_eq_add_of_le hq1
    obtain ⟨l, rfl⟩ := Nat.exists_eq_add_of_le h27
    have hN' : N = 256 := rfl
    have hlen : 0 + N + i < 0 + N + 27 := hq2
    have hi : 0 + N + i = 256 + i := by omega
    rw [hi]
    exact hkeys i (by omega) l (by omega)

/-- The prefix sums at the two ends of `134869696645438441856216836` differ by `2 ^ 64`. -/
theorem report_m2_unsound :
    ∃ s calls, feedAll init 0 [[49, 51, 52, 56, 54, 57, 54, 57, 54, 54, 52, 53, 52, 51, 56, 52, 52,
        49, 56, 53, 54, 50, 49, 54, 56, 51, 54]] = .ok (s, calls) ∧
      ∃ c ∈ calls, c.m = .m2 ∧ decimal c.str = 134869696645438441856216836 ∧
        ¬ MNumber.m2.modulus ∣ decimal c.str := by
  have hbufs : ∀ buf ∈ [([49, 51, 52, 56, 54, 57, 54, 57, 54, 54, 52, 53, 52, 51, 56, 52, 52, 49,
      56, 53, 54, 50, 49, 54, 56, 51, 54] : List UInt8)], IsBatch buf := by decide
  obtain ⟨s, hrun, -⟩ := feedAll_init hbufs
  refine ⟨s, _, hrun, callOf .m2 _ 282 27, (mem_calls hbufs).mpr
    ⟨.m2, 0, 282, 27, Or.inl (by decide), by decide, ?_, rfl⟩, rfl, ?_, ?_⟩
  · decide +kernel
  · decide +kernel
  · decide +kernel

end JudgeDuck.Solver
