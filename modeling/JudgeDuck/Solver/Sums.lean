/-
  The weighted prefix sums of the solver.

  `residue m a n` is what the running sum of modulus `m` must be after the digits
  `a 0, …, a (n - 1)` of the array: the seed plus the digits weighted by `10 ^ (655 - i)`, modulo
  `M`.  Three loops keep to it: `init_e` fills the table with the weights (`initE_spec`),
  `do_prepare_digits` adds up the window and files every prefix sum (`doPrepareDigits_spec`), and
  `do_add_digits` goes on with the batch, asking the table before each insertion
  (`doAddDigits_spec`).  All three carry `AddsOk`: both operands of every `add_mod` are below `M`,
  so neither the sum nor the result leaves its range.
-/
import JudgeDuck.Lib.Positional
import JudgeDuck.Solver.Hash

namespace JudgeDuck.Solver

open JudgeDuck.Lib

/-! ## `add_mod` -/

theorem MNumber.modulus_pos (m : MNumber) : 0 < m.modulus := by
  cases m <;> decide

/-- The sum of two residues fits the type of the modulus. -/
theorem MNumber.two_modulus_le (m : MNumber) : 2 * m.modulus ≤ 2 ^ m.bits := by
  cases m <;> decide

/-- `add_mod` on residues is addition modulo `M`. -/
theorem addMod_eq {m : MNumber} {a b : Nat} (ha : a < m.modulus) (hb : b < m.modulus) :
    addMod m a b = (a + b) % m.modulus := by
  have hfit : a + b < 2 ^ m.bits := by
    have := m.two_modulus_le
    omega
  rw [addMod, Nat.mod_eq_of_lt hfit]
  by_cases hM : m.modulus ≤ a + b
  · rw [if_pos hM, Nat.mod_eq_sub_mod hM, Nat.mod_eq_of_lt (by omega)]
  · rw [if_neg hM, Nat.mod_eq_of_lt (by omega)]

/-- Both operands of every `add_mod` of the log are residues. -/
def AddsOk (m : MNumber) (adds : List (Nat × Nat)) : Prop :=
  ∀ x ∈ adds, x.1 < m.modulus ∧ x.2 < m.modulus

theorem AddsOk.cons {m : MNumber} {adds : List (Nat × Nat)} {a b : Nat} (h : AddsOk m adds)
    (ha : a < m.modulus) (hb : b < m.modulus) : AddsOk m ((a, b) :: adds) := by
  intro x hx
  rcases List.mem_cons.mp hx with rfl | hx
  · exact ⟨ha, hb⟩
  · exact h x hx

/-! ## The table of weights -/

/-- Row `i` of the table holds the multiples of `10 ^ (655 - i)`. -/
def RowOk (m : MNumber) (e : Nat → Nat) (i : Nat) : Prop :=
  ∀ d, d < 10 → e (i * 10 + d) = d * 10 ^ (655 - i) % m.modulus

/-- One row: its entries are the multiples of `cur`, the other rows stay, `10 * cur` goes on. -/
theorem initERow_spec {m : MNumber} {cur i : Nat} {c : Channel} (hcur : cur < m.modulus)
    (hadds : AddsOk m c.adds) :
    (initERow m cur i c).1 = 10 * cur % m.modulus ∧
    (∀ d, d < 10 → (initERow m cur i c).2.e (i * 10 + d) = d * cur % m.modulus) ∧
    (∀ k, k < i * 10 ∨ i * 10 + 10 ≤ k → (initERow m cur i c).2.e k = c.e k) ∧
    AddsOk m (initERow m cur i c).2.adds := by
  -- after `j` turns `tmp` is `j * cur` and the first `j` entries are written
  refine forUp_inv (fun j (st : Nat × Channel) => st.1 = j * cur % m.modulus ∧
    (∀ d, d < j → st.2.e (i * 10 + d) = d * cur % m.modulus) ∧
    (∀ k, k < i * 10 ∨ i * 10 + j ≤ k → st.2.e k = c.e k) ∧ AddsOk m st.2.adds) ?_ ?_
  · refine ⟨?_, fun d hd => absurd hd (Nat.not_lt_zero d), fun _ _ => rfl, hadds⟩
    rw [Nat.zero_mul, Nat.zero_mod]
  · rintro j hj ⟨tmp, c'⟩ ⟨htmp, hrow, hother, hok⟩
    have htmp' : tmp = j * cur % m.modulus := htmp
    have hlt : tmp < m.modulus := by
      rw [htmp']
      exact Nat.mod_lt _ m.modulus_pos
    refine ⟨?_, ?_, ?_, hok.cons hlt hcur⟩
    · show addMod m tmp cur = (j + 1) * cur % m.modulus
      rw [addMod_eq hlt hcur, htmp', Nat.mod_add_mod, Nat.succ_mul]
    · intro d hd
      show Function.update c'.e (i * 10 + j) tmp (i * 10 + d) = d * cur % m.modulus
      rcases Nat.lt_or_eq_of_le (Nat.lt_succ_iff.mp hd) with hdj | rfl
      · rw [Function.update_of_ne (by omega)]
        exact hrow d hdj
      · rw [Function.update_self]
        exact htmp'
    · intro k hk
      show Function.update c'.e (i * 10 + j) tmp k = c.e k
      rw [Function.update_of_ne (by omega)]
      exact hother k (by omega)

/-- `init_e` fills the table with the weights. -/
theorem initE_spec {m : MNumber} {c : Channel} (hadds : AddsOk m c.adds) :
    (∀ i, i < 656 → RowOk m (initE m c).e i) ∧ AddsOk m (initE m c).adds := by
  have hone : 1 < m.modulus := by cases m <;> decide
  -- before row `i - 1` is written, `cur` is its weight and the rows from `i` on are filled
  have h := forDown_inv (f := fun i st => initERow m st.1 i st.2) (n := 656) (s := (1, c))
    (fun i (st : Nat × Channel) => st.1 = 10 ^ (656 - i) % m.modulus ∧
      (∀ i', i ≤ i' → i' < 656 → RowOk m st.2.e i') ∧ AddsOk m st.2.adds) ?_ ?_
  · obtain ⟨-, hrows, hok⟩ := h
    have hN : N + maxBatchSize = 656 := rfl
    rw [initE, hN]
    exact ⟨fun i hi => hrows i (Nat.zero_le i) hi, hok⟩
  · refine ⟨?_, fun i' h1 h2 => by omega, hadds⟩
    exact (Nat.mod_eq_of_lt hone).symm
  · rintro i hi ⟨cur, c'⟩ ⟨hcur, hrows, hok⟩
    have hcur' : cur = 10 ^ (655 - i) % m.modulus := by
      rw [show 655 - i = 656 - (i + 1) by omega]
      exact hcur
    have hlt : cur < m.modulus := by
      rw [hcur']
      exact Nat.mod_lt _ m.modulus_pos
    obtain ⟨hten, hrow, hother, hok'⟩ := initERow_spec (i := i) hlt hok
    refine ⟨?_, ?_, hok'⟩
    · rw [show 656 - i = 655 - i + 1 by omega, Nat.pow_succ, Nat.mul_comm, ← Nat.mul_mod_mod,
        ← hcur']
      exact hten
    · intro i' h1 h2 d hd
      rcases Nat.lt_or_eq_of_le h1 with hlt' | rfl
      · show (initERow m cur i c').2.e (i' * 10 + d) = _
        rw [hother (i' * 10 + d) (by omega)]
        exact hrows i' hlt' h2 d hd
      · show (initERow m cur i c').2.e (i * 10 + d) = _
        rw [hrow d hd, hcur', Nat.mul_mod_mod]

/-! ## Prefix sums -/

/-- The running sum of modulus `m` after the first `n` digits of the array `a`. -/
def residue (m : MNumber) (a : Nat → Nat) (n : Nat) : Nat :=
  (233333333 + weighted 10 655 a n) % m.modulus

theorem residue_lt (m : MNumber) (a : Nat → Nat) (n : Nat) : residue m a n < m.modulus :=
  Nat.mod_lt _ m.modulus_pos

/-- The seed is a residue of every modulus. -/
theorem residue_zero (m : MNumber) (a : Nat → Nat) : residue m a 0 = 233333333 := by
  cases m <;> rfl

/-- A sum looks only at the digits added up. -/
theorem residue_congr {m : MNumber} {a b : Nat → Nat} {n : Nat} (h : ∀ i, i < n → a i = b i) :
    residue m a n = residue m b n := by
  rw [residue, residue, weighted_congr h]

/-- The key under which the prefix sum at digit `i` is filed: its low 64 bits. -/
def keyAt (m : MNumber) (a : Nat → Nat) (i : Nat) : Nat := u64 (residue m a (i + 1))

/-- One `add_mod` of the loops: the sum and the table entry of the next digit. -/
theorem addMod_residue {m : MNumber} {a : Nat → Nat} {i : Nat} {c : Channel}
    (hrow : RowOk m c.e i) (ha : a i < 10) :
    c.entry i (a i : Int) < m.modulus ∧
    addMod m (residue m a i) (c.entry i (a i : Int)) = residue m a (i + 1) := by
  have hentry : c.entry i (a i : Int) = a i * 10 ^ (655 - i) % m.modulus := by
    rw [Channel.entry, ← Int.natCast_add, Int.toNat_natCast]
    exact hrow (a i) ha
  have hlt : c.entry i (a i : Int) < m.modulus := by
    rw [hentry]
    exact Nat.mod_lt _ m.modulus_pos
  refine ⟨hlt, ?_⟩
  rw [addMod_eq (residue_lt m a i) hlt, hentry, residue, residue, ← Nat.add_mod, weighted,
    Nat.add_assoc]

/-- A channel that has added up and filed the first `n` digits of the array. -/
structure Ready (m : MNumber) (a : Nat → Nat) (n : Nat) (c : Channel) : Prop where
  rows : ∀ i, i < 656 → RowOk m c.e i
  holds : c.h.Holds n (keyAt m a)
  adds : AddsOk m c.adds

theorem Ready.congr {m : MNumber} {a b : Nat → Nat} {n : Nat} {c : Channel} (hc : Ready m a n c)
    (h : ∀ i, i < n → a i = b i) : Ready m b n c where
  rows := hc.rows
  holds := hc.holds.congr fun i hi => by
    rw [keyAt, keyAt, residue_congr fun j hj => h j (by omega)]
  adds := hc.adds

/-- `do_prepare_digits` adds up and files the `N` digits of the window. -/
theorem doPrepareDigits_spec {m : MNumber} {a : Nat → Nat} {digits : Nat → Int} {c : Channel}
    (hdig : ∀ i, i < N → digits i = (a i : Int)) (ha : ∀ i, a i < 10)
    (hrows : ∀ i, i < 656 → RowOk m c.e i) (hadds : AddsOk m c.adds) :
    (doPrepareDigits m digits c).sum = residue m a N ∧
      Ready m a N (doPrepareDigits m digits c) := by
  refine forUp_inv (fun i c' => c'.sum = residue m a i ∧ Ready m a i c') ?_ ?_
  · exact ⟨(residue_zero m a).symm, hrows, Hash.holds_clear c.h _, hadds⟩
  · rintro i hi c' ⟨hsum, hready⟩
    have hN : N = 256 := rfl
    obtain ⟨hlt, hadd⟩ := addMod_residue (hready.rows i (by omega)) (ha i)
    have hsum' : addMod m c'.sum (c'.entry i (digits i)) = residue m a (i + 1) := by
      rw [hsum, hdig i hi]
      exact hadd
    refine ⟨hsum', hready.rows, ?_, hready.adds.cons ?_ ?_⟩
    · show (c'.h.insert (u64 (addMod m c'.sum (c'.entry i (digits i)))) i).Holds (i + 1) _
      rw [hsum']
      exact hready.holds.insert (by omega)
    · rw [hsum]
      exact residue_lt m a i
    · rw [hdig i hi]
      exact hlt

/-! ## Queries -/

/-- The shortest window reported for a modulus. -/
def MNumber.minLen : MNumber → Nat
  | m1 => 14
  | m2 => 27
  | m3 => 54
  | m4 => 68

/-- The `len` digits of the array from `start` on, as text. -/
def textOf (a : Nat → Nat) (start len : Nat) : List UInt8 :=
  (List.range len).map fun i => toChar ((a (start + i) : Int) + 48)

/-- `report_digits` on an array of digits. -/
theorem reportDigits_eq {a : Nat → Nat} {digits : Nat → Int} {start len q : Nat} {m : MNumber}
    (hdig : ∀ i, i < len → digits (start + i) = (a (start + i) : Int)) (hlen : 0 < len) :
    reportDigits digits start len m q =
      if a start ≠ 0 ∧ m.minLen ≤ len then [⟨q, textOf a start len, m⟩] else [] := by
  have htext : ((List.range len).map fun i => toChar (digits (start + i) + 48))
      = textOf a start len := by
    refine List.map_congr_left fun i hi => ?_
    rw [hdig i (List.mem_range.mp hi)]
  have hfirst : digits start = (a start : Int) := hdig 0 hlen
  rw [reportDigits, hfirst, htext]
  by_cases h0 : a start = 0
  · rw [if_pos (by rw [h0]; rfl), if_neg (fun e => e.1 h0)]
  · have h0' : ¬ ((a start : Nat) : Int) = 0 := by omega
    rw [if_neg h0']
    -- one of the four length tests applies
    have htest : ∀ k, (if len < k then [] else [(⟨q, textOf a start len, m⟩ : Call)])
        = if a start ≠ 0 ∧ k ≤ len then [⟨q, textOf a start len, m⟩] else [] := by
      intro k
      by_cases hk : len < k
      · rw [if_pos hk, if_neg (fun e => Nat.not_lt.mpr e.2 hk)]
      · rw [if_neg hk, if_pos ⟨h0, Nat.not_lt.mp hk⟩]
    cases m <;> simp only [reduceCtorEq, false_and, true_and, if_false] <;> exact htest _

/-- The call made for the window of length `l + 1` ending at digit `q` of the array. -/
def windowCalls (m : MNumber) (a : Nat → Nat) (q l : Nat) : List Call :=
  if keyAt m a (q - l - 1) = keyAt m a q ∧ a (q - l) ≠ 0 ∧ m.minLen ≤ l + 1 then
    [⟨q, textOf a (q - l) (l + 1), m⟩] else []

/-- All calls made for modulus `m` while digit `q` is processed, shortest window first. -/
def callsAt (m : MNumber) (a : Nat → Nat) (q : Nat) : List Call :=
  (List.range N).flatMap (windowCalls m a q)

theorem downFrom_eq_map (n : Nat) : downFrom n = (List.range n).map (n - ·) := by
  induction n with
  | zero => rfl
  | succ n ih =>
    rw [downFrom_succ, ih, List.range_succ_eq_map, List.map_cons, List.map_map]
    refine congrArg₂ _ rfl (List.map_congr_left fun i _ => ?_)
    show n - i = n + 1 - (i + 1)
    omega

/-- The windows longer than `N` are skipped, the others are listed by length. -/
theorem queryAll_callsAt {m : MNumber} {a : Nat → Nat} {digits : Nat → Int} {h : Hash} {q : Nat}
    (hh : h.Holds q (keyAt m a)) (hq : N ≤ q) (hq' : q < 656)
    (hdig : ∀ i, i ≤ q → digits i = (a i : Int)) :
    h.queryAll digits (keyAt m a q) q m = .ok (callsAt m a q) := by
  rw [hh.queryAll_eq (Nat.le_refl q) (by omega)]
  apply congrArg Except.ok
  obtain ⟨r, rfl⟩ := Nat.exists_eq_add_of_le hq
  rw [downFrom_eq_map, List.flatMap_map, List.range_add, List.flatMap_append]
  have hlong : ((List.range r).map (N + ·)).flatMap (fun l =>
      if keyAt m a (N + r - l - 1) = keyAt m a (N + r) ∧ N + r - (N + r - l - 1) ≤ N then
        reportDigits digits (N + r - l) (N + r - (N + r - l - 1)) m (N + r) else []) = [] := by
    refine List.flatMap_eq_nil_iff.mpr fun l hl => if_neg fun e => ?_
    rcases List.mem_map.mp hl with ⟨i, hi, rfl⟩
    have := List.mem_range.mp hi
    omega
  rw [hlong, List.append_nil]
  refine List.flatMap_congr fun l hl => ?_
  have hl' : l < N := List.mem_range.mp hl
  have hlen : N + r - (N + r - l - 1) = l + 1 := by omega
  rw [hlen, windowCalls]
  by_cases hk : keyAt m a (N + r - l - 1) = keyAt m a (N + r)
  · rw [if_pos ⟨hk, hl'⟩, reportDigits_eq (a := a) (fun i hi => hdig _ (by omega)) (by omega)]
    by_cases h0 : a (N + r - l) ≠ 0 ∧ m.minLen ≤ l + 1
    · rw [if_pos h0, if_pos ⟨hk, h0⟩]
    · rw [if_neg h0, if_neg (fun e => h0 e.2)]
  · rw [if_neg (fun e => hk e.1), if_neg (fun e => hk e.1)]

/-- **`do_add_digits` in closed form**: it returns, and it has made the calls of every digit of
    the batch. -/
theorem doAddDigits_spec {m : MNumber} {a : Nat → Nat} {digits : Nat → Int} {len : Nat}
    {c : Channel} (hlen : len ≤ maxBatchSize) (hdig : ∀ i, i < N + len → digits i = (a i : Int))
    (ha : ∀ i, a i < 10) (hsum : c.sum = residue m a N) (hready : Ready m a N c) :
    ∃ c', doAddDigits m digits len c
        = .ok (c', (List.range len).flatMap fun i => callsAt m a (N + i)) ∧
      Ready m a (N + len) c' := by
  have hN : N = 256 := rfl
  have hmax : maxBatchSize = 400 := rfl
  have hloop := forUpM_inv (f := addStep m digits) (n := len)
    (s := { sum := c.sum, c := c, calls := [] })
    (fun i (st : AddState) => st.sum = residue m a (N + i) ∧ Ready m a (N + i) st.c ∧
      st.calls = (List.range i).flatMap fun i => callsAt m a (N + i)) ⟨hsum, hready, rfl⟩ ?_
  · obtain ⟨st, hst, -, hready', hcalls⟩ := hloop
    refine ⟨st.c, ?_, hready'⟩
    rw [doAddDigits, hst, ← hcalls]
    rfl
  · rintro i hi st ⟨hs, hr, hc⟩
    obtain ⟨hlt, hadd⟩ := addMod_residue (hr.rows (N + i) (by omega)) (ha (N + i))
    have hsum' :
        addMod m st.sum (st.c.entry (N + i) (digits (N + i))) = residue m a (N + i + 1) := by
      rw [hs, hdig (N + i) (by omega)]
      exact hadd
    have hquery := queryAll_callsAt hr.holds (by omega) (by omega)
      (fun k hk => hdig k (by omega))
    -- the key asked for is the key inserted next
    refine ⟨{ sum := residue m a (N + i + 1)
              c := { st.c with
                h := st.c.h.insert (keyAt m a (N + i)) (N + i)
                adds := (st.sum, st.c.entry (N + i) (digits (N + i))) :: st.c.adds }
              calls := st.calls ++ callsAt m a (N + i) },
      ?_, rfl, ⟨hr.rows, hr.holds.insert (by omega), hr.adds.cons ?_ ?_⟩, ?_⟩
    · show (st.c.h.queryAll digits (u64 (addMod m st.sum _)) (N + i) m >>= fun calls => _) = _
      rw [hsum']
      show (st.c.h.queryAll digits (keyAt m a (N + i)) (N + i) m >>= fun calls => _) = _
      rw [hquery]
      rfl
    · rw [hs]
      exact residue_lt m a (N + i)
    · rw [hdig (N + i) (by omega)]
      exact hlt
    · show st.calls ++ callsAt m a (N + i) = _
      rw [hc, List.range_succ, List.flatMap_append, List.flatMap_singleton]

end JudgeDuck.Solver
