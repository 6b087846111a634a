/-
  Positional notation: windows of a digit stream and position-weighted prefix sums.

  A digit stream is a function `a : Nat → Nat`.  `value B a lo n` reads the `n` digits from `lo`
  on as one base-`B` number, first digit most significant.  `weighted B K a n` is the sum of the
  first `n` digits, digit `i` weighted by `B ^ (K - i)`.  The two are tied by `weighted_split`:
  two prefix sums differ by the number BETWEEN them, times the weight of its last digit.  So
  comparing prefix sums modulo `M` asks whether `M` divides `value · B ^ k` (`residue_eq_iff`),
  and what that says about `value` itself depends on the common factors of `M` and `B`:
  nothing is lost when they are coprime (`dvd_mul_pow_iff`), and otherwise the factor that
  divides the power of `B` is (`mul_dvd_mul_pow_iff`).

  A program puts the digits of a base `2 ^ k` together with shifts and ors, the lowest digit first;
  `ofDigits_concat_or` is a step of that.
-/
import Mathlib.Data.Nat.ModEq
import Mathlib.Data.Nat.Digits.Defs
import Mathlib.Data.List.Range
import Mathlib.Tactic.Ring

namespace JudgeDuck.Lib

variable {B K M : Nat} {a : Nat → Nat}

/-- The digits `a lo, …, a (lo + n - 1)` read in base `B`. -/
def value (B : Nat) (a : Nat → Nat) (lo : Nat) : Nat → Nat
  | 0 => 0
  | n + 1 => value B a lo n * B + a (lo + n)

/-- The sum of `a i · B ^ (K - i)` over `i < n`. -/
def weighted (B K : Nat) (a : Nat → Nat) : Nat → Nat
  | 0 => 0
  | n + 1 => weighted B K a n + a n * B ^ (K - n)

/-- The window value is what Mathlib reads off the window's digits. -/
theorem value_eq_ofDigits (lo : Nat) : ∀ n,
    value B a lo n = Nat.ofDigits B ((List.range n).map fun i => a (lo + i)).reverse
  | 0 => rfl
  | n + 1 => by
    have hlast : ((List.range (n + 1)).map fun i => a (lo + i)).reverse
        = a (lo + n) :: ((List.range n).map fun i => a (lo + i)).reverse := by
      rw [List.range_succ, List.map_append, List.reverse_append]
      rfl
    rw [hlast, Nat.ofDigits_cons, ← value_eq_ofDigits lo n, value]
    ring

/-- Prefix sums look only at the digits of the prefix. -/
theorem weighted_congr {b : Nat → Nat} : ∀ {n : Nat}, (∀ i, i < n → a i = b i) →
    weighted B K a n = weighted B K b n
  | 0, _ => rfl
  | n + 1, h => by
    rw [weighted, weighted, h n (by omega), weighted_congr fun i hi => h i (by omega)]

/-- **Two prefix sums differ by the number between them**, shifted to its place. -/
theorem weighted_split (lo : Nat) : ∀ n, lo + n ≤ K + 1 →
    weighted B K a (lo + n) = weighted B K a lo + value B a lo n * B ^ (K + 1 - (lo + n))
  | 0, _ => by
    rw [value, Nat.zero_mul]
    rfl
  | n + 1, h => by
    have hpow : B ^ (K + 1 - (lo + n)) = B * B ^ (K - (lo + n)) := by
      rw [show K + 1 - (lo + n) = K - (lo + n) + 1 by omega, Nat.pow_succ, Nat.mul_comm]
    have hexp : K + 1 - (lo + (n + 1)) = K - (lo + n) := by omega
    rw [← Nat.add_assoc, weighted, weighted_split lo n (by omega), hpow, Nat.add_assoc lo n 1,
      hexp, value]
    ring

/-- Comparing prefix sums (both started at `c`) modulo `M` is a divisibility test of the number
    between them, shifted. -/
theorem residue_eq_iff {c lo n : Nat} (h : lo + n ≤ K + 1) :
    (c + weighted B K a (lo + n)) % M = (c + weighted B K a lo) % M ↔
      M ∣ value B a lo n * B ^ (K + 1 - (lo + n)) := by
  rw [weighted_split lo n h, ← Nat.add_assoc]
  exact Nat.add_modEq_left_iff

/-- A modulus coprime to the base does not see the shift. -/
theorem dvd_mul_pow_iff (hco : Nat.Coprime M B) (v k : Nat) : M ∣ v * B ^ k ↔ M ∣ v := by
  constructor
  · intro h
    exact (hco.pow_right k).dvd_of_dvd_mul_right h
  · intro h
    exact Nat.dvd_mul_right_of_dvd h _

/-- A factor `c` of the modulus that divides the shift is not tested at all. -/
theorem mul_dvd_mul_pow_iff {c P k : Nat} (hc : c ∣ B ^ k) (hco : Nat.Coprime P B) (v : Nat) :
    c * P ∣ v * B ^ k ↔ P ∣ v := by
  constructor
  · intro h
    have hP : P ∣ v * B ^ k := Nat.dvd_trans (Nat.dvd_mul_left P c) h
    exact (dvd_mul_pow_iff hco v k).mp hP
  · intro h
    rw [Nat.mul_comm c P]
    exact Nat.mul_dvd_mul h hc

/-- A digit of `k` bits or-ed in behind the digits below it. -/
theorem ofDigits_concat_or {k : Nat} (hk : 0 < k) {l : List Nat} (h : ∀ d ∈ l, d < 2 ^ k) (d : Nat) :
    Nat.ofDigits (2 ^ k) l ||| d <<< (l.length * k) = Nat.ofDigits (2 ^ k) (l ++ [d]) := by
  have hlt : Nat.ofDigits (2 ^ k) l < 2 ^ (l.length * k) := by
    rw [Nat.mul_comm, Nat.pow_mul]
    exact Nat.ofDigits_lt_base_pow_length (Nat.one_lt_two_pow (Nat.ne_of_gt hk)) h
  rw [Nat.ofDigits_append, Nat.ofDigits_singleton, Nat.or_comm, ← Nat.shiftLeft_add_eq_or_of_lt hlt,
    Nat.shiftLeft_eq, Nat.add_comm, ← Nat.pow_mul, Nat.mul_comm k, Nat.mul_comm d]

end JudgeDuck.Lib
