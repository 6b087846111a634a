/-
  Clock ticks and nanoseconds (`inc/timer.hpp`, and the time functions of `ducknet/lib/utils.cpp`).

  A product of two 64-bit words need not fit a word, so both modules divide first.  `Timer` splits the
  ticks only, into seconds and a rest; `mul_div` of the network stack splits both factors.  The sums
  and products of the parts wrap around.  What decides is the ONE product that is divided: if it fits
  a word, the result is the exact quotient, as a word (`mulDiv_exact`, `toNs_exact`).

  1. `mul_div_parts`: the quotient of a product from the parts of its factors, in exact arithmetic.
  2. `mulDiv_exact` and `toNs_exact`: what the words compute.
  3. `conversions_exact`: the two modules agree, and time does not run backwards.
-/
import JudgeDuck.Ducknet.Base
import Mathlib.Tactic.Ring

namespace JudgeDuck.Timer

/-! ## `Timer` -/

/-- `tsc_to_ns` and `clk_to_ns`, for a clock with `freq` ticks in a second. -/
def toNs (freq t : UInt64) : UInt64 :=
  let q := t / freq
  let r := t % freq
  q * 1000000000 + r * 1000000000 / freq

/-- `Timer::tsc_to_ns(tsc)`. -/
def tscToNs (tscFreq tsc : UInt64) : UInt64 := toNs tscFreq tsc

/-- `Timer::clk_to_ns(clk)`. -/
def clkToNs (clkFreq clk : UInt64) : UInt64 := toNs clkFreq clk

end JudgeDuck.Timer

namespace JudgeDuck.Ducknet

/-! ## `ducknet` -/

/-- `ducknet_time_add_ns(t, ns)`. -/
def timeAddNs (tscFreq t ns : UInt64) : UInt64 := t + mulDiv ns tscFreq 1000000000

/-- `ducknet_time_add_us(t, us)`. -/
def timeAddUs (tscFreq t us : UInt64) : UInt64 := t + mulDiv us tscFreq 1000000

/-- `ducknet_time_add_sec(t, sec)`. -/
def timeAddSec (tscFreq t sec : UInt64) : UInt64 := t + sec * tscFreq

/-- `ducknet_time_to_ns(t)`. -/
def timeToNs (tscFreq t : UInt64) : UInt64 := mulDiv t 1000000000 tscFreq

/-- `ducknet_time_to_us(t)`. -/
def timeToUs (tscFreq t : UInt64) : UInt64 := mulDiv t 1000000 tscFreq

/-- `ducknet_time_to_ms(t)`. -/
def timeToMs (tscFreq t : UInt64) : UInt64 := mulDiv t 1000 tscFreq

/-- `ducknet_time_to_sec(t)`. -/
def timeToSec (tscFreq t : UInt64) : UInt64 := t / tscFreq

end JudgeDuck.Ducknet

namespace JudgeDuck.Timer

open JudgeDuck.Ducknet

/-! ## Exact quotients -/

/-- **The quotient of a product from the parts of its factors**; only the product of the rests is
    divided. -/
theorem mul_div_parts (a b : Nat) {d : Nat} (hd : 0 < d) :
    a * b / d = a / d * (b / d) * d + a / d * (b % d) + a % d * (b / d) + a % d * (b % d) / d := by
  have ha : d * (a / d) + a % d = a := Nat.div_add_mod a d
  have hb : d * (b / d) + b % d = b := Nat.div_add_mod b d
  have hprod : a * b =
      a % d * (b % d) + d * (a / d * (b / d) * d + a / d * (b % d) + a % d * (b / d)) := by
    calc a * b = (d * (a / d) + a % d) * (d * (b / d) + b % d) := by rw [ha, hb]
      _ = a % d * (b % d) + d * (a / d * (b / d) * d + a / d * (b % d) + a % d * (b / d)) := by ring
  rw [hprod, Nat.add_mul_div_left _ _ hd, Nat.add_comm]

/-- The same with only one factor split. -/
theorem mul_div_left_parts (a b : Nat) {d : Nat} (hd : 0 < d) :
    a * b / d = a / d * b + a % d * b / d := by
  have ha : d * (a / d) + a % d = a := Nat.div_add_mod a d
  have hprod : a * b = a % d * b + d * (a / d * b) := by
    calc a * b = (d * (a / d) + a % d) * b := by rw [ha]
      _ = a % d * b + d * (a / d * b) := by ring
  rw [hprod, Nat.add_mul_div_left _ _ hd, Nat.add_comm]

section Words

variable {a b d freq t : UInt64}

/-- **`mul_div`**, when the product of the rests fits a word. -/
theorem mulDiv_exact (hd : 0 < d) (h : (a % d).toNat * (b % d).toNat < 2 ^ 64) :
    (mulDiv a b d).toNat = a.toNat * b.toNat / d.toNat % 2 ^ 64 := by
  have hrest : (a % d * (b % d)).toNat = a.toNat % d.toNat * (b.toNat % d.toNat) := by
    rw [UInt64.toNat_mul, Nat.mod_eq_of_lt h, UInt64.toNat_mod, UInt64.toNat_mod]
  rw [mul_div_parts _ _ (UInt64.lt_iff_toNat_lt.mp hd), mulDiv]
  simp only [UInt64.toNat_add, UInt64.toNat_div, hrest]
  simp only [UInt64.toNat_mul, UInt64.toNat_div, UInt64.toNat_mod, Nat.mod_mul_mod, Nat.mod_add_mod,
    Nat.add_mod_mod]

/-- Divisors up to `2 ^ 32` have small rests. -/
theorem mulDiv_of_le (hd : 0 < d) (hle : d.toNat ≤ 2 ^ 32) :
    (mulDiv a b d).toNat = a.toNat * b.toNat / d.toNat % 2 ^ 64 := by
  have hpos : 0 < d.toNat := UInt64.lt_iff_toNat_lt.mp hd
  refine mulDiv_exact hd ?_
  rw [UInt64.toNat_mod, UInt64.toNat_mod]
  calc a.toNat % d.toNat * (b.toNat % d.toNat) < d.toNat * d.toNat :=
        Nat.mul_lt_mul'' (Nat.mod_lt _ hpos) (Nat.mod_lt _ hpos)
    _ ≤ 2 ^ 32 * 2 ^ 32 := Nat.mul_le_mul hle hle

/-- **`tsc_to_ns` and `clk_to_ns`**, when the nanoseconds of a second's rest, before the division, fit
    a word. -/
theorem toNs_exact (hf : 0 < freq) (h : (t % freq).toNat * 1000000000 < 2 ^ 64) :
    (toNs freq t).toNat = t.toNat * 1000000000 / freq.toNat % 2 ^ 64 := by
  have hbillion : (1000000000 : UInt64).toNat = 1000000000 := rfl
  have hrest : (t % freq * 1000000000).toNat = t.toNat % freq.toNat * 1000000000 := by
    rw [UInt64.toNat_mul, hbillion, Nat.mod_eq_of_lt h, UInt64.toNat_mod]
  rw [mul_div_left_parts _ _ (UInt64.lt_iff_toNat_lt.mp hf), toNs]
  simp only [UInt64.toNat_add, UInt64.toNat_div, hrest]
  simp only [UInt64.toNat_mul, UInt64.toNat_div, hbillion, Nat.mod_add_mod]

/-- **Adding a time span** is exact for every frequency: the parts are fractions of a second. -/
theorem timeAdd_exact (span : UInt64) :
    (timeAddNs freq t span).toNat =
        (t.toNat + span.toNat * freq.toNat / 1000000000) % 2 ^ 64 ∧
      (timeAddUs freq t span).toNat = (t.toNat + span.toNat * freq.toNat / 1000000) % 2 ^ 64 ∧
      (timeAddMs freq t span).toNat = (t.toNat + span.toNat * freq.toNat / 1000) % 2 ^ 64 ∧
      (timeAddSec freq t span).toNat = (t.toNat + span.toNat * freq.toNat) % 2 ^ 64 := by
  have hadd : ∀ d : UInt64, 0 < d → d.toNat ≤ 2 ^ 32 → (t + mulDiv span freq d).toNat =
      (t.toNat + span.toNat * freq.toNat / d.toNat) % 2 ^ 64 := by
    intro d hd hle
    rw [UInt64.toNat_add, mulDiv_of_le hd hle, Nat.add_mod_mod]
  refine ⟨hadd _ (by decide) (by decide), hadd _ (by decide) (by decide),
    hadd _ (by decide) (by decide), ?_⟩
  rw [timeAddSec, UInt64.toNat_add, UInt64.toNat_mul, Nat.add_mod_mod]

/-- Up to 18.4 GHz the rests are small enough, for both ways of splitting. -/
theorem rest_lt (hf : 0 < freq) (hle : freq.toNat ≤ 18446744073) :
    (t % freq).toNat * 1000000000 < 2 ^ 64 := by
  have hrest : t.toNat % freq.toNat < freq.toNat := Nat.mod_lt _ (UInt64.lt_iff_toNat_lt.mp hf)
  rw [UInt64.toNat_mod]
  omega

/-- **Ticks to nanoseconds**: the product is not computed at once, but the quotient is exact, modulo
    2^64. -/
theorem tscToNs_exact (hf : 0 < freq) (hle : freq.toNat ≤ 18446744073) :
    (tscToNs freq t).toNat = t.toNat * 1000000000 / freq.toNat % 2 ^ 64 :=
  toNs_exact hf (rest_lt hf hle)

theorem mulDiv_freq {unit : UInt64} (hf : 0 < freq) (hle : freq.toNat ≤ 18446744073)
    (hunit : unit.toNat ≤ 1000000000) :
    (mulDiv t unit freq).toNat = t.toNat * unit.toNat / freq.toNat % 2 ^ 64 := by
  refine mulDiv_exact hf (Nat.lt_of_le_of_lt (Nat.mul_le_mul_left _ ?_) (rest_lt hf hle))
  rw [UInt64.toNat_mod]
  exact (Nat.mod_le _ _).trans hunit

theorem timeToNs_exact (hf : 0 < freq) (hle : freq.toNat ≤ 18446744073) :
    (timeToNs freq t).toNat = t.toNat * 1000000000 / freq.toNat % 2 ^ 64 :=
  mulDiv_freq hf hle (by decide)

/-- The coarser units. -/
theorem timeTo_exact (hf : 0 < freq) (hle : freq.toNat ≤ 18446744073) :
    (timeToUs freq t).toNat = t.toNat * 1000000 / freq.toNat % 2 ^ 64 ∧
      (timeToMs freq t).toNat = t.toNat * 1000 / freq.toNat % 2 ^ 64 ∧
      (timeToSec freq t).toNat = t.toNat / freq.toNat :=
  ⟨mulDiv_freq hf hle (by decide), mulDiv_freq hf hle (by decide), UInt64.toNat_div _ _⟩

end Words

/-! ## The conversions -/

/-- **The conversions are exact.**  `mul_div` is the quotient as a word whenever the product of the
    rests fits one.  So for every frequency up to 18446744073 both modules turn ticks into the same
    number of nanoseconds, the exact one, and later ticks into no fewer as long as that number fits a
    word. -/
theorem conversions_exact :
    (∀ a b d : UInt64, 0 < d → (a % d).toNat * (b % d).toNat < 2 ^ 64 →
      (mulDiv a b d).toNat = a.toNat * b.toNat / d.toNat % 2 ^ 64) ∧
    ∀ f : UInt64, 0 < f → f.toNat ≤ 18446744073 →
      (∀ t, tscToNs f t = timeToNs f t ∧
        (tscToNs f t).toNat = t.toNat * 10 ^ 9 / f.toNat % 2 ^ 64) ∧
      ∀ t t' : UInt64, t ≤ t' → t'.toNat * 10 ^ 9 / f.toNat < 2 ^ 64 →
        tscToNs f t ≤ tscToNs f t' ∧ timeToNs f t ≤ timeToNs f t' := by
  refine ⟨fun a b d => mulDiv_exact, fun f hf hle => ?_⟩
  have hagree : ∀ t, tscToNs f t = timeToNs f t := by
    intro t
    apply UInt64.toNat.inj
    rw [tscToNs_exact hf hle, timeToNs_exact hf hle]
  refine ⟨fun t => ⟨hagree t, tscToNs_exact hf hle⟩, fun t t' htt' hfits => ?_⟩
  have hmono : tscToNs f t ≤ tscToNs f t' := by
    have hquot : t.toNat * 1000000000 / f.toNat ≤ t'.toNat * 1000000000 / f.toNat :=
      Nat.div_le_div_right (Nat.mul_le_mul_right _ (UInt64.le_iff_toNat_le.mp htt'))
    have hfits' : t'.toNat * 1000000000 / f.toNat < 2 ^ 64 := hfits
    rw [UInt64.le_iff_toNat_le, tscToNs_exact hf hle, tscToNs_exact hf hle,
      Nat.mod_eq_of_lt hfits', Nat.mod_eq_of_lt (Nat.lt_of_le_of_lt hquot hfits')]
    exact hquot
  exact ⟨hmono, hagree t ▸ hagree t' ▸ hmono⟩

/-- At 3.6 GHz, the frequency that is assumed when the processor does not tell. -/
theorem conversions_exact_default :
    (tscToNs 3600000000 0xffffffffffffffff).toNat =
        (0xffffffffffffffff : UInt64).toNat * 10 ^ 9 / (3600000000 : UInt64).toNat % 2 ^ 64 ∧
      tscToNs 3600000000 7 ≤ tscToNs 3600000000 0xffffffffffffffff := by
  obtain ⟨-, hfreq⟩ := conversions_exact
  obtain ⟨hexact, hmono⟩ := hfreq 3600000000 (by decide) (by decide)
  exact ⟨(hexact _).2, (hmono 7 _ (by decide) (by decide)).1⟩

end JudgeDuck.Timer
