/-
  Ones' complement sums of words.

  Numbers up to `m` are added with an end-around carry: a sum above `m` loses `m + 1` and gains the
  carry.  So such a sum is known from the ordinary one: it is 0 only if all summands are 0, and
  otherwise it is the number from 1 to `m` that is congruent to the ordinary sum modulo `m`
  (`onesSum_spec`).

  The words of interest have two digits to a base `b`, and `m + 1 = b * b`.  As `b * b` is 1 modulo
  `m`, reading the words with the other digit first multiplies their sum by `b` (`sum_wordsBE`).
  Hence whether the sum is a multiple of `m` does not depend on the order of the digits
  (`dvd_sum_wordsBE`).
-/
import Mathlib.Data.List.Induction
import Mathlib.Data.Nat.ModEq
import Mathlib.Algebra.BigOperators.Group.List.Basic
import Mathlib.Tactic.Ring

namespace JudgeDuck.Lib

/-! ## Sums with an end-around carry -/

section Sum

variable {m a c : Nat} {ws : List Nat}

/-- The sum of two numbers up to `m`, with the carry added at the low end. -/
def onesAdd (m a c : Nat) : Nat := if a + c ≤ m then a + c else a + c - (m + 1) + 1

/-- The sum of a list of numbers up to `m`. -/
def onesSum (m : Nat) (ws : List Nat) : Nat := ws.foldl (onesAdd m) 0

theorem onesAdd_le (ha : a ≤ m) (hc : c ≤ m) : onesAdd m a c ≤ m := by
  unfold onesAdd
  split <;> omega

theorem onesAdd_modEq : onesAdd m a c ≡ a + c [MOD m] := by
  unfold onesAdd
  split
  · rfl
  · next hcarry =>
    have hsum : a + c = a + c - (m + 1) + 1 + m := by omega
    conv_rhs => rw [hsum]
    exact (Nat.add_mod_right _ m).symm

theorem onesAdd_eq_zero : onesAdd m a c = 0 ↔ a = 0 ∧ c = 0 := by
  unfold onesAdd
  split <;> omega

/-- **A ones' complement sum**, by the ordinary one. -/
theorem onesSum_spec (h : ∀ w ∈ ws, w ≤ m) :
    onesSum m ws ≤ m ∧ onesSum m ws ≡ ws.sum [MOD m] ∧ (onesSum m ws = 0 ↔ ws.sum = 0) := by
  induction ws using List.reverseRecOn with
  | nil => exact ⟨Nat.zero_le m, rfl, Iff.rfl⟩
  | append_singleton ws w ih =>
    obtain ⟨hle, hmod, hzero⟩ := ih fun w' hw' => h w' (List.mem_append_left _ hw')
    have hw : w ≤ m := h w (List.mem_append_right _ List.mem_cons_self)
    have hstep : onesSum m (ws ++ [w]) = onesAdd m (onesSum m ws) w := by
      rw [onesSum, List.foldl_append]
      rfl
    rw [hstep, List.sum_append, List.sum_singleton]
    refine ⟨onesAdd_le hle hw, onesAdd_modEq.trans (hmod.add_right w), ?_⟩
    rw [onesAdd_eq_zero, hzero]
    omega

/-- The sum is `m`, all ones, exactly if the ordinary sum is a positive multiple of `m`. -/
theorem onesSum_eq_max (hm : 0 < m) (h : ∀ w ∈ ws, w ≤ m) :
    onesSum m ws = m ↔ 0 < ws.sum ∧ m ∣ ws.sum := by
  obtain ⟨hle, hmod, hzero⟩ := onesSum_spec h
  constructor
  · intro heq
    rw [heq] at hmod hzero
    refine ⟨by omega, (Nat.modEq_zero_iff_dvd).mp (hmod.symm.trans ?_)⟩
    exact (Nat.modEq_zero_iff_dvd).mpr (Nat.dvd_refl m)
  · rintro ⟨hpos, hdvd⟩
    have hmul : m ∣ onesSum m ws :=
      (Nat.modEq_zero_iff_dvd).mp (hmod.trans ((Nat.modEq_zero_iff_dvd).mpr hdvd))
    have hne : onesSum m ws ≠ 0 := fun h0 => Nat.ne_of_gt hpos (hzero.mp h0)
    exact Nat.le_antisymm hle (Nat.le_of_dvd (Nat.pos_of_ne_zero hne) hmul)

end Sum

/-! ## Words of two digits -/

/-- Two digits a word, weighted by `p` and `q`; a last digit that is left alone is followed by a
    zero. -/
def words (p q : Nat) : List Nat → List Nat
  | x :: y :: l => (p * x + q * y) :: words p q l
  | [x] => [p * x]
  | [] => []

/-- The words to the base `b` with the low digit first. -/
def wordsLE (b : Nat) (l : List Nat) : List Nat := words 1 b l

/-- The words to the base `b` with the high digit first. -/
def wordsBE (b : Nat) (l : List Nat) : List Nat := words b 1 l

section Words

variable {b m p q : Nat} {l l' : List Nat}

/-- Words of a concatenation, for an even first part. -/
theorem words_append (h : 2 ∣ l.length) : words p q (l ++ l') = words p q l ++ words p q l' := by
  induction l using words.induct with
  | case1 x y l ih =>
    have heven : 2 ∣ l.length := by
      rw [List.length_cons, List.length_cons] at h
      omega
    rw [List.cons_append, List.cons_append, words, words, ih heven, List.cons_append]
  | case2 x => exact absurd h (by simp)
  | case3 => rfl

theorem length_words : (words p q l).length = (l.length + 1) / 2 := by
  induction l using words.induct with
  | case1 x y l ih =>
    rw [words, List.length_cons, ih, List.length_cons, List.length_cons]
    omega
  | case2 x => rw [words, List.length_singleton, List.length_singleton]
  | case3 => rfl

theorem le_of_mem_words (hl : ∀ x ∈ l, x ≤ b) : ∀ w ∈ words p q l, w ≤ p * b + q * b := by
  induction l using words.induct with
  | case1 x y l ih =>
    have hx := Nat.mul_le_mul_left p (hl x List.mem_cons_self)
    have hy := Nat.mul_le_mul_left q (hl y (List.mem_cons_of_mem _ List.mem_cons_self))
    rw [words]
    rintro w (_ | ⟨_, hw⟩)
    · exact Nat.add_le_add hx hy
    · exact ih (fun z hz => hl z (List.mem_cons_of_mem _ (List.mem_cons_of_mem _ hz))) w hw
  | case2 x =>
    intro w hw
    rw [words, List.mem_singleton] at hw
    rw [hw]
    exact Nat.le_add_right_of_le (Nat.mul_le_mul_left p (hl x List.mem_cons_self))
  | case3 => exact fun w hw => absurd hw List.not_mem_nil

/-- The first and the second digits of the words have sums of their own. -/
theorem sum_words : (words p q l).sum = p * (words 1 0 l).sum + q * (words 0 1 l).sum := by
  induction l using words.induct with
  | case1 x y l ih =>
    simp only [words, List.sum_cons, ih]
    ring
  | case2 x => simp [words]
  | case3 => rfl

/-- **Exchanging the digits** of all words multiplies the sum by `b`, modulo `m`. -/
theorem sum_wordsBE (hm : m + 1 = b * b) :
    b * (wordsLE b l).sum = (wordsBE b l).sum + m * (words 0 1 l).sum := by
  rw [wordsLE, wordsBE, sum_words, sum_words (p := b)]
  calc b * (1 * (words 1 0 l).sum + b * (words 0 1 l).sum)
      = b * (words 1 0 l).sum + b * b * (words 0 1 l).sum := by ring
    _ = b * (words 1 0 l).sum + 1 * (words 0 1 l).sum + m * (words 0 1 l).sum := by
        rw [← hm]
        ring

/-- The order of the digits does not matter for multiples of `m`. -/
theorem dvd_sum_wordsBE (hm : m + 1 = b * b) :
    m ∣ (wordsBE b l).sum ↔ m ∣ (wordsLE b l).sum := by
  have hswap := sum_wordsBE (l := l) hm
  -- `b` is its own inverse modulo `m`
  have hinverse : b * (b * (wordsLE b l).sum) = m * (wordsLE b l).sum + (wordsLE b l).sum := by
    rw [← Nat.mul_assoc, ← hm, Nat.add_mul, Nat.one_mul]
  constructor
  · intro h
    have hmul : m ∣ b * (wordsLE b l).sum := by
      rw [hswap]
      exact Nat.dvd_add h (Nat.dvd_mul_right m _)
    have htwice := Nat.dvd_mul_left_of_dvd hmul b
    rw [hinverse] at htwice
    exact (Nat.dvd_add_right (Nat.dvd_mul_right m _)).mp htwice
  · intro h
    have hmul := Nat.dvd_mul_left_of_dvd h b
    rw [hswap] at hmul
    exact (Nat.dvd_add_left (Nat.dvd_mul_right m _)).mp hmul

/-- A sum is 0 in one order exactly if it is in the other. -/
theorem sum_wordsBE_eq_zero (hb : 0 < b) : (wordsBE b l).sum = 0 ↔ (wordsLE b l).sum = 0 := by
  have hmul : ∀ z, b * z = 0 ↔ z = 0 := fun z => by
    rw [Nat.mul_eq_zero]
    omega
  rw [wordsLE, wordsBE, sum_words, sum_words (p := 1) (q := b), Nat.add_eq_zero_iff,
    Nat.add_eq_zero_iff, hmul, hmul, Nat.one_mul, Nat.one_mul]

/-- **The ones' complement sum is all ones** in one order exactly if it is in the other. -/
theorem onesSum_wordsBE (hb : 2 ≤ b) (hm : m + 1 = b * b) (hl : ∀ x ∈ l, x < b) :
    onesSum m (wordsBE b l) = m ↔ 0 < (wordsLE b l).sum ∧ m ∣ (wordsLE b l).sum := by
  obtain ⟨c, rfl⟩ := Nat.exists_eq_add_of_le' (Nat.le_of_succ_le hb)
  have hword : ∀ w ∈ wordsBE (c + 1) l, w ≤ m := by
    intro w hw
    have hle := le_of_mem_words (fun x hx => Nat.le_of_lt_succ (hl x hx)) w hw
    have hsquare : m + 1 = (c + 1) * c + 1 * c + 1 := by
      rw [hm]
      ring
    omega
  have hpos : 0 < m := by
    have := Nat.mul_le_mul hb hb
    omega
  rw [onesSum_eq_max hpos hword, dvd_sum_wordsBE hm, Nat.pos_iff_ne_zero, Nat.pos_iff_ne_zero, ne_eq,
    sum_wordsBE_eq_zero (Nat.succ_pos c)]

end Words

end JudgeDuck.Lib
