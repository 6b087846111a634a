/-
  Digests as hexadecimal strings (`digest_from_hex` of `kern/duck_cache.cpp`).

  The judge's server names a cached object by 64 hexadecimal digits, and the cache by the 256-bit
  digest that is read from them.  A word of the digest has 16 digits, the first one in the lowest four
  bits.  The digits are or-ed into the word at their shifts; since they are below 16, that is the
  number with these digits (`ofDigits_concat_or`).

  1. `hexVal_eq_some`: the value of a character tells the character up to its case.
  2. `digestFromHex_eq`: the digest is made of the values of all the characters (`digestOf`).
  3. `digestFromHex_bijective`: strings up to case and digests are the same thing.
-/
import JudgeDuck.DuckCache.Index
import JudgeDuck.Judger.Model
import JudgeDuck.Lib.Positional
import Mathlib.Data.Nat.Digits.Lemmas

namespace JudgeDuck.Judger

open JudgeDuck.Lib
open JudgeDuck.DuckCache (Digest256 cmpDigest cmpDigest_eq_zero)

/-! ## Characters -/

/-- One of `0` to `9`, `a` to `f`, `A` to `F`. -/
def IsHexDigit (c : Char) : Prop :=
  ('0' ≤ c ∧ c ≤ '9') ∨ ('a' ≤ c ∧ c ≤ 'f') ∨ ('A' ≤ c ∧ c ≤ 'F')

theorem isSome_hexVal {c : Char} : (hexVal c).isSome ↔ IsHexDigit c := by
  unfold hexVal IsHexDigit
  split
  · simp [*]
  split
  · simp [*]
  split
  · simp [*]
  · simp [*]

/-- **The value of a character** tells the character up to its case. -/
theorem hexVal_eq_some {c : Char} {v : Nat} (h : hexVal c = some v) :
    v < 16 ∧ c.toLower = v.digitChar := by
  have hascii : c.toNat < 128 := by
    rcases isSome_hexVal.mp (Option.isSome_of_eq_some h) with hc | hc | hc
    · exact Nat.lt_of_le_of_lt (UInt32.le_iff_toNat_le.mp hc.2) (by decide)
    · exact Nat.lt_of_le_of_lt (UInt32.le_iff_toNat_le.mp hc.2) (by decide)
    · exact Nat.lt_of_le_of_lt (UInt32.le_iff_toNat_le.mp hc.2) (by decide)
  have hall : ∀ n, n < 128 → ∀ v ∈ hexVal (Char.ofNat n),
      v < 16 ∧ (Char.ofNat n).toLower = v.digitChar := by decide
  have hc := hall c.toNat hascii v
  rw [Char.ofNat_toNat] at hc
  exact hc h

theorem hexVal_digitChar : ∀ v, v < 16 → hexVal v.digitChar = some v := by decide

/-! ## Strings -/

/-- The values of the characters, if all are digits. -/
def hexVals (hex : List Char) : Option (List Nat) := hex.mapM hexVal

/-- A text has values if its two parts have. -/
theorem hexVals_append (hex hex' : List Char) :
    hexVals (hex ++ hex') = (hexVals hex).bind fun vs => (hexVals hex').map (vs ++ ·) := by
  unfold hexVals
  rw [List.mapM_append]
  cases hex.mapM hexVal with
  | none => rfl
  | some vs => cases hex'.mapM hexVal <;> rfl

theorem hexVals_cons (c : Char) (hex : List Char) :
    hexVals (c :: hex) = (hexVal c).bind fun v => (hexVals hex).map (v :: ·) := by
  unfold hexVals
  rw [List.mapM_cons]
  cases hexVal c with
  | none => rfl
  | some v => cases hex.mapM hexVal <;> rfl

/-- `digest_from_hex` looks at every character. -/
theorem isSome_hexVals {hex : List Char} : (hexVals hex).isSome ↔ ∀ c ∈ hex, IsHexDigit c := by
  induction hex with
  | nil => simp [hexVals]
  | cons c hex ih =>
    rw [List.forall_mem_cons, ← ih, ← isSome_hexVal, hexVals_cons]
    cases hexVal c with
    | none => simp
    | some v => simp

/-- **What the values tell**: as many as there are characters, each below 16, and the characters up
    to their case. -/
theorem hexVals_eq_some {hex : List Char} {vals : List Nat} (h : hexVals hex = some vals) :
    vals.length = hex.length ∧ (∀ v ∈ vals, v < 16) ∧
      hex.map Char.toLower = vals.map Nat.digitChar := by
  induction hex generalizing vals with
  | nil =>
    obtain rfl : [] = vals := Option.some.inj h
    exact ⟨rfl, fun v hv => absurd hv List.not_mem_nil, rfl⟩
  | cons c hex ih =>
    rw [hexVals_cons] at h
    obtain ⟨v, hv, h⟩ := Option.bind_eq_some_iff.mp h
    obtain ⟨vs, hvs, rfl⟩ := Option.map_eq_some_iff.mp h
    obtain ⟨hlen, hlt, hmap⟩ := ih hvs
    obtain ⟨hv16, hlower⟩ := hexVal_eq_some hv
    refine ⟨congrArg (· + 1) hlen, List.forall_mem_cons.mpr ⟨hv16, hlt⟩, ?_⟩
    rw [List.map_cons, List.map_cons, hlower, hmap]

/-- Every list of values is read from its digits. -/
theorem hexVals_digitChar {vals : List Nat} (h : ∀ v ∈ vals, v < 16) :
    hexVals (vals.map Nat.digitChar) = some vals := by
  induction vals with
  | nil => rfl
  | cons v vals ih =>
    obtain ⟨hv, hvals⟩ := List.forall_mem_cons.mp h
    rw [List.map_cons, hexVals_cons, hexVal_digitChar v hv, ih hvals]
    rfl

/-! ## Words -/

/-- The sixteen characters, or values, of the word `idx`. -/
def slice {α : Type} (l : List α) (idx : Nat) : List α := (l.drop (idx * 16)).take 16

theorem length_slice {α : Type} {l : List α} {idx : Nat} (h : l.length = 64) (hidx : idx < 4) :
    (slice l idx).length = 16 := by
  rw [slice, List.length_take, List.length_drop, h]
  omega

theorem slices {α : Type} {l : List α} (h : l.length = 64) :
    l = slice l 0 ++ (slice l 1 ++ (slice l 2 ++ slice l 3)) := by
  have hnext : ∀ idx, l.drop (idx * 16) = slice l idx ++ l.drop ((idx + 1) * 16) := by
    intro idx
    rw [slice, Nat.succ_mul, ← List.drop_drop, List.take_append_drop]
  have hend : l.drop ((3 + 1) * 16) = [] := List.drop_eq_nil_of_le (by omega)
  calc l = l.drop (0 * 16) := rfl
    _ = slice l 0 ++ (slice l 1 ++ (slice l 2 ++ (slice l 3 ++ l.drop ((3 + 1) * 16)))) := by
        rw [hnext 0, hnext 1, hnext 2, hnext 3]
    _ = slice l 0 ++ (slice l 1 ++ (slice l 2 ++ slice l 3)) := by rw [hend, List.append_nil]

theorem slice_append_succ {α : Type} {l0 : List α} (h0 : l0.length = 16) (l : List α) (idx : Nat) :
    slice (l0 ++ l) (idx + 1) = slice l idx := by
  rw [slice, slice, Nat.succ_mul, Nat.add_comm, ← List.drop_drop, List.drop_left' h0]

/-- Four lists of sixteen in a row are the slices. -/
theorem slice_append {α : Type} {l0 l1 l2 l3 : List α} (h0 : l0.length = 16) (h1 : l1.length = 16)
    (h2 : l2.length = 16) (h3 : l3.length = 16) :
    slice (l0 ++ (l1 ++ (l2 ++ l3))) 0 = l0 ∧ slice (l0 ++ (l1 ++ (l2 ++ l3))) 1 = l1 ∧
      slice (l0 ++ (l1 ++ (l2 ++ l3))) 2 = l2 ∧ slice (l0 ++ (l1 ++ (l2 ++ l3))) 3 = l3 := by
  refine ⟨List.take_left' h0, ?_, ?_, ?_⟩
  · rw [slice_append_succ h0]
    exact List.take_left' h1
  · rw [slice_append_succ h0, slice_append_succ h1]
    exact List.take_left' h2
  · rw [slice_append_succ h0, slice_append_succ h1, slice_append_succ h2]
    exact List.take_of_length_le (Nat.le_of_eq h3)

/-- The loop of `digest_from_hex` over the first `n` characters of a word. -/
theorem foldlM_hexVal (hex : List Char) (off : Nat) {n : Nat} (h : off + n ≤ hex.length) :
    (List.range n).foldlM (fun sum i => do
      let c ← hex[off + i]?
      let val ← hexVal c
      some (sum ||| val <<< (i * 4))) 0 =
    (hexVals ((hex.drop off).take n)).map (Nat.ofDigits 16) := by
  induction n with
  | zero => rfl
  | succ n ih =>
    have hlt : off + n < hex.length := by omega
    have htake : (hex.drop off).take (n + 1) = (hex.drop off).take n ++ [hex[off + n]] := by
      rw [List.take_add_one, List.getElem?_drop, List.getElem?_eq_getElem hlt]
      rfl
    rw [List.range_succ, List.foldlM_append, ih (by omega), htake, hexVals_append]
    cases hvals : hexVals ((hex.drop off).take n) with
    | none => rfl
    | some vals =>
      obtain ⟨hlen, hdigit, -⟩ := hexVals_eq_some hvals
      rw [List.length_take, List.length_drop, Nat.min_eq_left (by omega)] at hlen
      simp only [List.foldlM_cons, List.foldlM_nil, List.getElem?_eq_getElem hlt, hexVals_cons,
        Option.map_some, Option.bind_eq_bind, Option.bind_some]
      cases hexVal hex[off + n] with
      | none => rfl
      | some v =>
        show some (Nat.ofDigits 16 vals ||| v <<< (n * 4)) = some (Nat.ofDigits 16 (vals ++ [v]))
        rw [← hlen]
        exact congrArg some (ofDigits_concat_or (k := 4) (by decide) hdigit v)

/-- A word of the digest is the number with the values of its characters as digits. -/
theorem hexWord_eq {hex : List Char} (h : hex.length = 64) {idx : Nat} (hidx : idx < 4) :
    hexWord hex idx = (hexVals (slice hex idx)).map (Nat.ofDigits 16) :=
  foldlM_hexVal hex (idx * 16) (by omega)

/-! ## Digests -/

/-- The digest with the values `vals`. -/
def digestOf (vals : List Nat) : Digest256 :=
  ⟨Nat.ofDigits 16 (slice vals 0), Nat.ofDigits 16 (slice vals 1), Nat.ofDigits 16 (slice vals 2),
    Nat.ofDigits 16 (slice vals 3)⟩

/-- **The digest is made of the values of all the characters.** -/
theorem digestFromHex_eq {hex : List Char} (h : hex.length = 64) :
    digestFromHex hex = (hexVals hex).map digestOf := by
  rw [digestFromHex, hexWord_eq h (by decide), hexWord_eq h (by decide), hexWord_eq h (by decide),
    hexWord_eq h (by decide)]
  conv_rhs => rw [slices h, hexVals_append, hexVals_append, hexVals_append]
  -- the first word with a wrong character ends both
  cases h0 : hexVals (slice hex 0) with
  | none => rfl
  | some v0 =>
    cases h1 : hexVals (slice hex 1) with
    | none => rfl
    | some v1 =>
      cases h2 : hexVals (slice hex 2) with
      | none => rfl
      | some v2 =>
        cases h3 : hexVals (slice hex 3) with
        | none => rfl
        | some v3 =>
          have hlen : ∀ {idx vals}, hexVals (slice hex idx) = some vals → idx < 4 →
              vals.length = 16 := fun hv hidx => (hexVals_eq_some hv).1.trans (length_slice h hidx)
          obtain ⟨hs0, hs1, hs2, hs3⟩ := slice_append (hlen h0 (by decide)) (hlen h1 (by decide))
            (hlen h2 (by decide)) (hlen h3 (by decide))
          show some (Digest256.mk _ _ _ _) = some (digestOf (v0 ++ (v1 ++ (v2 ++ v3))))
          rw [digestOf, hs0, hs1, hs2, hs3]

/-- The words are words of 64 bits. -/
def Words (d : Digest256) : Prop := ∀ w ∈ d.a, w < 2 ^ 64

/-- The lists of sixteen digits, and the words. -/
theorem bijOn_word : Set.BijOn (Nat.ofDigits 16) {l | l.length = 16 ∧ ∀ v ∈ l, v < 16}
    {w | w < 2 ^ 64} :=
  Nat.bijOn_ofDigits (by decide) 16

section

variable {vals vals' : List Nat}

theorem slice_mem (hlen : vals.length = 64) (hlt : ∀ v ∈ vals, v < 16) {idx : Nat} (hidx : idx < 4) :
    slice vals idx ∈ {l : List Nat | l.length = 16 ∧ ∀ v ∈ l, v < 16} :=
  ⟨length_slice hlen hidx, fun v hv => hlt v (List.mem_of_mem_drop (List.mem_of_mem_take hv))⟩

theorem words_digestOf (hlen : vals.length = 64) (hlt : ∀ v ∈ vals, v < 16) :
    Words (digestOf vals) := by
  have hword : ∀ idx, idx < 4 → Nat.ofDigits 16 (slice vals idx) < 2 ^ 64 :=
    fun idx hidx => bijOn_word.mapsTo (slice_mem hlen hlt hidx)
  simp only [Words, Digest256.a, digestOf, List.forall_mem_cons]
  exact ⟨hword 0 (by decide), hword 1 (by decide), hword 2 (by decide), hword 3 (by decide),
    fun w hw => absurd hw List.not_mem_nil⟩

/-- Different values make different digests. -/
theorem digestOf_inj (hlen : vals.length = 64) (hlt : ∀ v ∈ vals, v < 16)
    (hlen' : vals'.length = 64) (hlt' : ∀ v ∈ vals', v < 16) (h : digestOf vals = digestOf vals') :
    vals = vals' := by
  obtain ⟨h0, h1, h2, h3⟩ := Digest256.mk.inj h
  have hword : ∀ idx, idx < 4 →
      Nat.ofDigits 16 (slice vals idx) = Nat.ofDigits 16 (slice vals' idx) →
      slice vals idx = slice vals' idx := fun idx hidx =>
    fun heq => bijOn_word.injOn (slice_mem hlen hlt hidx) (slice_mem hlen' hlt' hidx) heq
  rw [slices hlen, slices hlen', hword 0 (by decide) h0, hword 1 (by decide) h1,
    hword 2 (by decide) h2, hword 3 (by decide) h3]

end

/-- Every digest has its values. -/
theorem exists_vals {d : Digest256} (h : Words d) :
    ∃ vals : List Nat, vals.length = 64 ∧ (∀ v ∈ vals, v < 16) ∧ digestOf vals = d := by
  obtain ⟨a0, a1, a2, a3⟩ := d
  have hword : ∀ w ∈ [a0, a1, a2, a3], ∃ l : List Nat, (l.length = 16 ∧ ∀ v ∈ l, v < 16) ∧
      Nat.ofDigits 16 l = w := fun w hw => bijOn_word.surjOn (h w hw)
  simp only [List.forall_mem_cons] at hword
  obtain ⟨⟨l0, ⟨h0, hlt0⟩, rfl⟩, ⟨l1, ⟨h1, hlt1⟩, rfl⟩, ⟨l2, ⟨h2, hlt2⟩, rfl⟩, ⟨l3, ⟨h3, hlt3⟩, rfl⟩, -⟩ :=
    hword
  obtain ⟨hs0, hs1, hs2, hs3⟩ := slice_append h0 h1 h2 h3
  refine ⟨l0 ++ (l1 ++ (l2 ++ l3)), ?_, ?_, ?_⟩
  · simp [h0, h1, h2, h3]
  · simp only [List.forall_mem_append]
    exact ⟨hlt0, hlt1, hlt2, hlt3⟩
  · rw [digestOf, hs0, hs1, hs2, hs3]

section

variable {hex hex' : List Char} {d d' : Digest256}

/-- **Texts of one digest** differ in upper and lower case only. -/
theorem digest_eq_iff (h : hex.length = 64) (h' : hex'.length = 64) (hd : digestFromHex hex = some d)
    (hd' : digestFromHex hex' = some d') :
    d = d' ↔ hex.map Char.toLower = hex'.map Char.toLower := by
  rw [digestFromHex_eq h] at hd
  rw [digestFromHex_eq h'] at hd'
  obtain ⟨vals, hvals, rfl⟩ := Option.map_eq_some_iff.mp hd
  obtain ⟨vals', hvals', rfl⟩ := Option.map_eq_some_iff.mp hd'
  obtain ⟨hlen, hlt, hmap⟩ := hexVals_eq_some hvals
  obtain ⟨hlen', hlt', hmap'⟩ := hexVals_eq_some hvals'
  rw [hmap, hmap']
  constructor
  · intro heq
    rw [digestOf_inj (hlen.trans h) hlt (hlen'.trans h') hlt' heq]
  · intro heq
    have hread := hexVals_digitChar hlt
    rw [heq, hexVals_digitChar hlt'] at hread
    rw [Option.some.inj hread]

/-- **What the cache takes for the same object**: names that are equal up to case. -/
theorem cmpDigest_eq_zero_iff (h : hex.length = 64) (h' : hex'.length = 64)
    (hd : digestFromHex hex = some d) (hd' : digestFromHex hex' = some d') :
    cmpDigest d d' = 0 ↔ hex.map Char.toLower = hex'.map Char.toLower := by
  rw [cmpDigest_eq_zero, digest_eq_iff h h' hd hd']

theorem words_of_digestFromHex (h : hex.length = 64) (hd : digestFromHex hex = some d) : Words d := by
  rw [digestFromHex_eq h] at hd
  obtain ⟨vals, hvals, rfl⟩ := Option.map_eq_some_iff.mp hd
  obtain ⟨hlen, hlt, -⟩ := hexVals_eq_some hvals
  exact words_digestOf (hlen.trans h) hlt

/-- **Every digest has a text.** -/
theorem exists_hex (hd : Words d) : ∃ hex, hex.length = 64 ∧ digestFromHex hex = some d := by
  obtain ⟨vals, hlen, hlt, rfl⟩ := exists_vals hd
  have hlen' : (vals.map Nat.digitChar).length = 64 := by rw [List.length_map, hlen]
  refine ⟨vals.map Nat.digitChar, hlen', ?_⟩
  rw [digestFromHex_eq hlen', hexVals_digitChar hlt]
  rfl

end

/-- **Strings up to case and digests are the same.**  A string of 64 characters is accepted iff all
    of them are hexadecimal digits; two accepted strings give the same digest iff they are equal up to
    case; and the digests of accepted strings are all the digests. -/
theorem digestFromHex_bijective :
    (∀ hex : List Char, hex.length = 64 →
      ((digestFromHex hex).isSome ↔ ∀ c ∈ hex, IsHexDigit c)) ∧
    (∀ (hex hex' : List Char) (d d' : Digest256), hex.length = 64 → hex'.length = 64 →
      digestFromHex hex = some d → digestFromHex hex' = some d' →
      (d = d' ↔ hex.map Char.toLower = hex'.map Char.toLower)) ∧
    ∀ d : Digest256, Words d ↔ ∃ hex, hex.length = 64 ∧ digestFromHex hex = some d := by
  refine ⟨?_, ?_, ?_⟩
  · intro hex h
    rw [digestFromHex_eq h, Option.isSome_map, isSome_hexVals]
  · intro hex hex' d d' h h' hd hd'
    exact digest_eq_iff h h' hd hd'
  · intro d
    exact ⟨exists_hex, fun ⟨hex, h, hd⟩ => words_of_digestFromHex h hd⟩

end JudgeDuck.Judger
