/-
  Texts: what `sprintf` prints, and that `sscanf` reads it again.

  The conversions of `sprintf` are given for the types that are printed: a number is taken as the bits
  of its type.  `directives` reads a format of `sscanf` (`Network.sscanf` is the function), and `scan` is
  a call of it.

  A conversion `%lu` skips white space by itself, so a format of numbers asks for the same texts with and
  without blanks between them (`sscanf_space_num`).  A number that was printed is read as it was, up to
  the first byte that is no digit (`intscan_numeral`).  Whatever the text is, a number that was read fits
  64 bits, and a word has no white space in it (`sscanf_wellFormed`).
-/
import JudgeDuck.Network.Config
import Mathlib.Data.List.Basic
import Mathlib.Data.List.TakeWhile
import Mathlib.Tactic.IntervalCases

namespace JudgeDuck.DuckServer

open JudgeDuck.Lib
open JudgeDuck.Network (byte sscanf intscan takeSign skipHexMark digitVal isDigit isSpace Directive Scanned)

/-! ## Printing -/

/-- The bytes of a string. -/
def text (s : String) : List UInt8 := s.toList.map byte

/-- The bytes of a number in a base. -/
def numeral (base x : Nat) : List UInt8 := (Nat.toDigits base x).map byte

/-- `%lu`. -/
def lu (x : Nat) : List UInt8 := numeral 10 (u64 x)

/-- `%lx`. -/
def lx (x : Nat) : List UInt8 := numeral 16 (u64 x)

/-- `%d`. -/
def d (x : Int) : List UInt8 :=
  let x := x.bmod (2 ^ 32)
  if x < 0 then byte '-' :: numeral 10 x.natAbs else numeral 10 x.natAbs

/-- `%02x`. -/
def x02 (x : Nat) : List UInt8 :=
  let digits := numeral 16 (u32 x)
  if digits.length < 2 then byte '0' :: digits else digits

/-! ## Reading -/

/-- The string that starts where the datagram does. -/
def cstr (content : List UInt8) : List UInt8 := content.takeWhile (· != 0)

/-- The directives of a format. -/
def directives : List Char → List Directive
  | '%' :: 'l' :: 'u' :: cs => .num 10 :: directives cs
  | '%' :: 's' :: cs => .str :: directives cs
  | ' ' :: cs => .space :: directives cs
  | c :: cs => .lit (byte c) :: directives cs
  | [] => []

/-- `sscanf(content, format, …)`. -/
def scan (format : String) (content : List UInt8) : List Scanned :=
  sscanf (directives format.toList) (cstr content)

/-! ## Digits -/

section Digits

variable {c : Char} {x : Nat} {rest : List UInt8}

theorem mem_digits (h : c.isDigit = true) : c ∈ "0123456789".toList := by
  have hc : c = Char.ofNat c.toNat := (Char.ofNat_toNat c).symm
  rw [Char.isDigit, Bool.and_eq_true, decide_eq_true_eq, decide_eq_true_eq, ge_iff_le,
    UInt32.le_iff_toNat_le, UInt32.le_iff_toNat_le] at h
  have hlow : 48 ≤ c.toNat := h.1
  have hhigh : c.toNat ≤ 57 := h.2
  rw [hc]
  generalize c.toNat = n at hlow hhigh
  interval_cases n <;> decide

theorem digitVal_of_mem (hc : c ∈ Nat.toDigits 10 x) :
    (digitVal (byte c)).getD 0 = c.toNat - '0'.toNat := by
  have hdigit := mem_digits (Nat.isDigit_of_mem_toDigits (by decide) (by decide) hc)
  simp only [String.reduceToList, List.mem_cons, List.not_mem_nil, or_false] at hdigit
  rcases hdigit with rfl | rfl | rfl | rfl | rfl | rfl | rfl | rfl | rfl | rfl <;> rfl

theorem mem_numeral {b : UInt8} (hb : b ∈ numeral 10 x) : b ∈ text "0123456789" := by
  obtain ⟨c, hc, rfl⟩ := List.mem_map.mp hb
  exact List.mem_map_of_mem (mem_digits (Nat.isDigit_of_mem_toDigits (by decide) (by decide) hc))

/-- A digit of a numeral is no sign, no blank, and not zero. -/
theorem numeral_digit {b : UInt8} (hb : b ∈ numeral 10 x) :
    isDigit 10 b = true ∧ b ≠ byte '+' ∧ b ≠ byte '-' ∧ isSpace b = false ∧ b ≠ 0 := by
  have hall : ∀ b ∈ text "0123456789",
      isDigit 10 b = true ∧ b ≠ byte '+' ∧ b ≠ byte '-' ∧ isSpace b = false ∧ b ≠ 0 := by decide +kernel
  exact hall b (mem_numeral hb)

/-- `%lu` prints at least one digit. -/
theorem numeral_ne_nil : numeral 10 x ≠ [] := by
  rw [numeral, Ne, List.map_eq_nil_iff]
  exact Nat.toDigits_ne_nil

theorem foldl_numeral :
    (numeral 10 x).foldl (fun y c => y * 10 + (digitVal c).getD 0) 0 = x := by
  rw [numeral, List.foldl_map]
  calc (Nat.toDigits 10 x).foldl (fun y c => y * 10 + (digitVal (byte c)).getD 0) 0
      = (Nat.toDigits 10 x).foldl (fun y c => 10 * y + (c.toNat - '0'.toNat)) 0 :=
        List.foldl_ext _ _ _ fun y c hc => by rw [digitVal_of_mem hc, Nat.mul_comm]
    _ = x := Nat.ofDigitChars_toDigits (by decide) (by decide)

/-- The text does not go on with a digit. -/
def EndsNumber (rest : List UInt8) : Prop := ∀ b ∈ rest.head?, isDigit 10 b = false

/-- A numeral and what comes then, from its first digit on. -/
theorem exists_first (x : Nat) (rest : List UInt8) :
    ∃ b bs, numeral 10 x ++ rest = b :: bs ∧ b ∈ numeral 10 x := by
  obtain ⟨b, bs, hbs⟩ := List.exists_cons_of_ne_nil (numeral_ne_nil (x := x))
  exact ⟨b, bs ++ rest, by rw [hbs]; rfl, by rw [hbs]; exact List.mem_cons_self⟩

/-- What `%lu` prints has no sign. -/
theorem takeSign_numeral (x : Nat) (rest : List UInt8) :
    takeSign (numeral 10 x ++ rest) = (false, numeral 10 x ++ rest) := by
  obtain ⟨b, bs, hbs, hb⟩ := exists_first x rest
  obtain ⟨-, hplus, hminus, -⟩ := numeral_digit hb
  rw [hbs, takeSign, if_neg hplus, if_neg hminus]

theorem dropWhile_numeral (x : Nat) (rest : List UInt8) :
    (text " " ++ numeral 10 x ++ rest).dropWhile isSpace = numeral 10 x ++ rest := by
  obtain ⟨b, bs, hbs, hb⟩ := exists_first x rest
  obtain ⟨-, -, -, hspace, -⟩ := numeral_digit hb
  rw [List.append_assoc, hbs]
  show (byte ' ' :: b :: bs).dropWhile isSpace = b :: bs
  rw [List.dropWhile_cons_of_pos (by decide), List.dropWhile_cons_of_neg (by rw [hspace]; decide)]

/-- For base ten no `0x` is looked for. -/
theorem skipHexMark_ten : ∀ input : List UInt8, skipHexMark 10 input = input
  | [] => rfl
  | [_] => rfl
  | c :: b :: input => by
    rw [skipHexMark, if_neg]
    rintro ⟨hbase, -⟩
    exact absurd hbase (by decide)

/-- **A number that was printed is read as it was.** -/
theorem intscan_numeral (hx : x < 2 ^ 64) (hrest : EndsNumber rest) :
    intscan 10 (numeral 10 x ++ rest) = some (x, rest) := by
  have hall : ∀ b ∈ numeral 10 x, isDigit 10 b = true := fun b hb => (numeral_digit hb).1
  have hstop : rest.takeWhile (isDigit 10) = [] ∧ rest.dropWhile (isDigit 10) = rest := by
    cases rest with
    | nil => exact ⟨rfl, rfl⟩
    | cons b rest =>
      have hb : isDigit 10 b = false := hrest b rfl
      exact ⟨by rw [List.takeWhile_cons, hb]; rfl, by rw [List.dropWhile_cons, hb]; rfl⟩
  simp only [intscan, takeSign_numeral, skipHexMark_ten, List.takeWhile_append_of_pos hall,
    List.dropWhile_append_of_pos hall, hstop, List.append_nil]
  rw [if_neg numeral_ne_nil, foldl_numeral, if_neg (by omega)]
  rfl

end Digits

/-! ## Directives -/

section Directives

variable {f : List Directive} {input rest : List UInt8}

/-- Words of a format. -/
def lits (p : List UInt8) : List Directive := p.map .lit

theorem sscanf_lits (p : List UInt8) : sscanf (lits p ++ f) (p ++ input) = sscanf f input := by
  induction p with
  | nil => rfl
  | cons c p ih =>
    show sscanf (.lit c :: (lits p ++ f)) (c :: (p ++ input)) = _
    rw [sscanf, if_pos rfl, ih]

/-- A text from which anything is read starts with the words of the format. -/
theorem prefix_of_sscanf (p : List UInt8) (h : sscanf (lits p ++ f) input ≠ []) : p <+: input := by
  induction p generalizing input with
  | nil => exact List.nil_prefix
  | cons c p ih =>
    cases input with
    | nil => exact absurd rfl h
    | cons c' input =>
      rw [show lits (c :: p) ++ f = .lit c :: (lits p ++ f) from rfl, sscanf] at h
      by_cases hc : c' = c
      · rw [if_pos hc] at h
        exact List.cons_prefix_cons.mpr ⟨hc.symm, ih h⟩
      · rw [if_neg hc] at h
        exact absurd rfl h

theorem dropWhile_dropWhile (p : UInt8 → Bool) (l : List UInt8) :
    (l.dropWhile p).dropWhile p = l.dropWhile p := by
  induction l with
  | nil => rfl
  | cons b l ih =>
    by_cases hb : p b = true
    · rw [List.dropWhile_cons_of_pos hb, ih]
    · rw [List.dropWhile_cons_of_neg hb, List.dropWhile_cons_of_neg hb]

/-- A blank before a conversion of a number asks for nothing. -/
theorem sscanf_space_num (base : Nat) :
    sscanf (.space :: .num base :: f) input = sscanf (.num base :: f) input := by
  rw [sscanf, sscanf, sscanf, dropWhile_dropWhile]

theorem sscanf_space_str :
    sscanf (.space :: .str :: f) input = sscanf (.str :: f) input := by
  rw [sscanf, sscanf, sscanf, dropWhile_dropWhile]

/-- Numbers, each of them after a blank. -/
def spaced (xs : List Nat) : List UInt8 := xs.flatMap fun x => text " " ++ lu x

theorem endsNumber_spaced (xs : List Nat) (hrest : EndsNumber rest) : EndsNumber (spaced xs ++ rest) := by
  cases xs with
  | nil => exact hrest
  | cons x xs =>
    intro b hb
    obtain rfl : b = byte ' ' := (Option.some.inj hb).symm
    decide

/-- **A number that was printed is read back**, if no digit follows. -/
theorem sscanf_num {x : Nat} (hx : x < 2 ^ 64) (hrest : EndsNumber rest) :
    sscanf (.num 10 :: f) (text " " ++ lu x ++ rest) = .num x :: sscanf f rest := by
  rw [sscanf, lu, u64_of_lt hx, dropWhile_numeral, intscan_numeral hx hrest]

/-- **Numbers that were printed are read as they were.** -/
theorem sscanf_spaced (xs : List Nat) (hxs : ∀ x ∈ xs, x < 2 ^ 64) (hrest : EndsNumber rest) :
    sscanf (List.replicate xs.length (.num 10) ++ f) (spaced xs ++ rest) =
      xs.map .num ++ sscanf f rest := by
  induction xs with
  | nil => rfl
  | cons x xs ih =>
    show sscanf (.num 10 :: (List.replicate xs.length (.num 10) ++ f))
      (text " " ++ lu x ++ spaced xs ++ rest) = _
    rw [List.append_assoc (text " " ++ lu x), sscanf_num (hxs x List.mem_cons_self)
      (endsNumber_spaced xs hrest), ih fun y hy => hxs y (List.mem_cons_of_mem x hy)]
    rfl

/-- A word: not empty, without white space. -/
def IsWord (w : List UInt8) : Prop := w ≠ [] ∧ ∀ b ∈ w, isSpace b = false

/-- **A word is read back**, if a blank or the end follows. -/
theorem sscanf_str {w : List UInt8} (hw : IsWord w) (hrest : ∀ b ∈ rest.head?, isSpace b = true) :
    sscanf (.str :: f) (text " " ++ w ++ rest) = .str w :: sscanf f rest := by
  have hall : ∀ b ∈ w, (!isSpace b) = true := fun b hb => by rw [hw.2 b hb]; rfl
  have hdrop : (text " " ++ w ++ rest).dropWhile isSpace = w ++ rest := by
    obtain ⟨b, bs, rfl⟩ := List.exists_cons_of_ne_nil hw.1
    show (byte ' ' :: b :: (bs ++ rest)).dropWhile isSpace = _
    rw [List.dropWhile_cons_of_pos (by decide),
      List.dropWhile_cons_of_neg (by rw [hw.2 b List.mem_cons_self]; decide)]
    rfl
  have hstop : rest.takeWhile (fun b => !isSpace b) = [] ∧ rest.dropWhile (fun b => !isSpace b) = rest := by
    cases rest with
    | nil => exact ⟨rfl, rfl⟩
    | cons b rest =>
      have hb : isSpace b = true := hrest b rfl
      exact ⟨by simp [hb], by simp [hb]⟩
  simp only [sscanf, hdrop, List.takeWhile_append_of_pos hall, List.dropWhile_append_of_pos hall, hstop,
    List.append_nil, hw.1, if_false]

/-- Conversions of numbers, with or without a blank before them. -/
def fields : List Bool → List Directive
  | [] => []
  | true :: bs => .space :: .num 10 :: fields bs
  | false :: bs => .num 10 :: fields bs

theorem sscanf_num_congr {f g : List Directive} (h : ∀ input, sscanf f input = sscanf g input) (base : Nat)
    (input : List UInt8) : sscanf (.num base :: f) input = sscanf (.num base :: g) input := by
  rw [sscanf, sscanf]
  cases intscan base (input.dropWhile isSpace) with
  | none => rfl
  | some r => exact congrArg (.num r.1 :: ·) (h r.2)

/-- The blanks make no difference. -/
theorem sscanf_fields (bs : List Bool) (input : List UInt8) :
    sscanf (fields bs) input = sscanf (List.replicate bs.length (.num 10)) input := by
  induction bs generalizing input with
  | nil => rfl
  | cons b bs ih =>
    have htail := sscanf_num_congr (fun input => ih input) 10 input
    cases b with
    | false => exact htail
    | true => exact (sscanf_space_num 10).trans htail

/-! ## Whole formats -/

/-- `sscanf` reads up to the first zero byte. -/
theorem cstr_append {a : List UInt8} (ha : 0 ∉ a) (b : List UInt8) : cstr (a ++ b) = a ++ cstr b := by
  refine List.takeWhile_append_of_pos fun x hx => ?_
  rw [bne_iff_ne]
  rintro rfl
  exact ha hx

theorem zero_not_mem_spaced (xs : List Nat) : 0 ∉ spaced xs := by
  intro h
  obtain ⟨x, -, hx⟩ := List.mem_flatMap.mp h
  cases List.mem_append.mp hx with
  | inl hblank => exact absurd hblank (by decide)
  | inr hdigit => exact (numeral_digit hdigit).2.2.2.2 rfl

/-- **A name and numbers are read as they were printed**, up to what comes then. -/
theorem sscanf_named (name : String) (xs : List Nat) (bs : List Bool) (hlen : bs.length = xs.length)
    (hxs : ∀ x ∈ xs, x < 2 ^ 64) (hrest : EndsNumber rest) :
    sscanf (lits (text name) ++ fields bs) (text name ++ (spaced xs ++ rest)) = xs.map .num := by
  have hread := sscanf_spaced (f := []) xs hxs hrest
  rw [List.append_nil, sscanf, List.append_nil] at hread
  rw [sscanf_lits, sscanf_fields, hlen, hread]

theorem endsNumber_blank (rest : List UInt8) : EndsNumber (text " " ++ rest) := by
  intro b hb
  obtain rfl : b = byte ' ' := (Option.some.inj hb).symm
  decide

/-- A name, a word and numbers are read as they were printed. -/
theorem sscanf_named_str (name : String) {w : List UInt8} (xs : List Nat) (bs : List Bool) (hw : IsWord w)
    (hlen : bs.length = xs.length) (hpos : xs ≠ []) (hxs : ∀ x ∈ xs, x < 2 ^ 64) (hrest : EndsNumber rest) :
    sscanf (lits (text name) ++ (.space :: .str :: fields bs))
      (text name ++ (text " " ++ w ++ (spaced xs ++ rest))) = .str w :: xs.map .num := by
  have hread := sscanf_spaced (f := []) xs hxs hrest
  rw [List.append_nil, sscanf, List.append_nil] at hread
  have hblank : ∀ b ∈ (spaced xs ++ rest).head?, isSpace b = true := by
    obtain ⟨x, xs, rfl⟩ := List.exists_cons_of_ne_nil hpos
    intro b hb
    obtain rfl : b = byte ' ' := (Option.some.inj hb).symm
    decide
  rw [sscanf_lits, sscanf_space_str, sscanf_str hw hblank, sscanf_fields, hlen, hread]

/-! ## What is read -/

/-- A number that fits its type, or a word of the input. -/
def WellFormed (input : List UInt8) : Scanned → Prop
  | .num x => x < 2 ^ 64
  | .str w => IsWord w ∧ w <:+: input

/-- `intscan` saturates, so its result fits into 64 bits. -/
theorem intscan_lt {base x : Nat} {input' : List UInt8} (h : intscan base input = some (x, input')) :
    x < 2 ^ 64 := by
  simp only [intscan] at h
  split at h
  · cases h
  · obtain ⟨hx, -⟩ := Prod.mk.inj (Option.some.inj h)
    rw [← hx]
    split
    · decide
    · rename_i hy
      split
      · exact Nat.mod_lt _ (by decide)
      · omega

theorem intscan_suffix {base x : Nat} {input' : List UInt8} (h : intscan base input = some (x, input')) :
    input' <:+ input := by
  have hsign : (takeSign input).2 <:+ input := by
    cases input with
    | nil => exact List.suffix_rfl
    | cons c input =>
      rw [takeSign]
      split
      · exact List.suffix_cons c input
      · split
        · exact List.suffix_cons c input
        · exact List.suffix_rfl
  have hmark : ∀ l : List UInt8, skipHexMark base l <:+ l
    | [] => List.suffix_rfl
    | [_] => List.suffix_rfl
    | c :: b :: l => by
      rw [skipHexMark]
      split
      · exact (List.suffix_cons b l).trans (List.suffix_cons c _)
      · exact List.suffix_rfl
  simp only [intscan] at h
  split at h
  · cases h
  · obtain ⟨-, hinput⟩ := Prod.mk.inj (Option.some.inj h)
    rw [← hinput]
    exact (List.dropWhile_suffix _).trans ((hmark _).trans hsign)

theorem WellFormed.mono {input' : List UInt8} (h : input' <:+ input) {v : Scanned} (hv : WellFormed input' v) :
    WellFormed input v := by
  cases v with
  | num x => exact hv
  | str w => exact ⟨hv.1, hv.2.trans h.isInfix⟩

/-- **What is read is well formed**: numbers fit into 64 bits, and words are words of the input. -/
theorem sscanf_wellFormed (f : List Directive) (input : List UInt8) :
    ∀ v ∈ sscanf f input, WellFormed input v := by
  fun_induction sscanf f input with
  | case1 input | case3 | case5 | case6 | case8 =>
    intro v hv
    exact absurd hv List.not_mem_nil
  | case2 f input ih =>
    intro v hv
    exact (ih v hv).mono (List.dropWhile_suffix _)
  | case4 c f input ih =>
    intro v hv
    exact (ih v hv).mono (List.suffix_cons _ _)
  | case7 f input input' word hword ih =>
    intro v hv
    have hsuffix : input' <:+ input := List.dropWhile_suffix _
    cases List.mem_cons.mp hv with
    | inl hv =>
      subst hv
      refine ⟨⟨hword, fun b hb => ?_⟩, (List.takeWhile_prefix _).isInfix.trans hsuffix.isInfix⟩
      have hb' := List.mem_takeWhile_imp hb
      rwa [Bool.not_eq_true'] at hb'
    | inr hv => exact (ih v hv).mono ((List.dropWhile_suffix _).trans hsuffix)
  | case9 base f input x input' hscan ih =>
    intro v hv
    have hsuffix : input' <:+ input := (intscan_suffix hscan).trans (List.dropWhile_suffix _)
    cases List.mem_cons.mp hv with
    | inl hv =>
      subst hv
      exact intscan_lt hscan
    | inr hv => exact (ih v hv).mono hsuffix

end Directives

end JudgeDuck.DuckServer
