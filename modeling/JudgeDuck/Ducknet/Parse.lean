/-
  `ducknet_parse_ipv4` (`ipv4.cpp`): dotted quads.

  1. **Program.**  A first pass counts the dots and refuses all strings that do not have three.  The
     second pass (`scanChar`) collects the numbers in four bytes; a dot closes a number and wants at
     least one digit before it, a digit that would take the number above 255 is refused.

  2. **Specification.**  A dotted quad is four groups of decimal digits, none of them empty and none
     above 255, with dots between them (`DottedQuad`).

  3. **What differs.**  Digits are wanted at each dot, and there is no dot behind the last group: three
     groups, each with a dot behind it (`DottedTriple`), are accepted too, as if the fourth were 0.
     This is the only difference for strings whose length is an `int` (`parseIpv4_exact_iff`).
-/
import JudgeDuck.Ducknet.Receive
import Mathlib.Data.List.Induction
import Mathlib.Data.Nat.Digits.Defs

namespace JudgeDuck.Ducknet

/-! ## The program -/

/-- `'.'` -/
def dot : UInt8 := 46

/-- The variables of the second pass: the bytes `a[4]`, the one that is being filled, and whether it
    has got a digit. -/
structure Scan where
  a : Nat → UInt8
  idx : Nat
  hasNum : Bool

/-- The values they start with. -/
def Scan.start : Scan := ⟨fun _ => 0, 0, false⟩

/-- One turn of the second pass; `none` is `return -1`.  A `char` of 128 and more is negative and so
    below `'0'`; here it is above `'9'`. -/
def scanChar (st : Scan) (c : UInt8) : Option Scan :=
  if c = dot then
    if !st.hasNum then none
    else some { st with idx := st.idx + 1, hasNum := false }
  else if c < 48 ∨ 57 < c then none
  else if (st.a st.idx).toNat * 10 + c.toNat - 48 > 255 then none
  else some { st with
    a := Function.update st.a st.idx (st.a st.idx * 10 + c - 48)
    hasNum := true }

/-- `int len = strlen(s)`, for the string of the characters `s`. -/
def intLen (s : List UInt8) : Int := (s.length : Int).bmod (2 ^ 32)

/-- `ducknet_parse_ipv4(s, addr)`: the address behind `addr` afterwards, and what is returned. -/
def parseIpv4 (s : List UInt8) (addr : UInt32) : UInt32 × Int :=
  let chars := s.take (intLen s).toNat
  if chars.count dot ≠ 3 then (addr, -1)
  else
    match chars.foldlM scanChar .start with
    | none => (addr, -1)
    | some st => (readU32 (fun t => [st.a 3, st.a 2, st.a 1, st.a 0].getD t 0) 0, 0)

/-- A length below 2^31 is the same as an `int`. -/
theorem take_intLen {s : List UInt8} (h : s.length < 2 ^ 31) : s.take (intLen s).toNat = s := by
  have hlen : intLen s = s.length := Int.bmod_eq_of_le (by omega) (by omega)
  rw [hlen, Int.toNat_natCast, List.take_length]

/-! ## The specification -/

/-- The value of decimal digits, the first one counting most. -/
def decimal (t : List UInt8) : Nat := Nat.ofDigits 10 (t.map fun c => c.toNat - 48).reverse

/-- The digits `t` are the number `g` of a byte. -/
structure Number (t : List UInt8) (g : Nat) : Prop where
  digit : ∀ c ∈ t, 48 ≤ c ∧ c ≤ 57
  value : decimal t = g
  le : g ≤ 255

/-- A number that has digits. -/
structure Group (t : List UInt8) (g : Nat) : Prop extends Number t g where
  ne_nil : t ≠ []

/-- Four groups with dots between them. -/
def DottedQuad (s : List UInt8) (g1 g2 g3 g4 : Nat) : Prop :=
  ∃ t1 t2 t3 t4, s = t1 ++ dot :: (t2 ++ dot :: (t3 ++ dot :: t4)) ∧
    Group t1 g1 ∧ Group t2 g2 ∧ Group t3 g3 ∧ Group t4 g4

/-- Three groups with dots behind them, and nothing else. -/
def DottedTriple (s : List UInt8) (g1 g2 g3 : Nat) : Prop :=
  ∃ t1 t2 t3, s = t1 ++ dot :: (t2 ++ dot :: (t3 ++ [dot])) ∧
    Group t1 g1 ∧ Group t2 g2 ∧ Group t3 g3

/-- The address of a quad. -/
def quadAddr (g1 g2 g3 g4 : Nat) : UInt32 :=
  UInt32.ofNat (g1 * 2 ^ 24 + g2 * 2 ^ 16 + g3 * 2 ^ 8 + g4)

section Groups

variable {t : List UInt8} {g : Nat} {c : UInt8}

theorem decimal_concat (t : List UInt8) (c : UInt8) :
    decimal (t ++ [c]) = decimal t * 10 + (c.toNat - 48) := by
  rw [decimal, List.map_append, List.map_singleton, List.reverse_append, List.reverse_singleton,
    List.singleton_append, Nat.ofDigits_cons, Nat.add_comm, Nat.mul_comm]
  rfl

theorem number_nil : Number [] 0 := by
  refine ⟨?_, rfl, Nat.zero_le _⟩
  intro c hc
  nomatch hc

/-- A longer number: its last digit is one, and what is before it is a number. -/
theorem number_concat : Number (t ++ [c]) g ↔
    ∃ h, Number t h ∧ (48 ≤ c ∧ c ≤ 57) ∧ g = h * 10 + (c.toNat - 48) ∧ g ≤ 255 := by
  constructor
  · intro hnum
    have hvalue := hnum.value
    rw [decimal_concat] at hvalue
    have hle := hnum.le
    refine ⟨decimal t, ⟨?_, rfl, by omega⟩, ?_, hvalue.symm, hle⟩
    · intro x hx
      exact hnum.digit x (List.mem_append_left _ hx)
    · exact hnum.digit c (List.mem_append_right _ (List.mem_singleton_self c))
  · rintro ⟨h, hnum, hc, rfl, hle⟩
    refine ⟨?_, ?_, hle⟩
    · intro x hx
      rcases List.mem_append.mp hx with hx | hx
      · exact hnum.digit x hx
      · rwa [List.mem_singleton.mp hx]
    · rw [decimal_concat, hnum.value]

theorem Number.dot_notMem (h : Number t g) : dot ∉ t := by
  intro hmem
  have hdigit := (h.digit dot hmem).1
  exact absurd hdigit (by decide)

end Groups

/-! ## The second pass -/

section Pass

variable {st st' : Scan} {t : List UInt8}

/-- The bytes from the current one on have not been written. -/
structure Scan.Fresh (st : Scan) : Prop where
  zero : ∀ j, st.idx ≤ j → st.a j = 0
  hasNum : st.hasNum = false

theorem Scan.fresh_start : Scan.start.Fresh := ⟨fun _ _ => rfl, rfl⟩

/-- The state behind the digits `t` of the number `g`. -/
def Scan.after (st : Scan) (t : List UInt8) (g : Nat) : Scan :=
  { st with a := Function.update st.a st.idx (UInt8.ofNat g), hasNum := !t.isEmpty }

/-- The byte with one more digit. -/
theorem push_digit {h : Nat} {c : UInt8} (hc : 48 ≤ c ∧ c ≤ 57) :
    UInt8.ofNat h * 10 + c - 48 = UInt8.ofNat (h * 10 + (c.toNat - 48)) := by
  have h48 : 48 ≤ c.toNat := UInt8.le_iff_toNat_le.mp hc.1
  apply UInt8.toNat.inj
  rw [UInt8.toNat_sub, UInt8.toNat_add, UInt8.toNat_mul, UInt8.toNat_ofNat', UInt8.toNat_ofNat']
  have h10 : (10 : UInt8).toNat = 10 := rfl
  have h48' : (48 : UInt8).toNat = 48 := rfl
  rw [h10, h48']
  omega

/-- A digit behind others. -/
theorem scanChar_after {h : Nat} {c : UInt8} (hh : h ≤ 255) (hc : c ≠ dot) :
    scanChar (st.after t h) c = some st' ↔
      (48 ≤ c ∧ c ≤ 57) ∧ h * 10 + (c.toNat - 48) ≤ 255 ∧
        st' = st.after (t ++ [c]) (h * 10 + (c.toNat - 48)) := by
  have hbyte : (st.after t h).a (st.after t h).idx = UInt8.ofNat h := Function.update_self _ _ _
  have hvalue : (UInt8.ofNat h).toNat = h := UInt8.toNat_ofNat_of_lt' (Nat.lt_succ_of_le hh)
  rw [scanChar, if_neg hc, hbyte, hvalue]
  by_cases hdigit : 48 ≤ c ∧ c ≤ 57
  · have h48 : 48 ≤ c.toNat := UInt8.le_iff_toNat_le.mp hdigit.1
    rw [if_neg (by rw [not_or, UInt8.not_lt, UInt8.not_lt]; exact hdigit)]
    by_cases hle : h * 10 + (c.toNat - 48) ≤ 255
    · rw [if_neg (by omega), push_digit hdigit, Option.some_inj]
      have hstate : { st.after t h with
          a := Function.update (st.after t h).a (st.after t h).idx
            (UInt8.ofNat (h * 10 + (c.toNat - 48)))
          hasNum := true } = st.after (t ++ [c]) (h * 10 + (c.toNat - 48)) := by
        simp [Scan.after]
      rw [hstate]
      exact ⟨fun heq => ⟨hdigit, hle, heq.symm⟩, fun heq => heq.2.2.symm⟩
    · rw [if_pos (by omega)]
      constructor
      · intro heq
        nomatch heq
      · intro heq
        exact absurd heq.2.1 hle
  · rw [if_pos (by rwa [← UInt8.not_le, ← UInt8.not_le, ← not_and_or])]
    constructor
    · intro heq
      nomatch heq
    · intro heq
      exact absurd heq.1 hdigit

/-- **A group of characters without a dot** is scanned if it is a number. -/
theorem foldlM_scanChar (hfresh : st.Fresh) (hdot : dot ∉ t) :
    t.foldlM scanChar st = some st' ↔ ∃ g, Number t g ∧ st' = st.after t g := by
  induction t using List.reverseRecOn generalizing st' with
  | nil =>
    have hstart : st.after [] 0 = st := by
      have ha : Function.update st.a st.idx (UInt8.ofNat 0) = st.a := by
        rw [Function.update_eq_self_iff, hfresh.zero _ (Nat.le_refl _)]
        rfl
      rw [Scan.after, ha, List.isEmpty_nil, Bool.not_true, ← hfresh.hasNum]
    rw [List.foldlM_nil, Option.pure_def, Option.some_inj]
    constructor
    · rintro rfl
      exact ⟨0, number_nil, hstart.symm⟩
    · rintro ⟨g, hnumber, rfl⟩
      rw [← hnumber.value]
      exact hstart.symm
  | append_singleton t c ih =>
    have hc : c ≠ dot := fun heq => hdot (by simp [heq])
    have ht : dot ∉ t := fun hmem => hdot (List.mem_append_left _ hmem)
    simp only [List.foldlM_append, List.foldlM_cons, List.foldlM_nil, bind_pure,
      Option.bind_eq_bind, Option.bind_eq_some_iff]
    constructor
    · rintro ⟨mid, hmid, hlast⟩
      obtain ⟨h, hnumber, rfl⟩ := (ih ht).mp hmid
      obtain ⟨hdigit, hle, rfl⟩ := (scanChar_after hnumber.le hc).mp hlast
      exact ⟨_, number_concat.mpr ⟨h, hnumber, hdigit, rfl, hle⟩, rfl⟩
    · rintro ⟨g, hnumber, rfl⟩
      obtain ⟨h, hfirst, hdigit, rfl, hle⟩ := number_concat.mp hnumber
      exact ⟨_, (ih ht).mpr ⟨h, hfirst, rfl⟩, (scanChar_after hfirst.le hc).mpr ⟨hdigit, hle, rfl⟩⟩

/-- The state behind the dot that follows the number `g`. -/
def Scan.next (st : Scan) (g : Nat) : Scan :=
  ⟨Function.update st.a st.idx (UInt8.ofNat g), st.idx + 1, false⟩

theorem Scan.Fresh.next (hfresh : st.Fresh) (g : Nat) : (st.next g).Fresh := by
  refine ⟨fun j hj => ?_, rfl⟩
  have hlt : st.idx < j := hj
  exact (Function.update_of_ne (Nat.ne_of_gt hlt) _ _).trans (hfresh.zero j (Nat.le_of_lt hlt))

/-- **A group and its dot.** -/
theorem foldlM_group {rest : List UInt8} (hfresh : st.Fresh) (hdot : dot ∉ t) :
    (t ++ dot :: rest).foldlM scanChar st = some st' ↔
      ∃ g, Group t g ∧ rest.foldlM scanChar (st.next g) = some st' := by
  simp only [List.foldlM_append, List.foldlM_cons, Option.bind_eq_bind, Option.bind_eq_some_iff,
    foldlM_scanChar hfresh hdot]
  constructor
  · rintro ⟨mid, ⟨g, hnumber, rfl⟩, mid', hclose, hrest⟩
    rw [scanChar, if_pos rfl] at hclose
    split at hclose
    · cases hclose
    · rename_i hhas
      obtain rfl := Option.some.inj hclose
      have hne : t ≠ [] := by
        rintro rfl
        exact hhas rfl
      exact ⟨g, ⟨hnumber, hne⟩, hrest⟩
  · rintro ⟨g, hgroup, hrest⟩
    refine ⟨_, ⟨g, hgroup.toNumber, rfl⟩, st.next g, ?_, hrest⟩
    have hhas : (st.after t g).hasNum = true := by
      rw [Scan.after, List.isEmpty_eq_false_iff.mpr hgroup.ne_nil, Bool.not_false]
    rw [scanChar, if_pos rfl, hhas]
    rfl

end Pass

/-! ## What is accepted -/

/-- What `ducknet_parse_ipv4` takes for a quad: the last group may be empty. -/
def Accepted (s : List UInt8) (g1 g2 g3 g4 : Nat) : Prop :=
  ∃ t1 t2 t3 t4, s = t1 ++ dot :: (t2 ++ dot :: (t3 ++ dot :: t4)) ∧
    Group t1 g1 ∧ Group t2 g2 ∧ Group t3 g3 ∧ Number t4 g4

section Accepted

variable {s : List UInt8} {g1 g2 g3 g4 : Nat}

theorem accepted_iff : Accepted s g1 g2 g3 g4 ↔
    DottedQuad s g1 g2 g3 g4 ∨ DottedTriple s g1 g2 g3 ∧ g4 = 0 := by
  constructor
  · rintro ⟨t1, t2, t3, t4, hs, h1, h2, h3, h4⟩
    by_cases hne : t4 = []
    · subst hne
      exact Or.inr ⟨⟨t1, t2, t3, hs, h1, h2, h3⟩, h4.value.symm⟩
    · exact Or.inl ⟨t1, t2, t3, t4, hs, h1, h2, h3, h4, hne⟩
  · rintro (⟨t1, t2, t3, t4, hs, h1, h2, h3, h4⟩ | ⟨⟨t1, t2, t3, hs, h1, h2, h3⟩, rfl⟩)
    · exact ⟨t1, t2, t3, t4, hs, h1, h2, h3, h4.toNumber⟩
    · exact ⟨t1, t2, t3, [], hs, h1, h2, h3, number_nil⟩

theorem DottedTriple.getLast? (h : DottedTriple s g1 g2 g3) : s.getLast? = some dot := by
  obtain ⟨t1, t2, t3, rfl, -⟩ := h
  have hs : t1 ++ dot :: (t2 ++ dot :: (t3 ++ [dot])) = t1 ++ dot :: (t2 ++ dot :: t3) ++ [dot] := by
    simp
  rw [hs, List.getLast?_concat]

/-- A quad does not end with a dot. -/
theorem not_dottedQuad_of_triple {h1 h2 h3 : Nat} (htriple : DottedTriple s h1 h2 h3) :
    ¬ DottedQuad s g1 g2 g3 g4 := by
  rintro ⟨t1, t2, t3, t4, hs, -, -, -, h4⟩
  obtain ⟨t, c, rfl⟩ := (List.eq_nil_or_concat' t4).resolve_left h4.ne_nil
  have hend : s = t1 ++ dot :: (t2 ++ dot :: (t3 ++ dot :: t)) ++ [c] := by
    rw [hs]
    simp
  have hlast := htriple.getLast?
  rw [hend, List.getLast?_concat, Option.some_inj] at hlast
  exact h4.dot_notMem (List.mem_append_right _ (List.mem_singleton.mpr hlast.symm))

/-- The state behind a string with three dots. -/
theorem foldlM_quad {t1 t2 t3 t4 : List UInt8} {st : Scan} (h1 : dot ∉ t1) (h2 : dot ∉ t2)
    (h3 : dot ∉ t3) (h4 : dot ∉ t4) :
    (t1 ++ dot :: (t2 ++ dot :: (t3 ++ dot :: t4))).foldlM scanChar .start = some st ↔
      ∃ g1 g2 g3 g4, (Group t1 g1 ∧ Group t2 g2 ∧ Group t3 g3 ∧ Number t4 g4) ∧
        st = (((Scan.start.next g1).next g2).next g3).after t4 g4 := by
  have hfresh := Scan.fresh_start
  constructor
  · intro hscan
    obtain ⟨g1, hg1, hscan⟩ := (foldlM_group hfresh h1).mp hscan
    obtain ⟨g2, hg2, hscan⟩ := (foldlM_group (hfresh.next g1) h2).mp hscan
    obtain ⟨g3, hg3, hscan⟩ := (foldlM_group ((hfresh.next g1).next g2) h3).mp hscan
    obtain ⟨g4, hg4, hst⟩ := (foldlM_scanChar (((hfresh.next g1).next g2).next g3) h4).mp hscan
    exact ⟨g1, g2, g3, g4, ⟨hg1, hg2, hg3, hg4⟩, hst⟩
  · rintro ⟨g1, g2, g3, g4, ⟨hg1, hg2, hg3, hg4⟩, hst⟩
    refine (foldlM_group hfresh h1).mpr ⟨g1, hg1, ?_⟩
    refine (foldlM_group (hfresh.next g1) h2).mpr ⟨g2, hg2, ?_⟩
    refine (foldlM_group ((hfresh.next g1).next g2) h3).mpr ⟨g3, hg3, ?_⟩
    exact (foldlM_scanChar (((hfresh.next g1).next g2).next g3) h4).mpr ⟨g4, hg4, hst⟩

/-- The four bytes as an address. -/
theorem readU32_quad (t4 : List UInt8) (h1 : g1 ≤ 255) (h2 : g2 ≤ 255) (h3 : g3 ≤ 255)
    (h4 : g4 ≤ 255) :
    let st := (((Scan.start.next g1).next g2).next g3).after t4 g4
    readU32 (fun t => [st.a 3, st.a 2, st.a 1, st.a 0].getD t 0) 0 = quadAddr g1 g2 g3 g4 := by
  have hbyte : ∀ g, g ≤ 255 → (UInt8.ofNat g).toNat = g :=
    fun g hg => UInt8.toNat_ofNat_of_lt' (Nat.lt_succ_of_le hg)
  show UInt32.ofNat ((UInt8.ofNat g4).toNat + 2 ^ 8 * (UInt8.ofNat g3).toNat +
    2 ^ 16 * (UInt8.ofNat g2).toNat + 2 ^ 24 * (UInt8.ofNat g1).toNat) = quadAddr g1 g2 g3 g4
  rw [hbyte g1 h1, hbyte g2 h2, hbyte g3 h3, hbyte g4 h4, quadAddr]
  congr 1
  omega

theorem count_quad {t1 t2 t3 t4 : List UInt8} (h1 : dot ∉ t1) (h2 : dot ∉ t2) (h3 : dot ∉ t3)
    (h4 : dot ∉ t4) : (t1 ++ dot :: (t2 ++ dot :: (t3 ++ dot :: t4))).count dot = 3 := by
  simp only [List.count_append, List.count_cons_self, List.count_eq_zero_of_not_mem h1,
    List.count_eq_zero_of_not_mem h2, List.count_eq_zero_of_not_mem h3,
    List.count_eq_zero_of_not_mem h4]

/-- The characters up to the first dot. -/
theorem exists_group {n : Nat} (h : s.count dot = n + 1) :
    ∃ t rest, s = t ++ dot :: rest ∧ dot ∉ t ∧ rest.count dot = n := by
  have hmem : dot ∈ s := List.count_pos_iff.mp (by omega)
  obtain ⟨t, rest, rfl, ht⟩ := List.eq_append_cons_of_mem hmem
  refine ⟨t, rest, rfl, ht, ?_⟩
  rw [List.count_append, List.count_cons_self, List.count_eq_zero_of_not_mem ht] at h
  omega

/-- A string with three dots. -/
theorem exists_quad (h : s.count dot = 3) : ∃ t1 t2 t3 t4,
    s = t1 ++ dot :: (t2 ++ dot :: (t3 ++ dot :: t4)) ∧ dot ∉ t1 ∧ dot ∉ t2 ∧ dot ∉ t3 ∧
      dot ∉ t4 := by
  obtain ⟨t1, s1, rfl, h1, h⟩ := exists_group h
  obtain ⟨t2, s2, rfl, h2, h⟩ := exists_group h
  obtain ⟨t3, t4, rfl, h3, h⟩ := exists_group h
  exact ⟨t1, t2, t3, t4, rfl, h1, h2, h3, List.count_eq_zero.mp h⟩

variable {addr : UInt32}

/-- **What is accepted gives its address.** -/
theorem parseIpv4_accepted (h : Accepted (s.take (intLen s).toNat) g1 g2 g3 g4) :
    parseIpv4 s addr = (quadAddr g1 g2 g3 g4, 0) := by
  obtain ⟨t1, t2, t3, t4, hs, h1, h2, h3, h4⟩ := h
  have hcount := count_quad h1.dot_notMem h2.dot_notMem h3.dot_notMem h4.dot_notMem
  have hscan := (foldlM_quad h1.dot_notMem h2.dot_notMem h3.dot_notMem h4.dot_notMem).mpr
    ⟨g1, g2, g3, g4, ⟨h1, h2, h3, h4⟩, rfl⟩
  have haddr := readU32_quad t4 h1.le h2.le h3.le h4.le
  simp only [parseIpv4, hs, hcount, hscan, haddr, ne_eq, not_true_eq_false, if_false]

/-- **Nothing else is accepted.** -/
theorem parseIpv4_cases : parseIpv4 s addr = (addr, -1) ∨
    ∃ g1 g2 g3 g4, Accepted (s.take (intLen s).toNat) g1 g2 g3 g4 := by
  by_cases hcount : (s.take (intLen s).toNat).count dot = 3
  · obtain ⟨t1, t2, t3, t4, hs, h1, h2, h3, h4⟩ := exists_quad hcount
    cases hscan : (s.take (intLen s).toNat).foldlM scanChar .start with
    | none =>
      refine Or.inl ?_
      simp only [parseIpv4, hcount, hscan, ne_eq, not_true_eq_false, if_false]
    | some st =>
      rw [hs] at hscan
      obtain ⟨g1, g2, g3, g4, ⟨hg1, hg2, hg3, hg4⟩, -⟩ := (foldlM_quad h1 h2 h3 h4).mp hscan
      exact Or.inr ⟨g1, g2, g3, g4, t1, t2, t3, t4, hs, hg1, hg2, hg3, hg4⟩
  · refine Or.inl ?_
    simp only [parseIpv4]
    rw [if_pos hcount]

end Accepted

/-- Dotted quads give their address, and all other strings are refused without a change of `addr`. -/
structure ParsesExactly (s : List UInt8) (addr : UInt32) : Prop where
  quad : ∀ g1 g2 g3 g4, DottedQuad s g1 g2 g3 g4 →
    parseIpv4 s addr = (quadAddr g1 g2 g3 g4, 0)
  other : (∀ g1 g2 g3 g4, ¬ DottedQuad s g1 g2 g3 g4) → parseIpv4 s addr = (addr, -1)

/-- **Exactly the dotted quads are accepted**, but for three groups with a dot behind each. -/
theorem parseIpv4_exact_iff (s : List UInt8) (addr : UInt32) (hlen : s.length < 2 ^ 31) :
    ParsesExactly s addr ↔ ∀ g1 g2 g3, ¬ DottedTriple s g1 g2 g3 := by
  constructor
  · intro hexact g1 g2 g3 htriple
    have hacc : Accepted (s.take (intLen s).toNat) g1 g2 g3 0 := by
      rw [take_intLen hlen]
      exact accepted_iff.mpr (Or.inr ⟨htriple, rfl⟩)
    have hother := hexact.other fun _ _ _ _ => not_dottedQuad_of_triple htriple
    rw [parseIpv4_accepted hacc] at hother
    have hreturn : (0 : Int) = -1 := congrArg Prod.snd hother
    exact absurd hreturn (by decide)
  · intro hno
    refine ⟨?_, ?_⟩
    · intro g1 g2 g3 g4 hquad
      refine parseIpv4_accepted ?_
      rw [take_intLen hlen]
      exact accepted_iff.mpr (Or.inl hquad)
    · intro hnot
      refine parseIpv4_cases.resolve_right ?_
      rintro ⟨g1, g2, g3, g4, hacc⟩
      rw [take_intLen hlen, accepted_iff] at hacc
      rcases hacc with hquad | ⟨htriple, -⟩
      · exact hnot g1 g2 g3 g4 hquad
      · exact hno g1 g2 g3 htriple

theorem digits_of_all {t : List UInt8} (h : t.all (fun c => decide (48 ≤ c ∧ c ≤ 57)) = true) :
    ∀ c ∈ t, 48 ≤ c ∧ c ≤ 57 := fun c hc => of_decide_eq_true (List.all_eq_true.mp h c hc)

/-- `"10.0.0.2"` -/
def quadText : List UInt8 := [49, 48, 46, 48, 46, 48, 46, 50]

/-- The text `10.0.0.2`. -/
theorem parseIpv4_exact_quad : DottedQuad quadText 10 0 0 2 ∧
    parseIpv4 quadText 0xffffffff = (0x0a000002, 0) := by
  have hquad : DottedQuad quadText 10 0 0 2 := by
    refine ⟨[49, 48], [48], [48], [50], rfl, ?_, ?_, ?_, ?_⟩
    all_goals exact ⟨⟨digits_of_all (by decide), rfl, by decide⟩, by decide⟩
  have hexact : ParsesExactly quadText 0xffffffff := by
    refine (parseIpv4_exact_iff quadText 0xffffffff (by decide)).mpr ?_
    intro g1 g2 g3 htriple
    exact absurd htriple.getLast? (by decide)
  exact ⟨hquad, hexact.quad 10 0 0 2 hquad⟩

/-- **`"1.2.3."`** has no fourth group and is taken for 1.2.3.0. -/
theorem parseIpv4_triple : parseIpv4 [49, 46, 50, 46, 51, 46] 0xffffffff = (0x01020300, 0) ∧
    ∀ g1 g2 g3 g4, ¬ DottedQuad [49, 46, 50, 46, 51, 46] g1 g2 g3 g4 := by
  have htriple : DottedTriple [49, 46, 50, 46, 51, 46] 1 2 3 := by
    refine ⟨[49], [50], [51], rfl, ?_, ?_, ?_⟩
    all_goals exact ⟨⟨digits_of_all (by decide), rfl, by decide⟩, by decide⟩
  have hacc : Accepted ([49, 46, 50, 46, 51, 46].take (intLen [49, 46, 50, 46, 51, 46]).toNat)
      1 2 3 0 := accepted_iff.mpr (Or.inr ⟨htriple, rfl⟩)
  exact ⟨parseIpv4_accepted hacc, fun _ _ _ _ => not_dottedQuad_of_triple htriple⟩

end JudgeDuck.Ducknet
