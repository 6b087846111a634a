/-
  The tokens of the command line, and how far the token loop reads.

  Two loops move the same pointer.  The inner one stops at the byte after a token, and the outer one
  then steps over that byte, whatever it is: a space or a tab, or the zero that ends the line.  So a
  line that does not end with a space or a tab is read one byte past its end (`tokenLoop_line`).

  In the buffer of the boot loader that byte is another zero, unless the line fills the buffer
  (`tokenLoop_stored`).  Apart from that byte the loop does what it is for: it presents the maximal runs
  of characters that are neither spaces nor tabs, each of them once, in order, and completely.  A tab
  that does not follow such a run presents an empty token, which matches no key (`matchKey_nil`).
-/
import JudgeDuck.Network.Config
import JudgeDuck.Multiboot.Mmap
import Mathlib.Data.List.Basic

namespace JudgeDuck.Network

open JudgeDuck.Lib
open JudgeDuck.Multiboot (Image Loader Stored load load_leaves maxLength)

/-! ## Runs -/

/-- A space or a tab. -/
def isBlank (c : UInt8) : Bool := c == byte ' ' || c == byte '\t'

/-- The maximal runs of characters that are not blank. -/
def runs (line : List UInt8) : List (List UInt8) := (line.splitOnP isBlank).filter (· ≠ [])

/-- The last character, if there is one, is blank. -/
def EndsBlank (line : List UInt8) : Prop := ∀ c ∈ line.getLast?, isBlank c = true

instance (line : List UInt8) : Decidable (EndsBlank line) :=
  inferInstanceAs (Decidable (∀ c ∈ line.getLast?, isBlank c = true))

theorem runs_append_cons {tok : List UInt8} {c : UInt8} (htok : ∀ x ∈ tok, isBlank x = false)
    (hc : isBlank c = true) (rest : List UInt8) :
    runs (tok ++ c :: rest) = [tok].filter (· ≠ []) ++ runs rest := by
  rw [runs, List.splitOnP_append_cons_of_forall_mem htok c hc, ← List.singleton_append,
    List.filter_append, runs]

/-- Without a blank there is one token, or none. -/
theorem runs_of_forall {tok : List UInt8} (htok : ∀ x ∈ tok, isBlank x = false) :
    runs tok = [tok].filter (· ≠ []) := by
  rw [runs, List.splitOnP_eq_singleton htok]

theorem endsBlank_append_cons (tok : List UInt8) {c : UInt8} (hc : isBlank c = true) (rest : List UInt8) :
    EndsBlank (tok ++ c :: rest) ↔ EndsBlank rest := by
  cases rest with
  | nil => simp [EndsBlank, hc]
  | cons d rest => simp [EndsBlank]

/-- A line is a run up to its first blank, or altogether. -/
theorem exists_token (line : List UInt8) :
    ∃ tok, (∀ x ∈ tok, isBlank x = false) ∧
      (line = tok ∨ ∃ c rest, isBlank c = true ∧ line = tok ++ c :: rest) := by
  induction line with
  | nil => exact ⟨[], fun x hx => absurd hx List.not_mem_nil, Or.inl rfl⟩
  | cons x line ih =>
    by_cases hx : isBlank x = true
    · exact ⟨[], fun x hx => absurd hx List.not_mem_nil, Or.inr ⟨x, line, hx, rfl⟩⟩
    · obtain ⟨tok, htok, hline⟩ := ih
      refine ⟨x :: tok, List.forall_mem_cons.mpr ⟨eq_false_of_ne_true hx, htok⟩, ?_⟩
      rcases hline with rfl | ⟨c, rest, hc, rfl⟩
      · exact Or.inl rfl
      · exact Or.inr ⟨c, rest, hc, rfl⟩

/-! ## The loops -/

section

variable {mem tail : List UInt8}

theorem byteAt_of_drop {ch : Nat} {c : UInt8} {rest : List UInt8} (h : mem.drop ch = c :: rest) :
    byteAt mem ch = .ok c := by
  have hget : mem[ch]? = some c := by
    rw [← List.head?_drop, h]
    rfl
  rw [byteAt, hget]

theorem byteAt_of_drop_nil {ch : Nat} (h : mem.drop ch = []) : byteAt mem ch = .error .bufferOverflow := by
  have hget : mem[ch]? = none := by
    rw [← List.head?_drop, h]
    rfl
  rw [byteAt, hget]

theorem drop_succ_of_drop {ch : Nat} {tok rest : List UInt8} {c : UInt8}
    (h : mem.drop ch = tok ++ c :: rest) : mem.drop (ch + tok.length + 1) = rest := by
  rw [← List.drop_drop, ← List.drop_drop, h, List.drop_left]
  rfl

/-- **The inner loop copies a token** and stops at the byte after it. -/
theorem copyToken_eq {tok rest buf : List UInt8} {c : UInt8} {fuel ch : Nat}
    (hdrop : mem.drop ch = tok ++ c :: rest) (htok : ∀ x ∈ tok, x ≠ 0 ∧ isBlank x = false)
    (hc : c = 0 ∨ isBlank c = true) (hlen : buf.length + tok.length < maxLen) (hfuel : tok.length < fuel) :
    copyToken mem fuel ch buf = .ok (ch + tok.length, buf ++ tok) := by
  obtain ⟨fuel, rfl⟩ := Nat.exists_eq_succ_of_ne_zero (show fuel ≠ 0 by omega)
  induction tok generalizing fuel ch buf with
  | nil =>
    rw [copyToken, bind_of_ok (byteAt_of_drop hdrop), if_neg]
    · simp
    · rintro ⟨h0, hspace, htab, -⟩
      rcases hc with rfl | hblank
      · exact h0 rfl
      · simp [isBlank, hspace, htab] at hblank
  | cons x tok ih =>
    rw [List.forall_mem_cons] at htok
    rw [List.length_cons] at hlen hfuel
    have hx : x ≠ byte ' ' ∧ x ≠ byte '\t' := by
      have hblank := htok.1.2
      simp only [isBlank, Bool.or_eq_false_iff, beq_eq_false_iff_ne] at hblank
      exact hblank
    obtain ⟨fuel, rfl⟩ := Nat.exists_eq_succ_of_ne_zero (show fuel ≠ 0 by omega)
    rw [copyToken, bind_of_ok (byteAt_of_drop hdrop), if_pos ⟨htok.1.1, hx.1, hx.2, by omega⟩]
    have hnext : mem.drop (ch + 1) = tok ++ c :: rest := by
      rw [← List.drop_drop, hdrop]
      rfl
    rw [ih hnext htok.2 (by rw [List.length_append, List.length_singleton]; omega) fuel (by omega),
      List.append_assoc, List.singleton_append, List.length_cons, Nat.add_assoc, Nat.add_comm 1]

/-- **A turn of the outer loop** takes a run, which can be empty, and the byte after it.  What it presents
    is the run, or nothing for a space that does not follow a run. -/
theorem scanLine_turn {tok rest : List UInt8} {c : UInt8} {ch : Nat} (fuel : Nat)
    (hdrop : mem.drop ch = tok ++ c :: rest) (htok : ∀ x ∈ tok, x ≠ 0 ∧ isBlank x = false)
    (hc : isBlank c = true ∨ c = 0 ∧ tok ≠ []) (hlen : tok.length < maxLen) :
    ∃ shown : List (List UInt8), shown.filter (· ≠ []) = [tok].filter (· ≠ []) ∧
      ∀ {σ : Type} (present : σ → List UInt8 → σ) (s : σ),
        scanLine present mem (fuel + 1) ch s =
          scanLine present mem fuel (ch + tok.length + 1) (shown.foldl present s) := by
  have hstop : c = 0 ∨ isBlank c = true := hc.symm.imp_left And.left
  have hcopy : copyToken mem maxLen ch [] = .ok (ch + tok.length, tok) :=
    copyToken_eq hdrop htok hstop (by simpa using hlen) hlen
  have hshow : ∀ x, byteAt mem ch = .ok x → x ≠ 0 → x ≠ byte ' ' →
      ∀ {σ : Type} (present : σ → List UInt8 → σ) (s : σ), scanLine present mem (fuel + 1) ch s =
        scanLine present mem fuel (ch + tok.length + 1) ([tok].foldl present s) := by
    intro x hx hx0 hspace σ present s
    rw [scanLine, bind_of_ok hx, if_neg hx0, if_neg hspace, bind_of_ok hcopy]
    rfl
  cases tok with
  | nil =>
    have hblank : isBlank c = true := hc.resolve_right fun h => h.2 rfl
    have hc0 : c ≠ 0 := by
      rintro rfl
      exact absurd hblank (by decide)
    by_cases hspace : c = byte ' '
    · refine ⟨[], rfl, fun present s => ?_⟩
      rw [scanLine, bind_of_ok (byteAt_of_drop hdrop), if_neg hc0, if_pos hspace]
      rfl
    · exact ⟨[[]], rfl, hshow c (byteAt_of_drop hdrop) hc0 hspace⟩
  | cons x tok =>
    obtain ⟨hx0, hblank⟩ := htok x List.mem_cons_self
    refine ⟨[x :: tok], rfl, hshow x (byteAt_of_drop hdrop) hx0 ?_⟩
    rintro rfl
    exact absurd hblank (by decide)

/-- **The outer loop**, for a line that is followed by a zero and then by `tail`.  It presents the runs of
    the line, and after a run at the end of the line it looks at the first byte of `tail`. -/
theorem scanLine_eq {line : List UInt8} {fuel ch : Nat} (hdrop : mem.drop ch = line ++ 0 :: tail)
    (h0 : 0 ∉ line) (hlen : line.length < maxLen) (htail : ∀ c ∈ tail.head?, c = 0)
    (hfuel : line.length + 1 < fuel) :
    ∃ toks : List (List UInt8), toks.filter (· ≠ []) = runs line ∧
      ∀ {σ : Type} (present : σ → List UInt8 → σ) (s : σ),
        scanLine present mem fuel ch s =
          if EndsBlank line ∨ tail ≠ [] then .ok (toks.foldl present s) else .error .bufferOverflow := by
  -- on the length of the line, which every turn makes shorter
  induction hn : line.length using Nat.strong_induction_on generalizing line fuel ch with
  | _ n ih =>
  obtain ⟨fuel, rfl⟩ := Nat.exists_eq_succ_of_ne_zero (show fuel ≠ 0 by omega)
  have hzero : ∀ x ∈ line, x ≠ 0 := fun x hx hx0 => h0 (hx0 ▸ hx)
  obtain ⟨tok, htok, rfl | ⟨b, rest, hb, rfl⟩⟩ := exists_token line
  · cases line with
    | nil =>
      refine ⟨[], rfl, fun present s => ?_⟩
      have hend : EndsBlank [] := fun c hc => absurd hc (by simp)
      rw [scanLine, bind_of_ok (byteAt_of_drop hdrop), if_pos rfl, if_pos (Or.inl hend)]
      rfl
    | cons x tok =>
      obtain ⟨shown, hshown, hturn⟩ := scanLine_turn fuel hdrop (fun y hy => ⟨hzero y hy, htok y hy⟩)
        (Or.inr ⟨rfl, List.cons_ne_nil x tok⟩) hlen
      have hlast : ¬ EndsBlank (x :: tok) := by
        intro hend
        have hmem := List.getLast_mem (List.cons_ne_nil x tok)
        have hblank := hend _ (List.getLast?_eq_getLast_of_ne_nil (List.cons_ne_nil x tok))
        rw [htok _ hmem] at hblank
        cases hblank
      have hrest : mem.drop (ch + (x :: tok).length + 1) = tail := drop_succ_of_drop hdrop
      obtain ⟨fuel, rfl⟩ := Nat.exists_eq_succ_of_ne_zero (show fuel ≠ 0 by omega)
      refine ⟨shown, hshown.trans (runs_of_forall htok).symm, fun present s => ?_⟩
      rw [hturn present s, scanLine]
      cases tail with
      | nil =>
        rw [byteAt_of_drop_nil hrest, if_neg (by simp [hlast])]
        rfl
      | cons d tail =>
        rw [bind_of_ok (byteAt_of_drop hrest), if_pos (htail d rfl),
          if_pos (Or.inr (List.cons_ne_nil d tail))]
  · rw [List.length_append, List.length_cons] at hn hlen hfuel
    rw [List.append_assoc, List.cons_append] at hdrop
    have hrest : mem.drop (ch + tok.length + 1) = rest ++ 0 :: tail := drop_succ_of_drop hdrop
    obtain ⟨shown, hshown, hturn⟩ := scanLine_turn fuel hdrop
      (fun y hy => ⟨hzero y (List.mem_append_left _ hy), htok y hy⟩) (Or.inl hb) (by omega)
    obtain ⟨toks, htoks, hscan⟩ := ih rest.length (by omega) hrest
      (fun h => h0 (List.mem_append_right _ (List.mem_cons_of_mem _ h))) (by omega)
      (show rest.length + 1 < fuel by omega) rfl
    refine ⟨shown ++ toks, ?_, fun present s => ?_⟩
    · rw [List.filter_append, hshown, htoks, runs_append_cons htok hb]
    · rw [hturn present s, hscan present, ← List.foldl_append]
      simp only [endsBlank_append_cons tok hb rest]

end

/-! ## The command line -/

/-- What the token loop does with a line: it presents its runs if `inside`, and else reads past the end
    of `mem`. -/
def Presents (mem line : List UInt8) (inside : Prop) [Decidable inside] : Prop :=
  ∃ toks : List (List UInt8), toks.filter (· ≠ []) = runs line ∧
    ∀ {σ : Type} (present : σ → List UInt8 → σ) (s : σ),
      tokenLoop present mem s = if inside then .ok (toks.foldl present s) else .error .bufferOverflow

section

variable {line : List UInt8}

/-- **A line in an array**: the loop presents its tokens, unless the line ends without a blank and
    the array ends with it. -/
theorem presents_append (tail : List UInt8) (h0 : 0 ∉ line) (hlen : line.length < maxLen)
    (htail : ∀ c ∈ tail.head?, c = 0) : Presents (line ++ 0 :: tail) line (EndsBlank line ∨ tail ≠ []) := by
  refine scanLine_eq rfl h0 hlen htail ?_
  rw [List.length_append, List.length_cons]
  omega

theorem Presents.congr {mem : List UInt8} {P Q : Prop} [Decidable P] [Decidable Q] (h : Presents mem line P)
    (hPQ : P ↔ Q) : Presents mem line Q := by
  obtain ⟨toks, htoks, hloop⟩ := h
  refine ⟨toks, htoks, fun present s => ?_⟩
  rw [hloop present s]
  simp only [hPQ]

/-- Where only the line and its zero may be read. -/
theorem tokenLoop_line (h0 : 0 ∉ line) (hlen : line.length < maxLen) :
    Presents (line ++ [0]) line (EndsBlank line) :=
  (presents_append [] h0 hlen (by simp)).congr (by simp)

/-- Where the whole buffer may be read. -/
theorem tokenLoop_stored {buf : List UInt8} (h : Stored buf line) :
    Presents buf line (EndsBlank line ∨ line.length < 255) := by
  have hlt : line.length < 256 := h.length_lt
  obtain ⟨k, hk⟩ : ∃ k, maxLength - line.length = k + 1 := ⟨255 - line.length, by rw [maxLength]; omega⟩
  have htail : ∀ c ∈ (List.replicate k (0 : UInt8)).head?, c = 0 :=
    fun c hc => List.eq_of_mem_replicate (List.mem_of_mem_head? hc)
  have hpresents := presents_append (List.replicate k 0) h.no_zero hlt htail
  rw [h.eq, hk, List.replicate_succ]
  refine hpresents.congr (or_congr Iff.rfl ?_)
  rw [maxLength] at hk
  rw [ne_eq, List.replicate_eq_nil_iff]
  omega

/-- **How far the token loop reads.**  It presents every maximal run of a line exactly once, and reads no
    byte behind the zero at the end of the line iff the line is empty or ends with a space or a tab.  In
    the buffer of the boot loader it reads no byte outside iff that is so or the line is shorter than 255
    characters. -/
theorem tokenLoop_bounds (line : List UInt8) (h0 : 0 ∉ line) (hlen : line.length ≤ 255) :
    Presents (line ++ [0]) line (EndsBlank line) ∧
    ∀ buf, Stored buf line → Presents buf line (EndsBlank line ∨ line.length < 255) :=
  ⟨tokenLoop_line h0 (Nat.lt_succ_of_le hlen), fun _ hbuf => tokenLoop_stored hbuf⟩

/-- The line `"a	bc "`. -/
theorem tokenLoop_bounds_blank :
    0 ∉ [byte 'a', byte '	', byte 'b', byte 'c', byte ' '] ∧
    runs [byte 'a', byte '	', byte 'b', byte 'c', byte ' '] = [[byte 'a'], [byte 'b', byte 'c']] ∧
    Presents ([byte 'a', byte '	', byte 'b', byte 'c', byte ' '] ++ [0])
      [byte 'a', byte '	', byte 'b', byte 'c', byte ' ']
      (EndsBlank [byte 'a', byte '	', byte 'b', byte 'c', byte ' ']) :=
  ⟨by decide, by decide, (tokenLoop_bounds _ (by decide) (by decide)).1⟩

/-- A line of one character, where a byte behind its zero is read; and one of 255 characters, which
    fills the buffer, where a byte behind the buffer is read. -/
theorem tokenLoop_past_end :
    tokenLoop (fun n _ => n + 1) [byte 'a', 0] 0 = .error .bufferOverflow ∧
    Stored (List.replicate 255 (byte 'a') ++ [0]) (List.replicate 255 (byte 'a')) ∧
    tokenLoop (fun n _ => n + 1) (List.replicate 255 (byte 'a') ++ [0]) 0 = .error .bufferOverflow := by
  have h0 : ∀ n, 0 ∉ List.replicate n (byte 'a') :=
    fun n h => absurd (List.eq_of_mem_replicate h) (by decide)
  have hpast : ∀ n, n + 1 < maxLen →
      tokenLoop (fun n _ => n + 1) (List.replicate (n + 1) (byte 'a') ++ [0]) 0 = .error .bufferOverflow := by
    intro n hn
    obtain ⟨toks, -, hloop⟩ := tokenLoop_line (h0 (n + 1)) (by rwa [List.length_replicate])
    rw [hloop, if_neg]
    intro hend
    exact absurd (hend (byte 'a') (by simp [List.getLast?_replicate])) (by decide)
  refine ⟨hpast 0 (by decide), ⟨h0 255, ?_, ?_⟩, hpast 254 (by decide)⟩
  · rw [List.length_replicate]
    decide
  · rw [List.length_replicate]
    rfl

/-! ## The keys -/

/-- An empty token matches no key. -/
theorem matchKey_nil (r : Reading) : matchKey r [] = r := rfl

theorem foldl_matchKey_filter (toks : List (List UInt8)) (r : Reading) :
    (toks.filter (· ≠ [])).foldl matchKey r = toks.foldl matchKey r := by
  induction toks generalizing r with
  | nil => rfl
  | cons tok toks ih =>
    cases tok with
    | nil =>
      rw [List.foldl_cons, matchKey_nil]
      exact ih r
    | cons c tok => exact ih (matchKey r (c :: tok))

/-- **The configuration depends on the runs of the command line only.** -/
theorem readNetworkConfig_stored {buf : List UInt8} (h : Stored buf line)
    (hline : EndsBlank line ∨ line.length < 255) (config : Config) :
    readNetworkConfig buf config =
      checkConfig ((runs line).foldl matchKey ⟨config, false, false, false, false, false⟩) := by
  obtain ⟨toks, htoks, hloop⟩ := tokenLoop_stored h
  rw [readNetworkConfig, hloop, if_pos hline, ← htoks, foldl_matchKey_filter]
  rfl

/-- **From the boot loader's tags to the configuration**: it is that of the runs of a line which `load` has
    stored, unless the line fills the buffer up to its end. -/
theorem readNetworkConfig_loaded {img : Image} {mem : Nat → UInt8} {multibootAddr : Nat}
    {words : Nat → BitVec 64} {l : Loader} (h : load img mem multibootAddr (Loader.bss words) = .ok l) :
    ∃ line, Stored l.commandLine line ∧ (EndsBlank line ∨ line.length < 255 → ∀ config,
      readNetworkConfig l.commandLine config =
        checkConfig ((runs line).foldl matchKey ⟨config, false, false, false, false, false⟩)) := by
  obtain ⟨-, line, hline⟩ := load_leaves h
  exact ⟨line, hline, readNetworkConfig_stored hline⟩

end

example :
    checkConfig ((runs
      ("ip=10.0.2.15 gateway=10.0.2.2\tprefix_len=24 server_ip=10.0.2.3".toList.map byte)).foldl
      matchKey ⟨⟨[0, 0, 0, 0], [0, 0, 0, 0, 0, 0], [0, 0, 0, 0], 0, [0, 0, 0, 0], false⟩,
        false, false, false, false, false⟩) =
      .ok (true, ⟨[10, 0, 2, 15], defaultMac, [10, 0, 2, 2], 24, [10, 0, 2, 3], false⟩) := by
  rfl

end JudgeDuck.Network
