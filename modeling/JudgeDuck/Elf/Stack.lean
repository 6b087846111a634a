/-
  What a 32-bit program finds on its stack.

  The stack starts with the number of arguments, the two ends of the (empty) arguments and environment,
  and the auxiliary vector, all of them 32-bit words for a 32-bit program.  But the five entries about
  the file are pushed with `pushq`, eight bytes for each type and each value.  `stackWords` is what
  memory holds word by word (`loaded_word`): each of these numbers is followed by its upper half, so a
  reader of pairs takes the type for a value and the value for a type.  `AT_PHNUM` is there with the
  value 0, and no program has 0 headers (`phnum_pos`): the vector is never the intended one.
-/
import JudgeDuck.Elf.History

namespace JudgeDuck.Elf

open JudgeDuck.Lib JudgeDuck.Memory
open JudgeDuck.DuckCache (pageSize hugePageSize roundUp)

/-! ## Numbers in bytes -/

theorem le_zero (buf : List UInt8) (off : Nat) : le buf off 0 = 0 := rfl

/-- A number in a buffer, lowest byte first. -/
theorem le_succ (buf : List UInt8) (off n : Nat) :
    le buf off (n + 1) = (buf.getD off 0).toNat + 256 * le buf (off + 1) n := by
  rw [le, le, List.range_succ_eq_map, List.foldr_cons, List.foldr_map]
  simp only [Nat.add_zero, Nat.succ_eq_add_one, Nat.add_assoc, Nat.add_comm 1]

/-- The bytes of a number, lowest byte first. -/
theorem leBytes_succ (n x : Nat) : leBytes (n + 1) x = UInt8.ofNat x :: leBytes n (x / 256) := by
  rw [leBytes, List.range_succ_eq_map, List.map_cons, List.map_map, Nat.pow_zero, Nat.div_one,
    leBytes]
  refine congrArg _ (List.map_congr_left fun i _ => ?_)
  rw [Function.comp_apply, Nat.succ_eq_add_one, Nat.pow_succ', Nat.div_div_eq_div_mul]

/-- The lower bytes come first. -/
theorem leBytes_add (n1 n2 x : Nat) :
    leBytes (n1 + n2) x = leBytes n1 x ++ leBytes n2 (x / 256 ^ n1) := by
  induction n1 generalizing x with
  | zero => rw [Nat.zero_add, Nat.pow_zero, Nat.div_one]; rfl
  | succ n1 ih =>
    rw [Nat.add_right_comm, leBytes_succ, ih, leBytes_succ, List.cons_append, Nat.pow_succ',
      Nat.div_div_eq_div_mul]

theorem le_append_right (xs ys : List UInt8) (off n : Nat) :
    le (xs ++ ys) (xs.length + off) n = le ys off n := by
  rw [le, le]
  refine List.foldr_ext _ _ _ fun i _ x => ?_
  rw [List.getD_append_right _ _ _ _ (by omega), Nat.add_assoc, Nat.add_sub_cancel_left]

/-- Reading what was written. -/
theorem le_leBytes (n x : Nat) (ys : List UInt8) : le (leBytes n x ++ ys) 0 n = x % 256 ^ n := by
  induction n generalizing x with
  | zero => rw [le_zero, Nat.pow_zero, Nat.mod_one]
  | succ n ih =>
    have hrest : le (leBytes (n + 1) x ++ ys) (0 + 1) n = x / 256 % 256 ^ n := by
      rw [leBytes_succ, ← ih (x / 256)]
      exact le_append_right [UInt8.ofNat x] (leBytes n (x / 256) ++ ys) 0 n
    rw [le_succ, hrest, leBytes_succ, List.cons_append, List.getD_cons_zero, Nat.pow_succ',
      Nat.mod_mul]
    rfl

/-- The words of a block of words. -/
theorem le_words (ws : List Nat) (j : Nat) :
    le (ws.flatMap (leBytes 4)) (4 * j) 4 = ws.getD j 0 % 2 ^ 32 := by
  induction ws generalizing j with
  | nil =>
    rw [List.flatMap_nil, List.getD_nil]
    rfl
  | cons w ws ih =>
    rw [List.flatMap_cons]
    cases j with
    | zero => exact le_leBytes 4 w _
    | succ j =>
      have hskip := le_append_right (leBytes 4 w) (ws.flatMap (leBytes 4)) (4 * j) 4
      rw [length_leBytes] at hskip
      rw [List.getD_cons_succ, ← ih j, ← hskip]
      congr 1
      omega

/-! ## The words of the stack -/

/-- A number of 64 bits as two words. -/
def halves (x : Nat) : List Nat := [x % 2 ^ 32, x / 2 ^ 32]

/-- What is on the stack when a program starts, from `esp` on. -/
def stackWords (h : Header) (lay : Layout) : List Nat :=
  [0, 0, 0] ++
  [5, h.phnum, 4, h.phentsize, 9, h.entry, 3, lay.specialRegionBreak + h.phoff,
    7, lay.specialRegionBreak].flatMap halves ++
  [0x6b637564, lay.loadVaddrBreak - 60, 6, pageSize, 0]

/-- `n` bytes hold a number modulo `256 ^ n`. -/
theorem leBytes_mod (n x : Nat) : leBytes n (x % 256 ^ n) = leBytes n x := by
  induction n generalizing x with
  | zero => rfl
  | succ n ih =>
    have hbyte : UInt8.ofNat (x % (256 * 256 ^ n)) = UInt8.ofNat x := by
      refine UInt8.toNat_inj.mp ?_
      rw [UInt8.toNat_ofNat', UInt8.toNat_ofNat']
      exact Nat.mod_mul_right_mod x 256 (256 ^ n)
    rw [leBytes_succ, leBytes_succ, Nat.pow_succ', hbyte, Nat.mod_mul_right_div_self, ih]

theorem leBytes_halves (x : Nat) : leBytes 8 x = (halves x).flatMap (leBytes 4) := by
  have hsplit := leBytes_add 4 4 x
  have hlow := leBytes_mod 4 x
  rw [show (256 : Nat) ^ 4 = 2 ^ 32 by decide] at hsplit hlow
  rw [halves, List.flatMap_cons, List.flatMap_cons, List.flatMap_nil, List.append_nil, hlow, ← hsplit]

theorem auxv_eq (r : Request) (lay : Layout) :
    auxv r lay = (stackWords (elf32.header r.buf) lay).flatMap (leBytes 4) := by
  simp only [auxv, pushed, stackWords, List.reverse_cons, List.reverse_nil, List.nil_append,
    List.cons_append, List.flatten_cons, List.flatten_nil, List.flatMap_cons, List.flatMap_nil,
    List.flatMap_append, leBytes_halves, List.append_assoc, List.append_nil]

/-- A word of memory, counted from `a`. -/
def word (m : Machine) (a j : Nat) : Nat := read32 m (a + 4 * j)

theorem read32_congr {m : Machine} {a off : Nat} {xs : List UInt8}
    (h : ∀ i, i < 4 → m.mem (a + i) = xs.getD (off + i) 0) : read32 m a = le xs off 4 := by
  rw [read32, le, le]
  refine List.foldr_ext _ _ _ fun i hi x => ?_
  have hlt := List.mem_range.mp hi
  rw [Nat.zero_add, getD_listOf hlt, h i hlt]

section

variable {k : Kernel} {m : Machine} {r : Request} {lay : Layout} {vaddrBreak : Nat}

theorem stackWords_length (h : Header) : (stackWords h lay).length = 28 := rfl

/-- The lower part of the stack is the last thing written. -/
theorem loaded_mem_stack {i : Nat} (hi : i < 112) :
    (loaded k r lay m).mem (lay.loadVaddrBreak - 176 + i) = (auxv r lay).getD i 0 := by
  rw [loaded_mem, List.foldl_cons, List.foldl_cons, List.foldl_nil, store_apply, if_pos,
    Nat.add_sub_cancel_left]
  simp only [Write.covers, length_auxv, decide_eq_true_eq]
  omega

/-- Every word fits: addresses are below 4 GiB. -/
theorem stackWords_lt (hfits : Fits vaddrBreak r lay) {w : Nat}
    (hw : w ∈ stackWords (elf32.header r.buf) lay) : w < 2 ^ 32 := by
  have hle := hfits.le_4g
  have hord := hfits.ordered
  have htwo := hfits.two_pages
  have hentry : (elf32.header r.buf).entry < 2 ^ 32 := le_lt ..
  have hphoff : (elf32.header r.buf).phoff < 2 ^ 32 := le_lt ..
  have hphentsize : (elf32.header r.buf).phentsize < 2 ^ 16 := le_lt ..
  have hphnum : (elf32.header r.buf).phnum < 2 ^ 16 := le_lt ..
  rw [loadVaddrStart_eq, pageSize] at htwo
  simp only [stackWords, halves, pageSize, List.flatMap_cons, List.flatMap_nil, List.mem_append,
    List.mem_cons, List.not_mem_nil, or_false] at hw
  omega

/-- **The stack, word by word**. -/
theorem loaded_word (hfits : Fits vaddrBreak r lay) {j : Nat} (hj : j < 28) :
    word (loaded k r lay m) (lay.loadVaddrBreak - 176) j =
      (stackWords (elf32.header r.buf) lay).getD j 0 := by
  have hread : word (loaded k r lay m) (lay.loadVaddrBreak - 176) j = le (auxv r lay) (4 * j) 4 := by
    refine read32_congr fun i hi => ?_
    rw [Nat.add_assoc]
    exact loaded_mem_stack (by omega)
  have hlt : j < (stackWords (elf32.header r.buf) lay).length := by
    rwa [stackWords_length]
  rw [hread, auxv_eq, le_words, Nat.mod_eq_of_lt]
  rw [List.getD_eq_getElem _ _ hlt]
  exact stackWords_lt hfits (List.getElem_mem hlt)

/-- A program that is accepted has a header. -/
theorem phnum_pos (h : layout32 vaddrBreak r = some lay) : 0 < (elf32.header r.buf).phnum := by
  obtain ⟨s, hs⟩ := programRegion_spec (layout32_region h)
  rcases Nat.eq_zero_or_pos (elf32.header r.buf).phnum with h0 | hpos
  · have hloop := hs.loop
    rw [h0, List.range_zero, List.foldlM_nil] at hloop
    have hstart := hs.start
    rw [← Option.some.inj hloop] at hstart
    exact absurd hstart (by decide)
  · exact hpos

end

/-! ## The intended stack -/

/-- Memory from `esp` on, read as words: no arguments, no environment, and pairs of a type and a value
    up to the type 0, among them each pair of `expected`, once. -/
structure IntendedStack (m : Machine) (esp : Nat) (expected : List (Nat × Nat)) : Prop where
  aligned : esp % 16 = 0
  argc : word m esp 0 = 0
  argv : word m esp 1 = 0
  envp : word m esp 2 = 0
  vector : ∃ n, (∀ i, i < n → word m esp (3 + 2 * i) ≠ 0) ∧ word m esp (3 + 2 * n) = 0 ∧
    ∀ e ∈ expected, (((List.range n).map fun i =>
      (word m esp (3 + 2 * i), word m esp (3 + 2 * i + 1))).filter fun x => x.1 == e.1) = [e]

/-- `AT_PHNUM`, `AT_PHENT`, `AT_ENTRY`, `AT_PHDR`, `AT_BASE`, `AT_DUCK` and `AT_PAGESZ`. -/
def intendedVector (h : Header) (lay : Layout) (duckinfo32Ptr : Nat) : List (Nat × Nat) :=
  [(5, h.phnum), (4, h.phentsize), (9, h.entry), (3, lay.specialRegionBreak + h.phoff),
    (7, lay.specialRegionBreak), (0x6b637564, duckinfo32Ptr), (6, pageSize)]

/-- A vector that starts with the type `t` and a wrong value is not the intended one. -/
theorem IntendedStack.first_value {m : Machine} {esp t v : Nat} {expected : List (Nat × Nat)}
    (h : IntendedStack m esp expected) (hfirst : word m esp 3 = t) (ht : t ≠ 0)
    (hmem : (t, v) ∈ expected) : word m esp 4 = v := by
  obtain ⟨n, -, hend, hall⟩ := h.vector
  have hn : 0 < n := by
    rcases Nat.eq_zero_or_pos n with rfl | hpos
    · exact absurd (hfirst.symm.trans hend) ht
    · exact hpos
  have hpair : (word m esp 3, word m esp 4) ∈ (((List.range n).map fun i =>
      (word m esp (3 + 2 * i), word m esp (3 + 2 * i + 1))).filter fun x => x.1 == t) := by
    refine List.mem_filter.mpr ⟨List.mem_map.mpr ⟨0, List.mem_range.mpr hn, rfl⟩, ?_⟩
    rw [beq_iff_eq]
    exact hfirst
  rw [hall _ hmem] at hpair
  exact (Prod.ext_iff.mp (List.mem_singleton.mp hpair)).2

section

variable {k : Kernel} {m m' : Machine} {r : Request} {app : App} {lay : Layout}

/-- The stack of a program that is accepted. -/
theorem stack_of_loadElf32 (h : loadElf32 k m r = .ok (m', some app)) :
    ∃ lay, layout32 m.vaddrBreak r = some lay ∧ app.rsp % 16 = 0 ∧
      ∀ j, j < 28 → word m' app.rsp j = (stackWords (elf32.header r.buf) lay).getD j 0 := by
  obtain ⟨lay, hlay, -, hm, happ⟩ := loadElf32_iff.mp h
  have hfits := layout32_fits hlay
  refine ⟨lay, hlay, ?_, fun j hj => ?_⟩
  · have hdvd := hfits.dvd_break
    have htwo := hfits.two_pages
    have hrsp : app.rsp = lay.loadVaddrBreak - 176 := by rw [happ, appOf]
    rw [loadVaddrStart_eq, pageSize] at htwo
    rw [pageSize] at hdvd
    omega
  · rw [hm, happ]
    exact loaded_word hfits hj

/-- `AT_PHNUM` comes first, with the upper half of its own type as its value. -/
theorem not_intendedStack {esp ptr : Nat} (hpos : 0 < (elf32.header r.buf).phnum)
    (hwords : ∀ j, j < 28 → word m' esp j = (stackWords (elf32.header r.buf) lay).getD j 0) :
    ¬ IntendedStack m' esp (intendedVector (elf32.header r.buf) lay ptr) := by
  intro h
  have htype : word m' esp 3 = 5 := hwords 3 (by decide)
  have hvalue : word m' esp 4 = 0 := hwords 4 (by decide)
  have hphnum := h.first_value htype (by decide) List.mem_cons_self
  omega

end

/-- **The auxiliary vector of a 32-bit program is never the intended one.**  `esp`, the arguments and
    the environment are as they should be, but the first pair of words is `AT_PHNUM` and 0. -/
theorem stack_never_intended (k : Kernel) (m m' : Machine) (r : Request) (app : App)
    (h : loadElf32 k m r = .ok (m', some app)) :
    ∃ lay, layout32 m.vaddrBreak r = some lay ∧
      (app.rsp % 16 = 0 ∧
        ∀ j, j < 28 → word m' app.rsp j = (stackWords (elf32.header r.buf) lay).getD j 0) ∧
      ¬ IntendedStack m' app.rsp (intendedVector (elf32.header r.buf) lay app.duckinfo32Ptr) := by
  obtain ⟨lay, hlay, haligned, hwords⟩ := stack_of_loadElf32 h
  exact ⟨lay, hlay, ⟨haligned, hwords⟩, not_intendedStack (phnum_pos hlay) hwords⟩

/-- The smallest program gets such a stack. -/
theorem stack_never_intended_tiny : ∃ m m' app lay, AfterInit m ∧
    loadElf32 someKernel m (tiny [] 0 (by decide) (by decide)) = .ok (m', some app) ∧
    layout32 m.vaddrBreak (tiny [] 0 (by decide) (by decide)) = some lay ∧
    ¬ IntendedStack m' app.rsp (intendedVector
      (elf32.header (tiny [] 0 (by decide) (by decide)).buf) lay app.duckinfo32Ptr) := by
  obtain ⟨m, m', app, hinit, -, -, -, hload⟩ := exists_tiny
  obtain ⟨lay, hlay, -, hnot⟩ := stack_never_intended someKernel m m' _ app hload
  exact ⟨m, m', app, lay, hinit, hload, hlay, hnot⟩

/-- A tiny program has one header, but reads 0 for `AT_PHNUM`. -/
theorem tiny_reads_no_headers : ∃ m m' app lay, AfterInit m ∧
    loadElf32 someKernel m (tiny [] 0 (by decide) (by decide)) = .ok (m', some app) ∧
    layout32 m.vaddrBreak (tiny [] 0 (by decide) (by decide)) = some lay ∧
    (elf32.header (tiny [] 0 (by decide) (by decide)).buf).phnum = 1 ∧
    word m' app.rsp 3 = 5 ∧ word m' app.rsp 4 = 0 ∧
    ¬ IntendedStack m' app.rsp (intendedVector
      (elf32.header (tiny [] 0 (by decide) (by decide)).buf) lay app.duckinfo32Ptr) := by
  obtain ⟨m, m', app, hinit, -, -, -, hload⟩ := exists_tiny
  obtain ⟨lay, hlay, -, hwords⟩ := stack_of_loadElf32 hload
  have hphnum : (elf32.header (tiny [] 0 (by decide) (by decide)).buf).phnum = 1 := by
    rw [tiny, header_tiny]
  refine ⟨m, m', app, lay, hinit, hload, hlay, hphnum, hwords 3 (by decide), hwords 4 (by decide), ?_⟩
  exact not_intendedStack (phnum_pos hlay) hwords

end JudgeDuck.Elf
