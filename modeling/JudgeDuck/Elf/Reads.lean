/-
  Reading the file (`lib/elf.cpp`, both loaders).

  In `Elf.Model` the file is a list, and a field behind its end is 0.  The code has a pointer, and
  reads whatever is there.  So here every read of the file is checked (`fetch`, `peek`), the loops over
  the program headers read each header when they come to it, and a read behind the end of the file is a
  fault.  `kernel_break` is a parameter.

  The checks come out as in `Elf.Model`, without a fault (`agrees_regionR`): each of them reads only
  what an earlier one has found to be inside.  That takes the file header for the table of program
  headers (`HeaderOk.offset_lt`), and the whole loop over the table for the contents of the segments,
  where sums wrap around (`RegionAt.segment`).
-/
import JudgeDuck.Elf.Load

namespace JudgeDuck.Elf

open JudgeDuck.Lib JudgeDuck.Memory
open JudgeDuck.DuckCache (pageSize hugePageSize roundUp)

/-! ## Reads -/

/-- `n` bytes of the file from `off` on. -/
def fetch (buf : List UInt8) (off n : Nat) : Except Fault (List UInt8) :=
  if buf.length < off + n then .error .bufferOverflow else .ok ((buf.drop off).take n)

/-- A number in the file. -/
def peek (buf : List UInt8) (off n : Nat) : Except Fault Nat := do
  let bytes ← fetch buf off n
  .ok (le bytes 0 n)

/-- Where the fields of the two headers are, and how long they are. -/
structure Fields (fmt : Format) where
  entry : Nat × Nat
  phoff : Nat × Nat
  phentsize : Nat × Nat
  phnum : Nat × Nat
  type : Nat × Nat
  offset : Nat × Nat
  vaddr : Nat × Nat
  filesz : Nat × Nat
  memsz : Nat × Nat
  flags : Nat × Nat
  align : Nat × Nat
  ident_le : 24 ≤ fmt.headerSize
  header_le : ∀ f ∈ [entry, phoff, phentsize, phnum], f.1 + f.2 ≤ fmt.headerSize
  phdr_le : ∀ f ∈ [type, offset, vaddr, filesz, memsz, flags, align], f.1 + f.2 ≤ fmt.phdrSize
  phdr_small : ∀ f ∈ [offset, vaddr, filesz, memsz], f.2 ≤ 8
  size_le : fmt.phdrSize ≤ 64
  header_eq : ∀ buf, fmt.header buf = ⟨le buf entry.1 entry.2, le buf phoff.1 phoff.2,
    le buf phentsize.1 phentsize.2, le buf phnum.1 phnum.2⟩
  phdr_eq : ∀ buf off, fmt.phdr buf off = ⟨le buf (off + type.1) type.2,
    le buf (off + offset.1) offset.2, le buf (off + vaddr.1) vaddr.2,
    le buf (off + filesz.1) filesz.2, le buf (off + memsz.1) memsz.2,
    le buf (off + flags.1) flags.2, le buf (off + align.1) align.2⟩

/-- `Elf64_Ehdr` and `Elf64_Phdr`. -/
def fields64 : Fields elf64 where
  entry := (24, 8)
  phoff := (32, 8)
  phentsize := (54, 2)
  phnum := (56, 2)
  type := (0, 4)
  offset := (8, 8)
  vaddr := (16, 8)
  filesz := (32, 8)
  memsz := (40, 8)
  flags := (4, 4)
  align := (48, 8)
  ident_le := by decide
  header_le := by decide
  phdr_le := by decide
  phdr_small := by decide
  size_le := by decide
  header_eq := fun _ => rfl
  phdr_eq := fun _ _ => rfl

/-- The fields of the file header. -/
def readHeader {fmt : Format} (F : Fields fmt) (buf : List UInt8) : Except Fault Header := do
  let entry ← peek buf F.entry.1 F.entry.2
  let phoff ← peek buf F.phoff.1 F.phoff.2
  let phentsize ← peek buf F.phentsize.1 F.phentsize.2
  let phnum ← peek buf F.phnum.1 F.phnum.2
  .ok ⟨entry, phoff, phentsize, phnum⟩

/-- The fields of a program header, all of them also when it is skipped. -/
def readPhdr {fmt : Format} (F : Fields fmt) (buf : List UInt8) (off : Nat) : Except Fault Phdr := do
  let type ← peek buf (off + F.type.1) F.type.2
  let offset ← peek buf (off + F.offset.1) F.offset.2
  let vaddr ← peek buf (off + F.vaddr.1) F.vaddr.2
  let filesz ← peek buf (off + F.filesz.1) F.filesz.2
  let memsz ← peek buf (off + F.memsz.1) F.memsz.2
  let flags ← peek buf (off + F.flags.1) F.flags.2
  let align ← peek buf (off + F.align.1) F.align.2
  .ok ⟨type, offset, vaddr, filesz, memsz, flags, align⟩

/-! ## Checks -/

/-- What may fail, and may `return false`. -/
abbrev Check (α : Type) := OptionT (Except Fault) α

/-- `if (p) return false;`. -/
def failWhen (p : Prop) [Decidable p] : Check Unit := OptionT.mk (.ok (failIf p))

/-- The checks of the file header. -/
def checkHeaderR {fmt : Format} (F : Fields fmt) (buf : List UInt8) : Check Unit := do
  failWhen (buf.length < fmt.headerSize)
  failWhen ((← OptionT.lift (peek buf 0 1)) ≠ 0x7f)
  failWhen ((← OptionT.lift (peek buf 1 1)) ≠ 0x45)
  failWhen ((← OptionT.lift (peek buf 2 1)) ≠ 0x4c)
  failWhen ((← OptionT.lift (peek buf 3 1)) ≠ 0x46)
  failWhen ((← OptionT.lift (peek buf 4 1)) ≠ fmt.elfClass)
  failWhen ((← OptionT.lift (peek buf 5 1)) ≠ 1)
  failWhen ((← OptionT.lift (peek buf 6 1)) ≠ 1)
  let osabi ← OptionT.lift (peek buf 7 1)
  failWhen (osabi ≠ 0 ∧ osabi ≠ 3)
  failWhen ((← OptionT.lift (peek buf 16 2)) ≠ 2)
  failWhen ((← OptionT.lift (peek buf 18 2)) ≠ fmt.machine)
  failWhen ((← OptionT.lift (peek buf 20 4)) ≠ 1)
  let h ← OptionT.lift (readHeader F buf)
  failWhen (buf.length ≤ h.phoff)
  failWhen (buf.length ≤ h.phentsize)
  failWhen (buf.length ≤ h.phnum)

/-- A turn of the loop over the program headers. -/
def checkPhdrR {fmt : Format} (F : Fields fmt) (buf : List UInt8) (h : Header) (s : Nat × Nat)
    (i : Nat) : Check (Nat × Nat) := do
  let off := phdrOffset h i
  failWhen (buf.length < u64 (off + fmt.phdrSize))
  let p ← OptionT.lift (readPhdr F buf off)
  if p.type ≠ 1 then pure s
  else do
    failWhen (p.filesz ≠ 0 ∧ (buf.length < p.offset ∨ buf.length < u64 (p.offset + p.filesz)))
    failWhen (fmt.alignOk p.align = false)
    failWhen (p.memsz < p.filesz)
    failWhen (u64 (p.vaddr + p.memsz) < p.vaddr)
    pure (min s.1 p.vaddr, max s.2 (u64 (p.vaddr + p.memsz)))

/-- What both loaders check up to the end of the program region. -/
def regionR {fmt : Format} (F : Fields fmt) (kernelBreak vaddrBreak : Nat) (r : Request) :
    Check Nat := do
  checkHeaderR F r.buf
  let h ← OptionT.lift (readHeader F r.buf)
  let s ← (List.range h.phnum).foldlM (checkPhdrR F r.buf h) (2 ^ 64 - 1, 0)
  OptionT.mk (.ok (regionBreak fmt kernelBreak vaddrBreak r s))

/-- `for (i = 0; i < e_phnum; i++)` after the checks, for the headers with `PT_LOAD`. -/
def forSegments {fmt : Format} (F : Fields fmt) (buf : List UInt8)
    (turn : Machine → Phdr → Except Fault Machine) (m : Machine) : Except Fault Machine := do
  let h ← readHeader F buf
  (List.range h.phnum).foldlM (fun m i => do
    let p ← readPhdr F buf (phdrOffset h i)
    if p.type ≠ 1 then .ok m else turn m p) m

/-- A turn of the loop that copies. -/
def copySegmentR (buf : List UInt8) (m : Machine) (p : Phdr) : Except Fault Machine :=
  if p.filesz = 0 then .ok m
  else do
    let bytes ← fetch buf p.offset p.filesz
    let m ← m.write p.vaddr bytes
    setDuckWritten (p.vaddr / pageSize * pageSize) (roundUp (u64 (p.vaddr + p.filesz)) pageSize) m

/-! ## Reads inside the file -/

section

variable {fmt : Format} {F : Fields fmt} {buf : List UInt8} {off n : Nat}

theorem fetch_of_le (h : off + n ≤ buf.length) : fetch buf off n = .ok ((buf.drop off).take n) :=
  if_neg (Nat.not_lt.mpr h)

theorem le_slice (buf : List UInt8) (off n : Nat) : le ((buf.drop off).take n) 0 n = le buf off n := by
  rw [le, le]
  refine List.foldr_ext _ _ _ fun i hi x => ?_
  have hlt := List.mem_range.mp hi
  rw [Nat.zero_add, List.getD_eq_getElem?_getD, List.getElem?_take_of_lt hlt, List.getElem?_drop,
    List.getD_eq_getElem?_getD]

theorem peek_of_le (h : off + n ≤ buf.length) : peek buf off n = .ok (le buf off n) := by
  rw [peek, bind_of_ok (fetch_of_le h), le_slice]

theorem readHeader_of_le (h : fmt.headerSize ≤ buf.length) :
    readHeader F buf = .ok (fmt.header buf) := by
  have hle : ∀ f ∈ [F.entry, F.phoff, F.phentsize, F.phnum], f.1 + f.2 ≤ buf.length :=
    fun f hf => Nat.le_trans (F.header_le f hf) h
  simp only [List.forall_mem_cons] at hle
  obtain ⟨h1, h2, h3, h4, -⟩ := hle
  rw [readHeader, bind_of_ok (peek_of_le h1), bind_of_ok (peek_of_le h2), bind_of_ok (peek_of_le h3),
    bind_of_ok (peek_of_le h4), F.header_eq]

theorem readPhdr_of_le (h : off + fmt.phdrSize ≤ buf.length) :
    readPhdr F buf off = .ok (fmt.phdr buf off) := by
  have hle : ∀ f ∈ [F.type, F.offset, F.vaddr, F.filesz, F.memsz, F.flags, F.align],
      off + f.1 + f.2 ≤ buf.length := by
    intro f hf
    have hf := F.phdr_le f hf
    omega
  simp only [List.forall_mem_cons] at hle
  obtain ⟨h1, h2, h3, h4, h5, h6, h7, -⟩ := hle
  rw [readPhdr, bind_of_ok (peek_of_le h1), bind_of_ok (peek_of_le h2), bind_of_ok (peek_of_le h3),
    bind_of_ok (peek_of_le h4), bind_of_ok (peek_of_le h5), bind_of_ok (peek_of_le h6),
    bind_of_ok (peek_of_le h7), F.phdr_eq]

end

/-! ## The checks read inside the file -/

/-- A check that reads comes out as one that does not, without a fault. -/
def Agrees {α : Type} (x : Check α) (y : Option α) : Prop := x.run = .ok y

section

variable {α β : Type}

theorem Agrees.bind {x : Check α} {y : Option α} {f : α → Check β} {g : α → Option β}
    (h : Agrees x y) (hf : ∀ a, y = some a → Agrees (f a) (g a)) : Agrees (x >>= f) (y >>= g) := by
  rw [Agrees, OptionT.run_bind, h]
  cases y with
  | none => rfl
  | some a => exact hf a rfl

theorem agrees_pure (a : α) : Agrees (pure a : Check α) (some a) := rfl

/-- After a check, what comes next knows that it has not failed. -/
theorem agrees_failWhen {p : Prop} [Decidable p] {f : Unit → Check β} {g : Unit → Option β}
    (h : ¬ p → Agrees (f ()) (g ())) : Agrees (failWhen p >>= f) (failIf p >>= g) :=
  Agrees.bind (rfl : Agrees (failWhen p) (failIf p)) fun _ hp => h (failIf_eq_some.mp hp)

/-- A read that succeeds. -/
theorem agrees_lift {x : Except Fault α} {a : α} {f : α → Check β} {y : Option β} (h : x = .ok a)
    (hf : Agrees (f a) y) : Agrees (OptionT.lift x >>= f) y := by
  rw [Agrees, OptionT.run_bind_lift, h]
  exact hf

theorem Agrees.foldlM {ι : Type} {f : α → ι → Check α} {g : α → ι → Option α} {l : List ι}
    (h : ∀ a, ∀ i ∈ l, Agrees (f a i) (g a i)) (a : α) : Agrees (l.foldlM f a) (l.foldlM g a) := by
  induction l generalizing a with
  | nil => exact agrees_pure a
  | cons i l ih =>
    obtain ⟨hi, hl⟩ : (∀ a, Agrees (f a i) (g a i)) ∧ ∀ a, ∀ j ∈ l, Agrees (f a j) (g a j) :=
      ⟨fun a => h a i List.mem_cons_self, fun a j hj => h a j (List.mem_cons_of_mem _ hj)⟩
    rw [List.foldlM_cons, List.foldlM_cons]
    exact (hi a).bind fun b _ => ih hl b

end

section

variable {fmt : Format} (F : Fields fmt) {buf : List UInt8}

/-- **The checks of the file header** read inside the file. -/
theorem agrees_checkHeaderR : Agrees (checkHeaderR F buf) (checkHeader fmt buf) := by
  rw [checkHeaderR, checkHeader]
  refine agrees_failWhen fun hlen => ?_
  have hsize := Nat.le_of_not_lt hlen
  have hident := F.ident_le
  have hpeek : ∀ off n, off + n ≤ 24 → peek buf off n = .ok (le buf off n) :=
    fun off n h => peek_of_le (by omega)
  refine agrees_lift (hpeek 0 1 (by decide)) (agrees_failWhen fun _ => ?_)
  refine agrees_lift (hpeek 1 1 (by decide)) (agrees_failWhen fun _ => ?_)
  refine agrees_lift (hpeek 2 1 (by decide)) (agrees_failWhen fun _ => ?_)
  refine agrees_lift (hpeek 3 1 (by decide)) (agrees_failWhen fun _ => ?_)
  refine agrees_lift (hpeek 4 1 (by decide)) (agrees_failWhen fun _ => ?_)
  refine agrees_lift (hpeek 5 1 (by decide)) (agrees_failWhen fun _ => ?_)
  refine agrees_lift (hpeek 6 1 (by decide)) (agrees_failWhen fun _ => ?_)
  refine agrees_lift (hpeek 7 1 (by decide)) (agrees_failWhen fun _ => ?_)
  refine agrees_lift (hpeek 16 2 (by decide)) (agrees_failWhen fun _ => ?_)
  refine agrees_lift (hpeek 18 2 (by decide)) (agrees_failWhen fun _ => ?_)
  refine agrees_lift (hpeek 20 4 (by decide)) (agrees_failWhen fun _ => ?_)
  refine agrees_lift (readHeader_of_le hsize) (agrees_failWhen fun _ => ?_)
  exact agrees_failWhen fun _ => rfl

end

/-- What the loops over the table of program headers rely on. -/
structure HeaderOk (fmt : Format) (buf : List UInt8) : Prop where
  size_le : fmt.headerSize ≤ buf.length
  phoff_lt : (fmt.header buf).phoff < buf.length
  phentsize_lt : (fmt.header buf).phentsize < buf.length
  phnum_lt : (fmt.header buf).phnum < buf.length

/-- **What the checks of the header establish**: each of its numbers is below the length of the
    file. -/
theorem checkHeader_spec {fmt : Format} {buf : List UInt8} (h : checkHeader fmt buf = some ()) :
    HeaderOk fmt buf := by
  rw [checkHeader] at h
  simp only [failIf_bind, failIf_eq_some, Nat.not_lt, Nat.not_le] at h
  obtain ⟨hsize, -, -, -, -, -, -, -, -, -, -, -, hphoff, hphentsize, hphnum⟩ := h
  exact ⟨hsize, hphoff, hphentsize, hphnum⟩

section

variable {fmt : Format} {buf : List UInt8} {i : Nat}

/-- Offsets in the table do not wrap around. -/
theorem HeaderOk.offset_lt (h : HeaderOk fmt buf) (hlen : buf.length < 2 ^ 32)
    (hi : i < (fmt.header buf).phnum) : phdrOffset (fmt.header buf) i + 64 < 2 ^ 64 := by
  have h1 := h.phoff_lt
  have h2 := h.phentsize_lt
  have h3 := h.phnum_lt
  have hmul : i * (fmt.header buf).phentsize ≤ (2 ^ 32 - 3) * (2 ^ 32 - 2) :=
    Nat.mul_le_mul (by omega) (by omega)
  rw [phdrOffset, u64_of_lt (by omega)]
  omega

variable (F : Fields fmt)

/-- **One program header**: it is tested to be in the file before it is read. -/
theorem HeaderOk.agrees_checkPhdrR (h : HeaderOk fmt buf) (hlen : buf.length < 2 ^ 32)
    (hi : i < (fmt.header buf).phnum) (s : Nat × Nat) :
    Agrees (checkPhdrR F buf (fmt.header buf) s i) (checkPhdr fmt buf s i) := by
  rw [checkPhdrR, checkPhdr]
  refine agrees_failWhen fun hoff => ?_
  have hlt := h.offset_lt hlen hi
  have hsize := F.size_le
  rw [u64_of_lt (by omega)] at hoff
  refine agrees_lift (readPhdr_of_le (Nat.le_of_not_lt hoff)) ?_
  by_cases htype : (fmt.phdr buf (phdrOffset (fmt.header buf) i)).type ≠ 1
  · simp only [if_pos htype]
    exact agrees_pure s
  · simp only [if_neg htype]
    refine agrees_failWhen fun _ => agrees_failWhen fun _ => agrees_failWhen fun _ => ?_
    exact agrees_failWhen fun _ => agrees_pure _

end

/-- **All checks of the file** read inside the file. -/
theorem agrees_regionR {fmt : Format} (F : Fields fmt) (kernelBreak vaddrBreak : Nat) (r : Request) :
    Agrees (regionR F kernelBreak vaddrBreak r) (regionAt fmt kernelBreak vaddrBreak r) := by
  rw [regionR, regionAt]
  refine (agrees_checkHeaderR F).bind fun _ hheader => ?_
  have hok := checkHeader_spec hheader
  refine agrees_lift (readHeader_of_le hok.size_le) ?_
  refine (Agrees.foldlM (fun s i hi => ?_) _).bind fun s _ => rfl
  exact hok.agrees_checkPhdrR F r.len_lt (List.mem_range.mp hi) s

/-! ## Segments -/

/-- What both loaders have checked when they know `load_vaddr_break`, for any `kernel_break`. -/
structure RegionAt (fmt : Format) (kernelBreak vaddrBreak : Nat) (r : Request) (loadVaddrBreak : Nat)
    (s : Nat × Nat) : Prop where
  header : HeaderOk fmt r.buf
  loop : (List.range (fmt.header r.buf).phnum).foldlM (checkPhdr fmt r.buf) (2 ^ 64 - 1, 0) = some s
  above_kernel : kernelBreak ≤ s.1 / pageSize * pageSize
  min_lt_max : s.1 / pageSize * pageSize < roundUp s.2 pageSize
  max_le : roundUp s.2 pageSize ≤ vaddrBreak
  one_page : u64 (roundUp s.2 pageSize - s.1 / pageSize * pageSize + pageSize) ≤
    roundUp r.config.memoryHardLimit pageSize
  start : s.1 / pageSize * pageSize = fmt.loadVaddrStart
  break_eq : loadVaddrBreak = u64 (fmt.loadVaddrStart + roundUp r.config.memoryHardLimit pageSize)
  no_wrap : fmt.loadVaddrStart ≤ loadVaddrBreak
  break_le : loadVaddrBreak ≤ vaddrBreak

/-- A segment whose contents are in the file and whose pages are in the program region, below the
    stack. -/
structure SegmentInside (start stop len : Nat) (p : Phdr) : Prop where
  file : p.filesz ≠ 0 → p.offset + p.filesz ≤ len
  file_le : p.filesz ≤ p.memsz
  pages : ∀ n, n ≤ p.memsz → (pageSize ∣ p.firstPage ∧ pageSize ∣ p.endPage n) ∧
    start ≤ p.firstPage ∧ p.firstPage ≤ p.vaddr ∧ p.vaddr + n ≤ p.endPage n ∧
    p.endPage n + pageSize ≤ stop

section

variable {fmt : Format} {kernelBreak vaddrBreak loadVaddrBreak : Nat} {r : Request} {s : Nat × Nat}

/-- The program region has a page for the stack behind everything that is asked for. -/
theorem RegionAt.break_of_max (h : RegionAt fmt kernelBreak vaddrBreak r loadVaddrBreak s)
    (hle : vaddrBreak ≤ 2 ^ 39) :
    pageSize ∣ fmt.loadVaddrStart ∧ pageSize ∣ loadVaddrBreak ∧
      fmt.loadVaddrStart + 2 * pageSize ≤ loadVaddrBreak ∧ s.2 + pageSize ≤ loadVaddrBreak := by
  have hmin := h.min_lt_max
  have hmax := h.max_le
  have hpage := h.one_page
  have hstart := h.start
  have hbreak := h.break_eq
  have hwrap := h.no_wrap
  have hlt := (checkPhdrs_spec h.loop).2.1 (by decide)
  simp only [roundUp, u64, pageSize] at *
  omega

/-- Each header of the table is inside the file. -/
theorem checkPhdrs_inside {l : List Nat} {s s' : Nat × Nat} {buf : List UInt8}
    (h : l.foldlM (checkPhdr fmt buf) s = some s') :
    ∀ i ∈ l, u64 (phdrOffset (fmt.header buf) i + fmt.phdrSize) ≤ buf.length := by
  induction l generalizing s with
  | nil => exact fun i hi => absurd hi List.not_mem_nil
  | cons i l ih =>
    rw [List.foldlM_cons] at h
    obtain ⟨s1, hfirst, hrest⟩ := Option.bind_eq_some_iff.mp h
    rw [checkPhdr, failIf_bind] at hfirst
    exact List.forall_mem_cons.mpr ⟨Nat.le_of_not_lt hfirst.1, ih hrest⟩

theorem Fields.phdr_lt (F : Fields fmt) (buf : List UInt8) (off : Nat) :
    (fmt.phdr buf off).offset < 2 ^ 64 ∧ (fmt.phdr buf off).vaddr < 2 ^ 64 ∧
      (fmt.phdr buf off).filesz < 2 ^ 64 ∧ (fmt.phdr buf off).memsz < 2 ^ 64 := by
  have hlt : ∀ f ∈ [F.offset, F.vaddr, F.filesz, F.memsz], le buf (off + f.1) f.2 < 2 ^ 64 := by
    intro f hf
    have hpow : 256 ^ f.2 ≤ 256 ^ 8 := Nat.pow_le_pow_right (by decide) (F.phdr_small f hf)
    exact Nat.lt_of_lt_of_le (le_lt _ _ _) hpow
  simp only [List.forall_mem_cons] at hlt
  obtain ⟨h1, h2, h3, h4, -⟩ := hlt
  rw [F.phdr_eq]
  exact ⟨h1, h2, h3, h4⟩

/-- **The segments**: no sum that wraps around gets through all checks. -/
theorem RegionAt.segment (h : RegionAt fmt kernelBreak vaddrBreak r loadVaddrBreak s)
    (F : Fields fmt) (hle : vaddrBreak ≤ 2 ^ 39) {p : Phdr} (hp : p ∈ segmentsOf fmt r.buf) :
    SegmentInside fmt.loadVaddrStart loadVaddrBreak r.buf.length p := by
  obtain ⟨htype, i, hi, heq⟩ := mem_segmentsOf.mp hp
  have hok := (checkPhdrs_spec h.loop).2.2 i (List.mem_range.mpr hi)
  have hfields := F.phdr_lt r.buf (phdrOffset (fmt.header r.buf) i)
  rw [heq] at hok hfields
  obtain ⟨hoffset, hvaddr, hfilesz, hmemsz⟩ := hfields
  have hok := hok htype
  obtain ⟨hdvd, hdvdBreak, -, hroom⟩ := h.break_of_max hle
  have hbreak := h.break_le
  have hstart := h.start
  have hlen := r.len_lt
  have hmin := hok.min_le
  have hmax := hok.le_max
  have hwrap := hok.no_wrap
  -- `p_vaddr + p_memsz` does not wrap around, so it is below the end of the region
  have hsum : u64 (p.vaddr + p.memsz) = p.vaddr + p.memsz := by
    rw [u64] at *
    omega
  rw [hsum] at hmax
  refine ⟨fun hne => ?_, hok.file_le, fun n hn => ?_⟩
  · obtain ⟨hoff, hfile⟩ := hok.file hne
    have hfileLe := hok.file_le
    rwa [u64_of_lt (by omega)] at hfile
  · simp only [Phdr.firstPage, Phdr.endPage, roundUp, u64, pageSize] at *
    omega

/-- What was read once can be read again. -/
theorem RegionAt.readPhdr (h : RegionAt fmt kernelBreak vaddrBreak r loadVaddrBreak s) (F : Fields fmt)
    {i : Nat} (hi : i < (fmt.header r.buf).phnum) :
    readPhdr F r.buf (phdrOffset (fmt.header r.buf) i) =
      .ok (fmt.phdr r.buf (phdrOffset (fmt.header r.buf) i)) := by
  have hin := (checkPhdrs_inside h.loop) i (List.mem_range.mpr hi)
  have hlt := h.header.offset_lt r.len_lt hi
  have hsize := F.size_le
  rw [u64_of_lt (by omega)] at hin
  exact readPhdr_of_le hin

end

end JudgeDuck.Elf
