/-
  What `load_elf32` does once it accepts.

  The flags are reset and the marked pages cleared (`prepared`); everything after that is a list of
  commands (`loadCmds`).  Only the stack takes an argument: the pushes write one block below
  `load_vaddr_break`, and the alignment of `esp` moves its lower part down by four bytes
  (`buildStack_eq`).  `loadElf32_iff` says when the loader accepts and what it leaves.
-/
import JudgeDuck.Elf.Layout
import JudgeDuck.Memory.Script

namespace JudgeDuck.Elf

open JudgeDuck.Lib JudgeDuck.Memory
open JudgeDuck.DuckCache (pageSize hugePageSize roundUp)

/-! ## The stack -/

@[simp] theorem length_leBytes (n x : Nat) : (leBytes n x).length = n := by
  rw [leBytes, List.length_map, List.length_range]

theorem length_duckInfo32 (tscFreq : Nat) (c : AppConfig) (lay : Layout) :
    (duckInfo32 tscFreq c lay).length = 60 := by
  simp only [duckInfo32, List.length_append, length_leBytes]

/-- What is below `duckinfo32` on the stack: arguments, environment and the auxiliary vector. -/
def auxv (r : Request) (lay : Layout) : List UInt8 :=
  (pushed (elf32.header r.buf) lay (lay.loadVaddrBreak - 60)).reverse.flatten

theorem length_auxv (r : Request) (lay : Layout) : (auxv r lay).length = 112 := by
  simp only [auxv, pushed, List.reverse_cons, List.reverse_nil, List.nil_append, List.cons_append,
    List.flatten_cons, List.flatten_nil, List.length_append, length_leBytes, List.length_nil]

/-- One push on top of what is there. -/
theorem push_stored {m : Machine} {top : Nat} (below bytes : List UInt8)
    (hlen : bytes.length ≤ top) (hmapped : top ≤ m.mapped) :
    push (m.stored ⟨top, below⟩, top) bytes =
      .ok (m.stored ⟨top - bytes.length, bytes ++ below⟩, top - bytes.length) := by
  have htop : top = top - bytes.length + bytes.length := by omega
  have hwrite : (m.stored ⟨top, below⟩).write (top - bytes.length) bytes =
      .ok (m.stored ⟨top - bytes.length, bytes ++ below⟩) := by
    rw [Machine.write_of_le (by rwa [← htop, Machine.stored_mapped]), ← Machine.stored_stored,
      ← htop]
  rw [push]
  simp only
  rw [bind_of_ok hwrite]

/-- All pushes write one block. -/
theorem foldlM_push {m : Machine} (blocks : List (List UInt8)) {top : Nat} (below : List UInt8)
    (hlen : (blocks.map List.length).sum ≤ top) (hmapped : top ≤ m.mapped) :
    blocks.foldlM push (m.stored ⟨top, below⟩, top) =
      .ok (m.stored ⟨top - (blocks.map List.length).sum, blocks.reverse.flatten ++ below⟩,
        top - (blocks.map List.length).sum) := by
  induction blocks generalizing top below with
  | nil => rfl
  | cons block blocks ih =>
    rw [List.map_cons, List.sum_cons] at hlen
    rw [List.foldlM_cons, bind_of_ok (push_stored below block (by omega) hmapped),
      ih (block ++ below) (by omega) (by omega)]
    simp only [List.map_cons, List.sum_cons, List.reverse_cons, List.flatten_append,
      List.flatten_cons, List.flatten_nil, List.append_nil, List.append_assoc, Nat.sub_sub]

/-- The writes of the stack: the block, and its lower part again when `esp` is aligned. -/
def stackCmds (tscFreq : Nat) (r : Request) (lay : Layout) : List Cmd :=
  [.write ⟨lay.loadVaddrBreak - 172, auxv r lay ++ duckInfo32 tscFreq r.config lay⟩,
    .write ⟨lay.loadVaddrBreak - 176, auxv r lay⟩]

/-- **The stack**. -/
theorem buildStack_eq {tscFreq : Nat} {r : Request} {lay : Layout} {m : Machine}
    (hdvd : pageSize ∣ lay.loadVaddrBreak) (hle : pageSize ≤ lay.loadVaddrBreak)
    (hmapped : lay.loadVaddrBreak ≤ m.mapped) :
    buildStack tscFreq r lay m = .ok ((stackCmds tscFreq r lay).foldl Cmd.result m,
      lay.loadVaddrBreak - 176, lay.loadVaddrBreak - 60) := by
  have hinfo := length_duckInfo32 tscFreq r.config lay
  have haux := length_auxv r lay
  rw [pageSize] at hdvd hle
  have hfirst : push (m, lay.loadVaddrBreak) (duckInfo32 tscFreq r.config lay) =
      .ok (m.stored ⟨lay.loadVaddrBreak - 60, duckInfo32 tscFreq r.config lay⟩,
        lay.loadVaddrBreak - 60) := by
    have h := push_stored [] (duckInfo32 tscFreq r.config lay) (by omega) hmapped
    rwa [Machine.stored_nil, List.append_nil, hinfo] at h
  have hsum : ((pushed (elf32.header r.buf) lay (lay.loadVaddrBreak - 60)).map List.length).sum =
      112 := by
    simp only [pushed, List.map_cons, List.map_nil, length_leBytes]
    rfl
  have hle60 : lay.loadVaddrBreak - 60 ≤ m.mapped := by omega
  have hblock := foldlM_push (pushed (elf32.header r.buf) lay (lay.loadVaddrBreak - 60))
    (duckInfo32 tscFreq r.config lay) (by omega) hle60
  rw [hsum, ← auxv, Nat.sub_sub] at hblock
  -- the bytes that move are the auxiliary vector
  have hmove := m.listOf_stored (lay.loadVaddrBreak - 172) (auxv r lay)
    (duckInfo32 tscFreq r.config lay)
  rw [haux] at hmove
  rw [buildStack, bind_of_ok hfirst]
  simp only
  rw [bind_of_ok hblock]
  have halign : (lay.loadVaddrBreak - 172) % 16 ≠ 0 := by omega
  have hesp : (lay.loadVaddrBreak - 172) / 16 * 16 = lay.loadVaddrBreak - 176 := by omega
  have hmoved : lay.loadVaddrBreak - 60 - (lay.loadVaddrBreak - 172) = 112 := by omega
  simp only [Nat.reduceAdd, halign, ne_eq, not_false_eq_true, if_true, hesp, hmoved, hmove]
  have hlow : lay.loadVaddrBreak - 176 + (auxv r lay).length ≤
      (m.stored ⟨lay.loadVaddrBreak - 172,
        auxv r lay ++ duckInfo32 tscFreq r.config lay⟩).mapped := by
    rw [haux, Machine.stored_mapped]
    omega
  rw [bind_of_ok (Machine.write_of_le hlow)]
  rfl

/-! ## The commands -/

/-- `set_duck_written`. -/
def duckCmd (start stop : Nat) : Cmd := .flags markDuck true start stop

/-- `set_page_flags_user_readonly`. -/
def readonlyCmd (start stop : Nat) : Cmd := .flags toUserReadonly true start stop

/-- The first page of a segment. -/
def Phdr.firstPage (p : Phdr) : Nat := p.vaddr / pageSize * pageSize

/-- The end of the pages of a segment, up to `n` bytes. -/
def Phdr.endPage (p : Phdr) (n : Nat) : Nat := roundUp (u64 (p.vaddr + n)) pageSize

/-- `copySegment`. -/
def copySegmentCmds (buf : List UInt8) (p : Phdr) : List Cmd :=
  if p.filesz = 0 then []
  else [.write ⟨p.vaddr, (buf.drop p.offset).take p.filesz⟩, duckCmd p.firstPage (p.endPage p.filesz)]

/-- `protectSegment`. -/
def protectSegmentCmds (p : Phdr) : List Cmd :=
  readonlyCmd p.firstPage (p.endPage p.memsz) ::
    ((if p.flags &&& 1 ≠ 0 then [.flags addExecutable false p.firstPage (p.endPage p.memsz)] else []) ++
      if p.flags &&& 2 ≠ 0 then [.flags addWritable false p.firstPage (p.endPage p.memsz)] else [])

/-- The three inputs. -/
def inputCmds (r : Request) (lay : Layout) : List Cmd :=
  [.write ⟨lay.loadVaddrBreak, r.config.stdin⟩, duckCmd lay.loadVaddrBreak lay.stdinBreak,
    readonlyCmd lay.loadVaddrBreak lay.stdinBreak,
    .write ⟨lay.stderrBreak, r.config.IB⟩, duckCmd lay.stderrBreak lay.IBBreak,
    readonlyCmd lay.stderrBreak lay.IBBreak] ++
  if r.config.OBNeedClear then []
    else [duckCmd lay.IBBreak (u64 (lay.IBBreak + roundUp r.config.OB.length pageSize)),
      .write ⟨lay.IBBreak, r.config.OB⟩]

/-- The first page of the file, behind the last region. -/
def imageCmds (r : Request) (lay : Layout) : List Cmd :=
  [.write ⟨lay.specialRegionBreak, r.buf.take (min r.buf.length pageSize)⟩,
    duckCmd lay.specialRegionBreak (u64 (lay.specialRegionBreak + pageSize)),
    readonlyCmd lay.specialRegionBreak (u64 (lay.specialRegionBreak + pageSize))]

/-- `protectPages`. -/
def protectCmds (r : Request) (lay : Layout) : List Cmd :=
  duckCmd (lay.loadVaddrBreak - pageSize) lay.loadVaddrBreak ::
    ((segments r.buf).flatMap protectSegmentCmds ++
      [.flags clearAccessDirty false loadVaddrStart lay.specialRegionBreak])

/-- Everything after the clearing of the pages. -/
def loadCmds (k : Kernel) (r : Request) (lay : Layout) : List Cmd :=
  (segments r.buf).flatMap (copySegmentCmds r.buf) ++ inputCmds r lay ++ imageCmds r lay ++
    stackCmds k.tscFreq r lay ++ protectCmds r lay

/-- A loop whose turns are lists of commands. -/
theorem foldlM_cmds {α : Type} {turn : Machine → α → Except Fault Machine} {cmds : α → List Cmd}
    (h : ∀ m x, turn m x = (cmds x).foldlM Cmd.exec m) (l : List α) (m : Machine) :
    l.foldlM turn m = (l.flatMap cmds).foldlM Cmd.exec m := by
  induction l generalizing m with
  | nil => rfl
  | cons x l ih =>
    rw [List.foldlM_cons, List.flatMap_cons, List.foldlM_append, h]
    exact bind_congr fun m => ih m

theorem copySegment_eq (buf : List UInt8) (m : Machine) (p : Phdr) :
    copySegment buf m p = (copySegmentCmds buf p).foldlM Cmd.exec m := by
  rw [copySegment, copySegmentCmds]
  by_cases h : p.filesz = 0
  · rw [if_pos h, if_pos h]
    rfl
  · rw [if_neg h, if_neg h]
    simp only [List.foldlM_cons, List.foldlM_nil, bind_pure]
    rfl

/-- A command under a condition. -/
theorem foldlM_ite {p : Prop} [Decidable p] (c : Cmd) (m : Machine) :
    (if p then [c] else []).foldlM Cmd.exec m = if p then c.exec m else .ok m := by
  by_cases h : p
  · rw [if_pos h, if_pos h, List.foldlM_cons]
    exact bind_pure _
  · rw [if_neg h, if_neg h]
    rfl

theorem protectSegment_eq (m : Machine) (p : Phdr) :
    protectSegment m p = (protectSegmentCmds p).foldlM Cmd.exec m := by
  simp only [protectSegment, protectSegmentCmds, List.foldlM_cons, List.foldlM_append, foldlM_ite]
  refine bind_congr fun m => ?_
  by_cases hX : p.flags &&& 1 ≠ 0
  · rw [if_pos hX, if_pos hX]
    rfl
  · rw [if_neg hX, if_neg hX]
    rfl

theorem copyInputs_eq (r : Request) (lay : Layout) (m : Machine) :
    copyInputs r lay m =
      ((segments r.buf).flatMap (copySegmentCmds r.buf) ++ inputCmds r lay ++
        imageCmds r lay).foldlM Cmd.exec m := by
  rw [copyInputs, inputCmds, imageCmds, foldlM_cmds (copySegment_eq r.buf)]
  cases r.config.OBNeedClear with
  | true =>
    simp only [if_true, List.foldlM_append, List.foldlM_cons, List.foldlM_nil, bind_assoc, bind_pure]
    rfl
  | false =>
    simp only [Bool.false_eq_true, if_false, List.foldlM_append, List.foldlM_cons, List.foldlM_nil,
      bind_assoc, bind_pure]
    rfl

theorem protectPages_eq (r : Request) (lay : Layout) (m : Machine) :
    protectPages r lay m = (protectCmds r lay).foldlM Cmd.exec m := by
  simp only [protectPages, protectCmds, foldlM_cmds protectSegment_eq, List.foldlM_append,
    List.foldlM_cons, List.foldlM_nil, bind_pure]
  rfl

/-! ## Accepting -/

/-- Pages after the flags are reset. -/
def reset (lay : Layout) (m : Machine) : Machine :=
  [Cmd.flags toKernel false kernelBreak loadVaddrStart,
    .flags toUserWritable true loadVaddrStart lay.specialRegionBreak,
    .flags toKernel false lay.specialRegionBreak m.vaddrBreak].foldl Cmd.result m

/-- Pages as they are before the copying. -/
def prepared (lay : Layout) (m : Machine) : Machine :=
  (reset lay m).clearPages (loadVaddrStart / pageSize) (lay.specialRegionBreak / pageSize)

/-- What `load_elf32` leaves. -/
def loaded (k : Kernel) (r : Request) (lay : Layout) (m : Machine) : Machine :=
  (loadCmds k r lay).foldl Cmd.result (prepared lay m)

/-- The `App` of a layout. -/
def appOf (r : Request) (lay : Layout) : App where
  entry := (elf32.header r.buf).entry
  rsp := lay.loadVaddrBreak - 176
  startAddr := loadVaddrStart
  breakAddr := lay.loadVaddrBreak
  specialRegionStartAddr := lay.loadVaddrBreak
  specialRegionBreakAddr := lay.specialRegionBreak
  stdinStartAddr := lay.loadVaddrBreak
  stdinBreakAddr := lay.stdinBreak
  duckinfoOrig := ⟨lay.stdinBreak, r.config.stdoutMaxSize, lay.stdoutBreak,
    r.config.stderrMaxSize, lay.IBBreak⟩
  duckinfo32Ptr := lay.loadVaddrBreak - 60

/-- The tables reach far enough: up to `vaddr_break`, and to the page of the file. -/
structure Ready (m : Machine) (lay : Layout) : Prop where
  dvd : pageSize ∣ m.vaddrBreak
  le_mapped : lay.specialRegionBreak < m.vaddrBreak → m.vaddrBreak ≤ m.mapped
  image : lay.specialRegionBreak + pageSize ≤ m.mapped

section

variable {m m' : Machine} {r : Request} {lay : Layout} {p : Phdr}

/-- Whether there is room depends on the two ends only. -/
theorem Ready.of_ends (h : Ready m lay) (hbreak : m'.vaddrBreak = m.vaddrBreak)
    (hmapped : m'.mapped = m.mapped) : Ready m' lay := by
  obtain ⟨hdvd, hle, himage⟩ := h
  refine ⟨?_, ?_, ?_⟩
  · rwa [hbreak]
  · rwa [hbreak, hmapped]
  · rwa [hmapped]

/-- The pages of the first `n` bytes of a segment. -/
theorem SegmentFits.pages {n vaddrBreak : Nat} (h : SegmentFits r lay p)
    (hfits : Fits vaddrBreak r lay) (hn : n ≤ p.memsz) :
    (pageSize ∣ p.firstPage ∧ pageSize ∣ p.endPage n) ∧ loadVaddrStart ≤ p.firstPage ∧
      p.firstPage ≤ p.vaddr ∧ p.vaddr + n ≤ p.endPage n ∧
      p.endPage n + pageSize ≤ lay.loadVaddrBreak := by
  have hstart := h.start_le
  have hmemory := h.memory
  have hbreak := hfits.dvd_break
  have hle : lay.loadVaddrBreak ≤ 2 ^ 32 := by
    have h1 := hfits.stdin_le
    have h2 := hfits.stdout_le
    have h3 := hfits.stderr_le
    have h4 := hfits.IB_le
    have h5 := hfits.OB_le
    have h6 := hfits.le_4g
    omega
  rw [loadVaddrStart_eq] at hstart ⊢
  simp only [Phdr.firstPage, Phdr.endPage, roundUp, u64, pageSize] at *
  omega

/-- The regions follow each other. -/
theorem Fits.ordered {vaddrBreak : Nat} (h : Fits vaddrBreak r lay) :
    loadVaddrStart < lay.loadVaddrBreak ∧ lay.loadVaddrBreak ≤ lay.stdinBreak ∧
      lay.stdinBreak ≤ lay.stdoutBreak ∧ lay.stdoutBreak ≤ lay.stderrBreak ∧
      lay.stderrBreak ≤ lay.IBBreak ∧ lay.IBBreak ≤ lay.specialRegionBreak := by
  have h0 := h.two_pages
  have h1 := h.stdin_le
  have h2 := h.stdout_le
  have h3 := h.stderr_le
  have h4 := h.IB_le
  have h5 := h.OB_le
  rw [pageSize] at h0
  omega

theorem Fits.image_eq {vaddrBreak : Nat} (h : Fits vaddrBreak r lay) :
    u64 (lay.specialRegionBreak + pageSize) = lay.specialRegionBreak + pageSize := by
  have hle := h.le_4g
  refine u64_of_lt ?_
  rw [pageSize]
  omega

/-- **The first loops** return if their ranges are in the tables, and leave `prepared`. -/
theorem preparePages_iff :
    preparePages lay m = .ok m' ↔
      (Pages m.mapped kernelBreak loadVaddrStart ∧
        Pages m.mapped loadVaddrStart lay.specialRegionBreak ∧
        Pages m.mapped lay.specialRegionBreak m.vaddrBreak) ∧ m' = prepared lay m := by
  constructor
  · intro h
    obtain ⟨m1, h1, h⟩ := bind_ok h
    obtain ⟨m2, h2, h⟩ := bind_ok h
    obtain ⟨m3, h3, h⟩ := bind_ok h
    obtain ⟨hpages1, rfl⟩ := (forPages_flag_iff toKernel).mp h1
    obtain ⟨hpages2, rfl⟩ := (forPages_flag_touch_iff toUserWritable).mp h2
    obtain ⟨hpages3, rfl⟩ := (forPages_flag_iff toKernel).mp h3
    exact ⟨⟨hpages1, hpages2, hpages3⟩, (clearDuckWrittenPages_iff.mp h).2⟩
  · rintro ⟨⟨h1, h2, h3⟩, rfl⟩
    refine (bind_of_ok ((forPages_flag_iff toKernel).mpr ⟨h1, rfl⟩)).trans ?_
    refine (bind_of_ok ((forPages_flag_touch_iff toUserWritable).mpr ⟨?_, rfl⟩)).trans ?_
    · exact h2
    refine (bind_of_ok ((forPages_flag_iff toKernel).mpr ⟨?_, rfl⟩)).trans ?_
    · exact h3
    exact clearDuckWrittenPages_iff.mpr ⟨h2, rfl⟩

end

/-! ## The range of the commands -/

/-- Flags that take nothing away: a page of the user stays one, and a mark is kept. -/
structure Harmless (f : BitVec 64 → BitVec 64) : Prop where
  user : ∀ e, has e pteUser = true → has (f e) pteUser = true
  duck : ∀ e, has e pteDuckWritten = true → has (f e) pteDuckWritten = true

theorem harmless_markDuck : Harmless markDuck :=
  ⟨fun e h => (markDuck_user e).trans h, fun e _ => markDuck_duck e⟩

theorem harmless_toUserReadonly : Harmless toUserReadonly :=
  ⟨fun e _ => toUserReadonly_user e, fun e h => (toUserReadonly_duck e).trans h⟩

theorem harmless_addExecutable : Harmless addExecutable :=
  ⟨fun e h => (addExecutable_user e).trans h, fun e h => (addExecutable_duck e).trans h⟩

theorem harmless_addWritable : Harmless addWritable :=
  ⟨fun e h => (addWritable_user e).trans h, fun e h => (addWritable_duck e).trans h⟩

theorem harmless_clearAccessDirty : Harmless clearAccessDirty :=
  ⟨fun e h => (clearAccessDirty_user e).trans h, fun e h => (clearAccessDirty_duck e).trans h⟩

/-- A command on the program and the regions behind it. -/
inductive Inside (lay : Layout) : Cmd → Prop
  | write {w : Write UInt8} (start_le : loadVaddrStart ≤ w.addr)
      (le_special : w.addr + w.data.length ≤ lay.specialRegionBreak) : Inside lay (.write w)
  | flags {f : BitVec 64 → BitVec 64} {touch : Bool} {start stop : Nat} (harmless : Harmless f)
      (start_le : loadVaddrStart ≤ start) (pages : Pages lay.specialRegionBreak start stop) :
      Inside lay (.flags f touch start stop)

section

variable {vaddrBreak : Nat} {k : Kernel} {r : Request} {lay : Layout} {p : Phdr} {c : Cmd}

theorem Fits.pages_segment (hfits : Fits vaddrBreak r lay) (hp : p ∈ segments r.buf) {n : Nat}
    (hn : n ≤ p.memsz) :
    loadVaddrStart ≤ p.firstPage ∧ Pages lay.specialRegionBreak p.firstPage (p.endPage n) := by
  obtain ⟨⟨hdvd1, hdvd2⟩, hstart, hle1, hle2, hle3⟩ := (hfits.segment p hp).pages hfits hn
  have hord := hfits.ordered
  rw [pageSize] at hle3
  exact ⟨hstart, hdvd1, hdvd2, by omega, fun _ => by omega⟩

theorem Fits.inside_copySegment (hfits : Fits vaddrBreak r lay) (hp : p ∈ segments r.buf)
    (hc : c ∈ copySegmentCmds r.buf p) : Inside lay c := by
  have hseg := hfits.segment p hp
  rw [copySegmentCmds] at hc
  by_cases h0 : p.filesz = 0
  · rw [if_pos h0] at hc
    exact absurd hc List.not_mem_nil
  · rw [if_neg h0] at hc
    obtain ⟨hstart, hpages⟩ := hfits.pages_segment hp hseg.file_le
    rcases List.mem_pair.mp hc with rfl | rfl
    · have hmemory := hseg.memory
      have hfile := hseg.file_le
      have hord := hfits.ordered
      have hlen : ((r.buf.drop p.offset).take p.filesz).length ≤ p.filesz := List.length_take_le _ _
      refine .write hseg.start_le ?_
      simp only
      omega
    · exact .flags harmless_markDuck hstart hpages

theorem Fits.inside_protectSegment (hfits : Fits vaddrBreak r lay) (hp : p ∈ segments r.buf)
    (hc : c ∈ protectSegmentCmds p) : Inside lay c := by
  obtain ⟨hstart, hpages⟩ := hfits.pages_segment hp (Nat.le_refl p.memsz)
  rw [protectSegmentCmds] at hc
  rcases List.mem_cons.mp hc with rfl | hc
  · exact .flags harmless_toUserReadonly hstart hpages
  rcases List.mem_append.mp hc with hc | hc
  · obtain ⟨-, rfl⟩ : p.flags &&& 1 ≠ 0 ∧ c = _ := by simpa using hc
    exact .flags harmless_addExecutable hstart hpages
  · obtain ⟨-, rfl⟩ : p.flags &&& 2 ≠ 0 ∧ c = _ := by simpa using hc
    exact .flags harmless_addWritable hstart hpages

theorem Fits.inside_input (hfits : Fits vaddrBreak r lay) (hc : c ∈ inputCmds r lay) :
    Inside lay c := by
  have hord := hfits.ordered
  have hstdin := hfits.stdin_le
  have hIB := hfits.IB_le
  have hOB := hfits.OB_le
  have hpages1 : Pages lay.specialRegionBreak lay.loadVaddrBreak lay.stdinBreak :=
    ⟨hfits.dvd_break, hfits.dvd_stdin, by omega, fun _ => by omega⟩
  have hpages2 : Pages lay.specialRegionBreak lay.stderrBreak lay.IBBreak :=
    ⟨hfits.dvd_stderr, hfits.dvd_IB, by omega, fun _ => by omega⟩
  have hpages3 : Pages lay.specialRegionBreak lay.IBBreak lay.specialRegionBreak :=
    ⟨hfits.dvd_IB, hfits.dvd_special, by omega, fun _ => Nat.le_refl _⟩
  rw [inputCmds, hfits.OB_eq] at hc
  rcases List.mem_append.mp hc with hc | hc
  · simp only [List.mem_cons, List.not_mem_nil, or_false] at hc
    rcases hc with rfl | rfl | rfl | rfl | rfl | rfl
    · exact .write (by simp only; omega) (by simp only; omega)
    · exact .flags harmless_markDuck (by omega) hpages1
    · exact .flags harmless_toUserReadonly (by omega) hpages1
    · exact .write (by simp only; omega) (by simp only; omega)
    · exact .flags harmless_markDuck (by omega) hpages2
    · exact .flags harmless_toUserReadonly (by omega) hpages2
  · obtain ⟨-, rfl | rfl⟩ : r.config.OBNeedClear = false ∧ (c = _ ∨ c = _) := by simpa using hc
    · exact .flags harmless_markDuck (by omega) hpages3
    · exact .write (by simp only; omega) (by simp only; omega)

theorem Fits.inside_stack (hfits : Fits vaddrBreak r lay) (hc : c ∈ stackCmds k.tscFreq r lay) :
    Inside lay c := by
  have hord := hfits.ordered
  have htwo := hfits.two_pages
  have hinfo := length_duckInfo32 k.tscFreq r.config lay
  have haux := length_auxv r lay
  rw [pageSize] at htwo
  have hstart : ∀ n, n ≤ 176 → loadVaddrStart ≤ lay.loadVaddrBreak - n := by
    intro n hn
    rw [loadVaddrStart_eq] at *
    omega
  rcases List.mem_pair.mp hc with rfl | rfl
  · refine .write (hstart 172 (by decide)) ?_
    simp only [List.length_append]
    omega
  · refine .write (hstart 176 (by decide)) ?_
    simp only
    omega

theorem Fits.inside_protect (hfits : Fits vaddrBreak r lay) (hc : c ∈ protectCmds r lay) :
    Inside lay c := by
  have hord := hfits.ordered
  have htwo := hfits.two_pages
  have hdvd := hfits.dvd_break
  rw [protectCmds] at hc
  rcases List.mem_cons.mp hc with rfl | hc
  · have hstart : loadVaddrStart ≤ lay.loadVaddrBreak - pageSize := by
      rw [loadVaddrStart_eq, pageSize] at *
      omega
    refine .flags harmless_markDuck hstart ⟨?_, hdvd, Nat.sub_le _ _, ?_⟩
    · exact Nat.dvd_sub hdvd (Nat.dvd_refl _)
    · intro _
      omega
  rcases List.mem_append.mp hc with hc | hc
  · obtain ⟨p, hp, hc⟩ := List.mem_flatMap.mp hc
    exact hfits.inside_protectSegment hp hc
  · obtain rfl := List.mem_singleton.mp hc
    refine .flags harmless_clearAccessDirty (Nat.le_refl _) ⟨?_, hfits.dvd_special, ?_, ?_⟩
    · exact loadVaddrStart_dvd
    · omega
    · intro _
      exact Nat.le_refl _

/-- **What a load consists of**: commands on the program and the regions, and the page of the file. -/
theorem Fits.inside_or_image (hfits : Fits vaddrBreak r lay) (hc : c ∈ loadCmds k r lay) :
    Inside lay c ∨ c ∈ imageCmds r lay := by
  simp only [loadCmds, List.mem_append] at hc
  rcases hc with (((hc | hc) | hc) | hc) | hc
  · obtain ⟨p, hp, hc⟩ := List.mem_flatMap.mp hc
    exact .inl (hfits.inside_copySegment hp hc)
  · exact .inl (hfits.inside_input hc)
  · exact .inr hc
  · exact .inl (hfits.inside_stack hc)
  · exact .inl (hfits.inside_protect hc)

theorem Inside.ok {mapped : Nat} (h : Inside lay c) (hle : lay.specialRegionBreak ≤ mapped) :
    c.Ok mapped := by
  cases h with
  | write start_le le_special =>
    intro _
    exact Nat.le_trans le_special hle
  | flags _ _ pages =>
    exact ⟨pages.start_dvd, pages.stop_dvd, pages.le, fun hlt => Nat.le_trans (pages.le_mapped hlt) hle⟩

theorem Fits.ok_image {mapped : Nat} (hfits : Fits vaddrBreak r lay)
    (hle : lay.specialRegionBreak + pageSize ≤ mapped) (hc : c ∈ imageCmds r lay) : c.Ok mapped := by
  have hpages : Pages mapped lay.specialRegionBreak (lay.specialRegionBreak + pageSize) :=
    ⟨hfits.dvd_special, Nat.dvd_add hfits.dvd_special (Nat.dvd_refl _), Nat.le_add_right _ _,
      fun _ => hle⟩
  rw [imageCmds, hfits.image_eq] at hc
  simp only [List.mem_cons, List.not_mem_nil, or_false] at hc
  rcases hc with rfl | rfl | rfl
  · intro _
    have hlen : (r.buf.take (min r.buf.length pageSize)).length ≤ min r.buf.length pageSize :=
      List.length_take_le _ _
    simp only
    omega
  · exact hpages
  · exact hpages

end

/-! ## Accepting and refusing -/

section

variable {k : Kernel} {m m' : Machine} {r : Request} {lay : Layout} {app : App}

theorem loadElf32_of_none (h : layout32 m.vaddrBreak r = none) :
    loadElf32 k m r = .ok (m, none) := by
  rw [loadElf32, h]

theorem Fits.pages_prepare (hfits : Fits m.vaddrBreak r lay) (hready : Ready m lay) :
    Pages m.mapped kernelBreak loadVaddrStart ∧
      Pages m.mapped loadVaddrStart lay.specialRegionBreak ∧
      Pages m.mapped lay.specialRegionBreak m.vaddrBreak := by
  have hord := hfits.ordered
  have himage := hready.image
  refine ⟨⟨by decide, by decide, by decide, fun _ => ?_⟩, ⟨by decide, hfits.dvd_special, ?_, fun _ => ?_⟩,
    hfits.dvd_special, hready.dvd, hfits.le_vaddrBreak, hready.le_mapped⟩
  · omega
  · omega
  · omega

/-- A request that fits is loaded when the tables reach far enough. -/
theorem loadElf32_of_ready (hlay : layout32 m.vaddrBreak r = some lay) (hready : Ready m lay) :
    loadElf32 k m r = .ok (loaded k r lay m, some (appOf r lay)) := by
  have hfits := layout32_fits hlay
  have hord := hfits.ordered
  have htwo := hfits.two_pages
  have himage := hready.image
  have hok : ∀ c ∈ loadCmds k r lay, c.Ok m.mapped := by
    intro c hc
    rcases hfits.inside_or_image hc with h | h
    · exact h.ok (by omega)
    · exact hfits.ok_image himage h
  rw [loadCmds, List.forall_mem_append, List.forall_mem_append] at hok
  obtain ⟨⟨hcopy, -⟩, hprotect⟩ := hok
  rw [loadElf32, hlay]
  refine (bind_of_ok (preparePages_iff.mpr ⟨hfits.pages_prepare hready, rfl⟩)).trans ?_
  refine (bind_of_ok ((copyInputs_eq ..).trans (foldlM_exec_iff.mpr ⟨?_, rfl⟩))).trans ?_
  · exact hcopy
  refine (bind_of_ok (buildStack_eq hfits.dvd_break ?_ ?_)).trans ?_
  · omega
  · rw [foldl_result_mapped]
    exact Nat.le_trans (by omega) himage
  refine (bind_of_ok ((protectPages_eq ..).trans (foldlM_exec_iff.mpr ⟨?_, rfl⟩))).trans ?_
  · rw [foldl_result_mapped, foldl_result_mapped]
    exact hprotect
  simp only [loaded, loadCmds, List.foldl_append, appOf]

/-- A request that is accepted fits, and the tables reach far enough. -/
theorem ready_of_loadElf32 (h : loadElf32 k m r = .ok (m', some app)) :
    ∃ lay, layout32 m.vaddrBreak r = some lay ∧ Ready m lay := by
  rw [loadElf32] at h
  cases hlay : layout32 m.vaddrBreak r with
  | none =>
    rw [hlay] at h
    cases h
  | some lay =>
    rw [hlay] at h
    have hfits := layout32_fits hlay
    obtain ⟨m1, hprepare, h⟩ := bind_ok h
    obtain ⟨m2, hcopy, -⟩ := bind_ok h
    obtain ⟨⟨-, -, hpages⟩, rfl⟩ := preparePages_iff.mp hprepare
    rw [copyInputs_eq] at hcopy
    -- the mark of the page of the file is one of the commands
    have hmark := (foldlM_exec_iff.mp hcopy).1 (duckCmd lay.specialRegionBreak
      (u64 (lay.specialRegionBreak + pageSize))) (by simp [imageCmds])
    rw [hfits.image_eq] at hmark
    exact ⟨lay, rfl, hpages.stop_dvd, hpages.le_mapped,
      hmark.le_mapped (Nat.lt_add_of_pos_right (by decide))⟩

/-- **When `load_elf32` accepts, and what it leaves**. -/
theorem loadElf32_iff :
    loadElf32 k m r = .ok (m', some app) ↔ ∃ lay, layout32 m.vaddrBreak r = some lay ∧
      Ready m lay ∧ m' = loaded k r lay m ∧ app = appOf r lay := by
  constructor
  · intro h
    obtain ⟨lay, hlay, hready⟩ := ready_of_loadElf32 h
    rw [loadElf32_of_ready hlay hready, Except.ok.injEq, Prod.mk.injEq, Option.some.injEq] at h
    exact ⟨lay, hlay, hready, h.1.symm, h.2.symm⟩
  · intro h
    obtain ⟨lay, hlay, hready, hm, happ⟩ := h
    rw [hm, happ]
    exact loadElf32_of_ready hlay hready

end

end JudgeDuck.Elf
