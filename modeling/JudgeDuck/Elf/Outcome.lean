/-
  What a run of a program comes to.

  A load clears the pages of a program and fills them, and the last thing it does is to take their
  `PTE_ACCESSED` and `PTE_DIRTY` away.  So the pages that `run` counts are those that the program itself has
  used, and what it reports is a function of the request, of the layout that follows from it, and of what the
  program does (`outcome`), whatever ran before (`run_outcome`).  In the end the bytes are those of the image
  where the program did not write (`finalByte`).
-/
import JudgeDuck.Elf.Permissions

namespace JudgeDuck.Elf

open JudgeDuck.Lib JudgeDuck.Memory
open JudgeDuck.DuckCache (pageSize hugePageSize roundUp)

/-! ## The outcome -/

/-- The program may write to the page `p`. -/
def mayWrite (r : Request) (lay : Layout) (p : Nat) : Bool :=
  decide (lay.userPage p) &&
    match lastSegment (segments r.buf) p with
    | some q => q.access.1
    | none =>
      !decide (inRange lay.stderrBreak lay.IBBreak p ∨ inRange lay.loadVaddrBreak lay.stdinBreak p)

/-- It does. -/
def writes (r : Request) (lay : Layout) (u : Behaviour) (p : Nat) : Bool := mayWrite r lay p && u.dirty p

/-- It reads the page or writes to it. -/
def uses (r : Request) (lay : Layout) (u : Behaviour) (p : Nat) : Bool := u.accessed p || writes r lay u p

/-- A byte of the program or of a region behind it, at the end. -/
def finalByte (k : Kernel) (r : Request) (lay : Layout) (u : Behaviour) (a : Nat) : UInt8 :=
  if writes r lay u (a / pageSize) then u.mem a else image k r lay a

/-- A word of `DuckInfo32_t`, at the end. -/
def finalWord (k : Kernel) (r : Request) (lay : Layout) (u : Behaviour) (off : Nat) : Nat :=
  le (listOf (fun i => finalByte k r lay u (lay.loadVaddrBreak - 60 + off + i)) 4) 0 4

/-- The number of pages from `start` to `stop` with a property. -/
def pageTotal (start stop : Nat) (P : Nat → Bool) : Nat :=
  (List.range ((stop - start) / pageSize)).countP fun i => P (start / pageSize + i)

/-- What `run` reports: 4 KiB for every page that was written, and for every page that was used and is not
    one of the input; sizes as the program says, up to the limits; the counters. -/
def outcome (k : Kernel) (r : Request) (lay : Layout) (u : Behaviour) : RunResult where
  countInst := u.countInst
  clkThread := u.clkThread
  clkRefTsc := u.clkRefTsc
  timeTsc := u.timeTsc
  timeNs := (Timer.clkToNs (.ofNat k.clkFreq) (.ofNat u.clkThread)).toNat
  timeNsRefTsc := (Timer.tscToNs (.ofNat k.tscFreq) (.ofNat u.clkRefTsc)).toNat
  timeNsReal := (Timer.tscToNs (.ofNat k.tscFreq) (.ofNat u.timeTsc)).toNat
  memoryBytes := pageSize * pageTotal loadVaddrStart lay.specialRegionBreak (writes r lay u)
  memoryKb := 4 * pageTotal loadVaddrStart lay.specialRegionBreak (writes r lay u)
  memoryKbAccessed := 4 * (pageTotal loadVaddrStart lay.specialRegionBreak (uses r lay u) -
    pageTotal lay.loadVaddrBreak lay.stdinBreak (uses r lay u))
  trapNum := u.trapNum
  returnCode := u.returnCode
  trapEpc := u.trapEpc
  trapCr2 := u.trapCr2
  stdoutPtr := lay.stdinBreak
  stdoutSize := min r.config.stdoutMaxSize (finalWord k r lay u 20)
  stderrPtr := lay.stdoutBreak
  stderrSize := min r.config.stderrMaxSize (finalWord k r lay u 32)
  OBPtr := lay.IBBreak

/-! ## Counting -/

section Counting

variable {m : Machine} {start stop : Nat}

theorem pageTotal_congr {P Q : Nat → Bool}
    (h : ∀ p, start / pageSize ≤ p → p < start / pageSize + (stop - start) / pageSize → P p = Q p) :
    pageTotal start stop P = pageTotal start stop Q := by
  refine List.countP_congr fun i hi => ?_
  rw [h _ (Nat.le_add_right _ _) (Nat.add_lt_add_left (List.mem_range.mp hi) _)]

theorem pageTotal_le (start stop : Nat) (P : Nat → Bool) : pageTotal start stop P ≤ (stop - start) / pageSize :=
  List.countP_le_length.trans_eq List.length_range

/-- What the loops of `count_…_pages` count. -/
theorem countPages_eq (flag : BitVec 64) (h : Pages m.mapped start stop) :
    countPages flag start stop m = .ok (pageTotal start stop fun p => has (m.p1 p) flag) := by
  have hstart := Nat.mod_eq_zero_of_dvd h.start_dvd
  have hstop := Nat.mod_eq_zero_of_dvd h.stop_dvd
  have hrange : ¬ (stop < start ∨ (start < stop ∧ m.mapped < stop)) := by
    have hle := h.le
    have hmapped := h.le_mapped
    omega
  rw [countPages, if_neg (not_not.mpr hstart), if_neg (not_not.mpr hstop), if_neg hrange]
  rfl

end Counting

/-! ## The flags after a load -/

section Flags

variable {k : Kernel} {m : Machine} {r : Request} {lay : Layout} {p : Nat}

/-- The changes of flags that a load consists of. -/
theorem flag_of_mem {f : BitVec 64 → BitVec 64} {touch : Bool} {start stop : Nat}
    (h : Cmd.flags f touch start stop ∈ loadCmds k r lay) :
    f = markDuck ∨ f = toUserReadonly ∨ f = addExecutable ∨ f = addWritable ∨ f = clearAccessDirty := by
  simp only [loadCmds, List.mem_append] at h
  rcases h with (((h | h) | h) | h) | h
  · obtain ⟨q, -, h⟩ := List.mem_flatMap.mp h
    rw [copySegmentCmds] at h
    split at h
    · cases h
    · simp only [duckCmd, List.mem_cons, List.not_mem_nil, reduceCtorEq, Cmd.flags.injEq, or_false,
        false_or] at h
      exact .inl h.1
  · simp only [inputCmds, duckCmd, readonlyCmd, List.mem_append, List.mem_cons, List.not_mem_nil, reduceCtorEq,
      Cmd.flags.injEq, or_false, false_or] at h
    rcases h with (h | h | h | h) | h
    · exact .inl h.1
    · exact .inr (.inl h.1)
    · exact .inl h.1
    · exact .inr (.inl h.1)
    · split at h
      · cases h
      · simp only [List.mem_cons, List.not_mem_nil, reduceCtorEq, Cmd.flags.injEq, or_false] at h
        exact .inl h.1
  · simp only [imageCmds, duckCmd, readonlyCmd, List.mem_cons, List.not_mem_nil, reduceCtorEq, Cmd.flags.injEq,
      or_false, false_or] at h
    rcases h with h | h
    · exact .inl h.1
    · exact .inr (.inl h.1)
  · simp [stackCmds] at h
  · rw [protectCmds] at h
    rcases List.mem_cons.mp h with h | h
    · cases h
      exact .inl rfl
    rcases List.mem_append.mp h with h | h
    · obtain ⟨q, -, h⟩ := List.mem_flatMap.mp h
      rw [protectSegmentCmds] at h
      rcases List.mem_cons.mp h with h | h
      · cases h
        exact .inr (.inl rfl)
      rcases List.mem_append.mp h with h | h
      · split at h
        · cases List.mem_singleton.mp h
          exact .inr (.inr (.inl rfl))
        · cases h
      · split at h
        · cases List.mem_singleton.mp h
          exact .inr (.inr (.inr (.inl rfl)))
        · cases h
    · cases List.mem_singleton.mp h
      exact .inr (.inr (.inr (.inr rfl)))

/-- None of them takes a page away. -/
theorem present_of_flag {f : BitVec 64 → BitVec 64} {e : BitVec 64}
    (hf : f = markDuck ∨ f = toUserReadonly ∨ f = addExecutable ∨ f = addWritable ∨ f = clearAccessDirty)
    (he : has e ptePresent = true) : has (f e) ptePresent = true := by
  rcases hf with rfl | rfl | rfl | rfl | rfl
  · exact ((has_or (by decide)).trans (Bool.or_false _)).trans he
  · exact has_clear_or (by decide)
  · exact ((has_and_not (by decide)).trans (Bool.and_true _)).trans he
  · exact ((has_or (by decide)).trans (Bool.or_false _)).trans he
  · exact ((has_and_not (by decide)).trans (Bool.and_true _)).trans he

theorem Fits.loaded_present (hfits : Fits m.vaddrBreak r lay) (hp : lay.userPage p) :
    has ((loaded k r lay m).p1 p) ptePresent = true := by
  have hprepared : has ((prepared lay m).p1 p) ptePresent = true := by
    have hreset : has ((reset lay m).p1 p) ptePresent = true := by
      rw [hfits.reset_p1, if_pos hp]
      exact has_clear_or (by decide)
    simp only [prepared, Machine.clearPages]
    split
    · exact ((has_and_not (by decide)).trans (Bool.and_true _)).trans hreset
    · exact hreset
  rw [loaded, foldl_result_p1]
  refine foldl_keeps (P := fun e => has e ptePresent = true) ?_ hprepared
  intro f hf e he
  obtain ⟨c, hc, hflag⟩ := List.mem_filterMap.mp hf
  cases c with
  | write w => cases hflag
  | flags g touch start stop =>
    rw [Cmd.flagAt] at hflag
    split at hflag
    · cases hflag
      exact present_of_flag (flag_of_mem hc) he
    · cases hflag

/-- **The last thing that a load does**: the pages of the user are as if nobody had used them. -/
theorem loaded_unused (hp : lay.userPage p) :
    has ((loaded k r lay m).p1 p) pteDirty = false ∧ has ((loaded k r lay m).p1 p) pteAccessed = false := by
  have hlast : ∃ e, (loaded k r lay m).p1 p = clearAccessDirty e := by
    have hrange : loadVaddrStart / pageSize ≤ p ∧ p < lay.specialRegionBreak / pageSize := hp
    rw [loaded, loadCmds, protectCmds, ← List.cons_append, ← List.append_assoc, List.foldl_append]
    exact ⟨_, if_pos hrange⟩
  obtain ⟨e, he⟩ := hlast
  rw [he]
  exact ⟨(has_and_not (by decide)).trans (Bool.and_false _), (has_and_not (by decide)).trans (Bool.and_false _)⟩

/-- The pages of the user that are writable are those that the program may write. -/
theorem Fits.loaded_userWritable (hfits : Fits m.vaddrBreak r lay) (hp : lay.userPage p) :
    (loaded k r lay m).userWritable p = mayWrite r lay p := by
  have haccess : has ((loaded k r lay m).p1 p) pteWritable = _ :=
    congrArg Prod.fst (hfits.access_loaded (k := k) hp)
  rw [Machine.userWritable, hfits.loaded_present hp, hfits.loaded_user hp, haccess, mayWrite,
    decide_eq_true hp]
  rw [Bool.true_and, Bool.true_and, Bool.true_and]
  cases lastSegment (segments r.buf) p with
  | some q => rfl
  | none =>
    by_cases h : inRange lay.stderrBreak lay.IBBreak p ∨ inRange lay.loadVaddrBreak lay.stdinBreak p
    · simp only [if_pos h, decide_eq_true h, Bool.not_true]
    · simp only [if_neg h, decide_eq_false h, Bool.not_false]

end Flags

/-! ## A run -/

section Run

variable {k : Kernel} {m0 m : Machine} {app? : Option App} {r : Request} {lay : Layout} {u : Behaviour} {p : Nat}

/-- The flags after the program has run: those of the pages that it has used. -/
theorem Fits.ran_flags (hfits : Fits m.vaddrBreak r lay) (hp : lay.userPage p) :
    has ((runUser u (loaded k r lay m)).p1 p) pteDirty = writes r lay u p ∧
      has ((runUser u (loaded k r lay m)).p1 p) pteAccessed = uses r lay u p := by
  obtain ⟨hdirty, haccessed⟩ := loaded_unused (k := k) (r := r) (m := m) hp
  have hwritable := hfits.loaded_userWritable (k := k) hp
  have huser := hfits.loaded_user (k := k) hp
  generalize loaded k r lay m = m1 at hdirty haccessed hwritable huser ⊢
  simp only [runUser, hwritable, huser, Bool.and_true]
  rw [uses, writes]
  obtain ⟨e, he⟩ : ∃ e, (if u.accessed p = true then m1.p1 p ||| pteAccessed else m1.p1 p) = e := ⟨_, rfl⟩
  have hedirty : has e pteDirty = false := by
    rw [← he]
    split
    · exact ((has_or (by decide)).trans (Bool.or_false _)).trans hdirty
    · exact hdirty
  have heaccessed : has e pteAccessed = u.accessed p := by
    rw [← he]
    cases u.accessed p with
    | true => exact (has_or (by decide)).trans (Bool.or_true _)
    | false => exact haccessed
  rw [he]
  cases mayWrite r lay p && u.dirty p with
  | true =>
    rw [if_pos rfl, Bool.or_true]
    exact ⟨(has_or (by decide)).trans (Bool.or_true _), (has_or (by decide)).trans (Bool.or_true _)⟩
  | false => exact ⟨hedirty, heaccessed.trans (Bool.or_false _).symm⟩

/-- The bytes after it has run. -/
theorem Inv.ran_mem (h : Inv m0 (m, app?)) (hfits : Fits m.vaddrBreak r lay) {a : Nat}
    (hstart : loadVaddrStart ≤ a) (hlt : a < lay.specialRegionBreak) :
    (runUser u (loaded k r lay m)).mem a = finalByte k r lay u a := by
  have hp := hfits.userPage_iff.mpr ⟨hstart, hlt⟩
  rw [finalByte, writes, ← hfits.loaded_userWritable (k := k) hp,
    ← hfits.loaded_eq_image (fun a ha ha' => h.prepared_zero hfits ha ha') hstart hlt]
  rfl

theorem mem_pages {start stop : Nat} (h : Pages lay.specialRegionBreak start stop)
    (hstart : loadVaddrStart ≤ start) (hlow : start / pageSize ≤ p)
    (hhigh : p < start / pageSize + (stop - start) / pageSize) : lay.userPage p := by
  obtain ⟨i, rfl⟩ := h.start_dvd
  obtain ⟨j, rfl⟩ := h.stop_dvd
  have hle := h.le
  have hstop := h.le_mapped
  rw [← Nat.mul_sub, Nat.mul_div_cancel_left _ (by decide), Nat.mul_div_cancel_left _ (by decide)] at hhigh
  rw [Nat.mul_div_cancel_left _ (by decide)] at hlow
  rw [Layout.userPage, loadVaddrStart_eq] at *
  rw [pageSize] at *
  omega

/-- What `run` counts and copies on a machine where the program has left its marks and its bytes. -/
theorem run_marked {m1 : Machine} (hfits : Fits m.vaddrBreak r lay) (hmapped : lay.specialRegionBreak ≤ m1.mapped)
    (hflag : ∀ p, lay.userPage p → has ((runUser u m1).p1 p) pteDirty = writes r lay u p ∧
      has ((runUser u m1).p1 p) pteAccessed = uses r lay u p)
    (hmem : ∀ a, loadVaddrStart ≤ a → a < lay.specialRegionBreak →
      (runUser u m1).mem a = finalByte k r lay u a) :
    ∃ m', run k (appOf r lay) u m1 = .ok (m', outcome k r lay u) ∧
      ∀ a, loadVaddrStart ≤ a → a < lay.specialRegionBreak → m'.mem a = finalByte k r lay u a := by
  have hord := hfits.ordered
  have htwo := hfits.two_pages
  have hspecial := hfits.le_4g
  have hall : Pages lay.specialRegionBreak loadVaddrStart lay.specialRegionBreak :=
    ⟨by decide, hfits.dvd_special, by omega, fun _ => Nat.le_refl _⟩
  have hstdin : Pages lay.specialRegionBreak lay.loadVaddrBreak lay.stdinBreak :=
    ⟨hfits.dvd_break, hfits.dvd_stdin, by omega, fun _ => by omega⟩
  have hpages : ∀ {start stop}, Pages lay.specialRegionBreak start stop → Pages m1.mapped start stop := by
    intro start stop hrange
    exact ⟨hrange.start_dvd, hrange.stop_dvd, hrange.le, fun hlt => (hrange.le_mapped hlt).trans hmapped⟩
  -- the machine after the marks: its flags, and what is counted
  obtain ⟨m2, hm2⟩ : ∃ m2, m2 = (runUser u m1).mapPages (loadVaddrStart / pageSize)
    (lay.specialRegionBreak / pageSize) duckByDirty := ⟨_, rfl⟩
  have hmark : setDuckWrittenByDirty loadVaddrStart lay.specialRegionBreak (runUser u m1) = .ok m2 :=
    (forPages_flag_iff duckByDirty).mpr ⟨hpages hall, hm2⟩
  have hmap : m2.mapped = m1.mapped := by
    rw [hm2]
    rfl
  have hmem2 : ∀ a, loadVaddrStart ≤ a → a < lay.specialRegionBreak → m2.mem a = finalByte k r lay u a := by
    rw [hm2]
    exact hmem
  have hflag2 : ∀ p, lay.userPage p → has (m2.p1 p) pteDirty = writes r lay u p ∧
      has (m2.p1 p) pteAccessed = uses r lay u p := by
    intro p hp
    obtain ⟨hdirty, haccessed⟩ := hflag p hp
    have hp1 : m2.p1 p = duckByDirty ((runUser u m1).p1 p) := by
      rw [hm2]
      exact if_pos hp
    rw [hp1, ← hdirty, ← haccessed]
    exact ⟨duckByDirty_has (by decide) (by decide), duckByDirty_has (by decide) (by decide)⟩
  have hcount : ∀ {start stop}, Pages lay.specialRegionBreak start stop → loadVaddrStart ≤ start →
      countPages pteDirty start stop m2 = .ok (pageTotal start stop (writes r lay u)) ∧
        countPages pteAccessed start stop m2 = .ok (pageTotal start stop (uses r lay u)) := by
    intro start stop hrange hstart
    have hrange2 : Pages m2.mapped start stop := hmap ▸ hpages hrange
    rw [countPages_eq pteDirty hrange2, countPages_eq pteAccessed hrange2]
    refine ⟨congrArg Except.ok (pageTotal_congr fun p hlow hhigh => ?_),
      congrArg Except.ok (pageTotal_congr fun p hlow hhigh => ?_)⟩
    · exact (hflag2 p (mem_pages hrange hstart hlow hhigh)).1
    · exact (hflag2 p (mem_pages hrange hstart hlow hhigh)).2
  have hword : ∀ off, off + 4 ≤ 60 → read32 m2 (lay.loadVaddrBreak - 60 + off) = finalWord k r lay u off := by
    intro off hoff
    rw [loadVaddrStart_eq, pageSize] at htwo
    refine congrArg (fun l => le l 0 4) (listOf_congr fun i hi => hmem2 _ ?_ (by omega))
    rw [loadVaddrStart_eq]
    omega
  -- nothing wraps around below 4 GiB
  have hsmall : ∀ P, pageSize * pageTotal loadVaddrStart lay.specialRegionBreak P < 2 ^ 64 := by
    intro P
    have hle := pageTotal_le loadVaddrStart lay.specialRegionBreak P
    rw [pageSize] at *
    omega
  have hsub : pageSize * (pageTotal loadVaddrStart lay.specialRegionBreak (uses r lay u) -
      pageTotal lay.loadVaddrBreak lay.stdinBreak (uses r lay u)) < 2 ^ 64 :=
    Nat.lt_of_le_of_lt (Nat.mul_le_mul_left _ (Nat.sub_le _ _)) (hsmall _)
  have hkb : ∀ n, pageSize * n / 1024 = 4 * n := by
    intro n
    rw [pageSize]
    omega
  have hstdout : read32 m2 ((appOf r lay).duckinfo32Ptr + 20) = _ := hword 20 (by decide)
  have hstderr : read32 m2 ((appOf r lay).duckinfo32Ptr + 32) = _ := hword 32 (by decide)
  refine ⟨m2, ?_, hmem2⟩
  rw [run]
  show setDuckWrittenByDirty loadVaddrStart lay.specialRegionBreak (runUser u m1) >>= _ = _
  rw [bind_of_ok hmark]
  show countPages pteDirty loadVaddrStart lay.specialRegionBreak m2 >>= _ = _
  rw [bind_of_ok (hcount hall (Nat.le_refl _)).1]
  show countPages pteAccessed loadVaddrStart lay.specialRegionBreak m2 >>= _ = _
  rw [bind_of_ok (hcount hall (Nat.le_refl _)).2]
  show countPages pteAccessed lay.loadVaddrBreak lay.stdinBreak m2 >>= _ = _
  rw [bind_of_ok (hcount hstdin (by omega)).2, hstdout, hstderr]
  simp only [u64_of_lt (hsmall _), u64_of_lt hsub, hkb]
  rfl

/-- **Loading and running**, for what a history leaves. -/
theorem run_loaded (h : Inv m0 (m, app?)) (hfits : Fits m.vaddrBreak r lay) (hready : Ready m lay)
    (u : Behaviour) :
    ∃ m', run k (appOf r lay) u (loaded k r lay m) = .ok (m', outcome k r lay u) ∧
      ∀ a, loadVaddrStart ≤ a → a < lay.specialRegionBreak → m'.mem a = finalByte k r lay u a := by
  refine run_marked hfits ?_ (fun p hp => hfits.ran_flags hp) (fun a hstart hlt => h.ran_mem hfits hstart hlt)
  have hmapped : (loaded k r lay m).mapped = m.mapped := loaded_mapped
  rw [hmapped]
  exact Nat.le_trans (Nat.le_add_right _ _) hready.image

end Run

/-- **What a program comes to is its own affair**: after every history of loads and runs, `run` reports the
    `outcome` of the request and of what the program does, and leaves the bytes of `finalByte` in the program
    and the regions behind it. -/
theorem run_outcome (k : Kernel) (m0 m m1 : Machine) (evs : List Event) (last : Option App) (r : Request)
    (app : App) (u : Behaviour) (hinit : AfterInit m0) (hhist : history k m0 evs = .ok (m, last))
    (hload : loadElf32 k m r = .ok (m1, some app)) :
    ∃ lay m2, layout32 m0.vaddrBreak r = some lay ∧ run k app u m1 = .ok (m2, outcome k r lay u) ∧
      ∀ a, loadVaddrStart ≤ a → a < lay.specialRegionBreak → m2.mem a = finalByte k r lay u a := by
  have hinv := inv_history hinit.booted hhist
  obtain ⟨lay, hlay, hready, hm1, happ⟩ := loadElf32_iff.mp hload
  have hbreak : m.vaddrBreak = m0.vaddrBreak := hinv.vaddrBreak
  obtain ⟨m2, hrun, hmem⟩ := run_loaded (k := k) hinv (layout32_fits hlay) hready u
  rw [hm1, happ]
  exact ⟨lay, m2, hbreak ▸ hlay, hrun, hmem⟩

/-- A tiny program that scribbles, after another one: it has one page to write to, the one of the stack, and
    it has used two. -/
theorem run_outcome_tiny : ∃ m0 m m1 last app lay m2 res, AfterInit m0 ∧
    history someKernel m0 [.load (tiny [1] 0 (by decide) (by decide)), .run scribble] = .ok (m, last) ∧
    loadElf32 someKernel m (tiny [] 0 (by decide) (by decide)) = .ok (m1, some app) ∧
    layout32 m0.vaddrBreak (tiny [] 0 (by decide) (by decide)) = some lay ∧
    run someKernel app scribble m1 = .ok (m2, res) ∧ res.memoryKb = 4 ∧ res.memoryKbAccessed = 8 ∧
    m2.mem 0x8048000 = 0 ∧ m2.mem 0x8049000 = 1 := by
  obtain ⟨m0, m, last, hinit, hbreak, hhist, hready⟩ := exists_scribbled
  have hlay : layout32 m0.vaddrBreak (tiny [] 0 (by decide) (by decide)) = some (tinyLayout (0x804a000 + 0)) :=
    layout32_tiny _ _ (Nat.dvd_zero _) (by rw [hbreak]; decide) (by decide)
  have hsame : m.vaddrBreak = m0.vaddrBreak := (inv_history hinit.booted hhist).vaddrBreak
  have hload := loadElf32_of_ready (k := someKernel) (hsame.symm ▸ hlay) (hready _ (by decide))
  obtain ⟨lay, m2, hlay', hrun, hmem⟩ :=
    run_outcome someKernel m0 m _ _ _ _ _ scribble hinit hhist hload
  rw [hlay] at hlay'
  cases hlay'
  refine ⟨m0, m, _, _, _, _, m2, _, hinit, hhist, hload, hlay, hrun, ?_, ?_, ?_, ?_⟩
  · decide +kernel
  · decide +kernel
  · rw [hmem _ (by decide) (by decide)]
    decide +kernel
  · rw [hmem _ (by decide) (by decide)]
    decide +kernel

end JudgeDuck.Elf
