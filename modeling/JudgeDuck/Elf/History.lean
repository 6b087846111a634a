/-
  Histories of loads and runs.

  `load_cases` and `run_spec` say what one call does; everything that holds along a history is proved
  from these two.  `Inv` is the invariant.  The flags protect memory (`Protected`): the user can write
  to the pages of the latest program only, and above `vaddr_break` nothing belongs to the user, except
  perhaps the one page right there, where a program that ended at `vaddr_break` has left its file.
  And pages without a mark are zero (`Clean`).
-/
import JudgeDuck.Elf.Image
import JudgeDuck.Elf.Tiny
import JudgeDuck.Memory.Booted

namespace JudgeDuck.Elf

open JudgeDuck.Lib JudgeDuck.Memory
open JudgeDuck.DuckCache (pageSize hugePageSize roundUp)

/-! ## One call -/

section

variable {k : Kernel} {m m' : Machine} {r : Request} {result : Option App}

/-- Without an `App`, `load_elf32` has done nothing. -/
theorem loadElf32_none (h : loadElf32 k m r = .ok (m', none)) : m' = m := by
  rw [loadElf32] at h
  cases hlay : layout32 m.vaddrBreak r with
  | none =>
    rw [hlay] at h
    cases h
    rfl
  | some lay =>
    rw [hlay] at h
    obtain ⟨m1, -, h⟩ := bind_ok h
    obtain ⟨m2, -, h⟩ := bind_ok h
    obtain ⟨⟨m3, esp, ptr⟩, -, h⟩ := bind_ok h
    obtain ⟨m4, -, h⟩ := bind_ok h
    cases h

/-- **A load** does nothing, or it is an accepted 32-bit one. -/
theorem load_cases (h : load k m r = .ok (m', result)) :
    (m' = m ∧ result = none) ∨ ∃ lay, layout32 m.vaddrBreak r = some lay ∧ Ready m lay ∧
      m' = loaded k r lay m ∧ result = some (appOf r lay) := by
  rw [load] at h
  split at h
  · cases h
    exact .inl ⟨rfl, rfl⟩
  split at h
  · rw [loadElf64, programRegion_elf64] at h
    cases h
    exact .inl ⟨rfl, rfl⟩
  split at h
  · cases result with
    | none => exact .inl ⟨loadElf32_none h, rfl⟩
    | some app =>
      obtain ⟨lay, hlay, hready, hm, happ⟩ := loadElf32_iff.mp h
      exact .inr ⟨lay, hlay, hready, hm, congrArg some happ⟩
  · cases h
    exact .inl ⟨rfl, rfl⟩

end

/-- A file that `load_elf32` accepts goes to `load_elf32`. -/
theorem load_of_layout {k : Kernel} {m : Machine} {r : Request} {lay : Layout} {vaddrBreak : Nat}
    (h : layout32 vaddrBreak r = some lay) : load k m r = loadElf32 k m r := by
  obtain ⟨b, hregion, -⟩ := Option.bind_eq_some_iff.mp h
  obtain ⟨s, hs⟩ := programRegion_spec hregion
  have hheader := hs.header
  simp only [checkHeader, failIf_bind] at hheader
  obtain ⟨hlen, -, -, -, -, hclass, -⟩ := hheader
  have hclass : le r.buf 4 1 = 1 := not_not.mp hclass
  rw [load, if_neg hlen, hclass]
  rfl

/-- A load returns if the tables reach far enough. -/
theorem exists_load (k : Kernel) {m : Machine} {r : Request}
    (hready : ∀ lay, layout32 m.vaddrBreak r = some lay → Ready m lay) :
    ∃ m' result, load k m r = .ok (m', result) := by
  rw [load]
  split
  · exact ⟨_, _, rfl⟩
  split
  · rw [loadElf64, programRegion_elf64]
    exact ⟨_, _, rfl⟩
  split
  · cases hlay : layout32 m.vaddrBreak r with
    | none => exact ⟨_, _, loadElf32_of_none hlay⟩
    | some lay => exact ⟨_, _, loadElf32_of_ready hlay (hready lay hlay)⟩
  · exact ⟨_, _, rfl⟩

/-- **A run**: the program, then the marks. -/
theorem run_spec {k : Kernel} {app : App} {u : Behaviour} {m m' : Machine} {res : RunResult}
    (h : run k app u m = .ok (m', res)) :
    m' = (runUser u m).mapPages (app.startAddr / pageSize) (app.specialRegionBreakAddr / pageSize)
      duckByDirty := by
  obtain ⟨m1, hmark, h⟩ := bind_ok h
  obtain ⟨dirty, -, h⟩ := bind_ok h
  obtain ⟨accessed, -, h⟩ := bind_ok h
  obtain ⟨stdin, -, h⟩ := bind_ok h
  cases h
  exact ((forPages_flag_iff duckByDirty).mp hmark).2

/-- It returns if the pages of the program are in the tables. -/
theorem exists_run (k : Kernel) {app : App} (u : Behaviour) {m : Machine}
    (hspace : Pages m.mapped app.startAddr app.specialRegionBreakAddr)
    (hstdin : Pages m.mapped app.stdinStartAddr app.stdinBreakAddr) :
    ∃ m' res, run k app u m = .ok (m', res) := by
  have hmark : setDuckWrittenByDirty app.startAddr app.specialRegionBreakAddr (runUser u m) = .ok _ :=
    (forPages_flag_iff duckByDirty).mpr ⟨hspace, rfl⟩
  obtain ⟨m', hm'⟩ : ∃ m', m' = (runUser u m).mapPages (app.startAddr / pageSize)
    (app.specialRegionBreakAddr / pageSize) duckByDirty := ⟨_, rfl⟩
  have hmapped : m'.mapped = m.mapped := by
    rw [hm']
    rfl
  rw [← hm'] at hmark
  rw [← hmapped] at hspace hstdin
  obtain ⟨dirty, hdirty⟩ := countPages_of_pages pteDirty hspace
  obtain ⟨accessed, haccessed⟩ := countPages_of_pages pteAccessed hspace
  obtain ⟨stdin, hcount⟩ := countPages_of_pages pteAccessed hstdin
  exact ⟨m', _, (bind_of_ok hmark).trans ((bind_of_ok hdirty).trans ((bind_of_ok haccessed).trans
    (bind_of_ok hcount)))⟩

/-- The pages that `run` looks at are in the tables if the regions are. -/
theorem Fits.pages_run {vaddrBreak mapped : Nat} {r : Request} {lay : Layout}
    (hfits : Fits vaddrBreak r lay) (hmapped : lay.specialRegionBreak ≤ mapped) :
    Pages mapped (appOf r lay).startAddr (appOf r lay).specialRegionBreakAddr ∧
      Pages mapped (appOf r lay).stdinStartAddr (appOf r lay).stdinBreakAddr := by
  obtain ⟨hord0, hord1, hord2, hord3, hord4, hord5⟩ := hfits.ordered
  refine ⟨⟨loadVaddrStart_dvd, hfits.dvd_special, ?_, fun _ => hmapped⟩,
    hfits.dvd_break, hfits.dvd_stdin, hord1, fun _ => ?_⟩
  · show loadVaddrStart ≤ lay.specialRegionBreak
    omega
  · show lay.stdinBreak ≤ mapped
    omega

/-- What `run` says about the outputs: where they are is known from the load, and the sizes are what
    the program says, but not more than it was given. -/
theorem run_outputs {k : Kernel} {app : App} {u : Behaviour} {m m' : Machine} {res : RunResult}
    (h : run k app u m = .ok (m', res)) :
    (res.stdoutPtr = app.duckinfoOrig.stdoutPtr ∧ res.stderrPtr = app.duckinfoOrig.stderrPtr ∧
      res.OBPtr = app.duckinfoOrig.OBPtr) ∧
      res.stdoutSize ≤ app.duckinfoOrig.stdoutLimit ∧
      res.stderrSize ≤ app.duckinfoOrig.stderrLimit := by
  obtain ⟨m1, -, h⟩ := bind_ok h
  obtain ⟨dirty, -, h⟩ := bind_ok h
  obtain ⟨accessed, -, h⟩ := bind_ok h
  obtain ⟨stdin, -, h⟩ := bind_ok h
  cases h
  exact ⟨⟨rfl, rfl, rfl⟩, Nat.min_le_left _ _, Nat.min_le_left _ _⟩

/-- The sizes, exactly. -/
theorem run_sizes {k : Kernel} {app : App} {u : Behaviour} {m m' : Machine} {res : RunResult}
    (h : run k app u m = .ok (m', res)) :
    res.stdoutSize = min app.duckinfoOrig.stdoutLimit (read32 m' (app.duckinfo32Ptr + 20)) ∧
      res.stderrSize = min app.duckinfoOrig.stderrLimit (read32 m' (app.duckinfo32Ptr + 32)) := by
  obtain ⟨m1, -, h⟩ := bind_ok h
  obtain ⟨dirty, -, h⟩ := bind_ok h
  obtain ⟨accessed, -, h⟩ := bind_ok h
  obtain ⟨stdin, -, h⟩ := bind_ok h
  cases h
  exact ⟨rfl, rfl⟩

/-! ## Flags after a run -/

section

variable {u : Behaviour} {m : Machine} {p lo hi : Nat}

/-- The processor sets `PTE_ACCESSED` and `PTE_DIRTY`, and no other flag. -/
theorem runUser_has {i : Nat} (hi : i < 64) (h5 : i ≠ 5) (h6 : i ≠ 6) :
    has ((runUser u m).p1 p) (1#64 <<< i) = has (m.p1 p) (1#64 <<< i) := by
  have haccessed : pteAccessed.getLsbD i = false := by
    rw [pteAccessed, getLsbD_bit (by decide), decide_eq_false h5]
  have hdirty : pteDirty.getLsbD i = false := by
    rw [pteDirty, getLsbD_bit (by decide), decide_eq_false h6]
  simp only [runUser]
  split <;> split <;>
    simp only [has_or hi, BitVec.getLsbD_or, haccessed, hdirty, Bool.or_false]

/-- What the program writes to is dirty. -/
theorem runUser_dirty (h : (m.userWritable p && u.dirty p) = true) :
    has ((runUser u m).p1 p) pteDirty = true := by
  simp only [runUser, h, if_true]
  rw [pteDirty, has_or (by decide), BitVec.getLsbD_or, getLsbD_bit (by decide)]
  simp

/-- Marking dirty pages changes the mark, and no other flag. -/
theorem duckByDirty_has {e : BitVec 64} {i : Nat} (hi : i < 64) (h9 : i ≠ 9) :
    has (duckByDirty e) (1#64 <<< i) = has e (1#64 <<< i) := by
  rw [duckByDirty, has_or hi]
  split
  · rw [pteDuckWritten, getLsbD_bit (by decide), decide_eq_false h9, Bool.or_false]
  · rw [BitVec.getLsbD_zero, Bool.or_false]

theorem duckByDirty_duck (e : BitVec 64) :
    has (duckByDirty e) pteDuckWritten = (has e pteDuckWritten || has e pteDirty) := by
  rw [duckByDirty, pteDuckWritten, has_or (by decide)]
  cases has e pteDirty <;> rfl

end

/-! ## The invariant -/

/-- Pages below `vaddr_break` without a mark are zero. -/
def Clean (m : Machine) : Prop :=
  ∀ a, kernelBreak ≤ a → a < m.vaddrBreak → has (m.p1 (a / pageSize)) pteDuckWritten = false →
    m.mem a = 0

/-- What the flags say after every call on the machine `m0`. -/
structure Protected (m0 : Machine) (s : Machine × Option App) : Prop where
  vaddrBreak : s.1.vaddrBreak = m0.vaddrBreak
  mapped : s.1.mapped = m0.mapped
  low : ∀ p, p < kernelBreak / pageSize → has (s.1.p1 p) pteUser = false
  high : ∀ p, m0.vaddrBreak / pageSize ≤ p → has (s.1.p1 p) pteUser = true →
    p = m0.vaddrBreak / pageSize ∧ m0.vaddrBreak ≤ 2 ^ 32 ∧ m0.vaddrBreak < m0.mapped
  app : ∀ app, s.2 = some app →
    app.startAddr = loadVaddrStart ∧ app.specialRegionBreakAddr ≤ m0.vaddrBreak
  writable : ∀ p, s.1.userWritable p = true → ∃ app, s.2 = some app ∧
    app.startAddr / pageSize ≤ p ∧ p < app.specialRegionBreakAddr / pageSize

/-- What holds after every call on the machine `m0`. -/
structure Inv (m0 : Machine) (s : Machine × Option App) : Prop extends Protected m0 s where
  clean : Clean s.1

theorem Protected.init {m0 : Machine} (h : Booted m0) : Protected m0 (m0, none) := by
  refine ⟨rfl, rfl, fun p _ => h.user p, ?_, fun app happ => (nomatch happ), ?_⟩
  · intro p _ huser
    rw [h.user p] at huser
    cases huser
  · intro p hwritable
    rw [Machine.userWritable, h.user p] at hwritable
    simp at hwritable

theorem Inv.init {m0 : Machine} (h : Booted m0) : Inv m0 (m0, none) := by
  refine ⟨.init h, ?_⟩
  intro a hle hlt hduck
  -- nothing is without a mark
  have hmark := h.duck (a / pageSize) (Nat.div_le_div_right hle) ?_
  · rw [hmark] at hduck
    cases hduck
  · have hdvd := Nat.dvd_trans (by decide : pageSize ∣ hugePageSize) h.dvd_mapped
    exact Nat.div_lt_div_of_lt_of_dvd hdvd (Nat.lt_of_lt_of_le hlt h.le_mapped)

section

variable {k : Kernel} {m0 m m' : Machine} {app? : Option App}

/-- Running keeps the flags that protect. -/
theorem Protected.run {app : App} {u : Behaviour} {res : RunResult} (h : Protected m0 (m, some app))
    (hrun : run k app u m = .ok (m', res)) : Protected m0 (m', some app) := by
  have hm' := run_spec hrun
  have hflag : ∀ p i, i < 64 → i ≠ 5 → i ≠ 6 → i ≠ 9 →
      has (m'.p1 p) (1#64 <<< i) = has (m.p1 p) (1#64 <<< i) := by
    intro p i hi h5 h6 h9
    rw [hm', Machine.mapPages]
    simp only
    split
    · rw [duckByDirty_has hi h9, runUser_has hi h5 h6]
    · exact runUser_has hi h5 h6
  have huser : ∀ p, has (m'.p1 p) pteUser = has (m.p1 p) pteUser := fun p =>
    hflag p 2 (by decide) (by decide) (by decide) (by decide)
  have hwritable : ∀ p, m'.userWritable p = m.userWritable p := by
    intro p
    simp only [Machine.userWritable, ptePresent, pteWritable]
    rw [huser, hflag p 0 (by decide) (by decide) (by decide) (by decide),
      hflag p 1 (by decide) (by decide) (by decide) (by decide)]
  refine ⟨?_, ?_, ?_, ?_, h.app, ?_⟩
  · rw [hm']
    exact h.vaddrBreak
  · rw [hm']
    exact h.mapped
  · intro p hp
    rw [huser]
    exact h.low p hp
  · intro p hp hpuser
    rw [huser] at hpuser
    exact h.high p hp hpuser
  · intro p hp
    rw [hwritable] at hp
    exact h.writable p hp

/-- **Running keeps the invariant**: what is written is dirty, and what is dirty is marked. -/
theorem Inv.run {app : App} {u : Behaviour} {res : RunResult} (h : Inv m0 (m, some app))
    (hrun : run k app u m = .ok (m', res)) : Inv m0 (m', some app) := by
  refine ⟨h.toProtected.run hrun, ?_⟩
  have hm' := run_spec hrun
  have hp1 : ∀ p, m'.p1 p = if app.startAddr / pageSize ≤ p ∧
      p < app.specialRegionBreakAddr / pageSize then duckByDirty ((runUser u m).p1 p)
      else (runUser u m).p1 p := by
    intro p
    rw [hm']
    rfl
  intro a hle hlt hduck
  have hmem : m'.mem a = if (m.userWritable (a / pageSize) && u.dirty (a / pageSize)) = true then
      u.mem a else m.mem a := by
    rw [hm']
    rfl
  by_cases hwrite : (m.userWritable (a / pageSize) && u.dirty (a / pageSize)) = true
  · -- the page is dirty, and it is one of those that are marked
    obtain ⟨app', happ, hrange⟩ := h.writable _ (Bool.and_eq_true_iff.mp hwrite).1
    cases happ
    rw [hp1, if_pos hrange, duckByDirty_duck, runUser_dirty hwrite, Bool.or_true] at hduck
    cases hduck
  · rw [hmem, if_neg hwrite]
    refine h.clean a hle ?_ ?_
    · rw [hm'] at hlt
      exact hlt
    · have hkeep : has ((runUser u m).p1 (a / pageSize)) pteDuckWritten =
          has (m.p1 (a / pageSize)) pteDuckWritten :=
        runUser_has (by decide) (by decide) (by decide)
      rw [hp1] at hduck
      rw [← hkeep]
      split at hduck
      · rw [duckByDirty_duck] at hduck
        exact (Bool.or_eq_false_iff.mp hduck).1
      · exact hduck

/-- Before the copying the pages of the user are zero. -/
theorem Inv.prepared_zero {r : Request} {lay : Layout} {a : Nat} (h : Inv m0 (m, app?))
    (hfits : Fits m.vaddrBreak r lay) (hstart : loadVaddrStart ≤ a)
    (hlt : a < lay.specialRegionBreak) : (prepared lay m).mem a = 0 := by
  rw [hfits.prepared_mem]
  split
  · rfl
  · next hnot =>
    refine h.clean a (Nat.le_trans (by decide) hstart) (Nat.lt_of_lt_of_le hlt hfits.le_vaddrBreak) ?_
    exact Bool.not_eq_true _ |>.mp fun hduck => hnot ⟨hfits.userPage_iff.mpr ⟨hstart, hlt⟩, hduck⟩

section

variable {r : Request} {lay : Layout}

theorem loaded_vaddrBreak : (loaded k r lay m).vaddrBreak = m.vaddrBreak :=
  (foldl_result_vaddrBreak _ _).trans rfl

theorem loaded_mapped : (loaded k r lay m).mapped = m.mapped :=
  (foldl_result_mapped _ _).trans rfl

/-- The flags of a page that is neither the user's nor the one of the file. -/
theorem Fits.loaded_p1_other (hfits : Fits m.vaddrBreak r lay) {p : Nat} (huser : ¬ lay.userPage p)
    (himage : p ≠ lay.imagePage) :
    (loaded k r lay m).p1 p =
      if kernelBreak / pageSize ≤ p ∧ p < m.vaddrBreak / pageSize then toKernel (m.p1 p)
      else m.p1 p := by
  rw [hfits.loaded_p1_of_not_userPage huser, if_neg himage, hfits.prepared_p1_of_not_userPage huser]

/-- **A load leaves the machine clean**: what it has written is on marked pages. -/
theorem Inv.load_clean (h : Inv m0 (m, app?)) (hfits : Fits m.vaddrBreak r lay) :
    Clean (loaded k r lay m) := by
  intro a hle hlt hduck
  rw [loaded_vaddrBreak] at hlt
  by_cases huser : lay.userPage (a / pageSize)
  · obtain ⟨hstart, hspecial⟩ := hfits.userPage_iff.mp huser
    rw [hfits.loaded_mem_of_not_duck huser hduck]
    exact h.prepared_zero hfits hstart hspecial
  by_cases himage : a / pageSize = lay.imagePage
  · rw [hfits.loaded_p1_of_not_userPage huser, if_pos himage, toUserReadonly_duck, markDuck_duck]
      at hduck
    cases hduck
  · rw [hfits.loaded_mem_of_not_userPage huser himage]
    refine h.clean a hle hlt ?_
    rw [hfits.loaded_p1_other huser himage] at hduck
    split at hduck
    · rwa [toKernel_duck] at hduck
    · exact hduck

/-- Loading keeps the flags that protect. -/
theorem Protected.load (h : Protected m0 (m, app?)) (hlay : layout32 m.vaddrBreak r = some lay)
    (hready : Ready m lay) : Protected m0 (loaded k r lay m, some (appOf r lay)) := by
  have hfits := layout32_fits hlay
  have hord := hfits.ordered
  have hbreak : m.vaddrBreak = m0.vaddrBreak := h.vaddrBreak
  have hspecial : lay.specialRegionBreak / pageSize ≤ m0.vaddrBreak / pageSize := by
    rw [← hbreak]
    exact Nat.div_le_div_right hfits.le_vaddrBreak
  have hstart : loadVaddrStart / pageSize ≤ lay.specialRegionBreak / pageSize :=
    Nat.div_le_div_right (by omega)
  have hkernel : kernelBreak / pageSize ≤ loadVaddrStart / pageSize := by decide
  -- all that is needed of the new machine
  have hvaddrBreak : (loaded k r lay m).vaddrBreak = m.vaddrBreak := loaded_vaddrBreak
  have hmapped : (loaded k r lay m).mapped = m.mapped := loaded_mapped
  have hother : ∀ p, ¬ lay.userPage p → p ≠ lay.imagePage → (loaded k r lay m).p1 p =
      if kernelBreak / pageSize ≤ p ∧ p < m.vaddrBreak / pageSize then toKernel (m.p1 p)
      else m.p1 p := fun p huser himage => hfits.loaded_p1_other huser himage
  have hfile : ∀ p, ¬ lay.userPage p → p = lay.imagePage →
      has ((loaded k r lay m).p1 p) pteWritable = false := by
    intro p huser himage
    rw [hfits.loaded_p1_of_not_userPage huser, if_pos himage, toUserReadonly_writable]
  generalize loaded k r lay m = m' at hvaddrBreak hmapped hother hfile ⊢
  refine ⟨?_, ?_, ?_, ?_, ?_, ?_⟩
  · exact hvaddrBreak.trans hbreak
  · exact hmapped.trans h.mapped
  · intro p hp
    have huser : ¬ lay.userPage p := fun hp' =>
      Nat.not_le.mpr hp (Nat.le_trans hkernel hp'.1)
    have himage : p ≠ lay.imagePage := fun hp' =>
      Nat.not_le.mpr hp (hp' ▸ Nat.le_trans hkernel hstart)
    rw [hother p huser himage, if_neg fun hp' => Nat.not_le.mpr hp hp'.1]
    exact h.low p hp
  · intro p hp hpuser
    have huser : ¬ lay.userPage p := fun hp' =>
      Nat.not_le.mpr hp'.2 (Nat.le_trans hspecial hp)
    by_cases himage : p = lay.imagePage
    · -- the last region ends at `vaddr_break`
      have hdvd1 := hfits.dvd_special
      have hdvd2 := hready.dvd
      have h4g := hfits.le_4g
      have hmapped := hready.image
      have hmap : m.mapped = m0.mapped := h.mapped
      rw [himage, Layout.imagePage] at hp ⊢
      rw [hbreak] at hdvd2
      rw [hmap] at hmapped
      rw [pageSize] at *
      omega
    · rw [hother p huser himage, hbreak, if_neg fun hp' => Nat.not_le.mpr hp'.2 hp] at hpuser
      exact h.high p hp hpuser
  · intro app happ
    cases happ
    refine ⟨rfl, ?_⟩
    rw [← hbreak]
    exact hfits.le_vaddrBreak
  · intro p hp
    refine ⟨_, rfl, ?_⟩
    by_contra huser
    have huser : ¬ lay.userPage p := huser
    by_cases himage : p = lay.imagePage
    · rw [Machine.userWritable, hfile p huser himage, Bool.and_false] at hp
      cases hp
    · rw [Machine.userWritable, hother p huser himage] at hp
      split at hp
      · rw [toKernel_user, Bool.and_false] at hp
        cases hp
      · next hrange =>
        -- what is outside of user space was never the user's to write
        obtain ⟨app, happ, h1, h2⟩ := h.writable p hp
        obtain ⟨hs, ht⟩ := h.app app happ
        rw [hs] at h1
        refine hrange ⟨Nat.le_trans hkernel h1, ?_⟩
        rw [hbreak]
        exact Nat.lt_of_lt_of_le h2 (Nat.div_le_div_right ht)

/-- **Loading keeps the invariant**. -/
theorem Inv.load (h : Inv m0 (m, app?)) (hlay : layout32 m.vaddrBreak r = some lay)
    (hready : Ready m lay) : Inv m0 (loaded k r lay m, some (appOf r lay)) := by
  have hprotected := h.toProtected.load (k := k) hlay hready
  have hclean := h.load_clean (k := k) (layout32_fits hlay)
  generalize loaded k r lay m = m' at hprotected hclean ⊢
  exact ⟨hprotected, hclean⟩

end

/-- **Every history keeps the invariant**. -/
theorem Inv.step {s s' : Machine × Option App} {ev : Event} (h : Inv m0 s)
    (hstep : step k s ev = .ok s') : Inv m0 s' := by
  obtain ⟨m, app?⟩ := s
  cases ev with
  | load r =>
    obtain ⟨⟨m', result⟩, hload, hs'⟩ := bind_ok hstep
    cases hs'
    rcases load_cases hload with ⟨rfl, rfl⟩ | ⟨lay, hlay, hready, hm', rfl⟩
    · exact h
    · rw [hm']
      exact h.load hlay hready
  | run u =>
    cases app? with
    | none =>
      cases hstep
      exact h
    | some app =>
      obtain ⟨⟨m', res⟩, hrun, hs'⟩ := bind_ok hstep
      cases hs'
      exact h.run hrun

/-- **The invariant holds after every history.** -/
theorem inv_history {s : Machine × Option App} {evs : List Event} (hboot : Booted m0)
    (hhist : history k m0 evs = .ok s) : Inv m0 s :=
  foldlM_inv (Inv m0) (fun _ _ _ h hstep => h.step hstep) (.init hboot) hhist

end

/-! ## The image at user entry -/

/-- **A clean image, whatever ran before**: after every history of loads and runs, and for every
    request that `load_elf32` accepts then, the bytes up to the end of the last region are those of
    `image`. -/
theorem program_image (k : Kernel) (m0 m m' : Machine) (evs : List Event) (last : Option App)
    (r : Request) (app : App) (hinit : AfterInit m0) (hhist : history k m0 evs = .ok (m, last))
    (hload : loadElf32 k m r = .ok (m', some app)) :
    ∃ lay, layout32 m.vaddrBreak r = some lay ∧ app.specialRegionBreakAddr = lay.specialRegionBreak ∧
      ∀ a, loadVaddrStart ≤ a → a < lay.specialRegionBreak → m'.mem a = image k r lay a := by
  have hinv := inv_history hinit.booted hhist
  obtain ⟨lay, hlay, -, hm', happ⟩ := loadElf32_iff.mp hload
  have hfits := layout32_fits hlay
  refine ⟨lay, hlay, ?_, ?_⟩
  · rw [happ]
    rfl
  · intro a hstart hlt
    rw [hm']
    exact hfits.loaded_eq_image (fun a h1 h2 => hinv.prepared_zero hfits h1 h2) hstart hlt

/-- A kernel for examples. -/
def someKernel : Kernel := ⟨1, 1, fun m _ _ => .ok (m, none)⟩

/-- A load moves neither end. -/
theorem loadElf32_ends {k : Kernel} {m m' : Machine} {r : Request} {app : App}
    (h : loadElf32 k m r = .ok (m', some app)) :
    m'.vaddrBreak = m.vaddrBreak ∧ m'.mapped = m.mapped := by
  obtain ⟨lay, -, -, hm', -⟩ := loadElf32_iff.mp h
  rw [hm']
  exact ⟨loaded_vaddrBreak, loaded_mapped⟩

/-- A history of one load. -/
theorem history_load {k : Kernel} {m m' : Machine} {r : Request} {app : App}
    (hload : loadElf32 k m r = .ok (m', some app)) :
    history k m [.load r] = .ok (m', some app) := by
  obtain ⟨lay, hlay, -⟩ := loadElf32_iff.mp hload
  rw [← load_of_layout hlay] at hload
  have hstep : step k (m, none) (.load r) = .ok (m', some app) := bind_of_ok hload
  rw [history, List.foldlM_cons, bind_of_ok hstep]
  rfl

/-- A history of one load and one run: whatever the program does, `run` returns. -/
theorem exists_history_run {k : Kernel} {m : Machine} {r : Request} {lay : Layout} (u : Behaviour)
    (hlay : layout32 m.vaddrBreak r = some lay) (hready : Ready m lay) :
    ∃ m' last, history k m [.load r, .run u] = .ok (m', last) := by
  have hmapped : (loaded k r lay m).mapped = m.mapped := loaded_mapped
  have hle : lay.specialRegionBreak ≤ (loaded k r lay m).mapped := by
    rw [hmapped]
    exact Nat.le_trans (Nat.le_add_right _ _) hready.image
  obtain ⟨hspace, hstdin⟩ := (layout32_fits hlay).pages_run hle
  obtain ⟨m', res, hrun⟩ := exists_run k u hspace hstdin
  have hload : step k (m, none) (.load r) = .ok (loaded k r lay m, some (appOf r lay)) :=
    bind_of_ok ((load_of_layout hlay).trans (loadElf32_of_ready hlay hready))
  have hstep : step k (loaded k r lay m, some (appOf r lay)) (.run u) = .ok (m', some (appOf r lay)) :=
    bind_of_ok hrun
  refine ⟨m', some (appOf r lay), ?_⟩
  rw [history, List.foldlM_cons, bind_of_ok hload, List.foldlM_cons, bind_of_ok hstep]
  rfl

/-- A tiny program is accepted when there is room for it. -/
theorem loadElf32_tiny (k : Kernel) {m : Machine} (tail : List UInt8) {size : Nat}
    (htail : tail.length < 2 ^ 31) (hsize : size < 2 ^ 64) (hdvd : pageSize ∣ size)
    (h4g : 0x804a000 + size ≤ 2 ^ 32) (hbreak : pageSize ∣ m.vaddrBreak)
    (hle : 0x804a000 + size ≤ m.vaddrBreak) (hmapped : m.vaddrBreak ≤ m.mapped)
    (himage : 0x804a000 + size + pageSize ≤ m.mapped) :
    ∃ m' app, loadElf32 k m (tiny tail size htail hsize) = .ok (m', some app) ∧
      app.specialRegionBreakAddr = 0x804a000 + size :=
  ⟨_, _, loadElf32_of_ready (layout32_tiny htail hsize hdvd hle h4g)
    ⟨hbreak, fun _ => hmapped, himage⟩, rfl⟩

/-- A machine with room for a tiny program. -/
theorem exists_tiny : ∃ m m' app, AfterInit m ∧ (∀ p, m.touched p = false) ∧
    0x804a000 < m.vaddrBreak ∧ app.specialRegionBreakAddr = 0x804a000 ∧
    loadElf32 someKernel m (tiny [] 0 (by decide) (by decide)) = .ok (m', some app) := by
  obtain ⟨m, hinit, hbreak, hmapped, -, hrecord⟩ :=
    exists_afterInit (n := 100) (by decide) (by decide) (by decide) (fun _ => 0)
  have hroom : pageSize ∣ m.vaddrBreak ∧ 0x804a000 + 0 < m.vaddrBreak ∧
      0x804a000 + 0 + pageSize ≤ m.vaddrBreak := by
    rw [hbreak]
    decide
  obtain ⟨m', app, hload, hspecial⟩ := loadElf32_tiny someKernel (m := m) [] (by decide) (by decide)
    (Nat.dvd_zero _) (by decide) hroom.1 (Nat.le_of_lt hroom.2.1) (Nat.le_of_eq hmapped.symm)
    (by rw [hmapped]; exact hroom.2.2)
  exact ⟨m, m', app, hinit, hrecord, hroom.2.1, hspecial, hload⟩

/-- A program that writes wherever it may. -/
def scribble : Behaviour where
  accessed _ := true
  dirty _ := true
  mem _ := 1
  countInst := 0
  clkThread := 0
  clkRefTsc := 0
  timeTsc := 0
  trapNum := 255
  returnCode := 0
  trapEpc := 0
  trapCr2 := 0

/-- A machine on which a program has written wherever it may. -/
theorem exists_scribbled : ∃ m0 m last, AfterInit m0 ∧ m0.vaddrBreak = 214 * 2 ^ 20 ∧
    history someKernel m0 [.load (tiny [1] 0 (by decide) (by decide)), .run scribble] = .ok (m, last) ∧
    ∀ lay : Layout, lay.specialRegionBreak + pageSize ≤ 214 * 2 ^ 20 → Ready m lay := by
  obtain ⟨m0, hinit, hbreak, hmapped, -, -⟩ :=
    exists_afterInit (n := 100) (by decide) (by decide) (by decide) (fun _ => 0)
  have hbreak : m0.vaddrBreak = 214 * 2 ^ 20 := hbreak.trans (by decide)
  have hready : ∀ lay : Layout, lay.specialRegionBreak + pageSize ≤ 214 * 2 ^ 20 → Ready m0 lay := by
    intro lay hle
    refine ⟨?_, fun _ => Nat.le_of_eq hmapped.symm, ?_⟩
    · rw [hbreak]
      decide
    · rw [hmapped, hbreak]
      exact hle
  have hlay : layout32 m0.vaddrBreak (tiny [1] 0 (by decide) (by decide)) = some (tinyLayout (0x804a000 + 0)) :=
    layout32_tiny _ _ (Nat.dvd_zero _) (by rw [hbreak]; decide) (by decide)
  obtain ⟨m, last, hhist⟩ := exists_history_run (k := someKernel) scribble hlay (hready _ (by decide))
  have hinv := inv_history hinit.booted hhist
  exact ⟨m0, m, last, hinit, hbreak, hhist, fun lay hle => (hready lay hle).of_ends hinv.vaddrBreak hinv.mapped⟩

/-- A looping program after one that has written wherever it may: the code is that of the file, the stack is
    empty below its contents, and the input is behind it. -/
theorem program_image_looping : ∃ m0 m m' last app, AfterInit m0 ∧
    history someKernel m0 [.load (tiny [1] 0 (by decide) (by decide)), .run scribble] = .ok (m, last) ∧
    loadElf32 someKernel m looping = .ok (m', some app) ∧ app.specialRegionBreakAddr = 0x804b000 ∧
    m'.mem 0x8048054 = 0xeb ∧ m'.mem 0x8049000 = 0 ∧ m'.mem 0x804a000 = 0x68 := by
  obtain ⟨m0, m, last, hinit, hbreak, hhist, hready⟩ := exists_scribbled
  have hlooping : layout32 m.vaddrBreak looping =
      some ⟨0x804a000, 0x804b000, 0x804b000, 0x804b000, 0x804b000, 0x804b000⟩ := by
    rw [show m.vaddrBreak = m0.vaddrBreak from (inv_history hinit.booted hhist).vaddrBreak, hbreak]
    exact layout32_looping
  have hload := loadElf32_of_ready (k := someKernel) hlooping (hready _ (by decide))
  obtain ⟨lay, hlay, hspecial, hbytes⟩ := program_image someKernel m0 m _ _ _ _ _ hinit hhist hload
  rw [hlooping] at hlay
  cases hlay
  refine ⟨m0, m, _, _, _, hinit, hhist, hload, hspecial, ?_, ?_, ?_⟩
  · rw [hbytes _ (by decide) (by decide)]
    decide +kernel
  · rw [hbytes _ (by decide) (by decide)]
    decide +kernel
  · rw [hbytes _ (by decide) (by decide)]
    decide +kernel

end JudgeDuck.Elf
