/-
  Sequences of calls that change flags.

  All ten operations go over the pages of a range and replace the entry of each page by a function of it
  (`FlagOp.onEntry`).  These functions keep the address of the frame and `PTE_PRESENT`, and all of them
  but the one of `clear_duck_written_pages` keep `PTE_DUCK_WRITTEN` too; that one drops it from pages
  that it has cleared.  So no sequence of calls changes a translation (`flag_calls_keep_translations`).
-/
import JudgeDuck.Memory.Booted

namespace JudgeDuck.Memory

open JudgeDuck.Lib
open JudgeDuck.DuckCache (pageSize hugePageSize)

/-! ## Calls -/

/-- The operations on the flags of a range of pages. -/
inductive FlagOp where
  | setPageFlagsUserWritable
  | setPageFlagsUserReadonly
  | setPageFlagsUserExecutable
  | setPageFlagsKernel
  | addPageFlagsWritable
  | addPageFlagsExecutable
  | clearAccessAndDirtyFlags
  | setDuckWrittenByDirty
  | setDuckWritten
  | clearDuckWrittenPages
  deriving DecidableEq, Repr

/-- A call, with its range. -/
structure FlagCall where
  op : FlagOp
  start : Nat
  stop : Nat

/-- The call is made. -/
def FlagCall.run (m : Machine) (c : FlagCall) : Except Fault Machine :=
  match c.op with
  | .setPageFlagsUserWritable => Memory.setPageFlagsUserWritable c.start c.stop m
  | .setPageFlagsUserReadonly => Memory.setPageFlagsUserReadonly c.start c.stop m
  | .setPageFlagsUserExecutable => Memory.setPageFlagsUserExecutable c.start c.stop m
  | .setPageFlagsKernel => Memory.setPageFlagsKernel c.start c.stop m
  | .addPageFlagsWritable => Memory.addPageFlagsWritable c.start c.stop m
  | .addPageFlagsExecutable => Memory.addPageFlagsExecutable c.start c.stop m
  | .clearAccessAndDirtyFlags => Memory.clearAccessAndDirtyFlags c.start c.stop m
  | .setDuckWrittenByDirty => Memory.setDuckWrittenByDirty c.start c.stop m
  | .setDuckWritten => Memory.setDuckWritten c.start c.stop m
  | .clearDuckWrittenPages => Memory.clearDuckWrittenPages c.start c.stop m

/-- One call after the other. -/
def runCalls (m : Machine) (calls : List FlagCall) : Except Fault Machine :=
  calls.foldlM FlagCall.run m

/-- A range of whole pages in user space, in the right order. -/
structure FlagCall.Legal (vaddrBreak : Nat) (c : FlagCall) : Prop where
  start_dvd : pageSize ∣ c.start
  stop_dvd : pageSize ∣ c.stop
  le : c.start ≤ c.stop
  kernel_le : kernelBreak ≤ c.start
  le_break : c.stop ≤ vaddrBreak

/-- The page is in the range. -/
def FlagCall.covers (c : FlagCall) (p : Nat) : Prop := c.start ≤ p * pageSize ∧ p * pageSize < c.stop

instance (c : FlagCall) (p : Nat) : Decidable (c.covers p) := inferInstanceAs (Decidable (_ ∧ _))

/-! ## Entries -/

/-- What an operation makes of the entry of a page. -/
def FlagOp.onEntry : FlagOp → BitVec 64 → BitVec 64
  | .setPageFlagsUserWritable => toUserWritable
  | .setPageFlagsUserReadonly => toUserReadonly
  | .setPageFlagsUserExecutable => toUserExecutable
  | .setPageFlagsKernel => toKernel
  | .addPageFlagsWritable => addWritable
  | .addPageFlagsExecutable => addExecutable
  | .clearAccessAndDirtyFlags => clearAccessDirty
  | .setDuckWrittenByDirty => duckByDirty
  | .setDuckWritten => markDuck
  | .clearDuckWrittenPages => fun e => if has e pteDuckWritten = true then clearDirtyDuck e else e

/-- A frame is bits 12 to 51. -/
theorem frame_congr {e e' : BitVec 64} (h : ∀ i, i < 52 → 12 ≤ i → e.getLsbD i = e'.getLsbD i) :
    frame e = frame e' := by
  rw [frame, frame]
  congr 1
  apply Nat.eq_of_testBit_eq
  intro i
  rw [Nat.testBit_mod_two_pow, Nat.testBit_mod_two_pow, Nat.testBit_div_two_pow,
    Nat.testBit_div_two_pow]
  by_cases hi : i < 40
  · have hbit := h (i + 12) (by omega) (by omega)
    rw [BitVec.getLsbD, BitVec.getLsbD] at hbit
    rw [hbit]
  · rw [decide_eq_false hi, Bool.false_and, Bool.false_and]

section

variable {e g : BitVec 64}

/-- Setting the flags anew, with flags outside of the frame. -/
theorem frame_clear_or (hg : ∀ i, i < 52 → 12 ≤ i → g.getLsbD i = false) :
    frame (clearPageFlags e ||| g) = frame e := by
  refine frame_congr ?_
  intro i hi h12
  rw [BitVec.getLsbD_or, getLsbD_clearPageFlags, hg i hi h12, Bool.or_false]
  rw [decide_eq_true (by omega), Bool.true_and]

theorem frame_or (hg : ∀ i, i < 52 → 12 ≤ i → g.getLsbD i = false) : frame (e ||| g) = frame e := by
  refine frame_congr ?_
  intro i hi h12
  rw [BitVec.getLsbD_or, hg i hi h12, Bool.or_false]

theorem frame_and_not (hg : ∀ i, i < 52 → 12 ≤ i → g.getLsbD i = false) :
    frame (e &&& ~~~ g) = frame e := by
  refine frame_congr ?_
  intro i hi h12
  rw [BitVec.getLsbD_and, BitVec.getLsbD_not, hg i hi h12, decide_eq_true (by omega)]
  rw [Bool.not_false, Bool.true_and, Bool.and_true]

end

/-- **Every operation keeps the frame of an entry.** -/
theorem frame_onEntry (op : FlagOp) (e : BitVec 64) : frame (op.onEntry e) = frame e := by
  cases op with
  | setPageFlagsUserWritable | setPageFlagsUserReadonly | setPageFlagsUserExecutable
  | setPageFlagsKernel => exact frame_clear_or (by decide)
  | addPageFlagsWritable | setDuckWritten => exact frame_or (by decide)
  | addPageFlagsExecutable | clearAccessAndDirtyFlags => exact frame_and_not (by decide)
  | setDuckWrittenByDirty =>
    refine frame_or ?_
    cases has e pteDirty <;> decide
  | clearDuckWrittenPages =>
    simp only [FlagOp.onEntry]
    split
    · exact frame_and_not (by decide)
    · rfl

/-- **Every operation keeps `PTE_PRESENT`.** -/
theorem present_onEntry (op : FlagOp) {e : BitVec 64} (h : has e ptePresent = true) :
    has (op.onEntry e) ptePresent = true := by
  cases op with
  | setPageFlagsUserWritable | setPageFlagsUserReadonly | setPageFlagsUserExecutable
  | setPageFlagsKernel => exact (has_clear_or (by decide)).trans (Bool.or_true _)
  | addPageFlagsWritable | setDuckWrittenByDirty | setDuckWritten =>
    exact (has_or (by decide)).trans (Bool.or_eq_true_iff.mpr (.inl h))
  | addPageFlagsExecutable | clearAccessAndDirtyFlags =>
    exact (has_and_not (by decide)).trans ((Bool.and_true _).trans h)
  | clearDuckWrittenPages =>
    simp only [FlagOp.onEntry]
    split
    · exact (has_and_not (by decide)).trans ((Bool.and_true _).trans h)
    · exact h

/-- **All operations but one keep `PTE_DUCK_WRITTEN`.** -/
theorem duck_onEntry {op : FlagOp} (hop : op ≠ .clearDuckWrittenPages) {e : BitVec 64}
    (h : has e pteDuckWritten = true) : has (op.onEntry e) pteDuckWritten = true := by
  cases op with
  | setPageFlagsUserWritable => exact (toUserWritable_duck e).trans h
  | setPageFlagsUserReadonly => exact (toUserReadonly_duck e).trans h
  | setPageFlagsUserExecutable =>
    exact (has_clear_or (by decide)).trans (Bool.or_eq_true_iff.mpr (.inl h))
  | setPageFlagsKernel => exact (toKernel_duck e).trans h
  | addPageFlagsWritable => exact (addWritable_duck e).trans h
  | addPageFlagsExecutable => exact (addExecutable_duck e).trans h
  | clearAccessAndDirtyFlags => exact (clearAccessDirty_duck e).trans h
  | setDuckWrittenByDirty => exact (has_or (by decide)).trans (Bool.or_eq_true_iff.mpr (.inl h))
  | setDuckWritten => exact markDuck_duck e
  | clearDuckWrittenPages => exact absurd rfl hop

/-! ## One call -/

/-- What a call does. -/
structure FlagCall.Effect (c : FlagCall) (m m' : Machine) : Prop where
  vaddrBreak : m'.vaddrBreak = m.vaddrBreak
  mapped : m'.mapped = m.mapped
  p1 : ∀ p, m'.p1 p = if c.covers p then c.op.onEntry (m.p1 p) else m.p1 p
  zeroed : c.op = .clearDuckWrittenPages → ∀ a, c.covers (a / pageSize) →
    has (m.p1 (a / pageSize)) pteDuckWritten = true → m'.mem a = 0

section

variable {c : FlagCall} {m m' : Machine} {p : Nat}

theorem FlagCall.covers_iff (h : Pages m.mapped c.start c.stop) :
    c.covers p ↔ c.start / pageSize ≤ p ∧ p < c.stop / pageSize := by
  have hstart := h.start_dvd
  have hstop := h.stop_dvd
  rw [FlagCall.covers, pageSize] at *
  omega

/-- The calls that only change flags. -/
theorem FlagCall.effect_flag (h : Pages m.mapped c.start c.stop)
    (hop : c.op ≠ .clearDuckWrittenPages)
    (hrun : c.run m = forPages (fun p m => m.flag c.op.onEntry p) c.start c.stop m) :
    ∃ m', c.run m = .ok m' ∧ c.Effect m m' := by
  rw [hrun]
  refine ⟨_, (forPages_flag_iff c.op.onEntry).mpr ⟨h, rfl⟩, rfl, rfl, ?_, fun heq => absurd heq hop⟩
  intro p
  simp only [covers_iff h]
  rfl

/-- Those whose pages go into the record. -/
theorem FlagCall.effect_touch (h : Pages m.mapped c.start c.stop)
    (hop : c.op ≠ .clearDuckWrittenPages)
    (hrun : c.run m = forPages (fun p m => (m.flag c.op.onEntry p).touch p) c.start c.stop m) :
    ∃ m', c.run m = .ok m' ∧ c.Effect m m' := by
  rw [hrun]
  refine ⟨_, (forPages_flag_touch_iff c.op.onEntry).mpr ⟨h, rfl⟩, rfl, rfl, ?_,
    fun heq => absurd heq hop⟩
  intro p
  simp only [covers_iff h]
  rfl

/-- **A call on a legal range returns.** -/
theorem FlagCall.run_effect (h : Pages m.mapped c.start c.stop) :
    ∃ m', c.run m = .ok m' ∧ c.Effect m m' := by
  obtain ⟨op, start, stop⟩ := c
  cases op with
  | setPageFlagsUserWritable | setPageFlagsUserReadonly | setPageFlagsUserExecutable
  | setDuckWritten => exact effect_touch h (fun heq => nomatch heq) rfl
  | setPageFlagsKernel | addPageFlagsWritable | addPageFlagsExecutable | clearAccessAndDirtyFlags
  | setDuckWrittenByDirty => exact effect_flag h (fun heq => nomatch heq) rfl
  | clearDuckWrittenPages =>
    refine ⟨_, clearDuckWrittenPages_iff.mpr ⟨h, rfl⟩, rfl, rfl, ?_, ?_⟩
    · intro p
      simp only [covers_iff h, FlagOp.onEntry, Machine.clearPages, ite_and]
    · intro _ a ha hduck
      exact if_pos ⟨(covers_iff h).mp ha, hduck⟩

/-- What is to hold of one call: the pages outside of its range keep their entries, and a mark is
    dropped only with the bytes of its page. -/
structure FlagCall.Sound (c : FlagCall) (m m' : Machine) : Prop where
  outside : ∀ p, ¬ c.covers p → m'.p1 p = m.p1 p
  duck : ∀ p, has (m.p1 p) pteDuckWritten = true → has (m'.p1 p) pteDuckWritten = false →
    c.op = .clearDuckWrittenPages ∧ c.covers p ∧ ∀ a, a / pageSize = p → m'.mem a = 0

theorem FlagCall.Effect.sound (h : c.Effect m m') : c.Sound m m' := by
  refine ⟨?_, ?_⟩
  · intro p hp
    rw [h.p1, if_neg hp]
  · intro p hbefore hafter
    rw [h.p1] at hafter
    by_cases hp : c.covers p
    · rw [if_pos hp] at hafter
      by_cases hop : c.op = .clearDuckWrittenPages
      · refine ⟨hop, hp, ?_⟩
        rintro a rfl
        exact h.zeroed hop a hp hbefore
      · rw [duck_onEntry hop hbefore] at hafter
        cases hafter
    · rw [if_neg hp, hbefore] at hafter
      cases hafter

/-- Translations are the same: each page has its frame, and is present if it was. -/
structure KeepsTranslations (m m' : Machine) : Prop where
  frame : ∀ p, frame (m'.p1 p) = frame (m.p1 p)
  present : ∀ p, has (m.p1 p) ptePresent = true → has (m'.p1 p) ptePresent = true

theorem FlagCall.Effect.translations (h : c.Effect m m') : KeepsTranslations m m' := by
  refine ⟨?_, ?_⟩
  · intro p
    rw [h.p1]
    split
    · exact frame_onEntry c.op _
    · rfl
  · intro p hp
    rw [h.p1]
    split
    · exact present_onEntry c.op hp
    · exact hp

theorem KeepsTranslations.trans {m1 m2 m3 : Machine} (h : KeepsTranslations m1 m2)
    (h' : KeepsTranslations m2 m3) : KeepsTranslations m1 m3 :=
  ⟨fun p => (h'.frame p).trans (h.frame p), fun p hp => h'.present p (h.present p hp)⟩

end

/-! ## Sequences -/

/-- **Flag operations never change translations**: a sequence of calls on legal ranges returns, every
    page keeps its frame and stays present, and each call of it is sound. -/
theorem flag_calls_keep_translations (m : Machine) (calls : List FlagCall)
    (hbreak : m.vaddrBreak ≤ m.mapped) (hlegal : ∀ c ∈ calls, c.Legal m.vaddrBreak) :
    ∃ m', runCalls m calls = .ok m' ∧ KeepsTranslations m m' ∧
      ∀ before c after, calls = before ++ c :: after →
        ∃ m1 m2, runCalls m before = .ok m1 ∧ c.run m1 = .ok m2 ∧ runCalls m2 after = .ok m' ∧
          c.Sound m1 m2 := by
  induction calls generalizing m with
  | nil =>
    refine ⟨m, rfl, ⟨fun _ => rfl, fun _ hp => hp⟩, ?_⟩
    intro before c after hsplit
    simp at hsplit
  | cons c calls ih =>
    have hc := hlegal c List.mem_cons_self
    obtain ⟨m1, hrun, heffect⟩ := c.run_effect (m := m)
      ⟨hc.start_dvd, hc.stop_dvd, hc.le, fun _ => Nat.le_trans hc.le_break hbreak⟩
    obtain ⟨m', hrest, hkeeps, hsteps⟩ := ih m1
      (by rw [heffect.vaddrBreak, heffect.mapped]; exact hbreak)
      (by rw [heffect.vaddrBreak]; exact fun c' hc' => hlegal c' (List.mem_cons_of_mem _ hc'))
    have hfirst : ∀ l, runCalls m (c :: l) = runCalls m1 l := by
      intro l
      rw [runCalls, List.foldlM_cons, bind_of_ok hrun]
      rfl
    refine ⟨m', (hfirst calls).trans hrest, heffect.translations.trans hkeeps, ?_⟩
    intro before c' after hsplit
    cases before with
    | nil =>
      obtain ⟨rfl, rfl⟩ := List.cons.inj hsplit
      exact ⟨m, m1, rfl, hrun, hrest, heffect.sound⟩
    | cons b before =>
      obtain ⟨rfl, htail⟩ := List.cons.inj hsplit
      obtain ⟨m2, m3, h1, h2, h3, h4⟩ := hsteps before c' after htail
      exact ⟨m2, m3, (hfirst before).trans h1, h2, h3, h4⟩

/-- The first page of user space is given to the user, and cleared. -/
def giveAndClear : List FlagCall :=
  [⟨.setPageFlagsUserWritable, kernelBreak, kernelBreak + pageSize⟩,
    ⟨.clearDuckWrittenPages, kernelBreak, kernelBreak + pageSize⟩]

/-- Pages are given to the user and cleared. -/
theorem flag_calls_keep_translations_clear : ∃ m m', AfterInit m ∧ m.vaddrBreak ≤ m.mapped ∧
    (∀ c ∈ giveAndClear, c.Legal m.vaddrBreak) ∧ runCalls m giveAndClear = .ok m' ∧
    KeepsTranslations m m' := by
  obtain ⟨m, hinit, hbreak, hmapped, -⟩ :=
    exists_afterInit (n := 100) (by decide) (by decide) (by decide) (fun _ => 0)
  have hle : m.vaddrBreak ≤ m.mapped := Nat.le_of_eq hmapped.symm
  have hlegal : ∀ c ∈ giveAndClear, c.Legal m.vaddrBreak := by
    have hroom : kernelBreak + pageSize ≤ m.vaddrBreak := by
      rw [hbreak]
      decide
    intro c hc
    rcases List.mem_pair.mp hc with rfl | rfl
    · exact ⟨by decide, by decide, by decide, Nat.le_refl _, hroom⟩
    · exact ⟨by decide, by decide, by decide, Nat.le_refl _, hroom⟩
  obtain ⟨m', hrun, hkeeps, -⟩ := flag_calls_keep_translations m giveAndClear hle hlegal
  exact ⟨m, m', hinit, hle, hlegal, hrun, hkeeps⟩

end JudgeDuck.Memory
