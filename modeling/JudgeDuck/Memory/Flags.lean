/-
  Memory after boot: the flags of the pages, and their bytes (`lib/memory.cpp`, the part that runs
  again and again).

  The tables map pages to frames one to one (`Mapped.addressSpace`), so memory is a function from virtual
  addresses, and a page has one leaf (`Mapped.walk_getP1`), so `get_P1` is a function from pages.  All
  operations run over the pages from `start` to `end`.  They assert that both are page addresses; an
  `end` below `start`, or above the last table, makes them run into a page fault.

  `touched` is not in the code.  It records the pages that are written, made accessible to the user, or
  marked with `PTE_DUCK_WRITTEN`.

  The lemmas `*_iff` say when an operation returns and give its result in closed form: `mapPages` for
  the flags, `clearPages` for the bytes.
-/
import JudgeDuck.Lib.Arrays
import JudgeDuck.Memory.Boot

namespace JudgeDuck.Memory

open JudgeDuck.Lib
open JudgeDuck.DuckCache (pageSize hugePageSize roundUp)

/-- `vaddr_break`, the end of the tables, the leaf of each page, the bytes, and the record. -/
@[ext]
structure Machine where
  vaddrBreak : Nat
  mapped : Nat
  p1 : Nat → BitVec 64
  mem : Nat → UInt8
  touched : Nat → Bool

/-- The page `p` is one of those that the user may write. -/
def Machine.userWritable (m : Machine) (p : Nat) : Bool :=
  has (m.p1 p) ptePresent && has (m.p1 p) pteUser && has (m.p1 p) pteWritable

/-- `P1 = f(P1)` for the page `p`. -/
def Machine.flag (f : BitVec 64 → BitVec 64) (p : Nat) (m : Machine) : Machine :=
  { m with p1 := Function.update m.p1 p (f (m.p1 p)) }

/-- The page `p` goes into the record. -/
def Machine.touch (p : Nat) (m : Machine) : Machine :=
  { m with touched := Function.update m.touched p true }

/-- `while (start != end) { …; start += PAGE_SIZE; }` after the two assertions. -/
def forPages (turn : Nat → Machine → Machine) (start stop : Nat) (m : Machine) :
    Except Fault Machine :=
  if start % pageSize ≠ 0 then .error .assertion
  else if stop % pageSize ≠ 0 then .error .assertion
  else if stop < start ∨ (start < stop ∧ m.mapped < stop) then .error .bufferOverflow
  else .ok (forUp (fun i => turn (start / pageSize + i)) ((stop - start) / pageSize) m)

/-! ## Flags of one page -/

/-- `clear_page_flags(P1) | PTE_PRESENT | PTE_USER | PTE_WRITABLE | PTE_NO_EXECUTE`. -/
def toUserWritable (e : BitVec 64) : BitVec 64 :=
  clearPageFlags e ||| (ptePresent ||| pteUser ||| pteWritable ||| pteNoExecute)

/-- `clear_page_flags(P1) | PTE_PRESENT | PTE_USER | PTE_NO_EXECUTE`. -/
def toUserReadonly (e : BitVec 64) : BitVec 64 :=
  clearPageFlags e ||| (ptePresent ||| pteUser ||| pteNoExecute)

/-- `clear_page_flags(P1) | PTE_PRESENT | PTE_USER`. -/
def toUserExecutable (e : BitVec 64) : BitVec 64 := clearPageFlags e ||| (ptePresent ||| pteUser)

/-- `clear_page_flags(P1) | PTE_PRESENT | PTE_WRITABLE`. -/
def toKernel (e : BitVec 64) : BitVec 64 := clearPageFlags e ||| (ptePresent ||| pteWritable)

/-- `P1 | PTE_WRITABLE`. -/
def addWritable (e : BitVec 64) : BitVec 64 := e ||| pteWritable

/-- `P1 & ~PTE_NO_EXECUTE`. -/
def addExecutable (e : BitVec 64) : BitVec 64 := e &&& ~~~ pteNoExecute

/-- `P1 & ~(PTE_ACCESSED | PTE_DIRTY)`. -/
def clearAccessDirty (e : BitVec 64) : BitVec 64 := e &&& ~~~ (pteAccessed ||| pteDirty)

/-- `P1 | (has_dirty ? PTE_DUCK_WRITTEN : 0)`. -/
def duckByDirty (e : BitVec 64) : BitVec 64 := e ||| if has e pteDirty then pteDuckWritten else 0#64

/-- `P1 | PTE_DUCK_WRITTEN`. -/
def markDuck (e : BitVec 64) : BitVec 64 := e ||| pteDuckWritten

/-- `P1 & ~(PTE_DIRTY | PTE_DUCK_WRITTEN)`. -/
def clearDirtyDuck (e : BitVec 64) : BitVec 64 := e &&& ~~~ (pteDirty ||| pteDuckWritten)

/-! ## The operations -/

/-- `set_page_flags_user_writable`. -/
def setPageFlagsUserWritable : Nat → Nat → Machine → Except Fault Machine :=
  forPages fun p m => (m.flag toUserWritable p).touch p

/-- `set_page_flags_user_readonly`. -/
def setPageFlagsUserReadonly : Nat → Nat → Machine → Except Fault Machine :=
  forPages fun p m => (m.flag toUserReadonly p).touch p

/-- `set_page_flags_user_executable`. -/
def setPageFlagsUserExecutable : Nat → Nat → Machine → Except Fault Machine :=
  forPages fun p m => (m.flag toUserExecutable p).touch p

/-- `set_page_flags_kernel`. -/
def setPageFlagsKernel : Nat → Nat → Machine → Except Fault Machine :=
  forPages fun p m => m.flag toKernel p

/-- `add_page_flags_writable`. -/
def addPageFlagsWritable : Nat → Nat → Machine → Except Fault Machine :=
  forPages fun p m => m.flag addWritable p

/-- `add_page_flags_executable`. -/
def addPageFlagsExecutable : Nat → Nat → Machine → Except Fault Machine :=
  forPages fun p m => m.flag addExecutable p

/-- `clear_access_and_dirty_flags`. -/
def clearAccessAndDirtyFlags : Nat → Nat → Machine → Except Fault Machine :=
  forPages fun p m => m.flag clearAccessDirty p

/-- `set_duck_written_by_dirty`. -/
def setDuckWrittenByDirty : Nat → Nat → Machine → Except Fault Machine :=
  forPages fun p m => m.flag duckByDirty p

/-- `set_duck_written`. -/
def setDuckWritten : Nat → Nat → Machine → Except Fault Machine :=
  forPages fun p m => (m.flag markDuck p).touch p

/-- A turn of `clear_duck_written_pages`. -/
def Machine.clearPage (p : Nat) (m : Machine) : Machine :=
  if has (m.p1 p) pteDuckWritten then
    Machine.flag clearDirtyDuck p
      { m.touch p with mem := fun a => if a / pageSize = p then 0 else m.mem a }
  else m

/-- `clear_duck_written_pages`. -/
def clearDuckWrittenPages : Nat → Nat → Machine → Except Fault Machine :=
  forPages fun p m => m.clearPage p

/-- `count_dirty_pages` and `count_accessed_pages`, for the two flags. -/
def countPages (flag : BitVec 64) (start stop : Nat) (m : Machine) : Except Fault Nat :=
  if start % pageSize ≠ 0 then .error .assertion
  else if stop % pageSize ≠ 0 then .error .assertion
  else if stop < start ∨ (start < stop ∧ m.mapped < stop) then .error .bufferOverflow
  else .ok ((List.range ((stop - start) / pageSize)).countP
    fun i => has (m.p1 (start / pageSize + i)) flag)

@[inherit_doc countPages]
def countDirtyPages : Nat → Nat → Machine → Except Fault Nat := countPages pteDirty

@[inherit_doc countPages]
def countAccessedPages : Nat → Nat → Machine → Except Fault Nat := countPages pteAccessed

/-- `memcpy` to the address `a`; the kernel writes to every page that is mapped. -/
def Machine.write (a : Nat) (bytes : List UInt8) (m : Machine) : Except Fault Machine :=
  if bytes.length ≠ 0 ∧ m.mapped < a + bytes.length then .error .bufferOverflow
  else .ok { m with
    mem := memcpy m.mem a (fun i => bytes.getD i 0) bytes.length
    touched := fun p => m.touched p ||
      decide (p * pageSize < a + bytes.length ∧ a < (p + 1) * pageSize ∧ bytes.length ≠ 0) }

/-- `can_allocate_virtual_memory(size)`; `vaddr_break` is never below `kernel_break`. -/
def canAllocateVirtualMemory (size : Nat) (m : Machine) : Bool :=
  decide (roundUp size hugePageSize ≤ m.vaddrBreak - kernelBreak)

/-- `allocate_virtual_memory(size)`: the address, or nothing for `NULL`. -/
def allocateVirtualMemory (size : Nat) (m : Machine) : Machine × Option Nat :=
  let size := roundUp size hugePageSize
  if m.vaddrBreak - kernelBreak < size then (m, none)
  else ({ m with vaddrBreak := m.vaddrBreak - size }, some (m.vaddrBreak - size))

/-! ## The flags that an operation sets -/

/-- Flags after `clear_page_flags`: the kernel's bits are kept, the others are those of `g`. -/
theorem has_clear_or {e g : BitVec 64} {k : Nat} (hk : k < 64) :
    has (clearPageFlags e ||| g) (1#64 <<< k) =
      (decide (9 ≤ k ∧ k < 63) && has e (1#64 <<< k) || g.getLsbD k) := by
  rw [has_bit hk, has_bit hk, BitVec.getLsbD_or, getLsbD_clearPageFlags]

theorem has_or {e g : BitVec 64} {k : Nat} (hk : k < 64) :
    has (e ||| g) (1#64 <<< k) = (has e (1#64 <<< k) || g.getLsbD k) := by
  rw [has_bit hk, has_bit hk, BitVec.getLsbD_or]

theorem has_and_not {e g : BitVec 64} {k : Nat} (hk : k < 64) :
    has (e &&& ~~~ g) (1#64 <<< k) = (has e (1#64 <<< k) && !g.getLsbD k) := by
  rw [has_bit hk, has_bit hk, BitVec.getLsbD_and, BitVec.getLsbD_not, decide_eq_true hk,
    Bool.true_and]

section

variable (e : BitVec 64)

@[simp] theorem toUserWritable_user : has (toUserWritable e) pteUser = true := has_clear_or (by decide)

@[simp] theorem toUserWritable_duck :
    has (toUserWritable e) pteDuckWritten = has e pteDuckWritten :=
  (has_clear_or (by decide)).trans (Bool.or_false _)

@[simp] theorem toUserReadonly_user : has (toUserReadonly e) pteUser = true := has_clear_or (by decide)

@[simp] theorem toUserReadonly_writable : has (toUserReadonly e) pteWritable = false :=
  has_clear_or (by decide)

@[simp] theorem toUserReadonly_duck :
    has (toUserReadonly e) pteDuckWritten = has e pteDuckWritten :=
  (has_clear_or (by decide)).trans (Bool.or_false _)

@[simp] theorem toKernel_user : has (toKernel e) pteUser = false := has_clear_or (by decide)

@[simp] theorem toKernel_duck : has (toKernel e) pteDuckWritten = has e pteDuckWritten :=
  (has_clear_or (by decide)).trans (Bool.or_false _)

@[simp] theorem addWritable_user : has (addWritable e) pteUser = has e pteUser :=
  (has_or (by decide)).trans (Bool.or_false _)

@[simp] theorem addWritable_duck : has (addWritable e) pteDuckWritten = has e pteDuckWritten :=
  (has_or (by decide)).trans (Bool.or_false _)

@[simp] theorem addExecutable_user : has (addExecutable e) pteUser = has e pteUser :=
  (has_and_not (by decide)).trans (Bool.and_true _)

@[simp] theorem addExecutable_duck : has (addExecutable e) pteDuckWritten = has e pteDuckWritten :=
  (has_and_not (by decide)).trans (Bool.and_true _)

@[simp] theorem clearAccessDirty_user : has (clearAccessDirty e) pteUser = has e pteUser :=
  (has_and_not (by decide)).trans (Bool.and_true _)

@[simp] theorem clearAccessDirty_duck :
    has (clearAccessDirty e) pteDuckWritten = has e pteDuckWritten :=
  (has_and_not (by decide)).trans (Bool.and_true _)

@[simp] theorem clearDirtyDuck_user : has (clearDirtyDuck e) pteUser = has e pteUser :=
  (has_and_not (by decide)).trans (Bool.and_true _)

@[simp] theorem markDuck_user : has (markDuck e) pteUser = has e pteUser :=
  (has_or (by decide)).trans (Bool.or_false _)

@[simp] theorem duckByDirty_user : has (duckByDirty e) pteUser = has e pteUser := by
  refine (has_or (by decide)).trans ?_
  cases has e pteDirty <;> exact Bool.or_false _

@[simp] theorem markDuck_duck : has (markDuck e) pteDuckWritten = true :=
  (has_or (by decide)).trans (Bool.or_true _)

end

/-! ## Closed forms -/

/-- A range that an operation runs over without a fault. -/
structure Pages (mapped start stop : Nat) : Prop where
  start_dvd : pageSize ∣ start
  stop_dvd : pageSize ∣ stop
  le : start ≤ stop
  le_mapped : start < stop → stop ≤ mapped

/-- **A loop over pages** returns if its range is in the tables, and is a loop over the page
    numbers. -/
theorem forPages_iff {turn : Nat → Machine → Machine} {start stop : Nat} {m m' : Machine} :
    forPages turn start stop m = .ok m' ↔ Pages m.mapped start stop ∧
      m' = forUp (fun i => turn (start / pageSize + i)) ((stop - start) / pageSize) m := by
  rw [forPages]
  by_cases h1 : start % pageSize = 0
  swap
  · rw [if_pos h1]
    exact ⟨(fun h => nomatch h), fun h => absurd (Nat.mod_eq_zero_of_dvd h.1.start_dvd) h1⟩
  by_cases h2 : stop % pageSize = 0
  swap
  · rw [if_neg (fun hne => hne h1), if_pos h2]
    exact ⟨(fun h => nomatch h), fun h => absurd (Nat.mod_eq_zero_of_dvd h.1.stop_dvd) h2⟩
  rw [if_neg (fun hne => hne h1), if_neg (fun hne => hne h2)]
  by_cases h3 : stop < start ∨ (start < stop ∧ m.mapped < stop)
  · rw [if_pos h3]
    refine ⟨(fun h => nomatch h), fun ⟨h, _⟩ => ?_⟩
    have hle := h.le
    have hmapped := h.le_mapped
    omega
  · rw [if_neg h3, Except.ok.injEq]
    constructor
    · rintro rfl
      exact ⟨⟨Nat.dvd_of_mod_eq_zero h1, Nat.dvd_of_mod_eq_zero h2, by omega, by omega⟩, rfl⟩
    · exact fun h => h.2.symm

/-- `f` on the entries of the pages from `lo` to `hi`. -/
def Machine.mapPages (m : Machine) (lo hi : Nat) (f : BitVec 64 → BitVec 64) : Machine :=
  { m with p1 := fun p => if lo ≤ p ∧ p < hi then f (m.p1 p) else m.p1 p }

/-- The pages from `lo` to `hi` in the record. -/
def Machine.touchPages (m : Machine) (lo hi : Nat) : Machine :=
  { m with touched := fun p => m.touched p || decide (lo ≤ p ∧ p < hi) }

/-- Clearing of the marked pages from `lo` to `hi`. -/
def Machine.clearPages (m : Machine) (lo hi : Nat) : Machine :=
  { m with
    p1 := fun p => if (lo ≤ p ∧ p < hi) ∧ has (m.p1 p) pteDuckWritten = true then
      clearDirtyDuck (m.p1 p) else m.p1 p
    mem := fun a => if (lo ≤ a / pageSize ∧ a / pageSize < hi) ∧
      has (m.p1 (a / pageSize)) pteDuckWritten = true then 0 else m.mem a
    touched := fun p => m.touched p ||
      decide ((lo ≤ p ∧ p < hi) ∧ has (m.p1 p) pteDuckWritten = true) }

theorem forUp_flag (f : BitVec 64 → BitVec 64) (lo n : Nat) (m : Machine) :
    forUp (fun i m => m.flag f (lo + i)) n m = m.mapPages lo (lo + n) f := by
  induction n with
  | zero =>
    have hp1 : m.p1 = (m.mapPages lo (lo + 0) f).p1 := by
      funext p
      exact (if_neg (by omega)).symm
    exact congrArg (fun g => { m with p1 := g }) hp1
  | succ n ih =>
    rw [forUp, ih]
    have hp1 : ((m.mapPages lo (lo + n) f).flag f (lo + n)).p1 =
        (m.mapPages lo (lo + (n + 1)) f).p1 := by
      funext p
      simp only [Machine.flag, Machine.mapPages, Function.update_apply]
      by_cases h : p = lo + n
      · rw [if_pos h, if_neg (by omega), if_pos (by omega), h]
      · rw [if_neg h]
        by_cases h' : lo ≤ p ∧ p < lo + n
        · rw [if_pos h', if_pos (by omega)]
        · rw [if_neg h', if_neg (by omega)]
    exact congrArg (fun g => { m with p1 := g }) hp1

theorem forUp_flag_touch (f : BitVec 64 → BitVec 64) (lo n : Nat) (m : Machine) :
    forUp (fun i m => (m.flag f (lo + i)).touch (lo + i)) n m =
      (m.mapPages lo (lo + n) f).touchPages lo (lo + n) := by
  have hflag : forUp (fun i m => (m.flag f (lo + i)).touch (lo + i)) n m =
      { m.mapPages lo (lo + n) f with
        touched := (forUp (fun i m => (m.flag f (lo + i)).touch (lo + i)) n m).touched } := by
    rw [← forUp_flag]
    induction n with
    | zero => rfl
    | succ n ih =>
      rw [forUp, forUp, ih]
      rfl
  have htouched : (forUp (fun i m => (m.flag f (lo + i)).touch (lo + i)) n m).touched =
      fun p => m.touched p || decide (lo ≤ p ∧ p < lo + n) := by
    refine forUp_inv (fun n (u : Machine) => u.touched =
      fun p => m.touched p || decide (lo ≤ p ∧ p < lo + n)) ?_ fun i _ u hu => ?_
    · funext p
      rw [decide_eq_false (by omega), Bool.or_false]
    · funext p
      simp only [Machine.touch, Machine.flag, hu, Function.update_apply]
      by_cases h : p = lo + i
      · rw [if_pos h, decide_eq_true (by omega), Bool.or_true]
      · rw [if_neg h]
        congr 1
        exact decide_eq_decide.mpr (by omega)
  rw [hflag, htouched]
  rfl

theorem forUp_clearPage (lo n : Nat) (m : Machine) :
    forUp (fun i m => m.clearPage (lo + i)) n m = m.clearPages lo (lo + n) := by
  induction n with
  | zero =>
    ext p
    · rfl
    · rfl
    · simp [forUp, Machine.clearPages, show ¬ (lo ≤ p ∧ p < lo) by omega]
    · simp [forUp, Machine.clearPages, show ¬ (lo ≤ p / pageSize ∧ p / pageSize < lo) by omega]
    · simp [forUp, Machine.clearPages, show ¬ (lo ≤ p ∧ p < lo) by omega]
  | succ n ih =>
    rw [forUp, ih]
    have hold : (m.clearPages lo (lo + n)).p1 (lo + n) = m.p1 (lo + n) := if_neg (by omega)
    have hrange : ∀ p, p ≠ lo + n → ((lo ≤ p ∧ p < lo + (n + 1)) ↔ (lo ≤ p ∧ p < lo + n)) := by
      intro p hp
      omega
    rw [Machine.clearPage, hold]
    by_cases hduck : has (m.p1 (lo + n)) pteDuckWritten = true
    · rw [if_pos hduck]
      ext p
      · rfl
      · rfl
      · simp only [Machine.flag, Machine.touch, Machine.clearPages, Function.update_apply]
        by_cases hp : p = lo + n
        · subst hp
          simp [hduck]
        · simp only [if_neg hp, hrange p hp]
      · simp only [Machine.flag, Machine.touch, Machine.clearPages]
        by_cases hp : p / pageSize = lo + n
        · simp [hp, hduck]
        · simp only [if_neg hp, hrange _ hp]
      · simp only [Machine.flag, Machine.touch, Machine.clearPages, Function.update_apply]
        by_cases hp : p = lo + n
        · subst hp
          simp [hduck]
        · simp only [if_neg hp, hrange p hp]
    · rw [if_neg hduck]
      ext p
      · rfl
      · rfl
      · simp only [Machine.clearPages]
        by_cases hp : p = lo + n
        · subst hp
          simp [hduck]
        · simp only [hrange p hp]
      · simp only [Machine.clearPages]
        by_cases hp : p / pageSize = lo + n
        · simp [hp, hduck]
        · simp only [hrange _ hp]
      · simp only [Machine.clearPages]
        by_cases hp : p = lo + n
        · subst hp
          simp [hduck]
        · simp only [hrange p hp]

/-- From the pages of a range to its addresses. -/
theorem Pages.stop_eq {mapped start stop : Nat} (h : Pages mapped start stop) :
    start / pageSize + (stop - start) / pageSize = stop / pageSize := by
  have h1 := h.start_dvd
  have h2 := h.stop_dvd
  have h3 := h.le
  rw [pageSize] at *
  omega

section

variable {start stop : Nat} {m m' : Machine}

theorem forPages_flag_iff (f : BitVec 64 → BitVec 64) :
    forPages (fun p m => m.flag f p) start stop m = .ok m' ↔ Pages m.mapped start stop ∧
      m' = m.mapPages (start / pageSize) (stop / pageSize) f := by
  rw [forPages_iff]
  refine and_congr_right fun h => ?_
  rw [forUp_flag, h.stop_eq]

theorem forPages_flag_touch_iff (f : BitVec 64 → BitVec 64) :
    forPages (fun p m => (m.flag f p).touch p) start stop m = .ok m' ↔ Pages m.mapped start stop ∧
      m' = (m.mapPages (start / pageSize) (stop / pageSize) f).touchPages (start / pageSize)
        (stop / pageSize) := by
  rw [forPages_iff]
  refine and_congr_right fun h => ?_
  rw [forUp_flag_touch, h.stop_eq]

theorem clearDuckWrittenPages_iff :
    clearDuckWrittenPages start stop m = .ok m' ↔ Pages m.mapped start stop ∧
      m' = m.clearPages (start / pageSize) (stop / pageSize) := by
  rw [clearDuckWrittenPages, forPages_iff]
  refine and_congr_right fun h => ?_
  rw [forUp_clearPage, h.stop_eq]

theorem countPages_of_pages (flag : BitVec 64) (h : Pages m.mapped start stop) :
    ∃ n, countPages flag start stop m = .ok n := by
  have hstart := Nat.mod_eq_zero_of_dvd h.start_dvd
  have hstop := Nat.mod_eq_zero_of_dvd h.stop_dvd
  have hrange : ¬ (stop < start ∨ (start < stop ∧ m.mapped < stop)) := by
    rintro (hlt | ⟨hlt, hmapped⟩)
    · exact absurd h.le (Nat.not_le.mpr hlt)
    · exact absurd (h.le_mapped hlt) (Nat.not_le.mpr hmapped)
  exact ⟨_, by rw [countPages, if_neg (not_not.mpr hstart), if_neg (not_not.mpr hstop), if_neg hrange]⟩

end

end JudgeDuck.Memory
