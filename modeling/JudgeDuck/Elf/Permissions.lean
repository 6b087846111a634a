/-
  What a program may do with a page when it starts.

  The flags are the result of many updates of ranges that overlap: the whole space, the range of the
  user, the inputs, and then each segment, which takes everything back before it adds.  Only two flags
  decide what a program may do with a page of its own, and they can be followed apart from the others
  (`access`).  A segment overwrites both of them on its pages, whatever came before, so in the end the
  last segment of a page decides (`access_protect`), and without one it is the inputs (`access_inputs`).
-/
import JudgeDuck.Elf.History

namespace JudgeDuck.Elf

open JudgeDuck.Lib JudgeDuck.Memory
open JudgeDuck.DuckCache (pageSize hugePageSize roundUp)

/-! ## Two flags -/

/-- `PTE_WRITABLE` and `PTE_NO_EXECUTE`. -/
def access (e : BitVec 64) : Bool × Bool := (has e pteWritable, has e pteNoExecute)

section

variable (e : BitVec 64)

theorem access_toUserWritable : access (toUserWritable e) = (true, true) :=
  Prod.ext (has_clear_or (by decide)) (has_clear_or (by decide))

theorem access_toUserReadonly : access (toUserReadonly e) = (false, true) :=
  Prod.ext (has_clear_or (by decide)) (has_clear_or (by decide))

theorem access_addWritable : access (addWritable e) = (true, (access e).2) :=
  Prod.ext ((has_or (by decide)).trans (Bool.or_true _))
    ((has_or (by decide)).trans (Bool.or_false _))

theorem access_addExecutable : access (addExecutable e) = ((access e).1, false) :=
  Prod.ext ((has_and_not (by decide)).trans (Bool.and_true _))
    ((has_and_not (by decide)).trans (Bool.and_false _))

theorem access_markDuck : access (markDuck e) = access e :=
  Prod.ext ((has_or (by decide)).trans (Bool.or_false _))
    ((has_or (by decide)).trans (Bool.or_false _))

theorem access_clearAccessDirty : access (clearAccessDirty e) = access e :=
  Prod.ext ((has_and_not (by decide)).trans (Bool.and_true _))
    ((has_and_not (by decide)).trans (Bool.and_true _))

theorem access_clearDirtyDuck : access (clearDirtyDuck e) = access e :=
  Prod.ext ((has_and_not (by decide)).trans (Bool.and_true _))
    ((has_and_not (by decide)).trans (Bool.and_true _))

end

/-! ## One command -/

/-- The page `p` is in a range. -/
def inRange (start stop p : Nat) : Prop := start / pageSize ≤ p ∧ p < stop / pageSize

instance (start stop p : Nat) : Decidable (inRange start stop p) :=
  inferInstanceAs (Decidable (_ ∧ _))

/-- The two flags of the page `p`. -/
def accessAt (m : Machine) (p : Nat) : Bool × Bool := access (m.p1 p)

section

variable {m : Machine} {p start stop : Nat}

theorem accessAt_flags (f : BitVec 64 → BitVec 64) (touch : Bool) :
    accessAt ((Cmd.flags f touch start stop).result m) p =
      if inRange start stop p then access (f (m.p1 p)) else accessAt m p := by
  have hp1 : ((Cmd.flags f touch start stop).result m).p1 p =
      if inRange start stop p then f (m.p1 p) else m.p1 p := by
    cases touch <;> rfl
  rw [accessAt, hp1, apply_ite access]
  rfl

theorem accessAt_write (w : Write UInt8) : accessAt ((Cmd.write w).result m) p = accessAt m p := rfl

theorem accessAt_duck : accessAt ((duckCmd start stop).result m) p = accessAt m p := by
  rw [duckCmd, accessAt_flags, access_markDuck]
  exact ite_self _

theorem accessAt_readonly :
    accessAt ((readonlyCmd start stop).result m) p =
      if inRange start stop p then (false, true) else accessAt m p := by
  rw [readonlyCmd, accessAt_flags, access_toUserReadonly]

theorem accessAt_addWritable :
    accessAt ((Cmd.flags addWritable false start stop).result m) p =
      if inRange start stop p then (true, (accessAt m p).2) else accessAt m p := by
  rw [accessAt_flags, access_addWritable]
  rfl

theorem accessAt_addExecutable :
    accessAt ((Cmd.flags addExecutable false start stop).result m) p =
      if inRange start stop p then ((accessAt m p).1, false) else accessAt m p := by
  rw [accessAt_flags, access_addExecutable]
  rfl

end

/-! ## Segments -/

/-- A segment has the page `p`: `[round_down(p_vaddr), round_up(p_vaddr + p_memsz))`. -/
def Phdr.hasPage (q : Phdr) (p : Nat) : Bool := decide (inRange q.firstPage (q.endPage q.memsz) p)

/-- The last header with `PT_LOAD` that has the page `p`. -/
def lastSegment (segs : List Phdr) (p : Nat) : Option Phdr := (segs.filter (·.hasPage p)).getLast?

/-- What the flags of a segment say. -/
def Phdr.access (q : Phdr) : Bool × Bool := (decide (q.flags &&& 2 ≠ 0), decide (q.flags &&& 1 = 0))

theorem lastSegment_snoc (segs : List Phdr) (q : Phdr) (p : Nat) :
    lastSegment (segs ++ [q]) p = if q.hasPage p then some q else lastSegment segs p := by
  rw [lastSegment, List.filter_append]
  by_cases h : q.hasPage p = true
  · rw [List.filter_singleton, if_pos h, h, cond_true, List.getLast?_append, List.getLast?_singleton]
    rfl
  · rw [List.filter_singleton, if_neg h, Bool.not_eq_true _ |>.mp h, cond_false, List.append_nil]
    rfl

theorem mem_of_lastSegment {segs : List Phdr} {q : Phdr} {p : Nat}
    (h : lastSegment segs p = some q) : q ∈ segs ∧ q.hasPage p = true :=
  List.mem_filter.mp (List.mem_of_getLast? h)

section

variable {m : Machine} {p : Nat}

/-- One segment: both flags are new on its pages, and the others keep theirs. -/
theorem access_protectSegment (q : Phdr) :
    accessAt ((protectSegmentCmds q).foldl Cmd.result m) p =
      if q.hasPage p then q.access else accessAt m p := by
  rw [protectSegmentCmds, List.foldl_cons, List.foldl_append]
  by_cases hp : inRange q.firstPage (q.endPage q.memsz) p
  · have hhas : q.hasPage p = true := decide_eq_true hp
    rw [if_pos hhas, Phdr.access]
    -- `PF_X`, then `PF_W`
    by_cases hX : q.flags &&& 1 = 0
    · by_cases hW : q.flags &&& 2 = 0
      · simp only [hX, hW, ne_eq, not_true_eq_false, if_false, List.foldl_nil, accessAt_readonly,
          if_pos hp, decide_true, decide_false]
      · simp only [hX, hW, ne_eq, not_true_eq_false, not_false_eq_true, if_true, if_false,
          List.foldl_nil, List.foldl_cons, accessAt_addWritable, accessAt_readonly, if_pos hp,
          decide_true]
    · by_cases hW : q.flags &&& 2 = 0
      · simp only [hX, hW, ne_eq, not_true_eq_false, not_false_eq_true, if_true, if_false,
          List.foldl_nil, List.foldl_cons, accessAt_addExecutable, accessAt_readonly, if_pos hp,
          decide_false]
      · simp only [hX, hW, ne_eq, not_false_eq_true, if_true, List.foldl_nil, List.foldl_cons,
          accessAt_addWritable, accessAt_addExecutable, if_pos hp, decide_true, decide_false]
  · have hhas : ¬ q.hasPage p = true := fun h => hp (of_decide_eq_true h)
    rw [if_neg hhas]
    split_ifs <;>
      simp only [List.foldl_nil, List.foldl_cons, accessAt_addWritable, accessAt_addExecutable,
        accessAt_readonly, if_neg hp]

/-- **All segments**: the last one with the page decides. -/
theorem access_protect (segs : List Phdr) :
    accessAt ((segs.flatMap protectSegmentCmds).foldl Cmd.result m) p =
      match lastSegment segs p with
      | some q => q.access
      | none => accessAt m p := by
  -- from the last segment backwards
  induction segs using List.reverseRecOn with
  | nil => rfl
  | append_singleton segs q ih =>
    rw [List.flatMap_append, List.foldl_append, List.flatMap_singleton, access_protectSegment,
      lastSegment_snoc, ih]
    by_cases h : q.hasPage p = true
    · rw [if_pos h, if_pos h]
    · rw [if_neg h, if_neg h]

theorem access_copy (buf : List UInt8) (segs : List Phdr) :
    accessAt ((segs.flatMap (copySegmentCmds buf)).foldl Cmd.result m) p = accessAt m p := by
  induction segs generalizing m with
  | nil => rfl
  | cons q segs ih =>
    rw [List.flatMap_cons, List.foldl_append, ih, copySegmentCmds]
    by_cases h : q.filesz = 0
    · rw [if_pos h]
      rfl
    · rw [if_neg h, List.foldl_cons, List.foldl_cons, List.foldl_nil, accessAt_duck, accessAt_write]

/-- The inputs: two regions that can be read only. -/
theorem access_inputs (r : Request) (lay : Layout) :
    accessAt ((inputCmds r lay).foldl Cmd.result m) p =
      if inRange lay.stderrBreak lay.IBBreak p ∨ inRange lay.loadVaddrBreak lay.stdinBreak p
      then (false, true) else accessAt m p := by
  have hOB : ∀ m : Machine, accessAt (List.foldl Cmd.result m
      (if r.config.OBNeedClear then []
        else [duckCmd lay.IBBreak (u64 (lay.IBBreak + roundUp r.config.OB.length pageSize)),
          .write ⟨lay.IBBreak, r.config.OB⟩])) p = accessAt m p := by
    intro m
    cases r.config.OBNeedClear with
    | true => rfl
    | false => exact (accessAt_write _).trans accessAt_duck
  rw [inputCmds, List.foldl_append, hOB]
  simp only [List.foldl_cons, List.foldl_nil, accessAt_readonly, accessAt_duck, accessAt_write]
  by_cases hIB : inRange lay.stderrBreak lay.IBBreak p
  · rw [if_pos hIB, if_pos (.inl hIB)]
  · rw [if_neg hIB]
    refine if_congr ?_ rfl rfl
    rw [or_iff_right hIB]

end

/-! ## After a load -/

section

variable {k : Kernel} {m : Machine} {r : Request} {lay : Layout} {p : Nat}

theorem Fits.access_prepared (hfits : Fits m.vaddrBreak r lay) (hp : lay.userPage p) :
    accessAt (prepared lay m) p = (true, true) := by
  have hreset : access ((reset lay m).p1 p) = (true, true) := by
    rw [hfits.reset_p1, if_pos hp, access_toUserWritable]
  simp only [accessAt, prepared, Machine.clearPages]
  split
  · rw [access_clearDirtyDuck, hreset]
  · exact hreset

/-- **A page of the user**: the last segment, or else the inputs. -/
theorem Fits.access_loaded (hfits : Fits m.vaddrBreak r lay) (hp : lay.userPage p) :
    accessAt (loaded k r lay m) p =
      match lastSegment (segments r.buf) p with
      | some q => q.access
      | none =>
        if inRange lay.stderrBreak lay.IBBreak p ∨ inRange lay.loadVaddrBreak lay.stdinBreak p
        then (false, true) else (true, true) := by
  have hne : ¬ inRange lay.specialRegionBreak (u64 (lay.specialRegionBreak + pageSize)) p :=
    fun h => Nat.not_le.mpr hp.2 h.1
  have hclear : ∀ m : Machine, accessAt (List.foldl Cmd.result m
      [.flags clearAccessDirty false loadVaddrStart lay.specialRegionBreak]) p = accessAt m p := by
    intro m
    rw [List.foldl_cons, List.foldl_nil, accessAt_flags, access_clearAccessDirty]
    exact ite_self _
  rw [loaded, loadCmds, protectCmds]
  simp only [List.foldl_append, List.foldl_cons]
  rw [← List.foldl_cons, hclear, access_protect]
  simp only [accessAt_duck, stackCmds, imageCmds, List.foldl_cons, List.foldl_nil, accessAt_write,
    accessAt_readonly, if_neg hne, access_inputs, access_copy, hfits.access_prepared hp]

/-- The pages of a segment are pages of the user, below the stack. -/
theorem Fits.hasPage_lt (hfits : Fits m.vaddrBreak r lay) {q : Phdr} (hq : q ∈ segments r.buf)
    (hp : q.hasPage p = true) : lay.userPage p ∧ p < lay.loadVaddrBreak / pageSize := by
  obtain ⟨h1, h2⟩ := of_decide_eq_true hp
  obtain ⟨-, hstart, -, -, hend⟩ := (hfits.segment q hq).pages hfits (Nat.le_refl _)
  have hord := hfits.ordered
  have hlt : p < lay.loadVaddrBreak / pageSize :=
    Nat.lt_of_lt_of_le h2 (Nat.div_le_div_right (by omega))
  refine ⟨⟨Nat.le_trans (Nat.div_le_div_right hstart) h1, ?_⟩, hlt⟩
  exact Nat.lt_of_lt_of_le hlt (Nat.div_le_div_right (by omega))

theorem Fits.access_image (hfits : Fits m.vaddrBreak r lay) :
    accessAt (loaded k r lay m) lay.imagePage = (false, true) := by
  have hnot : ¬ lay.userPage lay.imagePage := fun h => Nat.lt_irrefl _ h.2
  rw [accessAt, hfits.loaded_p1_of_not_userPage hnot, if_pos rfl, access_toUserReadonly]

end

/-- What a program may do with the page `p` when `load_elf32` has accepted. -/
structure Permissions (r : Request) (lay : Layout) (m : Machine) (p : Nat) : Prop where
  user : has (m.p1 p) pteUser = true ↔
    loadVaddrStart ≤ p * pageSize ∧ p * pageSize < lay.specialRegionBreak + pageSize
  writable : has (m.p1 p) pteUser = true → (has (m.p1 p) pteWritable = true ↔
    ¬ inRange lay.loadVaddrBreak lay.stdinBreak p ∧ ¬ inRange lay.stderrBreak lay.IBBreak p ∧
      ¬ inRange lay.specialRegionBreak (lay.specialRegionBreak + pageSize) p ∧
      (lastSegment (segments r.buf) p = none ∨
        ∃ q, lastSegment (segments r.buf) p = some q ∧ q.flags &&& 2 ≠ 0))
  executable : has (m.p1 p) pteUser = true → (has (m.p1 p) pteNoExecute = false ↔
    ∃ q, lastSegment (segments r.buf) p = some q ∧ q.flags &&& 1 ≠ 0)

section

variable {k : Kernel} {m : Machine} {r : Request} {lay : Layout} {p : Nat}

/-- **A page of the program** has the access that its last segment or region asks for. -/
theorem Fits.permissions_user (hfits : Fits m.vaddrBreak r lay) (hp : lay.userPage p) :
    Permissions r lay (loaded k r lay m) p := by
  have huser := hfits.loaded_user (k := k) hp
  have hrange : loadVaddrStart ≤ p * pageSize ∧
      p * pageSize < lay.specialRegionBreak + pageSize := by
    have h := hfits.userPage_iff (a := p * pageSize)
    rw [Nat.mul_div_cancel _ (by decide)] at h
    exact ⟨(h.mp hp).1, Nat.lt_add_right _ (h.mp hp).2⟩
  have himage : ¬ inRange lay.specialRegionBreak (lay.specialRegionBreak + pageSize) p :=
    fun h => Nat.not_le.mpr hp.2 h.1
  have haccess := hfits.access_loaded (k := k) hp
  obtain ⟨hwritable, hnx⟩ := Prod.ext_iff.mp haccess
  simp only [accessAt, access] at hwritable hnx
  cases hlast : lastSegment (segments r.buf) p with
  | some q =>
    rw [hlast] at hwritable hnx
    -- a page of a segment is below the regions
    obtain ⟨hq, hpage⟩ := mem_of_lastSegment hlast
    have hlt := (hfits.hasPage_lt hq hpage).2
    have hord := hfits.ordered
    have hstdin : ¬ inRange lay.loadVaddrBreak lay.stdinBreak p :=
      fun h => Nat.not_le.mpr hlt h.1
    have hIB : ¬ inRange lay.stderrBreak lay.IBBreak p :=
      fun h => Nat.not_le.mpr hlt (Nat.le_trans (Nat.div_le_div_right (by omega)) h.1)
    refine ⟨iff_of_true huser hrange, fun _ => ?_, fun _ => ?_⟩
    · rw [hwritable, hlast]
      simp [Phdr.access, hstdin, hIB, himage]
    · rw [hnx, hlast]
      simp [Phdr.access]
  | none =>
    rw [hlast] at hwritable hnx
    refine ⟨iff_of_true huser hrange, fun _ => ?_, fun _ => ?_⟩
    · rw [hwritable, hlast]
      by_cases h : inRange lay.stderrBreak lay.IBBreak p ∨ inRange lay.loadVaddrBreak lay.stdinBreak p
      · simp only [if_pos h]
        refine iff_of_false Bool.false_ne_true fun hnot => ?_
        rcases h with h | h
        · exact hnot.2.1 h
        · exact hnot.1 h
      · simp only [if_neg h]
        obtain ⟨hIB, hstdin⟩ := not_or.mp h
        exact iff_of_true trivial ⟨hstdin, hIB, himage, .inl trivial⟩
    · rw [hnx, hlast]
      split_ifs <;> simp

theorem Fits.permissions_image (hfits : Fits m.vaddrBreak r lay) :
    Permissions r lay (loaded k r lay m) lay.imagePage := by
  have hnot : ¬ lay.userPage lay.imagePage := fun h => Nat.lt_irrefl _ h.2
  have huser : has ((loaded k r lay m).p1 lay.imagePage) pteUser = true := by
    rw [hfits.loaded_p1_of_not_userPage hnot, if_pos rfl, toUserReadonly_user]
  have hlast : lastSegment (segments r.buf) lay.imagePage = none := by
    cases hlast : lastSegment (segments r.buf) lay.imagePage with
    | none => rfl
    | some q =>
      obtain ⟨hq, hpage⟩ := mem_of_lastSegment hlast
      exact absurd (hfits.hasPage_lt hq hpage).1 hnot
  have haddr : lay.imagePage * pageSize = lay.specialRegionBreak :=
    Nat.div_mul_cancel hfits.dvd_special
  have hself : inRange lay.specialRegionBreak (lay.specialRegionBreak + pageSize) lay.imagePage := by
    refine ⟨Nat.le_refl _, ?_⟩
    rw [Nat.add_div_right _ (by decide)]
    exact Nat.lt_succ_self _
  obtain ⟨hwritable, hnx⟩ := Prod.ext_iff.mp (hfits.access_image (k := k))
  simp only [accessAt, access] at hwritable hnx
  refine ⟨iff_of_true huser ?_, fun _ => ?_, fun _ => ?_⟩
  · have hord := hfits.ordered
    rw [haddr]
    exact ⟨by omega, Nat.lt_add_of_pos_right (by decide)⟩
  · rw [hwritable]
    exact iff_of_false Bool.false_ne_true fun h => h.2.2.1 hself
  · rw [hnx, hlast]
    simp

/-- **A page of the kernel** between `kernel_break` and `vaddr_break` is none of the user's. -/
theorem Fits.permissions_kernel (hfits : Fits m.vaddrBreak r lay) (hp : ¬ lay.userPage p)
    (himage : p ≠ lay.imagePage) (hkernel : kernelBreak / pageSize ≤ p)
    (hbreak : p < m.vaddrBreak / pageSize) : Permissions r lay (loaded k r lay m) p := by
  have huser : has ((loaded k r lay m).p1 p) pteUser = false := by
    rw [hfits.loaded_p1_of_not_userPage hp, if_neg himage, hfits.prepared_p1_of_not_userPage hp,
      if_pos ⟨hkernel, hbreak⟩, toKernel_user]
  refine ⟨?_, ?_, ?_⟩
  · rw [huser]
    refine iff_of_false Bool.false_ne_true fun h => ?_
    -- between the start and the end of the page of the file there is no other page
    have h1 := hfits.userPage_iff (a := p * pageSize)
    have h2 := hfits.imagePage_iff (a := p * pageSize)
    rw [Nat.mul_div_cancel _ (by decide)] at h1 h2
    rcases Nat.lt_or_ge (p * pageSize) lay.specialRegionBreak with hlt | hge
    · exact hp (h1.mpr ⟨h.1, hlt⟩)
    · exact himage (h2.mpr ⟨hge, h.2⟩)
  · intro h
    rw [huser] at h
    exact absurd h Bool.false_ne_true
  · intro h
    rw [huser] at h
    exact absurd h Bool.false_ne_true

end

/-- **Permissions when a program starts**: whatever was in the page tables before, after `load_elf32`
    accepts each page from `kernel_break` to `vaddr_break` has exactly the flags that the layout and
    the last segment on it ask for. -/
theorem page_permissions (k : Kernel) (m m' : Machine) (r : Request) (app : App)
    (h : loadElf32 k m r = .ok (m', some app)) :
    ∃ lay, layout32 m.vaddrBreak r = some lay ∧ ∀ p, kernelBreak ≤ p * pageSize →
      p * pageSize < m.vaddrBreak → Permissions r lay m' p := by
  obtain ⟨lay, hlay, hready, hm, -⟩ := loadElf32_iff.mp h
  refine ⟨lay, hlay, fun p hkernel hbreak => ?_⟩
  have hfits := layout32_fits hlay
  rw [hm]
  by_cases hp : lay.userPage p
  · exact hfits.permissions_user hp
  by_cases himage : p = lay.imagePage
  · rw [himage]
    exact hfits.permissions_image
  · have hdvd := hready.dvd
    refine hfits.permissions_kernel hp himage ?_ ?_
    · rw [show kernelBreak / pageSize = 4096 by decide]
      have hk : kernelBreak = 4096 * pageSize := by decide
      rw [hk, pageSize] at hkernel
      omega
    · rw [pageSize] at *
      omega

/-- The page of the only segment. -/
theorem page_permissions_tiny : ∃ m m' app lay, AfterInit m ∧
    loadElf32 someKernel m (tiny [] 0 (by decide) (by decide)) = .ok (m', some app) ∧
    layout32 m.vaddrBreak (tiny [] 0 (by decide) (by decide)) = some lay ∧
    Permissions (tiny [] 0 (by decide) (by decide)) lay m' (loadVaddrStart / pageSize) := by
  obtain ⟨m, m', app, hinit, -, hroom, -, hload⟩ := exists_tiny
  obtain ⟨lay, hlay, hpermissions⟩ := page_permissions someKernel m m' _ app hload
  refine ⟨m, m', app, lay, hinit, hload, hlay, hpermissions _ (by decide) ?_⟩
  exact Nat.lt_trans (show loadVaddrStart / pageSize * pageSize < 0x804a000 by decide) hroom

end JudgeDuck.Elf
