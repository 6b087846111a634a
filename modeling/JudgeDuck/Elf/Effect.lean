/-
  Flags, bytes and record after a load.

  The flags: the pages from 0x8048000 to the end of the last region belong to the user, so does the
  page of the file behind them, and all other pages up to `vaddr_break` to the kernel (`loaded_user`,
  `flagAt_image`, `loaded_p1_of_not_userPage`).  Whatever is written is marked (`loaded_duck`).
  The bytes: outside of these pages nothing changes (`loaded_mem_of_not_userPage`); inside, the writes
  decide, and what they leave out was cleared if its page was marked (`prepared_mem`, `loaded_mem`).
-/
import JudgeDuck.Elf.Load

namespace JudgeDuck.Elf

open JudgeDuck.Lib JudgeDuck.Memory
open JudgeDuck.DuckCache (pageSize hugePageSize roundUp)

/-- A page of the program or of a region behind it. -/
def Layout.userPage (lay : Layout) (p : Nat) : Prop :=
  loadVaddrStart / pageSize ≤ p ∧ p < lay.specialRegionBreak / pageSize

instance (lay : Layout) (p : Nat) : Decidable (lay.userPage p) :=
  inferInstanceAs (Decidable (_ ∧ _))

/-- The page of the file. -/
def Layout.imagePage (lay : Layout) : Nat := lay.specialRegionBreak / pageSize

section

variable {k : Kernel} {m : Machine} {r : Request} {lay : Layout} {vaddrBreak p a : Nat}

theorem Fits.userPage_iff (hfits : Fits vaddrBreak r lay) :
    lay.userPage (a / pageSize) ↔ loadVaddrStart ≤ a ∧ a < lay.specialRegionBreak := by
  have hdvd := hfits.dvd_special
  rw [Layout.userPage, loadVaddrStart_eq, pageSize] at *
  omega

theorem Fits.imagePage_iff (hfits : Fits vaddrBreak r lay) :
    a / pageSize = lay.imagePage ↔
      lay.specialRegionBreak ≤ a ∧ a < lay.specialRegionBreak + pageSize := by
  have hdvd := hfits.dvd_special
  rw [Layout.imagePage, pageSize] at *
  omega

/-! ## Before the copying -/

/-- **The entries after the first loops**: pages of the program become writable for the user, the
    others between `kernel_break` and `vaddr_break` go back to the kernel. -/
theorem Fits.reset_p1 (hfits : Fits m.vaddrBreak r lay) (p : Nat) :
    (reset lay m).p1 p =
      if lay.userPage p then toUserWritable (m.p1 p)
      else if kernelBreak / pageSize ≤ p ∧ p < m.vaddrBreak / pageSize then toKernel (m.p1 p)
      else m.p1 p := by
  have hord := hfits.ordered
  have hstart : kernelBreak / pageSize ≤ loadVaddrStart / pageSize := by decide
  have hspecial : loadVaddrStart / pageSize ≤ lay.specialRegionBreak / pageSize :=
    Nat.div_le_div_right (by omega)
  have hbreak : lay.specialRegionBreak / pageSize ≤ m.vaddrBreak / pageSize :=
    Nat.div_le_div_right hfits.le_vaddrBreak
  simp only [reset, List.foldl_cons, List.foldl_nil, Cmd.result, Machine.mapPages,
    Machine.touchPages]
  by_cases huser : lay.userPage p
  · have hlow : ¬ (kernelBreak / pageSize ≤ p ∧ p < loadVaddrStart / pageSize) :=
      fun h => Nat.not_le.mpr h.2 huser.1
    have hhigh : ¬ (lay.specialRegionBreak / pageSize ≤ p ∧ p < m.vaddrBreak / pageSize) :=
      fun h => Nat.not_le.mpr huser.2 h.1
    have hrange : loadVaddrStart / pageSize ≤ p ∧ p < lay.specialRegionBreak / pageSize := huser
    rw [if_neg hhigh, if_pos hrange, if_neg hlow, if_pos huser]
  · have hrange : ¬ (loadVaddrStart / pageSize ≤ p ∧ p < lay.specialRegionBreak / pageSize) := huser
    rw [if_neg hrange, if_neg huser]
    rcases Nat.lt_or_ge p (loadVaddrStart / pageSize) with hlt | hge
    · have hhigh : ¬ (lay.specialRegionBreak / pageSize ≤ p ∧ p < m.vaddrBreak / pageSize) :=
        fun h => Nat.not_le.mpr hlt (Nat.le_trans hspecial h.1)
      rw [if_neg hhigh]
      refine if_congr (and_congr_right fun _ => ⟨fun _ => ?_, fun _ => hlt⟩) rfl rfl
      exact Nat.lt_of_lt_of_le hlt (Nat.le_trans hspecial hbreak)
    · have hlow : ¬ (kernelBreak / pageSize ≤ p ∧ p < loadVaddrStart / pageSize) :=
        fun h => Nat.not_le.mpr h.2 hge
      rw [if_neg hlow]
      refine if_congr (and_congr_left fun _ => ⟨fun _ => Nat.le_trans hstart hge, fun _ => ?_⟩) rfl rfl
      exact Nat.le_of_not_lt fun hlt => hrange ⟨hge, hlt⟩

/-- Resetting the flags keeps the marks. -/
theorem Fits.reset_duck (hfits : Fits m.vaddrBreak r lay) (p : Nat) :
    has ((reset lay m).p1 p) pteDuckWritten = has (m.p1 p) pteDuckWritten := by
  rw [hfits.reset_p1]
  split
  · exact toUserWritable_duck _
  · split
    · exact toKernel_duck _
    · rfl

theorem Fits.prepared_user (hfits : Fits m.vaddrBreak r lay) (hp : lay.userPage p) :
    has ((prepared lay m).p1 p) pteUser = true := by
  have huser : has ((reset lay m).p1 p) pteUser = true := by
    rw [hfits.reset_p1, if_pos hp, toUserWritable_user]
  simp only [prepared, Machine.clearPages]
  split
  · rw [clearDirtyDuck_user, huser]
  · exact huser

/-- Clearing does not change entries of other pages. -/
theorem Fits.prepared_p1_of_not_userPage (hfits : Fits m.vaddrBreak r lay)
    (hp : ¬ lay.userPage p) :
    (prepared lay m).p1 p =
      if kernelBreak / pageSize ≤ p ∧ p < m.vaddrBreak / pageSize then toKernel (m.p1 p)
      else m.p1 p := by
  have hclear : (prepared lay m).p1 p = (reset lay m).p1 p := if_neg fun h => hp h.1
  rw [hclear, hfits.reset_p1, if_neg hp]

theorem Fits.prepared_mem (hfits : Fits m.vaddrBreak r lay) (a : Nat) :
    (prepared lay m).mem a =
      if lay.userPage (a / pageSize) ∧ has (m.p1 (a / pageSize)) pteDuckWritten = true then 0
      else m.mem a := by
  rw [← hfits.reset_duck]
  rfl

theorem prepared_touched (lay : Layout) (m : Machine) (p : Nat) :
    (prepared lay m).touched p = (m.touched p || decide (lay.userPage p)) := by
  have hreset : (reset lay m).touched p = (m.touched p || decide (lay.userPage p)) := rfl
  simp only [prepared, Machine.clearPages, hreset]
  by_cases huser : lay.userPage p
  · rw [decide_eq_true huser, Bool.or_true, Bool.true_or]
  · have hnot : ¬ ((loadVaddrStart / pageSize ≤ p ∧ p < lay.specialRegionBreak / pageSize) ∧
        has ((reset lay m).p1 p) pteDuckWritten = true) := fun h => huser h.1
    rw [decide_eq_false huser, decide_eq_false hnot, Bool.or_false, Bool.or_false]

/-! ## The commands -/

/-- The commands inside change the flags of the user's pages only. -/
theorem Inside.flagAt {c : Cmd} (h : Inside lay c) {f : BitVec 64 → BitVec 64}
    (hf : c.flagAt p = some f) : lay.userPage p ∧ Harmless f := by
  cases h with
  | write => cases hf
  | flags harmless start_le pages =>
    rw [Cmd.flagAt] at hf
    split at hf
    · next hrange =>
      cases hf
      have hlt := pages.le_mapped (Nat.lt_of_not_le fun hle =>
        Nat.not_le.mpr (Nat.lt_of_le_of_lt hrange.1 hrange.2) (Nat.div_le_div_right hle))
      exact ⟨⟨Nat.le_trans (Nat.div_le_div_right start_le) hrange.1,
        Nat.lt_of_lt_of_le hrange.2 (Nat.div_le_div_right hlt)⟩, harmless⟩
    · cases hf

/-- The flags of the page of the file. -/
theorem Fits.flagAt_image (hfits : Fits vaddrBreak r lay) (p : Nat) :
    (imageCmds r lay).filterMap (Cmd.flagAt p) =
      if p = lay.imagePage then [markDuck, toUserReadonly] else [] := by
  have hrange : (lay.specialRegionBreak / pageSize ≤ p ∧
      p < (lay.specialRegionBreak + pageSize) / pageSize) ↔ p = lay.imagePage := by
    rw [Nat.add_div_right _ (by decide), Layout.imagePage]
    omega
  rw [imageCmds, hfits.image_eq]
  simp only [duckCmd, readonlyCmd, List.filterMap_cons, List.filterMap_nil, Cmd.flagAt, hrange]
  by_cases hp : p = lay.imagePage
  · simp only [if_pos hp]
  · simp only [if_neg hp]

theorem filterMap_flagAt_of_inside {cmds : List Cmd} (h : ∀ c ∈ cmds, Inside lay c)
    (hp : ¬ lay.userPage p) : cmds.filterMap (Cmd.flagAt p) = [] := by
  rw [List.filterMap_eq_nil_iff]
  intro c hc
  cases hf : c.flagAt p with
  | none => rfl
  | some f => exact absurd ((h c hc).flagAt hf).1 hp

end

section

variable {k : Kernel} {m : Machine} {r : Request} {lay : Layout} {p a : Nat}

/-- The flags of a page of the user are changed by harmless commands only. -/
theorem Fits.harmless_of_mem (hfits : Fits m.vaddrBreak r lay) (hp : lay.userPage p)
    {f : BitVec 64 → BitVec 64} (hf : f ∈ (loadCmds k r lay).filterMap (Cmd.flagAt p)) :
    Harmless f := by
  obtain ⟨c, hc, hflag⟩ := List.mem_filterMap.mp hf
  rcases hfits.inside_or_image hc with hin | himage
  · exact (hin.flagAt hflag).2
  · have hmem : f ∈ (imageCmds r lay).filterMap (Cmd.flagAt p) := List.mem_filterMap.mpr ⟨c, himage, hflag⟩
    have hne : p ≠ lay.imagePage := Nat.ne_of_lt hp.2
    rw [hfits.flagAt_image, if_neg hne] at hmem
    exact absurd hmem List.not_mem_nil

/-- **The user's pages** belong to the user. -/
theorem Fits.loaded_user (hfits : Fits m.vaddrBreak r lay) (hp : lay.userPage p) :
    has ((loaded k r lay m).p1 p) pteUser = true := by
  rw [loaded, foldl_result_p1]
  refine foldl_keeps (P := fun e => has e pteUser = true) ?_ (hfits.prepared_user hp)
  intro f hf e he
  exact (hfits.harmless_of_mem hp hf).user e he

/-- **A marked page** stays marked to the end. -/
theorem Fits.loaded_duck (hfits : Fits m.vaddrBreak r lay) (hp : lay.userPage p) {start stop : Nat}
    (hc : duckCmd start stop ∈ loadCmds k r lay) (hrange : start / pageSize ≤ p ∧ p < stop / pageSize) :
    has ((loaded k r lay m).p1 p) pteDuckWritten = true := by
  rw [loaded, foldl_result_p1]
  refine foldl_sets (P := fun e => has e pteDuckWritten = true) (f := markDuck) ?_ ?_ markDuck_duck _
  · intro f hf e he
    exact (hfits.harmless_of_mem hp hf).duck e he
  · exact List.mem_filterMap.mpr ⟨_, hc, if_pos hrange⟩

/-- The other pages: what the commands do to them is what they do to the page of the file. -/
theorem Fits.loaded_p1_of_not_userPage (hfits : Fits m.vaddrBreak r lay) (hp : ¬ lay.userPage p) :
    (loaded k r lay m).p1 p =
      if p = lay.imagePage then toUserReadonly (markDuck ((prepared lay m).p1 p))
      else (prepared lay m).p1 p := by
  have hcopy : ∀ c ∈ (segments r.buf).flatMap (copySegmentCmds r.buf), Inside lay c := by
    intro c hc
    obtain ⟨q, hq, hc⟩ := List.mem_flatMap.mp hc
    exact hfits.inside_copySegment hq hc
  rw [loaded, foldl_result_p1, loadCmds]
  simp only [List.filterMap_append, hfits.flagAt_image,
    filterMap_flagAt_of_inside hcopy hp,
    filterMap_flagAt_of_inside (fun c hc => hfits.inside_input (c := c) hc) hp,
    filterMap_flagAt_of_inside (fun c hc => hfits.inside_stack (k := k) (c := c) hc) hp,
    filterMap_flagAt_of_inside (fun c hc => hfits.inside_protect (c := c) hc) hp,
    List.nil_append, List.append_nil]
  split
  · rfl
  · rfl

/-! ## The record -/

theorem Fits.touches_inside (hfits : Fits m.vaddrBreak r lay) {c : Cmd} (h : Inside lay c)
    (ht : c.touches p = true) : lay.userPage p := by
  cases h with
  | @write w start_le le_special =>
    obtain ⟨h1, h2, -⟩ := of_decide_eq_true ht
    have hdvd := hfits.dvd_special
    rw [loadVaddrStart_eq] at start_le
    rw [Layout.userPage, loadVaddrStart_eq]
    rw [pageSize] at *
    omega
  | @flags f touch start stop harmless start_le pages =>
    obtain ⟨-, hrange⟩ := Bool.and_eq_true_iff.mp ht
    have hin : Inside lay (.flags f touch start stop) := .flags harmless start_le pages
    exact (hin.flagAt (if_pos (of_decide_eq_true hrange))).1

theorem Fits.touches_image (hfits : Fits m.vaddrBreak r lay) {c : Cmd} (hc : c ∈ imageCmds r lay)
    (ht : c.touches p = true) : p = lay.imagePage := by
  have hdvd := hfits.dvd_special
  have hlen : (r.buf.take (min r.buf.length pageSize)).length ≤ pageSize :=
    Nat.le_trans (List.length_take_le _ _) (Nat.min_le_right _ _)
  rw [imageCmds, hfits.image_eq] at hc
  rw [Layout.imagePage]
  simp only [List.mem_cons, List.not_mem_nil, or_false] at hc
  rcases hc with rfl | rfl | rfl
  · obtain ⟨h1, h2, -⟩ := of_decide_eq_true ht
    simp only [pageSize] at *
    omega
  · have hrange : _ ≤ p ∧ p < _ := of_decide_eq_true ht
    simp only [pageSize] at *
    omega
  · have hrange : _ ≤ p ∧ p < _ := of_decide_eq_true ht
    simp only [pageSize] at *
    omega

/-- **The record of a load**: exactly the pages of the user and the page of the file. -/
theorem Fits.loaded_touched (hfits : Fits m.vaddrBreak r lay) (p : Nat) :
    (loaded k r lay m).touched p =
      (m.touched p || decide (lay.userPage p ∨ p = lay.imagePage)) := by
  rw [loaded, foldl_result_touched, prepared_touched, Bool.or_assoc]
  congr 1
  rw [Bool.eq_iff_iff, Bool.or_eq_true, decide_eq_true_eq, decide_eq_true_eq, List.any_eq_true]
  constructor
  · intro h
    rcases h with hp | ⟨c, hc, ht⟩
    · exact .inl hp
    · rcases hfits.inside_or_image hc with hin | himage
      · exact .inl (hfits.touches_inside hin ht)
      · exact .inr (hfits.touches_image himage ht)
  · intro h
    rcases h with hp | rfl
    · exact .inl hp
    · -- the mark of the page of the file
      refine .inr ⟨duckCmd lay.specialRegionBreak (lay.specialRegionBreak + pageSize), ?_, ?_⟩
      · have hmem : duckCmd lay.specialRegionBreak (u64 (lay.specialRegionBreak + pageSize)) ∈
            loadCmds k r lay := by simp [loadCmds, imageCmds]
        rwa [hfits.image_eq] at hmem
      · have hnext := Nat.add_div_right lay.specialRegionBreak (show 0 < pageSize by decide)
        refine decide_eq_true ⟨Nat.le_refl _, ?_⟩
        rw [hnext]
        exact Nat.lt_succ_self _

/-! ## The bytes -/

/-- What a segment writes. -/
def segmentWrite (buf : List UInt8) (p : Phdr) : List (Write UInt8) :=
  if p.filesz = 0 then [] else [⟨p.vaddr, (buf.drop p.offset).take p.filesz⟩]

/-- What the segments leave in memory. -/
def segmentMem (buf : List UInt8) (segs : List Phdr) (mem : Nat → UInt8) : Nat → UInt8 :=
  (segs.flatMap (segmentWrite buf)).foldl (store 0) mem

theorem writes_copySegment (buf : List UInt8) (q : Phdr) :
    (copySegmentCmds buf q).filterMap Cmd.write? = segmentWrite buf q := by
  rw [copySegmentCmds, segmentWrite]
  by_cases h : q.filesz = 0
  · rw [if_pos h, if_pos h]
    rfl
  · rw [if_neg h, if_neg h]
    rfl

theorem writes_input (r : Request) (lay : Layout) :
    (inputCmds r lay).filterMap Cmd.write? =
      [⟨lay.loadVaddrBreak, r.config.stdin⟩, ⟨lay.stderrBreak, r.config.IB⟩] ++
        if r.config.OBNeedClear then [] else [⟨lay.IBBreak, r.config.OB⟩] := by
  rw [inputCmds]
  cases r.config.OBNeedClear <;> rfl

theorem writes_protect (r : Request) (lay : Layout) :
    (protectCmds r lay).filterMap Cmd.write? = [] := by
  rw [protectCmds, List.filterMap_cons_none rfl, List.filterMap_append, List.filterMap_flatMap]
  rw [List.flatMap_eq_nil_iff.mpr]
  · rfl
  · intro q _
    rw [protectSegmentCmds]
    split_ifs <;> rfl

theorem writes_image (r : Request) (lay : Layout) :
    (imageCmds r lay).filterMap Cmd.write? =
      [⟨lay.specialRegionBreak, r.buf.take (min r.buf.length pageSize)⟩] := rfl

theorem writes_stack (tscFreq : Nat) (r : Request) (lay : Layout) :
    (stackCmds tscFreq r lay).filterMap Cmd.write? =
      [⟨lay.loadVaddrBreak - 172, auxv r lay ++ duckInfo32 tscFreq r.config lay⟩,
        ⟨lay.loadVaddrBreak - 176, auxv r lay⟩] := rfl

/-- **Memory after a load**: one block after the other. -/
theorem loaded_mem (k : Kernel) (r : Request) (lay : Layout) (m : Machine) :
    (loaded k r lay m).mem =
      [⟨lay.loadVaddrBreak - 172, auxv r lay ++ duckInfo32 k.tscFreq r.config lay⟩,
        ⟨lay.loadVaddrBreak - 176, auxv r lay⟩].foldl (store 0)
      ([⟨lay.specialRegionBreak, r.buf.take (min r.buf.length pageSize)⟩].foldl (store 0)
      ((if r.config.OBNeedClear then [] else [⟨lay.IBBreak, r.config.OB⟩]).foldl (store 0)
      ([⟨lay.loadVaddrBreak, r.config.stdin⟩, ⟨lay.stderrBreak, r.config.IB⟩].foldl (store 0)
      (segmentMem r.buf (segments r.buf) (prepared lay m).mem)))) := by
  rw [loaded, foldl_result_mem, loadCmds]
  simp only [List.filterMap_append, List.filterMap_flatMap, writes_copySegment, writes_input,
    writes_image, writes_stack, writes_protect, List.append_nil, List.foldl_append, segmentMem]

/-- **The frame of a load**: other pages keep their bytes. -/
theorem Fits.loaded_mem_of_not_userPage (hfits : Fits m.vaddrBreak r lay)
    (huser : ¬ lay.userPage (a / pageSize)) (himage : a / pageSize ≠ lay.imagePage) :
    (loaded k r lay m).mem a = m.mem a := by
  have hprepared : (prepared lay m).mem a = m.mem a := by
    rw [hfits.prepared_mem]
    exact if_neg fun h => huser h.1
  rw [loaded, foldl_result_mem, ← hprepared]
  refine foldl_store_of_not_covers fun w hw => ?_
  obtain ⟨c, hc, hwrite⟩ := List.mem_filterMap.mp hw
  by_contra hcovers
  obtain ⟨h1, h2⟩ := of_decide_eq_true (Bool.not_eq_false _ |>.mp hcovers)
  rcases hfits.inside_or_image hc with hin | hc
  · cases hin with
    | write start_le le_special =>
      cases hwrite
      exact huser (hfits.userPage_iff.mpr ⟨Nat.le_trans start_le h1, Nat.lt_of_lt_of_le h2 le_special⟩)
    | flags => cases hwrite
  · have hmem : w ∈ (imageCmds r lay).filterMap Cmd.write? := List.mem_filterMap.mpr ⟨c, hc, hwrite⟩
    rw [writes_image] at hmem
    obtain rfl := List.mem_singleton.mp hmem
    have hlen : (r.buf.take (min r.buf.length pageSize)).length ≤ pageSize :=
      Nat.le_trans (List.length_take_le _ _) (Nat.min_le_right _ _)
    exact himage (hfits.imagePage_iff.mpr ⟨h1, Nat.lt_of_lt_of_le h2 (Nat.add_le_add_left hlen _)⟩)

/-! ## Marks -/

/-- The pages between two page addresses. -/
theorem pages_of_range {start stop : Nat} (hstart : start ≤ a) (hstop : a < stop)
    (hdvd : pageSize ∣ stop) : start / pageSize ≤ a / pageSize ∧ a / pageSize < stop / pageSize :=
  ⟨Nat.div_le_div_right hstart, Nat.div_lt_div_of_lt_of_dvd hdvd hstop⟩

theorem Fits.mark_segment (hfits : Fits m.vaddrBreak r lay) {q : Phdr} (hq : q ∈ segments r.buf)
    {w : Write UInt8} (hw : w ∈ segmentWrite r.buf q) (hcovers : w.covers a = true) :
    ∃ start stop, duckCmd start stop ∈ copySegmentCmds r.buf q ∧
      start / pageSize ≤ a / pageSize ∧ a / pageSize < stop / pageSize := by
  have hseg := hfits.segment q hq
  rw [segmentWrite] at hw
  by_cases h0 : q.filesz = 0
  · rw [if_pos h0] at hw
    exact absurd hw List.not_mem_nil
  · rw [if_neg h0] at hw
    obtain rfl := List.mem_singleton.mp hw
    obtain ⟨h1, h2⟩ := of_decide_eq_true hcovers
    obtain ⟨⟨-, hdvd⟩, -, hfirst, hend, -⟩ := hseg.pages hfits hseg.file_le
    have hlen : ((r.buf.drop q.offset).take q.filesz).length ≤ q.filesz := List.length_take_le _ _
    refine ⟨q.firstPage, q.endPage q.filesz, ?_, pages_of_range (Nat.le_trans hfirst h1) ?_ hdvd⟩
    · rw [copySegmentCmds, if_neg h0]
      exact List.mem_cons_of_mem _ (List.mem_singleton_self _)
    · simp only at h2
      omega

theorem Fits.mark_input (hfits : Fits m.vaddrBreak r lay) {w : Write UInt8}
    (hw : w ∈ (inputCmds r lay).filterMap Cmd.write?) (hcovers : w.covers a = true) :
    ∃ start stop, duckCmd start stop ∈ inputCmds r lay ∧
      start / pageSize ≤ a / pageSize ∧ a / pageSize < stop / pageSize := by
  have hstdin := hfits.stdin_le
  have hIB := hfits.IB_le
  have hOB := hfits.OB_le
  rw [writes_input] at hw
  rcases List.mem_append.mp hw with hw | hw
  · rcases List.mem_pair.mp hw with rfl | rfl
    · obtain ⟨h1, h2⟩ := of_decide_eq_true hcovers
      exact ⟨lay.loadVaddrBreak, lay.stdinBreak, by simp [inputCmds],
        pages_of_range h1 (Nat.lt_of_lt_of_le h2 hstdin) hfits.dvd_stdin⟩
    · obtain ⟨h1, h2⟩ := of_decide_eq_true hcovers
      exact ⟨lay.stderrBreak, lay.IBBreak, by simp [inputCmds],
        pages_of_range h1 (Nat.lt_of_lt_of_le h2 hIB) hfits.dvd_IB⟩
  · obtain ⟨hclear, rfl⟩ : r.config.OBNeedClear = false ∧ w = _ := by simpa using hw
    obtain ⟨h1, h2⟩ := of_decide_eq_true hcovers
    refine ⟨lay.IBBreak, lay.specialRegionBreak, ?_,
      pages_of_range h1 (Nat.lt_of_lt_of_le h2 hOB) hfits.dvd_special⟩
    rw [inputCmds, hfits.OB_eq, hclear]
    simp

/-- **What is written is marked**, on the pages of the user. -/
theorem Fits.mark_of_write (hfits : Fits m.vaddrBreak r lay) (hp : lay.userPage (a / pageSize))
    {w : Write UInt8} (hw : w ∈ (loadCmds k r lay).filterMap Cmd.write?)
    (hcovers : w.covers a = true) :
    ∃ start stop, duckCmd start stop ∈ loadCmds k r lay ∧
      start / pageSize ≤ a / pageSize ∧ a / pageSize < stop / pageSize := by
  simp only [loadCmds, List.filterMap_append, List.filterMap_flatMap, writes_copySegment,
    writes_image, writes_stack, writes_protect, List.append_nil, List.mem_append] at hw
  simp only [loadCmds, List.mem_append]
  rcases hw with ((hw | hw) | hw) | hw
  · obtain ⟨q, hq, hw⟩ := List.mem_flatMap.mp hw
    obtain ⟨start, stop, hc, hrange⟩ := hfits.mark_segment hq hw hcovers
    exact ⟨start, stop, .inl (.inl (.inl (.inl (List.mem_flatMap.mpr ⟨q, hq, hc⟩)))), hrange⟩
  · obtain ⟨start, stop, hc, hrange⟩ := hfits.mark_input hw hcovers
    exact ⟨start, stop, .inl (.inl (.inl (.inr hc))), hrange⟩
  · -- the page of the file is not one of them
    obtain rfl := List.mem_singleton.mp hw
    obtain ⟨h1, -⟩ := of_decide_eq_true hcovers
    exact absurd (hfits.userPage_iff.mp hp).2 (Nat.not_lt.mpr h1)
  · have htwo := hfits.two_pages
    have hinfo := length_duckInfo32 k.tscFreq r.config lay
    have haux := length_auxv r lay
    have hstack : lay.loadVaddrBreak - pageSize ≤ a ∧ a < lay.loadVaddrBreak := by
      rw [pageSize] at *
      rcases List.mem_pair.mp hw with rfl | rfl
      · have hrange := of_decide_eq_true hcovers
        simp only [List.length_append] at hrange
        omega
      · have hrange := of_decide_eq_true hcovers
        simp only at hrange
        omega
    exact ⟨lay.loadVaddrBreak - pageSize, lay.loadVaddrBreak, .inr (List.mem_cons_self ..),
      pages_of_range hstack.1 hstack.2 hfits.dvd_break⟩

/-- A page of the user without a mark has not been written to. -/
theorem Fits.loaded_mem_of_not_duck (hfits : Fits m.vaddrBreak r lay)
    (hp : lay.userPage (a / pageSize))
    (hduck : has ((loaded k r lay m).p1 (a / pageSize)) pteDuckWritten = false) :
    (loaded k r lay m).mem a = (prepared lay m).mem a := by
  rw [loaded, foldl_result_mem]
  refine foldl_store_of_not_covers fun w hw => ?_
  by_contra hcovers
  obtain ⟨start, stop, hc, hrange⟩ := hfits.mark_of_write hp hw (Bool.not_eq_false _ |>.mp hcovers)
  rw [hfits.loaded_duck hp hc hrange] at hduck
  cases hduck

end

end JudgeDuck.Elf
