/-
  The image of a program: what its memory holds when it starts.

  `image` says for every address up to the end of the last region what the byte there is, from the
  request alone.  Between two loads nothing says so: pages are cleared only when they are marked.
  `loaded_eq_image` assumes what makes it true: a page below `vaddr_break` that is not marked is zero.
  `Elf/History` has that as an invariant (`Clean`), which loading and running keep (`Inv.load_clean`,
  `Inv.run`): the loader marks what it writes, and a program writes to its own pages only, which `run`
  marks by their dirty flags.
-/
import JudgeDuck.Elf.Effect

namespace JudgeDuck.Elf

open JudgeDuck.Lib JudgeDuck.Memory
open JudgeDuck.DuckCache (pageSize hugePageSize roundUp)

/-! ## The image -/

/-- The byte of the last segment with file contents at `a`. -/
def segmentByte (buf : List UInt8) (segs : List Phdr) (a : Nat) : Option UInt8 :=
  (segs.reverse.find? fun p => decide (p.vaddr ≤ a ∧ a < p.vaddr + p.filesz)).map
    fun p => buf.getD (p.offset + (a - p.vaddr)) 0

/-- The stack of a program, below `load_vaddr_break`. -/
def stackImage (k : Kernel) (r : Request) (lay : Layout) : List UInt8 :=
  auxv r lay ++ (auxv r lay).drop 108 ++ duckInfo32 k.tscFreq r.config lay

/-- The bytes of a program and its regions. -/
def image (k : Kernel) (r : Request) (lay : Layout) (a : Nat) : UInt8 :=
  if a < lay.loadVaddrBreak - pageSize then (segmentByte r.buf (segments r.buf) a).getD 0
  else if a < lay.loadVaddrBreak - 176 then 0
  else if a < lay.loadVaddrBreak then (stackImage k r lay).getD (a - (lay.loadVaddrBreak - 176)) 0
  else if a < lay.stdinBreak then r.config.stdin.getD (a - lay.loadVaddrBreak) 0
  else if a < lay.stderrBreak then 0
  else if a < lay.IBBreak then r.config.IB.getD (a - lay.stderrBreak) 0
  else if r.config.OBNeedClear then 0
  else r.config.OB.getD (a - lay.IBBreak) 0

/-- One segment after the other: the last one decides. -/
theorem segmentMem_apply {buf : List UInt8} {segs : List Phdr} {a : Nat}
    (h : ∀ p ∈ segs, p.filesz ≠ 0 → p.offset + p.filesz ≤ buf.length) (mem : Nat → UInt8) :
    segmentMem buf segs mem a = (segmentByte buf segs a).getD (mem a) := by
  induction segs generalizing mem with
  | nil => rfl
  | cons p segs ih =>
    obtain ⟨hp, hsegs⟩ := List.forall_mem_cons.mp h
    have hfirst : (segmentWrite buf p).foldl (store 0) mem a =
        if p.vaddr ≤ a ∧ a < p.vaddr + p.filesz then buf.getD (p.offset + (a - p.vaddr)) 0
        else mem a := by
      rw [segmentWrite]
      by_cases h0 : p.filesz = 0
      · rw [if_pos h0, if_neg (by omega)]
        rfl
      · have hlen : ((buf.drop p.offset).take p.filesz).length = p.filesz := by
          have := hp h0
          simp only [List.length_take, List.length_drop]
          omega
        rw [if_neg h0, List.foldl_cons, List.foldl_nil, store_apply]
        simp only [Write.covers, hlen, decide_eq_true_eq]
        by_cases hcovers : p.vaddr ≤ a ∧ a < p.vaddr + p.filesz
        · rw [if_pos hcovers, if_pos hcovers]
          simp only [List.getD_eq_getElem?_getD]
          rw [List.getElem?_take_of_lt (by omega), List.getElem?_drop]
        · rw [if_neg hcovers, if_neg hcovers]
    rw [segmentMem, List.flatMap_cons, List.foldl_append]
    refine (ih hsegs _).trans ?_
    rw [hfirst, segmentByte, segmentByte, List.reverse_cons, List.find?_append]
    cases segs.reverse.find? fun p => decide (p.vaddr ≤ a ∧ a < p.vaddr + p.filesz) with
    | some q => rfl
    | none =>
      by_cases hcovers : p.vaddr ≤ a ∧ a < p.vaddr + p.filesz
      · simp [hcovers]
      · simp [hcovers]

section

variable {k : Kernel} {m : Machine} {r : Request} {lay : Layout} {a : Nat}

theorem segmentByte_eq_none {vaddrBreak : Nat} (hfits : Fits vaddrBreak r lay)
    (h : lay.loadVaddrBreak ≤ a + pageSize) : segmentByte r.buf (segments r.buf) a = none := by
  rw [segmentByte, List.find?_eq_none.mpr]
  · rfl
  · intro p hp
    have hseg := hfits.segment p (List.mem_reverse.mp hp)
    have hmemory := hseg.memory
    have hfile := hseg.file_le
    rw [decide_eq_true_eq]
    omega

/-- The two writes of the stack. -/
theorem stack_apply (h : 176 ≤ lay.loadVaddrBreak) (mem : Nat → UInt8) (a : Nat) :
    [⟨lay.loadVaddrBreak - 172, auxv r lay ++ duckInfo32 k.tscFreq r.config lay⟩,
        ⟨lay.loadVaddrBreak - 176, auxv r lay⟩].foldl (store 0) mem a =
      if lay.loadVaddrBreak - 176 ≤ a ∧ a < lay.loadVaddrBreak then
        (stackImage k r lay).getD (a - (lay.loadVaddrBreak - 176)) 0
      else mem a := by
  have haux := length_auxv r lay
  have hinfo := length_duckInfo32 k.tscFreq r.config lay
  obtain ⟨b, hb⟩ : ∃ b, lay.loadVaddrBreak = b + 176 := ⟨lay.loadVaddrBreak - 176, by omega⟩
  have h172 : lay.loadVaddrBreak - 172 = b + 4 := by omega
  have h176 : lay.loadVaddrBreak - 176 = b := by omega
  rw [h172, h176, hb, stackImage]
  generalize auxv r lay = xs at *
  generalize duckInfo32 k.tscFreq r.config lay = ys at *
  simp only [List.foldl_cons, List.foldl_nil, store_apply, Write.covers, decide_eq_true_eq,
    List.length_append, haux, hinfo]
  by_cases h1 : b ≤ a ∧ a < b + 112
  · rw [if_pos h1, if_pos (by omega), List.append_assoc, List.getD_append _ _ _ _ (by omega)]
  · rw [if_neg h1]
    by_cases h2 : b + 4 ≤ a ∧ a < b + 176
    · -- the last word that was moved is there twice
      rw [if_pos (by omega), if_pos (by omega), List.append_assoc]
      calc (xs ++ ys).getD (a - (b + 4)) 0
        _ = (xs.take 108 ++ (xs.drop 108 ++ ys)).getD (a - (b + 4)) 0 := by
          rw [← List.append_assoc, List.take_append_drop]
        _ = (xs.drop 108 ++ ys).getD (a - b - 112) 0 := by
          have htake : (xs.take 108).length = 108 := by rw [List.length_take, haux]; rfl
          rw [List.getD_append_right _ _ _ _ (by omega), htake,
            show a - (b + 4) - 108 = a - b - 112 by omega]
        _ = (xs ++ (xs.drop 108 ++ ys)).getD (a - b) 0 := by
          rw [List.getD_append_right xs _ _ _ (by omega), haux]
    · rw [if_neg (by omega), if_neg (by omega)]
/-- Memory after a load, one region at a time. -/
theorem Fits.loaded_mem_apply (hfits : Fits m.vaddrBreak r lay) (a : Nat) :
    (loaded k r lay m).mem a =
      if lay.loadVaddrBreak - 176 ≤ a ∧ a < lay.loadVaddrBreak then
        (stackImage k r lay).getD (a - (lay.loadVaddrBreak - 176)) 0
      else if lay.specialRegionBreak ≤ a ∧ a < lay.specialRegionBreak + min r.buf.length pageSize then
        r.buf.getD (a - lay.specialRegionBreak) 0
      else if r.config.OBNeedClear = false ∧ lay.IBBreak ≤ a ∧ a < lay.IBBreak + r.config.OB.length then
        r.config.OB.getD (a - lay.IBBreak) 0
      else if lay.stderrBreak ≤ a ∧ a < lay.stderrBreak + r.config.IB.length then
        r.config.IB.getD (a - lay.stderrBreak) 0
      else if lay.loadVaddrBreak ≤ a ∧ a < lay.loadVaddrBreak + r.config.stdin.length then
        r.config.stdin.getD (a - lay.loadVaddrBreak) 0
      else (segmentByte r.buf (segments r.buf) a).getD ((prepared lay m).mem a) := by
  have htwo := hfits.two_pages
  rw [loaded_mem, stack_apply (by rw [pageSize] at htwo; omega)]
  refine if_congr Iff.rfl rfl ?_
  rw [List.foldl_cons, List.foldl_nil, store_apply]
  simp only [Write.covers, decide_eq_true_eq, List.length_take]
  have hmin : min (min r.buf.length pageSize) r.buf.length = min r.buf.length pageSize := by omega
  rw [hmin]
  by_cases himage : lay.specialRegionBreak ≤ a ∧
      a < lay.specialRegionBreak + min r.buf.length pageSize
  · rw [if_pos himage, if_pos himage]
    simp only [List.getD_eq_getElem?_getD]
    rw [List.getElem?_take_of_lt (by omega)]
  rw [if_neg himage, if_neg himage]
  have hrest : [⟨lay.loadVaddrBreak, r.config.stdin⟩, ⟨lay.stderrBreak, r.config.IB⟩].foldl (store 0)
      (segmentMem r.buf (segments r.buf) (prepared lay m).mem) a =
      if lay.stderrBreak ≤ a ∧ a < lay.stderrBreak + r.config.IB.length then
        r.config.IB.getD (a - lay.stderrBreak) 0
      else if lay.loadVaddrBreak ≤ a ∧ a < lay.loadVaddrBreak + r.config.stdin.length then
        r.config.stdin.getD (a - lay.loadVaddrBreak) 0
      else (segmentByte r.buf (segments r.buf) a).getD ((prepared lay m).mem a) := by
    rw [List.foldl_cons, List.foldl_cons, List.foldl_nil, store_apply, store_apply,
      segmentMem_apply fun p hp => (hfits.segment p hp).file]
    simp only [Write.covers, decide_eq_true_eq]
  cases hOB : r.config.OBNeedClear with
  | true =>
    rw [if_pos rfl, if_neg (fun h => Bool.noConfusion h.1)]
    exact hrest
  | false =>
    rw [if_neg Bool.false_ne_true, List.foldl_cons, List.foldl_nil, store_apply, hrest]
    simp only [Write.covers, decide_eq_true_eq, true_and]

/-- Behind its last byte a region is zero. -/
theorem ite_getD {lo : Nat} {bytes : List UInt8} (h : lo ≤ a) :
    (if lo ≤ a ∧ a < lo + bytes.length then bytes.getD (a - lo) 0 else Option.getD none 0) =
      bytes.getD (a - lo) 0 := by
  by_cases hlt : a < lo + bytes.length
  · rw [if_pos ⟨h, hlt⟩]
  · rw [if_neg (fun h => hlt h.2), List.getD_eq_default _ _ (by omega)]
    rfl

/-- Nothing is left of what was there before, once the pages without a mark are zero. -/
theorem Fits.loaded_eq_image (hfits : Fits m.vaddrBreak r lay)
    (hzero : ∀ a, loadVaddrStart ≤ a → a < lay.specialRegionBreak → (prepared lay m).mem a = 0)
    (hstart : loadVaddrStart ≤ a) (hlt : a < lay.specialRegionBreak) :
    (loaded k r lay m).mem a = image k r lay a := by
  have hord := hfits.ordered
  have htwo := hfits.two_pages
  have hstdin := hfits.stdin_le
  have hIB := hfits.IB_le
  have hOB := hfits.OB_le
  rw [hfits.loaded_mem_apply, hzero a hstart hlt, image]
  rw [pageSize] at *
  by_cases h1 : a < lay.loadVaddrBreak - 4096
  · rw [if_pos h1, if_neg (by omega), if_neg (by omega), if_neg (by omega), if_neg (by omega),
      if_neg (by omega)]
  rw [if_neg h1, segmentByte_eq_none hfits (by rw [pageSize]; omega)]
  by_cases h2 : a < lay.loadVaddrBreak - 176
  · rw [if_pos h2, if_neg (by omega), if_neg (by omega), if_neg (by omega), if_neg (by omega),
      if_neg (by omega)]
    rfl
  rw [if_neg h2]
  by_cases h3 : a < lay.loadVaddrBreak
  · rw [if_pos h3, if_pos (by omega)]
  rw [if_neg h3, if_neg (by omega), if_neg (by omega)]
  by_cases h4 : a < lay.stdinBreak
  · rw [if_pos h4, if_neg (by omega), if_neg (by omega)]
    exact ite_getD (by omega)
  rw [if_neg h4]
  by_cases h5 : a < lay.stderrBreak
  · rw [if_pos h5, if_neg (by omega), if_neg (by omega), if_neg (by omega)]
    rfl
  rw [if_neg h5]
  by_cases h6 : a < lay.IBBreak
  · have hstdin' : ¬ (lay.loadVaddrBreak ≤ a ∧ a < lay.loadVaddrBreak + r.config.stdin.length) := by
      omega
    rw [if_pos h6, if_neg (by omega), if_neg hstdin']
    exact ite_getD (by omega)
  rw [if_neg h6]
  have hIB' : ¬ (lay.stderrBreak ≤ a ∧ a < lay.stderrBreak + r.config.IB.length) := by omega
  have hstdin' : ¬ (lay.loadVaddrBreak ≤ a ∧ a < lay.loadVaddrBreak + r.config.stdin.length) := by
    omega
  rw [if_neg hIB', if_neg hstdin']
  cases r.config.OBNeedClear with
  | true =>
    rw [if_pos rfl, if_neg (fun h => Bool.noConfusion h.1)]
    rfl
  | false =>
    rw [if_neg Bool.false_ne_true]
    simp only [true_and]
    exact ite_getD (by omega)

end

end JudgeDuck.Elf
