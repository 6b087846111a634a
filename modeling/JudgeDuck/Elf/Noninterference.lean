/-
  What a program can see of the ones before it.

  Two machines run different programs, and then load the same one.  Its own pages are the same on both
  (`image`).  But there are two more pages that it may read, and a load clears neither of them.
  One is the page of the file: a file shorter than a page leaves the rest as it was, and that can be
  the file of an earlier program whose regions ended at the same address.  The other is the page at
  `vaddr_break`: a program whose regions ended there leaves it to the user, and later loads set the
  flags below `vaddr_break` only.  `noninterference_iff` says that this is all.
-/
import JudgeDuck.Elf.History

namespace JudgeDuck.Elf

open JudgeDuck.Lib JudgeDuck.Memory
open JudgeDuck.DuckCache (pageSize hugePageSize roundUp)

/-- The pages of the user are the same, and so are their bytes. -/
def SameForUser (m1 m2 : Machine) : Prop :=
  ∀ p, has (m1.p1 p) pteUser = has (m2.p1 p) pteUser ∧
    (has (m1.p1 p) pteUser = true → ∀ a, a / pageSize = p → m1.mem a = m2.mem a)

/-- Whatever ran before on the two machines, the program `r` sees the same. -/
def Noninterfering (k : Kernel) (m1 m2 : Machine) (r : Request) : Prop :=
  ∀ (evs1 evs2 : List Event) (s1 s2 : Machine × Option App) (m1' m2' : Machine) (app1 app2 : App),
    history k m1 evs1 = .ok s1 → history k m2 evs2 = .ok s2 →
    loadElf32 k s1.1 r = .ok (m1', some app1) → loadElf32 k s2.1 r = .ok (m2', some app2) →
    SameForUser m1' m2'

section

variable {k : Kernel} {m m0 : Machine} {r : Request} {lay : Layout} {last : Option App} {p a : Nat}

/-- The user's flag after a load, outside of the pages of the program. -/
theorem Inv.loaded_other_user (h : Inv m0 (m, last)) (hfits : Fits m.vaddrBreak r lay)
    (huser : ¬ lay.userPage p) (himage : p ≠ lay.imagePage)
    (hlimit : lay.specialRegionBreak = m0.vaddrBreak ∨ 2 ^ 32 < m0.vaddrBreak ∨
      m0.vaddrBreak = m0.mapped) :
    has ((loaded k r lay m).p1 p) pteUser = false := by
  have hbreak : m.vaddrBreak = m0.vaddrBreak := h.vaddrBreak
  rw [hfits.loaded_p1_other huser himage]
  split
  · exact toKernel_user _
  · next hrange =>
    rcases Nat.lt_or_ge p (kernelBreak / pageSize) with hlow | hlow
    · exact h.low p hlow
    · have hhigh : m0.vaddrBreak / pageSize ≤ p := by
        rw [← hbreak]
        exact Nat.le_of_not_lt fun hlt => hrange ⟨hlow, hlt⟩
      by_contra hpuser
      obtain ⟨rfl, h4g, hmapped⟩ := h.high p hhigh (Bool.not_eq_false _ |>.mp hpuser)
      rcases hlimit with hspecial | h2 | h3
      · exact himage (by rw [Layout.imagePage, hspecial])
      · omega
      · omega

/-- The page of a file that fills it. -/
theorem Fits.loaded_mem_image (hfits : Fits m.vaddrBreak r lay) (hlen : pageSize ≤ r.buf.length)
    (himage : a / pageSize = lay.imagePage) :
    (loaded k r lay m).mem a = r.buf.getD (a - lay.specialRegionBreak) 0 := by
  have hord := hfits.ordered
  have hrange := hfits.imagePage_iff.mp himage
  rw [hfits.loaded_mem_apply, if_neg (by omega), if_pos (by omega)]

/-- Behind the end of a short file, and on every other page, a load leaves the bytes alone. -/
theorem Fits.loaded_mem_behind (hfits : Fits m.vaddrBreak r lay)
    (h : lay.specialRegionBreak + min r.buf.length pageSize ≤ a) :
    (loaded k r lay m).mem a = m.mem a := by
  have hord := hfits.ordered
  have htwo := hfits.two_pages
  have hstdin := hfits.stdin_le
  have hIB := hfits.IB_le
  have hOB := hfits.OB_le
  have hprepared : (prepared lay m).mem a = m.mem a := by
    rw [hfits.prepared_mem]
    refine if_neg fun huser => ?_
    have := (hfits.userPage_iff.mp huser.1).2
    omega
  rw [hfits.loaded_mem_apply, if_neg (by omega), if_neg (by omega), if_neg (by omega),
    if_neg (by omega), if_neg (by omega), segmentByte_eq_none hfits (by rw [pageSize]; omega),
    hprepared]
  rfl

end

/-! ## A program that leaves a byte -/

/-- A file of one page, with the last byte `b`. -/
def markTail (b : UInt8) : List UInt8 := List.replicate 4011 0 ++ [b]

theorem getD_mark (b : UInt8) : (tinyHeader ++ markTail b).getD 4095 0 = b := by
  have hheader : tinyHeader.length = 84 := rfl
  rw [List.getD_append_right _ _ _ _ (by omega), hheader, markTail,
    List.getD_append_right _ _ _ _ (by rw [List.length_replicate]), List.length_replicate]
  rfl

theorem length_markTail (b : UInt8) : (markTail b).length = 4012 := by
  rw [markTail, List.length_append, List.length_replicate]
  rfl

theorem markTail_short (b : UInt8) : (markTail b).length < 2 ^ 31 := by
  rw [length_markTail]
  decide

/-- The program with this file, that ends at `0x804a000 + size`. -/
def mark (b : UInt8) (size : Nat) (hsize : size < 2 ^ 64) : Request :=
  tiny (markTail b) size (markTail_short b) hsize

theorem length_mark (b : UInt8) {size : Nat} (hsize : size < 2 ^ 64) :
    (mark b size hsize).buf.length = pageSize := by
  rw [mark, tiny, length_tiny, length_markTail]
  rfl

/-- It leaves its byte in the page at its end, for the user to read. -/
theorem load_mark (k : Kernel) {m : Machine} {size : Nat} (b : UInt8) (hsize : size < 2 ^ 64)
    (hboot : Booted m) (hdvd : pageSize ∣ size) (hle : 0x804a000 + size ≤ m.vaddrBreak)
    (h4g : 0x804a000 + size ≤ 2 ^ 32) (hmapped : 0x804a000 + size + pageSize ≤ m.mapped) :
    ∃ m' app, loadElf32 k m (mark b size hsize) = .ok (m', some app) ∧
      (m'.vaddrBreak = m.vaddrBreak ∧ m'.mapped = m.mapped) ∧
      m'.mem (0x804a000 + size + 4095) = b ∧
      has (m'.p1 ((0x804a000 + size) / pageSize)) pteUser = true := by
  obtain ⟨target, htarget⟩ : ∃ target, target = 0x804a000 + size := ⟨_, rfl⟩
  have hlay : layout32 m.vaddrBreak (mark b size hsize) = some (tinyLayout target) := by
    rw [htarget]
    exact layout32_tiny (markTail_short b) hsize hdvd hle h4g
  rw [← htarget] at hmapped ⊢
  have hready : Ready m (tinyLayout target) :=
    ⟨Nat.dvd_trans (by decide) hboot.dvd_break, fun _ => hboot.le_mapped, hmapped⟩
  have hload := loadElf32_of_ready (k := k) hlay hready
  have hfits := layout32_fits hlay
  have hlen : pageSize ≤ (mark b size hsize).buf.length := Nat.le_of_eq (length_mark b hsize).symm
  have himage : target / pageSize = (tinyLayout target).imagePage := rfl
  have hlast : (target + 4095) / pageSize = (tinyLayout target).imagePage := by
    have hdvd' := hfits.dvd_special
    rw [← himage]
    rw [tinyLayout] at hdvd'
    rw [pageSize] at *
    omega
  have huser : ¬ (tinyLayout target).userPage (target / pageSize) := fun h => Nat.lt_irrefl _ h.2
  refine ⟨_, _, hload, loadElf32_ends hload, ?_, ?_⟩
  · rw [hfits.loaded_mem_image hlen hlast, mark, tiny, tinyLayout, Nat.add_sub_cancel_left]
    exact getD_mark b
  · rw [hfits.loaded_p1_of_not_userPage huser, if_pos himage]
    exact toUserReadonly_user _

/-! ## The theorem -/

section

variable {k : Kernel} {m1 m2 m1' : Machine} {r : Request} {lay : Layout}

/-- The pages of the program, and a page of the file that is full. -/
theorem sameForUser_of_limits {s1 s2 : Machine × Option App} (h1 : Inv m1 s1) (h2 : Inv m2 s2)
    (hbreak : m1.vaddrBreak = m2.vaddrBreak) (hmapped : m1.mapped = m2.mapped)
    (hlay : layout32 m1.vaddrBreak r = some lay) (hlen : pageSize ≤ r.buf.length)
    (hlimit : lay.specialRegionBreak = m1.vaddrBreak ∨ 2 ^ 32 < m1.vaddrBreak ∨
      m1.vaddrBreak = m1.mapped) :
    SameForUser (loaded k r lay s1.1) (loaded k r lay s2.1) := by
  have hfits1 : Fits s1.1.vaddrBreak r lay := by
    rw [h1.vaddrBreak]
    exact layout32_fits hlay
  have hfits2 : Fits s2.1.vaddrBreak r lay := by
    rw [h2.vaddrBreak, ← hbreak]
    exact layout32_fits hlay
  have hlimit2 : lay.specialRegionBreak = m2.vaddrBreak ∨ 2 ^ 32 < m2.vaddrBreak ∨
      m2.vaddrBreak = m2.mapped := by
    rwa [← hbreak, ← hmapped]
  intro p
  by_cases huser : lay.userPage p
  · refine ⟨?_, ?_⟩
    · rw [hfits1.loaded_user huser, hfits2.loaded_user huser]
    · rintro - a rfl
      obtain ⟨hstart, hlt⟩ := hfits1.userPage_iff.mp huser
      rw [hfits1.loaded_eq_image (fun a ha ha' => h1.prepared_zero hfits1 ha ha') hstart hlt,
        hfits2.loaded_eq_image (fun a ha ha' => h2.prepared_zero hfits2 ha ha') hstart hlt]
  by_cases himage : p = lay.imagePage
  · refine ⟨?_, ?_⟩
    · rw [hfits1.loaded_p1_of_not_userPage huser, hfits2.loaded_p1_of_not_userPage huser,
        if_pos himage, if_pos himage, toUserReadonly_user, toUserReadonly_user]
    · rintro - a rfl
      rw [hfits1.loaded_mem_image hlen himage, hfits2.loaded_mem_image hlen himage]
  · have hfalse1 := h1.loaded_other_user (k := k) hfits1 huser himage hlimit
    have hfalse2 := h2.loaded_other_user (k := k) hfits2 huser himage hlimit2
    refine ⟨hfalse1.trans hfalse2.symm, ?_⟩
    intro htrue
    rw [hfalse1] at htrue
    cases htrue

/-- A page that a load leaves alone tells what ran before. -/
theorem not_noninterfering (target : Nat) (hboot1 : Booted m1) (hboot2 : Booted m2)
    (hbreak : m1.vaddrBreak = m2.vaddrBreak) (hmapped : m1.mapped = m2.mapped)
    (hlay : layout32 m1.vaddrBreak r = some lay) (hready : Ready m1 lay)
    (hstart : 0x804a000 ≤ target) (hdvd : pageSize ∣ target) (hle : target ≤ m1.vaddrBreak)
    (h4g : target ≤ 2 ^ 32) (hroom : target + pageSize ≤ m1.mapped)
    (hmem : ∀ m, m.vaddrBreak = m1.vaddrBreak →
      (loaded k r lay m).mem (target + 4095) = m.mem (target + 4095))
    (huser : ∀ m, m.vaddrBreak = m1.vaddrBreak → has (m.p1 (target / pageSize)) pteUser = true →
      has ((loaded k r lay m).p1 (target / pageSize)) pteUser = true) :
    ¬ Noninterfering k m1 m2 r := by
  intro h
  obtain ⟨size, rfl⟩ := Nat.exists_eq_add_of_le hstart
  have hsize : size < 2 ^ 64 := by omega
  replace hdvd := (Nat.dvd_add_right (by decide : pageSize ∣ 0x804a000)).mp hdvd
  obtain ⟨s1, last1, hmark1, ⟨hb1, hm1⟩, hbyte1, huser1⟩ :=
    load_mark k 0 hsize hboot1 hdvd hle h4g hroom
  obtain ⟨s2, last2, hmark2, ⟨hb2, hm2⟩, hbyte2, -⟩ :=
    load_mark k 1 hsize hboot2 hdvd (hbreak ▸ hle) h4g (hmapped ▸ hroom)
  rw [← hbreak] at hb2
  rw [← hmapped] at hm2
  have hload1 := loadElf32_of_ready (k := k) (hb1.symm ▸ hlay) (hready.of_ends hb1 hm1)
  have hload2 := loadElf32_of_ready (k := k) (hb2.symm ▸ hlay) (hready.of_ends hb2 hm2)
  have hsame := (h _ _ _ _ _ _ _ _ (history_load hmark1) (history_load hmark2) hload1 hload2 _).2
    (huser s1 hb1 huser1) (0x804a000 + size + 4095) (by rw [pageSize] at *; omega)
  rw [hmem s1 hb1, hmem s2 hb2, hbyte1, hbyte2] at hsame
  exact absurd hsame (by decide)

/-- A file that does not cover its page leaves the end of that page as it was, for the program to
    read. -/
theorem not_noninterfering_of_short (hboot1 : Booted m1) (hboot2 : Booted m2)
    (hbreak : m1.vaddrBreak = m2.vaddrBreak) (hmapped : m1.mapped = m2.mapped)
    (hlay : layout32 m1.vaddrBreak r = some lay) (hready : Ready m1 lay)
    (hlen : r.buf.length < pageSize) : ¬ Noninterfering k m1 m2 r := by
  have hfits := layout32_fits hlay
  have hord := hfits.ordered
  have htwo := hfits.two_pages
  refine not_noninterfering lay.specialRegionBreak hboot1 hboot2 hbreak hmapped hlay hready ?_
    hfits.dvd_special hfits.le_vaddrBreak hfits.le_4g hready.image ?_ ?_
  · rw [loadVaddrStart_eq, pageSize] at htwo
    omega
  · intro m hm
    refine Fits.loaded_mem_behind (by rw [hm]; exact hfits) ?_
    rw [pageSize] at *
    omega
  · intro m hm _
    have hfitsm : Fits m.vaddrBreak r lay := by rw [hm]; exact hfits
    have himage : lay.specialRegionBreak / pageSize = lay.imagePage := rfl
    rw [hfitsm.loaded_p1_of_not_userPage fun huser => Nat.lt_irrefl _ huser.2, if_pos himage]
    exact toUserReadonly_user _

/-- The page at `vaddr_break` can be the file's page of an earlier program.  A program with a smaller
    region neither writes it nor takes it from the user. -/
theorem not_noninterfering_of_gap (hboot1 : Booted m1) (hboot2 : Booted m2)
    (hbreak : m1.vaddrBreak = m2.vaddrBreak) (hmapped : m1.mapped = m2.mapped)
    (hlay : layout32 m1.vaddrBreak r = some lay) (hready : Ready m1 lay)
    (hne : lay.specialRegionBreak ≠ m1.vaddrBreak) (h4g : m1.vaddrBreak ≤ 2 ^ 32)
    (hroom : m1.vaddrBreak ≠ m1.mapped) : ¬ Noninterfering k m1 m2 r := by
  have hfits := layout32_fits hlay
  have hord := hfits.ordered
  have htwo := hfits.two_pages
  have hdvd := hfits.dvd_special
  have hdvdV := hready.dvd
  have hle := hfits.le_vaddrBreak
  have hdvdM := Nat.dvd_trans (by decide : pageSize ∣ hugePageSize) hboot1.dvd_mapped
  have hleM := hboot1.le_mapped
  refine not_noninterfering m1.vaddrBreak hboot1 hboot2 hbreak hmapped hlay hready ?_
    hdvdV (Nat.le_refl _) h4g ?_ ?_ ?_
  · rw [loadVaddrStart_eq, pageSize] at htwo
    omega
  · rw [pageSize] at *
    omega
  · intro m hm
    refine Fits.loaded_mem_behind (by rw [hm]; exact hfits) ?_
    rw [pageSize] at *
    omega
  · intro m hm huser
    have hfitsm : Fits m.vaddrBreak r lay := by rw [hm]; exact hfits
    rw [hfitsm.loaded_p1_other, if_neg, huser]
    · intro hrange
      rw [hm] at hrange
      exact Nat.lt_irrefl _ hrange.2
    · intro hp
      have := hp.2
      rw [pageSize] at *
      omega
    · rw [Layout.imagePage]
      rw [pageSize] at *
      omega

end

/-- **What a program can see of earlier ones**: nothing, if its file fills a page, and if the page at
    `vaddr_break` is its own (the sizes of the request add up to that address), above 4 GiB, or not
    there.  Otherwise two histories can be told apart. -/
theorem noninterference_iff (k : Kernel) (m1 m2 m1' : Machine) (r : Request) (app : App)
    (hinit1 : AfterInit m1) (hinit2 : AfterInit m2) (hbreak : m1.vaddrBreak = m2.vaddrBreak)
    (hmapped : m1.mapped = m2.mapped) (haccepted : loadElf32 k m1 r = .ok (m1', some app)) :
    Noninterfering k m1 m2 r ↔ pageSize ≤ r.buf.length ∧
      (r.regionsEnd = m1.vaddrBreak ∨ 2 ^ 32 < m1.vaddrBreak ∨ m1.vaddrBreak = m1.mapped) := by
  have hboot1 := hinit1.booted
  have hboot2 := hinit2.booted
  obtain ⟨lay, hlay, hready, -, rfl⟩ := loadElf32_iff.mp haccepted
  rw [← layout32_end hlay]
  constructor
  · intro h
    constructor
    · by_contra hlen
      exact not_noninterfering_of_short hboot1 hboot2 hbreak hmapped hlay hready
        (Nat.lt_of_not_le hlen) h
    · by_contra hlimit
      obtain ⟨hne, h4g, hroom⟩ := not_or.mp hlimit |>.imp_right not_or.mp
      exact not_noninterfering_of_gap hboot1 hboot2 hbreak hmapped hlay hready hne
        (Nat.le_of_not_lt h4g) hroom h
  · rintro ⟨hlen, hlimit⟩ evs1 evs2 s1 s2 m1' m2' app1 app2 hhist1 hhist2 hload1 hload2
    have h1 := inv_history hboot1 hhist1
    have h2 := inv_history hboot2 hhist2
    obtain ⟨lay1, hlay1, -, hm1, -⟩ := loadElf32_iff.mp hload1
    obtain ⟨lay2, hlay2, -, hm2, -⟩ := loadElf32_iff.mp hload2
    rw [h1.vaddrBreak, hlay] at hlay1
    rw [h2.vaddrBreak, ← hbreak, hlay] at hlay2
    cases hlay1
    cases hlay2
    rw [hm1, hm2]
    exact sameForUser_of_limits h1 h2 hbreak hmapped hlay hlen hlimit

/-- A program whose file has a whole page, on one machine. -/
theorem noninterference_mark : ∃ m m' app, AfterInit m ∧
    loadElf32 someKernel m (mark 0 0 (by decide)) = .ok (m', some app) ∧
    Noninterfering someKernel m m (mark 0 0 (by decide)) := by
  obtain ⟨m, hinit, hbreak, hmapped, -, -⟩ :=
    exists_afterInit (n := 100) (by decide) (by decide) (by decide) (fun _ => 0)
  have hroom : 0x804a000 + 0 ≤ m.vaddrBreak ∧ 0x804a000 + 0 + pageSize ≤ m.vaddrBreak := by
    rw [hbreak]
    decide
  obtain ⟨m', app, hload, -⟩ := load_mark someKernel 0 (by decide) hinit.booted (Nat.dvd_zero _)
    hroom.1 (by decide) (hmapped ▸ hroom.2)
  have hlen := Nat.le_of_eq (length_mark 0 (by decide : 0 < 2 ^ 64)).symm
  exact ⟨m, m', app, hinit, hload,
    (noninterference_iff someKernel m m m' _ app hinit hinit rfl rfl hload).mpr
      ⟨hlen, .inr (.inr hmapped.symm)⟩⟩

/-- A file of 84 bytes behind a file that fills its page: the byte stays. -/
theorem load_tiny_keeps (k : Kernel) {m : Machine} (hle : 0x804a000 + 0 ≤ m.vaddrBreak)
    (hready : Ready m (tinyLayout (0x804a000 + 0))) :
    ∃ m' app, loadElf32 k m (tiny [] 0 (by decide) (by decide)) = .ok (m', some app) ∧
      has (m'.p1 0x804a) pteUser = true ∧ m'.mem 0x804afff = m.mem 0x804afff := by
  have hlay : layout32 m.vaddrBreak (tiny [] 0 (by decide) (by decide)) = _ :=
    layout32_tiny _ _ (Nat.dvd_zero _) hle (by decide)
  have hfits := layout32_fits hlay
  refine ⟨_, _, loadElf32_of_ready hlay hready, ?_, ?_⟩
  · rw [hfits.loaded_p1_of_not_userPage (by decide), if_pos (by decide)]
    exact toUserReadonly_user _
  · exact hfits.loaded_mem_behind (by decide)

/-- Two programs whose files fill a page, and after each of them a program of 84 bytes that ends at
    the same address: it can read the last byte of the file before. -/
theorem tiny_interference : ∃ m s1 s2 last1 last2 m1' m2' app1 app2, AfterInit m ∧
    history someKernel m [.load (mark 0 0 (by decide))] = .ok (s1, last1) ∧
    history someKernel m [.load (mark 1 0 (by decide))] = .ok (s2, last2) ∧
    loadElf32 someKernel s1 (tiny [] 0 (by decide) (by decide)) = .ok (m1', some app1) ∧
    loadElf32 someKernel s2 (tiny [] 0 (by decide) (by decide)) = .ok (m2', some app2) ∧
    has (m1'.p1 0x804a) pteUser = true ∧ has (m2'.p1 0x804a) pteUser = true ∧
    m1'.mem 0x804afff = 0 ∧ m2'.mem 0x804afff = 1 := by
  obtain ⟨m, hinit, hbreak, hmapped, -, -⟩ :=
    exists_afterInit (n := 100) (by decide) (by decide) (by decide) (fun _ => 0)
  have hroom : 0x804a000 + 0 ≤ m.vaddrBreak ∧ 0x804a000 + 0 + pageSize ≤ m.vaddrBreak := by
    rw [hbreak]
    decide
  have hready : Ready m (tinyLayout (0x804a000 + 0)) :=
    ⟨Nat.dvd_trans (by decide) hinit.booted.dvd_break, fun _ => hinit.booted.le_mapped,
      hmapped ▸ hroom.2⟩
  obtain ⟨s1, last1, hmark1, ⟨hb1, hm1⟩, hbyte1, -⟩ := load_mark someKernel 0 (by decide)
    hinit.booted (Nat.dvd_zero _) hroom.1 (by decide) hready.image
  obtain ⟨s2, last2, hmark2, ⟨hb2, hm2⟩, hbyte2, -⟩ := load_mark someKernel 1 (by decide)
    hinit.booted (Nat.dvd_zero _) hroom.1 (by decide) hready.image
  obtain ⟨m1', app1, hload1, huser1, hkeep1⟩ :=
    load_tiny_keeps someKernel (hb1.symm ▸ hroom.1) (hready.of_ends hb1 hm1)
  obtain ⟨m2', app2, hload2, huser2, hkeep2⟩ :=
    load_tiny_keeps someKernel (hb2.symm ▸ hroom.1) (hready.of_ends hb2 hm2)
  exact ⟨m, s1, s2, _, _, m1', m2', app1, app2, hinit, history_load hmark1, history_load hmark2,
    hload1, hload2, huser1, huser2, hkeep1.trans hbyte1, hkeep2.trans hbyte2⟩

end JudgeDuck.Elf
