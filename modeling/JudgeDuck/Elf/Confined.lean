/-
  What a load touches.

  The checks of `load_elf32` compare the end of the last region with `vaddr_break` and with 4 GiB, but
  the page of the file comes behind it, and is not part of that.  So a load stays below the two limits
  exactly when the last region ends before them, and when it ends at `vaddr_break`, the first page of
  what was allocated there is overwritten and given to the program.
-/
import JudgeDuck.Elf.History

namespace JudgeDuck.Elf

open JudgeDuck.Lib JudgeDuck.Memory
open JudgeDuck.DuckCache (pageSize hugePageSize roundUp)

/-- A load from `m` to `m'` stays below `vaddr_break` and 4 GiB. -/
structure Confined (m m' : Machine) : Prop where
  /-- A page that is written, given to the user or marked. -/
  touched : ∀ p, m'.touched p = true → loadVaddrStart ≤ p * pageSize ∧
    (p + 1) * pageSize ≤ m.vaddrBreak ∧ (p + 1) * pageSize ≤ 2 ^ 32
  /-- What is allocated is not modified. -/
  mem : ∀ a, m.vaddrBreak ≤ a → m'.mem a = m.mem a
  /-- It is not exposed either. -/
  p1 : ∀ p, m.vaddrBreak ≤ p * pageSize → m'.p1 p = m.p1 p

/-- **When the 32-bit loader stays below its limits**: when the sizes of the request, rounded up to pages,
    end before them. -/
theorem load_confined_iff (k : Kernel) (m m' : Machine) (r : Request) (app : App)
    (hrecord : ∀ p, m.touched p = false) (hload : loadElf32 k m r = .ok (m', some app)) :
    Confined m m' ↔ r.regionsEnd < m.vaddrBreak ∧ r.regionsEnd < 2 ^ 32 := by
  obtain ⟨lay, hlay, hready, rfl, rfl⟩ := loadElf32_iff.mp hload
  have hfits := layout32_fits hlay
  have hord := hfits.ordered
  have hdvd := hfits.dvd_special
  have hdvdV := hready.dvd
  have htouched : ∀ p, (loaded k r lay m).touched p = true ↔ lay.userPage p ∨ p = lay.imagePage := by
    intro p
    rw [hfits.loaded_touched, hrecord, Bool.false_or, decide_eq_true_eq]
  rw [← layout32_end hlay]
  constructor
  · intro h
    obtain ⟨-, h1, h2⟩ := h.touched lay.imagePage ((htouched _).mpr (.inr rfl))
    rw [Layout.imagePage] at h1 h2
    rw [pageSize] at *
    omega
  · intro h
    refine ⟨?_, ?_, ?_⟩
    · intro p hp
      have hrange : loadVaddrStart / pageSize ≤ p ∧ p ≤ lay.specialRegionBreak / pageSize := by
        rcases (htouched p).mp hp with huser | rfl
        · exact ⟨huser.1, Nat.le_of_lt huser.2⟩
        · exact ⟨Nat.div_le_div_right (by omega), Nat.le_refl _⟩
      rw [loadVaddrStart_eq] at *
      rw [pageSize] at *
      omega
    · intro a ha
      refine hfits.loaded_mem_of_not_userPage ?_ ?_
      · intro huser
        have := (hfits.userPage_iff.mp huser).2
        omega
      · intro himage
        have := (hfits.imagePage_iff.mp himage).2
        rw [pageSize] at *
        omega
    · intro p hp
      have huser : ¬ lay.userPage p := by
        intro huser
        have := huser.2
        rw [pageSize] at *
        omega
      have himage : p ≠ lay.imagePage := by
        rw [Layout.imagePage]
        rw [pageSize] at *
        omega
      rw [hfits.loaded_p1_other huser himage]
      refine if_neg fun hrange => ?_
      have := hrange.2
      rw [pageSize] at *
      omega

/-- A machine that has touched nothing before, and the smallest program. -/
theorem load_confined_tiny : ∃ m m' app, (∀ p, m.touched p = false) ∧
    loadElf32 someKernel m (tiny [] 0 (by decide) (by decide)) = .ok (m', some app) ∧
    (tiny [] 0 (by decide) (by decide)).regionsEnd < m.vaddrBreak ∧
    (tiny [] 0 (by decide) (by decide)).regionsEnd < 2 ^ 32 ∧ Confined m m' := by
  obtain ⟨m, m', app, -, hrecord, hroom, -, hload⟩ := exists_tiny
  have hend : (tiny [] 0 (by decide) (by decide)).regionsEnd = 0x804a000 := by decide
  have hbefore : (tiny [] 0 (by decide) (by decide)).regionsEnd < m.vaddrBreak ∧
      (tiny [] 0 (by decide) (by decide)).regionsEnd < 2 ^ 32 := by
    rw [hend]
    exact ⟨hroom, by decide⟩
  exact ⟨m, m', app, hrecord, hload, hbefore.1, hbefore.2,
    (load_confined_iff someKernel m m' _ app hrecord hload).mpr hbefore⟩

/-- A tiny program that ends at `vaddr_break`: the first page allocated there, all zero before, holds
    the file, and the program can read it. -/
theorem load_not_confined : ∃ m0 m m' app, AfterInit m0 ∧
    allocateVirtualMemory hugePageSize m0 = (m, some m.vaddrBreak) ∧
    (∀ p, m.touched p = false) ∧
    loadElf32 someKernel m (tiny [] 87777280 (by decide) (by decide)) = .ok (m', some app) ∧
    m'.touched (m.vaddrBreak / pageSize) = true ∧
    m.mem m.vaddrBreak = 0 ∧ m'.mem m.vaddrBreak = 0x7f ∧
    has (m'.p1 (m.vaddrBreak / pageSize)) pteUser = true := by
  obtain ⟨m0, hinit, hbreak0, hmapped0, hmem0, hrecord0⟩ :=
    exists_afterInit (n := 100) (by decide) (by decide) (by decide) (fun _ => 0)
  replace hbreak0 : m0.vaddrBreak = 224395264 := hbreak0
  have halloc : allocateVirtualMemory hugePageSize m0 =
      ({ m0 with vaddrBreak := 222298112 }, some 222298112) := by
    rw [allocateVirtualMemory, hbreak0, if_neg (by decide)]
    rfl
  obtain ⟨m, hm⟩ : ∃ m, m = { m0 with vaddrBreak := 222298112 } := ⟨_, rfl⟩
  have hbreak : m.vaddrBreak = 222298112 := by rw [hm]
  have hmapped : m.mapped = 224395264 := by rw [hm, ← hbreak0, ← hmapped0]
  have hmem : m.mem m.vaddrBreak = 0 := by rw [hm, hmem0]
  have hrecord : ∀ p, m.touched p = false := by rw [hm]; exact hrecord0
  rw [← hm, ← hbreak] at halloc
  have hlay : layout32 m.vaddrBreak (tiny [] 87777280 (by decide) (by decide)) =
      some (tinyLayout m.vaddrBreak) := by
    rw [hbreak]
    exact layout32_tiny (by decide) (by decide) (by decide) (Nat.le_refl _) (by decide)
  have hready : Ready m (tinyLayout m.vaddrBreak) := by
    refine ⟨?_, fun _ => ?_, ?_⟩
    · rw [hbreak]
      decide
    · rw [hbreak, hmapped]
      decide
    · rw [tinyLayout, hbreak, hmapped]
      decide
  have hload := loadElf32_of_ready (k := someKernel) hlay hready
  have hfits := layout32_fits hlay
  have himage : m.vaddrBreak / pageSize = (tinyLayout m.vaddrBreak).imagePage := rfl
  have huser : ¬ (tinyLayout m.vaddrBreak).userPage (m.vaddrBreak / pageSize) :=
    fun h => Nat.lt_irrefl _ h.2
  refine ⟨m0, m, _, _, hinit, halloc, hrecord, hload, ?_, hmem, ?_, ?_⟩
  · rw [hfits.loaded_touched, himage]
    simp
  · rw [hfits.loaded_mem_apply, if_neg, if_pos]
    · rw [tinyLayout, Nat.sub_self]
      rfl
    · exact ⟨Nat.le_refl _, Nat.lt_add_of_pos_right (by decide)⟩
    · intro h
      rw [hbreak] at h
      exact absurd h.2 (by decide)
  · rw [hfits.loaded_p1_of_not_userPage huser, if_pos himage]
    exact toUserReadonly_user _

end JudgeDuck.Elf
