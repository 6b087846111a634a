/-
  The registered pages, and what `init_page_tables` starts from.

  `Registered addrs s` says what the boot loader's calls for `addrs` leave: which pages are in
  `huge_page_map`, and that `n_huge_pages` counts them.  With the break set (`initPageTableBreak`) the
  allocator has done nothing yet, which is where the invariant of the tables begins.
-/
import JudgeDuck.Memory.Tables
import Mathlib.Data.Finset.Card

namespace JudgeDuck.Memory

open JudgeDuck.Lib
open JudgeDuck.DuckCache (pageSize hugePageSize roundUp)

/-! ## Registering -/

/-- What is registered after calls for the addresses `addrs`. -/
structure Registered (addrs : List Nat) (s : Boot) : Prop where
  aligned : ∀ addr ∈ addrs, hugePageSize ∣ addr
  map : ∀ i, s.hugePageMap i = true ↔ kernelBreak ≤ i * hugePageSize ∧ i * hugePageSize ∈ addrs
  lt : ∀ i, s.hugePageMap i = true → i < maxNHugePages
  count : s.nHugePages = ((Finset.range maxNHugePages).filter (s.hugePageMap · = true)).card
  next : s.nextPageTableAddress = kernelBreak
  pageTableBreak : s.pageTableBreak = 0
  tables : s.tables = []

theorem registered_bss (mem : Nat → BitVec 64) : Registered [] (Boot.bss mem) where
  aligned := fun _ h => absurd h List.not_mem_nil
  map := by simp [Boot.bss]
  lt := by simp [Boot.bss]
  count := by simp [Boot.bss]
  next := rfl
  pageTableBreak := rfl
  tables := rfl

/-- **What a call does**: nothing for a page of the kernel or one that is registered, and else the
    page is registered. -/
theorem register_cases {s s' : Boot} {addr : Nat} (h : registerAvailableHugePage s addr = .ok s') :
    hugePageSize ∣ addr ∧ addr < maxMemorySize ∧
      ((addr < kernelBreak ∧ s' = s) ∨
        (¬ addr < kernelBreak ∧ s.hugePageMap (addr / hugePageSize) = true ∧ s' = s) ∨
        (¬ addr < kernelBreak ∧ ¬ s.hugePageMap (addr / hugePageSize) = true ∧
          s' = { s with
            hugePageMap := Function.update s.hugePageMap (addr / hugePageSize) true
            nHugePages := s.nHugePages + 1 })) := by
  have hhuge : hugePageSize = 2 ^ 21 := rfl
  have hmax : maxMemorySize = maxNHugePages * 2 ^ 21 := rfl
  have hmax' : maxNHugePages < 2 ^ 32 := by decide
  rw [registerAvailableHugePage] at h
  by_cases hmod : addr % hugePageSize = 0
  swap
  · rw [if_pos hmod] at h
    nomatch h
  by_cases hlt : addr < maxMemorySize
  swap
  · rw [if_neg (fun hne => hne hmod), if_pos hlt] at h
    nomatch h
  have hnum : u32 (addr / hugePageSize) = addr / hugePageSize := by
    rw [hhuge]
    exact Nat.mod_eq_of_lt (by omega)
  simp only [hnum] at h
  rw [if_neg (fun hne => hne hmod), if_neg (fun hne => hne hlt)] at h
  refine ⟨Nat.dvd_of_mod_eq_zero hmod, hlt, ?_⟩
  by_cases hlow : addr < kernelBreak
  · rw [if_pos hlow] at h
    exact Or.inl ⟨hlow, (Except.ok.inj h).symm⟩
  rw [if_neg hlow] at h
  by_cases hold : s.hugePageMap (addr / hugePageSize) = true
  · rw [if_pos hold] at h
    exact Or.inr (Or.inl ⟨hlow, hold, (Except.ok.inj h).symm⟩)
  · rw [if_neg hold] at h
    exact Or.inr (Or.inr ⟨hlow, hold, (Except.ok.inj h).symm⟩)

/-- One more page in the map is one more page in the count. -/
theorem card_update {map : Nat → Bool} {n k : Nat} (hk : k < n) (hnew : ¬ map k = true) :
    ((Finset.range n).filter (Function.update map k true · = true)).card =
      ((Finset.range n).filter (map · = true)).card + 1 := by
  have hinsert : (Finset.range n).filter (Function.update map k true · = true) =
      insert k ((Finset.range n).filter (map · = true)) := by
    ext i
    simp only [Finset.mem_filter, Finset.mem_insert, Finset.mem_range]
    by_cases heq : i = k
    · simp [heq, hk]
    · simp [heq]
  rw [hinsert, Finset.card_insert_of_notMem]
  exact fun hmem => hnew (Finset.mem_filter.mp hmem).2

theorem Registered.step {addrs : List Nat} {s s' : Boot} {addr : Nat} (h : Registered addrs s)
    (hs' : registerAvailableHugePage s addr = .ok s') : Registered (addrs ++ [addr]) s' := by
  obtain ⟨hdvd, hlt, hcases⟩ := register_cases hs'
  have haligned : ∀ a ∈ addrs ++ [addr], hugePageSize ∣ a :=
    List.forall_mem_append.mpr ⟨h.aligned, List.forall_mem_singleton.mpr hdvd⟩
  have hhuge : hugePageSize = 2 ^ 21 := rfl
  have hmax : maxMemorySize = maxNHugePages * 2 ^ 21 := rfl
  have hmem : ∀ i, i * hugePageSize ∈ addrs ++ [addr] ↔
      i * hugePageSize ∈ addrs ∨ i = addr / hugePageSize := by
    intro i
    rw [List.mem_append, List.mem_singleton]
    refine or_congr Iff.rfl ?_
    rw [hhuge] at hdvd ⊢
    omega
  rcases hcases with ⟨hlow, rfl⟩ | ⟨-, hold, rfl⟩ | ⟨hhigh, hnew, rfl⟩
  · refine ⟨haligned, fun i => ?_, h.lt, h.count, h.next, h.pageTableBreak, h.tables⟩
    rw [h.map, hmem]
    constructor
    · exact fun ⟨h1, h2⟩ => ⟨h1, Or.inl h2⟩
    · refine fun ⟨h1, h2⟩ => ⟨h1, h2.resolve_right fun heq => ?_⟩
      rw [heq, Nat.div_mul_cancel hdvd] at h1
      omega
  · refine ⟨haligned, fun i => ?_, h.lt, h.count, h.next, h.pageTableBreak, h.tables⟩
    rw [hmem]
    constructor
    · exact fun hi => ⟨((h.map i).mp hi).1, Or.inl ((h.map i).mp hi).2⟩
    · rintro ⟨h1, h2 | rfl⟩
      · exact (h.map i).mpr ⟨h1, h2⟩
      · exact hold
  · have hin : addr / hugePageSize < maxNHugePages := by
      rw [hhuge]
      omega
    have hupdate : ∀ i, Function.update s.hugePageMap (addr / hugePageSize) true i = true ↔
        s.hugePageMap i = true ∨ i = addr / hugePageSize := by
      intro i
      by_cases heq : i = addr / hugePageSize
      · simp [heq]
      · simp [heq]
    refine ⟨haligned, fun i => ?_, fun i hi => ?_, ?_, h.next, h.pageTableBreak, h.tables⟩
    · refine (hupdate i).trans ?_
      rw [hmem, h.map]
      constructor
      · rintro (⟨h1, h2⟩ | rfl)
        · exact ⟨h1, Or.inl h2⟩
        · exact ⟨by rw [Nat.div_mul_cancel hdvd]; omega, Or.inr rfl⟩
      · rintro ⟨h1, h2 | heq⟩
        · exact Or.inl ⟨h1, h2⟩
        · exact Or.inr heq
    · rcases (hupdate i).mp hi with h1 | rfl
      · exact h.lt i h1
      · exact hin
    · exact (congrArg (· + 1) h.count).trans (card_update hin hnew).symm

/-- **Any calls** of the boot loader. -/
theorem registered_all {mem : Nat → BitVec 64} {addrs : List Nat} {s : Boot}
    (hs : registerAll mem addrs = .ok s) : Registered addrs s := by
  have hfold : ∀ (rest done : List Nat) (t : Boot), Registered done t →
      rest.foldlM registerAvailableHugePage t = .ok s → Registered (done ++ rest) s := by
    intro rest
    induction rest with
    | nil =>
      intro done t ht heq
      obtain rfl := Except.ok.inj heq
      rwa [List.append_nil]
    | cons addr rest ih =>
      intro done t ht heq
      rw [List.foldlM_cons] at heq
      obtain ⟨t', ht', heq⟩ := bind_ok heq
      have := ih _ t' (ht.step ht') heq
      rwa [List.append_assoc, List.singleton_append] at this
  exact hfold addrs [] _ (registered_bss mem) hs

/-- Registering pages does not touch them. -/
theorem registerAll_mem {mem : Nat → BitVec 64} {addrs : List Nat} {s : Boot}
    (hs : registerAll mem addrs = .ok s) : s.mem = mem := by
  refine foldlM_inv (fun t : Boot => t.mem = mem) (fun t addr t' ht ht' => ?_) rfl hs
  obtain ⟨-, -, hcases⟩ := register_cases ht'
  rcases hcases with ⟨-, rfl⟩ | ⟨-, -, rfl⟩ | ⟨-, -, rfl⟩
  · exact ht
  · exact ht
  · exact ht

/-- With the break set, the allocator has done nothing yet. -/
theorem Registered.seen (v : View) {addrs : List Nat} {s : Boot} (h : Registered addrs s) :
    Seen v (initPageTableBreak s) (initPageTableBreak s) ∧ (initPageTableBreak s).tables = [] := by
  have hnext : (initPageTableBreak s).nextPageTableAddress = kernelBreak := h.next
  have htables : (initPageTableBreak s).tables = [] := h.tables
  have hnone : ∀ t ∈ (initPageTableBreak s).tables, False := by
    intro t ht
    rw [htables] at ht
    exact absurd ht List.not_mem_nil
  have hkernel : kernelBreak = 8 * hugePageSize := rfl
  refine ⟨⟨?_, fun t ht => (hnone t ht).elim⟩, htables⟩
  refine
    { map := rfl, map_lt := h.lt, pageTableBreak := rfl
      next_aligned := ?_, le_next := ?_, next_le := ?_, inside := fun hnot => ?_, count := ?_
      aligned := fun t ht => (hnone t ht).elim, le := fun t ht => (hnone t ht).elim
      lt_next := fun t ht => (hnone t ht).elim, lt_break := fun t ht => (hnone t ht).elim
      lt_max := fun t ht => (hnone t ht).elim, usable := fun t ht => (hnone t ht).elim
      nodup := ?_ }
  · rw [hnext]
    decide
  · rw [hnext]
  · rw [hnext]
    exact Nat.le_max_left _ _
  · rw [hnext] at hnot
    exact absurd (by decide) hnot
  · -- no page of the kernel is registered
    rw [hnext, htables]
    refine Nat.count_iff_forall_not.mpr fun p hp husable => ?_
    have hle := ((h.map (p / 512)).mp husable).1
    have hp8 : p / 512 < 8 := Nat.div_lt_of_lt_mul (Nat.lt_of_lt_of_eq hp rfl)
    rw [hkernel] at hle
    exact absurd (Nat.le_of_mul_le_mul_right hle (by decide)) (Nat.not_le.mpr hp8)
  · rw [htables]
    exact List.nodup_nil

/-- A call returns when the address is that of a 2 MiB page below 511 GiB. -/
theorem register_ok (s : Boot) {addr : Nat} (hdvd : hugePageSize ∣ addr) (hlt : addr < maxMemorySize) :
    ∃ s', registerAvailableHugePage s addr = .ok s' := by
  rw [registerAvailableHugePage, if_neg (fun hne => hne (Nat.mod_eq_zero_of_dvd hdvd)),
    if_neg (fun hge => hge hlt)]
  split
  · exact ⟨_, rfl⟩
  · dsimp only
    split
    · exact ⟨_, rfl⟩
    · exact ⟨_, rfl⟩

/-- The calls return when the addresses are those of 2 MiB pages below 511 GiB. -/
theorem registerAll_ok (mem : Nat → BitVec 64) {addrs : List Nat}
    (haligned : ∀ addr ∈ addrs, hugePageSize ∣ addr) (hlt : ∀ addr ∈ addrs, addr < maxMemorySize) :
    ∃ s, registerAll mem addrs = .ok s := by
  rw [registerAll]
  generalize Boot.bss mem = t
  induction addrs generalizing t with
  | nil => exact ⟨t, rfl⟩
  | cons addr addrs ih =>
    obtain ⟨t', ht'⟩ := register_ok t (haligned addr List.mem_cons_self) (hlt addr List.mem_cons_self)
    rw [List.foldlM_cons, bind_of_ok ht']
    exact ih (fun a ha => haligned a (List.mem_cons_of_mem _ ha))
      (fun a ha => hlt a (List.mem_cons_of_mem _ ha)) t'

/-- One more call. -/
theorem registerAll_concat {mem : Nat → BitVec 64} {addrs : List Nat} {addr : Nat} {s s' : Boot}
    (hs : registerAll mem addrs = .ok s) (hs' : registerAvailableHugePage s addr = .ok s') :
    registerAll mem (addrs ++ [addr]) = .ok s' := by
  rw [registerAll] at hs
  rw [registerAll, List.foldlM_append, bind_of_ok hs, List.foldlM_cons, bind_of_ok hs']
  rfl

end JudgeDuck.Memory
