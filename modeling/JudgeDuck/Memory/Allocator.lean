/-
  The window of `boot.asm`, and the allocator of page tables.

  `window_eq`: what the code sees of an address below 512 GiB is what lies at its low 32 bits.  A `View`
  is a set of pages that the window keeps apart, from each other and from the kernel; writing to one of
  them does not change another (`pte_setPte`), and the pages below 4 GiB are one (`View.low`).

  `page_table_alloc` hands out the 4 KiB pages of the registered memory from `kernel_break` on in order,
  so a table has as many before it as there are registered pages below its address (`Allocs.count`).
  `room` is how many there are up to `page_table_break`, and `Short` is what is known when the allocator
  has to give up.
-/
import JudgeDuck.Memory.Boot
import Mathlib.Data.List.Nodup
import Mathlib.Data.Nat.Count

namespace JudgeDuck.Memory

open JudgeDuck.Lib
open JudgeDuck.DuckCache (pageSize hugePageSize roundUp)

/-! ## The window -/

theorem shift_and {v e : Nat} : (v >>> e) &&& (nEntries - 1) = v / 2 ^ e % 512 := by
  rw [Nat.shiftRight_eq_div_pow]
  exact Nat.and_two_pow_sub_one_eq_mod _ 9

section

variable {a : Nat}

/-- What is found at `remap(a)`: the address modulo 2^32, as only 32 bits of an entry were
    stored. -/
theorem bootTranslate_remap (ha : a < 2 ^ 39) : bootTranslate (remap a) = some (a % 2 ^ 32) := by
  have hremap : remap a = 2 ^ 64 - 2 ^ 40 + a := by
    rw [remap, u64]
    omega
  have hindex : p3Index (remap a) = a / 2 ^ 30 := by
    rw [p3Index, shift_and, hremap]
    omega
  have hpaddr : bootP3 (p3Index (remap a)) + remap a % p3PageSize = a % 2 ^ 32 := by
    rw [hindex, bootP3, u32, p3PageSize, hremap]
    omega
  rw [bootTranslate, if_pos (by omega), hpaddr]

/-- **What the window shows**: the first 4 GiB again and again. -/
theorem window_eq (ha : a < 2 ^ 39) : window a = a % 2 ^ 32 := by
  rw [window, bootTranslate_remap ha, Option.getD_some]

/-- Nothing above 4 GiB is ever seen. -/
theorem window_lt (a : Nat) : window a < 2 ^ 32 := by
  rw [window, bootTranslate]
  split
  · rw [Option.getD_some, bootP3, u32, p3PageSize]
    omega
  · rw [Option.getD_none]
    decide

theorem reaches_of_le (ha : a < 2 ^ 39) (hle : kernelBreak ≤ a % 2 ^ 32) : reaches a = true := by
  rw [reaches, bootTranslate_remap ha]
  exact decide_eq_true hle

end

theorem or_index {t i : Nat} (ht : 2 ^ 12 ∣ t) (hi : i < 512) : t ||| (i * 8) = t + i * 8 := by
  obtain ⟨m, rfl⟩ := ht
  exact (Nat.two_pow_add_eq_or_of_lt (by omega) m).symm

/-- Pages that the window shows at different places, none of them in the kernel. -/
structure View where
  pages : Nat → Prop
  aligned : ∀ t, pages t → 2 ^ 12 ∣ t
  lt : ∀ t, pages t → t < maxMemorySize
  kernel_le : ∀ t, pages t → kernelBreak ≤ t % 2 ^ 32
  inj : ∀ t t', pages t → pages t' → t % 2 ^ 32 = t' % 2 ^ 32 → t = t'

/-- A page between the kernel and 4 GiB. -/
def LowPage (t : Nat) : Prop := 2 ^ 12 ∣ t ∧ kernelBreak ≤ t ∧ t < 2 ^ 32

theorem LowPage.mod {t : Nat} (ht : LowPage t) : t % 2 ^ 32 = t := Nat.mod_eq_of_lt ht.2.2

theorem LowPage.lt {t : Nat} (ht : LowPage t) : t < maxMemorySize :=
  Nat.lt_trans ht.2.2 (by decide)

/-- The pages below 4 GiB, which are where they are shown. -/
def View.low : View where
  pages := LowPage
  aligned := fun _ ht => ht.1
  lt := fun _ ht => ht.lt
  kernel_le := fun _ ht => Nat.le_trans ht.2.1 (Nat.le_of_eq ht.mod.symm)
  inj := fun _ _ ht ht' heq => ht.mod.symm.trans (heq.trans ht'.mod)

section

variable {v : View} {s : Boot} {t t' i i' : Nat}

theorem View.reaches (ht : v.pages t) : reaches t = true :=
  reaches_of_le (Nat.lt_trans (v.lt t ht) (by decide)) (v.kernel_le t ht)

/-- An entry of such a page, as the kernel reaches it. -/
theorem View.window_index (ht : v.pages t) (hi : i < 512) :
    window (t ||| (i * 8)) = t % 2 ^ 32 + i * 8 := by
  have haligned := v.aligned t ht
  have hlt := v.lt t ht
  have hmax : maxMemorySize = 511 * 2 ^ 30 := rfl
  rw [or_index haligned hi, window_eq (by omega)]
  omega

/-- **One entry changes**: no two pages of a view are seen at one place. -/
theorem pte_setPte (e : BitVec 64) (ht : v.pages t) (hi : i < 512) (ht' : v.pages t') (hi' : i' < 512) :
    (s.setPte t i e).pte t' i' = if t' = t ∧ i' = i then e else s.pte t' i' := by
  have haligned := v.aligned t ht
  have haligned' := v.aligned t' ht'
  simp only [Boot.pte, Boot.setPte, v.window_index ht hi, v.window_index ht' hi']
  split
  · next h => rw [h.1, h.2, Function.update_self]
  · next h =>
    refine Function.update_of_ne (fun heq => h ?_) _ _
    have hpage : t' % 2 ^ 32 = t % 2 ^ 32 := by omega
    exact ⟨v.inj t' t ht' ht hpage, by omega⟩

theorem pte_zeroPage (ht : v.pages t) (ht' : v.pages t') (hi' : i' < 512) :
    (s.zeroPage t).pte t' i' = if t' = t then 0#64 else s.pte t' i' := by
  have hsize : pageSize = 2 ^ 12 := rfl
  have haligned := v.aligned t ht
  have haligned' := v.aligned t' ht'
  have hlt := v.lt t ht
  have hmax : maxMemorySize = 511 * 2 ^ 30 := rfl
  simp only [Boot.pte, Boot.zeroPage, v.window_index ht' hi', window_eq (a := t) (by omega)]
  by_cases h : t' = t
  · rw [if_pos h, if_pos (by omega)]
  · have hne : t' % 2 ^ 32 ≠ t % 2 ^ 32 := fun heq => h (v.inj t' t ht' ht heq)
    rw [if_neg h, if_neg (by omega)]

theorem fillTable_eq (f : Nat → BitVec 64) :
    s.fillTable t f = { s with mem := (s.fillTable t f).mem } := by
  refine forUp_inv (fun _ (u : Boot) => u = { s with mem := u.mem }) rfl fun i _ u hu => ?_
  rw [hu]
  rfl

theorem setPte_tables (e : BitVec 64) : (s.setPte t i e).tables = s.tables := rfl

theorem fillTable_tables (f : Nat → BitVec 64) : (s.fillTable t f).tables = s.tables := by
  rw [fillTable_eq]

theorem pte_fillTable (f : Nat → BitVec 64) (ht : v.pages t) (ht' : v.pages t') (hi' : i' < 512) :
    (s.fillTable t f).pte t' i' = if t' = t then f i' else s.pte t' i' := by
  have hinv : (s.fillTable t f).pte t' i' =
      if t' = t ∧ i' < nEntries then f i' else s.pte t' i' := by
    refine forUp_inv (fun n (u : Boot) => u.pte t' i' = if t' = t ∧ i' < n then f i' else s.pte t' i')
      ?_ fun j hj u hu => ?_
    · rw [if_neg (by omega)]
    · rw [pte_setPte _ ht (Nat.lt_of_lt_of_eq hj rfl) ht' hi', hu]
      by_cases h : t' = t ∧ i' = j
      · rw [if_pos h, if_pos (by omega), h.2]
      · rw [if_neg h]
        by_cases h' : t' = t ∧ i' < j
        · rw [if_pos h', if_pos (by omega)]
        · rw [if_neg h', if_neg (by omega)]
  have hn : i' < nEntries := hi'
  rw [hinv]
  simp only [hn, and_true]

/-- Below 4 GiB the processor and the window see the same. -/
theorem View.word_eq (ht : View.low.pages t) (hi : i < 512) : s.word t i = s.pte t i := by
  rw [Boot.word, Boot.pte, View.window_index ht hi, or_index ht.1 hi, Nat.mod_eq_of_lt ht.2.2]

end

/-! ## Counting -/

/-- The 4 KiB page `p` is in a registered page. -/
def Boot.usable (b : Boot) (p : Nat) : Prop := b.hugePageMap (p / 512) = true

instance (b : Boot) : DecidablePred b.usable := fun _ => inferInstanceAs (Decidable (_ = true))

/-- The tables that fit below `page_table_break`. -/
def room (b : Boot) : Nat := Nat.count b.usable (b.pageTableBreak / pageSize)

/-- Where there is nothing to count the count stays. -/
theorem count_eq_of_none {p : Nat → Prop} [DecidablePred p] {m n : Nat} (hle : m ≤ n)
    (hnone : ∀ i, m ≤ i → i < n → ¬ p i) : Nat.count p n = Nat.count p m := by
  refine Nat.le_antisymm (Nat.le_of_not_lt fun hlt => ?_) (Nat.count_monotone p hle)
  obtain ⟨i, ⟨hmi, hin⟩, hi⟩ := Nat.exists_of_count_lt_count hlt
  exact hnone i hmi hin hi

/-- A registered page has 512 pages for tables. -/
theorem count_usable (b : Boot) (m : Nat) :
    Nat.count b.usable (512 * m) = 512 * Nat.count (b.hugePageMap · = true) m := by
  induction m with
  | zero => rfl
  | succ m ih =>
    have hshift : Nat.count (fun k => b.usable (512 * m + k)) 512 =
        if b.hugePageMap m = true then 512 else 0 := by
      have hdiv : ∀ k, k < 512 → (512 * m + k) / 512 = m := fun k hk => by omega
      split
      · next h =>
        refine Nat.count_of_forall fun k hk => ?_
        rw [Boot.usable, hdiv k hk, h]
      · next h =>
        refine Nat.count_iff_forall_not.mpr fun k hk => ?_
        rwa [Boot.usable, hdiv k hk]
    rw [Nat.mul_succ, Nat.count_add, hshift, ih, Nat.count_succ]
    split
    · rw [Nat.mul_succ]
    · rfl

/-! ## The allocator -/

/-- There is no hole in the registered pages up to `page_table_break`. -/
structure Contiguous (b : Boot) : Prop where
  le : kernelBreak ≤ b.pageTableBreak
  lt : b.pageTableBreak / hugePageSize < maxNHugePages
  registered : ∀ i, kernelBreak / hugePageSize ≤ i → i ≤ b.pageTableBreak / hugePageSize →
    b.hugePageMap i = true

/-- What the allocator has done since the state `b`. -/
structure Allocs (b s : Boot) : Prop where
  map : s.hugePageMap = b.hugePageMap
  map_lt : ∀ i, b.hugePageMap i = true → i < maxNHugePages
  pageTableBreak : s.pageTableBreak = b.pageTableBreak
  next_aligned : 2 ^ 12 ∣ s.nextPageTableAddress
  le_next : kernelBreak ≤ s.nextPageTableAddress
  next_le : s.nextPageTableAddress ≤ max kernelBreak b.pageTableBreak
  /-- Between two tables of a 2 MiB page the search does not move. -/
  inside : ¬ hugePageSize ∣ s.nextPageTableAddress →
    b.hugePageMap (s.nextPageTableAddress / hugePageSize) = true
  count : Nat.count b.usable (s.nextPageTableAddress / pageSize) = s.tables.length
  aligned : ∀ t ∈ s.tables, 2 ^ 12 ∣ t
  le : ∀ t ∈ s.tables, kernelBreak ≤ t
  lt_next : ∀ t ∈ s.tables, t < s.nextPageTableAddress
  lt_break : ∀ t ∈ s.tables, t + pageSize ≤ b.pageTableBreak
  lt_max : ∀ t ∈ s.tables, t < maxMemorySize
  usable : ∀ t ∈ s.tables, b.usable (t / pageSize)
  nodup : s.tables.Nodup

/-- What the allocator has done does not depend on memory. -/
theorem Allocs.of_eq {b s s' : Boot} (h : Allocs b s) (hmap : s'.hugePageMap = s.hugePageMap)
    (hbreak : s'.pageTableBreak = s.pageTableBreak)
    (hnext : s'.nextPageTableAddress = s.nextPageTableAddress) (htables : s'.tables = s.tables) :
    Allocs b s' := by
  obtain ⟨h1, h2, h3, h4, h5, h6, h7, h8, h9, h10, h11, h12, h13, h14, h15⟩ := h
  rw [← hmap] at h1
  rw [← hbreak] at h3
  rw [← hnext] at h4 h5 h6 h7 h8 h11
  rw [← htables] at h8 h9 h10 h11 h12 h13 h14 h15
  exact ⟨h1, h2, h3, h4, h5, h6, h7, h8, h9, h10, h11, h12, h13, h14, h15⟩

theorem Allocs.setPte {b s : Boot} (h : Allocs b s) (t i : Nat) (e : BitVec 64) :
    Allocs b (s.setPte t i e) := h.of_eq rfl rfl rfl rfl

theorem Allocs.fillTable {b s : Boot} (h : Allocs b s) (t : Nat) (f : Nat → BitVec 64) :
    Allocs b (s.fillTable t f) := by
  rw [fillTable_eq]
  exact h.of_eq rfl rfl rfl rfl

/-- What has been handed out fits. -/
theorem Allocs.length_le {b s : Boot} (h : Allocs b s) : s.tables.length ≤ room b := by
  have hnext := h.next_le
  by_cases hle : s.nextPageTableAddress ≤ b.pageTableBreak
  · rw [← h.count]
    exact Nat.count_monotone _ (Nat.div_le_div_right hle)
  · -- the break is below the kernel's end, so nothing was handed out
    cases htables : s.tables with
    | nil => exact Nat.zero_le _
    | cons t ts =>
      have hmem : t ∈ s.tables := by
        rw [htables]
        exact List.mem_cons_self
      have h1 := h.le t hmem
      have h2 := h.lt_break t hmem
      omega

/-- What a fault says when `needed` pages were to be taken. -/
def Short (b : Boot) (needed : Nat) (e : Fault) : Prop :=
  room b < needed ∧ (Contiguous b → e = .assertion)

theorem Short.mono {b : Boot} {n m : Nat} {e : Fault} (hle : n ≤ m) (h : Short b n e) :
    Short b m e := ⟨Nat.lt_of_lt_of_le h.1 hle, h.2⟩

/-- The search ends at the first registered page; when it fails there is none. -/
theorem nextAvailable_ends (map : Nat → Bool) (fuel next : Nat)
    (hfuel : maxNHugePages < fuel + next / hugePageSize) :
    Ends (fun _ => ∀ i, next / hugePageSize ≤ i → i < maxNHugePages → ¬ map i = true)
      (fun ret => next ≤ ret ∧ hugePageSize ∣ ret - next ∧ map (ret / hugePageSize) = true ∧
        ∀ i, next / hugePageSize ≤ i → i < ret / hugePageSize → ¬ map i = true)
      (nextAvailable map fuel next) := by
  have hhuge : hugePageSize = 2097152 := rfl
  induction fuel generalizing next with
  | zero => exact fun i hi hlt => absurd hi (by omega)
  | succ fuel ih =>
    rw [nextAvailable]
    by_cases hmax : maxNHugePages ≤ next / hugePageSize
    · rw [if_pos hmax]
      exact fun i hi hlt => absurd hi (by omega)
    by_cases hmap : map (next / hugePageSize) = true
    · rw [if_neg hmax, if_pos hmap]
      refine ⟨Nat.le_refl _, ?_, hmap, fun i hi hlt => absurd hi (by omega)⟩
      rw [Nat.sub_self]
      exact Nat.dvd_zero _
    · -- the page at `next` is not registered, and the rest is the search from the one behind it
      have hdiv : (next + hugePageSize) / hugePageSize = next / hugePageSize + 1 :=
        Nat.add_div_right next (by decide)
      have hskip : ∀ i, next / hugePageSize ≤ i → ¬ next / hugePageSize + 1 ≤ i → ¬ map i = true := by
        intro i hi hi'
        rwa [show i = next / hugePageSize by omega]
      rw [if_neg hmax, if_neg hmap]
      refine (ih (next + hugePageSize) (by omega)).mono (fun e hnone i hi hlt => ?_) ?_
      · by_cases hi' : next / hugePageSize + 1 ≤ i
        · exact hnone i (by omega) hlt
        · exact hskip i hi hi'
      · rintro ret ⟨hle, hdvd, hret, hnone⟩
        refine ⟨by omega, ?_, hret, fun i hi hlt => ?_⟩
        · rw [show ret - next = ret - (next + hugePageSize) + hugePageSize by omega]
          exact Nat.dvd_add hdvd (Nat.dvd_refl _)
        · by_cases hi' : next / hugePageSize + 1 ≤ i
          · exact hnone i (by omega) hlt
          · exact hskip i hi hi'

theorem nextAvailable_here {map : Nat → Bool} {next : Nat} (fuel : Nat)
    (hlt : next / hugePageSize < maxNHugePages) (hmap : map (next / hugePageSize) = true) :
    nextAvailable map (fuel + 1) next = .ok next := by
  rw [nextAvailable, if_neg (Nat.not_le.mpr hlt), if_pos hmap]

/-- Without holes the page at `next_page_table_address` is registered, so the search ends where it
    starts. -/
theorem Allocs.nextAvailable_eq {b s : Boot} (h : Allocs b s) (hb : Contiguous b) :
    nextAvailable s.hugePageMap (maxNHugePages + 1) s.nextPageTableAddress =
      .ok s.nextPageTableAddress := by
  have hle : s.nextPageTableAddress ≤ b.pageTableBreak := by
    have := h.next_le
    have := hb.le
    omega
  have hdiv := Nat.div_le_div_right (c := hugePageSize) hle
  apply nextAvailable_here
  · exact Nat.lt_of_le_of_lt hdiv hb.lt
  · rw [h.map]
    exact hb.registered _ (Nat.div_le_div_right h.le_next) hdiv

section

variable {b s : Boot} {ret : Nat} (h : Allocs b s)
include h

/-- The pages that the search has skipped are not registered, so they do not count. -/
theorem Allocs.count_ret (hle : s.nextPageTableAddress ≤ ret)
    (hdvd : hugePageSize ∣ ret - s.nextPageTableAddress)
    (hskip : ∀ i, s.nextPageTableAddress / hugePageSize ≤ i → i < ret / hugePageSize →
      ¬ b.hugePageMap i = true) : Nat.count b.usable (ret / pageSize) = s.tables.length := by
  have hhuge : hugePageSize = 2097152 := rfl
  have hsize : pageSize = 4096 := rfl
  rw [← h.count]
  refine count_eq_of_none (Nat.div_le_div_right hle) fun p hp hlt => ?_
  rw [hsize] at hp hlt
  rw [hhuge] at hdvd
  by_cases heq : ret = s.nextPageTableAddress
  · omega
  -- the search has moved, which it only does from the beginning of a 2 MiB page
  have hboundary : hugePageSize ∣ s.nextPageTableAddress := by
    by_contra hnot
    exact hskip _ (Nat.le_refl _) (by rw [hhuge]; omega) (h.inside hnot)
  rw [hhuge] at hboundary
  exact hskip (p / 512) (by rw [hhuge]; omega) (by rw [hhuge]; omega)

/-- One more table, at or behind `next_page_table_address`. -/
theorem Allocs.add (hle : s.nextPageTableAddress ≤ ret)
    (hdvd : hugePageSize ∣ ret - s.nextPageTableAddress)
    (hregistered : b.hugePageMap (ret / hugePageSize) = true)
    (hcount : Nat.count b.usable (ret / pageSize) = s.tables.length)
    (hroom : ret + pageSize ≤ s.pageTableBreak) :
    Allocs b { s with nextPageTableAddress := ret + pageSize, tables := s.tables ++ [ret] } := by
  have hsize : pageSize = 4096 := rfl
  have hhuge : hugePageSize = 2097152 := rfl
  have hmax : maxNHugePages * 2097152 = maxMemorySize := rfl
  have hbreak : s.pageTableBreak = b.pageTableBreak := h.pageTableBreak
  have hkernel : kernelBreak ≤ ret := Nat.le_trans h.le_next hle
  have hnext := h.next_aligned
  have haligned : 2 ^ 12 ∣ ret := by
    rw [hhuge] at hdvd
    omega
  have hlt : ret < maxMemorySize := by
    have := h.map_lt _ hregistered
    rw [hhuge] at this
    omega
  have husable : b.usable (ret / pageSize) := by
    rw [Boot.usable, show ret / pageSize / 512 = ret / hugePageSize by rw [hsize, hhuge]; omega]
    exact hregistered
  refine
    { map := h.map
      map_lt := h.map_lt
      pageTableBreak := hbreak
      next_aligned := by
        show 2 ^ 12 ∣ ret + pageSize
        rw [hsize]
        omega
      le_next := Nat.le_trans hkernel (Nat.le_add_right _ _)
      next_le := by
        show ret + pageSize ≤ max kernelBreak b.pageTableBreak
        omega
      inside := fun hnot => ?_
      count := ?_
      aligned := List.forall_mem_append.mpr ⟨h.aligned, List.forall_mem_singleton.mpr haligned⟩
      le := List.forall_mem_append.mpr ⟨h.le, List.forall_mem_singleton.mpr hkernel⟩
      lt_next := List.forall_mem_append.mpr ⟨fun t ht => ?_, List.forall_mem_singleton.mpr ?_⟩
      lt_break := List.forall_mem_append.mpr
        ⟨h.lt_break, List.forall_mem_singleton.mpr (by omega)⟩
      lt_max := List.forall_mem_append.mpr ⟨h.lt_max, List.forall_mem_singleton.mpr hlt⟩
      usable := List.forall_mem_append.mpr ⟨h.usable, List.forall_mem_singleton.mpr husable⟩
      nodup := ?_ }
  · -- not at the end of the 2 MiB page of `ret`
    replace hnot : ¬ hugePageSize ∣ ret + pageSize := hnot
    show b.hugePageMap ((ret + pageSize) / hugePageSize) = true
    rw [show (ret + pageSize) / hugePageSize = ret / hugePageSize by
      rw [hhuge] at hnot ⊢
      rw [hsize] at hnot ⊢
      omega]
    exact hregistered
  · show Nat.count b.usable ((ret + pageSize) / pageSize) = (s.tables ++ [ret]).length
    rw [Nat.add_div_right ret (by decide), Nat.count_succ, if_pos husable, hcount, List.length_append,
      List.length_singleton]
  · have := h.lt_next t ht
    show t < ret + pageSize
    omega
  · show ret < ret + pageSize
    omega
  · refine List.nodup_append.mpr ⟨h.nodup, List.nodup_singleton _, fun t ht u hu => ?_⟩
    have := h.lt_next t ht
    rw [List.mem_singleton] at hu
    omega

/-- **`page_table_alloc`** hands out the next registered page. -/
theorem pageTableAlloc_ends :
    Ends (Short b (s.tables.length + 1)) (fun p => Allocs b p.1 ∧ p.1 =
        { s with nextPageTableAddress := p.2 + pageSize, tables := s.tables ++ [p.2] } ∧
        Nat.count b.usable (p.2 / pageSize) = s.tables.length)
      (pageTableAlloc s) := by
  have hhuge : hugePageSize = 2097152 := rfl
  have hsize : pageSize = 4096 := rfl
  have hbreak : s.pageTableBreak = b.pageTableBreak := h.pageTableBreak
  have hends := nextAvailable_ends s.hugePageMap (maxNHugePages + 1) s.nextPageTableAddress
    (Nat.lt_add_right _ (Nat.lt_succ_self _))
  rw [pageTableAlloc]
  cases hnext : nextAvailable s.hugePageMap (maxNHugePages + 1) s.nextPageTableAddress with
  | error e =>
    -- no registered page is left, so none is left below the break
    have hnone := hends.of_error hnext
    rw [h.map] at hnone
    refine ⟨Nat.lt_succ_of_le ?_, fun hb => ?_⟩
    · rw [room, ← h.count]
      refine Nat.le_of_not_lt fun hlt => ?_
      obtain ⟨p, ⟨hp, -⟩, husable⟩ := Nat.exists_of_count_lt_count hlt
      refine hnone (p / 512) ?_ (h.map_lt _ husable) husable
      rw [hsize] at hp
      rw [hhuge]
      omega
    · rw [h.nextAvailable_eq hb] at hnext
      cases hnext
  | ok ret =>
    obtain ⟨hle, hdvd, hregistered, hskip⟩ := hends.of_ok hnext
    rw [h.map] at hregistered hskip
    have hcount := h.count_ret hle hdvd hskip
    show Ends _ _ (if ret + pageSize ≤ s.pageTableBreak then _ else _)
    by_cases hroom : ret + pageSize ≤ s.pageTableBreak
    · rw [if_pos hroom]
      exact ⟨h.add hle hdvd hregistered hcount hroom, rfl, hcount⟩
    · rw [if_neg hroom]
      refine ⟨Nat.lt_succ_of_le ?_, fun _ => rfl⟩
      have haligned := h.next_aligned
      rw [room, ← hcount]
      refine Nat.count_monotone _ ?_
      rw [hhuge] at hdvd
      rw [hsize] at hroom ⊢
      omega

end

end JudgeDuck.Memory
