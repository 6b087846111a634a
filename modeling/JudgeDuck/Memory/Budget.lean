/-
  Whether the pages that `init_page_table_break` reserves are enough.

  The number of tables is known before a table is made: a P4, two P3, and for the 8 pieces of the kernel
  and each mapped page a P1 and their P2.  The reservation is computed from the number of registered
  pages, of which the reserved ones will not be mapped (`Registered.length_targetsOf`), and is rounded up
  to 2 MiB; the P1 of the kernel's pieces are not in it.  The rounding usually covers them.  For memory
  without holes `fits_iff` lists the sizes for which it does not.

  With holes the reserved pages can lie anywhere.  `TablesLow` is the condition that the tables stay
  below 4 GiB, where the window shows them.
-/
import JudgeDuck.Memory.Registered
import Mathlib.Order.Interval.Finset.Nat
import Mathlib.Tactic.IntervalCases

namespace JudgeDuck.Memory

open JudgeDuck.Lib
open JudgeDuck.DuckCache (pageSize hugePageSize roundUp)

/-! ## The reservation -/

/-- The 2 MiB pages that are reserved when `n` are registered. -/
def reserved (n : Nat) : Nat := (6 + n + (n + 511) / 512 + 511) / 512

theorem pageTableSize_eq {n : Nat} (hn : n ≤ maxNHugePages) :
    pageTableSize n = reserved n * hugePageSize := by
  have hmax : maxNHugePages = 261632 := rfl
  have hround : roundUp (n * 8) pageSize = (n + 511) / 512 * 4096 := by
    rw [roundUp, pageSize, u64]
    omega
  rw [pageTableSize, hround, roundUp, reserved, pageSize, hugePageSize, u64]
  omega

section

variable {addrs : List Nat} {s : Boot} {n : Nat}

/-- The registered pages among the first `m` of the machine. -/
def Boot.nRegistered (s : Boot) (m : Nat) : Nat := Nat.count (s.hugePageMap · = true) m

/-- They are all among the first `MAX_N_HUGE_PAGES`. -/
theorem Registered.nRegistered_max (hs : Registered addrs s) :
    s.nRegistered maxNHugePages = s.nHugePages := by
  rw [Boot.nRegistered, Nat.count_eq_card_filter_range, hs.count]

theorem Registered.nHugePages_le (hs : Registered addrs s) : s.nHugePages ≤ maxNHugePages := by
  rw [← hs.nRegistered_max]
  exact Nat.count_le _

/-- **The break**, for any holes: right behind as many registered pages as are reserved.  The loop of
    `init_page_table_break` has found it, or it has given up before it saw enough pages. -/
theorem Registered.break_cases (hs : Registered addrs s) :
    (∃ m, (initPageTableBreak s).pageTableBreak = m * hugePageSize ∧
      s.nRegistered m = reserved s.nHugePages) ∨
    ((initPageTableBreak s).pageTableBreak = 0 ∧ s.nRegistered s.nHugePages < reserved s.nHugePages) := by
  have hhuge : 0 < hugePageSize := by decide
  have hpos : 0 < reserved s.nHugePages := by
    rw [reserved]
    omega
  -- nothing found means that the registered pages among the first `i` are not enough
  have hloop := forUp_inv
    (f := breakStep s.hugePageMap (reserved s.nHugePages * hugePageSize)) (n := s.nHugePages)
    (s := (0, none)) (fun i p =>
      (p.2 = none ∧ p.1 = s.nRegistered i * hugePageSize ∧ s.nRegistered i < reserved s.nHugePages) ∨
      ∃ m, p.2 = some (m * hugePageSize) ∧ s.nRegistered m = reserved s.nHugePages) ?_ ?_
  · rw [initPageTableBreak, pageTableSize_eq hs.nHugePages_le]
    rcases hloop with ⟨hnone, -, hlt⟩ | ⟨m, hfound, hm⟩
    · right
      refine ⟨?_, hlt⟩
      show Option.getD _ s.pageTableBreak = _
      rw [hnone]
      exact hs.pageTableBreak
    · left
      refine ⟨m, ?_, hm⟩
      show Option.getD _ s.pageTableBreak = _
      rw [hfound]
      rfl
  · left
    refine ⟨rfl, ?_, ?_⟩
    · rw [Boot.nRegistered, Nat.count_zero, Nat.zero_mul]
    · rw [Boot.nRegistered, Nat.count_zero]
      exact hpos
  · rintro i hi ⟨cur, found⟩ (⟨hnone, hcur, hlt⟩ | ⟨m, hfound, hm⟩)
    · replace hnone : found = none := hnone
      replace hcur : cur = s.nRegistered i * hugePageSize := hcur
      subst hnone
      have hsucc : s.nRegistered (i + 1) = s.nRegistered i + if s.hugePageMap i = true then 1 else 0 :=
        Nat.count_succ _ _
      rw [breakStep, if_neg (by simp)]
      by_cases hmap : s.hugePageMap i = true
      · rw [if_pos hmap] at hsucc
        have hnext : cur + hugePageSize = s.nRegistered (i + 1) * hugePageSize := by
          rw [hcur, hsucc, Nat.succ_mul]
        rw [hmap, Bool.not_true, if_neg (by decide)]
        simp only [hnext]
        by_cases henough : reserved s.nHugePages ≤ s.nRegistered (i + 1)
        · right
          exact ⟨i + 1, if_pos (Nat.mul_le_mul_right _ henough), by omega⟩
        · left
          refine ⟨if_neg ?_, trivial, by omega⟩
          exact fun hle => henough (Nat.le_of_mul_le_mul_right hle hhuge)
      · rw [if_neg hmap, Nat.add_zero] at hsucc
        rw [Bool.not_eq_true _ |>.mp hmap, Bool.not_false, if_pos rfl, hsucc]
        left
        exact ⟨rfl, hcur, hlt⟩
    · right
      replace hfound : found = _ := hfound
      rw [breakStep, if_pos (by rw [hfound]; rfl)]
      exact ⟨m, hfound, hm⟩

/-- The break is where a 2 MiB page begins. -/
theorem dvd_pageTableBreak (hs : Registered addrs s) :
    hugePageSize ∣ (initPageTableBreak s).pageTableBreak := by
  rcases hs.break_cases with ⟨m, hbreak, -⟩ | ⟨hzero, -⟩
  · rw [hbreak]
    exact Nat.dvd_mul_left _ _
  · rw [hzero]
    exact Nat.dvd_zero _

/-- Where the mapped pages begin, the reserved ones are behind. -/
theorem Registered.nRegistered_break (hs : Registered addrs s)
    (hle : kernelBreak ≤ (initPageTableBreak s).pageTableBreak) :
    s.nRegistered ((initPageTableBreak s).pageTableBreak / hugePageSize) = reserved s.nHugePages := by
  rcases hs.break_cases with ⟨m, hbreak, hm⟩ | ⟨hzero, -⟩
  · rw [hbreak, Nat.mul_div_cancel _ (by decide), hm]
  · rw [hzero] at hle
    exact absurd hle (by decide)

/-- **The reserved pages hold the tables**: 512 of them each. -/
theorem Registered.room_eq (hs : Registered addrs s)
    (hle : kernelBreak ≤ (initPageTableBreak s).pageTableBreak) :
    room (initPageTableBreak s) = 512 * reserved s.nHugePages := by
  obtain ⟨m, hm⟩ := dvd_pageTableBreak hs
  have hcount : s.nRegistered m = reserved s.nHugePages := by
    have := hs.nRegistered_break hle
    rwa [hm, Nat.mul_div_cancel_left _ (by decide)] at this
  have hpages : (initPageTableBreak s).pageTableBreak / pageSize = 512 * m := by
    rw [hm, hugePageSize, pageSize]
    omega
  rw [room, hpages, count_usable, ← hcount]
  rfl

/-- The numbers from `a` on among the first `a + n` with a property. -/
theorem length_filter_range' (f : Nat → Bool) (a n : Nat) :
    Nat.count (f · = true) a + ((List.range' a n).filter f).length = Nat.count (f · = true) (a + n) := by
  induction n with
  | zero => rfl
  | succ n ih =>
    rw [List.range'_concat, Nat.one_mul, List.filter_append, List.length_append, ← Nat.add_assoc, ih,
      ← Nat.add_assoc a, Nat.count_succ, List.filter_singleton]
    cases f (a + n) with
    | false => rfl
    | true => rfl

/-- **The mapped pages** are the registered ones that are not reserved. -/
theorem Registered.length_targetsOf (hs : Registered addrs s)
    (hle : kernelBreak ≤ (initPageTableBreak s).pageTableBreak) :
    (targetsOf (initPageTableBreak s)).length = s.nHugePages - reserved s.nHugePages := by
  have hcount := hs.nRegistered_break hle
  have hall := hs.nRegistered_max
  set start := (initPageTableBreak s).pageTableBreak / hugePageSize with hstart
  by_cases hmax : start ≤ maxNHugePages
  · have hsplit := length_filter_range' s.hugePageMap start (maxNHugePages - start)
    rw [Nat.add_sub_cancel' hmax] at hsplit
    rw [Boot.nRegistered] at hcount hall
    rw [hcount, hall] at hsplit
    exact Nat.eq_sub_of_add_eq' hsplit
  · -- a break behind all pages: all of them are reserved
    have hge : s.nHugePages ≤ reserved s.nHugePages := by
      rw [← hcount, ← hall]
      exact Nat.count_monotone _ (by omega)
    have hnil : targetsOf (initPageTableBreak s) = [] := by
      refine List.eq_nil_iff_forall_not_mem.mpr fun i hi => ?_
      obtain ⟨h1, h2, -⟩ := mem_targetsOf.mp hi
      omega
    rw [hnil, List.length_nil]
    omega

end

/-! ## Tables below 4 GiB -/

/-- The registered pages below 4 GiB hold all tables. -/
def TablesLow (s : Boot) : Prop :=
  tablesNeeded (s.nHugePages - reserved s.nHugePages) ≤ 512 * s.nRegistered (2 ^ 32 / hugePageSize)

instance (s : Boot) : Decidable (TablesLow s) := inferInstanceAs (Decidable (_ ≤ _))

/-- The tables that fit below 4 GiB. -/
def lowRoom (b : Boot) : Nat := Nat.count b.usable (2 ^ 32 / pageSize)

section

variable {addrs : List Nat} {s b : Boot}

theorem lowRoom_eq (s : Boot) :
    lowRoom (initPageTableBreak s) = 512 * s.nRegistered (2 ^ 32 / hugePageSize) := by
  have hpages : 2 ^ 32 / pageSize = 512 * (2 ^ 32 / hugePageSize) := by decide
  rw [lowRoom, hpages]
  exact count_usable _ _

/-- **A table is below 4 GiB** iff so many of them fit there. -/
theorem lt_iff_lowRoom {t : Nat} (ht : 2 ^ 12 ∣ t) (husable : b.usable (t / pageSize)) :
    t < 2 ^ 32 ↔ Nat.count b.usable (t / pageSize) < lowRoom b := by
  have hsize : pageSize = 2 ^ 12 := rfl
  have hpage : t < 2 ^ 32 ↔ t / pageSize < 2 ^ 32 / pageSize := by
    rw [hsize]
    omega
  rw [hpage, lowRoom]
  exact ⟨Nat.count_strict_mono husable, Nat.lt_of_count_lt_count⟩

theorem low_shows {n : Nat} (hn : n ≤ lowRoom b) : View.low.Shows b n := by
  intro t ht hkernel _ _ husable hcount
  exact ⟨ht, hkernel, (lt_iff_lowRoom ht husable).mpr (Nat.lt_of_lt_of_le hcount hn)⟩

/-- With the break below 4 GiB so are the tables. -/
theorem low_shows_of_break (hbreak : b.pageTableBreak ≤ 2 ^ 32) (n : Nat) : View.low.Shows b n := by
  intro t ht hkernel _ hroom _ _
  have hsize : 0 < pageSize := by decide
  exact ⟨ht, hkernel, by omega⟩

/-- What the condition is for. -/
theorem Registered.tablesLow_iff (hs : Registered addrs s)
    (hle : kernelBreak ≤ (initPageTableBreak s).pageTableBreak) :
    TablesLow s ↔
      tablesNeeded (targetsOf (initPageTableBreak s)).length ≤ lowRoom (initPageTableBreak s) := by
  rw [TablesLow, hs.length_targetsOf hle, lowRoom_eq]

theorem Registered.low_shows (hs : Registered addrs s) (hlow : TablesLow s) :
    View.low.Shows (initPageTableBreak s) (tablesNeeded (targetsOf (initPageTableBreak s)).length) := by
  by_cases hle : kernelBreak ≤ (initPageTableBreak s).pageTableBreak
  · exact Memory.low_shows ((hs.tablesLow_iff hle).mp hlow)
  · refine low_shows_of_break ?_ _
    have hkernel : kernelBreak ≤ 2 ^ 32 := by decide
    omega

end

/-! ## Memory without holes -/

section

variable {addrs : List Nat} {s : Boot} {n : Nat}

/-- The registered pages are the `n` pages from `kernel_break` on. -/
def Consecutive (s : Boot) (n : Nat) : Prop :=
  ∀ i, s.hugePageMap i = true ↔ 8 ≤ i ∧ i < 8 + n

theorem Consecutive.nRegistered (h : Consecutive s n) (m : Nat) :
    s.nRegistered m = min m (8 + n) - 8 := by
  induction m with
  | zero => rw [Boot.nRegistered, Nat.count_zero, Nat.zero_min]
  | succ m ih =>
    have hsucc : s.nRegistered (m + 1) = s.nRegistered m + if s.hugePageMap m = true then 1 else 0 :=
      Nat.count_succ _ _
    rw [hsucc, ih]
    have hm := h m
    split
    · next hmap =>
      have := hm.mp hmap
      omega
    · next hmap =>
      have := mt hm.mpr hmap
      omega

theorem Consecutive.nHugePages (h : Consecutive s n) (hs : Registered addrs s)
    (hmax : 8 + n ≤ maxNHugePages) : s.nHugePages = n := by
  rw [← hs.nRegistered_max, h.nRegistered]
  omega

theorem Consecutive.pageTableBreak (h : Consecutive s n) (hs : Registered addrs s) (h9 : 9 ≤ n)
    (hmax : 8 + n ≤ maxNHugePages) :
    (initPageTableBreak s).pageTableBreak = (8 + reserved n) * hugePageSize := by
  have hreserved : 8 + reserved n ≤ n ∧ 1 ≤ reserved n := by
    have : maxNHugePages = 261632 := rfl
    rw [reserved]
    omega
  have hcases := hs.break_cases
  rw [h.nHugePages hs hmax, h.nRegistered] at hcases
  rcases hcases with ⟨m, hbreak, hm⟩ | ⟨-, hlt⟩
  · rw [h.nRegistered] at hm
    rw [hbreak, show m = 8 + reserved n by omega]
  · omega

theorem Consecutive.contiguous (h : Consecutive s n) (hs : Registered addrs s) (h9 : 9 ≤ n)
    (hmax : 8 + n ≤ maxNHugePages) : Contiguous (initPageTableBreak s) := by
  have hbreak := h.pageTableBreak hs h9 hmax
  have hreserved : 8 + reserved n ≤ n := by
    have : maxNHugePages = 261632 := rfl
    rw [reserved]
    omega
  have hdiv : (initPageTableBreak s).pageTableBreak / hugePageSize = 8 + reserved n := by
    rw [hbreak]
    exact Nat.mul_div_cancel _ (by decide)
  refine ⟨?_, by omega, fun i hi hi' => (h i).mpr ?_⟩
  · rw [hbreak, show kernelBreak = 8 * hugePageSize from rfl]
    exact Nat.mul_le_mul_right _ (Nat.le_add_right _ _)
  · have h8 : kernelBreak / hugePageSize = 8 := rfl
    omega

theorem Consecutive.length_targetsOf (h : Consecutive s n) (hs : Registered addrs s) (h9 : 9 ≤ n)
    (hmax : 8 + n ≤ maxNHugePages) : (targetsOf (initPageTableBreak s)).length = n - reserved n := by
  rw [hs.length_targetsOf (h.contiguous hs h9 hmax).le, h.nHugePages hs hmax]

/-- At most 513 pages are reserved, so the tables are in the first 2 GiB. -/
theorem Consecutive.low_shows (h : Consecutive s n) (hs : Registered addrs s) (h9 : 9 ≤ n)
    (hmax : 8 + n ≤ maxNHugePages) (needed : Nat) : View.low.Shows (initPageTableBreak s) needed := by
  refine low_shows_of_break ?_ needed
  have hn : maxNHugePages = 261632 := rfl
  rw [h.pageTableBreak hs h9 hmax, reserved, hugePageSize]
  omega

end

/-! ## The sizes for which it is too small -/

/-- The numbers of registered pages for which the tables do not fit. -/
def tooSmall : List Nat := [502, 503, 504, 505, 1014, 1015, 1016, 1526, 1527, 2038]

theorem mem_tooSmall {n : Nat} : n ∈ tooSmall ↔
    502 ≤ n ∧ n ≤ 505 ∨ 1014 ≤ n ∧ n ≤ 1016 ∨ 1526 ≤ n ∧ n ≤ 1527 ∨ n = 2038 := by
  simp only [tooSmall, List.mem_cons, List.not_mem_nil, or_false]
  omega

/-- From six GiB on the reservation for the P2 exceeds what the kernel's P1 need. -/
theorem fits_iff {n : Nat} (h9 : 9 ≤ n) :
    tablesNeeded (n - reserved n) ≤ 512 * reserved n ↔ n ∉ tooSmall := by
  have h8 : kernelBreak / hugePageSize = 8 := rfl
  rw [mem_tooSmall]
  simp only [tablesNeeded, groups, reserved, h8]
  by_cases hsmall : (n + 511) / 512 < 8
  · generalize hq : (n + 511) / 512 = q at *
    interval_cases q <;> omega
  · omega

/-- Without holes the tables are below 4 GiB whenever they fit. -/
theorem Consecutive.tablesLow {addrs : List Nat} {s : Boot} {n : Nat} (h : Consecutive s n)
    (hs : Registered addrs s) (h9 : 9 ≤ n) (hmax : 8 + n ≤ maxNHugePages) (hn : n ∉ tooSmall) :
    TablesLow s := by
  have hfits := (fits_iff h9).mpr hn
  have hlimit : 2 ^ 32 / hugePageSize = 2048 := rfl
  have hreserved : reserved n ≤ min 2048 (8 + n) - 8 := by
    have : maxNHugePages = 261632 := rfl
    rw [reserved]
    omega
  rw [TablesLow, h.nHugePages hs hmax, h.nRegistered, hlimit]
  exact Nat.le_trans hfits (Nat.mul_le_mul_left _ hreserved)

/-! ## All memory sizes -/

/-- The tables are built, or the assertion of `page_table_alloc` fails, as the count says. -/
theorem Consecutive.initPageTables {addrs : List Nat} {s : Boot} {n : Nat} (h : Consecutive s n)
    (hs : Registered addrs s) (h9 : 9 ≤ n) (hmax : 8 + n ≤ maxNHugePages) :
    (∃ p, initPageTables s = .ok p ∧ tablesNeeded (n - reserved n) ≤ 512 * reserved n) ∨
    (initPageTables s = .error .assertion ∧ ¬ tablesNeeded (n - reserved n) ≤ 512 * reserved n) := by
  have hcontiguous := h.contiguous hs h9 hmax
  have hlen := h.length_targetsOf hs h9 hmax
  have hroom := hs.room_eq hcontiguous.le
  rw [h.nHugePages hs hmax] at hroom
  obtain ⟨hseen, hnil⟩ := hs.seen View.low
  have hends := initPageTable4k_ends hseen hnil (h.low_shows hs h9 hmax _)
  rw [hlen] at hends
  cases hinit : Memory.initPageTables s with
  | ok p =>
    left
    refine ⟨p, rfl, ?_⟩
    obtain ⟨r, -, hmapped⟩ := hends.of_ok hinit
    rw [← hroom, ← hlen, ← hmapped.length]
    exact hmapped.seen.length_le
  | error e =>
    right
    obtain ⟨hlt, hassert⟩ := hends.of_error hinit
    rw [hassert hcontiguous]
    exact ⟨rfl, Nat.not_le.mpr (hroom ▸ hlt)⟩

/-- **The reserved pages are enough, except for ten memory sizes**: with the `n` pages from
    `kernel_break` on registered, the assertion of `page_table_alloc` holds at every call unless `n` is
    in `tooSmall`. -/
theorem page_tables_fit_iff (mem : Nat → BitVec 64) (addrs : List Nat) (s : Boot) (n : Nat)
    (hreg : registerAll mem addrs = .ok s) (hset : Consecutive s n) (h9 : 9 ≤ n)
    (hmax : 8 + n ≤ maxNHugePages) :
    (initPageTables s ≠ .error .assertion ↔ n ∉ tooSmall) ∧
      (n ∉ tooSmall → ∃ p, initPageTables s = .ok p) := by
  obtain ⟨p, hok, hfits⟩ | ⟨herror, hfits⟩ := hset.initPageTables (registered_all hreg) h9 hmax
  · have hnot := (fits_iff h9).mp hfits
    refine ⟨⟨fun _ => hnot, fun _ => ?_⟩, fun _ => ⟨p, hok⟩⟩
    rw [hok]
    exact fun heq => nomatch heq
  · have hnot := mt (fits_iff h9).mpr hfits
    exact ⟨⟨fun hne => absurd herror hne, fun hn => absurd hn hnot⟩, fun hn => absurd hn hnot⟩

/-- The `n` pages from `kernel_break` on. -/
def pages (n : Nat) : List Nat := (List.range n).map fun i => (8 + i) * hugePageSize

theorem registerAll_pages (mem : Nat → BitVec 64) {n : Nat} (hmax : 8 + n ≤ maxNHugePages) :
    ∃ s, registerAll mem (pages n) = .ok s ∧ Consecutive s n := by
  have hmem : ∀ addr, addr ∈ pages n ↔ ∃ i, i < n ∧ (8 + i) * hugePageSize = addr := by
    intro addr
    simp only [pages, List.mem_map, List.mem_range]
  have hkernel : kernelBreak = 8 * hugePageSize := rfl
  obtain ⟨s, hs⟩ : ∃ s, registerAll mem (pages n) = .ok s := registerAll_ok mem
    (fun addr ha => by
      obtain ⟨i, -, rfl⟩ := (hmem addr).mp ha
      exact Nat.dvd_mul_left _ _)
    (fun addr ha => by
      obtain ⟨i, hi, rfl⟩ := (hmem addr).mp ha
      rw [show maxMemorySize = maxNHugePages * hugePageSize from rfl]
      exact Nat.mul_lt_mul_of_pos_right (by omega) (by decide))
  refine ⟨s, hs, fun i => ?_⟩
  rw [(registered_all hs).map, hmem, hkernel]
  constructor
  · rintro ⟨-, j, hj, heq⟩
    have := Nat.eq_of_mul_eq_mul_right (by decide) heq
    omega
  · rintro ⟨h8, hlt⟩
    exact ⟨Nat.mul_le_mul_right _ h8, i - 8, by omega, by rw [Nat.add_sub_cancel' h8]⟩

/-- The smallest machine: nine huge pages. -/
theorem page_tables_fit_nine : ∃ s, registerAll (fun _ => 0#64) (pages 9) = .ok s ∧
    ∃ p, initPageTables s = .ok p := by
  obtain ⟨s, hs, hset⟩ := registerAll_pages (fun _ => 0#64) (n := 9) (by decide)
  exact ⟨s, hs, (page_tables_fit_iff _ _ s 9 hs hset (by decide) (by decide)).2 (by decide)⟩

/-- One GiB above the kernel, less seven pages: 512 tables are reserved, 516 are needed. -/
theorem page_tables_short : ∃ s, registerAll (fun _ => 0#64) (pages 505) = .ok s ∧
    initPageTables s = .error .assertion := by
  obtain ⟨s, hs, hset⟩ := registerAll_pages (fun _ => 0#64) (n := 505) (by decide)
  obtain ⟨-, -, hfits⟩ | ⟨herror, -⟩ :=
    hset.initPageTables (registered_all hs) (by decide) (by decide)
  · exact absurd ((fits_iff (by decide)).mp hfits) (by decide)
  · exact ⟨s, hs, herror⟩

end JudgeDuck.Memory
