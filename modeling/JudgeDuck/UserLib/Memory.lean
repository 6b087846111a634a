/-
  Memory that the 64-bit user library hands out.

  `duck_mmap_temp` takes pages from a pool of 10 MiB and never looks at its end; `duck_brk` moves the
  end of a heap that starts behind `_end`, and so behind the pool.  As long as the pages asked for fit
  into the pool, the regions lie one behind the other in it (`regions_inside`).  The first call that
  does not fit returns a region that leaves the pool, or, when rounding its size wraps around, one
  that is too small (`fits_of_regions`).
-/
import JudgeDuck.UserLib.Model
import Mathlib.Data.Nat.Bitwise
import Mathlib.Order.Interval.Set.Basic

namespace JudgeDuck.UserLib

open JudgeDuck.Lib

/-! ## Specification -/

/-- A linked program: the pool is part of it, and the loader says that pages have 4096 bytes. -/
structure Layout extends Image where
  pool_le_end : mmapPool + mmapPoolSize ≤ endAddr
  end_lt : endAddr + 4096 ≤ 2 ^ 64
  pageSize_eq : pageSize = 4096

/-- What a call of `mmap` returns: the address, the size it was asked for, and by how much `__mmap_p`
    is advanced. -/
structure Region where
  start : Nat
  size : Nat
  reserved : Nat
  deriving DecidableEq, Repr

def Region.bytes (r : Region) : Set Nat := Set.Ico r.start (r.start + r.reserved)

/-- The regions that some calls return. -/
def regions (img : Image) : State → List (Mem × Syscall) → List Region
  | _, [] => []
  | s, (mem, call) :: calls =>
    let r := syscallHandler .duck64 img s mem call
    match call with
    | .mmap _ size => ⟨r.2, size, roundSize size⟩ :: regions img r.1.1 calls
    | _ => regions img r.1.1 calls

/-- The pages that a call of `mmap` asks for, in bytes. -/
def Syscall.mapped : Syscall → Nat
  | .mmap _ size => (size + 4095) / 4096 * 4096
  | _ => 0

/-! ## Rounding -/

theorem and_neg_page {y : Nat} (hy : y < 2 ^ 64) : y &&& (2 ^ 64 - 4096) = y / 4096 * 4096 := by
  have hmask : 2 ^ 64 - 4096 = (2 ^ 52 - 1) <<< 12 := by decide
  have hround : y / 4096 * 4096 = (y >>> 12) <<< 12 := by
    rw [Nat.shiftLeft_eq, Nat.shiftRight_eq_div_pow]
  rw [hmask, hround]
  apply Nat.eq_of_testBit_eq
  intro i
  rw [Nat.testBit_and, Nat.testBit_shiftLeft, Nat.testBit_shiftLeft, Nat.testBit_shiftRight,
    Nat.testBit_two_pow_sub_one]
  rcases Nat.lt_or_ge i 64 with hi | hi
  · by_cases hlow : 12 ≤ i
    · have hsmall : i - 12 < 52 := by omega
      simp [hlow, hsmall]
    · simp [hlow]
  · have hzero : y.testBit i = false :=
      Nat.testBit_lt_two_pow (Nat.lt_of_lt_of_le hy (Nat.pow_le_pow_right (by decide) hi))
    have hsum : 12 + (i - 12) = i := by omega
    simp [hzero, hsum]

theorem roundSize_eq (size : Nat) : roundSize size = (size + 4095) % 2 ^ 64 / 4096 * 4096 :=
  and_neg_page (Nat.mod_lt _ (by decide))

/-- A region is good exactly when the pages asked for fit; then they are what is reserved. -/
theorem roundSize_fits_iff {k size : Nat} (hk : k ≤ mmapPoolSize) :
    (size ≤ roundSize size ∧ k + roundSize size ≤ mmapPoolSize) ↔
      k + (size + 4095) / 4096 * 4096 ≤ mmapPoolSize := by
  rw [roundSize_eq, show mmapPoolSize = 10485760 from rfl] at *
  omega

theorem roundSize_of_fits {k size : Nat} (h : k + (size + 4095) / 4096 * 4096 ≤ mmapPoolSize) :
    roundSize size = (size + 4095) / 4096 * 4096 := by
  rw [roundSize_eq, show mmapPoolSize = 10485760 from rfl] at *
  omega

/-! ## Calls -/

theorem duckRead_mmapP (lib : Library) (s : State) (mem : Mem) (fd : Int) (buf len : Nat) :
    (duckRead lib s mem fd buf len).1.1.mmapP = s.mmapP := by
  rw [duckRead]
  by_cases hfd : fd = 0
  · rw [if_pos hfd]
  · rw [if_neg hfd]

theorem duckWrite_mmapP (lib : Library) (mem : Mem) (s : State) (fd : Int) (buf len : Nat) :
    (duckWrite lib mem s fd buf len).1.mmapP = s.mmapP := by
  rw [duckWrite]
  by_cases h1 : fd = 1
  · rw [if_pos h1]
  · rw [if_neg h1]
    by_cases h2 : fd = 2
    · rw [if_pos h2]
    · rw [if_neg h2]

theorem duckReadv_mmapP (lib : Library) (s : State) (mem : Mem) (fd : Int) (iov : List Iovec)
    (cnt : Int) : (duckReadv lib s mem fd iov cnt).1.1.mmapP = s.mmapP := by
  refine vectorLoop_inv (P := fun s' : State × Mem => s'.1.mmapP = s.mmapP) lib ?_ _ rfl 0
  intro s' v hs
  rw [duckRead_mmapP, hs]

theorem duckWritev_mmapP (lib : Library) (mem : Mem) (s : State) (fd : Int) (iov : List Iovec)
    (cnt : Int) : (duckWritev lib mem s fd iov cnt).1.mmapP = s.mmapP := by
  refine vectorLoop_inv (P := fun s' : State => s'.mmapP = s.mmapP) lib ?_ _ rfl 0
  intro s' v hs
  rw [duckWrite_mmapP, hs]

/-- Only `mmap` changes `__mmap_p`. -/
theorem serve_mmapP (s : State) (mem : Mem) (call : Syscall) :
    (serve .duck64 s mem call).1.1.mmapP =
      match call with
      | .mmap _ size => u64 (s.mmapP + roundSize size)
      | _ => s.mmapP := by
  cases call with
  | brk addr => simp only [serve, duckBrk_fst]
  | read fd buf len => simp only [serve, duckRead_mmapP]
  | readv fd iov => simp only [serve, duckReadv_mmapP]
  | write fd buf len => simp only [serve, duckWrite_mmapP]
  | writev fd iov => simp only [serve, duckWritev_mmapP]
  | mmap addr size => rfl

/-- `init` leaves `__mmap_p` alone. -/
theorem inited_mmapP (img : Image) (s : State) :
    (if s.inited then s else init .duck64 img s).mmapP = s.mmapP := by
  by_cases h : s.inited = true
  · rw [if_pos h]
  · rw [if_neg h]
    rfl

/-- What a call does to `__mmap_p`. -/
theorem syscallHandler_mmapP (img : Image) (s : State) (mem : Mem) (call : Syscall) :
    (syscallHandler .duck64 img s mem call).1.1.mmapP =
      match call with
      | .mmap _ size => u64 (s.mmapP + roundSize size)
      | _ => s.mmapP := by
  rw [syscallHandler, serve_mmapP, inited_mmapP]

/-- `mmap` returns `__mmap_p`. -/
theorem syscallHandler_mmap (img : Image) (s : State) (mem : Mem) (addr size : Nat) :
    (syscallHandler .duck64 img s mem (.mmap addr size)).2 = s.mmapP :=
  inited_mmapP img s

/-! ## Regions -/

section

variable (lay : Layout)

/-- The first call takes pages from `__mmap_p` on and returns them, or it is no `mmap`. -/
theorem regions_cons (s : State) (mem : Mem) (call : Syscall) (calls : List (Mem × Syscall)) :
    (∃ addr size, call = .mmap addr size ∧
      call.mapped = (size + 4095) / 4096 * 4096 ∧
      (syscallHandler .duck64 lay.toImage s mem call).1.1.mmapP = u64 (s.mmapP + roundSize size) ∧
      regions lay.toImage s ((mem, call) :: calls) = ⟨s.mmapP, size, roundSize size⟩ ::
        regions lay.toImage (syscallHandler .duck64 lay.toImage s mem call).1.1 calls) ∨
    (call.mapped = 0 ∧ (syscallHandler .duck64 lay.toImage s mem call).1.1.mmapP = s.mmapP ∧
      regions lay.toImage s ((mem, call) :: calls) =
        regions lay.toImage (syscallHandler .duck64 lay.toImage s mem call).1.1 calls) := by
  have hmmapP := syscallHandler_mmapP lay.toImage s mem call
  cases call with
  | mmap addr size =>
    refine Or.inl ⟨addr, size, rfl, rfl, hmmapP, ?_⟩
    rw [regions, syscallHandler_mmap]
  | _ => exact Or.inr ⟨rfl, hmmapP, rfl⟩

/-- The pool ends before the addresses do. -/
theorem Layout.pool_lt (lay : Layout) {k : Nat} (hk : k ≤ mmapPoolSize) :
    u64 (lay.mmapPool + k) = lay.mmapPool + k := by
  have hpool := lay.pool_le_end
  have hend := lay.end_lt
  exact u64_of_lt (by omega)

/-- **What fits**: the regions lie behind each other in the pool. -/
theorem regions_inside {calls : List (Mem × Syscall)} {s : State} {k : Nat}
    (hp : s.mmapP = lay.mmapPool + k)
    (hfit : k + (calls.map fun c => c.2.mapped).sum ≤ mmapPoolSize) :
    (∀ r ∈ regions lay.toImage s calls, r.size ≤ r.reserved ∧ lay.mmapPool + k ≤ r.start ∧
      r.start + r.reserved ≤ lay.mmapPool + mmapPoolSize) ∧
    (regions lay.toImage s calls).Pairwise fun a b => a.start + a.reserved ≤ b.start := by
  induction calls generalizing s k with
  | nil => exact ⟨fun r hr => absurd hr List.not_mem_nil, List.Pairwise.nil⟩
  | cons c calls ih =>
    obtain ⟨mem, call⟩ := c
    replace hfit : k + (call.mapped + (calls.map fun c => c.2.mapped).sum) ≤ mmapPoolSize := hfit
    rcases regions_cons lay s mem call calls with ⟨_, size, -, hmapped, hmmapP, hregions⟩ |
      ⟨hmapped, hmmapP, hregions⟩
    · have hpages : k + (size + 4095) / 4096 * 4096 ≤ mmapPoolSize := by omega
      have hround := roundSize_of_fits hpages
      obtain ⟨hsize, hroom⟩ := (roundSize_fits_iff (by omega)).mpr hpages
      rw [hp, Nat.add_assoc, lay.pool_lt hroom] at hmmapP
      obtain ⟨hinside, hordered⟩ := ih hmmapP (by omega)
      rw [hregions, hp]
      refine ⟨List.forall_mem_cons.mpr ⟨⟨hsize, Nat.le_refl _, ?_⟩, fun r hr => ?_⟩,
        List.pairwise_cons.mpr ⟨fun r hr => ?_, hordered⟩⟩
      · show lay.mmapPool + k + roundSize size ≤ _
        omega
      · obtain ⟨h1, h2, h3⟩ := hinside r hr
        exact ⟨h1, by omega, h3⟩
      · show lay.mmapPool + k + roundSize size ≤ r.start
        have := (hinside r hr).2.1
        omega
    · rw [hregions]
      exact ih (hmmapP.trans hp) (by omega)

/-- **What does not fit**: regions that are large enough and in the pool come from calls that fit. -/
theorem fits_of_regions {calls : List (Mem × Syscall)} {s : State} {k : Nat}
    (hk : k ≤ mmapPoolSize) (hp : s.mmapP = lay.mmapPool + k)
    (hgood : ∀ r ∈ regions lay.toImage s calls, r.size ≤ r.reserved ∧
      r.start + r.reserved ≤ lay.mmapPool + mmapPoolSize) :
    k + (calls.map fun c => c.2.mapped).sum ≤ mmapPoolSize := by
  induction calls generalizing s k with
  | nil => exact hk
  | cons c calls ih =>
    obtain ⟨mem, call⟩ := c
    show k + (call.mapped + (calls.map fun c => c.2.mapped).sum) ≤ mmapPoolSize
    rcases regions_cons lay s mem call calls with ⟨_, size, -, hmapped, hmmapP, hregions⟩ |
      ⟨hmapped, hmmapP, hregions⟩
    · rw [hregions, hp] at hgood
      obtain ⟨⟨hsize, hroom⟩, hrest⟩ := List.forall_mem_cons.mp hgood
      have hsize : size ≤ roundSize size := hsize
      have hroom : k + roundSize size ≤ mmapPoolSize := by
        have : lay.mmapPool + k + roundSize size ≤ lay.mmapPool + mmapPoolSize := hroom
        omega
      have hfit := (roundSize_fits_iff hk).mp ⟨hsize, hroom⟩
      rw [hp, Nat.add_assoc, lay.pool_lt hroom] at hmmapP
      have hcalls := ih hroom hmmapP hrest
      rw [roundSize_of_fits hfit] at hcalls
      omega
    · rw [hregions] at hgood
      have hcalls := ih hk (hmmapP.trans hp) hgood
      omega

/-- The heap starts behind the pool. -/
theorem pool_le_heap (s : State) :
    lay.mmapPool + mmapPoolSize ≤ (init .duck64 lay.toImage s).heapBrk := by
  have hpool := lay.pool_le_end
  have hend := lay.end_lt
  show _ ≤ Library.word .duck64 (lay.endAddr + lay.pageSize - 1) / lay.pageSize * lay.pageSize
  rw [lay.pageSize_eq, Library.word, show Library.bits .duck64 = 64 from rfl,
    Nat.mod_eq_of_lt (by omega)]
  omega

end

theorem notMem_Ico_of_le {a b c d : Nat} (h : b ≤ c) : ∀ x ∈ Set.Ico a b, x ∉ Set.Ico c d :=
  fun _ h1 h2 => absurd (Nat.lt_of_lt_of_le h1.2 h) (Nat.not_lt.mpr h2.1)

/-- **The regions of `mmap` are good exactly when what was asked for fits into the pool.**  Good: none
    is smaller than it should be, all lie in the pool, and no two overlap, nor does one with the heap,
    which is between the first `heap_brk` and the current one. -/
theorem mmap_disjoint_iff (lay : Layout) (info : DuckInfo) (calls : List (Mem × Syscall)) :
    let start := State.fresh lay.toImage info
    let heap := Set.Ico (init .duck64 lay.toImage start).heapBrk
      (run .duck64 lay.toImage start calls).heapBrk
    ((∀ r ∈ regions lay.toImage start calls, r.size ≤ r.reserved ∧ lay.mmapPool ≤ r.start ∧
        r.start + r.reserved ≤ lay.mmapPool + mmapPoolSize ∧ ∀ x ∈ r.bytes, x ∉ heap) ∧
      (regions lay.toImage start calls).Pairwise fun a b => ∀ x ∈ a.bytes, x ∉ b.bytes) ↔
    (calls.map fun c => c.2.mapped).sum ≤ mmapPoolSize := by
  intro start heap
  have hp : start.mmapP = lay.mmapPool + 0 := rfl
  refine ⟨fun hgood => ?_, fun hfit => ?_⟩
  · have hcalls := fits_of_regions lay (Nat.zero_le _) hp fun r hr =>
      ⟨(hgood.1 r hr).1, (hgood.1 r hr).2.2.1⟩
    rwa [Nat.zero_add] at hcalls
  · obtain ⟨hinside, hordered⟩ := regions_inside lay hp (by rwa [Nat.zero_add])
    refine ⟨fun r hr => ?_, hordered.imp fun hle => notMem_Ico_of_le hle⟩
    obtain ⟨hsize, hstart, hroom⟩ := hinside r hr
    exact ⟨hsize, hstart, hroom, notMem_Ico_of_le (Nat.le_trans hroom (pool_le_heap lay start))⟩

/-- A program with its pool at 4 MiB and `_end` behind it.  One byte more than the pool: the region
    leaves the pool and shares a byte with the heap.  The largest size: less is reserved than was asked
    for. -/
theorem mmap_overruns :
    let lay : Layout := ⟨⟨0xe00000, 0x400000, 4096⟩, by decide, by decide, rfl⟩
    let info : DuckInfo :=
      ⟨fun _ => 0, 0, fun _ => 0, 0, fun _ => 0, 0, by decide, by decide, by decide⟩
    let start := State.fresh lay.toImage info
    let calls : List (Mem × Syscall) := [(fun _ => 0, .brk 0xe01000), (fun _ => 0, .mmap 0 0xa00001)]
    let heap := Set.Ico (init .duck64 lay.toImage start).heapBrk
      (run .duck64 lay.toImage start calls).heapBrk
    (∃ r ∈ regions lay.toImage start calls, ¬ r.start + r.reserved ≤ lay.mmapPool + mmapPoolSize ∧
      ∃ x ∈ r.bytes, x ∈ heap) ∧
    ∃ r ∈ regions lay.toImage start [(fun _ => 0, .mmap 0 (2 ^ 64 - 1))], ¬ r.size ≤ r.reserved := by
  intro lay info start calls heap
  have hregions : regions lay.toImage start calls = [⟨0x400000, 0xa00001, 0xa01000⟩] := by decide
  have hfirst : (init .duck64 lay.toImage start).heapBrk = 0xe00000 := by decide
  have hlast : (run .duck64 lay.toImage start calls).heapBrk = 0xe01000 := by decide
  have hlargest : regions lay.toImage start [(fun _ => 0, .mmap 0 (2 ^ 64 - 1))] =
      [⟨0x400000, 2 ^ 64 - 1, 0⟩] := by decide
  refine ⟨⟨_, by rw [hregions]; exact List.mem_singleton_self _, by decide, 0xe00000, ?_, ?_⟩,
    _, by rw [hlargest]; exact List.mem_singleton_self _, by decide⟩
  · exact ⟨by decide, by decide⟩
  · show _ ∈ Set.Ico _ _
    rw [hfirst, hlast]
    exact ⟨by decide, by decide⟩

end JudgeDuck.UserLib
