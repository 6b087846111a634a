/-
  Setting up the cache: the layout of the block and the initial free list.

  `n_max_objects` is below `2 ^ 57`, so that the sizes of the tables do not wrap (the callers pass
  1000 and 100000).  Then the four tables and the content pages lie one after the other in the
  block, each table has room for `n_max_objects` entries (`init_layout`), and the loop over the
  pages links all of them into the free list (`init_spec`).
-/
import JudgeDuck.DuckCache.Invariant

namespace JudgeDuck.DuckCache

open JudgeDuck.Lib

/-! ## The layout -/

/-- A table that does not reach the end of the address space is followed by the next one, on a page
    boundary. -/
theorem nextTable_spec {cache n size : Nat} (h : cache + n * size + 4096 < 2 ^ 64) :
    cache + n * size ≤ nextTable cache n size ∧ nextTable cache n size < cache + n * size + 4096 ∧
      4096 ∣ nextTable cache n size - cache := by
  have hsize : pageSize = 4096 := rfl
  rw [nextTable, roundUp, hsize]
  generalize n * size = x at h ⊢
  rw [u64_of_lt (show x < 2 ^ 64 by omega), u64_of_lt (show x + 4096 - 1 < 2 ^ 64 by omega),
    u64_of_lt (show cache + (x + 4096 - 1) / 4096 * 4096 < 2 ^ 64 by omega)]
  omega

/-- The four tables, one after the other. -/
theorem tables_spec {cache n : Nat} (hcache : cache < 2 ^ 48) (hn : n < 2 ^ 57) :
    (cache + n * 8 ≤ objDigestAddr cache n ∧
      objDigestAddr cache n + n * 32 ≤ objMetadataAddr cache n ∧
      objMetadataAddr cache n + n * 24 ≤ sortIdsAddr cache n ∧
      sortIdsAddr cache n + n * 8 ≤ firstPageAddr cache n) ∧
    4096 ∣ firstPageAddr cache n - cache ∧
      firstPageAddr cache n < cache + n * 72 + 4 * 4096 := by
  obtain ⟨h1, h1', d1⟩ := nextTable_spec (show cache + n * 8 + 4096 < 2 ^ 64 by omega)
  rw [← objDigestAddr] at h1 h1' d1
  obtain ⟨h2, h2', d2⟩ :=
    nextTable_spec (show objDigestAddr cache n + n * 32 + 4096 < 2 ^ 64 by omega)
  rw [← objMetadataAddr] at h2 h2' d2
  obtain ⟨h3, h3', d3⟩ :=
    nextTable_spec (show objMetadataAddr cache n + n * 24 + 4096 < 2 ^ 64 by omega)
  rw [← sortIdsAddr] at h3 h3' d3
  obtain ⟨h4, h4', d4⟩ :=
    nextTable_spec (show sortIdsAddr cache n + n * 8 + 4096 < 2 ^ 64 by omega)
  rw [← firstPageAddr] at h4 h4' d4
  refine ⟨⟨h1, h2, h3, h4⟩, ?_, by omega⟩
  omega

/-- What is allocated lies below the upper end of the region; a size so large that rounding it up
    wraps reaches the end of the address space. -/
theorem allocate_spec {r : Region} {size : Nat} (hsize : size < 2 ^ 64)
    (h : allocateVirtualMemory r size ≠ 0) : allocateVirtualMemory r size ≤ r.vaddrBreak ∧
      (allocateVirtualMemory r size + size ≤ r.vaddrBreak ∨
        2 ^ 64 ≤ allocateVirtualMemory r size + size) := by
  have hr := r.lt
  have hle := r.le
  have hpos := r.pos
  have halign : 2097152 ∣ r.vaddrBreak := r.vaddrBreak_aligned
  have hhuge : hugePageSize = 2097152 := rfl
  unfold allocateVirtualMemory at h ⊢
  split at h
  · exact absurd rfl h
  · rename_i hfits
    rw [if_neg hfits]
    rw [hhuge, roundUp, u64] at hfits ⊢
    rcases Nat.lt_or_ge (size + 2097152 - 1) (2 ^ 64) with hlt | hge
    · rw [Nat.mod_eq_of_lt hlt] at hfits ⊢
      omega
    · have hzero : (size + 2097152 - 1) % 2 ^ 64 / 2097152 = 0 := by omega
      rw [hzero]
      omega

/-! ## The free list -/

/-- **Linking the pages**: after the loop each of the `k + 1` pages but the last points to the page
    behind it. -/
theorem linkPages_spec {first k : Nat} (next : Nat → Nat) (fuel : Nat)
    (hend : first + 4096 * k + 4096 < 2 ^ 64) (hfuel : k < fuel) :
    ∃ s, linkPages (first + 4096 * k + 4096) fuel ⟨first, 0, next⟩ = .ok s ∧
      s.cache = first + 4096 * k ∧ s.nPages = k ∧
      ∀ i, i < k → s.next (first + 4096 * i) = first + 4096 * i + 4096 := by
  have hsize : pageSize = 4096 := rfl
  have hu : ∀ j, j ≤ k → u64 (first + 4096 * j + 4096) = first + 4096 * j + 4096 :=
    fun j hj => u64_of_lt (by omega)
  have hnextPage : ∀ j, first + 4096 * j + 4096 = first + 4096 * (j + 1) := fun j => by
    rw [Nat.mul_add_one, Nat.add_assoc]
  rw [linkPages, hsize]
  refine whileM_inv (fun j (s : LinkState) => s.cache = first + 4096 * j ∧ s.nPages = j ∧
    ∀ i, i < j → s.next (first + 4096 * i) = first + 4096 * i + 4096)
    ⟨rfl, rfl, fun i hi => absurd hi (Nat.not_lt_zero i)⟩ hfuel ?_ ?_
  · rintro j hj s ⟨hcache, hcount, hnext⟩
    rw [hcache, hu j (Nat.le_of_lt hj)]
    refine ⟨decide_eq_true (by omega), _, rfl, hnextPage j, congrArg (· + 1) hcount, fun i hi => ?_⟩
    show Function.update s.next (first + 4096 * j) _ _ = _
    by_cases hlast : i = j
    · rw [hlast, Function.update_self]
    · rw [Function.update_of_ne (by omega)]
      exact hnext i (by omega)
  · rintro s ⟨hcache, -⟩
    rw [hcache, hu k (Nat.le_refl k)]
    exact decide_eq_false (Nat.lt_irrefl _)

/-- A block of pages each of which points to the next is one chain. -/
theorem iterate_linked {next : Nat → Nat} {first k : Nat}
    (hnext : ∀ i, i < k → next (first + 4096 * i) = first + 4096 * i + 4096) :
    ∀ i, i ≤ k → next^[i] first = first + 4096 * i := by
  intro i
  induction i with
  | zero => exact fun _ => rfl
  | succ i ih =>
    intro hi
    rw [Function.iterate_succ_apply', ih (by omega), hnext i (by omega), Nat.mul_add_one,
      Nat.add_assoc]

/-! ## `init` -/

/-- The cache over a block whose pages have been linked. -/
def Cache.linked (raw : Cache) (cacheSize nMaxObjects firstPage : Nat) (s : LinkState) : Cache :=
  { raw with
    cacheSize := cacheSize, nMaxObjects := nMaxObjects, nCurObjects := 0
    freeListAddr := firstPage, nFreePages := s.nPages + 1, nTotalPages := s.nPages + 1
    firstPage := firstPage, next := Function.update s.next s.cache 0 }

section Init

variable {r : Region} {raw c : Cache} {nMaxObjects cacheSize : Nat}

/-- `init` that returns `true` passed the size check and linked the pages. -/
theorem init_inv (h : init r raw nMaxObjects cacheSize = .ok (some c)) :
    ∃ cache s, allocateVirtualMemory r cacheSize = cache ∧ cache ≠ 0 ∧
      ¬ u64 (cache + cacheSize) ≤ u64 (firstPageAddr cache nMaxObjects + pageSize) ∧
      linkPages (u64 (cache + cacheSize)) (cacheSize + 1)
        ⟨firstPageAddr cache nMaxObjects, 0, raw.next⟩ = .ok s ∧
      c = raw.linked cacheSize nMaxObjects (firstPageAddr cache nMaxObjects) s := by
  unfold init at h
  split at h
  · nomatch h
  · rename_i hnull
    cases hblock : initBlock raw (allocateVirtualMemory r cacheSize) nMaxObjects cacheSize with
    | error e =>
      rw [hblock] at h
      nomatch h
    | ok c' =>
      rw [hblock] at h
      cases h
      unfold initBlock at hblock
      by_cases hcheck : u64 (allocateVirtualMemory r cacheSize + cacheSize) ≤
          u64 (firstPageAddr (allocateVirtualMemory r cacheSize) nMaxObjects + pageSize)
      · simp only [hcheck, if_true] at hblock
        nomatch hblock
      · simp only [hcheck, if_false] at hblock
        obtain ⟨s, hlink, hc⟩ := bind_ok hblock
        cases hc
        exact ⟨_, s, rfl, hnull, hcheck, hlink, rfl⟩

variable (hn : nMaxObjects < 2 ^ 57) (hmul : pageSize ∣ cacheSize) (hsize : cacheSize < 2 ^ 64)
  (h : init r raw nMaxObjects cacheSize = .ok (some c))

include hn hmul hsize h

/-- The size check means that `k + 1 ≥ 2` pages fit behind the tables; they are linked. -/
theorem init_fits : ∃ cache k s, allocateVirtualMemory r cacheSize = cache ∧
    cache + cacheSize ≤ r.vaddrBreak ∧
    firstPageAddr cache nMaxObjects + 4096 * k + 4096 = cache + cacheSize ∧
    (s.cache = firstPageAddr cache nMaxObjects + 4096 * k ∧ s.nPages = k ∧
      ∀ i, i < k → s.next (firstPageAddr cache nMaxObjects + 4096 * i) =
        firstPageAddr cache nMaxObjects + 4096 * i + 4096) ∧
    c = raw.linked cacheSize nMaxObjects (firstPageAddr cache nMaxObjects) s := by
  obtain ⟨cache, s, halloc, hnull, hcheck, hlink, hc⟩ := init_inv h
  have hp : pageSize = 4096 := rfl
  have hr := r.lt
  rw [← halloc] at hnull
  obtain ⟨htop, hin⟩ := allocate_spec hsize hnull
  rw [halloc] at htop hin
  obtain ⟨⟨h1, h2, h3, h4⟩, hdvd, hfirst⟩ := tables_spec (show cache < 2 ^ 48 by omega) hn
  rw [hp] at hcheck hmul
  rw [u64_of_lt (show firstPageAddr cache nMaxObjects + 4096 < 2 ^ 64 by omega)] at hcheck
  -- a size that wraps would have failed the check
  have htop' : cache + cacheSize ≤ r.vaddrBreak := by
    rcases hin with hin | hwrap
    · exact hin
    · unfold u64 at hcheck
      omega
  rw [u64_of_lt (show cache + cacheSize < 2 ^ 64 by omega)] at hcheck hlink
  obtain ⟨k, hk⟩ : ∃ k, firstPageAddr cache nMaxObjects + 4096 * k + 4096 = cache + cacheSize :=
    ⟨(cache + cacheSize - firstPageAddr cache nMaxObjects) / 4096 - 1, by omega⟩
  rw [← hk] at hlink
  obtain ⟨s', hlink', hs⟩ := linkPages_spec raw.next (cacheSize + 1)
    (show firstPageAddr cache nMaxObjects + 4096 * k + 4096 < 2 ^ 64 by omega) (by omega)
  rw [hlink] at hlink'
  cases hlink'
  exact ⟨cache, k, s, halloc, htop', hk, hs, hc⟩

/-- **The layout of the block**: four tables with room for `n_max_objects` entries each, then the
    content pages up to the end. -/
theorem init_layout : ∃ cache, allocateVirtualMemory r cacheSize = cache ∧
    cache + nMaxObjects * 8 ≤ objDigestAddr cache nMaxObjects ∧
    objDigestAddr cache nMaxObjects + nMaxObjects * 32 ≤ objMetadataAddr cache nMaxObjects ∧
    objMetadataAddr cache nMaxObjects + nMaxObjects * 24 ≤ sortIdsAddr cache nMaxObjects ∧
    sortIdsAddr cache nMaxObjects + nMaxObjects * 8 ≤ c.firstPage ∧
    c.firstPage + pageSize * c.nTotalPages = cache + cacheSize := by
  obtain ⟨cache, k, s, halloc, htop, hend, ⟨-, hk, -⟩, rfl⟩ := init_fits hn hmul hsize h
  have hr := r.lt
  obtain ⟨⟨h1, h2, h3, h4⟩, -, -⟩ := tables_spec (show cache < 2 ^ 48 by omega) hn
  refine ⟨cache, halloc, h1, h2, h3, h4, ?_⟩
  show firstPageAddr cache nMaxObjects + pageSize * (s.nPages + 1) = _
  rw [← hend, hk, Nat.mul_add_one, ← Nat.add_assoc]
  rfl

/-- **`init` establishes the invariant**, with an empty index. -/
theorem init_spec (hpos : 1 ≤ nMaxObjects) :
    Inv c ∧ c.nCurObjects = 0 ∧ c.nMaxObjects = nMaxObjects ∧ 0 < c.nTotalPages := by
  obtain ⟨cache, k, s, halloc, htop, hend, ⟨hcache, hk, hnext⟩, rfl⟩ := init_fits hn hmul hsize h
  generalize firstPageAddr cache nMaxObjects = first at *
  have hlinked : ∀ i, i < k →
      Function.update s.next s.cache 0 (first + 4096 * i) = first + 4096 * i + 4096 := by
    intro i hi
    rw [hcache, Function.update_of_ne (by omega)]
    exact hnext i hi
  have hiter := iterate_linked hlinked
  have hno : ∀ o, o ∉ (raw.linked cacheSize nMaxObjects first s).objects :=
    fun o ho => absurd ho List.not_mem_nil
  refine ⟨⟨⟨fun o ho => absurd ho (hno o), List.Pairwise.nil⟩, Nat.zero_le _, hpos,
    fun o ho => absurd ho (hno o), fun o ho => absurd ho (hno o), ?_, ?_⟩, rfl, rfl, Nat.succ_pos _⟩
  · show ([] ++ List.iterate (Function.update s.next s.cache 0) first (s.nPages + 1)).Perm
      (listOf (fun k => first + k * pageSize) (s.nPages + 1))
    rw [List.nil_append, ← List.range_map_iterate, hk]
    refine List.Perm.of_eq (List.map_congr_left fun i hi => ?_)
    rw [hiter i (Nat.le_of_lt_succ (List.mem_range.mp hi)), Nat.mul_comm]
    rfl
  · show (Function.update s.next s.cache 0)^[s.nPages + 1] first = 0
    rw [hk, Function.iterate_succ_apply', hiter k (Nat.le_refl k), hcache, Function.update_self]

end Init

end JudgeDuck.DuckCache
