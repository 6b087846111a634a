/-
  The representation invariant of the cache, operation by operation.

  `Inv` says that the index is sorted and within its bounds and that the chains of the objects and
  the free list partition the content pages.  Each part of an operation has one specification,
  which says that it returns, that the invariant holds afterwards, and what became of the objects
  and of their bytes: `makeRoom_spec` (some objects go, the others keep their bytes), `insert_spec`
  (one object comes), `load_hit` and `load_miss`, and for `store` its three outcomes `store_present`,
  `store_refused` and `store_inserts`.
-/
import JudgeDuck.DuckCache.Evict

namespace JudgeDuck.DuckCache

open JudgeDuck.Lib

/-- The representation invariant. -/
structure Inv (c : Cache) : Prop where
  sorted : Sorted c.objects
  count : c.nCurObjects ≤ c.nMaxObjects
  max_pos : 0 < c.nMaxObjects
  /-- A time stamp of zero marks the objects being removed. -/
  used : ∀ o ∈ c.objects, o.metadata.lastUsedTsc ≠ 0
  lens : ∀ o ∈ c.objects, o.metadata.len < 2 ^ 63
  pool : Pool c.next (c.objects.map fun o => o.metadata.chain) c.freeListAddr c.nFreePages 0
    c.contentPages

/-- The bytes of an object of the cache. -/
def Cache.bytes (c : Cache) (o : Object) : List UInt8 := bytesAt c.next c.content o.metadata

theorem object_mem {c : Cache} {i : Nat} (hi : i < c.nCurObjects) : c.object i ∈ c.objects :=
  mem_listOf.mpr ⟨i, hi, rfl⟩

theorem objects_eq_map (c : Cache) : c.objects = (List.range c.nCurObjects).map c.object := rfl

/-! ## Making room -/

section Room

variable {c : Cache} {done rest : List Nat}

/-- The rows that are not removed are, up to order, what the loop left. -/
theorem survivors_perm (hperm : (done ++ rest).Perm (List.range c.nCurObjects))
    (hnodup : (done ++ rest).Nodup) :
    ((List.range c.nCurObjects).filter (· ∉ done)).Perm rest := by
  have hdisj := (List.nodup_append.mp hnodup).2.2
  have hdone : done.filter (· ∉ done) = [] :=
    List.filter_eq_nil_iff.mpr fun i hi => by simp [hi]
  have hrest : rest.filter (· ∉ done) = rest :=
    List.filter_eq_self.mpr fun i hi => decide_eq_true fun hmem => hdisj i hmem i hi rfl
  have h := hperm.filter (· ∉ done)
  rw [List.filter_append, hdone, hrest, List.nil_append] at h
  exact h.symm

/-- The tables when the rows `done` are marked as removed. -/
def Cache.marked (c : Cache) (done : List Nat) : DefragState where
  j := 0
  objHash := c.objHash
  objDigest := c.objDigest
  objMetadata := fun i => if i ∈ done then (c.objMetadata i).invalidate else c.objMetadata i

theorem live_marked (hc : Inv c) {i : Nat} (hi : i < c.nCurObjects) :
    Object.live ((c.marked done).object i) = decide (i ∉ done) := by
  have hused : (c.objMetadata i).lastUsedTsc ≠ 0 := hc.used _ (object_mem hi)
  by_cases hmem : i ∈ done
  · simp [Object.live, DefragState.object, Cache.marked, hmem, Metadata.invalidate]
  · simp [Object.live, DefragState.object, Cache.marked, hmem, hused]

/-- Closing the gaps leaves the rows that were not removed. -/
theorem defrag_marked (hc : Inv c) (done : List Nat) :
    listOf (forUp defragStep c.nCurObjects (c.marked done)).object
        (forUp defragStep c.nCurObjects (c.marked done)).j =
      ((List.range c.nCurObjects).filter (· ∉ done)).map c.object := by
  have hlive : ∀ i ∈ List.range c.nCurObjects,
      (Object.live ∘ (c.marked done).object) i = decide (i ∉ done) :=
    fun i hi => live_marked hc (List.mem_range.mp hi)
  rw [defrag_spec _ _ rfl, listOf, List.filter_map, List.filter_congr hlive]
  refine List.map_congr_left fun i hi => ?_
  have hmem : i ∉ done := of_decide_eq_true (List.mem_filter.mp hi).2
  simp only [DefragState.object, Cache.marked, hmem, if_false]
  rfl

variable {s : EvictState} (ids : List Nat)

/-- The objects after the gaps are closed. -/
theorem defrag_objects (hc : Inv c) (hperm : (done ++ rest).Perm (List.range c.nCurObjects))
    (hev : Evicted c done rest s) : (defrag c ids s).objects =
      ((List.range c.nCurObjects).filter (· ∉ done)).map c.object := by
  have hmarked : DefragState.mk 0 c.objHash c.objDigest s.objMetadata = c.marked done := by
    rw [hev.metadata]
    rfl
  have hobjs := defrag_marked hc done
  have hkeep := survivors_perm hperm (hperm.nodup_iff.mpr List.nodup_range)
  have hlen : c.nCurObjects - s.nRemovedObjects =
      (forUp defragStep c.nCurObjects (c.marked done)).j := by
    have h1 := congrArg List.length hobjs
    have h2 := hkeep.length_eq
    have h3 := hperm.length_eq
    rw [length_listOf, List.length_map] at h1
    rw [List.length_append, List.length_range] at h3
    rw [hev.objects]
    omega
  rw [← hobjs, ← hlen, ← hmarked]
  rfl

/-- The pages after the gaps are closed. -/
theorem defrag_pool (hc : Inv c) (hperm : (done ++ rest).Perm (List.range c.nCurObjects))
    (hev : Evicted c done rest s) :
    Pool s.next ((defrag c ids s).objects.map fun o => o.metadata.chain) s.freeListAddr
      (c.nFreePages + s.nRemovedPages) 0 c.contentPages := by
  rw [defrag_objects ids hc hperm hev, List.map_map]
  exact hev.pool.of_perm
    ((survivors_perm hperm (hperm.nodup_iff.mpr List.nodup_range)).map c.chain)

end Room

/-- What making room may do to a cache. -/
structure Shrunk (c c' : Cache) : Prop where
  objects : c'.objects.Sublist c.objects
  bytes : ∀ o ∈ c'.objects, c'.bytes o = c.bytes o
  pages : c'.contentPages = c.contentPages
  max : c'.nMaxObjects = c.nMaxObjects

/-- **Evicting leaves a smaller cache**: the objects that are left have their bytes and their
    pages. -/
theorem defrag_shrunk {c : Cache} {done rest : List Nat} {s : EvictState} (ids : List Nat)
    (hc : Inv c)
    (hperm : (done ++ rest).Perm (List.range c.nCurObjects)) (hev : Evicted c done rest s) :
    Shrunk c (defrag c ids s) := by
  have hobjects := defrag_objects ids hc hperm hev
  refine ⟨?_, fun o ho => ?_, rfl, rfl⟩
  · rw [hobjects, objects_eq_map]
    exact List.filter_sublist.map _
  · rw [hobjects] at ho
    rcases List.mem_map.mp ho with ⟨i, hi, rfl⟩
    have hrest : i ∈ rest :=
      (survivors_perm hperm (hperm.nodup_iff.mpr List.nodup_range)).subset hi
    exact bytesAt_congr (hev.frame i hrest) fun _ _ => rfl

/-- The loop stopped because there was enough, or nothing is left, and then there is enough too. -/
theorem enough_of_end {c : Cache} {done rest : List Nat} {s : EvictState} {nNeed : Nat}
    (hc : Inv c) (hperm : (done ++ rest).Perm (List.range c.nCurObjects))
    (hev : Evicted c done rest s) (hneed : nNeed ≤ c.nTotalPages)
    (hend : rest = [] ∨ Enough c nNeed done) : Enough c nNeed done := by
  rcases hend with rfl | henough
  · have hpos := hc.max_pos
    have hlen := hperm.length_eq
    have htotal := hev.pool.length
    rw [List.length_append, List.length_range, List.length_nil] at hlen
    rw [Cache.contentPages, length_listOf, List.map_nil, List.map_nil, List.sum_nil,
      hev.pages] at htotal
    exact ⟨by omega, by omega⟩
  · exact henough

/-- A cache with room for `nNeed` pages and a row, after the objects `done` have been removed. -/
structure Room (c c' : Cache) (nNeed : Nat) (done rest : List Nat) : Prop where
  inv : Inv c'
  shrunk : Shrunk c c'
  victims : Victims c nNeed done rest
  objects : c'.objects = ((List.range c.nCurObjects).filter (· ∉ done)).map c.object
  pages : nNeed ≤ c'.nFreePages
  row : c'.nCurObjects < c'.nMaxObjects

/-- Closing the gaps after the loop. -/
theorem defrag_room {c : Cache} {done rest : List Nat} {s : EvictState} {nNeed : Nat}
    (ids : List Nat) (hc : Inv c) (hvictims : Victims c nNeed done rest)
    (hev : Evicted c done rest s) : Room c (defrag c ids s) nNeed done rest := by
  have hperm := hvictims.rows
  have hobjects := defrag_objects ids hc hperm hev
  have hshrunk := defrag_shrunk ids hc hperm hev
  have hsub := hshrunk.objects
  obtain ⟨hpages, hrows⟩ := hvictims.enough
  have hlen := hperm.length_eq
  rw [List.length_append, List.length_range] at hlen
  have hpos := hc.max_pos
  have hrow : c.nCurObjects - s.nRemovedObjects < c.nMaxObjects := by
    rw [hev.objects]
    omega
  refine ⟨⟨hc.sorted.sublist hsub, Nat.le_of_lt hrow, hpos, ?_, ?_, defrag_pool _ hc hperm hev⟩,
    hshrunk, hvictims, hobjects, ?_, hrow⟩
  · intro o ho
    exact hc.used o (hsub.subset ho)
  · intro o ho
    exact hc.lens o (hsub.subset ho)
  · show nNeed ≤ c.nFreePages + s.nRemovedPages
    rwa [hev.pages]

/-- **Making room**: the least recently used objects are removed until the pages and the row are
    free. -/
theorem makeRoom_spec {c : Cache} {d : Digest256} {nNeed : Nat} (sorter : StdSort) (hc : Inv c)
    (habsent : ∀ o ∈ c.objects, o.digest ≠ d) (hneed : nNeed ≤ c.nTotalPages)
    (hfull : ¬ Enough c nNeed []) :
    ∃ c' done rest, makeRoom sorter c d nNeed = .ok (c', (find c' d).2) ∧
      Room c c' nNeed done rest := by
  generalize hids : sorter.sort (fun i => (c.objMetadata i).lastUsedTsc)
    (List.range c.nCurObjects) = ids
  have hperm : ids.Perm (List.range c.nCurObjects) := hids ▸ sorter.perm _ _
  have horder : ids.Pairwise fun i j =>
      (c.objMetadata i).lastUsedTsc ≤ (c.objMetadata j).lastUsedTsc := hids ▸ sorter.sorted _ _
  have hchains : c.objects.map (fun o => o.metadata.chain) =
      (List.range c.nCurObjects).map c.chain := by
    rw [objects_eq_map, List.map_map]
    rfl
  -- nothing has been removed yet
  have hstart : Evicted c [] ids ⟨0, 0, c.objMetadata, c.next, c.freeListAddr⟩ := by
    refine ⟨rfl, rfl, by simp, ?_, fun _ _ => rfl⟩
    have hpool := hc.pool
    rw [hchains] at hpool
    exact hpool.of_perm (hperm.map _)
  obtain ⟨done, rest, s, rfl, hrun, hev, hend, hfewest⟩ := evict_spec nNeed hstart
    (hperm.nodup_iff.mpr List.nodup_range)
    fun id hid => hc.lens _ (object_mem (List.mem_range.mp (hperm.subset hid)))
  simp only [List.nil_append] at hev hend hfewest
  have hvictims : Victims c nNeed done rest := by
    refine ⟨hperm, horder, enough_of_end hc hperm hev hneed hend, ?_⟩
    intro p hp hne
    by_cases hnil : p = []
    · rwa [hnil]
    · exact hfewest p hp hnil hne
  have hroom := defrag_room (done ++ rest) hc hvictims hev
  have hfind : (find (defrag c (done ++ rest) s) d).1 = false := by
    rw [← Bool.not_eq_true, find_iff hroom.inv.sorted]
    rintro ⟨i, hi, rfl⟩
    exact habsent _ (hroom.shrunk.objects.subset (object_mem hi)) rfl
  refine ⟨_, done, rest, ?_, hroom⟩
  rw [makeRoom, hids, bind_of_ok hrun]
  show (if (find (defrag c (done ++ rest) s) d).1 = true then _ else _) = _
  rw [hfind]
  rfl

theorem Shrunk.refl (c : Cache) : Shrunk c c := ⟨List.Sublist.refl _, fun _ _ => rfl, rfl, rfl⟩

/-- **There is room** afterwards, and nothing is removed if there was room before. -/
theorem ensureRoom_spec {c : Cache} {d : Digest256} {nNeed : Nat} (sorter : StdSort) (hc : Inv c)
    (habsent : ∀ o ∈ c.objects, o.digest ≠ d) (hneed : nNeed ≤ c.nTotalPages) :
    ∃ c' done rest, ensureRoom sorter c d (find c d).2 nNeed = .ok (c', (find c' d).2) ∧
      Room c c' nNeed done rest := by
  rw [ensureRoom]
  by_cases henough : Enough c nNeed []
  · have hrow : ¬ (nNeed > c.nFreePages ∨ c.nCurObjects + 1 > c.nMaxObjects) := by
      obtain ⟨hpages, hrows⟩ := henough
      have hnone : c.pagesOf [] = 0 := rfl
      rw [List.length_nil] at hrows
      omega
    rw [if_neg hrow]
    refine ⟨c, [], _, rfl, hc, Shrunk.refl c, ⟨sorter.perm _ _, sorter.sorted _ _, henough, ?_⟩, ?_,
      by omega, by omega⟩
    · intro p hp hne
      exact absurd (List.prefix_nil.mp hp) hne
    · rw [objects_eq_map, List.filter_eq_self.mpr fun i _ => decide_eq_true List.not_mem_nil]
  · have hmore : nNeed > c.nFreePages ∨ c.nCurObjects + 1 > c.nMaxObjects := by
      by_contra hno
      refine henough ⟨?_, ?_⟩
      · have hnone : c.pagesOf [] = 0 := rfl
        omega
      · rw [List.length_nil]
        omega
    rw [if_pos hmore]
    exact makeRoom_spec sorter hc habsent hneed henough

/-! ## Inserting -/

/-- The cache after an insertion, but for the contents. -/
def Cache.inserted (c : Cache) (d : Digest256) (idx len tsc : Nat)
    (content : Nat → Nat → UInt8) : Cache :=
  { insertRow c d idx ⟨tsc, c.freeListAddr, len⟩ with
    content := content
    nFreePages := c.nFreePages - pageCount len
    freeListAddr := c.next^[pageCount len] c.freeListAddr }

section Insert

variable {c : Cache} {d : Digest256} {idx len tsc : Nat}

/-- `insert` returns; it writes the source to the first free pages, and to no other page. -/
theorem insert_eq (src : Nat → UInt8) (hc : Inv c) (hfree : pageCount len ≤ c.nFreePages)
    (hrow : c.nCurObjects < c.nMaxObjects) (hlen : len < 2 ^ 63) :
    ∃ content, insert c d idx src len tsc = .ok (c.inserted d idx len tsc content) ∧
      (∀ t, t < len → content (c.next^[t / 4088] c.freeListAddr) (t % 4088) = src t) ∧
      ∀ p, p ∉ List.iterate c.next c.freeListAddr c.nFreePages → content p = c.content p := by
  have hpage : ∀ j, j < pageCount len → isPage c (c.next^[j] c.freeListAddr) = true := fun j hj =>
    isPage_iff.mpr (hc.pool.free_mem_all (mem_iterate_of_lt (by omega)))
  have hfull := fullPages_le len
  obtain ⟨s, hcopy, haddr, hbytes, hframe⟩ := storeLoop_spec src hlen
    (fun j hj => hpage j (by omega)) (hc.pool.nodup_free (nodup_contentPages c) (by omega))
  -- the free list now starts behind the pages of the object
  have hnext : (if len = 0 then c.next s.addr else s.addr) =
      c.next^[pageCount len] c.freeListAddr := by
    rw [haddr]
    by_cases h0 : len = 0
    · subst h0
      rfl
    · rw [if_neg h0, pageCount, Nat.max_eq_right]
      unfold fullPages
      omega
  have hok : ¬ (len = 0 ∧ isPage c s.addr = false) := by
    rintro ⟨rfl, hbad⟩
    have hgood : isPage c s.addr = true := by
      rw [haddr]
      exact hpage 0 (pageCount_pos 0)
    exact Bool.false_ne_true (hbad.symm.trans hgood)
  refine ⟨s.mem, ?_, hbytes, fun p hp => hframe p fun hmem => hp ?_⟩
  · rw [insert, if_neg (Nat.not_le.mpr hrow), bind_of_ok hcopy, if_neg hok, hnext,
      nNeedPages_eq hlen]
    rfl
  · rcases List.mem_iterate.mp hmem with ⟨k, hk, rfl⟩
    exact mem_iterate_of_lt (by omega)

/-- The pages after an insertion. -/
theorem inserted_pool (content : Nat → Nat → UInt8) (hc : Inv c) (hidx : idx ≤ c.nCurObjects)
    (hfree : pageCount len ≤ c.nFreePages) :
    Pool c.next ((c.inserted d idx len tsc content).objects.map fun o => o.metadata.chain)
      (c.next^[pageCount len] c.freeListAddr) (c.nFreePages - pageCount len) 0 c.contentPages := by
  have htake := hc.pool.take hfree
  have hobjs : (c.inserted d idx len tsc content).objects = _ := insertRow_objects d _ hidx
  rw [objects_split hidx] at htake
  rw [hobjs, List.map_append, List.map_cons]
  rw [List.map_append] at htake
  exact htake.of_perm List.perm_middle

/-- What inserting an object with the bytes `bytes` does to a cache. -/
structure Grown (c c' : Cache) (new : Object) (bytes : List UInt8) : Prop where
  objects : ∃ l1 l2, c.objects = l1 ++ l2 ∧ c'.objects = l1 ++ new :: l2
  old : ∀ o ∈ c.objects, c'.bytes o = c.bytes o
  new : c'.bytes new = bytes
  pages : c'.contentPages = c.contentPages
  max : c'.nMaxObjects = c.nMaxObjects

/-- **Inserting**: the entry goes to its place in the index, the bytes to free pages. -/
theorem insert_spec (src : Nat → UInt8) (hc : Inv c) (habsent : ∀ o ∈ c.objects, o.digest ≠ d)
    (hidx : IsLowerBound c d idx) (hfree : pageCount len ≤ c.nFreePages)
    (hrow : c.nCurObjects < c.nMaxObjects) (hlen : len < 2 ^ 63) (htsc : tsc ≠ 0) :
    ∃ c', insert c d idx src len tsc = .ok c' ∧ Inv c' ∧
      Grown c c' ⟨d.a0, d, ⟨tsc, c.freeListAddr, len⟩⟩ (listOf src len) := by
  obtain ⟨content, hrun, hbytes, hframe⟩ := insert_eq src hc hfree hrow hlen
  have hobjs : (c.inserted d idx len tsc content).objects = _ := insertRow_objects d _ hidx.le
  have hmem : ∀ o ∈ (c.inserted d idx len tsc content).objects,
      o ∈ c.objects ∨ o = ⟨d.a0, d, ⟨tsc, c.freeListAddr, len⟩⟩ := by
    intro o ho
    rw [hobjs] at ho
    rw [objects_split hidx.le]
    simp only [List.mem_append, List.mem_cons] at ho ⊢
    tauto
  refine ⟨_, hrun, ⟨insertRow_sorted _ hc.sorted habsent hidx, Nat.succ_le_of_lt hrow, hc.max_pos,
    fun o ho => ?_, fun o ho => ?_, inserted_pool content hc hidx.le hfree⟩,
    ⟨⟨_, _, objects_split hidx.le, hobjs⟩, fun o ho => ?_, ?_, rfl, rfl⟩⟩
  · rcases hmem o ho with hold | rfl
    · exact hc.used o hold
    · exact htsc
  · rcases hmem o ho with hold | rfl
    · exact hc.lens o hold
    · exact hlen
  · refine bytesAt_congr rfl fun p hp => hframe p ?_
    exact hc.pool.disjoint_free (nodup_contentPages c) (List.mem_map_of_mem ho) hp
  · exact listOf_congr hbytes

end Insert

/-! ## `load` and `store` -/

/-- The cache after the time stamp of row `idx` is renewed. -/
def Cache.touch (c : Cache) (idx tsc : Nat) : Cache :=
  { c with objMetadata :=
      Function.update c.objMetadata idx { c.objMetadata idx with lastUsedTsc := tsc } }

/-- Renewing a time stamp changes nothing else in a row. -/
theorem touch_object (c : Cache) (idx tsc i : Nat) :
    ((c.touch idx tsc).object i).hash = (c.object i).hash ∧
      ((c.touch idx tsc).object i).digest = (c.object i).digest ∧
      ((c.touch idx tsc).object i).metadata.chain = (c.object i).metadata.chain ∧
      ((c.touch idx tsc).object i).metadata.len = (c.object i).metadata.len ∧
      (c.touch idx tsc).bytes ((c.touch idx tsc).object i) = c.bytes (c.object i) := by
  by_cases hi : i = idx
  · subst hi
    simp [Cache.touch, Cache.object, Cache.bytes, bytesAt, Metadata.chain]
  · simp [Cache.touch, Cache.object, Cache.bytes, bytesAt, hi]

theorem Inv.touch {c : Cache} {tsc : Nat} (hc : Inv c) (idx : Nat) (htsc : tsc ≠ 0) :
    Inv (c.touch idx tsc) := by
  have hobj := touch_object c idx tsc
  constructor
  · constructor
    · intro o ho
      rcases mem_listOf.mp ho with ⟨i, hi, rfl⟩
      rw [(hobj i).1, (hobj i).2.1]
      exact hc.sorted.hash _ (object_mem hi)
    · refine listOf_pairwise.mpr fun i j hij hj => ?_
      rw [(hobj i).2.1, (hobj j).2.1]
      exact hc.sorted.cmp_lt hij hj
  · exact hc.count
  · exact hc.max_pos
  · intro o ho
    rcases mem_listOf.mp ho with ⟨i, hi, rfl⟩
    by_cases heq : i = idx
    · subst heq
      simpa [Cache.touch, Cache.object] using htsc
    · simpa [Cache.touch, Cache.object, heq] using hc.used _ (object_mem hi)
  · intro o ho
    rcases mem_listOf.mp ho with ⟨i, hi, rfl⟩
    rw [(hobj i).2.2.2.1]
    exact hc.lens _ (object_mem hi)
  · have hchains : (c.touch idx tsc).objects.map (fun o => o.metadata.chain) =
        c.objects.map fun o => o.metadata.chain := by
      rw [Cache.objects, Cache.objects, listOf_map, listOf_map]
      exact listOf_congr fun i _ => (hobj i).2.2.1
    rw [hchains]
    exact hc.pool

section Calls

variable {c : Cache} {d : Digest256}

/-- No two rows have the same digest. -/
theorem objDigest_injective (hc : Inv c) {i j : Nat} (hi : i < c.nCurObjects)
    (hj : j < c.nCurObjects) (heq : c.objDigest i = c.objDigest j) : i = j := by
  have hsame : cmpDigest (c.objDigest i) (c.objDigest i) = 0 := cmpDigest_eq_zero.mpr rfl
  rcases Nat.lt_trichotomy i j with hlt | hij | hgt
  · have hcmp := hc.sorted.cmp_lt hlt hj
    rw [← heq, hsame] at hcmp
    omega
  · exact hij
  · have hcmp := hc.sorted.cmp_lt hgt hi
    rw [← heq, hsame] at hcmp
    omega

/-- `find` on a digest that is there. -/
theorem find_present (hc : Inv c) {o : Object} (ho : o ∈ c.objects) (hd : o.digest = d) :
    ∃ idx, find c d = (true, idx) ∧ idx < c.nCurObjects ∧ c.object idx = o := by
  rcases mem_listOf.mp ho with ⟨i, hi, rfl⟩
  have hfound := (find_iff hc.sorted d).mpr ⟨i, hi, hd⟩
  obtain ⟨-, hiff⟩ := find_spec hc.sorted d
  rcases hiff.mp hfound with ⟨hlt, hdig⟩
  refine ⟨(find c d).2, Prod.ext hfound rfl, hlt, ?_⟩
  rw [objDigest_injective hc hlt hi (hdig.trans hd.symm)]

/-- `find` on a digest that is not there. -/
theorem find_absent (hc : Inv c) (habsent : ∀ o ∈ c.objects, o.digest ≠ d) :
    (find c d).1 = false := by
  rw [← Bool.not_eq_true, find_iff hc.sorted]
  rintro ⟨i, hi, hd⟩
  exact habsent _ (object_mem hi) hd

/-- `load` of an absent digest, or of one with another length, does nothing. -/
theorem load_miss {dst : Nat → UInt8} {n : Nat} (tsc : Nat) (hc : Inv c)
    (hmiss : ∀ o ∈ c.objects, o.digest = d → o.metadata.len ≠ n) :
    load c d dst n tsc = .ok (c, false, dst) := by
  unfold load
  by_cases hpresent : ∃ o ∈ c.objects, o.digest = d
  · obtain ⟨o, ho, hd⟩ := hpresent
    obtain ⟨idx, hfind, -, rfl⟩ := find_present hc ho hd
    have hlen : (c.objMetadata idx).len ≠ n := hmiss _ ho hd
    rw [hfind]
    simp [hlen]
  · have habsent : ∀ o ∈ c.objects, o.digest ≠ d := fun o ho hd => hpresent ⟨o, ho, hd⟩
    simp [find_absent hc habsent]

/-- **`load`** of an object with its length writes the bytes of the object to the destination. -/
theorem load_hit {o : Object} (dst : Nat → UInt8) (tsc : Nat) (hc : Inv c) (ho : o ∈ c.objects)
    (hd : o.digest = d) :
    ∃ idx, load c d dst o.metadata.len tsc = .ok (c.touch idx tsc, true,
      memcpy dst 0 (fun t => (c.bytes o).getD t 0) o.metadata.len) := by
  obtain ⟨idx, hfind, -, rfl⟩ := find_present hc ho hd
  have hlen : (c.objMetadata idx).len < 2 ^ 63 := hc.lens _ ho
  have hpage : ∀ j, j < fullPages (c.objMetadata idx).len →
      isPage c (c.next^[j] (c.objMetadata idx).startAddr) = true := by
    intro j hj
    refine isPage_iff.mpr (hc.pool.mem_all (List.mem_map_of_mem ho) ?_)
    exact mem_iterate_of_lt (Nat.lt_of_lt_of_le hj (fullPages_le _))
  obtain ⟨s, hrun, hmem⟩ := loadLoop_spec dst hlen hpage
  have hdst : memcpy dst 0 (fun t => (c.bytes (c.object idx)).getD t 0) (c.objMetadata idx).len
      = s.mem := by
    funext t
    rw [hmem t, memcpy_zero]
    by_cases ht : t < (c.objMetadata idx).len
    · rw [if_pos ht, if_pos ht]
      exact getD_listOf ht 0
    · rw [if_neg ht, if_neg ht]
  refine ⟨idx, ?_⟩
  show load c d dst (c.objMetadata idx).len tsc =
    .ok (_, _, memcpy dst 0 (fun t => (c.bytes (c.object idx)).getD t 0) (c.objMetadata idx).len)
  rw [hdst, load, hfind]
  simp only [Bool.true_eq_false, if_false, ne_eq, not_true_eq_false]
  rw [bind_of_ok hrun]
  rfl

/-- **`store`** of a digest that is there does nothing. -/
theorem store_present {o : Object} (sorter : StdSort) (src : Nat → UInt8) (len tsc : Nat)
    (hc : Inv c) (ho : o ∈ c.objects) (hd : o.digest = d) :
    store sorter c d src len tsc = .ok (c, true) := by
  obtain ⟨idx, hfind, -, -⟩ := find_present hc ho hd
  rw [store, hfind]
  rfl

/-- **`store`** of more bytes than there are pages does nothing. -/
theorem store_refused {len : Nat} (sorter : StdSort) (src : Nat → UInt8) (tsc : Nat) (hc : Inv c)
    (habsent : ∀ o ∈ c.objects, o.digest ≠ d) (hbig : nNeedPages len > c.nTotalPages) :
    store sorter c d src len tsc = .ok (c, false) := by
  unfold store
  simp [find_absent hc habsent, hbig]

/-- The parts of a **`store`** of a new digest that fits. -/
theorem store_inserts {len tsc : Nat} (sorter : StdSort) (src : Nat → UInt8) (hc : Inv c)
    (habsent : ∀ o ∈ c.objects, o.digest ≠ d) (hfits : pageCount len ≤ c.nTotalPages)
    (hlen : len < 2 ^ 63) (htsc : tsc ≠ 0) :
    ∃ c1 done rest c',
      ensureRoom sorter c d (find c d).2 (nNeedPages len) = .ok (c1, (find c1 d).2) ∧
      Room c c1 (pageCount len) done rest ∧ store sorter c d src len tsc = .ok (c', true) ∧
      insert c1 d (find c1 d).2 src len tsc = .ok c' ∧ Inv c' ∧
      Grown c1 c' ⟨d.a0, d, ⟨tsc, c1.freeListAddr, len⟩⟩ (listOf src len) := by
  obtain ⟨c1, done, rest, hrun, hroom⟩ := ensureRoom_spec sorter hc habsent hfits
  rw [← nNeedPages_eq hlen] at hrun
  have habsent1 : ∀ o ∈ c1.objects, o.digest ≠ d := fun o ho =>
    habsent o (hroom.shrunk.objects.subset ho)
  obtain ⟨c', hinsert, hc', hgrown⟩ := insert_spec src hroom.inv habsent1
    (find_spec hroom.inv.sorted d).1 hroom.pages hroom.row hlen htsc
  refine ⟨c1, done, rest, c', hrun, hroom, ?_, hinsert, hc', hgrown⟩
  have hnot : ¬ nNeedPages len > c.nTotalPages := by
    rw [nNeedPages_eq hlen]
    omega
  unfold store
  simp only [find_absent hc habsent, Bool.false_eq_true, if_false, if_neg hnot]
  rw [bind_of_ok hrun]
  show insert c1 d (find c1 d).2 src len tsc >>= _ = _
  rw [bind_of_ok hinsert]

/-- **`store`** of a new digest that fits: objects may have to go, then the object is there. -/
theorem store_new {len tsc : Nat} (sorter : StdSort) (src : Nat → UInt8) (hc : Inv c)
    (habsent : ∀ o ∈ c.objects, o.digest ≠ d) (hfits : pageCount len ≤ c.nTotalPages)
    (hlen : len < 2 ^ 63) (htsc : tsc ≠ 0) :
    ∃ c1 c' new, store sorter c d src len tsc = .ok (c', true) ∧ Inv c' ∧ Shrunk c c1 ∧
      Grown c1 c' new (listOf src len) ∧ new.digest = d := by
  obtain ⟨c1, done, rest, c', -, hroom, hstore, -, hc', hgrown⟩ :=
    store_inserts sorter src hc habsent hfits hlen htsc
  exact ⟨c1, c', _, hstore, hc', hroom.shrunk, hgrown, rfl⟩

end Calls

end JudgeDuck.DuckCache
