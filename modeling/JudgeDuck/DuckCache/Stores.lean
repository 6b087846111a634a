/-
  What a store does in the caches that `init`, `load` and `store` can reach.

  1. **Eviction.**  The objects that a store removes are the first ones in the order of their last
     use, and as few as will do (`store_evicts`); none are removed if there is room.

  2. **Lengths.**  `n_need_pages` is computed in 64 bits, and `len + 4087` wraps around for the last
     4087 lengths.  One page is asked for then, the length passes the check, and the copying loop
     runs off the end of the free list (`store_wrapped`).  All other lengths that need more pages
     than there are are refused, and for the lengths that fit the loop touches each page of the
     object once (`insert_touches`).

  3. **Reachable caches** satisfy the representation invariant, whatever the lengths of the calls were
     (`Reachable.sound`): a call with a length of 2 ^ 63 or more changes nothing if it returns.
-/
import JudgeDuck.DuckCache.Refinement

namespace JudgeDuck.DuckCache

open JudgeDuck.Lib

/-! ## Reachable caches -/

/-- The clock does not read zero, and the length of a store is a 64-bit word. -/
def Op.Timed : Op → Prop
  | .load _ _ _ tsc => tsc ≠ 0
  | .store _ _ len tsc => len < 2 ^ 64 ∧ tsc ≠ 0

/-- The caches that a sequence of calls can reach. -/
inductive Reachable (sorter : StdSort) : Cache → Prop
  | init {r : Region} {raw c : Cache} {nMaxObjects cacheSize : Nat} : 1 ≤ nMaxObjects →
      nMaxObjects < 2 ^ 57 → pageSize ∣ cacheSize → cacheSize < 2 ^ 64 →
      init r raw nMaxObjects cacheSize = .ok (some c) → Reachable sorter c
  | step {c c' : Cache} {op : Op} {out : Out} : Reachable sorter c → op.Timed →
      step sorter c op = .ok (c', out) → Reachable sorter c'

/-- The invariant, with what is known about the block: the null pointer is not a content page, and
    the pages lie in the lower half of the address space. -/
structure Sound (c : Cache) : Prop extends Inv c where
  null : 0 ∉ c.contentPages
  pos : 0 < c.nTotalPages
  bound : c.nTotalPages < 2 ^ 36

section Lengths

variable {c c' : Cache} {d : Digest256} {src : Nat → UInt8} {idx len tsc : Nat}

theorem Sound.of_pages (h : Sound c) (hc' : Inv c') (hpages : c'.contentPages = c.contentPages) :
    Sound c' := by
  have htotal : c'.nTotalPages = c.nTotalPages := by
    have hlen := congrArg List.length hpages
    rwa [Cache.contentPages, Cache.contentPages, length_listOf, length_listOf] at hlen
  refine ⟨hc', ?_, ?_, ?_⟩
  · rw [hpages]
    exact h.null
  · rw [htotal]
    exact h.pos
  · rw [htotal]
    exact h.bound

/-- The pages asked for, as long as nothing wraps around. -/
theorem nNeedPages_exact (h : len + 4087 < 2 ^ 64) : nNeedPages len = pageCount len := by
  have hsize : onePageContentSize = 4088 := rfl
  have hsum : len + 4088 - 1 = len + 4087 := rfl
  rw [nNeedPages, pageCount, fullPages, hsize, hsum, u64_of_lt h, Nat.max_comm]

/-- **When it does**, one page is asked for. -/
theorem nNeedPages_wrapped (hlen : len < 2 ^ 64) (h : 2 ^ 64 ≤ len + 4087) : nNeedPages len = 1 := by
  have hsize : onePageContentSize = 4088 := rfl
  have hsum : len + 4088 - 1 = len + 4087 := rfl
  have hwrap : u64 (len + 4087) / 4088 = 0 := by
    unfold u64
    omega
  rw [nNeedPages, hsize, hsum, hwrap]
  rfl

/-- **Inserting more bytes than the free pages hold** leaves the content pages. -/
theorem insert_overrun (hc : Inv c) (hnull : 0 ∉ c.contentPages) (hfree : c.nFreePages < 2 ^ 36)
    (hrow : c.nCurObjects < c.nMaxObjects) (hlen : 4088 * c.nFreePages < len) :
    insert c d idx src len tsc = .error .bufferOverflow := by
  have hsize : onePageContentSize = 4088 := rfl
  have hloop : copyLoop c (copyIn src) len ⟨0, c.freeListAddr, 0, c.content⟩ =
      .error .bufferOverflow := by
    rw [copyLoop, hsize]
    refine whileM_error (n := c.nFreePages)
      (fun j (s : CopyState (Nat → Nat → UInt8)) => s.curLen = 4088 * j ∧
        s.addr = c.next^[j] c.freeListAddr) ⟨rfl, rfl⟩ (by omega) ?_ ?_
    · rintro j hj ⟨curLen, addr, off, μ⟩ ⟨rfl, rfl⟩
      have hpage : isPage c (c.next^[j] c.freeListAddr) = true :=
        isPage_iff.mpr (hc.pool.free_mem_all (mem_iterate_of_lt hj))
      refine ⟨decide_eq_true (by show 4088 * j < len; omega), _, if_pos hpage, ?_, ?_⟩
      · show u64 (4088 * j + 4088) = 4088 * (j + 1)
        rw [u64_of_lt (by omega)]
        rfl
      · exact (Function.iterate_succ_apply' c.next j c.freeListAddr).symm
    · rintro ⟨curLen, addr, off, μ⟩ ⟨rfl, rfl⟩
      -- the free list is at its end
      have hend : ¬ isPage c (c.next^[c.nFreePages] c.freeListAddr) = true := by
        rw [hc.pool.ends, isPage_iff]
        exact hnull
      exact ⟨decide_eq_true hlen, if_neg hend⟩
  rw [insert, if_neg (Nat.not_le.mpr hrow)]
  show copyLoop c (copyIn src) len ⟨0, c.freeListAddr, 0, c.content⟩ >>= _ = _
  rw [hloop]
  rfl

/-- **A store with one of the last lengths** is not refused: it leaves the content pages. -/
theorem store_wrapped (sorter : StdSort) (h : Sound c) (habsent : ∀ o ∈ c.objects, o.digest ≠ d)
    (hlen : len < 2 ^ 64) (hwrap : 2 ^ 64 ≤ len + 4087) :
    store sorter c d src len tsc = .error .bufferOverflow := by
  have hfits : nNeedPages len ≤ c.nTotalPages := by
    rw [nNeedPages_wrapped hlen hwrap]
    exact h.pos
  obtain ⟨c1, done, rest, hrun, hroom⟩ := ensureRoom_spec sorter h.toInv habsent hfits
  have hsound : Sound c1 := h.of_pages hroom.inv hroom.shrunk.pages
  have hfree : c1.nFreePages ≤ c1.nTotalPages := by
    have htotal := hroom.inv.pool.length
    rw [Cache.contentPages, length_listOf] at htotal
    omega
  have hbound := hsound.bound
  have hinsert : insert c1 d (find c1 d).2 src len tsc = .error .bufferOverflow :=
    insert_overrun hroom.inv hsound.null (by omega) hroom.row (by omega)
  unfold store
  simp only [find_absent h.toInv habsent, Bool.false_eq_true, if_false,
    if_neg (Nat.not_lt.mpr hfits)]
  rw [bind_of_ok hrun]
  show insert c1 d (find c1 d).2 src len tsc >>= _ = _
  rw [hinsert]
  rfl

/-- A long store changes nothing if it returns. -/
theorem store_long {sorter : StdSort} {stored : Bool} (h : Sound c) (hlong : 2 ^ 63 ≤ len)
    (hlen : len < 2 ^ 64) (hstore : store sorter c d src len tsc = .ok (c', stored)) : c' = c := by
  by_cases hpresent : ∃ o ∈ c.objects, o.digest = d
  · obtain ⟨o, ho, hd⟩ := hpresent
    rw [store_present sorter src len tsc h.toInv ho hd] at hstore
    cases hstore
    rfl
  have habsent : ∀ o ∈ c.objects, o.digest ≠ d := fun o ho hd => hpresent ⟨o, ho, hd⟩
  by_cases hwrap : 2 ^ 64 ≤ len + 4087
  · rw [store_wrapped sorter h habsent hlen hwrap] at hstore
    nomatch hstore
  · have hbig : nNeedPages len > c.nTotalPages := by
      have hbound := h.bound
      have hfull := fullPages_le len
      rw [nNeedPages_exact (Nat.lt_of_not_le hwrap)]
      unfold fullPages at hfull
      omega
    rw [store_refused sorter src tsc h.toInv habsent hbig] at hstore
    cases hstore
    rfl

end Lengths

/-- One call keeps the invariant. -/
theorem Sound.step {sorter : StdSort} {c c' : Cache} {op : Op} {out : Out} (h : Sound c)
    (hop : op.Timed) (hstep : step sorter c op = .ok (c', out)) : Sound c' := by
  by_cases hlegal : op.Legal
  · obtain ⟨c1, out1, hrun, hc1, ⟨hpages, -⟩, -, -⟩ := step_refines sorter h.toInv hlegal
    rw [hstep] at hrun
    cases hrun
    exact h.of_pages hc1 hpages
  · cases op with
    | load d dst n tsc => exact absurd hop hlegal
    | store d src len tsc =>
      have hlong : 2 ^ 63 ≤ len := Nat.le_of_not_lt fun hlt => hlegal ⟨hlt, hop.2⟩
      obtain ⟨⟨c1, stored⟩, hstore, hok⟩ := bind_ok hstep
      cases hok
      rw [store_long h hlong hop.1 hstore]
      exact h

/-- **Reachable caches** satisfy the invariant. -/
theorem Reachable.sound {sorter : StdSort} {c : Cache} (h : Reachable sorter c) : Sound c := by
  induction h with
  | @init r raw c nMaxObjects cacheSize hpos hn hmul hsize hinit =>
    obtain ⟨hc, -, -, htotal⟩ := init_spec hn hmul hsize hinit hpos
    obtain ⟨cache, k, s, halloc, htop, hend, -, hcache⟩ := init_fits hn hmul hsize hinit
    obtain ⟨cache', halloc', -, -, -, htables, hlayout⟩ := init_layout hn hmul hsize hinit
    obtain rfl : cache = cache' := halloc.symm.trans halloc'
    have hr := r.lt
    have hpage : pageSize = 4096 := rfl
    rw [hpage] at hlayout
    refine ⟨hc, ?_, htotal, by omega⟩
    intro hmem
    obtain ⟨k, -, hzero⟩ := mem_listOf.mp hmem
    omega
  | step _ hop hstep ih => exact ih.step hop hstep

/-! ## Eviction -/

/-- What a store for `nNeed` pages that turned `c` into `c'` has removed: the rows `removed`, which
    come before the other rows in the order of their last use.  None are removed if there was room;
    otherwise the pages and the row would not have been free without the last of them. -/
structure Evicts (c c' : Cache) (nNeed : Nat) (removed rest : List Nat) : Prop where
  rows : (removed ++ rest).Perm (List.range c.nCurObjects)
  order : (removed ++ rest).Pairwise fun i j =>
    (c.objMetadata i).lastUsedTsc ≤ (c.objMetadata j).lastUsedTsc
  gone : ∀ i ∈ removed, ∀ j, j < c'.nCurObjects → c'.objDigest j ≠ c.objDigest i
  kept : ∀ i ∈ rest, ∃ j, j < c'.nCurObjects ∧ c'.object j = c.object i
  none : Enough c nNeed [] → removed = []
  fewest : ¬ Enough c nNeed [] →
    removed ≠ [] ∧ Enough c nNeed removed ∧ ¬ Enough c nNeed removed.dropLast

section Eviction

variable {c c1 c' : Cache} {d : Digest256} {nNeed : Nat} {done rest : List Nat} {new : Object}
  {bytes : List UInt8}

theorem forall_digest_ne (habsent : ∀ i, i < c.nCurObjects → c.objDigest i ≠ d) :
    ∀ o ∈ c.objects, o.digest ≠ d := by
  intro o ho
  rcases mem_listOf.mp ho with ⟨i, hi, rfl⟩
  exact habsent i hi

theorem Grown.mem (h : Grown c c' new bytes) (o : Object) :
    o ∈ c'.objects ↔ o = new ∨ o ∈ c.objects := by
  obtain ⟨l1, l2, hold, hnew⟩ := h.objects
  rw [hold, hnew, List.mem_append, List.mem_cons, List.mem_append]
  exact or_left_comm

/-- The rows that are left after making room. -/
theorem Room.mem (h : Room c c1 nNeed done rest) (o : Object) :
    o ∈ c1.objects ↔ ∃ i, i < c.nCurObjects ∧ i ∉ done ∧ c.object i = o := by
  rw [h.objects, List.mem_map]
  constructor
  · rintro ⟨i, hi, rfl⟩
    obtain ⟨hrange, hnot⟩ := List.mem_filter.mp hi
    exact ⟨i, List.mem_range.mp hrange, of_decide_eq_true hnot, rfl⟩
  · rintro ⟨i, hi, hnot, rfl⟩
    exact ⟨i, List.mem_filter.mpr ⟨List.mem_range.mpr hi, decide_eq_true hnot⟩, rfl⟩

/-- Making room and inserting. -/
theorem evicts_of_room (hc : Inv c) (habsent : ∀ o ∈ c.objects, o.digest ≠ d)
    (hroom : Room c c1 nNeed done rest) (hgrown : Grown c1 c' new bytes) (hd : new.digest = d) :
    Evicts c c' nNeed done rest := by
  obtain ⟨hrows, horder, henough, hfewest⟩ := hroom.victims
  have hrange : ∀ i ∈ done ++ rest, i < c.nCurObjects :=
    fun i hi => List.mem_range.mp (hrows.subset hi)
  have hnodup : (done ++ rest).Nodup := hrows.nodup_iff.mpr List.nodup_range
  refine ⟨hrows, horder, ?_, ?_, ?_, ?_⟩
  · intro i hi j hj hsame
    have hin := hrange i (List.mem_append_left _ hi)
    rcases (hgrown.mem _).mp (object_mem hj) with hnew | hold
    · refine habsent _ (object_mem hin) ?_
      rw [← hd, ← hnew]
      exact hsame.symm
    · obtain ⟨k, hk, hnot, hobj⟩ := (hroom.mem _).mp hold
      have hdigest : c.objDigest k = c.objDigest i := (congrArg Object.digest hobj).trans hsame
      exact hnot (objDigest_injective hc hk hin hdigest ▸ hi)
  · intro i hi
    have hnot : i ∉ done := fun hdone => (List.nodup_append.mp hnodup).2.2 i hdone i hi rfl
    have hin := hrange i (List.mem_append_right _ hi)
    have hleft := (hroom.mem _).mpr ⟨i, hin, hnot, rfl⟩
    exact mem_listOf.mp ((hgrown.mem _).mpr (Or.inr hleft))
  · intro hbefore
    by_contra hne
    exact hfewest [] List.nil_prefix (Ne.symm hne) hbefore
  · intro hfull
    have hne : done ≠ [] := by
      rintro rfl
      exact hfull henough
    refine ⟨hne, henough, hfewest _ (List.dropLast_prefix done) ?_⟩
    intro hsame
    have hlen := congrArg List.length hsame
    rw [List.length_dropLast] at hlen
    exact hne (List.length_eq_zero_iff.mp (by omega))

/-- **Stores that fit succeed**, and they evict the least recently used objects, as few as will
    do. -/
theorem store_evicts (sorter : StdSort) (src : Nat → UInt8) {len tsc : Nat}
    (hreach : Reachable sorter c) (habsent : ∀ i, i < c.nCurObjects → c.objDigest i ≠ d)
    (hlen : len < 2 ^ 63) (hfits : max 1 ((len + 4087) / 4088) ≤ c.nTotalPages) (htsc : tsc ≠ 0) :
    ∃ c' removed rest, store sorter c d src len tsc = .ok (c', true) ∧
      c'.contents d = some (listOf src len) ∧
      Evicts c c' (max 1 ((len + 4087) / 4088)) removed rest := by
  have hc := hreach.sound.toInv
  have hobjects := forall_digest_ne habsent
  obtain ⟨c1, done, rest, c', -, hroom, hstore, -, hc', hgrown⟩ :=
    store_inserts sorter src hc hobjects hfits hlen htsc
  refine ⟨c', done, rest, hstore, ?_, evicts_of_room hc hobjects hroom hgrown rfl⟩
  exact (contents_store hc hc' hroom.shrunk hgrown rfl).1

end Eviction

/-- What `init` and one store leave in the index. -/
theorem oneStore_index : ((init twoHugePages zeros 1 24576).toOption.join.bind fun c =>
    (store mergeSorter c ⟨1, 0, 0, 0⟩ (fun _ => 7) 3 1).toOption.map fun r =>
      (r.1.nCurObjects, r.1.objDigest 0)) = some (1, ⟨1, 0, 0, 0⟩) := by decide +kernel

/-- A cache right after `init`. -/
theorem reachable_zeros {c : Cache} (hinit : init twoHugePages zeros 1 24576 = .ok (some c)) :
    Reachable mergeSorter c ∧ c.nCurObjects = 0 := by
  have hmul : pageSize ∣ 24576 := ⟨6, rfl⟩
  refine ⟨.init (Nat.le_refl 1) (by decide) hmul (by decide) hinit, ?_⟩
  exact (init_spec (by decide) hmul (by decide) hinit (Nat.le_refl 1)).2.1

/-- The index has one row: the second store evicts the first object. -/
theorem store_evicts_second : ∃ c c1 c' removed rest,
    init twoHugePages zeros 1 24576 = .ok (some c) ∧
    store mergeSorter c ⟨1, 0, 0, 0⟩ (fun _ => 7) 3 1 = .ok (c1, true) ∧
    store mergeSorter c1 ⟨2, 0, 0, 0⟩ (fun _ => 8) 2 2 = .ok (c', true) ∧
    c'.contents ⟨2, 0, 0, 0⟩ = some [8, 8] ∧ Evicts c1 c' 1 removed rest := by
  obtain ⟨c, hinit⟩ := init_zeros
  obtain ⟨hreach, hempty⟩ := reachable_zeros hinit
  have habsent : ∀ i, i < c.nCurObjects → c.objDigest i ≠ ⟨1, 0, 0, 0⟩ := by
    intro i hi
    omega
  obtain ⟨c1, -, -, hfirst, -⟩ := store_evicts mergeSorter (fun _ => 7) hreach habsent
    (by decide : 3 < 2 ^ 63) hreach.sound.pos (by decide : 1 ≠ 0)
  have htimed : (Op.store ⟨1, 0, 0, 0⟩ (fun _ => 7) 3 1).Timed := ⟨by decide, by decide⟩
  have hreach1 : Reachable mergeSorter c1 := .step hreach htimed (bind_of_ok hfirst)
  have hindex := oneStore_index
  rw [hinit] at hindex
  replace hindex : (store mergeSorter c ⟨1, 0, 0, 0⟩ (fun _ => 7) 3 1).toOption.map
      (fun r => (r.1.nCurObjects, r.1.objDigest 0)) = some (1, ⟨1, 0, 0, 0⟩) := hindex
  rw [hfirst] at hindex
  have hcount : c1.nCurObjects = 1 := congrArg Prod.fst (Option.some.inj hindex)
  have hdigest : c1.objDigest 0 = ⟨1, 0, 0, 0⟩ := congrArg Prod.snd (Option.some.inj hindex)
  have habsent1 : ∀ i, i < c1.nCurObjects → c1.objDigest i ≠ ⟨2, 0, 0, 0⟩ := by
    intro i hi
    obtain rfl : i = 0 := by omega
    rw [hdigest]
    decide
  obtain ⟨c', removed, rest, hsecond, hcontents, hevicts⟩ := store_evicts mergeSorter (fun _ => 8)
    hreach1 habsent1 (by decide : 2 < 2 ^ 63) hreach1.sound.pos (by decide : 2 ≠ 0)
  exact ⟨c, c1, c', removed, rest, hinit, hfirst, hsecond, hcontents, hevicts⟩

/-! ## The pages that are touched -/

/-- A copy that also notes its page. -/
def logged {σ : Type} (copy : Nat → Nat → Nat → σ → σ) (addr off n : Nat) (s : σ × List Nat) :
    σ × List Nat := (copy addr off n s.1, s.2 ++ [addr])

/-- The pages of the copying loop of `store`, and that of `if (len == 0)` behind it. -/
def touched {σ : Type} (len : Nat) (s : CopyState (σ × List Nat)) : List Nat :=
  if len = 0 then s.mem.2 ++ [s.addr] else s.mem.2

section Touched

variable {c : Cache} {d : Digest256} {len tsc : Nat}

/-- The copying loop of an insertion, with its log. -/
theorem insert_touches (src : Nat → UInt8) {c' : Cache} {idx : Nat} (hc : Inv c)
    (hfree : pageCount len ≤ c.nFreePages) (hlen : len < 2 ^ 63)
    (hinsert : insert c d idx src len tsc = .ok c') :
    ∃ s, copyLoop c (logged (copyIn src)) len ⟨0, c.freeListAddr, 0, (c.content, [])⟩ = .ok s ∧
      c'.content = s.mem.1 ∧ touched len s = List.iterate c.next c.freeListAddr (pageCount len) := by
  have hfull := fullPages_le len
  have hpage : ∀ j, j < fullPages len → isPage c (c.next^[j] c.freeListAddr) = true := fun j hj =>
    isPage_iff.mpr (hc.pool.free_mem_all (mem_iterate_of_lt (by omega)))
  have hturn : ∀ j, j < fullPages len → ∀ μ : (Nat → Nat → UInt8) × List Nat,
      μ.2 = List.iterate c.next c.freeListAddr j →
      (logged (copyIn src) (c.next^[j] c.freeListAddr) (4088 * j) (min (len - 4088 * j) 4088) μ).2 =
        List.iterate c.next c.freeListAddr (j + 1) := by
    intro j _ μ hμ
    rw [logged, hμ, List.iterate_add]
    rfl
  obtain ⟨s, hloop, haddr, hlog⟩ := copyLoop_inv (logged (copyIn src)) (c.content, [])
    (fun j μ => μ.2 = List.iterate c.next c.freeListAddr j) hlen hpage rfl hturn
  refine ⟨s, hloop, ?_, ?_⟩
  · -- without the log it is the loop of the insertion
    have hplain : copyLoop c (copyIn src) len ⟨0, c.freeListAddr, 0, c.content⟩ =
        .ok (s.map Prod.fst) := by
      have hmap : copyLoop c (copyIn src) len ⟨0, c.freeListAddr, 0, c.content⟩ =
          (copyLoop c (logged (copyIn src)) len ⟨0, c.freeListAddr, 0, (c.content, [])⟩).map
            (CopyState.map Prod.fst) :=
        copyLoop_map Prod.fst hlen (fun _ _ _ _ _ => rfl) _ (c.content, ([] : List Nat))
      rw [hloop] at hmap
      exact hmap
    rw [insert] at hinsert
    split at hinsert
    · cases hinsert
    obtain ⟨s', hrun, hok⟩ := bind_ok hinsert
    rw [hplain] at hrun
    cases hrun
    split at hok
    · cases hok
    · cases hok
      rfl
  · rw [touched, hlog, haddr]
    by_cases h0 : len = 0
    · subst h0
      rfl
    · have hcount : pageCount len = fullPages len := by
        refine Nat.max_eq_right ?_
        unfold fullPages
        omega
      rw [if_neg h0, hcount]

/-- **Oversized stores are refused** unless the length wraps around, and in all other stores the
    copying loop touches each page of the new object once. -/
theorem store_refused_iff (sorter : StdSort) (src : Nat → UInt8) (hreach : Reachable sorter c)
    (habsent : ∀ i, i < c.nCurObjects → c.objDigest i ≠ d) (hlen : len < 2 ^ 64) (htsc : tsc ≠ 0) :
    (c.nTotalPages < (len + 4087) / 4088 →
      (store sorter c d src len tsc = .ok (c, false) ↔ len + 4087 < 2 ^ 64)) ∧
    ((len + 4087) / 4088 ≤ c.nTotalPages → ∃ c1 c' s,
      ensureRoom sorter c d (find c d).2 (nNeedPages len) = .ok (c1, (find c1 d).2) ∧
      copyLoop c1 (logged (copyIn src)) len ⟨0, c1.freeListAddr, 0, (c1.content, [])⟩ = .ok s ∧
      store sorter c d src len tsc = .ok (c', true) ∧ c'.content = s.mem.1 ∧
      (touched len s).Nodup ∧ (touched len s).length = max 1 ((len + 4087) / 4088) ∧
      ∀ p ∈ touched len s, isPage c p = true) := by
  have hsound := hreach.sound
  have hobjects := forall_digest_ne habsent
  have hbound := hsound.bound
  constructor
  · intro hbig
    constructor
    · intro hrefused
      by_contra hwrap
      rw [store_wrapped sorter hsound hobjects hlen (Nat.le_of_not_lt hwrap)] at hrefused
      nomatch hrefused
    · intro hexact
      refine store_refused sorter src tsc hsound.toInv hobjects ?_
      rw [nNeedPages_exact hexact]
      exact Nat.lt_of_lt_of_le hbig (fullPages_le len)
  · intro hfits
    have hshort : len < 2 ^ 63 := by omega
    have hcount : pageCount len ≤ c.nTotalPages := Nat.max_le.mpr ⟨hsound.pos, hfits⟩
    obtain ⟨c1, done, rest, c', hrun, hroom, hstore, hinsert, -, -⟩ :=
      store_inserts sorter src hsound.toInv hobjects hcount hshort htsc
    obtain ⟨s, hloop, hcontent, htouched⟩ :=
      insert_touches src hroom.inv hroom.pages hshort hinsert
    refine ⟨c1, c', s, hrun, hloop, hstore, hcontent, ?_, ?_, ?_⟩
    · rw [htouched]
      exact hroom.inv.pool.nodup_free (nodup_contentPages c1) hroom.pages
    · rw [htouched, List.length_iterate]
      rfl
    · intro p hp
      rw [htouched] at hp
      obtain ⟨k, hk, rfl⟩ := List.mem_iterate.mp hp
      rw [isPage_iff, ← hroom.shrunk.pages]
      exact hroom.inv.pool.free_mem_all (mem_iterate_of_lt (Nat.lt_of_lt_of_le hk hroom.pages))

end Touched

/-- A length of 2^63 bytes needs more pages than any cache has. -/
theorem store_refused_long : ∃ c, init twoHugePages zeros 1 24576 = .ok (some c) ∧
    store mergeSorter c ⟨1, 0, 0, 0⟩ (fun _ => 7) (2 ^ 63) 1 = .ok (c, false) := by
  obtain ⟨c, hinit⟩ := init_zeros
  obtain ⟨hreach, hempty⟩ := reachable_zeros hinit
  have hbound := hreach.sound.bound
  have habsent : ∀ i, i < c.nCurObjects → c.objDigest i ≠ ⟨1, 0, 0, 0⟩ := by
    intro i hi
    omega
  have hstore := store_refused_iff mergeSorter (fun _ => 7) hreach habsent
    (by decide : 2 ^ 63 < 2 ^ 64) (by decide : 1 ≠ 0)
  exact ⟨c, hinit, (hstore.1 (by omega)).mpr (by decide)⟩

/-- **The longest length** needs 2 ^ 52 pages and more; in an empty cache the store runs off the free
    list. -/
theorem store_longest_overruns : ∃ c, init twoHugePages zeros 1 24576 = .ok (some c) ∧
    c.nTotalPages < (2 ^ 64 - 1 + 4087) / 4088 ∧
    store mergeSorter c ⟨1, 0, 0, 0⟩ (fun _ => 7) (2 ^ 64 - 1) 1 = .error .bufferOverflow := by
  obtain ⟨c, hinit⟩ := init_zeros
  obtain ⟨hreach, hempty⟩ := reachable_zeros hinit
  have hbound := hreach.sound.bound
  refine ⟨c, hinit, by omega, ?_⟩
  refine store_wrapped mergeSorter hreach.sound (forall_digest_ne fun i hi => ?_) (by decide)
    (by decide)
  omega

end JudgeDuck.DuckCache
