/-
  The content pages: chains, the bytes they hold, and the loops that walk them.

  An object of `len` bytes owns `pageCount len` pages; byte `t` lies on the page number
  `t / 4088` of its chain, at offset `t % 4088`.  `copyLoop_inv` is the rule for both copying
  loops, from which `loadLoop_spec` and `storeLoop_spec` follow.
-/
import JudgeDuck.DuckCache.Index
import JudgeDuck.Lib.Chains

namespace JudgeDuck.DuckCache

open JudgeDuck.Lib

/-! ## Counting pages -/

/-- The number of pages filled by `len` bytes, `⌈len / 4088⌉`. -/
def fullPages (len : Nat) : Nat := (len + 4087) / 4088

/-- The number of pages of an object: one at least. -/
def pageCount (len : Nat) : Nat := max 1 (fullPages len)

theorem nNeedPages_eq {len : Nat} (h : len < 2 ^ 63) : nNeedPages len = pageCount len := by
  have hsize : onePageContentSize = 4088 := rfl
  rw [nNeedPages, pageCount, fullPages, hsize, u64_of_lt (by omega), Nat.max_comm]
  rfl

theorem pageCount_pos (len : Nat) : 1 ≤ pageCount len := Nat.le_max_left _ _

theorem fullPages_le (len : Nat) : fullPages len ≤ pageCount len := Nat.le_max_right _ _

/-- The page that holds the byte `t`. -/
theorem div_lt_fullPages {t len : Nat} (h : t < len) : t / 4088 < fullPages len := by
  unfold fullPages
  omega

/-! ## The pages of a cache -/

/-- All content pages. -/
def Cache.contentPages (c : Cache) : List Nat :=
  listOf (fun k => c.firstPage + k * pageSize) c.nTotalPages

theorem nodup_contentPages (c : Cache) : c.contentPages.Nodup := by
  refine listOf_pairwise.mpr fun i j hij _ => ?_
  have hsize : pageSize = 4096 := rfl
  rw [hsize]
  omega

theorem isPage_iff {c : Cache} {addr : Nat} : isPage c addr = true ↔ addr ∈ c.contentPages := by
  have hsize : pageSize = 4096 := rfl
  rw [isPage, decide_eq_true_iff, Cache.contentPages, mem_listOf, hsize]
  constructor
  · rintro ⟨hle, hmod, hlt⟩
    exact ⟨(addr - c.firstPage) / 4096, hlt, by omega⟩
  · rintro ⟨k, hk, rfl⟩
    refine ⟨Nat.le_add_right _ _, ?_, ?_⟩
    · rw [Nat.add_sub_cancel_left, Nat.mul_mod_left]
    · rwa [Nat.add_sub_cancel_left, Nat.mul_div_cancel _ (by decide)]

/-- The chain of an object: where it starts and how long it is. -/
def Metadata.chain (m : Metadata) : Nat × Nat := (m.startAddr, pageCount m.len)

/-- The bytes of an object. -/
def bytesAt (next : Nat → Nat) (content : Nat → Nat → UInt8) (m : Metadata) : List UInt8 :=
  listOf (fun t => content (next^[t / 4088] m.startAddr) (t % 4088)) m.len

/-- The bytes of an object depend on its own pages only. -/
theorem bytesAt_congr {next next' : Nat → Nat} {content content' : Nat → Nat → UInt8} {m : Metadata}
    (hchain : chainPages next' m.chain = chainPages next m.chain)
    (hcontent : ∀ p ∈ chainPages next m.chain, content' p = content p) :
    bytesAt next' content' m = bytesAt next content m := by
  refine listOf_congr fun t ht => ?_
  have hk : t / 4088 < pageCount m.len :=
    Nat.lt_of_lt_of_le (div_lt_fullPages ht) (fullPages_le m.len)
  have hpage : next'^[t / 4088] m.startAddr = next^[t / 4088] m.startAddr := by
    have h := congrArg (fun l : List Nat => l[t / 4088]?) hchain
    simp only [chainPages, Metadata.chain] at h
    rw [List.getElem?_iterate _ _ _ _ hk, List.getElem?_iterate _ _ _ _ hk] at h
    exact Option.some.inj h
  have hsame := hcontent (next^[t / 4088] m.startAddr) (mem_iterate_of_lt hk)
  rw [hpage, hsame]

/-! ## Copying -/

/-- **The rule of the copying loops.**  Turn `j` moves the bytes from `4088 j` on to or from the
    page number `j` of the chain. -/
theorem copyLoop_inv {σ : Type} {c : Cache} {len start : Nat}
    (copy : Nat → Nat → Nat → σ → σ) (mem : σ) (P : Nat → σ → Prop) (hlen : len < 2 ^ 63)
    (hpages : ∀ j, j < fullPages len → isPage c (c.next^[j] start) = true) (h0 : P 0 mem)
    (hstep : ∀ j, j < fullPages len → ∀ μ, P j μ →
      P (j + 1) (copy (c.next^[j] start) (4088 * j) (min (len - 4088 * j) 4088) μ)) :
    ∃ s, copyLoop c copy len ⟨0, start, 0, mem⟩ = .ok s ∧
      s.addr = c.next^[fullPages len] start ∧ P (fullPages len) s.mem := by
  have hsize : onePageContentSize = 4088 := rfl
  have hfuel : fullPages len < len + 1 := by rw [fullPages]; omega
  have hloop : ∃ s, copyLoop c copy len ⟨0, start, 0, mem⟩ = .ok s ∧
      s.curLen = 4088 * fullPages len ∧ s.off = 4088 * fullPages len ∧
      s.addr = c.next^[fullPages len] start ∧ P (fullPages len) s.mem := by
    rw [copyLoop, hsize]
    refine whileM_inv (fun j (s : CopyState σ) => s.curLen = 4088 * j ∧ s.off = 4088 * j ∧
      s.addr = c.next^[j] start ∧ P j s.mem) ⟨rfl, rfl, rfl, h0⟩ hfuel ?_ ?_
    · rintro j hj ⟨curLen, addr, off, μ⟩ ⟨rfl, rfl, rfl, hμ⟩
      have hmore : 4088 * j < len := by rw [fullPages] at hj; omega
      refine ⟨decide_eq_true hmore, _, if_pos (hpages j hj), ?_, ?_, ?_, hstep j hj μ hμ⟩
      · show u64 (4088 * j + 4088) = 4088 * (j + 1)
        rw [u64_of_lt (by omega)]
        rfl
      · rfl
      · exact (Function.iterate_succ_apply' c.next j start).symm
    · rintro ⟨curLen, addr, off, μ⟩ ⟨rfl, -⟩
      apply decide_eq_false
      show ¬ 4088 * fullPages len < len
      unfold fullPages
      omega
  obtain ⟨s, hrun, -, -, haddr, hs⟩ := hloop
  exact ⟨s, hrun, haddr, hs⟩

/-- The state of a copying loop, with other bytes. -/
def CopyState.map {σ τ : Type} (φ : σ → τ) (s : CopyState σ) : CopyState τ :=
  ⟨s.curLen, s.addr, s.off, φ s.mem⟩

/-- The copying loops do not look at what they copy: a change of the bytes that every `copy` below
    `len` respects goes through the loop. -/
theorem copyLoop_map {σ τ : Type} {c : Cache} {len : Nat} {copy : Nat → Nat → Nat → σ → σ}
    {copy' : Nat → Nat → Nat → τ → τ} (φ : σ → τ) (hlen : len < 2 ^ 63)
    (hcopy : ∀ addr off n x, off + n ≤ len → copy' addr off n (φ x) = φ (copy addr off n x))
    (start : Nat) (x : σ) :
    copyLoop c copy' len ⟨0, start, 0, φ x⟩ =
      (copyLoop c copy len ⟨0, start, 0, x⟩).map (CopyState.map φ) := by
  have hsize : onePageContentSize = 4088 := rfl
  refine whileM_map (CopyState.map φ) (fun s : CopyState σ => s.off = s.curLen)
    (fun s _ => rfl) ?_ ?_ (len + 1) (s := ⟨0, start, 0, x⟩) rfl
  · rintro ⟨curLen, addr, off, y⟩ hoff hcond
    obtain rfl : off = curLen := hoff
    have hlt : off < len := of_decide_eq_true hcond
    by_cases hpage : isPage c addr = true
    · simp only [CopyState.map, hpage, if_true, Except.map]
      rw [hcopy addr off _ y (by omega)]
    · simp only [CopyState.map, hpage]
      rfl
  · rintro ⟨curLen, addr, off, y⟩ s' hoff hcond hbody
    obtain rfl : off = curLen := hoff
    have hlt : off < len := of_decide_eq_true hcond
    by_cases hpage : isPage c addr = true
    · simp only [hpage, if_true] at hbody
      rw [← Except.ok.inj hbody]
      show off + onePageContentSize = u64 (off + onePageContentSize)
      rw [hsize, u64_of_lt (by omega)]
    · simp only [hpage] at hbody
      cases hbody

/-! ## Calls that are carried out -/

/-- There is an object with this digest and this length. -/
def Hit (c : Cache) (d : Digest256) (len : Nat) : Prop :=
  (find c d).1 = true ∧ (c.objMetadata (find c d).2).len = len

/-- There is an object with this digest already, or the pages suffice for one. -/
def Storable (c : Cache) (d : Digest256) (len : Nat) : Prop :=
  (find c d).1 = true ∨ nNeedPages len ≤ c.nTotalPages

section

variable {sorter : StdSort} {c c' : Cache} {d : Digest256} {dst dst' src : Nat → UInt8}
  {len tsc : Nat} {ret : Bool}

theorem load_of_not_hit (h : ¬ Hit c d len) : load c d dst len tsc = .ok (c, false, dst) := by
  rw [load]
  by_cases hfound : (find c d).1 = false
  · exact if_pos hfound
  · have hlen : (c.objMetadata (find c d).2).len ≠ len := fun hlen =>
      h ⟨Bool.not_eq_false _ |>.mp hfound, hlen⟩
    exact (if_neg hfound).trans (if_pos hlen)

theorem ret_of_hit (h : Hit c d len) (hload : load c d dst len tsc = .ok (c', ret, dst')) :
    ret = true := by
  have hfound : ¬ (find c d).1 = false := by
    rw [h.1]
    decide
  rw [load] at hload
  replace hload := (if_neg hfound).symm.trans hload
  replace hload := (if_neg (not_not.mpr h.2)).symm.trans hload
  obtain ⟨s, -, hok⟩ := bind_ok hload
  cases hok
  rfl

theorem store_of_not_storable (h : ¬ Storable c d len) :
    store sorter c d src len tsc = .ok (c, false) := by
  rw [store]
  have hfound : ¬ (find c d).1 = true := fun hfound => h (.inl hfound)
  have hbig : nNeedPages len > c.nTotalPages := Nat.lt_of_not_le fun hle => h (.inr hle)
  exact (if_neg hfound).trans (if_pos hbig)

theorem ret_of_storable (h : Storable c d len)
    (hstore : store sorter c d src len tsc = .ok (c', ret)) : ret = true := by
  rw [store] at hstore
  by_cases hfound : (find c d).1 = true
  · replace hstore := (if_pos hfound).symm.trans hstore
    cases hstore
    rfl
  · have hfits : ¬ nNeedPages len > c.nTotalPages := Nat.not_lt.mpr (h.resolve_left hfound)
    replace hstore := (if_neg hfound).symm.trans hstore
    replace hstore := (if_neg hfits).symm.trans hstore
    obtain ⟨⟨c1, idx⟩, -, hstore⟩ := bind_ok hstore
    obtain ⟨c2, -, hok⟩ := bind_ok hstore
    cases hok
    rfl

end

/-! ## Bytes outside the cache -/

/-- `load` with other bytes at the destination, as long as the bytes below the length are copied in
    the same way. -/
theorem load_map {c : Cache} {d : Digest256} {dst : Nat → UInt8} {len tsc : Nat}
    (φ : (Nat → UInt8) → Nat → UInt8) (hlen : len < 2 ^ 63)
    (hcopy : ∀ f src off n, off + n ≤ len → memcpy (φ f) off src n = φ (memcpy f off src n)) :
    load c d (φ dst) len tsc = (load c d dst len tsc).map fun r => (r.1, r.2.1, φ r.2.2) := by
  rw [load, load]
  rcases hfind : find c d with ⟨found, idx⟩
  simp only
  split
  · rfl
  split
  · rfl
  have hloop : copyLoop c (copyOut c) len ⟨0, (c.objMetadata idx).startAddr, 0, φ dst⟩ =
      (copyLoop c (copyOut c) len ⟨0, (c.objMetadata idx).startAddr, 0, dst⟩).map (CopyState.map φ) :=
    copyLoop_map φ hlen (fun addr off n f h => hcopy f (c.content addr) off n h) _ _
  rw [hloop]
  cases copyLoop c (copyOut c) len ⟨0, (c.objMetadata idx).startAddr, 0, dst⟩ <;> rfl

/-- `store` reads the bytes below the length only. -/
theorem store_congr {sorter : StdSort} {c : Cache} {d : Digest256} {src src' : Nat → UInt8}
    {len tsc : Nat} (hlen : len < 2 ^ 63) (hsrc : ∀ i, i < len → src' i = src i) :
    store sorter c d src' len tsc = store sorter c d src len tsc := by
  have hinsert : ∀ c idx, insert c d idx src' len tsc = insert c d idx src len tsc := by
    intro c idx
    have hcopy : ∀ addr off n content, off + n ≤ len →
        copyIn src' addr off n content = copyIn src addr off n content := by
      intro addr off n content h
      rw [copyIn, copyIn]
      congr 1
      funext i
      rw [memcpy_zero, memcpy_zero]
      split
      · exact hsrc _ (by omega)
      · rfl
    have hloop : copyLoop c (copyIn src') len ⟨0, c.freeListAddr, 0, c.content⟩ =
        (copyLoop c (copyIn src) len ⟨0, c.freeListAddr, 0, c.content⟩).map (CopyState.map id) :=
      copyLoop_map id hlen hcopy _ _
    rw [insert, insert]
    split
    · rfl
    · simp only
      rw [hloop]
      cases copyLoop c (copyIn src) len ⟨0, c.freeListAddr, 0, c.content⟩ <;> rfl
  rw [store, store]
  simp only [hinsert]

/-! ## What the loops do -/

/-- **Loading** writes the bytes of the chain to the destination, and nothing else. -/
theorem loadLoop_spec {c : Cache} {len start : Nat} (dst : Nat → UInt8) (hlen : len < 2 ^ 63)
    (hpages : ∀ j, j < fullPages len → isPage c (c.next^[j] start) = true) :
    ∃ s, copyLoop c (copyOut c) len ⟨0, start, 0, dst⟩ = .ok s ∧
      ∀ t, s.mem t = if t < len then c.content (c.next^[t / 4088] start) (t % 4088) else dst t := by
  have hinv := copyLoop_inv (copyOut c) dst
    (fun j μ => ∀ t, μ t = if t < 4088 * j ∧ t < len then
      c.content (c.next^[t / 4088] start) (t % 4088) else dst t) hlen hpages
    (fun t => (if_neg (by omega)).symm) ?_
  · obtain ⟨s, hrun, -, hmem⟩ := hinv
    refine ⟨s, hrun, fun t => ?_⟩
    have hiff : t < 4088 * fullPages len ∧ t < len ↔ t < len := by
      unfold fullPages
      omega
    rw [hmem t]
    simp only [hiff]
  · intro j hj μ hμ t
    rw [copyOut, memcpy]
    by_cases ht : 4088 * j ≤ t ∧ t < 4088 * j + min (len - 4088 * j) 4088
    · rw [if_pos ht, if_pos (by omega), show t / 4088 = j by omega,
        show t - 4088 * j = t % 4088 by omega]
    · rw [if_neg ht, hμ t]
      by_cases hold : t < 4088 * j ∧ t < len
      · rw [if_pos hold, if_pos (by omega)]
      · rw [if_neg hold, if_neg (by omega)]

/-- **Storing** puts the bytes of the source on the chain, and touches no other page. -/
theorem storeLoop_spec {c : Cache} {len start : Nat} (src : Nat → UInt8) (hlen : len < 2 ^ 63)
    (hpages : ∀ j, j < fullPages len → isPage c (c.next^[j] start) = true)
    (hnodup : (List.iterate c.next start (fullPages len)).Nodup) :
    ∃ s, copyLoop c (copyIn src) len ⟨0, start, 0, c.content⟩ = .ok s ∧
      s.addr = c.next^[fullPages len] start ∧
      (∀ t, t < len → s.mem (c.next^[t / 4088] start) (t % 4088) = src t) ∧
      ∀ p, p ∉ List.iterate c.next start (fullPages len) → s.mem p = c.content p := by
  -- the bytes before `4088 j` are in place, and pages off the chain are as before
  have hinv := copyLoop_inv (copyIn src) c.content
    (fun j μ => (∀ t, t < 4088 * j → t < len → μ (c.next^[t / 4088] start) (t % 4088) = src t) ∧
      ∀ p, p ∉ List.iterate c.next start (fullPages len) → μ p = c.content p) hlen hpages
    ⟨fun t ht => by omega, fun _ _ => rfl⟩ ?_
  · obtain ⟨s, hrun, haddr, hbytes, hframe⟩ := hinv
    refine ⟨s, hrun, haddr, fun t ht => hbytes t ?_ ht, hframe⟩
    unfold fullPages
    omega
  · rintro j hj μ ⟨hμ, hframe⟩
    constructor
    · intro t ht1 ht2
      unfold copyIn
      by_cases hnew : t / 4088 = j
      · rw [hnew, Function.update_self, memcpy, if_pos (by omega)]
        exact congrArg src (by omega)
      · -- an earlier page is another page
        have hne : c.next^[t / 4088] start ≠ c.next^[j] start := by
          intro heq
          have hlt : j < (List.iterate c.next start (fullPages len)).length := by
            rwa [List.length_iterate]
          apply List.nodup_iff_getElem?_ne_getElem?.mp hnodup (t / 4088) j (by omega) hlt
          rw [List.getElem?_iterate _ _ _ _ (by omega), List.getElem?_iterate _ _ _ _ hj, heq]
        rw [Function.update_of_ne hne]
        exact hμ t (by omega) ht2
    · intro p hp
      rw [copyIn, Function.update_of_ne, hframe p hp]
      rintro rfl
      exact hp (mem_iterate_of_lt hj)

end JudgeDuck.DuckCache
