/-
  The eviction loop of `store`.

  The loop takes objects off the front of the sorted list of ids and gives their pages back to the
  free list.  `Evicted` describes its state when the objects `removed` are gone and `rest` is still
  in the cache: their chains and the free list partition the pages, and the chains in `rest` are
  what they were.  `evict_spec` says how far the loop goes: until enough pages and index entries are
  free, and not one object further.
-/
import JudgeDuck.DuckCache.Pages

namespace JudgeDuck.DuckCache

open JudgeDuck.Lib

/-- The chain of the object in row `id`. -/
def Cache.chain (c : Cache) (id : Nat) : Nat × Nat := (c.objMetadata id).chain

/-- The number of pages of the objects `ids`. -/
def Cache.pagesOf (c : Cache) (ids : List Nat) : Nat := (ids.map fun id => (c.chain id).2).sum

/-- Without the objects `removed` there are `nNeed` free pages and a free row in the index. -/
def Enough (c : Cache) (nNeed : Nat) (removed : List Nat) : Prop :=
  nNeed ≤ c.nFreePages + c.pagesOf removed ∧ c.nCurObjects + 1 ≤ c.nMaxObjects + removed.length

/-- The rows `done` are to be removed for `nNeed` pages and a row in the index: they are not used for
    longer than `rest`, and they are as few as possible. -/
structure Victims (c : Cache) (nNeed : Nat) (done rest : List Nat) : Prop where
  rows : (done ++ rest).Perm (List.range c.nCurObjects)
  order : (done ++ rest).Pairwise fun i j =>
    (c.objMetadata i).lastUsedTsc ≤ (c.objMetadata j).lastUsedTsc
  enough : Enough c nNeed done
  fewest : ∀ p, p <+: done → p ≠ done → ¬ Enough c nNeed p

theorem pagesOf_append (c : Cache) (l l' : List Nat) :
    c.pagesOf (l ++ l') = c.pagesOf l + c.pagesOf l' := by
  rw [Cache.pagesOf, List.map_append, List.sum_append]
  rfl

/-- Walking to the last page of a chain. -/
theorem lastPage_spec {c : Cache} {next : Nat → Nat} {n a : Nat}
    (hpages : ∀ k, k < n → isPage c (next^[k] a) = true) :
    lastPage c next (n + 1) a = .ok (next^[n] a) := by
  obtain ⟨t, hrun, rfl⟩ : ∃ t, lastPage c next (n + 1) a = .ok t ∧ t = next^[n] a := by
    refine forUpM_inv (fun i t => t = next^[i] a) rfl fun i hi t ht => ?_
    rw [ht, if_pos (hpages i hi)]
    exact ⟨_, rfl, (Function.iterate_succ_apply' next i a).symm⟩
  exact hrun

/-- The loop state when the objects `removed` are gone and `rest` is left. -/
structure Evicted (c : Cache) (removed rest : List Nat) (s : EvictState) : Prop where
  pages : s.nRemovedPages = c.pagesOf removed
  objects : s.nRemovedObjects = removed.length
  metadata : s.objMetadata = fun i =>
    if i ∈ removed then (c.objMetadata i).invalidate else c.objMetadata i
  pool : Pool s.next (rest.map c.chain) s.freeListAddr (c.nFreePages + s.nRemovedPages) 0
    c.contentPages
  frame : ∀ id ∈ rest, chainPages s.next (c.chain id) = chainPages c.next (c.chain id)

/-- The state after one more object has been removed. -/
def EvictState.remove (s : EvictState) (c : Cache) (id : Nat) : EvictState where
  nRemovedPages := s.nRemovedPages + pageCount (c.objMetadata id).len
  nRemovedObjects := s.nRemovedObjects + 1
  objMetadata := Function.update s.objMetadata id (c.objMetadata id).invalidate
  next := Function.update s.next (s.next^[pageCount (c.objMetadata id).len - 1]
    (c.objMetadata id).startAddr) s.freeListAddr
  freeListAddr := (c.objMetadata id).startAddr

section Evict

variable {c : Cache} {removed rest : List Nat} {id : Nat} {s : EvictState}

theorem Evicted.remove (h : Evicted c removed (id :: rest) s) (hid : id ∉ removed) :
    Evicted c (removed ++ [id]) rest (s.remove c id) := by
  obtain ⟨n, hn⟩ : ∃ n, pageCount (c.objMetadata id).len = n + 1 :=
    Nat.exists_eq_succ_of_ne_zero (Nat.ne_of_gt (pageCount_pos _))
  have hchain : c.chain id = ((c.objMetadata id).startAddr, n + 1) := by
    rw [Cache.chain, Metadata.chain, hn]
  have hpool := h.pool
  rw [List.map_cons, hchain] at hpool
  constructor
  · rw [pagesOf_append, ← h.pages]
    rfl
  · rw [List.length_append, ← h.objects]
    rfl
  · funext i
    show Function.update s.objMetadata id (c.objMetadata id).invalidate i = _
    rw [h.metadata]
    by_cases hi : i = id
    · subst hi
      simp
    · rw [Function.update_of_ne hi]
      simp [hi]
  · unfold EvictState.remove
    simp only [hn, Nat.add_sub_cancel, ← Nat.add_assoc]
    exact hpool.release (nodup_contentPages c)
  · intro id' hid'
    rw [← h.frame id' (List.mem_cons_of_mem _ hid'), EvictState.remove]
    simp only [hn, Nat.add_sub_cancel]
    exact hpool.release_frame (nodup_contentPages c) (List.mem_map_of_mem hid')

/-- **One turn of the loop** removes the object. -/
theorem evict_cons (nNeed : Nat) (h : Evicted c removed (id :: rest) s) (hid : id ∉ removed)
    (hlen : (c.objMetadata id).len < 2 ^ 63) :
    (Enough c nNeed (removed ++ [id]) →
      evict c nNeed (id :: rest) s = .ok (s.remove c id)) ∧
    (¬ Enough c nNeed (removed ++ [id]) →
      evict c nNeed (id :: rest) s = evict c nNeed rest (s.remove c id)) := by
  have hmeta : s.objMetadata id = c.objMetadata id := by rw [h.metadata]; exact if_neg hid
  obtain ⟨n, hn⟩ : ∃ n, pageCount (c.objMetadata id).len = n + 1 :=
    Nat.exists_eq_succ_of_ne_zero (Nat.ne_of_gt (pageCount_pos _))
  have hpage : ∀ k, k < n + 1 → isPage c (s.next^[k] (c.objMetadata id).startAddr) = true := by
    intro k hk
    refine isPage_iff.mpr (h.pool.mem_all (List.mem_map_of_mem List.mem_cons_self) ?_)
    rw [Cache.chain, Metadata.chain, hn]
    exact mem_iterate_of_lt hk
  have hlast := lastPage_spec fun k hk => hpage k (Nat.lt_succ_of_lt hk)
  have hnew := h.remove hid
  have hiff : (nNeed > c.nFreePages + (s.remove c id).nRemovedPages ∨
      c.nCurObjects + 1 > c.nMaxObjects + (s.remove c id).nRemovedObjects) ↔
      ¬ Enough c nNeed (removed ++ [id]) := by
    rw [hnew.pages, hnew.objects, Enough]
    omega
  have hstep : evict c nNeed (id :: rest) s =
      if nNeed > c.nFreePages + (s.remove c id).nRemovedPages ∨
        c.nCurObjects + 1 > c.nMaxObjects + (s.remove c id).nRemovedObjects then
        evict c nNeed rest (s.remove c id) else .ok (s.remove c id) := by
    rw [evict]
    simp only [hmeta, nNeedPages_eq hlen, EvictState.remove, hn, Nat.add_sub_cancel]
    rw [bind_of_ok hlast, if_pos (hpage n (Nat.lt_succ_self n))]
  rw [hstep]
  constructor
  · intro henough
    rw [if_neg (fun hmore => hiff.mp hmore henough)]
  · intro hmore
    rw [if_pos (hiff.mpr hmore)]

/-- **The loop** removes the objects `done`, and stops as soon as that is enough. -/
theorem evict_spec (nNeed : Nat) (h : Evicted c removed rest s) (hnodup : (removed ++ rest).Nodup)
    (hlen : ∀ id ∈ rest, (c.objMetadata id).len < 2 ^ 63) :
    ∃ done rest' s', rest = done ++ rest' ∧ evict c nNeed rest s = .ok s' ∧
      Evicted c (removed ++ done) rest' s' ∧ (rest' = [] ∨ Enough c nNeed (removed ++ done)) ∧
      ∀ p, p <+: done → p ≠ [] → p ≠ done → ¬ Enough c nNeed (removed ++ p) := by
  induction rest generalizing removed s with
  | nil =>
    refine ⟨[], [], s, rfl, rfl, by rwa [List.append_nil], Or.inl rfl, fun p hp hne => ?_⟩
    exact absurd (List.prefix_nil.mp hp) hne
  | cons id rest ih =>
    obtain ⟨-, hdisj⟩ := List.nodup_append.mp hnodup |>.2
    have hid : id ∉ removed := fun hmem => hdisj id hmem id List.mem_cons_self rfl
    obtain ⟨hstop, hgo⟩ := evict_cons nNeed h hid (hlen id List.mem_cons_self)
    by_cases henough : Enough c nNeed (removed ++ [id])
    · refine ⟨[id], rest, _, rfl, hstop henough, h.remove hid, Or.inr henough, ?_⟩
      intro p hp hne hne'
      rcases List.prefix_cons_iff.mp hp with rfl | ⟨t, rfl, ht⟩
      · exact absurd rfl hne
      · exact absurd (by rw [List.prefix_nil.mp ht]) hne'
    · have hnodup' : (removed ++ [id] ++ rest).Nodup := by
        rwa [List.append_assoc]
      obtain ⟨done, rest', s', hsplit, hrun, hev, hend, hmin⟩ :=
        ih (h.remove hid) hnodup' fun id' hid' => hlen id' (List.mem_cons_of_mem _ hid')
      refine ⟨id :: done, rest', s', by rw [hsplit]; rfl, by rw [hgo henough, hrun], ?_, ?_, ?_⟩
      · rwa [List.append_cons]
      · rwa [List.append_cons]
      · intro p hp hne hne'
        rcases List.prefix_cons_iff.mp hp with rfl | ⟨p', rfl, hp'⟩
        · exact absurd rfl hne
        · rw [List.append_cons]
          by_cases hnil : p' = []
          · rwa [hnil, List.append_nil]
          · exact hmin p' hp' hnil fun heq => hne' (by rw [heq])

end Evict

end JudgeDuck.DuckCache
