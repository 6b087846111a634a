/-
  The index of the cache: three parallel tables, seen as one list of objects sorted by digest.

  `cmp_digest` is a linear order (`cmpDigest_eq_zero`, `cmpDigest_swap`, `cmpDigest_trans`).  In a
  sorted index `find` returns the lower bound of the digest (`find_spec`): the search by hash
  brackets the entries with the same first word, and the scan compares the rest.  The two loops that
  rewrite the tables are a filter (`defrag_spec`) and an insertion (`listOf_insert`) on the list.
-/
import JudgeDuck.DuckCache.Model
import JudgeDuck.Lib.Lists

namespace JudgeDuck.DuckCache

open JudgeDuck.Lib

/-! ## The order of digests -/

theorem cmpWords_self (xs : List Nat) : cmpWords xs xs = 0 := by
  induction xs with
  | nil => rfl
  | cons x xs ih =>
    rw [cmpWords, if_neg (Nat.lt_irrefl x), if_neg (Nat.lt_irrefl x)]
    exact ih

theorem cmpWords_eq_zero : ∀ {xs ys : List Nat}, xs.length = ys.length →
    (cmpWords xs ys = 0 ↔ xs = ys) := by
  intro xs
  induction xs with
  | nil =>
    intro ys hlen
    cases ys with
    | nil => exact ⟨fun _ => rfl, fun _ => rfl⟩
    | cons y ys => nomatch hlen
  | cons x xs ih =>
    intro ys hlen
    cases ys with
    | nil => nomatch hlen
    | cons y ys =>
      constructor
      · intro h
        unfold cmpWords at h
        split at h
        · omega
        · split at h
          · omega
          · rw [(ih (Nat.succ.inj hlen)).mp h, show x = y by omega]
      · intro h
        rw [h]
        exact cmpWords_self _

theorem cmpWords_swap : ∀ {xs ys : List Nat}, cmpWords ys xs = -cmpWords xs ys := by
  intro xs
  induction xs with
  | nil =>
    intro ys
    cases ys <;> rfl
  | cons x xs ih =>
    intro ys
    cases ys with
    | nil => rfl
    | cons y ys =>
      rw [cmpWords, cmpWords, ih]
      split_ifs <;> omega

theorem cmpWords_trans : ∀ {xs ys zs : List Nat}, xs.length = ys.length → ys.length = zs.length →
    cmpWords xs ys < 0 → cmpWords ys zs < 0 → cmpWords xs zs < 0 := by
  intro xs
  induction xs with
  | nil =>
    intro ys zs _ _ h
    cases ys <;> exact absurd h (Int.lt_irrefl 0)
  | cons x xs ih =>
    intro ys zs h1 h2 hxy hyz
    cases ys with
    | nil => nomatch h1
    | cons y ys =>
      cases zs with
      | nil => nomatch h2
      | cons z zs =>
        have hrec := ih (Nat.succ.inj h1) (Nat.succ.inj h2)
        unfold cmpWords at hxy hyz ⊢
        split_ifs at hxy hyz ⊢ <;> omega

section Order

variable {a b d : Digest256}

theorem length_a (a b : Digest256) : a.a.length = b.a.length := rfl

theorem cmpDigest_eq_zero : cmpDigest a b = 0 ↔ a = b := by
  rw [cmpDigest, cmpWords_eq_zero (length_a a b)]
  cases a
  cases b
  simp only [Digest256.a, List.cons.injEq, and_true, Digest256.mk.injEq]

theorem cmpDigest_swap : cmpDigest b a = -cmpDigest a b := cmpWords_swap

theorem cmpDigest_trans (hab : cmpDigest a b < 0) (hbd : cmpDigest b d < 0) : cmpDigest a d < 0 :=
  cmpWords_trans (length_a a b) (length_a b d) hab hbd

/-- A smaller first word decides. -/
theorem cmpDigest_of_lt (h : a.a0 < b.a0) : cmpDigest a b < 0 := by
  rw [cmpDigest, Digest256.a, Digest256.a, cmpWords, if_pos h]
  decide

theorem a0_le_of_cmpDigest (h : cmpDigest a b < 0) : a.a0 ≤ b.a0 := by
  by_contra hlt
  have := cmpDigest_of_lt (Nat.lt_of_not_le hlt)
  rw [cmpDigest_swap] at this
  omega

/-- `a` is below everything that is above something not below `b`. -/
theorem cmpDigest_nonneg_of_lt (h : 0 ≤ cmpDigest a b) (had : cmpDigest a d < 0) :
    0 ≤ cmpDigest d b := by
  by_contra hlt
  have := cmpDigest_trans had (Int.lt_of_not_ge hlt)
  omega

end Order

/-! ## The objects -/

/-- One row of the index. -/
structure Object where
  hash : Nat
  digest : Digest256
  metadata : Metadata

/-- Row `i` of the index. -/
def Cache.object (c : Cache) (i : Nat) : Object := ⟨c.objHash i, c.objDigest i, c.objMetadata i⟩

/-- The rows in use. -/
def Cache.objects (c : Cache) : List Object := listOf c.object c.nCurObjects

/-- The index is sorted by digest, and the hashes are the first words. -/
structure Sorted (objects : List Object) : Prop where
  hash : ∀ o ∈ objects, o.hash = o.digest.a0
  increasing : objects.Pairwise fun o p => cmpDigest o.digest p.digest < 0

theorem Sorted.sublist {l l' : List Object} (h : Sorted l) (hs : l'.Sublist l) : Sorted l' :=
  ⟨fun o ho => h.hash o (hs.subset ho), h.increasing.sublist hs⟩

/-- An object between smaller and greater ones keeps the index sorted. -/
theorem Sorted.insert {l1 l2 : List Object} {o : Object} (h : Sorted (l1 ++ l2))
    (hhash : o.hash = o.digest.a0) (h1 : ∀ p ∈ l1, cmpDigest p.digest o.digest < 0)
    (h2 : ∀ p ∈ l2, cmpDigest o.digest p.digest < 0) : Sorted (l1 ++ o :: l2) := by
  refine ⟨fun p hp => ?_, pairwise_insert h.increasing h1 h2⟩
  rcases List.mem_append.mp hp with hp | hp
  · exact h.hash p (List.mem_append_left _ hp)
  · rcases List.mem_cons.mp hp with rfl | hp
    · exact hhash
    · exact h.hash p (List.mem_append_right _ hp)

/-! ## `find` -/

/-- `idx` separates the digests below `d` from the others. -/
structure IsLowerBound (c : Cache) (d : Digest256) (idx : Nat) : Prop where
  le : idx ≤ c.nCurObjects
  below : ∀ i, i < idx → cmpDigest (c.objDigest i) d < 0
  above : ∀ i, idx ≤ i → i < c.nCurObjects → 0 ≤ cmpDigest (c.objDigest i) d

/-- The scan stops at the first digest that is not below `d`. -/
theorem scan_spec (c : Cache) (d : Digest256) : ∀ k idx,
    idx ≤ (scan c d k idx).2 ∧ (scan c d k idx).2 ≤ idx + k ∧
      (∀ i, idx ≤ i → i < (scan c d k idx).2 → cmpDigest (c.objDigest i) d < 0) ∧
      ((scan c d k idx).2 < idx + k → 0 ≤ cmpDigest (c.objDigest (scan c d k idx).2) d) ∧
      ((scan c d k idx).1 = true ↔ (scan c d k idx).2 < idx + k ∧
        c.objDigest (scan c d k idx).2 = d) := by
  intro k
  induction k with
  | zero =>
    intro idx
    refine ⟨Nat.le_refl _, Nat.le_refl _, fun i h1 h2 => absurd h1 (Nat.not_le.mpr h2),
      fun h => absurd h (Nat.lt_irrefl _), fun h => ?_, fun h => absurd h.1 (Nat.lt_irrefl _)⟩
    exact absurd h Bool.false_ne_true
  | succ k ih =>
    intro idx
    unfold scan
    by_cases hr : 0 ≤ cmpDigest (c.objDigest idx) d
    · simp only [hr, if_true]
      refine ⟨Nat.le_refl _, by omega, fun i h1 h2 => absurd h1 (Nat.not_le.mpr h2),
        fun _ => trivial, ?_⟩
      rw [decide_eq_true_iff, cmpDigest_eq_zero]
      exact ⟨fun h => ⟨by omega, h⟩, fun h => h.2⟩
    · simp only [hr, if_false]
      obtain ⟨h1, h2, h3, h4, h5⟩ := ih (idx + 1)
      refine ⟨by omega, by omega, fun i hi hlt => ?_, fun h => h4 (by omega), ?_⟩
      · rcases Nat.eq_or_lt_of_le hi with rfl | hi'
        · exact Int.lt_of_not_ge hr
        · exact h3 i hi' hlt
      · rw [h5, show idx + 1 + k = idx + (k + 1) by omega]

section Find

variable {c : Cache} (hs : Sorted c.objects)

include hs

theorem Sorted.hash_eq {i : Nat} (hi : i < c.nCurObjects) : c.objHash i = (c.objDigest i).a0 :=
  hs.hash _ (mem_listOf.mpr ⟨i, hi, rfl⟩)

theorem Sorted.cmp_lt {i j : Nat} (hij : i < j) (hj : j < c.nCurObjects) :
    cmpDigest (c.objDigest i) (c.objDigest j) < 0 :=
  listOf_pairwise.mp hs.increasing i j hij hj

theorem Sorted.hash_mono {i j : Nat} (hij : i ≤ j) (hj : j < c.nCurObjects) :
    c.objHash i ≤ c.objHash j := by
  rcases Nat.eq_or_lt_of_le hij with rfl | hlt
  · exact Nat.le_refl _
  · rw [hs.hash_eq (by omega), hs.hash_eq hj]
    exact a0_le_of_cmpDigest (hs.cmp_lt hlt hj)

/-- A digest whose hash is greater is greater. -/
theorem Sorted.cmp_pos_of_hash {d : Digest256} {i j : Nat} (hlt : d.a0 < c.objHash i)
    (hij : i ≤ j) (hj : j < c.nCurObjects) : 0 < cmpDigest (c.objDigest j) d := by
  have hle := hs.hash_mono hij hj
  rw [hs.hash_eq hj] at hle
  have := cmpDigest_of_lt (Nat.lt_of_lt_of_le hlt hle)
  rw [cmpDigest_swap]
  omega

/-- The scan of a bracket `[idx1, idx2)` that holds all digests with the hash of `d`. -/
theorem scan_bracket {d : Digest256} {idx1 idx2 : Nat} (h12 : idx1 ≤ idx2)
    (h2n : idx2 ≤ c.nCurObjects) (hbefore : ∀ i, i < idx1 → c.objHash i < d.a0)
    (hbehind : ∀ i, idx2 ≤ i → i < c.nCurObjects → 0 < cmpDigest (c.objDigest i) d) :
    IsLowerBound c d (scan c d (idx2 - idx1) idx1).2 ∧
      ((scan c d (idx2 - idx1) idx1).1 = true ↔
        (scan c d (idx2 - idx1) idx1).2 < c.nCurObjects ∧
          c.objDigest (scan c d (idx2 - idx1) idx1).2 = d) := by
  obtain ⟨h1, h2, h3, h4, h5⟩ := scan_spec c d (idx2 - idx1) idx1
  rw [Nat.add_sub_cancel' h12] at h2 h4 h5
  generalize scan c d (idx2 - idx1) idx1 = r at h1 h2 h3 h4 h5 ⊢
  refine ⟨⟨by omega, fun i hi => ?_, fun i hi hlt => ?_⟩, ?_⟩
  · rcases Nat.lt_or_ge i idx1 with hlt | hge
    · have hsmall := hbefore i hlt
      rw [hs.hash_eq (by omega)] at hsmall
      exact cmpDigest_of_lt hsmall
    · exact h3 i hge hi
  · rcases Nat.lt_or_ge r.2 idx2 with hin | hout
    · rcases Nat.eq_or_lt_of_le hi with rfl | hi'
      · exact h4 hin
      · exact cmpDigest_nonneg_of_lt (h4 hin) (hs.cmp_lt hi' hlt)
    · exact Int.le_of_lt (hbehind i (Nat.le_trans hout hi) hlt)
  · rw [h5]
    refine ⟨fun h => ⟨by omega, h.2⟩, fun ⟨hlt, heq⟩ => ⟨?_, heq⟩⟩
    by_contra hout
    have := hbehind r.2 (Nat.le_of_not_lt hout) hlt
    rw [cmpDigest_eq_zero.mpr heq] at this
    omega

/-- **`find` returns the lower bound** of the digest, and whether it is there. -/
theorem find_spec (d : Digest256) : IsLowerBound c d (find c d).2 ∧
    ((find c d).1 = true ↔ (find c d).2 < c.nCurObjects ∧ c.objDigest (find c d).2 = d) := by
  by_cases hn : c.nCurObjects = 0
  · rw [find, if_pos hn]
    refine ⟨⟨Nat.zero_le _, fun i hi => absurd hi (Nat.not_lt_zero i), fun i _ hi => by omega⟩,
      fun h => absurd h Bool.false_ne_true, fun h => by omega⟩
  obtain ⟨⟨-, hlo⟩, hbefore, -⟩ := lowerBound_spec c.objHash d.a0 (Nat.zero_le c.nCurObjects)
  obtain ⟨⟨hup1, hup2⟩, -, hbehind⟩ := upperBound_spec c.objHash d.a0 hlo
  rw [find, if_neg hn]
  exact scan_bracket hs hup1 hup2 (fun i hi => hbefore i (Nat.zero_le i) hi) fun i hi hlt =>
    hs.cmp_pos_of_hash (hbehind (by omega)) hi hlt

/-- Found iff present. -/
theorem find_iff (d : Digest256) :
    (find c d).1 = true ↔ ∃ i, i < c.nCurObjects ∧ c.objDigest i = d := by
  obtain ⟨hlb, hfound⟩ := find_spec hs d
  rw [hfound]
  constructor
  · exact fun h => ⟨_, h⟩
  · rintro ⟨i, hi, rfl⟩
    have hself : cmpDigest (c.objDigest i) (c.objDigest i) = 0 := cmpDigest_eq_zero.mpr rfl
    have hle : (find c (c.objDigest i)).2 ≤ i := by
      by_contra hlt
      have := hlb.below i (Nat.lt_of_not_le hlt)
      omega
    have hlt : (find c (c.objDigest i)).2 < c.nCurObjects := by omega
    refine ⟨hlt, ?_⟩
    rcases Nat.eq_or_lt_of_le hle with heq | hlt'
    · rw [heq]
    · have h1 := hlb.above _ (Nat.le_refl _) hlt
      have h2 := hs.cmp_lt hlt' hi
      omega

end Find

/-! ## The loops that rewrite the tables -/

/-- Row `i` of the tables while the gaps are closed. -/
def DefragState.object (s : DefragState) (i : Nat) : Object :=
  ⟨s.objHash i, s.objDigest i, s.objMetadata i⟩

/-- The object was not removed. -/
def Object.live (o : Object) : Bool := decide (o.metadata.lastUsedTsc ≠ 0)

/-- A turn of the loop that closes the gaps, on the rows. -/
theorem defragStep_eq (i : Nat) (t : DefragState) :
    ((defragStep i t).j, (defragStep i t).object) = compactStep Object.live i (t.j, t.object) := by
  by_cases hdead : (t.objMetadata i).lastUsedTsc = 0
  · have hlive : ¬ Object.live (t.object i) = true := by
      simp [Object.live, DefragState.object, hdead]
    rw [defragStep, if_pos hdead, compactStep, if_neg hlive]
  · have hlive : Object.live (t.object i) = true := decide_eq_true hdead
    rw [defragStep, if_neg hdead, compactStep, if_pos hlive]
    refine Prod.ext rfl (funext fun k => ?_)
    by_cases hk : k = t.j
    · subst hk
      simp only [DefragState.object, Function.update_self]
    · simp only [DefragState.object, Function.update_of_ne hk]

/-- **Closing the gaps** keeps the objects that were not removed, in order. -/
theorem defrag_spec (s : DefragState) (n : Nat) (hj : s.j = 0) :
    listOf (forUp defragStep n s).object (forUp defragStep n s).j
      = (listOf s.object n).filter Object.live := by
  have hrows := forUp_map (fun t : DefragState => (t.j, t.object)) n s defragStep_eq
  simp only [hj] at hrows
  rw [← listOf_compact, compact, ← hrows]

/-- **Inserting a row** into the three tables inserts it into the list. -/
theorem insertRow_objects {c : Cache} {idx : Nat} (d : Digest256) (m : Metadata)
    (hidx : idx ≤ c.nCurObjects) :
    (insertRow c d idx m).objects = listOf c.object idx ++ ⟨d.a0, d, m⟩ ::
      listOf (fun i => c.object (idx + i)) (c.nCurObjects - idx) := by
  have hobj : (insertRow c d idx m).object =
      Function.update (memmoveUp c.object idx c.nCurObjects) idx ⟨d.a0, d, m⟩ := by
    funext i
    by_cases hi : i = idx
    · subst hi
      simp only [insertRow, Cache.object, Function.update_self]
    · simp only [insertRow, Cache.object, Function.update_of_ne hi, memmoveUp]
      split <;> rfl
  have hlen : c.nCurObjects = idx + (c.nCurObjects - idx) := by omega
  rw [Cache.objects, hobj, ← listOf_insert, ← hlen]
  rfl

theorem objects_split {c : Cache} {idx : Nat} (hidx : idx ≤ c.nCurObjects) :
    c.objects =
      listOf c.object idx ++ listOf (fun i => c.object (idx + i)) (c.nCurObjects - idx) := by
  rw [← listOf_add, Nat.add_sub_cancel' hidx]
  rfl

/-- At the lower bound of an absent digest the row keeps the index sorted. -/
theorem insertRow_sorted {c : Cache} {d : Digest256} {idx : Nat} (m : Metadata)
    (hs : Sorted c.objects) (habsent : ∀ o ∈ c.objects, o.digest ≠ d)
    (hidx : IsLowerBound c d idx) : Sorted (insertRow c d idx m).objects := by
  rw [insertRow_objects d m hidx.le]
  rw [objects_split hidx.le] at hs habsent
  refine hs.insert rfl (fun p hp => ?_) fun p hp => ?_
  · rcases mem_listOf.mp hp with ⟨i, hi, rfl⟩
    exact hidx.below i hi
  · -- not below, and not equal either
    have hne := habsent p (List.mem_append_right _ hp)
    rcases mem_listOf.mp hp with ⟨i, hi, rfl⟩
    have hge : 0 ≤ cmpDigest (c.object (idx + i)).digest d :=
      hidx.above (idx + i) (Nat.le_add_right _ _) (by omega)
    have hnz : cmpDigest (c.object (idx + i)).digest d ≠ 0 := fun h => hne (cmpDigest_eq_zero.mp h)
    show cmpDigest d (c.object (idx + i)).digest < 0
    rw [cmpDigest_swap]
    omega

end JudgeDuck.DuckCache
