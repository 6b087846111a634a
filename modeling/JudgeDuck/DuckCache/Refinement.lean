/-
  Whole runs of the cache, and the finite map it implements.

  Seen from outside, a cache is a finite map from digests to byte strings: `AbsStep` says what a
  call may do to the map and what it returns.  A store of a new digest may drop other entries; it
  is the only call that changes the map, and a digest that is present keeps its bytes until it is
  dropped.  `Cache.contents` reads the map off the index and the pages.  `run_inv` and
  `simulates_contents` say of every run after `init` that it returns, that the representation
  invariant holds after every call, and that each call is a step of the map.
-/
import JudgeDuck.DuckCache.Init

namespace JudgeDuck.DuckCache

open JudgeDuck.Lib

/-! ## The abstract cache -/

/-- What a cache holds: a byte string for each digest that is present. -/
def Contents : Type := Digest256 → Option (List UInt8)

/-- The calls on the map.  `capacity` is the number of pages: what does not fit is refused. -/
inductive AbsStep (capacity : Nat) : Contents → Op → Out → Contents → Prop
  | loadHit {A : Contents} {d : Digest256} {dst : Nat → UInt8} {tsc : Nat} {b : List UInt8} :
      A d = some b →
      AbsStep capacity A (.load d dst b.length tsc)
        (.load true (memcpy dst 0 (fun t => b.getD t 0) b.length)) A
  | loadMiss {A : Contents} {d : Digest256} {dst : Nat → UInt8} {n tsc : Nat} :
      (∀ b, A d = some b → b.length ≠ n) →
      AbsStep capacity A (.load d dst n tsc) (.load false dst) A
  | storePresent {A : Contents} {d : Digest256} {src : Nat → UInt8} {len tsc : Nat}
      {b : List UInt8} : A d = some b →
      AbsStep capacity A (.store d src len tsc) (.store true) A
  | storeRefused {A : Contents} {d : Digest256} {src : Nat → UInt8} {len tsc : Nat} :
      A d = none → capacity < pageCount len →
      AbsStep capacity A (.store d src len tsc) (.store false) A
  | storeNew {A A' : Contents} {d : Digest256} {src : Nat → UInt8} {len tsc : Nat} :
      A d = none → A' d = some (listOf src len) → (∀ d', d' ≠ d → A' d' = A d' ∨ A' d' = none) →
      AbsStep capacity A (.store d src len tsc) (.store true) A'

/-- The calls that are to leave the cache as it is. -/
def Idle (A : Contents) : Op → Out → Prop
  | .load .., .load found _ => found = false
  | .store d _ _ _, .store stored => A d ≠ none ∨ stored = false
  | _, _ => False

/-- The lengths are below `2 ^ 63` and the clock does not read zero. -/
def Op.Legal : Op → Prop
  | .load _ _ _ tsc => tsc ≠ 0
  | .store _ _ len tsc => len < 2 ^ 63 ∧ tsc ≠ 0

/-! ## What a cache holds -/

/-- The map a cache stands for. -/
def Cache.contents (c : Cache) : Contents := fun d =>
  (c.objects.find? fun o => o.digest = d).map c.bytes

/-- No two rows have the same digest. -/
theorem Sorted.unique {l : List Object} (h : Sorted l) {o p : Object} (ho : o ∈ l) (hp : p ∈ l)
    (heq : o.digest = p.digest) : o = p := by
  have hnodup : (l.map Object.digest).Nodup := by
    refine List.pairwise_map.mpr (h.increasing.imp fun hlt hsame => ?_)
    rw [cmpDigest_eq_zero.mpr hsame] at hlt
    omega
  exact List.inj_on_of_nodup_map hnodup ho hp heq

section Contents

variable {c c' : Cache} {d : Digest256}

theorem contents_of_mem (hc : Inv c) {o : Object} (ho : o ∈ c.objects) (hd : o.digest = d) :
    c.contents d = some (c.bytes o) := by
  unfold Cache.contents
  cases hfind : c.objects.find? (fun p => decide (p.digest = d)) with
  | none =>
    have := List.find?_eq_none.mp hfind o ho
    simp [hd] at this
  | some p =>
    have hpd : p.digest = d := by simpa using List.find?_some hfind
    rw [hc.sorted.unique ho (List.mem_of_find?_eq_some hfind) (hd.trans hpd.symm)]
    rfl

theorem contents_eq_none : c.contents d = none ↔ ∀ o ∈ c.objects, o.digest ≠ d := by
  rw [Cache.contents, Option.map_eq_none_iff, List.find?_eq_none]
  simp

theorem contents_eq_some (hc : Inv c) {b : List UInt8} :
    c.contents d = some b ↔ ∃ o ∈ c.objects, o.digest = d ∧ c.bytes o = b := by
  constructor
  · intro h
    by_cases hpresent : ∃ o ∈ c.objects, o.digest = d
    · obtain ⟨o, ho, hd⟩ := hpresent
      refine ⟨o, ho, hd, ?_⟩
      rw [contents_of_mem hc ho hd] at h
      exact Option.some.inj h
    · rw [contents_eq_none.mpr fun o ho hd => hpresent ⟨o, ho, hd⟩] at h
      nomatch h
  · rintro ⟨o, ho, hd, rfl⟩
    exact contents_of_mem hc ho hd

/-- Renewing a time stamp does not show in the map. -/
theorem contents_touch {tsc : Nat} (hc : Inv c) (idx : Nat) (htsc : tsc ≠ 0) :
    (c.touch idx tsc).contents = c.contents := by
  have hobj := touch_object c idx tsc
  funext d
  cases h : c.contents d with
  | none =>
    rw [contents_eq_none] at h ⊢
    intro o ho
    rcases mem_listOf.mp ho with ⟨i, hi, rfl⟩
    rw [(hobj i).2.1]
    exact h _ (object_mem hi)
  | some b =>
    rcases (contents_eq_some hc).mp h with ⟨o, ho, hd, rfl⟩
    rcases mem_listOf.mp ho with ⟨i, hi, rfl⟩
    refine (contents_eq_some (hc.touch idx htsc)).mpr ⟨_, mem_listOf.mpr ⟨i, hi, rfl⟩, ?_, ?_⟩
    · rw [(hobj i).2.1]
      exact hd
    · exact (hobj i).2.2.2.2

/-- Storing a new object shows as a new entry; other entries stay or go. -/
theorem contents_store {c1 : Cache} {new : Object} {b : List UInt8} (hc : Inv c) (hc' : Inv c')
    (hshrunk : Shrunk c c1) (hgrown : Grown c1 c' new b) (hd : new.digest = d) :
    c'.contents d = some b ∧
      ∀ d', d' ≠ d → c'.contents d' = c.contents d' ∨ c'.contents d' = none := by
  obtain ⟨l1, l2, hsplit, hobjs⟩ := hgrown.objects
  constructor
  · have hnew : new ∈ c'.objects := by
      rw [hobjs]
      exact List.mem_append_right _ List.mem_cons_self
    rw [contents_of_mem hc' hnew hd, hgrown.new]
  · intro d' hne
    cases h : c'.contents d' with
    | none => exact Or.inr rfl
    | some b' =>
      rcases (contents_eq_some hc').mp h with ⟨o, ho, hd', rfl⟩
      have hold : o ∈ c1.objects := by
        rw [hobjs] at ho
        rw [hsplit]
        rcases List.mem_append.mp ho with ho | ho
        · exact List.mem_append_left _ ho
        · rcases List.mem_cons.mp ho with rfl | ho
          · exact absurd (hd'.symm.trans hd) hne
          · exact List.mem_append_right _ ho
      left
      rw [hgrown.old o hold, hshrunk.bytes o hold,
        contents_of_mem hc (hshrunk.objects.subset hold) hd']

end Contents

/-! ## One call -/

/-- What a call does: it returns, keeps the invariant and the pages, and is a step of the map. -/
def Refines (sorter : StdSort) (c : Cache) (op : Op) : Prop :=
  ∃ c' out, step sorter c op = .ok (c', out) ∧ Inv c' ∧
    (c'.contentPages = c.contentPages ∧ c'.nMaxObjects = c.nMaxObjects) ∧
    AbsStep c.nTotalPages c.contents op out c'.contents ∧ (Idle c.contents op out → c' = c)

theorem length_bytes (c : Cache) (o : Object) : (c.bytes o).length = o.metadata.len :=
  length_listOf _ _

section Calls

variable {c : Cache} {d : Digest256} {tsc : Nat} (sorter : StdSort) (hc : Inv c)

include hc

/-- **`load`**. -/
theorem load_refines (dst : Nat → UInt8) (n : Nat) (htsc : tsc ≠ 0) :
    Refines sorter c (.load d dst n tsc) := by
  by_cases hhit : ∃ o ∈ c.objects, o.digest = d ∧ o.metadata.len = n
  · obtain ⟨o, ho, hd, rfl⟩ := hhit
    obtain ⟨idx, hload⟩ := load_hit dst tsc hc ho hd
    refine ⟨c.touch idx tsc, _, bind_of_ok hload, hc.touch idx htsc, ⟨rfl, rfl⟩, ?_, ?_⟩
    · rw [contents_touch hc idx htsc, ← length_bytes c o]
      exact .loadHit (contents_of_mem hc ho hd)
    · intro hidle
      exact absurd hidle (by simp [Idle])
  · have hmiss : ∀ o ∈ c.objects, o.digest = d → o.metadata.len ≠ n :=
      fun o ho hd hlen => hhit ⟨o, ho, hd, hlen⟩
    refine ⟨c, _, bind_of_ok (load_miss tsc hc hmiss), hc, ⟨rfl, rfl⟩, .loadMiss ?_, fun _ => rfl⟩
    intro b hb
    rcases (contents_eq_some hc).mp hb with ⟨o, ho, hd, rfl⟩
    rw [length_bytes]
    exact hmiss o ho hd

/-- **`store`**. -/
theorem store_refines (src : Nat → UInt8) {len : Nat} (hlen : len < 2 ^ 63) (htsc : tsc ≠ 0) :
    Refines sorter c (.store d src len tsc) := by
  by_cases hpresent : ∃ o ∈ c.objects, o.digest = d
  · obtain ⟨o, ho, hd⟩ := hpresent
    exact ⟨c, _, bind_of_ok (store_present sorter src len tsc hc ho hd), hc, ⟨rfl, rfl⟩,
      .storePresent (contents_of_mem hc ho hd), fun _ => rfl⟩
  have habsent : ∀ o ∈ c.objects, o.digest ≠ d := fun o ho hd => hpresent ⟨o, ho, hd⟩
  have hnone := contents_eq_none.mpr habsent
  by_cases hfits : pageCount len ≤ c.nTotalPages
  · obtain ⟨c1, c', new, hstore, hc', hshrunk, hgrown, hd⟩ :=
      store_new sorter src hc habsent hfits hlen htsc
    obtain ⟨hnew, hold⟩ := contents_store hc hc' hshrunk hgrown hd
    refine ⟨c', _, bind_of_ok hstore, hc', ⟨hgrown.pages.trans hshrunk.pages,
      hgrown.max.trans hshrunk.max⟩, .storeNew hnone hnew hold, ?_⟩
    rintro (hsome | hfalse)
    · exact absurd hnone hsome
    · nomatch hfalse
  · have hbig : nNeedPages len > c.nTotalPages := by
      rw [nNeedPages_eq hlen]
      omega
    exact ⟨c, _, bind_of_ok (store_refused sorter src tsc hc habsent hbig), hc, ⟨rfl, rfl⟩,
      .storeRefused hnone (by omega), fun _ => rfl⟩

/-- **Every call** returns, keeps the invariant, and is a step of the map. -/
theorem step_refines {op : Op} (hop : op.Legal) : Refines sorter c op := by
  cases op with
  | load d dst n tsc => exact load_refines sorter hc dst n hop
  | store d src len tsc => exact store_refines sorter hc src hop.1 hop.2

end Calls

/-! ## Runs -/

/-- The invariant in terms of the arrays: `n_max_objects` bounds the index, the index is sorted by
    digest, and the chains of the objects and the free list visit every content page once. -/
structure WellFormed (c : Cache) : Prop where
  count : c.nCurObjects ≤ c.nMaxObjects
  hash : ∀ i, i < c.nCurObjects → c.objHash i = (c.objDigest i).a0
  increasing : ∀ i j, i < j → j < c.nCurObjects → cmpDigest (c.objDigest i) (c.objDigest j) < 0
  nodup : c.contentPages.Nodup
  pages : ((List.range c.nCurObjects).flatMap (fun i => List.iterate c.next
      (c.objMetadata i).startAddr (max 1 (((c.objMetadata i).len + 4087) / 4088))) ++
    List.iterate c.next c.freeListAddr c.nFreePages).Perm c.contentPages
  ends : c.next^[c.nFreePages] c.freeListAddr = 0

/-- **The invariant implies what a well-formed cache is.** -/
theorem Inv.wellFormed {c : Cache} (hc : Inv c) : WellFormed c where
  count := hc.count
  hash := fun _ hi => hc.sorted.hash _ (object_mem hi)
  increasing := listOf_pairwise.mp hc.sorted.increasing
  nodup := nodup_contentPages c
  pages := by
    have h := hc.pool.pages
    rw [objects_eq_map, List.map_map, List.flatMap_map] at h
    exact h
  ends := hc.pool.ends

/-- **Every run** returns and keeps the invariant; the pages stay the same. -/
theorem run_inv {c : Cache} {ops : List Op} (sorter : StdSort) (hc : Inv c)
    (hops : ∀ op ∈ ops, op.Legal) :
    ∃ c', run sorter c ops = .ok c' ∧ Inv c' ∧ c'.contentPages = c.contentPages ∧
      c'.nMaxObjects = c.nMaxObjects := by
  induction ops generalizing c with
  | nil => exact ⟨c, rfl, hc, rfl, rfl⟩
  | cons op ops ih =>
    obtain ⟨c1, out, hstep, hc1, ⟨hpages, hmax⟩, -, -⟩ :=
      step_refines sorter hc (hops op List.mem_cons_self)
    obtain ⟨c', hrun, hc', hpages', hmax'⟩ :=
      ih hc1 fun op' h => hops op' (List.mem_cons_of_mem _ h)
    refine ⟨c', ?_, hc', hpages'.trans hpages, hmax'.trans hmax⟩
    rw [run, bind_of_ok hstep]
    exact hrun

/-- The cache and the map agree on which digests are present, with which lengths. -/
def Agrees (c : Cache) (A : Contents) : Prop :=
  ∀ d n, (∃ i, i < c.nCurObjects ∧ c.objDigest i = d ∧ (c.objMetadata i).len = n) ↔
    ∃ b, A d = some b ∧ b.length = n

theorem agrees_contents {c : Cache} (hc : Inv c) : Agrees c c.contents := by
  intro d n
  constructor
  · rintro ⟨i, hi, hd, hlen⟩
    exact ⟨_, contents_of_mem hc (object_mem hi) hd, (length_bytes c _).trans hlen⟩
  · rintro ⟨b, hb, hlen⟩
    rcases (contents_eq_some hc).mp hb with ⟨o, ho, hd, rfl⟩
    rcases mem_listOf.mp ho with ⟨i, hi, rfl⟩
    exact ⟨i, hi, hd, (length_bytes c _).symm.trans hlen⟩

/-- Call by call, the cache does what the map does, and an idle call leaves it as it is. -/
def Simulates (sorter : StdSort) (capacity : Nat) : Cache → Contents → List Op → Prop
  | c, A, [] => Agrees c A
  | c, A, op :: ops => Agrees c A ∧ ∃ c' out A', step sorter c op = .ok (c', out) ∧
      AbsStep capacity A op out A' ∧ (Idle A op out → c' = c) ∧ Simulates sorter capacity c' A' ops

/-- **Every run simulates** the abstract cache, by induction. -/
theorem simulates_contents {c : Cache} {ops : List Op} (sorter : StdSort) (hc : Inv c)
    (hops : ∀ op ∈ ops, op.Legal) : Simulates sorter c.nTotalPages c c.contents ops := by
  induction ops generalizing c with
  | nil => exact agrees_contents hc
  | cons op ops ih =>
    obtain ⟨c', out, hstep, hc', ⟨hpages, -⟩, habs, hidle⟩ :=
      step_refines sorter hc (hops op List.mem_cons_self)
    have htotal : c'.nTotalPages = c.nTotalPages := by
      simpa [Cache.contentPages] using congrArg List.length hpages
    refine ⟨agrees_contents hc, c', out, c'.contents, hstep, habs, hidle, ?_⟩
    rw [← htotal]
    exact ih hc' fun op' h => hops op' (List.mem_cons_of_mem _ h)

/-! ### A small cache -/

/-- A sorting routine, by merging. -/
def mergeSorter : StdSort where
  sort key ids := ids.mergeSort fun i j => decide (key i ≤ key j)
  perm _ _ := List.mergeSort_perm _ _
  sorted key ids := by
    refine (List.pairwise_mergeSort ?_ ?_ ids).imp of_decide_eq_true
    · intro a b c hab hbc
      simp only [decide_eq_true_eq] at *
      exact Nat.le_trans hab hbc
    · intro a b
      simp only [Bool.or_eq_true, decide_eq_true_eq]
      exact Nat.le_total _ _

/-- Two huge pages. -/
def twoHugePages : Region where
  kernelBreak := 2097152
  vaddrBreak := 6291456
  pos := by decide
  le := by decide
  lt := by decide
  kernelBreak_aligned := ⟨1, rfl⟩
  vaddrBreak_aligned := ⟨3, rfl⟩

/-- Memory full of zeros. -/
def zeros : Cache where
  cacheSize := 0
  nMaxObjects := 0
  nCurObjects := 0
  freeListAddr := 0
  nFreePages := 0
  nTotalPages := 0
  objHash _ := 0
  objDigest _ := ⟨0, 0, 0, 0⟩
  objMetadata _ := ⟨0, 0, 0⟩
  sortIds := []
  firstPage := 0
  next _ := 0
  content _ _ := 0

/-- In six pages there is room for four tables and two content pages. -/
theorem init_zeros : ∃ c, init twoHugePages zeros 1 24576 = .ok (some c) := by
  have hsome : (init twoHugePages zeros 1 24576).toOption.join.isSome = true := by decide +kernel
  cases h : init twoHugePages zeros 1 24576 with
  | error _ => simp [h, Except.toOption] at hsome
  | ok c =>
    cases c with
    | none => simp [h, Except.toOption] at hsome
    | some c => exact ⟨c, rfl⟩

/-- Three bytes stored under one digest, two under another, and a load of the first. -/
def twoStores : List Op :=
  [.store ⟨1, 0, 0, 0⟩ (fun _ => 7) 3 1, .store ⟨2, 0, 0, 0⟩ (fun _ => 8) 2 2,
    .load ⟨1, 0, 0, 0⟩ (fun _ => 0) 3 3]

theorem twoStores_legal : ∀ op ∈ twoStores, op.Legal := by
  simp [twoStores, Op.Legal]

section FromInit

variable {r : Region} {raw c : Cache} {nMaxObjects cacheSize : Nat} {ops : List Op}

/-- **The representation invariant**, after every run from `init`. -/
theorem run_wellFormed (sorter : StdSort) (hpos : 1 ≤ nMaxObjects) (hn : nMaxObjects < 2 ^ 57)
    (hmul : pageSize ∣ cacheSize) (hsize : cacheSize < 2 ^ 64)
    (hinit : init r raw nMaxObjects cacheSize = .ok (some c)) (hops : ∀ op ∈ ops, op.Legal) :
    ∃ c', run sorter c ops = .ok c' ∧ WellFormed c' ∧ c'.contentPages = c.contentPages ∧
      c'.nMaxObjects = nMaxObjects := by
  obtain ⟨hc, -, hmax, -⟩ := init_spec hn hmul hsize hinit hpos
  obtain ⟨c', hrun, hc', hpages, hmax'⟩ := run_inv sorter hc hops
  exact ⟨c', hrun, hc'.wellFormed, hpages, hmax'.trans hmax⟩

theorem run_wellFormed_twoStores : ∃ c c', init twoHugePages zeros 1 24576 = .ok (some c) ∧
    run mergeSorter c twoStores = .ok c' ∧ WellFormed c' := by
  obtain ⟨c, hinit⟩ := init_zeros
  obtain ⟨c', hrun, hwf, -, -⟩ := run_wellFormed mergeSorter (Nat.le_refl 1) (by decide)
    (show pageSize ∣ 24576 from ⟨6, rfl⟩) (by decide) hinit twoStores_legal
  exact ⟨c, c', hinit, hrun, hwf⟩

/-- **The cache refines a finite map**, along every run from `init`. -/
theorem run_simulates (sorter : StdSort) (hpos : 1 ≤ nMaxObjects) (hn : nMaxObjects < 2 ^ 57)
    (hmul : pageSize ∣ cacheSize) (hsize : cacheSize < 2 ^ 64)
    (hinit : init r raw nMaxObjects cacheSize = .ok (some c)) (hops : ∀ op ∈ ops, op.Legal) :
    Simulates sorter c.nTotalPages c (fun _ => none) ops := by
  obtain ⟨hc, hcur, -⟩ := init_spec hn hmul hsize hinit hpos
  have hempty : c.contents = fun _ => none := by
    funext d
    refine contents_eq_none.mpr fun o ho => ?_
    rcases mem_listOf.mp ho with ⟨i, hi, -⟩
    omega
  rw [← hempty]
  exact simulates_contents sorter hc hops

theorem run_simulates_twoStores : ∃ c, init twoHugePages zeros 1 24576 = .ok (some c) ∧
    Simulates mergeSorter c.nTotalPages c (fun _ => none) twoStores := by
  obtain ⟨c, hinit⟩ := init_zeros
  exact ⟨c, hinit, run_simulates mergeSorter (Nat.le_refl 1) (by decide)
    (show pageSize ∣ 24576 from ⟨6, rfl⟩) (by decide) hinit twoStores_legal⟩

end FromInit

end JudgeDuck.DuckCache
