/-
  The chained hash table of the solver, seen from outside.

  Nodes are numbered `1, 2, …` in the order of insertion.  `Hash.Stores h n key value` says all of
  what is in a table after the `n` insertions `(key 0, value 0), …, (key (n - 1), value (n - 1))`: a
  bucket is headed by its newest node and each node links to the next older node of its own bucket.
  `clear` establishes it, whatever the links were before, `insert` extends it, and
  `Stores.queryReports_eq` reads it: a query calls `report_digits` for each value with an equal key,
  newest first, and it returns.  So the table is a multimap (`queryAll_insertAll`).

  The solver inserts the values `0, 1, …` in that order, so there node `t` carries value `t - 1`;
  `Hash.Holds h n key` is this case.
-/
import JudgeDuck.Lib.Arrays
import JudgeDuck.Lib.Lists
import JudgeDuck.Solver.Model
import Mathlib.Data.List.GetD

namespace JudgeDuck.Solver.Hash

open JudgeDuck.Lib

/-- Node `t` belongs to bucket `b`. -/
def inBucket (key : Nat → Nat) (b t : Nat) : Bool := decide (bucket (key (t - 1)) = b)

/-- `h` holds exactly the insertions `(key 0, value 0), …, (key (n - 1), value (n - 1))`. -/
structure Stores (h : Hash) (n : Nat) (key value : Nat → Nat) : Prop where
  cnt : h.cnt = n
  keys : ∀ t, 1 ≤ t → t ≤ n → h.keys t = key (t - 1)
  values : ∀ t, 1 ≤ t → t ≤ n → h.values t = value (t - 1)
  /-- A bucket is headed by its newest node. -/
  first : ∀ b, h.first b = lastBelow (inBucket key b) n
  /-- A node links to the next older node of its bucket. -/
  next : ∀ t, 1 ≤ t → t ≤ n → h.next t = lastBelow (inBucket key (bucket (key (t - 1)))) (t - 1)

/-- `h` holds exactly the insertions `(key 0, 0), …, (key (n - 1), n - 1)`. -/
def Holds (h : Hash) (n : Nat) (key : Nat → Nat) : Prop := h.Stores n key id

variable {h : Hash} {n : Nat} {key value : Nat → Nat}

/-! ## Inserting -/

theorem stores_clear (h : Hash) (key value : Nat → Nat) : h.clear.Stores 0 key value where
  cnt := rfl
  keys := fun t h1 h2 => by omega
  values := fun t h1 h2 => by omega
  first := fun _ => rfl
  next := fun t h1 h2 => by omega

theorem holds_clear (h : Hash) (key : Nat → Nat) : h.clear.Holds 0 key := stores_clear h key id

/-- The last key of a bucket, after one more key. -/
theorem lastBelow_inBucket_succ (b : Nat) :
    lastBelow (inBucket key b) (n + 1)
      = if bucket (key n) = b then n + 1 else lastBelow (inBucket key b) n := by
  have hkey : inBucket key b (n + 1) = decide (bucket (key n) = b) := rfl
  by_cases hb : bucket (key n) = b
  · rw [if_pos hb, lastBelow_succ_of_pos (by rw [hkey]; exact decide_eq_true hb)]
  · rw [if_neg hb, lastBelow_succ_of_neg (by rw [hkey]; exact fun h => hb (of_decide_eq_true h))]

/-- The next insertion; node numbers must fit the 16-bit links. -/
theorem Stores.insert (hh : h.Stores n key value) (hn : n + 1 < 2 ^ 16) (hvalue : value n < 2 ^ 16) :
    (h.insert (key n) (value n)).Stores (n + 1) key value := by
  have hcnt : u32 (h.cnt + 1) = n + 1 := by
    rw [hh.cnt, u32]
    omega
  -- the new node is `n + 1`; every older node keeps its fields
  have hold : ∀ t, t ≤ n → t ≠ n + 1 := fun t ht => by omega
  refine ⟨hcnt, ?_, ?_, ?_, ?_⟩
  · intro t h1 h2
    show Function.update h.keys (u32 (h.cnt + 1)) (key n) t = key (t - 1)
    rw [hcnt]
    rcases Nat.lt_or_ge n t with hlt | hge
    · obtain rfl : t = n + 1 := by omega
      rw [Function.update_self]
      rfl
    · rw [Function.update_of_ne (hold t hge)]
      exact hh.keys t h1 hge
  · intro t h1 h2
    show Function.update h.values (u32 (h.cnt + 1)) (u16 (value n)) t = value (t - 1)
    rw [hcnt]
    rcases Nat.lt_or_ge n t with hlt | hge
    · obtain rfl : t = n + 1 := by omega
      rw [Function.update_self, u16, Nat.mod_eq_of_lt hvalue]
      rfl
    · rw [Function.update_of_ne (hold t hge)]
      exact hh.values t h1 hge
  · intro b
    show Function.update h.first (bucket (key n)) (u16 (u32 (h.cnt + 1))) b = _
    rw [hcnt, lastBelow_inBucket_succ, u16, Nat.mod_eq_of_lt hn]
    by_cases hb : bucket (key n) = b
    · rw [if_pos hb, ← hb, Function.update_self]
    · rw [if_neg hb, Function.update_of_ne (fun e => hb e.symm)]
      exact hh.first b
  · intro t h1 h2
    show Function.update h.next (u32 (h.cnt + 1)) (h.first (bucket (key n))) t = _
    rw [hcnt]
    rcases Nat.lt_or_ge n t with hlt | hge
    · obtain rfl : t = n + 1 := by omega
      rw [Function.update_self]
      exact hh.first _
    · rw [Function.update_of_ne (hold t hge)]
      exact hh.next t h1 hge

theorem Holds.insert (hh : h.Holds n key) (hn : n + 1 < 2 ^ 16) :
    (h.insert (key n) n).Holds (n + 1) key :=
  Stores.insert hh hn (Nat.lt_of_succ_lt hn)

/-- Only the insertions so far matter. -/
theorem Stores.congr {key' value' : Nat → Nat} (hh : h.Stores n key value)
    (hkey : ∀ i, i < n → key i = key' i) (hvalue : ∀ i, i < n → value i = value' i) :
    h.Stores n key' value' := by
  have hlast : ∀ b t, t ≤ n → lastBelow (inBucket key b) t = lastBelow (inBucket key' b) t := by
    intro b t ht
    refine lastBelow_congr fun u h1 h2 => ?_
    rw [inBucket, inBucket, hkey (u - 1) (by omega)]
  refine ⟨hh.cnt, ?_, ?_, ?_, ?_⟩
  · intro t h1 h2
    rw [hh.keys t h1 h2, hkey (t - 1) (by omega)]
  · intro t h1 h2
    rw [hh.values t h1 h2, hvalue (t - 1) (by omega)]
  · intro b
    rw [hh.first b, hlast b n (Nat.le_refl n)]
  · intro t h1 h2
    rw [hh.next t h1 h2, hkey (t - 1) (by omega), hlast _ (t - 1) (by omega)]

theorem Holds.congr {key' : Nat → Nat} (hh : h.Holds n key) (hkey : ∀ i, i < n → key i = key' i) :
    h.Holds n key' :=
  Stores.congr hh hkey fun _ _ => rfl

/-! ## Querying -/

/-- A query visits all nodes of the key's bucket. -/
theorem Stores.follow_bucket (hh : h.Stores n key value) (b : Nat) :
    follow h.next (h.cnt + 1) (h.first b) = some ((downFrom n).filter (inBucket key b)) := by
  rw [hh.first b, hh.cnt]
  apply follow_lastBelow (by omega)
  intro t h1 h2 ht
  have hb : bucket (key (t - 1)) = b := of_decide_eq_true ht
  rw [hh.next t h1 h2, hb]

/-- The call of `report_digits` at node `i` in `query_all(key, q_idx, m_number)`, if there is one: the
    index that it points to, and the length. -/
def visitReport (h : Hash) (key qIdx i : Nat) : List (Nat × Nat) :=
  if h.keys i ≠ key then []
  else
    let value := h.values i
    let len := u32 (qIdx + 2 ^ 32 - value)
    if N < len then [] else [(value + 1, len)]

/-- The calls of `report_digits` in `query_all(key, q_idx, m_number)`. -/
def queryReports (h : Hash) (key qIdx : Nat) : Except Fault (List (Nat × Nat)) :=
  match follow h.next (h.cnt + 1) (h.first (bucket key)) with
  | none => .error .diverges
  | some nodes => .ok (nodes.flatMap (h.visitReport key qIdx))

/-- A visit reports positions first, and their digits then. -/
theorem visit_eq_flatMap (h : Hash) (digits : Nat → Int) (key qIdx : Nat) (m : MNumber) (i : Nat) :
    h.visit digits key qIdx m i =
      (h.visitReport key qIdx i).flatMap fun r => reportDigits digits r.1 r.2 m qIdx := by
  rw [visit, visitReport]
  split
  · rfl
  · dsimp only
    split
    · rfl
    · exact (List.append_nil _).symm

/-- **What `query_all` does** is what its calls of `report_digits` do. -/
theorem queryAll_eq_map (h : Hash) (digits : Nat → Int) (key qIdx : Nat) (m : MNumber) :
    h.queryAll digits key qIdx m = (h.queryReports key qIdx).map fun reports =>
      reports.flatMap fun r => reportDigits digits r.1 r.2 m qIdx := by
  rw [queryAll, queryReports]
  cases follow h.next (h.cnt + 1) (h.first (bucket key)) with
  | none => rfl
  | some nodes =>
    apply congrArg Except.ok
    dsimp only
    rw [List.flatMap_assoc]
    exact List.flatMap_congr fun i _ => visit_eq_flatMap h digits key qIdx m i

/-- The call for the value `v` of a node with an equal key. -/
def reportFor (qIdx v : Nat) : List (Nat × Nat) :=
  if v ≤ qIdx ∧ qIdx - v ≤ N then [(v + 1, qIdx - v)] else []

/-- What node `t` contributes to a query.  The 32-bit subtraction wraps around for a value above
    `qIdx`; the difference is then far above `N`. -/
theorem Stores.visitReport_eq (hh : h.Stores n key value) {k qIdx t : Nat} (hq : qIdx < 2 ^ 32)
    (hvalue : value (t - 1) ≤ qIdx ∨ value (t - 1) < 2 ^ 16) (h1 : 1 ≤ t) (h2 : t ≤ n) :
    h.visitReport k qIdx t = if key (t - 1) = k then reportFor qIdx (value (t - 1)) else [] := by
  have hN : N = 256 := rfl
  rw [visitReport, hh.keys t h1 h2, hh.values t h1 h2]
  generalize value (t - 1) = v at hvalue
  by_cases hk : key (t - 1) = k
  · rw [if_neg (fun hne => hne hk), if_pos hk, reportFor]
    dsimp only
    rcases Nat.lt_or_ge qIdx v with hlt | hge
    · have hwrap : u32 (qIdx + 2 ^ 32 - v) = qIdx + 2 ^ 32 - v := Nat.mod_eq_of_lt (by omega)
      rw [hwrap, if_neg (by omega : ¬ (v ≤ qIdx ∧ qIdx - v ≤ N))]
      exact if_pos (by omega)
    · have hsub : u32 (qIdx + 2 ^ 32 - v) = qIdx - v := by
        unfold u32
        omega
      rw [hsub]
      by_cases hlen : N < qIdx - v
      · rw [if_pos hlen, if_neg (by omega)]
      · rw [if_neg hlen, if_pos (by omega)]
  · rw [if_pos hk, if_neg hk]

theorem mem_downFrom {t : Nat} (ht : t ∈ downFrom n) : 1 ≤ t ∧ t ≤ n := by
  rcases List.mem_map.mp ht with ⟨i, hi, rfl⟩
  have := List.mem_range.mp (List.mem_reverse.mp hi)
  omega

/-- **A query reports every value with an equal key**, newest first, if the window is not too
    long; and it returns. -/
theorem Stores.queryReports_eq (hh : h.Stores n key value) {k qIdx : Nat} (hq : qIdx < 2 ^ 32)
    (hvalue : ∀ i, i < n → value i ≤ qIdx ∨ value i < 2 ^ 16) :
    h.queryReports k qIdx = .ok ((downFrom n).flatMap fun t =>
      if key (t - 1) = k then reportFor qIdx (value (t - 1)) else []) := by
  rw [queryReports, hh.follow_bucket]
  apply congrArg Except.ok
  have hvisit : ∀ t ∈ downFrom n, h.visitReport k qIdx t =
      if key (t - 1) = k then reportFor qIdx (value (t - 1)) else [] := by
    intro t ht
    obtain ⟨h1, h2⟩ := mem_downFrom ht
    exact hh.visitReport_eq hq (hvalue (t - 1) (by omega)) h1 h2
  -- the nodes of the other buckets have other keys
  have hother : ∀ t ∈ downFrom n, ¬ inBucket key (bucket k) t = true →
      h.visitReport k qIdx t = [] := by
    intro t ht hb
    have hk : key (t - 1) ≠ k := fun e => hb (decide_eq_true (congrArg bucket e))
    rw [hvisit t ht, if_neg hk]
  rw [flatMap_filter_of_nil hother]
  exact List.flatMap_congr hvisit

/-- The query of the solver, whose values are below `qIdx`. -/
theorem Holds.queryAll_eq (hh : h.Holds n key) {digits : Nat → Int} {k qIdx : Nat} {m : MNumber}
    (hn : n ≤ qIdx) (hq : qIdx < 2 ^ 32) :
    h.queryAll digits k qIdx m = .ok ((downFrom n).flatMap fun t =>
      if key (t - 1) = k ∧ qIdx - (t - 1) ≤ N then
        reportDigits digits t (qIdx - (t - 1)) m qIdx else []) := by
  rw [queryAll_eq_map,
    Stores.queryReports_eq hh hq fun i hi => Or.inl (Nat.le_trans (Nat.le_of_lt hi) hn)]
  apply congrArg Except.ok
  dsimp only
  rw [List.flatMap_assoc]
  refine List.flatMap_congr fun t ht => ?_
  obtain ⟨h1, h2⟩ := mem_downFrom ht
  have hle : t - 1 ≤ qIdx := by omega
  by_cases hk : key (t - 1) = k
  · rw [if_pos hk, reportFor]
    by_cases hlen : qIdx - (t - 1) ≤ N
    · rw [if_pos ⟨hle, hlen⟩, if_pos ⟨hk, hlen⟩, List.flatMap_singleton, id, Nat.sub_add_cancel h1]
    · rw [if_neg (fun e => hlen e.2), if_neg (fun e => hlen e.2)]
      rfl
  · rw [if_neg hk, if_neg (fun e => hk e.1)]
    rfl

/-! ## A multimap -/

/-- One insertion after the other. -/
def insertAll (h : Hash) (ins : List (Nat × Nat)) : Hash := ins.foldl (fun h p => h.insert p.1 p.2) h

/-- The table after `clear` and any insertions of small values. -/
theorem stores_insertAll (h : Hash) {ins : List (Nat × Nat)} (hlen : ins.length < 2 ^ 16)
    (hvalue : ∀ p ∈ ins, p.2 < 2 ^ 16) :
    (h.clear.insertAll ins).Stores ins.length (fun i => (ins.getD i (0, 0)).1)
      (fun i => (ins.getD i (0, 0)).2) := by
  -- the last insertion is the last one done
  induction ins using List.reverseRecOn with
  | nil => exact stores_clear h _ _
  | append_singleton ins p ih =>
    have hold : ∀ i, i < ins.length → (ins ++ [p]).getD i (0, 0) = ins.getD i (0, 0) := by
      intro i hi
      rw [List.getD_append _ _ _ _ hi]
    have hlast : (ins ++ [p]).getD ins.length (0, 0) = p := by
      rw [List.getD_append_right _ _ _ _ (Nat.le_refl _), Nat.sub_self]
      rfl
    rw [List.length_append, List.length_singleton] at hlen ⊢
    have hbefore := (ih (by omega) fun x hx => hvalue x (List.mem_append_left _ hx)).congr
      (fun i hi => congrArg Prod.fst (hold i hi).symm) (fun i hi => congrArg Prod.snd (hold i hi).symm)
    have hp : p.2 < 2 ^ 16 := hvalue p (List.mem_append_right _ (List.mem_singleton_self p))
    have hafter := hbefore.insert hlen (by rw [hlast]; exact hp)
    rw [hlast] at hafter
    rw [insertAll, List.foldl_append]
    exact hafter

/-- The nodes of the table, newest first, are the insertions in reverse order. -/
theorem flatMap_downFrom {β : Type} (ins : List (Nat × Nat)) (f : Nat × Nat → List β) :
    (downFrom ins.length).flatMap (fun t => f (ins.getD (t - 1) (0, 0))) = ins.reverse.flatMap f := by
  conv_rhs => rw [← listOf_getD ins (0, 0)]
  rw [downFrom, listOf, ← List.map_reverse, List.flatMap_map, List.flatMap_map]
  rfl

/-- **The table is a multimap.**  After `clear` and any insertions that fit the arrays, a query ends,
    and it calls `report_digits` once for each insertion with an equal key whose value is at most `q`
    and not more than `N` below it, the latest insertion first, with the digits between the two. -/
theorem queryAll_insertAll (h : Hash) (ins : List (Nat × Nat))
    (hlen : ins.length ≤ N + maxBatchSize + 4) (hvalue : ∀ p ∈ ins, p.2 < 65536) (key q : Nat)
    (hq : q < 2 ^ 32) :
    let found := ins.reverse.filter fun p => p.1 = key ∧ p.2 ≤ q ∧ q - p.2 ≤ N
    (h.clear.insertAll ins).queryReports key q = .ok (found.map fun p => (p.2 + 1, q - p.2)) ∧
      ∀ digits m, (h.clear.insertAll ins).queryAll digits key q m =
        .ok (found.flatMap fun p => reportDigits digits (p.2 + 1) (q - p.2) m q) := by
  intro found
  have hmax : N + maxBatchSize + 4 < 2 ^ 16 := by decide
  have hsmall : ∀ i, i < ins.length → (ins.getD i (0, 0)).2 < 2 ^ 16 := by
    intro i hi
    rw [List.getD_eq_getElem _ _ hi]
    exact hvalue _ (List.getElem_mem hi)
  have hreports : (h.clear.insertAll ins).queryReports key q =
      .ok (found.map fun p => (p.2 + 1, q - p.2)) := by
    rw [(stores_insertAll h (by omega) hvalue).queryReports_eq hq fun i hi => Or.inr (hsmall i hi),
      flatMap_downFrom ins fun p => if p.1 = key then reportFor q p.2 else []]
    apply congrArg Except.ok
    rw [← flatMap_ite_singleton]
    refine List.flatMap_congr fun p _ => ?_
    rw [reportFor, ← ite_and]
  refine ⟨hreports, fun digits m => ?_⟩
  rw [queryAll_eq_map, hreports]
  apply congrArg Except.ok
  dsimp only
  rw [List.flatMap_map]

/-- A table with a link from a node to itself. -/
def stale : Hash := ⟨fun _ => 3, fun _ => 3, fun _ => 0, fun _ => 5, 9⟩

/-- Three equal keys and another one of their bucket; the first value is too far away. -/
theorem queryAll_insertAll_colliding :
    (stale.clear.insertAll [(5, 10), (5, 30), (1029, 20), (5, 40)]).queryReports 5 280 =
      .ok [(41, 240), (31, 250)] :=
  (queryAll_insertAll stale [(5, 10), (5, 30), (1029, 20), (5, 40)] (by decide) (by decide) 5 280
    (by decide)).1

end JudgeDuck.Solver.Hash
