/-
  The address table as a map.

  The table is to be a map from addresses to MAC addresses: sorted, with every lookup giving the
  MAC address of the latest successful update.  It is one exactly along the runs in which no update
  brings an address above all stored ones into a table that is neither empty nor full
  (`Arp.Allowed`): the search ends at the last entry at most, so that such an address is put BEFORE
  the last entry and the table is no longer sorted.
-/
import JudgeDuck.Ducknet.Arp
import JudgeDuck.Lib.Lists

namespace JudgeDuck.Ducknet

open JudgeDuck.Lib

/-! ## The search -/

section Search

variable {ips : Nat → UInt32} {n i : Nat} {ip : UInt32}

/-- The addresses are strictly increasing. -/
def Increasing (ips : Nat → UInt32) (n : Nat) : Prop := ∀ i j, i < j → j < n → ips i < ips j

theorem Increasing.le (h : Increasing ips n) {i j : Nat} (hij : i ≤ j) (hj : j < n) :
    ips i ≤ ips j := by
  rcases Nat.lt_or_eq_of_le hij with hlt | rfl
  · exact UInt32.le_of_lt (h i j hlt hj)
  · exact UInt32.le_refl _

/-- **The search**: what it passed is below `ip`, and where it stops before the last entry is
    not. -/
theorem search_spec (ip : UInt32) (h : Increasing ips n) (hn : 0 < n) :
    search ips n ip < n ∧ (∀ i, i < search ips n ip → ips i < ip) ∧
      (search ips n ip < n - 1 → ip ≤ ips (search ips n ip)) := by
  have hmono : ∀ i j, i ≤ j → j < n → decide (ips j < ip) = true → decide (ips i < ip) = true := by
    intro i j hij hj hlt
    rw [decide_eq_true_iff] at hlt ⊢
    exact UInt32.lt_of_le_of_lt (h.le hij hj) hlt
  obtain ⟨⟨-, hle⟩, hbelow, hstop⟩ :=
    bisect_spec hmono n 0 (n - 1) (by omega) (by omega) (by omega)
  rw [← search] at hle hbelow hstop
  refine ⟨by omega, fun i hi => of_decide_eq_true (hbelow i (Nat.zero_le i) hi), fun hlt => ?_⟩
  exact UInt32.not_lt.mp (of_decide_eq_false (hstop hlt))

/-- A stored address is found. -/
theorem search_of_eq (h : Increasing ips n) (hi : i < n) (heq : ips i = ip) :
    search ips n ip = i := by
  obtain ⟨hlt, hbelow, hstop⟩ := search_spec ip h (by omega)
  rcases Nat.lt_trichotomy (search ips n ip) i with hleft | hsame | hright
  · have hle := hstop (by omega)
    rw [← heq] at hle hleft
    exact absurd (h _ i hleft hi) (UInt32.not_lt.mpr hle)
  · exact hsame
  · have := hbelow i hright
    rw [heq] at this
    exact absurd this (UInt32.lt_irrefl ip)

/-- An address that is not above all stored ones is not above the one found. -/
theorem le_search (h : Increasing ips n) (hi : i < n) (hle : ip ≤ ips i) :
    ip ≤ ips (search ips n ip) := by
  obtain ⟨hlt, -, hstop⟩ := search_spec ip h (by omega)
  by_cases hlast : search ips n ip < n - 1
  · exact hstop hlast
  · exact UInt32.le_trans hle (h.le (show i ≤ search ips n ip by omega) hlt)

/-- For an address above all stored ones the search ends at the last entry, not behind it. -/
theorem search_of_lt (h : Increasing ips n) (hn : 0 < n) (hmax : ∀ i, i < n → ips i < ip) :
    search ips n ip = n - 1 := by
  obtain ⟨hlt, -, hstop⟩ := search_spec ip h hn
  by_contra hne
  exact absurd (hmax _ hlt) (UInt32.not_lt.mpr (hstop (by omega)))

/-- In the place found for a new address there is no entry for it. -/
theorem search_miss (habsent : ∀ i, i < n → ips i ≠ ip) :
    n ≤ search ips n ip ∨ ips (search ips n ip) ≠ ip := by
  rcases Nat.lt_or_ge (search ips n ip) n with hlt | hge
  · exact Or.inr (habsent _ hlt)
  · exact Or.inl hge

/-- The place of a new address that is not above all stored ones. -/
theorem search_place (h : Increasing ips n) (habsent : ∀ i, i < n → ips i ≠ ip)
    (hmax : n = 0 ∨ ∃ i, i < n ∧ ip ≤ ips i) :
    search ips n ip ≤ n ∧ (∀ i, i < search ips n ip → ips i < ip) ∧
      ∀ i, search ips n ip ≤ i → i < n → ip < ips i := by
  rcases hmax with rfl | ⟨j, hj, hle⟩
  · refine ⟨?_, ?_, fun i _ hi => absurd hi (Nat.not_lt_zero i)⟩
    · simp [search, bisect]
    · simp [search, bisect]
  · obtain ⟨hlt, hbelow, -⟩ := search_spec ip h (by omega)
    refine ⟨Nat.le_of_lt hlt, hbelow, ?_⟩
    intro i hi hin
    have hfound := UInt32.le_trans (le_search h hj hle) (h.le hi hin)
    exact UInt32.lt_of_le_of_ne hfound fun heq => habsent i hin heq.symm

end Search

/-! ## Storing in the place found -/

section Insert

variable {α : Type} {key : α → UInt32} {tbl : Nat → α} {n l : Nat} {e : α}

theorem increasing_iff :
    Increasing (fun i => key (tbl i)) n ↔ (listOf tbl n).Pairwise fun e f => key e < key f := by
  rw [listOf_pairwise]
  rfl

/-- The table after a new entry was put in the place `l`. -/
theorem listOf_insert_at (hl : l ≤ n) :
    listOf (Function.update (memmoveUp tbl l n) l e) (n + 1) =
      listOf tbl l ++ e :: listOf (fun i => tbl (l + i)) (n - l) := by
  rw [← listOf_insert, Nat.add_sub_cancel' hl]

theorem listOf_split (hl : l ≤ n) :
    listOf tbl n = listOf tbl l ++ listOf (fun i => tbl (l + i)) (n - l) := by
  rw [← listOf_add, Nat.add_sub_cancel' hl]

theorem mem_listOf_insert {f : α} (hl : l ≤ n) :
    f ∈ listOf (Function.update (memmoveUp tbl l n) l e) (n + 1) ↔ f = e ∨ f ∈ listOf tbl n := by
  rw [listOf_insert_at hl, listOf_split hl, List.mem_append, List.mem_cons, List.mem_append]
  exact or_left_comm

/-- An entry between smaller and greater ones. -/
theorem increasing_insert (h : Increasing (fun i => key (tbl i)) n) (hl : l ≤ n)
    (hbelow : ∀ i, i < l → key (tbl i) < key e)
    (habove : ∀ i, l ≤ i → i < n → key e < key (tbl i)) :
    Increasing (fun i => key (Function.update (memmoveUp tbl l n) l e i)) (n + 1) := by
  rw [increasing_iff, listOf_split hl] at h
  rw [increasing_iff, listOf_insert_at hl]
  refine pairwise_insert h ?_ ?_
  · intro f hf
    rcases mem_listOf.mp hf with ⟨i, hi, rfl⟩
    exact hbelow i hi
  · intro f hf
    rcases mem_listOf.mp hf with ⟨i, hi, rfl⟩
    exact habove (l + i) (by omega) (by omega)

end Insert

/-! ## The table -/

/-- The entries of the table. -/
def Arp.entries (a : Arp) : List ArpEntry := listOf a.arpTable a.nArpEntries

/-- The entries are strictly increasing by address. -/
def Arp.Sorted (a : Arp) : Prop := Increasing (fun i => (a.arpTable i).ip) a.nArpEntries

section Table

variable {a a' : Arp} {ip : UInt32} {mac : MacAddress} {currenttime tscFreq : UInt64}

/-- The absence of an address, by positions. -/
theorem forall_ip_ne (habsent : ∀ e ∈ a.entries, e.ip ≠ ip) :
    ∀ i, i < a.nArpEntries → (a.arpTable i).ip ≠ ip :=
  fun i hi => habsent _ (mem_listOf.mpr ⟨i, hi, rfl⟩)

theorem sorted_iff : a.Sorted ↔ a.entries.Pairwise fun e f => e.ip < f.ip := increasing_iff

theorem Arp.Sorted.unique (h : a.Sorted) {i j : Nat} (hi : i < a.nArpEntries)
    (hj : j < a.nArpEntries) (heq : (a.arpTable i).ip = (a.arpTable j).ip) : i = j :=
  (search_of_eq h hi heq).symm.trans (search_of_eq h hj rfl)

/-- **`lookup`** in a sorted table. -/
theorem lookup_eq_some (h : a.Sorted) :
    a.lookup ip = some mac ↔ ∃ e ∈ a.entries, e.ip = ip ∧ e.mac = mac := by
  rw [Arp.lookup]
  constructor
  · intro hfound
    split at hfound
    · nomatch hfound
    · rename_i hhit
      rw [not_or, Nat.not_le, not_not] at hhit
      exact ⟨_, mem_listOf.mpr ⟨_, hhit.1, rfl⟩, hhit.2, Option.some.inj hfound⟩
  · rintro ⟨e, he, hip, rfl⟩
    obtain ⟨i, hi, rfl⟩ := mem_listOf.mp he
    rw [search_of_eq h hi hip, if_neg (by simp [hip, hi])]

/-- The table with one more entry, in the place of an old one for the same address. -/
structure Stored (a a' : Arp) (e : ArpEntry) : Prop where
  sorted : a'.Sorted
  mem : ∀ f, f ∈ a'.entries ↔ f = e ∨ f ∈ a.entries ∧ f.ip ≠ e.ip
  count : a'.nArpEntries ≤ arpTableSize

/-- An entry stored shows in the lookups of its address, and in no others. -/
theorem Stored.lookup {e : ArpEntry} (h : Stored a a' e) (ha : a.Sorted) :
    a'.lookup = Function.update a.lookup e.ip (some e.mac) := by
  funext ip
  by_cases hip : ip = e.ip
  · subst hip
    rw [Function.update_self]
    exact (lookup_eq_some h.sorted).mpr ⟨e, (h.mem e).mpr (Or.inl rfl), rfl, rfl⟩
  · rw [Function.update_of_ne hip]
    refine Option.ext fun mac => ?_
    rw [lookup_eq_some h.sorted, lookup_eq_some ha]
    constructor
    · rintro ⟨f, hf, hfip, hmac⟩
      rcases (h.mem f).mp hf with rfl | ⟨hold, -⟩
      · exact absurd hfip.symm hip
      · exact ⟨f, hold, hfip, hmac⟩
    · rintro ⟨f, hf, rfl, hmac⟩
      exact ⟨f, (h.mem f).mpr (Or.inr ⟨hf, hip⟩), rfl, hmac⟩

/-- Overwriting the entry of a stored address. -/
theorem stored_overwrite {e : ArpEntry} {i : Nat} (h : a.Sorted)
    (hcount : a.nArpEntries ≤ arpTableSize)
    (hi : i < a.nArpEntries) (hip : (a.arpTable i).ip = e.ip) :
    Stored a { a with arpTable := Function.update a.arpTable i e } e := by
  have hips : (fun j => (Function.update a.arpTable i e j).ip) = fun j => (a.arpTable j).ip := by
    funext j
    by_cases hj : j = i
    · rw [hj, Function.update_self, hip]
    · rw [Function.update_of_ne hj]
  refine ⟨?_, fun f => ?_, hcount⟩
  · show Increasing (fun j => (Function.update a.arpTable i e j).ip) a.nArpEntries
    rw [hips]
    exact h
  · simp only [Arp.entries, mem_listOf]
    constructor
    · rintro ⟨j, hj, rfl⟩
      by_cases hji : j = i
      · left
        rw [hji, Function.update_self]
      · right
        rw [Function.update_of_ne hji]
        exact ⟨⟨j, hj, rfl⟩, fun hsame => hji (h.unique hj hi (hsame.trans hip.symm))⟩
    · rintro (rfl | ⟨⟨j, hj, rfl⟩, hne⟩)
      · exact ⟨i, hi, Function.update_self _ _ _⟩
      · refine ⟨j, hj, Function.update_of_ne ?_ _ _⟩
        rintro rfl
        exact hne hip

/-- Putting an entry between smaller and greater addresses. -/
theorem stored_insert {e : ArpEntry} {l : Nat} (h : a.Sorted)
    (hcount : a.nArpEntries < arpTableSize) (habsent : ∀ f ∈ a.entries, f.ip ≠ e.ip)
    (hl : l ≤ a.nArpEntries) (hbelow : ∀ i, i < l → (a.arpTable i).ip < e.ip)
    (habove : ∀ i, l ≤ i → i < a.nArpEntries → e.ip < (a.arpTable i).ip) :
    Stored a { a with
      arpTable := Function.update (memmoveUp a.arpTable l a.nArpEntries) l e
      nArpEntries := a.nArpEntries + 1 } e := by
  refine ⟨increasing_insert h hl hbelow habove, fun f => ?_, hcount⟩
  rw [Arp.entries, mem_listOf_insert hl]
  exact or_congr_right ⟨fun hf => ⟨hf, habsent f hf⟩, fun hf => hf.1⟩

/-! ### `update` -/

variable (currenttime tscFreq mac)

/-- **`update`** of a stored address. -/
theorem update_present (h : a.Sorted) (hcount : a.nArpEntries ≤ arpTableSize) {e : ArpEntry}
    (he : e ∈ a.entries) (hip : e.ip = ip) : ∃ a', a.update currenttime tscFreq ip mac = (a', 0) ∧
      Stored a a' ⟨ip, mac, timeAddMs tscFreq currenttime arpExpireTimeoutMs⟩ := by
  rcases mem_listOf.mp he with ⟨i, hi, rfl⟩
  refine ⟨_, ?_, stored_overwrite h hcount hi hip⟩
  simp only [Arp.update, search_of_eq h hi hip]
  rw [if_neg (by simp [hip, hi])]

/-- **`update`** of a new address in a full table fails. -/
theorem update_full (habsent : ∀ e ∈ a.entries, e.ip ≠ ip) (hfull : a.nArpEntries = arpTableSize) :
    a.update currenttime tscFreq ip mac = (a, -1) := by
  simp only [Arp.update]
  rw [if_pos (search_miss (forall_ip_ne habsent)), if_pos hfull]

/-- **`update`** of a new address that is not above all stored ones. -/
theorem update_new (h : a.Sorted) (hcount : a.nArpEntries < arpTableSize)
    (habsent : ∀ e ∈ a.entries, e.ip ≠ ip)
    (hmax : a.nArpEntries = 0 ∨ ∃ e ∈ a.entries, ip ≤ e.ip) :
    ∃ a', a.update currenttime tscFreq ip mac = (a', 0) ∧
      Stored a a' ⟨ip, mac, timeAddMs tscFreq currenttime arpExpireTimeoutMs⟩ := by
  have hbound : a.nArpEntries = 0 ∨ ∃ i, i < a.nArpEntries ∧ ip ≤ (a.arpTable i).ip := by
    rcases hmax with hzero | ⟨e, he, hle⟩
    · exact Or.inl hzero
    · rcases mem_listOf.mp he with ⟨i, hi, rfl⟩
      exact Or.inr ⟨i, hi, hle⟩
  obtain ⟨hl, hbelow, habove⟩ :=
    search_place h (forall_ip_ne habsent) hbound
  refine ⟨_, ?_, stored_insert h hcount habsent hl hbelow habove⟩
  simp only [Arp.update]
  rw [if_pos (search_miss (forall_ip_ne habsent)), if_neg (by omega)]

/-- **`update`** of an address above all stored ones, where there is room: the table is no longer
    sorted. -/
theorem update_max (h : a.Sorted) (hpos : 0 < a.nArpEntries) (hcount : a.nArpEntries < arpTableSize)
    (hmax : ∀ e ∈ a.entries, e.ip < ip) : ¬ (a.update currenttime tscFreq ip mac).1.Sorted := by
  have hlast : search (fun i => (a.arpTable i).ip) a.nArpEntries ip = a.nArpEntries - 1 :=
    search_of_lt h hpos fun i hi => hmax _ (mem_listOf.mpr ⟨i, hi, rfl⟩)
  have habsent : ∀ e ∈ a.entries, e.ip ≠ ip :=
    fun e he heq => UInt32.lt_irrefl ip (heq ▸ hmax e he)
  have hlt : (a.arpTable (a.nArpEntries - 1)).ip < ip :=
    hmax _ (mem_listOf.mpr ⟨_, by omega, rfl⟩)
  intro hsorted
  simp only [Arp.update] at hsorted
  rw [if_pos (search_miss (forall_ip_ne habsent)), if_neg (by omega), hlast, sorted_iff, Arp.entries,
    listOf_insert_at (by omega)] at hsorted
  -- the new address stands before the last entry
  have hbefore := (List.pairwise_cons.mp (List.pairwise_append.mp hsorted).2.1).1
    (a.arpTable (a.nArpEntries - 1)) (mem_listOf.mpr ⟨0, by omega, rfl⟩)
  exact UInt32.lt_asymm hlt hbefore

end Table

/-! ## `idle` -/

/-- **`idle`** keeps the entries: they never expire. -/
theorem idle_entries (a : Arp) (currenttime : UInt64) :
    (a.idle currenttime).entries = a.entries := by
  unfold Arp.idle
  split
  · rfl
  · have hkeep : ∀ e ∈ a.entries,
        (!(!arpNeverExpire && decide (currenttime > e.expireTime))) = true := fun _ _ => rfl
    exact (listOf_compact _ _ _).trans (List.filter_eq_self.mpr hkeep)

theorem idle_lookup {a : Arp} (currenttime : UInt64) (h : a.Sorted) :
    (a.idle currenttime).Sorted ∧ (a.idle currenttime).lookup = a.lookup ∧
      (a.idle currenttime).nArpEntries = a.nArpEntries := by
  have hentries := idle_entries a currenttime
  have hsorted : (a.idle currenttime).Sorted := by
    rw [sorted_iff] at h ⊢
    rwa [hentries]
  refine ⟨hsorted, ?_, ?_⟩
  · funext ip
    refine Option.ext fun mac => ?_
    rw [lookup_eq_some hsorted, lookup_eq_some h, hentries]
  · simpa [Arp.entries] using congrArg List.length hentries

/-! ## Runs -/

/-- A call of `ducknet_arp_update` or `ducknet_arp_idle`, with `ducknet_currenttime` at that
    time. -/
inductive ArpEvent where
  | update (currenttime : UInt64) (ip : UInt32) (mac : MacAddress)
  | idle (currenttime : UInt64)

/-- One call, with its result. -/
def Arp.step (tscFreq : UInt64) (a : Arp) : ArpEvent → Arp × Int
  | .update currenttime ip mac => a.update currenttime tscFreq ip mac
  | .idle currenttime => (a.idle currenttime, 0)

/-- What the table stands for: the MAC address of the latest successful update of each address. -/
def MacMap : Type := UInt32 → Option MacAddress

/-- A call on the map: an update that returns 0 binds the address. -/
def MacMap.step (A : MacMap) : ArpEvent → Int → MacMap
  | .update _ ip mac, r => if r = 0 then Function.update A ip (some mac) else A
  | .idle _, _ => A

/-- A hundred distinct addresses other than `ip` are stored. -/
def Arp.FullWithout (a : Arp) (ip : UInt32) : Prop :=
  ∃ ips : List UInt32, ips.Nodup ∧ ips.length = 100 ∧ ip ∉ ips ∧
    ∀ i ∈ ips, ∃ e ∈ a.entries, e.ip = i

/-- An update fails only in a table full of other addresses. -/
def Arp.FailsOnlyIfFull (a : Arp) : ArpEvent → Int → Prop
  | .update _ ip _, r => r ≠ 0 → a.FullWithout ip
  | .idle _, _ => True

/-- The table is sorted and its lookups are those of the map. -/
def Arp.Tracks (a : Arp) (A : MacMap) : Prop := a.Sorted ∧ ∀ ip, a.lookup ip = A ip

/-- **The table is a map** before, between and after the calls of a run. -/
def Arp.IsMap (tscFreq : UInt64) : Arp → MacMap → List ArpEvent → Prop
  | a, A, [] => a.Tracks A
  | a, A, e :: es => a.Tracks A ∧ a.FailsOnlyIfFull e (a.step tscFreq e).2 ∧
      Arp.IsMap tscFreq (a.step tscFreq e).1 (A.step e (a.step tscFreq e).2) es

/-- The calls that do not bring an address above all stored ones into a table that is neither empty
    nor full. -/
def Arp.Allowed (a : Arp) : ArpEvent → Prop
  | .update _ ip _ => a.nArpEntries = 0 ∨ a.nArpEntries = arpTableSize ∨ ∃ e ∈ a.entries, ip ≤ e.ip
  | .idle _ => True

/-- Every call of the run is allowed in the state before it. -/
def Arp.AllAllowed (tscFreq : UInt64) : Arp → List ArpEvent → Prop
  | _, [] => True
  | a, e :: es => a.Allowed e ∧ Arp.AllAllowed tscFreq (a.step tscFreq e).1 es

section Runs

variable {a : Arp} {A : MacMap} {tscFreq : UInt64}

theorem Stored.tracks {a' : Arp} {e : ArpEntry} (h : Stored a a' e) (ha : a.Tracks A) :
    a'.Tracks (Function.update A e.ip (some e.mac)) := by
  refine ⟨h.sorted, fun ip => ?_⟩
  rw [h.lookup ha.1, show a.lookup = A from funext ha.2]

theorem fullWithout_of_sorted {ip : UInt32} (h : a.Sorted) (hfull : a.nArpEntries = arpTableSize)
    (habsent : ∀ e ∈ a.entries, e.ip ≠ ip) : a.FullWithout ip := by
  refine ⟨a.entries.map ArpEntry.ip, ?_, ?_, ?_, ?_⟩
  · rw [sorted_iff] at h
    exact List.pairwise_map.mpr (h.imp fun hlt => UInt32.ne_of_lt hlt)
  · rw [List.length_map, Arp.entries, length_listOf, hfull]
    rfl
  · intro hmem
    rcases List.mem_map.mp hmem with ⟨e, he, hip⟩
    exact habsent e he hip
  · intro i hi
    exact List.mem_map.mp hi

/-- **An allowed call** is a step of the map. -/
theorem step_tracks {e : ArpEvent} (ha : a.Tracks A) (hcount : a.nArpEntries ≤ arpTableSize)
    (hok : a.Allowed e) : (a.step tscFreq e).1.Tracks (A.step e (a.step tscFreq e).2) ∧
      a.FailsOnlyIfFull e (a.step tscFreq e).2 ∧
      (a.step tscFreq e).1.nArpEntries ≤ arpTableSize := by
  cases e with
  | idle currenttime =>
    obtain ⟨hsorted, hlookup, hn⟩ := idle_lookup currenttime ha.1
    refine ⟨⟨hsorted, fun ip => ?_⟩, trivial, hn.trans_le hcount⟩
    exact (congrFun hlookup ip).trans (ha.2 ip)
  | update currenttime ip mac =>
    by_cases hpresent : ∃ e ∈ a.entries, e.ip = ip
    · obtain ⟨e, he, hip⟩ := hpresent
      obtain ⟨a', hrun, hstored⟩ := update_present mac currenttime tscFreq ha.1 hcount he hip
      simp only [Arp.step, hrun]
      exact ⟨hstored.tracks ha, fun h => absurd rfl h, hstored.count⟩
    have habsent : ∀ e ∈ a.entries, e.ip ≠ ip := fun e he hip => hpresent ⟨e, he, hip⟩
    by_cases hfull : a.nArpEntries = arpTableSize
    · simp only [Arp.step, update_full mac currenttime tscFreq habsent hfull]
      exact ⟨ha, fun _ => fullWithout_of_sorted ha.1 hfull habsent, hcount⟩
    · have hmax : a.nArpEntries = 0 ∨ ∃ e ∈ a.entries, ip ≤ e.ip := by
        rcases hok with hzero | hsize | hle
        · exact Or.inl hzero
        · exact absurd hsize hfull
        · exact Or.inr hle
      obtain ⟨a', hrun, hstored⟩ :=
        update_new mac currenttime tscFreq ha.1 (by omega) habsent hmax
      simp only [Arp.step, hrun]
      exact ⟨hstored.tracks ha, fun h => absurd rfl h, hstored.count⟩

/-- **A call that is not allowed** leaves a table that is not sorted. -/
theorem step_not_sorted {e : ArpEvent} (ha : a.Sorted) (hcount : a.nArpEntries ≤ arpTableSize)
    (hok : ¬ a.Allowed e) : ¬ (a.step tscFreq e).1.Sorted := by
  cases e with
  | idle currenttime => exact absurd trivial hok
  | update currenttime ip mac =>
    simp only [Arp.Allowed, not_or, not_exists, not_and, UInt32.not_le] at hok
    obtain ⟨hzero, hfull, hmax⟩ := hok
    exact update_max mac currenttime tscFreq ha (by omega) (by omega) hmax

/-- Along a run from a table that is a map: it stays one iff every call is allowed. -/
theorem isMap_iff_of_tracks {es : List ArpEvent} (ha : a.Tracks A)
    (hcount : a.nArpEntries ≤ arpTableSize) : a.IsMap tscFreq A es ↔ a.AllAllowed tscFreq es := by
  induction es generalizing a A with
  | nil => exact ⟨fun _ => trivial, fun _ => ha⟩
  | cons e es ih =>
    rw [Arp.IsMap, Arp.AllAllowed]
    constructor
    · rintro ⟨-, -, hrest⟩
      -- the state after the call is the first of the rest of the run
      have hsorted : (a.step tscFreq e).1.Sorted := by
        cases es with
        | nil => exact hrest.1
        | cons e' es => exact hrest.1.1
      have hok : a.Allowed e := by
        by_contra hno
        exact step_not_sorted ha.1 hcount hno hsorted
      obtain ⟨htracks, -, hcount'⟩ := step_tracks ha hcount hok
      exact ⟨hok, (ih htracks hcount').mp hrest⟩
    · rintro ⟨hok, hrest⟩
      obtain ⟨htracks, hfails, hcount'⟩ := step_tracks ha hcount hok
      exact ⟨ha, hfails, (ih htracks hcount').mpr hrest⟩

/-- **The address table is a map** along a run from `init` iff no update of the run brings an
    address above all stored ones into a table that is neither empty nor full. -/
theorem arp_isMap_iff (raw : Arp) (currenttime tscFreq : UInt64) (es : List ArpEvent) :
    (raw.init currenttime tscFreq).IsMap tscFreq (fun _ => none) es ↔
      (raw.init currenttime tscFreq).AllAllowed tscFreq es := by
  refine isMap_iff_of_tracks ⟨?_, fun ip => ?_⟩ (Nat.zero_le _)
  · intro i j _ hj
    exact absurd hj (Nat.not_lt_zero j)
  · simp [Arp.lookup, Arp.init]

end Runs

/-! ### Two updates -/

/-- The variables as the program starts. -/
def zeroArp : Arp where
  arpTable _ := ⟨0, ⟨0, 0, 0, 0, 0, 0⟩, 0⟩
  nArpEntries := 0
  arpQueryTable _ := ⟨0, 0⟩
  nArpQueries := 0
  lastIdleTime := 0
  idleDelay := 0
  cnt := 0

/-- In descending order, the updates of two addresses are allowed, and so is a third one that
    renews the greater address. -/
theorem arp_isMap_descending : (zeroArp.init 0 1000).IsMap 1000 (fun _ => none)
    [.update 1 20 ⟨2, 0, 0, 0, 0, 20⟩, .update 2 10 ⟨2, 0, 0, 0, 0, 10⟩, .idle 3,
      .update 4 20 ⟨2, 0, 0, 0, 0, 21⟩] := by
  refine (arp_isMap_iff zeroArp 0 1000 _).mpr ⟨Or.inl rfl, Or.inr (Or.inr ?_), trivial,
    Or.inr (Or.inr ?_), trivial⟩
  · exact ⟨⟨20, ⟨2, 0, 0, 0, 0, 20⟩, 30001⟩, by decide +kernel, by decide +kernel⟩
  · exact ⟨⟨20, ⟨2, 0, 0, 0, 0, 20⟩, 30001⟩, by decide +kernel, by decide +kernel⟩

/-- **In ascending order they are not**: the greater address is put before the smaller one, and the
    smaller one is no longer found. -/
theorem arp_ascending_lost :
    let a := ((zeroArp.init 0 1000).step 1000 (.update 1 10 ⟨2, 0, 0, 0, 0, 10⟩)).1
    let a := (a.step 1000 (.update 2 20 ⟨2, 0, 0, 0, 0, 20⟩)).1
    a.entries.map ArpEntry.ip = [20, 10] ∧ a.lookup 10 = none := by
  decide +kernel

end JudgeDuck.Ducknet
