/-
  The table of open queries.

  `ducknet_arp_query` broadcasts a request and stores the address with a time; as long as it is
  stored, further queries for it are not sent.  `ducknet_arp_idle` drops what has expired.

  1. **One call** (`queryStep_cases`): a query is broadcast and stored if the search does not find the
     address and the table has room; all other queries do nothing.

  2. **Sorted tables.**  In one, the search finds every stored address (`Arp.absent_of_miss`), so that
     no address is stored twice and a request is repeated only after the stored one has expired
     (`queryRun_kept`).

  3. **The tables that are not.**  As in the address table, an address above all stored ones is put
     before the last entry (`Arp.QueryAllowed` excludes it), and the last entry is then not found.
-/
import JudgeDuck.Ducknet.RoundTrip

namespace JudgeDuck.Ducknet

open JudgeDuck.Lib

/-! ## The calls -/

/-- The open queries. -/
def Arp.queries (a : Arp) : List ArpQuery := listOf a.arpQueryTable a.nArpQueries

/-- Where `ducknet_arp_query` looks for `ip`. -/
def Arp.queryPlace (a : Arp) (ip : UInt32) : Nat :=
  search (fun i => (a.arpQueryTable i).ip) a.nArpQueries ip

/-- `ip` is not found there. -/
def Arp.Miss (a : Arp) (ip : UInt32) : Prop :=
  a.nArpQueries ≤ a.queryPlace ip ∨ (a.arpQueryTable (a.queryPlace ip)).ip ≠ ip

/-- A call of `ducknet_arp_query` or `ducknet_arp_idle`, with `ducknet_currenttime` at that time. -/
inductive QueryEvent where
  | query (currenttime : UInt64) (ip : UInt32)
  | idle (currenttime : UInt64)

def QueryEvent.time : QueryEvent → UInt64
  | .query currenttime _ => currenttime
  | .idle currenttime => currenttime

/-- One call. -/
def queryStep (s : Stack) : QueryEvent → Stack
  | .query currenttime ip => (arpQuery { s with currenttime := currenttime } ip).1
  | .idle currenttime => { s with currenttime := currenttime, arp := s.arp.idle currenttime }

/-- One call after the other. -/
def queryRun (s : Stack) (es : List QueryEvent) : Stack := es.foldl queryStep s

/-- The request for `ip`. -/
def requestFrame (s : Stack) (ip : UInt32) : List UInt8 :=
  arpHeaders etherBroadcastAddr s.mac arpRequest ++ queryPayload s ip

/-- The call passes the request for `ip` to `ducknet_phy_send`. -/
def Broadcasts (s : Stack) (e : QueryEvent) (ip : UInt32) : Prop :=
  (queryStep s e).phy.calls = s.phy.calls ++ [⟨.sendbuf, requestFrame s ip⟩]

instance (s : Stack) (e : QueryEvent) (ip : UInt32) : Decidable (Broadcasts s e ip) :=
  inferInstanceAs (Decidable (_ = _))

section Calls

variable {s : Stack} {a : Arp} {e : QueryEvent} {ip : UInt32} {t : UInt64}

/-- The frame that `ducknet_arp_send` passes on. -/
theorem arpSend_spec (s : Stack) (dst : MacAddress) (op : UInt16) {content : List UInt8}
    (hlen : content.length ≤ 1492) :
    ∃ sendbuf phy, (arpSend s dst op (fun t => content.getD t 0) content.length).1 =
        { s with sendbuf := sendbuf, phy := phy } ∧
      phy.calls = s.phy.calls ++ [⟨.sendbuf, arpHeaders dst s.mac op ++ content⟩] := by
  have hsize : (sizeofArpHeader : Int) = 8 := rfl
  have hmtu : ducknetMTU = 1500 := rfl
  rw [arpSend, if_neg (by omega), if_neg (by omega), Int.toNat_natCast]
  obtain ⟨phy, hphy, hcalls⟩ := phySend_spec
    { s with
      sendbuf := memcpy (putBytes s.sendbuf 0 (arpHeaders dst s.mac op))
        (sizeofEtherHeader + sizeofArpHeader) (fun t => content.getD t 0) content.length } .sendbuf
    (content.length + sizeofArpHeader + sizeofEtherHeader)
  refine ⟨_, phy, hphy, hcalls.trans ?_⟩
  have hframe : listOf (memcpy (putBytes s.sendbuf 0 (arpHeaders dst s.mac op)) 22
      (fun t => content.getD t 0) content.length) (22 + content.length) =
      arpHeaders dst s.mac op ++ content := by
    have hheaders := listOf_putBytes s.sendbuf 0 (arpHeaders dst s.mac op)
    simp only [Nat.zero_add] at hheaders
    rw [listOf_add, listOf_memcpy, listOf_getD]
    refine congrArg (· ++ content) (Eq.trans (listOf_congr fun t ht => ?_) hheaders)
    exact memcpy_of_lt ht
  rw [← hframe]
  have hlength : ((content.length : Int) + sizeofArpHeader + sizeofEtherHeader).toNat =
      22 + content.length := by
    show ((content.length : Int) + 8 + 14).toNat = 22 + content.length
    omega
  rw [hlength]
  rfl

theorem le32_injective {x y : UInt32} (h : le32 x = le32 y) : x = y := by
  have hx : readU32 (fun t => (le32 x).getD t 0) 0 = x :=
    readU32_eq (listOf_getD (le32 x) 0) (Nat.lt_succ_self 3) rfl rfl rfl rfl
  have hy : readU32 (fun t => (le32 y).getD t 0) 0 = y :=
    readU32_eq (listOf_getD (le32 y) 0) (Nat.lt_succ_self 3) rfl rfl rfl rfl
  rw [← hx, ← hy, h]

theorem requestFrame_injective {ip' : UInt32} (h : requestFrame s ip = requestFrame s ip') :
    ip = ip' := by
  have hpayload := List.append_cancel_left h
  have htpa : le32 (htonl ip) = le32 (htonl ip') := List.append_cancel_left hpayload
  have hswap := congrArg htonl (le32_injective htpa)
  rwa [htonl_htonl, htonl_htonl] at hswap

theorem arpQuery_found (h : ¬ s.arp.Miss ip) : arpQuery s ip = (s, 0) := if_neg h

/-- A full table refuses, and nothing is sent. -/
theorem arpQuery_full (h : s.arp.Miss ip) (hfull : s.arp.nArpQueries = arpTableSize) :
    arpQuery s ip = (s, -1) := (if_pos h).trans (if_pos hfull)

/-- A query that is stored and sent. -/
theorem arpQuery_new (h : s.arp.Miss ip) (hroom : s.arp.nArpQueries ≠ arpTableSize) :
    ∃ sendbuf phy, phy.calls = s.phy.calls ++ [⟨.sendbuf, requestFrame s ip⟩] ∧
      (arpQuery s ip).1 = { s with
        sendbuf := sendbuf, phy := phy
        arp := s.arp.addQuery (s.arp.queryPlace ip)
          ⟨ip, timeAddMs s.tscFreq s.currenttime arpQueryTimeoutMs⟩ } := by
  have hlen : (queryPayload s ip).length ≤ 1492 := Nat.le_add_left 20 1472
  obtain ⟨sendbuf, phy, hsend, hcalls⟩ := arpSend_spec
    { s with
      arp := s.arp.addQuery (s.arp.queryPlace ip)
        ⟨ip, timeAddMs s.tscFreq s.currenttime arpQueryTimeoutMs⟩ }
    etherBroadcastAddr arpRequest hlen
  have hnew : arpQuery s ip = _ := (if_pos h).trans (if_neg hroom)
  exact ⟨sendbuf, phy, hcalls, (congrArg Prod.fst hnew).trans hsend⟩

/-- **What a call does.** -/
theorem queryStep_cases (s : Stack) (e : QueryEvent) :
    (∃ t ip, e = .query t ip ∧ s.arp.Miss ip ∧ s.arp.nArpQueries ≠ arpTableSize ∧
      ∃ sendbuf phy, phy.calls = s.phy.calls ++ [⟨.sendbuf, requestFrame s ip⟩] ∧
        queryStep s e = { s with
          currenttime := t, sendbuf := sendbuf, phy := phy
          arp := s.arp.addQuery (s.arp.queryPlace ip)
            ⟨ip, timeAddMs s.tscFreq t arpQueryTimeoutMs⟩ }) ∨
    (∃ t ip, e = .query t ip ∧ queryStep s e = { s with currenttime := t }) ∨
    ∃ t, e = .idle t ∧ queryStep s e = { s with currenttime := t, arp := s.arp.idle t } := by
  cases e with
  | idle t => exact Or.inr (Or.inr ⟨t, rfl, rfl⟩)
  | query t ip =>
    let s' : Stack := { s with currenttime := t }
    by_cases hmiss : s.arp.Miss ip
    · by_cases hfull : s.arp.nArpQueries = arpTableSize
      · exact Or.inr (Or.inl ⟨t, ip, rfl, congrArg Prod.fst (@arpQuery_full s' ip hmiss hfull)⟩)
      · exact Or.inl ⟨t, ip, rfl, hmiss, hfull, @arpQuery_new s' ip hmiss hfull⟩
    · exact Or.inr (Or.inl ⟨t, ip, rfl, congrArg Prod.fst (@arpQuery_found s' ip hmiss)⟩)

end Calls

/-! ## Sorted tables -/

/-- The queries are strictly increasing by address, and they are not more than the table holds. -/
structure Arp.QueriesSorted (a : Arp) : Prop where
  increasing : Increasing (fun i => (a.arpQueryTable i).ip) a.nArpQueries
  count : a.nArpQueries ≤ arpTableSize

/-- The calls that do not bring an address above all stored ones into a table that is neither empty
    nor full. -/
def Arp.QueryAllowed (a : Arp) : QueryEvent → Prop
  | .query _ ip => a.nArpQueries = 0 ∨ a.nArpQueries = arpTableSize ∨ ∃ q ∈ a.queries, ip ≤ q.ip
  | .idle _ => True

section Sorted

variable {s : Stack} {a : Arp} {e : QueryEvent} {q : ArpQuery} {ip : UInt32} {t : UInt64}

theorem Arp.QueriesSorted.nodup (h : a.QueriesSorted) : (a.queries.map ArpQuery.ip).Nodup := by
  have hpairs : a.queries.Pairwise fun q r => q.ip < r.ip := increasing_iff.mp h.increasing
  exact List.pairwise_map.mpr (hpairs.imp fun hlt => UInt32.ne_of_lt hlt)

/-- **What is not found is not stored.** -/
theorem Arp.absent_of_miss (h : a.QueriesSorted) (hmiss : a.Miss ip) :
    ∀ q ∈ a.queries, q.ip ≠ ip := by
  intro q hq heq
  obtain ⟨i, hi, rfl⟩ := mem_listOf.mp hq
  have hplace : a.queryPlace ip = i := search_of_eq h.increasing hi heq
  rw [Arp.Miss, hplace] at hmiss
  rcases hmiss with hge | hne
  · omega
  · exact hne heq

/-- **A new query in its place.** -/
theorem addQuery_spec (expire : UInt64) (h : a.QueriesSorted) (hmiss : a.Miss ip)
    (hroom : a.nArpQueries ≠ arpTableSize) (hok : a.QueryAllowed (.query t ip)) :
    (a.addQuery (a.queryPlace ip) ⟨ip, expire⟩).QueriesSorted ∧
      ∀ q, q ∈ (a.addQuery (a.queryPlace ip) ⟨ip, expire⟩).queries ↔
        q = ⟨ip, expire⟩ ∨ q ∈ a.queries := by
  have hcount := h.count
  have habsent : ∀ i, i < a.nArpQueries → (a.arpQueryTable i).ip ≠ ip :=
    fun i hi => Arp.absent_of_miss h hmiss _ (mem_listOf.mpr ⟨i, hi, rfl⟩)
  have hmax : a.nArpQueries = 0 ∨ ∃ i, i < a.nArpQueries ∧ ip ≤ (a.arpQueryTable i).ip := by
    rcases hok with hzero | hfull | ⟨q, hq, hle⟩
    · exact Or.inl hzero
    · exact absurd hfull hroom
    · obtain ⟨i, hi, rfl⟩ := mem_listOf.mp hq
      exact Or.inr ⟨i, hi, hle⟩
  obtain ⟨hl, hbelow, habove⟩ := search_place h.increasing habsent hmax
  refine ⟨⟨increasing_insert h.increasing hl hbelow habove, ?_⟩, fun q => mem_listOf_insert hl⟩
  exact Nat.succ_le_of_lt (Nat.lt_of_le_of_ne hcount hroom)

/-- **`idle`** drops only what has expired. -/
theorem idle_queries (a : Arp) (t : UInt64) :
    (a.idle t).queries = a.queries ∨
      (a.idle t).queries = a.queries.filter fun q => !decide (t > q.expireTime) := by
  rw [Arp.idle]
  split
  · exact Or.inl rfl
  · exact Or.inr (listOf_compact _ _ _)

/-- `ducknet_arp_idle` only takes queries out. -/
theorem idle_sublist (a : Arp) (t : UInt64) : (a.idle t).queries.Sublist a.queries := by
  rcases idle_queries a t with heq | heq
  · rw [heq]
  · rw [heq]
    exact List.filter_sublist

theorem Arp.QueriesSorted.idle (h : a.QueriesSorted) (t : UInt64) : (a.idle t).QueriesSorted := by
  have hsub := idle_sublist a t
  constructor
  · exact increasing_iff.mpr (List.Pairwise.sublist hsub (increasing_iff.mp h.increasing))
  · have hlen := hsub.length_le
    rw [Arp.queries, Arp.queries, length_listOf, length_listOf] at hlen
    exact Nat.le_trans hlen h.count

theorem idle_kept (hq : q ∈ a.queries) : q ∈ (a.idle t).queries ∨ q.expireTime < t := by
  rcases idle_queries a t with heq | heq
  · rw [heq]
    exact Or.inl hq
  · rw [heq, List.mem_filter]
    by_cases hexpired : q.expireTime < t
    · exact Or.inr hexpired
    · exact Or.inl ⟨hq, by simpa using hexpired⟩

/-! ## One call -/

/-- **A call that is allowed** keeps the table sorted. -/
theorem queryStep_sorted (h : s.arp.QueriesSorted) (hok : s.arp.QueryAllowed e) :
    (queryStep s e).arp.QueriesSorted := by
  rcases queryStep_cases s e with ⟨t, ip, rfl, hmiss, hroom, sendbuf, phy, -, hstep⟩ |
    ⟨t, ip, rfl, hstep⟩ | ⟨t, rfl, hstep⟩
  · rw [hstep]
    exact (addQuery_spec _ h hmiss hroom hok).1
  · rw [hstep]
    exact h
  · rw [hstep]
    exact h.idle t

/-- A query stays until it has expired. -/
theorem queryStep_kept (h : s.arp.QueriesSorted) (hok : s.arp.QueryAllowed e)
    (hq : q ∈ s.arp.queries) : q ∈ (queryStep s e).arp.queries ∨ q.expireTime < e.time := by
  rcases queryStep_cases s e with ⟨t, ip, rfl, hmiss, hroom, sendbuf, phy, -, hstep⟩ |
    ⟨t, ip, rfl, hstep⟩ | ⟨t, rfl, hstep⟩
  · rw [hstep]
    exact Or.inl (((addQuery_spec _ h hmiss hroom hok).2 q).mpr (Or.inr hq))
  · rw [hstep]
    exact Or.inl hq
  · rw [hstep]
    exact idle_kept hq

theorem queryStep_tscFreq (s : Stack) (e : QueryEvent) : (queryStep s e).tscFreq = s.tscFreq := by
  rcases queryStep_cases s e with ⟨t, ip, rfl, hmiss, hroom, sendbuf, phy, -, hstep⟩ |
    ⟨t, ip, rfl, hstep⟩ | ⟨t, rfl, hstep⟩
  all_goals rw [hstep]

/-- **A request is sent** for an address that is not found, and it is stored. -/
theorem Broadcasts.spec (h : Broadcasts s e ip) :
    s.arp.Miss ip ∧ ∃ t, e = .query t ip ∧ s.arp.nArpQueries ≠ arpTableSize ∧
      (queryStep s e).arp = s.arp.addQuery (s.arp.queryPlace ip)
        ⟨ip, timeAddMs s.tscFreq t arpQueryTimeoutMs⟩ := by
  rw [Broadcasts] at h
  rcases queryStep_cases s e with ⟨t, ip', rfl, hmiss, hroom, sendbuf, phy, hcalls, hstep⟩ |
    ⟨t, ip', rfl, hstep⟩ | ⟨t, rfl, hstep⟩
  · rw [hstep] at h ⊢
    have hcall := List.append_cancel_left (hcalls.symm.trans h)
    have hframe : requestFrame s ip' = requestFrame s ip := by
      simpa using hcall
    obtain rfl := requestFrame_injective hframe
    exact ⟨hmiss, t, rfl, hroom, rfl⟩
  · rw [hstep] at h
    exact absurd (List.self_eq_append_right.mp h) (List.cons_ne_nil _ _)
  · rw [hstep] at h
    exact absurd (List.self_eq_append_right.mp h) (List.cons_ne_nil _ _)

end Sorted

/-! ## Runs -/

/-- Every call of the run is allowed in the state before it. -/
def AllQueriesAllowed : Stack → List QueryEvent → Prop
  | _, [] => True
  | s, e :: es => s.arp.QueryAllowed e ∧ AllQueriesAllowed (queryStep s e) es

/-- **Requests are rate limited**: no address is stored twice, and a request for an address is
    repeated only after the time that was computed when it was sent before. -/
structure RateLimited (s : Stack) (es : List QueryEvent) : Prop where
  nodup : ∀ pre, pre <+: es → ((queryRun s pre).arp.queries.map ArpQuery.ip).Nodup
  spaced : ∀ pre e1 mid e2 post ip, es = pre ++ e1 :: (mid ++ e2 :: post) →
    Broadcasts (queryRun s pre) e1 ip → Broadcasts (queryRun s (pre ++ e1 :: mid)) e2 ip →
    timeAddMs s.tscFreq e1.time arpQueryTimeoutMs < e2.time

section Runs

variable {s : Stack} {es es' : List QueryEvent} {q : ArpQuery}

theorem queryRun_append (s : Stack) (es es' : List QueryEvent) :
    queryRun s (es ++ es') = queryRun (queryRun s es) es' := List.foldl_append

theorem queryRun_tscFreq (s : Stack) (es : List QueryEvent) :
    (queryRun s es).tscFreq = s.tscFreq := by
  induction es generalizing s with
  | nil => rfl
  | cons e es ih => exact (ih (queryStep s e)).trans (queryStep_tscFreq s e)

theorem allQueriesAllowed_append : AllQueriesAllowed s (es ++ es') ↔
    AllQueriesAllowed s es ∧ AllQueriesAllowed (queryRun s es) es' := by
  induction es generalizing s with
  | nil => exact (and_iff_right trivial).symm
  | cons e es ih =>
    rw [List.cons_append, AllQueriesAllowed, AllQueriesAllowed, ih, and_assoc]
    rfl

/-- **The table stays sorted** along a run whose calls are all allowed. -/
theorem queryRun_sorted (h : s.arp.QueriesSorted) (hok : AllQueriesAllowed s es) :
    (queryRun s es).arp.QueriesSorted := by
  -- on the run; the condition on a call is about the table that the calls before it have left
  induction es generalizing s with
  | nil => exact h
  | cons e es ih => exact ih (queryStep_sorted h hok.1) hok.2

/-- A query is still stored at the end of a run, or it has expired by then. -/
theorem queryRun_kept {now : UInt64} (h : s.arp.QueriesSorted) (hok : AllQueriesAllowed s es)
    (hnow : ∀ e ∈ es, e.time ≤ now) (hq : q ∈ s.arp.queries) :
    q ∈ (queryRun s es).arp.queries ∨ q.expireTime < now := by
  induction es generalizing s with
  | nil => exact Or.inl hq
  | cons e es ih =>
    obtain ⟨hhead, htail⟩ := List.forall_mem_cons.mp hnow
    rcases queryStep_kept h hok.1 hq with hkept | hexpired
    · exact ih (queryStep_sorted h hok.1) hok.2 htail hkept
    · exact Or.inr (UInt64.lt_of_lt_of_le hexpired hhead)

/-- A run from a sorted table. -/
theorem rateLimited_of_sorted (h : s.arp.QueriesSorted)
    (htime : (es.map QueryEvent.time).Pairwise (· ≤ ·)) (hok : AllQueriesAllowed s es) :
    RateLimited s es := by
  constructor
  · rintro pre ⟨post, rfl⟩
    exact (queryRun_sorted h (allQueriesAllowed_append.mp hok).1).nodup
  · intro pre e1 mid e2 post ip hes hfirst hsecond
    subst hes
    obtain ⟨hpre, hok1, hrest⟩ := allQueriesAllowed_append.mp hok
    have hmid := (allQueriesAllowed_append.mp hrest).1
    have hsorted := queryRun_sorted h hpre
    have hsorted1 := queryStep_sorted hsorted hok1
    obtain ⟨hmiss1, t, rfl, hroom, hadd⟩ := hfirst.spec
    -- the query is stored with the first request
    have hstored : ⟨ip, timeAddMs (queryRun s pre).tscFreq t arpQueryTimeoutMs⟩ ∈
        (queryStep (queryRun s pre) (.query t ip)).arp.queries := by
      rw [hadd]
      exact ((addQuery_spec _ hsorted hmiss1 hroom hok1).2 _).mpr (Or.inl rfl)
    have hnow : ∀ e ∈ mid, e.time ≤ e2.time := by
      intro e he
      have hbehind := (List.pairwise_append.mp (List.pairwise_map.mp htime)).2.1
      have hpairs := List.pairwise_append.mp (List.pairwise_cons.mp hbehind).2
      exact hpairs.2.2 e he e2 List.mem_cons_self
    have hrun : queryRun s (pre ++ .query t ip :: mid) =
        queryRun (queryStep (queryRun s pre) (.query t ip)) mid := queryRun_append s pre _
    rw [hrun] at hsecond
    rcases queryRun_kept hsorted1 hmid hnow hstored with hkept | hexpired
    · -- it would have been found
      have habsent := Arp.absent_of_miss (queryRun_sorted hsorted1 hmid) hsecond.spec.1
      exact absurd rfl (habsent _ hkept)
    · rwa [queryRun_tscFreq] at hexpired

/-- **Requests are rate limited** in every run from `init` that does not bring an address above all
    stored ones into a table that is neither empty nor full. -/
theorem arpQuery_rateLimited (s : Stack) (es : List QueryEvent)
    (htime : (es.map QueryEvent.time).Pairwise (· ≤ ·))
    (hok : AllQueriesAllowed { s with arp := s.arp.init s.currenttime s.tscFreq } es) :
    RateLimited { s with arp := s.arp.init s.currenttime s.tscFreq } es := by
  refine rateLimited_of_sorted ⟨?_, Nat.zero_le _⟩ htime hok
  intro i j _ hj
  exact absurd hj (Nat.not_lt_zero j)

end Runs

/-! ### Three queries -/

/-- A stack at 10.0.0.1 after `ducknet_arp_init`. -/
def querier : Stack := { sender with arp := sender.arp.init sender.currenttime sender.tscFreq }

/-- In descending order queries are allowed.  The third one finds that 7 is being asked for; the last one
    comes when the query for 5 has expired. -/
theorem arpQuery_rateLimited_descending :
    RateLimited querier [.query 1 7, .query 2 5, .query 3 7, .idle 1002, .query 1003 5] := by
  refine arpQuery_rateLimited sender _ (by decide) ⟨Or.inl rfl, Or.inr (Or.inr ?_),
    Or.inr (Or.inr ?_), trivial, Or.inr (Or.inr ?_), trivial⟩
  · exact ⟨⟨7, 1001⟩, by decide +kernel, by decide⟩
  · exact ⟨⟨7, 1001⟩, by decide +kernel, by decide⟩
  · exact ⟨⟨5, 1002⟩, by decide +kernel, by decide⟩

/-- **In ascending order they are not**: the second address is put before the first one, which is
    then not found.  It is broadcast again at the same time, and stored twice. -/
theorem arpQuery_ascending_repeated :
    (queryRun querier [.query 1 5, .query 1 7, .query 1 5]).arp.queries.map ArpQuery.ip =
        [5, 7, 5] ∧
      Broadcasts querier (.query 1 5) 5 ∧
      Broadcasts (queryRun querier [.query 1 5, .query 1 7]) (.query 1 5) 5 ∧
      ¬ RateLimited querier [.query 1 5, .query 1 7, .query 1 5] := by
  have htable : (queryRun querier [.query 1 5, .query 1 7, .query 1 5]).arp.queries.map ArpQuery.ip =
      [5, 7, 5] := by decide +kernel
  refine ⟨htable, by decide +kernel, by decide +kernel, ?_⟩
  intro hlimited
  have hnodup := hlimited.nodup _ (List.prefix_refl _)
  rw [htable] at hnodup
  exact absurd hnodup (by decide)

end JudgeDuck.Ducknet
