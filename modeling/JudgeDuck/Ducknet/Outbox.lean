/-
  Waiting packets are neither lost nor duplicated.

  Seen from outside, the table of waiting packets is an outbox: a packet is taken in once, waits in
  a slot, and leaves it once, passed on to a MAC address or expired.  `Outbox` keeps account of all
  packets; the ones taken in are, up to order, the ones waiting, passed on and expired
  (`Outbox.Balanced`), and `Outbox.Step` says what an event may do, and which calls of
  `ducknet_phy_send` it may make: a packet that is put into the table is not sent from the common
  buffer as well.  `outbox_simulates` says of every run after `init` that each event is a step of the
  outbox, and that the table and the calls of `ducknet_phy_send` are those of the outbox.
-/
import JudgeDuck.Ducknet.ArpQueries
import Mathlib.Logic.Relation

namespace JudgeDuck.Ducknet

open JudgeDuck.Lib

/-! ## The outbox -/

/-- A packet taken in, with its number. -/
structure Packet extends Pending where
  serial : Nat

/-- The account of all packets. -/
structure Outbox where
  /-- Every packet taken in, in the order of their numbers. -/
  queued : List Packet
  /-- The packets waiting. -/
  slots : Nat → Option Packet
  /-- The packets passed on, with their slot and the MAC address they went to. -/
  passed : List (Nat × Packet × MacAddress)
  /-- The packets expired. -/
  expired : List Packet

/-- Nothing taken in yet. -/
def Outbox.empty : Outbox := ⟨[], fun _ => none, [], []⟩

/-- The numbers of the packets passed on. -/
def Outbox.passedSerials (o : Outbox) : List Nat := o.passed.map fun x => x.2.1.serial

/-- **The balance**: every packet taken in waits, was passed on or has expired, and the packets have
    different numbers. -/
structure Outbox.Balanced (o : Outbox) : Prop where
  perm : o.queued.Perm
    (occupied o.slots tosendTableSize ++ (o.passed.map (fun x => x.2.1) ++ o.expired))
  serials : o.queued.map Packet.serial = List.range o.queued.length

/-- A packet leaves the outbox, at the time `now` and with the addresses resolved by `resolve`. -/
inductive Outbox.Leave (now : UInt64) (resolve : UInt32 → Option MacAddress) :
    Outbox → Outbox → Prop
  | pass {o : Outbox} {i : Nat} {p : Packet} {mac : MacAddress} :
      i < tosendTableSize → o.slots i = some p → resolve p.etherDstIp = some mac →
      Leave now resolve o
        { o with slots := Function.update o.slots i none, passed := o.passed ++ [(i, p, mac)] }
  | expire {o : Outbox} {i : Nat} {p : Packet} :
      i < tosendTableSize → o.slots i = some p → now > p.expireTime →
      Leave now resolve o
        { o with slots := Function.update o.slots i none, expired := o.expired ++ [p] }

/-- The packet of a call of `ducknet_ipv4_send`: the bytes built from its arguments. -/
def newPacket (s : Stack) (serial : Nat) (dst : UInt32) (protocol : UInt8) (payload : Nat → UInt8)
    (len : Int) : Packet where
  etherDstIp := etherDst s dst
  expireTime := timeAddMs s.tscFreq s.currenttime tosendTimeoutMs
  body := ipv4Body s dst protocol payload len
  serial := serial

/-- The packet `p` is put into the slot `i`. -/
def Outbox.add (o : Outbox) (i : Nat) (p : Packet) : Outbox :=
  { o with queued := o.queued ++ [p], slots := Function.update o.slots i (some p) }

/-- The calls of `ducknet_phy_send` are at most one request for `ip`. -/
def RequestOnly (s : Stack) (ip : UInt32) (calls : List PhyCall) : Prop :=
  calls = [] ∨ calls = [⟨.sendbuf, requestFrame s ip⟩]

/-- A call of `ducknet_phy_send` for a packet of the table, or for a request. -/
def PhyCall.OfSweep (s : Stack) (c : PhyCall) : Prop :=
  (∃ i, c.buf = .tosend i) ∨ ∃ ip, c = ⟨.sendbuf, requestFrame s ip⟩

/-- What an event in the state `s`, with the result `r`, may do to the outbox, and the calls of
    `ducknet_phy_send` that it makes.  A packet leaves from the common buffer only when its link destination
    is resolved at once; the other events send requests and packets of the table. -/
inductive Outbox.Step (s : Stack) : Event → Int → List PhyCall → Outbox → Outbox → Prop
  | outside {o : Outbox} {currenttime : UInt64} {arp : Arp} {sendbuf : Nat → UInt8} :
      Step s (.outside currenttime arp sendbuf) 0 [] o o
  | resolved {o : Outbox} {dst : UInt32} {protocol : UInt8} {payload : Nat → UInt8} {len r : Int}
      {mac : MacAddress} {calls : List PhyCall} : s.arp.lookup (etherDst s dst) = some mac →
      ((¬ ValidLen len ∧ calls = []) ∨
        (ValidLen len ∧ calls = [⟨.sendbuf, mac.bytes ++ ipv4Body s dst protocol payload len⟩])) →
      Step s (.send dst protocol payload len) r calls o o
  | refuse {o : Outbox} {dst : UInt32} {protocol : UInt8} {payload : Nat → UInt8} {len : Int}
      {calls : List PhyCall} : s.arp.lookup (etherDst s dst) = none →
      ((∀ i, i < tosendTableSize → o.slots i ≠ none) ∨ ¬ ValidLen len) →
      RequestOnly s (etherDst s dst) calls → Step s (.send dst protocol payload len) (-1) calls o o
  | queue {o : Outbox} {dst : UInt32} {protocol : UInt8} {payload : Nat → UInt8} {len : Int}
      {i : Nat} {calls : List PhyCall} : s.arp.lookup (etherDst s dst) = none → ValidLen len →
      i < tosendTableSize → o.slots i = none → RequestOnly s (etherDst s dst) calls →
      Step s (.send dst protocol payload len) 0 calls o
        (o.add i (newPacket s o.queued.length dst protocol payload len))
  | sweep {o o' : Outbox} {calls : List PhyCall} :
      Relation.ReflTransGen (Outbox.Leave s.currenttime s.arp.lookup) o o' →
      (∀ c ∈ calls, c.OfSweep s) → Step s .idle 0 calls o o'

section Balance

variable {o o' : Outbox} {s : Stack} {e : Event} {r : Int} {calls : List PhyCall}

/-- Nothing was taken in, and nothing is accounted for. -/
theorem balanced_empty : Outbox.empty.Balanced := by
  refine ⟨?_, rfl⟩
  have hnone : occupied Outbox.empty.slots tosendTableSize = [] := by
    rw [List.eq_nil_iff_forall_not_mem]
    intro p hp
    rcases mem_occupied.mp hp with ⟨i, -, hi⟩
    nomatch hi
  rw [hnone]
  exact List.Perm.nil

/-- **A packet leaves once**: the balance is kept. -/
theorem Outbox.Leave.balanced {now : UInt64} {resolve : UInt32 → Option MacAddress}
    (h : Outbox.Leave now resolve o o') (ho : o.Balanced) : o'.Balanced := by
  cases h with
  | pass hi hp _ =>
    refine ⟨ho.perm.trans (((occupied_remove hi hp).append_right _).trans ?_), ho.serials⟩
    rw [List.map_append, List.append_assoc, ← List.append_assoc, List.cons_append,
      ← List.append_assoc]
    exact List.perm_middle.symm
  | expire hi hp _ =>
    refine ⟨ho.perm.trans (((occupied_remove hi hp).append_right _).trans ?_), ho.serials⟩
    rw [← List.append_assoc, ← List.append_assoc, List.cons_append, List.cons_append,
      ← List.append_assoc]
    exact (List.perm_append_singleton _ _).symm

/-- **A packet is taken in once**, with a new number. -/
theorem Outbox.Balanced.add {i : Nat} {p : Packet} (ho : o.Balanced) (hi : i < tosendTableSize)
    (hfree : o.slots i = none) (hserial : p.serial = o.queued.length) : (o.add i p).Balanced := by
  constructor
  · refine ((List.perm_append_singleton p o.queued).trans (ho.perm.cons p)).trans ?_
    exact ((occupied_insert p hi hfree).append_right _).symm
  · rw [Outbox.add, List.map_append, ho.serials, List.length_append, List.length_singleton,
      List.range_succ, List.map_singleton, hserial]

/-- **Every step keeps the balance.** -/
theorem Outbox.Step.balanced (h : Outbox.Step s e r calls o o') (ho : o.Balanced) : o'.Balanced := by
  cases h with
  | outside => exact ho
  | resolved _ _ => exact ho
  | refuse _ _ _ => exact ho
  | queue _ _ hi hfree _ => exact ho.add hi hfree rfl
  | sweep hleave _ =>
    induction hleave with
    | refl => exact ho
    | tail _ hlast ih => exact hlast.balanced ih

/-- **At most once**: no packet was passed on twice, and none that waits was passed on. -/
theorem Outbox.Balanced.once (ho : o.Balanced) : o.passedSerials.Nodup ∧
    ∀ i p, i < tosendTableSize → o.slots i = some p → p.serial ∉ o.passedSerials := by
  have hnodup : (o.queued.map Packet.serial).Nodup := by
    rw [ho.serials]
    exact List.nodup_range
  rw [(ho.perm.map Packet.serial).nodup_iff, List.map_append, List.map_append, List.map_map]
    at hnodup
  rcases List.nodup_append.mp hnodup with ⟨-, hleft, hdisjoint⟩
  refine ⟨(List.nodup_append.mp hleft).1, fun i p hi hp hpassed => ?_⟩
  exact hdisjoint _ (List.mem_map_of_mem (mem_occupied.mpr ⟨i, hi, hp⟩)) _
    (List.mem_append_left _ hpassed) rfl

end Balance

/-! ## The table is an outbox -/

/-- The waiting packets have room for the destination MAC address. -/
def Lens (v : Ipv4) : Prop :=
  ∀ i, i < tosendTableSize → ¬ v.isFree i = true → 6 ≤ (v.tosendTable i).pktLen

/-- A slot that becomes free need not be looked at. -/
theorem Lens.free {v v' : Ipv4} {i : Nat} (h : Lens v)
    (hfree : ∀ j, v'.isFree j = (decide (j = i) || v.isFree j))
    (hentry : ∀ j, j ≠ i → v'.tosendTable j = v.tosendTable j) : Lens v' := by
  intro j hj htaken
  rw [hfree, Bool.or_eq_true, decide_eq_true_iff, not_or] at htaken
  rw [hentry j htaken.1]
  exact h j hj htaken.2

theorem Lens.fill {v : Ipv4} {i : Nat} {e : Tosend} (h : Lens v) (he : 6 ≤ e.pktLen) :
    Lens (v.fill i e) := by
  intro j hj htaken
  by_cases hji : j = i
  · rw [hji]
    simpa [Ipv4.fill, Ipv4.clearFree] using he
  · have hold : (v.fill i e).tosendTable j = v.tosendTable j := Function.update_of_ne hji _ _
    rw [hold]
    exact h j hj fun hfree => htaken (by simp [hji, hfree])

/-- Slot by slot the table holds what the outbox holds, and the calls of `ducknet_phy_send` since
    `init` with buffers of the table are the packets that the outbox passed on. -/
structure Agrees (before : List (Nat × List UInt8)) (s : Stack) (o : Outbox) : Prop where
  slots : ∀ i, i < tosendTableSize → s.ipv4.pendingAt i = (o.slots i).map Packet.toPending
  calls : s.tableCalls = before ++ o.passed.map fun x => (x.1, x.2.2.bytes ++ x.2.1.body)
  lens : Lens s.ipv4

/-- What a query sends. -/
theorem arpQuery_calls (s : Stack) (ip : UInt32) :
    ∃ calls, (arpQuery s ip).1.phy.calls = s.phy.calls ++ calls ∧ RequestOnly s ip calls := by
  by_cases hmiss : s.arp.Miss ip
  · by_cases hfull : s.arp.nArpQueries = arpTableSize
    · exact ⟨[], by rw [arpQuery_full hmiss hfull, List.append_nil], .inl rfl⟩
    · obtain ⟨sendbuf, phy, hcalls, hquery⟩ := arpQuery_new hmiss hfull
      exact ⟨_, by rw [hquery, hcalls], .inr rfl⟩
  · exact ⟨[], by rw [arpQuery_found hmiss, List.append_nil], .inl rfl⟩

/-- `t` comes from `s` in a sweep: the time, the resolved addresses and the stack's own ones are the same,
    and only packets of the table and requests have been sent. -/
structure Sweeps (s t : Stack) : Prop where
  currenttime : t.currenttime = s.currenttime
  lookup : t.arp.lookup = s.arp.lookup
  mac : t.mac = s.mac
  ip : t.ip = s.ip
  calls : ∃ calls, t.phy.calls = s.phy.calls ++ calls ∧ ∀ c ∈ calls, c.OfSweep s

theorem Sweeps.refl (s : Stack) : Sweeps s s :=
  ⟨rfl, rfl, rfl, rfl, [], (List.append_nil _).symm, fun _ hc => absurd hc List.not_mem_nil⟩

/-- Sweeps compose; their calls are appended. -/
theorem Sweeps.trans {s t u : Stack} (hst : Sweeps s t) (htu : Sweeps t u) : Sweeps s u := by
  obtain ⟨calls1, heq1, hall1⟩ := hst.calls
  obtain ⟨calls2, heq2, hall2⟩ := htu.calls
  refine ⟨htu.currenttime.trans hst.currenttime, htu.lookup.trans hst.lookup, htu.mac.trans hst.mac,
    htu.ip.trans hst.ip, calls1 ++ calls2, by rw [heq2, heq1, List.append_assoc], fun c hc => ?_⟩
  rcases List.mem_append.mp hc with h | h
  · exact hall1 c h
  · -- a request carries the addresses of the stack only, which have not changed
    rcases hall2 c h with htable | ⟨ip, rfl⟩
    · exact .inl htable
    · refine .inr ⟨ip, ?_⟩
      rw [requestFrame, requestFrame, queryPayload, queryPayload, hst.mac, hst.ip]

/-- **A turn of the sweep** sends its packet, or a request, or nothing. -/
theorem sweepSlot_sweeps (i : Nat) (s : Stack) : Sweeps s (sweepSlot i s) := by
  have hsame := Sweeps.refl s
  rw [sweepSlot]
  split
  · exact hsame
  split
  · exact ⟨rfl, rfl, rfl, rfl, hsame.calls⟩
  split
  · rename_i mac _
    obtain ⟨phy, hs, hcalls⟩ := phySend_spec { s with ipv4 := { s.ipv4.setFree i with
      tosendTable := Function.update (s.ipv4.setFree i).tosendTable i
        { s.ipv4.tosendTable i with pkt := putBytes (s.ipv4.tosendTable i).pkt 0 mac.bytes } } }
      (.tosend i) (s.ipv4.tosendTable i).pktLen
    have hpass : passOn s i mac = _ := hs
    rw [hpass]
    exact ⟨rfl, rfl, rfl, rfl, _, hcalls, List.forall_mem_singleton.mpr (.inl ⟨i, rfl⟩)⟩
  · have haside := arpQuery_aside s (s.ipv4.tosendTable i).etherDstIp
    obtain ⟨calls, hcalls, hrequest⟩ := arpQuery_calls s (s.ipv4.tosendTable i).etherDstIp
    refine ⟨haside.currenttime, haside.lookup, haside.mac, haside.ip, calls, hcalls, fun c hc => ?_⟩
    rcases hrequest with rfl | rfl
    · exact absurd hc List.not_mem_nil
    · exact .inr ⟨_, List.mem_singleton.mp hc⟩

/-- **The whole sweep.** -/
theorem ipv4Idle_sweeps (s : Stack) : Sweeps s (ipv4Idle s) := by
  have hsame := Sweeps.refl s
  rw [ipv4Idle]
  split
  · exact ⟨rfl, rfl, rfl, rfl, hsame.calls⟩
  · exact forUp_inv (fun _ t => Sweeps s t) ⟨rfl, rfl, rfl, rfl, hsame.calls⟩
      fun i _ t ht => ht.trans (sweepSlot_sweeps i t)

section Agrees

variable {before : List (Nat × List UInt8)} {s t : Stack} {o : Outbox}

/-- Work that is not on the table keeps the agreement. -/
theorem Agrees.aside (h : Agrees before s o) (ht : Aside s t) : Agrees before t o := by
  refine ⟨?_, ht.calls.trans h.calls, ?_⟩
  · rw [ht.ipv4]
    exact h.slots
  · rw [ht.ipv4]
    exact h.lens

theorem Agrees.free (h : Agrees before s o) {i : Nat} (hi : i < tosendTableSize)
    (hfree : s.ipv4.isFree i = true) : o.slots i = none := by
  have hslot := h.slots i hi
  rw [pendingAt_eq_none.mpr hfree] at hslot
  exact Option.map_eq_none_iff.mp hslot.symm

theorem Agrees.taken (h : Agrees before s o) {i : Nat} (hi : i < tosendTableSize)
    (htaken : ¬ s.ipv4.isFree i = true) :
    ∃ p, o.slots i = some p ∧ p.toPending = (s.ipv4.tosendTable i).pending := by
  have hslot := h.slots i hi
  rw [pendingAt_of_not_free htaken] at hslot
  exact Option.map_eq_some_iff.mp hslot.symm

/-- Slots that change alike. -/
theorem slots_update {v v' : Ipv4} {slots : Nat → Option Packet} {i : Nat} {x : Option Packet}
    (h : ∀ j, j < tosendTableSize → v.pendingAt j = (slots j).map Packet.toPending)
    (hv : v'.pendingAt = Function.update v.pendingAt i (x.map Packet.toPending)) (j : Nat)
    (hj : j < tosendTableSize) :
    v'.pendingAt j = (Function.update slots i x j).map Packet.toPending := by
  rw [hv]
  by_cases hji : j = i
  · rw [hji, Function.update_self, Function.update_self]
  · rw [Function.update_of_ne hji, Function.update_of_ne hji]
    exact h j hj

/-! ### The sweep -/

/-- The packet in the slot `i` is passed on. -/
theorem passOn_spec {i : Nat} {p : Packet} {mac : MacAddress} (h : Agrees before s o)
    (hi : i < tosendTableSize) (htaken : ¬ s.ipv4.isFree i = true) (hp : o.slots i = some p)
    (hpending : p.toPending = (s.ipv4.tosendTable i).pending)
    (hmac : s.arp.lookup p.etherDstIp = some mac) :
    ∃ o', Outbox.Leave s.currenttime s.arp.lookup o o' ∧ Agrees before (passOn s i mac) o' := by
  obtain ⟨phy, hs, hcalls⟩ := phySend_spec { s with ipv4 := { s.ipv4.setFree i with
    tosendTable := Function.update (s.ipv4.setFree i).tosendTable i
      { s.ipv4.tosendTable i with pkt := putBytes (s.ipv4.tosendTable i).pkt 0 mac.bytes } } }
    (.tosend i) (s.ipv4.tosendTable i).pktLen
  have hpass : passOn s i mac = _ := hs
  -- the frame is the MAC address followed by the packet
  have hframe := listOf_putMac mac (s.ipv4.tosendTable i).pkt (h.lens i hi htaken)
  rw [hpass]
  refine ⟨_, .pass hi hp hmac, ?_, ?_, ?_⟩
  · apply slots_update (x := none) h.slots
    rw [pendingAt_update_free _ (by simp)]
    exact pendingAt_setFree _ _
  · rw [Stack.tableCalls, hcalls, List.filterMap_append, List.map_append, ← List.append_assoc,
      ← h.calls]
    simp only [Stack.buffer, Function.update_self, hframe]
    have hbody : p.body = (s.ipv4.tosendTable i).pending.body := by rw [← hpending]
    simp only [List.map_cons, List.map_nil, hbody]
    rfl
  · exact h.lens.free (isFree_setFree s.ipv4 i) fun j hj => Function.update_of_ne hj _ _

/-- The packet in the slot `i` expires. -/
theorem expire_spec {i : Nat} {p : Packet} (h : Agrees before s o) (hi : i < tosendTableSize)
    (hp : o.slots i = some p) (hlate : s.currenttime > p.expireTime) :
    ∃ o', Outbox.Leave s.currenttime s.arp.lookup o o' ∧
      Agrees before { s with ipv4 := s.ipv4.setFree i } o' := by
  refine ⟨_, .expire hi hp hlate, ?_, h.calls, ?_⟩
  · exact slots_update (x := none) h.slots (pendingAt_setFree _ _)
  · exact h.lens.free (isFree_setFree s.ipv4 i) fun _ _ => rfl

/-- **A turn of the sweep** lets one packet leave at most. -/
theorem sweepSlot_spec {i : Nat} (h : Agrees before s o) (hi : i < tosendTableSize) :
    ∃ o', Relation.ReflTransGen (Outbox.Leave s.currenttime s.arp.lookup) o o' ∧
      Agrees before (sweepSlot i s) o' := by
  unfold sweepSlot
  by_cases hfree : s.ipv4.isFree i = true
  · rw [if_pos hfree]
    exact ⟨o, .refl, h⟩
  rw [if_neg hfree]
  obtain ⟨p, hp, hpending⟩ := h.taken hi hfree
  have hexpire : p.expireTime = (s.ipv4.tosendTable i).expireTime :=
    congrArg Pending.expireTime hpending
  have hdst : p.etherDstIp = (s.ipv4.tosendTable i).etherDstIp :=
    congrArg Pending.etherDstIp hpending
  rw [← hexpire, ← hdst]
  by_cases hlate : s.currenttime > p.expireTime
  · rw [if_pos hlate]
    obtain ⟨o', hleave, h'⟩ := expire_spec h hi hp hlate
    exact ⟨o', .single hleave, h'⟩
  rw [if_neg hlate]
  cases hmac : s.arp.lookup p.etherDstIp with
  | some mac =>
    obtain ⟨o', hleave, h'⟩ := passOn_spec h hi hfree hp hpending hmac
    exact ⟨o', .single hleave, h'⟩
  | none => exact ⟨o, .refl, h.aside (arpQuery_aside s p.etherDstIp)⟩

/-- **`ducknet_ipv4_idle`**: packets leave, at the time of the sweep. -/
theorem ipv4Idle_spec (h : Agrees before s o) :
    ∃ o', Relation.ReflTransGen (Outbox.Leave s.currenttime s.arp.lookup) o o' ∧
      Agrees before (ipv4Idle s) o' := by
  have hsame := Sweeps.refl s
  rw [ipv4Idle]
  split
  · exact ⟨o, .refl, h.slots, h.calls, h.lens⟩
  · -- the time and the resolved addresses are the same in every turn
    have hloop := forUp_inv (f := sweepSlot) (n := tosendTableSize)
      (s := { s with ipv4 := { s.ipv4 with cnt := 0, lastIdleTime := s.currenttime } })
      (fun _ t => ∃ o', Relation.ReflTransGen (Outbox.Leave s.currenttime s.arp.lookup) o o' ∧
        Agrees before t o' ∧ Sweeps s t)
      ⟨o, .refl, ⟨h.slots, h.calls, h.lens⟩, rfl, rfl, rfl, rfl, hsame.calls⟩ ?_
    · obtain ⟨o', hleave, h', -⟩ := hloop
      exact ⟨o', hleave, h'⟩
    · rintro i hi t ⟨o1, hleave1, h1, hsweeps1⟩
      obtain ⟨o2, hleave2, h2⟩ := sweepSlot_spec h1 hi
      rw [hsweeps1.currenttime, hsweeps1.lookup] at hleave2
      exact ⟨o2, hleave1.trans hleave2, h2, hsweeps1.trans (sweepSlot_sweeps i t)⟩

/-! ### Sending -/

variable (dst : UInt32) (protocol : UInt8) (payload : Nat → UInt8) {len : Int}

/-- A packet is put into the free slot `i`; `t` is the state after the query for its address. -/
theorem enqueue_spec {i : Nat} (h : Agrees before s o) (ht : Aside s t) (hlen : ValidLen len) :
    ∃ t', enqueue t i (etherDst s dst) dst protocol payload len = (t', 0) ∧ t'.phy = t.phy ∧
      Agrees before t' (o.add i (newPacket s o.queued.length dst protocol payload len)) := by
  have ha := h.aside ht
  obtain ⟨pkt, hbuild, hbody⟩ :=
    ipv4BuildPacket_spec t (t.ipv4.tosendTable i).pkt dst protocol payload hlen
  refine ⟨{ t with ipv4 := t.ipv4.fill i ⟨etherDst s dst,
    timeAddMs t.tscFreq t.currenttime tosendTimeoutMs, len + sizeofIPv4Header + sizeofEtherHeader,
    pkt⟩ }, by simp only [enqueue, hbuild], rfl, ?_, ha.calls, ?_⟩
  · apply slots_update (x := some _) ha.slots
    rw [pendingAt_fill]
    -- the query did not change the time or the addresses of the stack
    have hpacket : ipv4Body t dst protocol payload len = ipv4Body s dst protocol payload len := by
      rw [ipv4Body, ipv4Body, ht.mac, ht.ip]
    simp only [Tosend.pending, hbody, hpacket, ht.currenttime, ht.tscFreq]
    rfl
  · apply ha.lens.fill
    show 6 ≤ len + 20 + 14
    have := hlen.1
    omega

/-- **`ducknet_ipv4_send`** is a step of the outbox; a call that fails leaves the table alone. -/
theorem ipv4Send_spec (h : Agrees before s o) :
    ∃ s' r calls o', ipv4Send s dst protocol payload len = .ok (s', r) ∧
      s'.phy.calls = s.phy.calls ++ calls ∧
      Outbox.Step s (.send dst protocol payload len) r calls o o' ∧ (r < 0 → s'.ipv4 = s.ipv4) ∧
      Agrees before s' o' := by
  unfold ipv4Send
  cases hmac : s.arp.lookup (etherDst s dst) with
  | some mac =>
    have haside := sendResolved_aside s mac dst protocol payload len
    by_cases hlen : ValidLen len
    · exact ⟨_, _, _, o, rfl, sendResolved_calls protocol payload hlen, .resolved hmac (.inr ⟨hlen, rfl⟩),
        fun _ => haside.ipv4, h.aside haside⟩
    · refine ⟨_, _, [], o, rfl, ?_, .resolved hmac (.inl ⟨hlen, rfl⟩), fun _ => haside.ipv4,
        h.aside haside⟩
      show (sendResolved s mac dst protocol payload len).1.phy.calls = _
      simp only [sendResolved, ipv4BuildPacket_invalid hlen, List.append_nil]
  | none =>
    have haside := arpQuery_aside s (etherDst s dst)
    obtain ⟨calls, hcalls, hrequest⟩ := arpQuery_calls s (etherDst s dst)
    simp only [sendPending]
    generalize (arpQuery s (etherDst s dst)).1 = t at haside hcalls ⊢
    have ha := h.aside haside
    rcases findTosendFree_spec t.ipv4 with ⟨hnone, hfull⟩ | ⟨i, hsome, hi, hfree⟩
    · refine ⟨t, -1, calls, o, ?_, hcalls, .refuse hmac (Or.inl fun j hj => ?_) hrequest,
        fun _ => haside.ipv4, ha⟩
      · rw [bind_of_ok hnone]
      · obtain ⟨p, hp, -⟩ := ha.taken hj (by simp [hfull j hj])
        simp [hp]
    · by_cases hlen : ValidLen len
      · obtain ⟨t', henq, hphy, h'⟩ := enqueue_spec (i := i) dst protocol payload h haside hlen
        refine ⟨t', 0, calls, _, ?_, by rw [hphy, hcalls],
          .queue hmac hlen hi (ha.free hi hfree) hrequest, fun hneg => ?_, h'⟩
        · rw [bind_of_ok hsome]
          exact congrArg Except.ok henq
        · exact absurd hneg (Int.lt_irrefl 0)
      · refine ⟨t, -1, calls, o, ?_, hcalls, .refuse hmac (Or.inr hlen) hrequest, fun _ => haside.ipv4,
          ha⟩
        rw [bind_of_ok hsome]
        simp only [enqueue, ipv4BuildPacket_invalid hlen]

/-- **Every event** returns and is a step of the outbox. -/
theorem step_spec (e : Event) (h : Agrees before s o) :
    ∃ s' r calls o', step s e = .ok (s', r) ∧ s'.phy.calls = s.phy.calls ++ calls ∧
      Outbox.Step s e r calls o o' ∧ (r < 0 → s'.ipv4 = s.ipv4) ∧ Agrees before s' o' := by
  cases e with
  | send dst protocol payload len => exact ipv4Send_spec dst protocol payload h
  | idle =>
    obtain ⟨o', hleave, h'⟩ := ipv4Idle_spec h
    obtain ⟨calls, hcalls, hall⟩ := (ipv4Idle_sweeps s).calls
    exact ⟨_, 0, calls, o', rfl, hcalls, .sweep hleave hall, fun hneg => absurd hneg (Int.lt_irrefl 0), h'⟩
  | outside currenttime arp sendbuf =>
    exact ⟨_, 0, [], o, rfl, (List.append_nil _).symm, .outside, fun _ => rfl, h.slots, h.calls, h.lens⟩

end Agrees

/-! ## Runs -/

/-- The table and the calls of `ducknet_phy_send` since `init` are those of the outbox, which is
    balanced; no packet was passed on twice, and none that waits was passed on. -/
structure Accounts (before : List (Nat × List UInt8)) (s : Stack) (o : Outbox) : Prop where
  slots : ∀ i, i < tosendTableSize → s.ipv4.pendingAt i = (o.slots i).map Packet.toPending
  calls : s.tableCalls = before ++ o.passed.map fun x => (x.1, x.2.2.bytes ++ x.2.1.body)
  balanced : o.Balanced
  once : o.passedSerials.Nodup ∧
    ∀ i p, i < tosendTableSize → o.slots i = some p → p.serial ∉ o.passedSerials

/-- Event by event, the stack does what the outbox does, and calls `ducknet_phy_send` as the step allows; a
    call with a negative result leaves the table and the free slots as they are. -/
def Simulates (before : List (Nat × List UInt8)) : Stack → Outbox → List Event → Prop
  | s, o, [] => Accounts before s o
  | s, o, e :: es => Accounts before s o ∧ ∃ s' r calls o', step s e = .ok (s', r) ∧
      s'.phy.calls = s.phy.calls ++ calls ∧ Outbox.Step s e r calls o o' ∧
      (r < 0 → s'.ipv4 = s.ipv4) ∧ Simulates before s' o' es

/-- **Every run simulates**, by induction: agreement and balance together are the invariant. -/
theorem simulates_of_agrees {before : List (Nat × List UInt8)} {s : Stack} {o : Outbox}
    {es : List Event} (h : Agrees before s o) (ho : o.Balanced) : Simulates before s o es := by
  have haccounts : Accounts before s o := ⟨h.slots, h.calls, ho, ho.once⟩
  induction es generalizing s o with
  | nil => exact haccounts
  | cons e es ih =>
    obtain ⟨s', r, calls, o', hstep, hcalls, habs, hneg, h'⟩ := step_spec e h
    have ho' := habs.balanced ho
    exact ⟨haccounts, s', r, calls, o', hstep, hcalls, habs, hneg, ih h' ho' ⟨h'.slots, h'.calls, ho', ho'.once⟩⟩

/-- **Waiting packets are neither lost nor duplicated**, along every run from `init`. -/
theorem outbox_simulates (raw : Stack) (conf : Ipv4Config) (es : List Event) :
    Simulates raw.tableCalls (ipv4Init raw conf) Outbox.empty es := by
  have hfree : ∀ i, i < tosendTableSize → (ipv4Init raw conf).ipv4.isFree i = true :=
    fun i hi => isFree_init raw conf hi
  refine simulates_of_agrees ⟨fun i hi => ?_, ?_, fun i hi htaken => ?_⟩ balanced_empty
  · exact pendingAt_eq_none.mpr (hfree i hi)
  · exact (List.append_nil _).symm
  · exact absurd (hfree i hi) htaken

end JudgeDuck.Ducknet
