/-
  The slots of the waiting packets.

  `Ipv4.pendingAt` reads off the bitmap and the table what waits in a slot, if anything.  Each part
  of the code gets one lemma about the slots: finding a free one, building a packet in a buffer,
  putting it into a slot, and taking a slot's packet out.  What the code does besides, queries for
  addresses and packets sent at once, leaves the slots alone (`Aside`).
-/
import JudgeDuck.Ducknet.Ipv4
import JudgeDuck.Lib.Slots

namespace JudgeDuck.Ducknet

open JudgeDuck.Lib

/-! ## Free slots -/

theorem isFree_eq (v : Ipv4) (i : Nat) : v.isFree i = Bitmap.mem v.tosendFree i := by
  rw [Ipv4.isFree, Nat.shiftRight_eq_div_pow, show i &&& 31 = i % 32 from
    Nat.and_two_pow_sub_one_eq_mod i 5, Bitmap.and_mask_ne_zero (Nat.mod_lt i (by decide))]
  rfl

theorem mem_setBit (words : Nat → BitVec 32) (i j : Nat) :
    Bitmap.mem (setBit words i) j = (decide (j = i) || Bitmap.mem words j) := by
  rw [setBit, Nat.shiftRight_eq_div_pow, show i &&& 31 = i % 32 from
    Nat.and_two_pow_sub_one_eq_mod i 5]
  exact Bitmap.mem_set (by decide) j

theorem mem_clearBit (words : Nat → BitVec 32) (i j : Nat) :
    Bitmap.mem (clearBit words i) j = (!decide (j = i) && Bitmap.mem words j) := by
  rw [clearBit, Nat.shiftRight_eq_div_pow, show i &&& 31 = i % 32 from
    Nat.and_two_pow_sub_one_eq_mod i 5]
  exact Bitmap.mem_clear (by decide) j

@[simp] theorem isFree_setFree (v : Ipv4) (i j : Nat) :
    (v.setFree i).isFree j = (decide (j = i) || v.isFree j) := by
  rw [isFree_eq, isFree_eq]
  exact mem_setBit _ _ _

@[simp] theorem isFree_clearFree (v : Ipv4) (i j : Nat) :
    (v.clearFree i).isFree j = (!decide (j = i) && v.isFree j) := by
  rw [isFree_eq, isFree_eq]
  exact mem_clearBit _ _ _

/-- `init` frees the slots one after the other. -/
theorem mem_allFree {i : Nat} (hi : i < tosendTableSize) : Bitmap.mem allFree i = true := by
  unfold allFree
  generalize tosendTableSize = n at hi ⊢
  refine forUp_inv (fun k (words : Nat → BitVec 32) => ∀ i, i < k → Bitmap.mem words i = true)
    (fun i hi => absurd hi (Nat.not_lt_zero i)) (fun k _ words hwords i hi => ?_) i hi
  rw [mem_setBit, Bool.or_eq_true, decide_eq_true_iff]
  by_cases hik : i = k
  · exact Or.inl hik
  · exact Or.inr (hwords i (by omega))

theorem isFree_init (s : Stack) (conf : Ipv4Config) {i : Nat} (hi : i < tosendTableSize) :
    (ipv4Init s conf).ipv4.isFree i = true := by
  rw [isFree_eq]
  exact mem_allFree hi

/-- The lowest bit of a word that is not zero is found. -/
theorem getLowerBitIndex_spec {x : BitVec 32} (hx : x ≠ 0#32) :
    ∃ k, getLowerBitIndex x = .ok k ∧ k < 32 ∧ x.getLsbD k = true := by
  obtain ⟨-, hle, hbelow, hfound⟩ := firstFrom_spec (fun i => (x >>> i) &&& 1#32 != 0#32) 32 0
  unfold getLowerBitIndex
  generalize firstFrom _ 32 0 = k at hle hbelow hfound ⊢
  have hlt : k < 32 := by
    obtain ⟨b, hb, hbit⟩ := Bitmap.exists_getLsbD hx
    by_contra hge
    have hnot := hbelow b (Nat.zero_le b) (by omega)
    rw [Bitmap.shift_and_one_ne_zero (by decide), hbit] at hnot
    nomatch hnot
  refine ⟨k, if_pos hlt, hlt, ?_⟩
  rw [← Bitmap.shift_and_one_ne_zero (by decide)]
  exact hfound (by omega)

/-- **`find_tosend_free`** finds a free slot, if there is one. -/
theorem findTosendFree_spec (v : Ipv4) :
    (findTosendFree v = .ok none ∧ ∀ i, i < tosendTableSize → v.isFree i = false) ∨
      ∃ i, findTosendFree v = .ok (some i) ∧ i < tosendTableSize ∧ v.isFree i = true := by
  obtain ⟨-, hle, hbelow, hfound⟩ := firstFrom_spec (fun i => v.tosendFree i != 0#32) 2 0
  have hsize : tosendTableSize = 64 := rfl
  unfold findTosendFree
  generalize firstFrom _ 2 0 = word at hle hbelow hfound ⊢
  by_cases hlt : word < 2
  · have hne : v.tosendFree word ≠ 0#32 := by simpa using hfound (by omega)
    obtain ⟨k, hk, hk32, hbit⟩ := getLowerBitIndex_spec hne
    have hi : (word <<< 5) ||| k = word * 32 + k := by
      rw [← Nat.shiftLeft_add_eq_or_of_lt hk32, Nat.shiftLeft_eq]
    refine Or.inr ⟨word * 32 + k, ?_, by omega, ?_⟩
    · rw [if_pos hlt, bind_of_ok hk, hi]
    · rw [isFree_eq, Bitmap.mem, show (word * 32 + k) / 32 = word by omega,
        show (word * 32 + k) % 32 = k by omega]
      exact hbit
  · refine Or.inl ⟨if_neg hlt, fun i hi => ?_⟩
    have hzero : v.tosendFree (i / 32) = 0#32 := by
      simpa using hbelow (i / 32) (Nat.zero_le _) (by omega)
    rw [isFree_eq, Bitmap.mem, hzero, BitVec.getLsbD_zero]

/-! ## Building a packet -/

/-- A packet, from the sender's MAC address on. -/
def ipv4Body (s : Stack) (dst : UInt32) (protocol : UInt8) (payload : Nat → UInt8) (len : Int) :
    List UInt8 :=
  s.mac.bytes ++ le16 (htons ethertypeIPv4) ++ (builtHeader s.ip dst protocol len).bytes ++
    listOf payload len.toNat

section Build

variable {s : Stack} {pkt : Nat → UInt8} {dst : UInt32} {protocol : UInt8} {payload : Nat → UInt8}
  {len : Int}

/-- The length of a payload is not negative, and the packet fits the MTU. -/
def ValidLen (len : Int) : Prop := 0 ≤ len ∧ len + sizeofIPv4Header ≤ ducknetMTU

/-- No packet is built for a length that is not valid. -/
theorem ipv4BuildPacket_invalid (h : ¬ ValidLen len) :
    ipv4BuildPacket s pkt dst protocol payload len = none := by
  unfold ipv4BuildPacket
  by_cases hneg : len < 0
  · rw [if_pos hneg]
  · have hbig : len + sizeofIPv4Header > ducknetMTU := by
      by_contra hle
      exact h ⟨by omega, by omega⟩
    rw [if_neg hneg, if_pos hbig]

/-- **`ipv4_build_packet`** writes the packet behind the destination MAC address. -/
theorem ipv4BuildPacket_spec (s : Stack) (pkt : Nat → UInt8) (dst : UInt32) (protocol : UInt8)
    (payload : Nat → UInt8) (h : ValidLen len) :
    ∃ buf, ipv4BuildPacket s pkt dst protocol payload len = some buf ∧
      listOf (fun t => buf (6 + t)) (len + sizeofIPv4Header + sizeofEtherHeader - 6).toNat
        = ipv4Body s dst protocol payload len := by
  obtain ⟨h0, hmax⟩ := h
  refine ⟨_, by rw [ipv4BuildPacket, if_neg (by omega), if_neg (by omega)], ?_⟩
  have hlen : (len + sizeofIPv4Header + sizeofEtherHeader - 6).toNat = 8 + 20 + len.toNat := by
    show (len + 20 + 14 - 6).toNat = 8 + 20 + len.toNat
    omega
  rw [hlen, listOf_add, listOf_add, ipv4Body]
  generalize hsrc : s.mac.bytes ++ le16 (htons ethertypeIPv4) = front
  generalize hhdr : (builtHeader s.ip dst protocol len).bytes = header
  have hfront : front.length = 8 := by rw [← hsrc]; rfl
  have hheader : header.length = 20 := by rw [← hhdr]; rfl
  have e1 : sizeofEtherHeader = 14 := rfl
  have e2 : sizeofEtherHeader + sizeofIPv4Header = 34 := rfl
  rw [e2, e1]
  refine congrArg₂ _ (congrArg₂ _ ?_ ?_) ?_
  · refine Eq.trans (listOf_congr fun i hi => ?_) (hfront ▸ listOf_putBytes pkt 6 front)
    rw [memcpy_of_lt (by omega), putBytes, memcpy_of_lt (by omega)]
  · refine Eq.trans (listOf_congr fun i hi => ?_)
      (hheader ▸ listOf_putBytes (putBytes pkt 6 front) 14 header)
    rw [memcpy_of_lt (by omega), show 6 + (8 + i) = 14 + i by omega]
  · refine Eq.trans (listOf_congr fun i hi => ?_) (listOf_memcpy
      (putBytes (putBytes pkt 6 front) 14 header) payload 34 len.toNat)
    rw [show 6 + (8 + 20 + i) = 34 + i by omega]

/-- The destination MAC address goes before the packet. -/
theorem listOf_putMac {n : Int} (mac : MacAddress) (pkt : Nat → UInt8) (hn : 6 ≤ n) :
    listOf (putBytes pkt 0 mac.bytes) n.toNat
      = mac.bytes ++ listOf (fun t => pkt (6 + t)) (n - 6).toNat := by
  have hlen : n.toNat = 6 + (n - 6).toNat := by omega
  have hmac : mac.bytes.length = 6 := rfl
  rw [hlen, listOf_add]
  refine congrArg₂ _ ?_ (listOf_congr fun i _ => ?_)
  · refine Eq.trans (listOf_congr fun i _ => ?_) (hmac ▸ listOf_putBytes pkt 0 mac.bytes)
    rw [Nat.zero_add]
  · rw [putBytes, memcpy_of_ge (by omega)]

end Build

/-! ## What waits in a slot -/

/-- A waiting packet: where it goes, until when, and its bytes behind the destination MAC
    address. -/
structure Pending where
  etherDstIp : UInt32
  expireTime : UInt64
  body : List UInt8
  deriving DecidableEq

/-- The packet in an entry of the table. -/
def Tosend.pending (e : Tosend) : Pending :=
  ⟨e.etherDstIp, e.expireTime, listOf (fun t => e.pkt (6 + t)) (e.pktLen - 6).toNat⟩

/-- The packet that waits in the slot `i`. -/
def Ipv4.pendingAt (v : Ipv4) (i : Nat) : Option Pending :=
  if v.isFree i then none else some (v.tosendTable i).pending

theorem pendingAt_eq_none {v : Ipv4} {i : Nat} : v.pendingAt i = none ↔ v.isFree i = true := by
  unfold Ipv4.pendingAt
  split <;> simp_all

theorem pendingAt_of_not_free {v : Ipv4} {i : Nat} (h : ¬ v.isFree i = true) :
    v.pendingAt i = some (v.tosendTable i).pending := if_neg h

/-- A slot with the same bit and the same entry holds the same packet. -/
theorem pendingAt_congr {v v' : Ipv4} {i : Nat} (hfree : v'.isFree i = v.isFree i)
    (hentry : v'.tosendTable i = v.tosendTable i) : v'.pendingAt i = v.pendingAt i := by
  rw [Ipv4.pendingAt, Ipv4.pendingAt, hfree, hentry]

/-- Freeing a slot takes its packet out. -/
theorem pendingAt_setFree (v : Ipv4) (i : Nat) :
    (v.setFree i).pendingAt = Function.update v.pendingAt i none := by
  funext j
  by_cases hj : j = i
  · rw [hj, Function.update_self, pendingAt_eq_none, isFree_setFree]
    simp
  · rw [Function.update_of_ne hj]
    exact pendingAt_congr (by simp [hj]) rfl

/-- What is in the entry of a free slot does not matter. -/
theorem pendingAt_update_free {v : Ipv4} {i : Nat} (e : Tosend) (hfree : v.isFree i = true) :
    Ipv4.pendingAt { v with tosendTable := Function.update v.tosendTable i e } = v.pendingAt := by
  funext j
  by_cases hj : j = i
  · rw [hj, pendingAt_eq_none.mpr hfree]
    exact pendingAt_eq_none.mpr hfree
  · exact pendingAt_congr rfl (Function.update_of_ne hj _ _)

@[simp] theorem isFree_fill (v : Ipv4) (i j : Nat) (e : Tosend) :
    (v.fill i e).isFree j = (!decide (j = i) && v.isFree j) := isFree_clearFree _ _ _

/-- Filling a slot puts a packet in. -/
theorem pendingAt_fill (v : Ipv4) (i : Nat) (e : Tosend) :
    (v.fill i e).pendingAt = Function.update v.pendingAt i (some e.pending) := by
  funext j
  by_cases hj : j = i
  · rw [hj, Function.update_self, pendingAt_of_not_free (by simp)]
    simp [Ipv4.fill, Ipv4.clearFree]
  · rw [Function.update_of_ne hj]
    exact pendingAt_congr (by simp [hj]) (Function.update_of_ne hj _ _)

/-! ## What leaves the slots alone -/

/-- The frames that were passed on from the table, with their slots. -/
def PhyCall.fromTable : PhyCall → Option (Nat × List UInt8)
  | ⟨.tosend i, frame⟩ => some (i, frame)
  | ⟨.sendbuf, _⟩ => none

/-- The calls of `ducknet_phy_send` that passed on packets from the table. -/
def Stack.tableCalls (s : Stack) : List (Nat × List UInt8) :=
  s.phy.calls.filterMap PhyCall.fromTable

/-- `s'` comes from `s` by work on the query table and in the common buffer. -/
structure Aside (s s' : Stack) : Prop where
  currenttime : s'.currenttime = s.currenttime
  tscFreq : s'.tscFreq = s.tscFreq
  mac : s'.mac = s.mac
  ip : s'.ip = s.ip
  ipv4 : s'.ipv4 = s.ipv4
  lookup : s'.arp.lookup = s.arp.lookup
  calls : s'.tableCalls = s.tableCalls

/-- Sending the common buffer. -/
theorem phySend_sendbuf_aside {s s' : Stack} (len : Int) (h : Aside s s') :
    Aside s (phySend s' .sendbuf len).1 := by
  obtain ⟨phy, hs, hcalls⟩ := phySend_spec s' .sendbuf len
  rw [hs]
  refine ⟨h.currenttime, h.tscFreq, h.mac, h.ip, h.ipv4, h.lookup, ?_⟩
  rw [← h.calls, Stack.tableCalls, hcalls, List.filterMap_append]
  exact List.append_nil _

theorem arpSend_aside {s s' : Stack} {dst : MacAddress} {op : UInt16} {payload : Nat → UInt8}
    {len : Int} (h : Aside s s') : Aside s (arpSend s' dst op payload len).1 := by
  unfold arpSend
  split
  · exact h
  · split
    · exact h
    · exact phySend_sendbuf_aside _
        ⟨h.currenttime, h.tscFreq, h.mac, h.ip, h.ipv4, h.lookup, h.calls⟩

/-- **A query** leaves the slots and the address table alone. -/
theorem arpQuery_aside (s : Stack) (ip : UInt32) : Aside s (arpQuery s ip).1 := by
  rw [arpQuery]
  split
  · split
    · exact ⟨rfl, rfl, rfl, rfl, rfl, rfl, rfl⟩
    · exact arpSend_aside ⟨rfl, rfl, rfl, rfl, rfl, rfl, rfl⟩
  · exact ⟨rfl, rfl, rfl, rfl, rfl, rfl, rfl⟩

/-- **A packet sent at once** leaves the slots alone. -/
theorem sendResolved_aside (s : Stack) (mac : MacAddress) (dst : UInt32) (protocol : UInt8)
    (payload : Nat → UInt8) (len : Int) :
    Aside s (sendResolved s mac dst protocol payload len).1 := by
  unfold sendResolved
  split
  · exact ⟨rfl, rfl, rfl, rfl, rfl, rfl, rfl⟩
  · exact phySend_sendbuf_aside _ ⟨rfl, rfl, rfl, rfl, rfl, rfl, rfl⟩

end JudgeDuck.Ducknet
