/-
  The size limits of the stack and of the drivers.

  The stack measures what is behind the Ethernet header, at most `ducknet_MTU` = 1500 bytes.  The
  drivers measure the frame with the Ethernet header, also at most 1500 bytes.  So the drivers
  refuse the longest packets that the stack accepts: `frame_fits_iff` says which, for everything
  that makes the stack send.  If such a packet waits for its address, the refusal is not even seen,
  since `ducknet_ipv4_idle` does not look at the result of `ducknet_phy_send`.
-/
import JudgeDuck.Ducknet.RoundTrip
import JudgeDuck.E1000.Transmit
import JudgeDuck.Virtio.Model

namespace JudgeDuck.Ducknet

open JudgeDuck.Lib

/-! ## The drivers -/

/-- Neither driver refuses every packet of `n` bytes: in some state it sends one. -/
structure DriversAccept (n : Int) : Prop where
  e1000 : ∃ lay s buf, (E1000.send lay s buf n).2 ≠ -1
  virtio : ∃ q mem buffer buf, (Virtio.netSend q mem buffer buf n).2.2.2 ≠ -1

/-- A ring with a free descriptor takes every packet up to 1500 bytes. -/
theorem e1000_send_free (lay : E1000.Layout) {tx : E1000.Tx} (buf : Nat → UInt8) {n : Int}
    (hfree : (tx.tdt + 1) % E1000.tqSize ≠ tx.tdh) (h0 : 0 ≤ n) (h1500 : n ≤ 1500) :
    (E1000.send lay tx buf n).2 = 0 := by
  have hhead : E1000.refreshHead tx = tx := if_neg hfree
  -- the fragment has room in the current page, or in a new one
  have halloc : ∃ x, E1000.tqFragAlloc lay tx n.toNat = some x := by
    have hpage : E1000.roundFrag n.toNat ≤ E1000.pageSize := by
      rw [E1000.roundFrag_eq (by omega), E1000.pageSize]
      omega
    by_cases hcur : u64 (tx.lastTqPageOffset + E1000.roundFrag n.toNat) ≤ E1000.pageSize
    · exact ⟨_, if_pos hcur⟩
    · exact ⟨_, (if_neg hcur).trans (if_pos hpage)⟩
  rcases halloc with ⟨⟨tx', va, pa⟩, halloc⟩
  rw [E1000.send, if_neg (by omega)]
  simp only [hhead]
  rw [if_neg hfree, halloc]

/-- A queue with a free descriptor takes every packet up to 1500 bytes. -/
theorem virtio_send_free {q : Virtio.VirtQueue} (mem buffer buf : Nat → UInt8) {n : Int}
    (hfree : (Virtio.popUsed q).2.1 ≠ 0xffff) (h0 : 0 ≤ n) (h1500 : n ≤ 1500) :
    (Virtio.netSend q mem buffer buf n).2.2.2 = n := by
  rw [Virtio.netSend, if_neg (by omega)]
  simp only [Virtio.send, if_neg hfree, if_true]

/-- A ring that nothing was put into yet. -/
def emptyRing : E1000.Tx :=
  ⟨fun _ => ⟨0, 0, 0, 0, 0, 0, 0⟩, fun _ => 0, 0, 0, 0, 0, 0, 0, 0, fun _ => 0⟩

/-- **What the drivers accept**: 1500 bytes. -/
theorem driversAccept_iff {n : Int} : DriversAccept n ↔ 0 ≤ n ∧ n ≤ 1500 := by
  constructor
  · rintro ⟨⟨lay, tx, buf, hsent⟩, -⟩
    by_contra hrange
    rw [E1000.send, if_pos (by omega)] at hsent
    exact hsent rfl
  · rintro ⟨h0, h1500⟩
    constructor
    · refine ⟨⟨0, 0, by decide, by decide⟩, emptyRing, fun _ => 0, ?_⟩
      rw [e1000_send_free _ _ (by decide) h0 h1500]
      decide
    · refine ⟨{ Virtio.VirtQueue.bss with usedIdx := 1 }, fun _ => 0, fun _ => 0, fun _ => 0, ?_⟩
      rw [virtio_send_free _ _ _ (by decide) h0 h1500]
      omega

/-! ## What becomes of a packet -/

/-- What becomes of a packet whose frame has `n` bytes: it is passed to `ducknet_phy_send`; or it
    waits in a slot, from which it is passed on as long as the slot is not filled again; or there
    is no free slot. -/
inductive Outcome (s : Stack) (n : Int) (s' : Stack) : Prop
  | passed (frame : List UInt8) : s'.phy.calls = s.phy.calls ++ [⟨.sendbuf, frame⟩] →
      frame.length = n → Outcome s n s'
  | waits (i : Nat) : i < tosendTableSize → s.ipv4.isFree i = true → s'.ipv4.isFree i = false →
      (∀ t mac, t.ipv4.tosendTable i = s'.ipv4.tosendTable i →
        ∃ frame, (passOn t i mac).phy.calls = t.phy.calls ++ [⟨.tosend i, frame⟩] ∧
          frame.length = n) → Outcome s n s'
  | full : (∀ i, i < tosendTableSize → s.ipv4.isFree i = false) → s'.ipv4 = s.ipv4 →
      Outcome s n s'

/-- The frame that is passed on from the slot `i`. -/
theorem passOn_calls (t : Stack) (i : Nat) (mac : MacAddress) :
    ∃ frame, (passOn t i mac).phy.calls = t.phy.calls ++ [⟨.tosend i, frame⟩] ∧
      frame.length = (t.ipv4.tosendTable i).pktLen.toNat := by
  obtain ⟨phy, hphy, hcalls⟩ := phySend_spec { t with ipv4 := { t.ipv4.setFree i with
    tosendTable := Function.update (t.ipv4.setFree i).tosendTable i
      { t.ipv4.tosendTable i with pkt := putBytes (t.ipv4.tosendTable i).pkt 0 mac.bytes } } }
    (.tosend i) (t.ipv4.tosendTable i).pktLen
  have hpass : passOn t i mac = _ := hphy
  rw [hpass]
  exact ⟨_, hcalls, length_listOf _ _⟩

section Outcome

variable (s : Stack) {len : Int}

theorem etherSend_outcome (dst : MacAddress) (ethertype : UInt16) (payload : Nat → UInt8)
    (h0 : 0 ≤ len) (hmtu : len ≤ ducknetMTU) :
    Outcome s (len + 14) (etherSend s dst ethertype payload len).1 := by
  rw [etherSend, if_neg (by omega), if_neg (by omega)]
  obtain ⟨phy, hphy, hcalls⟩ := phySend_spec { s with
    sendbuf := memcpy (putBytes s.sendbuf 0 (EtherHeader.bytes ⟨dst, s.mac, htons ethertype⟩))
      sizeofEtherHeader payload len.toNat } .sendbuf (len + sizeofEtherHeader)
  refine .passed _ ((congrArg (fun t => t.phy.calls) hphy).trans hcalls) ?_
  rw [length_listOf]
  show ((len + 14).toNat : Int) = _
  omega

theorem length_ipv4Body (dst : UInt32) (protocol : UInt8) (payload : Nat → UInt8) :
    (ipv4Body s dst protocol payload len).length = 28 + len.toNat := by
  simp only [ipv4Body, List.length_append, MacAddress.length_bytes, IPv4Header.length_bytes,
    length_listOf]
  rfl

/-- **A valid packet is passed on, waits or finds no slot**; the frame has 34 more bytes than the
    content. -/
theorem ipv4Send_outcome (dst : UInt32) (protocol : UInt8) (payload : Nat → UInt8)
    (hlen : ValidLen len) :
    ∃ s' r, ipv4Send s dst protocol payload len = .ok (s', r) ∧ Outcome s (len + 34) s' := by
  have h0 := hlen.1
  cases hmac : s.arp.lookup (etherDst s dst) with
  | some mac =>
    obtain ⟨s', r, hsend, hcalls⟩ := ipv4Send_calls protocol payload hlen hmac
    refine ⟨s', r, hsend, .passed _ hcalls ?_⟩
    rw [List.length_append, length_ipv4Body, MacAddress.length_bytes]
    omega
  | none =>
    have haside := arpQuery_aside s (etherDst s dst)
    rw [ipv4Send, hmac]
    simp only [sendPending]
    generalize (arpQuery s (etherDst s dst)).1 = t at haside ⊢
    rcases findTosendFree_spec t.ipv4 with ⟨hnone, hfull⟩ | ⟨i, hsome, hi, hfree⟩
    · rw [haside.ipv4] at hfull
      exact ⟨t, -1, bind_of_ok hnone, .full hfull haside.ipv4⟩
    · obtain ⟨pkt, hbuild, -⟩ :=
        ipv4BuildPacket_spec t (t.ipv4.tosendTable i).pkt dst protocol payload hlen
      rw [bind_of_ok hsome]
      simp only [enqueue, hbuild]
      refine ⟨_, _, rfl, .waits i hi (haside.ipv4 ▸ hfree) ?_ fun u mac hentry => ?_⟩
      · simp
      · obtain ⟨frame, hcalls, hsize⟩ := passOn_calls u i mac
        refine ⟨frame, hcalls, ?_⟩
        have hentry' : (u.ipv4.tosendTable i).pktLen = len + 20 + 14 := by
          rw [hentry]
          show (Function.update t.ipv4.tosendTable i _ i).pktLen = _
          rw [Function.update_self]
          rfl
        omega

end Outcome

/-! ## Everything that makes the stack send -/

/-- A call that is to send a packet; `echo` is an ICMP message from `src` that has arrived. -/
inductive Sending where
  | udp (dst : UInt32) (dport sport : UInt16) (payload : Nat → UInt8) (len : Int)
  | ipv4 (dst : UInt32) (protocol : UInt8) (payload : Nat → UInt8) (len : Int)
  | ether (dst : MacAddress) (ethertype : UInt16) (payload : Nat → UInt8) (len : Int)
  | echo (src : UInt32) (pkt : Nat → UInt8) (len : Int)

def Sending.run (s : Stack) : Sending → Except Fault (Stack × Int)
  | .udp dst dport sport payload len => udpSend s dst dport sport payload len
  | .ipv4 dst protocol payload len => ipv4Send s dst protocol payload len
  | .ether dst ethertype payload len => .ok (etherSend s dst ethertype payload len)
  | .echo src pkt len => icmpMessage s src pkt len

/-- The length that the call is given. -/
def Sending.len : Sending → Int
  | .udp _ _ _ _ len => len
  | .ipv4 _ _ _ len => len
  | .ether _ _ _ len => len
  | .echo _ _ len => len

/-- The length passes the check of the function; an ICMP message is an echo request whose reply
    passes the check of `ducknet_ipv4_send`. -/
def Sending.Passes : Sending → Prop
  | .udp _ _ _ _ len => 0 ≤ len ∧ len + sizeofUdpHeader + sizeofIPv4Header ≤ ducknetMTU
  | .ipv4 _ _ _ len => 0 ≤ len ∧ len + sizeofIPv4Header ≤ ducknetMTU
  | .ether _ _ _ len => 0 ≤ len ∧ len ≤ ducknetMTU
  | .echo _ pkt len => (IcmpHeader.read pkt).type = icmpEchoRequest ∧ (IcmpHeader.read pkt).code = 0 ∧
      sizeofIcmpHeader ≤ len ∧ len + sizeofIPv4Header ≤ ducknetMTU

/-- The bytes of headers before the payload. -/
def Sending.headers : Sending → Int
  | .udp _ _ _ _ _ => 42
  | .ipv4 _ _ _ _ => 34
  | .ether _ _ _ _ => 14
  | .echo _ _ _ => 34

/-- The longest payload that the drivers send. -/
def Sending.room : Sending → Int
  | .udp _ _ _ _ _ => 1458
  | .ipv4 _ _ _ _ => 1466
  | .ether _ _ _ _ => 1486
  | .echo _ _ _ => 1466

/-- **Each layer puts its header before the payload**, and so the frame is as long as both. -/
theorem run_outcome (c : Sending) (s : Stack) (hpass : c.Passes) :
    ∃ s' r, c.run s = .ok (s', r) ∧ Outcome s (c.len + c.headers) s' := by
  have hipv4 : (sizeofIPv4Header : Int) = 20 := rfl
  have hudp : (sizeofUdpHeader : Int) = 8 := rfl
  have hicmp : (sizeofIcmpHeader : Int) = 8 := rfl
  cases c with
  | udp dst dport sport payload len =>
    obtain ⟨h0, hmtu⟩ := hpass
    have hvalid : ValidLen (len + sizeofUdpHeader) := ⟨by omega, hmtu⟩
    obtain ⟨s', r, hsend, hout⟩ := ipv4Send_outcome s dst protocolUdp (fun t =>
      (udpDatagram s.ip dst dport sport (listOf payload len.toNat)).getD t 0) hvalid
    refine ⟨s', r, ?_, ?_⟩
    · rw [Sending.run, udpSend, if_neg (by omega), if_neg (by omega)]
      exact hsend
    · rw [hudp, Int.add_assoc] at hout
      exact hout
  | ipv4 dst protocol payload len => exact ipv4Send_outcome s dst protocol payload hpass
  | ether dst ethertype payload len =>
    exact ⟨_, _, rfl, etherSend_outcome s dst ethertype payload hpass.1 hpass.2⟩
  | echo src pkt len =>
    obtain ⟨htype, hcode, h8, hmtu⟩ := hpass
    have hvalid : ValidLen len := ⟨by omega, hmtu⟩
    obtain ⟨s', r, hsend, hout⟩ := ipv4Send_outcome s src protocolIcmp (echoReply pkt len) hvalid
    refine ⟨s', 0, ?_, hout⟩
    rw [Sending.run, icmpMessage]
    simp only [htype, hcode, if_true, ne_eq, not_true_eq_false, if_false]
    rw [bind_of_ok hsend]

/-- **The size limits agree** for the packets up to 1500 bytes with the Ethernet header, and for no
    longer ones: of what passes the check of the stack, the drivers send this. -/
theorem frame_fits_iff (c : Sending) (s : Stack) (hpass : c.Passes) :
    ∃ s' r n, c.run s = .ok (s', r) ∧ Outcome s n s' ∧ n = c.len + c.headers ∧
      (DriversAccept n ↔ c.len ≤ c.room) := by
  obtain ⟨s', r, hrun, hout⟩ := run_outcome c s hpass
  refine ⟨s', r, _, hrun, hout, rfl, ?_⟩
  rw [driversAccept_iff]
  cases c with
  | udp dst dport sport payload len =>
    show 0 ≤ len + 42 ∧ len + 42 ≤ 1500 ↔ len ≤ 1458
    have h0 : 0 ≤ len := hpass.1
    omega
  | ipv4 dst protocol payload len =>
    show 0 ≤ len + 34 ∧ len + 34 ≤ 1500 ↔ len ≤ 1466
    have h0 : 0 ≤ len := hpass.1
    omega
  | ether dst ethertype payload len =>
    show 0 ≤ len + 14 ∧ len + 14 ≤ 1500 ↔ len ≤ 1486
    have h0 : 0 ≤ len := hpass.1
    omega
  | echo src pkt len =>
    show 0 ≤ len + 34 ∧ len + 34 ≤ 1500 ↔ len ≤ 1466
    have h8 : (8 : Int) ≤ len := hpass.2.2.1
    omega

/-- A datagram of 1458 bytes. -/
theorem frame_fits_1458 : ∃ s' r n, Sending.run sender (.udp 0x0a000002 8000 1234 (fun _ => 0) 1458)
      = .ok (s', r) ∧ Outcome sender n s' ∧ DriversAccept n := by
  obtain ⟨s', r, n, hrun, hout, -, hiff⟩ := frame_fits_iff
    (.udp 0x0a000002 8000 1234 (fun _ => 0) 1458) sender ⟨by decide, by decide⟩
  exact ⟨s', r, n, hrun, hout, hiff.mpr (by decide)⟩

/-- **One of 1472 bytes**, which `ducknet_udp_send` accepts: the frame of 1514 bytes is refused by
    both drivers, whatever their state. -/
theorem frame_1514_refused :
    ∃ s' r frame, udpSend sender 0x0a000002 8000 1234 (fun _ => 0) (1472 : Nat) = .ok (s', r) ∧
      s'.phy.calls = [⟨.sendbuf, frame⟩] ∧ frame.length = 1514 ∧
      (∀ lay tx buf, E1000.send lay tx buf frame.length = (tx, -1)) ∧
      ∀ q mem buffer buf, Virtio.netSend q mem buffer buf frame.length = (q, mem, buffer, -1) := by
  have hlen : 1472 ≤ 1472 := Nat.le_refl _
  obtain ⟨s', r, hsend, hcalls⟩ := udpSend_calls (fun _ => 0) 8000 1234 hlen sender_lookup
  have hlength : (udpFrame sender ⟨2, 0, 0, 0, 0, 2⟩ 0x0a000002 8000 1234
      (listOf (fun _ => 0) 1472)).length = 1514 := by
    rw [udpFrame, List.length_append, List.length_append, EtherHeader.length_bytes,
      IPv4Header.length_bytes, length_udpDatagram, length_listOf]
  refine ⟨s', r, _, hsend, hcalls, hlength, fun lay tx buf => ?_, fun q mem buffer buf => ?_⟩
  · rw [hlength]
    exact if_pos (by decide)
  · rw [hlength]
    exact if_pos (by decide)

end JudgeDuck.Ducknet
