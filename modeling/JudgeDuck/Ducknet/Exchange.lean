/-
  An address is resolved while a datagram waits for it.

  A station sends a datagram to another one whose address it does not know.  The datagram waits, a query is
  sent, the other station replies, the reply is noted, and the next sweep over the waiting packets passes the
  datagram on (`exchange_delivers`).  The link loses nothing in this run; apart from that it starts in any
  state that the stations can reach.  What is needed is room: in the two tables of ARP, in front of a greater
  address in the first one (an address above all others would be put in the wrong place), and in the table of
  waiting packets; and the sweep has to come before the packet expires.
-/
import JudgeDuck.Ducknet.Link

namespace JudgeDuck.Ducknet

open JudgeDuck.Lib

/-! ## The sweep passes on what is resolved -/

section Sweep

variable {ip : UInt32} {mac next : MacAddress} {told : Datagram → Prop} {s : Stack} {p : Pending} {i k : Nat}

/-- The frame of a packet that is passed on. -/
theorem passOn_frame (hlen : 6 ≤ (s.ipv4.tosendTable k).pktLen) (next : MacAddress) :
    (passOn s k next).phy.calls =
      s.phy.calls ++ [⟨.tosend k, next.bytes ++ (s.ipv4.tosendTable k).pending.body⟩] := by
  obtain ⟨phy, hs, hcalls⟩ := phySend_spec { s with ipv4 := { s.ipv4.setFree k with
    tosendTable := Function.update (s.ipv4.setFree k).tosendTable k
      { s.ipv4.tosendTable k with pkt := putBytes (s.ipv4.tosendTable k).pkt 0 next.bytes } } }
    (.tosend k) (s.ipv4.tosendTable k).pktLen
  have hpass : passOn s k next = _ := hs
  rw [hpass, hcalls]
  simp only [Stack.buffer, Function.update_self]
  rw [listOf_putMac next _ hlen]
  rfl

/-- A turn of the sweep, for another slot. -/
theorem sweepSlot_pendingAt (hik : k ≠ i) (s : Stack) :
    (sweepSlot i s).ipv4.pendingAt k = s.ipv4.pendingAt k := by
  rw [sweepSlot]
  split
  · rfl
  split
  · show (s.ipv4.setFree i).pendingAt k = _
    rw [pendingAt_setFree, Function.update_of_ne hik]
  split
  · rename_i next _
    obtain ⟨phy, hs, -⟩ := phySend_spec { s with ipv4 := { s.ipv4.setFree i with
      tosendTable := Function.update (s.ipv4.setFree i).tosendTable i
        { s.ipv4.tosendTable i with pkt := putBytes (s.ipv4.tosendTable i).pkt 0 next.bytes } } }
      (.tosend i) (s.ipv4.tosendTable i).pktLen
    have hpass : passOn s i next = _ := hs
    rw [hpass]
    simp only
    rw [pendingAt_update_free _ (by simp), pendingAt_setFree, Function.update_of_ne hik]
  · rw [(arpQuery_aside s _).ipv4]

theorem sweepSlot_calls (i : Nat) (s : Stack) : s.phy.calls <+: (sweepSlot i s).phy.calls := by
  obtain ⟨calls, hcalls, -⟩ := (sweepSlot_sweeps i s).calls
  rw [hcalls]
  exact List.prefix_append _ _

/-- The turn for the slot of a packet that has not expired and whose address is resolved. -/
theorem sweepSlot_passes (hlens : Lens s.ipv4) (hk : k < tosendTableSize) (hp : s.ipv4.pendingAt k = some p)
    (hearly : s.currenttime ≤ p.expireTime) (hnext : s.arp.lookup p.etherDstIp = some next) :
    ∃ call ∈ (sweepSlot k s).phy.calls, call.frame = next.bytes ++ p.body := by
  have htaken : ¬ s.ipv4.isFree k = true := by
    intro hfree
    rw [pendingAt_eq_none.mpr hfree] at hp
    cases hp
  rw [pendingAt_of_not_free htaken] at hp
  cases hp
  have hpass : sweepSlot k s = passOn s k next := by
    have hdst : s.arp.lookup (s.ipv4.tosendTable k).etherDstIp = some next := hnext
    have htime : ¬ s.currenttime > (s.ipv4.tosendTable k).expireTime := UInt64.not_lt.mpr hearly
    rw [sweepSlot, if_neg htaken, if_neg htime, hdst]
  rw [hpass, passOn_frame (hlens k hk htaken)]
  exact ⟨_, List.mem_append_right _ (List.mem_singleton_self _), rfl⟩

/-- **The sweep** passes such a packet on. -/
theorem idle_passes {now : UInt64} (hs : s.Honest ip mac told) (hsorted : s.arp.Sorted)
    (hk : k < tosendTableSize) (hp : s.ipv4.pendingAt k = some p) (hdue : s.ipv4.idleDelay < now - s.ipv4.lastIdleTime)
    (hearly : now ≤ p.expireTime) (hnext : s.arp.lookup p.etherDstIp = some next) :
    ∃ call ∈ (s.idle now).phy.calls, call.frame = next.bytes ++ p.body := by
  rw [Stack.idle, ipv4Idle, if_neg (fun h => absurd h.2 (UInt64.not_le.mpr hdue))]
  -- the packet waits until its turn, and was passed on after it
  have hloop := forUp_inv (f := sweepSlot) (n := tosendTableSize)
    (s := { s with
      currenttime := now, arp := s.arp.idle now
      ipv4 := { s.ipv4 with cnt := 0, lastIdleTime := now } })
    (fun t (s' : Stack) => s'.Honest ip mac told ∧ s'.currenttime = now ∧
      s'.arp.lookup p.etherDstIp = some next ∧ (t ≤ k → s'.ipv4.pendingAt k = some p) ∧
      (k < t → ∃ call ∈ s'.phy.calls, call.frame = next.bytes ++ p.body)) ?_ ?_
  · exact hloop.2.2.2.2 hk
  · refine ⟨⟨hs.ip_eq, hs.mac_eq, hs.waiting, hs.lens, hs.calls⟩, rfl, ?_, fun _ => hp, ?_⟩
    · simp only [(idle_lookup now hsorted).2.1]
      exact hnext
    · intro hlt
      exact absurd hlt (Nat.not_lt_zero k)
  · rintro t ht s' ⟨hhonest, htime, hlookup, hwaits, hpassed⟩
    refine ⟨hhonest.sweepSlot ht, (sweepSlot_sweeps t s').currenttime.trans htime, ?_, ?_, ?_⟩
    · rw [(sweepSlot_sweeps t s').lookup]
      exact hlookup
    · intro hle
      rw [sweepSlot_pendingAt (by omega)]
      exact hwaits (by omega)
    · intro hlt
      by_cases htk : t = k
      · rw [htk]
        exact sweepSlot_passes hhonest.lens hk (hwaits (by omega)) (htime ▸ hearly) hlookup
      · obtain ⟨call, hcall, hframe⟩ := hpassed (by omega)
        exact ⟨call, (sweepSlot_calls t s').subset hcall, hframe⟩

end Sweep

/-! ## The exchange -/

/-- The stack has room for a datagram to `ip`, a query for it, and the reply. -/
structure Stack.Ready (s : Stack) (ip : UInt32) : Prop where
  sorted : s.arp.Sorted
  room : s.arp.nArpEntries < arpTableSize
  unknown : ∀ e ∈ s.arp.entries, e.ip ≠ ip
  place : s.arp.nArpEntries = 0 ∨ ∃ e ∈ s.arp.entries, ip ≤ e.ip
  unasked : s.arp.Miss ip
  queries : s.arp.nArpQueries ≠ arpTableSize
  slot : ∃ k, k < tosendTableSize ∧ s.ipv4.isFree k = true

section Events

variable {ip : UInt32} {mac : MacAddress} {told : Datagram → Prop} {s : Stack} {d : Datagram}

/-- **The datagram waits**, and a query is sent. -/
theorem send_waits (hs : s.Honest ip mac told) (hready : s.Ready d.dst) (hlocal : etherDst s d.dst = d.dst)
    (hlen : d.content.length ≤ 1472) :
    ∃ sendbuf phy k entry, s.send d = .ok ({ s with
        sendbuf := sendbuf, phy := phy
        arp := s.arp.addQuery (s.arp.queryPlace d.dst)
          ⟨d.dst, timeAddMs s.tscFreq s.currenttime arpQueryTimeoutMs⟩
        ipv4 := s.ipv4.fill k entry }, 0) ∧
      phy.calls = s.phy.calls ++ [⟨.sendbuf, requestFrame s d.dst⟩] ∧ k < tosendTableSize ∧
      6 ≤ entry.pktLen ∧ entry.pending = ⟨d.dst, timeAddMs s.tscFreq s.currenttime tosendTimeoutMs,
        packetOf ip mac d.dst protocolUdp (udpDatagram ip d.dst d.dport d.sport d.content)⟩ := by
  have hnone : s.arp.lookup d.dst = none := by
    cases hlookup : s.arp.lookup d.dst with
    | none => rfl
    | some found =>
      obtain ⟨e, he, heip, -⟩ := mem_of_lookup hlookup
      exact absurd heip (hready.unknown e he)
  have hvalid : ValidLen ((d.content.length : Int) + sizeofUdpHeader) := by
    refine ⟨?_, ?_⟩
    · show 0 ≤ (d.content.length : Int) + 8
      omega
    · show (d.content.length : Int) + 8 + 20 ≤ 1500
      omega
  have hfits : ¬ (d.content.length : Int) + sizeofUdpHeader + sizeofIPv4Header > ducknetMTU :=
    Int.not_lt.mpr hvalid.2
  obtain ⟨sendbuf, phy, hcalls, hquery⟩ := arpQuery_new hready.unasked hready.queries
  rw [Stack.send, udpSend, if_neg (by omega), if_neg hfits, Int.toNat_natCast, listOf_getD]
  simp only [ipv4Send, hlocal, hnone, sendPending, hquery]
  rcases findTosendFree_spec s.ipv4 with ⟨-, hfull⟩ | ⟨k, hfound, hk, -⟩
  · obtain ⟨k, hk, hfree⟩ := hready.slot
    rw [hfull k hk] at hfree
    cases hfree
  · rw [bind_of_ok hfound]
    simp only [enqueue]
    obtain ⟨pkt, hbuild, hbody⟩ := ipv4BuildPacket_spec { s with
      sendbuf := sendbuf, phy := phy
      arp := s.arp.addQuery (s.arp.queryPlace d.dst)
        ⟨d.dst, timeAddMs s.tscFreq s.currenttime arpQueryTimeoutMs⟩ } (s.ipv4.tosendTable k).pkt d.dst
      protocolUdp (fun t => (udpDatagram s.ip d.dst d.dport d.sport d.content).getD t 0) hvalid
    rw [hbuild]
    refine ⟨sendbuf, phy, k, _, rfl, hcalls, hk, ?_, ?_⟩
    · show (6 : Int) ≤ d.content.length + 8 + 20 + 14
      omega
    · have hsize : (d.content.length : Int) + sizeofUdpHeader =
          (udpDatagram ip d.dst d.dport d.sport d.content).length := by
        rw [length_udpDatagram]
        rfl
      rw [Tosend.pending]
      simp only [hbody, ipv4Body, listOf_udpDatagram]
      rw [hs.ip_eq, hs.mac_eq, hsize, packetOf]

theorem ArpHeader.read_eq {buf : Nat → UInt8} {hdr : ArpHeader} (h : listOf buf 8 = hdr.bytes) :
    ArpHeader.read buf = hdr := by
  have hhtype : readU16 buf 0 = hdr.htype := readU16_eq h (by decide) rfl rfl
  have hptype : readU16 buf 2 = hdr.ptype := readU16_eq h (by decide) rfl rfl
  have hhlen : buf 4 = hdr.hlen := apply_of_listOf h (by decide) 0
  have hplen : buf 5 = hdr.plen := apply_of_listOf h (by decide) 0
  have hop : readU16 buf 6 = hdr.op := readU16_eq h (by decide) rfl rfl
  rw [ArpHeader.read, hhtype, hptype, hhlen, hplen, hop]

/-- **An ARP message of a station** reaches the part that answers and notes. -/
theorem receive_arp {h : Host} {next : MacAddress} {op : UInt16} {target frame : List UInt8}
    (hhooks : h.hooks = serverHooks) (hnext : next = h.stack.mac ∨ next = etherBroadcastAddr)
    (hframe : frame = arpHeaders next mac op ++ (mac.bytes ++ le32 (htonl ip) ++ target))
    (htarget : target.length = 10) :
    ∃ payload, listOf payload 20 = mac.bytes ++ (le32 (htonl ip) ++ target) ∧
      h.step (.receive frame) = .ok { h with stack := (arpMessage h.stack op payload (20 : Nat)).1 } := by
  have hpadded : frame = arpHeaders next mac op ++ (mac.bytes ++ le32 (htonl ip) ++ target) ++ [] := by
    rw [hframe, List.append_nil]
  obtain ⟨hether, hbytes⟩ := read_arp hpadded
  have hlength : frame.length = 42 := by
    rw [hframe, List.length_append, List.length_append, htarget]
    rfl
  have harp : ArpHeader.read (behind (fun t => frame.getD t 0) 14) =
      ⟨htons htypeEthernet, htons ptypeIPv4, 6, 4, htons op⟩ := by
    have hpkt : listOf (fun t => frame.getD t 0) frame.length =
        EtherHeader.bytes ⟨next, mac, htons ethertypeArp⟩ ++
          (ArpHeader.bytes ⟨htons htypeEthernet, htons ptypeIPv4, 6, 4, htons op⟩ ++
            (mac.bytes ++ le32 (htonl ip) ++ target)) := by
      rw [listOf_getD, hframe]
      simp only [arpHeaders, EtherHeader.bytes, ArpHeader.bytes, List.append_assoc]
    exact ArpHeader.read_eq (listOf_eq_append (listOf_eq_append hpkt).2).1
  have hsizes : ¬ (frame.length : Int) < sizeofEtherHeader ∧
      ¬ (frame.length : Int) - sizeofEtherHeader < sizeofArpHeader ∧
      (frame.length : Int) - sizeofEtherHeader - sizeofArpHeader = (20 : Nat) := by
    have h14 : (sizeofEtherHeader : Int) = 14 := rfl
    have h8 : (sizeofArpHeader : Int) = 8 := rfl
    omega
  have hcontent : ∀ hdr : EtherHeader, behind (putBytes (fun t => frame.getD t 0) 0 hdr.bytes)
      sizeofEtherHeader = behind (fun t => frame.getD t 0) 14 := fun hdr => behind_putBytes rfl
  have hpayload : ∀ hdr : ArpHeader, behind (putBytes (behind (fun t => frame.getD t 0) 14) 0 hdr.bytes)
      sizeofArpHeader = behind (fun t => frame.getD t 0) 22 :=
    fun hdr => (behind_putBytes rfl).trans (behind_behind _ 14 8)
  have hdst : ¬ (next ≠ h.stack.mac ∧ next ≠ etherBroadcastAddr) := fun hnot => hnext.elim hnot.1 hnot.2
  have hbare : h.hooks.ether = none ∧ h.hooks.arp = none := by
    rw [hhooks]
    exact ⟨rfl, rfl⟩
  refine ⟨behind (fun t => frame.getD t 0) 22, ?_, ?_⟩
  · rw [hlength, List.append_nil] at hbytes
    exact hbytes
  · rw [Host.step, Host.receive, etherPacketHandle, if_neg hsizes.1]
    simp only [hether, hcontent, etherHton, hbare.1, Host.hook, htons_htons]
    rw [if_neg hdst, if_pos trivial, arpPacketHandle, if_neg hsizes.2.1]
    simp only [harp, hpayload, arpHton, hbare.2, Host.hook, htons_htons, hsizes.2.2]
    rfl

/-- **A query for the own address is answered.** -/
theorem arpMessage_request {asker : MacAddress} {askerIp : UInt32} {payload : Nat → UInt8} {len : Nat}
    (hlen : 20 ≤ len) (hpayload : listOf payload len = asker.bytes ++ (le32 (htonl askerIp) ++
      (List.replicate 6 0 ++ le32 (htonl s.ip)))) :
    ∃ sendbuf phy, (arpMessage s arpRequest payload len).1 = { s with sendbuf := sendbuf, phy := phy } ∧
      phy.calls = s.phy.calls ++ [⟨.sendbuf, arpHeaders asker s.mac arpReply ++
        (s.mac.bytes ++ le32 (htonl s.ip) ++ (asker.bytes ++ le32 (htonl askerIp)))⟩] := by
  obtain ⟨hsha, hspa⟩ := read_sender (by omega) hpayload
  have htpa : htonl (readU32 payload 16) = s.ip := by
    rw [readU32_eq hpayload (by omega) rfl rfl rfl rfl, htonl_htonl]
  have hshort : (replyPayload s asker askerIp s.ip).length ≤ 1492 := Nat.le_add_left 20 1472
  have hreply : replyPayload s asker askerIp s.ip =
      s.mac.bytes ++ le32 (htonl s.ip) ++ (asker.bytes ++ le32 (htonl askerIp)) := List.append_assoc _ _ _
  rw [arpMessage, if_neg (by omega), hsha, hspa, htpa, ← hreply]
  simp only [if_true]
  exact arpSend_spec s asker arpReply hshort

/-- **A reply is noted.** -/
theorem arpMessage_reply {answerer : MacAddress} {answererIp : UInt32} {payload : Nat → UInt8} {len : Nat}
    {rest : List UInt8} (hlen : 20 ≤ len)
    (hpayload : listOf payload len = answerer.bytes ++ (le32 (htonl answererIp) ++ rest)) :
    (arpMessage s arpReply payload len).1 =
      { s with arp := (s.arp.update s.currenttime s.tscFreq answererIp answerer).1 } := by
  obtain ⟨hsha, hspa⟩ := read_sender (by omega) hpayload
  rw [arpMessage, if_neg (by omega), hsha, hspa]
  rfl

end Events

/-! ## The two sides -/

section Sides

variable {ip ip' : UInt32} {mac mac' : MacAddress} {told : Datagram → Prop} {h : Host} {d : Datagram}

/-- A query of station `ip`, `mac` for `asked`. -/
def queryFrame (ip : UInt32) (mac : MacAddress) (asked : UInt32) : List UInt8 :=
  arpHeaders etherBroadcastAddr mac arpRequest ++
    (mac.bytes ++ le32 (htonl ip) ++ (List.replicate 6 0 ++ le32 (htonl asked)))

/-- The reply of station `ip`, `mac` to station `ip'`, `mac'`. -/
def replyFrame (ip : UInt32) (mac : MacAddress) (ip' : UInt32) (mac' : MacAddress) : List UInt8 :=
  arpHeaders mac' mac arpReply ++ (mac.bytes ++ le32 (htonl ip) ++ (mac'.bytes ++ le32 (htonl ip')))

/-- The frame of a datagram from station `ip`, `mac` to station `mac'`. -/
def datagramFrame (ip : UInt32) (mac mac' : MacAddress) (d : Datagram) : List UInt8 :=
  mac'.bytes ++ packetOf ip mac d.dst protocolUdp (udpDatagram ip d.dst d.dport d.sport d.content)

/-- **The sender**: it asks, it notes the reply, and it passes the datagram on. -/
theorem sender_side {now : UInt64} (mac' : MacAddress) (hh : h.Honest ip mac told) (htold : told d) (hready : h.stack.Ready d.dst)
    (hlocal : etherDst h.stack d.dst = d.dst) (hlen : d.content.length ≤ 1472)
    (hdue : h.stack.ipv4.idleDelay < now - h.stack.ipv4.lastIdleTime)
    (hearly : now ≤ timeAddMs h.stack.tscFreq h.stack.currenttime tosendTimeoutMs) :
    ∃ h1 h2 h3, h.step (.send d) = .ok h1 ∧
      h1.stack.phy.calls = h.stack.phy.calls ++ [⟨.sendbuf, queryFrame ip mac d.dst⟩] ∧
      h1.step (.receive (replyFrame d.dst mac' ip mac)) = .ok h2 ∧ h2.step (.idle now) = .ok h3 ∧
      ∃ call ∈ h3.stack.phy.calls, call.frame = datagramFrame ip mac mac' d := by
  obtain ⟨sendbuf, phy, k, entry, hsend, hcalls, hk, -, hentry⟩ := send_waits hh.stack hready hlocal hlen
  obtain ⟨h1, hh1⟩ : ∃ h1 : Host, h1 = { h with stack := { h.stack with
    sendbuf := sendbuf, phy := phy
    arp := h.stack.arp.addQuery (h.stack.arp.queryPlace d.dst)
      ⟨d.dst, timeAddMs h.stack.tscFreq h.stack.currenttime arpQueryTimeoutMs⟩
    ipv4 := h.stack.ipv4.fill k entry } } := ⟨_, rfl⟩
  have hstep1 : h.step (.send d) = .ok h1 := by rw [Host.step, bind_of_ok hsend, hh1]
  have hhonest1 : h1.Honest ip mac told := by
    refine hh.step ?_ hstep1
    rintro d' ⟨⟩
    exact htold
  -- the reply is noted
  have hreply : replyFrame d.dst mac' ip mac = arpHeaders mac mac' arpReply ++
    (mac'.bytes ++ le32 (htonl d.dst) ++ (mac.bytes ++ le32 (htonl ip))) := rfl
  obtain ⟨payload, hpayload, hstep2⟩ := receive_arp hhonest1.hooks (.inl hhonest1.stack.mac_eq.symm) hreply rfl
  rw [arpMessage_reply (Nat.le_refl 20) hpayload] at hstep2
  obtain ⟨a, hupdate, hstored⟩ := update_new mac' h1.stack.currenttime h1.stack.tscFreq
    (show h1.stack.arp.Sorted by rw [hh1]; exact hready.sorted)
    (show h1.stack.arp.nArpEntries < arpTableSize by rw [hh1]; exact hready.room)
    (show ∀ e ∈ h1.stack.arp.entries, e.ip ≠ d.dst by rw [hh1]; exact hready.unknown)
    (show h1.stack.arp.nArpEntries = 0 ∨ ∃ e ∈ h1.stack.arp.entries, d.dst ≤ e.ip by
      rw [hh1]; exact hready.place)
  rw [hupdate] at hstep2
  have hhonest2 := hhonest1.step (fun d' hd' => by cases hd') hstep2
  have hlookup : a.lookup d.dst = some mac' := by
    rw [hstored.lookup (show h1.stack.arp.Sorted by rw [hh1]; exact hready.sorted), Function.update_self]
  have hpending : (h1.stack.ipv4).pendingAt k = some entry.pending := by
    rw [hh1, pendingAt_fill, Function.update_self]
  refine ⟨h1, _, _, hstep1, ?_, hstep2, rfl, ?_⟩
  · rw [hh1, hcalls, requestFrame, queryPayload, hh.stack.ip_eq, hh.stack.mac_eq, queryFrame,
      List.append_assoc _ (List.replicate 6 0)]
  · have hdue1 : h1.stack.ipv4.idleDelay < now - h1.stack.ipv4.lastIdleTime := by
      rw [hh1]
      exact hdue
    have hearly1 : now ≤ entry.pending.expireTime := by
      rw [hentry]
      exact hearly
    have hlookup1 : a.lookup entry.pending.etherDstIp = some mac' := by
      rw [hentry]
      exact hlookup
    obtain ⟨call, hcall, hframe⟩ :=
      idle_passes hhonest2.stack hstored.sorted hk hpending hdue1 hearly1 hlookup1
    refine ⟨call, hcall, hframe.trans ?_⟩
    rw [hentry]
    rfl

/-- **The receiver**: it replies, and it gets the datagram. -/
theorem receiver_side (ip : UInt32) (mac : MacAddress) (hh : h.Honest ip' mac' told) (hdst : d.dst = ip') (hlen : d.content.length ≤ 1472) :
    ∃ h1 h2 hdr, h.step (.receive (queryFrame ip mac d.dst)) = .ok h1 ∧
      h1.stack.phy.calls = h.stack.phy.calls ++ [⟨.sendbuf, replyFrame d.dst mac' ip mac⟩] ∧
      h1.step (.receive (datagramFrame ip mac mac' d)) = .ok h2 ∧ hdr.dport = d.dport ∧ hdr.sport = d.sport ∧
      h2.udpCalls = h.udpCalls ++ [⟨ip, d.dst, hdr, d.content⟩] := by
  have hquery : queryFrame ip mac d.dst = arpHeaders etherBroadcastAddr mac arpRequest ++
    (mac.bytes ++ le32 (htonl ip) ++ (List.replicate 6 0 ++ le32 (htonl d.dst))) := rfl
  obtain ⟨payload, hpayload, hstep1⟩ := receive_arp hh.hooks (.inr rfl) hquery rfl
  have hip : h.stack.ip = d.dst := hh.stack.ip_eq.trans hdst.symm
  obtain ⟨sendbuf, phy, hreply, hcalls⟩ := arpMessage_request (s := h.stack) (Nat.le_refl 20) (hip ▸ hpayload)
  rw [hreply] at hstep1
  have hhonest1 := hh.step (fun d' hd' => by cases hd') hstep1
  -- the datagram is in the frame
  obtain ⟨⟨h2, r⟩, hrecv⟩ := exists_receive { h with
    stack := { h.stack with sendbuf := sendbuf, phy := phy } } (datagramFrame ip mac mac' d)
  have hpadded : datagramFrame ip mac mac' d = mac'.bytes ++ packetOf ip mac d.dst protocolUdp
      (udpDatagram ip d.dst d.dport d.sport d.content) ++ [] := (List.append_nil _).symm
  have hudp : udpIn h.stack.ip h.stack.mac (datagramFrame ip mac mac' d) =
      some ⟨ip, d.dst, udpHton (udpHeader ip d.dst d.dport d.sport d.content), d.content⟩ := by
    rw [udpIn_datagram hlen hpadded, if_pos ⟨.inl hh.stack.mac_eq.symm, .inr hip.symm⟩]
  have hcases := receive_cases hhonest1.hooks hrecv
  have hcall : h2.udpCalls = h.udpCalls ++ [⟨ip, d.dst, udpHton (udpHeader ip d.dst d.dport d.sport d.content),
      d.content⟩] := by
    cases hcases with
    | refused hnone =>
      rw [hudp] at hnone
      cases hnone
    | arp _ hnone =>
      rw [hudp] at hnone
      cases hnone
    | echo hnone =>
      rw [hudp] at hnone
      cases hnone
    | udp hsome =>
      rw [hudp] at hsome
      cases hsome
      rw [Host.udpCalls, List.filterMap_append]
      rfl
  refine ⟨_, h2, _, hstep1, ?_, by rw [Host.step, bind_of_ok hrecv], ?_, ?_, hcall⟩
  · rw [hcalls, replyFrame, hip, hh.stack.mac_eq]
  · rw [udpHton_udpHeader]
  · rw [udpHton_udpHeader]

end Sides

/-! ## On the link -/

section Net

variable {ι : Type} [DecidableEq ι] {S : Stations ι} {n : Net ι} {i j : ι} {d : Datagram}

theorem run_cons {n' : Net ι} {e : LinkEvent ι} (hstep : n.step e = .ok n') (es : List (LinkEvent ι)) :
    n.run (e :: es) = n'.run es := by
  rw [Net.run, List.foldlM_cons, bind_of_ok hstep]
  rfl

/-- An event at station `i` leaves the others. -/
theorem stepAt_spec {h h' : Host} {e : StationEvent} (hi : n.host i = h) (hstep : h.step e = .ok h') :
    ∃ n', n.stepAt i e = .ok n' ∧ n'.host i = h' ∧ ∀ m, m ≠ i → n'.host m = n.host m := by
  refine ⟨{ n with host := Function.update n.host i h' }, ?_, Function.update_self _ _ _, ?_⟩
  · rw [Net.stepAt, hi, bind_of_ok hstep]
  · exact fun m hm => Function.update_of_ne hm _ _

theorem receive_spec {h h' : Host} {k : Nat} {call : PhyCall} {frame : List UInt8} (hi : n.host i = h)
    (hcall : (n.host j).stack.phy.calls[k]? = some call) (hframe : call.frame = frame)
    (hstep : h.step (.receive frame) = .ok h') :
    ∃ n', n.step (.receive i j k []) = .ok n' ∧ n'.host i = h' ∧ ∀ m, m ≠ i → n'.host m = n.host m := by
  rw [Net.step, hcall]
  simp only [List.append_nil, hframe]
  exact stepAt_spec hi hstep

/-- **A datagram to a station that is not resolved yet arrives**, from any state that the stations can reach:
    after the query, the reply and the next sweep. -/
theorem exchange_delivers {n0 : Net ι} (hn : n0.Fresh S) (es : List (LinkEvent ι)) (hrun : n0.run es = .ok n)
    (hij : j ≠ i) (hdst : d.dst = S.ip j) (hlen : d.content.length ≤ 1472)
    (hlocal : etherDst (n.host i).stack d.dst = d.dst) (hready : (n.host i).stack.Ready d.dst) (now : UInt64)
    (hdue : (n.host i).stack.ipv4.idleDelay < now - (n.host i).stack.ipv4.lastIdleTime)
    (hearly : now ≤ timeAddMs (n.host i).stack.tscFreq (n.host i).stack.currenttime tosendTimeoutMs) :
    ∃ k1 k2 k3 n' hdr, n.run [.send i d, .receive j i k1 [], .receive i j k2 [], .idle i now,
        .receive j i k3 []] = .ok n' ∧ hdr.dport = d.dport ∧ hdr.sport = d.sport ∧
      (n'.host j).udpCalls = (n.host j).udpCalls ++ [⟨S.ip i, d.dst, hdr, d.content⟩] := by
  obtain ⟨n1, hrun1, hsound⟩ := sound_run hn es
  rw [hrun] at hrun1
  cases hrun1
  obtain ⟨a1, a2, a3, hsend, hasked, hnoted, hidle, call, hcall, hframe⟩ :=
    sender_side (S.mac j) ((hsound i).mono (i, d)).honest List.mem_cons_self hready hlocal hlen hdue hearly
  obtain ⟨b1, b2, hdr, hquery, hreplied, hdatagram, hdport, hsport, hcalls⟩ :=
    receiver_side (S.ip i) (S.mac i) (hsound j).honest hdst hlen
  obtain ⟨k3, hk3⟩ := List.mem_iff_getElem?.mp hcall
  -- the five events, with what the two stations are after each of them
  obtain ⟨n1, hs1, h1i, h1⟩ := stepAt_spec (n := { n with sent := (i, d) :: n.sent }) rfl hsend
  have hget1 : (n1.host i).stack.phy.calls[(n.host i).stack.phy.calls.length]? =
      some ⟨.sendbuf, queryFrame (S.ip i) (S.mac i) d.dst⟩ := by
    rw [h1i, hasked, List.getElem?_concat_length]
  obtain ⟨n2, hs2, h2j, h2⟩ := receive_spec (h1 j hij) hget1 rfl hquery
  have hget2 : (n2.host j).stack.phy.calls[(n.host j).stack.phy.calls.length]? =
      some ⟨.sendbuf, replyFrame d.dst (S.mac j) (S.ip i) (S.mac i)⟩ := by
    rw [h2j, hreplied, List.getElem?_concat_length]
  obtain ⟨n3, hs3, h3i, h3⟩ := receive_spec ((h2 i hij.symm).trans h1i) hget2 rfl hnoted
  obtain ⟨n4, hs4, h4i, h4⟩ := stepAt_spec h3i hidle
  have hget4 : (n4.host i).stack.phy.calls[k3]? = some call := by rw [h4i, hk3]
  obtain ⟨n5, hs5, h5j, -⟩ := receive_spec ((h4 j hij).trans ((h3 j hij).trans h2j)) hget4 hframe hdatagram
  have hsent : n.step (.send i d) = .ok n1 := hs1
  have hidled : n3.step (.idle i now) = .ok n4 := hs4
  refine ⟨(n.host i).stack.phy.calls.length, (n.host j).stack.phy.calls.length, k3, n5, hdr, ?_, hdport, hsport, ?_⟩
  · rw [run_cons hsent, run_cons hs2, run_cons hs3, run_cons hidled, run_cons hs5]
    rfl
  · rw [h5j, hcalls]

end Net

theorem ready_pairNet : (pairNet.host false).stack.Ready 0x0a000002 where
  sorted := fun i j _ hj => absurd hj (Nat.not_lt_zero j)
  room := by decide
  unknown := fun e he => absurd he List.not_mem_nil
  place := .inl rfl
  unasked := .inl (Nat.zero_le _)
  queries := by decide
  slot := ⟨0, by decide, by decide +kernel⟩

theorem exchange_delivers_pair : ∃ k1 k2 k3 n hdr, pairNet.run
      [.send false ⟨0x0a000002, 9999, 1234, [7]⟩, .receive true false k1 [], .receive false true k2 [],
        .idle false 1, .receive true false k3 []] = .ok n ∧ hdr.dport = 9999 ∧ hdr.sport = 1234 ∧
      (n.host true).udpCalls = [⟨0x0a000001, 0x0a000002, hdr, [7]⟩] :=
  exchange_delivers (i := false) (j := true) (d := ⟨0x0a000002, 9999, 1234, [7]⟩) fresh_pairNet [] rfl (by decide)
    rfl (by decide) (by decide +kernel) ready_pairNet 1 (by decide) (by decide)

end JudgeDuck.Ducknet
