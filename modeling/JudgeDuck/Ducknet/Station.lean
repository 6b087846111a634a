/-
  One station, whatever arrives.

  A station sends datagrams, idles, and receives frames; the frames are any bytes at all.  Its hook of UDP is
  the one of the server.  The hook sends nothing here: what the server sends is an event of its own, because
  the stack returns right after the hook.

  Receiving a frame is one of four things (`receive_cases`): the frame is refused, or an ARP message is
  answered or noted, or an echo request is answered, or a datagram is handed to the hook, and which datagram
  is a function of the frame and of the addresses of the station (`udpIn`).  So what a station sends is always
  an ARP message in its own name, an echo reply, or a datagram that it was told to send (`frames_honest`): no
  frame makes it speak for another station or send a datagram of its own accord.
-/
import JudgeDuck.Ducknet.ArpQueries
import JudgeDuck.Ducknet.Outbox
import JudgeDuck.Ducknet.RoundTrip
import JudgeDuck.Ducknet.Limits

namespace JudgeDuck.Ducknet

open JudgeDuck.Lib

/-! ## The station -/

/-- A call of `ducknet_udp_send`. -/
structure Datagram where
  dst : UInt32
  dport : UInt16
  sport : UInt16
  content : List UInt8
  deriving DecidableEq

/-- The hooks of the server. -/
def serverHooks : Hooks := ⟨none, none, none, none, some fun _ _ s => (s, -1)⟩

/-- `ducknet_idle()`: the time, the address table, the waiting packets. -/
def Stack.idle (s : Stack) (now : UInt64) : Stack :=
  ipv4Idle { s with currenttime := now, arp := s.arp.idle now }

/-- `ducknet_udp_send`, for a datagram. -/
def Stack.send (s : Stack) (d : Datagram) : Except Fault (Stack × Int) :=
  udpSend s d.dst d.dport d.sport (fun t => d.content.getD t 0) d.content.length

/-- `ducknet_packet_handle`, for a frame. -/
def Host.receive (h : Host) (frame : List UInt8) : Except Fault (Host × Int) :=
  etherPacketHandle h (fun t => frame.getD t 0) frame.length

/-- What happens to a station. -/
inductive StationEvent where
  | send (d : Datagram)
  | idle (now : UInt64)
  | receive (frame : List UInt8)

/-- One event. -/
def Host.step (h : Host) : StationEvent → Except Fault Host
  | .send d => do
    let r ← h.stack.send d
    .ok { h with stack := r.1 }
  | .idle now => .ok { h with stack := h.stack.idle now }
  | .receive frame => do
    let r ← h.receive frame
    .ok r.1

/-- A run. -/
def Host.run (h : Host) (es : List StationEvent) : Except Fault Host := es.foldlM Host.step h

/-- A station after `ducknet_init`: nothing is resolved, nothing waits, nothing was sent. -/
structure Host.Fresh (ip : UInt32) (mac : MacAddress) (h : Host) : Prop where
  ip : h.stack.ip = ip
  mac : h.stack.mac = mac
  entries : h.stack.arp.nArpEntries = 0
  slots : ∀ k, k < tosendTableSize → h.stack.ipv4.isFree k = true
  calls : h.stack.phy.calls = []
  hooks : h.hooks = serverHooks
  log : h.hookCalls = []

/-! ## Nothing faults -/

section Total

/-- Sending never faults, whatever the length says. -/
theorem exists_ipv4Send (s : Stack) (dst : UInt32) (protocol : UInt8) (payload : Nat → UInt8) (len : Int) :
    ∃ r, ipv4Send s dst protocol payload len = .ok r := by
  rw [ipv4Send]
  split
  · exact ⟨_, rfl⟩
  · rw [sendPending]
    rcases findTosendFree_spec (arpQuery s (etherDst s dst)).1.ipv4 with ⟨hnone, -⟩ | ⟨id, hsome, -⟩
    · exact ⟨_, by rw [bind_of_ok hnone]⟩
    · exact ⟨_, by rw [bind_of_ok hsome]⟩

theorem exists_send (s : Stack) (d : Datagram) : ∃ r, s.send d = .ok r := by
  rw [Stack.send, udpSend]
  split
  · exact ⟨_, rfl⟩
  split
  · exact ⟨_, rfl⟩
  · exact exists_ipv4Send _ _ _ _ _

theorem exists_hook (h : Host) (handle : Option Hook) (c : HookCall) {next : Host → Except Fault (Host × Int)}
    (hnext : ∀ h, ∃ r, next h = .ok r) : ∃ r, h.hook handle c next = .ok r := by
  cases handle with
  | none => exact hnext h
  | some f =>
    show ∃ r, (if (f h.hookCalls.length c h.stack).2 < 0 then _ else _) = _
    split
    · exact ⟨_, rfl⟩
    · exact hnext _

/-- Receiving never faults either, layer by layer. -/
theorem exists_icmpPacketHandle (h : Host) (src dst : UInt32) (pkt : Nat → UInt8) (len : Int) :
    ∃ r, icmpPacketHandle h src dst pkt len = .ok r := by
  rw [icmpPacketHandle]
  split
  · exact ⟨_, rfl⟩
  refine exists_hook _ _ _ fun h => ?_
  have hmessage : ∃ r, icmpMessage h.stack src pkt len = .ok r := by
    rw [icmpMessage]
    simp only
    split
    · split
      · exact ⟨_, rfl⟩
      · obtain ⟨r, hsend⟩ := exists_ipv4Send h.stack src protocolIcmp (echoReply pkt len) len
        exact ⟨_, by rw [bind_of_ok hsend]⟩
    · exact ⟨_, rfl⟩
  obtain ⟨r, hr⟩ := hmessage
  exact ⟨_, by rw [bind_of_ok hr]⟩

theorem exists_udpPacketHandle (h : Host) (src dst : UInt32) (pkt : Nat → UInt8) (len : Int) :
    ∃ r, udpPacketHandle h src dst pkt len = .ok r := by
  rw [udpPacketHandle]
  split
  · exact ⟨_, rfl⟩
  · exact exists_hook _ _ _ fun h => ⟨_, rfl⟩

theorem exists_ipv4PacketHandle (h : Host) (pkt : Nat → UInt8) (len : Int) :
    ∃ r, ipv4PacketHandle h pkt len = .ok r := by
  rw [ipv4PacketHandle]
  split
  · exact ⟨_, rfl⟩
  refine exists_hook _ _ _ fun h => ?_
  repeat' split
  all_goals first
    | exact ⟨_, rfl⟩
    | exact exists_icmpPacketHandle _ _ _ _ _
    | exact exists_udpPacketHandle _ _ _ _ _

theorem exists_arpPacketHandle (h : Host) (pkt : Nat → UInt8) (len : Int) :
    ∃ r, arpPacketHandle h pkt len = .ok r := by
  rw [arpPacketHandle]
  split
  · exact ⟨_, rfl⟩
  refine exists_hook _ _ _ fun h => ?_
  repeat' split
  all_goals exact ⟨_, rfl⟩

/-- **Whatever arrives, the stack returns**, with any hooks. -/
theorem exists_receive (h : Host) (frame : List UInt8) : ∃ r, h.receive frame = .ok r := by
  rw [Host.receive, etherPacketHandle]
  split
  · exact ⟨_, rfl⟩
  refine exists_hook _ _ _ fun h => ?_
  split
  · exact ⟨_, rfl⟩
  split
  · exact exists_arpPacketHandle _ _ _
  split
  · exact exists_ipv4PacketHandle _ _ _
  · exact ⟨_, rfl⟩

theorem exists_hostStep (h : Host) (e : StationEvent) : ∃ h', h.step e = .ok h' := by
  cases e with
  | send d =>
    obtain ⟨r, hsend⟩ := exists_send h.stack d
    exact ⟨_, by rw [Host.step, bind_of_ok hsend]⟩
  | idle now => exact ⟨_, rfl⟩
  | receive frame =>
    obtain ⟨r, hrecv⟩ := exists_receive h frame
    exact ⟨_, by rw [Host.step, bind_of_ok hrecv]⟩

end Total

/-! ## What a frame is -/

/-- A header of IPv4, in a frame of `len` bytes, of a datagram that station `ip` takes. -/
structure CarriesUdp (ip : UInt32) (len : Nat) (hdr : IPv4Header) : Prop where
  version : hdr.version = 4
  ihl : hdr.ihl = 5
  fits : hdr.length.toNat + 14 ≤ len
  whole : hdr.flags &&& ~~~ flagsDF = 0
  dst : ~~~ hdr.dst = 0 ∨ hdr.dst = ip
  protocol : hdr.protocol = protocolUdp
  long : 28 ≤ hdr.length.toNat

instance (ip : UInt32) (len : Nat) (hdr : IPv4Header) : Decidable (CarriesUdp ip len hdr) :=
  decidable_of_iff (hdr.version = 4 ∧ hdr.ihl = 5 ∧ hdr.length.toNat + 14 ≤ len ∧
      hdr.flags &&& ~~~ flagsDF = 0 ∧ (~~~ hdr.dst = 0 ∨ hdr.dst = ip) ∧ hdr.protocol = protocolUdp ∧
      28 ≤ hdr.length.toNat)
    ⟨fun ⟨h1, h2, h3, h4, h5, h6, h7⟩ => ⟨h1, h2, h3, h4, h5, h6, h7⟩,
      fun h => ⟨h.version, h.ihl, h.fits, h.whole, h.dst, h.protocol, h.long⟩⟩

/-- A header of Ethernet, of a packet of IPv4 that station `mac` takes. -/
structure CarriesIpv4 (mac : MacAddress) (hdr : EtherHeader) : Prop where
  dst : hdr.dst = mac ∨ hdr.dst = etherBroadcastAddr
  ethertype : htons hdr.ethertype = ethertypeIPv4

instance (mac : MacAddress) (hdr : EtherHeader) : Decidable (CarriesIpv4 mac hdr) :=
  decidable_of_iff ((hdr.dst = mac ∨ hdr.dst = etherBroadcastAddr) ∧ htons hdr.ethertype = ethertypeIPv4)
    ⟨fun h => ⟨h.1, h.2⟩, fun h => ⟨h.dst, h.ethertype⟩⟩

/-- The datagram in a frame, for the station `ip`, `mac`. -/
def udpIn (ip : UInt32) (mac : MacAddress) (frame : List UInt8) : Option UdpCall :=
  let pkt : Nat → UInt8 := fun t => frame.getD t 0
  let hdr := ipv4Hton (.read (behind pkt 14))
  if CarriesIpv4 mac (.read pkt) ∧ CarriesUdp ip frame.length hdr then
    some ⟨hdr.src, hdr.dst, udpHton (.read (behind pkt 34)),
      listOf (behind pkt 42) (hdr.length.toNat - 28)⟩
  else none

/-- What becomes of a station that receives `frame`. -/
inductive Host.Receives (h : Host) (frame : List UInt8) : Host → Prop
  /-- The frame is not for the station, or it is not understood. -/
  | refused : udpIn h.stack.ip h.stack.mac frame = none → h.Receives frame h
  /-- A message of ARP. -/
  | arp (op : UInt16) : udpIn h.stack.ip h.stack.mac frame = none →
      htons (EtherHeader.read fun t => frame.getD t 0).ethertype = ethertypeArp →
      h.Receives frame { h with
        stack := (arpMessage h.stack op (behind (fun t => frame.getD t 0) 22) (frame.length - 22)).1 }
  /-- A request for an echo. -/
  | echo {src : UInt32} {pkt : Nat → UInt8} {len r : Int} {stack : Stack} :
      udpIn h.stack.ip h.stack.mac frame = none → sizeofIcmpHeader ≤ len → pkt 1 = 0 →
      ipv4Send h.stack src protocolIcmp (echoReply pkt len) len = .ok (stack, r) →
      h.Receives frame { h with stack := stack }
  /-- A datagram. -/
  | udp {call : UdpCall} : udpIn h.stack.ip h.stack.mac frame = some call →
      h.Receives frame { h with hookCalls := h.hookCalls ++ [.udp call] }

section Cases

theorem behind_behind (buf : Nat → UInt8) (m n : Nat) : behind (behind buf m) n = behind buf (m + n) :=
  funext fun t => congrArg buf (Nat.add_assoc m n t).symm

variable {h h' : Host} {frame : List UInt8} {r : Int}

/-- A packet of ICMP. -/
theorem icmpPacketHandle_cases {src dst : UInt32} {pkt : Nat → UInt8} {len : Int}
    (hhooks : h.hooks = serverHooks) (hudp : udpIn h.stack.ip h.stack.mac frame = none)
    (hrecv : icmpPacketHandle h src dst pkt len = .ok (h', r)) : h.Receives frame h' := by
  rw [icmpPacketHandle, hhooks] at hrecv
  split at hrecv
  · cases hrecv
    exact .refused hudp
  rename_i hlen
  obtain ⟨⟨stack, r'⟩, hmessage, hrecv⟩ := bind_ok hrecv
  cases hrecv
  rw [icmpMessage] at hmessage
  simp only at hmessage
  split at hmessage
  · split at hmessage
    · cases hmessage
      exact .refused hudp
    · rename_i hcode
      obtain ⟨⟨s', r''⟩, hsend, hmessage⟩ := bind_ok hmessage
      cases hmessage
      exact .echo hudp (Int.not_lt.mp hlen) (not_not.mp hcode) hsend
  · cases hmessage
    exact .refused hudp

/-- A message of ARP. -/
theorem arpPacketHandle_cases (hhooks : h.hooks = serverHooks)
    (hether : htons (EtherHeader.read fun t => frame.getD t 0).ethertype = ethertypeArp)
    (hudp : udpIn h.stack.ip h.stack.mac frame = none)
    (hrecv : arpPacketHandle h (behind (fun t => frame.getD t 0) 14) (frame.length - 14) = .ok (h', r)) :
    h.Receives frame h' := by
  have hbehind : ∀ hdr : ArpHeader, behind (putBytes (behind (fun t => frame.getD t 0) 14) 0 hdr.bytes)
      sizeofArpHeader = behind (fun t => frame.getD t 0) 22 :=
    fun hdr => (behind_putBytes rfl).trans (behind_behind _ 14 8)
  have hlen : (frame.length : Int) - 14 - sizeofArpHeader = frame.length - 22 := by
    show (frame.length : Int) - 14 - 8 = _
    omega
  rw [arpPacketHandle, hhooks] at hrecv
  simp only [hbehind, hlen] at hrecv
  split at hrecv
  · cases hrecv
    exact .refused hudp
  simp only [serverHooks, Host.hook] at hrecv
  split at hrecv
  · split at hrecv
    · cases hrecv
      exact .refused hudp
    split at hrecv
    · cases hrecv
      exact .refused hudp
    · cases hrecv
      exact .arp _ hudp hether
  · cases hrecv
    exact .refused hudp

/-- A datagram. -/
theorem udpPacketHandle_cases {src dst : UInt32} {pkt : Nat → UInt8} {len : Int}
    (hhooks : h.hooks = serverHooks) (hrecv : udpPacketHandle h src dst pkt len = .ok (h', r)) :
    len < 8 ∧ h' = h ∨ 8 ≤ len ∧ h' = { h with hookCalls := h.hookCalls ++
      [.udp ⟨src, dst, udpHton (.read pkt), listOf (behind pkt 8) (len - 8).toNat⟩] } := by
  have hbehind : ∀ hdr : UdpHeader, behind (putBytes pkt 0 hdr.bytes) sizeofUdpHeader = behind pkt 8 :=
    fun hdr => behind_putBytes rfl
  rw [udpPacketHandle, hhooks] at hrecv
  simp only [hbehind] at hrecv
  split at hrecv
  · rename_i hshort
    cases hrecv
    exact .inl ⟨hshort, rfl⟩
  · rename_i hlong
    cases hrecv
    exact .inr ⟨Int.not_lt.mp hlong, rfl⟩

/-- A packet of IPv4. -/
theorem ipv4PacketHandle_cases (hhooks : h.hooks = serverHooks)
    (hether : CarriesIpv4 h.stack.mac (.read fun t => frame.getD t 0))
    (hrecv : ipv4PacketHandle h (behind (fun t => frame.getD t 0) 14) (frame.length - 14) = .ok (h', r)) :
    h.Receives frame h' := by
  obtain ⟨hdr, hhdr⟩ : ∃ hdr, hdr = ipv4Hton (.read (behind (fun t => frame.getD t 0) 14)) := ⟨_, rfl⟩
  have hcontent : behind (putBytes (behind (fun t => frame.getD t 0) 14) 0 hdr.bytes) sizeofIPv4Header =
      behind (fun t => frame.getD t 0) 34 := (behind_putBytes rfl).trans (behind_behind _ 14 20)
  have hsize : (sizeofIPv4Header : Int) = 20 := rfl
  have hnone : ¬ CarriesUdp h.stack.ip frame.length hdr → udpIn h.stack.ip h.stack.mac frame = none := by
    intro hnot
    rw [hhdr] at hnot
    exact if_neg fun hudp => hnot hudp.2
  rw [ipv4PacketHandle, hhooks] at hrecv
  simp only [← hhdr, hcontent] at hrecv
  split at hrecv
  · rename_i hshort
    cases hrecv
    refine .refused (hnone fun hudp => ?_)
    have hfits := hudp.fits
    have h28 := hudp.long
    omega
  simp only [serverHooks, Host.hook] at hrecv
  split at hrecv
  · rename_i hversion
    cases hrecv
    exact .refused (hnone fun hudp => hversion hudp.version)
  rename_i hversion
  split at hrecv
  · rename_i hihl
    cases hrecv
    exact .refused (hnone fun hudp => hihl hudp.ihl)
  rename_i hihl
  split at hrecv
  · rename_i hlength
    cases hrecv
    refine .refused (hnone fun hudp => ?_)
    have hfits := hudp.fits
    omega
  rename_i hlength
  split at hrecv
  · rename_i hflags
    cases hrecv
    exact .refused (hnone fun hudp => hflags hudp.whole)
  rename_i hflags
  split at hrecv
  · rename_i hdst
    cases hrecv
    exact .refused (hnone fun hudp => hdst hudp.dst)
  rename_i hdst
  split at hrecv
  · rename_i hicmp
    refine icmpPacketHandle_cases hhooks (hnone fun hudp => ?_) hrecv
    have hcontra : protocolIcmp = protocolUdp := hicmp.symm.trans hudp.protocol
    exact absurd hcontra (by decide)
  split at hrecv
  · rename_i hprotocol
    rcases udpPacketHandle_cases hhooks hrecv with ⟨hshort8, rfl⟩ | ⟨hlong8, rfl⟩
    · refine .refused (hnone fun hudp => ?_)
      have h28 := hudp.long
      omega
    · have hlen : ((hdr.length.toNat : Int) - sizeofIPv4Header - 8).toNat = hdr.length.toNat - 28 := by omega
      have hcarries : CarriesUdp h.stack.ip frame.length hdr := by
        refine ⟨not_not.mp hversion, not_not.mp hihl, ?_, not_not.mp hflags, not_not.mp hdst, hprotocol, ?_⟩
        · omega
        · omega
      rw [hlen, behind_behind]
      refine .udp ?_
      rw [hhdr] at hcarries ⊢
      exact if_pos ⟨hether, hcarries⟩
  · rename_i hprotocol
    cases hrecv
    exact .refused (hnone fun hudp => hprotocol hudp.protocol)

/-- **Receiving a frame.** -/
theorem receive_cases (hhooks : h.hooks = serverHooks) (hrecv : h.receive frame = .ok (h', r)) :
    h.Receives frame h' := by
  have hbehind : ∀ hdr : EtherHeader, behind (putBytes (fun t => frame.getD t 0) 0 hdr.bytes)
      sizeofEtherHeader = behind (fun t => frame.getD t 0) 14 := fun hdr => behind_putBytes rfl
  rw [Host.receive, etherPacketHandle, hhooks] at hrecv
  simp only [hbehind] at hrecv
  split at hrecv
  · rename_i hshort
    have hlen : (frame.length : Int) < 14 := hshort
    cases hrecv
    refine .refused (if_neg fun hudp => ?_)
    have hfits := hudp.2.fits
    omega
  rename_i hlong
  have hlen : ¬ (frame.length : Int) < 14 := hlong
  simp only [serverHooks, Host.hook] at hrecv
  split at hrecv
  · rename_i hdst
    cases hrecv
    exact .refused (if_neg fun hudp => hudp.1.dst.elim hdst.1 hdst.2)
  rename_i hdst
  split at hrecv
  · rename_i harp
    refine arpPacketHandle_cases hhooks harp (if_neg fun hudp => ?_) hrecv
    have hcontra : ethertypeIPv4 = ethertypeArp := hudp.1.ethertype.symm.trans harp
    exact absurd hcontra (by decide)
  split at hrecv
  · rename_i hipv4
    refine ipv4PacketHandle_cases hhooks ⟨?_, hipv4⟩ hrecv
    by_contra hnot
    rw [not_or] at hnot
    exact hdst hnot
  · rename_i hipv4
    cases hrecv
    exact .refused (if_neg fun hudp => hipv4 hudp.1.ethertype)

end Cases

/-! ## Honest frames -/

section Frames

variable (ip : UInt32) (mac : MacAddress) (told : Datagram → Prop)

/-- A packet of IPv4 of the station `ip`, `mac`, from the second MAC address on. -/
def packetOf (dst : UInt32) (protocol : UInt8) (content : List UInt8) : List UInt8 :=
  mac.bytes ++ le16 (htons ethertypeIPv4) ++ (builtHeader ip dst protocol content.length).bytes ++ content

/-- Its packets: echo replies, and datagrams that it was told to send. -/
inductive HonestPacket : List UInt8 → Prop
  | echo {dst : UInt32} {content : List UInt8} (hreply : content.take 2 = [icmpEchoReply, 0])
      (hlen : content.length ≤ 1480) : HonestPacket (packetOf ip mac dst protocolIcmp content)
  | udp {d : Datagram} (htold : told d) (hlen : d.content.length ≤ 1472) :
      HonestPacket (packetOf ip mac d.dst protocolUdp (udpDatagram ip d.dst d.dport d.sport d.content))

/-- Its frames: ARP messages in its own name, and its packets. -/
inductive HonestFrame : List UInt8 → Prop
  | arp {dst : MacAddress} {op : UInt16} {target : List UInt8} (hop : op = arpRequest ∨ op = arpReply)
      (hlen : target.length = 10) : HonestFrame (arpHeaders dst mac op ++ (mac.bytes ++ le32 (htonl ip) ++ target))
  | ipv4 {dst : MacAddress} {packet : List UInt8} (hpacket : HonestPacket ip mac told packet) :
      HonestFrame (dst.bytes ++ packet)

/-- What holds of the stack of the station. -/
structure Stack.Honest (s : Stack) : Prop where
  ip_eq : s.ip = ip
  mac_eq : s.mac = mac
  waiting : ∀ k p, k < tosendTableSize → s.ipv4.pendingAt k = some p → HonestPacket ip mac told p.body
  lens : Lens s.ipv4
  calls : ∀ call ∈ s.phy.calls, HonestFrame ip mac told call.frame

end Frames

section Mono

variable {ip : UInt32} {mac : MacAddress} {told told' : Datagram → Prop}

theorem HonestPacket.mono (ht : ∀ d, told d → told' d) {packet : List UInt8}
    (h : HonestPacket ip mac told packet) : HonestPacket ip mac told' packet := by
  cases h with
  | echo hreply hlen => exact .echo hreply hlen
  | udp htold hlen => exact .udp (ht _ htold) hlen

theorem HonestFrame.mono (ht : ∀ d, told d → told' d) {frame : List UInt8}
    (h : HonestFrame ip mac told frame) : HonestFrame ip mac told' frame := by
  cases h with
  | arp hop hlen => exact .arp hop hlen
  | ipv4 hpacket => exact .ipv4 (hpacket.mono ht)

theorem Stack.Honest.mono (ht : ∀ d, told d → told' d) {s : Stack} (h : s.Honest ip mac told) :
    s.Honest ip mac told' where
  ip_eq := h.ip_eq
  mac_eq := h.mac_eq
  waiting := fun k p hk hp => (h.waiting k p hk hp).mono ht
  lens := h.lens
  calls := fun call hcall => (h.calls call hcall).mono ht

end Mono

/-! ## Sending is honest -/

section Sending

variable {ip : UInt32} {mac : MacAddress} {told : Datagram → Prop} {s : Stack}

/-- A frame that is passed on. -/
theorem Stack.Honest.phySend {a : Buffer} {len : Int} (h : s.Honest ip mac told)
    (hframe : HonestFrame ip mac told (listOf (s.buffer a) len.toNat)) :
    (phySend s a len).1.Honest ip mac told := by
  obtain ⟨phy, hs, hcalls⟩ := phySend_spec s a len
  rw [hs]
  refine ⟨h.ip_eq, h.mac_eq, h.waiting, h.lens, ?_⟩
  intro call hcall
  rw [hcalls, List.mem_append, List.mem_singleton] at hcall
  rcases hcall with hcall | rfl
  · exact h.calls call hcall
  · exact hframe

/-- An ARP message in the name of the station. -/
theorem Stack.Honest.arpSend (dst : MacAddress) {op : UInt16} {target : List UInt8}
    (hop : op = arpRequest ∨ op = arpReply) (hlen : target.length = 10) (h : s.Honest ip mac told) :
    (arpSend s dst op (fun t => (s.mac.bytes ++ le32 (htonl s.ip) ++ target).getD t 0)
      (s.mac.bytes ++ le32 (htonl s.ip) ++ target).length).1.Honest ip mac told := by
  have hshort : (s.mac.bytes ++ le32 (htonl s.ip) ++ target).length ≤ 1492 := by
    rw [List.length_append, hlen]
    exact Nat.le_add_left 20 1472
  obtain ⟨sendbuf, phy, hsend, hcalls⟩ := arpSend_spec s dst op hshort
  rw [hsend]
  refine ⟨h.ip_eq, h.mac_eq, h.waiting, h.lens, ?_⟩
  intro call hcall
  rw [hcalls, List.mem_append, List.mem_singleton] at hcall
  rcases hcall with hcall | rfl
  · exact h.calls call hcall
  · rw [h.mac_eq, h.ip_eq]
    exact .arp hop hlen

theorem Stack.Honest.arpQuery (asked : UInt32) (h : s.Honest ip mac told) :
    (arpQuery s asked).1.Honest ip mac told := by
  by_cases hmiss : s.arp.Miss asked
  · by_cases hfull : s.arp.nArpQueries = arpTableSize
    · rw [arpQuery_full hmiss hfull]
      exact h
    · obtain ⟨sendbuf, phy, hcalls, hs⟩ := arpQuery_new hmiss hfull
      rw [hs]
      refine ⟨h.ip_eq, h.mac_eq, h.waiting, h.lens, ?_⟩
      intro call hcall
      rw [hcalls, List.mem_append, List.mem_singleton] at hcall
      rcases hcall with hcall | rfl
      · exact h.calls call hcall
      · show HonestFrame ip mac told (requestFrame s asked)
        rw [requestFrame, queryPayload, h.mac_eq, h.ip_eq, List.append_assoc _ (List.replicate 6 0)]
        exact .arp (.inl rfl) rfl
  · rw [arpQuery_found hmiss]
    exact h

/-- A packet of the station, in the terms of `ipv4_build_packet`. -/
theorem ipv4Body_eq {dst : UInt32} {protocol : UInt8} {payload : Nat → UInt8} {len : Int}
    (h : s.Honest ip mac told) (hlen : ValidLen len) :
    ipv4Body s dst protocol payload len = packetOf ip mac dst protocol (listOf payload len.toNat) := by
  have hcast : ((listOf payload len.toNat).length : Int) = len := by
    rw [length_listOf]
    exact Int.toNat_of_nonneg hlen.1
  rw [ipv4Body, packetOf, hcast, h.mac_eq, h.ip_eq]

/-- The packets that the station may send. -/
def MayPass (ip : UInt32) (mac : MacAddress) (told : Datagram → Prop) (dst : UInt32) (protocol : UInt8)
    (payload : Nat → UInt8) (len : Int) : Prop :=
  ValidLen len → HonestPacket ip mac told (packetOf ip mac dst protocol (listOf payload len.toNat))

theorem Stack.Honest.sendResolved {next : MacAddress} {dst : UInt32} {protocol : UInt8}
    {payload : Nat → UInt8} {len : Int} (h : s.Honest ip mac told)
    (hmay : MayPass ip mac told dst protocol payload len) :
    (sendResolved s next dst protocol payload len).1.Honest ip mac told := by
  by_cases hlen : ValidLen len
  · obtain ⟨buf, hbuild, hbody⟩ := ipv4BuildPacket_spec s s.sendbuf dst protocol payload hlen
    have hsix : 6 ≤ len + sizeofIPv4Header + sizeofEtherHeader := by
      have hpos := hlen.1
      show 6 ≤ len + 20 + 14
      omega
    rw [Ducknet.sendResolved, hbuild]
    refine Stack.Honest.phySend ⟨h.ip_eq, h.mac_eq, h.waiting, h.lens, h.calls⟩ ?_
    show HonestFrame ip mac told (listOf (putBytes buf 0 next.bytes) _)
    rw [listOf_putMac next buf hsix, hbody, ipv4Body_eq h hlen]
    exact .ipv4 (hmay hlen)
  · rw [Ducknet.sendResolved, ipv4BuildPacket_invalid hlen]
    exact h

theorem Stack.Honest.enqueue {id : Nat} {etherDst dst : UInt32} {protocol : UInt8}
    {payload : Nat → UInt8} {len : Int} (h : s.Honest ip mac told)
    (hmay : MayPass ip mac told dst protocol payload len) :
    (enqueue s id etherDst dst protocol payload len).1.Honest ip mac told := by
  by_cases hlen : ValidLen len
  · obtain ⟨buf, hbuild, hbody⟩ :=
      ipv4BuildPacket_spec s (s.ipv4.tosendTable id).pkt dst protocol payload hlen
    rw [Ducknet.enqueue, hbuild]
    refine ⟨h.ip_eq, h.mac_eq, ?_, ?_, h.calls⟩
    · intro k p hk hp
      rw [pendingAt_fill] at hp
      by_cases hkid : k = id
      · rw [hkid, Function.update_self] at hp
        cases hp
        show HonestPacket ip mac told (listOf _ _)
        rw [hbody, ipv4Body_eq h hlen]
        exact hmay hlen
      · rw [Function.update_of_ne hkid] at hp
        exact h.waiting k p hk hp
    · refine h.lens.fill ?_
      have hpos := hlen.1
      show 6 ≤ len + 20 + 14
      omega
  · rw [Ducknet.enqueue, ipv4BuildPacket_invalid hlen]
    exact h

/-- **A send keeps a station honest**, on all of its paths. -/
theorem Stack.Honest.ipv4Send {dst : UInt32} {protocol : UInt8} {payload : Nat → UInt8} {len r : Int}
    {s' : Stack} (h : s.Honest ip mac told) (hmay : MayPass ip mac told dst protocol payload len)
    (hsend : ipv4Send s dst protocol payload len = .ok (s', r)) : s'.Honest ip mac told := by
  rw [Ducknet.ipv4Send] at hsend
  split at hsend
  · have hs' : _ = s' := congrArg Prod.fst (Except.ok.inj hsend)
    rw [← hs']
    exact h.sendResolved hmay
  · obtain ⟨id?, -, hsend⟩ := bind_ok hsend
    have hquery := h.arpQuery (etherDst s dst)
    cases id? with
    | none =>
      cases hsend
      exact hquery
    | some id =>
      have hs' : _ = s' := congrArg Prod.fst (Except.ok.inj hsend)
      rw [← hs']
      exact hquery.enqueue hmay

theorem listOf_udpDatagram (ip : UInt32) (d : Datagram) :
    listOf (fun t => (udpDatagram ip d.dst d.dport d.sport d.content).getD t 0)
      ((d.content.length : Int) + sizeofUdpHeader).toNat =
      udpDatagram ip d.dst d.dport d.sport d.content := by
  have htoNat : ((d.content.length : Int) + sizeofUdpHeader).toNat =
      (udpDatagram ip d.dst d.dport d.sport d.content).length := by
    rw [length_udpDatagram]
    show ((d.content.length : Int) + 8).toNat = _
    omega
  rw [htoNat, listOf_getD]

/-- **A datagram is sent.** -/
theorem Stack.Honest.send {d : Datagram} {s' : Stack} {r : Int} (h : s.Honest ip mac told) (htold : told d)
    (hsend : s.send d = .ok (s', r)) : s'.Honest ip mac told := by
  rw [Stack.send, udpSend] at hsend
  split at hsend
  · cases hsend
    exact h
  split at hsend
  · cases hsend
    exact h
  rename_i hfits
  refine h.ipv4Send ?_ hsend
  intro hlen
  have hshort : d.content.length ≤ 1472 := by
    have hle : ¬ ((d.content.length : Int) + 8 + 20 > 1500) := hfits
    omega
  rw [Int.toNat_natCast, listOf_getD, h.ip_eq, listOf_udpDatagram]
  exact .udp htold hshort

end Sending

/-! ## Idling is honest -/

section Idling

variable {ip : UInt32} {mac : MacAddress} {told : Datagram → Prop} {s : Stack}

/-- A waiting packet is passed on. -/
theorem Stack.Honest.passOn {k : Nat} {next : MacAddress} (hk : k < tosendTableSize)
    (htaken : ¬ s.ipv4.isFree k = true) (h : s.Honest ip mac told) :
    (passOn s k next).Honest ip mac told := by
  have hpending := pendingAt_of_not_free htaken
  have hpacket := h.waiting k _ hk hpending
  refine Stack.Honest.phySend ⟨h.ip_eq, h.mac_eq, ?_, ?_, h.calls⟩ ?_
  · intro k' p hk' hp
    rw [pendingAt_update_free _ (by simp), pendingAt_setFree] at hp
    by_cases hkk : k' = k
    · rw [hkk, Function.update_self] at hp
      cases hp
    · rw [Function.update_of_ne hkk] at hp
      exact h.waiting k' p hk' hp
  · exact h.lens.free (isFree_setFree s.ipv4 k) fun j hj => Function.update_of_ne hj _ _
  · simp only [Stack.buffer, Function.update_self]
    rw [listOf_putMac next _ (h.lens k hk htaken)]
    exact .ipv4 hpacket

theorem Stack.Honest.sweepSlot {k : Nat} (hk : k < tosendTableSize) (h : s.Honest ip mac told) :
    (sweepSlot k s).Honest ip mac told := by
  rw [Ducknet.sweepSlot]
  split
  · exact h
  rename_i htaken
  split
  · refine ⟨h.ip_eq, h.mac_eq, ?_, h.lens.free (isFree_setFree s.ipv4 k) fun _ _ => rfl, h.calls⟩
    intro k' p hk' hp
    rw [pendingAt_setFree] at hp
    by_cases hkk : k' = k
    · rw [hkk, Function.update_self] at hp
      cases hp
    · rw [Function.update_of_ne hkk] at hp
      exact h.waiting k' p hk' hp
  split
  · exact h.passOn hk htaken
  · exact h.arpQuery _

/-- **A station idles.** -/
theorem Stack.Honest.idle (now : UInt64) (h : s.Honest ip mac told) : (s.idle now).Honest ip mac told := by
  rw [Stack.idle, ipv4Idle]
  split
  · exact ⟨h.ip_eq, h.mac_eq, h.waiting, h.lens, h.calls⟩
  · refine forUp_inv (fun _ t => Stack.Honest ip mac told t) ?_ fun k hk t ht => ht.sweepSlot hk
    exact ⟨h.ip_eq, h.mac_eq, h.waiting, h.lens, h.calls⟩

end Idling

/-! ## Receiving is honest -/

section Receiving

variable {ip : UInt32} {mac : MacAddress} {told : Datagram → Prop} {s : Stack} {h h' : Host}

/-- An ARP message is answered for the station only. -/
theorem Stack.Honest.arpMessage (op : UInt16) (payload : Nat → UInt8) (len : Int)
    (hs : s.Honest ip mac told) : (arpMessage s op payload len).1.Honest ip mac told := by
  rw [Ducknet.arpMessage]
  split
  · exact hs
  simp only
  split
  · split
    · rename_i htpa
      rw [htpa, replyPayload, List.append_assoc _ (readMac payload 0).bytes]
      exact hs.arpSend _ (.inr rfl) rfl
    · exact hs
  split
  · exact ⟨hs.ip_eq, hs.mac_eq, hs.waiting, hs.lens, hs.calls⟩
  · exact hs

theorem take_echoReply {pkt : Nat → UInt8} {len : Int} (hlen : sizeofIcmpHeader ≤ len) (hcode : pkt 1 = 0) :
    (listOf (echoReply pkt len) len.toNat).take 2 = [icmpEchoReply, 0] := by
  obtain ⟨n, hn⟩ : ∃ n, len.toNat = 2 + n := by
    have h8 : (8 : Int) ≤ len := hlen
    exact ⟨len.toNat - 2, by omega⟩
  rw [hn, listOf_add, List.take_left' (length_listOf _ _)]
  show [icmpEchoReply, pkt 1] = _
  rw [hcode]

/-- What holds of the station. -/
structure Host.Honest (ip : UInt32) (mac : MacAddress) (told : Datagram → Prop) (h : Host) : Prop where
  stack : h.stack.Honest ip mac told
  hooks : h.hooks = serverHooks

/-- **A frame is received.** -/
theorem Host.Honest.receives {frame : List UInt8} (hh : h.Honest ip mac told) (hrecv : h.Receives frame h') :
    h'.Honest ip mac told := by
  cases hrecv with
  | refused => exact hh
  | arp op => exact ⟨hh.stack.arpMessage op _ _, hh.hooks⟩
  | @echo src pkt len r stack _ hlen hcode hsend =>
    refine ⟨hh.stack.ipv4Send (fun hvalid => .echo (take_echoReply hlen hcode) ?_) hsend, hh.hooks⟩
    rw [length_listOf]
    have hmax : len + 20 ≤ 1500 := hvalid.2
    omega
  | udp => exact ⟨hh.stack, hh.hooks⟩

/-- **One event.** -/
theorem Host.Honest.step {e : StationEvent} (hh : h.Honest ip mac told) (htold : ∀ d, e = .send d → told d)
    (hstep : h.step e = .ok h') : h'.Honest ip mac told := by
  cases e with
  | send d =>
    obtain ⟨⟨stack, r⟩, hsend, hstep⟩ := bind_ok hstep
    cases hstep
    exact ⟨hh.stack.send (htold d rfl) hsend, hh.hooks⟩
  | idle now =>
    cases hstep
    exact ⟨hh.stack.idle now, hh.hooks⟩
  | receive frame =>
    obtain ⟨⟨h1, r⟩, hrecv, hstep⟩ := bind_ok hstep
    cases hstep
    exact hh.receives (receive_cases hh.hooks hrecv)

theorem Host.Fresh.honest (hfresh : h.Fresh ip mac) : h.Honest ip mac told := by
  refine ⟨⟨hfresh.ip, hfresh.mac, ?_, ?_, ?_⟩, hfresh.hooks⟩
  · intro k p hk hp
    rw [pendingAt_eq_none.mpr (hfresh.slots k hk)] at hp
    cases hp
  · intro k hk htaken
    exact absurd (hfresh.slots k hk) htaken
  · rw [hfresh.calls]
    intro call hcall
    cases hcall

/-- **What a station sends is its own**: whatever arrives, the frames that it passes on are ARP messages in
    its own name, echo replies, and datagrams that it was told to send. -/
theorem frames_honest (hfresh : h.Fresh ip mac) (es : List StationEvent) :
    ∃ h', h.run es = .ok h' ∧
      ∀ call ∈ h'.stack.phy.calls, HonestFrame ip mac (fun d => .send d ∈ es) call.frame := by
  have hrun : ∃ h', h.run es = .ok h' ∧ h'.Honest ip mac fun d => .send d ∈ es := by
    refine exists_foldlM _ ?_ hfresh.honest
    intro h e he hh
    obtain ⟨h', hstep⟩ := exists_hostStep h e
    refine ⟨h', hstep, hh.step ?_ hstep⟩
    rintro d rfl
    exact he
  obtain ⟨h', hrun, hh⟩ := hrun
  exact ⟨h', hrun, hh.stack.calls⟩

end Receiving

/-- The station 10.0.0.1. -/
def freshHost : Host := ⟨{ sender with arp := zeroArp }, serverHooks, []⟩

theorem fresh_freshHost : freshHost.Fresh 0x0a000001 ⟨2, 0, 0, 0, 0, 1⟩ := by
  refine ⟨rfl, rfl, rfl, ?_, rfl, rfl, rfl⟩
  intro k hk
  rw [isFree_eq]
  exact mem_allFree hk

/-- A datagram is sent, and its address is asked for; a request for the own address is answered. -/
def freshRun : List StationEvent :=
  [.send ⟨0x0a000002, 9999, 1234, [7]⟩,
    .receive (arpHeaders etherBroadcastAddr ⟨2, 0, 0, 0, 0, 2⟩ arpRequest ++
      [2, 0, 0, 0, 0, 2, 10, 0, 0, 2, 0, 0, 0, 0, 0, 0, 10, 0, 0, 1]), .idle 1]

/-- A run in which two frames are sent. -/
theorem frames_honest_freshRun : ∃ h, freshHost.run freshRun = .ok h ∧ h.stack.phy.calls.length = 2 ∧
    ∀ call ∈ h.stack.phy.calls,
      HonestFrame 0x0a000001 ⟨2, 0, 0, 0, 0, 1⟩ (fun d => .send d ∈ freshRun) call.frame := by
  obtain ⟨h, hrun, hframes⟩ := frames_honest fresh_freshHost freshRun
  have hcalls : (freshHost.run freshRun).toOption.map (fun h => h.stack.phy.calls.length) = some 2 := by
    decide +kernel
  rw [hrun] at hcalls
  exact ⟨h, hrun, Option.some.inj hcalls, hframes⟩

end JudgeDuck.Ducknet
