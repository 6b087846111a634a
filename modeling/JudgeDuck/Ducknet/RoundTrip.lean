/-
  A UDP datagram arrives as it was sent.

  Writing and reading a header are inverse to each other, layer by layer: what is read from the
  bytes of a header is the header (`IPv4Header.read_eq`), and swapping its bytes twice changes
  nothing (`ipv4Hton_ipv4Hton`).  So each layer of the receiver finds the header that the same layer
  of the sender wrote, and passes on what was put behind it.  Only IPv4 cuts the content to the
  length in its header, which removes the padding of the frame.
-/
import JudgeDuck.Ducknet.ArpTable
import JudgeDuck.Ducknet.Receive
import JudgeDuck.Ducknet.Tosend
import Mathlib.Tactic.IntervalCases

namespace JudgeDuck.Ducknet

open JudgeDuck.Lib

/-! ## Byte order -/

/-- Swapping takes a bit to the other byte. -/
theorem getLsbD_htons (x : UInt16) {i : Nat} (hi : i < 16) :
    (htons x).toBitVec.getLsbD i = x.toBitVec.getLsbD (8 * (1 - i / 8) + i % 8) := by
  simp only [htons, UInt16.toBitVec_or, UInt16.toBitVec_shiftRight, UInt16.toBitVec_and,
    UInt16.toBitVec_shiftLeft, BitVec.getLsbD_or]
  interval_cases i <;> simp

/-- Swapping takes a bit to the byte counted from the other end. -/
theorem getLsbD_htonl (x : UInt32) {i : Nat} (hi : i < 32) :
    (htonl x).toBitVec.getLsbD i = x.toBitVec.getLsbD (8 * (3 - i / 8) + i % 8) := by
  simp only [htonl, UInt32.toBitVec_or, UInt32.toBitVec_shiftRight, UInt32.toBitVec_and,
    UInt32.toBitVec_shiftLeft, BitVec.getLsbD_or]
  interval_cases i <;> simp

@[simp] theorem htons_htons (x : UInt16) : htons (htons x) = x := by
  apply UInt16.toBitVec_inj.mp
  refine BitVec.eq_of_getLsbD_eq fun i hi => ?_
  rw [getLsbD_htons _ hi, getLsbD_htons _ (by omega)]
  congr 1
  omega

@[simp] theorem htonl_htonl (x : UInt32) : htonl (htonl x) = x := by
  apply UInt32.toBitVec_inj.mp
  refine BitVec.eq_of_getLsbD_eq fun i hi => ?_
  rw [getLsbD_htonl _ hi, getLsbD_htonl _ (by omega)]
  congr 1
  omega

@[simp] theorem etherHton_etherHton (hdr : EtherHeader) : etherHton (etherHton hdr) = hdr := by
  simp [etherHton]

@[simp] theorem ipv4Hton_ipv4Hton (hdr : IPv4Header) : ipv4Hton (ipv4Hton hdr) = hdr := by
  simp [ipv4Hton]

@[simp] theorem udpHton_udpHton (hdr : UdpHeader) : udpHton (udpHton hdr) = hdr := by
  simp [udpHton]

/-! ## Reading what was written -/

section Read

variable {buf : Nat → UInt8} {bs : List UInt8} {n i : Nat}

theorem readU16_eq {x : UInt16} (h : listOf buf n = bs) (hi : i + 1 < n)
    (h0 : bs.getD i 0 = x.toUInt8) (h1 : bs.getD (i + 1) 0 = (x >>> 8).toUInt8) :
    readU16 buf i = x := by
  have hx := x.toNat_lt
  rw [← apply_of_listOf h (by omega)] at h0 h1
  apply UInt16.toNat.inj
  rw [readU16, h0, h1]
  simp [Nat.shiftRight_eq_div_pow]
  omega

theorem readU32_eq {x : UInt32} (h : listOf buf n = bs) (hi : i + 3 < n)
    (h0 : bs.getD i 0 = x.toUInt8) (h1 : bs.getD (i + 1) 0 = (x >>> 8).toUInt8)
    (h2 : bs.getD (i + 2) 0 = (x >>> 16).toUInt8) (h3 : bs.getD (i + 3) 0 = (x >>> 24).toUInt8) :
    readU32 buf i = x := by
  have hx := x.toNat_lt
  rw [← apply_of_listOf h (by omega)] at h0 h1 h2 h3
  apply UInt32.toNat.inj
  rw [readU32, h0, h1, h2, h3]
  simp [Nat.shiftRight_eq_div_pow]
  omega

theorem EtherHeader.read_eq {hdr : EtherHeader} (h : listOf buf 14 = hdr.bytes) :
    EtherHeader.read buf = hdr := by
  have hbyte : ∀ i, i < 14 → buf i = hdr.bytes.getD i 0 := fun i hi => apply_of_listOf h hi 0
  have htype : readU16 buf 12 = hdr.ethertype := readU16_eq h (by decide) rfl rfl
  rw [EtherHeader.read, htype, readMac, readMac]
  simp only [hbyte, Nat.reduceAdd, Nat.reduceLT]
  rfl

theorem IPv4Header.read_eq {hdr : IPv4Header} (h : listOf buf 20 = hdr.bytes) :
    IPv4Header.read buf = hdr := by
  have hbyte : ∀ i, i < 20 → buf i = hdr.bytes.getD i 0 := fun i hi => apply_of_listOf h hi 0
  have hfirst : buf 0 = UInt8.ofBitVec (hdr.ihl ++ hdr.version) := hbyte 0 (by decide)
  have hlength : readU16 buf 2 = hdr.length := readU16_eq h (by decide) rfl rfl
  have hid : readU16 buf 4 = hdr.id := readU16_eq h (by decide) rfl rfl
  have hflags : readU16 buf 6 = hdr.flags := readU16_eq h (by decide) rfl rfl
  have hchecksum : readU16 buf 10 = hdr.checksum := readU16_eq h (by decide) rfl rfl
  have hsrc : readU32 buf 12 = hdr.src := readU32_eq h (by decide) rfl rfl rfl rfl
  have hdst : readU32 buf 16 = hdr.dst := readU32_eq h (by decide) rfl rfl rfl rfl
  rw [IPv4Header.read, hfirst, hlength, hid, hflags, hchecksum, hsrc, hdst, hbyte 1 (by decide),
    hbyte 8 (by decide), hbyte 9 (by decide), UInt8.toBitVec_ofBitVec,
    BitVec.extractLsb'_append_eq_left, BitVec.extractLsb'_append_eq_right]
  rfl

theorem UdpHeader.read_eq {hdr : UdpHeader} (h : listOf buf 8 = hdr.bytes) :
    UdpHeader.read buf = hdr := by
  have hsport : readU16 buf 0 = hdr.sport := readU16_eq h (by decide) rfl rfl
  have hdport : readU16 buf 2 = hdr.dport := readU16_eq h (by decide) rfl rfl
  have hlength : readU16 buf 4 = hdr.length := readU16_eq h (by decide) rfl rfl
  have hchecksum : readU16 buf 6 = hdr.checksum := readU16_eq h (by decide) rfl rfl
  rw [UdpHeader.read, hsport, hdport, hlength, hchecksum]

/-- Swapping the bytes of the header does not concern what is behind it. -/
theorem behind_putBytes (h : bs.length = n) : behind (putBytes buf 0 bs) n = behind buf n := by
  funext t
  rw [behind, putBytes, memcpy_of_ge (by omega), behind]

end Read

/-! ## The layers -/

/-- The calls of the hook of `udp.cpp`. -/
def HookCall.udpCall : HookCall → Option UdpCall
  | .udp call => some call
  | _ => none

/-- The calls of the hook of `udp.cpp`, in order. -/
def Host.udpCalls (h : Host) : List UdpCall := h.hookCalls.filterMap HookCall.udpCall

/-- A hook that lets packets through: it refuses none, and leaves the addresses of the stack. -/
def Passes (handle : Option Hook) : Prop :=
  ∀ f, handle = some f →
    ∀ k c s, 0 ≤ (f k c s).2 ∧ (f k c s).1.ip = s.ip ∧ (f k c s).1.mac = s.mac

/-- A lower layer was passed: same hooks, same addresses, and nothing has reached UDP. -/
structure Below (h h' : Host) : Prop where
  hooks : h'.hooks = h.hooks
  udpCalls : h'.udpCalls = h.udpCalls
  ip : h'.stack.ip = h.stack.ip
  mac : h'.stack.mac = h.stack.mac

theorem Below.trans {h h' h'' : Host} (h1 : Below h h') (h2 : Below h' h'') : Below h h'' :=
  ⟨h2.hooks.trans h1.hooks, h2.udpCalls.trans h1.udpCalls, h2.ip.trans h1.ip, h2.mac.trans h1.mac⟩

section Layers

variable {h : Host} {pkt : Nat → UInt8} {len : Nat} {content : List UInt8}

theorem hook_passes {handle : Option Hook} (c : HookCall) (hpass : Passes handle)
    (hc : c.udpCall = none) : ∃ h', Below h h' ∧ ∀ next, h.hook handle c next = next h' := by
  cases handle with
  | none => exact ⟨h, ⟨rfl, rfl, rfl, rfl⟩, fun _ => rfl⟩
  | some f =>
    obtain ⟨hr, hip, hmac⟩ := hpass f rfl h.hookCalls.length c h.stack
    refine ⟨{ h with
      stack := (f h.hookCalls.length c h.stack).1, hookCalls := h.hookCalls ++ [c] },
      ⟨rfl, ?_, hip, hmac⟩, fun next => if_neg (by omega)⟩
    rw [Host.udpCalls, List.filterMap_append, List.filterMap_cons_none hc, List.filterMap_nil,
      List.append_nil, Host.udpCalls]

/-- **Ethernet** passes an IPv4 packet for this station on. -/
theorem etherPacketHandle_ipv4 {hdr : EtherHeader} (hpkt : listOf pkt len = hdr.bytes ++ content)
    (hdst : hdr.dst = h.stack.mac) (htype : hdr.ethertype = htons ethertypeIPv4)
    (hpass : Passes h.hooks.ether) :
    ∃ h', Below h h' ∧
      etherPacketHandle h pkt len = ipv4PacketHandle h' (behind pkt 14) content.length := by
  have hread : EtherHeader.read pkt = hdr := EtherHeader.read_eq (listOf_eq_append hpkt).1
  have hlen := congrArg List.length hpkt
  rw [length_listOf, List.length_append, EtherHeader.length_bytes] at hlen
  have hsize : (sizeofEtherHeader : Int) = 14 := rfl
  have hcontent : (len : Int) - sizeofEtherHeader = content.length := by omega
  have hbehind : behind (putBytes pkt 0 (etherHton hdr).bytes) sizeofEtherHeader = behind pkt 14 :=
    behind_putBytes rfl
  obtain ⟨h', hbelow, hnext⟩ := hook_passes (h := h) (.ether (etherHton hdr)
    (listOf (behind pkt 14) (content.length : Int).toNat)) hpass rfl
  refine ⟨h', hbelow, ?_⟩
  have hmine : (etherHton hdr).dst = h'.stack.mac := hdst.trans hbelow.mac.symm
  have htype' : (etherHton hdr).ethertype = ethertypeIPv4 := by
    rw [etherHton, htype, htons_htons]
  rw [etherPacketHandle, if_neg (by omega)]
  simp only [hread, hbehind, hcontent]
  rw [hnext, if_neg (fun hne => hne.1 hmine), htype', if_neg (by decide), if_pos rfl]

/-- **IPv4** passes a UDP packet for this station on, without what is behind the packet. -/
theorem ipv4PacketHandle_udp {hdr : IPv4Header} {udpLen : Nat}
    (hpkt : listOf pkt len = (ipv4Hton hdr).bytes ++ content) (hversion : hdr.version = 4)
    (hihl : hdr.ihl = 5) (hlength : hdr.length.toNat = 20 + udpLen) (hle : udpLen ≤ content.length)
    (hflags : hdr.flags = 0) (hprotocol : hdr.protocol = protocolUdp) (hdst : hdr.dst = h.stack.ip)
    (hpass : Passes h.hooks.ipv4) :
    ∃ h', Below h h' ∧
      ipv4PacketHandle h pkt len = udpPacketHandle h' hdr.src hdr.dst (behind pkt 20) udpLen := by
  have hread : ipv4Hton (IPv4Header.read pkt) = hdr := by
    rw [IPv4Header.read_eq (listOf_eq_append hpkt).1, ipv4Hton_ipv4Hton]
  have hlen := congrArg List.length hpkt
  rw [length_listOf, List.length_append, IPv4Header.length_bytes] at hlen
  have hsize : (sizeofIPv4Header : Int) = 20 := rfl
  have hudp : (hdr.length.toNat : Int) - sizeofIPv4Header = udpLen := by omega
  have hbehind : behind (putBytes pkt 0 hdr.bytes) sizeofIPv4Header = behind pkt 20 :=
    behind_putBytes rfl
  obtain ⟨h', hbelow, hnext⟩ := hook_passes (h := h) (.ipv4 hdr
    (listOf (behind pkt 20) ((len : Int) - sizeofIPv4Header).toNat)) hpass rfl
  refine ⟨h', hbelow, ?_⟩
  have hmine : ~~~ hdr.dst = 0 ∨ hdr.dst = h'.stack.ip := Or.inr (hdst.trans hbelow.ip.symm)
  rw [ipv4PacketHandle, if_neg (by omega)]
  simp only [hread, hbehind, hudp]
  rw [hnext, if_neg (not_not.mpr hversion), if_neg (not_not.mpr hihl), if_neg (by omega), hflags,
    if_neg (by decide), if_neg (not_not.mpr hmine), hprotocol, if_neg (by decide), if_pos rfl]

/-- **UDP** calls its hook, once, with the header and what is behind it. -/
theorem udpPacketHandle_call {hdr : UdpHeader} (src dst : UInt32)
    (hpkt : listOf pkt len = (udpHton hdr).bytes ++ content) (hhook : h.hooks.udp ≠ none) :
    ∃ h' r, udpPacketHandle h src dst pkt len = .ok (h', r) ∧
      h'.udpCalls = h.udpCalls ++ [⟨src, dst, hdr, content⟩] := by
  obtain ⟨hhdr, hbody⟩ := listOf_eq_append hpkt
  have hread : udpHton (UdpHeader.read pkt) = hdr := by
    rw [UdpHeader.read_eq hhdr, udpHton_udpHton]
  have hlen := congrArg List.length hpkt
  rw [length_listOf, List.length_append, UdpHeader.length_bytes] at hlen
  have hsize : (sizeofUdpHeader : Int) = 8 := rfl
  have hcontent : ((len : Int) - sizeofUdpHeader).toNat = content.length := by omega
  have hbehind : behind (putBytes pkt 0 hdr.bytes) sizeofUdpHeader = behind pkt 8 :=
    behind_putBytes rfl
  have hbytes : listOf (behind pkt 8) content.length = content := hbody
  rcases Option.ne_none_iff_exists'.mp hhook with ⟨f, hf⟩
  rw [udpPacketHandle, if_neg (by omega)]
  simp only [hread, hbehind, hcontent, hbytes, hf, Host.hook]
  have hlog : (h.hookCalls ++ [HookCall.udp ⟨src, dst, hdr, content⟩]).filterMap HookCall.udpCall
      = h.udpCalls ++ [⟨src, dst, hdr, content⟩] := List.filterMap_append
  split
  · exact ⟨_, _, rfl, hlog⟩
  · exact ⟨_, _, rfl, hlog⟩

end Layers

/-! ## The way of a datagram -/

section Way

variable {s : Stack} {mac : MacAddress} {dst : UInt32} (protocol : UInt8) (payload : Nat → UInt8)

/-- The frame of a packet whose link destination is resolved. -/
theorem sendResolved_calls {len : Int} (hlen : ValidLen len) :
    (sendResolved s mac dst protocol payload len).1.phy.calls =
      s.phy.calls ++ [⟨.sendbuf, mac.bytes ++ ipv4Body s dst protocol payload len⟩] := by
  obtain ⟨buf, hbuild, hbody⟩ := ipv4BuildPacket_spec s s.sendbuf dst protocol payload hlen
  have hsix : 6 ≤ len + sizeofIPv4Header + sizeofEtherHeader := by
    have hpos := hlen.1
    show 6 ≤ len + 20 + 14
    omega
  rw [sendResolved, hbuild]
  obtain ⟨phy, hphy, hcalls⟩ := phySend_spec { s with sendbuf := putBytes buf 0 mac.bytes } .sendbuf
    (len + sizeofIPv4Header + sizeofEtherHeader)
  have hframe : listOf (putBytes buf 0 mac.bytes) (len + sizeofIPv4Header + sizeofEtherHeader).toNat
      = mac.bytes ++ ipv4Body s dst protocol payload len := by
    rw [listOf_putMac mac buf hsix, hbody]
  simp only [hphy, hcalls, Stack.buffer, hframe]

theorem ipv4Send_calls {len : Int} (hlen : ValidLen len)
    (hmac : s.arp.lookup (etherDst s dst) = some mac) :
    ∃ s' r, ipv4Send s dst protocol payload len = .ok (s', r) ∧ s'.phy.calls =
      s.phy.calls ++ [⟨.sendbuf, mac.bytes ++ ipv4Body s dst protocol payload len⟩] := by
  refine ⟨(sendResolved s mac dst protocol payload len).1,
    (sendResolved s mac dst protocol payload len).2, ?_, sendResolved_calls protocol payload hlen⟩
  rw [ipv4Send, hmac]

theorem length_udpDatagram (src dst : UInt32) (dport sport : UInt16) (content : List UInt8) :
    (udpDatagram src dst dport sport content).length = content.length + 8 := by
  rw [udpDatagram, List.length_append, UdpHeader.length_bytes, Nat.add_comm]

/-- The header that `ipv4_build_packet` writes, in the byte order of the machine. -/
theorem ipv4Hton_builtHeader (ip dst : UInt32) (protocol : UInt8) (len : Int) :
    ipv4Hton (builtHeader ip dst protocol len) =
      { version := 4, ihl := 5, tos := 0, length := UInt16.ofNat (len.toNat + sizeofIPv4Header)
        id := 2333, flags := 0, ttl := 233, protocol := protocol
        checksum := (builtHeader ip dst protocol len).checksum, src := ip, dst := dst } := by
  simp [builtHeader, ipv4Hton]

/-- The header that `ducknet_udp_send` writes, in the byte order of the machine. -/
theorem udpHton_udpHeader (src dst : UInt32) (dport sport : UInt16) (content : List UInt8) :
    udpHton (udpHeader src dst dport sport content) =
      { sport := sport, dport := dport, length := UInt16.ofNat (content.length + sizeofUdpHeader)
        checksum := (udpHeader src dst dport sport content).checksum } := by
  simp [udpHeader, udpHton]

/-- The frame of a datagram: the headers of the three layers, and the payload. -/
def udpFrame (s : Stack) (mac : MacAddress) (dst : UInt32) (dport sport : UInt16)
    (content : List UInt8) : List UInt8 :=
  EtherHeader.bytes ⟨mac, s.mac, htons ethertypeIPv4⟩ ++
    ((builtHeader s.ip dst protocolUdp (content.length + 8)).bytes ++
      udpDatagram s.ip dst dport sport content)

theorem udpSend_calls (dport sport : UInt16) {len : Nat} (hlen : len ≤ 1472)
    (hmac : s.arp.lookup (etherDst s dst) = some mac) :
    ∃ s' r, udpSend s dst dport sport payload len = .ok (s', r) ∧ s'.phy.calls =
      s.phy.calls ++ [⟨.sendbuf, udpFrame s mac dst dport sport (listOf payload len)⟩] := by
  have hudp : (sizeofUdpHeader : Int) = 8 := rfl
  have hipv4 : (sizeofIPv4Header : Int) = 20 := rfl
  have hmtu : ducknetMTU = 1500 := rfl
  have hvalid : ValidLen ((len : Int) + sizeofUdpHeader) := ⟨by omega, by omega⟩
  rw [udpSend, if_neg (by omega), if_neg (by omega)]
  obtain ⟨s', r, hsend, hcalls⟩ := ipv4Send_calls protocolUdp (fun t =>
    (udpDatagram s.ip dst dport sport (listOf payload (len : Int).toNat)).getD t 0) hvalid hmac
  refine ⟨s', r, hsend, ?_⟩
  rw [hcalls, ipv4Body, Int.toNat_natCast]
  have hbytes : ∀ l : List UInt8, l.length = len + 8 →
      listOf (fun t => l.getD t 0) ((len : Int) + sizeofUdpHeader).toNat = l := by
    intro l hl
    have htoNat : ((len : Int) + sizeofUdpHeader).toNat = l.length := by omega
    rw [htoNat, listOf_getD]
  rw [hbytes _ (by rw [length_udpDatagram, length_listOf]), udpFrame, length_listOf, hudp]
  simp only [EtherHeader.bytes, List.append_assoc]

end Way

/-- The hooks for a datagram to arrive: the one of `udp.cpp` is set, and those of the layers below
    let packets through. -/
structure Hooks.Deliver (hooks : Hooks) : Prop where
  ether : Passes hooks.ether
  ipv4 : Passes hooks.ipv4
  udp : hooks.udp ≠ none

/-- **A datagram arrives as it was sent**, whatever follows its frame. -/
theorem udp_roundtrip (s : Stack) (dst : UInt32) (dport sport : UInt16) (payload : Nat → UInt8)
    (len : Nat) (mac : MacAddress) (hlen : len ≤ 1472)
    (hmac : s.arp.lookup (etherDst s dst) = some mac) :
    ∃ s' r frame, udpSend s dst dport sport payload len = .ok (s', r) ∧
      s'.phy.calls = s.phy.calls ++ [⟨.sendbuf, frame⟩] ∧ frame.take 6 = mac.bytes ∧
      ∀ (padding : List UInt8) (h : Host) (pkt : Nat → UInt8),
        listOf pkt (frame ++ padding).length = frame ++ padding → h.stack.ip = dst →
        h.stack.mac = mac → h.hooks.Deliver →
        ∃ h' r' hdr, etherPacketHandle h pkt (frame ++ padding).length = .ok (h', r') ∧
          h'.udpCalls = h.udpCalls ++ [⟨s.ip, dst, hdr, listOf payload len⟩] ∧
          hdr.sport = sport ∧ hdr.dport = dport := by
  obtain ⟨s', r, hsend, hcalls⟩ := udpSend_calls payload dport sport hlen hmac
  refine ⟨s', r, _, hsend, hcalls, rfl, fun padding h pkt hpkt hip hmac' hhooks => ?_⟩
  generalize hcontent : listOf payload len = content at hpkt ⊢
  have hsize : content.length = len := by rw [← hcontent, length_listOf]
  -- Ethernet finds the resolved MAC address
  rw [udpFrame, List.append_assoc, List.append_assoc] at hpkt
  obtain ⟨h1, hbelow1, heth⟩ := etherPacketHandle_ipv4 hpkt hmac'.symm rfl hhooks.ether
  have hpkt1 : listOf (behind pkt 14) _ = _ := (listOf_eq_append hpkt).2
  -- IPv4 finds the length of the datagram
  rw [← ipv4Hton_ipv4Hton (builtHeader _ _ _ _), ipv4Hton_builtHeader] at hpkt1
  have hlength : (UInt16.ofNat (((content.length : Int) + 8).toNat + sizeofIPv4Header)).toNat
      = 20 + (len + 8) := by
    rw [UInt16.toNat_ofNat']
    show (((content.length : Int) + 8).toNat + 20) % 65536 = _
    omega
  obtain ⟨h2, hbelow2, hipv4⟩ := ipv4PacketHandle_udp hpkt1 rfl rfl hlength
    (by rw [List.length_append, length_udpDatagram]; omega) rfl rfl (hip.symm.trans hbelow1.ip.symm)
    (hbelow1.hooks ▸ hhooks.ipv4)
  have hpkt2 : listOf (behind (behind pkt 14) 20) _ = _ := (listOf_eq_append hpkt1).2
  -- UDP finds the payload
  have hpkt3 := (listOf_eq_append hpkt2).1
  rw [length_udpDatagram, hsize, udpDatagram, ← udpHton_udpHton (udpHeader _ _ _ _ _),
    udpHton_udpHeader] at hpkt3
  have hhook : h2.hooks.udp ≠ none := by
    rw [hbelow2.hooks, hbelow1.hooks]
    exact hhooks.udp
  obtain ⟨h3, r3, hudp, hcalls3⟩ := udpPacketHandle_call s.ip dst hpkt3 hhook
  rw [hbelow2.udpCalls, hbelow1.udpCalls] at hcalls3
  exact ⟨h3, r3, _, heth.trans (hipv4.trans hudp), hcalls3, rfl, rfl⟩

/-- A stack at 10.0.0.1 that knows one station, 10.0.0.2. -/
def sender : Stack where
  currenttime := 0
  tscFreq := 1000
  mac := ⟨2, 0, 0, 0, 0, 1⟩
  ip := 0x0a000001
  sendbuf := fun _ => 0
  phy := ⟨none, none, false, [], []⟩
  arp := { zeroArp with
    arpTable := fun _ => ⟨0x0a000002, ⟨2, 0, 0, 0, 0, 2⟩, 0⟩, nArpEntries := 1 }
  ipv4 := ⟨0x0a000001, 24, fun _ => ⟨0, 0, 0, fun _ => 0⟩, allFree, 0, 0, 0⟩

/-- The station that `sender` knows, with the hooks of the judge's server: only the one of UDP. -/
def receiver : Host where
  stack := { sender with mac := ⟨2, 0, 0, 0, 0, 2⟩, ip := 0x0a000002 }
  hooks := ⟨none, none, none, none, some fun _ _ s => (s, 0)⟩
  hookCalls := []

theorem receiver_deliver : receiver.hooks.Deliver := by
  constructor
  · intro f hf
    nomatch hf
  · intro f hf
    nomatch hf
  · intro hnone
    nomatch hnone

theorem sender_lookup : sender.arp.lookup (etherDst sender 0x0a000002) =
    some ⟨2, 0, 0, 0, 0, 2⟩ := by decide

/-- Three bytes, and two bytes of padding behind the frame. -/
theorem udp_roundtrip_three :
    ∃ s' r frame, udpSend sender 0x0a000002 8000 1234 (fun t => [1, 2, 3].getD t 0) (3 : Nat)
        = .ok (s', r) ∧ s'.phy.calls = [⟨.sendbuf, frame⟩] ∧
      ∃ h' r' hdr, etherPacketHandle receiver (fun t => (frame ++ [0, 0]).getD t 0)
          (frame ++ [0, 0]).length = .ok (h', r') ∧
        h'.udpCalls = [⟨0x0a000001, 0x0a000002, hdr, [1, 2, 3]⟩] ∧
        hdr.sport = 1234 ∧ hdr.dport = 8000 := by
  obtain ⟨s', r, frame, hsend, hcalls, -, hrecv⟩ := udp_roundtrip sender 0x0a000002 8000 1234
    (fun t => [1, 2, 3].getD t 0) 3 ⟨2, 0, 0, 0, 0, 2⟩ (by decide) sender_lookup
  exact ⟨s', r, frame, hsend, hcalls, hrecv [0, 0] receiver _ (listOf_getD _ _) rfl rfl
    receiver_deliver⟩

end JudgeDuck.Ducknet
