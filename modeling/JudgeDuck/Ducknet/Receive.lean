/-
  Ethernet, ICMP and UDP (`ether.cpp`, `icmp.cpp`, `udp.cpp`), and the receiving side of all layers.

  A received frame lies in a buffer.  Each layer swaps the bytes of its header there, calls its
  hook, looks at the header and gives the next layer the address behind it; `pkt` is the buffer from
  that address on.

  The hooks `packet_handle` are not part of the stack.  What they return may depend on everything
  that happened before (they get the number of the call), and they may call the stack; they do not
  write to the frame.  The log `hookCalls` is not part of the source.
-/
import JudgeDuck.Ducknet.Ipv4

namespace JudgeDuck.Ducknet

open JudgeDuck.Lib

/-! ## Constants -/

/-- `DUCKNET_IPv4_ICMP`. -/
def protocolIcmp : UInt8 := 1

/-- `DUCKNET_IPv4_UDP`. -/
def protocolUdp : UInt8 := 17

/-- `DUCKNET_IPv4_FLAGS_DF`. -/
def flagsDF : UInt16 := 0x4000

/-- `DUCKNET_ARP_REPLY`. -/
def arpReply : UInt16 := 2

/-- `DUCKNET_ICMP_ECHO_REPLY`. -/
def icmpEchoReply : UInt8 := 0

/-- `DUCKNET_ICMP_ECHO_REQUEST`. -/
def icmpEchoRequest : UInt8 := 8

/-- `sizeof(DucknetICMPHeader)`. -/
def sizeofIcmpHeader : Nat := 8

/-- `sizeof(DucknetUDPHeader)`. -/
def sizeofUdpHeader : Nat := 8

/-! ## Headers in memory -/

/-- A `ducknet_u16` at the place `i`, least significant byte first. -/
def readU16 (buf : Nat → UInt8) (i : Nat) : UInt16 :=
  UInt16.ofNat ((buf i).toNat + 2 ^ 8 * (buf (i + 1)).toNat)

/-- A `ducknet_u32` at the place `i`, least significant byte first. -/
def readU32 (buf : Nat → UInt8) (i : Nat) : UInt32 :=
  UInt32.ofNat ((buf i).toNat + 2 ^ 8 * (buf (i + 1)).toNat + 2 ^ 16 * (buf (i + 2)).toNat +
    2 ^ 24 * (buf (i + 3)).toNat)

/-- A MAC address at the place `i`. -/
def readMac (buf : Nat → UInt8) (i : Nat) : MacAddress :=
  ⟨buf i, buf (i + 1), buf (i + 2), buf (i + 3), buf (i + 4), buf (i + 5)⟩

/-- The buffer from the place `n` on. -/
def behind (buf : Nat → UInt8) (n : Nat) : Nat → UInt8 := fun t => buf (n + t)

/-- `DucknetEtherHeader`. -/
structure EtherHeader where
  dst : MacAddress
  src : MacAddress
  ethertype : UInt16
  deriving DecidableEq, Repr

def EtherHeader.bytes (hdr : EtherHeader) : List UInt8 :=
  hdr.dst.bytes ++ hdr.src.bytes ++ le16 hdr.ethertype

@[simp] theorem EtherHeader.length_bytes (hdr : EtherHeader) : hdr.bytes.length = 14 := rfl

def EtherHeader.read (buf : Nat → UInt8) : EtherHeader :=
  ⟨readMac buf 0, readMac buf 6, readU16 buf 12⟩

/-- `ducknet_ether_hton(hdr)`. -/
def etherHton (hdr : EtherHeader) : EtherHeader := { hdr with ethertype := htons hdr.ethertype }

/-- `DucknetARPHeader`. -/
structure ArpHeader where
  htype : UInt16
  ptype : UInt16
  hlen : UInt8
  plen : UInt8
  op : UInt16
  deriving DecidableEq, Repr

def ArpHeader.bytes (hdr : ArpHeader) : List UInt8 :=
  le16 hdr.htype ++ le16 hdr.ptype ++ [hdr.hlen, hdr.plen] ++ le16 hdr.op

def ArpHeader.read (buf : Nat → UInt8) : ArpHeader :=
  ⟨readU16 buf 0, readU16 buf 2, buf 4, buf 5, readU16 buf 6⟩

/-- `ducknet_arp_hton(hdr)`. -/
def arpHton (hdr : ArpHeader) : ArpHeader :=
  { hdr with htype := htons hdr.htype, ptype := htons hdr.ptype, op := htons hdr.op }

/-- The bit fields share a byte, the first one in its low half. -/
def IPv4Header.read (buf : Nat → UInt8) : IPv4Header where
  version := (buf 0).toBitVec.extractLsb' 0 4
  ihl := (buf 0).toBitVec.extractLsb' 4 4
  tos := buf 1
  length := readU16 buf 2
  id := readU16 buf 4
  flags := readU16 buf 6
  ttl := buf 8
  protocol := buf 9
  checksum := readU16 buf 10
  src := readU32 buf 12
  dst := readU32 buf 16

/-- `DucknetICMPHeader`. -/
structure IcmpHeader where
  type : UInt8
  code : UInt8
  checksum : UInt16
  rest : UInt32
  deriving DecidableEq, Repr

def IcmpHeader.bytes (hdr : IcmpHeader) : List UInt8 :=
  [hdr.type, hdr.code] ++ le16 hdr.checksum ++ le32 hdr.rest

@[simp] theorem IcmpHeader.length_bytes (hdr : IcmpHeader) : hdr.bytes.length = 8 := rfl

def IcmpHeader.read (buf : Nat → UInt8) : IcmpHeader := ⟨buf 0, buf 1, readU16 buf 2, readU32 buf 4⟩

/-- `DucknetUDPHeader`. -/
structure UdpHeader where
  sport : UInt16
  dport : UInt16
  length : UInt16
  checksum : UInt16
  deriving DecidableEq, Repr

def UdpHeader.bytes (hdr : UdpHeader) : List UInt8 :=
  le16 hdr.sport ++ le16 hdr.dport ++ le16 hdr.length ++ le16 hdr.checksum

@[simp] theorem UdpHeader.length_bytes (hdr : UdpHeader) : hdr.bytes.length = 8 := rfl

def UdpHeader.read (buf : Nat → UInt8) : UdpHeader :=
  ⟨readU16 buf 0, readU16 buf 2, readU16 buf 4, readU16 buf 6⟩

/-- `ducknet_udp_hton(hdr)`; the checksum is not swapped. -/
def udpHton (hdr : UdpHeader) : UdpHeader :=
  { hdr with sport := htons hdr.sport, dport := htons hdr.dport, length := htons hdr.length }

/-! ## Sending -/

/-- `ducknet_ether_send(dst, ethertype, payload, len)`. -/
def etherSend (s : Stack) (dst : MacAddress) (ethertype : UInt16) (payload : Nat → UInt8)
    (len : Int) : Stack × Int :=
  if len < 0 then (s, -1)
  else if len > ducknetMTU then (s, -1)
  else
    let hdr : EtherHeader := ⟨dst, s.mac, htons ethertype⟩
    let buf := memcpy (putBytes s.sendbuf 0 hdr.bytes) sizeofEtherHeader payload len.toNat
    phySend { s with sendbuf := buf } .sendbuf (len + sizeofEtherHeader)

/-- The pseudo header `ph` of `ducknet_udp_send`. -/
def udpPseudoHeader (src dst : UInt32) (udpLen : UInt16) : List UInt8 :=
  le32 (htonl src) ++ le32 (htonl dst) ++ [0, protocolUdp] ++ le16 (htons udpLen)

/-- The header that `ducknet_udp_send` writes before `content`. -/
def udpHeader (src dst : UInt32) (dport sport : UInt16) (content : List UInt8) : UdpHeader :=
  let udpLen := UInt16.ofNat (content.length + sizeofUdpHeader)
  let hdr := udpHton { sport := sport, dport := dport, length := udpLen, checksum := 0 }
  let tmpSum := checksumSum (udpPseudoHeader src dst udpLen)
  { hdr with checksum := checksum (hdr.bytes ++ content) tmpSum }

/-- The bytes that `ducknet_udp_send` passes on. -/
def udpDatagram (src dst : UInt32) (dport sport : UInt16) (content : List UInt8) : List UInt8 :=
  (udpHeader src dst dport sport content).bytes ++ content

/-- `ducknet_udp_send(dst, dport, sport, payload, len)`. -/
def udpSend (s : Stack) (dst : UInt32) (dport sport : UInt16) (payload : Nat → UInt8) (len : Int) :
    Except Fault (Stack × Int) :=
  if len < 0 then .ok (s, -1)
  else if len + sizeofUdpHeader + sizeofIPv4Header > ducknetMTU then .ok (s, -1)
  else
    let datagram := udpDatagram s.ip dst dport sport (listOf payload len.toNat)
    ipv4Send s dst protocolUdp (fun t => datagram.getD t 0) (len + sizeofUdpHeader)

/-! ## Hooks -/

/-- What the hook of `udp.cpp` gets: the addresses, the header, and the bytes behind it. -/
structure UdpCall where
  src : UInt32
  dst : UInt32
  hdr : UdpHeader
  content : List UInt8
  deriving DecidableEq, Repr

/-- A call of a hook, with the bytes that it gets. -/
inductive HookCall where
  | ether (hdr : EtherHeader) (content : List UInt8)
  | arp (hdr : ArpHeader) (content : List UInt8)
  | ipv4 (hdr : IPv4Header) (content : List UInt8)
  | icmp (src dst : UInt32) (hdr : IcmpHeader) (content : List UInt8)
  | udp (call : UdpCall)
  deriving DecidableEq, Repr

/-- A hook: from the number of the call, its arguments and the stack, the stack and the result. -/
def Hook : Type := Nat → HookCall → Stack → Stack × Int

/-- The variables `packet_handle` of the modules; `none` is a null pointer. -/
structure Hooks where
  ether : Option Hook
  arp : Option Hook
  ipv4 : Option Hook
  icmp : Option Hook
  udp : Option Hook

/-- A stack with its hooks, and the log of their calls. -/
structure Host where
  stack : Stack
  hooks : Hooks
  hookCalls : List HookCall

/-- `if (packet_handle && ((r = packet_handle(...)) < 0)) return r;`, and what comes then. -/
def Host.hook (h : Host) (handle : Option Hook) (c : HookCall)
    (next : Host → Except Fault (Host × Int)) : Except Fault (Host × Int) :=
  match handle with
  | none => next h
  | some f =>
    let (stack, r) := f h.hookCalls.length c h.stack
    let h := { h with stack := stack, hookCalls := h.hookCalls ++ [c] }
    if r < 0 then .ok (h, r) else next h

/-! ## Receiving -/

/-- The reply of `ducknet_arp_packet_handle` to a request from `sha` for the address `tpa`. -/
def replyPayload (s : Stack) (sha : MacAddress) (spa tpa : UInt32) : List UInt8 :=
  s.mac.bytes ++ le32 (htonl tpa) ++ sha.bytes ++ le32 (htonl spa)

/-- The part of `ducknet_arp_packet_handle` for a message whose hardware and protocol are known:
    `payload` is the message behind the header, `len` its length. -/
def arpMessage (s : Stack) (op : UInt16) (payload : Nat → UInt8) (len : Int) : Stack × Int :=
  if len < 20 then (s, -1)
  else
    let sha := readMac payload 0
    let spa := htonl (readU32 payload 6)
    let tpa := htonl (readU32 payload 16)
    if op = arpRequest then
      if tpa = s.ip then
        let reply := replyPayload s sha spa tpa
        ((arpSend s sha arpReply (fun t => reply.getD t 0) reply.length).1, 0)
      else (s, -1)
    else if op = arpReply then
      ({ s with arp := (s.arp.update s.currenttime s.tscFreq spa sha).1 }, 0)
    else (s, -1)

/-- `ducknet_arp_packet_handle(pkt, len)`. -/
def arpPacketHandle (h : Host) (pkt : Nat → UInt8) (len : Int) : Except Fault (Host × Int) :=
  if len < sizeofArpHeader then .ok (h, -1)
  else
    let hdr := arpHton (.read pkt)
    let payload := behind (putBytes pkt 0 hdr.bytes) sizeofArpHeader
    let payloadLen := len - sizeofArpHeader
    h.hook h.hooks.arp (.arp hdr (listOf payload payloadLen.toNat)) fun h =>
      if hdr.htype = htypeEthernet ∧ hdr.ptype = ptypeIPv4 then
        if hdr.hlen ≠ 6 then .ok (h, -1)
        else if hdr.plen ≠ 4 then .ok (h, -1)
        else
          let (stack, r) := arpMessage h.stack hdr.op payload payloadLen
          .ok ({ h with stack := stack }, r)
      else .ok (h, -1)

/-- The message in `pkt` turned into the reply to it: the type, and the checksum of the whole. -/
def echoReply (pkt : Nat → UInt8) (len : Int) : Nat → UInt8 :=
  let hdr : IcmpHeader := { IcmpHeader.read pkt with type := icmpEchoReply, checksum := 0 }
  let pkt := putBytes pkt 0 hdr.bytes
  putBytes pkt 0 { hdr with checksum := checksum (listOf pkt len.toNat) 0 }.bytes

/-- The part of `ducknet_icmp_packet_handle` after the hook.  The result of sending the reply is not
    looked at. -/
def icmpMessage (s : Stack) (src : UInt32) (pkt : Nat → UInt8) (len : Int) :
    Except Fault (Stack × Int) :=
  let hdr := IcmpHeader.read pkt
  if hdr.type = icmpEchoRequest then
    if hdr.code ≠ 0 then .ok (s, -1)
    else do
      let (s, _) ← ipv4Send s src protocolIcmp (echoReply pkt len) len
      .ok (s, 0)
  else .ok (s, -1)

/-- `ducknet_icmp_packet_handle(src, dst, pkt, len)`; `ducknet_icmp_hton` does nothing. -/
def icmpPacketHandle (h : Host) (src dst : UInt32) (pkt : Nat → UInt8) (len : Int) :
    Except Fault (Host × Int) :=
  if len < sizeofIcmpHeader then .ok (h, -1)
  else
    let content := listOf (behind pkt sizeofIcmpHeader) (len - sizeofIcmpHeader).toNat
    h.hook h.hooks.icmp (.icmp src dst (.read pkt) content) fun h => do
      let (stack, r) ← icmpMessage h.stack src pkt len
      .ok ({ h with stack := stack }, r)

/-- `ducknet_udp_packet_handle(src, dst, pkt, len)`. -/
def udpPacketHandle (h : Host) (src dst : UInt32) (pkt : Nat → UInt8) (len : Int) :
    Except Fault (Host × Int) :=
  if len < sizeofUdpHeader then .ok (h, -1)
  else
    let hdr := udpHton (.read pkt)
    let content := behind (putBytes pkt 0 hdr.bytes) sizeofUdpHeader
    h.hook h.hooks.udp (.udp ⟨src, dst, hdr, listOf content (len - sizeofUdpHeader).toNat⟩) fun h =>
      .ok (h, 0)

/-- `ducknet_ipv4_packet_handle(pkt, len)`.  Where `hdr->length` is compared with `len`, that is not
    negative, and the conversion to `unsigned` keeps its value. -/
def ipv4PacketHandle (h : Host) (pkt : Nat → UInt8) (len : Int) : Except Fault (Host × Int) :=
  if len < sizeofIPv4Header then .ok (h, -1)
  else
    let hdr := ipv4Hton (.read pkt)
    let content := behind (putBytes pkt 0 hdr.bytes) sizeofIPv4Header
    h.hook h.hooks.ipv4 (.ipv4 hdr (listOf content (len - sizeofIPv4Header).toNat)) fun h =>
      if hdr.version ≠ 4 then .ok (h, -1)
      else if hdr.ihl ≠ 5 then .ok (h, -1)
      else if hdr.length.toNat > len then .ok (h, -1)
      else if hdr.flags &&& ~~~ flagsDF ≠ 0 then .ok (h, -1)
      else if ¬ (~~~ hdr.dst = 0 ∨ hdr.dst = h.stack.ip) then .ok (h, -1)
      else
        let contentLen : Int := hdr.length.toNat - sizeofIPv4Header
        if hdr.protocol = protocolIcmp then icmpPacketHandle h hdr.src hdr.dst content contentLen
        else if hdr.protocol = protocolUdp then
          udpPacketHandle h hdr.src hdr.dst content contentLen
        else .ok (h, -1)

/-- `ducknet_ether_packet_handle(pkt, len)`. -/
def etherPacketHandle (h : Host) (pkt : Nat → UInt8) (len : Int) : Except Fault (Host × Int) :=
  if len < sizeofEtherHeader then .ok (h, -1)
  else
    let hdr := etherHton (.read pkt)
    let content := behind (putBytes pkt 0 hdr.bytes) sizeofEtherHeader
    let contentLen := len - sizeofEtherHeader
    h.hook h.hooks.ether (.ether hdr (listOf content contentLen.toNat)) fun h =>
      if hdr.dst ≠ h.stack.mac ∧ hdr.dst ≠ etherBroadcastAddr then .ok (h, -1)
      else if hdr.ethertype = ethertypeArp then arpPacketHandle h content contentLen
      else if hdr.ethertype = ethertypeIPv4 then ipv4PacketHandle h content contentLen
      else .ok (h, -1)

end JudgeDuck.Ducknet
