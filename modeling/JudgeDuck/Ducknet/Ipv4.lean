/-
  Sending IPv4 packets (`ipv4.cpp`).

  A packet whose link destination is not resolved waits in one of the 64 slots of `tosend_table`;
  the free slots are the set bits of the two words of `tosend_free`.  `ducknet_ipv4_idle` sweeps
  over the slots, and drops what has expired and passes on what is resolved by now.  The receiving
  side, `ducknet_ipv4_packet_handle`, stands with the other handlers in `Ducknet.Receive`.
-/
import JudgeDuck.Ducknet.Arp

namespace JudgeDuck.Ducknet

open JudgeDuck.Lib

/-! ## Constants -/

/-- `TOSEND_TABLE_SIZE`. -/
def tosendTableSize : Nat := 64

/-- `TOSEND_TIMEOUT_MS`. -/
def tosendTimeoutMs : UInt64 := 5000

/-- `DUCKNET_ETHERTYPE_IPv4`. -/
def ethertypeIPv4 : UInt16 := 0x0800

/-- `sizeof(DucknetIPv4Header)`. -/
def sizeofIPv4Header : Nat := 20

/-! ## The header -/

/-- `DucknetIPv4Header`. -/
structure IPv4Header where
  version : BitVec 4
  ihl : BitVec 4
  tos : UInt8
  length : UInt16
  id : UInt16
  flags : UInt16
  ttl : UInt8
  protocol : UInt8
  checksum : UInt16
  src : UInt32
  dst : UInt32
  deriving DecidableEq, Repr

/-- The header in memory; the two bit fields share a byte, the first one in its low half. -/
def IPv4Header.bytes (hdr : IPv4Header) : List UInt8 :=
  [UInt8.ofBitVec (hdr.ihl ++ hdr.version), hdr.tos] ++ le16 hdr.length ++ le16 hdr.id ++
    le16 hdr.flags ++ [hdr.ttl, hdr.protocol] ++ le16 hdr.checksum ++ le32 hdr.src ++ le32 hdr.dst

@[simp] theorem IPv4Header.length_bytes (hdr : IPv4Header) : hdr.bytes.length = 20 := rfl

/-- `ducknet_ipv4_hton(hdr)`. -/
def ipv4Hton (hdr : IPv4Header) : IPv4Header :=
  { hdr with
    version := hdr.ihl, ihl := hdr.version
    length := htons hdr.length, id := htons hdr.id, flags := htons hdr.flags
    src := htonl hdr.src, dst := htonl hdr.dst }

/-- The header that `ipv4_build_packet` writes. -/
def builtHeader (ip dst : UInt32) (protocol : UInt8) (len : Int) : IPv4Header :=
  let hdr := ipv4Hton
    { version := 4, ihl := 5, tos := 0, length := UInt16.ofNat (len.toNat + sizeofIPv4Header)
      id := 2333, flags := 0, ttl := 233, protocol := protocol, checksum := 0, src := ip
      dst := dst }
  { hdr with checksum := checksum hdr.bytes 0 }

/-- `ipv4_build_packet(pkt, dst, protocol, payload, len)`: the buffer, or `none` for the result -1.
    The destination MAC address, the first six bytes, stays as it was. -/
def ipv4BuildPacket (s : Stack) (pkt : Nat → UInt8) (dst : UInt32) (protocol : UInt8)
    (payload : Nat → UInt8) (len : Int) : Option (Nat → UInt8) :=
  if len < 0 then none
  else if len + sizeofIPv4Header > ducknetMTU then none
  else
    let pkt := putBytes pkt 6 (s.mac.bytes ++ le16 (htons ethertypeIPv4))
    let pkt := putBytes pkt sizeofEtherHeader (builtHeader s.ip dst protocol len).bytes
    some (memcpy pkt (sizeofEtherHeader + sizeofIPv4Header) payload len.toNat)

/-! ## The free slots -/

/-- `tosend_free[i >> 5] & (1u << (i & 31))`. -/
def Ipv4.isFree (v : Ipv4) (i : Nat) : Bool :=
  v.tosendFree (i >>> 5) &&& (1#32 <<< (i &&& 31)) != 0#32

/-- `tosend_free[i >> 5] |= 1u << (i & 31)`, on the words. -/
def setBit (words : Nat → BitVec 32) (i : Nat) : Nat → BitVec 32 :=
  Function.update words (i >>> 5) (words (i >>> 5) ||| (1#32 <<< (i &&& 31)))

/-- `tosend_free[i >> 5] &= ~(1u << (i & 31))`, on the words. -/
def clearBit (words : Nat → BitVec 32) (i : Nat) : Nat → BitVec 32 :=
  Function.update words (i >>> 5) (words (i >>> 5) &&& ~~~ (1#32 <<< (i &&& 31)))

/-- The slot `i` becomes free. -/
def Ipv4.setFree (v : Ipv4) (i : Nat) : Ipv4 := { v with tosendFree := setBit v.tosendFree i }

/-- The slot `i` is taken. -/
def Ipv4.clearFree (v : Ipv4) (i : Nat) : Ipv4 := { v with tosendFree := clearBit v.tosendFree i }

/-- `get_lower_bit_index(x)`, which does not end on zero. -/
def getLowerBitIndex (x : BitVec 32) : Except Fault Nat :=
  let i := firstFrom (fun i => (x >>> i) &&& 1#32 != 0#32) 32 0
  if i < 32 then .ok i else .error .diverges

/-- `find_tosend_free()`; `none` is the result -1. -/
def findTosendFree (v : Ipv4) : Except Fault (Option Nat) :=
  let i := firstFrom (fun i => v.tosendFree i != 0#32) 2 0
  if i < 2 then do
    let j ← getLowerBitIndex (v.tosendFree i)
    .ok (some ((i <<< 5) ||| j))
  else .ok none

/-- `memset(tosend_free, 0, ...)`, and the loop of `ducknet_ipv4_init` over the slots. -/
def allFree : Nat → BitVec 32 := forUp (fun i words => setBit words i) tosendTableSize fun _ => 0#32

/-- `DucknetIPv4Config`. -/
structure Ipv4Config where
  ip : UInt32
  gatewayIp : UInt32
  prefixLen : UInt8

/-- `ducknet_ipv4_init(conf)`; the counter of `ducknet_ipv4_idle` is not reset. -/
def ipv4Init (s : Stack) (conf : Ipv4Config) : Stack :=
  { s with
    ip := conf.ip
    ipv4 := { s.ipv4 with
      gatewayIp := conf.gatewayIp, prefixLen := conf.prefixLen, tosendFree := allFree
      lastIdleTime := s.currenttime, idleDelay := sweepDelay s.tscFreq } }

/-! ## Sending -/

/-- `match_prefix(a, b, prefix_len)`.  The shift count is taken modulo 64, as the processor does. -/
def matchPrefix (a b : UInt32) (prefixLen : UInt8) : Bool :=
  (a ^^^ b).toUInt64 >>> (32 - prefixLen.toUInt64) == 0

/-- Where a packet for `dst` is sent on the link: to `dst` itself or to the gateway. -/
def etherDst (s : Stack) (dst : UInt32) : UInt32 :=
  if matchPrefix dst s.ip s.ipv4.prefixLen then dst else s.ipv4.gatewayIp

/-- The part of `ducknet_ipv4_send` for a resolved link destination. -/
def sendResolved (s : Stack) (mac : MacAddress) (dst : UInt32) (protocol : UInt8)
    (payload : Nat → UInt8) (len : Int) : Stack × Int :=
  match ipv4BuildPacket s s.sendbuf dst protocol payload len with
  | none => (s, -1)
  | some buf => phySend { s with sendbuf := putBytes buf 0 mac.bytes } .sendbuf
      (len + sizeofIPv4Header + sizeofEtherHeader)

/-- The entry of the slot `id` is written, and the slot is taken. -/
def Ipv4.fill (v : Ipv4) (id : Nat) (entry : Tosend) : Ipv4 :=
  Ipv4.clearFree { v with tosendTable := Function.update v.tosendTable id entry } id

/-- The part of `ducknet_ipv4_send` that puts a packet into the slot `id`. -/
def enqueue (s : Stack) (id : Nat) (etherDst dst : UInt32) (protocol : UInt8)
    (payload : Nat → UInt8) (len : Int) : Stack × Int :=
  match ipv4BuildPacket s (s.ipv4.tosendTable id).pkt dst protocol payload len with
  | none => (s, -1)
  | some pkt =>
    let entry : Tosend := ⟨etherDst, timeAddMs s.tscFreq s.currenttime tosendTimeoutMs,
      len + sizeofIPv4Header + sizeofEtherHeader, pkt⟩
    ({ s with ipv4 := s.ipv4.fill id entry }, 0)

/-- The part of `ducknet_ipv4_send` for a link destination that is not resolved. -/
def sendPending (s : Stack) (etherDst dst : UInt32) (protocol : UInt8) (payload : Nat → UInt8)
    (len : Int) : Except Fault (Stack × Int) := do
  match ← findTosendFree s.ipv4 with
  | none => .ok (s, -1)
  | some id => .ok (enqueue s id etherDst dst protocol payload len)

/-- `ducknet_ipv4_send(dst, protocol, payload, len)`. -/
def ipv4Send (s : Stack) (dst : UInt32) (protocol : UInt8) (payload : Nat → UInt8) (len : Int) :
    Except Fault (Stack × Int) :=
  match s.arp.lookup (etherDst s dst) with
  | some mac => .ok (sendResolved s mac dst protocol payload len)
  | none => sendPending (arpQuery s (etherDst s dst)).1 (etherDst s dst) dst protocol payload len

/-! ## Sweeping -/

/-- The packet in the slot `i` is passed on, to `mac`. -/
def passOn (s : Stack) (i : Nat) (mac : MacAddress) : Stack :=
  let entry := s.ipv4.tosendTable i
  let v := s.ipv4.setFree i
  let v := { v with
    tosendTable := Function.update v.tosendTable i
      { entry with pkt := putBytes entry.pkt 0 mac.bytes } }
  (phySend { s with ipv4 := v } (.tosend i) entry.pktLen).1

/-- A turn of the loop of `ducknet_ipv4_idle`. -/
def sweepSlot (i : Nat) (s : Stack) : Stack :=
  if s.ipv4.isFree i then s
  else if s.currenttime > (s.ipv4.tosendTable i).expireTime then { s with ipv4 := s.ipv4.setFree i }
  else
    match s.arp.lookup (s.ipv4.tosendTable i).etherDstIp with
    | some mac => passOn s i mac
    | none => (arpQuery s (s.ipv4.tosendTable i).etherDstIp).1

/-- `ducknet_ipv4_idle()`, which returns 0. -/
def ipv4Idle (s : Stack) : Stack :=
  let v := s.ipv4
  if v.cnt + 1 < 1024 ∧ s.currenttime - v.lastIdleTime ≤ v.idleDelay then
    { s with ipv4 := { v with cnt := v.cnt + 1 } }
  else
    forUp sweepSlot tosendTableSize
      { s with ipv4 := { v with cnt := 0, lastIdleTime := s.currenttime } }

/-! ## Runs -/

/-- What happens to the stack: the two calls, and everything else.  Between the calls time passes,
    addresses are resolved or forgotten, and the other modules use the common buffer. -/
inductive Event where
  | send (dst : UInt32) (protocol : UInt8) (payload : Nat → UInt8) (len : Int)
  | idle
  | outside (currenttime : UInt64) (arp : Arp) (sendbuf : Nat → UInt8)

/-- One event, with the result of the call. -/
def step (s : Stack) : Event → Except Fault (Stack × Int)
  | .send dst protocol payload len => ipv4Send s dst protocol payload len
  | .idle => .ok (ipv4Idle s, 0)
  | .outside currenttime arp sendbuf =>
    .ok ({ s with currenttime := currenttime, arp := arp, sendbuf := sendbuf }, 0)

end JudgeDuck.Ducknet
