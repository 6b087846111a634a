/-
  The network stack of the kernel (`ducknet`): its state, its utilities, and the physical layer.

  The static variables of the C++ modules are one record, `Stack`, with a part for each module.
  Words have the widths of the source.  A buffer is an array of bytes; `Buffer` names the buffers
  that are passed on by address, so that a call of `ducknet_phy_send` can be told by the buffer it
  was given.

  `ducknet_phy_send` ends in code that is not part of the stack: a hook and the driver.  What they
  return may depend on everything that happened before; they get the number of the call.  Two logs are
  not part of the source: `calls`, of the calls of `ducknet_phy_send`, and `driven`, of the frames that
  the driver was given.
-/
import JudgeDuck.Lib.Arrays

namespace JudgeDuck.Ducknet

open JudgeDuck.Lib

/-! ## Addresses and byte order -/

/-- `DucknetMACAddress`. -/
structure MacAddress where
  a0 : UInt8
  a1 : UInt8
  a2 : UInt8
  a3 : UInt8
  a4 : UInt8
  a5 : UInt8
  deriving DecidableEq, Repr

/-- A MAC address in memory. -/
def MacAddress.bytes (m : MacAddress) : List UInt8 := [m.a0, m.a1, m.a2, m.a3, m.a4, m.a5]

@[simp] theorem MacAddress.length_bytes (m : MacAddress) : m.bytes.length = 6 := rfl

/-- `ducknet_ether_broadcast_addr()`. -/
def etherBroadcastAddr : MacAddress := ⟨255, 255, 255, 255, 255, 255⟩

/-- `ducknet_htons(x)`. -/
def htons (x : UInt16) : UInt16 := ((x &&& 0xff00) >>> 8) ||| ((x &&& 0x00ff) <<< 8)

/-- `ducknet_htonl(x)`. -/
def htonl (x : UInt32) : UInt32 :=
  ((x &&& 0xff000000) >>> 24) ||| ((x &&& 0x00ff0000) >>> 8) ||| ((x &&& 0x0000ff00) <<< 8) |||
    ((x &&& 0x000000ff) <<< 24)

/-- A `ducknet_u16` in memory, least significant byte first. -/
def le16 (x : UInt16) : List UInt8 := [x.toUInt8, (x >>> 8).toUInt8]

/-- A `ducknet_u32` in memory, least significant byte first. -/
def le32 (x : UInt32) : List UInt8 :=
  [x.toUInt8, (x >>> 8).toUInt8, (x >>> 16).toUInt8, (x >>> 24).toUInt8]

/-- Bytes written to a buffer, from the place `start` on. -/
def putBytes (buf : Nat → UInt8) (start : Nat) (bs : List UInt8) : Nat → UInt8 :=
  memcpy buf start (fun t => bs.getD t 0) bs.length

theorem listOf_putBytes (buf : Nat → UInt8) (start : Nat) (bs : List UInt8) :
    listOf (fun t => putBytes buf start bs (start + t)) bs.length = bs :=
  (listOf_memcpy _ _ _ _).trans (listOf_getD _ _)

/-! ## Time and checksums -/

/-- `mul_div(a, b, d)`. -/
def mulDiv (a b d : UInt64) : UInt64 :=
  let x := a / d
  let y := a % d
  let u := b / d
  let v := b % d
  x * u * d + x * v + y * u + y * v / d

/-- `ducknet_time_add_ms(t, ms)`. -/
def timeAddMs (tscFreq t ms : UInt64) : UInt64 := t + mulDiv ms tscFreq 1000

/-- The delay of the modules between two sweeps, 0.1 ms. -/
def sweepDelay (tscFreq : UInt64) : UInt64 := tscFreq * 100 / 1000 / 1000

/-- The loop of `ducknet_checksum_sum`, two bytes a turn. -/
def checksumLoop (sum : UInt32) : List UInt8 → UInt32
  | lo :: hi :: bs => checksumLoop (sum + (lo.toUInt32 + (hi.toUInt32 <<< 8))) bs
  | [b] => sum + b.toUInt32
  | [] => sum

/-- `ducknet_checksum_sum(a, count)`. -/
def checksumSum (bs : List UInt8) : UInt32 := checksumLoop 0 bs

/-- `(sum & 0xffff) + (sum >> 16)`. -/
def foldOnce (sum : UInt32) : UInt32 := (sum &&& (0xffff : UInt32)) + (sum >>> 16)

theorem toNat_foldOnce (sum : UInt32) :
    (foldOnce sum).toNat = sum.toNat % 65536 + sum.toNat / 65536 := by
  have hlt := sum.toNat_lt
  have hand : (sum &&& (0xffff : UInt32)).toNat = sum.toNat % 65536 := by
    rw [UInt32.toNat_and]
    exact Nat.and_two_pow_sub_one_eq_mod _ 16
  have hshift : (sum >>> 16).toNat = sum.toNat / 65536 := by
    rw [UInt32.toNat_shiftRight]
    exact Nat.shiftRight_eq_div_pow _ _
  rw [foldOnce, UInt32.toNat_add, hand, hshift, Nat.mod_eq_of_lt (by omega)]

/-- A turn of the loop below makes the sum smaller. -/
theorem foldOnce_lt {sum : UInt32} (h : sum >>> 16 ≠ 0) : (foldOnce sum).toNat < sum.toNat := by
  have hshift : (sum >>> 16).toNat = sum.toNat / 65536 := by
    rw [UInt32.toNat_shiftRight]
    exact Nat.shiftRight_eq_div_pow _ _
  have hpos : (sum >>> 16).toNat ≠ 0 := fun h0 => h (UInt32.toNat.inj h0)
  rw [hshift] at hpos
  rw [toNat_foldOnce]
  omega

/-- `while (sum >> 16) sum = (sum & 0xffff) + (sum >> 16);`. -/
def foldCarries (sum : UInt32) : UInt32 :=
  if _h : sum >>> 16 ≠ 0 then foldCarries (foldOnce sum) else sum
termination_by sum.toNat
decreasing_by exact foldOnce_lt _h

/-- `ducknet_checksum(a, count, sum)`. -/
def checksum (bs : List UInt8) (sum : UInt32) : UInt16 :=
  ~~~ (foldCarries (sum + checksumSum bs)).toUInt16

/-! ## The state -/

/-- An entry of `arp_table`. -/
structure ArpEntry where
  ip : UInt32
  mac : MacAddress
  expireTime : UInt64
  deriving DecidableEq, Repr

/-- An entry of `arp_query_table`. -/
structure ArpQuery where
  ip : UInt32
  expireTime : UInt64
  deriving DecidableEq, Repr

/-- The variables of `arp.cpp`; `cnt` is the one of `ducknet_arp_idle`. -/
structure Arp where
  arpTable : Nat → ArpEntry
  nArpEntries : Nat
  arpQueryTable : Nat → ArpQuery
  nArpQueries : Nat
  lastIdleTime : UInt64
  idleDelay : UInt64
  cnt : Nat

/-- An entry of `tosend_table`. -/
structure Tosend where
  etherDstIp : UInt32
  expireTime : UInt64
  pktLen : Int
  pkt : Nat → UInt8

/-- The variables of `ipv4.cpp`; `cnt` is the one of `ducknet_ipv4_idle`. -/
structure Ipv4 where
  gatewayIp : UInt32
  prefixLen : UInt8
  tosendTable : Nat → Tosend
  tosendFree : Nat → BitVec 32
  lastIdleTime : UInt64
  idleDelay : UInt64
  cnt : Nat

/-- The buffers passed to `ducknet_phy_send`: `ducknet_sendbuf` and `tosend_table[i].pkt`. -/
inductive Buffer where
  | sendbuf
  | tosend (i : Nat)
  deriving DecidableEq, Repr

/-- A call of `ducknet_phy_send`: the buffer, and the bytes it held. -/
structure PhyCall where
  buf : Buffer
  frame : List UInt8
  deriving DecidableEq, Repr

/-- The variables of `phy.cpp` that sending uses, with the logs of the calls. -/
structure Phy where
  sendPacketHandle : Option (Nat → List UInt8 → Int)
  send : Option (Nat → List UInt8 → Int)
  flushed : Bool
  calls : List PhyCall
  /-- The frames that the driver's `send` was called with. -/
  driven : List (List UInt8)

/-- The variables of the stack. -/
structure Stack where
  currenttime : UInt64
  tscFreq : UInt64
  mac : MacAddress
  ip : UInt32
  sendbuf : Nat → UInt8
  phy : Phy
  arp : Arp
  ipv4 : Ipv4

/-- `ducknet_MTU`, as `ducknet_ether_init` sets it. -/
def ducknetMTU : Int := 1500

/-- `sizeof(DucknetEtherHeader)`. -/
def sizeofEtherHeader : Nat := 14

/-! ## The physical layer -/

/-- The bytes of a buffer. -/
def Stack.buffer (s : Stack) : Buffer → Nat → UInt8
  | .sendbuf => s.sendbuf
  | .tosend i => (s.ipv4.tosendTable i).pkt

/-- The part of `ducknet_phy_send` after the log: the hook, then the driver.  In the test
    `(r = send_packet_handle(a, len) < 0)` the comparison binds first, so a frame that the hook
    refuses makes the call return 1. -/
def Phy.pass (p : Phy) (k : Nat) (frame : List UInt8) : Phy × Int :=
  if (p.sendPacketHandle.map fun handle => decide (handle k frame < 0)) = some true then (p, 1)
  else
    match p.send with
    | some send => ({ p with flushed := false, driven := p.driven ++ [frame] }, send k frame)
    | none => ({ p with flushed := false }, -1)

/-- `ducknet_phy_send(a, len)`. -/
def phySend (s : Stack) (a : Buffer) (len : Int) : Stack × Int :=
  let frame := listOf (s.buffer a) len.toNat
  let logged : Phy := { s.phy with calls := s.phy.calls ++ [⟨a, frame⟩] }
  let r := logged.pass s.phy.calls.length frame
  ({ s with phy := r.1 }, r.2)

/-- Sending is logged and otherwise concerns the physical layer only. -/
theorem phySend_spec (s : Stack) (a : Buffer) (len : Int) :
    ∃ phy, (phySend s a len).1 = { s with phy := phy } ∧
      phy.calls = s.phy.calls ++ [⟨a, listOf (s.buffer a) len.toNat⟩] := by
  refine ⟨_, rfl, ?_⟩
  unfold Phy.pass
  split
  · rfl
  · split <;> rfl

end JudgeDuck.Ducknet
