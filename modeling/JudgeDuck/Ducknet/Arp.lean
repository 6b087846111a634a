/-
  Address resolution (`arp.cpp`): the table of known addresses and the table of open queries.

  Both tables are arrays that are to be sorted by address, and `update`, `lookup` and `query` look
  for their place with the same loop, which halves the CLOSED interval from the first to the last
  entry (`search`).  The receiving side, `ducknet_arp_packet_handle`, stands with the other handlers
  in `Ducknet.Receive`: for the tables it is a source of calls of `update`.
-/
import JudgeDuck.Ducknet.Base

namespace JudgeDuck.Ducknet

open JudgeDuck.Lib

/-! ## Constants -/

/-- `ARP_TABLE_SIZE`. -/
def arpTableSize : Nat := 100

/-- `ARP_EXPIRE_TIMEOUT_MS`. -/
def arpExpireTimeoutMs : UInt64 := 30000

/-- `ARP_QUERY_TIMEOUT_MS`. -/
def arpQueryTimeoutMs : UInt64 := 1000

/-- `ARP_NEVER_EXPIRE`. -/
def arpNeverExpire : Bool := true

/-- `DUCKNET_ETHERTYPE_ARP`. -/
def ethertypeArp : UInt16 := 0x0806

/-- `DUCKNET_HTYPE_ETHERNET`. -/
def htypeEthernet : UInt16 := 0x1

/-- `DUCKNET_PTYPE_IPv4`. -/
def ptypeIPv4 : UInt16 := 0x0800

/-- `DUCKNET_ARP_REQUEST`. -/
def arpRequest : UInt16 := 1

/-- `sizeof(DucknetARPHeader)`. -/
def sizeofArpHeader : Nat := 8

/-! ## The table -/

/-- `ducknet_arp_init(conf)`; the counter of `ducknet_arp_idle` is not reset. -/
def Arp.init (a : Arp) (currenttime tscFreq : UInt64) : Arp :=
  { a with
    nArpEntries := 0, nArpQueries := 0
    lastIdleTime := currenttime, idleDelay := sweepDelay tscFreq }

/-- The loop of `update`, `lookup` and `query` over the addresses `ips[0], …, ips[n - 1]`. -/
def search (ips : Nat → UInt32) (n : Nat) (ip : UInt32) : Nat :=
  bisect (fun i => decide (ips i < ip)) n 0 (n - 1)

/-- `ducknet_arp_update(ip, mac)`. -/
def Arp.update (a : Arp) (currenttime tscFreq : UInt64) (ip : UInt32) (mac : MacAddress) :
    Arp × Int :=
  let l := search (fun i => (a.arpTable i).ip) a.nArpEntries ip
  let entry : ArpEntry := ⟨ip, mac, timeAddMs tscFreq currenttime arpExpireTimeoutMs⟩
  if a.nArpEntries ≤ l ∨ (a.arpTable l).ip ≠ ip then
    if a.nArpEntries = arpTableSize then (a, -1)
    else
      ({ a with
        arpTable := Function.update (memmoveUp a.arpTable l a.nArpEntries) l entry
        nArpEntries := a.nArpEntries + 1 }, 0)
  else ({ a with arpTable := Function.update a.arpTable l entry }, 0)

/-- `ducknet_arp_lookup(ip, &mac)`: `none` is the result -1, `some mac` the result 0. -/
def Arp.lookup (a : Arp) (ip : UInt32) : Option MacAddress :=
  let l := search (fun i => (a.arpTable i).ip) a.nArpEntries ip
  if a.nArpEntries ≤ l ∨ (a.arpTable l).ip ≠ ip then none else some (a.arpTable l).mac

/-- The sweep of `ducknet_arp_idle` over both tables. -/
def Arp.sweep (a : Arp) (currenttime : UInt64) : Arp :=
  let entries := compact (fun e => !(!arpNeverExpire && decide (currenttime > e.expireTime)))
    a.arpTable a.nArpEntries
  let queries := compact (fun q => !decide (currenttime > q.expireTime))
    a.arpQueryTable a.nArpQueries
  { a with
    arpTable := entries.2, nArpEntries := entries.1
    arpQueryTable := queries.2, nArpQueries := queries.1 }

/-- `ducknet_arp_idle()`, which returns 0. -/
def Arp.idle (a : Arp) (currenttime : UInt64) : Arp :=
  if a.cnt + 1 < 128 ∧ currenttime - a.lastIdleTime ≤ a.idleDelay then { a with cnt := a.cnt + 1 }
  else { a with cnt := 0, lastIdleTime := currenttime }.sweep currenttime

/-! ## Sending -/

/-- The headers that `ducknet_arp_send` writes, in network byte order. -/
def arpHeaders (dst src : MacAddress) (op : UInt16) : List UInt8 :=
  dst.bytes ++ src.bytes ++ le16 (htons ethertypeArp) ++ le16 (htons htypeEthernet) ++
    le16 (htons ptypeIPv4) ++ [6, 4] ++ le16 (htons op)

/-- `ducknet_arp_send(dst, op, payload, len)`. -/
def arpSend (s : Stack) (dst : MacAddress) (op : UInt16) (payload : Nat → UInt8) (len : Int) :
    Stack × Int :=
  if len < 0 then (s, -1)
  else if len + sizeofArpHeader > ducknetMTU then (s, -1)
  else
    let buf := putBytes s.sendbuf 0 (arpHeaders dst s.mac op)
    let buf := memcpy buf (sizeofEtherHeader + sizeofArpHeader) payload len.toNat
    phySend { s with sendbuf := buf } .sendbuf (len + sizeofArpHeader + sizeofEtherHeader)

/-- The payload of a query for `ip`. -/
def queryPayload (s : Stack) (ip : UInt32) : List UInt8 :=
  s.mac.bytes ++ le32 (htonl s.ip) ++ List.replicate 6 0 ++ le32 (htonl ip)

/-- The query table with a new query in the place `l`. -/
def Arp.addQuery (a : Arp) (l : Nat) (q : ArpQuery) : Arp :=
  { a with
    arpQueryTable := Function.update (memmoveUp a.arpQueryTable l a.nArpQueries) l q
    nArpQueries := a.nArpQueries + 1 }

/-- `ducknet_arp_query(ip)`. -/
def arpQuery (s : Stack) (ip : UInt32) : Stack × Int :=
  let l := search (fun i => (s.arp.arpQueryTable i).ip) s.arp.nArpQueries ip
  if s.arp.nArpQueries ≤ l ∨ (s.arp.arpQueryTable l).ip ≠ ip then
    if s.arp.nArpQueries = arpTableSize then (s, -1)
    else
      let query : ArpQuery := ⟨ip, timeAddMs s.tscFreq s.currenttime arpQueryTimeoutMs⟩
      let payload := queryPayload s ip
      arpSend { s with arp := s.arp.addQuery l query } etherBroadcastAddr arpRequest
        (fun t => payload.getD t 0) payload.length
  else (s, 0)

end JudgeDuck.Ducknet
