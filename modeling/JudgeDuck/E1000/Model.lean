/-
  The network card driver of `lib/e1000.cpp`: the transmit and the receive ring.

  Both rings have 256 descriptors of 16 bytes in one page, and the card takes a descriptor's buffer by
  its address.  A packet to send is copied into a fragment of one of 128 pages, which are used one
  after the other; nothing in the allocator refers to the descriptors.  A received packet is found
  in the half page of its descriptor.

  The static variables are two records, `Tx` and `Rx`, with the registers of the card that belong to
  them.  The page arrays are different objects, so each record has its own memory.  What the card
  does by itself, moving the head of the transmit ring and filling descriptors of the receive ring,
  are separate functions.

  Left out: finding the card, its reset, and the registers that have to do with neither ring.
-/
import JudgeDuck.Lib.Arrays
import JudgeDuck.Lib.Loop

namespace JudgeDuck.E1000

open JudgeDuck.Lib

/-! ## Constants -/

/-- `Memory::PAGE_SIZE`. -/
def pageSize : Nat := 4096

/-- `sizeof(TransDesc)` and `sizeof(RecvDesc)`. -/
def sizeofDesc : Nat := 16

/-- `TQSIZE`. -/
def tqSize : Nat := pageSize / sizeofDesc

/-- `RQSIZE`. -/
def rqSize : Nat := pageSize * 1 / sizeofDesc

/-- `TQ_FLUSH_COUNT`. -/
def tqFlushCount : Nat := 32

/-- `RQ_FLUSH_COUNT`. -/
def rqFlushCount : Nat := 128

/-- Where the static arrays `tq_pages` and `rq_pages` are.  The kernel lies below `kernel_break`,
    16 MiB, which `Memory::init` asserts. -/
structure Layout where
  tqPages : Nat
  rqPages : Nat
  tqPages_le : tqPages + tqSize / 2 * pageSize ≤ 2 ^ 24
  rqPages_le : rqPages + rqSize / 2 * pageSize ≤ 2 ^ 24

/-- `tq_pages[i]`. -/
def Layout.tqPage (lay : Layout) (i : Nat) : Nat := lay.tqPages + i * pageSize

/-- `rq_pages[i]`. -/
def Layout.rqPage (lay : Layout) (i : Nat) : Nat := lay.rqPages + i * pageSize

/-! ## Transmitting -/

structure TransDesc where
  addr : Nat
  length : Nat
  cso : UInt8
  cmd : UInt8
  status : UInt8
  css : UInt8
  special : Nat
  deriving DecidableEq, Repr

/-- The statics for transmitting, the registers `TDH` and `TDT`, and the memory of `tq_pages`. -/
structure Tx where
  tq : Nat → TransDesc
  tqAddrs : Nat → Nat
  lastTqPageId : Nat
  lastTqPageOffset : Nat
  tdt : Nat
  tdh : Nat
  tdtReal : Nat
  regTDH : Nat
  regTDT : Nat
  mem : Nat → UInt8

/-- The part of `e1000_init` for transmitting. -/
def initTx (lay : Layout) (raw : Tx) : Tx :=
  { raw with
    tqAddrs := forUp (fun i addrs => Function.update addrs i (lay.tqPage i)) tqSize raw.tqAddrs
    lastTqPageId := 0, lastTqPageOffset := 0
    regTDH := 0, regTDT := 0, tdt := 0, tdtReal := 0, tdh := 0 }

/-- `cnt += (-cnt) & (64 - 1)`. -/
def roundFrag (cnt : Nat) : Nat := u64 (cnt + (u64 (2 ^ 64 - cnt) &&& (64 - 1)))

/-- `tq_frag_alloc(cnt, &va, &pa)`: the state, `va` and `pa`; `none` is the result -1. -/
def tqFragAlloc (lay : Layout) (s : Tx) (cnt : Nat) : Option (Tx × Nat × Nat) :=
  let cnt := roundFrag cnt
  if u64 (s.lastTqPageOffset + cnt) ≤ pageSize then
    some ({ s with lastTqPageOffset := u64 (s.lastTqPageOffset + cnt) },
      lay.tqPage s.lastTqPageId + s.lastTqPageOffset,
      s.tqAddrs s.lastTqPageId + s.lastTqPageOffset)
  else if cnt ≤ pageSize then
    let id := (s.lastTqPageId + 1) % (tqSize / 2)
    some ({ s with lastTqPageId := id, lastTqPageOffset := cnt }, lay.tqPage id, s.tqAddrs id)
  else none

/-- `1 << i`. -/
def bit (i : UInt8) : UInt8 := 1 <<< i

/-- The descriptor that `send` writes. -/
def transDesc (pa cnt : Nat) : TransDesc where
  addr := u32 pa
  length := u16 cnt
  cso := 0
  cmd := ((0 &&& ~~~ bit 5) ||| (bit 3 ||| bit 0)) ||| bit 1
  status := 0
  css := 0
  special := 0

/-- `flush()`. -/
def flush (s : Tx) : Tx :=
  if s.tdt ≠ s.tdtReal then { s with regTDT := s.tdt, tdtReal := s.tdt } else s

/-- The first test of `send`: a ring that looks full makes it read the head. -/
def refreshHead (s : Tx) : Tx :=
  if (s.tdt + 1) % tqSize = s.tdh then { s with tdh := s.regTDH } else s

/-- The end of `send`, once the packet is in place. -/
def submit (s : Tx) (td : TransDesc) : Tx :=
  let s := { s with tq := Function.update s.tq s.tdt td, tdt := (s.tdt + 1) % tqSize }
  let s := if s.tdt % tqFlushCount = 0 then { s with regTDT := s.tdt, tdtReal := s.tdt } else s
  flush s

/-- `send(buf, cnt)`. -/
def send (lay : Layout) (s : Tx) (buf : Nat → UInt8) (cnt : Int) : Tx × Int :=
  if cnt < 0 ∨ cnt > 1500 then (s, -1)
  else
    let s := refreshHead s
    if (s.tdt + 1) % tqSize = s.tdh then (s, -1)
    else
      match tqFragAlloc lay s cnt.toNat with
      | none => (s, -1)
      | some (s, va, pa) =>
        (submit { s with mem := memcpy s.mem va buf cnt.toNat } (transDesc pa cnt.toNat), 0)

/-- The card is done with the next `k` descriptors, if there are that many up to the tail. -/
def advance (s : Tx) (k : Nat) : Tx :=
  if k ≤ (s.regTDT + tqSize - s.regTDH) % tqSize then
    { s with regTDH := (s.regTDH + k) % tqSize }
  else s

/-- What can happen to the transmit ring. -/
inductive TxEvent where
  | send (buf : Nat → UInt8) (cnt : Int)
  | advance (k : Nat)

/-- One event. -/
def stepTx (lay : Layout) (s : Tx) : TxEvent → Tx
  | .send buf cnt => (send lay s buf cnt).1
  | .advance k => advance s k

/-- One event after the other. -/
def runTx (lay : Layout) (s : Tx) (evs : List TxEvent) : Tx := evs.foldl (stepTx lay) s

/-! ## Receiving -/

structure RecvDesc where
  addr : Nat
  length : UInt16
  chksum : UInt16
  status : UInt8
  errors : UInt8
  special : UInt16
  deriving DecidableEq, Repr

/-- The statics for receiving, the registers `RDH` and `RDT`, and the memory of `rq_pages`. -/
structure Rx where
  rq : Nat → RecvDesc
  rqAddrs : Nat → Nat
  rdt : Nat
  rdh : Nat
  rdtReal : Nat
  regRDH : Nat
  regRDT : Nat
  mem : Nat → UInt8

/-- Static variables start as zero; the memory may hold anything. -/
def Rx.bss (mem : Nat → UInt8) : Rx where
  rq := fun _ => ⟨0, 0, 0, 0, 0, 0⟩
  rqAddrs := fun _ => 0
  rdt := 0
  rdh := 0
  rdtReal := 0
  regRDH := 0
  regRDT := 0
  mem := mem

/-- A turn of the loop of `e1000_init` over the receive buffers. -/
def initRxSlot (lay : Layout) (i : Nat) (s : Rx) : Rx :=
  let addr := lay.rqPage (i / 2) + i % 2 * pageSize / 2
  { s with
    rqAddrs := Function.update s.rqAddrs i addr
    rq := Function.update s.rq i { s.rq i with addr := u32 addr } }

/-- The part of `e1000_init` for receiving. -/
def initRx (lay : Layout) (raw : Rx) : Rx :=
  { forUp (initRxSlot lay) rqSize raw with
    regRDH := 0, regRDT := rqSize - 1, rdh := 0, rdt := rqSize - 1, rdtReal := rqSize - 1 }

/-- `receive(bufpage)`: the state, the memory at `bufpage`, and the result. -/
def receive (s : Rx) (bufpage : Nat → UInt8) : Rx × (Nat → UInt8) × Int :=
  let idx := (s.rdt + 1) % rqSize
  let rd := s.rq idx
  if rd.status &&& 1 = 0 then (s, bufpage, -1)
  else
    let len : Int := rd.length.toNat
    if len < 0 then (s, bufpage, -1)
    else
      let len := if len > (pageSize / 2 : Nat) then ((pageSize / 2 : Nat) : Int) else len
      let bufpage := memcpy bufpage 0 (fun i => s.mem (s.rqAddrs idx + i)) len.toNat
      let s := { s with
        rq := Function.update s.rq idx { rd with status := rd.status &&& ~~~ 1 }, rdt := idx }
      let s := if s.rdt % rqFlushCount = 0 then { s with regRDT := s.rdt, rdtReal := s.rdt } else s
      (s, bufpage, len)

/-- A packet as the card stores it: at most 2048 bytes, which is the buffer size it is told, and a
    status with the "descriptor done" bit. -/
structure Frame where
  data : List UInt8
  chksum : UInt16
  status : UInt8
  errors : UInt8
  special : UInt16
  le : data.length ≤ 2048
  done : status &&& 1 ≠ 0

/-- The card fills the descriptor at its head; it does not when the head has met the tail. -/
def fill (s : Rx) (f : Frame) : Rx :=
  if s.regRDH = s.regRDT then s
  else
    let rd := s.rq s.regRDH
    { s with
      mem := memcpy s.mem rd.addr (fun i => f.data.getD i 0) f.data.length
      rq := Function.update s.rq s.regRDH
        ⟨rd.addr, UInt16.ofNat f.data.length, f.chksum, f.status, f.errors, f.special⟩
      regRDH := (s.regRDH + 1) % rqSize }

/-- What can happen to the receive ring. -/
inductive RxEvent where
  | fill (f : Frame)
  | receive (bufpage : Nat → UInt8)

/-- The ring with a log: the frames the card accepted, each with the descriptor it was put into, and
    the frames that `receive` returned. -/
structure RxWorld where
  rx : Rx
  accepted : List (Nat × List UInt8)
  returned : List (List UInt8)

/-- One event. -/
def stepRx (w : RxWorld) : RxEvent → RxWorld
  | .fill f =>
    if w.rx.regRDH = w.rx.regRDT then w
    else { w with rx := fill w.rx f, accepted := w.accepted ++ [(w.rx.regRDH, f.data)] }
  | .receive bufpage =>
    let r := receive w.rx bufpage
    if r.2.2 = -1 then { w with rx := r.1 }
    else { w with rx := r.1, returned := w.returned ++ [listOf r.2.1 r.2.2.toNat] }

/-- One event after the other, from `e1000_init` on. -/
def runRx (lay : Layout) (mem : Nat → UInt8) (evs : List RxEvent) : RxWorld :=
  evs.foldl stepRx ⟨initRx lay (Rx.bss mem), [], []⟩

end JudgeDuck.E1000
