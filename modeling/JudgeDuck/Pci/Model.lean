/-
  Finding the devices on the PCI buses (`lib/pci.cpp`).

  `pci_scan_bus` looks at the functions of the devices of a bus.  A network card that the kernel has a
  driver for is enabled and stored; a bridge leads to another bus, whose number is read from the
  bridge, and that bus is scanned in the same way.

  A register of configuration space has bits that can be written and bits that cannot; a write changes
  the first ones.  The recursion has a bound on its depth, and a scan that needs a deeper one is a
  fault.

  Left out: the messages to the log, and what is done with the stored cards afterwards.
-/
import JudgeDuck.Lib.Loop
import Mathlib.Logic.Function.Basic

namespace JudgeDuck.Pci

open JudgeDuck.Lib

/-! ## Configuration space -/

/-- A register: the bus, the device, its function, and the offset. -/
structure Reg where
  bus : Nat
  dev : Nat
  func : Nat
  off : Nat
deriving DecidableEq

/-- Configuration space: what the registers hold, and which of their bits can be written. -/
structure Config where
  value : Reg → BitVec 32
  writable : Reg → BitVec 32

/-- Writing `v` to a register. -/
def Config.write (c : Config) (a : Reg) (v : BitVec 32) : Config :=
  { c with
    value := Function.update c.value a ((c.value a &&& ~~~ c.writable a) ||| (v &&& c.writable a)) }

/-- `Func`, with the number of its bus. -/
structure Func where
  bus : Nat
  dev : Nat
  func : Nat
  devId : BitVec 32
  devClass : BitVec 32
  regBase : Nat → BitVec 32
  regSize : Nat → BitVec 32
  regIsIo : Nat → Bool
  irqLine : BitVec 8

/-- Configuration space, and `stored_pci_devices` up to `n_stored_pci_devices`. -/
structure Host where
  config : Config
  stored : List Func

/-- `pci_conf1_set_addr(bus, dev, func, offset)`. -/
def conf1SetAddr (bus dev func offset : Nat) : Except Fault Reg :=
  if ¬ bus < 256 then .error .assertion
  else if ¬ dev < 32 then .error .assertion
  else if ¬ func < 8 then .error .assertion
  else if ¬ offset < 256 then .error .assertion
  else if ¬ (offset &&& 3) = 0 then .error .assertion
  else .ok ⟨bus, dev, func, offset⟩

/-- `pci_conf_read(f, off)`. -/
def confRead (s : Host) (f : Func) (off : Nat) : Except Fault (BitVec 32) := do
  let a ← conf1SetAddr f.bus f.dev f.func off
  .ok (s.config.value a)

/-- `pci_conf_write(f, off, v)`. -/
def confWrite (s : Host) (f : Func) (off : Nat) (v : BitVec 32) : Except Fault Host := do
  let a ← conf1SetAddr f.bus f.dev f.func off
  .ok { s with config := s.config.write a v }

/-! ## Registers -/

/-- `PCI_VENDOR(id)`. -/
def vendor (id : BitVec 32) : BitVec 32 := id &&& 0xffff

/-- `PCI_PRODUCT(id)`. -/
def product (id : BitVec 32) : BitVec 32 := (id >>> 16) &&& 0xffff

/-- `PCI_CLASS(cr)`. -/
def classOf (cr : BitVec 32) : BitVec 32 := (cr >>> 24) &&& 0xff

/-- `PCI_SUBCLASS(cr)`. -/
def subclassOf (cr : BitVec 32) : BitVec 32 := (cr >>> 16) &&& 0xff

/-- `PCI_HDRTYPE(bhlcr)`. -/
def hdrtype (bhlcr : BitVec 32) : BitVec 32 := (bhlcr >>> 16) &&& 0xff

/-- `PCI_HDRTYPE_TYPE(bhlcr)`. -/
def hdrtypeType (bhlcr : BitVec 32) : BitVec 32 := hdrtype bhlcr &&& 0x7f

/-- `PCI_HDRTYPE_MULTIFN(bhlcr)`. -/
def hdrtypeMultifn (bhlcr : BitVec 32) : Bool := hdrtype bhlcr &&& 0x80 != 0

/-- `PCI_BRIDGE_IO_32BITS(reg)`. -/
def bridgeIo32Bits (reg : BitVec 32) : Bool := reg &&& 0xf == 1

/-- The number of the bus behind a bridge: `(busreg >> PCI_BRIDGE_BUS_SECONDARY_SHIFT) & 0xff`. -/
def secondary (busreg : BitVec 32) : Nat := ((busreg >>> 8) &&& 0xff).toNat

/-! ## Network cards -/

/-- `PCI_MAPREG_MEM_SIZE(mr)` and `PCI_MAPREG_IO_SIZE(mr)`, for the address bits of `mr`. -/
def lowestBit (addr : BitVec 32) : BitVec 32 := addr &&& -addr

/-- A turn of the loop of `pci_func_enable`; the state is `bar`, the function and the bus. -/
def enableBar (p : Nat × Func × Host) : Except Fault (Nat × Func × Host) := do
  let (bar, f, s) := p
  let oldv ← confRead s f bar
  let s ← confWrite s f bar 0xffffffff
  let rv ← confRead s f bar
  if rv = 0 then .ok (bar + 4, f, s)
  else
    let regnum := (bar - 0x10) / 4
    let isMem := rv &&& 1 == 0
    let barWidth := if isMem && rv &&& 6 == 4 then 8 else 4
    let mask : BitVec 32 := if isMem then 0xfffffff0 else 0xfffffffc
    let s ← confWrite s f bar oldv
    .ok (bar + barWidth,
      { f with
        regIsIo := Function.update f.regIsIo regnum (!isMem)
        regBase := Function.update f.regBase regnum (oldv &&& mask)
        regSize := Function.update f.regSize regnum (lowestBit (rv &&& mask)) }, s)

/-- `pci_func_enable(f)`. -/
def funcEnable (f : Func) (s : Host) : Except Fault (Func × Host) := do
  let s ← confWrite s f 0x04 7
  let (_, f, s) ← whileM (fun p : Nat × Func × Host => decide (p.1 < 0x28)) enableBar 0x28 (0x10, f, s)
  .ok (f, s)

/-- `MAX_N_PCI_DEVICES`. -/
def maxNPciDevices : Nat := 128

/-- `pci_store(pcif)`: the result, with the function and the bus. -/
def store (f : Func) (s : Host) : Except Fault (Int × Func × Host) :=
  if s.stored.length < maxNPciDevices then do
    let (f, s) ← funcEnable f s
    .ok (0, f, { s with stored := s.stored ++ [f] })
  else .ok (-1, f, s)

/-! ## Scanning -/

/-- `Driver`. -/
structure Driver where
  key1 : BitVec 32
  key2 : BitVec 32
  attachfn : Func → Host → Except Fault (Int × Func × Host)

/-- `pci_attach_vendor`. -/
def attachVendor : List Driver :=
  [⟨0x8086, 0x15a3, store⟩, ⟨0x8086, 0x10d3, store⟩, ⟨0x8086, 0x100e, store⟩, ⟨0x8086, 0x15bc, store⟩,
    ⟨0x8086, 0x15b8, store⟩, ⟨0x8086, 0x0d55, store⟩, ⟨0x8086, 0x15fa, store⟩, ⟨0x1af4, 0x1000, store⟩]

/-- `pci_attach_match(key1, key2, list, pcif)`. -/
def attachMatch (key1 key2 : BitVec 32) : List Driver → Func → Host → Except Fault (Int × Func × Host)
  | [], f, s => .ok (0, f, s)
  | d :: list, f, s =>
    if d.key1 = key1 ∧ d.key2 = key2 then do
      let (r, f, s) ← d.attachfn f s
      if r > 0 then .ok (r, f, s) else attachMatch key1 key2 list f s
    else attachMatch key1 key2 list f s

/-- `… || pci_attach_match(vendor, product, &pci_attach_vendor[0], f)`, behind the result `r` of the first
    call. -/
def attachByVendor (r : Int × Func × Host) : Except Fault (Bool × Func × Host) :=
  if r.1 ≠ 0 then .ok (true, r.2)
  else do
    let f := r.2.1
    let r ← attachMatch (vendor f.devId) (product f.devId) attachVendor f r.2.2
    .ok (decide (r.1 ≠ 0), r.2)

section

variable (scan : Nat → Host → Except Fault (Nat × Host))

/-- `pci_bridge_attach(pcif)`, where `scan` is `pci_scan_bus`. -/
def bridgeAttach (f : Func) (s : Host) : Except Fault (Int × Func × Host) := do
  let ioreg ← confRead s f 0x1c
  let busreg ← confRead s f 0x18
  if bridgeIo32Bits ioreg then .ok (0, f, s)
  else
    let (_, s) ← scan (secondary busreg) s
    .ok (1, f, s)

/-- `pci_attach_class`. -/
def attachClass : List Driver := [⟨0x06, 0x04, bridgeAttach scan⟩]

/-- `pci_attach(f)`. -/
def attach (f : Func) (s : Host) : Except Fault (Bool × Func × Host) := do
  let r ← attachMatch (classOf f.devClass) (subclassOf f.devClass) (attachClass scan) f s
  attachByVendor r

/-- A turn of the loop of `pci_scan_bus` over the functions of a device. -/
def scanFunc (df : Func) (func : Nat) (s : Host) : Except Fault Host := do
  let f := { df with func := func }
  let devId ← confRead s f 0x00
  if vendor devId = 0xffff then .ok s
  else
    let intr ← confRead s f 0x3c
    let devClass ← confRead s f 0x08
    let af := { f with devId := devId, irqLine := intr.setWidth 8, devClass := devClass }
    let (_, _, s) ← attach scan af s
    .ok s

/-- `df` in `pci_scan_bus`, for the device `dev`. -/
def deviceFunc (busno dev : Nat) : Func where
  bus := busno
  dev := dev
  func := 0
  devId := 0
  devClass := 0
  regBase := fun _ => 0
  regSize := fun _ => 0
  regIsIo := fun _ => false
  irqLine := 0

/-- A turn of the loop of `pci_scan_bus` over the devices; the state is `totaldev` and the bus. -/
def scanDevice (busno dev : Nat) (p : Nat × Host) : Except Fault (Nat × Host) := do
  let (totaldev, s) := p
  let df := deviceFunc busno dev
  let bhlc ← confRead s df 0x0c
  if hdrtypeType bhlc > 1 then .ok (totaldev, s)
  else
    let s ← forUpM (scanFunc scan df) (if hdrtypeMultifn bhlc then 8 else 1) s
    .ok (totaldev + 1, s)

end

/-- `pci_scan_bus(bus)`: the number of devices, and the bus.  `depth` bounds the number of calls that
    are active at a time. -/
def scanBus : Nat → Nat → Host → Except Fault (Nat × Host)
  | 0, _, _ => .error .diverges
  | depth + 1, busno, s => forUpM (scanDevice (scanBus depth) busno) 32 (0, s)

/-- `init()`. -/
def init (depth : Nat) (s : Host) : Except Fault (Nat × Host) := scanBus depth 0 s

end JudgeDuck.Pci
