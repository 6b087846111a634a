/-
  The split queues of the virtio network driver (`lib/virtio_net.cpp`).

  A queue is three tables in one block of memory: descriptors, the ring of ids that the driver makes
  available, and the ring of ids that the device has used.  The indices are 16 bits wide and run on;
  a ring entry is found by masking with `queue_size - 1`.  A free transmit descriptor is nowhere but
  in the used ring: `init` fills the ring backwards with the ids, as if the device had just used
  them, and sets `cur_used_idx` behind itself.

  The tables are functions from indices (`parts_fit` says that they do not overlap), and zero before
  `init`, as static memory is.  What the device does is given as three functions: it reads the next
  entry of the available ring, it returns one of the ids it has read, and before that, for the receive
  queue, it stores a frame in the buffer.

  Left out: the registers other than the queue size, and the memory barriers.
-/
import JudgeDuck.Lib.Arrays
import JudgeDuck.Lib.Loop

namespace JudgeDuck.Virtio

open JudgeDuck.Lib

/-! ## Memory for queues -/

/-- `Memory::PAGE_SIZE`. -/
def pageSize : Nat := 4096

/-- `MAX_SUPPORTED_QUEUE_SIZE`. -/
def maxSupportedQueueSize : Nat := 4096

/-- `QUEUE_MEMORY_SIZE`. -/
def queueMemorySize : Nat := maxSupportedQueueSize * (18 + 8) + 2 * pageSize

/-- `BUFFER_LEN`. -/
def bufferLen : Nat := 1600

/-- `MAX_ACTUAL_QUEUE_SIZE`. -/
def maxActualQueueSize : Nat := 128

/-- `QUEUE_BUFFER_POOL_SIZE`. -/
def queueBufferPoolSize : Nat := maxActualQueueSize * bufferLen

/-- The two static pools: where they are, and how much is taken. -/
structure Pools where
  queueMemoryPool : Nat
  queueMemoryPoolAllocated : Nat
  queueBufferPool : Nat
  queueBufferPoolAllocated : Nat

/-- `alloc_queue_memory(size)`. -/
def allocQueueMemory (p : Pools) (size : Nat) : Except Fault (Pools × Nat) :=
  if u32 (size + p.queueMemoryPoolAllocated) ≤ queueMemorySize * 2 then
    .ok ({ p with queueMemoryPoolAllocated := u32 (p.queueMemoryPoolAllocated + size) },
      p.queueMemoryPool + p.queueMemoryPoolAllocated)
  else .error .assertion

/-- `alloc_queue_buffer(size)`. -/
def allocQueueBuffer (p : Pools) (size : Nat) : Except Fault (Pools × Nat) :=
  if u32 (size + p.queueBufferPoolAllocated) ≤ queueBufferPoolSize * 2 then
    .ok ({ p with queueBufferPoolAllocated := u32 (p.queueBufferPoolAllocated + size) },
      p.queueBufferPool + p.queueBufferPoolAllocated)
  else .error .assertion

/-- `Utils::round_up(x, PAGE_SIZE)`, for `uint32_t`. -/
def roundUp (x : Nat) : Nat := u32 ((x + pageSize - 1) / pageSize * pageSize)

/-- `desc_size`, `avail_size` and `used_size`. -/
def descSize (queueSize : Nat) : Nat := u32 (16 * queueSize)

@[inherit_doc descSize]
def availSize (queueSize : Nat) : Nat := u32 (6 + 2 * queueSize)

@[inherit_doc descSize]
def usedSize (queueSize : Nat) : Nat := u32 (6 + 8 * queueSize)

/-- `part1_size`: the used ring starts on a page of its own. -/
def part1Size (queueSize : Nat) : Nat := roundUp (u32 (descSize queueSize + availSize queueSize))

/-- `total_size`. -/
def totalSize (queueSize : Nat) : Nat := roundUp (u32 (part1Size queueSize + usedSize queueSize))

/-! ## Queues -/

structure VirtQueueDesc where
  addr : Nat
  len : Nat
  flags : Nat
  next : Nat
  deriving DecidableEq, Repr

structure VirtQueueUsedElement where
  id : Nat
  len : Nat
  deriving DecidableEq, Repr

/-- A queue; its three pointers stand for the tables. -/
structure VirtQueue where
  queueId : Nat
  queueSize : Nat
  desc : Nat → VirtQueueDesc
  availFlags : Nat
  availIdx : Nat
  availRing : Nat → Nat
  usedFlags : Nat
  usedIdx : Nat
  usedRing : Nat → VirtQueueUsedElement
  curUsedIdx : Nat

/-- Static memory before `init`. -/
def VirtQueue.bss : VirtQueue where
  queueId := 0
  queueSize := 0
  desc := fun _ => ⟨0, 0, 0, 0⟩
  availFlags := 0
  availIdx := 0
  availRing := fun _ => 0
  usedFlags := 0
  usedIdx := 0
  usedRing := fun _ => ⟨0, 0⟩
  curUsedIdx := 0

/-- `queue_size - 1`, for `uint32_t`. -/
def mask (queueSize : Nat) : Nat := u32 (queueSize + 2 ^ 32 - 1)

/-- `add_avail(desc_id)`. -/
def addAvail (q : VirtQueue) (descId : Nat) : VirtQueue :=
  let idx := u16 (q.availIdx &&& mask q.queueSize)
  { q with availRing := Function.update q.availRing idx descId, availIdx := u16 (q.availIdx + 1) }

/-- `pop_used(used_len)`: the queue, the id, and the length, if any. -/
def popUsed (q : VirtQueue) : VirtQueue × Nat × Option Nat :=
  if q.usedIdx = q.curUsedIdx then (q, 0xffff, none)
  else
    let e := q.usedRing (q.curUsedIdx &&& mask q.queueSize)
    ({ q with curUsedIdx := u16 (q.curUsedIdx + 1) }, u16 e.id, some e.len)

/-- A turn of the loop of `init` over the descriptors. -/
def initDesc (isReceive : Bool) (actualQueueSize id : Nat) (s : VirtQueue × Pools) :
    Except Fault (VirtQueue × Pools) :=
  if id < actualQueueSize then do
    let (p, addr) ← allocQueueBuffer s.2 bufferLen
    -- `VIRTQ_DESC_F_WRITE` is 2
    let d := ⟨addr, bufferLen, if isReceive then 2 else 0, 0⟩
    .ok ({ s.1 with desc := Function.update s.1.desc id d }, p)
  else .ok ({ s.1 with desc := Function.update s.1.desc id ⟨0, 0, 0, 0⟩ }, s.2)

/-- `used->ring[-id & (queue_size - 1)].id = id`. -/
def unpopUsed (queueSize id : Nat) (ring : Nat → VirtQueueUsedElement) :
    Nat → VirtQueueUsedElement :=
  let idx := u32 (2 ^ 32 - id) &&& mask queueSize
  Function.update ring idx { ring idx with id := id }

/-- `VirtQueue::init(queue_id, is_receive)`; the device says `queueSize`.  `add_avail` works with the
    member `queue_size`, which is set last. -/
def init (q : VirtQueue) (p : Pools) (queueId : Nat) (isReceive : Bool) (queueSize : Nat) :
    Except Fault (VirtQueue × Pools) := do
  let actualQueueSize := min maxActualQueueSize queueSize
  let (p, _) ← allocQueueMemory p (totalSize queueSize)
  let q := { q with availFlags := 1, availIdx := 0, usedFlags := 1, usedIdx := 0, curUsedIdx := 0 }
  let (q, p) ← forUpM (initDesc isReceive actualQueueSize) queueSize (q, p)
  let q :=
    if isReceive then forUp (fun id q => addAvail q id) actualQueueSize q
    else { q with
      usedRing := forUp (unpopUsed queueSize) actualQueueSize q.usedRing
      curUsedIdx := u16 (u32 (2 ^ 32 - actualQueueSize)) }
  .ok ({ q with queueId := queueId, queueSize := queueSize }, p)

/-- `send(buf, len)`: the queue, the memory of the buffers, and the result. -/
def send (q : VirtQueue) (mem : Nat → UInt8) (buf : Nat → UInt8) (len : Nat) :
    VirtQueue × (Nat → UInt8) × Bool :=
  let (q, descId, _) := popUsed q
  if descId = 0xffff then (q, mem, false)
  else
    let d := q.desc descId
    let mem := memcpy mem d.addr buf len
    let q := { q with desc := Function.update q.desc descId { d with len := u32 len } }
    (addAvail q descId, mem, true)

/-- `sizeof(VirtIONetHeader)`. -/
def sizeofNetHeader : Nat := 10

/-- `VIRTIO_NET_HDR_GSO_NONE`. -/
def gsoNone : UInt8 := 0

/-- `virtio_net::send(buf, len)`: the transmit queue, the memory of the buffers, the static `buffer`
    and the result.  Of the header only the first two bytes, `flags` and `gso_type`, are written. -/
def netSend (q : VirtQueue) (mem buffer : Nat → UInt8) (buf : Nat → UInt8) (len : Int) :
    VirtQueue × (Nat → UInt8) × (Nat → UInt8) × Int :=
  if len < 0 ∨ len > 1500 then (q, mem, buffer, -1)
  else
    let buffer := Function.update (Function.update buffer 0 0) 1 gsoNone
    let buffer := memcpy buffer sizeofNetHeader buf len.toNat
    let (q, mem, r) := send q mem buffer (sizeofNetHeader + len.toNat)
    (q, mem, buffer, if r then len else -1)

/-- `recv(buf, offset)`: the queue, the memory at `buf`, and the result.  An element that is shorter
    than `offset` is popped, and its descriptor is not made available. -/
def recv (q : VirtQueue) (mem : Nat → UInt8) (buf : Nat → UInt8) (offset : Nat) :
    VirtQueue × (Nat → UInt8) × Int :=
  let (q, descId, usedLen) := popUsed q
  if descId = 0xffff then (q, buf, -1)
  else
    -- `pop_used` has set it
    let len := usedLen.getD 0
    if len < offset then (q, buf, -1)
    else
      let buf := memcpy buf 0 (fun i => mem ((q.desc descId).addr + offset + i)) (len - offset)
      -- `uint32_t` to `int`
      (addAvail q descId, buf, (BitVec.ofNat 32 len).toInt)

/-- `virtio_net::receive(buf)`. -/
def netReceive (q : VirtQueue) (mem : Nat → UInt8) (buf : Nat → UInt8) :
    VirtQueue × (Nat → UInt8) × Int :=
  recv q mem buf sizeofNetHeader

/-- `init_queue()`: the receive queue, the transmit queue, and the pools.  The device says the two
    sizes. -/
def initQueue (p : Pools) (receiveSize transmitSize : Nat) :
    Except Fault (VirtQueue × VirtQueue × Pools) := do
  let (receiveQueue, p) ← init VirtQueue.bss p 0 true receiveSize
  let (transmitQueue, p) ← init VirtQueue.bss p 1 false transmitSize
  .ok (receiveQueue, transmitQueue, p)

/-! ## The device -/

/-- The device's side of a queue: the next entry of the available ring that it reads, and
    the ids it has read and not returned. -/
structure Device where
  lastAvail : Nat
  held : List Nat

/-- The driver's and the device's side, and the memory of the buffers. -/
structure World where
  queue : VirtQueue
  mem : Nat → UInt8
  device : Device

/-- The device reads an entry, if there is one. -/
def fetch (w : World) : World :=
  if w.device.lastAvail = w.queue.availIdx then w
  else
    let id := w.queue.availRing (w.device.lastAvail &&& mask w.queue.queueSize)
    { w with device := ⟨u16 (w.device.lastAvail + 1), w.device.held ++ [id]⟩ }

/-- The device returns the `i`-th id that it holds, if there is one. -/
def complete (w : World) (i len : Nat) : World :=
  match w.device.held[i]? with
  | none => w
  | some id =>
    { w with
      queue := { w.queue with
        usedRing := Function.update w.queue.usedRing
          (w.queue.usedIdx &&& mask w.queue.queueSize) ⟨id, len⟩
        usedIdx := u16 (w.queue.usedIdx + 1) }
      device := { w.device with held := w.device.held.eraseIdx i } }

/-- What can happen to the transmit queue. -/
inductive Event where
  | send (buf : Nat → UInt8) (len : Nat)
  | fetch
  | complete (i len : Nat)

/-- One event. -/
def step (w : World) : Event → World
  | .send buf len =>
    let r := send w.queue w.mem buf len
    { w with queue := r.1, mem := r.2.1 }
  | .fetch => fetch w
  | .complete i len => complete w i len

/-- One event after the other. -/
def run (w : World) (evs : List Event) : World := evs.foldl step w

/-- The device stores a header and a frame in the buffer of the `i`-th id that it holds. -/
def deposit (w : World) (i : Nat) (data : List UInt8) : World :=
  match w.device.held[i]? with
  | none => w
  | some id =>
    { w with mem := memcpy w.mem (w.queue.desc id).addr (fun t => data.getD t 0) data.length }

/-- What can happen to the receive queue: the device returns no more than fits into a buffer. -/
inductive RxEvent where
  | receive (buf : Nat → UInt8)
  | fetch
  | complete (i : Nat) (data : List UInt8) (fits : data.length ≤ bufferLen)

/-- One event. -/
def rxStep (w : World) : RxEvent → World
  | .receive buf => { w with queue := (netReceive w.queue w.mem buf).1 }
  | .fetch => fetch w
  | .complete i data _ => complete (deposit w i data) i data.length

/-- One event after the other. -/
def rxRun (w : World) (evs : List RxEvent) : World := evs.foldl rxStep w

end JudgeDuck.Virtio
