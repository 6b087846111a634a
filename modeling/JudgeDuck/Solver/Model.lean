/-
  The window solver of `kern/solver_faster.cpp`.

  The solver reads a stream of decimal digits in batches.  For each of four moduli it looks for
  windows of the stream (at most `N = 256` digits, ending at the digit just read) whose decimal
  value is a multiple of the modulus.  It keeps the last `N` digits, adds up the digits weighted
  by powers of ten modulo `M` (the weights come from the table `e`), files every prefix sum in a
  chained hash table, and reports a window when the prefix sums at its two ends have equal keys.

  The definitions follow the source function by function.  Arrays are total functions of the
  index; the machine types are `Nat` with an explicit
  `% 2 ^ w`.  What the source does through `report_string` is returned as a list of `Call`s.
  Two fields are ghosts, read by nothing that computes: `Call.q`, the place in the stream of the
  digit being processed when the call is made, and `Channel.adds`, the operands of every
  `add_mod` so far.

  Left out: the latency statistics (`Reporter::stats`, `add_stat`, `print_stat`'s output) and the
  time stamps, which nothing else reads.
-/
import Mathlib.Logic.Function.Basic
import JudgeDuck.Lib.Loop

namespace JudgeDuck.Solver

open JudgeDuck.Lib

/-! ## Constants -/

/-- `const int N = 256`: the longest window. -/
def N : Nat := 256

/-- `const int MAX_BATCH_SIZE = 400`. -/
def maxBatchSize : Nat := 400

/-- `const int HASH_SIZE = 1024`. -/
def hashSize : Nat := 1024

/-- The `m_number` of a modulus. -/
inductive MNumber where
  | m1
  | m2
  | m3
  | m4
  deriving DecidableEq, Repr

namespace MNumber

/-- `M1` is `2*7*887*24097`, `M2` has 87 bits, `M4` is `3^18`. -/
def modulus : MNumber → Nat
  | m1 => 299236546
  | m2 => 1046482571183 * 100000000000000 + 48370704723401
  | m3 => 500000000000000000 + 243
  | m4 => 387420489

/-- Width of the type `T` the sums of this modulus are kept in: `u32`, `u128`, `u64`, `u32`. -/
def bits : MNumber → Nat
  | m1 => 32
  | m2 => 128
  | m3 => 64
  | m4 => 32

end MNumber

/-! ## `Reporter` -/

/-- A C `char` as an `int` (`char` is signed on this target). -/
def charVal (b : UInt8) : Int := b.toInt8.toInt

/-- An `int` stored to a `char`. -/
def toChar (d : Int) : UInt8 := UInt8.ofNat (d % 256).toNat

/-- One call `report_string(str, len, m_number)`, made while the digit at `q` is processed. -/
structure Call where
  /-- Ghost: index of the digit being processed. -/
  q : Nat
  /-- The string reported. -/
  str : List UInt8
  m : MNumber
  deriving DecidableEq, Repr

/-- `header_format` with its `%d` filled in. -/
def header (len : Nat) : String :=
  "POST /submit HTTP/1.1\r\n" ++
  "Host: 59.110.124.141:10002\r\n" ++
  "User-Agent: curl/7.68.0\r\n" ++
  "Accept: */*\r\n" ++
  "Content-Length: " ++ toString len ++ "\r\n" ++
  "Content-Type: application/x-www-form-urlencoded\r\n" ++
  "\r\n"

/-- The buffer `report_string` hands to `send_fn`: the header, then the string. -/
def Call.request (c : Call) : List UInt8 := (header c.str.length).toUTF8.data.toList ++ c.str

/-- `report_digits(digits, len, m_number)`, `ptr` being the index `digits` points to. -/
def reportDigits (digits : Nat → Int) (ptr len : Nat) (m : MNumber) (q : Nat) : List Call :=
  if digits ptr = 0 then []
  else if m = .m1 ∧ len < 14 then []
  else if m = .m2 ∧ len < 27 then []
  else if m = .m3 ∧ len < 54 then []
  else if m = .m4 ∧ len < 68 then []
  else [{ q := q, str := (List.range len).map fun i => toChar (digits (ptr + i) + 48), m := m }]

/-! ## `Hash` -/

/-- The chained hash table: `first` heads the buckets, `next` links the nodes `1, …, cnt`. -/
structure Hash where
  first : Nat → Nat
  next : Nat → Nat
  values : Nat → Nat
  keys : Nat → Nat
  cnt : Nat

namespace Hash

/-- `clear()`. -/
def clear (h : Hash) : Hash := { h with cnt := 0, first := fun _ => 0 }

/-- `key & (HASH_SIZE - 1)`. -/
def bucket (key : Nat) : Nat := key &&& (hashSize - 1)

/-- `insert(key, value)`; `first`, `next` and `values` are `u16` arrays. -/
def insert (h : Hash) (key value : Nat) : Hash :=
  let idx := bucket key
  let cnt := u32 (h.cnt + 1)
  { cnt := cnt
    next := Function.update h.next cnt (h.first idx)
    keys := Function.update h.keys cnt key
    values := Function.update h.values cnt (u16 value)
    first := Function.update h.first idx (u16 cnt) }

/-- The body of the loop of `query_all`, at node `i`. -/
def visit (h : Hash) (digits : Nat → Int) (key qIdx : Nat) (m : MNumber) (i : Nat) : List Call :=
  if h.keys i ≠ key then []
  else
    let value := h.values i
    let len := u32 (qIdx + 2 ^ 32 - value)
    if N < len then [] else reportDigits digits (value + 1) len m qIdx

/-- `query_all(key, q_idx, m_number)`.  The bucket has at most `cnt` nodes, so `cnt + 1` units of
    fuel are enough unless the links form a cycle. -/
def queryAll (h : Hash) (digits : Nat → Int) (key qIdx : Nat) (m : MNumber) :
    Except Fault (List Call) :=
  match follow h.next (h.cnt + 1) (h.first (bucket key)) with
  | none => .error .diverges
  | some nodes => .ok (nodes.flatMap (h.visit digits key qIdx m))

end Hash

/-! ## The sums of one modulus -/

/-- The statics of one modulus, `e1`, `h1` and `sum1` for `M1`. -/
structure Channel where
  e : Nat → Nat
  h : Hash
  sum : Nat
  /-- Ghost: the operands of every `add_mod` so far, newest first. -/
  adds : List (Nat × Nat)

/-- `add_mod(a, b, M)`, in the type of the modulus. -/
def addMod (m : MNumber) (a b : Nat) : Nat :=
  let sum := (a + b) % 2 ^ m.bits
  if m.modulus ≤ sum then sum - m.modulus else sum

/-- `e[i * 10 + d]`. -/
def Channel.entry (c : Channel) (i : Nat) (d : Int) : Nat := c.e (((i * 10 : Nat) : Int) + d).toNat

/-- The inner loop of `init_e`: one row of the table, and `10 * cur`. -/
def initERow (m : MNumber) (cur i : Nat) (c : Channel) : Nat × Channel :=
  forUp (fun j st =>
    (addMod m st.1 cur,
      { st.2 with
        e := Function.update st.2.e (i * 10 + j) st.1, adds := (st.1, cur) :: st.2.adds })) 10 (0, c)

/-- `init_e(e, M)`. -/
def initE (m : MNumber) (c : Channel) : Channel :=
  (forDown (fun i st => initERow m st.1 i st.2) (N + maxBatchSize) (1, c)).2

/-- One turn of the loop of `do_prepare_digits`. -/
def prepareStep (m : MNumber) (digits : Nat → Int) (i : Nat) (c : Channel) : Channel :=
  let x := c.entry i (digits i)
  let sum := addMod m c.sum x
  { c with sum := sum, h := c.h.insert (u64 sum) i, adds := (c.sum, x) :: c.adds }

/-- `do_prepare_digits(sum, e, h, M)`. -/
def doPrepareDigits (m : MNumber) (digits : Nat → Int) (c : Channel) : Channel :=
  forUp (prepareStep m digits) N { c with sum := 233333333, h := c.h.clear }

/-- The state of the loop of `do_add_digits`; the static sum is left alone, `sum` is a copy. -/
structure AddState where
  sum : Nat
  c : Channel
  calls : List Call

/-- One turn of the loop of `do_add_digits`. -/
def addStep (m : MNumber) (digits : Nat → Int) (i : Nat) (st : AddState) :
    Except Fault AddState := do
  let x := st.c.entry (N + i) (digits (N + i))
  let sum := addMod m st.sum x
  let calls ← st.c.h.queryAll digits (u64 sum) (N + i) m
  .ok { sum := sum
        c := { st.c with h := st.c.h.insert (u64 sum) (N + i), adds := (st.sum, x) :: st.c.adds }
        calls := st.calls ++ calls }

/-- `do_add_digits(len, sum, e, h, M, m_number)`. -/
def doAddDigits (m : MNumber) (digits : Nat → Int) (len : Nat) (c : Channel) :
    Except Fault (Channel × List Call) := do
  let st ← forUpM (addStep m digits) len { sum := c.sum, c := c, calls := [] }
  .ok (st.c, st.calls)

/-! ## The solver -/

/-- The statics of the solver. -/
structure State where
  /-- `digits[N + MAX_BATCH_SIZE]`: the last `N` digits, then room for a batch. -/
  digits : Nat → Int
  chan : MNumber → Channel

/-- `prepare()`. -/
def prepare (s : State) : State :=
  { s with chan := fun m => doPrepareDigits m s.digits (s.chan m) }

/-- The statics before `init` runs: zero. -/
def zeroState : State :=
  { digits := fun _ => 0
    chan := fun _ =>
      { e := fun _ => 0
        h := { first := fun _ => 0, next := fun _ => 0, values := fun _ => 0, keys := fun _ => 0
               cnt := 0 }
        sum := 0
        adds := [] } }

/-- `init(send)`: the first window is all nines. -/
def init : State :=
  prepare
    { digits := fun k => if k < N then 9 else zeroState.digits k
      chan := fun m => initE m (zeroState.chan m) }

/-- `memcpy(digits + N, new_digits, len)`. -/
def appendDigits (digits new : Nat → Int) (len : Nat) : Nat → Int :=
  fun k => if N ≤ k ∧ k < N + len then new (k - N) else digits k

/-- `memmove(digits, digits + len, N)`. -/
def shiftDigits (digits : Nat → Int) (len : Nat) : Nat → Int :=
  fun k => if k < N then digits (k + len) else digits k

/-- The channels of the four moduli. -/
def channels (c1 c2 c3 c4 : Channel) : MNumber → Channel
  | .m1 => c1
  | .m2 => c2
  | .m3 => c3
  | .m4 => c4

/-- `add_digits(new_digits, len)`; the moduli are processed in the order 1, 4, 3, 2. -/
def addDigits (s : State) (new : Nat → Int) (len : Nat) : Except Fault (State × List Call) := do
  let digits := appendDigits s.digits new len
  let (c1, calls1) ← doAddDigits .m1 digits len (s.chan .m1)
  let (c4, calls4) ← doAddDigits .m4 digits len (s.chan .m4)
  let (c3, calls3) ← doAddDigits .m3 digits len (s.chan .m3)
  let (c2, calls2) ← doAddDigits .m2 digits len (s.chan .m2)
  .ok ({ digits := shiftDigits digits len, chan := channels c1 c2 c3 c4 },
       calls1 ++ calls4 ++ calls3 ++ calls2)

/-- `recv_input(buf, len)`. -/
def recvInput (s : State) (buf : List UInt8) : Except Fault (State × List Call) :=
  if 1 ≤ buf.length ∧ buf.length ≤ maxBatchSize then
    addDigits s (fun i => charVal (buf.getD i 0) - 48) buf.length
  else .error .assertion

/-- One batch, as every caller feeds it: `recv_input`, then `prepare` (directly or through
    `print_stat`). -/
def feed (s : State) (buf : List UInt8) : Except Fault (State × List Call) := do
  let (s, calls) ← recvInput s buf
  .ok (prepare s, calls)

/-- A call with the place of its digit counted in the whole stream. -/
def Call.shift (off : Nat) (c : Call) : Call := { c with q := off + c.q }

/-- A whole run: one batch after the other.  `off` digits have been shifted out so far, so that
    index `k` of `digits` is place `off + k` of the stream. -/
def feedAll (s : State) (off : Nat) : List (List UInt8) → Except Fault (State × List Call)
  | [] => .ok (s, [])
  | buf :: bufs => do
    let (s, calls) ← feed s buf
    let (s, more) ← feedAll s (off + buf.length) bufs
    .ok (s, calls.map (Call.shift off) ++ more)

end JudgeDuck.Solver
