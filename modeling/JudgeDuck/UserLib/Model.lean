/-
  The user libraries (`user_lib/duck64_syscall_handler.cpp` and `user_lib32/duck32_syscall_handler.cpp`).

  A submission is linked with one of them, and its system calls become calls of a handler that works
  on the structure `DuckInfo_t` of the loader: standard input is read from one region, standard
  output and standard error are written to two others.  The libraries have the same text with words
  of 64 and of 32 bits, except that `duck_write` of the 64-bit one returns `len` when the output is
  truncated, and that only the 64-bit one has `mmap`.  The parameter `lib` says which one is meant.

  Between two calls the program does what it likes to its memory, so each call comes with the memory
  that it finds.  The three regions are arrays of their own.

  Left out: the calls that only return a constant or fill in a structure, the clock, and the calls
  that enter the kernel.
-/
import JudgeDuck.Lib.Arrays
import JudgeDuck.Lib.Loop

namespace JudgeDuck.UserLib

open JudgeDuck.Lib

/-! ## State -/

/-- The two libraries. -/
inductive Library where
  | duck64
  | duck32
  deriving DecidableEq, Repr

/-- How many bits `size_t`, the fields of `DuckInfo_t` and the static sizes have. -/
def Library.bits : Library → Nat
  | duck64 => 64
  | duck32 => 32

/-- A result in a word of the library. -/
def Library.word (lib : Library) (x : Nat) : Nat := x % 2 ^ lib.bits

/-- The program's memory. -/
abbrev Mem := Nat → UInt8

/-- An output: what `stdout_ptr` points to, `stdout_limit`, `stdout_size` and the static
    `stdout_max_size`; the same for `stderr`. -/
structure Output where
  bytes : Nat → UInt8
  limit : Nat
  size : Nat
  maxSize : Nat

/-- The static variables and what the library changes of `DuckInfo_t`. -/
structure State where
  inited : Bool
  stdin : Nat → UInt8
  stdinSize : Nat
  stdinCurrPos : Nat
  stdout : Output
  stderr : Output
  heapBrk : Nat
  mmapP : Nat

/-- Where the linker has put `_end` and `__mmap_pool`, and `AT_PAGESZ`. -/
structure Image where
  endAddr : Nat
  mmapPool : Nat
  pageSize : Nat

/-- What the loader puts into `DuckInfo_t`.  The same values go into either structure, so that they
    have 32 bits. -/
structure DuckInfo where
  stdin : Nat → UInt8
  stdinSize : Nat
  stdout : Nat → UInt8
  stdoutLimit : Nat
  stderr : Nat → UInt8
  stderrLimit : Nat
  stdinSize_lt : stdinSize < 2 ^ 32
  stdoutLimit_lt : stdoutLimit < 2 ^ 32
  stderrLimit_lt : stderrLimit < 2 ^ 32

/-- A program that has just been loaded: the sizes are zero, and so are the static variables except
    `__mmap_p`. -/
def State.fresh (img : Image) (info : DuckInfo) : State where
  inited := false
  stdin := info.stdin
  stdinSize := info.stdinSize
  stdinCurrPos := 0
  stdout := ⟨info.stdout, info.stdoutLimit, 0, 0⟩
  stderr := ⟨info.stderr, info.stderrLimit, 0, 0⟩
  heapBrk := 0
  mmapP := img.mmapPool

/-- The part of `init()` for an output. -/
def Output.setUp (o : Output) : Output := { o with maxSize := o.limit, size := 0 }

/-- `init()`. -/
def init (lib : Library) (img : Image) (s : State) : State :=
  { s with
    inited := true
    stdinCurrPos := 0
    stdout := s.stdout.setUp
    stderr := s.stderr.setUp
    heapBrk := lib.word (img.endAddr + img.pageSize - 1) / img.pageSize * img.pageSize }

/-! ## Reading and writing -/

/-- `struct iovec`. -/
structure Iovec where
  base : Nat
  len : Nat
  deriving DecidableEq, Repr

/-- `duck_read(fd, buf, len)`. -/
def duckRead (lib : Library) (s : State) (mem : Mem) (fd : Int) (buf len : Nat) :
    (State × Mem) × Nat :=
  if fd = 0 then
    let availableLen := lib.word (s.stdinSize + 2 ^ lib.bits - s.stdinCurrPos)
    let actualLen := min len availableLen
    let mem := memcpy mem buf (fun i => s.stdin (s.stdinCurrPos + i)) actualLen
    (({ s with stdinCurrPos := lib.word (s.stdinCurrPos + actualLen) }, mem), actualLen)
  else ((s, mem), 0)

/-- What both outputs do with `len` bytes; the number is `actual_len`. -/
def Output.append (lib : Library) (o : Output) (buf : Nat → UInt8) (len : Nat) : Output × Nat :=
  let availableLen := lib.word (o.maxSize + 2 ^ lib.bits - o.size)
  let actualLen := min len availableLen
  ({ o with bytes := memcpy o.bytes o.size buf actualLen, size := lib.word (o.size + actualLen) },
    actualLen)

/-- What `duck_write` returns: the 64-bit library truncates silently. -/
def Library.writeResult : Library → Nat → Nat → Nat
  | duck64, len, _ => len
  | duck32, _, actualLen => actualLen

/-- `duck_write(fd, buf, len)`. -/
def duckWrite (lib : Library) (mem : Mem) (s : State) (fd : Int) (buf len : Nat) : State × Nat :=
  if fd = 1 then
    let (o, actualLen) := s.stdout.append lib (fun i => mem (buf + i)) len
    ({ s with stdout := o }, lib.writeResult len actualLen)
  else if fd = 2 then
    let (o, actualLen) := s.stderr.append lib (fun i => mem (buf + i)) len
    ({ s with stderr := o }, lib.writeResult len actualLen)
  else (s, 0)

/-- The loop of `duck_readv` and `duck_writev`: it ends at the first vector that is not completely
    transferred. -/
def vectorLoop {σ : Type} (lib : Library) (transfer : σ → Iovec → σ × Nat) :
    List Iovec → σ → Nat → σ × Nat
  | [], s, ret => (s, ret)
  | v :: iov, s, ret =>
    let (s, tmp) := transfer s v
    let ret := if tmp ≤ v.len then lib.word (ret + tmp) else ret
    if tmp ≠ v.len then (s, ret) else vectorLoop lib transfer iov s ret

/-- The loop stops at a transfer that is not complete. -/
theorem vectorLoop_short {σ : Type} (lib : Library) {transfer : σ → Iovec → σ × Nat} {v : Iovec}
    {s : σ} (h : (transfer s v).2 ≠ v.len) (iov : List Iovec) (ret : Nat) :
    vectorLoop lib transfer (v :: iov) s ret = ((transfer s v).1,
      if (transfer s v).2 ≤ v.len then lib.word (ret + (transfer s v).2) else ret) :=
  if_pos h

theorem vectorLoop_whole {σ : Type} (lib : Library) {transfer : σ → Iovec → σ × Nat} {v : Iovec}
    {s : σ} (h : (transfer s v).2 = v.len) (iov : List Iovec) (ret : Nat) :
    vectorLoop lib transfer (v :: iov) s ret =
      vectorLoop lib transfer iov (transfer s v).1 (lib.word (ret + v.len)) := by
  have hloop : vectorLoop lib transfer (v :: iov) s ret =
      vectorLoop lib transfer iov (transfer s v).1
        (if (transfer s v).2 ≤ v.len then lib.word (ret + (transfer s v).2) else ret) :=
    if_neg fun hne => hne h
  rw [hloop, h, if_pos (Nat.le_refl _)]

/-- What every transfer keeps, the loop keeps. -/
theorem vectorLoop_inv {σ : Type} {P : σ → Prop} (lib : Library) {transfer : σ → Iovec → σ × Nat}
    (h : ∀ s v, P s → P (transfer s v).1) (iov : List Iovec) {s : σ} (hs : P s) (ret : Nat) :
    P (vectorLoop lib transfer iov s ret).1 := by
  induction iov generalizing s ret with
  | nil => exact hs
  | cons v iov ih =>
    rcases eq_or_ne (transfer s v).2 v.len with hwhole | hshort
    · rw [vectorLoop_whole lib hwhole]
      exact ih (h s v hs) _
    · rw [vectorLoop_short lib hshort]
      exact h s v hs

/-- `duck_readv(fd, iov, cnt)`. -/
def duckReadv (lib : Library) (s : State) (mem : Mem) (fd : Int) (iov : List Iovec) (cnt : Int) :
    (State × Mem) × Nat :=
  vectorLoop lib (fun s v => duckRead lib s.1 s.2 fd v.base v.len) (iov.take cnt.toNat) (s, mem) 0

/-- `duck_writev(fd, iov, cnt)`. -/
def duckWritev (lib : Library) (mem : Mem) (s : State) (fd : Int) (iov : List Iovec) (cnt : Int) :
    State × Nat :=
  vectorLoop lib (fun s v => duckWrite lib mem s fd v.base v.len) (iov.take cnt.toNat) s 0

/-! ## Memory -/

/-- `duck_brk(addr)`. -/
def duckBrk (s : State) (addr : Nat) : State × Nat :=
  if addr = 0 then (s, s.heapBrk)
  else
    let s := if addr > s.heapBrk then { s with heapBrk := addr } else s
    (s, s.heapBrk)

/-- The heap only grows. -/
theorem duckBrk_fst (s : State) (addr : Nat) :
    (duckBrk s addr).1 = { s with heapBrk := max s.heapBrk addr } := by
  rw [duckBrk]
  by_cases hzero : addr = 0
  · rw [if_pos hzero, hzero, Nat.max_zero]
  · rw [if_neg hzero]
    by_cases hgrow : addr > s.heapBrk
    · rw [if_pos hgrow, Nat.max_eq_right (Nat.le_of_lt hgrow)]
    · rw [if_neg hgrow, Nat.max_eq_left (Nat.not_lt.mp hgrow)]

/-- `sizeof(__mmap_pool)`. -/
def mmapPoolSize : Nat := 10240 <<< 10

/-- `(size + 4095u) & -4096ul`. -/
def roundSize (size : Nat) : Nat := u64 (size + 4095) &&& (2 ^ 64 - 4096)

/-- `duck_mmap_temp(size)`. -/
def duckMmapTemp (s : State) (size : Nat) : State × Nat :=
  let size := roundSize size
  ({ s with mmapP := u64 (s.mmapP + size) }, s.mmapP)

/-! ## The handlers -/

/-- The calls, with what the handlers use of the registers; `iov` is the array at the address in the
    second one, and its length is in the third. -/
inductive Syscall where
  | brk (addr : Nat)
  | read (fd : Int) (buf len : Nat)
  | readv (fd : Int) (iov : List Iovec)
  | write (fd : Int) (buf len : Nat)
  | writev (fd : Int) (iov : List Iovec)
  | mmap (addr size : Nat)

/-- `(int) a3`. -/
def toInt (a3 : Nat) : Int := (BitVec.ofNat 32 a3).toInt

/-- An `int` as `size_t`. -/
def Library.sizeT (lib : Library) (x : Int) : Nat := (x % (2 ^ lib.bits : Nat)).toNat

/-- The `switch` of the handlers: the state, the memory and the result. -/
def serve (lib : Library) (s : State) (mem : Mem) : Syscall → (State × Mem) × Nat
  | .brk addr =>
    let r := duckBrk s addr
    ((r.1, mem), r.2)
  | .read fd buf len => duckRead lib s mem fd buf (lib.sizeT (toInt len))
  | .readv fd iov => duckReadv lib s mem fd iov (toInt iov.length)
  | .write fd buf len =>
    let r := duckWrite lib mem s fd buf len
    ((r.1, mem), r.2)
  | .writev fd iov =>
    let r := duckWritev lib mem s fd iov (toInt iov.length)
    ((r.1, mem), r.2)
  | .mmap _ size =>
    match lib with
    | .duck64 =>
      let r := duckMmapTemp s size
      ((r.1, mem), r.2)
    -- not among the cases; the result is -1
    | .duck32 => ((s, mem), 0xffffffff)

/-- `__duck64__syscall_handler` and `__duck32__syscall_handler`. -/
def syscallHandler (lib : Library) (img : Image) (s : State) (mem : Mem) (call : Syscall) :
    (State × Mem) × Nat :=
  serve lib (if s.inited then s else init lib img s) mem call

/-- One call after the other, each with the memory that it finds. -/
def run (lib : Library) (img : Image) (s : State) (calls : List (Mem × Syscall)) : State :=
  calls.foldl (fun s c => (syscallHandler lib img s c.1 c.2).1.1) s

end JudgeDuck.UserLib
