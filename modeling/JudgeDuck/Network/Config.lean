/-
  The network configuration on the kernel's command line (`lib/network_driver.cpp`).

  `read_network_config` cuts the command line into tokens and compares each of them with the keys that
  it knows, by calls of `sscanf`.  What has been read is in global variables; whether it was valid is
  in local flags.

  The memory that may be read is a list of bytes, and an access past its end is a fault.  `sscanf` is
  that of the C library which the kernel is linked with, for the directives that are used here: it
  returns the values that were converted.  A number that does not fit 64 bits is the largest one.

  Left out: the messages to the log, and starting the driver of a network card.
-/
import JudgeDuck.Lib.Loop

namespace JudgeDuck.Network

open JudgeDuck.Lib

/-- A character as a byte. -/
def byte (c : Char) : UInt8 := c.toUInt8

/-! ## `sscanf` -/

/-- A directive of a format. -/
inductive Directive where
  /-- White space. -/
  | space
  /-- The character itself. -/
  | lit (c : UInt8)
  /-- `%s`. -/
  | str
  /-- `%hhu` and `%d` with base 10, and `%hhx` with base 16. -/
  | num (base : Nat)

/-- A value that was converted. -/
inductive Scanned where
  | str (s : List UInt8)
  | num (x : Nat)
deriving DecidableEq

/-- `isspace(c)`. -/
def isSpace (c : UInt8) : Bool := c == 32 || (9 ≤ c && c ≤ 13)

/-- The value of a digit. -/
def digitVal (c : UInt8) : Option Nat :=
  if byte '0' ≤ c ∧ c ≤ byte '9' then some (c - byte '0').toNat
  else if byte 'a' ≤ c ∧ c ≤ byte 'f' then some ((c - byte 'a').toNat + 10)
  else if byte 'A' ≤ c ∧ c ≤ byte 'F' then some ((c - byte 'A').toNat + 10)
  else none

/-- Is it a digit of a number with this base? -/
def isDigit (base : Nat) (c : UInt8) : Bool := (digitVal c).any (· < base)

/-- An optional sign. -/
def takeSign : List UInt8 → Bool × List UInt8
  | c :: input =>
    if c = byte '+' then (false, input)
    else if c = byte '-' then (true, input)
    else (false, c :: input)
  | [] => (false, [])

/-- An optional `0x`, for numbers with base 16. -/
def skipHexMark (base : Nat) : List UInt8 → List UInt8
  | c :: x :: input =>
    if base = 16 ∧ c = byte '0' ∧ x ||| 32 = byte 'x' then input else c :: x :: input
  | input => input

/-- A number at the start of the input, as 64 bits, and the rest of the input. -/
def intscan (base : Nat) (input : List UInt8) : Option (Nat × List UInt8) :=
  let (neg, input) := takeSign input
  let input := skipHexMark base input
  let digits := input.takeWhile (isDigit base)
  if digits = [] then none
  else
    let y := digits.foldl (fun y c => y * base + (digitVal c).getD 0) 0
    let x := if 2 ^ 64 ≤ y then 2 ^ 64 - 1 else if neg then u64 (2 ^ 64 - y) else y
    some (x, input.dropWhile (isDigit base))

/-- `sscanf(input, format, …)`: the values, up to the first directive that does not match. -/
def sscanf : List Directive → List UInt8 → List Scanned
  | [], _ => []
  | .space :: format, input => sscanf format (input.dropWhile isSpace)
  | .lit _ :: _, [] => []
  | .lit c :: format, d :: input => if d = c then sscanf format input else []
  | .str :: format, input =>
    let input := input.dropWhile isSpace
    let word := input.takeWhile fun c => !isSpace c
    if word = [] then [] else .str word :: sscanf format (input.dropWhile fun c => !isSpace c)
  | .num base :: format, input =>
    match intscan base (input.dropWhile isSpace) with
    | none => []
    | some (x, input) => .num x :: sscanf format input

/-! ## Reading a token -/

/-- The global variables. -/
structure Config where
  ip : List UInt8
  mac : List UInt8
  gateway : List UInt8
  prefixLen : UInt8
  serverIp : List UInt8
  doNotSendAnswer : Bool
deriving DecidableEq

/-- The global variables, and the flags of `read_network_config`. -/
structure Reading where
  config : Config
  hasValidIp : Bool
  hasValidMac : Bool
  hasValidGateway : Bool
  hasValidPrefixLen : Bool
  hasValidServerIp : Bool
deriving DecidableEq

/-- `n` numbers with `sep` between them: `"%hhu.%hhu.%hhu.%hhu"` and the like. -/
def separated (base : Nat) (sep : Char) (n : Nat) : List Directive :=
  (List.replicate n [Directive.num base]).intersperse [Directive.lit (byte sep)] |>.flatten

/-- The bytes of an array after `sscanf` has stored the values of `%hhu` or `%hhx` in it, and whether
    it has stored them all. -/
def readBytes (format : List Directive) (n : Nat) (str old : List UInt8) : Bool × List UInt8 :=
  let values := (sscanf format str).filterMap fun
    | .num x => some (UInt8.ofNat x)
    | .str _ => none
  (values.length == n, values ++ old.drop values.length)

/-- `read_ip(ip_str, ip)`. -/
def readIp (ipStr ip : List UInt8) : Bool × List UInt8 := readBytes (separated 10 '.' 4) 4 ipStr ip

/-- `read_mac(mac_str, mac)`. -/
def readMac (macStr mac : List UInt8) : Bool × List UInt8 := readBytes (separated 16 ':' 6) 6 macStr mac

/-- `sscanf(buf, " key = …")`. -/
def keyFormat (key : List Char) : List Directive :=
  .space :: key.map (fun c => .lit (byte c)) ++ [.space, .lit (byte '='), .space]

/-- `1 == sscanf(buf, " key = %s ", content)`; a white space at the end of the format, which some of the
    formats have, has no effect on the values. -/
def keyString (key : List Char) (buf : List UInt8) : Option (List UInt8) :=
  match sscanf (keyFormat key ++ [.str, .space]) buf with
  | [.str content] => some content
  | _ => none

/-- `1 == sscanf(buf, " key = %hhu ", &value)`. -/
def keyNumber (key : List Char) (buf : List UInt8) : Option UInt8 :=
  match sscanf (keyFormat key ++ [.num 10, .space]) buf with
  | [.num x] => some (UInt8.ofNat x)
  | _ => none

/-- The body of the token loop: the token is compared with one key after the other. -/
def matchKey (r : Reading) (buf : List UInt8) : Reading :=
  match keyString "ip".toList buf with
  | some content =>
    let (ok, ip) := readIp content r.config.ip
    { r with config := { r.config with ip := ip }, hasValidIp := ok }
  | none =>
  match keyString "mac".toList buf with
  | some content =>
    let (ok, mac) := readMac content r.config.mac
    { r with config := { r.config with mac := mac }, hasValidMac := ok }
  | none =>
  match keyString "gateway".toList buf with
  | some content =>
    let (ok, gateway) := readIp content r.config.gateway
    { r with config := { r.config with gateway := gateway }, hasValidGateway := ok }
  | none =>
  match keyNumber "prefix_len".toList buf with
  | some prefixLen =>
    { r with config := { r.config with prefixLen := prefixLen }, hasValidPrefixLen := prefixLen ≤ 32 }
  | none =>
  match keyString "server_ip".toList buf with
  | some content =>
    let (ok, serverIp) := readIp content r.config.serverIp
    { r with config := { r.config with serverIp := serverIp }, hasValidServerIp := ok }
  | none =>
  match keyString "do_not_send_answer".toList buf with
  | some content =>
    match sscanf [.num 10] content with
    | [.num x] => { r with config := { r.config with doNotSendAnswer := u32 x != 0 } }
    | _ => r
  | none => r

/-! ## The token loop -/

/-- `MAX_LEN`. -/
def maxLen : Nat := 256

/-- `*ch`. -/
def byteAt (mem : List UInt8) (ch : Nat) : Except Fault UInt8 :=
  match mem[ch]? with
  | some c => .ok c
  | none => .error .bufferOverflow

/-- The inner loop: `ch` and the first `buf_len` bytes of `buf` afterwards. -/
def copyToken (mem : List UInt8) : Nat → Nat → List UInt8 → Except Fault (Nat × List UInt8)
  | 0, _, _ => .error .diverges
  | fuel + 1, ch, buf => do
    let c ← byteAt mem ch
    if c ≠ 0 ∧ c ≠ byte ' ' ∧ c ≠ byte '\t' ∧ buf.length + 1 < maxLen then
      copyToken mem fuel (ch + 1) (buf ++ [c])
    else .ok (ch, buf)

/-- The outer loop, from `ch` on; `present` is what is done with a token. -/
def scanLine {σ : Type} (present : σ → List UInt8 → σ) (mem : List UInt8) :
    Nat → Nat → σ → Except Fault σ
  | 0, _, _ => .error .diverges
  | fuel + 1, ch, s => do
    let c ← byteAt mem ch
    if c = 0 then .ok s
    else if c = byte ' ' then scanLine present mem fuel (ch + 1) s
    else
      let (ch, buf) ← copyToken mem maxLen ch []
      scanLine present mem fuel (ch + 1) (present s buf)

/-- The token loop over the command line at the start of `mem`.  Every turn of it goes on by a byte. -/
def tokenLoop {σ : Type} (present : σ → List UInt8 → σ) (mem : List UInt8) (s : σ) : Except Fault σ :=
  scanLine present mem (mem.length + 1) 0 s

/-- The address that is used where none is given. -/
def defaultMac : List UInt8 := [0x52, 0x54, 0x00, 0x12, 0x34, 0x56]

/-- `read_network_config(cmdline)`, from what the tokens have set. -/
def checkConfig (r : Reading) : Except Fault (Bool × Config) :=
  if !r.hasValidIp || !r.hasValidGateway || !r.hasValidPrefixLen then .ok (false, r.config)
  else
    let config := if !r.hasValidMac then { r.config with mac := defaultMac } else r.config
    if !r.hasValidServerIp then .error .abort else .ok (true, config)

/-- `read_network_config(cmdline)`. -/
def readNetworkConfig (mem : List UInt8) (config : Config) : Except Fault (Bool × Config) := do
  let r ← tokenLoop matchKey mem ⟨config, false, false, false, false, false⟩
  checkConfig r

/-- `init()`, without the driver. -/
def init (mem : List UInt8) (config : Config) : Except Fault Config := do
  let (ok, config) ← readNetworkConfig mem config
  if ok then .ok config
  else .ok { config with ip := [10, 0, 2, 123], mac := defaultMac, gateway := [0, 0, 0, 0], prefixLen := 0 }

end JudgeDuck.Network
