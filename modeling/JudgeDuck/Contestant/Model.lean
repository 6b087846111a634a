/-
  The contestant of `kern/contestant.cpp`: the connection state machine around the solver.

  The contestant keeps two TCP connections to the server.  Port 10001 sends the digit stream, which
  goes to the solver; port 10002 takes the answers.  The connections are opened one after the
  other, and torn down and reopened when either fails.  lwIP drives the machine through callbacks;
  each callback (and the `contestant_tick` of the main loop) is an `Event`, and `step` is what the
  source does for it.  A run is any sequence of events, in any order.

  What `contestant_send` writes to connection 10002 is returned as a list of `Submission`s.  The
  fields `fed` and `session` of the state are ghosts: the digits given to the solver so far
  (beginning with its initial window), and the digits delivered by port 10001 since the latest
  transition to `S_CONNECTED`.

  Left out: the network interface, DHCP, the packet loop that feeds lwIP, and the log output.
-/
import JudgeDuck.Solver.Model

namespace JudgeDuck.Contestant

open JudgeDuck.Lib JudgeDuck.Solver

/-- `#define MTU 1500`. -/
def mtu : Nat := 1500

/-- lwIP's receive window, `4 * TCP_MSS` with the default `TCP_MSS`: the longest segment chain it
    hands to `tcp_recv_fn_10001`. -/
def tcpWnd : Nat := 4 * 536

/-- `invalid_buffer`: 256 nines. -/
def invalidBuffer : List UInt8 := List.replicate 256 57

/-- The `state` of the contestant. -/
inductive ConnState where
  | notConnected
  | connecting10002
  | connecting10001
  | connected
  | abortNextTick
  deriving DecidableEq, Repr

/-- The statics of the contestant. -/
structure State where
  state : ConnState
  /-- `conn_10001 != NULL`. -/
  conn10001 : Bool
  /-- `conn_10002 != NULL`. -/
  conn10002 : Bool
  lastRecvLen : Nat
  solver : Solver.State
  /-- Ghost: the digits given to the solver so far, the initial window first. -/
  fed : List UInt8
  /-- Ghost: the digits delivered on port 10001 since the latest transition to `S_CONNECTED`. -/
  session : List UInt8

/-- One `tcp_write` of an answer to connection 10002. -/
structure Submission where
  /-- The solver's call, its digit placed in `fed`. -/
  call : Call
  /-- The bytes written. -/
  wire : List UInt8
  /-- Ghost: the digits of the session when the answer was written. -/
  session : List UInt8
  /-- Ghost: the place in `fed` where they begin. -/
  start : Nat

/-- What happens to the contestant. -/
inductive Event where
  /-- `contestant_tick`; does the interface have an address, does `tcp_new` succeed. -/
  | tick (hasIp pcb : Bool)
  /-- `tcp_connected_fn`; does `tcp_new` succeed. -/
  | connected (pcb : Bool)
  /-- `tcp_recv_fn_10001`; `none` is `p == NULL`. -/
  | recv10001 (p : Option (List UInt8))
  /-- `tcp_recv_fn_10002`. -/
  | recv10002 (p : Option (List UInt8))
  /-- `tcp_err_fn_10001`. -/
  | err10001
  /-- `tcp_err_fn_10002`. -/
  | err10002

/-- The statics after `Solver::init(contestant_send)` and `Solver::prepare()`. -/
def solverReady : State :=
  { state := .notConnected, conn10001 := false, conn10002 := false, lastRecvLen := 0
    solver := prepare init, fed := List.replicate N 57, session := [] }

section

variable (doNotSendAnswer : Bool)

/-- `contestant_send(buf, len)`, for one call of the solver. -/
def contestantSend (s : State) (c : Call) : List Submission :=
  if s.state ≠ .connected then []
  else if doNotSendAnswer then []
  else [{ call := c, wire := c.request, session := s.session
          start := s.fed.length - s.session.length }]

/-- `Solver::recv_input(buf, len)` followed by `Solver::prepare()`; `send_fn` is
    `contestant_send`. -/
def feedSolver (s : State) (buf : List UInt8) : Except Fault (State × List Submission) := do
  let (solver, calls) ← feed s.solver buf
  let off := s.fed.length - N
  let s := { s with solver := solver, fed := s.fed ++ buf }
  .ok (s, (calls.map (Call.shift off)).flatMap (contestantSend doNotSendAnswer s))

def tcpErrFn10001 (s : State) : State := { s with conn10001 := false, state := .abortNextTick }

def tcpErrFn10002 (s : State) : State := { s with conn10002 := false, state := .abortNextTick }

def startConnecting10001 (s : State) (pcb : Bool) : Except Fault State :=
  if pcb then .ok { s with state := .connecting10001, conn10001 := true }
  else .error .assertion

def startConnecting (s : State) (pcb : Bool) : Except Fault State :=
  if pcb then .ok { s with state := .connecting10002, conn10002 := true }
  else .error .assertion

/-- `tcp_connected_fn`, registered for both connections. -/
def tcpConnectedFn (s : State) (pcb : Bool) : Except Fault (State × List Submission) :=
  if s.state = .connecting10002 then do
    let s ← startConnecting10001 s pcb
    .ok (s, [])
  else if s.state = .connecting10001 then
    feedSolver doNotSendAnswer { s with state := .connected, session := [] } invalidBuffer
  else .error .assertion

/-- `buf[i] >= '0' && buf[i] <= '9'`. -/
def isDigitChar (b : UInt8) : Bool := decide (48 ≤ charVal b ∧ charVal b ≤ 57)

/-- `tcp_recv_fn_10001`; `buf` has room for `MTU` bytes. -/
def tcpRecvFn10001 (s : State) : Option (List UInt8) → Except Fault (State × List Submission)
  | none => .ok ({ s with state := .abortNextTick }, [])
  | some p =>
    if mtu < p.length then .error .bufferOverflow
    else
      let s := { s with session := s.session ++ p }
      if p.all isDigitChar then do
        let (s, subs) ← feedSolver doNotSendAnswer s p
        .ok ({ s with lastRecvLen := p.length }, subs)
      else .ok (s, [])

/-- `tcp_recv_fn_10002`: the server's replies are thrown away. -/
def tcpRecvFn10002 (s : State) : Option (List UInt8) → State
  | none => { s with state := .abortNextTick }
  | some _ => s

/-- `tcp_abort(conn_10001)`, whose error callback runs, and `conn_10001 = NULL`. -/
def abort10001 (s : State) : State :=
  if s.conn10001 then { tcpErrFn10001 s with conn10001 := false } else s

/-- `tcp_abort(conn_10002)` likewise. -/
def abort10002 (s : State) : State :=
  if s.conn10002 then { tcpErrFn10002 s with conn10002 := false } else s

/-- `contestant_tick()`. -/
def contestantTick (s : State) (hasIp pcb : Bool) : Except Fault State :=
  if s.state = .notConnected then
    if hasIp then startConnecting s pcb else .ok s
  else if s.state = .abortNextTick then
    .ok { abort10002 (abort10001 s) with state := .notConnected }
  else .ok s

/-- One event. -/
def step (s : State) : Event → Except Fault (State × List Submission)
  | .tick hasIp pcb => do
    let s ← contestantTick s hasIp pcb
    .ok (s, [])
  | .connected pcb => tcpConnectedFn doNotSendAnswer s pcb
  | .recv10001 p => tcpRecvFn10001 doNotSendAnswer s p
  | .recv10002 p => .ok (tcpRecvFn10002 s p, [])
  | .err10001 => .ok (tcpErrFn10001 s, [])
  | .err10002 => .ok (tcpErrFn10002 s, [])

/-- A run: one event after the other, and everything submitted. -/
def run (s : State) : List Event → Except Fault (State × List Submission)
  | [] => .ok (s, [])
  | ev :: evs => do
    let (s, subs) ← step doNotSendAnswer s ev
    let (s, more) ← run s evs
    .ok (s, subs ++ more)

/-- `recv_1e7()`: `i` runs from 0 to 10 000 000 in steps of 256. -/
def recv1e7 (s : State) : Except Fault State :=
  forUpM (fun _ s => (feedSolver doNotSendAnswer s invalidBuffer).map Prod.fst) 39063 s

/-- `contestant_init()`: the solver is set up and the benchmark run twice. -/
def contestantInit : Except Fault State := do
  let s ← recv1e7 doNotSendAnswer solverReady
  recv1e7 doNotSendAnswer s

end

end JudgeDuck.Contestant
