/-
  The main loop of the server (`ducknet_mainloop`, the hooks and `idle` of `duck_server.cpp`, `lib/scheduler.cpp`,
  and the flushing in `ducknet/lib/phy.cpp`).

  A turn of the loop sweeps the tables, handles a frame if there is one, and then lets the scheduler decide
  whether the processor may sleep.  The driver may hold frames back until it is flushed.  The variable `flushed`
  says that it holds none; the loop flushes now and then (`ducknet_phy_idle`), and before it sleeps.

  What the driver and the processor are told is kept in a log (`Action`).  An observer of the log (`Watch`)
  knows whether a frame may be held back, and since when none has come or gone.  On every run the processor
  sleeps only while no frame is held back, and only for as long as the time of rest allows
  (`sleeps_flushed_and_rested`); no frame is held back for more than 128 turns (`flushed_within`); and the loop
  still serves as `serve` does (`mainloop_refines`).

  Left out: `ducknet_mainloop` ends when a turn returns a negative number, and no turn does.
-/
import JudgeDuck.Ducknet.Forwards
import JudgeDuck.DuckServer.Wire

namespace JudgeDuck.DuckServer

open JudgeDuck.Lib JudgeDuck.Ducknet

/-! ## The scheduler -/

/-- The states of the scheduler. -/
inductive Activity where
  | active
  | idle
  deriving DecidableEq, Repr

/-- The variables of `scheduler.cpp`. -/
structure Scheduler where
  currentState : Activity
  lastActiveTimestampNs : UInt64
  deriving DecidableEq, Repr

namespace Scheduler

/-- `init()`. -/
def init : Scheduler := ⟨.active, 0⟩

/-- `set_active()`. -/
def setActive (s : Scheduler) : Scheduler := { s with currentState := .active }

/-- `idle_policy_ms`: after so many milliseconds of rest, so many of sleep. -/
def idlePolicyMs : List (UInt64 × UInt64) := [(0, 0), (1, 1), (30, 2)]

/-- `set_idle()`, at the time `ns`. -/
def setIdle (s : Scheduler) (ns : UInt64) : Scheduler :=
  if s.currentState = .active then ⟨.idle, ns⟩ else s

/-- The loop of `get_sleep_duration_ms`, from the policy `i` downwards. -/
def matchedPolicy (idleTimeMs : UInt64) : Nat → Nat
  | 0 => 0
  | i + 1 => if idleTimeMs ≥ (idlePolicyMs.getD (i + 1) (0, 0)).1 then i + 1 else matchedPolicy idleTimeMs i

/-- `get_sleep_duration_ms()`, at the time `ns`. -/
def getSleepDurationMs (s : Scheduler) (ns : UInt64) : UInt64 :=
  if s.currentState ≠ .idle then 0
  else
    let idleTimeMs := (ns - s.lastActiveTimestampNs) / 1000000
    (idlePolicyMs.getD (matchedPolicy idleTimeMs (idlePolicyMs.length - 1)) (0, 0)).2

/-- `can_sleep()`. -/
def canSleep (s : Scheduler) (ns : UInt64) : Bool := s.getSleepDurationMs ns > 0

/-- How long one may sleep after so much rest. -/
def Allowed (restNs duration : UInt64) : Prop :=
  (duration = 1000000 ∧ 1 ≤ restNs / 1000000) ∨ (duration = 2000000 ∧ 30 ≤ restNs / 1000000)

/-- Who sleeps has rested, and long enough. -/
theorem allowed_of_getSleepDurationMs {s : Scheduler} {ns : UInt64} (h : s.getSleepDurationMs ns > 0) :
    s.currentState = .idle ∧ Allowed (ns - s.lastActiveTimestampNs) (s.getSleepDurationMs ns * 1000000) := by
  rw [getSleepDurationMs] at h ⊢
  split at h
  · exact absurd h (by decide)
  · rename_i hidle
    refine ⟨not_not.mp hidle, ?_⟩
    rw [if_neg hidle]
    -- the three policies, from the last one
    by_cases hlong : (ns - s.lastActiveTimestampNs) / 1000000 ≥ 30
    · have hpolicy : matchedPolicy ((ns - s.lastActiveTimestampNs) / 1000000) (idlePolicyMs.length - 1) = 2 :=
        if_pos hlong
      simp only [hpolicy]
      exact .inr ⟨rfl, hlong⟩
    · by_cases hshort : (ns - s.lastActiveTimestampNs) / 1000000 ≥ 1
      · have hpolicy : matchedPolicy ((ns - s.lastActiveTimestampNs) / 1000000) (idlePolicyMs.length - 1) = 1 :=
          (if_neg hlong).trans (if_pos hshort)
        simp only [hpolicy]
        exact .inl ⟨rfl, hshort⟩
      · have hpolicy : matchedPolicy ((ns - s.lastActiveTimestampNs) / 1000000) (idlePolicyMs.length - 1) = 0 :=
          (if_neg hlong).trans (if_neg hshort)
        simp only [hpolicy] at h
        exact absurd h (by decide)

end Scheduler

/-! ## A turn of the loop -/

/-- What the driver and the processor are told, and what the driver delivers. -/
inductive Action where
  | received (frame : List UInt8)
  | sent (frame : List UInt8)
  /-- The driver is flushed; `r` is its answer. -/
  | flush (r : Int)
  /-- A turn ends in which a frame came or went, or the first turn; the rest counts from here. -/
  | rest (ns : UInt64)
  /-- The processor sleeps, for `duration` nanoseconds. -/
  | sleep (duration ns : UInt64)

/-- The server with the variables of the loop. -/
structure Loop where
  server : Server
  flushCnt : Nat
  lastFlushTime : UInt64
  scheduler : Scheduler
  log : List Action

/-- What a turn reads: the counter of the processor, the driver, and the clock, which `set_idle`, `can_sleep`
    and `sleep` each ask. -/
structure Turn where
  now : UInt64
  received : Option (Readings × List UInt8)
  idleNs : UInt64
  canSleepNs : UInt64
  sleepNs : UInt64

namespace Loop

/-- The physical layer of the stack. -/
abbrev phy (l : Loop) : Phy := l.server.host.stack.phy

/-- `ducknet_phy_flush()`. -/
def phyFlush (flush : Option (List Action → Int)) (l : Loop) : Loop × Int :=
  if l.phy.flushed then (l, 0)
  else
    match flush with
    | none => (l, -1)
    | some flush =>
      let r := flush l.log
      if r = 0 then ({ l with server.host.stack.phy.flushed := true, log := l.log ++ [.flush r] }, r)
      else ({ l with log := l.log ++ [.flush r] }, r)

/-- `flush_delay`, 0.1 ms. -/
def flushDelay (tscFreq : UInt64) : UInt64 := tscFreq * 100 / 1000 / 1000

/-- `ducknet_phy_idle()`. -/
def phyIdle (flush : Option (List Action → Int)) (l : Loop) (now : UInt64) : Loop :=
  if l.flushCnt + 1 ≥ 128 ∨ now - l.lastFlushTime > flushDelay l.server.host.stack.tscFreq then
    { (l.phyFlush flush).1 with flushCnt := 0, lastFlushTime := now }
  else { l with flushCnt := l.flushCnt + 1 }

/-- An event of the server; `phy_send_packet_handle` is called for every frame that is sent. -/
def event (c : Setup) (myIp : UInt32) (l : Loop) (x : WireEvent) : Except Fault Loop := do
  let server ← l.server.step c myIp x
  let sent := server.host.stack.phy.calls.drop l.phy.calls.length
  .ok { l with
    server := server
    scheduler := if sent.isEmpty then l.scheduler else l.scheduler.setActive
    log := l.log ++ sent.map fun call => Action.sent call.frame }

/-- `phy_recv_packet_handle`. -/
def phyRecvPacketHandle (l : Loop) (frame : List UInt8) : Loop :=
  { l with scheduler := l.scheduler.setActive, log := l.log ++ [.received frame] }

/-- `Scheduler::set_idle()`. -/
def setIdle (l : Loop) (ns : UInt64) : Loop :=
  { l with
    scheduler := l.scheduler.setIdle ns
    log := if l.scheduler.currentState = .active then l.log ++ [.rest ns] else l.log }

/-- `Scheduler::sleep()`. -/
def sleep (l : Loop) (ns : UInt64) : Loop :=
  let ms := l.scheduler.getSleepDurationMs ns
  if ms > 0 then { l with log := l.log ++ [.sleep (ms * 1000000) ns] } else l

/-- `idle()`, which returns 0. -/
def idle (flush : Option (List Action → Int)) (l : Loop) (t : Turn) : Loop :=
  let l := l.setIdle t.idleNs
  if l.scheduler.canSleep t.canSleepNs then (l.phyFlush flush).1.sleep t.sleepNs else l

/-- The receiving part of a turn. -/
def recv (c : Setup) (myIp : UInt32) (l : Loop) : Option (Readings × List UInt8) → Except Fault Loop
  | none => .ok l
  | some (e, frame) => (l.phyRecvPacketHandle frame).event c myIp (.frame e frame)

/-- `ducknet_step()`. -/
def step (c : Setup) (myIp : UInt32) (flush : Option (List Action → Int)) (l : Loop) (t : Turn) :
    Except Fault Loop := do
  let l ← (l.phyIdle flush t.now).event c myIp (.idle t.now)
  let l ← l.recv c myIp t.received
  .ok (l.idle flush t)

/-- `ducknet_mainloop()`, for some turns. -/
def mainloop (c : Setup) (myIp : UInt32) (flush : Option (List Action → Int)) (l : Loop) (ts : List Turn) :
    Except Fault Loop :=
  ts.foldlM (step c myIp flush) l

/-- The loop at its start. -/
def start (v : Server) (now : UInt64) : Loop := ⟨v, 0, now, .init, []⟩

end Loop

/-- `phy_send_packet_handle` refuses nothing. -/
def phySendPacketHandle (_ : Nat) (_ : List UInt8) : Int := 0

/-! ## The observer -/

/-- What is known from the log: whether a frame may be held back, and since when none has come or gone. -/
structure Watch where
  pending : Bool
  since : Option UInt64
  deriving DecidableEq, Repr

namespace Watch

/-- The knowledge after an action. -/
def see (w : Watch) : Action → Watch
  | .received _ => { w with since := none }
  | .sent _ => ⟨true, none⟩
  | .flush r => { w with pending := w.pending && r ≠ 0 }
  | .rest ns => { w with since := some ns }
  | .sleep _ _ => w

/-- The knowledge from a log. -/
def of (log : List Action) : Watch := log.foldl see ⟨false, none⟩

/-- The condition for an action: a sleep needs that no frame is held back and that there was rest. -/
def Allows (w : Watch) : Action → Prop
  | .sleep duration ns => w.pending = false ∧ ∃ t, w.since = some t ∧ Scheduler.Allowed (ns - t) duration
  | _ => True

theorem of_concat (log : List Action) (a : Action) : of (log ++ [a]) = (of log).see a := by
  rw [of, List.foldl_append]
  rfl

/-- Frames that are sent are all that is known then. -/
theorem of_sent (log : List Action) {calls : List PhyCall} (hne : calls ≠ []) :
    of (log ++ calls.map fun call => Action.sent call.frame) = ⟨true, none⟩ := by
  obtain ⟨init, last, rfl⟩ := List.eq_nil_or_concat calls |>.resolve_left hne
  rw [List.concat_eq_append, List.map_append, ← List.append_assoc, List.map_singleton, of_concat]
  rfl

end Watch

/-- Every action of the log had its condition when it was taken. -/
def Orderly (log : List Action) : Prop := ∀ before a after, log = before ++ a :: after → (Watch.of before).Allows a

theorem orderly_nil : Orderly [] := by
  intro before a after h
  exact absurd h.symm (by simp)

theorem Orderly.concat {log : List Action} {a : Action} (h : Orderly log) (ha : (Watch.of log).Allows a) :
    Orderly (log ++ [a]) := by
  intro before b after heq
  rcases List.eq_nil_or_concat after with rfl | ⟨after', last, rfl⟩
  · obtain ⟨rfl, hb⟩ := List.append_inj' heq rfl
    cases hb
    exact ha
  · rw [List.concat_eq_append, ← List.cons_append, ← List.append_assoc] at heq
    exact h before b after' (List.append_inj' heq rfl).1

theorem Orderly.append {log : List Action} (h : Orderly log) (as : List Action)
    (has : ∀ a ∈ as, ∀ w : Watch, w.Allows a) : Orderly (log ++ as) := by
  induction as generalizing log with
  | nil => rwa [List.append_nil]
  | cons a as ih =>
    rw [← List.singleton_append, ← List.append_assoc]
    exact ih (h.concat (has a List.mem_cons_self _)) fun b hb => has b (List.mem_cons_of_mem a hb)

/-! ## The invariant of the loop -/

/-- What every turn keeps: the variables of the loop say what the observer knows. -/
structure Loop.Kept (l : Loop) : Prop where
  opened : l.phy.Open
  hooks : l.server.host.hooks = serverHooks
  orderly : Orderly l.log
  pending : l.phy.flushed = true → (Watch.of l.log).pending = false
  since : (Watch.of l.log).since =
    if l.scheduler.currentState = .idle then some l.scheduler.lastActiveTimestampNs else none
  cnt : l.flushCnt < 128

/-- An event of the server sends through the physical layer, or not at all. -/
theorem forwards_step {c : Setup} {ip : UInt32} {v v' : Server} {x : WireEvent}
    (hhooks : v.host.hooks = serverHooks) (hstep : v.step c ip x = .ok v') :
    v.host.stack.phy.Forwards v'.host.stack.phy ∧ v'.host.hooks = serverHooks := by
  cases x with
  | idle now =>
    cases hstep
    exact ⟨forwards_idle _ _, hhooks⟩
  | frame e frame =>
    rw [Server.step] at hstep
    obtain ⟨⟨host, r⟩, hrecv, hstep⟩ := bind_ok hstep
    obtain ⟨hforwards, hhost⟩ := forwards_receive hhooks hrecv
    simp only at hstep
    split at hstep
    · rw [Server.udpPacket] at hstep
      split at hstep
      · cases hstep
        exact ⟨hforwards, hhost⟩
      split at hstep
      · cases hstep
        exact ⟨hforwards, hhost⟩
      split at hstep
      · -- a request, and perhaps its reply
        rw [Server.duckPacket] at hstep
        obtain ⟨⟨state, toSend⟩, -, hstep⟩ := bind_ok hstep
        cases toSend with
        | none =>
          cases hstep
          exact ⟨hforwards, hhost⟩
        | some toSend =>
          obtain ⟨⟨stack, ret⟩, hsend, hstep⟩ := bind_ok hstep
          cases hstep
          exact ⟨hforwards.trans (forwards_send hsend), hhost⟩
      · cases hstep
        exact ⟨hforwards, hhost⟩
    · cases hstep
      exact ⟨hforwards, hhost⟩

/-- The driver's `flush` exists and returns 0, as both drivers' do. -/
def Answers (flush : Option (List Action → Int)) : Prop := ∃ f, flush = some f ∧ ∀ log, f log = 0

section Kept

variable {c : Setup} {ip : UInt32} {flush : Option (List Action → Int)} {l l' : Loop}

theorem Loop.phyFlush_eq (h : Answers flush) (l : Loop) : (l.phyFlush flush).1 =
    if l.phy.flushed then l
    else { l with server.host.stack.phy.flushed := true, log := l.log ++ [.flush 0] } := by
  obtain ⟨f, rfl, hf⟩ := h
  rw [phyFlush]
  split
  · rfl
  · simp only [hf]
    rfl

theorem Loop.flushed_phyFlush (h : Answers flush) (l : Loop) : (l.phyFlush flush).1.phy.flushed = true := by
  rw [phyFlush_eq h]
  split
  · assumption
  · rfl

namespace Loop.Kept

/-- An action is taken, and the variables follow. -/
theorem act {a : Action} (hl : l.Kept) (hlog : l'.log = l.log ++ [a]) (hopened : l'.phy.Open)
    (hhooks : l'.server.host.hooks = serverHooks) (hcnt : l'.flushCnt < 128) (ha : (Watch.of l.log).Allows a)
    (hpending : l'.phy.flushed = true → ((Watch.of l.log).see a).pending = false)
    (hsince : ((Watch.of l.log).see a).since =
      if l'.scheduler.currentState = .idle then some l'.scheduler.lastActiveTimestampNs else none) : l'.Kept where
  opened := hopened
  hooks := hhooks
  orderly := by
    rw [hlog]
    exact hl.orderly.concat ha
  pending := by
    rw [hlog, Watch.of_concat]
    exact hpending
  since := by
    rw [hlog, Watch.of_concat]
    exact hsince
  cnt := hcnt

theorem phyFlush (h : Answers flush) (hl : l.Kept) : (l.phyFlush flush).1.Kept := by
  rw [phyFlush_eq h]
  split
  · exact hl
  · exact hl.act rfl hl.opened hl.hooks hl.cnt trivial (fun _ => Bool.and_false _) hl.since

theorem phyIdle (h : Answers flush) (hl : l.Kept) (now : UInt64) : (l.phyIdle flush now).Kept := by
  rw [Loop.phyIdle]
  split
  · have hflush := hl.phyFlush h
    exact ⟨hflush.opened, hflush.hooks, hflush.orderly, hflush.pending, hflush.since, Nat.zero_lt_succ 127⟩
  · rename_i hcnt
    exact ⟨hl.opened, hl.hooks, hl.orderly, hl.pending, hl.since, by
      show l.flushCnt + 1 < 128
      omega⟩

theorem event {x : WireEvent} (hl : l.Kept) (hstep : l.event c ip x = .ok l') : l'.Kept := by
  rw [Loop.event] at hstep
  obtain ⟨server, hserver, hstep⟩ := bind_ok hstep
  obtain ⟨hforwards, hhooks⟩ := forwards_step hl.hooks hserver
  obtain ⟨hopened, hcases⟩ := hforwards hl.opened
  cases hstep
  have horderly := hl.orderly.append
    ((server.host.stack.phy.calls.drop l.phy.calls.length).map fun call => Action.sent call.frame) (by
      intro a ha w
      obtain ⟨call, -, rfl⟩ := List.mem_map.mp ha
      trivial)
  rcases hcases with ⟨hlen, hflushed⟩ | ⟨hlen, hflushed⟩
  · -- nothing was sent
    have hnone : server.host.stack.phy.calls.drop l.phy.calls.length = [] := List.drop_eq_nil_of_le hlen.le
    refine ⟨hopened, hhooks, horderly, ?_, ?_, hl.cnt⟩
    · intro hf
      simp only [hnone, List.map_nil, List.append_nil]
      exact hl.pending (hflushed.symm.trans hf)
    · simp only [hnone, List.map_nil, List.append_nil]
      exact hl.since
  · have hsome : server.host.stack.phy.calls.drop l.phy.calls.length ≠ [] := by
      rw [Ne, List.drop_eq_nil_iff]
      exact Nat.not_le.mpr hlen
    refine ⟨hopened, hhooks, horderly, ?_, ?_, hl.cnt⟩
    · intro hf
      rw [hflushed] at hf
      cases hf
    · have hactive : ¬ (server.host.stack.phy.calls.drop l.phy.calls.length).isEmpty = true := by
        rwa [List.isEmpty_iff]
      simp only
      rw [Watch.of_sent _ hsome, if_neg hactive]
      rfl

theorem phyRecvPacketHandle (hl : l.Kept) (frame : List UInt8) : (l.phyRecvPacketHandle frame).Kept :=
  hl.act rfl hl.opened hl.hooks hl.cnt trivial hl.pending rfl

theorem recv {received : Option (Readings × List UInt8)} (hl : l.Kept) (h : l.recv c ip received = .ok l') :
    l'.Kept := by
  cases received with
  | none =>
    cases h
    exact hl
  | some r => exact (hl.phyRecvPacketHandle r.2).event h

theorem setIdle (hl : l.Kept) (ns : UInt64) : (l.setIdle ns).Kept := by
  rw [Loop.setIdle, Scheduler.setIdle]
  split
  · exact hl.act rfl hl.opened hl.hooks hl.cnt trivial hl.pending rfl
  · exact ⟨hl.opened, hl.hooks, hl.orderly, hl.pending, hl.since, hl.cnt⟩

/-- The processor sleeps: nothing is held back, and the scheduler has measured the rest. -/
theorem sleep (hl : l.Kept) (hflushed : l.phy.flushed = true) (ns : UInt64) : (l.sleep ns).Kept := by
  rw [Loop.sleep]
  split
  · rename_i hms
    obtain ⟨hidle, hallowed⟩ := Scheduler.allowed_of_getSleepDurationMs hms
    have hsince := hl.since
    rw [if_pos hidle] at hsince
    exact hl.act rfl hl.opened hl.hooks hl.cnt ⟨hl.pending hflushed, _, hsince, hallowed⟩ hl.pending hl.since
  · exact hl

theorem idle (h : Answers flush) (hl : l.Kept) (t : Turn) : (l.idle flush t).Kept := by
  have hset := hl.setIdle t.idleNs
  rw [Loop.idle]
  split
  · exact (hset.phyFlush h).sleep (flushed_phyFlush h _) t.sleepNs
  · exact hset

/-- **A turn.** -/
theorem step {t : Turn} (h : Answers flush) (hl : l.Kept) (hstep : l.step c ip flush t = .ok l') : l'.Kept := by
  rw [Loop.step] at hstep
  obtain ⟨l1, hidle, hstep⟩ := bind_ok hstep
  obtain ⟨l2, hrecv, hstep⟩ := bind_ok hstep
  cases hstep
  exact (((hl.phyIdle h t.now).event hidle).recv hrecv).idle h t

/-- **Every run keeps it**, by induction on the turns. -/
theorem mainloop {ts : List Turn} (h : Answers flush) (hl : l.Kept)
    (hrun : l.mainloop c ip flush ts = .ok l') : l'.Kept :=
  foldlM_inv (fun l => l.Kept) (fun _ _ _ hl hstep => hl.step h hstep) hl hrun

end Loop.Kept

theorem Loop.kept_start {v : Server} {now : UInt64} (hhooks : v.host.hooks = serverHooks)
    (hhandle : v.host.stack.phy.sendPacketHandle = some phySendPacketHandle) : (Loop.start v now).Kept where
  opened := by
    intro handle hh k frame
    rw [Loop.start, hhandle] at hh
    cases hh
    exact Int.le_refl 0
  hooks := hhooks
  orderly := orderly_nil
  pending := fun _ => rfl
  since := rfl
  cnt := by
    show 0 < 128
    decide

end Kept

section Runs

variable {ip : UInt32} {mac : MacAddress} {flush : Option (List Action → Int)}

/-! ## Serving -/

section Serving

variable {c : Setup} {l l1 l2 : Loop} {told : Datagram → Prop}

/-- The request that comes in with a turn. -/
def Turn.request (ip : UInt32) (mac : MacAddress) (t : Turn) : Option Incoming :=
  t.received.bind fun r => incoming ip mac (.frame r.1 r.2)

/-- The loop and the server in it, seen as `serve` sees them. -/
def Loop.Good (ip : UInt32) (mac : MacAddress) (told : Datagram → Prop) (l : Loop) : Prop :=
  l.server.host.Honest ip mac told

/-- Between two states of the loop the server has done nothing but to flush. -/
def Loop.Alike (l l' : Loop) : Prop :=
  l'.server = l.server ∨ l'.server = { l.server with host.stack.phy.flushed := true }

namespace Loop.Alike

theorem phyFlush (flush : Option (List Action → Int)) (l : Loop) : l.Alike (l.phyFlush flush).1 := by
  unfold Loop.phyFlush
  split
  · exact .inl rfl
  split
  · exact .inl rfl
  simp only
  split
  · exact .inr rfl
  · exact .inl rfl

theorem phyIdle (flush : Option (List Action → Int)) (l : Loop) (now : UInt64) :
    l.Alike (l.phyIdle flush now) := by
  rw [Loop.phyIdle]
  split
  · exact phyFlush flush l
  · exact .inl rfl

theorem idle (flush : Option (List Action → Int)) (l : Loop) (t : Turn) : l.Alike (l.idle flush t) := by
  rw [Loop.idle]
  split
  · rw [Loop.sleep]
    split
    · exact phyFlush flush (l.setIdle t.idleNs)
    · exact phyFlush flush (l.setIdle t.idleNs)
  · exact .inl rfl

theorem state (h : l.Alike l1) : l1.server.state = l.server.state := by
  rcases h with h | h
  · rw [h]
  · rw [h]

theorem good (h : l.Alike l1) (hl : l.Good ip mac told) : l1.Good ip mac told := by
  rcases h with h | h
  · rw [Loop.Good, h]
    exact hl
  · -- nothing that is said about the stack looks at `flushed`
    rw [Loop.Good, h]
    exact ⟨⟨hl.stack.ip_eq, hl.stack.mac_eq, hl.stack.waiting, hl.stack.lens, hl.stack.calls⟩, hl.hooks⟩

end Loop.Alike

theorem Loop.event_of_ok {x : WireEvent} {v : Server} (h : l.server.step c ip x = .ok v) :
    ∃ l', l.event c ip x = .ok l' ∧ l'.server = v := by
  rw [Loop.event, bind_of_ok h]
  exact ⟨_, rfl, rfl⟩

theorem Loop.event_of_error {x : WireEvent} {fault : Fault} (h : l.server.step c ip x = .error fault) :
    l.event c ip x = .error fault := by
  rw [Loop.event, h]
  rfl

/-- A turn up to the receiving. -/
theorem Loop.exists_idled (flush : Option (List Action → Int)) (hl : l.Good ip mac told) (t : Turn) :
    ∃ l1 : Loop, l1.server.state = l.server.state ∧ l1.Good ip mac told ∧ l.step c ip flush t = (do
      let l2 ← l1.recv c ip t.received
      .ok (l2.idle flush t)) := by
  have hphy := Alike.phyIdle flush l t.now
  obtain ⟨host, hstep, hhost⟩ := step_other (c := c) (x := .idle t.now) (hphy.good hl) rfl
  obtain ⟨l1, hevent, hserver⟩ := event_of_ok hstep
  refine ⟨l1, ?_, ?_, ?_⟩
  · rw [hserver]
    exact hphy.state
  · rw [Loop.Good, hserver]
    exact hhost
  · rw [Loop.step, bind_of_ok hevent]

/-- The receiving, when the server takes it. -/
theorem Loop.step_of_recv {t : Turn} {s : Judger.State}
    (hstep : l.step c ip flush t = (do
      let l2 ← l1.recv c ip t.received
      .ok (l2.idle flush t)))
    (hrecv : l1.recv c ip t.received = .ok l2) (hstate : l2.server.state = s) (hgood : l2.Good ip mac told) :
    ∃ l', l.step c ip flush t = .ok l' ∧ l'.server.state = s ∧ l'.Good ip mac told := by
  have hidle := Alike.idle flush l2 t
  rw [hstep, bind_of_ok hrecv]
  exact ⟨_, rfl, hidle.state.trans hstate, hidle.good hgood⟩

/-- **The loop serves** as the server without a loop does: turns add flushes and sleeps only. -/
theorem Loop.servesBy_turn (c : Setup) (ip : UInt32) (mac : MacAddress) (flush : Option (List Action → Int)) :
    ServesBy c (Loop.step c ip flush) (Turn.request ip mac) (fun l => l.server.state) (Loop.Good ip mac) where
  mono := fun ht hl => ⟨hl.stack.mono ht, hl.hooks⟩
  other := by
    intro told l t hl hnone
    obtain ⟨l1, hstate, hl1, hstep⟩ := Loop.exists_idled (c := c) flush hl t
    rw [← hstate]
    cases hreceived : t.received with
    | none => exact Loop.step_of_recv hstep (by rw [hreceived]; rfl) rfl hl1
    | some r =>
      rw [Turn.request, hreceived, Option.bind_some] at hnone
      obtain ⟨host, hserver, hhost⟩ := step_other (c := c) hl1 hnone
      obtain ⟨l2, hevent, hl2⟩ := Loop.event_of_ok (l := l1.phyRecvPacketHandle r.2) hserver
      refine Loop.step_of_recv hstep (by rw [hreceived]; exact hevent) (by rw [hl2]) ?_
      rw [Loop.Good, hl2]
      exact hhost
  fault := by
    intro told l t q fault hl hq hfault
    obtain ⟨l1, hstate, hl1, hstep⟩ := Loop.exists_idled (c := c) flush hl t
    cases hreceived : t.received with
    | none =>
      rw [Turn.request, hreceived] at hq
      cases hq
    | some r =>
      rw [Turn.request, hreceived, Option.bind_some] at hq
      rw [← hstate] at hfault
      have hevent := Loop.event_of_error (l := l1.phyRecvPacketHandle r.2)
        ((step_request (c := c) hl1 hq).1 fault hfault)
      rw [hstep, hreceived, Loop.recv, hevent]
      rfl
  handled := by
    intro told l t q s res hl hq hok
    obtain ⟨l1, hstate, hl1, hstep⟩ := Loop.exists_idled (c := c) flush hl t
    cases hreceived : t.received with
    | none =>
      rw [Turn.request, hreceived] at hq
      cases hq
    | some r =>
      rw [Turn.request, hreceived, Option.bind_some] at hq
      rw [← hstate] at hok
      obtain ⟨host, hserver, hhost⟩ := (step_request (c := c) hl1 hq).2 s res hok
      obtain ⟨l2, hevent, hl2⟩ := Loop.event_of_ok (l := l1.phyRecvPacketHandle r.2) hserver
      refine Loop.step_of_recv hstep (by rw [hreceived]; exact hevent) (by rw [hl2]) ?_
      rw [Loop.Good, hl2]
      exact hhost

end Serving

/-- **The main loop serves**: whatever the turns bring and whatever the driver answers, the loop stops where `serve`
    stops on the requests among the frames, and otherwise it ends in the same state and has sent the replies of
    `serve`, ARP messages in its own name, and echo replies. -/
theorem mainloop_refines (c : Setup) (v : Server) (now : UInt64) (flush : Option (List Action → Int))
    (ts : List Turn) (hfresh : v.host.Fresh ip mac) :
    let qs := ts.filterMap (Turn.request ip mac)
    (∀ fault, serve c v.state (qs.map Incoming.datagram) = .error fault →
      (Loop.start v now).mainloop c ip flush ts = .error fault) ∧
    ∀ state rs, serve c v.state (qs.map Incoming.datagram) = .ok (state, rs) →
      ∃ l, (Loop.start v now).mainloop c ip flush ts = .ok l ∧ l.server.state = state ∧
        ∀ call ∈ l.phy.calls, HonestFrame ip mac (fun d => d ∈ replies qs rs) call.frame := by
  have hgood : (Loop.start v now).Good ip mac fun _ => False := hfresh.honest
  obtain ⟨hfault, hok⟩ := (Loop.servesBy_turn c ip mac flush).run ts hgood
  refine ⟨hfault, ?_⟩
  intro state rs hserve
  obtain ⟨l, hrun, hstate, hl⟩ := hok state rs hserve
  refine ⟨l, hrun, hstate, ?_⟩
  intro call hcall
  refine (hl.stack.calls call hcall).mono ?_
  rintro d (hd | hd)
  · exact hd.elim
  · exact hd

/-- The station 10.0.0.1, with the hook of the server. -/
def loopHost : Host := { freshHost with stack.phy.sendPacketHandle := some phySendPacketHandle }

theorem fresh_loopHost : loopHost.Fresh 0x0a000001 ⟨2, 0, 0, 0, 0, 1⟩ where
  ip := rfl
  mac := rfl
  entries := rfl
  slots := fresh_freshHost.slots
  calls := rfl
  hooks := rfl
  log := rfl

/-- Nothing happens, and the clock goes on for a millisecond. -/
def restTurn : Turn := ⟨0, none, 0, 1000000, 1000000⟩

/-- The time of the server is asked for. -/
def uptimeTurn : Turn := ⟨0, some (someReadings, uptimeFrame), 0, 0, 0⟩

theorem request_uptimeTurn : uptimeTurn.request 0x0a000001 ⟨2, 0, 0, 0, 0, 1⟩ =
    some ⟨someReadings, 0x0a000002, 1234, text "uptime"⟩ := incoming_uptimeFrame

/-- A turn without a frame, and one with a request. -/
theorem mainloop_refines_uptime : ∃ s l,
    (Loop.start ⟨loopHost, s⟩ 0).mainloop someSetup 0x0a000001 none
      [restTurn, uptimeTurn] = .ok l ∧ l.server.state = s ∧
      ∀ call ∈ l.phy.calls, HonestFrame 0x0a000001 ⟨2, 0, 0, 0, 0, 1⟩
        (fun d => d ∈ [(⟨0x0a000002, 1234, duckUdpPort, text "uptime 0"⟩ : Datagram)]) call.frame := by
  obtain ⟨-, s, -⟩ := Judger.exists_small 0
  have hrequests : [restTurn, uptimeTurn].filterMap
      (Turn.request 0x0a000001 ⟨2, 0, 0, 0, 0, 1⟩) = [⟨someReadings, 0x0a000002, 1234, text "uptime"⟩] := by
    rw [List.filterMap_cons_none rfl, List.filterMap_cons_some request_uptimeTurn]
    rfl
  have hrefines := (mainloop_refines someSetup ⟨loopHost, s⟩ 0 none
    [restTurn, uptimeTurn] fresh_loopHost).2 s
    [some (text "uptime 0")]
  rw [hrequests] at hrefines
  obtain ⟨l, hrun, hstate, hframes⟩ := hrefines rfl
  exact ⟨s, l, hrun, hstate, hframes⟩

/-! ## Sleeping -/

/-- **The processor sleeps only when it may**: whenever it does, on any run, every frame that was sent before has
    been flushed, and for as long as the policy asks no frame has come or gone. -/
theorem sleeps_flushed_and_rested (c : Setup) (v : Server) (now : UInt64) (ts : List Turn) (l : Loop)
    (hfresh : v.host.Fresh ip mac) (hhandle : v.host.stack.phy.sendPacketHandle = some phySendPacketHandle)
    (hflush : Answers flush) (hrun : (Loop.start v now).mainloop c ip flush ts = .ok l)
    (before after : List Action) (duration ns : UInt64) (hlog : l.log = before ++ .sleep duration ns :: after) :
    (Watch.of before).pending = false ∧
      ∃ t, (Watch.of before).since = some t ∧ Scheduler.Allowed (ns - t) duration := by
  have hstart : (Loop.start v now).Kept := Loop.kept_start hfresh.hooks hhandle
  exact (hstart.mainloop hflush hrun).orderly before _ after hlog

theorem answers_zero : Answers (some fun _ => 0) := ⟨_, rfl, fun _ => rfl⟩

/-- The station after it has idled once. -/
def idledHost : Host := { loopHost with stack := loopHost.stack.idle 0 }

/-- The first turn, up to the receiving. -/
theorem step_start (s : Judger.State) (t : Turn) (hnow : t.now = 0) :
    (Loop.start ⟨loopHost, s⟩ 0).step someSetup 0x0a000001 (some fun _ => 0) t = (do
      let l ← Loop.recv someSetup 0x0a000001 ⟨⟨idledHost, s⟩, 1, 0, .init, []⟩ t.received
      .ok (l.idle (some fun _ => 0) t)) := by
  have hphy : (Loop.start ⟨loopHost, s⟩ 0).phyIdle (some fun _ => 0) 0 = ⟨⟨loopHost, s⟩, 1, 0, .init, []⟩ := by
    have hcond : ¬ (0 + 1 ≥ 128 ∨ (0 : UInt64) - 0 > Loop.flushDelay 1000) := by decide
    exact if_neg hcond
  have hcalls : idledHost.stack.phy.calls = [] := by decide +kernel
  have hserver : Server.step someSetup 0x0a000001 ⟨loopHost, s⟩ (.idle 0) = .ok ⟨idledHost, s⟩ := rfl
  have hevent : Loop.event someSetup 0x0a000001 ⟨⟨loopHost, s⟩, 1, 0, .init, []⟩ (.idle 0) =
      .ok ⟨⟨idledHost, s⟩, 1, 0, .init, []⟩ := by
    rw [Loop.event, bind_of_ok hserver]
    simp only [hcalls, List.drop_nil, List.map_nil, List.append_nil, List.isEmpty_nil, if_true]
  rw [Loop.step, hnow, hphy, bind_of_ok hevent]

/-- What the loop does without frames, in this order. -/
theorem mainloop_restTurn (s : Judger.State) : ∃ l,
    (Loop.start ⟨loopHost, s⟩ 0).mainloop someSetup 0x0a000001 (some fun _ => 0) [restTurn] = .ok l ∧
      l.log = [.rest 0, .flush 0, .sleep 1000000 1000000] := by
  have hheld : ¬ idledHost.stack.phy.flushed = true := by decide +kernel
  rw [Loop.mainloop, List.foldlM_cons, step_start s restTurn rfl]
  refine ⟨_, rfl, ?_⟩
  -- what is left does not look at the stack, except for `flushed`
  generalize idledHost = host at hheld
  have hcan : (Scheduler.mk .idle 0).canSleep 1000000 = true := by decide
  have hms : (Scheduler.mk .idle 0).getSleepDurationMs 1000000 > 0 := by decide
  have hduration : (Scheduler.mk .idle 0).getSleepDurationMs 1000000 * 1000000 = 1000000 := by decide
  rw [Loop.idle]
  refine (congrArg Loop.log (if_pos hcan)).trans ?_
  rw [Loop.phyFlush_eq answers_zero]
  refine (congrArg (fun l : Loop => (l.sleep 1000000).log) (if_neg hheld)).trans ?_
  refine (congrArg Loop.log (if_pos hms)).trans ?_
  exact congrArg (fun d => [Action.rest 0, .flush 0, .sleep d 1000000]) hduration

/-- One turn: before the sleep there was a flush and a rest. -/
theorem sleeps_flushed_and_rested_one : ∃ s l,
    (Loop.start ⟨loopHost, s⟩ 0).mainloop someSetup 0x0a000001 (some fun _ => 0) [restTurn] = .ok l ∧
    l.log = [.rest 0, .flush 0, .sleep 1000000 1000000] ∧
    (Watch.of [.rest 0, .flush 0]).pending = false ∧
    ∃ t, (Watch.of [.rest 0, .flush 0]).since = some t ∧ Scheduler.Allowed (1000000 - t) 1000000 := by
  obtain ⟨-, s, -⟩ := Judger.exists_small 0
  obtain ⟨l, hrun, hlog⟩ := mainloop_restTurn s
  exact ⟨s, l, hrun, hlog, sleeps_flushed_and_rested someSetup ⟨loopHost, s⟩ 0 _ l fresh_loopHost rfl answers_zero
    hrun [.rest 0, .flush 0] [] 1000000 1000000 hlog⟩

/-! ## Flushing -/

section Flushing

variable {c : Setup} {l l1 l2 : Loop}

/-- From one state of the loop to a later one: the driver was flushed, or what was held back still is. -/
def Loop.Holds (l l' : Loop) : Prop :=
  l'.flushCnt = l.flushCnt ∧ ∃ new, l'.log = l.log ++ new ∧
    (Action.flush 0 ∈ new ∨ (l.phy.flushed = false → l'.phy.flushed = false))

namespace Loop.Holds

theorem refl (l : Loop) : l.Holds l := ⟨rfl, [], (List.append_nil _).symm, .inr id⟩

theorem trans (h : l.Holds l1) (h' : l1.Holds l2) : l.Holds l2 := by
  obtain ⟨hcnt, new, hlog, hnew⟩ := h
  obtain ⟨hcnt', new', hlog', hnew'⟩ := h'
  refine ⟨hcnt'.trans hcnt, new ++ new', by rw [hlog', hlog, List.append_assoc], ?_⟩
  rcases hnew with hflush | hheld
  · exact .inl (List.mem_append_left _ hflush)
  rcases hnew' with hflush' | hheld'
  · exact .inl (List.mem_append_right _ hflush')
  · exact .inr (hheld' ∘ hheld)

theorem phyFlush (h : Answers flush) (l : Loop) : l.Holds (l.phyFlush flush).1 := by
  rw [phyFlush_eq h]
  split
  · exact .refl l
  · exact ⟨rfl, [.flush 0], rfl, .inl List.mem_cons_self⟩

theorem event {x : WireEvent} (hl : l.Kept) (hstep : l.event c ip x = .ok l1) : l.Holds l1 := by
  rw [Loop.event] at hstep
  obtain ⟨server, hserver, hstep⟩ := bind_ok hstep
  obtain ⟨-, hcases⟩ := (forwards_step hl.hooks hserver).1 hl.opened
  cases hstep
  refine ⟨rfl, _, rfl, .inr ?_⟩
  intro hheld
  rcases hcases with ⟨-, hflushed⟩ | ⟨-, hflushed⟩
  · exact hflushed.trans hheld
  · exact hflushed

theorem recv {received : Option (Readings × List UInt8)} (hl : l.Kept) (h : l.recv c ip received = .ok l1) :
    l.Holds l1 := by
  cases received with
  | none =>
    cases h
    exact .refl l
  | some r =>
    have hhandle : l.Holds (l.phyRecvPacketHandle r.2) := ⟨rfl, _, rfl, .inr id⟩
    exact hhandle.trans (event (hl.phyRecvPacketHandle r.2) h)

theorem setIdle (l : Loop) (ns : UInt64) : l.Holds (l.setIdle ns) := by
  rw [Loop.setIdle]
  split
  · exact ⟨rfl, _, rfl, .inr id⟩
  · exact ⟨rfl, [], (List.append_nil _).symm, .inr id⟩

theorem sleep (l : Loop) (ns : UInt64) : l.Holds (l.sleep ns) := by
  rw [Loop.sleep]
  split
  · exact ⟨rfl, _, rfl, .inr id⟩
  · exact .refl l

theorem idle (h : Answers flush) (l : Loop) (t : Turn) : l.Holds (l.idle flush t) := by
  refine (setIdle l t.idleNs).trans ?_
  rw [Loop.idle]
  split
  · exact (phyFlush h _).trans (sleep _ t.sleepNs)
  · exact .refl _

end Loop.Holds

/-- What a turn does after `ducknet_phy_idle`. -/
theorem Loop.holds_step {t : Turn} (h : Answers flush) (hl : l.Kept) (hstep : l.step c ip flush t = .ok l1) :
    (l.phyIdle flush t.now).Holds l1 := by
  rw [Loop.step] at hstep
  obtain ⟨l2, hidle, hstep⟩ := bind_ok hstep
  obtain ⟨l3, hrecv, hstep⟩ := bind_ok hstep
  cases hstep
  have hphy := hl.phyIdle h t.now
  exact ((Loop.Holds.event hphy hidle).trans (.recv (hphy.event hidle) hrecv)).trans (.idle h l3 t)

/-- `ducknet_phy_idle` flushes what is held back, or it counts. -/
theorem Loop.phyIdle_of_held (h : Answers flush) (hheld : l.phy.flushed = false) (now : UInt64) :
    (l.phyIdle flush now).log = l.log ++ [.flush 0] ∨
      ((l.phyIdle flush now).log = l.log ∧ (l.phyIdle flush now).phy.flushed = false ∧
        (l.phyIdle flush now).flushCnt = l.flushCnt + 1) := by
  rw [Loop.phyIdle]
  split
  · left
    simp only
    rw [phyFlush_eq h, hheld]
    rfl
  · exact .inr ⟨rfl, hheld, rfl⟩

/-- **A turn on what is held back**: it is flushed, or the turn is counted. -/
theorem Loop.step_of_held {t : Turn} (h : Answers flush) (hl : l.Kept) (hheld : l.phy.flushed = false)
    (hstep : l.step c ip flush t = .ok l1) : ∃ new, l1.log = l.log ++ new ∧
      (Action.flush 0 ∈ new ∨ (l1.phy.flushed = false ∧ l1.flushCnt = l.flushCnt + 1)) := by
  obtain ⟨hcnt, new, hlog, hnew⟩ := holds_step h hl hstep
  rcases phyIdle_of_held h hheld t.now with hflushed | ⟨hsame, hheld', hcnt'⟩
  · refine ⟨.flush 0 :: new, ?_, .inl List.mem_cons_self⟩
    rw [hlog, hflushed, List.append_assoc]
    rfl
  · rw [hsame] at hlog
    refine ⟨new, hlog, ?_⟩
    rcases hnew with hflush | hkeeps
    · exact .inl hflush
    · exact .inr ⟨hkeeps hheld', hcnt.trans hcnt'⟩

theorem Loop.log_step {t : Turn} (h : Answers flush) (hl : l.Kept) (hstep : l.step c ip flush t = .ok l1) :
    l.log <+: l1.log := by
  obtain ⟨-, new, hlog, -⟩ := holds_step h hl hstep
  refine List.IsPrefix.trans ?_ ⟨new, hlog.symm⟩
  rw [Loop.phyIdle]
  split
  · obtain ⟨-, new', hlog', -⟩ := Holds.phyFlush h l
    exact ⟨new', hlog'.symm⟩
  · exact List.prefix_refl _

theorem Loop.log_mainloop {ts : List Turn} (h : Answers flush) (hl : l.Kept)
    (hrun : l.mainloop c ip flush ts = .ok l1) : l.log <+: l1.log :=
  (foldlM_inv (fun l' => l'.Kept ∧ l.log <+: l'.log)
    (fun _ _ _ hl' hstep => ⟨hl'.1.step h hstep, hl'.2.trans (log_step h hl'.1 hstep)⟩)
    ⟨hl, List.prefix_refl _⟩ hrun).2

/-- Turns until the counter is full. -/
theorem Loop.flushed_of_held {ts : List Turn} (h : Answers flush) (hl : l.Kept) (hheld : l.phy.flushed = false)
    (hlen : 128 ≤ l.flushCnt + ts.length) (hrun : l.mainloop c ip flush ts = .ok l1) :
    ∃ new, l1.log = l.log ++ new ∧ Action.flush 0 ∈ new := by
  induction ts generalizing l with
  | nil =>
    have hcnt := hl.cnt
    rw [List.length_nil] at hlen
    omega
  | cons t ts ih =>
    rw [Loop.mainloop, List.foldlM_cons] at hrun
    obtain ⟨l2, hstep, hrun⟩ := bind_ok hrun
    have hl2 := hl.step h hstep
    obtain ⟨new, hlog, hnew⟩ := step_of_held h hl hheld hstep
    rcases hnew with hflush | ⟨hheld', hcnt⟩
    · obtain ⟨rest, hrest⟩ := log_mainloop h hl2 hrun
      exact ⟨new ++ rest, by rw [← hrest, hlog, List.append_assoc], List.mem_append_left _ hflush⟩
    · rw [List.length_cons] at hlen
      obtain ⟨rest, hrest, hmem⟩ := ih hl2 hheld' (by omega) hrun
      exact ⟨new ++ rest, by rw [hrest, hlog, List.append_assoc], List.mem_append_right _ hmem⟩

end Flushing

/-- **No frame is held back for more than 128 turns**, in whatever state the loop has come to. -/
theorem flushed_within (c : Setup) (v : Server) (now : UInt64) (ts ts' : List Turn) (l l' : Loop)
    (hfresh : v.host.Fresh ip mac) (hhandle : v.host.stack.phy.sendPacketHandle = some phySendPacketHandle)
    (hflush : Answers flush) (hrun : (Loop.start v now).mainloop c ip flush ts = .ok l)
    (hpending : (Watch.of l.log).pending = true) (hlen : 128 ≤ ts'.length)
    (hrun' : l.mainloop c ip flush ts' = .ok l') : ∃ new, l'.log = l.log ++ new ∧ Action.flush 0 ∈ new := by
  have hstart : (Loop.start v now).Kept := Loop.kept_start hfresh.hooks hhandle
  have hl := hstart.mainloop hflush hrun
  have hheld : l.phy.flushed = false := by
    by_contra hflushed
    rw [hl.pending (Bool.eq_true_of_not_eq_false hflushed)] at hpending
    cases hpending
  exact Loop.flushed_of_held hflush hl hheld (by omega) hrun'

/-- A station asks for the address of the server. -/
def askTurn : Turn :=
  ⟨0, some (someReadings, arpHeaders etherBroadcastAddr ⟨2, 0, 0, 0, 0, 2⟩ arpRequest ++
    [2, 0, 0, 0, 0, 2, 10, 0, 0, 2, 0, 0, 0, 0, 0, 0, 10, 0, 0, 1]), 0, 0, 0⟩

/-- The answer is with the driver. -/
theorem mainloop_askTurn (s : Judger.State) : ∃ l,
    (Loop.start ⟨loopHost, s⟩ 0).mainloop someSetup 0x0a000001 (some fun _ => 0) [askTurn] = .ok l ∧
      (Watch.of l.log).pending = true := by
  obtain ⟨frame, hframe⟩ : ∃ frame, askTurn.received = some (someReadings, frame) := ⟨_, rfl⟩
  have hcounts : askTurn.received.bind (fun r => (idledHost.receive r.2).toOption.map fun h =>
      (h.1.stack.phy.calls.length, h.1.hookCalls.length)) = some (1, 0) := by decide +kernel
  have hcalls : idledHost.stack.phy.calls = [] := by decide +kernel
  rw [hframe, Option.bind_some] at hcounts
  obtain ⟨⟨host, r⟩, hrecv⟩ := exists_receive idledHost frame
  rw [hrecv] at hcounts
  obtain ⟨hlen, hhook⟩ := Prod.mk.inj (Option.some.inj hcounts)
  have hnohook : host.hookCalls = [] := List.eq_nil_of_length_eq_zero hhook
  have hserver : Server.step someSetup 0x0a000001 ⟨idledHost, s⟩ (.frame someReadings frame) = .ok ⟨host, s⟩ := by
    rw [Server.step, bind_of_ok hrecv]
    simp only [hnohook, List.drop_nil]
  have hsent : host.stack.phy.calls ≠ [] := by
    intro hnil
    rw [hnil] at hlen
    cases hlen
  have hrecvd : Loop.recv someSetup 0x0a000001 ⟨⟨idledHost, s⟩, 1, 0, .init, []⟩ askTurn.received =
      .ok ⟨⟨host, s⟩, 1, 0, .init,
        [.received frame] ++ host.stack.phy.calls.map fun call => Action.sent call.frame⟩ := by
    rw [hframe, Loop.recv, Loop.event, Loop.phyRecvPacketHandle, bind_of_ok hserver]
    simp only [Loop.phy, hcalls, List.length_nil, List.drop_zero, List.nil_append]
    exact congrArg Except.ok (congrArg (Loop.mk _ _ _ · _) (ite_self _))
  have hawake : ¬ (Scheduler.mk .idle 0).canSleep 0 = true := by decide
  rw [Loop.mainloop, List.foldlM_cons, step_start s askTurn rfl, bind_of_ok hrecvd]
  refine ⟨_, rfl, ?_⟩
  rw [Loop.idle]
  refine (congrArg (fun l : Loop => (Watch.of l.log).pending) (if_neg hawake)).trans ?_
  show (Watch.of (([.received frame] ++ host.stack.phy.calls.map fun call => Action.sent call.frame) ++
    [.rest 0])).pending = true
  rw [Watch.of_concat, Watch.of_sent _ hsent]
  rfl

/-- Turns without a request go by. -/
theorem Loop.exists_mainloop {c : Setup} {told : Datagram → Prop} {l : Loop} {ts : List Turn}
    (flush : Option (List Action → Int)) (hts : ∀ t ∈ ts, t.request ip mac = none) (hl : l.Good ip mac told) :
    ∃ l', l.mainloop c ip flush ts = .ok l' ∧ ∃ told', l'.Good ip mac told' := by
  obtain ⟨-, hok⟩ := (Loop.servesBy_turn c ip mac flush).run ts hl
  rw [List.filterMap_eq_nil_iff.mpr hts] at hok
  obtain ⟨l', hrun, -, hl'⟩ := hok _ _ rfl
  exact ⟨l', hrun, _, hl'⟩

/-- An answer is flushed within 128 turns. -/
theorem flushed_within_answer : ∃ s l l',
    (Loop.start ⟨loopHost, s⟩ 0).mainloop someSetup 0x0a000001 (some fun _ => 0) [askTurn] = .ok l ∧
    l.mainloop someSetup 0x0a000001 (some fun _ => 0) (List.replicate 128 restTurn) = .ok l' ∧
    ∃ new, l'.log = l.log ++ new ∧ Action.flush 0 ∈ new := by
  obtain ⟨-, s, -⟩ := Judger.exists_small 0
  obtain ⟨l, hrun, hpending⟩ := mainloop_askTurn s
  have hask : ∀ t ∈ [askTurn], t.request 0x0a000001 ⟨2, 0, 0, 0, 0, 1⟩ = none := by
    intro t ht
    rw [List.mem_singleton.mp ht, ← Option.isNone_iff_eq_none]
    decide +kernel
  have hrest : ∀ t ∈ List.replicate 128 restTurn, t.request 0x0a000001 ⟨2, 0, 0, 0, 0, 1⟩ = none := by
    intro t ht
    rw [List.eq_of_mem_replicate ht]
    rfl
  have hgood : (Loop.start ⟨loopHost, s⟩ 0).Good 0x0a000001 ⟨2, 0, 0, 0, 0, 1⟩ fun _ => False :=
    fresh_loopHost.honest
  obtain ⟨l1, hrun1, told, hl1⟩ := Loop.exists_mainloop (c := someSetup) (some fun _ => 0) hask hgood
  cases Except.ok.inj (hrun.symm.trans hrun1)
  obtain ⟨l', hrun', -⟩ := Loop.exists_mainloop (c := someSetup) (some fun _ => 0) hrest hl1
  exact ⟨s, l, l', hrun, hrun', flushed_within someSetup ⟨loopHost, s⟩ 0 [askTurn] _ l l' fresh_loopHost rfl
    answers_zero hrun hpending (by rw [List.length_replicate]) hrun'⟩

end Runs

end JudgeDuck.DuckServer
