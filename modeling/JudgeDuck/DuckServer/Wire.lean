/-
  The server on the wire: frames come in, frames go out.

  The stack hands a datagram to `udp_packet_handle`, which looks at the addresses and the port and passes the
  content on to `duck_packet_handle`; a reply goes to where the datagram came from.  In the source that
  happens inside the hook of UDP.  The stack returns right after the hook, so here it happens behind
  `Host.receive`, with the call that the hook has got.

  Above it stands `serve`, which knows neither frames nor addresses.  The server refines it (`wire_refines`):
  for any frames whatsoever, it runs as `serve` does on the requests among them (`incoming`), and it stops
  where `serve` stops.  What it sends are the replies of `serve`, each to the sender of its request, apart
  from ARP messages in its own name and echo replies.  A request that another station encodes and sends is
  performed, and nothing else than its reply is sent for it (`request_served`).
-/
import JudgeDuck.Ducknet.Link
import JudgeDuck.DuckServer.Protocol

namespace JudgeDuck.DuckServer

open JudgeDuck.Lib JudgeDuck.Ducknet
open JudgeDuck.Memory (AfterInit Machine)
open JudgeDuck.Judger (State)

/-! ## The server -/

/-- `DUCK_UDP_PORT`. -/
def duckUdpPort : UInt16 := 9999

/-- The stack of the server, and the judger. -/
structure Server where
  host : Host
  state : State

/-- `duck_packet_handle(src, sport, content, content_len)`, with sending; it is not looked at whether the
    reply could be sent. -/
def Server.duckPacket (c : Setup) (e : Readings) (v : Server) (src : UInt32) (sport : UInt16)
    (content : List UInt8) : Except Fault Server := do
  let (state, toSend) ← duckPacketHandle c e content v.state
  match toSend with
  | none => .ok { v with state := state }
  | some toSend => do
    let (stack, _) ← v.host.stack.send ⟨src, sport, duckUdpPort, toSend⟩
    .ok ⟨{ v.host with stack := stack }, state⟩

/-- `udp_packet_handle(src, dst, hdr, content_len)`; `src.a[0]` is the last number of the address. -/
def Server.udpPacket (c : Setup) (myIp : UInt32) (e : Readings) (v : Server) (call : UdpCall) :
    Except Fault Server :=
  if call.src.toUInt8 = 255 then .ok v
  else if call.dst ≠ myIp then .ok v
  else if call.hdr.dport = duckUdpPort then v.duckPacket c e call.src call.hdr.sport call.content
  else .ok v

/-- What happens to the server: it idles, or a frame arrives. -/
inductive WireEvent where
  | idle (now : UInt64)
  | frame (e : Readings) (frame : List UInt8)

/-- One event. -/
def Server.step (c : Setup) (myIp : UInt32) (v : Server) : WireEvent → Except Fault Server
  | .idle now => .ok { v with host := { v.host with stack := v.host.stack.idle now } }
  | .frame e frame => do
    let (host, _) ← v.host.receive frame
    -- the call of the hook, if there was one
    match host.hookCalls.drop v.host.hookCalls.length with
    | .udp call :: _ => Server.udpPacket c myIp e { v with host := host } call
    | _ => .ok { v with host := host }

/-- A run. -/
def Server.run (c : Setup) (myIp : UInt32) (v : Server) (es : List WireEvent) : Except Fault Server :=
  es.foldlM (Server.step c myIp) v

/-! ## The requests among the frames -/

/-- A request as it comes in. -/
structure Incoming where
  readings : Readings
  src : UInt32
  sport : UInt16
  content : List UInt8

/-- The request in a frame that arrives. -/
def incoming (myIp : UInt32) (mac : MacAddress) : WireEvent → Option Incoming
  | .idle _ => none
  | .frame e frame =>
    match udpIn myIp mac frame with
    | none => none
    | some call =>
      if call.src.toUInt8 ≠ 255 ∧ call.dst = myIp ∧ call.hdr.dport = duckUdpPort then
        some ⟨e, call.src, call.hdr.sport, call.content⟩
      else none

/-- A request, for `serve`. -/
def Incoming.datagram (q : Incoming) : Readings × List UInt8 := (q.readings, q.content)

/-- The replies, with their addresses. -/
def replies (qs : List Incoming) (rs : List (Option (List UInt8))) : List Datagram :=
  (qs.zip rs).filterMap fun x => x.2.map fun res => ⟨x.1.src, x.1.sport, duckUdpPort, res⟩

section Steps

variable {c : Setup} {ip : UInt32} {mac : MacAddress} {told : Datagram → Prop} {v : Server}
variable {e : Readings} {frame : List UInt8}

/-- A frame without a datagram for the station. -/
theorem step_of_udpIn_none (hv : v.host.Honest ip mac told) (hnone : udpIn ip mac frame = none) :
    ∃ host, v.step c ip (.frame e frame) = .ok ⟨host, v.state⟩ ∧ host.Honest ip mac told := by
  obtain ⟨⟨host, r⟩, hrecv⟩ := exists_receive v.host frame
  have hcases := receive_cases hv.hooks hrecv
  have hcalls : host.hookCalls = v.host.hookCalls := by
    cases hcases with
    | refused => rfl
    | arp => rfl
    | echo => rfl
    | udp hcall =>
      rw [hv.stack.ip_eq, hv.stack.mac_eq, hnone] at hcall
      cases hcall
  refine ⟨host, ?_, hv.receives hcases⟩
  rw [Server.step, bind_of_ok hrecv]
  simp only [hcalls, List.drop_length]

/-- A frame with one. -/
theorem step_of_udpIn {call : UdpCall} (hv : v.host.Honest ip mac told) (hcall : udpIn ip mac frame = some call) :
    ∃ host, v.step c ip (.frame e frame) = Server.udpPacket c ip e ⟨host, v.state⟩ call ∧
      host.Honest ip mac told ∧ host.stack = v.host.stack := by
  obtain ⟨⟨host, r⟩, hrecv⟩ := exists_receive v.host frame
  have hcases := receive_cases hv.hooks hrecv
  have hudp : host = { v.host with hookCalls := v.host.hookCalls ++ [.udp call] } := by
    rw [← hv.stack.ip_eq, ← hv.stack.mac_eq] at hcall
    cases hcases with
    | refused hnone =>
      rw [hcall] at hnone
      cases hnone
    | arp _ hnone =>
      rw [hcall] at hnone
      cases hnone
    | echo hnone =>
      rw [hcall] at hnone
      cases hnone
    | udp hsome =>
      rw [hcall] at hsome
      cases hsome
      rfl
  have hcalls : host.hookCalls = v.host.hookCalls ++ [.udp call] := congrArg Host.hookCalls hudp
  refine ⟨host, ?_, hv.receives hcases, by rw [hudp]⟩
  rw [Server.step, bind_of_ok hrecv]
  simp only [hcalls, List.drop_left]

/-- **An event without a request**: the judger is not concerned. -/
theorem step_other {x : WireEvent} (hv : v.host.Honest ip mac told) (hnone : incoming ip mac x = none) :
    ∃ host, v.step c ip x = .ok ⟨host, v.state⟩ ∧ host.Honest ip mac told := by
  cases x with
  | idle now => exact ⟨_, rfl, hv.stack.idle now, hv.hooks⟩
  | frame e frame =>
    rw [incoming] at hnone
    cases hcall : udpIn ip mac frame with
    | none => exact step_of_udpIn_none hv hcall
    | some call =>
      obtain ⟨host, hstep, hhost, -⟩ := step_of_udpIn (c := c) (e := e) hv hcall
      refine ⟨host, ?_, hhost⟩
      rw [hcall] at hnone
      rw [hstep, Server.udpPacket]
      simp only at hnone
      split at hnone
      · cases hnone
      · rename_i hnot
        split
        · rfl
        split
        · rfl
        split
        · exact absurd ⟨‹_›, not_not.mp ‹_›, ‹_›⟩ hnot
        · rfl

/-- **A request** is handled as `duck_packet_handle` does, and its reply is sent to where it came from. -/
theorem step_request {x : WireEvent} {q : Incoming} (hv : v.host.Honest ip mac told)
    (hq : incoming ip mac x = some q) :
    (∀ fault, duckPacketHandle c q.readings q.content v.state = .error fault → v.step c ip x = .error fault) ∧
      ∀ state res, duckPacketHandle c q.readings q.content v.state = .ok (state, res) →
        ∃ host, v.step c ip x = .ok ⟨host, state⟩ ∧
          host.Honest ip mac fun d => told d ∨ d ∈ replies [q] [res] := by
  cases x with
  | idle now => cases hq
  | frame e frame =>
    rw [incoming] at hq
    cases hcall : udpIn ip mac frame with
    | none =>
      rw [hcall] at hq
      cases hq
    | some call =>
      rw [hcall] at hq
      simp only at hq
      split at hq
      · rename_i haccepted
        cases hq
        obtain ⟨host, hstep, hhost, -⟩ := step_of_udpIn (c := c) (e := e) hv hcall
        rw [hstep, Server.udpPacket, if_neg haccepted.1, if_neg (not_not.mpr haccepted.2.1),
          if_pos haccepted.2.2, Server.duckPacket]
        refine ⟨fun fault hfault => ?_, fun state res hok => ?_⟩
        · simp only at hfault ⊢
          rw [hfault]
          rfl
        · have hmono := hhost.stack.mono fun d hd => Or.inl (b := d ∈ replies
            [⟨e, call.src, call.hdr.sport, call.content⟩] [res]) hd
          simp only at hok ⊢
          rw [bind_of_ok hok]
          cases res with
          | none => exact ⟨host, rfl, hmono, hhost.hooks⟩
          | some res =>
            obtain ⟨⟨stack, r⟩, hsend⟩ := exists_send host.stack ⟨call.src, call.hdr.sport, duckUdpPort, res⟩
            simp only
            rw [bind_of_ok hsend]
            exact ⟨_, rfl, hmono.send (.inr (List.mem_singleton.mpr rfl)) hsend, hhost.hooks⟩
      · cases hq

end Steps

/-! ## Runs -/

section Runs

variable {c : Setup} {ip : UInt32} {mac : MacAddress} {told : Datagram → Prop} {v : Server}

/-- The requests among the frames of a run. -/
def requests (ip : UInt32) (mac : MacAddress) (es : List WireEvent) : List Incoming :=
  es.filterMap (incoming ip mac)

theorem replies_cons (q : Incoming) (qs : List Incoming) (res : Option (List UInt8))
    (rs : List (Option (List UInt8))) : replies (q :: qs) (res :: rs) = replies [q] [res] ++ replies qs rs := by
  rw [replies, List.zip_cons_cons, ← List.singleton_append, List.filterMap_append]
  rfl

theorem serve_cons_error {s : State} {d : Readings × List UInt8} {fault : Fault}
    (h : duckPacketHandle c d.1 d.2 s = .error fault) (ds : List (Readings × List UInt8)) :
    serve c s (d :: ds) = .error fault := by
  rw [serve, h]
  rfl

theorem serve_cons_of_ok {s s1 : State} {d : Readings × List UInt8} {res : Option (List UInt8)}
    (h : duckPacketHandle c d.1 d.2 s = .ok (s1, res)) (ds : List (Readings × List UInt8)) :
    serve c s (d :: ds) = (serve c s1 ds).map fun r => (r.1, res :: r.2) := by
  rw [serve, bind_of_ok h]
  cases hrest : serve c s1 ds with
  | error fault =>
    simp only [hrest]
    rfl
  | ok r =>
    simp only [hrest]
    rfl

/-- What makes a machine serve: an event is a request, which it handles as `duck_packet_handle` does, or does not
    concern the judger.  `Good` is what holds of the machine when it has been told to send certain datagrams. -/
structure ServesBy {σ α : Type} (c : Setup) (step : σ → α → Except Fault σ) (request : α → Option Incoming)
    (state : σ → State) (Good : (Datagram → Prop) → σ → Prop) : Prop where
  mono : ∀ {told told' s}, (∀ d, told d → told' d) → Good told s → Good told' s
  other : ∀ {told s x}, Good told s → request x = none →
    ∃ s', step s x = .ok s' ∧ state s' = state s ∧ Good told s'
  fault : ∀ {told s x q f}, Good told s → request x = some q →
    duckPacketHandle c q.readings q.content (state s) = .error f → step s x = .error f
  handled : ∀ {told s x q t res}, Good told s → request x = some q →
    duckPacketHandle c q.readings q.content (state s) = .ok (t, res) →
    ∃ s', step s x = .ok s' ∧ state s' = t ∧ Good (fun d => told d ∨ d ∈ replies [q] [res]) s'

/-- **A machine that serves runs as `serve` does.** -/
theorem ServesBy.run {σ α : Type} {step : σ → α → Except Fault σ} {request : α → Option Incoming}
    {state : σ → State} {Good : (Datagram → Prop) → σ → Prop} (h : ServesBy c step request state Good) {s : σ}
    (xs : List α) (hs : Good told s) :
    (∀ fault, serve c (state s) ((xs.filterMap request).map Incoming.datagram) = .error fault →
      xs.foldlM step s = .error fault) ∧
    ∀ t rs, serve c (state s) ((xs.filterMap request).map Incoming.datagram) = .ok (t, rs) →
      ∃ s', xs.foldlM step s = .ok s' ∧ state s' = t ∧
        Good (fun d => told d ∨ d ∈ replies (xs.filterMap request) rs) s' := by
  induction xs generalizing s told with
  | nil =>
    refine ⟨?_, ?_⟩
    · rintro fault ⟨⟩
    · rintro t rs ⟨⟩
      exact ⟨s, rfl, rfl, h.mono (fun d hd => .inl hd) hs⟩
  | cons x xs ih =>
    cases hq : request x with
    | none =>
      obtain ⟨s1, hstep, hstate, hs1⟩ := h.other hs hq
      rw [List.filterMap_cons_none hq, List.foldlM_cons, bind_of_ok hstep, ← hstate]
      exact ih hs1
    | some q =>
      rw [List.filterMap_cons_some hq, List.map_cons, List.foldlM_cons]
      cases hhandle : duckPacketHandle c q.readings q.content (state s) with
      | error fault =>
        rw [h.fault hs hq hhandle, serve_cons_error hhandle]
        refine ⟨?_, ?_⟩
        · rintro fault' ⟨⟩
          rfl
        · rintro t rs ⟨⟩
      | ok r =>
        obtain ⟨t1, res⟩ := r
        obtain ⟨s1, hstep, rfl, hs1⟩ := h.handled hs hq hhandle
        obtain ⟨ihfault, ihok⟩ := ih hs1
        rw [bind_of_ok hstep, serve_cons_of_ok hhandle]
        cases hrest : serve c (state s1) ((xs.filterMap request).map Incoming.datagram) with
        | error fault =>
          refine ⟨?_, ?_⟩
          · rintro fault' ⟨⟩
            exact ihfault fault hrest
          · rintro t rs ⟨⟩
        | ok r =>
          refine ⟨?_, ?_⟩
          · rintro fault' ⟨⟩
          · rintro t rs ⟨⟩
            obtain ⟨s', hrun, hstate, hs'⟩ := ihok r.1 r.2 hrest
            refine ⟨s', hrun, hstate, h.mono ?_ hs'⟩
            intro d hd
            rw [replies_cons, List.mem_append, ← or_assoc]
            exact hd

theorem servesBy_step (c : Setup) (ip : UInt32) (mac : MacAddress) :
    ServesBy c (Server.step c ip) (incoming ip mac) Server.state fun told v => v.host.Honest ip mac told where
  mono := fun ht hv => ⟨hv.stack.mono ht, hv.hooks⟩
  other := by
    intro told v x hv hnone
    obtain ⟨host, hstep, hhost⟩ := step_other (c := c) hv hnone
    exact ⟨_, hstep, rfl, hhost⟩
  fault := fun hv hq hfault => (step_request hv hq).1 _ hfault
  handled := by
    intro told v x q t res hv hq hok
    obtain ⟨host, hstep, hhost⟩ := (step_request hv hq).2 t res hok
    exact ⟨_, hstep, rfl, hhost⟩

/-- **A run**, from any state of the server. -/
theorem run_refines (es : List WireEvent) (hv : v.host.Honest ip mac told) :
    (∀ fault, serve c v.state ((requests ip mac es).map Incoming.datagram) = .error fault →
      v.run c ip es = .error fault) ∧
    ∀ state rs, serve c v.state ((requests ip mac es).map Incoming.datagram) = .ok (state, rs) →
      ∃ host, v.run c ip es = .ok ⟨host, state⟩ ∧
        host.Honest ip mac fun d => told d ∨ d ∈ replies (requests ip mac es) rs := by
  obtain ⟨hfault, hok⟩ := (servesBy_step c ip mac).run es hv
  refine ⟨hfault, ?_⟩
  intro state rs hserve
  obtain ⟨v', hrun, rfl, hv'⟩ := hok state rs hserve
  exact ⟨v'.host, hrun, hv'⟩

theorem honest_of_run {v' : Server} {es : List WireEvent} (hfresh : v.host.Fresh ip mac)
    (hrun : v.run c ip es = .ok v') : ∃ told, v'.host.Honest ip mac told := by
  have hhonest : v.host.Honest ip mac fun _ => False := hfresh.honest
  obtain ⟨hfault, hok⟩ := run_refines (c := c) es hhonest
  cases hserve : serve c v.state ((requests ip mac es).map Incoming.datagram) with
  | error fault =>
    rw [hfault fault hserve] at hrun
    cases hrun
  | ok r =>
    obtain ⟨host, hrun', hhost⟩ := hok r.1 r.2 hserve
    rw [hrun] at hrun'
    cases hrun'
    exact ⟨_, hhost⟩

/-- **A request that a station sends is performed**, in any state that the server can reach: the frame of its
    encoding lets the server do what the request means, and nothing but the reply is sent. -/
theorem request_served (c : Setup) (v0 v : Server) (es : List WireEvent) (hfresh : v0.host.Fresh ip mac)
    (hrun : v0.run c ip es = .ok v) (r : Request) (e : Readings) (client : UInt32) (clientMac : MacAddress)
    (sport : UInt16) (padding : List UInt8) (hclient : client.toUInt8 ≠ 255) (hlen : r.encode.length ≤ 1472) :
    let event := WireEvent.frame e (mac.bytes ++ packetOf client clientMac ip protocolUdp
      (udpDatagram client ip duckUdpPort sport r.encode) ++ padding)
    (∀ fault, r.perform c e v.state = .error fault → v.step c ip event = .error fault) ∧
      ∀ state x, r.perform c e v.state = .ok (state, x) → ∃ host, v.step c ip event = .ok ⟨host, state⟩ ∧
        match x.sent with
        | none => host.stack = v.host.stack
        | some res => ∃ ret, v.host.stack.send ⟨client, sport, duckUdpPort, res⟩ = .ok (host.stack, ret) := by
  obtain ⟨told, hhonest⟩ := honest_of_run hfresh hrun
  have hcall : udpIn ip mac (mac.bytes ++ packetOf client clientMac ip protocolUdp
      (udpDatagram client ip duckUdpPort sport r.encode) ++ padding) =
      some ⟨client, ip, udpHton (udpHeader client ip duckUdpPort sport r.encode), r.encode⟩ := by
    rw [udpIn_datagram (d := ⟨ip, duckUdpPort, sport, r.encode⟩) hlen rfl]
    exact if_pos ⟨.inl rfl, .inr rfl⟩
  obtain ⟨host, hstep, -, hstack⟩ := step_of_udpIn (c := c) (e := e) hhonest hcall
  have hports := udpHton_udpHeader client ip duckUdpPort sport r.encode
  intro event
  have hserved : v.step c ip event = Server.duckPacket c e ⟨host, v.state⟩ client sport r.encode := by
    rw [hstep, Server.udpPacket, if_neg hclient, if_neg (not_not.mpr rfl), if_pos (by rw [hports])]
    simp only [hports]
  rw [hserved, Server.duckPacket]
  simp only [duckPacketHandle_encode]
  refine ⟨fun fault hfault => ?_, fun state x hok => ?_⟩
  · rw [hfault]
    rfl
  · have hreply : (r.perform c e v.state).map (fun x => (x.1, x.2.sent)) = .ok (state, x.sent) := by
      rw [hok]
      rfl
    rw [bind_of_ok hreply]
    cases hsent : x.sent with
    | none => exact ⟨host, rfl, hstack⟩
    | some res =>
      obtain ⟨⟨stack, ret⟩, hsend⟩ := exists_send host.stack ⟨client, sport, duckUdpPort, res⟩
      refine ⟨{ host with stack := stack }, ?_, ret, ?_⟩
      · simp only
        rw [bind_of_ok hsend]
      · rw [← hstack]
        exact hsend

/-- `uptime`, from 10.0.0.2. -/
def uptimeFrame : List UInt8 :=
  MacAddress.bytes ⟨2, 0, 0, 0, 0, 1⟩ ++ packetOf 0x0a000002 ⟨2, 0, 0, 0, 0, 2⟩ 0x0a000001 protocolUdp
    (udpDatagram 0x0a000002 0x0a000001 duckUdpPort 1234 (text "uptime"))

/-- An `uptime` request with two bytes of padding, as the card delivers short frames. -/
theorem request_served_uptime : ∃ s host,
    Server.step someSetup 0x0a000001 ⟨freshHost, s⟩ (.frame someReadings (uptimeFrame ++ [0, 0])) =
      .ok ⟨host, s⟩ ∧
    ∃ ret, freshHost.stack.send ⟨0x0a000002, 1234, duckUdpPort, text "uptime 0"⟩ = .ok (host.stack, ret) := by
  obtain ⟨-, s, -⟩ := Judger.exists_small 0
  obtain ⟨host, hstep, hsend⟩ := (request_served someSetup ⟨freshHost, s⟩ ⟨freshHost, s⟩ [] fresh_freshHost rfl
    .uptime someReadings 0x0a000002 ⟨2, 0, 0, 0, 0, 2⟩ 1234 [0, 0] (by decide) (by decide)).2 s
    (.reply (text "uptime 0")) rfl
  exact ⟨s, host, hstep, hsend⟩

/-- **The server refines `serve`**: whatever frames arrive, it stops where `serve` stops on the requests among
    them, and otherwise it ends in the same state and has sent the replies of `serve`, each to where the request
    came from, ARP messages in its own name, and echo replies. -/
theorem wire_refines (c : Setup) (v : Server) (es : List WireEvent) (hfresh : v.host.Fresh ip mac) :
    (∀ fault, serve c v.state ((requests ip mac es).map Incoming.datagram) = .error fault →
      v.run c ip es = .error fault) ∧
    ∀ state rs, serve c v.state ((requests ip mac es).map Incoming.datagram) = .ok (state, rs) →
      ∃ host, v.run c ip es = .ok ⟨host, state⟩ ∧ ∀ call ∈ host.stack.phy.calls,
        HonestFrame ip mac (fun d => d ∈ replies (requests ip mac es) rs) call.frame := by
  have hhonest : v.host.Honest ip mac fun _ => False := hfresh.honest
  obtain ⟨hfault, hok⟩ := run_refines (c := c) es hhonest
  refine ⟨hfault, ?_⟩
  intro state rs hserve
  obtain ⟨host, hrun, hhost⟩ := hok state rs hserve
  refine ⟨host, hrun, ?_⟩
  intro call hcall
  refine (hhost.stack.calls call hcall).mono ?_
  rintro d (hd | hd)
  · exact hd.elim
  · exact hd

/-- The request comes in, between a frame that is none and idling. -/
def uptimeRun : List WireEvent := [.frame someReadings [1, 2, 3], .frame someReadings uptimeFrame, .idle 5]

theorem incoming_uptimeFrame : incoming 0x0a000001 ⟨2, 0, 0, 0, 0, 1⟩ (.frame someReadings uptimeFrame) =
    some ⟨someReadings, 0x0a000002, 1234, text "uptime"⟩ := by
  have hudp : (udpIn 0x0a000001 ⟨2, 0, 0, 0, 0, 1⟩ uptimeFrame).map
      (fun call => (call.src, call.dst, call.hdr.dport, call.hdr.sport, call.content)) =
      some (0x0a000002, 0x0a000001, duckUdpPort, 1234, text "uptime") := by decide +kernel
  obtain ⟨call, hcall, hfields⟩ := Option.map_eq_some_iff.mp hudp
  simp only [Prod.mk.injEq] at hfields
  obtain ⟨hsrc, hdst, hdport, hsport, hcontent⟩ := hfields
  rw [incoming, hcall]
  simp only [hsrc, hdst, hdport, hsport, hcontent]
  rfl

theorem requests_uptimeRun : requests 0x0a000001 ⟨2, 0, 0, 0, 0, 1⟩ uptimeRun =
    [⟨someReadings, 0x0a000002, 1234, text "uptime"⟩] := by
  have hshort : incoming 0x0a000001 ⟨2, 0, 0, 0, 0, 1⟩ (.frame someReadings [1, 2, 3]) = none := rfl
  rw [requests, uptimeRun, List.filterMap_cons_none hshort, List.filterMap_cons_some incoming_uptimeFrame]
  rfl

theorem wire_refines_uptime : ∃ s host,
    Server.run someSetup 0x0a000001 ⟨freshHost, s⟩ uptimeRun = .ok ⟨host, s⟩ ∧
      ∀ call ∈ host.stack.phy.calls, HonestFrame 0x0a000001 ⟨2, 0, 0, 0, 0, 1⟩
        (fun d => d ∈ [(⟨0x0a000002, 1234, duckUdpPort, text "uptime 0"⟩ : Datagram)]) call.frame := by
  obtain ⟨-, s, -⟩ := Judger.exists_small 0
  have hrefines := (wire_refines someSetup ⟨freshHost, s⟩ uptimeRun fresh_freshHost).2 s
    [some (text "uptime 0")]
  rw [requests_uptimeRun] at hrefines
  obtain ⟨host, hrun, hframes⟩ := hrefines rfl
  exact ⟨s, host, hrun, hframes⟩

/-- **Frames cannot stop the server**, unless a request among them is `reboot` or begins as a cache request
    does. -/
theorem server_survives (c : Setup) (m0 : Machine) (rawElf rawData : DuckCache.Cache) (v : Server)
    (es : List WireEvent) (hinit : AfterInit m0) (hjudger : Judger.init rawElf rawData m0 = .ok v.state)
    (hfresh : v.host.Fresh ip mac)
    (hes : ∀ q ∈ requests ip mac es, q.content ≠ text "reboot" ∧ ¬ text "load-cache" <+: q.content ∧
      ¬ text "store-cache" <+: q.content) : ∃ v', v.run c ip es = .ok v' := by
  have hds : ∀ d ∈ (requests ip mac es).map Incoming.datagram,
      d.2 ≠ text "reboot" ∧ ¬ text "load-cache" <+: d.2 ∧ ¬ text "store-cache" <+: d.2 := by
    intro d hd
    obtain ⟨q, hq, rfl⟩ := List.mem_map.mp hd
    exact hes q hq
  obtain ⟨state, rs, hserve⟩ := exists_serve c m0 rawElf rawData v.state _ hinit hjudger hds
  have hhonest : v.host.Honest ip mac fun _ => False := hfresh.honest
  obtain ⟨host, hrun, -⟩ := (run_refines (c := c) es hhonest).2 state rs hserve
  exact ⟨_, hrun⟩

/-- A server after `init` survives it. -/
theorem server_survives_uptime : ∃ m0 s0, AfterInit m0 ∧
    Judger.init DuckCache.zeros DuckCache.zeros m0 = .ok s0 ∧
    ∃ v, Server.run someSetup 0x0a000001 ⟨freshHost, s0⟩ uptimeRun = .ok v := by
  obtain ⟨m0, s0, hinit, hjudger, -⟩ := Judger.exists_small 0
  refine ⟨m0, s0, hinit, hjudger, server_survives someSetup m0 _ _ ⟨freshHost, s0⟩ uptimeRun hinit hjudger
    fresh_freshHost ?_⟩
  rw [requests_uptimeRun]
  intro q hq
  cases List.mem_singleton.mp hq
  decide

end Runs

end JudgeDuck.DuckServer
