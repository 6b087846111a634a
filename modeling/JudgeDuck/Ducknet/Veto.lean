/-
  Frames that the hook of the physical layer refuses.

  `ducknet_phy_send` asks the hook `send_packet_handle` first, and a negative answer is to stop the
  frame.  All the sending functions end in one call of `ducknet_phy_send` whose result they return
  (`run_cases`), so what is returned for a refused frame is what `ducknet_phy_send` returns.  In

      if (send_packet_handle && (r = send_packet_handle(a, len) < 0)) return r;

  the comparison binds stronger than the assignment: `r` is 1.  The driver is left alone, but the
  caller is told that the frame was sent.

  That the driver is not called is said in two ways (`DriverUnused`): the log of the frames it was given
  does not grow, and the call has the same result and the same effects whatever the driver is.
-/
import JudgeDuck.Ducknet.RoundTrip

namespace JudgeDuck.Ducknet

open JudgeDuck.Lib

/-! ## The sending functions -/

/-- A call of one of the functions that send. -/
inductive SendCall where
  | udp (dst : UInt32) (dport sport : UInt16) (payload : Nat → UInt8) (len : Int)
  | ipv4 (dst : UInt32) (protocol : UInt8) (payload : Nat → UInt8) (len : Int)
  | ether (dst : MacAddress) (ethertype : UInt16) (payload : Nat → UInt8) (len : Int)
  | arp (dst : MacAddress) (op : UInt16) (payload : Nat → UInt8) (len : Int)

def SendCall.run (s : Stack) : SendCall → Except Fault (Stack × Int)
  | .udp dst dport sport payload len => udpSend s dst dport sport payload len
  | .ipv4 dst protocol payload len => ipv4Send s dst protocol payload len
  | .ether dst ethertype payload len => .ok (etherSend s dst ethertype payload len)
  | .arp dst op payload len => .ok (arpSend s dst op payload len)

/-- The destination on the link is known. -/
def SendCall.Resolved (s : Stack) : SendCall → Prop
  | .udp dst _ _ _ _ => s.arp.lookup (etherDst s dst) ≠ none
  | .ipv4 dst _ _ _ => s.arp.lookup (etherDst s dst) ≠ none
  | .ether _ _ _ _ => True
  | .arp _ _ _ _ => True

/-- The stack with another driver, or none. -/
def Stack.withDriver (s : Stack) (driver : Option (Nat → List UInt8 → Int)) : Stack :=
  { s with phy := { s.phy with send := driver } }

/-- The call ends in one call of `ducknet_phy_send`, or it is refused before; the driver has no part
    in either. -/
inductive EndsInPhy (s : Stack) (run : Stack → Except Fault (Stack × Int)) : Prop
  | refused : (∀ driver, run (s.withDriver driver) = .ok (s.withDriver driver, -1)) → EndsInPhy s run
  | passed (buf : Nat → UInt8) (len : Int) : (∀ driver, run (s.withDriver driver) =
      .ok (phySend ({ s with sendbuf := buf }.withDriver driver) .sendbuf len)) → EndsInPhy s run

section

variable (s : Stack)

theorem arpSend_cases (dst : MacAddress) (op : UInt16) (payload : Nat → UInt8) (len : Int) :
    EndsInPhy s fun t => .ok (arpSend t dst op payload len) := by
  by_cases hneg : len < 0
  · exact .refused fun driver => congrArg Except.ok (if_pos hneg)
  by_cases hmtu : len + sizeofArpHeader > ducknetMTU
  · exact .refused fun driver => congrArg Except.ok ((if_neg hneg).trans (if_pos hmtu))
  · refine .passed (memcpy (putBytes s.sendbuf 0 (arpHeaders dst s.mac op))
      (sizeofEtherHeader + sizeofArpHeader) payload len.toNat)
      (len + sizeofArpHeader + sizeofEtherHeader) fun driver => ?_
    exact congrArg Except.ok ((if_neg hneg).trans (if_neg hmtu))

theorem etherSend_cases (dst : MacAddress) (ethertype : UInt16) (payload : Nat → UInt8) (len : Int) :
    EndsInPhy s fun t => .ok (etherSend t dst ethertype payload len) := by
  by_cases hneg : len < 0
  · exact .refused fun driver => congrArg Except.ok (if_pos hneg)
  by_cases hmtu : len > ducknetMTU
  · exact .refused fun driver => congrArg Except.ok ((if_neg hneg).trans (if_pos hmtu))
  · refine .passed (memcpy (putBytes s.sendbuf 0 (EtherHeader.bytes ⟨dst, s.mac, htons ethertype⟩))
      sizeofEtherHeader payload len.toNat) (len + sizeofEtherHeader) fun driver => ?_
    exact congrArg Except.ok ((if_neg hneg).trans (if_neg hmtu))

theorem ipv4Send_cases {dst : UInt32} (protocol : UInt8) (payload : Nat → UInt8) (len : Int)
    (hres : s.arp.lookup (etherDst s dst) ≠ none) :
    EndsInPhy s fun t => ipv4Send t dst protocol payload len := by
  obtain ⟨mac, hmac⟩ := Option.ne_none_iff_exists'.mp hres
  have hsend : ∀ driver, ipv4Send (s.withDriver driver) dst protocol payload len =
      .ok (sendResolved (s.withDriver driver) mac dst protocol payload len) := by
    intro driver
    have hmac' : (s.withDriver driver).arp.lookup (etherDst (s.withDriver driver) dst) = some mac :=
      hmac
    rw [ipv4Send, hmac']
  cases hbuild : ipv4BuildPacket s s.sendbuf dst protocol payload len with
  | none =>
    refine .refused fun driver => (hsend driver).trans ?_
    have hbuild' : ipv4BuildPacket (s.withDriver driver) (s.withDriver driver).sendbuf dst protocol
        payload len = none := hbuild
    rw [sendResolved, hbuild']
  | some buf =>
    refine .passed (putBytes buf 0 mac.bytes) (len + sizeofIPv4Header + sizeofEtherHeader)
      fun driver => (hsend driver).trans ?_
    have hbuild' : ipv4BuildPacket (s.withDriver driver) (s.withDriver driver).sendbuf dst protocol
        payload len = some buf := hbuild
    rw [sendResolved, hbuild']
    rfl

/-- **All the sending functions** end in one call of `ducknet_phy_send` and return its result. -/
theorem run_cases (c : SendCall) (hres : c.Resolved s) : EndsInPhy s fun t => c.run t := by
  cases c with
  | udp dst dport sport payload len =>
    by_cases hneg : len < 0
    · exact .refused fun driver => if_pos hneg
    by_cases hmtu : len + sizeofUdpHeader + sizeofIPv4Header > ducknetMTU
    · exact .refused fun driver => (if_neg hneg).trans (if_pos hmtu)
    have hudp : ∀ driver, SendCall.run (s.withDriver driver) (.udp dst dport sport payload len) =
        ipv4Send (s.withDriver driver) dst protocolUdp (fun t =>
          (udpDatagram s.ip dst dport sport (listOf payload len.toNat)).getD t 0)
          (len + sizeofUdpHeader) :=
      fun driver => (if_neg hneg).trans (if_neg hmtu)
    rcases ipv4Send_cases s protocolUdp (fun t =>
      (udpDatagram s.ip dst dport sport (listOf payload len.toNat)).getD t 0)
      (len + sizeofUdpHeader) hres with hrefused | ⟨buf, n, hpassed⟩
    · exact .refused fun driver => (hudp driver).trans (hrefused driver)
    · exact .passed buf n fun driver => (hudp driver).trans (hpassed driver)
  | ipv4 dst protocol payload len => exact ipv4Send_cases s protocol payload len hres
  | ether dst ethertype payload len => exact etherSend_cases s dst ethertype payload len
  | arp dst op payload len => exact arpSend_cases s dst op payload len

end

/-! ## Refused frames -/

/-- The hook answers `< 0` for the frame that the call passes to `ducknet_phy_send`. -/
def Vetoed (s : Stack) (c : SendCall) : Prop :=
  ∃ handle s' r frame, s.phy.sendPacketHandle = some handle ∧ c.run s = .ok (s', r) ∧
    s'.phy.calls = s.phy.calls ++ [⟨.sendbuf, frame⟩] ∧ handle s.phy.calls.length frame < 0

/-- The call gives the driver no frame, and has the same result and the same effects whatever the driver
    is. -/
structure DriverUnused (s : Stack) (c : SendCall) : Prop where
  driven : ∃ s' r, c.run s = .ok (s', r) ∧ s'.phy.driven = s.phy.driven
  same : ∀ driver, c.run (s.withDriver driver) = (c.run s).map fun (s', r) => (s'.withDriver driver, r)

/-- **`ducknet_phy_send` for a frame that the hook refuses**: it is logged here, and that is all. -/
theorem phySend_vetoed {s : Stack} {a : Buffer} {len : Int} {handle : Nat → List UInt8 → Int}
    (hhook : s.phy.sendPacketHandle = some handle)
    (hveto : handle s.phy.calls.length (listOf (s.buffer a) len.toNat) < 0) :
    phySend s a len = ({ s with phy := { s.phy with
      calls := s.phy.calls ++ [⟨a, listOf (s.buffer a) len.toNat⟩] } }, 1) := by
  have htest : (s.phy.sendPacketHandle.map fun handle =>
      decide (handle s.phy.calls.length (listOf (s.buffer a) len.toNat) < 0)) = some true := by
    rw [hhook]
    exact congrArg some (decide_eq_true hveto)
  rw [phySend]
  simp only [Phy.pass, if_pos htest]

/-- **What becomes of a refused frame**: the driver is not called, and the call returns 1. -/
theorem run_vetoed {s : Stack} {c : SendCall} (hres : c.Resolved s) (hveto : Vetoed s c) :
    DriverUnused s c ∧ ∃ s', c.run s = .ok (s', 1) := by
  obtain ⟨handle, s', r, frame, hhook, hrun, hcalls, hneg⟩ := hveto
  have hself : s.withDriver s.phy.send = s := rfl
  rcases run_cases s c hres with hrefused | ⟨buf, len, hpassed⟩
  · -- nothing was passed to the physical layer
    have heq := (hrefused s.phy.send).symm.trans hrun
    obtain ⟨rfl, -⟩ := Prod.mk.inj (Except.ok.inj heq)
    rw [hself] at hcalls
    exact absurd (congrArg List.length hcalls) (by simp)
  · have hlogged : listOf buf len.toNat = frame := by
      obtain ⟨phy, hphy, hlog⟩ := phySend_spec { s with sendbuf := buf } .sendbuf len
      have hs' : (phySend { s with sendbuf := buf } .sendbuf len).1 = s' :=
        congrArg Prod.fst (Except.ok.inj ((hpassed s.phy.send).symm.trans hrun))
      rw [← hs', hphy] at hcalls
      have hone := List.append_cancel_left (hlog.symm.trans hcalls)
      exact (PhyCall.mk.inj (List.singleton_inj.mp hone)).2
    rw [← hlogged] at hneg
    let after : Stack := { s with sendbuf := buf, phy := { s.phy with
      calls := s.phy.calls ++ [⟨.sendbuf, listOf buf len.toNat⟩] } }
    have hresult : ∀ driver, c.run (s.withDriver driver) = .ok (after.withDriver driver, 1) := by
      intro driver
      have hsend : phySend ({ s with sendbuf := buf }.withDriver driver) .sendbuf len =
          (after.withDriver driver, 1) := phySend_vetoed hhook hneg
      rw [hpassed driver, hsend]
    have hown : c.run s = .ok (after.withDriver s.phy.send, 1) := hresult s.phy.send
    refine ⟨⟨⟨_, _, hown, rfl⟩, fun driver => ?_⟩, _, hown⟩
    rw [hresult driver, hown]
    rfl

/-- **A refused frame is reported as sent.**  The driver is never called for it, and the call returns 1;
    so it returns a negative value, as its callers expect, only if the frame is not refused. -/
theorem veto_reported_iff (s : Stack) (c : SendCall) (hres : c.Resolved s) :
    (Vetoed s c → DriverUnused s c ∧ ∃ s', c.run s = .ok (s', 1)) ∧
      ((Vetoed s c → ∃ s' r, c.run s = .ok (s', r) ∧ r < 0) ↔ ¬ Vetoed s c) := by
  refine ⟨fun hveto => run_vetoed hres hveto, fun hclaim hveto => ?_, fun hnot hveto => ?_⟩
  · obtain ⟨s', r, hrun, hneg⟩ := hclaim hveto
    obtain ⟨-, t, hone⟩ := run_vetoed hres hveto
    obtain ⟨-, rfl⟩ := Prod.mk.inj (Except.ok.inj (hrun.symm.trans hone))
    exact absurd hneg (by decide)
  · exact absurd hveto hnot

/-- The stack of `sender` with a hook that refuses every frame, and a driver that sends. -/
def guarded : Stack :=
  { sender with phy := ⟨some fun _ _ => -1, some fun _ _ => 0, true, [], []⟩ }

/-- A datagram of three bytes. -/
def threeBytes : SendCall := .udp 0x0a000002 8000 1234 (fun t => [1, 2, 3].getD t 0) (3 : Nat)

theorem guarded_lookup : guarded.arp.lookup (etherDst guarded 0x0a000002) =
    some ⟨2, 0, 0, 0, 0, 2⟩ := by decide

theorem guarded_resolved : threeBytes.Resolved guarded := by
  intro hnone
  cases guarded_lookup.symm.trans hnone

theorem guarded_vetoed : Vetoed guarded threeBytes := by
  obtain ⟨s', r, hsend, hcalls⟩ := udpSend_calls (fun t => [1, 2, 3].getD t 0) 8000 1234
    (by decide : 3 ≤ 1472) guarded_lookup
  exact ⟨_, s', r, _, rfl, hsend, hcalls, by decide⟩

/-- A datagram of three bytes: the veto is reported and the driver does not get the frame. -/
theorem veto_reported_three : Vetoed guarded threeBytes ∧ DriverUnused guarded threeBytes :=
  ⟨guarded_vetoed, ((veto_reported_iff guarded threeBytes guarded_resolved).1 guarded_vetoed).1⟩

/-- A hook that refuses every frame: `ducknet_udp_send` returns 1, as if the datagram had been sent. -/
theorem udpSend_vetoed : Vetoed guarded threeBytes ∧ ∃ s', udpSend guarded 0x0a000002 8000 1234
    (fun t => [1, 2, 3].getD t 0) (3 : Nat) = .ok (s', 1) :=
  ⟨guarded_vetoed, (run_vetoed guarded_resolved guarded_vetoed).2⟩

end JudgeDuck.Ducknet
