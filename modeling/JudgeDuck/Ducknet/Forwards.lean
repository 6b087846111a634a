/-
  What the operations of the stack do to the physical layer (`ducknet/lib/phy.cpp`).

  The layer notes in `flushed` that a frame was passed to the driver.  Each operation sends nothing and leaves
  the variable alone, or it sends and clears it (`Phy.Forwards`).  That needs a hook that refuses no frame: for
  one that is refused, nothing is noted.
-/
import JudgeDuck.Ducknet.Station

namespace JudgeDuck.Ducknet

open JudgeDuck.Lib

/-! ## What sending does to the physical layer -/

/-- The hook of the physical layer refuses no frame. -/
def Phy.Open (p : Phy) : Prop := ∀ handle, p.sendPacketHandle = some handle → ∀ k frame, 0 ≤ handle k frame

/-- Nothing was sent, or frames were and the layer knows it. -/
def Phy.Forwards (p q : Phy) : Prop :=
  p.Open → q.Open ∧ ((q.calls.length = p.calls.length ∧ q.flushed = p.flushed) ∨
    (p.calls.length < q.calls.length ∧ q.flushed = false))

section Forwards

variable {p q r : Phy} {s : Stack}

theorem Phy.Forwards.refl (p : Phy) : p.Forwards p := fun h => ⟨h, .inl ⟨rfl, rfl⟩⟩

theorem Phy.Forwards.of_eq (h : q = p) : p.Forwards q := h ▸ .refl q

theorem Phy.Forwards.trans (h : p.Forwards q) (h' : q.Forwards r) : p.Forwards r := by
  intro hp
  obtain ⟨hq, hcases⟩ := h hp
  obtain ⟨hr, hcases'⟩ := h' hq
  refine ⟨hr, ?_⟩
  rcases hcases with ⟨hlen, hflushed⟩ | ⟨hlen, hflushed⟩ <;>
    rcases hcases' with ⟨hlen', hflushed'⟩ | ⟨hlen', hflushed'⟩
  · exact .inl ⟨hlen'.trans hlen, hflushed'.trans hflushed⟩
  · exact .inr ⟨by omega, hflushed'⟩
  · exact .inr ⟨by omega, hflushed'.trans hflushed⟩
  · exact .inr ⟨by omega, hflushed'⟩

/-- A frame that is passed to the driver. -/
theorem forwards_phySend (hs : s.phy = p) (a : Buffer) (len : Int) : p.Forwards (phySend s a len).1.phy := by
  subst hs
  intro hopen
  have hpasses : ¬ (s.phy.sendPacketHandle.map fun handle =>
      decide (handle s.phy.calls.length (listOf (s.buffer a) len.toNat) < 0)) = some true := by
    intro hrefused
    obtain ⟨handle, hhandle, hneg⟩ := Option.map_eq_some_iff.mp hrefused
    have hnonneg := hopen handle hhandle s.phy.calls.length (listOf (s.buffer a) len.toNat)
    exact absurd (of_decide_eq_true hneg) (Int.not_lt.mpr hnonneg)
  rw [phySend, Phy.pass]
  simp only
  rw [if_neg hpasses]
  have hlonger : s.phy.calls.length < (s.phy.calls ++ [PhyCall.mk a (listOf (s.buffer a) len.toNat)]).length := by
    rw [List.length_append]
    exact Nat.lt_succ_self _
  -- with or without a driver
  cases s.phy.send with
  | some send => exact ⟨hopen, .inr ⟨hlonger, rfl⟩⟩
  | none => exact ⟨hopen, .inr ⟨hlonger, rfl⟩⟩

theorem forwards_arpSend (hs : s.phy = p) (dst : MacAddress) (op : UInt16) (payload : Nat → UInt8) (len : Int) :
    p.Forwards (arpSend s dst op payload len).1.phy := by
  rw [arpSend]
  split
  · exact .of_eq hs
  split
  · exact .of_eq hs
  · exact forwards_phySend (by exact hs) _ _

theorem forwards_arpQuery (s : Stack) (ip : UInt32) : s.phy.Forwards (arpQuery s ip).1.phy := by
  rw [arpQuery]
  simp only
  split
  · split
    · exact .refl _
    · exact forwards_arpSend (by rfl) _ _ _ _
  · exact .refl _

theorem forwards_ipv4Send {dst : UInt32} {protocol : UInt8} {payload : Nat → UInt8} {len : Int} {t : Stack × Int}
    (h : ipv4Send s dst protocol payload len = .ok t) : s.phy.Forwards t.1.phy := by
  rw [ipv4Send] at h
  split at h
  · cases h
    rw [sendResolved]
    split
    · exact .refl _
    · exact forwards_phySend (by rfl) _ _
  · -- the query goes out, and the packet waits
    refine (forwards_arpQuery s (etherDst s dst)).trans ?_
    rw [sendPending] at h
    obtain ⟨slot, -, h⟩ := bind_ok h
    cases slot with
    | none =>
      cases h
      exact .refl _
    | some id =>
      cases h
      rw [enqueue]
      split <;> exact .refl _

theorem forwards_send {d : Datagram} {t : Stack × Int} (h : s.send d = .ok t) : s.phy.Forwards t.1.phy := by
  rw [Stack.send, udpSend] at h
  split at h
  · cases h
    exact .refl _
  split at h
  · cases h
    exact .refl _
  · exact forwards_ipv4Send h

theorem forwards_sweepSlot (i : Nat) (s : Stack) : s.phy.Forwards (sweepSlot i s).phy := by
  rw [sweepSlot]
  split
  · exact .refl _
  split
  · exact .refl _
  split
  · exact forwards_phySend (by rfl) _ _
  · exact forwards_arpQuery _ _

theorem forwards_idle (s : Stack) (now : UInt64) : s.phy.Forwards (s.idle now).phy := by
  rw [Stack.idle, ipv4Idle]
  split
  · exact .refl _
  · refine forUp_inv (fun _ t => s.phy.Forwards t.phy) ?_ fun i _ t ht => ht.trans (forwards_sweepSlot i t)
    exact .of_eq rfl

theorem forwards_receive {h h' : Host} {frame : List UInt8} {r : Int} (hhooks : h.hooks = serverHooks)
    (hrecv : h.receive frame = .ok (h', r)) : h.stack.phy.Forwards h'.stack.phy ∧ h'.hooks = serverHooks := by
  cases receive_cases hhooks hrecv with
  | refused => exact ⟨.refl _, hhooks⟩
  | arp op =>
    refine ⟨?_, hhooks⟩
    show h.stack.phy.Forwards (arpMessage ..).1.phy
    rw [arpMessage]
    simp only
    repeat' split
    all_goals first | exact .refl _ | exact forwards_arpSend (by rfl) _ _ _ _
  | echo _ _ _ hsend => exact ⟨forwards_ipv4Send hsend, hhooks⟩
  | udp => exact ⟨.refl _, hhooks⟩

end Forwards

end JudgeDuck.Ducknet
