/-
  Received frames are delivered in order, and none is lost, repeated or overwritten.

  Frames are counted without wrapping: the card has stored the frames up to the one it fills next,
  `receive` has returned a number of them, and what is between is the window of the ring.  The tail
  register is behind the software: it names the last descriptor whose index was a multiple of 128.
  Read as a count (`RxInv`, the argument `limit`), it is never more than 255 ahead of what was
  returned, so the card stops before it meets a frame that is still to be returned.
-/
import JudgeDuck.E1000.Model
import JudgeDuck.Lib.Ring

namespace JudgeDuck.E1000

open JudgeDuck.Lib

/-- The bytes in the buffer of a descriptor, as `receive` finds them. -/
def Rx.frame (s : Rx) (i : Nat) : List UInt8 :=
  listOf (fun t => s.mem (s.rqAddrs i + t)) (s.rq i).length.toNat

/-- The ring and the log.  `limit` is the tail register as a count of frames. -/
structure RxInv (lay : Layout) (w : RxWorld) (limit : Nat) : Prop where
  rqAddrs : ∀ i, i < 256 → w.rx.rqAddrs i = lay.rqPages + 2048 * i
  addr : ∀ i, i < 256 → (w.rx.rq i).addr = lay.rqPages + 2048 * i
  rdt : w.rx.rdt = (w.returned.length + 255) % 256
  regRDH : w.rx.regRDH = w.accepted.length % 256
  regRDT : w.rx.regRDT = limit % 256
  returned_le : w.returned.length ≤ w.accepted.length
  accepted_le : w.accepted.length ≤ limit
  limit_le : limit ≤ w.returned.length + 255
  /-- The "done" bit marks the frames that are still to be returned. -/
  status : ∀ k, w.returned.length ≤ k → k < w.returned.length + 256 →
    ((w.rx.rq (k % 256)).status &&& 1 ≠ 0 ↔ k < w.accepted.length)
  length : ∀ k, w.returned.length ≤ k → k < w.accepted.length →
    (w.rx.rq (k % 256)).length.toNat ≤ 2048
  slots : w.accepted.map Prod.fst = (List.range w.accepted.length).map (· % 256)
  log : w.accepted.map Prod.snd =
    w.returned ++ Ring.window w.rx.frame 256 w.returned.length w.accepted.length

/-! ## Setting up -/

theorem rqPage_half (lay : Layout) (i : Nat) :
    lay.rqPage (i / 2) + i % 2 * pageSize / 2 = lay.rqPages + 2048 * i := by
  simp only [Layout.rqPage, pageSize]
  omega

theorem initRx_inv (lay : Layout) (mem : Nat → UInt8) :
    RxInv lay ⟨initRx lay (Rx.bss mem), [], []⟩ 255 := by
  have hle : lay.rqPages + 128 * 4096 ≤ 2 ^ 24 := lay.rqPages_le
  -- the loop sets the addresses and leaves the status bits at zero
  have hloop := forUp_inv (f := initRxSlot lay) (s := Rx.bss mem) (n := rqSize)
    (fun n s => (∀ i, i < n → i < 256 → s.rqAddrs i = lay.rqPages + 2048 * i ∧
      (s.rq i).addr = lay.rqPages + 2048 * i) ∧ ∀ i, (s.rq i).status = 0)
    ⟨fun i hi => absurd hi (Nat.not_lt_zero i), fun _ => rfl⟩ ?_
  · unfold initRx
    generalize forUp (initRxSlot lay) rqSize (Rx.bss mem) = s at hloop ⊢
    obtain ⟨haddr, hstatus⟩ := hloop
    constructor
    case rqAddrs => exact fun i hi => (haddr i hi hi).1
    case addr => exact fun i hi => (haddr i hi hi).2
    case status =>
      intro k _ _
      simp [hstatus]
    case length => exact fun k _ hk => absurd hk (Nat.not_lt_zero k)
    all_goals simp [rqSize, pageSize, sizeofDesc]
  · rintro n _ s ⟨haddr, hstatus⟩
    refine ⟨fun i hi hi' => ?_, fun i => ?_⟩
    · by_cases hin : i = n
      · subst hin
        simp only [initRxSlot, Function.update_self, rqPage_half, true_and]
        exact Nat.mod_eq_of_lt (by omega)
      · simp only [initRxSlot, Function.update_of_ne hin]
        exact haddr i (by omega) hi'
    · by_cases hin : i = n
      · subst hin
        simp only [initRxSlot, Function.update_self]
        exact hstatus i
      · simp only [initRxSlot, Function.update_of_ne hin]
        exact hstatus i

/-! ## The card -/

section

variable {lay : Layout} {w : RxWorld} {limit : Nat}

theorem RxInv.regRDH_lt (h : RxInv lay w limit) : w.rx.regRDH < 256 := by
  rw [h.regRDH]
  exact Nat.mod_lt _ (by decide)

theorem Frame.toNat_length (f : Frame) : (UInt16.ofNat f.data.length).toNat = f.data.length := by
  have hle := f.le
  rw [UInt16.toNat_ofNat']
  exact Nat.mod_eq_of_lt (by omega)

/-- Filling a descriptor changes what is found there, and nothing else. -/
theorem frame_fill (f : Frame) (h : RxInv lay w limit) (hne : w.rx.regRDH ≠ w.rx.regRDT) {i : Nat}
    (hi : i < 256) :
    (i = w.rx.regRDH → (fill w.rx f).frame i = f.data) ∧
      (i ≠ w.rx.regRDH → (w.rx.rq i).length.toNat ≤ 2048 →
        (fill w.rx f).frame i = w.rx.frame i) := by
  have hlt := h.regRDH_lt
  simp only [Rx.frame, fill, if_neg hne]
  constructor
  · rintro rfl
    rw [Function.update_self, f.toNat_length, h.rqAddrs _ hlt, h.addr _ hlt, listOf_memcpy,
      listOf_getD]
  · intro hi' hshort
    have hle := f.le
    rw [Function.update_of_ne hi', h.rqAddrs _ hi, h.addr _ hlt]
    refine listOf_congr fun t ht => if_neg ?_
    omega

/-- **The card stores a frame**. -/
theorem fill_inv (f : Frame) (h : RxInv lay w limit) (hne : w.rx.regRDH ≠ w.rx.regRDT) :
    RxInv lay (stepRx w (.fill f)) limit := by
  have hret := h.returned_le
  have hacc := h.accepted_le
  have hlim := h.limit_le
  have hlt : w.accepted.length < limit := by
    rw [h.regRDH, h.regRDT] at hne
    rcases Nat.lt_or_eq_of_le hacc with hlt | heq
    · exact hlt
    · exact absurd (by rw [heq]) hne
  have hslot : ∀ k, w.returned.length ≤ k → k < w.accepted.length → k % 256 ≠ w.rx.regRDH := by
    intro k h1 h2
    rw [h.regRDH]
    omega
  simp only [stepRx, if_neg hne]
  constructor
  case rqAddrs =>
    intro i hi
    simp only [fill, if_neg hne]
    exact h.rqAddrs i hi
  case addr =>
    intro i hi
    simp only [fill, if_neg hne]
    by_cases hin : i = w.rx.regRDH
    · rw [hin, Function.update_self]
      exact h.addr _ h.regRDH_lt
    · rw [Function.update_of_ne hin]
      exact h.addr i hi
  case rdt => simpa only [fill, if_neg hne] using h.rdt
  case regRDH =>
    simp only [fill, if_neg hne, List.length_append, List.length_singleton]
    rw [h.regRDH]
    exact Nat.mod_add_mod _ _ _
  case regRDT => simpa only [fill, if_neg hne] using h.regRDT
  case returned_le =>
    rw [List.length_append]
    exact Nat.le_add_right_of_le hret
  case accepted_le =>
    rw [List.length_append]
    exact hlt
  case limit_le => exact hlim
  case status =>
    intro k h1 h2
    simp only [fill, if_neg hne, List.length_append, List.length_singleton] at h1 h2 ⊢
    by_cases hk : k = w.accepted.length
    · rw [hk, ← h.regRDH, Function.update_self]
      exact ⟨fun _ => Nat.lt_succ_self _, fun _ => f.done⟩
    · have hne' : k % 256 ≠ w.rx.regRDH := by
        rw [h.regRDH]
        omega
      rw [Function.update_of_ne hne', h.status k h1 h2]
      omega
  case length =>
    intro k h1 h2
    simp only [fill, if_neg hne, List.length_append, List.length_singleton] at h1 h2 ⊢
    by_cases hk : k = w.accepted.length
    · rw [hk, ← h.regRDH, Function.update_self, f.toNat_length]
      exact f.le
    · rw [Function.update_of_ne (hslot k h1 (by omega))]
      exact h.length k h1 (by omega)
  case slots =>
    simp only [List.map_append, List.map_cons, List.map_nil, List.length_append,
      List.length_singleton, List.range_succ]
    rw [h.slots, h.regRDH]
  case log =>
    simp only [List.map_append, List.map_cons, List.map_nil, List.length_append,
      List.length_singleton]
    rw [h.log, Ring.window_succ hret, List.append_assoc, Ring.window_congr fun k h1 h2 =>
      ((frame_fill f h hne (Nat.mod_lt k (by decide))).2 (hslot k h1 h2) (h.length k h1 h2)).symm,
      (frame_fill f h hne (Nat.mod_lt _ (by decide))).1 h.regRDH.symm]

/-! ## The driver -/

/-- The state after the frame at `idx` was returned, with the given tail. -/
def Rx.take (s : Rx) (idx regRDT rdtReal : Nat) : Rx :=
  { s with
    rq := Function.update s.rq idx { s.rq idx with status := (s.rq idx).status &&& ~~~ 1 }
    rdt := idx, regRDT := regRDT, rdtReal := rdtReal }

/-- `receive` when the next descriptor is done: its frame is returned, its "done" bit is cleared, and
    the tail register is written when the index is a multiple of 128. -/
theorem receive_done {s : Rx} {idx : Nat} (bufpage : Nat → UInt8) (hidx : (s.rdt + 1) % rqSize = idx)
    (hdone : ¬ (s.rq idx).status &&& 1 = 0) (hshort : (s.rq idx).length.toNat ≤ 2048) :
    (receive s bufpage).1 =
        (if idx % 128 = 0 then s.take idx idx idx else s.take idx s.regRDT s.rdtReal) ∧
      (receive s bufpage).2.2 = (s.rq idx).length.toNat ∧
      listOf (receive s bufpage).2.1 (s.rq idx).length.toNat = s.frame idx := by
  have hclamp : ¬ ((s.rq idx).length.toNat : Int) > (pageSize / 2 : Nat) := by
    show ¬ _ > ((2048 : Nat) : Int)
    omega
  simp only [receive, hidx, if_neg hdone, if_neg hclamp, Int.toNat_natCast]
  rw [if_neg (by omega)]
  refine ⟨rfl, rfl, listOf_congr fun i hi => ?_⟩
  simp only [memcpy_zero, if_pos hi]

/-- The next descriptor is done when there is a frame. -/
theorem receive_eq (bufpage : Nat → UInt8) (h : RxInv lay w limit)
    (hlt : w.returned.length < w.accepted.length) :
    let idx := w.returned.length % 256
    (receive w.rx bufpage).1 =
        (if idx % 128 = 0 then w.rx.take idx idx idx
        else w.rx.take idx w.rx.regRDT w.rx.rdtReal) ∧
      (receive w.rx bufpage).2.2 = (w.rx.rq idx).length.toNat ∧
      listOf (receive w.rx bufpage).2.1 (w.rx.rq idx).length.toNat = w.rx.frame idx := by
  intro idx
  have hidx : (w.rx.rdt + 1) % rqSize = idx := by
    rw [h.rdt]
    show ((w.returned.length + 255) % 256 + 1) % 256 = w.returned.length % 256
    omega
  have hdone : ¬ (w.rx.rq idx).status &&& 1 = 0 :=
    (h.status _ (Nat.le_refl _) (by omega)).mpr hlt
  exact receive_done bufpage hidx hdone (h.length _ (Nat.le_refl _) hlt)

theorem frame_take (s : Rx) (idx regRDT rdtReal : Nat) :
    (s.take idx regRDT rdtReal).frame = s.frame := by
  funext i
  by_cases hi : i = idx
  · subst hi
    simp only [Rx.frame, Rx.take, Function.update_self]
  · simp only [Rx.frame, Rx.take, Function.update_of_ne hi]

/-- The frame is off the ring, and the tail stands for `limit'`. -/
theorem take_inv {limit' regRDT : Nat} (rdtReal : Nat) (h : RxInv lay w limit)
    (hlt : w.returned.length < w.accepted.length) (hreg : regRDT = limit' % 256)
    (hacc : w.accepted.length ≤ limit') (hlim : limit' ≤ w.returned.length + 256) :
    RxInv lay ⟨w.rx.take (w.returned.length % 256) regRDT rdtReal, w.accepted,
      w.returned ++ [w.rx.frame (w.returned.length % 256)]⟩ limit' := by
  have hacc' := h.accepted_le
  have hlim' := h.limit_le
  have hcleared (x : UInt8) : x &&& ~~~ 1 &&& 1 = 0 := by
    rw [UInt8.and_assoc, show ~~~ (1 : UInt8) &&& 1 = 0 by decide, UInt8.and_zero]
  constructor
  case rqAddrs => exact h.rqAddrs
  case addr =>
    intro i hi
    rw [← h.addr i hi]
    by_cases hin : i = w.returned.length % 256
    · subst hin
      simp only [Rx.take, Function.update_self]
    · simp only [Rx.take, Function.update_of_ne hin]
  case rdt =>
    simp only [Rx.take, List.length_append, List.length_singleton]
    omega
  case regRDH => exact h.regRDH
  case regRDT => exact hreg
  case returned_le =>
    rw [List.length_append]
    exact hlt
  case accepted_le => exact hacc
  case limit_le =>
    simp only [List.length_append, List.length_singleton]
    omega
  case status =>
    intro k h1 h2
    simp only [Rx.take, List.length_append, List.length_singleton] at h1 h2 ⊢
    by_cases hk : k % 256 = w.returned.length % 256
    · rw [hk, Function.update_self, hcleared]
      simp only [ne_eq, not_true_eq_false, false_iff]
      omega
    · rw [Function.update_of_ne hk]
      exact h.status k (by omega) (by omega)
  case length =>
    intro k h1 h2
    simp only [Rx.take, List.length_append, List.length_singleton] at h1 h2 ⊢
    rw [Function.update_of_ne (show k % 256 ≠ w.returned.length % 256 by omega)]
    exact h.length k (by omega) h2
  case slots => exact h.slots
  case log =>
    simp only [frame_take, List.length_append, List.length_singleton]
    rw [h.log, Ring.window_pop hlt, List.append_assoc]
    rfl

/-- **`receive`** returns the next frame, and -1 only when there is none. -/
theorem receive_inv (bufpage : Nat → UInt8) (h : RxInv lay w limit) :
    (w.returned.length = w.accepted.length ∧ (receive w.rx bufpage).2.2 = -1 ∧
      stepRx w (.receive bufpage) = w) ∨
    ((receive w.rx bufpage).2.2 ≠ -1 ∧ ∃ limit', RxInv lay (stepRx w (.receive bufpage)) limit') := by
  have hret := h.returned_le
  have hacc := h.accepted_le
  have hlim := h.limit_le
  rcases Nat.eq_or_lt_of_le hret with heq | hlt
  · left
    have hidx : (w.rx.rdt + 1) % rqSize = w.returned.length % 256 := by
      rw [h.rdt]
      show ((w.returned.length + 255) % 256 + 1) % 256 = w.returned.length % 256
      omega
    have hdone : (w.rx.rq (w.returned.length % 256)).status &&& 1 = 0 := by
      by_contra hdone
      have := (h.status _ (Nat.le_refl _) (by omega)).mp hdone
      omega
    have hfail : receive w.rx bufpage = (w.rx, bufpage, -1) := by
      simp only [receive, hidx, if_pos hdone]
    simp only [stepRx, hfail, if_true, and_true]
    exact heq
  · right
    obtain ⟨hrx, hlen, hframe⟩ := receive_eq bufpage h hlt
    have hne : (receive w.rx bufpage).2.2 ≠ -1 := by
      rw [hlen]
      omega
    refine ⟨hne, ?_⟩
    rw [hlen] at hne
    simp only [stepRx, hlen, if_neg hne, hrx, Int.toNat_natCast, hframe]
    -- a multiple of 128 publishes everything returned so far
    split
    · exact ⟨w.returned.length + 256, take_inv _ h hlt (by omega) (by omega) (Nat.le_refl _)⟩
    · exact ⟨limit, take_inv _ h hlt h.regRDT hacc (by omega)⟩

end

/-! ## Runs -/

/-- **Every run keeps it.** -/
theorem runRx_inv (lay : Layout) (mem : Nat → UInt8) (evs : List RxEvent) :
    ∃ limit, RxInv lay (runRx lay mem evs) limit := by
  induction evs using List.reverseRecOn with
  | nil => exact ⟨255, initRx_inv lay mem⟩
  | append_singleton evs e ih =>
    obtain ⟨limit, h⟩ := ih
    rw [runRx, List.foldl_append]
    show ∃ limit, RxInv lay (stepRx (runRx lay mem evs) e) limit
    cases e with
    | fill f =>
      by_cases hne : (runRx lay mem evs).rx.regRDH = (runRx lay mem evs).rx.regRDT
      · exact ⟨limit, by rwa [stepRx, if_pos hne]⟩
      · exact ⟨limit, fill_inv f h hne⟩
    | receive bufpage =>
      rcases receive_inv bufpage h with ⟨-, -, hsame⟩ | ⟨-, h'⟩
      · exact ⟨limit, by rwa [hsame]⟩
      · exact h'

/-- **Frames are delivered in order**: what `receive` returned is a prefix of what the card accepted,
    it returns -1 only when that is all, and the descriptor that the card may fill next is not one
    whose frame is still to be returned. -/
theorem receive_in_order (lay : Layout) (mem : Nat → UInt8) (evs : List RxEvent) :
    let w := runRx lay mem evs
    w.returned <+: w.accepted.map Prod.snd ∧
      (∀ bufpage, (receive w.rx bufpage).2.2 = -1 → w.returned = w.accepted.map Prod.snd) ∧
      (w.rx.regRDH ≠ w.rx.regRDT →
        ∀ x ∈ w.accepted.drop w.returned.length, x.1 ≠ w.rx.regRDH) := by
  intro w
  obtain ⟨limit, h⟩ : ∃ limit, RxInv lay w limit := runRx_inv lay mem evs
  refine ⟨⟨_, h.log.symm⟩, fun bufpage hfail => ?_, fun hne x hx => ?_⟩
  · rcases receive_inv bufpage h with ⟨heq, -, -⟩ | ⟨hne, -⟩
    · rw [h.log, heq, Ring.window_self, List.append_nil]
    · exact absurd hfail hne
  · obtain ⟨i, hi, rfl⟩ := List.mem_iff_getElem.mp hx
    have hlt : i < w.accepted.length - w.returned.length := by rwa [List.length_drop] at hi
    have hslot : (w.accepted.map Prod.fst)[w.returned.length + i]? =
        some ((w.returned.length + i) % 256) := by
      rw [h.slots, List.getElem?_map, List.getElem?_range (by omega)]
      rfl
    rw [List.getElem?_map, List.getElem?_eq_getElem (by omega), Option.map_some,
      Option.some.injEq] at hslot
    rw [List.getElem_drop, hslot, h.regRDH]
    rw [h.regRDH, h.regRDT] at hne
    have hacc := h.accepted_le
    have hlim := h.limit_le
    omega

end JudgeDuck.E1000
