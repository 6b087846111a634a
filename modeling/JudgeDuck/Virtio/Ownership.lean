/-
  Who owns the transmit descriptors of the virtio driver.

  A descriptor is free, and then its id is in the used ring between `cur_used_idx` and `used->idx`
  (`free`); or the device has it, and then its id is in the available ring, not yet read, or among
  the ids that the device has read (`atDevice`).  The invariant `Own` counts the four positions
  without wrapping and says that the two lists together are a permutation of `0, …, actual - 1`.
  Their lengths are part of that, so no ring can be overrun: a driver that stores at `avail->idx`,
  or a device that stores at `used->idx`, holds an id that is in no ring.

  `unpopUsed_window` is the delicate part: the used ring is filled backwards from slot `0`, and the
  window that `pop_used` starts with begins `actual` entries before it, where no id may be stored.
-/
import JudgeDuck.Virtio.Model
import JudgeDuck.Lib.Ring
import Mathlib.Data.List.Perm.Basic
import Mathlib.Data.List.Perm.Lattice
import Mathlib.Data.Nat.Bitwise

namespace JudgeDuck.Virtio

open JudgeDuck.Lib JudgeDuck.Lib.Ring

/-! ## The two owners -/

/-- The ids in the used ring that the driver has not popped. -/
def free (q : VirtQueue) : List Nat :=
  (List.range (u16 (q.usedIdx + 2 ^ 16 - q.curUsedIdx))).map fun i =>
    (q.usedRing (u16 (q.curUsedIdx + i) &&& mask q.queueSize)).id

/-- The ids that the driver has made available and the device has not returned. -/
def atDevice (w : World) : List Nat :=
  (List.range (u16 (w.queue.availIdx + 2 ^ 16 - w.device.lastAvail))).map
    (fun i => w.queue.availRing (u16 (w.device.lastAvail + i) &&& mask w.queue.queueSize)) ++
  w.device.held

/-- The invariant: `c`, `u`, `f` and `a` count what has been popped, used, fetched and made
    available. -/
structure Own (e actual : Nat) (w : World) (c u f a : Nat) : Prop where
  queueSize : w.queue.queueSize = 2 ^ e
  curUsedIdx : w.queue.curUsedIdx = c % 2 ^ 16
  usedIdx : w.queue.usedIdx = u % 2 ^ 16
  lastAvail : w.device.lastAvail = f % 2 ^ 16
  availIdx : w.queue.availIdx = a % 2 ^ 16
  popped_le : c ≤ u
  fetched_le : f ≤ a
  perm : (window (VirtQueueUsedElement.id ∘ w.queue.usedRing) (2 ^ e) c u ++
    (window w.queue.availRing (2 ^ e) f a ++ w.device.held)).Perm (List.range actual)

section

variable {e actual : Nat} {w : World} {c u f a : Nat}

theorem two_pow_dvd (he : e ≤ 15) : 2 ^ e ∣ 2 ^ 16 := Nat.pow_dvd_pow 2 (by omega)

theorem mask_two_pow (he : e ≤ 15) : mask (2 ^ e) = 2 ^ e - 1 := by
  have hpos : 0 < 2 ^ e := Nat.two_pow_pos e
  have hle : 2 ^ e ≤ 2 ^ 15 := Nat.pow_le_pow_right (by omega) he
  rw [mask, u32]
  omega

/-- A masked index is a slot. -/
theorem and_mask (he : e ≤ 15) {x k : Nat} (hx : x = k % 2 ^ 16) :
    x &&& mask (2 ^ e) = k % 2 ^ e := by
  rw [mask_two_pow he]
  exact and_mask_slot rfl (two_pow_dvd he) hx

theorem Own.length (h : Own e actual w c u f a) :
    (u - c) + ((a - f) + w.device.held.length) = actual := by
  have hlen := h.perm.length_eq
  rwa [List.length_append, List.length_append, length_window, length_window,
    List.length_range] at hlen

/-- How far two positions are apart, from their 16 bits. -/
theorem distance {lo hi : Nat} (hle : lo ≤ hi) (hlt : hi - lo < 2 ^ 16) :
    u16 (hi % 2 ^ 16 + 2 ^ 16 - lo % 2 ^ 16) = hi - lo := by
  rw [u16]
  omega

theorem free_eq_window {q : VirtQueue} (he : e ≤ 15) (hsize : q.queueSize = 2 ^ e)
    (hcur : q.curUsedIdx = c % 2 ^ 16) (hused : q.usedIdx = u % 2 ^ 16) (hle : c ≤ u)
    (hlt : u - c < 2 ^ 16) :
    free q = window (VirtQueueUsedElement.id ∘ q.usedRing) (2 ^ e) c u := by
  rw [free, hused, hcur, distance hle hlt, hsize, mask_two_pow he]
  have hmap := map_range_mod (VirtQueueUsedElement.id ∘ q.usedRing) c (u - c) rfl (two_pow_dvd he)
  rwa [Nat.add_sub_cancel' hle] at hmap

theorem Own.free_eq (h : Own e actual w c u f a) (he : e ≤ 15) (hactual : actual ≤ 128) :
    free w.queue = window (VirtQueueUsedElement.id ∘ w.queue.usedRing) (2 ^ e) c u := by
  have hlen := h.length
  exact free_eq_window he h.queueSize h.curUsedIdx h.usedIdx h.popped_le (by omega)

theorem Own.atDevice_eq (h : Own e actual w c u f a) (he : e ≤ 15) (hactual : actual ≤ 128) :
    atDevice w = window w.queue.availRing (2 ^ e) f a ++ w.device.held := by
  have hlen := h.length
  have hdist := distance h.fetched_le (by omega)
  rw [atDevice, h.availIdx, h.lastAvail, hdist, h.queueSize, mask_two_pow he]
  have hmap := map_range_mod w.queue.availRing f (a - f) rfl (two_pow_dvd he)
  rw [Nat.add_sub_cancel' h.fetched_le] at hmap
  exact congrArg (· ++ w.device.held) hmap

/-! ## The driver -/

/-- **`pop_used`** gives the first free id, if there is one. -/
theorem popUsed_spec (h : Own e actual w c u f a) (he : e ≤ 15) (hactual : actual ≤ 128) :
    (c = u ∧ popUsed w.queue = (w.queue, 0xffff, none)) ∨
    ∃ id len, c < u ∧ id < actual ∧
      popUsed w.queue = ({ w.queue with curUsedIdx := (c + 1) % 2 ^ 16 }, id, some len) ∧
      window (VirtQueueUsedElement.id ∘ w.queue.usedRing) (2 ^ e) c u =
        id :: window (VirtQueueUsedElement.id ∘ w.queue.usedRing) (2 ^ e) (c + 1) u := by
  have hlen := h.length
  have hle := h.popped_le
  by_cases hcu : c = u
  · left
    refine ⟨hcu, ?_⟩
    rw [popUsed, if_pos (by rw [h.usedIdx, h.curUsedIdx, hcu])]
  · right
    have hlt : c < u := by omega
    have hne : w.queue.usedIdx ≠ w.queue.curUsedIdx := by
      rw [h.usedIdx, h.curUsedIdx]
      omega
    have hpop : window (VirtQueueUsedElement.id ∘ w.queue.usedRing) (2 ^ e) c u = _ :: _ :=
      window_pop hlt
    set elem := w.queue.usedRing (c % 2 ^ e) with helem
    have hid : elem.id < actual := by
      apply List.mem_range.mp
      apply h.perm.subset
      rw [hpop]
      exact List.mem_append_left _ List.mem_cons_self
    refine ⟨elem.id, elem.len, hlt, hid, ?_, hpop⟩
    have hu16 : u16 elem.id = elem.id := Nat.mod_eq_of_lt (by omega)
    have hnext : u16 (c % 2 ^ 16 + 1) = (c + 1) % 2 ^ 16 := Nat.mod_add_mod c (2 ^ 16) 1
    rw [popUsed, if_neg hne]
    simp only [h.queueSize, and_mask he h.curUsedIdx, ← helem, hu16]
    rw [h.curUsedIdx, hnext]

/-- `add_avail` for the id just popped: it goes from the used ring to the available ring. -/
theorem requeue_own (h : Own e actual w c u f a) (he : e ≤ 15) (hfit : actual ≤ 2 ^ e) {id : Nat}
    (hlt : c < u)
    (hwin : window (VirtQueueUsedElement.id ∘ w.queue.usedRing) (2 ^ e) c u =
      id :: window (VirtQueueUsedElement.id ∘ w.queue.usedRing) (2 ^ e) (c + 1) u)
    (desc : Nat → VirtQueueDesc) (mem : Nat → UInt8) :
    Own e actual ⟨addAvail { w.queue with curUsedIdx := (c + 1) % 2 ^ 16, desc := desc } id, mem,
      w.device⟩ (c + 1) u f (a + 1) := by
  have hlen := h.length
  have hslot : u16 (w.queue.availIdx &&& mask w.queue.queueSize) = a % 2 ^ e := by
    have hlt : a % 2 ^ e < 2 ^ e := Nat.mod_lt _ (Nat.two_pow_pos e)
    have hle : 2 ^ e ≤ 2 ^ 15 := Nat.pow_le_pow_right (by omega) he
    rw [h.queueSize, and_mask he h.availIdx]
    exact Nat.mod_eq_of_lt (by omega)
  have hpush : window (Function.update w.queue.availRing (a % 2 ^ e) id) (2 ^ e) f (a + 1) =
      window w.queue.availRing (2 ^ e) f a ++ [id] :=
    window_push id h.fetched_le (by have := h.fetched_le; omega)
  have hperm := h.perm
  rw [hwin] at hperm
  simp only [addAvail, hslot]
  refine
    { queueSize := h.queueSize
      curUsedIdx := rfl
      usedIdx := h.usedIdx
      lastAvail := h.lastAvail
      availIdx := ?_
      popped_le := hlt
      fetched_le := Nat.le_succ_of_le h.fetched_le
      perm := ?_ }
  · show u16 (w.queue.availIdx + 1) = (a + 1) % 2 ^ 16
    rw [h.availIdx]
    exact Nat.mod_add_mod a (2 ^ 16) 1
  · show (window (VirtQueueUsedElement.id ∘ w.queue.usedRing) (2 ^ e) (c + 1) u ++
      (window (Function.update w.queue.availRing (a % 2 ^ e) id) (2 ^ e) f (a + 1) ++
        w.device.held)).Perm (List.range actual)
    rw [hpush]
    refine List.Perm.trans ?_ hperm
    -- the head of the first list becomes the last of the second
    rw [List.append_assoc, List.singleton_append, ← List.append_assoc]
    refine List.perm_middle.trans ?_
    rw [List.append_assoc, List.cons_append]

/-- **`send`** moves the first free id to the device, or there is none. -/
theorem send_spec (h : Own e actual w c u f a) (he : e ≤ 15) (hactual : actual ≤ 128)
    (hfit : actual ≤ 2 ^ e) (buf : Nat → UInt8) (len : Nat) :
    (c = u ∧ send w.queue w.mem buf len = (w.queue, w.mem, false)) ∨
    (c < u ∧ (send w.queue w.mem buf len).2.2 = true ∧
      Own e actual (step w (.send buf len)) (c + 1) u f (a + 1)) := by
  obtain ⟨hcu, hpop⟩ | ⟨id, l, hlt, hid, hpop, hwin⟩ := popUsed_spec h he hactual
  · left
    refine ⟨hcu, ?_⟩
    rw [send, hpop]
    rfl
  · right
    have hne : ¬ id = 0xffff := by omega
    have hsend : send w.queue w.mem buf len =
        (addAvail { w.queue with
            curUsedIdx := (c + 1) % 2 ^ 16
            desc := Function.update w.queue.desc id { w.queue.desc id with len := u32 len } } id,
          memcpy w.mem (w.queue.desc id).addr buf len, true) := by
      rw [send, hpop]
      exact if_neg hne
    refine ⟨hlt, by rw [hsend], ?_⟩
    rw [step, hsend]
    exact requeue_own h he hfit hlt hwin _ _

/-! ## The device -/

/-- The device reads the first id that it has not read. -/
theorem fetch_own (h : Own e actual w c u f a) (he : e ≤ 15) (hactual : actual ≤ 128) :
    ∃ f', Own e actual (fetch w) c u f' a := by
  have hlen := h.length
  have hle := h.fetched_le
  by_cases hfa : f = a
  · refine ⟨f, ?_⟩
    rw [fetch, if_pos (by rw [h.lastAvail, h.availIdx, hfa])]
    exact h
  · have hne : w.device.lastAvail ≠ w.queue.availIdx := by
      rw [h.lastAvail, h.availIdx]
      omega
    have hpop : window w.queue.availRing (2 ^ e) f a = _ :: _ := window_pop (by omega)
    have hperm := h.perm
    rw [hpop] at hperm
    refine ⟨f + 1, ?_⟩
    rw [fetch, if_neg hne]
    simp only [h.queueSize, and_mask he h.lastAvail]
    refine
      { queueSize := h.queueSize
        curUsedIdx := h.curUsedIdx
        usedIdx := h.usedIdx
        lastAvail := ?_
        availIdx := h.availIdx
        popped_le := h.popped_le
        fetched_le := by omega
        perm := ?_ }
    · show u16 (w.device.lastAvail + 1) = (f + 1) % 2 ^ 16
      rw [h.lastAvail]
      exact Nat.mod_add_mod f (2 ^ 16) 1
    · refine List.Perm.trans (List.Perm.append_left _ ?_) hperm
      show (window w.queue.availRing (2 ^ e) (f + 1) a ++
        (w.device.held ++ [w.queue.availRing (f % 2 ^ e)])).Perm _
      rw [← List.append_assoc]
      exact List.perm_append_singleton _ _

/-- The device stores an id that it holds; the used ring has room, since that id is in no ring. -/
theorem complete_own (h : Own e actual w c u f a) (he : e ≤ 15) (hfit : actual ≤ 2 ^ e)
    (i len : Nat) : ∃ u', Own e actual (complete w i len) c u' f a := by
  have hlen := h.length
  have hle := h.popped_le
  rw [complete]
  cases hget : w.device.held[i]? with
  | none => exact ⟨u, h⟩
  | some id =>
    obtain ⟨hi, hid⟩ := List.getElem?_eq_some_iff.mp hget
    refine ⟨u + 1, ?_⟩
    simp only [h.queueSize, and_mask he h.usedIdx]
    refine
      { queueSize := rfl
        curUsedIdx := h.curUsedIdx
        usedIdx := ?_
        lastAvail := h.lastAvail
        availIdx := h.availIdx
        popped_le := by omega
        fetched_le := h.fetched_le
        perm := ?_ }
    · show u16 (w.queue.usedIdx + 1) = (u + 1) % 2 ^ 16
      rw [h.usedIdx]
      exact Nat.mod_add_mod u (2 ^ 16) 1
    · show (window (VirtQueueUsedElement.id ∘
          Function.update w.queue.usedRing (u % 2 ^ e) ⟨id, len⟩) (2 ^ e) c (u + 1) ++
        (window w.queue.availRing (2 ^ e) f a ++ w.device.held.eraseIdx i)).Perm _
      rw [Function.comp_update, window_push _ hle (by omega)]
      refine List.Perm.trans ?_ h.perm
      have herase : (id :: w.device.held.eraseIdx i).Perm w.device.held := by
        rw [← hid]
        exact List.getElem_cons_eraseIdx_perm hi
      rw [List.append_assoc]
      apply List.Perm.append_left
      show (id :: (window w.queue.availRing (2 ^ e) f a ++ w.device.held.eraseIdx i)).Perm _
      apply List.perm_middle.symm.trans
      exact List.Perm.append_left (window w.queue.availRing (2 ^ e) f a) herase

/-- One event. -/
theorem step_own (h : Own e actual w c u f a) (he : e ≤ 15) (hactual : actual ≤ 128)
    (hfit : actual ≤ 2 ^ e) (ev : Event) : ∃ c u f a, Own e actual (step w ev) c u f a := by
  cases ev with
  | send buf len =>
    obtain ⟨-, hsend⟩ | ⟨-, -, h'⟩ := send_spec h he hactual hfit buf len
    · refine ⟨c, u, f, a, ?_⟩
      rw [step, hsend]
      exact h
    · exact ⟨_, _, _, _, h'⟩
  | fetch =>
    obtain ⟨f', h'⟩ := fetch_own h he hactual
    exact ⟨c, u, f', a, h'⟩
  | complete i len =>
    obtain ⟨u', h'⟩ := complete_own h he hfit i len
    exact ⟨c, u', f, a, h'⟩

/-- Any number of events. -/
theorem run_own (h : Own e actual w c u f a) (he : e ≤ 15) (hactual : actual ≤ 128)
    (hfit : actual ≤ 2 ^ e) (evs : List Event) :
    ∃ c u f a, Own e actual (run w evs) c u f a := by
  induction evs generalizing w c u f a with
  | nil => exact ⟨c, u, f, a, h⟩
  | cons ev evs ih =>
    obtain ⟨_, _, _, _, h'⟩ := step_own h he hactual hfit ev
    exact ih h'

end

/-! ## `init` -/

/-- The slot of the id `j`: `-j & (queue_size - 1)` is where `2 ^ 16 - j` lives. -/
theorem neg_and_mask {e j : Nat} (he : e ≤ 15) (hj : j ≤ 2 ^ 16) :
    u32 (2 ^ 32 - j) &&& mask (2 ^ e) = (2 ^ 16 - j) % 2 ^ e := by
  have hslot : u32 (2 ^ 32 - j) &&& mask (2 ^ e) = (2 ^ 32 - j) % 2 ^ e := by
    rw [mask_two_pow he]
    exact and_mask_slot rfl (Nat.pow_dvd_pow 2 (by omega)) rfl
  obtain ⟨m, hm⟩ : 2 ^ e ∣ 2 ^ 32 - 2 ^ 16 :=
    Nat.dvd_sub (Nat.pow_dvd_pow 2 (by omega)) (two_pow_dvd he)
  rw [hslot, show 2 ^ 32 - j = 2 ^ 16 - j + 2 ^ e * m by omega, Nat.add_mul_mod_self_left]

/-- The used ring that `init` leaves: the ids below `actual`, backwards from slot `0`, and zeros. -/
theorem unpopUsed_ids {e actual : Nat} (he : e ≤ 15) (hfit : actual ≤ 2 ^ e) {j : Nat}
    (hj : j < 2 ^ e) :
    (forUp (unpopUsed (2 ^ e)) actual VirtQueue.bss.usedRing ((2 ^ 16 - j) % 2 ^ e)).id =
      if j < actual then j else 0 := by
  have hle : 2 ^ e ≤ 2 ^ 15 := Nat.pow_le_pow_right (by omega) he
  refine forUp_inv (fun i (ring : Nat → VirtQueueUsedElement) =>
    ∀ j, j < 2 ^ e → (ring ((2 ^ 16 - j) % 2 ^ e)).id = if j < i then j else 0)
    (fun j _ => rfl) (fun i hi ring ih j hj => ?_) j hj
  rw [unpopUsed, neg_and_mask he (show i ≤ 2 ^ 16 by omega)]
  by_cases hji : j = i
  · rw [hji, Function.update_self, if_pos (Nat.lt_succ_self i)]
  · have hslots : (2 ^ 16 - j) % 2 ^ e ≠ (2 ^ 16 - i) % 2 ^ e := by
      intro hslots
      have := slot_inj (2 ^ 16 + 1 - 2 ^ e) ⟨by omega, by omega⟩ ⟨by omega, by omega⟩ hslots
      omega
    rw [Function.update_of_ne hslots, ih j hj]
    by_cases hlt : j < i
    · rw [if_pos hlt, if_pos (by omega)]
    · rw [if_neg hlt, if_neg (by omega)]

/-- What `pop_used` finds first are all the ids: `0, actual - 1, …, 1`.  The entry of the `0` is slot
    `0` when the ring has no more than `actual` slots, and a slot never written otherwise. -/
theorem unpopUsed_window {e actual : Nat} (he : e ≤ 15) (hpos : 0 < actual) (hfit : actual ≤ 2 ^ e) :
    (window (VirtQueueUsedElement.id ∘ forUp (unpopUsed (2 ^ e)) actual VirtQueue.bss.usedRing)
      (2 ^ e) (2 ^ 16 - actual) (2 ^ 16)).Perm (List.range actual) := by
  have hle : 2 ^ e ≤ 2 ^ 15 := Nat.pow_le_pow_right (by omega) he
  obtain ⟨m, rfl⟩ : ∃ m, actual = m + 1 := ⟨actual - 1, by omega⟩
  set ring := VirtQueueUsedElement.id ∘ forUp (unpopUsed (2 ^ e)) (m + 1) VirtQueue.bss.usedRing
    with hring
  have hfirst : ring ((2 ^ 16 - (m + 1)) % 2 ^ e) = 0 := by
    obtain hlt | heq := Nat.lt_or_eq_of_le hfit
    · exact (unpopUsed_ids he hfit hlt).trans (if_neg (Nat.lt_irrefl _))
    · have hzero : (2 ^ 16 - (m + 1)) % 2 ^ e = (2 ^ 16 - 0) % 2 ^ e := by
        rw [heq, Nat.sub_zero, Nat.mod_eq_zero_of_dvd (two_pow_dvd he)]
        exact Nat.mod_eq_zero_of_dvd (Nat.dvd_sub (two_pow_dvd he) (Nat.dvd_refl _))
      rw [hzero]
      exact (unpopUsed_ids he hfit (Nat.two_pow_pos e)).trans (if_pos (Nat.succ_pos m))
  have hrest : ∀ k, k ≤ m → window ring (2 ^ e) (2 ^ 16 - k) (2 ^ 16) = downFrom k := by
    intro k
    induction k with
    | zero =>
      intro _
      rw [Nat.sub_zero, window_self]
      rfl
    | succ k ih =>
      intro hk
      have hslot : ring ((2 ^ 16 - (k + 1)) % 2 ^ e) = k + 1 :=
        (unpopUsed_ids he hfit (by omega)).trans (if_pos (by omega))
      rw [window_pop (by omega), hslot, show 2 ^ 16 - (k + 1) + 1 = 2 ^ 16 - k by omega,
        ih (by omega), downFrom_succ]
  rw [window_pop (by omega), hfirst, show 2 ^ 16 - (m + 1) + 1 = 2 ^ 16 - m by omega,
    hrest m (Nat.le_refl m), List.range_succ_eq_map]
  apply List.Perm.cons
  exact (List.reverse_perm (List.range m)).map Nat.succ

/-- The loop over the descriptors takes a buffer for each of the first `actual`. -/
theorem initDesc_loop (isReceive : Bool) (actual n : Nat) {q : VirtQueue} {p : Pools}
    (hroom : p.queueBufferPoolAllocated + bufferLen * actual ≤ queueBufferPoolSize * 2) :
    ∃ desc allocated, allocated ≤ p.queueBufferPoolAllocated + bufferLen * actual ∧
      forUpM (initDesc isReceive actual) n (q, p) =
        .ok ({ q with desc := desc }, { p with queueBufferPoolAllocated := allocated }) := by
  have hinv := forUpM_inv (f := initDesc isReceive actual) (n := n) (s := (q, p))
    (fun i s => ∃ desc, s = ({ q with desc := desc },
      { p with queueBufferPoolAllocated := p.queueBufferPoolAllocated + bufferLen * min i actual }))
    ⟨q.desc, rfl⟩ ?_
  · obtain ⟨s, hs, desc, rfl⟩ := hinv
    refine ⟨desc, _, ?_, hs⟩
    exact Nat.add_le_add_left (Nat.mul_le_mul_left _ (Nat.min_le_right n actual)) _
  · rintro i - s ⟨desc, rfl⟩
    rw [bufferLen, queueBufferPoolSize, bufferLen, maxActualQueueSize] at *
    by_cases hi : i < actual
    · have hnext : u32 (p.queueBufferPoolAllocated + 1600 * min i actual + 1600) =
          p.queueBufferPoolAllocated + 1600 * min (i + 1) actual := by
        rw [u32]
        omega
      have halloc : allocQueueBuffer { p with queueBufferPoolAllocated :=
            p.queueBufferPoolAllocated + 1600 * min i actual } 1600 =
          .ok ({ p with queueBufferPoolAllocated :=
              p.queueBufferPoolAllocated + 1600 * min (i + 1) actual },
            p.queueBufferPool + (p.queueBufferPoolAllocated + 1600 * min i actual)) := by
        rw [allocQueueBuffer, Nat.add_comm 1600, hnext, queueBufferPoolSize, bufferLen,
          maxActualQueueSize, if_pos (by omega)]
      refine ⟨({ q with desc := Function.update desc i ⟨p.queueBufferPool +
          (p.queueBufferPoolAllocated + 1600 * min i actual), 1600, if isReceive then 2 else 0, 0⟩ },
        _), ?_, _, rfl⟩
      rw [initDesc, if_pos hi]
      exact bind_of_ok halloc
    · rw [initDesc, if_neg hi, show min (i + 1) actual = min i actual by omega]
      exact ⟨_, rfl, Function.update desc i ⟨0, 0, 0, 0⟩, rfl⟩

/-- `roundUp` within the memory of a queue. -/
theorem roundUp_bounds {x k : Nat} (hx : x ≤ k * 4096) (hk : k ≤ 1024) :
    x ≤ roundUp x ∧ roundUp x ≤ k * 4096 := by
  have hround : roundUp x = (x + 4095) / 4096 * 4096 := by
    rw [roundUp, pageSize, u32]
    exact Nat.mod_eq_of_lt (by omega)
  rw [hround]
  omega

/-- The descriptors, the available ring and the used ring do not overlap, and two queues of any
    supported size fit into the pool. -/
theorem parts_fit {n : Nat} (hn : n ≤ maxSupportedQueueSize) :
    descSize n + availSize n ≤ part1Size n ∧ part1Size n + usedSize n ≤ totalSize n ∧
      totalSize n ≤ queueMemorySize := by
  rw [maxSupportedQueueSize] at hn
  have hdesc : descSize n = 16 * n := Nat.mod_eq_of_lt (by omega)
  have havail : availSize n = 6 + 2 * n := Nat.mod_eq_of_lt (by omega)
  have hused : usedSize n = 6 + 8 * n := Nat.mod_eq_of_lt (by omega)
  have hpart1 : part1Size n = roundUp (descSize n + availSize n) :=
    congrArg roundUp (Nat.mod_eq_of_lt (by omega))
  have h1 := roundUp_bounds (x := descSize n + availSize n) (k := 19) (by omega) (by omega)
  have htotal : totalSize n = roundUp (part1Size n + usedSize n) :=
    congrArg roundUp (Nat.mod_eq_of_lt (by omega))
  have h2 := roundUp_bounds (x := part1Size n + usedSize n) (k := 28) (by omega) (by omega)
  refine ⟨by omega, by omega, ?_⟩
  rw [queueMemorySize, maxSupportedQueueSize, pageSize]
  omega

/-- `init` for any queue that has room in the pools: it returns, and says what the loops leave. -/
theorem init_ok {q : VirtQueue} {p : Pools} {n : Nat}
    (hroom : p.queueMemoryPoolAllocated + totalSize n ≤ queueMemorySize * 2)
    (hbuf : p.queueBufferPoolAllocated ≤ queueBufferPoolSize) (queueId : Nat) (isReceive : Bool) :
    ∃ desc q' p', init q p queueId isReceive n = .ok (q', p') ∧
      p'.queueMemoryPoolAllocated = p.queueMemoryPoolAllocated + totalSize n ∧
      p'.queueBufferPoolAllocated ≤ p.queueBufferPoolAllocated + queueBufferPoolSize ∧
      q' =
        let q := { q with
          availFlags := 1, availIdx := 0, usedFlags := 1, usedIdx := 0, curUsedIdx := 0, desc := desc }
        let q :=
          if isReceive then forUp (fun id q => addAvail q id) (min maxActualQueueSize n) q
          else { q with
            usedRing := forUp (unpopUsed n) (min maxActualQueueSize n) q.usedRing
            curUsedIdx := u16 (u32 (2 ^ 32 - min maxActualQueueSize n)) }
        { q with queueId := queueId, queueSize := n } := by
  have hsize : queueMemorySize = 114688 := rfl
  have hpool : queueBufferPoolSize = 128 * bufferLen := rfl
  have hactual : min maxActualQueueSize n ≤ 128 := Nat.min_le_left _ _
  have hbufs : bufferLen * min maxActualQueueSize n ≤ queueBufferPoolSize := by
    rw [hpool, Nat.mul_comm 128]
    exact Nat.mul_le_mul_left _ hactual
  have hu32 : u32 (p.queueMemoryPoolAllocated + totalSize n) =
      p.queueMemoryPoolAllocated + totalSize n := Nat.mod_eq_of_lt (by omega)
  have halloc : allocQueueMemory p (totalSize n) =
      .ok ({ p with queueMemoryPoolAllocated := p.queueMemoryPoolAllocated + totalSize n },
        p.queueMemoryPool + p.queueMemoryPoolAllocated) := by
    rw [allocQueueMemory, Nat.add_comm (totalSize n), hu32, if_pos (by omega)]
  obtain ⟨desc, allocated, hle, hloop⟩ := initDesc_loop isReceive
    (min maxActualQueueSize n) n
    (q := { q with availFlags := 1, availIdx := 0, usedFlags := 1, usedIdx := 0, curUsedIdx := 0 })
    (p := { p with queueMemoryPoolAllocated := p.queueMemoryPoolAllocated + totalSize n })
    (show p.queueBufferPoolAllocated + _ ≤ _ by omega)
  refine ⟨desc, _, ⟨p.queueMemoryPool, p.queueMemoryPoolAllocated + totalSize n, p.queueBufferPool,
    allocated⟩, ?_, rfl, ?_, rfl⟩
  · rw [init, bind_of_ok halloc]
    exact bind_of_ok hloop
  · exact Nat.le_trans hle (Nat.add_le_add_left hbufs _)

/-- **After `init_queue`** every transmit descriptor is free. -/
theorem initQueue_own (memoryPool bufferPool : Nat) {e0 e1 : Nat} (he0 : e0 ≤ 12) (he1 : e1 ≤ 12) :
    ∃ receiveQueue transmitQueue p,
      initQueue ⟨memoryPool, 0, bufferPool, 0⟩ (2 ^ e0) (2 ^ e1) =
        .ok (receiveQueue, transmitQueue, p) ∧
      ∀ mem, Own e1 (min maxActualQueueSize (2 ^ e1)) ⟨transmitQueue, mem, ⟨0, []⟩⟩
        (2 ^ 16 - min maxActualQueueSize (2 ^ e1)) (2 ^ 16) 0 0 := by
  have hfits : ∀ {e}, e ≤ 12 → totalSize (2 ^ e) ≤ queueMemorySize := fun he =>
    (parts_fit (Nat.pow_le_pow_right (n := 2) (by omega) he)).2.2
  have hfits0 := hfits he0
  have hfits1 := hfits he1
  obtain ⟨_, rq, p, hreceive, hmem, hbuf, -⟩ := init_ok (q := VirtQueue.bss)
    (p := ⟨memoryPool, 0, bufferPool, 0⟩) (n := 2 ^ e0) (show 0 + _ ≤ _ by omega)
    (Nat.zero_le _) 0 true
  obtain ⟨desc, tq, p', htransmit, -, -, hq⟩ := init_ok (q := VirtQueue.bss) (p := p) (n := 2 ^ e1)
    (by rw [hmem]; show 0 + _ + _ ≤ _; omega)
    (Nat.le_trans hbuf (Nat.le_of_eq (Nat.zero_add _))) 1 false
  refine ⟨rq, tq, p', ?_, fun mem => ?_⟩
  · rw [initQueue, bind_of_ok hreceive]
    exact bind_of_ok htransmit
  · set actual := min maxActualQueueSize (2 ^ e1) with hactual
    have hpos : 0 < actual := by
      apply Nat.lt_min.mpr
      exact ⟨by decide, Nat.two_pow_pos e1⟩
    have hle : actual ≤ 128 := Nat.min_le_left _ _
    subst hq
    refine
      { queueSize := rfl
        curUsedIdx := ?_
        usedIdx := rfl
        lastAvail := rfl
        availIdx := rfl
        popped_le := Nat.sub_le _ _
        fetched_le := Nat.le_refl 0
        perm := ?_ }
    · show u16 (u32 (2 ^ 32 - actual)) = (2 ^ 16 - actual) % 2 ^ 16
      rw [u16, u32]
      omega
    · show (window _ (2 ^ e1) (2 ^ 16 - actual) (2 ^ 16) ++ (window _ (2 ^ e1) 0 0 ++ [])).Perm _
      rw [window_self, List.append_nil, List.append_nil]
      exact unpopUsed_window (by omega) hpos (Nat.min_le_right _ _)

/-! ## Every run -/

/-- **Each transmit descriptor has one owner**, for all queue sizes `2 ^ e` up to 4096 and after any
    sends, reads and completions: the free ids and the ids at the device are the ids below
    `min(128, queue_size)`, each once; what `pop_used` gives is one of them and not at the device;
    `send` fails exactly when all are at the device. -/
theorem transmit_ownership (memoryPool bufferPool : Nat) (e0 e1 : Fin 13) :
    ∃ receiveQueue transmitQueue p,
      initQueue ⟨memoryPool, 0, bufferPool, 0⟩ (2 ^ e0.val) (2 ^ e1.val) =
        .ok (receiveQueue, transmitQueue, p) ∧
      ∀ (mem : Nat → UInt8) (evs : List Event),
        let w := run ⟨transmitQueue, mem, ⟨0, []⟩⟩ evs
        let actual := min 128 (2 ^ e1.val)
        (free w.queue ++ atDevice w).Perm (List.range actual) ∧
        (∀ q id len, popUsed w.queue = (q, id, some len) →
          id < actual ∧ id ∉ atDevice w ∧ free w.queue = id :: free q) ∧
        (∀ buf len, (send w.queue w.mem buf len).2.2 = false ↔
          ∀ id, id < actual → id ∈ atDevice w) := by
  have he0 : e0.val ≤ 12 := Nat.le_of_lt_succ e0.isLt
  have he1 : e1.val ≤ 12 := Nat.le_of_lt_succ e1.isLt
  have he : e1.val ≤ 15 := by omega
  obtain ⟨rq, tq, p, hinit, hown⟩ := initQueue_own memoryPool bufferPool he0 he1
  refine ⟨rq, tq, p, hinit, fun mem evs => ?_⟩
  have hactual : min maxActualQueueSize (2 ^ e1.val) ≤ 128 := Nat.min_le_left _ _
  have hfit : min maxActualQueueSize (2 ^ e1.val) ≤ 2 ^ e1.val := Nat.min_le_right _ _
  obtain ⟨c, u, f, a, h⟩ := run_own (hown mem) he hactual hfit evs
  intro w actual
  have hfree := h.free_eq he hactual
  have hperm : (free w.queue ++ atDevice w).Perm (List.range actual) := by
    rw [hfree, h.atDevice_eq he hactual]
    exact h.perm
  have hnodup : (free w.queue ++ atDevice w).Nodup := hperm.nodup_iff.mpr List.nodup_range
  refine ⟨hperm, ?_, ?_⟩
  · intro q id len hpop
    obtain ⟨-, hnone⟩ | ⟨id', len', hlt, hid, hsome, hwin⟩ := popUsed_spec h he hactual
    · rw [hnone] at hpop
      simp only [Prod.mk.injEq, reduceCtorEq, and_false] at hpop
    · rw [hsome] at hpop
      obtain ⟨hq, hid', -⟩ : _ = q ∧ id' = id ∧ some len' = some len := by
        simpa only [Prod.mk.injEq] using hpop
      subst hid' hq
      have hlen := h.length
      have hrest := free_eq_window (q := { w.queue with curUsedIdx := (c + 1) % 2 ^ 16 }) he
        h.queueSize rfl h.usedIdx hlt (by omega)
      have hcons : free w.queue = id' :: free { w.queue with curUsedIdx := (c + 1) % 2 ^ 16 } := by
        rw [hfree, hwin, hrest]
      refine ⟨hid, fun hmem => ?_, hcons⟩
      apply (List.nodup_append.mp hnodup).2.2 id' _ id' hmem rfl
      rw [hcons]
      exact List.mem_cons_self
  · intro buf len
    obtain ⟨hcu, hsend⟩ | ⟨hlt, hsend, -⟩ := send_spec h he hactual hfit buf len
    · refine ⟨fun _ id hid => ?_, fun _ => by rw [hsend]⟩
      have hmem : id ∈ free w.queue ++ atDevice w := hperm.mem_iff.mpr (List.mem_range.mpr hid)
      rwa [hfree, hcu, window_self, List.nil_append] at hmem
    · refine ⟨fun hfalse => ?_, fun hall => ?_⟩
      · rw [hsend] at hfalse
        exact absurd hfalse (by decide)
      · obtain ⟨id, -, -, hid, -, hwin⟩ :=
          (popUsed_spec h he hactual).resolve_left fun hnone => Nat.ne_of_lt hlt hnone.1
        have hmem : id ∈ free w.queue := by
          rw [hfree, hwin]
          exact List.mem_cons_self
        exact absurd rfl ((List.nodup_append.mp hnodup).2.2 id hmem id (hall id hid))

end JudgeDuck.Virtio
