/-
  Receiving with the virtio driver: the count that `receive` reports, and the descriptors it keeps.

  `recv` copies what follows the first `offset` bytes of the next used buffer and returns the length
  that the device has written, header included.  A buffer with fewer than `offset` bytes is popped and
  never made available again.  The ids lost that way are listed by `dropped`; the invariant `Own` of
  the transmit queue holds here too when they are counted as held by the device: an id is free, at
  the device or dropped.
-/
import JudgeDuck.Virtio.Ownership
import JudgeDuck.E1000.Receive

namespace JudgeDuck.Virtio

open JudgeDuck.Lib JudgeDuck.Lib.Ring

/-! ## The count -/

/-- The element that `pop_used` reads next. -/
def VirtQueue.nextUsed (q : VirtQueue) : VirtQueueUsedElement :=
  q.usedRing (q.curUsedIdx &&& mask q.queueSize)

/-- `recv` when an element with enough bytes is there. -/
theorem recv_of_used {q : VirtQueue} (mem buf : Nat → UInt8) {offset : Nat}
    (hused : q.usedIdx ≠ q.curUsedIdx) (hid : u16 q.nextUsed.id ≠ 0xffff)
    (hlen : offset ≤ q.nextUsed.len) :
    recv q mem buf offset =
      (addAvail { q with curUsedIdx := u16 (q.curUsedIdx + 1) } (u16 q.nextUsed.id),
        memcpy buf 0 (fun i => mem ((q.desc (u16 q.nextUsed.id)).addr + offset + i))
          (q.nextUsed.len - offset),
        (BitVec.ofNat 32 q.nextUsed.len).toInt) := by
  have hpop : popUsed q =
      ({ q with curUsedIdx := u16 (q.curUsedIdx + 1) }, u16 q.nextUsed.id, some q.nextUsed.len) := by
    rw [popUsed, if_neg hused]
    rfl
  rw [recv, hpop]
  show (if u16 q.nextUsed.id = 0xffff then _ else if q.nextUsed.len < offset then _ else _) = _
  rw [if_neg hid, if_neg (Nat.not_lt.mpr hlen)]
  rfl

/-- From `uint32_t` to `int`. -/
theorem toInt_eq_sub_iff {len offset : Nat} (hlen : offset ≤ len) (h32 : len < 2 ^ 32) :
    (BitVec.ofNat 32 len).toInt = (len - offset : Nat) ↔ offset = 0 ∧ len < 2 ^ 31 := by
  rw [BitVec.toInt_ofNat', Int.bmod_def]
  omega

/-- **What `recv` reports**, for any element with at least `offset` bytes: the bytes behind the first
    `offset` are copied, but their number is the result only for `offset = 0`. -/
theorem recv_count {q : VirtQueue} (mem buf : Nat → UInt8) {offset : Nat}
    (hused : q.usedIdx ≠ q.curUsedIdx) (hid : u16 q.nextUsed.id ≠ 0xffff)
    (hlen : offset ≤ q.nextUsed.len) (h32 : q.nextUsed.len < 2 ^ 32) :
    (∀ i, (recv q mem buf offset).2.1 i = if i < q.nextUsed.len - offset then
      mem ((q.desc (u16 q.nextUsed.id)).addr + offset + i) else buf i) ∧
    ((recv q mem buf offset).2.2 = (q.nextUsed.len - offset : Nat) ↔
      offset = 0 ∧ q.nextUsed.len < 2 ^ 31) := by
  rw [recv_of_used mem buf hused hid hlen]
  refine ⟨fun i => ?_, ?_⟩
  · exact memcpy_zero buf (fun i => mem ((q.desc (u16 q.nextUsed.id)).addr + offset + i)) _ i
  · exact toInt_eq_sub_iff hlen h32

/-- **What `receive` reports**, for any element with at least the bytes of a header: the bytes behind
    the header are copied, and a different number is returned; it would be the right one if no
    header were skipped.  The driver of the other card returns the right number for the frame. -/
theorem receive_count_iff (q : VirtQueue) (mem buf : Nat → UInt8)
    (hused : q.usedIdx ≠ q.curUsedIdx) (hid : u16 q.nextUsed.id ≠ 0xffff)
    (hlen : sizeofNetHeader ≤ q.nextUsed.len) (h32 : q.nextUsed.len < 2 ^ 32) :
    let r := netReceive q mem buf
    let n := q.nextUsed.len - sizeofNetHeader
    (∀ i, r.2.1 i = if i < n then
      mem ((q.desc (u16 q.nextUsed.id)).addr + sizeofNetHeader + i) else buf i) ∧
    r.2.2 ≠ n ∧
    (∀ offset, offset ≤ q.nextUsed.len →
      ((recv q mem buf offset).2.2 = (q.nextUsed.len - offset : Nat) ↔
        offset = 0 ∧ q.nextUsed.len < 2 ^ 31)) ∧
    ∀ (s : E1000.Rx) (bufpage : Nat → UInt8),
      let rd := s.rq ((s.rdt + 1) % E1000.rqSize)
      rd.status &&& 1 ≠ 0 → rd.length.toNat = n → n ≤ 2048 →
        (E1000.receive s bufpage).2.2 = n ∧ (E1000.receive s bufpage).2.2 ≠ r.2.2 := by
  intro r n
  obtain ⟨hcopied, hcount⟩ := recv_count mem buf hused hid hlen h32
  have hne : r.2.2 ≠ n := by
    intro heq
    exact absurd (hcount.mp heq).1 (by decide)
  refine ⟨hcopied, hne, fun offset hoffset => (recv_count mem buf hused hid hoffset h32).2, ?_⟩
  intro s bufpage rd hdone hlength hshort
  have hreturned := (E1000.receive_done (s := s) bufpage rfl hdone (hlength ▸ hshort)).2.1
  rw [hreturned, hlength]
  exact ⟨rfl, hne.symm⟩

/-- A queue of one descriptor whose buffer is used. -/
def oneUsed (len : Nat) : VirtQueue :=
  { VirtQueue.bss with queueSize := 1, usedIdx := 1, usedRing := fun _ => ⟨0, len⟩ }

/-- With a header of 10 bytes the count for 70 bytes is not 60; without one it is 70. -/
theorem receive_count_seventy :
    (netReceive (oneUsed 70) (fun i => UInt8.ofNat i) (fun _ => 0)).2.2 ≠ 60 ∧
      (recv (oneUsed 70) (fun i => UInt8.ofNat i) (fun _ => 0) 0).2.2 = 70 := by
  obtain ⟨-, hne, hoffset, -⟩ := receive_count_iff (oneUsed 70) (fun i => UInt8.ofNat i)
    (fun _ => 0) (by decide) (by decide) (by decide) (by decide)
  exact ⟨hne, (hoffset 0 (by decide)).mpr (by decide)⟩

/-- A frame of 60 bytes behind a header of 10: `receive` copies the 60 bytes and returns 70, where the
    other driver returns 60. -/
theorem netReceive_overcounts :
    let frame := List.replicate 60 (7 : UInt8)
    let data := List.replicate 10 0 ++ frame
    let queue := (init VirtQueue.bss ⟨0x100000, 0, 0x200000, 0⟩ 0 true 1).toOption
    queue.map (fun r =>
      let w := rxRun ⟨r.1, fun _ => 0, ⟨0, []⟩⟩ [.fetch, .complete 0 data (by decide)]
      let r := netReceive w.queue w.mem (fun _ => 0)
      (listOf r.2.1 61, r.2.2)) = some (frame ++ [0], 70) ∧
    (E1000.receive { E1000.Rx.bss (fun _ => 7) with rq := fun _ => ⟨0, 60, 0, 1, 0, 0⟩ }
      (fun _ => 0)).2.2 = 60 := by
  decide

/-! ## The descriptors -/

/-- The id that an event takes out of circulation: `receive` pops it and returns early. -/
def droppedBy (w : World) : RxEvent → List Nat
  | .receive _ =>
    match popUsed w.queue with
    | (_, id, some len) => if len < sizeofNetHeader then [id] else []
    | _ => []
  | _ => []

/-- The ids that a run takes out of circulation. -/
def dropped (w : World) : List RxEvent → List Nat
  | [] => []
  | ev :: evs => droppedBy w ev ++ dropped (rxStep w ev) evs

/-- A world in which the device also holds `ids`. -/
def World.holding (w : World) (ids : List Nat) : World :=
  { w with device := { w.device with held := w.device.held ++ ids } }

section

variable {e actual : Nat} {w : World} {lost : List Nat} {c u f a : Nat}

/-- The order in which the device holds the ids does not matter, nor does the memory. -/
theorem Own.of_perm {w' : World} (h : Own e actual w c u f a) (hqueue : w'.queue = w.queue)
    (hlast : w'.device.lastAvail = w.device.lastAvail)
    (hheld : w'.device.held.Perm w.device.held) : Own e actual w' c u f a where
  queueSize := hqueue ▸ h.queueSize
  curUsedIdx := hqueue ▸ h.curUsedIdx
  usedIdx := hqueue ▸ h.usedIdx
  lastAvail := hlast ▸ h.lastAvail
  availIdx := hqueue ▸ h.availIdx
  popped_le := h.popped_le
  fetched_le := h.fetched_le
  perm := by
    rw [hqueue]
    exact ((hheld.append_left _).append_left _).trans h.perm

/-- An id that is popped and not made available: it goes from the used ring to the dropped ones. -/
theorem drop_own (h : Own e actual (w.holding lost) c u f a) {id : Nat} (hlt : c < u)
    (hwin : window (VirtQueueUsedElement.id ∘ (w.holding lost).queue.usedRing) (2 ^ e) c u =
      id :: window (VirtQueueUsedElement.id ∘ w.queue.usedRing) (2 ^ e) (c + 1) u) :
    Own e actual (World.holding { w with queue := { w.queue with curUsedIdx := (c + 1) % 2 ^ 16 } }
      (lost ++ [id])) (c + 1) u f a where
  queueSize := h.queueSize
  curUsedIdx := rfl
  usedIdx := h.usedIdx
  lastAvail := h.lastAvail
  availIdx := h.availIdx
  popped_le := hlt
  fetched_le := h.fetched_le
  perm := by
    have hperm := h.perm
    rw [hwin] at hperm
    refine List.Perm.trans ?_ hperm
    show (_ ++ (_ ++ (w.device.held ++ (lost ++ [id])))).Perm
      (id :: (_ ++ (_ ++ (w.device.held ++ lost))))
    simp only [← List.append_assoc]
    exact List.perm_append_singleton id _

/-- **`receive`** makes the id available that it pops, or drops it. -/
theorem receive_own (h : Own e actual (w.holding lost) c u f a) (he : e ≤ 15)
    (hactual : actual ≤ 128) (hfit : actual ≤ 2 ^ e) (buf : Nat → UInt8) :
    ∃ c a, Own e actual ((rxStep w (.receive buf)).holding (lost ++ droppedBy w (.receive buf)))
      c u f a := by
  obtain ⟨-, hpop⟩ | ⟨id, len, hlt, hid, hpop, hwin⟩ := popUsed_spec h he hactual
  · have hpop : popUsed w.queue = (w.queue, 0xffff, none) := hpop
    have hstep : rxStep w (.receive buf) = w := by
      rw [rxStep, netReceive, recv, hpop]
      rfl
    refine ⟨c, a, ?_⟩
    rw [hstep, droppedBy, hpop, List.append_nil]
    exact h
  · have hpop : popUsed w.queue =
        ({ w.queue with curUsedIdx := (c + 1) % 2 ^ 16 }, id, some len) := hpop
    have hne : ¬ id = 0xffff := by omega
    by_cases hshort : len < sizeofNetHeader
    · have hstep : rxStep w (.receive buf) =
          { w with queue := { w.queue with curUsedIdx := (c + 1) % 2 ^ 16 } } := by
        rw [rxStep, netReceive, recv, hpop]
        simp only [if_neg hne, Option.getD_some, if_pos hshort]
      refine ⟨c + 1, a, ?_⟩
      rw [hstep, droppedBy, hpop]
      simp only [if_pos hshort]
      exact drop_own h hlt hwin
    · have hstep : rxStep w (.receive buf) =
          { w with queue := addAvail { w.queue with curUsedIdx := (c + 1) % 2 ^ 16 } id } := by
        rw [rxStep, netReceive, recv, hpop]
        simp only [if_neg hne, Option.getD_some, if_neg hshort]
      refine ⟨c + 1, a + 1, ?_⟩
      rw [hstep, droppedBy, hpop]
      simp only [if_neg hshort, List.append_nil]
      exact requeue_own h he hfit hlt hwin w.queue.desc w.mem

/-- The device reads the same entry, whatever else it holds. -/
theorem fetch_holding (w : World) (lost : List Nat) :
    ((fetch w).holding lost).queue = (fetch (w.holding lost)).queue ∧
      ((fetch w).holding lost).device.lastAvail = (fetch (w.holding lost)).device.lastAvail ∧
      ((fetch w).holding lost).device.held.Perm (fetch (w.holding lost)).device.held := by
  by_cases hnone : w.device.lastAvail = w.queue.availIdx
  · have hfetch : fetch w = w := if_pos hnone
    have hholding : fetch (w.holding lost) = w.holding lost := if_pos hnone
    rw [hfetch, hholding]
    exact ⟨rfl, rfl, List.Perm.refl _⟩
  · have hfetch : fetch w = _ := if_neg hnone
    have hholding : fetch (w.holding lost) = _ := if_neg hnone
    rw [hfetch, hholding]
    refine ⟨rfl, rfl, ?_⟩
    show ((w.device.held ++ [_]) ++ lost).Perm ((w.device.held ++ lost) ++ [_])
    rw [List.append_assoc, List.append_assoc]
    exact List.Perm.append_left _ List.perm_append_comm

/-- The device returns the same id, whatever else it holds. -/
theorem complete_holding {i : Nat} (hi : i < w.device.held.length) (len : Nat) :
    (complete w i len).holding lost = complete (w.holding lost) i len := by
  have hget : (w.device.held ++ lost)[i]? = some w.device.held[i] := by
    rw [List.getElem?_append_left hi, List.getElem?_eq_getElem hi]
  have herase : (w.device.held ++ lost).eraseIdx i = w.device.held.eraseIdx i ++ lost :=
    List.eraseIdx_append_of_lt_length hi lost
  simp only [complete, World.holding, hget, herase, List.getElem?_eq_getElem hi]

/-- A device that holds fewer ids does nothing. -/
theorem complete_of_le {i : Nat} (hi : w.device.held.length ≤ i) (len : Nat) :
    complete w i len = w := by
  rw [complete, List.getElem?_eq_none hi]

theorem deposit_frame (w : World) (i : Nat) (data : List UInt8) :
    (deposit w i data).queue = w.queue ∧ (deposit w i data).device = w.device := by
  rw [deposit]
  cases w.device.held[i]? with
  | none => exact ⟨rfl, rfl⟩
  | some id => exact ⟨rfl, rfl⟩

/-- One event. -/
theorem rxStep_own (h : Own e actual (w.holding lost) c u f a) (he : e ≤ 15)
    (hactual : actual ≤ 128) (hfit : actual ≤ 2 ^ e) (ev : RxEvent) :
    ∃ c u f a, Own e actual ((rxStep w ev).holding (lost ++ droppedBy w ev)) c u f a := by
  cases ev with
  | receive buf =>
    obtain ⟨c, a, h'⟩ := receive_own h he hactual hfit buf
    exact ⟨c, u, f, a, h'⟩
  | fetch =>
    obtain ⟨f', h'⟩ := fetch_own h he hactual
    obtain ⟨hqueue, hlast, hheld⟩ := fetch_holding w lost
    refine ⟨c, u, f', a, ?_⟩
    show Own e actual ((fetch w).holding (lost ++ [])) c u f' a
    rw [List.append_nil]
    exact h'.of_perm hqueue hlast hheld
  | complete i data fits =>
    show ∃ c u f a, Own e actual
      ((complete (deposit w i data) i data.length).holding (lost ++ [])) c u f a
    rw [List.append_nil]
    obtain ⟨hqueue, hdevice⟩ := deposit_frame w i data
    have h : Own e actual ((deposit w i data).holding lost) c u f a := by
      refine h.of_perm hqueue ?_ ?_
      · show (deposit w i data).device.lastAvail = w.device.lastAvail
        rw [hdevice]
      · show ((deposit w i data).device.held ++ lost).Perm (w.device.held ++ lost)
        rw [hdevice]
    rcases Nat.lt_or_ge i (deposit w i data).device.held.length with hi | hi
    · obtain ⟨u', h'⟩ := complete_own h he hfit i data.length
      refine ⟨c, u', f, a, ?_⟩
      rw [complete_holding hi]
      exact h'
    · refine ⟨c, u, f, a, ?_⟩
      rw [complete_of_le hi]
      exact h

/-- Any number of events. -/
theorem rxRun_own (h : Own e actual (w.holding lost) c u f a) (he : e ≤ 15)
    (hactual : actual ≤ 128) (hfit : actual ≤ 2 ^ e) (evs : List RxEvent) :
    ∃ c u f a, Own e actual ((rxRun w evs).holding (lost ++ dropped w evs)) c u f a := by
  induction evs generalizing w lost c u f a with
  | nil =>
    refine ⟨c, u, f, a, ?_⟩
    rw [dropped, List.append_nil]
    exact h
  | cons ev evs ih =>
    obtain ⟨_, _, _, _, h'⟩ := rxStep_own h he hactual hfit ev
    rw [dropped, ← List.append_assoc]
    exact ih h'

end

/-! ## `init` -/

/-- The loop of `init` over `add_avail` leaves the ids in order.  The member `queue_size` is still
    zero, and nothing is masked. -/
theorem addAvail_loop {q : VirtQueue} (hsize : q.queueSize = 0) (havail : q.availIdx = 0) {n : Nat}
    (hn : n ≤ 128) :
    ∃ ring, forUp (fun id q => addAvail q id) n q = { q with availRing := ring, availIdx := n } ∧
      ∀ k, k < n → ring k = k := by
  refine forUp_inv (fun i (s : VirtQueue) =>
    ∃ ring, s = { q with availRing := ring, availIdx := i } ∧ ∀ k, k < i → ring k = k)
    ⟨q.availRing, ?_, fun k hk => absurd hk (Nat.not_lt_zero k)⟩ ?_
  · rw [← havail]
  · rintro i hi s ⟨ring, rfl, hring⟩
    have hslot : u16 (i &&& mask 0) = i := by
      rw [show mask 0 = 2 ^ 32 - 1 from rfl, Nat.and_two_pow_sub_one_eq_mod, u16]
      omega
    have hnext : u16 (i + 1) = i + 1 := Nat.mod_eq_of_lt (by omega)
    refine ⟨Function.update ring i i, ?_, fun k hk => ?_⟩
    · simp only [addAvail, hsize, hslot, hnext]
    · rcases Nat.lt_or_eq_of_le (Nat.le_of_lt_succ hk) with hlt | rfl
      · rw [Function.update_of_ne (Nat.ne_of_lt hlt), hring k hlt]
      · rw [Function.update_self]

/-- **After `init(0, true)`** the device can have all descriptors. -/
theorem receiveInit_own (memoryPool bufferPool : Nat) {e : Nat} (he : e ≤ 13) :
    ∃ q p, init VirtQueue.bss ⟨memoryPool, 0, bufferPool, 0⟩ 0 true (2 ^ e) = .ok (q, p) ∧
      ∀ mem, Own e (min 128 (2 ^ e)) ⟨q, mem, ⟨0, []⟩⟩ 0 0 0 (min 128 (2 ^ e)) := by
  have hfits : ∀ e : Fin 14, 0 + totalSize (2 ^ e.val) ≤ queueMemorySize * 2 := by decide
  obtain ⟨desc, q, p, hinit, -, -, hq⟩ := init_ok (q := VirtQueue.bss)
    (p := ⟨memoryPool, 0, bufferPool, 0⟩) (n := 2 ^ e) (hfits ⟨e, by omega⟩) (Nat.zero_le _) 0 true
  refine ⟨q, p, hinit, fun mem => ?_⟩
  set actual := min 128 (2 ^ e)
  have hactual : actual ≤ 128 := Nat.min_le_left _ _
  have hfit : actual ≤ 2 ^ e := Nat.min_le_right _ _
  obtain ⟨ring, hloop, hring⟩ := addAvail_loop (q := { VirtQueue.bss with
    availFlags := 1, availIdx := 0, usedFlags := 1, usedIdx := 0, curUsedIdx := 0, desc := desc })
    rfl rfl hactual
  replace hq : q = { forUp (fun id q => addAvail q id) actual _ with
    queueId := 0, queueSize := 2 ^ e } := hq
  rw [hloop] at hq
  subst hq
  refine
    { queueSize := rfl
      curUsedIdx := rfl
      usedIdx := rfl
      lastAvail := rfl
      availIdx := (Nat.mod_eq_of_lt (show actual < 2 ^ 16 by omega)).symm
      popped_le := Nat.le_refl 0
      fetched_le := Nat.zero_le actual
      perm := ?_ }
  show (window _ (2 ^ e) 0 0 ++ (window ring (2 ^ e) 0 actual ++ [])).Perm _
  have hwindow : window ring (2 ^ e) 0 actual = List.range actual := by
    rw [window, Nat.sub_zero, ← List.range_eq_range']
    refine (List.map_congr_left fun k hk => ?_).trans (List.map_id _)
    have hk : k < actual := List.mem_range.mp hk
    rw [Nat.mod_eq_of_lt (by omega), hring k hk]
    rfl
  rw [window_self, hwindow, List.nil_append, List.append_nil]

/-- **A receive descriptor leaves circulation exactly when `receive` finds fewer bytes than a
    header.**  After any calls of `receive`, reads and completions the free ids, the ids at the
    device and the dropped ids are the ids below `min(128, queue_size)`, each once.  A queue with
    more than `2 ^ 13` entries does not fit into the pool, and `init` asserts. -/
theorem receive_circulation_iff (memoryPool bufferPool : Nat) (e : Fin 16) :
    (13 < e.val ∧
      init VirtQueue.bss ⟨memoryPool, 0, bufferPool, 0⟩ 0 true (2 ^ e.val) = .error .assertion) ∨
    (e.val ≤ 13 ∧
      ∃ q p, init VirtQueue.bss ⟨memoryPool, 0, bufferPool, 0⟩ 0 true (2 ^ e.val) = .ok (q, p) ∧
        ∀ (mem : Nat → UInt8) (evs : List RxEvent),
          let w := rxRun ⟨q, mem, ⟨0, []⟩⟩ evs
          let lost := dropped ⟨q, mem, ⟨0, []⟩⟩ evs
          let actual := min 128 (2 ^ e.val)
          (free w.queue ++ (atDevice w ++ lost)).Perm (List.range actual) ∧
          ((∀ id, id < actual → id ∈ free w.queue ∨ id ∈ atDevice w) ↔ lost = [])) := by
  rcases Nat.lt_or_ge 13 e.val with hlarge | he
  · refine Or.inl ⟨hlarge, ?_⟩
    have hbig : ∀ e : Fin 16, 13 < e.val →
        ¬ u32 (totalSize (2 ^ e.val) + 0) ≤ queueMemorySize * 2 := by decide
    rw [init, allocQueueMemory, if_neg (hbig e hlarge)]
    rfl
  · refine Or.inr ⟨he, ?_⟩
    obtain ⟨q, p, hinit, hown⟩ := receiveInit_own memoryPool bufferPool he
    refine ⟨q, p, hinit, fun mem evs => ?_⟩
    intro w lost actual
    have hactual : actual ≤ 128 := Nat.min_le_left _ _
    have hfit : actual ≤ 2 ^ e.val := Nat.min_le_right _ _
    have he15 : e.val ≤ 15 := by omega
    have hstart : Own e.val actual (World.holding ⟨q, mem, ⟨0, []⟩⟩ []) 0 0 0 actual := hown mem
    obtain ⟨c, u, f, a, h⟩ := rxRun_own hstart he15 hactual hfit evs
    rw [List.nil_append] at h
    have hdevice : atDevice (w.holding lost) = atDevice w ++ lost := (List.append_assoc _ _ _).symm
    have hperm : (free w.queue ++ (atDevice w ++ lost)).Perm (List.range actual) := by
      rw [← hdevice, h.atDevice_eq he15 hactual]
      exact (h.free_eq he15 hactual).symm ▸ h.perm
    refine ⟨hperm, fun hall => ?_, fun hlost id hid => ?_⟩
    · -- a dropped id is nowhere else
      refine List.eq_nil_iff_forall_not_mem.mpr fun id hmem => ?_
      have hnodup : (free w.queue ++ (atDevice w ++ lost)).Nodup :=
        hperm.nodup_iff.mpr List.nodup_range
      have hid : id < actual := by
        apply List.mem_range.mp
        apply hperm.subset
        exact List.mem_append_right _ (List.mem_append_right _ hmem)
      rw [← List.append_assoc] at hnodup
      have hmem' : id ∈ free w.queue ++ atDevice w := List.mem_append.mpr (hall id hid)
      exact (List.nodup_append.mp hnodup).2.2 id hmem' id hmem rfl
    · have hmem := hperm.mem_iff.mpr (List.mem_range.mpr hid)
      rwa [hlost, List.append_nil, List.mem_append] at hmem

/-- One descriptor, which the device returns with 5 bytes: the call of `receive` fails, and the device
    never gets a buffer again. -/
theorem receive_short_drops :
    (init VirtQueue.bss ⟨0x100000, 0, 0x200000, 0⟩ 0 true 1).toOption.map (fun r =>
      let w := ⟨r.1, fun _ => 0, ⟨0, []⟩⟩
      let evs := [.fetch, .complete 0 [0, 0, 0, 0, 0] (by decide), .receive fun _ => 0]
      (free (rxRun w evs).queue, atDevice (rxRun w evs), dropped w evs)) = some ([], [], [0]) := by
  decide

end JudgeDuck.Virtio
