/-
  Transmit buffers are not reused in flight.

  The allocator does not know which fragments the card is still reading.  That they are safe is a
  matter of counting.  Packets and pages are counted without wrapping (`Ledger`): a page is left
  only when at least two packets are in it, so a packet that is `d` pages back has at least `2 d - 1`
  packets behind it (`Counted.behind`).  A fragment overlaps an older one only if that is 128
  pages back, and before a send at most 254 descriptors are in flight.

  `send_placed` is the result for one call after any run; `run_wire` says that the card sees the
  accepted packets, with the bytes that were given, in their order.
-/
import JudgeDuck.E1000.Model
import JudgeDuck.Lib.Ring
import Mathlib.Order.CompletePartialOrder
import Mathlib.Order.Interval.Set.Disjoint

namespace JudgeDuck.E1000

open JudgeDuck.Lib

/-! ## The allocator -/

theorem roundFrag_eq {cnt : Nat} (h : cnt ≤ 1500) : roundFrag cnt = (cnt + 63) / 64 * 64 := by
  have hmask : u64 (2 ^ 64 - cnt) &&& (64 - 1) = u64 (2 ^ 64 - cnt) % 2 ^ 6 :=
    Nat.and_two_pow_sub_one_eq_mod _ 6
  rw [roundFrag, hmask, u64, u64]
  omega

/-- All packets so far.  Packets and pages are counted without wrapping. -/
structure Ledger where
  sent : Nat
  /-- The page, the offset and the length of a packet. -/
  page : Nat → Nat
  off : Nat → Nat
  len : Nat → Nat
  /-- The page in use, and how many packets are in it at least. -/
  cur : Nat
  inCur : Nat

/-- What the allocator keeps. -/
structure Counted (L : Ledger) (offset : Nat) : Prop where
  offset_le : offset ≤ 4096
  /-- No packet takes more than 1536 bytes. -/
  filled : offset ≤ 1536 * L.inCur
  page_le : ∀ k, k < L.sent → L.page k ≤ L.cur
  len_le : ∀ k, k < L.sent → L.len k ≤ 1500
  inside : ∀ k, k < L.sent → L.off k + L.len k ≤ 4096
  below : ∀ k, k < L.sent → L.page k = L.cur → L.off k + L.len k ≤ offset
  /-- Two packets for every page left since, and those of the page in use. -/
  behind : ∀ k, k < L.sent → L.page k < L.cur →
    2 * (L.cur - 1 - L.page k) + L.inCur ≤ L.sent - 1 - k

/-- A packet joins the ledger. -/
def Ledger.add (L : Ledger) (page off len inCur : Nat) : Ledger :=
  { L with
    sent := L.sent + 1, page := Function.update L.page L.sent page
    off := Function.update L.off L.sent off, len := Function.update L.len L.sent len
    cur := page, inCur := inCur }

variable {L : Ledger} {offset len : Nat}

/-- The next packet goes behind the last one. -/
theorem Counted.same {r : Nat} (h : Counted L offset) (hlen : len ≤ 1500) (hr : len ≤ r)
    (hr' : r ≤ 1536) (hfits : offset + r ≤ 4096) :
    Counted (L.add L.cur offset len (L.inCur + 1)) (offset + r) := by
  have hfilled := h.filled
  constructor
  case offset_le => exact hfits
  case filled => show offset + r ≤ 1536 * (L.inCur + 1); omega
  case' page_le => intro k hk
  case' len_le => intro k hk
  case' inside => intro k hk
  case' below => intro k hk
  case' behind => intro k hk
  all_goals
    simp only [Ledger.add] at hk ⊢
    rcases Nat.lt_or_eq_of_le (Nat.le_of_lt_succ hk) with hlt | rfl
    · have h1 := h.page_le k hlt
      have h2 := h.len_le k hlt
      have h3 := h.inside k hlt
      have h4 := h.below k hlt
      have h5 := h.behind k hlt
      simp only [Function.update_of_ne (Nat.ne_of_lt hlt)]
      omega
    · simp only [Function.update_self]
      omega

/-- The next packet does not fit: it starts a page, and at least two are in the one that is left. -/
theorem Counted.fresh {r : Nat} (h : Counted L offset) (hlen : len ≤ 1500) (hr : len ≤ r)
    (hr' : r ≤ 1536) (hfull : 4096 < offset + r) : Counted (L.add (L.cur + 1) 0 len 1) r := by
  have hfilled := h.filled
  constructor
  case offset_le => omega
  case filled => exact hr'
  case' page_le => intro k hk
  case' len_le => intro k hk
  case' inside => intro k hk
  case' below => intro k hk
  case' behind => intro k hk
  all_goals
    simp only [Ledger.add] at hk ⊢
    rcases Nat.lt_or_eq_of_le (Nat.le_of_lt_succ hk) with hlt | rfl
    · have h1 := h.page_le k hlt
      have h2 := h.len_le k hlt
      have h3 := h.inside k hlt
      have h5 := h.behind k hlt
      simp only [Function.update_of_ne (Nat.ne_of_lt hlt)]
      omega
    · simp only [Function.update_self]
      omega

/-- Where the next packet goes, and that nothing in flight is there: a packet on the same page of the
    array is either on the very same page and before it, or too old. -/
structure Slot (L : Ledger) (len page off : Nat) : Prop where
  fits : off + roundFrag len ≤ 4096
  clear : ∀ k, k < L.sent → L.sent ≤ k + 254 → L.page k % 128 = page % 128 →
    L.off k + L.len k ≤ off

/-- **`tq_frag_alloc`** gives a fragment to every packet, and one that is clear. -/
theorem tqFragAlloc_spec {lay : Layout} {s : Tx} (h : Counted L s.lastTqPageOffset)
    (hid : s.lastTqPageId = L.cur % 128) (haddrs : ∀ i, i < 128 → s.tqAddrs i = lay.tqPage i)
    (hlen : len ≤ 1500) :
    ∃ page off inCur offset, Slot L len page off ∧ Counted (L.add page off len inCur) offset ∧
      tqFragAlloc lay s len =
        some ({ s with lastTqPageId := page % 128, lastTqPageOffset := offset },
          lay.tqPage (page % 128) + off, lay.tqPage (page % 128) + off) := by
  have hround := roundFrag_eq hlen
  have hle := h.offset_le
  have hfilled := h.filled
  have hu : u64 (s.lastTqPageOffset + roundFrag len) = s.lastTqPageOffset + roundFrag len :=
    u64_of_lt (by omega)
  have hsize : pageSize = 4096 := rfl
  simp only [tqFragAlloc, hu]
  by_cases hfits : s.lastTqPageOffset + roundFrag len ≤ pageSize
  · refine ⟨L.cur, s.lastTqPageOffset, L.inCur + 1, s.lastTqPageOffset + roundFrag len, ⟨hfits, ?_⟩,
      h.same hlen (by omega) (by omega) hfits, ?_⟩
    · intro k hk hage hpage
      have hbelow := h.below k hk
      have hbehind := h.behind k hk
      have hcur := h.page_le k hk
      omega
    · rw [if_pos hfits, haddrs _ (by omega), ← hid]
  · refine ⟨L.cur + 1, 0, 1, roundFrag len, ⟨by omega, ?_⟩,
      h.fresh hlen (by omega) (by omega) (by omega), ?_⟩
    · intro k hk hage hpage
      have hbehind := h.behind k hk
      have hcur := h.page_le k hk
      omega
    · have hpage : (s.lastTqPageId + 1) % (tqSize / 2) = (L.cur + 1) % 128 := by
        rw [hid]
        show (L.cur % 128 + 1) % 128 = _
        omega
      rw [if_neg hfits, if_pos (show roundFrag len ≤ pageSize by omega), hpage,
        haddrs _ (Nat.mod_lt _ (by decide))]
      rfl

/-! ## The ring -/

/-- The descriptors from the head up to the tail are the ones in flight. -/
def Tx.inFlight (s : Tx) : List Nat :=
  (List.range ((s.regTDT + tqSize - s.regTDH) % tqSize)).map fun i => (s.regTDH + i) % tqSize

/-- The driver and the card, with `done` packets behind the card and the head last seen at `seen`. -/
structure TxInv (lay : Layout) (s : Tx) (L : Ledger) (done seen : Nat) : Prop where
  addrs : ∀ i, i < 128 → s.tqAddrs i = lay.tqPage i
  counted : Counted L s.lastTqPageOffset
  pageId : s.lastTqPageId = L.cur % 128
  tdt : s.tdt = L.sent % 256
  regTDT : s.regTDT = L.sent % 256
  tdtReal : s.tdtReal = L.sent % 256
  tdh : s.tdh = seen % 256
  regTDH : s.regTDH = done % 256
  seen_le : seen ≤ done
  done_le : done ≤ L.sent
  sent_le : L.sent ≤ seen + 255
  desc : ∀ k, done ≤ k → k < L.sent →
    (s.tq (k % 256)).addr = lay.tqPage (L.page k % 128) + L.off k ∧ (s.tq (k % 256)).length = L.len k

section

variable {lay : Layout} {s : Tx} {done seen : Nat}

/-- The descriptors in flight, from the oldest one on. -/
theorem TxInv.inFlight (h : TxInv lay s L done seen) :
    s.inFlight = (List.range (L.sent - done)).map fun i => (done + i) % 256 := by
  have hle := h.done_le
  have hseen := h.seen_le
  have hsent := h.sent_le
  have hcount : (s.regTDT + tqSize - s.regTDH) % tqSize = L.sent - done := by
    rw [h.regTDT, h.regTDH]
    show (L.sent % 256 + 256 - done % 256) % 256 = _
    omega
  rw [Tx.inFlight, hcount]
  refine List.map_congr_left fun i _ => ?_
  rw [h.regTDH]
  exact Nat.mod_add_mod _ _ _

theorem TxInv.mem_inFlight (h : TxInv lay s L done seen) {i : Nat} :
    i ∈ s.inFlight ↔ ∃ k, done ≤ k ∧ k < L.sent ∧ k % 256 = i := by
  rw [h.inFlight, List.mem_map]
  simp only [List.mem_range]
  constructor
  · rintro ⟨j, hj, rfl⟩
    exact ⟨done + j, by omega, by omega, rfl⟩
  · rintro ⟨k, h1, h2, rfl⟩
    exact ⟨k - done, by omega, by rw [show done + (k - done) = k by omega]⟩

theorem initTx_inv (lay : Layout) (raw : Tx) :
    TxInv lay (initTx lay raw) ⟨0, fun _ => 0, fun _ => 0, fun _ => 0, 0, 0⟩ 0 0 := by
  have haddrs := forUp_inv (f := fun i addrs => Function.update addrs i (lay.tqPage i))
    (s := raw.tqAddrs) (n := tqSize) (fun n addrs => ∀ i, i < n → addrs i = lay.tqPage i)
    (fun i hi => absurd hi (Nat.not_lt_zero i)) ?_
  · constructor
    case addrs => exact fun i hi => haddrs i (Nat.lt_trans hi (by decide))
    case counted => constructor <;> simp [initTx]
    case desc => exact fun k _ hk => absurd hk (Nat.not_lt_zero k)
    all_goals simp [initTx]
  · intro n _ addrs ih i hi
    by_cases hin : i = n
    · rw [hin, Function.update_self]
    · rw [Function.update_of_ne hin]
      exact ih i (by omega)

/-- **The card moves on**. -/
theorem advance_inv (k : Nat) (h : TxInv lay s L done seen) :
    ∃ done', TxInv lay (advance s k) L done' seen ∧
      done' = if k ≤ L.sent - done then done + k else done := by
  have hle := h.done_le
  have hseen := h.seen_le
  have hsent := h.sent_le
  have hcount : (s.regTDT + tqSize - s.regTDH) % tqSize = L.sent - done := by
    rw [h.regTDT, h.regTDH]
    show (L.sent % 256 + 256 - done % 256) % 256 = _
    omega
  refine ⟨_, ?_, rfl⟩
  unfold advance
  rw [hcount]
  by_cases hk : k ≤ L.sent - done
  · rw [if_pos hk, if_pos hk]
    refine { h with regTDH := ?_, seen_le := by omega, done_le := by omega, desc := ?_ }
    · show (s.regTDH + k) % 256 = _
      rw [h.regTDH, Nat.mod_add_mod]
    · exact fun j hj => h.desc j (by omega)
  · rw [if_neg hk, if_neg hk]
    exact h

/-- Reading the head. -/
theorem refreshHead_inv (h : TxInv lay s L done seen) :
    ∃ seen', TxInv lay (refreshHead s) L done seen' := by
  unfold refreshHead
  split
  · have hsent := h.sent_le
    have hseen := h.seen_le
    exact ⟨done, { h with tdh := h.regTDH, seen_le := Nat.le_refl _, sent_le := by omega }⟩
  · exact ⟨seen, h⟩

/-- The head that `send` works with is the only thing that reading it changes. -/
theorem refreshHead_eq (s : Tx) : refreshHead s = { s with tdh := (refreshHead s).tdh } := by
  unfold refreshHead
  split <;> rfl

theorem submit_eq (td : TransDesc) (hreal : s.tdtReal = s.tdt) :
    submit s td =
      { s with
        tq := Function.update s.tq s.tdt td, tdt := (s.tdt + 1) % 256
        tdtReal := (s.tdt + 1) % 256, regTDT := (s.tdt + 1) % 256 } := by
  have hne : (s.tdt + 1) % tqSize ≠ s.tdtReal := by
    rw [hreal]
    show (s.tdt + 1) % 256 ≠ _
    omega
  simp only [submit]
  split
  · simp only [flush, ne_eq, not_true_eq_false, if_false]
    rfl
  · rw [flush, if_pos hne]
    rfl

/-- The state after a packet was put at `addr`. -/
def Tx.put (s : Tx) (addr : Nat) (buf : Nat → UInt8) (cnt pageId offset tdh : Nat) : Tx :=
  { s with
    tq := Function.update s.tq s.tdt (transDesc addr cnt), mem := memcpy s.mem addr buf cnt
    lastTqPageId := pageId, lastTqPageOffset := offset, tdh := tdh
    tdt := (s.tdt + 1) % 256, tdtReal := (s.tdt + 1) % 256, regTDT := (s.tdt + 1) % 256 }

theorem tqPage_lt (lay : Layout) {i off : Nat} (hi : i < 128) (hoff : off ≤ 4096) :
    lay.tqPage i + off ≤ 2 ^ 24 := by
  have hle : lay.tqPages + 128 * 4096 ≤ 2 ^ 24 := lay.tqPages_le
  show lay.tqPages + i * 4096 + off ≤ _
  omega

/-- The packet is on the books. -/
theorem put_inv {page off inCur offset seen' : Nat} (buf : Nat → UInt8)
    (h : TxInv lay s L done seen) (hseen : seen' ≤ done) (hroom : L.sent ≤ seen' + 254)
    (hlen : len ≤ 1500) (hoff : off ≤ 4096)
    (hcounted : Counted (L.add page off len inCur) offset) :
    TxInv lay (s.put (lay.tqPage (page % 128) + off) buf len (page % 128) offset (seen' % 256))
      (L.add page off len inCur) done seen' := by
  have hdone := h.done_le
  have hnext : (s.tdt + 1) % 256 = (L.sent + 1) % 256 := by rw [h.tdt, Nat.mod_add_mod]
  constructor
  case addrs => exact h.addrs
  case counted => exact hcounted
  case pageId => rfl
  case tdt => exact hnext
  case regTDT => exact hnext
  case tdtReal => exact hnext
  case tdh => rfl
  case regTDH => exact h.regTDH
  case seen_le => exact hseen
  case done_le => exact Nat.le_succ_of_le hdone
  case sent_le => exact Nat.succ_le_succ hroom
  case desc =>
    intro k hk hk'
    simp only [Ledger.add, Tx.put] at hk' ⊢
    rw [h.tdt]
    rcases Nat.lt_or_eq_of_le (Nat.le_of_lt_succ hk') with hlt | rfl
    · have hslot : k % 256 ≠ L.sent % 256 := by omega
      simp only [Function.update_of_ne hslot, Function.update_of_ne (Nat.ne_of_lt hlt)]
      exact h.desc k hk hlt
    · have haddr := tqPage_lt lay (i := page % 128) (Nat.mod_lt _ (by decide)) hoff
      simp only [Function.update_self, transDesc, u32, u16]
      exact ⟨Nat.mod_eq_of_lt (by omega), Nat.mod_eq_of_lt (by omega)⟩

/-- **`send`** fails and changes nothing but the head it has seen, or puts the packet into a slot. -/
theorem send_spec (buf : Nat → UInt8) (cnt : Int) (h : TxInv lay s L done seen) :
    (∃ seen', send lay s buf cnt = ({ s with tdh := seen' % 256 }, -1) ∧
      TxInv lay { s with tdh := seen' % 256 } L done seen') ∨
    ∃ page off inCur offset seen', L.sent ≤ done + 254 ∧ 0 ≤ cnt ∧ cnt ≤ 1500 ∧
      Slot L cnt.toNat page off ∧
      (∃ t, tqFragAlloc lay (refreshHead s) cnt.toNat =
        some (t, lay.tqPage (page % 128) + off, lay.tqPage (page % 128) + off)) ∧
      send lay s buf cnt = (s.put (lay.tqPage (page % 128) + off) buf cnt.toNat (page % 128) offset
        (seen' % 256), 0) ∧
      TxInv lay (s.put (lay.tqPage (page % 128) + off) buf cnt.toNat (page % 128) offset
        (seen' % 256)) (L.add page off cnt.toNat inCur) done seen' := by
  unfold send
  by_cases hcnt : cnt < 0 ∨ cnt > 1500
  · rw [if_pos hcnt]
    refine Or.inl ⟨seen, ?_, ?_⟩
    · rw [← h.tdh]
    · rw [← h.tdh]
      exact h
  rw [if_neg hcnt]
  have hlen : cnt.toNat ≤ 1500 := by omega
  obtain ⟨seen', h'⟩ := refreshHead_inv h
  have hrefresh : refreshHead s = { s with tdh := seen' % 256 } := by
    rw [refreshHead_eq, h'.tdh]
  simp only [hrefresh] at h' ⊢
  have hseen := h'.seen_le
  have hsent := h'.sent_le
  have hdone := h'.done_le
  by_cases hfull : (s.tdt + 1) % tqSize = seen' % 256
  · rw [if_pos hfull]
    exact Or.inl ⟨seen', rfl, h'⟩
  · rw [if_neg hfull]
    have hroom : L.sent ≤ seen' + 254 := by
      rw [h.tdt] at hfull
      have hne : (L.sent % 256 + 1) % 256 ≠ seen' % 256 := hfull
      omega
    obtain ⟨page, off, inCur, offset, hslot, hcounted, halloc⟩ :=
      tqFragAlloc_spec h'.counted h'.pageId h'.addrs hlen
    have hfits := hslot.fits
    have hreal : s.tdtReal = s.tdt := h.tdtReal.trans h.tdt.symm
    refine Or.inr ⟨page, off, inCur, offset, seen', by omega, by omega, by omega, hslot,
      ⟨_, halloc⟩, ?_, put_inv buf h hseen hroom hlen (by omega) hcounted⟩
    rw [halloc]
    exact congrArg (fun t => (t, (0 : Int))) (submit_eq _ hreal)

/-- A packet in flight and the one that is put next do not overlap. -/
theorem Slot.disjoint {page off k : Nat} (h : TxInv lay s L done seen) (hslot : Slot L len page off)
    (hage : L.sent ≤ done + 254) (hk : done ≤ k) (hk' : k < L.sent) :
    Disjoint (Set.Ico (lay.tqPage (page % 128) + off)
        (lay.tqPage (page % 128) + off + roundFrag len))
      (Set.Ico (s.tq (k % 256)).addr ((s.tq (k % 256)).addr + (s.tq (k % 256)).length)) := by
  obtain ⟨haddr, hlength⟩ := h.desc k hk hk'
  have hfits := hslot.fits
  have hclear := hslot.clear k hk' (by omega)
  have hinside := h.counted.inside k hk'
  rw [haddr, hlength, Set.disjoint_left]
  rintro x ⟨h1, h2⟩ ⟨h3, h4⟩
  simp only [Layout.tqPage, pageSize] at h1 h2 h3 h4
  omega

end

/-! ## Runs -/

/-- **Every run keeps it.** -/
theorem runTx_inv (lay : Layout) (raw : Tx) (evs : List TxEvent) :
    ∃ L done seen, TxInv lay (runTx lay (initTx lay raw) evs) L done seen := by
  induction evs using List.reverseRecOn with
  | nil => exact ⟨_, _, _, initTx_inv lay raw⟩
  | append_singleton evs e ih =>
    obtain ⟨L, done, seen, h⟩ := ih
    rw [runTx, List.foldl_append]
    show ∃ L done seen, TxInv lay (stepTx lay (runTx lay (initTx lay raw) evs) e) L done seen
    cases e with
    | send buf cnt =>
      rcases send_spec buf cnt h with ⟨seen', hsend, h'⟩ | ⟨_, _, _, _, _, _, _, _, _, _, hsend, h'⟩
      all_goals
        simp only [stepTx, hsend]
        exact ⟨_, _, _, h'⟩
    | advance k =>
      obtain ⟨done', h', -⟩ := advance_inv k h
      exact ⟨_, _, _, h'⟩

/-- What a call that returns 0 does: it writes one descriptor, which is not in flight, and one
    fragment, which overlaps no buffer in flight. -/
structure Placed (lay : Layout) (s : Tx) (buf : Nat → UInt8) (cnt : Int) (s' : Tx) : Prop where
  slot : s.tdt ∉ s.inFlight
  others : ∀ i, i ≠ s.tdt → s'.tq i = s.tq i
  fragment : ∃ t va, tqFragAlloc lay (refreshHead s) cnt.toNat = some (t, va, va) ∧
    s'.mem = memcpy s.mem va buf cnt.toNat ∧
    (s'.tq s.tdt).addr = va ∧ (s'.tq s.tdt).length = cnt.toNat ∧ cnt.toNat ≤ roundFrag cnt.toNat ∧
    ∀ i ∈ s.inFlight, Disjoint (Set.Ico va (va + roundFrag cnt.toNat))
      (Set.Ico (s.tq i).addr ((s.tq i).addr + (s.tq i).length))

/-- **Transmit buffers are not reused in flight**, whatever happened before the call. -/
theorem send_placed (lay : Layout) (raw : Tx) (evs : List TxEvent) (buf : Nat → UInt8) (cnt : Int) :
    let s := runTx lay (initTx lay raw) evs
    ((send lay s buf cnt).2 = -1 ∧ (send lay s buf cnt).1.tq = s.tq ∧
      (send lay s buf cnt).1.mem = s.mem) ∨
    ((send lay s buf cnt).2 = 0 ∧ Placed lay s buf cnt (send lay s buf cnt).1) := by
  intro s
  obtain ⟨L, done, seen, h⟩ : ∃ L done seen, TxInv lay s L done seen := runTx_inv lay raw evs
  rcases send_spec buf cnt h with
    ⟨seen', hsend, -⟩ | ⟨page, off, inCur, offset, seen', hage, h0, h1500, hslot, ⟨t, halloc⟩, hsend,
      h'⟩
  · rw [hsend]
    exact Or.inl ⟨rfl, rfl, rfl⟩
  rw [hsend]
  refine Or.inr ⟨rfl, ?_, fun i hi => Function.update_of_ne hi _ _, t, _, halloc, rfl, ?_, ?_, ?_, ?_⟩
  · rw [h.mem_inFlight, h.tdt]
    rintro ⟨k, hk, hk', hmod⟩
    omega
  · have hdesc := (h'.desc L.sent h.done_le (Nat.lt_succ_self _)).1
    rw [← h.tdt] at hdesc
    simpa [Ledger.add] using hdesc
  · have hdesc := (h'.desc L.sent h.done_le (Nat.lt_succ_self _)).2
    rw [← h.tdt] at hdesc
    simpa [Ledger.add] using hdesc
  · rw [roundFrag_eq (by omega)]
    omega
  · intro i hi
    obtain ⟨k, hk, hk', rfl⟩ := h.mem_inFlight.mp hi
    exact hslot.disjoint h hage hk hk'

/-! ## What the card sees -/

/-- The bytes that the card finds through a descriptor. -/
def Tx.frame (s : Tx) (i : Nat) : List UInt8 :=
  listOf (fun t => s.mem ((s.tq i).addr + t)) (s.tq i).length

/-- The packets that the card still has to send, in its order. -/
def Tx.wire (s : Tx) : List (List UInt8) := s.inFlight.map s.frame

/-- What an event does to the packets: `send` appends, if it returns 0, and the card takes from the
    front. -/
def wireStep (wire : List (List UInt8)) (accepted : Bool) : TxEvent → List (List UInt8)
  | .send buf cnt => if accepted then wire ++ [listOf buf cnt.toNat] else wire
  | .advance k => if k ≤ wire.length then wire.drop k else wire

section

variable {lay : Layout} {s : Tx} {done seen : Nat}

theorem TxInv.wire (h : TxInv lay s L done seen) : s.wire = Ring.window s.frame 256 done L.sent := by
  rw [Tx.wire, h.inFlight, List.map_map, Ring.window, List.range'_eq_map_range, List.map_map]
  rfl

/-- A packet in flight is not touched by the one that is put next. -/
theorem frame_put {page off k pageId offset tdh : Nat} (buf : Nat → UInt8)
    (h : TxInv lay s L done seen) (hslot : Slot L len page off) (hround : len ≤ roundFrag len)
    (hage : L.sent ≤ done + 254) (hk : done ≤ k) (hk' : k < L.sent) :
    (s.put (lay.tqPage (page % 128) + off) buf len pageId offset tdh).frame (k % 256) =
      s.frame (k % 256) := by
  have hdisjoint := Set.disjoint_left.mp (hslot.disjoint h hage hk hk')
  have hne : k % 256 ≠ s.tdt := by
    rw [h.tdt]
    omega
  simp only [Tx.frame, Tx.put, Function.update_of_ne hne]
  refine listOf_congr fun t ht => if_neg fun hin => ?_
  exact hdisjoint ⟨hin.1, by omega⟩ ⟨by omega, by omega⟩

/-- **A send adds a frame at the end**, if it says so. -/
theorem send_wire (buf : Nat → UInt8) (cnt : Int) (h : TxInv lay s L done seen) :
    (send lay s buf cnt).1.wire =
      wireStep s.wire (decide ((send lay s buf cnt).2 = 0)) (.send buf cnt) := by
  rcases send_spec buf cnt h with
    ⟨seen', hsend, h'⟩ | ⟨page, off, inCur, offset, seen', hage, h0, h1500, hslot, -, hsend, h'⟩
  · rw [hsend]
    rfl
  rw [hsend]
  have hlen : cnt.toNat ≤ 1500 := by omega
  have hround : cnt.toNat ≤ roundFrag cnt.toNat := by
    rw [roundFrag_eq hlen]
    omega
  obtain ⟨haddr, hlength⟩ := h'.desc L.sent h.done_le (Nat.lt_succ_self _)
  simp only [wireStep, decide_true, if_true]
  rw [h'.wire, h.wire]
  show Ring.window _ 256 done (L.sent + 1) = _
  rw [Ring.window_succ h.done_le, Ring.window_congr fun k hk hk' =>
    frame_put buf h hslot hround hage hk hk']
  refine congrArg (fun f => _ ++ [f]) ?_
  rw [Tx.frame, haddr, hlength]
  simp only [Ledger.add, Function.update_self]
  exact listOf_memcpy _ _ _ _

/-- **The card takes frames from the front.** -/
theorem advance_wire (k : Nat) (h : TxInv lay s L done seen) :
    (advance s k).wire = wireStep s.wire true (.advance k) := by
  obtain ⟨done', h', hdone'⟩ := advance_inv k h
  have hframe : (advance s k).frame = s.frame := by
    unfold advance
    split <;> rfl
  simp only [wireStep]
  rw [h'.wire, h.wire, hframe, Ring.length_window, hdone']
  split
  · rw [Ring.window_drop]
  · rfl

end

/-- **The card sees the accepted packets**, unchanged and in their order. -/
theorem run_wire (lay : Layout) (raw : Tx) (evs : List TxEvent) (e : TxEvent) :
    let s := runTx lay (initTx lay raw) evs
    (stepTx lay s e).wire = wireStep s.wire
      (match e with
        | .send buf cnt => decide ((send lay s buf cnt).2 = 0)
        | .advance _ => true) e := by
  intro s
  obtain ⟨L, done, seen, h⟩ : ∃ L done seen, TxInv lay s L done seen := runTx_inv lay raw evs
  cases e with
  | send buf cnt => exact send_wire buf cnt h
  | advance k => exact advance_wire k h

end JudgeDuck.E1000
