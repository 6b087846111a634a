/-
  When the scan of the PCI buses ends.

  Which bus a bridge leads to is a matter of what configuration space holds, and nothing in the code
  remembers the buses that are being scanned.  So the scan ends iff the bridges lead from bus 0 to no
  cycle (`init_finite_iff`); a bridge whose bus numbers have not been set leads from bus 0 to bus 0.

  1. `Same`: a scan changes no register that it reads.  The size of a region is found by writing ones
     to a register and writing back what was there (`write_write`).
  2. `bridgesTo`, `Bridges`: the graph of the buses, as configuration space describes it.
  3. `scanDevice_returnsIff`: a bus is scanned iff the buses that its bridges lead to are.
  4. `scanBus_returnsIff`: so a scan is a recursion along `Bridges`, for which `Lib.Descent` says when it
     ends.
-/
import JudgeDuck.Pci.Model
import JudgeDuck.Lib.Descent

namespace JudgeDuck.Pci

open JudgeDuck.Lib Relation

/-! ## What a scan keeps -/

/-- The registers agree, except for the command registers, which are never read. -/
structure Same (c c' : Config) : Prop where
  writable : c'.writable = c.writable
  value : ∀ a : Reg, a.off ≠ 0x04 → c'.value a = c.value a

/-- `f` is a function of a device of a bus. -/
structure Valid (f : Func) : Prop where
  bus : f.bus < 256
  dev : f.dev < 32
  func : f.func < 8

/-- The offset of a register, and not of a command register. -/
def Scanned (off : Nat) : Prop := off < 256 ∧ off &&& 3 = 0 ∧ off ≠ 0x04

instance (off : Nat) : Decidable (Scanned off) := inferInstanceAs (Decidable (_ ∧ _))

/-- The register of `f` at `off`. -/
def regOf (f : Func) (off : Nat) : Reg := ⟨f.bus, f.dev, f.func, off⟩

section

variable {c : Config} {s : Host} {f : Func}

theorem conf1SetAddr_eq (hf : Valid f) {off : Nat} (hoff : off < 256) (halign : off &&& 3 = 0) :
    conf1SetAddr f.bus f.dev f.func off = .ok (regOf f off) := by
  rw [conf1SetAddr, if_neg (fun h => h hf.bus), if_neg (fun h => h hf.dev), if_neg (fun h => h hf.func),
    if_neg (fun h => h hoff), if_neg (fun h => h halign), regOf]

theorem confRead_eq (hf : Valid f) {off : Nat} (hoff : off < 256) (halign : off &&& 3 = 0) :
    confRead s f off = .ok (s.config.value (regOf f off)) := by
  rw [confRead, conf1SetAddr_eq hf hoff halign]
  rfl

theorem confWrite_eq (hf : Valid f) {off : Nat} (hoff : off < 256) (halign : off &&& 3 = 0)
    (v : BitVec 32) :
    confWrite s f off v = .ok { s with config := s.config.write (regOf f off) v } := by
  rw [confWrite, conf1SetAddr_eq hf hoff halign]
  rfl

/-- A register that the scan reads holds what it held at the start. -/
theorem confRead_same (hs : Same c s.config) (hf : Valid f) {off : Nat} (hoff : Scanned off) :
    confRead s f off = .ok (c.value (regOf f off)) := by
  rw [confRead_eq hf hoff.1 hoff.2.1, hs.value (regOf f off) hoff.2.2]

/-- Bits that are written and then written back. -/
theorem merge_merge (old v m : BitVec 32) :
    ((((old &&& ~~~ m) ||| (v &&& m)) &&& ~~~ m) ||| (old &&& m)) = old := by
  apply BitVec.eq_of_getLsbD_eq
  intro i hi
  simp only [BitVec.getLsbD_or, BitVec.getLsbD_and, BitVec.getLsbD_not, hi, decide_true, Bool.true_and]
  cases m.getLsbD i
  · simp
  · simp

/-- **Writing back undoes a write.** -/
theorem write_write (c : Config) (a : Reg) (v : BitVec 32) : (c.write a v).write a (c.value a) = c := by
  have hvalue : ((c.write a v).write a (c.value a)).value = c.value := by
    simp only [Config.write, Function.update_self, Function.update_idem, merge_merge, Function.update_eq_self]
  cases c
  simp only [Config.write] at hvalue ⊢
  rw [hvalue]

/-- A register that is zero after ones were written to it has no bits that can be written, and it was
    zero before. -/
theorem write_ones_of_zero {c : Config} {a : Reg} (h : (c.write a 0xffffffff).value a = 0) :
    c.write a 0xffffffff = c := by
  have hnew : (c.value a &&& ~~~ c.writable a) ||| (BitVec.allOnes 32 &&& c.writable a) = 0 := by
    have hones : (0xffffffff : BitVec 32) = BitVec.allOnes 32 := rfl
    simpa only [Config.write, Function.update_self, hones] using h
  obtain ⟨hfixed, hmask⟩ := BitVec.or_eq_zero_iff.mp hnew
  rw [BitVec.allOnes_and] at hmask
  have hold : c.value a = 0 := by
    rwa [hmask, BitVec.not_zero, BitVec.and_allOnes] at hfixed
  have hvalue : (c.write a 0xffffffff).value = c.value := by
    have hsame : Function.update c.value a ((c.write a 0xffffffff).value a) = c.value := by
      rw [h, ← hold, Function.update_eq_self]
    simpa only [Config.write, Function.update_self] using hsame
  cases c
  simp only [Config.write] at hvalue ⊢
  rw [hvalue]

/-- **A turn of `pci_func_enable` leaves configuration space as it was.** -/
theorem enableBar_ok {bar : Nat} (hf : Valid f) (hbar : bar < 0x28) (halign : bar &&& 3 = 0) :
    ∃ f' width, enableBar (bar, f, s) = .ok (bar + width, f', s) ∧ Valid f' ∧ (width = 4 ∨ width = 8) := by
  have hread : ∀ s : Host, confRead s f bar = .ok (s.config.value (regOf f bar)) :=
    fun s => confRead_eq hf (by omega) halign
  have hwrite : ∀ (s : Host) (v : BitVec 32),
      confWrite s f bar v = .ok { s with config := s.config.write (regOf f bar) v } :=
    fun s v => confWrite_eq hf (by omega) halign v
  simp only [enableBar, hread, hwrite, bind, Except.bind, write_write]
  split
  · rename_i hzero
    rw [write_ones_of_zero hzero]
    exact ⟨f, 4, rfl, hf, Or.inl rfl⟩
  · refine ⟨_, _, rfl, ⟨hf.bus, hf.dev, hf.func⟩, ?_⟩
    split
    · exact Or.inr rfl
    · exact Or.inl rfl

/-- `pci_func_enable` returns, and changes a command register only. -/
theorem funcEnable_ok (hs : Same c s.config) (hf : Valid f) :
    ∃ f' s', funcEnable f s = .ok (f', s') ∧ Valid f' ∧ Same c s'.config := by
  have hcommand : Same c (s.config.write (regOf f 0x04) 7) := by
    refine ⟨hs.writable, ?_⟩
    intro a ha
    rw [← hs.value a ha]
    refine Function.update_of_ne ?_ _ _
    rintro rfl
    exact ha rfl
  obtain ⟨⟨bar, f', s'⟩, hloop, hvalid, -, -, hsame⟩ :
      ∃ p, whileM (fun p : Nat × Func × Host => decide (p.1 < 0x28)) enableBar 0x28
          (0x10, f, { s with config := s.config.write (regOf f 0x04) 7 }) = .ok p ∧
        Valid p.2.1 ∧ p.1 % 4 = 0 ∧ p.1 ≤ 0x2c ∧ Same c p.2.2.config := by
    refine whileM_variant
      (fun p : Nat × Func × Host => Valid p.2.1 ∧ p.1 % 4 = 0 ∧ p.1 ≤ 0x2c ∧ Same c p.2.2.config)
      (fun p => 0x2c - p.1) ?_ ⟨hf, show 0x10 % 4 = 0 by decide, show 0x10 ≤ 0x2c by decide, hcommand⟩
      (show 0x2c - 0x10 < 0x28 by decide)
    rintro ⟨bar, g, t⟩ ⟨hg, hmod, -, ht⟩ hcond
    have hbar : bar < 0x28 := of_decide_eq_true hcond
    have halign : bar &&& 3 = 0 := (Nat.and_two_pow_sub_one_eq_mod bar 2).trans hmod
    obtain ⟨g', width, hturn, hg', hwidth⟩ := enableBar_ok (s := t) hg hbar halign
    dsimp only at hmod
    refine ⟨_, hturn, ⟨hg', ?_, ?_, ht⟩, ?_⟩
    all_goals
      dsimp only
      omega
  refine ⟨f', s', ?_, hvalid, hsame⟩
  rw [funcEnable, confWrite_eq hf (by decide) (by decide)]
  exact bind_of_ok hloop

end

/-! ## The graph of the buses -/

/-- The number of functions of a device that `pci_scan_bus` looks at. -/
def nFuncs (c : Config) (busno dev : Nat) : Nat :=
  let bhlc := c.value ⟨busno, dev, 0, 0x0c⟩
  if hdrtypeType bhlc > 1 then 0 else if hdrtypeMultifn bhlc then 8 else 1

/-- The bus that a function leads to, if it is a bridge that is followed. -/
def bridgesTo (c : Config) (busno dev func : Nat) : Option Nat :=
  let reg := fun off => c.value ⟨busno, dev, func, off⟩
  if vendor (reg 0x00) ≠ 0xffff ∧ classOf (reg 0x08) = 0x06 ∧ subclassOf (reg 0x08) = 0x04 ∧
      bridgeIo32Bits (reg 0x1c) = false then
    some (secondary (reg 0x18))
  else none

/-- A bridge on the first bus leads to the second one. -/
def Bridges (c : Config) (busno busno' : Nat) : Prop :=
  ∃ dev < 32, ∃ func < nFuncs c busno dev, bridgesTo c busno dev func = some busno'

theorem secondary_lt (busreg : BitVec 32) : secondary busreg < 256 := by
  rw [secondary, BitVec.toNat_and]
  exact Nat.lt_of_le_of_lt Nat.and_le_right (by decide)

theorem Bridges.lt {c : Config} {busno busno' : Nat} (h : Bridges c busno busno') : busno' < 256 := by
  obtain ⟨dev, -, func, -, hto⟩ := h
  rw [bridgesTo] at hto
  split at hto
  · cases hto
    exact secondary_lt _
  · cases hto

theorem mem_range_of_reachable {c : Config} {busno : Nat} (h : ReflTransGen (Bridges c) 0 busno) :
    busno ∈ Finset.range 256 := by
  rw [Finset.mem_range]
  rcases h.cases_tail with rfl | ⟨b, -, hstep⟩
  · decide
  · exact hstep.lt

/-! ## One bus -/

/-- What a driver's `attachfn` leaves: a function of a device, and the registers. -/
def Attached (c : Config) (r : Int × Func × Host) : Prop := Valid r.2.1 ∧ Same c r.2.2.config

section

variable {c : Config} {s : Host} {f : Func}

/-- `pci_store` always returns. -/
theorem store_ok (hf : Valid f) (hs : Same c s.config) : ∃ r, store f s = .ok r ∧ Attached c r := by
  rw [store]
  split
  · obtain ⟨f', s', henable, hf', hs'⟩ := funcEnable_ok hs hf
    rw [bind_of_ok henable]
    exact ⟨_, rfl, hf', hs'⟩
  · exact ⟨_, rfl, hf, hs⟩

/-- Drivers that always return. -/
theorem attachMatch_ok {list : List Driver} (key1 key2 : BitVec 32)
    (hlist : ∀ d ∈ list, ∀ f s, Valid f → Same c s.config → ∃ r, d.attachfn f s = .ok r ∧ Attached c r)
    (hf : Valid f) (hs : Same c s.config) :
    ∃ r, attachMatch key1 key2 list f s = .ok r ∧ Attached c r := by
  induction list generalizing f s with
  | nil => exact ⟨_, rfl, hf, hs⟩
  | cons d list ih =>
    have ih := @ih
    rw [List.forall_mem_cons] at hlist
    rw [attachMatch]
    split
    · obtain ⟨⟨r, f', s'⟩, hattach, hf', hs'⟩ := hlist.1 f s hf hs
      rw [bind_of_ok hattach]
      dsimp only
      split
      · exact ⟨_, rfl, hf', hs'⟩
      · exact ih hlist.2 hf' hs'
    · exact ih hlist.2 hf hs

theorem attachVendor_ok (key1 key2 : BitVec 32) (hf : Valid f) (hs : Same c s.config) :
    ∃ r, attachMatch key1 key2 attachVendor f s = .ok r ∧ Attached c r := by
  refine attachMatch_ok key1 key2 ?_ hf hs
  have hstore : ∀ d ∈ attachVendor, d.attachfn = store := by
    simp [attachVendor]
  intro d hd f s hf hs
  rw [hstore d hd]
  exact store_ok hf hs

/-- A bridge that is not followed is looked up in the other table as well; that always returns. -/
theorem attachByVendor_ok {r : Int × Func × Host} (hr : Attached c r) :
    ∃ r', attachByVendor r = .ok r' ∧ Same c r'.2.2.config := by
  rw [attachByVendor]
  split
  · exact ⟨_, rfl, hr.2⟩
  · obtain ⟨r', hr', -, hs'⟩ := attachVendor_ok (vendor r.2.1.devId) (product r.2.1.devId) hr.1 hr.2
    dsimp only
    rw [bind_of_ok hr']
    exact ⟨_, rfl, hs'⟩

variable {scan : Nat → Host → Except Fault (Nat × Host)} {D : Nat → Prop}

/-- The scan of a bus `b` returns iff `D b`. -/
def Scans (c : Config) (scan : Nat → Host → Except Fault (Nat × Host)) (D : Nat → Prop) : Prop :=
  ∀ b < 256, ∀ s : Host, Same c s.config →
    ReturnsIff .diverges (fun r => Same c r.2.config) (D b) (scan b s)

/-- **A bridge**: attaching it returns if the scan of the bus behind it does. -/
theorem bridgeAttach_returnsIff (hscan : Scans c scan D) (hf : Valid f) (hs : Same c s.config) :
    ReturnsIff .diverges (Attached c)
      (bridgeIo32Bits (c.value (regOf f 0x1c)) = false → D (secondary (c.value (regOf f 0x18))))
      (bridgeAttach scan f s) := by
  rw [bridgeAttach, bind_of_ok (confRead_same hs hf (by decide)),
    bind_of_ok (confRead_same hs hf (by decide))]
  split
  · rename_i hio
    refine (ReturnsIff.of_ok rfl ⟨hf, hs⟩).congr ?_
    simp [hio]
  · rename_i hio
    refine ((hscan _ (secondary_lt _) s hs).andThen ?_).congr ?_
    · exact fun r hr => ⟨_, rfl, hf, hr⟩
    · simp [hio]

/-- **A function** is attached; only bridges go on to another bus. -/
theorem attach_returnsIff (hscan : Scans c scan D) (hf : Valid f) (hs : Same c s.config) :
    ReturnsIff .diverges (fun r => Same c r.2.2.config)
      (classOf f.devClass = 0x06 ∧ subclassOf f.devClass = 0x04 →
        bridgeIo32Bits (c.value (regOf f 0x1c)) = false → D (secondary (c.value (regOf f 0x18))))
      (attach scan f s) := by
  rw [attach, attachClass, attachMatch]
  refine ReturnsIff.andThen (P := Attached c) ?_ fun r hr => attachByVendor_ok hr
  by_cases hbridge : classOf f.devClass = 0x06 ∧ subclassOf f.devClass = 0x04
  · rw [if_pos ⟨hbridge.1.symm, hbridge.2.symm⟩]
    refine ((bridgeAttach_returnsIff hscan hf hs).andThen ?_).congr ?_
    · rintro ⟨r, f, s⟩ ⟨hf, hs⟩
      dsimp only
      split
      · exact ⟨_, rfl, hf, hs⟩
      · exact ⟨_, rfl, hf, hs⟩
    · simp [hbridge]
  · rw [if_neg fun h => hbridge ⟨h.1.symm, h.2.symm⟩]
    exact (ReturnsIff.of_ok rfl ⟨hf, hs⟩).congr ⟨fun _ h => absurd h hbridge, fun _ => trivial⟩

/-- The tests on the way to `pci_scan_bus`, one after the other. -/
theorem forall_bridgesTo (c : Config) (busno dev func : Nat) :
    (∀ b, bridgesTo c busno dev func = some b → D b) ↔
      (vendor (c.value ⟨busno, dev, func, 0x00⟩) ≠ 0xffff →
        classOf (c.value ⟨busno, dev, func, 0x08⟩) = 0x06 ∧
          subclassOf (c.value ⟨busno, dev, func, 0x08⟩) = 0x04 →
        bridgeIo32Bits (c.value ⟨busno, dev, func, 0x1c⟩) = false →
        D (secondary (c.value ⟨busno, dev, func, 0x18⟩))) := by
  simp only [bridgesTo]
  split
  · rename_i h
    constructor
    · intro hall _ _ _
      exact hall _ rfl
    · rintro hD b hb
      cases hb
      exact hD h.1 ⟨h.2.1, h.2.2.1⟩ h.2.2.2
  · rename_i h
    constructor
    · intro _ h1 h2 h3
      exact absurd ⟨h1, h2.1, h2.2, h3⟩ h
    · intro _ b hb
      cases hb

/-- A function is dealt with iff the bus behind it is scanned. -/
theorem scanFunc_returnsIff (hscan : Scans c scan D) {busno dev func : Nat} (hbus : busno < 256)
    (hdev : dev < 32) (hfunc : func < 8) (hs : Same c s.config) :
    ReturnsIff .diverges (fun s => Same c s.config) (∀ b, bridgesTo c busno dev func = some b → D b)
      (scanFunc scan (deviceFunc busno dev) func s) := by
  have hf : Valid { deviceFunc busno dev with func := func } := ⟨hbus, hdev, hfunc⟩
  have hread : ∀ off, Scanned off →
      confRead s { deviceFunc busno dev with func := func } off = .ok (c.value ⟨busno, dev, func, off⟩) :=
    fun off hoff => confRead_same hs hf hoff
  rw [scanFunc]
  dsimp only
  rw [bind_of_ok (hread 0x00 (by decide))]
  refine ReturnsIff.congr ?_ (forall_bridgesTo c busno dev func).symm
  by_cases hvendor : vendor (c.value ⟨busno, dev, func, 0x00⟩) = 0xffff
  · rw [if_pos hvendor]
    refine ReturnsIff.congr (.of_ok rfl ?_) ⟨fun _ hne => absurd hvendor hne, fun _ => trivial⟩
    exact hs
  · rw [if_neg hvendor, bind_of_ok (hread 0x3c (by decide)),
      bind_of_ok (hread 0x08 (by decide))]
    refine ((attach_returnsIff hscan ?_ hs).andThen ?_).congr ?_
    · exact ⟨hbus, hdev, hfunc⟩
    · exact fun r hr => ⟨_, rfl, hr⟩
    · exact ⟨fun h _ => h, fun h => h hvendor⟩

/-- A device is dealt with iff its functions are. -/
theorem scanDevice_returnsIff (hscan : Scans c scan D) {busno dev : Nat} (hbus : busno < 256)
    (hdev : dev < 32) {p : Nat × Host} (hp : Same c p.2.config) :
    ReturnsIff .diverges (fun p => Same c p.2.config)
      (∀ func < nFuncs c busno dev, ∀ b, bridgesTo c busno dev func = some b → D b)
      (scanDevice scan busno dev p) := by
  obtain ⟨totaldev, s⟩ := p
  have hf : Valid (deviceFunc busno dev) := ⟨hbus, hdev, show 0 < 8 by decide⟩
  have hread : confRead s (deviceFunc busno dev) 0x0c = .ok (c.value ⟨busno, dev, 0, 0x0c⟩) :=
    confRead_same hp hf (by decide)
  rw [scanDevice, bind_of_ok hread]
  by_cases htype : hdrtypeType (c.value ⟨busno, dev, 0, 0x0c⟩) > 1
  · have hnone : nFuncs c busno dev = 0 := if_pos htype
    rw [if_pos htype, hnone]
    refine ReturnsIff.congr (.of_ok rfl ?_)
      ⟨fun _ func hfunc => absurd hfunc (Nat.not_lt_zero func), fun _ => trivial⟩
    exact hp
  · have hsome : nFuncs c busno dev = if hdrtypeMultifn (c.value ⟨busno, dev, 0, 0x0c⟩) then 8 else 1 :=
      if_neg htype
    have hle : nFuncs c busno dev ≤ 8 := by
      rw [hsome]
      split
      · exact le_rfl
      · decide
    rw [if_neg htype, ← hsome]
    refine (forUpM_returnsIff (P := fun s => Same c s.config) hp ?_).andThen ?_
    · intro func hfunc t ht
      exact scanFunc_returnsIff hscan hbus hdev (by omega) ht
    · exact fun t ht => ⟨_, rfl, ht⟩

end

/-! ## All buses -/

/-- **A scan is a recursion along the bridges.** -/
theorem scanBus_returnsIff (c : Config) (depth : Nat) :
    Scans c (scanBus depth) (Descends (Bridges c) depth) := by
  induction depth with
  | zero =>
    intro busno _ s _
    exact ⟨rfl, not_false⟩
  | succ depth ih =>
    intro busno hbus s hs
    rw [scanBus]
    have hloop := forUpM_returnsIff (n := 32) (s := (0, s)) (P := fun p : Nat × Host => Same c p.2.config) hs
      fun dev hdev p hp => scanDevice_returnsIff ih hbus hdev hp
    refine hloop.congr ?_
    constructor
    · rintro h b ⟨dev, hdev, func, hfunc, hto⟩
      exact h dev hdev func hfunc b hto
    · intro h dev hdev func hfunc b hto
      exact h b ⟨dev, hdev, func, hfunc, hto⟩

/-- **The whole scan** returns if the buses descend from bus 0 within the depth. -/
theorem init_returnsIff (depth : Nat) (s : Host) :
    ReturnsIff .diverges (fun r => Same s.config r.2.config) (Descends (Bridges s.config) depth 0)
      (init depth s) :=
  scanBus_returnsIff s.config depth 0 (by decide) s ⟨rfl, fun _ _ => rfl⟩

/-- **The scan ends iff the bridges lead from bus 0 to no cycle.**  Then it is at most 256 buses deep,
    and leaves the registers it has read as they were; else no depth is enough. -/
theorem init_finite_iff (s : Host) :
    ((∃ depth r, init depth s = .ok r) ↔ Acyclic (Bridges s.config) 0) ∧
    (Acyclic (Bridges s.config) 0 → ∀ depth, 256 ≤ depth →
      ∃ r, init depth s = .ok r ∧ Same s.config r.2.config) ∧
    (¬ Acyclic (Bridges s.config) 0 → ∀ depth, init depth s = .error .diverges) := by
  have hreach : ∀ b, ReflTransGen (Bridges s.config) 0 b → b ∈ Finset.range 256 :=
    fun b hb => mem_range_of_reachable hb
  refine ⟨?_, ?_, ?_⟩
  · rw [← exists_descends_iff hreach]
    refine exists_congr fun depth => ?_
    constructor
    · rintro ⟨r, hr⟩
      by_contra hnot
      rw [(init_returnsIff depth s).eq_error hnot] at hr
      cases hr
    · intro hdepth
      obtain ⟨r, hr, -⟩ := (init_returnsIff depth s).exists_ok hdepth
      exact ⟨r, hr⟩
  · intro hacyclic depth hdepth
    refine (init_returnsIff depth s).exists_ok (descends_of_acyclic hreach ?_ hacyclic)
    rwa [Finset.card_range]
  · intro hcycle depth
    exact (init_returnsIff depth s).eq_error fun hdepth => hcycle hdepth.acyclic

/-- A machine with one bridge, at bus 0, device 0, whose bus numbers have not been set; no other device
    answers. -/
def unconfigured : Host where
  config :=
    { value := fun a =>
        if a.bus = 0 ∧ a.dev = 0 then
          if a.off = 0x00 then 0x12348086
          else if a.off = 0x08 then 0x06040000
          else if a.off = 0x0c then 0x00010000
          else 0
        else 0xffffffff
      writable := fun _ => 0 }
  stored := []

/-- The bridge leads from bus 0 to bus 0, so no depth is enough. -/
theorem init_unconfigured :
    Bridges unconfigured.config 0 0 ∧ ∀ depth, init depth unconfigured = .error .diverges := by
  have hloop : Bridges unconfigured.config 0 0 := ⟨0, by decide, 0, by decide, by decide⟩
  refine ⟨hloop, ?_⟩
  intro depth
  exact (init_returnsIff depth unconfigured).eq_error fun h => h.not_transGen (.single hloop)

end JudgeDuck.Pci
