/-
  Returning to a 32-bit program from `int $0x80` (`kern/trap.cpp`, `kern/trap_entry.S`).

  An `iret` to a 16-bit stack segment loads only the lower half of `esp`; the upper half keeps what the
  kernel had there.  So the kernel gives its own `esp` the upper half of the program's one first: it
  moves to a stack segment whose base makes up for the difference, and returns from there.  The base
  is a multiple of 64 KiB that is split over two fields of a segment descriptor.

  1. `prepare_espfix` and `trap_0x80_handler`, and the segment the processor sees in a descriptor.
  2. `__trap_0x80_return` as the instructions it consists of, up to its last one, the 32-bit `iret`.
  3. `espfixWord_base`: what the descriptor decodes to.  `base_add_esp` and `esp_upper`: the two
     properties of the base and the new stack pointer.
  4. `espfix_sound`: they make the last `iret` pop the frame of the trap.

  Left out: `trap_handler`, for the other values of `eax`; the checks that the processor makes before it
  loads a segment register; memory that is not the trap frame.
-/
import Mathlib.Algebra.Order.Ring.Nat
import Mathlib.Logic.Function.Basic
import Mathlib.Tactic.Common

namespace JudgeDuck.Trap

/-! ## `Trapframe` -/

/-- `sizeof(Trapframe::fxstate)`. -/
def sizeofFxstate : Nat := 512

/-- `offsetof(Trapframe, tf_regs)`: `rcx`, `rbx`, `rbp`, `rsi`, `rdi`, `r8` to `r15`, `tsc`, `rax` and
    `rdx`. -/
def tfRegs : Nat := sizeofFxstate + 8

/-- `offsetof(Trapframe, tf_rip)`, after `tf_num` and `tf_errorcode`. -/
def tfRip : Nat := tfRegs + 16 * 8 + 16

/-- `offsetof(Trapframe, tf_cs)`. -/
def tfCs : Nat := tfRip + 8

/-- `offsetof(Trapframe, tf_rflags)`. -/
def tfRflags : Nat := tfCs + 8

/-- `offsetof(Trapframe, tf_rsp)`. -/
def tfRsp : Nat := tfRflags + 8

/-- `offsetof(Trapframe, tf_ss)`. -/
def tfSs : Nat := tfRsp + 8

/-! ## The descriptor table -/

/-- `GDT_USER32_SS`. -/
def gdtUser32Ss : BitVec 16 := 48

/-- `GDT_USER32_TLS`. -/
def gdtUser32Tls : BitVec 16 := 56

/-- `GDT_ESPFIX_SS`. -/
def gdtEspfixSs : BitVec 16 := 64

/-- `GDT_KERNEL32_CS`. -/
def gdtKernel32Cs : BitVec 16 := 72

/-- The entry of `gdt` that a selector names: the lower three bits are not part of the index. -/
def index (selector : BitVec 16) : Nat := (selector >>> 3).toNat

/-- `gdt` and `__espfix_new_kernel_rsp`. -/
structure Statics where
  gdt : Nat → BitVec 64
  espfixNewKernelRsp : BitVec 64

/-- `prepare_espfix(orig_rsp, new_rsp)`. -/
def prepareEspfix (t : Statics) (origRsp newRsp : BitVec 64) : Statics :=
  let baseAddr := ((origRsp >>> 16) - (newRsp >>> 16)) <<< 16
  let baseAddr := (baseAddr.setWidth 32).setWidth 64
  let tmp : BitVec 64 := 0xffff
  let tmp := tmp ||| (baseAddr &&& 0xffffff) <<< 16
  let tmp := tmp ||| (baseAddr >>> 24) <<< 56
  let tmp := tmp ||| 0x00cf920000000000
  { t with
    gdt := Function.update t.gdt (index gdtEspfixSs) tmp
    espfixNewKernelRsp := ((origRsp - baseAddr).setWidth 32).setWidth 64 }

/-- A segment as the processor reads it from a descriptor. -/
structure Segment where
  base : BitVec 32
  limit : BitVec 20
  type : BitVec 4
  /-- Not a system segment. -/
  isUser : Bool
  dpl : BitVec 2
  present : Bool
  /-- The D/B flag: the stack pointer of a stack segment is `esp`, not `sp`. -/
  big : Bool
  /-- The G flag: `limit` counts pages. -/
  pages : Bool
deriving DecidableEq

/-- The fields of a segment descriptor. -/
def segment (d : BitVec 64) : Segment where
  base := d.extractLsb' 56 8 ++ d.extractLsb' 16 24
  limit := d.extractLsb' 48 4 ++ d.extractLsb' 0 16
  type := d.extractLsb' 40 4
  isUser := d.getLsbD 44
  dpl := d.extractLsb' 45 2
  present := d.getLsbD 47
  big := d.getLsbD 54
  pages := d.getLsbD 55

/-! ## The processor -/

/-- Memory as words of 32 bits under their addresses, and the registers that the return path uses. -/
structure Machine where
  mem : Nat → BitVec 32
  rsp : Nat
  rax : BitVec 64
  rcx : BitVec 64
  rdx : BitVec 64
  rbx : BitVec 64
  rbp : BitVec 64
  rsi : BitVec 64
  rdi : BitVec 64
  rip : BitVec 64
  rflags : BitVec 64
  cs : BitVec 16
  ss : BitVec 16

namespace Machine

/-- The 64-bit word at `a`. -/
def qword (m : Machine) (a : Nat) : BitVec 64 := m.mem (a + 4) ++ m.mem a

/-- `movl v, (a)`. -/
def movl (m : Machine) (a : Nat) (v : BitVec 32) : Machine :=
  { m with mem := Function.update m.mem a v }

/-- `movq v, (a)`. -/
def movq (m : Machine) (a : Nat) (v : BitVec 64) : Machine :=
  (m.movl a (v.extractLsb' 0 32)).movl (a + 4) (v.extractLsb' 32 32)

/-- `pushq v`. -/
def pushq (m : Machine) (v : BitVec 64) : Machine :=
  { m with rsp := m.rsp - 8 }.movq (m.rsp - 8) v

/-- The word that a `popq` stores in its register. -/
def top (m : Machine) : BitVec 64 := m.qword m.rsp

/-- `addq $n, %rsp`; with 8, what a `popq` does to the stack. -/
def addRsp (m : Machine) (n : Nat) : Machine := { m with rsp := m.rsp + n }

/-- `iretq`: five 64-bit words. -/
def iretq (m : Machine) : Machine :=
  { m with
    rip := m.qword m.rsp
    cs := (m.qword (m.rsp + 8)).setWidth 16
    rflags := m.qword (m.rsp + 16)
    rsp := (m.qword (m.rsp + 24)).toNat
    ss := (m.qword (m.rsp + 32)).setWidth 16 }

end Machine

/-- The registers with which a 32-bit program goes on. -/
structure Resumed where
  eip : BitVec 32
  cs : BitVec 16
  eflags : BitVec 32
  esp : BitVec 32
  ss : BitVec 16
deriving DecidableEq

/-- The 32-bit word at offset `i` from `esp` in the stack segment.  Linear addresses have 32 bits. -/
def popped (gdt : Nat → BitVec 64) (m : Machine) (i : BitVec 32) : BitVec 32 :=
  m.mem ((segment (gdt (index m.ss))).base + (BitVec.ofNat 32 m.rsp + i)).toNat

/-- `iret` in a 32-bit code segment, to a program of lower privilege: five 32-bit words.  If the stack
    segment of the program is a 16-bit one, the upper half of `esp` stays as it is. -/
def iret (gdt : Nat → BitVec 64) (m : Machine) : Resumed :=
  let ss := (popped gdt m 16).setWidth 16
  let esp := popped gdt m 12
  { eip := popped gdt m 0
    cs := (popped gdt m 4).setWidth 16
    eflags := popped gdt m 8
    esp :=
      if (segment (gdt (index ss))).big then esp
      else (BitVec.ofNat 32 m.rsp).extractLsb' 16 16 ++ esp.extractLsb' 0 16
    ss := ss }

/-- `__trap_0x80_return(tf)`, up to the `iret` at the label `1`, which has the address `label`. -/
def trap0x80Return (t : Statics) (label : BitVec 64) (tf : Nat) (m : Machine) : Machine :=
  let m := { m with rsp := tf }
  let m := m.addRsp sizeofFxstate
  -- `fsbase`
  let m := { m with rax := m.top }.addRsp 8
  let m := { m with rcx := m.top }.addRsp 8
  let m := { m with rbx := m.top }.addRsp 8
  let m := { m with rbp := m.top }.addRsp 8
  let m := { m with rsi := m.top }.addRsp 8
  let m := { m with rdi := m.top }.addRsp 8
  -- `r8` to `r15`
  let m := m.addRsp 64
  -- `tsc`
  let m := { m with rax := m.top }.addRsp 8
  -- the frame, from 64-bit to 32-bit words
  let m := m.movl (m.rsp + 36) (m.mem (m.rsp + 40))
  let m := m.movl (m.rsp + 40) (m.mem (m.rsp + 48))
  let m := m.movl (m.rsp + 44) (m.mem (m.rsp + 56))
  let m := m.movl (m.rsp + 48) (m.mem (m.rsp + 64))
  let m := { m with rax := m.top }.addRsp 8
  let m := { m with rdx := m.top }.addRsp 8
  let m := m.addRsp 16
  let m := m.pushq (gdtEspfixSs.setWidth 64)
  let m := m.pushq t.espfixNewKernelRsp
  let m := m.pushq m.rflags
  let m := m.pushq (gdtKernel32Cs.setWidth 64)
  let m := m.pushq label
  m.iretq

/-! ## `trap_0x80_handler` -/

/-- `user_desc`, without the flags, which are not looked at. -/
structure UserDesc where
  entryNumber : BitVec 32
  baseAddr : BitVec 32
  limit : BitVec 32
deriving DecidableEq

/-- `sizeof(user_desc)`: three words, and one byte with the flags, since the record is packed. -/
def sizeofUserDesc : BitVec 64 := 13

/-- `ABI::DUCK_sys_set_thread_area`. -/
def sysSetThreadArea : BitVec 32 := 243

/-- `-EINVAL`. -/
def einval : BitVec 64 := -22

/-- `-EFAULT`. -/
def efault : BitVec 64 := -14

/-- The checks of `set_thread_area` and the new entry of the table: the result, and the descriptor of
    the program with the number of the entry.  `writable` is `Memory::user_writable_check`, and `desc`
    what the program has at `rbx`. -/
def setThreadArea (writable : BitVec 64 → Bool) (t : Statics) (rbx : BitVec 64) (desc : UserDesc) :
    BitVec 64 × Statics × UserDesc :=
  if !writable rbx then (efault, t, desc)
  else if !writable (rbx + sizeofUserDesc - 1) then (efault, t, desc)
  else if desc.entryNumber != -1 && desc.entryNumber != (gdtUser32Tls / 8).setWidth 32 then
    (einval, t, desc)
  else
    let tmp : BitVec 64 := (desc.limit &&& 0xffff).setWidth 64
    let tmp := tmp ||| (desc.baseAddr.setWidth 64 &&& 0xffffff) <<< 16
    let tmp := tmp ||| (desc.baseAddr >>> 24).setWidth 64 <<< 56
    let tmp := tmp ||| 0x00cff20000000000
    (0, { t with gdt := Function.update t.gdt (index gdtUser32Tls) tmp },
      { desc with entryNumber := (gdtUser32Tls >>> 3).setWidth 32 })

/-- `trap_0x80_handler(tf)`, up to the last instruction; `none` where it leaves the trap to
    `trap_handler`. -/
def trap0x80Handler (writable : BitVec 64 → Bool) (t : Statics) (label : BitVec 64) (tf : Nat)
    (desc : UserDesc) (m : Machine) : Option (Statics × UserDesc × Machine) :=
  let rax := tf + tfRegs + 14 * 8
  let rbx := tf + tfRegs + 1 * 8
  if m.mem rax = sysSetThreadArea then
    let t := prepareEspfix t (BitVec.ofNat 64 (tf + tfRip)) (m.qword (tf + tfRsp))
    let (ret, t, desc) := setThreadArea writable t ((m.mem rbx).setWidth 64) desc
    let m := m.movq rax ret
    let m := m.movq (tf + tfSs) ((gdtUser32Ss ||| 3).setWidth 64)
    some (t, desc, trap0x80Return t label tf m)
  else none

/-! ## The base and the stack pointer -/

/-- The word that `prepare_espfix` stores for the base `b`. -/
def espfixWord (b : BitVec 32) : BitVec 64 :=
  0xffff#64 ||| (b.setWidth 64 &&& 0xffffff) <<< 16 ||| (b.setWidth 64 >>> 24) <<< 56 ||| 0x00cf920000000000

/-- The base of the stack segment: `base_addr` as its 32 bits. -/
def espfixBase (origRsp newRsp : BitVec 64) : BitVec 32 :=
  (((origRsp >>> 16) - (newRsp >>> 16)) <<< 16).setWidth 32

/-- What `prepare_espfix` writes, as one record. -/
theorem prepareEspfix_eq (t : Statics) (origRsp newRsp : BitVec 64) :
    prepareEspfix t origRsp newRsp =
      { gdt := Function.update t.gdt (index gdtEspfixSs) (espfixWord (espfixBase origRsp newRsp))
        espfixNewKernelRsp :=
          ((origRsp - (espfixBase origRsp newRsp).setWidth 64).setWidth 32).setWidth 64 } := rfl

theorem getLsbD_lower (i : Nat) (h : i < 24) :
    (0xffff#64).getLsbD (16 + i) = false ∧ (0x00cf920000000000#64).getLsbD (16 + i) = false ∧
      (0xffffff#64).getLsbD i = true := by
  revert i; decide

theorem getLsbD_upper (i : Nat) (h : i < 8) :
    (0xffff#64).getLsbD (56 + i) = false ∧ (0x00cf920000000000#64).getLsbD (56 + i) = false ∧
      (0xffffff#64).getLsbD (40 + i) = false := by
  revert i; decide

/-- The bits that do not depend on the base. -/
theorem getLsbD_other (i : Nat) (h : i < 16 ∨ 40 ≤ i ∧ i < 56) :
    (0xffff#64).getLsbD i = decide (i < 16) ∧ (0x00cf92000000ffff#64).getLsbD i =
      (decide (i < 16) || (0x00cf920000000000#64).getLsbD i) ∧
      (16 ≤ i → (0xffffff#64).getLsbD (i - 16) = false) := by
  have hi : i < 56 := by omega
  revert h
  revert i
  decide

/-- **The two fields of the descriptor put together are the base.** -/
theorem espfixWord_base (b : BitVec 32) : (segment (espfixWord b)).base = b := by
  apply BitVec.eq_of_getLsbD_eq
  intro i hi
  simp only [segment, espfixWord, BitVec.getLsbD_append, BitVec.getLsbD_extractLsb', BitVec.ofNat_eq_ofNat,
    BitVec.getLsbD_or, BitVec.getLsbD_and, BitVec.getLsbD_shiftLeft, BitVec.getLsbD_ushiftRight,
    BitVec.getLsbD_setWidth]
  by_cases h : i < 24
  · obtain ⟨h₁, h₂, h₃⟩ := getLsbD_lower i h
    have h₄ : 16 + i < 64 ∧ ¬ 16 + i < 16 ∧ 16 + i < 56 ∧ i < 64 := by omega
    simp only [if_pos h, Nat.add_sub_cancel_left, h₁, h₂, h₃]
    simp [h, h₄]
  · obtain ⟨j, rfl⟩ : ∃ j, i = 24 + j := ⟨i - 24, by omega⟩
    have hj : j < 8 := by omega
    obtain ⟨h₁, h₂, h₃⟩ := getLsbD_upper j hj
    have h₄ : 56 + j < 64 ∧ ¬ 56 + j < 56 ∧ 24 + j < 64 ∧ ¬ 24 + j < 24 ∧ 56 + j - 16 = 40 + j := by omega
    simp only [Nat.add_sub_cancel_left, h₁, h₂, h₃, h₄]
    simp [hj]

/-- Outside of the base the descriptor is a constant. -/
theorem espfixWord_other (b : BitVec 32) (s n : Nat) (h : s + n ≤ 16 ∨ 40 ≤ s ∧ s + n ≤ 56) :
    (espfixWord b).extractLsb' s n = (0x00cf92000000ffff#64).extractLsb' s n := by
  apply BitVec.eq_of_getLsbD_eq
  intro i hi
  obtain ⟨h₁, h₂, h₃⟩ := getLsbD_other (s + i) (by omega)
  simp only [espfixWord, BitVec.getLsbD_extractLsb', BitVec.ofNat_eq_ofNat,
    BitVec.getLsbD_or, BitVec.getLsbD_and, BitVec.getLsbD_shiftLeft, BitVec.getLsbD_ushiftRight,
    BitVec.getLsbD_setWidth]
  have h₄ : s + i < 56 := by omega
  rw [h₁, h₂]
  by_cases h₅ : s + i < 16
  · simp [h₅]
  · rw [h₃ (by omega)]
    simp [h₄]

/-- **The stack segment**: present, writable, of the kernel, and with all of the addresses. -/
theorem segment_espfixWord (b : BitVec 32) :
    segment (espfixWord b) =
      { base := b, limit := 0xfffff, type := 2, isUser := true, dpl := 0, present := true,
        big := true, pages := true } := by
  have hbit : ∀ i, 40 ≤ i → i < 56 →
      (espfixWord b).getLsbD i = (0x00cf92000000ffff#64).getLsbD i := by
    intro i h₁ h₂
    have h := congrArg (fun w => w.getLsbD 0) (espfixWord_other b i 1 (by omega))
    simpa using h
  have hbase := espfixWord_base b
  simp only [segment] at hbase ⊢
  rw [hbase, espfixWord_other b 48 4 (by omega), espfixWord_other b 0 16 (by omega),
    espfixWord_other b 40 4 (by omega), espfixWord_other b 45 2 (by omega),
    hbit 44 (by omega) (by omega), hbit 47 (by omega) (by omega), hbit 54 (by omega) (by omega),
    hbit 55 (by omega) (by omega)]
  rfl

/-- The stack pointer before the last `iret`, as its 32 bits. -/
def espfixEsp (origRsp newRsp : BitVec 64) : BitVec 32 :=
  (origRsp - (espfixBase origRsp newRsp).setWidth 64).setWidth 32

/-- **The segment's base makes up for the difference**, modulo `2 ^ 32`. -/
theorem base_add_esp (origRsp newRsp : BitVec 64) :
    espfixBase origRsp newRsp + espfixEsp origRsp newRsp = origRsp.setWidth 32 := by
  apply BitVec.eq_of_toNat_eq
  simp only [espfixEsp, BitVec.toNat_add, BitVec.toNat_setWidth, BitVec.toNat_sub]
  have h := (espfixBase origRsp newRsp).isLt
  omega

/-- **The stack pointer has the upper half of the program's one**: the base is a multiple of `2 ^ 16`. -/
theorem esp_upper (origRsp newRsp : BitVec 64) :
    (espfixEsp origRsp newRsp).extractLsb' 16 16 = newRsp.extractLsb' 16 16 := by
  apply BitVec.eq_of_toNat_eq
  simp only [espfixEsp, espfixBase, BitVec.extractLsb'_toNat, BitVec.toNat_setWidth, BitVec.toNat_sub,
    BitVec.toNat_shiftLeft, BitVec.toNat_ushiftRight, Nat.shiftRight_eq_div_pow, Nat.shiftLeft_eq]
  have h₁ := origRsp.isLt
  have h₂ := newRsp.isLt
  omega

/-! ## `__trap_0x80_return` -/

namespace Machine

theorem append_parts (v : BitVec 64) : v.extractLsb' 32 32 ++ v.extractLsb' 0 32 = v :=
  BitVec.extractLsb'_append_extractLsb'

theorem qword_movq_self (m : Machine) (a : Nat) (v : BitVec 64) : (m.movq a v).qword a = v := by
  simp [qword, movq, movl, append_parts]

theorem mem_movq_of_ne (m : Machine) {a b : Nat} (v : BitVec 64) (h : b ≠ a) (h' : b ≠ a + 4) :
    (m.movq a v).mem b = m.mem b := by
  simp [movq, movl, h, h']

theorem qword_movq_of_le (m : Machine) {a b : Nat} (v : BitVec 64) (h : a + 8 ≤ b ∨ b + 8 ≤ a) :
    (m.movq a v).qword b = m.qword b := by
  rw [qword, qword, mem_movq_of_ne m v (by omega) (by omega), mem_movq_of_ne m v (by omega) (by omega)]

end Machine

/-- The registers before the last `iret`. -/
theorem trap0x80Return_eq (t : Statics) (label : BitVec 64) (tf : Nat) (m : Machine) :
    trap0x80Return t label tf m =
      { mem := (trap0x80Return t label tf m).mem
        rsp := t.espfixNewKernelRsp.toNat
        rax := m.qword (tf + tfRegs + 14 * 8)
        rcx := m.qword (tf + tfRegs)
        rdx := m.qword (tf + tfRegs + 15 * 8)
        rbx := m.qword (tf + tfRegs + 1 * 8)
        rbp := m.qword (tf + tfRegs + 2 * 8)
        rsi := m.qword (tf + tfRegs + 3 * 8)
        rdi := m.qword (tf + tfRegs + 4 * 8)
        rip := label
        rflags := m.rflags
        cs := gdtKernel32Cs
        ss := gdtEspfixSs } := by
  simp [trap0x80Return, Machine.iretq, Machine.pushq, Machine.movq, Machine.movl, Machine.addRsp,
    Machine.top, Machine.qword, sizeofFxstate, tfRegs, Machine.append_parts]

/-- The frame before the last `iret`, as 32-bit words. -/
theorem mem_trap0x80Return (t : Statics) (label : BitVec 64) (tf : Nat) (m : Machine) :
    (trap0x80Return t label tf m).mem (tf + tfRip) = m.mem (tf + tfRip) ∧
    (trap0x80Return t label tf m).mem (tf + tfRip + 4) = m.mem (tf + tfCs) ∧
    (trap0x80Return t label tf m).mem (tf + tfRip + 8) = m.mem (tf + tfRflags) ∧
    (trap0x80Return t label tf m).mem (tf + tfRip + 12) = m.mem (tf + tfRsp) ∧
    (trap0x80Return t label tf m).mem (tf + tfRip + 16) = m.mem (tf + tfSs) := by
  simp [trap0x80Return, Machine.iretq, Machine.pushq, Machine.movq, Machine.movl, Machine.addRsp,
    Machine.top, Machine.qword, sizeofFxstate, tfRegs, tfRip, tfCs, tfRflags, tfRsp, tfSs]

/-- The registers with which the program of a trap frame goes on. -/
def savedFrame (tf : Nat) (m : Machine) : Resumed where
  eip := m.mem (tf + tfRip)
  cs := (m.mem (tf + tfCs)).setWidth 16
  eflags := m.mem (tf + tfRflags)
  esp := m.mem (tf + tfRsp)
  ss := (m.mem (tf + tfSs)).setWidth 16

/-- The table and the stack pointer are those that `prepare_espfix` made for the two addresses. -/
structure Prepared (t : Statics) (origRsp newRsp : BitVec 64) : Prop where
  gdt : t.gdt (index gdtEspfixSs) = espfixWord (espfixBase origRsp newRsp)
  rsp : t.espfixNewKernelRsp = (espfixEsp origRsp newRsp).setWidth 64

/-- **`prepare_espfix` prepares**: the descriptor and the pointer fit together. -/
theorem prepared_prepareEspfix (t : Statics) (origRsp newRsp : BitVec 64) :
    Prepared (prepareEspfix t origRsp newRsp) origRsp newRsp where
  gdt := by rw [prepareEspfix_eq]; exact Function.update_self (index gdtEspfixSs) _ t.gdt
  rsp := rfl

section Prepared

variable {t : Statics} {origRsp newRsp : BitVec 64}

theorem Prepared.base (h : Prepared t origRsp newRsp) :
    (segment (t.gdt (index gdtEspfixSs))).base = espfixBase origRsp newRsp := by
  rw [h.gdt, segment_espfixWord]

/-- The stack pointer in it, of which 32 bits are loaded. -/
theorem Prepared.esp (h : Prepared t origRsp newRsp) :
    BitVec.ofNat 32 t.espfixNewKernelRsp.toNat = espfixEsp origRsp newRsp := by
  apply BitVec.eq_of_toNat_eq
  have hlt := (espfixEsp origRsp newRsp).isLt
  simp only [h.rsp, BitVec.toNat_ofNat, BitVec.toNat_setWidth]
  omega

/-- A word through the segment is the word on the kernel stack. -/
theorem Prepared.popped_eq (h : Prepared t origRsp newRsp) {m : Machine} (hss : m.ss = gdtEspfixSs)
    (hrsp : m.rsp = t.espfixNewKernelRsp.toNat) (i : Nat) :
    popped t.gdt m (BitVec.ofNat 32 i) = m.mem ((origRsp.toNat + i) % 2 ^ 32) := by
  rw [popped, hss, hrsp, h.base, h.esp, ← BitVec.add_assoc, base_add_esp]
  congr 1
  simp only [BitVec.toNat_add, BitVec.toNat_setWidth, BitVec.toNat_ofNat]
  omega

/-- **The `iret` pops the frame of the trap**, whatever the size of the program's stack segment. -/
theorem Prepared.iret_eq (h : Prepared t origRsp newRsp) (label : BitVec 64) (tf : Nat) (m : Machine)
    (horig : tf + tfRip = origRsp.toNat) (hlt : origRsp.toNat + 20 ≤ 2 ^ 32)
    (hnew : m.qword (tf + tfRsp) = newRsp) :
    iret t.gdt (trap0x80Return t label tf m) = savedFrame tf m := by
  have hregs := trap0x80Return_eq t label tf m
  obtain ⟨heip, hcs, hflags, hesp, hss⟩ := mem_trap0x80Return t label tf m
  generalize trap0x80Return t label tf m = r at *
  have hssr : r.ss = gdtEspfixSs := by rw [hregs]
  have hrspr : r.rsp = t.espfixNewKernelRsp.toNat := by rw [hregs]
  have hpop : ∀ i < 20, popped t.gdt r (BitVec.ofNat 32 i) = r.mem (tf + tfRip + i) := by
    intro i hi
    rw [h.popped_eq hssr hrspr i, Nat.mod_eq_of_lt (by omega), horig]
  have hupper : (BitVec.ofNat 32 r.rsp).extractLsb' 16 16 = (m.mem (tf + tfRsp)).extractLsb' 16 16 := by
    rw [hrspr, h.esp, esp_upper, ← hnew, Machine.qword]
    exact BitVec.extractLsb'_append_eq_of_add_le (by decide)
  have h0 : popped t.gdt r 0 = m.mem (tf + tfRip) := (hpop 0 (by omega)).trans heip
  have h4 : popped t.gdt r 4 = m.mem (tf + tfCs) := (hpop 4 (by omega)).trans hcs
  have h8 : popped t.gdt r 8 = m.mem (tf + tfRflags) := (hpop 8 (by omega)).trans hflags
  have h12 : popped t.gdt r 12 = m.mem (tf + tfRsp) := (hpop 12 (by omega)).trans hesp
  have h16 : popped t.gdt r 16 = m.mem (tf + tfSs) := (hpop 16 (by omega)).trans hss
  -- a 16-bit segment takes the upper half of `esp` from the kernel, where it is the program's own
  simp only [iret, h0, h4, h8, h12, h16, hupper, BitVec.extractLsb'_append_extractLsb', ite_self, savedFrame]

/-- The entry for thread-local storage is another one. -/
theorem Prepared.setThreadArea (h : Prepared t origRsp newRsp) (writable : BitVec 64 → Bool)
    (rbx : BitVec 64) (desc : UserDesc) :
    Prepared (setThreadArea writable t rbx desc).2.1 origRsp newRsp := by
  rw [Trap.setThreadArea]
  split_ifs
  · exact h
  · exact h
  · exact h
  · refine ⟨?_, h.rsp⟩
    rw [← h.gdt]
    have hne : index gdtEspfixSs ≠ index gdtUser32Tls := by decide
    dsimp only
    rw [Function.update_of_ne hne]

end Prepared

/-- **`espfix` keeps the kernel stack and hides its address.**  The base of the segment and the stack
    pointer add up to the address of the frame, modulo `2 ^ 32`; the upper half of the stack pointer is
    the program's own; and the last `iret` of `__trap_0x80_return` reads from the kernel stack.  It pops
    the frame, if that does not reach beyond 4 GiB, with the program's own `esp` in both halves. -/
theorem espfix_sound (t : Statics) (origRsp newRsp : BitVec 64) (h : origRsp.toNat < 2 ^ 32) :
    ((segment ((prepareEspfix t origRsp newRsp).gdt (index gdtEspfixSs))).base.toNat +
        (prepareEspfix t origRsp newRsp).espfixNewKernelRsp.toNat) % 2 ^ 32 = origRsp.toNat ∧
    (prepareEspfix t origRsp newRsp).espfixNewKernelRsp.extractLsb' 16 16 =
      newRsp.extractLsb' 16 16 ∧
    ∀ (label : BitVec 64) (tf : Nat) (m : Machine), tf + tfRip = origRsp.toNat →
      m.qword (tf + tfRsp) = newRsp →
      let r := trap0x80Return (prepareEspfix t origRsp newRsp) label tf m
      (BitVec.ofNat 32 r.rsp).extractLsb' 16 16 = newRsp.extractLsb' 16 16 ∧
      (∀ i, popped (prepareEspfix t origRsp newRsp).gdt r (BitVec.ofNat 32 i) =
        r.mem ((origRsp.toNat + i) % 2 ^ 32)) ∧
      (origRsp.toNat + 20 ≤ 2 ^ 32 → iret (prepareEspfix t origRsp newRsp).gdt r = savedFrame tf m) := by
  have hp := prepared_prepareEspfix t origRsp newRsp
  generalize prepareEspfix t origRsp newRsp = t' at *
  refine ⟨?_, ?_, ?_⟩
  · have hsum := congrArg BitVec.toNat (base_add_esp origRsp newRsp)
    have hlt := (espfixEsp origRsp newRsp).isLt
    simp only [BitVec.toNat_add, BitVec.toNat_setWidth] at hsum
    simp only [hp.base, hp.rsp, BitVec.toNat_setWidth]
    omega
  · rw [hp.rsp, ← esp_upper origRsp newRsp]
    exact BitVec.extractLsb'_setWidth_of_le (by decide)
  · intro label tf m horig hnew r
    have hss : r.ss = gdtEspfixSs := congrArg Machine.ss (trap0x80Return_eq t' label tf m)
    have hrsp : r.rsp = t'.espfixNewKernelRsp.toNat := congrArg Machine.rsp (trap0x80Return_eq t' label tf m)
    refine ⟨?_, hp.popped_eq hss hrsp, fun hlt => hp.iret_eq label tf m horig hlt hnew⟩
    rw [hrsp, hp.esp, esp_upper]

/-- A program that was interrupted with its stack at `0xbfffe000`, and its frame at `0x109000`. -/
def interrupted : Machine where
  mem := fun a =>
    if a = 0x109000 + tfRip then 0x08048123
    else if a = 0x109000 + tfCs then 27
    else if a = 0x109000 + tfRflags then 0x202
    else if a = 0x109000 + tfRsp then 0xbfffe000
    else if a = 0x109000 + tfSs then 51
    else 0
  rsp := 0x108f00
  rax := 0
  rcx := 0
  rdx := 0
  rbx := 0
  rbp := 0
  rsi := 0
  rdi := 0
  rip := 0
  rflags := 2
  cs := 8
  ss := 16

/-- The user stack is above the kernel's: the difference of the addresses wraps around. -/
theorem espfix_sound_wraps :
    (prepareEspfix ⟨fun _ => 0, 0⟩ 0x109298 0xbfffe000).espfixNewKernelRsp = 0xbfff9298 ∧
    ((segment ((prepareEspfix ⟨fun _ => 0, 0⟩ 0x109298 0xbfffe000).gdt (index gdtEspfixSs))).base.toNat +
        (prepareEspfix ⟨fun _ => 0, 0⟩ 0x109298 0xbfffe000).espfixNewKernelRsp.toNat) % 2 ^ 32 =
      0x109298 ∧
    iret (prepareEspfix ⟨fun _ => 0, 0⟩ 0x109298 0xbfffe000).gdt
      (trap0x80Return (prepareEspfix ⟨fun _ => 0, 0⟩ 0x109298 0xbfffe000) 0x100400 0x109000 interrupted) =
        ⟨0x08048123, 27, 0x202, 0xbfffe000, 51⟩ := by
  obtain ⟨hsum, -, hframe⟩ := espfix_sound ⟨fun _ => 0, 0⟩ 0x109298 0xbfffe000 (by decide)
  obtain ⟨-, -, hiret⟩ := hframe 0x100400 0x109000 interrupted (by decide) (by decide)
  exact ⟨by decide, hsum, (hiret (by decide)).trans (by decide)⟩

/-- **The program goes on after `set_thread_area`** where it was, on its own stack, with a stack segment
    that is known to be valid, and with the result in `eax`. -/
theorem trap0x80Handler_resumes (writable : BitVec 64 → Bool) (t : Statics) (label : BitVec 64)
    (tf : Nat) (desc : UserDesc) (m : Machine) (htf : tf + tfRip + 20 ≤ 2 ^ 32)
    (hnum : m.mem (tf + tfRegs + 14 * 8) = sysSetThreadArea) :
    ∃ ret t' desc' m', trap0x80Handler writable t label tf desc m = some (t', desc', m') ∧
      (setThreadArea writable (prepareEspfix t (BitVec.ofNat 64 (tf + tfRip)) (m.qword (tf + tfRsp)))
        ((m.mem (tf + tfRegs + 1 * 8)).setWidth 64) desc) = (ret, t', desc') ∧
      m'.rax = ret ∧
      iret t'.gdt m' = { savedFrame tf m with ss := gdtUser32Ss ||| 3 } := by
  have horig : (BitVec.ofNat 64 (tf + tfRip)).toNat = tf + tfRip := by
    rw [BitVec.toNat_ofNat]
    omega
  have hp := (prepared_prepareEspfix t (BitVec.ofNat 64 (tf + tfRip)) (m.qword (tf + tfRsp))).setThreadArea
    writable ((m.mem (tf + tfRegs + 1 * 8)).setWidth 64) desc
  simp only [trap0x80Handler, if_pos hnum]
  generalize setThreadArea writable (prepareEspfix t (BitVec.ofNat 64 (tf + tfRip)) (m.qword (tf + tfRsp)))
    ((m.mem (tf + tfRegs + 1 * 8)).setWidth 64) desc = res at *
  obtain ⟨ret, t', desc'⟩ := res
  have hoff : tfRegs + 14 * 8 + 8 ≤ tfRip ∧ tfCs = tfRip + 8 ∧ tfRflags = tfRip + 16 ∧
      tfRsp = tfRip + 24 ∧ tfSs = tfRip + 32 := by decide
  refine ⟨ret, t', desc', _, rfl, rfl, ?_, ?_⟩
  · rw [trap0x80Return_eq]
    dsimp only
    rw [Machine.qword_movq_of_le _ _ (by omega), Machine.qword_movq_self]
  · rw [hp.iret_eq label tf _ horig.symm (by omega)]
    · have hmem : ∀ o, tfRip ≤ o → o < tfSs →
          ((m.movq (tf + tfRegs + 14 * 8) ret).movq (tf + tfSs)
            ((gdtUser32Ss ||| 3).setWidth 64)).mem (tf + o) = m.mem (tf + o) := by
        intro o hlow hhigh
        rw [Machine.mem_movq_of_ne _ _ (by omega) (by omega),
          Machine.mem_movq_of_ne _ _ (by omega) (by omega)]
      have hss : ((m.movq (tf + tfRegs + 14 * 8) ret).movq (tf + tfSs)
          ((gdtUser32Ss ||| 3).setWidth 64)).mem (tf + tfSs) = 51 := by
        simp [Machine.movq, Machine.movl, gdtUser32Ss]
      rw [savedFrame, hmem _ (by omega) (by omega), hmem _ (by omega) (by omega),
        hmem _ (by omega) (by omega), hmem _ (by omega) (by omega), hss]
      rfl
    · rw [Machine.qword_movq_of_le _ _ (by omega), Machine.qword_movq_of_le _ _ (by omega)]

end JudgeDuck.Trap
