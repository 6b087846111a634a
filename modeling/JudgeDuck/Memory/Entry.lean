/-
  Page table entries (`lib/memory.cpp`): the flags, and the address between them.

  An entry is a 64-bit word.  The processor uses bits 0 to 8 and 63 as flags and bits 12 to 51 as the
  address of a page; bits 9 to 11 are for the kernel, which uses bit 9 (`PTE_DUCK_WRITTEN`).
  `clear_page_flags` keeps bits 9 to 62, so it gives the address back only when the kernel's bits are
  clear (`clearPageFlags_entry`).
-/
import Mathlib.Data.BitVec
import Mathlib.Data.Nat.Bitwise

namespace JudgeDuck.Memory

/-! ## Flags -/

/-- `PTE_PRESENT`. -/
def ptePresent : BitVec 64 := 1#64 <<< 0

/-- `PTE_WRITABLE`. -/
def pteWritable : BitVec 64 := 1#64 <<< 1

/-- `PTE_USER`. -/
def pteUser : BitVec 64 := 1#64 <<< 2

/-- `PTE_ACCESSED`. -/
def pteAccessed : BitVec 64 := 1#64 <<< 5

/-- `PTE_DIRTY`. -/
def pteDirty : BitVec 64 := 1#64 <<< 6

/-- `PTE_HUGE`. -/
def pteHuge : BitVec 64 := 1#64 <<< 7

/-- `PTE_DUCK_WRITTEN`. -/
def pteDuckWritten : BitVec 64 := 1#64 <<< 9

/-- `PTE_NO_EXECUTE`. -/
def pteNoExecute : BitVec 64 := 1#64 <<< 63

/-- `e & flag`, as a condition. -/
def has (e flag : BitVec 64) : Bool := e &&& flag != 0#64

/-- `clear_page_flags(a)`. -/
def clearPageFlags (a : BitVec 64) : BitVec 64 := ((a <<< 1) >>> 10) <<< 9

theorem getLsbD_bit {k i : Nat} (hk : k < 64) : (1#64 <<< k).getLsbD i = decide (i = k) := by
  rw [BitVec.getLsbD_shiftLeft, BitVec.getLsbD_one]
  by_cases h : i = k
  · simp [h, hk]
  · have hsub : i < k ∨ i - k ≠ 0 := by omega
    obtain hlt | hne := hsub
    · simp [h, hlt]
    · simp [h, hne]

/-- A flag of one bit. -/
theorem has_bit {e : BitVec 64} {k : Nat} (hk : k < 64) : has e (1#64 <<< k) = e.getLsbD k := by
  rw [has, Bool.eq_iff_iff, bne_iff_ne, ne_eq]
  constructor
  · intro hne
    by_contra hbit
    apply hne
    apply BitVec.eq_of_getLsbD_eq
    intro i _
    rw [BitVec.getLsbD_and, getLsbD_bit hk, BitVec.getLsbD_zero]
    by_cases h : i = k
    · rw [h, Bool.not_eq_true _ |>.mp hbit, Bool.false_and]
    · rw [decide_eq_false h, Bool.and_false]
  · intro hbit hzero
    have hand : (e &&& 1#64 <<< k).getLsbD k = (0#64).getLsbD k := by rw [hzero]
    rw [BitVec.getLsbD_and, getLsbD_bit hk, hbit, BitVec.getLsbD_zero] at hand
    simp at hand

/-- `clear_page_flags` keeps bits 9 to 62. -/
theorem getLsbD_clearPageFlags {a : BitVec 64} {i : Nat} :
    (clearPageFlags a).getLsbD i = (decide (9 ≤ i ∧ i < 63) && a.getLsbD i) := by
  simp only [clearPageFlags, BitVec.getLsbD_shiftLeft, BitVec.getLsbD_ushiftRight]
  by_cases h : 9 ≤ i ∧ i < 63
  · have hi : 10 + (i - 9) - 1 = i := by omega
    have h1 : i < 64 := by omega
    have h2 : ¬ i < 9 := by omega
    have h3 : 10 + (i - 9) < 64 := by omega
    have h4 : ¬ 10 + (i - 9) < 1 := by omega
    simp [h, hi, h1, h2, h3, h4]
  · have hout : i < 9 ∨ ¬ i < 64 ∨ ¬ 10 + (i - 9) < 64 := by omega
    obtain h1 | h1 | h1 := hout <;> simp [h, h1]

/-- `clear_page_flags` keeps the bits from 9 to 62. -/
theorem toNat_clearPageFlags (a : BitVec 64) :
    (clearPageFlags a).toNat = a.toNat % 2 ^ 63 / 2 ^ 9 * 2 ^ 9 := by
  have hlt := a.isLt
  rw [clearPageFlags, BitVec.toNat_shiftLeft, BitVec.toNat_ushiftRight, BitVec.toNat_shiftLeft]
  simp only [Nat.shiftLeft_eq, Nat.shiftRight_eq_div_pow]
  omega

/-! ## Addresses -/

/-- An address and flags, `addr | flags`. -/
def entry (addr : Nat) (flags : BitVec 64) : BitVec 64 := BitVec.ofNat 64 addr ||| flags

/-- The page that the processor finds in an entry. -/
def frame (e : BitVec 64) : Nat := e.toNat / 2 ^ 12 % 2 ^ 40 * 2 ^ 12

/-- The flags of a page lie below its address. -/
theorem toNat_entry {addr : Nat} {flags : BitVec 64} (haligned : 2 ^ 12 ∣ addr)
    (haddr : addr < 2 ^ 52) (hflags : flags.toNat < 2 ^ 12) :
    (entry addr flags).toNat = addr + flags.toNat := by
  obtain ⟨m, rfl⟩ := haligned
  rw [entry, BitVec.toNat_or, BitVec.toNat_ofNat, Nat.mod_eq_of_lt (by omega)]
  exact (Nat.two_pow_add_eq_or_of_lt hflags m).symm

theorem frame_entry {addr : Nat} {flags : BitVec 64} (haligned : 2 ^ 12 ∣ addr)
    (haddr : addr < 2 ^ 52) (hflags : flags.toNat < 2 ^ 12) : frame (entry addr flags) = addr := by
  rw [frame, toNat_entry haligned haddr hflags]
  omega

theorem clearPageFlags_entry {addr : Nat} {flags : BitVec 64} (haligned : 2 ^ 12 ∣ addr)
    (haddr : addr < 2 ^ 52) (hflags : flags.toNat < 2 ^ 9) :
    (clearPageFlags (entry addr flags)).toNat = addr := by
  rw [toNat_clearPageFlags, toNat_entry haligned haddr (by omega)]
  omega

/-- The low bits of an entry are those of its flags. -/
theorem getLsbD_entry {addr i : Nat} {flags : BitVec 64} (haligned : 2 ^ 12 ∣ addr) (hi : i < 12) :
    (entry addr flags).getLsbD i = flags.getLsbD i := by
  obtain ⟨m, rfl⟩ := haligned
  have hbit : (BitVec.ofNat 64 (2 ^ 12 * m)).getLsbD i = false := by
    rw [BitVec.getLsbD_ofNat, Nat.testBit_two_pow_mul]
    simp [Nat.not_le.mpr hi]
  rw [entry, BitVec.getLsbD_or, hbit, Bool.false_or]

end JudgeDuck.Memory
