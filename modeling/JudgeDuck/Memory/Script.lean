/-
  Sequences of page operations.

  After its checks a loader writes bytes and changes flags, one operation after the other, and the only
  fault is an operation outside the tables.  So what it does is a list of commands: `foldlM_exec_iff`
  says when the list runs through, and the bytes, the flags and the record can be read off it apart
  from each other (`foldl_result_mem`, `foldl_result_p1`, `foldl_result_touched`).
-/
import JudgeDuck.Memory.Flags

namespace JudgeDuck.Memory

open JudgeDuck.Lib
open JudgeDuck.DuckCache (pageSize)

/-- The page `p` has bytes that are written. -/
def overlaps (w : Write UInt8) (p : Nat) : Prop :=
  p * pageSize < w.addr + w.data.length ∧ w.addr < (p + 1) * pageSize ∧ w.data.length ≠ 0

instance (w : Write UInt8) (p : Nat) : Decidable (overlaps w p) :=
  inferInstanceAs (Decidable (_ ∧ _ ∧ _))

/-- Memory after a write. -/
def Machine.stored (m : Machine) (w : Write UInt8) : Machine :=
  { m with
    mem := store 0 m.mem w
    touched := fun p => m.touched p || decide (overlaps w p) }

@[simp] theorem Machine.stored_mapped (m : Machine) (w : Write UInt8) :
    (m.stored w).mapped = m.mapped := rfl

theorem Machine.write_iff {m m' : Machine} {w : Write UInt8} :
    m.write w.addr w.data = .ok m' ↔
      (w.data.length ≠ 0 → w.addr + w.data.length ≤ m.mapped) ∧ m' = m.stored w := by
  rw [Machine.write]
  by_cases h : w.data.length ≠ 0 ∧ m.mapped < w.addr + w.data.length
  · rw [if_pos h]
    exact ⟨(fun h' => nomatch h'), fun h' => absurd (h'.1 h.1) (Nat.not_le.mpr h.2)⟩
  · rw [if_neg h, Except.ok.injEq]
    constructor
    · rintro rfl
      exact ⟨fun hne => Nat.le_of_not_lt fun hlt => h ⟨hne, hlt⟩, rfl⟩
    · exact fun h' => h'.2.symm

theorem Machine.write_of_le {m : Machine} {a : Nat} {bytes : List UInt8}
    (h : a + bytes.length ≤ m.mapped) : m.write a bytes = .ok (m.stored ⟨a, bytes⟩) :=
  (Machine.write_iff (w := ⟨a, bytes⟩)).mpr ⟨fun _ => h, rfl⟩

/-- Two writes to adjacent places are one. -/
theorem Machine.stored_stored (m : Machine) (a : Nat) (xs ys : List UInt8) :
    (m.stored ⟨a + xs.length, ys⟩).stored ⟨a, xs⟩ = m.stored ⟨a, xs ++ ys⟩ := by
  ext i
  · rfl
  · rfl
  · rfl
  · simp only [Machine.stored, store_apply, Write.covers, List.length_append, decide_eq_true_eq]
    by_cases h1 : a ≤ i ∧ i < a + xs.length
    · rw [if_pos h1, if_pos (by omega), List.getD_append _ _ _ _ (by omega)]
    · rw [if_neg h1]
      by_cases h2 : a + xs.length ≤ i ∧ i < a + xs.length + ys.length
      · rw [if_pos h2, if_pos (by omega), List.getD_append_right _ _ _ _ (by omega), Nat.sub_sub]
      · rw [if_neg h2, if_neg (by omega)]
  · simp only [Machine.stored, Bool.or_assoc]
    congr 1
    rw [← Bool.decide_or]
    refine decide_eq_decide.mpr ?_
    simp only [overlaps, List.length_append, pageSize]
    omega

theorem Machine.stored_nil (m : Machine) (a : Nat) : m.stored ⟨a, []⟩ = m := by
  ext i
  · rfl
  · rfl
  · rfl
  · simp [Machine.stored, store_apply, Write.covers, show ¬ (a ≤ i ∧ i < a) by omega]
  · simp [Machine.stored, overlaps]

/-- Reading back the first part of what was written. -/
theorem Machine.listOf_stored (m : Machine) (a : Nat) (xs ys : List UInt8) :
    listOf (fun i => (m.stored ⟨a, xs ++ ys⟩).mem (a + i)) xs.length = xs := by
  refine Eq.trans (listOf_congr fun i hi => ?_) (listOf_getD xs 0)
  have hcovers : Write.covers ⟨a, xs ++ ys⟩ (a + i) = true := by
    simp only [Write.covers, decide_eq_true_eq, List.length_append]
    omega
  refine (store_apply ..).trans ?_
  rw [if_pos hcovers, Nat.add_sub_cancel_left, List.getD_append _ _ _ _ hi]

/-! ## Commands -/

/-- Bytes to an address, or `f` on the entries of the pages of a range. -/
inductive Cmd where
  | write (w : Write UInt8)
  | flags (f : BitVec 64 → BitVec 64) (touch : Bool) (start stop : Nat)

/-- A command runs. -/
def Cmd.exec (m : Machine) : Cmd → Except Fault Machine
  | .write w => m.write w.addr w.data
  | .flags f true start stop => forPages (fun p m => (m.flag f p).touch p) start stop m
  | .flags f false start stop => forPages (fun p m => m.flag f p) start stop m

/-- It stays inside the tables. -/
def Cmd.Ok (mapped : Nat) : Cmd → Prop
  | .write w => w.data.length ≠ 0 → w.addr + w.data.length ≤ mapped
  | .flags _ _ start stop => Pages mapped start stop

/-- The machine afterwards. -/
def Cmd.result (m : Machine) : Cmd → Machine
  | .write w => m.stored w
  | .flags f true start stop =>
    (m.mapPages (start / pageSize) (stop / pageSize) f).touchPages (start / pageSize)
      (stop / pageSize)
  | .flags f false start stop => m.mapPages (start / pageSize) (stop / pageSize) f

/-- **A command** returns under its condition, and has its result. -/
theorem Cmd.exec_iff {m m' : Machine} (c : Cmd) :
    c.exec m = .ok m' ↔ c.Ok m.mapped ∧ m' = c.result m :=
  match c with
  | .write _ => Machine.write_iff
  | .flags f true _ _ => forPages_flag_touch_iff f
  | .flags f false _ _ => forPages_flag_iff f

theorem Cmd.result_mapped (m : Machine) (c : Cmd) : (c.result m).mapped = m.mapped :=
  match c with
  | .write _ => rfl
  | .flags _ true _ _ => rfl
  | .flags _ false _ _ => rfl

theorem Cmd.result_vaddrBreak (m : Machine) (c : Cmd) : (c.result m).vaddrBreak = m.vaddrBreak :=
  match c with
  | .write _ => rfl
  | .flags _ true _ _ => rfl
  | .flags _ false _ _ => rfl

/-- **Commands run through** when each of them stays inside the tables. -/
theorem foldlM_exec_iff {cmds : List Cmd} {m m' : Machine} :
    cmds.foldlM Cmd.exec m = .ok m' ↔
      (∀ c ∈ cmds, c.Ok m.mapped) ∧ m' = cmds.foldl Cmd.result m := by
  induction cmds generalizing m with
  | nil =>
    simp only [List.foldlM_nil, List.foldl_nil, List.not_mem_nil, false_implies, implies_true,
      true_and]
    exact ⟨fun h => (Except.ok.inj h).symm, fun h => congrArg Except.ok h.symm⟩
  | cons c cmds ih =>
    rw [List.foldlM_cons, List.foldl_cons]
    constructor
    · intro h
      obtain ⟨m1, hfirst, hrest⟩ := bind_ok h
      obtain ⟨hok, rfl⟩ := c.exec_iff.mp hfirst
      obtain ⟨hall, rfl⟩ := ih.mp hrest
      rw [Cmd.result_mapped] at hall
      exact ⟨List.forall_mem_cons.mpr ⟨hok, hall⟩, rfl⟩
    · rintro ⟨hall, rfl⟩
      obtain ⟨hok, hrest⟩ := List.forall_mem_cons.mp hall
      rw [bind_of_ok (c.exec_iff.mpr ⟨hok, rfl⟩)]
      refine ih.mpr ⟨?_, rfl⟩
      rw [Cmd.result_mapped]
      exact hrest

/-! ## Bytes, flags and record -/

/-- What a command writes. -/
def Cmd.write? : Cmd → Option (Write UInt8)
  | .write w => some w
  | .flags .. => none

/-- What a command does to the entry of the page `p`. -/
def Cmd.flagAt (p : Nat) : Cmd → Option (BitVec 64 → BitVec 64)
  | .write _ => none
  | .flags f _ start stop => if start / pageSize ≤ p ∧ p < stop / pageSize then some f else none

/-- A command puts the page `p` into the record. -/
def Cmd.touches (p : Nat) : Cmd → Bool
  | .write w => decide (overlaps w p)
  | .flags _ touch start stop => touch && decide (start / pageSize ≤ p ∧ p < stop / pageSize)

section

variable (cmds : List Cmd) (m : Machine) (p : Nat)

/-- **A list of commands**: what it does to memory is what its writes do. -/
theorem foldl_result_mem :
    (cmds.foldl Cmd.result m).mem = (cmds.filterMap Cmd.write?).foldl (store 0) m.mem := by
  induction cmds generalizing m with
  | nil => rfl
  | cons c cmds ih =>
    rw [List.foldl_cons, ih]
    match c with
    | .write w => rfl
    | .flags _ true _ _ => rfl
    | .flags _ false _ _ => rfl

theorem foldl_result_p1 :
    (cmds.foldl Cmd.result m).p1 p =
      (cmds.filterMap (Cmd.flagAt p)).foldl (fun e f => f e) (m.p1 p) := by
  induction cmds generalizing m with
  | nil => rfl
  | cons c cmds ih =>
    rw [List.foldl_cons, ih]
    match c with
    | .write w => rfl
    | .flags f touch start stop =>
      have hp1 : ((Cmd.flags f touch start stop).result m).p1 p =
          if start / pageSize ≤ p ∧ p < stop / pageSize then f (m.p1 p) else m.p1 p := by
        cases touch <;> rfl
      rw [hp1, List.filterMap_cons, Cmd.flagAt]
      by_cases h : start / pageSize ≤ p ∧ p < stop / pageSize
      · rw [if_pos h, if_pos h]
        rfl
      · rw [if_neg h, if_neg h]

/-- A page is touched if some command touches it. -/
theorem foldl_result_touched :
    (cmds.foldl Cmd.result m).touched p = (m.touched p || cmds.any (Cmd.touches p)) := by
  induction cmds generalizing m with
  | nil => exact (Bool.or_false _).symm
  | cons c cmds ih =>
    rw [List.foldl_cons, ih, List.any_cons, ← Bool.or_assoc]
    congr 1
    match c with
    | .write w => rfl
    | .flags _ true _ _ => rfl
    | .flags _ false _ _ => exact (Bool.or_false _).symm

theorem foldl_result_mapped : (cmds.foldl Cmd.result m).mapped = m.mapped := by
  induction cmds generalizing m with
  | nil => rfl
  | cons c cmds ih => rw [List.foldl_cons, ih, Cmd.result_mapped]

theorem foldl_result_vaddrBreak : (cmds.foldl Cmd.result m).vaddrBreak = m.vaddrBreak := by
  induction cmds generalizing m with
  | nil => rfl
  | cons c cmds ih => rw [List.foldl_cons, ih, Cmd.result_vaddrBreak]

end

/-! ## One entry under many commands -/

section

variable {P : BitVec 64 → Prop} {fs : List (BitVec 64 → BitVec 64)}

/-- What every command keeps is kept. -/
theorem foldl_keeps (hkeep : ∀ f ∈ fs, ∀ e, P e → P (f e)) {e : BitVec 64} (he : P e) :
    P (fs.foldl (fun e f => f e) e) := by
  induction fs generalizing e with
  | nil => exact he
  | cons f fs ih =>
    obtain ⟨hf, hfs⟩ := List.forall_mem_cons.mp hkeep
    exact ih hfs (hf e he)

/-- What one command brings about and every command keeps holds in the end. -/
theorem foldl_sets (hkeep : ∀ f ∈ fs, ∀ e, P e → P (f e)) {f : BitVec 64 → BitVec 64} (hf : f ∈ fs)
    (hsets : ∀ e, P (f e)) (e : BitVec 64) : P (fs.foldl (fun e f => f e) e) := by
  induction fs generalizing e with
  | nil => exact absurd hf List.not_mem_nil
  | cons g fs ih =>
    obtain ⟨-, hfs⟩ := List.forall_mem_cons.mp hkeep
    rcases List.mem_cons.mp hf with rfl | hf
    · exact foldl_keeps hfs (hsets e)
    · exact ih hfs hf (g e)

end

end JudgeDuck.Memory
