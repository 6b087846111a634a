/-
  Machine words and loops, as C sources write them.

  `for (i = 0; i < n; i++)` and `for (i = n - 1; i >= 0; i--)` over an explicit loop state, and
  the first one again for a body that can fail.  Each loop comes with ONE rule: an assertion
  indexed by the loop counter that holds on entry and is carried by every turn of the body holds
  on exit.  `Ends E Q` is the outcome of a computation that can fail, with what is known of a fault
  beside what is known of a result; `forUpM_ends` is the rule for it, and `forUpM_inv` is the case in
  which no fault is possible, so the loop returns.  `ReturnsIff` is the case in which the fault and the
  condition for it are known.
  `whileM` is the loop with a condition on the state; its rule counts the turns, and it returns too;
  `whileM_keeps` is the rule for a loop of which it is only known that it returned.

  `follow` walks a linked chain stored in a `next` array until it meets the null index `0`, which
  is how such a chain is iterated in C; the walk is fuelled, and `follow_lastBelow` says that a
  chain whose links are "the last smaller index with the same property" is walked to its end and
  visits exactly the indices with that property, newest first.
-/
import Mathlib.Algebra.Order.Ring.Nat
import Mathlib.Data.List.Basic
import Mathlib.Data.List.Nodup
import Mathlib.Data.List.Range

namespace JudgeDuck.Lib

variable {σ ε : Type}

/-- How a C program can end early. -/
inductive Fault where
  /-- A failed `assert`. -/
  | assertion
  /-- An access past the end of a buffer. -/
  | bufferOverflow
  /-- A loop that does not end. -/
  | diverges
  /-- The program gives up on purpose. -/
  | abort
  deriving DecidableEq, Repr

/-- Conversion to an unsigned integer of 16, 32 or 64 bits. -/
def u16 (x : Nat) : Nat := x % 2 ^ 16

@[inherit_doc u16]
def u32 (x : Nat) : Nat := x % 2 ^ 32

@[inherit_doc u16]
def u64 (x : Nat) : Nat := x % 2 ^ 64

theorem u64_of_lt {x : Nat} (h : x < 2 ^ 64) : u64 x = x := Nat.mod_eq_of_lt h

/-- A computation that can fail and did not: its first part did not. -/
theorem bind_ok {α β : Type} {x : Except ε α} {f : α → Except ε β} {r : β}
    (h : x >>= f = .ok r) : ∃ a, x = .ok a ∧ f a = .ok r := by
  cases x with
  | error e => nomatch h
  | ok a => exact ⟨a, rfl, h⟩

theorem bind_of_ok {α β : Type} {x : Except ε α} {f : α → Except ε β} {a : α}
    (h : x = .ok a) : x >>= f = f a := by
  rw [h]
  rfl

theorem map_ok {α β : Type} {x : Except ε α} {f : α → β} {r : β} (h : x.map f = .ok r) :
    ∃ a, x = .ok a ∧ f a = r := by
  cases x with
  | error e => nomatch h
  | ok a => exact ⟨a, rfl, Except.ok.inj h⟩

/-- The outcome of a computation that can fail: a result with `Q`, or a fault with `E`. -/
def Ends {α : Type} (E : ε → Prop) (Q : α → Prop) : Except ε α → Prop
  | .ok a => Q a
  | .error e => E e

section

variable {α β : Type} {E : ε → Prop} {P : α → Prop} {Q : β → Prop} {x : Except ε α}

/-- What holds for the value, if there is one. -/
theorem Ends.of_ok (h : Ends E P x) {a : α} (hx : x = .ok a) : P a := by
  rw [hx] at h
  exact h

/-- What holds for the error, if there is one. -/
theorem Ends.of_error (h : Ends E P x) {e : ε} (hx : x = .error e) : E e := by
  rw [hx] at h
  exact h

/-- **Composition**: the second part may use what holds after the first. -/
theorem Ends.bind {f : α → Except ε β} (h : Ends E P x) (hf : ∀ a, P a → Ends E Q (f a)) :
    Ends E Q (x >>= f) := by
  cases x with
  | error e => exact h
  | ok a => exact hf a h

theorem Ends.mono {E' : ε → Prop} {P' : α → Prop} (h : Ends E P x) (hE : ∀ e, E e → E' e)
    (hP : ∀ a, P a → P' a) : Ends E' P' x := by
  cases x with
  | error e => exact hE e h
  | ok a => exact hP a h

end

/-- A computation returns iff `Q`, with a result that satisfies `P`, and else fails with `e`. -/
def ReturnsIff {α : Type} (e : ε) (P : α → Prop) (Q : Prop) (x : Except ε α) : Prop :=
  Ends (fun e' => e' = e ∧ ¬ Q) (fun a => Q ∧ P a) x

section

variable {α β : Type} {e : ε} {P : α → Prop} {P' : β → Prop} {Q Q' : Prop} {x : Except ε α}

theorem ReturnsIff.of_ok {a : α} (hx : x = .ok a) (ha : P a) : ReturnsIff e P True x := by
  rw [hx]
  exact ⟨trivial, ha⟩

theorem ReturnsIff.congr (h : ReturnsIff e P Q x) (hQ : Q ↔ Q') : ReturnsIff e P Q' x := by
  rwa [← propext hQ]

/-- **Composition**: both conditions are needed, and the second one does not depend on the value. -/
theorem ReturnsIff.bind {f : α → Except ε β} (h : ReturnsIff e P Q x)
    (hf : ∀ a, P a → ReturnsIff e P' Q' (f a)) : ReturnsIff e P' (Q ∧ Q') (x >>= f) := by
  refine Ends.bind (P := fun a => Q ∧ P a) (h.mono ?_ fun _ ha => ha) ?_
  · exact fun _ he => ⟨he.1, fun hQ => he.2 hQ.1⟩
  · rintro a ⟨hQ, ha⟩
    refine (hf a ha).mono ?_ ?_
    · exact fun _ he => ⟨he.1, fun hQ' => he.2 hQ'.2⟩
    · exact fun _ hb => ⟨⟨hQ, hb.1⟩, hb.2⟩

/-- What follows always returns. -/
theorem ReturnsIff.andThen {f : α → Except ε β} (h : ReturnsIff e P Q x)
    (hf : ∀ a, P a → ∃ b, f a = .ok b ∧ P' b) : ReturnsIff e P' Q (x >>= f) := by
  refine (h.bind fun a ha => ?_).congr (Iff.of_eq (and_true Q))
  obtain ⟨b, hb, hP'⟩ := hf a ha
  exact .of_ok hb hP'

theorem ReturnsIff.exists_ok (h : ReturnsIff e P Q x) (hQ : Q) : ∃ a, x = .ok a ∧ P a := by
  cases x with
  | error e' => exact absurd hQ h.2
  | ok a => exact ⟨a, rfl, h.2⟩

theorem ReturnsIff.eq_error (h : ReturnsIff e P Q x) (hQ : ¬ Q) : x = .error e := by
  cases x with
  | error e' => exact congrArg Except.error h.1
  | ok a => exact absurd h.1 hQ

end

/-! ## Counted loops -/

/-- `for (i = 0; i < n; i++) s = f(i, s)`. -/
def forUp (f : Nat → σ → σ) : Nat → σ → σ
  | 0, s => s
  | n + 1, s => f n (forUp f n s)

/-- `for (i = n - 1; i >= 0; i--) s = f(i, s)`. -/
def forDown (f : Nat → σ → σ) : Nat → σ → σ
  | 0, s => s
  | n + 1, s => forDown f n (f n s)

/-- `forUp` for a body that can fail; the first failure ends the loop. -/
def forUpM (f : Nat → σ → Except ε σ) : Nat → σ → Except ε σ
  | 0, s => .ok s
  | n + 1, s => forUpM f n s >>= f n

/-- The loop rule of `forUp`. -/
theorem forUp_inv {f : Nat → σ → σ} (P : Nat → σ → Prop) {s : σ} {n : Nat} (h0 : P 0 s)
    (hstep : ∀ i, i < n → ∀ t, P i t → P (i + 1) (f i t)) : P n (forUp f n s) := by
  induction n with
  | zero => exact h0
  | succ n ih =>
    have hn : P n (forUp f n s) := ih (fun i hi => hstep i (by omega))
    exact hstep n (by omega) _ hn

/-- A loop whose turns, seen through `φ`, are those of another loop. -/
theorem forUp_map {τ : Type} {f : Nat → σ → σ} {g : Nat → τ → τ} (φ : σ → τ) (n : Nat) (s : σ)
    (h : ∀ i t, φ (f i t) = g i (φ t)) : φ (forUp f n s) = forUp g n (φ s) := by
  induction n with
  | zero => rfl
  | succ n ih => rw [forUp, forUp, h, ih]

/-- The loop rule of `forDown`; the assertion at `i` speaks of the turns `n - 1, …, i`. -/
theorem forDown_inv {f : Nat → σ → σ} (P : Nat → σ → Prop) {s : σ} {n : Nat} (h0 : P n s)
    (hstep : ∀ i, i < n → ∀ t, P (i + 1) t → P i (f i t)) : P 0 (forDown f n s) := by
  induction n generalizing s with
  | zero => exact h0
  | succ n ih =>
    have hn : P n (f n s) := hstep n (by omega) s h0
    exact ih hn (fun i hi => hstep i (by omega))

/-- The loop rule of `forUpM`: a turn that starts from the assertion ends with the next one, or with
    a fault that satisfies `E`; so does the loop. -/
theorem forUpM_ends {E : ε → Prop} {f : Nat → σ → Except ε σ} (P : Nat → σ → Prop) {s : σ} {n : Nat}
    (h0 : P 0 s) (hstep : ∀ i, i < n → ∀ t, P i t → Ends E (P (i + 1)) (f i t)) :
    Ends E (P n) (forUpM f n s) := by
  induction n with
  | zero => exact h0
  | succ n ih => exact (ih fun i hi => hstep i (by omega)).bind (hstep n (Nat.lt_succ_self n))

/-- If no turn fails from a state satisfying the assertion, the loop returns, in a state satisfying
    it. -/
theorem forUpM_inv {f : Nat → σ → Except ε σ} (P : Nat → σ → Prop) {s : σ} {n : Nat} (h0 : P 0 s)
    (hstep : ∀ i, i < n → ∀ t, P i t → ∃ t', f i t = .ok t' ∧ P (i + 1) t') :
    ∃ t, forUpM f n s = .ok t ∧ P n t := by
  have hends : Ends (fun _ => False) (P n) (forUpM f n s) := by
    refine forUpM_ends P h0 fun i hi t ht => ?_
    obtain ⟨t', hf, ht'⟩ := hstep i hi t ht
    rw [hf]
    exact ht'
  cases hloop : forUpM f n s with
  | error e => exact absurd hloop fun h => hends.of_error h
  | ok t => exact ⟨t, rfl, hends.of_ok hloop⟩

/-- A loop returns iff all of its turns do. -/
theorem forUpM_returnsIff {e : ε} {f : Nat → σ → Except ε σ} {P : σ → Prop} {Q : Nat → Prop} {s : σ}
    {n : Nat} (h0 : P s) (hstep : ∀ i, i < n → ∀ t, P t → ReturnsIff e P (Q i) (f i t)) :
    ReturnsIff e P (∀ i < n, Q i) (forUpM f n s) := by
  induction n with
  | zero => exact ⟨fun i hi => absurd hi (Nat.not_lt_zero i), h0⟩
  | succ n ih =>
    have hbefore := ih fun i hi => hstep i (by omega)
    refine (hbefore.bind (hstep n (Nat.lt_succ_self n))).congr ?_
    constructor
    · rintro ⟨hall, hlast⟩ i hi
      rcases Nat.lt_succ_iff_lt_or_eq.mp hi with hlt | rfl
      · exact hall i hlt
      · exact hlast
    · intro hall
      exact ⟨fun i hi => hall i (by omega), hall n (Nat.lt_succ_self n)⟩

/-- What every turn over a list keeps holds at its end. -/
theorem foldlM_inv {α : Type} {f : σ → α → Except ε σ} (P : σ → Prop)
    (hstep : ∀ s x s', P s → f s x = .ok s' → P s') {l : List α} {s s' : σ} (hs : P s)
    (hloop : l.foldlM f s = .ok s') : P s' := by
  induction l generalizing s with
  | nil =>
    cases hloop
    exact hs
  | cons x l ih =>
    rw [List.foldlM_cons] at hloop
    obtain ⟨t, hfirst, hrest⟩ := bind_ok hloop
    exact ih (hstep s x t hs hfirst) hrest

/-- A loop over a list returns if every turn does, as long as the turns keep what they need. -/
theorem exists_foldlM {α : Type} {f : σ → α → Except ε σ} (P : σ → Prop) {l : List α} {s : σ}
    (hstep : ∀ s, ∀ x ∈ l, P s → ∃ s', f s x = .ok s' ∧ P s') (hs : P s) :
    ∃ s', l.foldlM f s = .ok s' ∧ P s' := by
  induction l generalizing s with
  | nil => exact ⟨s, rfl, hs⟩
  | cons x l ih =>
    obtain ⟨t, hfirst, ht⟩ := hstep s x List.mem_cons_self hs
    obtain ⟨s', hrest, hs'⟩ := ih (fun s y hy => hstep s y (List.mem_cons_of_mem x hy)) ht
    exact ⟨s', by rw [List.foldlM_cons, bind_of_ok hfirst, hrest], hs'⟩

/-- `while (cond) body`, with a bound on the number of tests of the condition. -/
def whileM (cond : σ → Bool) (body : σ → Except Fault σ) : Nat → σ → Except Fault σ
  | 0, _ => .error .diverges
  | fuel + 1, s => if cond s then body s >>= whileM cond body fuel else .ok s

/-- The loop rule of `whileM`, for a loop of exactly `n` turns: the assertion at `i` speaks of the
    state after `i` turns. -/
theorem whileM_inv {cond : σ → Bool} {body : σ → Except Fault σ} (P : Nat → σ → Prop) {s : σ}
    {n fuel : Nat} (h0 : P 0 s) (hfuel : n < fuel)
    (hstep : ∀ i, i < n → ∀ t, P i t → cond t = true ∧ ∃ t', body t = .ok t' ∧ P (i + 1) t')
    (hend : ∀ t, P n t → cond t = false) : ∃ t, whileM cond body fuel s = .ok t ∧ P n t := by
  induction n generalizing P s fuel with
  | zero =>
    obtain ⟨f, rfl⟩ := Nat.exists_eq_succ_of_ne_zero (show fuel ≠ 0 by omega)
    refine ⟨s, ?_, h0⟩
    rw [whileM, hend s h0]
    rfl
  | succ n ih =>
    obtain ⟨f, rfl⟩ := Nat.exists_eq_succ_of_ne_zero (show fuel ≠ 0 by omega)
    obtain ⟨hcond, s1, hbody, h1⟩ := hstep 0 (by omega) s h0
    have hf : n < f := by omega
    obtain ⟨t, hrun, ht⟩ := ih (fun i => P (i + 1)) h1 hf
      (fun i hi t ht => hstep (i + 1) (Nat.succ_lt_succ hi) t ht) hend
    refine ⟨t, ?_, ht⟩
    rw [whileM, if_pos hcond, bind_of_ok hbody]
    exact hrun

/-- The loop rule for a loop that fails after `n` turns. -/
theorem whileM_error {cond : σ → Bool} {body : σ → Except Fault σ} (P : Nat → σ → Prop) {s : σ}
    {n fuel : Nat} {e : Fault} (h0 : P 0 s) (hfuel : n < fuel)
    (hstep : ∀ i, i < n → ∀ t, P i t → cond t = true ∧ ∃ t', body t = .ok t' ∧ P (i + 1) t')
    (hend : ∀ t, P n t → cond t = true ∧ body t = .error e) :
    whileM cond body fuel s = .error e := by
  induction n generalizing P s fuel with
  | zero =>
    obtain ⟨f, rfl⟩ := Nat.exists_eq_succ_of_ne_zero (show fuel ≠ 0 by omega)
    rw [whileM, if_pos (hend s h0).1, (hend s h0).2]
    rfl
  | succ n ih =>
    obtain ⟨f, rfl⟩ := Nat.exists_eq_succ_of_ne_zero (show fuel ≠ 0 by omega)
    obtain ⟨hcond, s1, hbody, h1⟩ := hstep 0 (by omega) s h0
    rw [whileM, if_pos hcond, bind_of_ok hbody]
    exact ih (fun i => P (i + 1)) h1 (by omega)
      (fun i hi t ht => hstep (i + 1) (Nat.succ_lt_succ hi) t ht) hend

/-- The loop rule of `whileM` with a variant: a number that every turn makes smaller. -/
theorem whileM_variant {cond : σ → Bool} {body : σ → Except Fault σ} (P : σ → Prop) (variant : σ → Nat)
    (hstep : ∀ s, P s → cond s = true → ∃ s', body s = .ok s' ∧ P s' ∧ variant s' < variant s)
    {fuel : Nat} {s : σ} (hs : P s) (hfuel : variant s < fuel) :
    ∃ t, whileM cond body fuel s = .ok t ∧ P t := by
  induction fuel generalizing s with
  | zero => omega
  | succ fuel ih =>
    rw [whileM]
    split
    · rename_i hcond
      obtain ⟨s', hbody, hs', hlt⟩ := hstep s hs hcond
      rw [bind_of_ok hbody]
      exact ih hs' (by omega)
    · exact ⟨s, rfl, hs⟩

/-- What every turn keeps holds when the loop returns. -/
theorem whileM_keeps {cond : σ → Bool} {body : σ → Except Fault σ} (P : σ → Prop)
    (hstep : ∀ s s', P s → body s = .ok s' → P s') {fuel : Nat} {s s' : σ} (hs : P s)
    (hloop : whileM cond body fuel s = .ok s') : P s' := by
  induction fuel generalizing s with
  | zero => cases hloop
  | succ fuel ih =>
    rw [whileM] at hloop
    split at hloop
    · obtain ⟨t, hturn, hrest⟩ := bind_ok hloop
      exact ih (hstep s t hs hturn) hrest
    · cases hloop
      exact hs

/-- **Two loops in step**: when every turn of one is the image of a turn of the other, so is the
    result.  `I` is what holds before each turn. -/
theorem whileM_map {τ : Type} {cond : σ → Bool} {body : σ → Except Fault σ} {cond' : τ → Bool}
    {body' : τ → Except Fault τ} (φ : σ → τ) (I : σ → Prop)
    (hcond : ∀ s, I s → cond' (φ s) = cond s)
    (hbody : ∀ s, I s → cond s = true → body' (φ s) = (body s).map φ)
    (hkeep : ∀ s s', I s → cond s = true → body s = .ok s' → I s') (fuel : Nat) {s : σ} (hs : I s) :
    whileM cond' body' fuel (φ s) = (whileM cond body fuel s).map φ := by
  induction fuel generalizing s with
  | zero => rfl
  | succ fuel ih =>
    rw [whileM, whileM, hcond s hs]
    by_cases hc : cond s = true
    · rw [if_pos hc, if_pos hc, hbody s hs hc]
      cases hb : body s with
      | error e => rfl
      | ok s' => exact ih (hkeep s s' hs hc hb)
    · rw [if_neg hc, if_neg hc]
      rfl

/-! ## Walking a linked chain -/

/-- `for (i = head; i; i = next[i])`: the indices visited, `none` when the fuel runs out. -/
def follow (next : Nat → Nat) : Nat → Nat → Option (List Nat)
  | 0, _ => none
  | fuel + 1, i => if i = 0 then some [] else (follow next fuel (next i)).map (i :: ·)

/-- The largest index in `1, …, n` with the property `p`, or `0`. -/
def lastBelow (p : Nat → Bool) : Nat → Nat
  | 0 => 0
  | n + 1 => if p (n + 1) then n + 1 else lastBelow p n

/-- The indices `n, …, 1`. -/
def downFrom (n : Nat) : List Nat := (List.range n).reverse.map (· + 1)

theorem downFrom_succ (n : Nat) : downFrom (n + 1) = (n + 1) :: downFrom n := by
  rw [downFrom, List.range_succ, List.reverse_append, List.reverse_singleton]
  rfl

theorem lastBelow_succ_of_pos {p : Nat → Bool} {n : Nat} (h : p (n + 1) = true) :
    lastBelow p (n + 1) = n + 1 := by
  rw [lastBelow, if_pos h]

theorem lastBelow_succ_of_neg {p : Nat → Bool} {n : Nat} (h : ¬ p (n + 1) = true) :
    lastBelow p (n + 1) = lastBelow p n := by
  rw [lastBelow, if_neg h]

theorem lastBelow_congr {p p' : Nat → Bool} : ∀ {n : Nat}, (∀ t, 1 ≤ t → t ≤ n → p t = p' t) →
    lastBelow p n = lastBelow p' n
  | 0, _ => rfl
  | n + 1, h => by
    rw [lastBelow, lastBelow, h (n + 1) (by omega) (Nat.le_refl _),
      lastBelow_congr fun t h1 h2 => h t h1 (by omega)]

/-- **A chain of "last smaller index with `p`" links is walked completely**: from the last index
    with `p` below `n` it visits every index with `p`, newest first, and it ends. -/
theorem follow_lastBelow {next : Nat → Nat} {p : Nat → Bool} {fuel : Nat} : ∀ {n : Nat},
    n < fuel → (∀ t, 1 ≤ t → t ≤ n → p t = true → next t = lastBelow p (t - 1)) →
    follow next fuel (lastBelow p n) = some ((downFrom n).filter p) := by
  intro n
  -- the links only go down, so one unit of fuel pays for one index below `n`
  induction n generalizing fuel with
  | zero =>
    intro hfuel _
    obtain ⟨f, rfl⟩ := Nat.exists_eq_succ_of_ne_zero (show fuel ≠ 0 by omega)
    rfl
  | succ n ih =>
    intro hfuel hnext
    have hbelow : ∀ t, 1 ≤ t → t ≤ n → p t = true → next t = lastBelow p (t - 1) :=
      fun t h1 h2 => hnext t h1 (by omega)
    rw [downFrom_succ, List.filter_cons]
    by_cases hp : p (n + 1) = true
    · obtain ⟨f, rfl⟩ := Nat.exists_eq_succ_of_ne_zero (show fuel ≠ 0 by omega)
      have hlink : next (n + 1) = lastBelow p n := hnext (n + 1) (by omega) (Nat.le_refl _) hp
      rw [lastBelow_succ_of_pos hp, if_pos hp, follow, if_neg (by omega), hlink,
        ih (by omega) hbelow]
      rfl
    · rw [lastBelow_succ_of_neg hp, if_neg hp]
      exact ih (by omega) hbelow

end JudgeDuck.Lib
