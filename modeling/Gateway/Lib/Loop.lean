import Gateway.Lib.Buf
import Mathlib.Algebra.Group.Nat.Defs

/-!
# Counting loops

Two loops over a state, with a body that may fault.

* `forBelow body n` is `for (i = 0; i < n; i++)`, for a counter that can hold `n`.
* `forUpTo body hi fuel lo` is `for (c = lo; c <= hi; c++)` with a counter of `w` bits. The
  counter wraps: when `hi` is the largest value of the type, the condition never fails.

Rules:
* `forBelow_ok`: an invariant through all iterations.
* `forBelow_error`: an iteration that faults whatever came before it.
* `forUpTo_ok`: the loop ends, with the invariant, when `hi` is not the largest value.
* `forUpTo_keeps`: the invariant of a loop that has ended.
* `forUpTo_endless`, `forUpTo_stuck`: when it does not.
-/

namespace Gateway.Lib

variable {σ : Type} {w : Nat}

/-- `for (i = 0; i < n; i++)`. -/
def forBelow (body : Nat → σ → Except Fault σ) : Nat → σ → Except Fault σ
  | 0, s => .ok s
  | n + 1, s => do
    let s ← forBelow body n s
    body n s

/-- `for (c = lo; c <= hi; c++)`. -/
def forUpTo (body : BitVec w → σ → Except Fault σ) (hi : BitVec w) :
    Nat → BitVec w → σ → Except Fault σ
  | 0, _, _ => .error .outOfFuel
  | fuel + 1, c, s =>
    if c ≤ hi then do
      let s ← body c s
      forUpTo body hi fuel (c + 1) s
    else .ok s

/-! ## A counter that does not wrap -/

section Below

variable {body : Nat → σ → Except Fault σ} {n : Nat} {s : σ}

/-- **The invariant rule of `forBelow`.** -/
theorem forBelow_ok (I : Nat → σ → Prop) (h0 : I 0 s)
    (step : ∀ i, i < n → ∀ t, I i t → ∃ t', body i t = .ok t' ∧ I (i + 1) t') :
    ∃ s', forBelow body n s = .ok s' ∧ I n s' := by
  induction n with
  | zero => exact ⟨s, rfl, h0⟩
  | succ n ih =>
    obtain ⟨t, ht, hI⟩ := ih fun i hi => step i (Nat.lt_succ_of_lt hi)
    obtain ⟨s', hs', hI'⟩ := step n (Nat.lt_succ_self n) t hI
    refine ⟨s', ?_, hI'⟩
    show forBelow body n s >>= body n = _
    rw [ht]
    exact hs'

/-- A fault of the loop is a fault of its body. -/
theorem forBelow_fault (P : Fault → Prop) (hP : ∀ i, i < n → ∀ t e, body i t = .error e → P e)
    {e : Fault} (h : forBelow body n s = .error e) : P e := by
  induction n with
  | zero => cases h
  | succ n ih =>
    have h' : (forBelow body n s >>= body n) = .error e := h
    cases ht : forBelow body n s with
    | error e' =>
      rw [ht] at h'
      cases h'
      exact ih (fun i hi => hP i (Nat.lt_succ_of_lt hi)) ht
    | ok t =>
      rw [ht] at h'
      exact hP n (Nat.lt_succ_self n) t e h'

/-- An iteration that faults from every state stops the loop. -/
theorem forBelow_stuck {k : Nat} (hk : k < n) (hstuck : ∀ t t', body k t ≠ .ok t') (s' : σ) :
    forBelow body n s ≠ .ok s' := by
  induction n generalizing s' with
  | zero => exact absurd hk (Nat.not_lt_zero k)
  | succ n ih =>
    intro h
    have h' : (forBelow body n s >>= body n) = .ok s' := h
    cases ht : forBelow body n s with
    | error e =>
      rw [ht] at h'
      cases h'
    | ok t =>
      rw [ht] at h'
      rcases Nat.lt_succ_iff_lt_or_eq.mp hk with hlt | rfl
      · exact ih hlt t ht
      · exact hstuck t s' h'

/-- **A loop that an iteration stops** ends in a fault of its body. -/
theorem forBelow_error (P : Fault → Prop) {k : Nat} (hk : k < n)
    (hstuck : ∀ t t', body k t ≠ .ok t')
    (hP : ∀ i, i < n → ∀ t e, body i t = .error e → P e) :
    ∃ e, forBelow body n s = .error e ∧ P e := by
  cases h : forBelow body n s with
  | error e => exact ⟨e, rfl, forBelow_fault P hP h⟩
  | ok t => exact absurd h (forBelow_stuck hk hstuck t)

end Below

/-! ## A counter that wraps -/

section UpTo

variable {body : BitVec w → σ → Except Fault σ} {hi : BitVec w}

/-- The counter after one more iteration, below the largest value. -/
theorem toNat_succ {c : BitVec w} (hc : c ≤ hi) (hhi : hi.toNat + 1 < 2 ^ w) :
    (c + 1).toNat = c.toNat + 1 := by
  have hle : c.toNat ≤ hi.toNat := hc
  have h1 : (1 : BitVec w).toNat = 1 % 2 ^ w := rfl
  rw [BitVec.toNat_add, h1, Nat.add_mod_mod, Nat.mod_eq_of_lt (by omega)]

/-- **The loop ends** when `hi` is not the largest value of the counter, in a state with the
invariant. -/
theorem forUpTo_ok (I : Nat → σ → Prop) (hhi : hi.toNat + 1 < 2 ^ w)
    (step : ∀ c, c ≤ hi → ∀ t, I c.toNat t → ∃ t', body c t = .ok t' ∧ I (c.toNat + 1) t')
    {fuel : Nat} {lo : BitVec w} {s : σ} (hfuel : hi.toNat + 1 - lo.toNat < fuel)
    (h0 : I lo.toNat s) :
    ∃ s', forUpTo body hi fuel lo s = .ok s' ∧ I (max lo.toNat (hi.toNat + 1)) s' := by
  induction fuel generalizing lo s with
  | zero => exact absurd hfuel (Nat.not_lt_zero _)
  | succ fuel ih =>
    unfold forUpTo
    by_cases hc : lo ≤ hi
    · have hle : lo.toNat ≤ hi.toNat := hc
      obtain ⟨t, ht, hI⟩ := step lo hc s h0
      have hsucc := toNat_succ hc hhi
      rw [← hsucc] at hI
      obtain ⟨s', hs', hI'⟩ := ih (by omega) hI
      refine ⟨s', ?_, ?_⟩
      · rw [if_pos hc, ht]
        exact hs'
      · rw [hsucc, Nat.max_eq_right (by omega)] at hI'
        rwa [Nat.max_eq_right (by omega)]
    · have hlt : hi.toNat < lo.toNat := Nat.lt_of_not_le hc
      refine ⟨s, if_neg hc, ?_⟩
      rwa [Nat.max_eq_left hlt]

/-- **What a loop that has ended leaves.** -/
theorem forUpTo_keeps (I : Nat → σ → Prop) (hhi : hi.toNat + 1 < 2 ^ w)
    (step : ∀ c, c ≤ hi → ∀ t t', I c.toNat t → body c t = .ok t' → I (c.toNat + 1) t')
    {fuel : Nat} {lo : BitVec w} {s s' : σ} (h0 : I lo.toNat s)
    (h : forUpTo body hi fuel lo s = .ok s') : I (max lo.toNat (hi.toNat + 1)) s' := by
  induction fuel generalizing lo s with
  | zero => cases h
  | succ fuel ih =>
    unfold forUpTo at h
    by_cases hc : lo ≤ hi
    · have hle : lo.toNat ≤ hi.toNat := hc
      rw [if_pos hc] at h
      cases hb : body lo s with
      | error e =>
        rw [hb] at h
        cases h
      | ok t =>
        rw [hb] at h
        have hsucc := toNat_succ hc hhi
        have hI := step lo hc s t h0 hb
        rw [← hsucc] at hI
        have hI' := ih hI h
        rw [hsucc, Nat.max_eq_right (by omega)] at hI'
        rwa [Nat.max_eq_right (by omega)]
    · have hlt : hi.toNat < lo.toNat := Nat.lt_of_not_le hc
      rw [if_neg hc] at h
      cases h
      rwa [Nat.max_eq_left hlt]

/-- **At the largest value of the counter the loop does not end**: the counter never passes
it. -/
theorem forUpTo_endless (hhi : hi.toNat + 1 = 2 ^ w) (fuel : Nat) (lo : BitVec w) (s s' : σ) :
    forUpTo body hi fuel lo s ≠ .ok s' := by
  induction fuel generalizing lo s with
  | zero => exact fun h => by cases h
  | succ fuel ih =>
    have hc : lo ≤ hi := by
      show lo.toNat ≤ hi.toNat
      have := lo.isLt
      omega
    unfold forUpTo
    rw [if_pos hc]
    cases body lo s with
    | error e => exact fun h => by cases h
    | ok t => exact ih (lo + 1) t

/-- A loop whose first iteration does not end does not end. -/
theorem forUpTo_stuck {lo : BitVec w} (hlo : lo ≤ hi) {s : σ} (hstuck : ∀ t, body lo s ≠ .ok t)
    (fuel : Nat) (s' : σ) : forUpTo body hi fuel lo s ≠ .ok s' := by
  cases fuel with
  | zero => exact fun h => by cases h
  | succ fuel =>
    unfold forUpTo
    rw [if_pos hlo]
    cases hb : body lo s with
    | error e => exact fun h => by cases h
    | ok t => exact absurd hb (hstuck t)

end UpTo

end Gateway.Lib
