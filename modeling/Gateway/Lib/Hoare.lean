/-!
# Pre- and postconditions of state-passing functions

`Meets P x Q`: run from a state with `P`, the function `x` ends with `Q` of its result and its
state. The rules are those of the ways to put functions together: `Meets.pure`, `Meets.bind`,
`Meets.bind_fact`, `Meets.ite`, and `Meets.conseq` to change the conditions.
-/

namespace Gateway.Lib

variable {σ α β : Type}

/-- From `P`, `x` ends with `Q`. -/
def Meets (P : σ → Prop) (x : StateM σ α) (Q : α → σ → Prop) : Prop :=
  ∀ s, P s → ∀ a s', x s = (a, s') → Q a s'

namespace Meets

variable {P P' : σ → Prop} {x : StateM σ α} {Q Q' : α → σ → Prop}

theorem pure {a : α} (h : ∀ s, P s → Q a s) : Meets P (Pure.pure a) Q := by
  intro s hs b s' hr
  cases hr
  exact h s hs

theorem bind {f : α → StateM σ β} {R : β → σ → Prop} (hx : Meets P x Q)
    (hf : ∀ a, Meets (Q a) (f a) R) : Meets P (x >>= f) R := by
  intro s hs b s' hr
  exact hf (x s).1 (x s).2 (hx s hs (x s).1 (x s).2 rfl) b s' hr

theorem conseq (h : Meets P x Q) (hpre : ∀ s, P' s → P s) (hpost : ∀ a s, Q a s → Q' a s) :
    Meets P' x Q' := fun s hs a s' hr => hpost a s' (h s (hpre s hs) a s' hr)

theorem weaken (h : Meets P x Q) (hpost : ∀ a s, Q a s → Q' a s) : Meets P x Q' :=
  h.conseq (fun _ hs => hs) hpost

theorem strengthen (h : Meets P x Q) (hpre : ∀ s, P' s → P s) : Meets P' x Q :=
  h.conseq hpre fun _ _ hq => hq

/-- Each branch under its condition. -/
theorem ite {c : Prop} [Decidable c] {y : StateM σ α} (hx : c → Meets P x Q)
    (hy : ¬ c → Meets P y Q) : Meets P (if c then x else y) Q := by
  split
  · rename_i hc
    exact hx hc
  · rename_i hc
    exact hy hc

/-- What is known of the result, whatever the state, is a hypothesis of what follows. -/
theorem bind_fact {f : α → StateM σ β} {R : β → σ → Prop} {p : α → Prop}
    (hx : Meets P x fun a s => Q a s ∧ p a) (hf : ∀ a, p a → Meets (Q a) (f a) R) :
    Meets P (x >>= f) R :=
  hx.bind fun a s hs => hf a hs.2 s hs.1

end Meets

end Gateway.Lib
