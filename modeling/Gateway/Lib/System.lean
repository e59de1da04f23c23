/-!
# Runs of a system given by a partial step function

A system is a step function `σ → α → Option σ`: `none` when the action is not enabled in the
state. `runActs` runs a list of actions, `Reach` holds of the states some run ends in.

* `run_invariant`: what holds at the start and is kept by every step holds after every run. The
  invariant may mention the actions run so far.
* `reach_invariant`: the same for an invariant of the state alone.
* `run_invariant_of`: the same when only the steps meeting `C` keep the invariant, for the runs
  whose steps all meet `C` (`AllSteps`).
* `allSteps_congr`: conditions that agree under an invariant.
* `throughout_iff`: what holds in every state of a run (`Throughout`) exactly under `C`.
* `withHist` adds a history variable: a component the steps update and never read, so that it
  removes no run.
-/

namespace Gateway.Lib

variable {σ α η : Type}

/-- Run the actions in order; `none` as soon as one of them is not enabled. -/
def runActs (step : σ → α → Option σ) : σ → List α → Option σ
  | s, [] => some s
  | s, a :: as =>
    match step s a with
    | none => none
    | some s' => runActs step s' as

/-- The states some run from `s₀` ends in. -/
def Reach (step : σ → α → Option σ) (s₀ s : σ) : Prop :=
  ∃ as, runActs step s₀ as = some s

/-- Every step of the run `as` from `s` meets `C`. -/
def AllSteps (step : σ → α → Option σ) (C : σ → α → Prop) : σ → List α → Prop
  | _, [] => True
  | s, a :: as => C s a ∧ ∀ s', step s a = some s' → AllSteps step C s' as

variable {step : σ → α → Option σ} {s₀ s s' : σ} {a : α}

theorem runActs_cons {as : List α} (h : runActs step s (a :: as) = some s') :
    ∃ t, step s a = some t ∧ runActs step t as = some s' := by
  unfold runActs at h
  split at h
  · exact absurd h (by simp)
  · rename_i t ht
    exact ⟨t, ht, h⟩

/-- **The invariant rule for runs whose steps all meet `C`.** `I done s` speaks of the actions
`done` run so far and of the state `s` they lead to. -/
theorem run_invariant_of {C : σ → α → Prop} {I : List α → σ → Prop}
    (hstep : ∀ done s a s', I done s → C s a → step s a = some s' → I (done ++ [a]) s') :
    ∀ (as done : List α) (s : σ), I done s → AllSteps step C s as →
      ∀ s', runActs step s as = some s' → I (done ++ as) s' := by
  intro as
  induction as with
  | nil =>
    intro done s hI _ s' hr
    cases hr
    rwa [List.append_nil]
  | cons a as ih =>
    intro done s hI hC s' hr
    obtain ⟨t, ht, hr'⟩ := runActs_cons hr
    have hI' := hstep done s a t hI hC.1 ht
    have := ih (done ++ [a]) t hI' (hC.2 t ht) s' hr'
    rwa [List.append_assoc, List.singleton_append] at this

/-- Two conditions that agree under an invariant hold of the steps of the same runs. -/
theorem allSteps_congr {C C' : σ → α → Prop} {I : σ → Prop}
    (hstep : ∀ s a s', I s → step s a = some s' → I s') (h : ∀ s a, I s → (C s a ↔ C' s a))
    (as : List α) (s : σ) (hI : I s) : AllSteps step C s as ↔ AllSteps step C' s as := by
  induction as generalizing s with
  | nil => exact Iff.rfl
  | cons a as ih =>
    exact and_congr (h s a hI) (forall_congr' fun s' =>
      forall_congr' fun hs => ih s' (hstep s a s' hI hs))

theorem allSteps_last {C : σ → α → Prop} {as : List α} {s t : σ}
    (h : AllSteps step C s (as ++ [a])) (hr : runActs step s as = some t) : C t a := by
  induction as generalizing s with
  | nil =>
    cases hr
    exact h.1
  | cons b as ih =>
    obtain ⟨s', hs, hr'⟩ := runActs_cons hr
    exact ih (h.2 s' hs) hr'

/-- A run whose last step breaks the condition, as far as `f` shows of the state before it. -/
theorem not_allSteps_of_last {β : Type} {C : σ → α → Prop} {as : List α} {f : σ → β} {b : β}
    (hr : (runActs step s as).map f = some b) (hf : ∀ t, f t = b → ¬ C t a) :
    ¬ AllSteps step C s (as ++ [a]) := by
  intro h
  obtain ⟨t, ht, hb⟩ := Option.map_eq_some_iff.mp hr
  exact hf t hb (allSteps_last h ht)

/-- A condition on the actions alone. -/
theorem allSteps_of_mem {C : σ → α → Prop} (as : List α) (s : σ) (h : ∀ s, ∀ a ∈ as, C s a) :
    AllSteps step C s as := by
  induction as generalizing s with
  | nil => trivial
  | cons a as ih =>
    exact ⟨h s a List.mem_cons_self,
      fun s' _ => ih s' fun s b hb => h s b (List.mem_cons_of_mem _ hb)⟩

/-- **The invariant rule**, with the actions run so far. -/
theorem run_invariant {I : List α → σ → Prop} (h0 : I [] s₀)
    (hstep : ∀ done s a s', I done s → step s a = some s' → I (done ++ [a]) s')
    {as : List α} (hr : runActs step s₀ as = some s) : I as s := by
  have hC : AllSteps step (fun _ _ => True) s₀ as := allSteps_of_mem as s₀ fun _ _ _ => trivial
  have := run_invariant_of (C := fun _ _ => True)
    (fun done s a s' hI _ hs => hstep done s a s' hI hs) as [] s₀ h0 hC s hr
  rwa [List.nil_append] at this

/-- **The invariant rule** for an invariant of the state alone. -/
theorem reach_invariant {I : σ → Prop} (h0 : I s₀)
    (hstep : ∀ s a s', I s → step s a = some s' → I s') (hr : Reach step s₀ s) : I s := by
  obtain ⟨as, has⟩ := hr
  exact run_invariant (I := fun _ s => I s) h0 (fun _ s a s' hI hs => hstep s a s' hI hs) has

/-- Every state of the run `as` from `s` on satisfies `P`. -/
def Throughout (step : σ → α → Option σ) (P : σ → Prop) : σ → List α → Prop
  | s, [] => P s
  | s, a :: as => P s ∧ ∀ s', step s a = some s' → Throughout step P s' as

theorem Throughout.head {P : σ → Prop} {as : List α} (h : Throughout step P s as) : P s := by
  cases as with
  | nil => exact h
  | cons a as => exact h.1

/-- A run that ends in a state without the property, as far as `f` shows of it. -/
theorem not_throughout_of_last {β : Type} {P : σ → Prop} {as : List α} {f : σ → β} {b : β}
    (hr : (runActs step s as).map f = some b) (hf : ∀ t, f t = b → ¬ P t) :
    ¬ Throughout step P s as := by
  intro h
  obtain ⟨t, ht, hb⟩ := Option.map_eq_some_iff.mp hr
  refine hf t hb ?_
  clear hr
  induction as generalizing s with
  | nil =>
    cases ht
    exact h
  | cons a as ih =>
    obtain ⟨s', hs, hr'⟩ := runActs_cons ht
    exact ih (h.2 s' hs) hr'

/-- **A property holds throughout exactly the runs whose steps all meet `C`**, when these steps keep
an invariant that implies it and every other step breaks it. -/
theorem throughout_iff {C : σ → α → Prop} {I P : σ → Prop} (hP : ∀ s, I s → P s)
    (hstep : ∀ s a s', I s → C s a → step s a = some s' → I s')
    (hbad : ∀ s a s', I s → ¬ C s a → step s a = some s' → ¬ P s') :
    ∀ (as : List α) (s : σ), I s → (runActs step s as).isSome →
      (Throughout step P s as ↔ AllSteps step C s as) := by
  intro as
  induction as with
  | nil => exact fun s hI _ => ⟨fun _ => trivial, fun _ => hP s hI⟩
  | cons a as ih =>
    intro s hI hr
    obtain ⟨t, hr⟩ := Option.isSome_iff_exists.mp hr
    obtain ⟨s', hs, hr'⟩ := runActs_cons hr
    have hrest : (runActs step s' as).isSome := Option.isSome_iff_exists.mpr ⟨t, hr'⟩
    constructor
    · rintro ⟨-, h⟩
      have hC : C s a :=
        Classical.byContradiction fun hno => hbad s a s' hI hno hs (h s' hs).head
      refine ⟨hC, fun s'' hs'' => ?_⟩
      cases hs.symm.trans hs''
      exact (ih s' (hstep s a s' hI hC hs) hrest).mp (h s' hs)
    · rintro ⟨hC, h⟩
      refine ⟨hP s hI, fun s'' hs'' => ?_⟩
      cases hs.symm.trans hs''
      exact (ih s' (hstep s a s' hI hC hs) hrest).mpr (h s' hs)

/-! ## History variables -/

/-- The system with a history variable, updated by `upd` from the state before a step. -/
def withHist (step : σ → α → Option σ) (upd : η → σ → α → η) : σ × η → α → Option (σ × η) :=
  fun p a => (step p.1 a).map fun s' => (s', upd p.2 p.1 a)

theorem withHist_some {upd : η → σ → α → η} {p q : σ × η}
    (h : withHist step upd p a = some q) : step p.1 a = some q.1 ∧ q.2 = upd p.2 p.1 a := by
  unfold withHist at h
  cases hs : step p.1 a with
  | none => rw [hs] at h; exact absurd h (by simp)
  | some t =>
    rw [hs] at h
    cases h
    exact ⟨rfl, rfl⟩

end Gateway.Lib
