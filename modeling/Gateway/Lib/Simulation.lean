import Gateway.Lib.System

/-!
# Simulations between two systems

Each step of a concrete system stands for a run of an abstract one, possibly an empty run, up to a
relation between the states.

* `runActs_append`, `reach_step`: a run goes on after a run. `run_withHist`: and a history variable
  removes none. `allSteps_at`: a condition on the steps, at one of them.
* `traceOf`: the abstract actions that a run stands for; `mem_traceOf`: where one comes from.
* **`run_simulated`**: the rule. One step is matched, so a run is matched by its trace.
-/

namespace Gateway.Lib

variable {σ α τ β : Type} {step : σ → α → Option σ} {step' : τ → β → Option τ}

theorem runActs_append {as as' : List α} {s t : σ} (h : runActs step s as = some t) :
    runActs step s (as ++ as') = runActs step t as' := by
  induction as generalizing s with
  | nil =>
    cases h
    rfl
  | cons a as ih =>
    obtain ⟨s', hs, hr⟩ := runActs_cons h
    rw [List.cons_append, runActs, hs]
    exact ih hr

theorem runActs_single {s s' : σ} {a : α} (h : step s a = some s') :
    runActs step s [a] = some s' := by
  rw [runActs, h]
  rfl

theorem reach_step {s₀ s s' : σ} {a : α} (hr : Reach step s₀ s) (h : step s a = some s') :
    Reach step s₀ s' := by
  obtain ⟨as, has⟩ := hr
  exact ⟨as ++ [a], (runActs_append has).trans (runActs_single h)⟩

/-- A condition met by all steps of a run is met at each of them, and before. -/
theorem allSteps_at {C : σ → α → Prop} {as as' : List α} {s t : σ} {a : α}
    (h : AllSteps step C s (as ++ a :: as')) (hr : runActs step s as = some t) :
    AllSteps step C s as ∧ C t a := by
  induction as generalizing s with
  | nil =>
    cases hr
    exact ⟨trivial, h.1⟩
  | cons b as ih =>
    obtain ⟨s', hs, hr'⟩ := runActs_cons hr
    obtain ⟨hall, hat⟩ := ih (h.2 s' hs) hr'
    refine ⟨⟨h.1, fun t' ht' => ?_⟩, hat⟩
    cases hs.symm.trans ht'
    exact hall

theorem allSteps_append {C : σ → α → Prop} {as as' : List α} {s : σ} (h : AllSteps step C s as)
    (h' : ∀ t, runActs step s as = some t → AllSteps step C t as') :
    AllSteps step C s (as ++ as') := by
  induction as generalizing s with
  | nil => exact h' s rfl
  | cons a as ih =>
    refine ⟨h.1, fun t ht => ih (h.2 t ht) fun u hu => h' u ?_⟩
    rw [runActs, ht]
    exact hu

/-- A history variable removes no run. -/
theorem run_withHist {η : Type} (upd : η → σ → α → η) {as : List α} {s s' : σ} {h : η}
    (hr : runActs step s as = some s') :
    ∃ h', runActs (withHist step upd) (s, h) as = some (s', h') := by
  induction as generalizing s h with
  | nil =>
    cases hr
    exact ⟨h, rfl⟩
  | cons a as ih =>
    obtain ⟨t, hs, hr'⟩ := runActs_cons hr
    obtain ⟨h', hh⟩ := ih (h := upd h s a) hr'
    refine ⟨h', ?_⟩
    have hstep : withHist step upd (s, h) a = some (t, upd h s a) := by
      rw [withHist, hs]
      rfl
    rw [runActs, hstep]
    exact hh

/-- The abstract actions that the run `as` from `s` stands for, with `f s a` those of one step. -/
def traceOf (step : σ → α → Option σ) (f : σ → α → List β) : σ → List α → List β
  | _, [] => []
  | s, a :: as => f s a ++
    match step s a with
    | none => []
    | some s' => traceOf step f s' as

theorem traceOf_cons {f : σ → α → List β} {s s' : σ} {a : α} (as : List α)
    (h : step s a = some s') : traceOf step f s (a :: as) = f s a ++ traceOf step f s' as := by
  rw [traceOf, h]

/-- An action of the trace belongs to a step of the run. -/
theorem mem_traceOf {f : σ → α → List β} {as : List α} {s : σ} {b : β}
    (h : b ∈ traceOf step f s as) : ∃ before a after t, as = before ++ a :: after ∧
      runActs step s before = some t ∧ b ∈ f t a := by
  induction as generalizing s with
  | nil => exact absurd h List.not_mem_nil
  | cons a as ih =>
    rw [traceOf, List.mem_append] at h
    rcases h with h | h
    · exact ⟨[], a, as, s, rfl, rfl, h⟩
    · cases hs : step s a with
      | none =>
        rw [hs] at h
        exact absurd h List.not_mem_nil
      | some s' =>
        rw [hs] at h
        obtain ⟨before, a', after, t, rfl, ht, hb⟩ := ih h
        refine ⟨a :: before, a', after, t, rfl, ?_, hb⟩
        rw [runActs, hs]
        exact ht

/-- **The simulation rule.** If every step from related states is matched by a run of the abstract
system that ends in related states, then so is every run. -/
theorem run_simulated {R : σ → τ → Prop} {f : σ → α → List β}
    (hstep : ∀ s t a s', R s t → step s a = some s' →
      ∃ t', runActs step' t (f s a) = some t' ∧ R s' t') :
    ∀ (as : List α) (s : σ) (t : τ), R s t → ∀ s', runActs step s as = some s' →
      ∃ t', runActs step' t (traceOf step f s as) = some t' ∧ R s' t' := by
  intro as
  induction as with
  | nil =>
    intro s t hR s' hr
    cases hr
    exact ⟨t, rfl, hR⟩
  | cons a as ih =>
    intro s t hR s' hr
    obtain ⟨s₁, hs, hr'⟩ := runActs_cons hr
    obtain ⟨t₁, ht, hR₁⟩ := hstep s t a s₁ hR hs
    obtain ⟨t', ht', hR'⟩ := ih s₁ t₁ hR₁ s' hr'
    refine ⟨t', ?_, hR'⟩
    rw [traceOf_cons as hs, runActs_append ht]
    exact ht'

end Gateway.Lib
