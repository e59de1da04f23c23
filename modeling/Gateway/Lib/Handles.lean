import Mathlib.Data.List.Basic

/-!
# Handles that are obtained, used and released

A log of what a task does with handles (descriptors, leases), the latest first. The same handle can
be obtained again after it was released.

* `Owned`: every use and every release is of a handle obtained more often than released.
* `Balanced`: moreover the handles in a list are the ones not released. `Balanced.obtain`,
  `Balanced.use` and `Balanced.release` carry it along a run.
-/

namespace Gateway.Lib

/-- What is done with a handle. -/
inductive HandleUse (η : Type) where
  | obtain (h : η)
  | use (h : η)
  | release (h : η)
  deriving DecidableEq, Repr

variable {η : Type} [DecidableEq η]

def obtained (h : η) (log : List (HandleUse η)) : Nat := log.count (.obtain h)

def released (h : η) (log : List (HandleUse η)) : Nat := log.count (.release h)

/-- A handle is used or released only while it is held. -/
def Owned : List (HandleUse η) → Prop
  | [] => True
  | .obtain _ :: log => Owned log
  | .use h :: log => released h log < obtained h log ∧ Owned log
  | .release h :: log => released h log < obtained h log ∧ Owned log

/-- The log is owned, and `held` lists what it leaves held. -/
structure Balanced (log : List (HandleUse η)) (held : List η) : Prop where
  owned : Owned log
  count : ∀ h, obtained h log = released h log + held.count h

variable {log : List (HandleUse η)} {held : List η} {h : η}

namespace Balanced

theorem nil : Balanced ([] : List (HandleUse η)) [] := ⟨trivial, fun _ => rfl⟩

/-- Nothing is held: each handle was released as often as obtained. -/
theorem all_released (hb : Balanced log []) (h : η) : obtained h log = released h log :=
  hb.count h

theorem lt_of_mem (hb : Balanced log held) (hh : h ∈ held) :
    released h log < obtained h log := by
  have hpos := List.count_pos_iff.mpr hh
  rw [hb.count h]
  omega

theorem obtain (hb : Balanced log held) (h : η) : Balanced (.obtain h :: log) (h :: held) := by
  refine ⟨hb.owned, fun g => ?_⟩
  have hg := hb.count g
  unfold obtained released at hg ⊢
  rw [List.count_cons, List.count_cons, List.count_cons, hg]
  by_cases heq : h = g
  · subst heq
    simp
    omega
  · simp [heq]

theorem use (hb : Balanced log held) (hh : h ∈ held) : Balanced (.use h :: log) held := by
  refine ⟨⟨hb.lt_of_mem hh, hb.owned⟩, fun g => ?_⟩
  have hg := hb.count g
  unfold obtained released at hg ⊢
  simpa using hg

theorem release (hb : Balanced log held) (hh : h ∈ held) :
    Balanced (.release h :: log) (held.erase h) := by
  refine ⟨⟨hb.lt_of_mem hh, hb.owned⟩, fun g => ?_⟩
  have hg := hb.count g
  unfold obtained released at hg ⊢
  rw [List.count_cons, List.count_cons, hg]
  by_cases heq : h = g
  · subst heq
    have hpos := List.count_pos_iff.mpr hh
    rw [List.count_erase_self]
    simp
    omega
  · rw [List.count_erase_of_ne (Ne.symm heq)]
    simp [heq]

end Balanced

end Gateway.Lib
