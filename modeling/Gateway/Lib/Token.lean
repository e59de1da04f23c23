import Mathlib.Data.List.TakeWhile

/-!
# Runs between separators, and `strtok_r`

* `runs`: the non-empty maximal runs of elements other than the separator.
* `strtokR`: one call of `strtok_r` with a one-character separator: the token, and the rest it
  saves.
* `strtokR_spec`: the calls return the runs, one after the other.
* `runs_eq_pair`: with a single separator, two runs are what stands before and after it.
-/

namespace Gateway.Lib

variable {α : Type} [DecidableEq α] {c : α} {l r : List α}

/-- The non-empty maximal runs of elements other than `c`. -/
def runs (c : α) (l : List α) : List (List α) := (l.splitOn c).filter (· ≠ [])

/-- `strtok_r`: skip the separators, then take up to the next one. `none` is `NULL`. -/
def strtokR (c : α) (s : List α) : Option (List α) × List α :=
  let s := s.dropWhile (· = c)
  if s = [] then (none, [])
  else (some (s.takeWhile (· ≠ c)), (s.dropWhile (· ≠ c)).drop 1)

@[simp] theorem runs_nil : runs c [] = [] := by
  unfold runs
  rw [List.splitOn_nil]
  rfl

theorem runs_append_cons (h : c ∉ r) (hne : r ≠ []) : runs c (r ++ c :: l) = r :: runs c l := by
  unfold runs
  rw [List.splitOn_append_cons_self_of_not_mem h, List.filter_cons_of_pos (by simpa using hne)]

theorem runs_cons_sep : runs c (c :: l) = runs c l := by
  have h := List.splitOn_append_cons_self_of_not_mem (List.not_mem_nil (a := c)) l
  unfold runs
  rw [List.nil_append] at h
  rw [h, List.filter_cons_of_neg (by simp)]

theorem runs_of_notMem (h : c ∉ r) (hne : r ≠ []) : runs c r = [r] := by
  unfold runs
  rw [List.splitOn_eq_singleton h, List.filter_cons_of_pos (by simpa using hne), List.filter_nil]

/-- Leading separators do not matter. -/
theorem runs_dropWhile (c : α) (l : List α) : runs c (l.dropWhile (· = c)) = runs c l := by
  induction l with
  | nil => rfl
  | cons a l ih =>
    by_cases h : a = c
    · subst h
      rw [List.dropWhile_cons_of_pos (by simp), runs_cons_sep, ih]
    · rw [List.dropWhile_cons_of_neg (by simpa using h)]

theorem notMem_takeWhile (c : α) (l : List α) : c ∉ l.takeWhile (· ≠ c) := fun h => by
  simpa using List.mem_takeWhile_imp h

/-- What follows the first run is nothing, or begins with the separator. -/
theorem dropWhile_cases (c : α) (l : List α) :
    l.dropWhile (· ≠ c) = [] ∨ ∃ m, l.dropWhile (· ≠ c) = c :: m := by
  induction l with
  | nil => exact Or.inl rfl
  | cons a l ih =>
    by_cases h : a = c
    · subst h
      exact Or.inr ⟨l, List.dropWhile_cons_of_neg (by simp)⟩
    · rw [List.dropWhile_cons_of_pos (by simpa using h)]
      exact ih

/-- **The calls return the runs**: the token is the first one, and the saved rest has the others. -/
theorem strtokR_spec (c : α) (s : List α) :
    (strtokR c s).1 = (runs c s).head? ∧ runs c (strtokR c s).2 = (runs c s).tail := by
  rw [← runs_dropWhile c s]
  unfold strtokR
  generalize hd : s.dropWhile (· = c) = d
  simp only
  by_cases hnil : d = []
  · subst hnil
    simp
  · rw [if_neg hnil]
    have hhead : d.takeWhile (· ≠ c) ≠ [] := by
      intro h
      obtain ⟨a, m, rfl⟩ := List.exists_cons_of_ne_nil hnil
      have ha : a ≠ c := by
        have := List.head_dropWhile_not (· = c) (l := s) (by rw [hd]; exact hnil)
        simpa [hd] using this
      rw [List.takeWhile_cons_of_pos (by simpa using ha)] at h
      exact absurd h (by simp)
    have hsplit := List.takeWhile_append_dropWhile (p := (· ≠ c)) (l := d)
    rcases dropWhile_cases c d with h | ⟨m, h⟩
    · rw [h, List.append_nil] at hsplit
      rw [h, hsplit, runs_of_notMem (hsplit ▸ notMem_takeWhile c d) hnil]
      exact ⟨rfl, rfl⟩
    · rw [h] at hsplit ⊢
      have hruns := runs_append_cons (l := m) (notMem_takeWhile c d) hhead
      rw [hsplit] at hruns
      rw [hruns]
      exact ⟨rfl, rfl⟩

/-- The elements of the first run are elements of the list. -/
theorem mem_of_mem_head_runs {x : α} (h : (runs c l).head? = some r) (hx : x ∈ r) : x ∈ l := by
  rw [← (strtokR_spec c l).1] at h
  unfold strtokR at h
  simp only at h
  split at h
  · exact absurd h (by simp)
  · cases h
    exact List.dropWhile_suffix _ |>.mem (List.takeWhile_prefix _ |>.mem hx)

/-! ## Counting separators -/

omit [DecidableEq α] in
/-- What stands before the first separator is determined, and so is the rest. -/
theorem append_sep_inj {a b m : List α} (ha : c ∉ a) (hb : c ∉ b)
    (h : a ++ c :: l = b ++ c :: m) : a = b ∧ l = m := by
  induction a generalizing b with
  | nil =>
    cases b with
    | nil => exact ⟨rfl, (List.cons.inj h).2⟩
    | cons x b => exact absurd ((List.cons.inj h).1 ▸ List.mem_cons_self) hb
  | cons x a ih =>
    rw [List.mem_cons, not_or] at ha
    cases b with
    | nil => exact absurd (List.cons.inj h).1.symm ha.1
    | cons y b =>
      obtain ⟨rfl, htail⟩ := List.cons.inj h
      rw [List.mem_cons, not_or] at hb
      obtain ⟨rfl, rfl⟩ := ih ha.2 hb.2 htail
      exact ⟨rfl, rfl⟩

/-- Without a separator there is one run at most. -/
theorem mem_of_two_le_runs (h : 2 ≤ (runs c l).length) : c ∈ l := by
  by_contra hc
  by_cases hl : l = []
  · subst hl
    exact absurd h (by simp)
  · rw [runs_of_notMem hc hl] at h
    exact absurd h (by simp)

/-- **With a single separator**, two runs are what stands before and after it. -/
theorem runs_eq_pair (h : 2 ≤ (runs c l).length) (hc : l.count c = 1) :
    ∃ a b, l = a ++ c :: b ∧ c ∉ a ∧ c ∉ b ∧ a ≠ [] ∧ b ≠ [] ∧ runs c l = [a, b] := by
  obtain ⟨a, b, rfl, ha⟩ := List.eq_append_cons_of_mem (mem_of_two_le_runs h)
  have hb : c ∉ b := by
    rw [List.count_append, List.count_cons_self] at hc
    exact List.count_eq_zero.mp (by omega)
  by_cases hane : a = []
  · subst hane
    rw [List.nil_append, runs_cons_sep] at h
    exact absurd (mem_of_two_le_runs h) hb
  · rw [runs_append_cons ha hane] at h ⊢
    by_cases hbne : b = []
    · subst hbne
      exact absurd h (by simp)
    · rw [runs_of_notMem hb hbne]
      exact ⟨a, b, rfl, ha, hb, hane, hbne, rfl⟩

end Gateway.Lib
