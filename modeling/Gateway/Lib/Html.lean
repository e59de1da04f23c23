import Mathlib.Data.List.Infix

/-!
# Text and tags of an HTML fragment

What can be said of a fragment without a parser for all of HTML.

* `angles`: its angle brackets, in order. `pieces`: the runs between them; `texts` and `tags` are
  every second one. `pieces_append`, `pieces_text`: the runs of a fragment from those of its parts.
* `CharRefs`: the character references, as far as one fact about them is needed: what a reference
  stands for is shorter than the reference.
* `CharRefs.resolve`: what a run of text shows as, with its line ends normalised and its references
  replaced. **`resolve_eq_iff`**: it shows as it is exactly if it is plain.
-/

namespace Gateway.Lib

/-! ## Angle brackets -/

def isAngle (c : Char) : Bool := c = '<' || c = '>'

/-- The angle brackets, in order. -/
def angles (s : List Char) : List Char := s.filter isAngle

/-- The run before the first angle bracket, and the runs after each. -/
def pieces : List Char → List Char × List (List Char)
  | [] => ([], [])
  | c :: s =>
    if isAngle c then ([], (pieces s).1 :: (pieces s).2) else (c :: (pieces s).1, (pieces s).2)

/-- The first, the third and so on. -/
def everyOther {α : Type} : List α → List α
  | [] => []
  | [a] => [a]
  | a :: _ :: l => a :: everyOther l

/-- What stands between `<` and `>`. -/
def tags (s : List Char) : List (List Char) := everyOther (pieces s).2

/-- The runs of text around the tags. -/
def texts (s : List Char) : List (List Char) := everyOther ((pieces s).1 :: (pieces s).2)

theorem angles_append (s t : List Char) : angles (s ++ t) = angles s ++ angles t :=
  List.filter_append s t

theorem angles_eq_nil_iff {s : List Char} : angles s = [] ↔ '<' ∉ s ∧ '>' ∉ s := by
  unfold angles
  rw [List.filter_eq_nil_iff]
  constructor
  · intro h
    exact ⟨fun hlt => h _ hlt rfl, fun hgt => h _ hgt rfl⟩
  · rintro ⟨hlt, hgt⟩ c hc hangle
    simp only [isAngle, Bool.or_eq_true, decide_eq_true_eq] at hangle
    rcases hangle with rfl | rfl
    · exact hlt hc
    · exact hgt hc

/-- The runs `p :: ps` and the runs `x`, where the last of the first goes on in the second. -/
def joinRuns (p : List Char) : List (List Char) → List Char × List (List Char) →
    List Char × List (List Char)
  | [], x => (p ++ x.1, x.2)
  | q :: qs, x => (p, (joinRuns q qs x).1 :: (joinRuns q qs x).2)

theorem joinRuns_cons (c : Char) (p : List Char) (ps : List (List Char))
    (x : List Char × List (List Char)) :
    joinRuns (c :: p) ps x = (c :: (joinRuns p ps x).1, (joinRuns p ps x).2) := by
  cases ps <;> rfl

theorem pieces_append (s t : List Char) :
    pieces (s ++ t) = joinRuns (pieces s).1 (pieces s).2 (pieces t) := by
  induction s with
  | nil => rfl
  | cons c s ih =>
    rw [List.cons_append, pieces, pieces, ih]
    split
    · rfl
    · rw [joinRuns_cons]

/-- Text is one run. -/
theorem pieces_text {s : List Char} (h : angles s = []) : pieces s = (s, []) := by
  induction s with
  | nil => rfl
  | cons c s ih =>
    unfold angles at h
    have hc : ¬ isAngle c := fun hangle => by simp [hangle] at h
    rw [List.filter_cons_of_neg hc] at h
    rw [pieces, if_neg hc, ih h]

/-! ## Character references -/

/-- The character references: after `&`, what the reference stands for and how many characters it
takes. -/
structure CharRefs where
  ref : List Char → Option (List Char × Nat)
  shorter : ∀ t shown k, ref t = some (shown, k) → shown.length ≤ k ∧ k ≤ t.length

namespace CharRefs

/-- What the text after `skip` characters shows as. -/
def resolveFrom (refs : CharRefs) : Nat → List Char → List Char
  | _, [] => []
  | skip + 1, _ :: t => resolveFrom refs skip t
  | 0, c :: t =>
    if c = '&' then
      match refs.ref t with
      | some (shown, k) => shown ++ resolveFrom refs k t
      | none => '&' :: resolveFrom refs 0 t
    else if c = '\r' then
      if t.head? = some '\n' then resolveFrom refs 0 t else '\n' :: resolveFrom refs 0 t
    else c :: resolveFrom refs 0 t

def resolve (refs : CharRefs) (s : List Char) : List Char := refs.resolveFrom 0 s

/-- No carriage return, and no character reference. -/
def Plain (refs : CharRefs) (s : List Char) : Prop :=
  '\r' ∉ s ∧ ∀ t, '&' :: t <:+ s → refs.ref t = none

variable {refs : CharRefs} {c : Char} {s : List Char}

theorem plain_cons : refs.Plain (c :: s) ↔
    c ≠ '\r' ∧ (c = '&' → refs.ref s = none) ∧ refs.Plain s := by
  unfold Plain
  rw [List.mem_cons, not_or]
  constructor
  · rintro ⟨⟨hc, hs⟩, h⟩
    refine ⟨fun hr => hc hr.symm, fun hamp => h s (by rw [hamp]), hs,
      fun t ht => h t (ht.trans (List.suffix_cons c s))⟩
  · rintro ⟨hc, hamp, hs, h⟩
    refine ⟨⟨fun hr => hc hr.symm, hs⟩, fun t ht => ?_⟩
    rcases List.suffix_cons_iff.mp ht with heq | ht
    · obtain ⟨rfl, rfl⟩ := List.cons.inj heq
      exact hamp rfl
    · exact h t ht

/-- Nothing gets longer. -/
theorem length_resolveFrom (refs : CharRefs) (skip : Nat) (s : List Char) :
    (refs.resolveFrom skip s).length ≤ s.length - skip := by
  induction s generalizing skip with
  | nil => cases skip <;> exact Nat.zero_le _
  | cons c s ih =>
    cases skip with
    | succ skip =>
      have := ih skip
      rw [resolveFrom, List.length_cons]
      omega
    | zero =>
      have h0 := ih 0
      rw [resolveFrom, List.length_cons]
      split
      · split
        · rename_i shown k href
          have hk := ih k
          have := refs.shorter _ _ _ href
          rw [List.length_append]
          omega
        · rw [List.length_cons]
          omega
      · split
        · split
          · omega
          · rw [List.length_cons]
            omega
        · rw [List.length_cons]
          omega

/-- **A run shows as it is exactly if it is plain.** -/
theorem resolve_eq_iff : refs.resolve s = s ↔ refs.Plain s := by
  unfold resolve
  induction s with
  | nil => exact ⟨fun _ => ⟨by simp, fun t ht => absurd ht (by simp)⟩, fun _ => rfl⟩
  | cons c s ih =>
    rw [plain_cons, resolveFrom]
    by_cases hamp : c = '&'
    · subst hamp
      rw [if_pos rfl]
      cases href : refs.ref s with
      | some r =>
        obtain ⟨shown, k⟩ := r
        -- a reference makes the text shorter
        have hk := length_resolveFrom refs k s
        have hshort := refs.shorter _ _ _ href
        constructor
        · intro h
          have hlen := congrArg List.length h
          simp only [List.length_append, List.length_cons] at hlen
          omega
        · rintro ⟨-, h, -⟩
          exact absurd (h rfl) (by simp)
      | none =>
        simp only [List.cons.injEq, true_and, ih]
        exact ⟨fun h => ⟨by decide, fun _ => trivial, h⟩, fun h => h.2.2⟩
    · rw [if_neg hamp]
      by_cases hcr : c = '\r'
      · subst hcr
        rw [if_pos rfl]
        refine ⟨fun h => ?_, fun h => absurd rfl h.1⟩
        split at h
        · have hlen := congrArg List.length h
          have h0 := length_resolveFrom refs 0 s
          rw [List.length_cons] at hlen
          omega
        · exact absurd (List.cons.inj h).1 (by decide)
      · rw [if_neg hcr, List.cons.injEq, ih]
        exact ⟨fun h => ⟨hcr, fun h' => absurd h' hamp, h.2⟩, fun h => ⟨rfl, h.2.2⟩⟩

end CharRefs

end Gateway.Lib
