import Gateway.Lib.Buf

/-!
# Strings after their lengths

* `prefixed`: strings in a row, each after a byte with its length.
* `prefixed_inj`: what is in a row can be told from the bytes: the strings, and the byte after them,
  when the length bytes are told from that byte by a property.
* `dotted`: the strings joined by dots; `dropLast_dots`: a dot after each, the last one removed.
-/

namespace Gateway.Lib

/-- The strings in a row, each after its length. -/
def prefixed (ls : List (List Byte)) : List Byte :=
  ls.flatMap fun l => BitVec.ofNat 8 l.length :: l

/-- The strings, a dot after each. -/
def dots (ls : List (List Byte)) : List Byte := ls.flatMap (· ++ [0x2E])

/-- The strings joined by dots. -/
def dotted (ls : List (List Byte)) : List Byte := [0x2E].intercalate ls

variable {l : List Byte} {ls ls' : List (List Byte)}

theorem prefixed_cons : prefixed (l :: ls) = BitVec.ofNat 8 l.length :: (l ++ prefixed ls) := rfl

theorem length_prefixed_cons :
    (prefixed (l :: ls)).length = l.length + 1 + (prefixed ls).length := by
  rw [prefixed_cons, List.length_cons, List.length_append]
  omega

theorem toNat_length (h : l.length < 256) : (BitVec.ofNat 8 l.length).toNat = l.length := by
  rw [BitVec.toNat_ofNat, Nat.mod_eq_of_lt h]

/-- The length byte of a string that is not empty. -/
theorem lengthByte_pos (h : l ≠ [] ∧ l.length < 256) :
    0 < (BitVec.ofNat 8 l.length).toNat ∧ l.length < 256 := by
  rw [toNat_length h.2]
  exact ⟨List.length_pos_of_ne_nil h.1, h.2⟩

/-- A string and its length byte are part of the whole. -/
theorem length_lt_prefixed (h : l ∈ ls) : l.length < (prefixed ls).length := by
  obtain ⟨s, t, rfl⟩ := List.append_of_mem h
  unfold prefixed
  rw [List.flatMap_append, List.flatMap_cons]
  simp only [List.length_append, List.length_cons]
  omega

/-- **The strings are determined**, with the first byte after them that is no length byte. -/
theorem prefixed_inj {P : Byte → Prop} {b b' : Byte} {rest rest' : List Byte}
    (h : prefixed ls ++ b :: rest = prefixed ls' ++ b' :: rest')
    (hls : ∀ l ∈ ls, P (BitVec.ofNat 8 l.length) ∧ l.length < 256)
    (hls' : ∀ l ∈ ls', P (BitVec.ofNat 8 l.length) ∧ l.length < 256)
    (hb : ¬ P b) (hb' : ¬ P b') : ls = ls' ∧ b = b' := by
  induction ls generalizing ls' with
  | nil =>
    cases ls' with
    | nil => exact ⟨rfl, (List.cons.inj h).1⟩
    | cons l' ls' =>
      have hl' := (hls' l' List.mem_cons_self).1
      rw [← (List.cons.inj h).1] at hl'
      exact absurd hl' hb
  | cons l ls ih =>
    obtain ⟨hP, hlt⟩ := hls l List.mem_cons_self
    cases ls' with
    | nil =>
      rw [(List.cons.inj h).1] at hP
      exact absurd hP hb'
    | cons l' ls' =>
      have hlt' := (hls' l' List.mem_cons_self).2
      rw [prefixed_cons, prefixed_cons, List.cons_append, List.cons_append, List.append_assoc,
        List.append_assoc] at h
      obtain ⟨hhead, htail⟩ := List.cons.inj h
      have hlen := congrArg BitVec.toNat hhead
      rw [toNat_length hlt, toNat_length hlt'] at hlen
      obtain ⟨rfl, hrest⟩ := List.append_inj htail hlen
      obtain ⟨rfl, rfl⟩ := ih hrest (fun m hm => hls m (List.mem_cons_of_mem l hm))
        (fun m hm => hls' m (List.mem_cons_of_mem l hm))
      exact ⟨rfl, rfl⟩

theorem dots_cons : dots (l :: ls) = l ++ 0x2E :: dots ls := by
  unfold dots
  rw [List.flatMap_cons, List.append_assoc]
  rfl

theorem dots_ne_nil (h : ls ≠ []) : dots ls ≠ [] := by
  obtain ⟨l, ls, rfl⟩ := List.exists_cons_of_ne_nil h
  rw [dots_cons]
  simp

/-- Without the last dot. -/
theorem dropLast_dots (h : ls ≠ []) : (dots ls).dropLast = dotted ls := by
  induction ls with
  | nil => exact absurd rfl h
  | cons l ls ih =>
    by_cases hnil : ls = []
    · subst hnil
      unfold dots dotted
      rw [List.flatMap_singleton, List.dropLast_concat, List.intercalate_singleton]
    · have hne := dots_ne_nil hnil
      rw [dots_cons, List.dropLast_append_of_ne_nil (List.cons_ne_nil _ _),
        List.dropLast_cons_of_ne_nil hne, ih hnil]
      unfold dotted
      rw [List.intercalate_cons_of_ne_nil hnil]
      simp

end Gateway.Lib
