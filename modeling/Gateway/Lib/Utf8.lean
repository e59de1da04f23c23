import Mathlib.Algebra.Group.Nat.Defs
import Gateway.Lib.CStr

/-!
# The UTF-8 decoder of a browser

The decoder of web pages: it never fails, and a byte sequence that is no UTF-8 becomes replacement
characters. A byte that cannot continue a character is looked at again as the first byte of the next
one.

* `Utf8Pending`: a character under way. Its fields say that it will not be an ASCII character.
* `utf8Decode`: the text of any bytes.
* **`ascii_utf8Decode`**: the ASCII characters of the text are the ASCII bytes, in order.
-/

namespace Gateway.Lib

/-- A character under way: the bits so far, the bytes after the next one, and the boundaries of the
next one. -/
structure Utf8Pending where
  bits : Nat
  more : Nat
  low : Nat
  high : Nat
  low_le : 0x80 ≤ low
  value_le : 0x80 ≤ (bits * 64 + (low - 0x80)) * 64 ^ more

/-- The replacement character. -/
def replacement : Char := '\uFFFD'

/-- The character of a code point. The boundaries only let scalar values through. -/
def codePoint (v : Nat) : Char := if v.isValidChar then Char.ofNat v else replacement

/-- A byte where a character begins. -/
def utf8Start (b : Nat) : List Char × Option Utf8Pending :=
  if b ≤ 0x7F then ([Char.ofNat b], none)
  else if h : 0xC2 ≤ b ∧ b ≤ 0xDF then
    ([], some ⟨b - 0xC0, 0, 0x80, 0xBF, by decide, by omega⟩)
  else if b = 0xE0 then ([], some ⟨0x0, 1, 0xA0, 0xBF, by decide, by decide⟩)
  else if b = 0xED then ([], some ⟨0xD, 1, 0x80, 0x9F, by decide, by decide⟩)
  else if h : 0xE1 ≤ b ∧ b ≤ 0xEF then
    ([], some ⟨b - 0xE0, 1, 0x80, 0xBF, by decide, by omega⟩)
  else if b = 0xF0 then ([], some ⟨0, 2, 0x90, 0xBF, by decide, by decide⟩)
  else if b = 0xF4 then ([], some ⟨4, 2, 0x80, 0x8F, by decide, by decide⟩)
  else if h : 0xF1 ≤ b ∧ b ≤ 0xF3 then
    ([], some ⟨b - 0xF0, 2, 0x80, 0xBF, by decide, by omega⟩)
  else ([replacement], none)

namespace Utf8Pending

variable (p : Utf8Pending) {b : Nat}

/-- The value after one more byte. -/
theorem value_next (h : p.low ≤ b) : 0x80 ≤ (p.bits * 64 + (b - 0x80)) * 64 ^ p.more := by
  refine Nat.le_trans p.value_le (Nat.mul_le_mul_right _ ?_)
  omega

/-- A continuation byte that is not the last one. -/
def push (b : Nat) (h : p.low ≤ b) (hm : p.more ≠ 0) : Utf8Pending where
  bits := p.bits * 64 + (b - 0x80)
  more := p.more - 1
  low := 0x80
  high := 0xBF
  low_le := Nat.le_refl _
  value_le := by
    have hv := p.value_next h
    obtain ⟨m, hm'⟩ := Nat.exists_eq_succ_of_ne_zero hm
    rw [hm', Nat.pow_succ, Nat.mul_comm (64 ^ m), ← Nat.mul_assoc] at hv
    rwa [hm', Nat.succ_sub_one, Nat.sub_self, Nat.add_zero]

end Utf8Pending

/-- A byte where a character goes on. -/
def utf8Next (p : Utf8Pending) (b : Nat) : List Char × Option Utf8Pending :=
  if h : p.low ≤ b ∧ b ≤ p.high then
    if hm : p.more = 0 then ([codePoint (p.bits * 64 + (b - 0x80))], none)
    else ([], some (p.push b h.1 hm))
  else (replacement :: (utf8Start b).1, (utf8Start b).2)

def utf8Step (s : Option Utf8Pending) (b : Nat) : List Char × Option Utf8Pending :=
  match s with
  | none => utf8Start b
  | some p => utf8Next p b

/-- From a state on, to the end of the bytes. -/
def utf8Run : Option Utf8Pending → List Byte → List Char
  | none, [] => []
  | some _, [] => [replacement]
  | s, b :: bs => (utf8Step s b.toNat).1 ++ utf8Run (utf8Step s b.toNat).2 bs

/-- The text of the bytes. -/
def utf8Decode (bs : List Byte) : List Char := utf8Run none bs

example : utf8Decode (utf8 "开<b>") = "开<b>".toList := by decide +kernel

example : utf8Decode [0xE5, 0xBC, 0x3C] = [replacement, '<'] := by decide +kernel

/-! ## ASCII -/

def isAscii (c : Char) : Bool := c.toNat < 0x80

theorem toNat_ofNat_of_valid {v : Nat} (h : v.isValidChar) : (Char.ofNat v).toNat = v := by
  unfold Char.ofNat
  rw [dif_pos h]
  rfl

theorem not_ascii_codePoint {v : Nat} (h : 0x80 ≤ v) : isAscii (codePoint v) = false := by
  unfold codePoint
  split
  · rename_i hv
    simp only [isAscii, toNat_ofNat_of_valid hv, decide_eq_false_iff_not]
    omega
  · decide

/-- The ASCII character a byte is. -/
def asciiOf (b : Byte) : List Char := if b.toNat ≤ 0x7F then [Char.ofNat b.toNat] else []

theorem ascii_utf8Start (b : Byte) : (utf8Start b.toNat).1.filter isAscii = asciiOf b := by
  have hreplacement : isAscii replacement = false := by decide
  unfold utf8Start asciiOf
  by_cases hb : b.toNat ≤ 0x7F
  · have hascii : isAscii (Char.ofNat b.toNat) = true := by
      have hval := toNat_ofNat_of_valid (v := b.toNat) (Or.inl (by omega))
      simp only [isAscii, hval, decide_eq_true_eq]
      omega
    rw [if_pos hb, if_pos hb, List.filter_cons_of_pos hascii, List.filter_nil]
  · rw [if_neg hb, if_neg hb]
    split_ifs <;> simp [hreplacement]

/-- **One byte**: an ASCII character comes out exactly for an ASCII byte. -/
theorem ascii_utf8Step (s : Option Utf8Pending) (b : Byte) :
    (utf8Step s b.toNat).1.filter isAscii = asciiOf b := by
  cases s with
  | none => exact ascii_utf8Start b
  | some p =>
    show (utf8Next p b.toNat).1.filter isAscii = asciiOf b
    unfold utf8Next
    by_cases h : p.low ≤ b.toNat ∧ b.toNat ≤ p.high
    · have hb : ¬ b.toNat ≤ 0x7F := by
        have := p.low_le
        omega
      rw [dif_pos h, asciiOf, if_neg hb]
      by_cases hm : p.more = 0
      · have hv := p.value_next h.1
        rw [hm, Nat.pow_zero, Nat.mul_one] at hv
        rw [dif_pos hm, List.filter_cons_of_neg (by simp [not_ascii_codePoint hv]),
          List.filter_nil]
      · rw [dif_neg hm, List.filter_nil]
    · rw [dif_neg h, List.filter_cons_of_neg (by decide), ascii_utf8Start]

theorem ascii_utf8Run (s : Option Utf8Pending) (bs : List Byte) :
    (utf8Run s bs).filter isAscii = bs.flatMap asciiOf := by
  induction bs generalizing s with
  | nil => cases s <;> rfl
  | cons b bs ih =>
    have hrun : utf8Run s (b :: bs) =
        (utf8Step s b.toNat).1 ++ utf8Run (utf8Step s b.toNat).2 bs := by
      cases s <;> rfl
    rw [hrun, List.filter_append, ascii_utf8Step, ih, List.flatMap_cons]

/-- **The ASCII characters of a text are the ASCII bytes.** -/
theorem ascii_utf8Decode (bs : List Byte) :
    (utf8Decode bs).filter isAscii = bs.flatMap asciiOf := ascii_utf8Run none bs

theorem mem_utf8Decode {c : Char} (hc : isAscii c) (bs : List Byte) :
    c ∈ utf8Decode bs ↔ BitVec.ofNat 8 c.toNat ∈ bs := by
  have hlt : c.toNat < 0x80 := by simpa [isAscii] using hc
  have hmem : c ∈ (utf8Decode bs).filter isAscii ↔ c ∈ utf8Decode bs := by
    rw [List.mem_filter]
    exact and_iff_left hc
  rw [← hmem, ascii_utf8Decode, List.mem_flatMap]
  constructor
  · rintro ⟨b, hb, hcb⟩
    unfold asciiOf at hcb
    split at hcb
    · rename_i hle
      rw [List.mem_singleton] at hcb
      rw [hcb, toNat_ofNat_of_valid (Or.inl (by omega)), BitVec.ofNat_toNat, BitVec.setWidth_eq]
      exact hb
    · exact absurd hcb (by simp)
  · intro hb
    refine ⟨_, hb, ?_⟩
    unfold asciiOf
    rw [BitVec.toNat_ofNat, Nat.mod_eq_of_lt (by omega), if_pos (by omega), Char.ofNat_toNat]
    exact List.mem_singleton_self c

end Gateway.Lib
