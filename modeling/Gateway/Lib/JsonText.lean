import Gateway.Lib.Buf

/-!
# JSON strings as text

How a JSON printer writes a string between its quotes, and how a reader reads it back: the quote,
the backslash and the control characters are escaped, every other byte stands for itself.

* `readString_escape`: a string is read back, whatever follows its closing quote. The induction is
  over its bytes, each of which is read back on its own (`readString_escapeByte`).
-/

namespace Gateway.Lib

/-- A lower-case hex digit. -/
def hexDigit (n : Nat) : Byte := BitVec.ofNat 8 (if n < 10 then 0x30 + n else 0x57 + n)

def unhex (b : Byte) : Nat := if b.toNat < 0x3A then b.toNat - 0x30 else b.toNat - 0x57

/-- One byte of a string, in a JSON text. -/
def escapeByte (b : Byte) : List Byte :=
  if b = 0x22#8 ∨ b = 0x5C#8 then [0x5C#8, b]
  else if b = 0x08#8 then [0x5C#8, 0x62#8]
  else if b = 0x0C#8 then [0x5C#8, 0x66#8]
  else if b = 0x0A#8 then [0x5C#8, 0x6E#8]
  else if b = 0x0D#8 then [0x5C#8, 0x72#8]
  else if b = 0x09#8 then [0x5C#8, 0x74#8]
  else if b < 0x20#8 then
    [0x5C#8, 0x75#8, 0x30#8, 0x30#8, hexDigit (b.toNat / 16), hexDigit (b.toNat % 16)]
  else [b]

/-- A string, in a JSON text, without its quotes. -/
def escape (s : List Byte) : List Byte := s.flatMap escapeByte

/-- The character an escape of two characters stands for. -/
def unescape (e : Byte) : Byte :=
  if e = 0x62#8 then 0x08#8
  else if e = 0x66#8 then 0x0C#8
  else if e = 0x6E#8 then 0x0A#8
  else if e = 0x72#8 then 0x0D#8
  else if e = 0x74#8 then 0x09#8
  else e

/-- A string up to its closing quote, and what follows it. -/
def readString (text : List Byte) : Option (List Byte × List Byte) :=
  match text with
  | [] => none
  | b :: t =>
    if b = 0x22#8 then some ([], t)
    else if b = 0x5C#8 then
      match t with
      | [] => none
      | e :: t' =>
        if e = 0x75#8 then
          match t' with
          | [] => none
          | [_] => none
          | [_, _] => none
          | [_, _, _] => none
          | _ :: _ :: h :: l :: t'' =>
            (readString t'').map fun p => (BitVec.ofNat 8 (unhex h * 16 + unhex l) :: p.1, p.2)
        else (readString t').map fun p => (unescape e :: p.1, p.2)
    else (readString t).map fun p => (b :: p.1, p.2)
termination_by structural text

theorem readString_quote (t : List Byte) : readString (0x22#8 :: t) = some ([], t) := by
  rw [readString.eq_def]
  exact if_pos rfl

theorem readString_plain {b : Byte} (h : b ≠ 0x22#8) (h' : b ≠ 0x5C#8) (t : List Byte) :
    readString (b :: t) = (readString t).map fun p => (b :: p.1, p.2) := by
  rw [readString.eq_def]
  simp only [if_neg h, if_neg h']

theorem readString_pair {e : Byte} (h : e ≠ 0x75#8) (t : List Byte) :
    readString (0x5C#8 :: e :: t) = (readString t).map fun p => (unescape e :: p.1, p.2) := by
  rw [readString.eq_def]
  simp only [if_neg (show ¬ 0x5C#8 = 0x22#8 by decide), if_true, if_neg h]

theorem readString_hex (a b h l : Byte) (t : List Byte) :
    readString (0x5C#8 :: 0x75#8 :: a :: b :: h :: l :: t) =
      (readString t).map fun p => (BitVec.ofNat 8 (unhex h * 16 + unhex l) :: p.1, p.2) := by
  rw [readString.eq_def]
  simp only [if_neg (show ¬ 0x5C#8 = 0x22#8 by decide), if_true]

theorem unhex_hexDigit (b : Byte) :
    BitVec.ofNat 8 (unhex (hexDigit (b.toNat / 16)) * 16 + unhex (hexDigit (b.toNat % 16))) =
      b := by
  revert b
  decide +kernel

/-- **One byte is read back.** -/
theorem readString_escapeByte (b : Byte) (t : List Byte) :
    readString (escapeByte b ++ t) = (readString t).map fun p => (b :: p.1, p.2) := by
  unfold escapeByte
  by_cases hplain : b = 0x22#8 ∨ b = 0x5C#8
  · rw [if_pos hplain]
    rcases hplain with rfl | rfl
    · exact readString_pair (by decide) t
    · exact readString_pair (by decide) t
  · rw [if_neg hplain]
    rw [not_or] at hplain
    split_ifs with h₁ h₂ h₃ h₄ h₅ h₆
    · subst h₁
      exact readString_pair (by decide) t
    · subst h₂
      exact readString_pair (by decide) t
    · subst h₃
      exact readString_pair (by decide) t
    · subst h₄
      exact readString_pair (by decide) t
    · subst h₅
      exact readString_pair (by decide) t
    · refine (readString_hex _ _ _ _ t).trans ?_
      rw [unhex_hexDigit]
    · exact readString_plain hplain.1 hplain.2 t

/-- **A string is read back.** -/
theorem readString_escape (s rest : List Byte) :
    readString (escape s ++ 0x22#8 :: rest) = some (s, rest) := by
  induction s with
  | nil => exact readString_quote rest
  | cons b s ih =>
    unfold escape at ih ⊢
    rw [List.flatMap_cons, List.append_assoc, readString_escapeByte, ih]
    rfl

end Gateway.Lib
