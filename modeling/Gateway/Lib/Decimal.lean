import Mathlib.Data.List.Induction
import Mathlib.Data.List.TakeWhile
import Mathlib.Data.Nat.Digits.Lemmas
import Gateway.Lib.CStr

/-!
# Decimal numerals and `atoi`

* `Numeral`: an optional sign and one or more digits, with the value they denote.
* `atoiValue`: what `atoi` reads: white space, an optional sign, the digits up to the first
  character that is none. `atoiValue_numeral`: on a numeral between white space and whatever begins
  with no digit, the value it denotes. `trim`: white space at both ends removed.
* `atoi`: the `int` returned. A value outside the range of `int` is undefined behaviour in the C
  standard, so what comes back then is a parameter.
* **`eq_zero_of_beginning`**: a shorter beginning of a numeral is read as another number, unless
  both are zero.
* `intDecimal`: an integer in decimal.
-/

namespace Gateway.Lib

/-- `isspace` in the C locale. -/
def isSpace (b : Byte) : Bool := b = 0x20#8 || (0x09#8 ≤ b && b ≤ 0x0D#8)

/-- `isdigit`. -/
def isDigit (b : Byte) : Bool := 0x30#8 ≤ b && b ≤ 0x39#8

/-- The value of a digit string. -/
def digitsValue (ds : List Byte) : Nat := ds.foldl (fun v b => 10 * v + (b.toNat - 0x30)) 0

/-- An optional sign and digits that denote `n`. -/
inductive Numeral : List Byte → Int → Prop where
  | unsigned {ds : List Byte} : ds ≠ [] → (∀ b ∈ ds, isDigit b) → Numeral ds (digitsValue ds)
  | plus {ds : List Byte} :
    ds ≠ [] → (∀ b ∈ ds, isDigit b) → Numeral (0x2B#8 :: ds) (digitsValue ds)
  | minus {ds : List Byte} :
    ds ≠ [] → (∀ b ∈ ds, isDigit b) → Numeral (0x2D#8 :: ds) (-digitsValue ds)

/-- The number `atoi` reads; 0 without digits. -/
def atoiValue (s : List Byte) : Int :=
  match s.dropWhile isSpace with
  | [] => 0
  | b :: t =>
    if b = 0x2D#8 then -digitsValue (t.takeWhile isDigit)
    else if b = 0x2B#8 then digitsValue (t.takeWhile isDigit)
    else digitsValue ((b :: t).takeWhile isDigit)

/-- The range of `int`. -/
def InInt (n : Int) : Prop := -2 ^ 31 ≤ n ∧ n < 2 ^ 31

instance (n : Int) : Decidable (InInt n) := inferInstanceAs (Decidable (_ ∧ _))

/-- `atoi`; `overflow` is what it returns for a number that is not in the range of `int`. -/
def atoi (overflow : List Byte → BitVec 32) (s : List Byte) : BitVec 32 :=
  if InInt (atoiValue s) then BitVec.ofInt 32 (atoiValue s) else overflow s

theorem inInt_toInt (v : BitVec 32) : InInt v.toInt := ⟨v.le_toInt, v.toInt_lt⟩

theorem toInt_atoi (overflow : List Byte → BitVec 32) {s : List Byte}
    (h : InInt (atoiValue s)) : (atoi overflow s).toInt = atoiValue s := by
  unfold atoi
  rw [if_pos h]
  exact BitVec.toInt_ofInt_eq_self (by decide) h.1 h.2

theorem atoi_eq {overflow : List Byte → BitVec 32} {s : List Byte} {v : BitVec 32}
    (h : atoiValue s = v.toInt) : atoi overflow s = v := by
  apply BitVec.eq_of_toInt_eq
  rw [toInt_atoi overflow (h ▸ inInt_toInt v), h]

/-! ## Reading a numeral -/

theorem digitsValue_concat (ds : List Byte) (b : Byte) :
    digitsValue (ds ++ [b]) = 10 * digitsValue ds + (b.toNat - 0x30) := by
  unfold digitsValue
  rw [List.foldl_append]
  rfl

/-- The value of a digit string that goes on. -/
theorem digitsValue_append (ds es : List Byte) :
    digitsValue (ds ++ es) = digitsValue ds * 10 ^ es.length + digitsValue es := by
  induction es using List.reverseRecOn with
  | nil => simp [digitsValue]
  | append_singleton es b ih =>
    rw [← List.append_assoc, digitsValue_concat, digitsValue_concat, ih, List.length_append,
      List.length_singleton, Nat.pow_succ]
    ring

/-- A numeral has digits and signs only. -/
theorem not_numeral_of_mem {t : List Byte} {b : Byte} {n : Int} (hb : b ∈ t)
    (hdigit : isDigit b = false) (hsign : b ≠ 0x2B#8 ∧ b ≠ 0x2D#8) : ¬ Numeral t n := by
  have hno {ds : List Byte} (h : b ∈ ds) (hd : ∀ b ∈ ds, isDigit b) : False := by
    rw [hd b h] at hdigit
    exact absurd hdigit (by simp)
  rintro (⟨-, hd⟩ | ⟨-, hd⟩ | ⟨-, hd⟩)
  · exact hno hb hd
  · exact hno ((List.mem_cons.mp hb).resolve_left hsign.1) hd
  · exact hno ((List.mem_cons.mp hb).resolve_left hsign.2) hd

theorem isSpace_of_isDigit {b : Byte} (h : isDigit b) : isSpace b = false := by
  revert b
  decide +kernel

/-- The digits are read up to the first character that is none. -/
theorem takeWhile_digits {ds rest : List Byte} (hd : ∀ b ∈ ds, isDigit b)
    (hrest : ∀ b ∈ rest.head?, isDigit b = false) : (ds ++ rest).takeWhile isDigit = ds := by
  rw [List.takeWhile_append_of_pos hd]
  cases rest with
  | nil => simp
  | cons b rest =>
    rw [List.takeWhile_cons_of_neg (by simp [hrest b (by simp)]), List.append_nil]

theorem dropWhile_spaces {ws s : List Byte} (hw : ∀ b ∈ ws, isSpace b)
    (hs : ∀ b ∈ s.head?, isSpace b = false) : (ws ++ s).dropWhile isSpace = s := by
  rw [List.dropWhile_append_of_pos hw]
  cases s with
  | nil => rfl
  | cons b s => exact List.dropWhile_cons_of_neg (by simp [hs b (by simp)])

theorem digit_ne_sign {b : Byte} (h : isDigit b) : b ≠ 0x2D#8 ∧ b ≠ 0x2B#8 := by
  revert b
  decide +kernel

/-- **A numeral is read as the value it denotes**, between white space and what begins with no
digit. -/
theorem atoiValue_numeral {t : List Byte} {n : Int} (h : Numeral t n) {w rest : List Byte}
    (hw : ∀ b ∈ w, isSpace b) (hrest : ∀ b ∈ rest.head?, isDigit b = false) :
    atoiValue (w ++ (t ++ rest)) = n := by
  unfold atoiValue
  cases h with
  | @unsigned ds hne hd =>
    obtain ⟨b, ds, rfl⟩ := List.exists_cons_of_ne_nil hne
    have hb := hd b List.mem_cons_self
    rw [dropWhile_spaces hw (by simpa using isSpace_of_isDigit hb)]
    simp only [List.cons_append, if_neg (digit_ne_sign hb).1, if_neg (digit_ne_sign hb).2]
    rw [← List.cons_append, takeWhile_digits hd hrest]
  | @plus ds hne hd =>
    rw [dropWhile_spaces hw (by simp [isSpace])]
    simp only [List.cons_append, if_neg (show ¬ 0x2B#8 = 0x2D#8 by decide), if_true]
    rw [takeWhile_digits hd hrest]
  | @minus ds hne hd =>
    rw [dropWhile_spaces hw (by simp [isSpace])]
    simp only [List.cons_append, if_true]
    rw [takeWhile_digits hd hrest]

/-- A numeral and what begins with no digit. -/
theorem atoiValue_append {t rest : List Byte} {n : Int} (h : Numeral t n)
    (hrest : ∀ b ∈ rest.head?, isDigit b = false) : atoiValue (t ++ rest) = n :=
  atoiValue_numeral (w := []) h (by simp) hrest

theorem atoiValue_of_numeral {t : List Byte} {n : Int} (h : Numeral t n) : atoiValue t = n := by
  have hval := atoiValue_append h (show ∀ b ∈ ([] : List Byte).head?, isDigit b = false by simp)
  rwa [List.append_nil] at hval

theorem Numeral.ne_nil {t : List Byte} {n : Int} (h : Numeral t n) : t ≠ [] := by
  cases h with
  | unsigned hne => exact hne
  | plus => exact List.cons_ne_nil _ _
  | minus => exact List.cons_ne_nil _ _

/-- Digits with each sign, also without any digit. -/
theorem atoiValue_digits {ds : List Byte} (hd : ∀ b ∈ ds, isDigit b) :
    atoiValue ds = digitsValue ds ∧ atoiValue (0x2B#8 :: ds) = digitsValue ds ∧
      atoiValue (0x2D#8 :: ds) = -digitsValue ds := by
  by_cases hne : ds = []
  · subst hne
    decide
  · exact ⟨atoiValue_of_numeral (.unsigned hne hd), atoiValue_of_numeral (.plus hne hd),
      atoiValue_of_numeral (.minus hne hd)⟩

theorem digitsValue_le_append (ds es : List Byte) : digitsValue ds ≤ digitsValue (ds ++ es) := by
  rw [digitsValue_append]
  have hpos : 1 ≤ 10 ^ es.length := Nat.one_le_pow _ _ (by decide)
  calc digitsValue ds = digitsValue ds * 1 := (Nat.mul_one _).symm
    _ ≤ digitsValue ds * 10 ^ es.length := Nat.mul_le_mul_left _ hpos
    _ ≤ digitsValue ds * 10 ^ es.length + digitsValue es := Nat.le_add_right _ _

/-- More digits make another number, unless all are zero. -/
theorem digitsValue_append_eq {ds es : List Byte} (hes : es ≠ [])
    (h : digitsValue (ds ++ es) = digitsValue ds) : digitsValue ds = 0 := by
  rw [digitsValue_append] at h
  have hlen := List.length_pos_of_ne_nil hes
  have hten : 10 ≤ 10 ^ es.length := Nat.le_self_pow (by omega) 10
  have hmul : digitsValue ds * 10 ≤ digitsValue ds * 10 ^ es.length := Nat.mul_le_mul_left _ hten
  omega

/-- A beginning of a numeral is read by the same digits. -/
theorem atoiValue_beginning {p q : List Byte} {n : Int} (h : Numeral (p ++ q) n) (hp : p ≠ []) :
    ∃ ds, atoiValue p = digitsValue ds ∧ n = digitsValue (ds ++ q) ∨
      atoiValue p = -digitsValue ds ∧ n = -digitsValue (ds ++ q) := by
  obtain ⟨b, p, rfl⟩ := List.exists_cons_of_ne_nil hp
  rw [List.cons_append] at h
  generalize ht : b :: (p ++ q) = t at h
  cases h with
  | unsigned hne hd =>
    subst ht
    rw [← List.cons_append] at hd ⊢
    exact ⟨b :: p, Or.inl
      ⟨(atoiValue_digits fun b' hb => hd b' (List.mem_append_left q hb)).1, rfl⟩⟩
  | plus hne hd =>
    obtain ⟨rfl, rfl⟩ := List.cons.inj ht
    exact ⟨p, Or.inl
      ⟨(atoiValue_digits fun b hb => hd b (List.mem_append_left q hb)).2.1, rfl⟩⟩
  | minus hne hd =>
    obtain ⟨rfl, rfl⟩ := List.cons.inj ht
    exact ⟨p, Or.inr
      ⟨(atoiValue_digits fun b hb => hd b (List.mem_append_left q hb)).2.2, rfl⟩⟩

/-- It is in the range of `int` if the whole is. -/
theorem inInt_beginning {p q : List Byte} {n : Int} (h : Numeral (p ++ q) n) (hp : p ≠ [])
    (hn : InInt n) : InInt (atoiValue p) := by
  obtain ⟨ds, hds⟩ := atoiValue_beginning h hp
  have hle := digitsValue_le_append ds q
  unfold InInt at hn ⊢
  omega

/-- **A beginning of a numeral is read as another number**, unless both are zero. -/
theorem eq_zero_of_beginning {p q : List Byte} {n : Int} (h : Numeral (p ++ q) n) (hp : p ≠ [])
    (hq : q ≠ []) (hread : atoiValue p = n) : n = 0 := by
  obtain ⟨ds, hds⟩ := atoiValue_beginning h hp
  have hzero := digitsValue_append_eq hq (show digitsValue (ds ++ q) = digitsValue ds by omega)
  omega

/-- White space at both ends removed. -/
def trim (s : List Byte) : List Byte :=
  ((s.dropWhile isSpace).reverse.dropWhile isSpace).reverse

theorem trim_spec (s : List Byte) : ∃ ws ws', s = ws ++ (trim s ++ ws') ∧
    (∀ b ∈ ws, isSpace b) ∧ ∀ b ∈ ws', isSpace b := by
  have hs := List.takeWhile_append_dropWhile (p := isSpace) (l := s)
  have ht := List.takeWhile_append_dropWhile (p := isSpace) (l := (s.dropWhile isSpace).reverse)
  refine ⟨s.takeWhile isSpace, ((s.dropWhile isSpace).reverse.takeWhile isSpace).reverse, ?_,
    fun b hb => List.mem_takeWhile_imp hb,
    fun b hb => List.mem_takeWhile_imp (List.mem_reverse.mp hb)⟩
  unfold trim
  rw [← List.reverse_append, ht, List.reverse_reverse, hs]

/-- A numeral with white space around it. -/
theorem atoiValue_trim {s : List Byte} {n : Int} (h : Numeral (trim s) n) : atoiValue s = n := by
  obtain ⟨ws, ws', hs, hw, hw'⟩ := trim_spec s
  have hval := atoiValue_numeral h hw fun b (hb : b ∈ ws'.head?) => by
    have hspace := hw' b (List.mem_of_mem_head? hb)
    by_contra hdigit
    rw [Bool.not_eq_false] at hdigit
    rw [isSpace_of_isDigit hdigit] at hspace
    exact absurd hspace (by simp)
  rwa [← hs] at hval

/-! ## Writing a number -/

def digitByte (d : Nat) : Byte := BitVec.ofNat 8 (0x30 + d)

/-- A natural number in decimal. -/
def natDecimal (n : Nat) : List Byte :=
  if n = 0 then [0x30#8] else (Nat.digits 10 n).reverse.map digitByte

/-- An integer in decimal. -/
def intDecimal (v : Int) : List Byte :=
  if v < 0 then 0x2D#8 :: natDecimal v.natAbs else natDecimal v.natAbs

example : intDecimal (-305) = utf8 "-305" := by decide +kernel

theorem toNat_digitByte {d : Nat} (h : d < 10) : (digitByte d).toNat = 0x30 + d := by
  unfold digitByte
  rw [BitVec.toNat_ofNat, Nat.mod_eq_of_lt (by omega)]

theorem isDigit_digitByte {d : Nat} (h : d < 10) : isDigit (digitByte d) := by
  have hd := toNat_digitByte h
  simp only [isDigit, Bool.and_eq_true, decide_eq_true_eq, BitVec.le_def, hd]
  exact ⟨Nat.le_add_right _ _, by simp; omega⟩

theorem digitsValue_digits {l : List Nat} (h : ∀ d ∈ l, d < 10) :
    digitsValue (l.reverse.map digitByte) = Nat.ofDigits 10 l := by
  induction l with
  | nil => rfl
  | cons d l ih =>
    rw [List.reverse_cons, List.map_append, List.map_singleton, digitsValue_concat,
      ih fun e he => h e (List.mem_cons_of_mem _ he), Nat.ofDigits_cons,
      toNat_digitByte (h d List.mem_cons_self)]
    omega

theorem natDecimal_ne_nil (n : Nat) : natDecimal n ≠ [] := by
  unfold natDecimal
  split
  · simp
  · rename_i h
    simpa using Nat.digits_ne_nil_iff_ne_zero.mpr h

theorem isDigit_natDecimal {n : Nat} {b : Byte} (hb : b ∈ natDecimal n) : isDigit b := by
  unfold natDecimal at hb
  split at hb
  · rw [List.mem_singleton.mp hb]
    rfl
  · obtain ⟨d, hd, rfl⟩ := List.mem_map.mp hb
    exact isDigit_digitByte (Nat.digits_lt_base (by decide) (List.mem_reverse.mp hd))

/-- **A number written in decimal has its value.** -/
theorem digitsValue_natDecimal (n : Nat) : digitsValue (natDecimal n) = n := by
  unfold natDecimal
  split
  · rename_i h
    rw [h]
    rfl
  · rw [digitsValue_digits fun d hd => Nat.digits_lt_base (by decide) hd, Nat.ofDigits_digits]

theorem numeral_intDecimal (v : Int) : Numeral (intDecimal v) v := by
  unfold intDecimal
  split
  · rename_i h
    have hm := Numeral.minus (natDecimal_ne_nil v.natAbs) fun _ hb => isDigit_natDecimal hb
    rw [digitsValue_natDecimal] at hm
    rwa [show -(v.natAbs : Int) = v by omega] at hm
  · rename_i h
    have hu := Numeral.unsigned (natDecimal_ne_nil v.natAbs) fun _ hb => isDigit_natDecimal hb
    rw [digitsValue_natDecimal] at hu
    rwa [show (v.natAbs : Int) = v by omega] at hu

end Gateway.Lib
