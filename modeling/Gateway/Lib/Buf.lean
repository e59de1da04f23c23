import Mathlib.Data.List.Basic

/-!
# Byte arrays with checked access

A C array of `n` bytes is a `Buf n`: a byte list that carries its length. Every access goes
through `load8`, `load16`, `load` or `store`, which end in `Fault.outOfBounds` when an index
falls outside the array. A program over buffers that never ends in a fault has therefore stayed
inside its arrays at every access.

Multi-byte values are kept as the two bytes of a little-endian CPU (`le16`): `ntohs` and `htons`
both swap them.

* `byteAt_writeAt`: what a block write leaves at an index.
* `writeAt_append`: a block write over the middle part of a concatenation.
* `load_ok`, `store_ok` and their variants: an access inside the array does not fault.
-/

namespace Gateway.Lib

abbrev Byte := BitVec 8

/-! ## 16-bit values -/

/-- The 16-bit value stored as the bytes `lo`, `hi` on a little-endian CPU. -/
def le16 (lo hi : Byte) : BitVec 16 := hi ++ lo

def loByte (x : BitVec 16) : Byte := x.extractLsb' 0 8

def hiByte (x : BitVec 16) : Byte := x.extractLsb' 8 8

/-- `ntohs` on a little-endian CPU. -/
def ntohs (x : BitVec 16) : BitVec 16 := le16 (hiByte x) (loByte x)

/-- `htons` on a little-endian CPU. -/
def htons (x : BitVec 16) : BitVec 16 := le16 (hiByte x) (loByte x)

@[simp] theorem loByte_le16 (lo hi : Byte) : loByte (le16 lo hi) = lo :=
  BitVec.extractLsb'_append_eq_right (a := hi) (b := lo)

@[simp] theorem hiByte_le16 (lo hi : Byte) : hiByte (le16 lo hi) = hi :=
  BitVec.extractLsb'_append_eq_left (a := hi) (b := lo)

@[simp] theorem le16_eta (x : BitVec 16) : le16 (loByte x) (hiByte x) = x :=
  @BitVec.extractLsb'_append_extractLsb' 8 8 x

@[simp] theorem ntohs_le16 (lo hi : Byte) : ntohs (le16 lo hi) = le16 hi lo := by
  unfold ntohs
  rw [loByte_le16, hiByte_le16]

@[simp] theorem htons_le16 (lo hi : Byte) : htons (le16 lo hi) = le16 hi lo := ntohs_le16 lo hi

theorem le16_and (a b c d : Byte) : le16 a b &&& le16 c d = le16 (a &&& c) (b &&& d) :=
  BitVec.and_append

theorem le16_or (a b c d : Byte) : le16 a b ||| le16 c d = le16 (a ||| c) (b ||| d) :=
  BitVec.or_append

theorem le16_inj {a b c d : Byte} : le16 a b = le16 c d ↔ a = c ∧ b = d := by
  constructor
  · intro h
    have hlo := congrArg loByte h
    have hhi := congrArg hiByte h
    rw [loByte_le16, loByte_le16] at hlo
    rw [hiByte_le16, hiByte_le16] at hhi
    exact ⟨hlo, hhi⟩
  · rintro ⟨rfl, rfl⟩
    rfl

/-! ## Reading and writing a byte list -/

/-- The byte at index `i`, zero past the end. -/
def byteAt (l : List Byte) (i : Nat) : Byte := l.getD i 0

/-- `len` bytes from `off` on. -/
def slice (l : List Byte) (off len : Nat) : List Byte := (l.drop off).take len

/-- Overwrite the bytes from `off` on by `bs`. -/
def writeAt (l : List Byte) (off : Nat) (bs : List Byte) : List Byte :=
  l.take off ++ bs ++ l.drop (off + bs.length)

theorem length_writeAt {l : List Byte} {off : Nat} {bs : List Byte}
    (h : off + bs.length ≤ l.length) : (writeAt l off bs).length = l.length := by
  unfold writeAt
  rw [List.length_append, List.length_append, List.length_take, List.length_drop]
  omega

theorem byteAt_append (l m : List Byte) (i : Nat) :
    byteAt (l ++ m) i = if i < l.length then byteAt l i else byteAt m (i - l.length) := by
  unfold byteAt
  rw [List.getD_eq_getElem?_getD, List.getD_eq_getElem?_getD, List.getD_eq_getElem?_getD,
    List.getElem?_append]
  split <;> rfl

theorem byteAt_take {l : List Byte} {i n : Nat} (h : i < n) : byteAt (l.take n) i = byteAt l i := by
  unfold byteAt
  rw [List.getD_eq_getElem?_getD, List.getD_eq_getElem?_getD, List.getElem?_take_of_lt h]

theorem byteAt_drop (l : List Byte) (n i : Nat) : byteAt (l.drop n) i = byteAt l (n + i) := by
  unfold byteAt
  rw [List.getD_eq_getElem?_getD, List.getD_eq_getElem?_getD, List.getElem?_drop]

theorem byteAt_of_drop {l t : List Byte} {off : Nat} {b : Byte} (h : l.drop off = b :: t) :
    byteAt l off = b := by
  have := byteAt_drop l off 0
  rw [h] at this
  exact this.symm

theorem drop_eq_cons {l : List Byte} {i : Nat} (h : i < l.length) :
    l.drop i = byteAt l i :: l.drop (i + 1) := by
  unfold byteAt
  rw [List.drop_eq_getElem_cons h, List.getD_eq_getElem?_getD, List.getElem?_eq_getElem h]
  rfl

/-- **What a block write leaves at an index.** -/
theorem byteAt_writeAt {l : List Byte} {off : Nat} {bs : List Byte}
    (h : off + bs.length ≤ l.length) (i : Nat) :
    byteAt (writeAt l off bs) i =
      if off ≤ i ∧ i < off + bs.length then byteAt bs (i - off) else byteAt l i := by
  unfold writeAt
  rw [byteAt_append, byteAt_append, byteAt_drop]
  simp only [List.length_append, List.length_take, Nat.min_eq_left (by omega : off ≤ l.length)]
  by_cases h1 : i < off
  · rw [if_pos (by omega), if_pos h1, if_neg (by omega), byteAt_take h1]
  · by_cases h2 : i < off + bs.length
    · rw [if_pos h2, if_neg h1, if_pos ⟨by omega, h2⟩]
    · rw [if_neg h2, if_neg (by omega)]
      congr 1
      omega

theorem byteAt_writeAt_of_lt {l : List Byte} {off : Nat} {bs : List Byte}
    (h : off + bs.length ≤ l.length) {i : Nat} (hi : i < off) :
    byteAt (writeAt l off bs) i = byteAt l i := by
  rw [byteAt_writeAt h, if_neg (by omega)]

/-- A block write over a whole list. -/
theorem writeAt_all {l bs : List Byte} (h : bs.length = l.length) : writeAt l 0 bs = bs := by
  unfold writeAt
  rw [List.take_zero, List.nil_append, List.drop_eq_nil_of_le (by omega), List.append_nil]

/-- **A block write over the middle of a concatenation.** -/
theorem writeAt_append (l m r bs : List Byte) (h : bs.length = m.length) :
    writeAt (l ++ (m ++ r)) l.length bs = l ++ (bs ++ r) := by
  unfold writeAt
  rw [List.take_append_length, h, ← List.append_assoc l m r, ← List.length_append,
    List.drop_append_length, List.append_assoc]

/-- What was written is read back. -/
theorem slice_writeAt {l : List Byte} {off : Nat} (bs : List Byte) (h : off ≤ l.length) :
    slice (writeAt l off bs) off bs.length = bs := by
  unfold slice writeAt
  have hlen : (l.take off).length = off := by
    rw [List.length_take]
    omega
  have hdrop : (l.take off ++ (bs ++ l.drop (off + bs.length))).drop off =
      bs ++ l.drop (off + bs.length) := by
    rw [List.drop_append_of_le_length (by omega), List.drop_take_self, List.nil_append]
  rw [List.append_assoc, hdrop, List.take_append_length]

/-- What was written is read back, also after a write that starts where it ends. -/
theorem slice_writeAt_writeAt (l bs cs : List Byte) :
    slice (writeAt (writeAt l 0 bs) bs.length cs) 0 bs.length = bs := by
  unfold slice writeAt
  rw [List.drop_zero, List.take_zero, List.nil_append, List.take_append_length,
    List.append_assoc, List.take_append_length]

/-! ## Arrays -/

/-- How a run goes wrong. -/
inductive Fault where
  /-- `len` bytes at `off` of an array of `size` bytes. -/
  | outOfBounds (size off len : Nat)
  | nullPointer
  | outOfFuel
  deriving DecidableEq, Repr

/-- An array of `n` bytes. -/
structure Buf (n : Nat) where
  bytes : List Byte
  size : bytes.length = n
  deriving DecidableEq

namespace Buf

variable {n : Nat}

theorem ext_bytes {b c : Buf n} (h : b.bytes = c.bytes) : b = c := by
  cases b
  cases c
  cases h
  rfl

/-- `n` copies of a byte. -/
def fill (n : Nat) (v : Byte) : Buf n := ⟨List.replicate n v, List.length_replicate⟩

/-- The byte list cut or padded with zeros to `n` bytes. -/
def ofList (n : Nat) (l : List Byte) : Buf n :=
  ⟨(l ++ List.replicate n 0).take n, by
    rw [List.length_take, List.length_append, List.length_replicate]; omega⟩

theorem bytes_ofList (n : Nat) (l : List Byte) :
    (ofList n l).bytes = l.take n ++ List.replicate (n - l.length) 0 := by
  show (l ++ List.replicate n 0).take n = _
  rw [List.take_append, List.take_replicate, Nat.min_eq_left (Nat.sub_le _ _)]

/-- An array filled from a list, then what did not fit. -/
theorem ofList_append_drop (n : Nat) (l : List Byte) :
    (ofList n l).bytes ++ l.drop n = l ++ List.replicate (n - l.length) 0 := by
  rw [bytes_ofList]
  by_cases h : l.length ≤ n
  · rw [List.take_of_length_le h, List.drop_eq_nil_of_le h, List.append_nil]
  · rw [Nat.sub_eq_zero_of_le (by omega), List.replicate_zero, List.append_nil, List.append_nil,
      List.take_append_drop]

def load8 (b : Buf n) (i : Nat) : Except Fault Byte :=
  if i < n then .ok (byteAt b.bytes i) else .error (.outOfBounds n i 1)

/-- A 16-bit load on a little-endian CPU. -/
def load16 (b : Buf n) (i : Nat) : Except Fault (BitVec 16) :=
  if i + 2 ≤ n then .ok (le16 (byteAt b.bytes i) (byteAt b.bytes (i + 1)))
  else .error (.outOfBounds n i 2)

def load (b : Buf n) (off len : Nat) : Except Fault (List Byte) :=
  if off + len ≤ n then .ok (slice b.bytes off len) else .error (.outOfBounds n off len)

def store (b : Buf n) (off : Nat) (bs : List Byte) : Except Fault (Buf n) :=
  if h : off + bs.length ≤ n then
    .ok ⟨writeAt b.bytes off bs, by rw [length_writeAt (by rw [b.size]; exact h), b.size]⟩
  else .error (.outOfBounds n off bs.length)

/-- A 16-bit store on a little-endian CPU. -/
def store16 (b : Buf n) (off : Nat) (x : BitVec 16) : Except Fault (Buf n) :=
  b.store off [loByte x, hiByte x]

theorem load8_ok (b : Buf n) {i : Nat} (h : i < n) : b.load8 i = .ok (byteAt b.bytes i) :=
  if_pos h

theorem load16_ok (b : Buf n) {i : Nat} (h : i + 2 ≤ n) :
    b.load16 i = .ok (le16 (byteAt b.bytes i) (byteAt b.bytes (i + 1))) :=
  if_pos h

theorem load_ok (b : Buf n) {off len : Nat} (h : off + len ≤ n) :
    b.load off len = .ok (slice b.bytes off len) :=
  if_pos h

theorem store_ok (b : Buf n) (off : Nat) (bs : List Byte) (h : off + bs.length ≤ n) :
    ∃ c : Buf n, b.store off bs = .ok c ∧ c.bytes = writeAt b.bytes off bs :=
  ⟨_, dif_pos h, rfl⟩

theorem length_slice (b : Buf n) {off len : Nat} (h : off + len ≤ n) :
    (slice b.bytes off len).length = len := by
  unfold slice
  rw [List.length_take, List.length_drop, b.size]
  omega

end Buf

end Gateway.Lib
