import Gateway.Lib.Buf

/-!
# C strings in byte arrays

* `cStr`: the string at the start of a byte list, up to its first zero byte.
* `Buf.copyString`: `strncpy` into an array, less one byte, and a terminator in the last byte. The
  old content does not matter: `copyString_ok` gives the array, `cStr_terminated` its string, which
  is the source cut to one byte less than the array.
* `Buf.storeString`: a string and its terminator, as `strcpy` leaves them.
-/

namespace Gateway.Lib

/-- The bytes of a string literal in UTF-8. -/
def utf8 (s : String) : List Byte := s.toUTF8.data.toList.map UInt8.toBitVec

/-- The C string at the start of a byte list. -/
def cStr : List Byte → List Byte
  | [] => []
  | b :: l => if b = 0 then [] else b :: cStr l

theorem zero_notMem_cStr (l : List Byte) : (0 : Byte) ∉ cStr l := by
  induction l with
  | nil => simp [cStr]
  | cons b l ih =>
    by_cases hb : b = 0
    · rw [cStr, if_pos hb]
      simp
    · rw [cStr, if_neg hb, List.mem_cons, not_or]
      exact ⟨fun h => hb h.symm, ih⟩

/-- A string without a zero byte goes on into what follows. -/
theorem cStr_append {s : List Byte} (m : List Byte) (h : (0 : Byte) ∉ s) :
    cStr (s ++ m) = s ++ cStr m := by
  induction s with
  | nil => rfl
  | cons b s ih =>
    rw [List.mem_cons, not_or] at h
    rw [List.cons_append, cStr, if_neg (fun hb => h.1 hb.symm), ih h.2, List.cons_append]

/-- A string with a zero byte in it ends there, whatever follows. -/
theorem cStr_append_of_mem {l : List Byte} (m : List Byte) (h : (0 : Byte) ∈ l) :
    cStr (l ++ m) = cStr l := by
  induction l with
  | nil => exact absurd h (by simp)
  | cons b l ih =>
    rw [List.cons_append, cStr, cStr]
    by_cases hb : b = 0
    · rw [if_pos hb, if_pos hb]
    · rw [if_neg hb, if_neg hb, ih ((List.mem_cons.mp h).resolve_left fun h0 => hb h0.symm)]

theorem cStr_replicate (k : Nat) : cStr (List.replicate k 0) = [] := by
  cases k with
  | zero => rfl
  | succ k => exact if_pos rfl

theorem cStr_of_notMem {s : List Byte} (h : (0 : Byte) ∉ s) : cStr s = s := by
  have := cStr_append [] h
  rwa [List.append_nil, cStr, List.append_nil] at this

/-- A zero byte ends the string. -/
theorem cStr_append_zero (s rest : List Byte) : cStr (s ++ 0 :: rest) = cStr s := by
  by_cases h : (0 : Byte) ∈ s
  · exact cStr_append_of_mem (0 :: rest) h
  · rw [cStr_append _ h, cStr, if_pos rfl, List.append_nil, cStr_of_notMem h]

theorem mem_of_mem_cStr {b : Byte} {l : List Byte} (h : b ∈ cStr l) : b ∈ l := by
  induction l with
  | nil => exact h
  | cons a l ih =>
    rw [cStr] at h
    split at h
    · exact absurd h (by simp)
    · rcases List.mem_cons.mp h with rfl | htail
      · exact List.mem_cons_self
      · exact List.mem_cons_of_mem a (ih htail)

@[simp] theorem cStr_cStr (l : List Byte) : cStr (cStr l) = cStr l :=
  cStr_of_notMem (zero_notMem_cStr l)

/-- The `n` bytes `strncpy(dst, src, n)` writes: `src` cut to `n` bytes, or padded with zeros. -/
def strncpyBytes (n : Nat) (src : List Byte) : List Byte :=
  (cStr src).take n ++ List.replicate (n - (cStr src).length) 0

@[simp] theorem length_strncpyBytes (n : Nat) (src : List Byte) :
    (strncpyBytes n src).length = n := by
  unfold strncpyBytes
  rw [List.length_append, List.length_take, List.length_replicate]
  omega

namespace Buf

variable {n : Nat}

/-- `strncpy(dst, src, sizeof(dst) - 1); dst[sizeof(dst) - 1] = '\0';` -/
def copyString (dst : Buf n) (src : List Byte) : Except Fault (Buf n) := do
  let dst ← dst.store 0 (strncpyBytes (n - 1) src)
  dst.store (n - 1) [0]

/-- What `copyString` leaves in the array. -/
def terminated (n : Nat) (src : List Byte) : Buf (n + 1) :=
  ⟨strncpyBytes n src ++ [0], by rw [List.length_append, length_strncpyBytes]; rfl⟩

/-- **`copyString` stays inside the array**, and the old content is gone. -/
theorem copyString_ok (dst : Buf (n + 1)) (src : List Byte) :
    dst.copyString src = .ok (terminated n src) := by
  obtain ⟨b1, h1, hb1⟩ := dst.store_ok 0 (strncpyBytes n src)
    (by rw [length_strncpyBytes]; omega)
  obtain ⟨b2, h2, hb2⟩ := b1.store_ok n [0] (Nat.le_refl _)
  unfold copyString
  simp only [Nat.add_sub_cancel, h1, bind, Except.bind, h2, Except.ok.injEq]
  apply ext_bytes
  have hw : b1.bytes = strncpyBytes n src ++ dst.bytes.drop n := by
    rw [hb1]
    unfold writeAt
    rw [List.take_zero, List.nil_append, length_strncpyBytes, Nat.zero_add]
  have htake : b1.bytes.take n = strncpyBytes n src := by
    rw [hw, List.take_left' (length_strncpyBytes n src)]
  rw [hb2]
  unfold writeAt terminated
  rw [htake, List.drop_eq_nil_of_le (by rw [b1.size]; exact Nat.le_refl _), List.append_nil]

/-- The string left in the array: the source, cut to one byte less than the array. -/
@[simp] theorem cStr_terminated (n : Nat) (src : List Byte) :
    cStr (terminated n src).bytes = (cStr src).take n := by
  have h0 : (0 : Byte) ∉ (cStr src).take n := fun h =>
    zero_notMem_cStr src (List.mem_of_mem_take h)
  show cStr (strncpyBytes n src ++ [0]) = _
  unfold strncpyBytes
  rw [List.append_assoc, ← List.replicate_succ', List.replicate_succ, cStr_append_zero,
    cStr_of_notMem h0]

/-- The array holds a string with a NUL inside it, and zeros after the string. -/
def ZeroPadded (b : Buf n) : Prop :=
  ∃ s : List Byte, (0 : Byte) ∉ s ∧ s.length < n ∧
    b.bytes = s ++ List.replicate (n - s.length) 0

theorem zeroPadded_terminated (n : Nat) (src : List Byte) : ZeroPadded (terminated n src) := by
  refine ⟨(cStr src).take n, fun h => zero_notMem_cStr src (List.mem_of_mem_take h), ?_, ?_⟩
  · rw [List.length_take]
    omega
  · show strncpyBytes n src ++ [0] = _
    unfold strncpyBytes
    rw [List.append_assoc, ← List.replicate_succ', List.length_take]
    congr 2
    omega

/-- The array only depends on what of the string fits. -/
theorem terminated_congr {n : Nat} {src src' : List Byte}
    (h : (cStr src).take n = (cStr src').take n) : terminated n src = terminated n src' := by
  have hlen := congrArg List.length h
  rw [List.length_take, List.length_take] at hlen
  apply ext_bytes
  show strncpyBytes n src ++ [0] = strncpyBytes n src' ++ [0]
  unfold strncpyBytes
  rw [h]
  congr 3
  omega

/-- **The array holds the whole string, zero padded, exactly when it leaves room for the
terminator.** -/
theorem terminated_eq_ofList {n : Nat} {s : List Byte} (h0 : (0 : Byte) ∉ s)
    (hle : s.length ≤ n + 1) : terminated n s = ofList (n + 1) s ↔ s.length ≤ n := by
  constructor
  · intro h
    have hc := congrArg (fun b : Buf (n + 1) => cStr b.bytes) h
    simp only [cStr_terminated, bytes_ofList, List.take_of_length_le hle] at hc
    rw [cStr_append _ h0, cStr_replicate, List.append_nil, cStr_of_notMem h0] at hc
    have hlen := congrArg List.length hc
    rw [List.length_take] at hlen
    omega
  · intro h
    apply ext_bytes
    show strncpyBytes n s ++ [0] = _
    unfold strncpyBytes
    rw [bytes_ofList, cStr_of_notMem h0, List.take_of_length_le h, List.take_of_length_le hle,
      List.append_assoc, ← List.replicate_succ']
    congr 2
    omega

/-- The string `s` and its terminator, at the start of the array. -/
def storeString (out : Buf n) (s : List Byte) : Except Fault (Buf n) := out.store 0 (s ++ [0])

theorem storeString_ok (out : Buf n) {s : List Byte} (h : s.length < n) (h0 : (0 : Byte) ∉ s) :
    ∃ b, out.storeString s = .ok b ∧ cStr b.bytes = s := by
  obtain ⟨b, hs, hb⟩ := out.store_ok 0 (s ++ [0])
    (by rw [List.length_append, List.length_singleton]; omega)
  refine ⟨b, hs, ?_⟩
  rw [hb]
  unfold writeAt
  rw [List.take_zero, List.nil_append, List.append_assoc, List.singleton_append,
    cStr_append_zero, cStr_of_notMem h0]

end Buf

end Gateway.Lib
