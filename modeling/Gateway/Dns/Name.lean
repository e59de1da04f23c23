import Gateway.Dns.Request

/-!
# `parse_dns_name` walks the length bytes and stays inside its arrays

`nameRun` is the walk of `parse_dns_name` without its memory: from cursor `k` on, step over a
length byte and the bytes it announces, and stop at the first zero length byte found **after** a
step. It fails once the bytes walked over exceed `maxLen`.

* `parseDnsName_ok`: with room for `maxLen + 1` bytes after the start and a `maxLen` byte output
  array, `parse_dns_name` does not fault, and returns what `nameRun` says.
* `nameRun_spec`, `nameRun_congr`: where the walk ends, and which bytes it depends on.
-/

namespace Gateway.Dns

open Gateway.Lib

/-- The walk over the length bytes; the result is the number of bytes before the closing zero. -/
def nameRun (get : Nat → Byte) (maxLen : Nat) : Nat → Nat → Option Nat
  | 0, _ => none
  | fuel + 1, k =>
    let k' := k + ((get k).toNat + 1)
    if maxLen < k' then none
    else if get k' ≠ 0 then nameRun get maxLen fuel k'
    else some k'

/-- A walk that succeeds ends at a zero byte, after its start and within the bound. -/
theorem nameRun_spec {get : Nat → Byte} {maxLen fuel k e : Nat}
    (h : nameRun get maxLen fuel k = some e) : k < e ∧ e ≤ maxLen ∧ get e = 0 := by
  induction fuel generalizing k with
  | zero => exact absurd h (by simp [nameRun])
  | succ fuel ih =>
    simp only [nameRun] at h
    split at h
    · exact absurd h (by simp)
    · rename_i hle
      split at h
      · obtain ⟨h1, h2, h3⟩ := ih h
        exact ⟨by omega, h2, h3⟩
      · rename_i hz
        cases h
        exact ⟨by omega, by omega, by simpa using hz⟩

/-- The walk only reads the bytes up to the bound. -/
theorem nameRun_congr {get get' : Nat → Byte} {maxLen : Nat}
    (h : ∀ i, i ≤ maxLen → get i = get' i) {fuel k : Nat} (hk : k ≤ maxLen) :
    nameRun get maxLen fuel k = nameRun get' maxLen fuel k := by
  induction fuel generalizing k with
  | zero => rfl
  | succ fuel ih =>
    simp only [nameRun, ← h k hk]
    by_cases hle : maxLen < k + ((get k).toNat + 1)
    · rw [if_pos hle, if_pos hle]
    · rw [if_neg hle, if_neg hle, ← h _ (by omega), ih (by omega)]

/-- A walk that succeeds only reads the bytes up to its end. -/
theorem nameRun_congr_some {get get' : Nat → Byte} {maxLen fuel k e : Nat}
    (h : nameRun get maxLen fuel k = some e) (heq : ∀ i, i ≤ e → get i = get' i) :
    nameRun get' maxLen fuel k = some e := by
  induction fuel generalizing k with
  | zero => exact absurd h (by simp [nameRun])
  | succ fuel ih =>
    have hlt := (nameRun_spec h).1
    simp only [nameRun] at h ⊢
    rw [← heq k (by omega)]
    split at h
    · exact absurd h (by simp)
    · rename_i hle
      rw [if_neg hle]
      split at h
      · rename_i hz
        have hlt' := (nameRun_spec h).1
        rw [← heq _ (by omega), if_pos hz]
        exact ih h
      · rename_i hz
        cases h
        rw [← heq _ (Nat.le_refl _), if_neg hz]

/-- **The loop of `parse_dns_name`.** With both cursors at `k` bytes past their starts, the loop
does not fault and follows `nameRun`. -/
theorem parseDnsNameLoop_ok {n m : Nat} (raw : Buf n) {start maxLen : Nat}
    (hraw : start + maxLen < n) (hname : maxLen ≤ m) (fuel k : Nat) (name : Buf m)
    (hk : k ≤ maxLen) (hf : maxLen < fuel + k) :
    ∃ name', parseDnsNameLoop raw maxLen fuel (start + k) k k name =
      .ok ((nameRun (fun i => byteAt raw.bytes (start + i)) maxLen fuel k).map
        (start + · + 1), name') := by
  induction fuel generalizing k name with
  | zero => exact absurd hf (by omega)
  | succ fuel ih =>
    unfold parseDnsNameLoop nameRun
    simp only [raw.load8_ok (by omega : start + k < n), bind, Except.bind]
    generalize hl : (byteAt raw.bytes (start + k)).toNat = subLen
    by_cases hle : maxLen < k + (subLen + 1)
    · exact ⟨name, by simp [hle]; rfl⟩
    · simp only [if_neg hle]
      rw [raw.load_ok (by omega)]
      have hsub : (slice raw.bytes (start + k + 1) subLen).length = subLen :=
        raw.length_slice (by omega)
      obtain ⟨n1, h1, -⟩ := name.store_ok k (slice raw.bytes (start + k + 1) subLen) (by omega)
      obtain ⟨n2, h2, -⟩ := n1.store_ok (k + subLen) [0x2E] (by simp; omega)
      obtain ⟨n3, h3, -⟩ := n2.store_ok (k + (subLen + 1) - 1) [0] (by simp; omega)
      simp only [h1, h2, raw.load8_ok (by omega : start + k + (subLen + 1) < n), h3]
      rw [show start + k + (subLen + 1) = start + (k + (subLen + 1)) by omega]
      split
      · exact ih _ n2 (by omega) (by omega)
      · exact ⟨n3, rfl⟩

/-- The walk `parse_dns_name` makes from offset `start` of the bytes `z`. -/
def nameWalk (z : List Byte) (start : Nat) : Option Nat :=
  nameRun (fun i => byteAt z (start + i)) nameMaxLen (nameMaxLen + 1) 0

/-- **`parse_dns_name` does not fault**, and returns the offset after the zero byte that ends the
walk, or `NULL`. -/
theorem parseDnsName_ok {n : Nat} (raw : Buf n) (start : Nat) (h : start + nameMaxLen < n)
    (name : Buf nameMaxLen) :
    ∃ name', parseDnsName raw start name nameMaxLen =
      .ok ((nameWalk raw.bytes start).map (start + · + 1), name') :=
  parseDnsNameLoop_ok raw h (Nat.le_refl _) (nameMaxLen + 1) 0 name (Nat.zero_le _)
    (Nat.lt_succ_self _)

end Gateway.Dns
