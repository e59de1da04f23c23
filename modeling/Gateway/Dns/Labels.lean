import Gateway.Dns.Name
import Gateway.Lib.Prefixed
import Gateway.Lib.Rfc1035

/-!
# Which bytes `parse_dns_name` takes for a name

The comment above `parse_dns_name` (`components/dns_server/dns_server.c:53-83`) says that it parses
the DNS name format. Two things differ. The loop is a `do … while`: the first length byte is taken
for one of a label even when it is zero. And a length is only tested through the total, so lengths
from 64 on pass.

* `parseDnsNameLoop_prefixed`: on nonempty labels in a row the loop ends after them, and has written
  them joined by dots. The induction is over the labels, with the bytes written before as a prefix.
* `prefixed_of_nameRun`: where the walk succeeds, there are nonempty labels in a row.
* **`names_iff`**: exactly the names of the format are taken, if and only if the first byte is not
  zero and the bytes are no `WideName`. `names_root`: the root name, and a label of 64 bytes.
-/

namespace Gateway.Dns

open Gateway.Lib Gateway.Lib.Rfc1035

/-! ## Labels in a row -/

theorem take_writeAt {l : List Byte} (bs : List Byte) {off : Nat} (h : off ≤ l.length) :
    (writeAt l off bs).take (off + bs.length) = l.take off ++ bs := by
  unfold writeAt
  exact List.take_left' (by rw [List.length_append, List.length_take]; omega)

/-- **One round of the loop**, on a label: its bytes and a dot are written after those before. -/
theorem parseDnsNameLoop_label {n m : Nat} (raw : Buf n) {start maxLen k : Nat} {l t : List Byte}
    (hraw : raw.bytes.drop (start + k) = BitVec.ofNat 8 l.length :: (l ++ t)) (hne : t ≠ [])
    (hlt : l.length < 256) (hfit : k + (l.length + 1) ≤ maxLen) (hname : maxLen ≤ m) (fuel : Nat)
    (name : Buf m) :
    ∃ name', name'.bytes.take (k + (l.length + 1)) = name.bytes.take k ++ (l ++ [0x2E]) ∧
      parseDnsNameLoop raw maxLen (fuel + 1) (start + k) k k name =
        if byteAt raw.bytes (start + (k + (l.length + 1))) ≠ 0 then
          parseDnsNameLoop raw maxLen fuel (start + (k + (l.length + 1))) (k + (l.length + 1))
            (k + (l.length + 1)) name'
        else (name'.store (k + (l.length + 1) - 1) [0]).map fun name'' =>
          (some (start + (k + (l.length + 1)) + 1), name'') := by
  have hnameSize := name.size
  have hin : start + k + (l.length + 1) < n := by
    have hlen := congrArg List.length hraw
    have hpos := List.length_pos_of_ne_nil hne
    have hn := raw.size
    simp only [List.length_drop, List.length_cons, List.length_append] at hlen
    omega
  have hhead : (byteAt raw.bytes (start + k)).toNat = l.length := by
    rw [byteAt_of_drop hraw, toNat_length hlt]
  have hload : raw.load (start + k + 1) l.length = .ok l := by
    have hdrop := drop_after (a := [BitVec.ofNat 8 l.length]) hraw
    rw [List.length_singleton] at hdrop
    rw [raw.load_ok (by omega), slice, hdrop]
    exact congrArg _ List.take_left
  obtain ⟨n1, h1, hb1⟩ := name.store_ok k l (by omega)
  have hsize1 := n1.size
  obtain ⟨n2, h2, hb2⟩ := n1.store_ok (k + l.length) [0x2E]
    (by rw [List.length_singleton]; omega)
  refine ⟨n2, ?_, ?_⟩
  · have htake1 := take_writeAt l (show k ≤ name.bytes.length by omega)
    have htake2 := take_writeAt [0x2E] (show k + l.length ≤ n1.bytes.length by omega)
    rw [← hb1] at htake1
    rwa [← hb2, htake1, List.length_singleton, List.append_assoc, Nat.add_assoc] at htake2
  · conv_lhs => unfold parseDnsNameLoop
    simp only [raw.load8_ok (by omega : start + k < n), bind, Except.bind, hhead,
      if_neg (show ¬ maxLen < k + (l.length + 1) by omega), hload, h1, h2,
      raw.load8_ok hin]
    rw [Nat.add_assoc]
    rfl

/-- **The loop on labels in a row**: it ends after them, and their bytes are written, with a dot
after each and a zero byte in the place of the last dot. -/
theorem parseDnsNameLoop_prefixed {n m : Nat} (raw : Buf n) (start : Nat) {maxLen : Nat}
    (hname : maxLen ≤ m) {ls : List (List Byte)} (hls : ls ≠ [])
    (hlabel : ∀ l ∈ ls, l ≠ [] ∧ l.length < 256) {rest : List Byte} {fuel k : Nat} (name : Buf m)
    (hraw : raw.bytes.drop (start + k) = prefixed ls ++ 0 :: rest)
    (hfit : k + (prefixed ls).length ≤ maxLen) (hf : maxLen < fuel + k) :
    ∃ name', parseDnsNameLoop raw maxLen fuel (start + k) k k name =
        .ok (some (start + k + (prefixed ls).length + 1), name') ∧
      (name.bytes.take k ++ dots ls).dropLast ++ [0] <+: name'.bytes := by
  induction ls generalizing fuel k name with
  | nil => exact absurd rfl hls
  | cons l ls ih =>
    obtain ⟨fuel, rfl⟩ : ∃ f, fuel = f + 1 := ⟨fuel - 1, by omega⟩
    have hlt := (hlabel l List.mem_cons_self).2
    rw [length_prefixed_cons] at hfit ⊢
    rw [prefixed_cons, List.cons_append, List.append_assoc] at hraw
    obtain ⟨n2, htake, hround⟩ :=
      parseDnsNameLoop_label raw hraw (by simp) hlt (by omega) hname fuel name
    have hnext := drop_after (drop_after (a := [BitVec.ofNat 8 l.length]) hraw)
    rw [List.length_singleton,
      show start + k + 1 + l.length = start + (k + (l.length + 1)) by omega] at hnext
    rw [hround]
    cases ls with
    | nil =>
      have hzero : byteAt raw.bytes (start + (k + (l.length + 1))) = 0 := byteAt_of_drop hnext
      have hsize2 := n2.size
      obtain ⟨n3, h3, hb3⟩ := n2.store_ok (k + l.length) [0] (by rw [List.length_singleton]; omega)
      rw [if_neg (by simpa using hzero), show k + (l.length + 1) - 1 = k + l.length by omega, h3]
      refine ⟨n3, ?_, ?_⟩
      · rw [show start + (k + (l.length + 1)) = start + k + (l.length + 1 + 0) by omega]
        rfl
      · have hcut : (n2.bytes.take (k + (l.length + 1))).dropLast =
            n2.bytes.take (k + l.length) := by
          rw [List.dropLast_eq_take, List.length_take, List.take_take]
          congr 1
          omega
        rw [show dots [l] = l ++ [0x2E] from dots_cons, ← htake, hcut, hb3]
        exact List.prefix_append _ _
    | cons l' ls =>
      -- the next length byte is not zero, so the loop goes on
      have hpos := (lengthByte_pos (hlabel l' (by simp))).1
      have hgo : byteAt raw.bytes (start + (k + (l.length + 1))) ≠ 0 := by
        intro h0
        have hb : byteAt raw.bytes (start + (k + (l.length + 1))) = BitVec.ofNat 8 l'.length :=
          byteAt_of_drop hnext
        rw [← hb, h0] at hpos
        exact absurd hpos (by simp)
      obtain ⟨name', hloop, hpre⟩ := ih (List.cons_ne_nil _ _)
        (fun m hm => hlabel m (List.mem_cons_of_mem l hm)) n2 hnext (by omega)
        (show maxLen < fuel + (k + (l.length + 1)) by omega)
      rw [if_pos hgo, hloop]
      refine ⟨name', ?_, ?_⟩
      · rw [show start + (k + (l.length + 1)) + (prefixed (l' :: ls)).length + 1 =
          start + k + (l.length + 1 + (prefixed (l' :: ls)).length) + 1 by omega]
      · rw [htake, List.append_assoc, List.append_assoc, List.singleton_append] at hpre
        rwa [dots_cons (l := l)]

/-- A length byte, as many bytes as it says, and what is left after them. -/
theorem drop_label {z : List Byte} {i len : Nat} (hlen : (byteAt z i).toNat = len)
    (hin : i + len < z.length) :
    (slice z (i + 1) len).length = len ∧
      z.drop i = BitVec.ofNat 8 len :: (slice z (i + 1) len ++ z.drop (i + (len + 1))) := by
  constructor
  · rw [slice, List.length_take, List.length_drop]
    omega
  · have htail := List.take_append_drop len (z.drop (i + 1))
    rw [List.drop_drop, show i + 1 + len = i + (len + 1) by omega] at htail
    rw [slice, htail, drop_eq_cons (by omega), ← hlen, BitVec.ofNat_toNat, BitVec.setWidth_eq]

/-- **Where the walk succeeds** and the first byte is not zero, there are nonempty labels in a row,
and the walk ends after them. -/
theorem prefixed_of_nameRun {z : List Byte} {start maxLen fuel k e : Nat}
    (hz : start + maxLen < z.length) (h0 : byteAt z (start + k) ≠ 0)
    (h : nameRun (fun i => byteAt z (start + i)) maxLen fuel k = some e) :
    ∃ ls, (∀ l ∈ ls, l ≠ []) ∧ e = k + (prefixed ls).length ∧
      ∃ rest, z.drop (start + k) = prefixed ls ++ 0 :: rest := by
  induction fuel generalizing k with
  | zero => exact absurd h (by simp [nameRun])
  | succ fuel ih =>
    have hspec := nameRun_spec h
    simp only [nameRun] at h
    generalize hl : (byteAt z (start + k)).toNat = len at h
    have hpos : 0 < len := by
      rw [← hl]
      exact Nat.pos_of_ne_zero fun hzero => h0 (BitVec.eq_of_toNat_eq hzero)
    split at h
    · exact absurd h (by simp)
    · rename_i hle
      obtain ⟨hlabel, hhere⟩ := drop_label hl (by omega)
      rw [show start + k + (len + 1) = start + (k + (len + 1)) by omega] at hhere
      have hne : slice z (start + k + 1) len ≠ [] :=
        List.ne_nil_of_length_pos (by rw [hlabel]; exact hpos)
      split at h
      · rename_i hgo
        obtain ⟨ls, hls, he, rest, hdrop⟩ := ih hgo h
        refine ⟨slice z (start + k + 1) len :: ls, List.forall_mem_cons.mpr ⟨hne, hls⟩, ?_, rest,
          ?_⟩
        · rw [length_prefixed_cons, hlabel]
          omega
        · rw [prefixed_cons, hlabel, hhere, hdrop, List.cons_append, List.append_assoc]
      · rename_i hstop
        rw [not_not] at hstop
        refine ⟨[slice z (start + k + 1) len], List.forall_mem_singleton.mpr hne, ?_,
          z.drop (start + (k + (len + 1)) + 1), ?_⟩
        · cases h
          rw [length_prefixed_cons, hlabel]
          rfl
        · have hzero := drop_eq_cons (l := z) (i := start + (k + (len + 1))) (by omega)
          rw [hstop] at hzero
          rw [prefixed_cons, hlabel, hhere, hzero, List.cons_append, List.append_assoc]
          rfl

/-! ## Names -/

/-- `labelsWire` is labels in a row. -/
theorem labelsWire_eq (n : Name) : labelsWire n = prefixed (n.map Label.octets) := by
  unfold labelsWire prefixed
  rw [List.flatMap_map]
  rfl

/-- Short nonempty strings are the labels of a name. -/
theorem exists_name {ls : List (List Byte)} (h : ∀ l ∈ ls, l ≠ [] ∧ l.length ≤ 63) :
    ∃ n : Name, n.map Label.octets = ls := by
  induction ls with
  | nil => exact ⟨[], rfl⟩
  | cons l ls ih =>
    obtain ⟨n, hn⟩ := ih fun m hm => h m (List.mem_cons_of_mem l hm)
    obtain ⟨hne, hle⟩ := h l List.mem_cons_self
    exact ⟨⟨l, List.length_pos_of_ne_nil hne, hle⟩ :: n, by rw [List.map_cons, hn]⟩

/-- A name stands at the beginning of `z`. -/
theorem nameWire_prefix_iff {n : Name} {z : List Byte} :
    nameWire n <+: z ↔ ∃ rest, z = prefixed (n.map Label.octets) ++ 0 :: rest := by
  unfold nameWire
  rw [labelsWire_eq]
  constructor
  · rintro ⟨rest, rfl⟩
    exact ⟨rest, by rw [List.append_assoc, List.singleton_append]⟩
  · rintro ⟨rest, rfl⟩
    exact ⟨rest, by rw [List.append_assoc, List.singleton_append]⟩

/-- **Exactly the names are taken.** The call succeeds if and only if an uncompressed name stands
at the start; it then returns the position after it and writes its labels joined by dots, closed
with a zero byte; and a length byte of 64 or more makes it fail. -/
def TakesNames {n : Nat} (raw : Buf n) (start : Nat) (name : Buf nameMaxLen) : Prop :=
  ∃ r name', parseDnsName raw start name nameMaxLen = .ok (r, name') ∧
    ((∃ e, r = some e) ↔ ∃ q : Name, nameWire q <+: raw.bytes.drop start) ∧
    (∀ q : Name, nameWire q <+: raw.bytes.drop start →
      r = some (start + (nameWire q).length) ∧
        dotted (q.map Label.octets) ++ [0] <+: name'.bytes) ∧
    ∀ (q : Name) (b : Byte) (rest : List Byte), raw.bytes.drop start = labelsWire q ++ b :: rest →
      64 ≤ b.toNat → r = none

/-- Nonempty labels of up to 127 bytes, one of them longer than a label may be, in at most 128
bytes with their length bytes, and closed by a zero byte. -/
def WideName (z : List Byte) : Prop :=
  ∃ ls : List (List Byte), (∀ l ∈ ls, l ≠ [] ∧ l.length ≤ 127) ∧ (∃ l ∈ ls, 63 < l.length) ∧
    (prefixed ls).length ≤ nameMaxLen ∧ prefixed ls ++ [0] <+: z

section Names

variable {n start : Nat} {raw : Buf n} {name name' : Buf nameMaxLen} {ls : List (List Byte)}

/-- The whole call on labels in a row. -/
theorem parseDnsName_prefixed (hls : ls ≠ []) (hlabel : ∀ l ∈ ls, l ≠ [] ∧ l.length < 256)
    {rest : List Byte} (hraw : raw.bytes.drop start = prefixed ls ++ 0 :: rest)
    (hfit : (prefixed ls).length ≤ nameMaxLen) (name : Buf nameMaxLen) :
    ∃ name', parseDnsName raw start name nameMaxLen =
        .ok (some (start + (prefixed ls).length + 1), name') ∧
      dotted ls ++ [0] <+: name'.bytes := by
  obtain ⟨name', hloop, hpre⟩ := parseDnsNameLoop_prefixed raw start (k := 0)
    (Nat.le_refl nameMaxLen) hls hlabel name hraw (by omega) (Nat.lt_succ_self nameMaxLen)
  rw [List.take_zero, List.nil_append, dropLast_dots hls] at hpre
  exact ⟨name', hloop, hpre⟩

/-- A call that succeeds has found labels in a row, unless the first byte is zero. -/
theorem prefixed_of_parseDnsName (hin : start + nameMaxLen < n) {e : Nat}
    (h0 : byteAt raw.bytes start ≠ 0)
    (h : parseDnsName raw start name nameMaxLen = .ok (some e, name')) :
    ∃ ls, (∀ l ∈ ls, l ≠ [] ∧ l.length ≤ 127) ∧ (prefixed ls).length ≤ nameMaxLen ∧
      ∃ rest, raw.bytes.drop start = prefixed ls ++ 0 :: rest := by
  obtain ⟨name'', hwalk⟩ := parseDnsName_ok raw start hin name
  rw [h, Except.ok.injEq, Prod.mk.injEq] at hwalk
  obtain ⟨e', he', -⟩ := Option.map_eq_some_iff.mp hwalk.1.symm
  obtain ⟨-, hle, -⟩ := nameRun_spec he'
  obtain ⟨ls, hls, hlen, hdrop⟩ := prefixed_of_nameRun (by rw [raw.size]; exact hin) h0 he'
  rw [Nat.zero_add] at hlen
  refine ⟨ls, fun l hl => ⟨hls l hl, ?_⟩, hlen ▸ hle, hdrop⟩
  have hlt := length_lt_prefixed hl
  unfold nameMaxLen at hle
  omega

theorem octets_length {q : Name} {l : List Byte} (h : l ∈ q.map Label.octets) :
    0 < l.length ∧ l.length ≤ 63 := by
  obtain ⟨x, -, rfl⟩ := List.mem_map.mp h
  exact ⟨x.pos, x.le_63⟩

/-- The length byte of a label is 1 to 63. -/
theorem octets_lengthByte {q : Name} {l : List Byte} (h : l ∈ q.map Label.octets) :
    (0 < (BitVec.ofNat 8 l.length).toNat ∧ (BitVec.ofNat 8 l.length).toNat ≤ 63) ∧
      l.length < 256 := by
  have hlen := octets_length h
  rw [toNat_length (by omega)]
  exact ⟨hlen, by omega⟩

/-- After labels, a length byte of 64 or more ends the hope for a name. -/
theorem reserved_not_name {q : Name} {b : Byte} {z rest : List Byte}
    (hz : z = labelsWire q ++ b :: rest) (hb : 64 ≤ b.toNat) :
    ¬ ∃ q' : Name, nameWire q' <+: z := by
  rintro ⟨q', hpre⟩
  obtain ⟨rest', hz'⟩ := nameWire_prefix_iff.mp hpre
  rw [hz, labelsWire_eq] at hz'
  obtain ⟨-, rfl⟩ := prefixed_inj (P := fun b => 0 < b.toNat ∧ b.toNat ≤ 63) hz'
    (fun l hl => octets_lengthByte hl) (fun l hl => octets_lengthByte hl) (fun h => by omega)
    (fun h => absurd h.1 (by simp))
  exact absurd hb (by simp)

/-- On the root name the call goes on past the zero byte. -/
theorem root_not_taken (hin : start + nameMaxLen < n) (h0 : byteAt raw.bytes start = 0) :
    ¬ TakesNames raw start name := by
  rintro ⟨r, name', hr, -, hname, -⟩
  have hroot : nameWire [] <+: raw.bytes.drop start := by
    rw [drop_eq_cons (by rw [raw.size]; omega), h0]
    exact ⟨_, rfl⟩
  obtain ⟨name'', hwalk⟩ := parseDnsName_ok raw start hin name
  rw [hr, (hname [] hroot).1, Except.ok.injEq, Prod.mk.injEq] at hwalk
  obtain ⟨e, he, heq⟩ := Option.map_eq_some_iff.mp hwalk.1.symm
  have hpos := (nameRun_spec he).1
  have hone : (nameWire []).length = 1 := rfl
  omega

/-- A wide name is taken. -/
theorem wide_not_taken (hwide : WideName (raw.bytes.drop start)) :
    ¬ TakesNames raw start name := by
  rintro ⟨r, name', hr, hiff, -, -⟩
  obtain ⟨ls, hls, ⟨l, hl, hlong⟩, hfit, rest, hraw⟩ := hwide
  rw [List.append_assoc, List.singleton_append] at hraw
  have hshort : ∀ m ∈ ls, m ≠ [] ∧ m.length < 256 := by
    intro m hm
    obtain ⟨hne, hle⟩ := hls m hm
    exact ⟨hne, by omega⟩
  obtain ⟨name'', hok, -⟩ :=
    parseDnsName_prefixed (List.ne_nil_of_mem hl) hshort hraw.symm hfit name
  rw [hr, Except.ok.injEq, Prod.mk.injEq] at hok
  obtain ⟨q, hq⟩ := hiff.mp ⟨_, hok.1⟩
  obtain ⟨rest', hrest'⟩ := nameWire_prefix_iff.mp hq
  -- the same bytes cannot be labels of at most 63 bytes too
  obtain ⟨rfl, -⟩ := prefixed_inj (P := fun b => 0 < b.toNat) (hraw.trans hrest')
    (fun m hm => lengthByte_pos (hshort m hm))
    (fun m hm => ⟨(octets_lengthByte hm).1.1, (octets_lengthByte hm).2⟩) (by simp) (by simp)
  exact absurd (octets_length hl).2 (by omega)

/-- A name that is not the root is taken, and written. -/
theorem name_taken (h0 : byteAt raw.bytes start ≠ 0) {q : Name}
    (hpre : nameWire q <+: raw.bytes.drop start) (hfit : (nameWire q).length ≤ nameMaxLen)
    (name : Buf nameMaxLen) :
    ∃ name', parseDnsName raw start name nameMaxLen =
        .ok (some (start + (nameWire q).length), name') ∧
      dotted (q.map Label.octets) ++ [0] <+: name'.bytes := by
  obtain ⟨rest, hdrop⟩ := nameWire_prefix_iff.mp hpre
  have hne : q.map Label.octets ≠ [] := by
    intro hnil
    rw [hnil] at hdrop
    exact h0 (byteAt_of_drop hdrop)
  rw [length_nameWire, labelsWire_eq] at hfit ⊢
  refine parseDnsName_prefixed hne (fun l hl => ?_) hdrop (Nat.le_of_succ_le hfit) name
  exact ⟨List.ne_nil_of_length_pos (octets_length hl).1, (octets_lengthByte hl).2⟩

/-- What is taken is a name, unless it is a wide name or begins with a zero byte. -/
theorem name_of_taken (hin : start + nameMaxLen < n) (h0 : byteAt raw.bytes start ≠ 0)
    (hwide : ¬ WideName (raw.bytes.drop start)) {e : Nat}
    (h : parseDnsName raw start name nameMaxLen = .ok (some e, name')) :
    ∃ q : Name, nameWire q <+: raw.bytes.drop start := by
  obtain ⟨ls, hls, hfit, rest, hdrop⟩ := prefixed_of_parseDnsName hin h0 h
  have hshort : ∀ l ∈ ls, l ≠ [] ∧ l.length ≤ 63 := by
    intro l hl
    refine ⟨(hls l hl).1, ?_⟩
    by_contra hlong
    refine hwide ⟨ls, hls, ⟨l, hl, Nat.lt_of_not_le hlong⟩, hfit, rest, ?_⟩
    rw [hdrop, List.append_assoc, List.singleton_append]
  obtain ⟨q, rfl⟩ := exists_name hshort
  exact ⟨q, nameWire_prefix_iff.mpr ⟨rest, hdrop⟩⟩

/-- **When exactly the names are taken.** For all bytes and every start, with the caller's 128-byte
output and a name that fits a question of 115 bytes: if and only if the first byte is not zero and
the bytes are no wide name. -/
theorem names_iff (raw : Buf n) (start : Nat) (hin : start + nameMaxLen < n)
    (hq : ∀ q : Name, nameWire q <+: raw.bytes.drop start → (nameWire q).length + 4 ≤ 115)
    (name : Buf nameMaxLen) :
    TakesNames raw start name ↔
      byteAt raw.bytes start ≠ 0 ∧ ¬ WideName (raw.bytes.drop start) := by
  constructor
  · intro h
    exact ⟨fun h0 => root_not_taken hin h0 h, fun hwide => wide_not_taken hwide h⟩
  · rintro ⟨h0, hwide⟩
    obtain ⟨name', hwalk⟩ := parseDnsName_ok raw start hin name
    generalize (nameWalk raw.bytes start).map (start + · + 1) = r at hwalk
    have hname : ∀ q : Name, nameWire q <+: raw.bytes.drop start →
        r = some (start + (nameWire q).length) ∧
          dotted (q.map Label.octets) ++ [0] <+: name'.bytes := by
      intro q hpre
      have hfit := hq q hpre
      obtain ⟨name'', hok, hdots⟩ := name_taken h0 hpre (by unfold nameMaxLen; omega) name
      rw [hwalk, Except.ok.injEq, Prod.mk.injEq] at hok
      exact ⟨hok.1, hok.2 ▸ hdots⟩
    have hsound : (∃ e, r = some e) → ∃ q : Name, nameWire q <+: raw.bytes.drop start := by
      rintro ⟨e, rfl⟩
      exact name_of_taken hin h0 hwide hwalk
    refine ⟨r, name', hwalk, ⟨hsound, fun ⟨q, hpre⟩ => ⟨_, (hname q hpre).1⟩⟩, hname, ?_⟩
    intro q b rest hdrop hb
    by_contra hne
    exact reserved_not_name hdrop hb (hsound (Option.ne_none_iff_exists'.mp hne))

end Names

/-! ## A query, the root name and a long label -/

/-- The reply buffer with a plain query for `a` in it. -/
def bufferA : Buf dnsMaxLen := Buf.ofList dnsMaxLen queryA

theorem bufferA_labels {ls : List (List Byte)} {rest : List Byte}
    (hls : ∀ l ∈ ls, l ≠ [] ∧ l.length < 256)
    (h : bufferA.bytes.drop headerLen = prefixed ls ++ 0 :: rest) : ls = [[0x61]] := by
  have hdrop : bufferA.bytes.drop headerLen =
      prefixed [[0x61]] ++ 0 :: bufferA.bytes.drop (headerLen + 3) := by decide +kernel
  exact (prefixed_inj (P := fun b => 0 < b.toNat) (h.symm.trans hdrop)
    (fun l hl => lengthByte_pos (hls l hl)) (by decide) (by simp) (by simp)).1

theorem names_iff_queryA : TakesNames bufferA headerLen (Buf.fill nameMaxLen 7) := by
  refine (names_iff bufferA headerLen (by decide) (fun q hpre => ?_) _).mpr ⟨by decide +kernel, ?_⟩
  · obtain ⟨rest, hdrop⟩ := nameWire_prefix_iff.mp hpre
    have hls := bufferA_labels (fun l hl => ⟨List.ne_nil_of_length_pos (octets_length hl).1,
      (octets_lengthByte hl).2⟩) hdrop
    rw [length_nameWire, labelsWire_eq, hls]
    decide
  · rintro ⟨ls, hls, ⟨l, hl, hlong⟩, -, rest, hdrop⟩
    rw [List.append_assoc, List.singleton_append] at hdrop
    have hone := bufferA_labels (fun l hl => ⟨(hls l hl).1, by have := (hls l hl).2; omega⟩)
      hdrop.symm
    rw [hone, List.mem_singleton] at hl
    subst hl
    exact absurd hlong (by decide)

/-- A query for the root name. -/
def bufferRoot : Buf dnsMaxLen :=
  Buf.ofList dnsMaxLen [0, 1, 1, 0, 0, 1, 0, 0, 0, 0, 0, 0, 0, 0, 1, 0, 1]

/-- A query with a label of 64 bytes. -/
def bufferLong : Buf dnsMaxLen :=
  Buf.ofList dnsMaxLen ([0, 1, 1, 0, 0, 1, 0, 0, 0, 0, 0, 0, 64] ++ List.replicate 64 0x61 ++
    [0, 0, 1, 0, 1])

/-- For the root name the position returned is one too far, and a label of 64 bytes is taken. -/
theorem names_root :
    (∃ name', parseDnsName bufferRoot headerLen (Buf.fill nameMaxLen 7) nameMaxLen =
        .ok (some (headerLen + 2), name')) ∧
      ¬ TakesNames bufferRoot headerLen (Buf.fill nameMaxLen 7) ∧
      (∃ name', parseDnsName bufferLong headerLen (Buf.fill nameMaxLen 7) nameMaxLen =
        .ok (some (headerLen + 66), name')) ∧
      ¬ TakesNames bufferLong headerLen (Buf.fill nameMaxLen 7) := by
  have hwide : WideName (bufferLong.bytes.drop headerLen) :=
    ⟨[List.replicate 64 0x61], by decide +kernel, by decide +kernel, by decide +kernel,
      by decide +kernel⟩
  refine ⟨?_, root_not_taken (by decide) (by decide +kernel), ?_, wide_not_taken hwide⟩
  · obtain ⟨name', h⟩ := parseDnsName_ok bufferRoot headerLen (by decide) (Buf.fill nameMaxLen 7)
    rw [show nameWalk bufferRoot.bytes headerLen = some 1 by decide +kernel] at h
    exact ⟨name', h⟩
  · obtain ⟨name', h⟩ := parseDnsName_ok bufferLong headerLen (by decide) (Buf.fill nameMaxLen 7)
    rw [show nameWalk bufferLong.bytes headerLen = some 65 by decide +kernel] at h
    exact ⟨name', h⟩

end Gateway.Dns
