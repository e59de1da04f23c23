import Gateway.Lib.Buf

/-!
# The DNS message format (RFC 1035, section 4)

Names, questions, resource records and messages, their uncompressed wire form, and a decoder of
whole messages that follows compression pointers.

* A `Label` carries its length bound of 1 to 63 octets; a name is a list of labels, closed on the
  wire by the zero octet of the root.
* `decodeName` reads labels up to the root. A pointer must lead to an earlier offset; a decoded
  name of more than 255 octets is refused (`decodeOwner`).
* `decodeMessage` reads the header and then the four sections in order, with the counts the header
  gives, and returns the offset it stopped at.

Results:
* `decodeName_wire`: the decoder undoes the wire form of a name, wherever it stands in a message.
* `decodeName_pointer`: a pointer stands for the name it leads to.
* `decodeQuestion_wire`: the same for a question.
* `decodeMessage_of`: a message is decoded section by section.
* `decodeRecord_append`: what decodes goes on decoding when bytes are appended to the message.
* `decodeMany_add`: items in a row split anywhere.
-/

namespace Gateway.Lib.Rfc1035

open Gateway.Lib

/-! ## The format -/

/-- A label: 1 to 63 octets. -/
structure Label where
  octets : List Byte
  pos : 0 < octets.length
  le_63 : octets.length ≤ 63

abbrev Name := List Label

structure Question where
  qname : Name
  qtype : BitVec 16
  qclass : BitVec 16

structure Record where
  owner : Name
  rtype : BitVec 16
  rclass : BitVec 16
  ttl : Nat
  rdata : List Byte

structure Message where
  id : BitVec 16
  flags : BitVec 16
  questions : List Question
  answers : List Record
  authority : List Record
  additional : List Record

/-- The QR bit: the message is a response. -/
def Message.qr (m : Message) : Bool := m.flags.getLsbD 15

/-- A 16-bit field, most significant byte first. -/
def be16 (x : BitVec 16) : List Byte := [hiByte x, loByte x]

def Label.wire (l : Label) : List Byte := BitVec.ofNat 8 l.octets.length :: l.octets

/-- The labels of a name, without the closing zero. -/
def labelsWire (n : Name) : List Byte := n.flatMap Label.wire

def nameWire (n : Name) : List Byte := labelsWire n ++ [0]

def Question.wire (q : Question) : List Byte := nameWire q.qname ++ be16 q.qtype ++ be16 q.qclass

/-! ## The decoder -/

/-- The name at `off`, and the offset after it. -/
def decodeName (msg : List Byte) : Nat → Nat → Option (Name × Nat)
  | 0, _ => none
  | fuel + 1, off =>
    match msg.drop off with
    | [] => none
    | b :: rest =>
      if hb : b.toNat = 0 then some ([], off + 1)
      else if h : b.toNat ≤ 63 ∧ b.toNat ≤ rest.length then
        match decodeName msg fuel (off + 1 + b.toNat) with
        | none => none
        | some (n, next) =>
          some (⟨rest.take b.toNat, by rw [List.length_take]; omega,
            by rw [List.length_take]; omega⟩ :: n, next)
      else if 0xC0 ≤ b.toNat then
        match rest with
        | [] => none
        | lo :: _ =>
          let target := 256 * (b.toNat - 0xC0) + lo.toNat
          if target < off then (decodeName msg fuel target).map fun r => (r.1, off + 2)
          else none
      else none

/-- A name of at most 255 octets. With no empty label that is at most 127 labels, so the fuel
leaves a jump before each of them. -/
def decodeOwner (msg : List Byte) (off : Nat) : Option (Name × Nat) :=
  match decodeName msg 256 off with
  | none => none
  | some r => if (nameWire r.1).length ≤ 255 then some r else none

def decodeQuestion (msg : List Byte) (off : Nat) : Option (Question × Nat) :=
  match decodeOwner msg off with
  | none => none
  | some (n, o) =>
    match msg.drop o with
    | t1 :: t0 :: c1 :: c0 :: _ => some (⟨n, le16 t0 t1, le16 c0 c1⟩, o + 4)
    | _ => none

def decodeRecord (msg : List Byte) (off : Nat) : Option (Record × Nat) :=
  match decodeOwner msg off with
  | none => none
  | some (n, o) =>
    match msg.drop o with
    | t1 :: t0 :: c1 :: c0 :: s3 :: s2 :: s1 :: s0 :: l1 :: l0 :: rest =>
      let ttl := ((s3.toNat * 256 + s2.toNat) * 256 + s1.toNat) * 256 + s0.toNat
      let len := (le16 l0 l1).toNat
      if len ≤ rest.length then
        some (⟨n, le16 t0 t1, le16 c0 c1, ttl, rest.take len⟩, o + 10 + len)
      else none
    | _ => none

/-- `k` items in a row. -/
def decodeMany {α : Type} (item : Nat → Option (α × Nat)) : Nat → Nat → Option (List α × Nat)
  | 0, off => some ([], off)
  | k + 1, off =>
    match item off with
    | none => none
    | some (x, o) => (decodeMany item k o).map fun r => (x :: r.1, r.2)

/-- **A whole message**, and the offset after it. -/
def decodeMessage (msg : List Byte) : Option (Message × Nat) :=
  match msg with
  | i1 :: i0 :: f1 :: f0 :: q1 :: q0 :: a1 :: a0 :: n1 :: n0 :: r1 :: r0 :: _ => do
    let (questions, o) ← decodeMany (decodeQuestion msg) (le16 q0 q1).toNat 12
    let (answers, o) ← decodeMany (decodeRecord msg) (le16 a0 a1).toNat o
    let (authority, o) ← decodeMany (decodeRecord msg) (le16 n0 n1).toNat o
    let (additional, o) ← decodeMany (decodeRecord msg) (le16 r0 r1).toNat o
    return (⟨le16 i0 i1, le16 f0 f1, questions, answers, authority, additional⟩, o)
  | _ => none

/-! ## Lemmas -/

theorem drop_after {l a r : List Byte} {off : Nat} (h : l.drop off = a ++ r) :
    l.drop (off + a.length) = r := by
  rw [← List.drop_drop, h, List.drop_append_length]

theorem Label.length_wire (l : Label) : l.wire.length = l.octets.length + 1 := rfl

theorem Label.toNat_head (l : Label) :
    (BitVec.ofNat 8 l.octets.length).toNat = l.octets.length := by
  have := l.le_63
  rw [BitVec.toNat_ofNat]
  omega

theorem labelsWire_cons (l : Label) (n : Name) : labelsWire (l :: n) = l.wire ++ labelsWire n :=
  List.flatMap_cons

theorem length_nameWire (n : Name) : (nameWire n).length = (labelsWire n).length + 1 := by
  unfold nameWire
  rw [List.length_append, List.length_singleton]

theorem nameWire_cons_append (l : Label) (n : Name) (t : List Byte) :
    nameWire (l :: n) ++ t = l.wire ++ (nameWire n ++ t) := by
  unfold nameWire
  rw [labelsWire_cons, List.append_assoc, List.append_assoc, List.append_assoc]

/-- Every label takes at least two octets. -/
theorem two_mul_length_le (n : Name) : 2 * n.length ≤ (labelsWire n).length := by
  induction n with
  | nil => exact Nat.zero_le _
  | cons l n ih =>
    have := l.pos
    rw [labelsWire_cons, List.length_append, l.length_wire, List.length_cons]
    omega

/-- **The decoder undoes the wire form of a name.** -/
theorem decodeName_wire {msg : List Byte} (n : Name) {rest : List Byte} {off : Nat} (fuel : Nat)
    (h : msg.drop off = nameWire n ++ rest) (hf : n.length < fuel) :
    decodeName msg fuel off = some (n, off + (nameWire n).length) := by
  -- every label takes one of the fuel, and the closing zero the last
  obtain ⟨fuel, rfl⟩ : ∃ k, fuel = k + 1 := ⟨fuel - 1, by omega⟩
  induction n generalizing fuel off with
  | nil =>
    have h' : msg.drop off = 0 :: rest := h
    unfold decodeName
    rw [h']
    rfl
  | cons l n ih =>
    rw [List.length_cons] at hf
    obtain ⟨fuel, rfl⟩ : ∃ k, fuel = k + 1 := ⟨fuel - 1, by omega⟩
    have hpos := l.pos
    have hle := l.le_63
    have h' : msg.drop off = l.wire ++ (nameWire n ++ rest) := by
      rw [h, nameWire_cons_append]
    have hnext : msg.drop (off + 1 + l.octets.length) = nameWire n ++ rest := by
      have := drop_after h'
      rwa [l.length_wire, Nat.add_comm l.octets.length 1, ← Nat.add_assoc] at this
    have hn := ih hnext fuel (Nat.lt_of_succ_lt_succ hf)
    rw [decodeName, h']
    simp only [Label.wire, List.cons_append, l.toNat_head, List.length_append]
    rw [dif_neg (by omega), dif_pos ⟨hle, by omega⟩, hn]
    simp only [List.take_append_length, Option.some.injEq, Prod.mk.injEq, true_and]
    rw [length_nameWire, length_nameWire, labelsWire_cons, List.length_append, l.length_wire]
    omega

/-- **A pointer stands for the name it leads to.** -/
theorem decodeName_pointer {msg rest : List Byte} {off fuel next : Nat} {b c : Byte} {n : Name}
    (h : msg.drop off = b :: c :: rest) (hb : 0xC0 ≤ b.toNat)
    (ht : 256 * (b.toNat - 0xC0) + c.toNat < off)
    (hn : decodeName msg fuel (256 * (b.toNat - 0xC0) + c.toNat) = some (n, next)) :
    decodeName msg (fuel + 1) off = some (n, off + 2) := by
  unfold decodeName
  rw [h]
  simp only
  rw [dif_neg (by omega), dif_neg (by omega), if_pos hb, if_pos ht, hn]
  rfl

theorem decodeOwner_of_decodeName {msg : List Byte} {off : Nat} {r : Name × Nat}
    (h : decodeName msg 256 off = some r) (hr : (nameWire r.1).length ≤ 255) :
    decodeOwner msg off = some r := by
  unfold decodeOwner
  rw [h]
  exact if_pos hr

theorem length_lt_of_wire {n : Name} {k : Nat} (h : (nameWire n).length ≤ k) : n.length < k := by
  have := two_mul_length_le n
  rw [length_nameWire] at h
  omega

theorem Question.length_wire (q : Question) :
    q.wire.length = (nameWire q.qname).length + 4 := by
  unfold Question.wire be16
  rw [List.length_append, List.length_append]
  rfl

theorem Question.wire_append (q : Question) (t : List Byte) :
    q.wire ++ t = nameWire q.qname ++ (be16 q.qtype ++ be16 q.qclass ++ t) := by
  unfold Question.wire
  rw [List.append_assoc, List.append_assoc, List.append_assoc]

/-- **The decoder undoes the wire form of a question.** -/
theorem decodeQuestion_wire {msg rest : List Byte} {off : Nat} (q : Question)
    (h : msg.drop off = q.wire ++ rest) (hq : (nameWire q.qname).length ≤ 255) :
    decodeQuestion msg off = some (q, off + q.wire.length) := by
  have h' : msg.drop off = nameWire q.qname ++ (be16 q.qtype ++ be16 q.qclass ++ rest) := by
    rw [h, q.wire_append]
  have hn := decodeName_wire q.qname 256 h' (by have := length_lt_of_wire hq; omega)
  have hd := drop_after h'
  unfold decodeQuestion
  rw [decodeOwner_of_decodeName hn hq, q.length_wire]
  simp only [hd, be16, List.cons_append, List.nil_append, le16_eta]
  rfl

/-- A message is decoded section by section. -/
theorem decodeMessage_of {msg rest : List Byte}
    {i1 i0 f1 f0 q1 q0 a1 a0 n1 n0 r1 r0 : Byte} {qs : List Question} {as ns rs : List Record}
    {oq oa on or : Nat}
    (h : msg = i1 :: i0 :: f1 :: f0 :: q1 :: q0 :: a1 :: a0 :: n1 :: n0 :: r1 :: r0 :: rest)
    (hq : decodeMany (decodeQuestion msg) (le16 q0 q1).toNat 12 = some (qs, oq))
    (ha : decodeMany (decodeRecord msg) (le16 a0 a1).toNat oq = some (as, oa))
    (hn : decodeMany (decodeRecord msg) (le16 n0 n1).toNat oa = some (ns, on))
    (hr : decodeMany (decodeRecord msg) (le16 r0 r1).toNat on = some (rs, or)) :
    decodeMessage msg = some (⟨le16 i0 i1, le16 f0 f1, qs, as, ns, rs⟩, or) := by
  unfold decodeMessage
  subst h
  simp only [bind, Option.bind, hq, ha, hn, hr]
  rfl

theorem decodeMany_one {α : Type} {item : Nat → Option (α × Nat)} {off next : Nat} {x : α}
    (h : item off = some (x, next)) : decodeMany item 1 off = some ([x], next) := by
  unfold decodeMany
  rw [h]
  rfl

/-! ## Appending to a message -/

section Append

variable {msg : List Byte} {off : Nat}

theorem drop_cons_append {b : Byte} {rest : List Byte} (h : msg.drop off = b :: rest)
    (t : List Byte) : (msg ++ t).drop off = b :: (rest ++ t) := by
  have hlt : off ≤ msg.length := by
    by_contra hlt
    rw [List.drop_eq_nil_of_le (by omega)] at h
    exact absurd h (by simp)
  rw [List.drop_append_of_le_length hlt, h]
  rfl

theorem decodeName_append (t : List Byte) {fuel : Nat} {r : Name × Nat}
    (h : decodeName msg fuel off = some r) : decodeName (msg ++ t) fuel off = some r := by
  induction fuel generalizing off r with
  | zero => exact absurd h (by simp [decodeName])
  | succ fuel ih =>
    unfold decodeName at h ⊢
    cases hd : msg.drop off with
    | nil =>
      rw [hd] at h
      exact absurd h (by simp)
    | cons b rest =>
      rw [hd] at h
      rw [drop_cons_append hd t]
      simp only at h ⊢
      by_cases hz : b.toNat = 0
      · rw [dif_pos hz] at h ⊢
        exact h
      · rw [dif_neg hz] at h ⊢
        by_cases hlab : b.toNat ≤ 63 ∧ b.toNat ≤ rest.length
        · rw [dif_pos hlab] at h
          rw [dif_pos ⟨hlab.1, by rw [List.length_append]; omega⟩]
          cases hn : decodeName msg fuel (off + 1 + b.toNat) with
          | none =>
            rw [hn] at h
            exact absurd h (by simp)
          | some n =>
            rw [hn] at h
            simp only [ih hn, List.take_append_of_le_length hlab.2]
            exact h
        · rw [dif_neg hlab] at h
          by_cases hptr : 0xC0 ≤ b.toNat
          · rw [dif_neg (by omega), if_pos hptr]
            rw [if_pos hptr] at h
            cases rest with
            | nil => exact absurd h (by simp)
            | cons lo rest =>
              simp only [List.cons_append] at h ⊢
              by_cases ht : 256 * (b.toNat - 0xC0) + lo.toNat < off
              · rw [if_pos ht] at h ⊢
                obtain ⟨r', hr', rfl⟩ := Option.map_eq_some_iff.mp h
                rw [ih hr']
                rfl
              · rw [if_neg ht] at h
                exact absurd h (by simp)
          · rw [if_neg hptr] at h
            exact absurd h (by simp)

theorem decodeOwner_append (t : List Byte) {r : Name × Nat} (h : decodeOwner msg off = some r) :
    decodeOwner (msg ++ t) off = some r := by
  unfold decodeOwner at h ⊢
  cases hn : decodeName msg 256 off with
  | none =>
    rw [hn] at h
    exact absurd h (by simp)
  | some n =>
    rw [hn] at h
    rw [decodeName_append t hn]
    exact h

/-- **Appending to a message keeps its records.** -/
theorem decodeRecord_append (t : List Byte) {r : Record × Nat}
    (h : decodeRecord msg off = some r) : decodeRecord (msg ++ t) off = some r := by
  unfold decodeRecord at h ⊢
  cases hn : decodeOwner msg off with
  | none =>
    rw [hn] at h
    exact absurd h (by simp)
  | some n =>
    rw [hn] at h
    rw [decodeOwner_append t hn]
    simp only at h ⊢
    split at h
    · rename_i t1 t0 c1 c0 s3 s2 s1 s0 l1 l0 rest hd
      rw [drop_cons_append hd t]
      simp only [List.cons_append]
      by_cases hlen : (le16 l0 l1).toNat ≤ rest.length
      · rw [if_pos hlen] at h
        rw [if_pos (by rw [List.length_append]; omega), List.take_append_of_le_length hlen]
        exact h
      · rw [if_neg hlen] at h
        exact absurd h (by simp)
    · exact absurd h (by simp)

end Append

section Many

variable {α : Type} {item item' : Nat → Option (α × Nat)}

theorem decodeMany_mono (h : ∀ off r, item off = some r → item' off = some r) {k off : Nat}
    {r : List α × Nat} (hk : decodeMany item k off = some r) :
    decodeMany item' k off = some r := by
  induction k generalizing off r with
  | zero => exact hk
  | succ k ih =>
    unfold decodeMany at hk ⊢
    cases hi : item off with
    | none =>
      rw [hi] at hk
      exact absurd hk (by simp)
    | some x =>
      rw [hi] at hk
      rw [h off x hi]
      obtain ⟨r', hr', rfl⟩ := Option.map_eq_some_iff.mp hk
      simp only [ih hr', Option.map_some]

/-- **Items in a row split anywhere.** -/
theorem decodeMany_add {j k off next : Nat} {xs : List α} :
    decodeMany item (j + k) off = some (xs, next) ↔
      ∃ ys o zs, decodeMany item j off = some (ys, o) ∧ decodeMany item k o = some (zs, next) ∧
        xs = ys ++ zs := by
  induction j generalizing off xs with
  | zero =>
    rw [Nat.zero_add]
    constructor
    · intro h
      exact ⟨[], off, xs, rfl, h, rfl⟩
    · rintro ⟨ys, o, zs, hy, hz, rfl⟩
      cases hy
      exact hz
  | succ j ih =>
    simp only [Nat.succ_add, decodeMany]
    cases hi : item off with
    | none => simp
    | some x =>
      simp only [Option.map_eq_some_iff, Prod.mk.injEq, Prod.exists]
      constructor
      · rintro ⟨ys', n, h, rfl, rfl⟩
        obtain ⟨ys, o, zs, hy, hz, rfl⟩ := ih.mp h
        exact ⟨x.1 :: ys, o, zs, ⟨ys, o, hy, rfl, rfl⟩, hz, rfl⟩
      · rintro ⟨ys', o, zs, ⟨ys, o', hy, rfl, rfl⟩, hz, rfl⟩
        exact ⟨ys ++ zs, next, ih.mpr ⟨ys, o', zs, hy, hz, rfl⟩, rfl, rfl⟩

theorem length_decodeMany {k off next : Nat} {xs : List α}
    (h : decodeMany item k off = some (xs, next)) : xs.length = k := by
  induction k generalizing off xs with
  | zero =>
    cases h
    rfl
  | succ k ih =>
    unfold decodeMany at h
    cases hi : item off with
    | none =>
      rw [hi] at h
      exact absurd h (by simp)
    | some x =>
      rw [hi] at h
      obtain ⟨r, hr, heq⟩ := Option.map_eq_some_iff.mp h
      cases heq
      rw [List.length_cons, ih hr]

end Many

end Gateway.Lib.Rfc1035
