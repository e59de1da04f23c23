import Gateway.Dns.Exchange
import Gateway.Dns.Query

/-!
# Several questions, and questions cut short

`cur_qd_ptr` and `cur_ans_ptr` are never advanced, and nothing marks the end of the request in the
zero-filled buffer.

* **`one_answer_slot`**: past one slot after the request the reply is zero, so no query with two or
  more questions gets an answer for each.
* `NameAt`, `QuestionsAt`: a zero-terminated name, and questions in a row, that lie inside the bytes
  received. `skipName_iff`, `skipQuestions_iff`: the scanners that find them.
* **`complete_iff`**: only complete datagrams are answered, exactly if the datagram is turned away
  or the scan over its questions stays inside it.
-/

namespace Gateway.Dns

open Gateway.Lib Gateway.Lib.Rfc1035

variable {netif : Option Ip4} {ipInfo : Ip4}

/-! ## Several questions -/

/-- A question and the offset its name starts at. -/
def decodeQuestionAt (msg : List Byte) (off : Nat) : Option ((Nat × Question) × Nat) :=
  (decodeQuestion msg off).map fun r => ((off, r.1), r.2)

/-- A query of at most 127 bytes with two or more type-A questions under different names and no
other section, whose flags are taken and whose answers would fit. -/
structure MultiQuery where
  bytes : List Byte
  questions : List (Nat × Question)
  decodes : decodeMany (decodeQuestionAt bytes) questions.length headerLen =
    some (questions, bytes.length)
  two_le : 2 ≤ questions.length
  count : qdCount bytes = questions.length
  noOther : slice bytes 6 6 = List.replicate 6 0
  std : byteAt bytes 3 &&& 0x78#8 = 0
  typeA : ∀ x ∈ questions, x.2.qtype = qdTypeA
  distinct : (questions.map fun x => x.2.qname).Nodup
  short : bytes.length ≤ 127
  fits : bytes.length + 16 * questions.length ≤ 256

/-- The answer record at `pos` in a reply of `r` bytes is the one for the question. -/
def AnsweredAt (q : MultiQuery) (r : Nat) (reply : List Byte) (pos : Nat) (x : Nat × Question) :
    Prop :=
  q.bytes.length ≤ pos ∧ pos + 16 ≤ r ∧
    slice reply pos 6 =
      be16 (0xC000#16 ||| BitVec.ofNat 16 x.1) ++ be16 x.2.qtype ++ be16 x.2.qclass

/-- The reply holds one answer record for each question, and no two of them overlap. -/
def AllAnswered (q : MultiQuery) (r : Int) (reply : List Byte) : Prop :=
  r = ((q.bytes.length + 16 * q.questions.length : Nat) : Int) ∧
    ∃ pos : List Nat, List.Forall₂ (AnsweredAt q r.toNat reply) pos q.questions ∧
      pos.Pairwise fun a b => a + 16 ≤ b ∨ b + 16 ≤ a

/-- The first byte of a compression pointer is not zero. -/
theorem hiByte_pointer (x : BitVec 16) : hiByte (0xC000#16 ||| x) ≠ 0 := by
  have hsplit : 0xC000#16 ||| x = le16 (0 ||| loByte x) (0xC0#8 ||| hiByte x) := by
    rw [← le16_or, le16_eta]
    rfl
  have hne : ∀ b : Byte, 0xC0#8 ||| b ≠ 0 := by decide
  rw [hsplit, hiByte_le16]
  exact hne _

/-- An answer record starts in the one slot after the request. -/
theorem AnsweredAt.lt_slot {q : MultiQuery} {r : Nat} {reply : List Byte} {pos : Nat}
    {x : Nat × Question} (hzero : ∀ i, q.bytes.length + answerLen ≤ i → byteAt reply i = 0)
    (h : AnsweredAt q r reply pos x) : pos < q.bytes.length + answerLen := by
  by_contra hge
  have h0 : byteAt (slice reply pos 6) 0 = byteAt reply pos := by
    unfold slice
    rw [byteAt_take (by decide), byteAt_drop, Nat.add_zero]
  have hhead : byteAt reply pos = hiByte (0xC000#16 ||| BitVec.ofNat 16 x.1) := by
    rw [← h0, h.2.2]
    rfl
  exact hiByte_pointer _ (hhead.symm.trans (hzero pos (Nat.le_of_not_lt hge)))

/-- Past the slot, a reply is zero. -/
theorem byteAt_respond_past {req : List Byte} (h : req.length ≤ dnsMaxLen)
    (hpos : 0 < (respond netif ipInfo req).1) (h12 : headerLen ≤ req.length) {i : Nat}
    (hi : req.length + answerLen ≤ i) : byteAt (respond netif ipInfo req).2 i = 0 := by
  rw [(respond_snd h hpos).above i hi, byteAt_start h (by omega), byteAt_padded_of_le (by omega)]

/-- A decoded message with a question holds a header. -/
theorem MultiQuery.header_le (q : MultiQuery) : headerLen ≤ q.bytes.length := by
  have hd := q.decodes
  have htwo := q.two_le
  cases hk : q.questions.length with
  | zero => omega
  | succ k =>
    rw [hk] at hd
    by_contra hlt
    have hnil : q.bytes.drop headerLen = [] := List.drop_eq_nil_of_le (by omega)
    have hnone : decodeQuestionAt q.bytes headerLen = none := by
      unfold decodeQuestionAt decodeQuestion decodeOwner decodeName
      rw [hnil]
      rfl
    unfold decodeMany at hd
    rw [hnone] at hd
    exact absurd hd (by simp)

/-- **No query with several questions is answered in full**: the reply does not hold a record for
each of them, whatever their names. -/
theorem one_answer_slot (netif : Option Ip4) (ipInfo : Ip4) (q : MultiQuery)
    (dnsReply : Buf dnsMaxLen) (name : Buf nameMaxLen) :
    ¬ ∃ r reply, parseDnsRequest netif ipInfo q.bytes dnsReply name = .ok (r, reply) ∧
      AllAnswered q r reply.bytes := by
  rintro ⟨r, reply, hr, hval, pos, hall, hdisj⟩
  have htwo := q.two_le
  obtain ⟨hle, hresp⟩ := respond_of_parse hr (by omega)
  have hzero : ∀ i, q.bytes.length + answerLen ≤ i → byteAt reply.bytes i = 0 := by
    intro i hi
    have := byteAt_respond_past hle (by rw [hresp]; show 0 < r; omega) q.header_le hi
    rwa [hresp] at this
  -- of two records that do not overlap, one starts past the slot
  generalize q.questions = qs at hall htwo
  cases hall with
  | nil => exact absurd htwo (by simp)
  | cons h1 hrest =>
    cases hrest with
    | nil => exact absurd htwo (by simp)
    | cons h2 _ =>
      have hlt1 := h1.lt_slot hzero
      have hlt2 := h2.lt_slot hzero
      have hge1 := h1.1
      have hge2 := h2.1
      have hpair := (List.pairwise_cons.mp hdisj).1 _ List.mem_cons_self
      unfold answerLen at hlt1 hlt2
      omega

/-- A query for the names `a` and `b`. -/
def queryAB : MultiQuery where
  bytes := [0, 1, 0, 0, 0, 2, 0, 0, 0, 0, 0, 0, 1, 0x61, 0, 0, 1, 0, 1, 1, 0x62, 0, 0, 1, 0, 1]
  questions :=
    [(12, ⟨[labelA], qdTypeA, 1⟩), (19, ⟨[⟨[0x62], by decide, by decide⟩], qdTypeA, 1⟩)]
  decodes := rfl
  two_le := by decide
  count := by decide
  noOther := by decide
  std := by decide
  typeA := by simp
  distinct := by simp [labelA]
  short := by decide
  fits := by decide

/-- The reply to it. -/
def replyAB : List Byte :=
  [0, 1, 0x80, 0, 0, 2, 0, 2, 0, 0, 0, 0, 1, 0x61, 0, 0, 1, 0, 1, 1, 0x62, 0, 0, 1, 0, 1] ++ slotA

/-- Both rounds write the answer for `a`; no record points to `b`. -/
theorem one_answer_queryAB :
    ∃ reply, parseDnsRequest (some apIp) apIp queryAB.bytes (Buf.fill dnsMaxLen 7)
        (Buf.fill nameMaxLen 7) = .ok (58, reply) ∧ ¬ AllAnswered queryAB 58 reply.bytes := by
  refine ⟨Buf.ofList dnsMaxLen replyAB, by decide +kernel, ?_⟩
  rintro ⟨-, pos, hall, -⟩
  have hnone : ∀ p < 58, slice (Buf.ofList dnsMaxLen replyAB).bytes p 6 ≠
      [0xC0, 19, 0, 1, 0, 1] := by decide +kernel
  rcases hall with _ | ⟨-, _ | ⟨⟨-, hin, hb⟩, -⟩⟩
  exact hnone _ (by omega) hb

/-! ## Questions cut short -/

/-- A zero-terminated name of `req` from one offset to another. -/
inductive NameAt (req : List Byte) : Nat → Nat → Prop
  | root {off : Nat} (hlt : off < req.length) (hz : byteAt req off = 0) : NameAt req off (off + 1)
  | label {off e : Nat} (hlt : off < req.length) (hz : byteAt req off ≠ 0)
      (hrest : NameAt req (off + ((byteAt req off).toNat + 1)) e) : NameAt req off e

/-- So many questions in a row, each a name, a type and a class, inside `req`. -/
inductive QuestionsAt (req : List Byte) : Nat → Nat → Prop
  | nil {off : Nat} : QuestionsAt req 0 off
  | cons {k off e : Nat} (hname : NameAt req off e) (hfit : e + 4 ≤ req.length)
      (hrest : QuestionsAt req k (e + 4)) : QuestionsAt req (k + 1) off

/-- The datagram holds a header, and the bytes received of it all the questions announced. -/
def Complete (d : List Byte) : Prop :=
  headerLen ≤ d.length ∧
    QuestionsAt (d.take (rxLen - 1)) (qdCount (padded (d.take (rxLen - 1)))) headerLen

/-- The end of the name at `off`. -/
def skipName (req : List Byte) : Nat → Nat → Option Nat
  | 0, _ => none
  | fuel + 1, off =>
    if req.length ≤ off then none
    else if byteAt req off = 0 then some (off + 1)
    else skipName req fuel (off + ((byteAt req off).toNat + 1))

/-- The end of `k` questions at `off`. -/
def skipQuestions (req : List Byte) : Nat → Nat → Option Nat
  | 0, off => some off
  | k + 1, off =>
    match skipName req (req.length + 1) off with
    | none => none
    | some e => if e + 4 ≤ req.length then skipQuestions req k (e + 4) else none

theorem skipName_iff {req : List Byte} {fuel off e : Nat} (hf : req.length < fuel + off) :
    skipName req fuel off = some e ↔ NameAt req off e := by
  constructor
  · intro h
    induction fuel generalizing off with
    | zero => exact absurd h (by simp [skipName])
    | succ fuel ih =>
      unfold skipName at h
      split_ifs at h with hlen hz
      · cases h
        exact .root (Nat.lt_of_not_le hlen) hz
      · exact .label (Nat.lt_of_not_le hlen) hz (ih (by omega) h)
  · intro h
    induction h generalizing fuel with
    | @root off hlt hz =>
      obtain ⟨fuel, rfl⟩ : ∃ k, fuel = k + 1 := ⟨fuel - 1, by omega⟩
      unfold skipName
      rw [if_neg (by omega), if_pos hz]
    | @label off e hlt hz _ ih =>
      obtain ⟨fuel, rfl⟩ : ∃ k, fuel = k + 1 := ⟨fuel - 1, by omega⟩
      unfold skipName
      rw [if_neg (by omega), if_neg hz]
      exact ih (by omega)

/-- **The scan finds the questions**, if they are there. -/
theorem skipQuestions_iff {req : List Byte} {k off : Nat} :
    (skipQuestions req k off).isSome ↔ QuestionsAt req k off := by
  induction k generalizing off with
  | zero => exact ⟨fun _ => .nil, fun _ => rfl⟩
  | succ k ih =>
    unfold skipQuestions
    constructor
    · intro h
      cases hn : skipName req (req.length + 1) off with
      | none =>
        rw [hn] at h
        exact absurd h (by simp)
      | some e =>
        rw [hn] at h
        simp only at h
        split_ifs at h with hfit
        · exact .cons ((skipName_iff (by omega)).mp hn) hfit (ih.mp h)
        · exact absurd h (by simp)
    · rintro (_ | ⟨hname, hfit, hrest⟩)
      rw [(skipName_iff (by omega)).mpr hname]
      simp only [if_pos hfit]
      exact ih.mpr hrest

/-- The scan over the questions announced stays inside the bytes received. -/
def ScanInside (d : List Byte) : Prop :=
  headerLen ≤ d.length ∧
    (skipQuestions (d.take (rxLen - 1)) (qdCount (padded (d.take (rxLen - 1)))) headerLen).isSome

instance (d : List Byte) : Decidable (ScanInside d) := inferInstanceAs (Decidable (_ ∧ _))

/-- A reply is sent unless one of the tests turns the datagram away. -/
theorem sent_iff (netif : Option Ip4) (loc : Locals) (d : List Byte) :
    (∃ p, serveDatagram netif loc d = .ok (some p)) ↔ ¬ Rejected d := by
  rw [← replyTo_none_iff netif loc.ipInfo, serveDatagram_ok]
  cases replyTo netif loc.ipInfo d with
  | none => simp
  | some p => simp

/-- **When only complete datagrams are answered.** For a datagram of any length: a reply is sent
only if the datagram holds a full header and, in the bytes received, all the questions it
announces, if and only if it is turned away or the scan over its questions stays inside. -/
theorem complete_iff (netif : Option Ip4) (loc : Locals) (d : List Byte) :
    ((∃ p, serveDatagram netif loc d = .ok (some p)) → Complete d) ↔
      Rejected d ∨ ScanInside d := by
  unfold Complete ScanInside
  rw [sent_iff, skipQuestions_iff]
  by_cases hrej : Rejected d
  · simp only [hrej, not_true_eq_false, false_imp_iff, true_or]
  · simp only [hrej, not_false_eq_true, true_imp_iff, false_or]

/-- A header that announces one question, and nothing after it, is answered. -/
theorem complete_headerOnly :
    (∃ p, serveDatagram (some apIp) .zero [0, 1, 0, 0, 0, 1, 0, 0, 0, 0, 0, 0] = .ok (some p)) ∧
      ¬ Complete [0, 1, 0, 0, 0, 1, 0, 0, 0, 0, 0, 0] := by
  refine ⟨(sent_iff _ _ _).mpr (by decide +kernel), ?_⟩
  rintro ⟨-, h⟩
  exact absurd (skipQuestions_iff.mpr h) (by decide +kernel)

end Gateway.Dns
