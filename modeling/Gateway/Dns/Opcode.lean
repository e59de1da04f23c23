import Gateway.Dns.Query

/-!
# Which header bits decide

`OPCODE_MASK` is written for the flags word in host order, and `header->flags` is tested in network
order: on a little-endian CPU the mask falls on the second flags byte. The bits it tests are Z, AD,
CD and the high bit of RCODE; OPCODE is never looked at.

* `notStandard_iff`, `answered_iff`: the two outcomes, in terms of these bits.
* **`opcode_iff`**: the exit is taken on OPCODE, and the other bits do not matter, exactly where the
  tested bits happen to agree.
-/

namespace Gateway.Dns

open Gateway.Lib

/-- OPCODE on the wire: bits 6 to 3 of header byte 2. -/
def opcode (flags2 : Byte) : BitVec 4 := flags2.extractLsb' 3 4

/-- The bits the mask reaches: bits 6 to 3 of header byte 3. -/
def testedBits (flags3 : Byte) : BitVec 4 := flags3.extractLsb' 3 4

theorem testedBits_eq_zero_iff (b : Byte) : testedBits b = 0 ↔ b &&& 0x78#8 = 0 := by
  revert b
  decide

section Outcomes

variable (netif : Option Ip4) (ipInfo : Ip4) (req : List Byte) (dnsReply : Buf dnsMaxLen)
  (name : Buf nameMaxLen)

/-- The exit for what is not a standard query. -/
def NotStandard : Prop := ∃ reply, parseDnsRequest netif ipInfo req dnsReply name = .ok (0, reply)

/-- A reply is sent. -/
def Answered : Prop :=
  ∃ r reply, parseDnsRequest netif ipInfo req dnsReply name = .ok (r, reply) ∧ 0 < r

end Outcomes

namespace Query

/-- The query under other flag bytes. -/
def withFlags (q : Query) (flags2 flags3 : Byte) : Query :=
  { q with flags2 := flags2, flags3 := flags3 }

/-- The reply fits and the name parses. -/
def Answerable (q : Query) : Prop :=
  q.wire.length + answerLen ≤ dnsMaxLen ∧ nameWalk (padded q.wire) headerLen ≠ none

instance (q : Query) : Decidable q.Answerable := inferInstanceAs (Decidable (_ ∧ _))

/-- The flags do not reach the question. -/
theorem answerable_withFlags (q : Query) (flags2 flags3 : Byte) :
    (q.withFlags flags2 flags3).Answerable ↔ q.Answerable := by
  have hlen : (q.withFlags flags2 flags3).wire.length = q.wire.length := rfl
  have hdrop : (padded (q.withFlags flags2 flags3).wire).drop headerLen =
      (padded q.wire).drop headerLen := rfl
  have hwalk : nameWalk (padded (q.withFlags flags2 flags3).wire) headerLen =
      nameWalk (padded q.wire) headerLen := by
    unfold nameWalk
    simp only [← byteAt_drop, hdrop]
  unfold Answerable
  rw [hlen, hwalk]

end Query

variable (netif : Option Ip4) (ipInfo : Ip4) (q : Query) (dnsReply : Buf dnsMaxLen)
  (name : Buf nameMaxLen)

/-- The `int` returned for a query. -/
def Query.result (q : Query) : Int :=
  if dnsMaxLen < q.wire.length then -1
  else if testedBits q.flags3 ≠ 0 then 0
  else if q.Answerable then ((q.wire.length + answerLen : Nat) : Int)
  else -1

theorem respond_fst_query (h : q.wire.length ≤ dnsMaxLen) :
    (respond netif ipInfo q.wire).1 = q.result := by
  unfold Query.result
  rw [respond_fst netif ipInfo h, q.flags3_wire, q.qdCount_wire, Nat.one_mul,
    Nat.add_comm answerLen, if_neg (Nat.not_lt.mpr h)]
  by_cases hop : testedBits q.flags3 = 0
  · have hop' := (testedBits_eq_zero_iff q.flags3).mp hop
    rw [if_neg (not_not.mpr hop), if_neg (not_not.mpr hop')]
    by_cases hbig : dnsMaxLen < q.wire.length + answerLen
    · rw [if_pos hbig, if_neg fun ha => absurd ha.1 (Nat.not_le.mpr hbig)]
    · rw [if_neg hbig]
      by_cases hw : nameWalk (padded q.wire) headerLen = none
      · rw [if_neg (by rw [hw]; decide), if_neg fun ha => ha.2 hw]
      · rw [if_pos (Or.inr hw), if_pos ⟨Nat.le_of_not_lt hbig, hw⟩]
  · have hop' : q.flags3 &&& 0x78#8 ≠ 0 := fun h0 => hop ((testedBits_eq_zero_iff q.flags3).mpr h0)
    rw [if_pos hop, if_pos hop']

/-- **What is returned for a query**, of any length. -/
theorem parseDnsRequest_query :
    ∃ reply, parseDnsRequest netif ipInfo q.wire dnsReply name = .ok (q.result, reply) := by
  by_cases h : dnsMaxLen < q.wire.length
  · refine ⟨dnsReply, ?_⟩
    unfold Query.result
    rw [parseDnsRequest_long h, if_pos h]
  · obtain ⟨reply, hr, -⟩ :=
      parseDnsRequest_ok netif ipInfo (Nat.le_of_not_lt h) dnsReply name
    rw [respond_fst_query netif ipInfo q (Nat.le_of_not_lt h)] at hr
    exact ⟨reply, hr⟩

/-- **The exit is taken on the tested bits.** -/
theorem notStandard_iff : NotStandard netif ipInfo q.wire dnsReply name ↔
    testedBits q.flags3 ≠ 0 ∧ q.wire.length ≤ dnsMaxLen := by
  obtain ⟨reply, hr⟩ := parseDnsRequest_query netif ipInfo q dnsReply name
  have hzero : NotStandard netif ipInfo q.wire dnsReply name ↔ q.result = 0 := by
    unfold NotStandard
    rw [hr]
    constructor
    · rintro ⟨reply', heq⟩
      exact congrArg Prod.fst (Except.ok.inj heq)
    · intro h0
      exact ⟨reply, by rw [h0]⟩
  rw [hzero]
  unfold Query.result
  split_ifs with hbig hop ha
  · exact ⟨fun h => absurd h (by decide), fun h => absurd h.2 (Nat.not_le.mpr hbig)⟩
  · exact ⟨fun _ => ⟨hop, Nat.le_of_not_lt hbig⟩, fun _ => rfl⟩
  · have hpos : 0 < q.wire.length + answerLen := Nat.add_pos_right _ (by decide)
    exact ⟨fun h => by omega, fun h => absurd h.1 hop⟩
  · exact ⟨fun h => absurd h (by decide), fun h => absurd h.1 hop⟩

/-- **A reply is sent** when they are clear and the query can be answered. -/
theorem answered_iff : Answered netif ipInfo q.wire dnsReply name ↔
    testedBits q.flags3 = 0 ∧ q.Answerable := by
  obtain ⟨reply, hr⟩ := parseDnsRequest_query netif ipInfo q dnsReply name
  have hpos : Answered netif ipInfo q.wire dnsReply name ↔ 0 < q.result := by
    unfold Answered
    rw [hr]
    constructor
    · rintro ⟨r, reply', heq, h0⟩
      have hr' : q.result = r := congrArg Prod.fst (Except.ok.inj heq)
      rwa [hr']
    · intro h0
      exact ⟨_, reply, rfl, h0⟩
  rw [hpos]
  unfold Query.result
  split_ifs with hbig hop ha
  · refine ⟨fun h => absurd h (by decide), fun h => ?_⟩
    have hfit := h.2.1
    omega
  · exact ⟨fun h => absurd h (by decide), fun h => absurd h.1 hop⟩
  · refine ⟨fun _ => ⟨not_not.mp hop, ha⟩, fun _ => ?_⟩
    exact Int.natCast_pos.mpr (Nat.add_pos_right _ (by decide))
  · exact ⟨fun h => absurd h (by decide), fun h => absurd h.2 ha⟩

/-- **OPCODE decides exactly where the tested bits agree with it.** For every message with one
question, of any length and with any header bits: the exit for what is not a standard query is
taken for a nonzero OPCODE and only then, if and only if the tested bits are set, in a message that
fits the buffer, just when OPCODE is nonzero. And the message under other flags of the same OPCODE
is answered alike if and only if the tested bits are clear in both or in neither, or it cannot be
answered at all. -/
theorem opcode_iff :
    ((NotStandard netif ipInfo q.wire dnsReply name ↔ opcode q.flags2 ≠ 0) ↔
      ((testedBits q.flags3 ≠ 0 ∧ q.wire.length ≤ dnsMaxLen) ↔ opcode q.flags2 ≠ 0)) ∧
    ∀ flags2 flags3, opcode flags2 = opcode q.flags2 →
      ((Answered netif ipInfo q.wire dnsReply name ↔
          Answered netif ipInfo (q.withFlags flags2 flags3).wire dnsReply name) ↔
        ((testedBits q.flags3 = 0 ↔ testedBits flags3 = 0) ∨ ¬ q.Answerable)) := by
  refine ⟨by rw [notStandard_iff], fun flags2 flags3 _ => ?_⟩
  rw [answered_iff, answered_iff, Query.answerable_withFlags]
  show (_ ↔ testedBits flags3 = 0 ∧ _) ↔ _
  by_cases ha : q.Answerable
  · simp only [ha, and_true, not_true_eq_false, or_false]
  · simp only [ha, and_false, not_false_eq_true, or_true]

/-- Only recursion desired: standard, and answered like the query without it. -/
theorem opcode_iff_rd :
    (NotStandard (some apIp) apIp (queryFor qdTypeA).wire (Buf.fill dnsMaxLen 7)
        (Buf.fill nameMaxLen 7) ↔ opcode 0 ≠ 0) ∧
      (Answered (some apIp) apIp (queryFor qdTypeA).wire (Buf.fill dnsMaxLen 7)
          (Buf.fill nameMaxLen 7) ↔
        Answered (some apIp) apIp ((queryFor qdTypeA).withFlags 1 0).wire (Buf.fill dnsMaxLen 7)
          (Buf.fill nameMaxLen 7)) := by
  obtain ⟨hexit, hbits⟩ := opcode_iff (some apIp) apIp (queryFor qdTypeA) (Buf.fill dnsMaxLen 7)
    (Buf.fill nameMaxLen 7)
  exact ⟨hexit.mpr (by decide), (hbits 1 0 (by decide)).mpr (Or.inl Iff.rfl)⟩

/-- A standard query with AD set takes the exit, and a STATUS request, OPCODE 2, is answered. -/
theorem opcode_ignored :
    opcode ((queryFor qdTypeA).withFlags 1 0x20).flags2 = 0 ∧
      NotStandard (some apIp) apIp ((queryFor qdTypeA).withFlags 1 0x20).wire
        (Buf.fill dnsMaxLen 7) (Buf.fill nameMaxLen 7) ∧
      opcode ((queryFor qdTypeA).withFlags 0x10 0).flags2 ≠ 0 ∧
      Answered (some apIp) apIp ((queryFor qdTypeA).withFlags 0x10 0).wire
        (Buf.fill dnsMaxLen 7) (Buf.fill nameMaxLen 7) := by
  refine ⟨by decide, ?_, by decide, ?_⟩
  · rw [notStandard_iff]
    decide
  · rw [answered_iff]
    decide +kernel

end Gateway.Dns
