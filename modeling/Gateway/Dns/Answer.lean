import Gateway.Dns.Query

/-!
# The reply to a type-A query decodes to its answer

`AQuery` is a query datagram with one question of type A: any id and header bits except the ones
`parse_dns_request` tests, any class, and a name of at least one label. `parseDnsRequest_answers`
runs `parse_dns_request` on its wire form and decodes the reply with the RFC 1035 decoder.

* `AQuery.toQuery`: it is a `Query` with nothing after the question.
* `respond_fst_aQuery`: it is accepted.
-/

namespace Gateway.Dns

open Gateway.Lib Gateway.Lib.Rfc1035

/-! ## Queries -/

/-- A query of one type-A question, with no other records, that fits the receive buffer. -/
structure AQuery where
  id : BitVec 16
  flags2 : Byte
  flags3 : Byte
  anCount : BitVec 16
  qname : Name
  qclass : BitVec 16
  std : flags3 &&& 0x78#8 = 0
  nonRoot : qname ≠ []
  fits : headerLen + (nameWire qname).length + 4 < rxLen

namespace AQuery

def question (q : AQuery) : Question := ⟨q.qname, qdTypeA, q.qclass⟩

/-- A header with the given flag bytes and answer count, `qd_count = 1` and no other records. -/
def header (q : AQuery) (flags2 : Byte) (anCount : BitVec 16) : List Byte :=
  be16 q.id ++ [flags2, q.flags3] ++ be16 1#16 ++ be16 anCount ++ be16 0#16 ++ be16 0#16

/-- The datagram. -/
def wire (q : AQuery) : List Byte := q.header q.flags2 q.anCount ++ q.question.wire

/-- The datagram with QR and the answer count set. -/
def replied (q : AQuery) : List Byte := q.header (q.flags2 ||| 0x80#8) 1#16 ++ q.question.wire

/-- A query for the name `a`: id 1, class IN. -/
instance : Inhabited AQuery :=
  ⟨⟨1, 0, 0, 0, [labelA], 1, by decide, by simp, by decide⟩⟩

example : (default : AQuery).wire =
    [0, 1, 0, 0, 0, 1, 0, 0, 0, 0, 0, 0, 1, 0x61, 0, 0, 1, 0, 1] := by
  decide

variable (q : AQuery)

/-- The query as one with nothing after its question. -/
def toQuery (q : AQuery) : Query where
  id := q.id
  flags2 := q.flags2
  flags3 := q.flags3
  anCount := q.anCount
  nsCount := 0#16
  arCount := 0#16
  question := q.question
  rest := []
  name_le := by
    have hfit := q.fits
    unfold rxLen at hfit
    show (nameWire q.qname).length ≤ 255
    omega

theorem wire_toQuery : q.toQuery.wire = q.wire := by
  unfold Query.wire Query.body
  show q.toQuery.header q.flags2 q.anCount ++ (q.question.wire ++ []) = _
  rw [List.append_nil]
  rfl

theorem length_wire : q.wire.length = headerLen + (nameWire q.qname).length + 4 := by
  unfold wire
  rw [List.length_append, q.question.length_wire]
  rfl

theorem length_lt : q.wire.length < rxLen := by
  rw [q.length_wire]
  exact q.fits

end AQuery

/-- A type-A query is accepted. -/
theorem respond_fst_aQuery (netif : Option Ip4) (ipInfo : Ip4) (q : AQuery) :
    0 < (respond netif ipInfo q.wire).1 := by
  have hlt := q.length_lt
  unfold rxLen at hlt
  have hle : q.wire.length ≤ dnsMaxLen := by
    unfold dnsMaxLen
    omega
  have hfit := q.fits
  have hname := length_nameWire q.qname
  have hshort : ¬ nameMaxLen < (labelsWire q.toQuery.question.qname).length := by
    show ¬ nameMaxLen < (labelsWire q.qname).length
    unfold rxLen headerLen at hfit
    unfold nameMaxLen
    omega
  have hstd : ¬ (q.toQuery.flags3 &&& 0x78#8 ≠ 0) := not_not.mpr q.std
  rw [← q.wire_toQuery] at hle hlt ⊢
  rw [respond_fst netif ipInfo hle, q.toQuery.flags3_wire, q.toQuery.qdCount_wire,
    nameWalk_question q.toQuery.drop_padded q.nonRoot, if_neg hshort,
    if_neg hstd, if_neg (by unfold answerLen dnsMaxLen; omega),
    if_pos (Or.inr (by simp))]
  unfold answerLen
  omega

theorem getLsbD_qr (lo hi : Byte) : (le16 hi (lo ||| 0x80#8)).getLsbD 15 = true := by
  unfold le16
  rw [BitVec.getLsbD_append]
  simp

/-- **A type-A query is answered.** `parse_dns_request` returns `len + 16`, and the RFC 1035
decoder consumes these bytes and finds the query's id, QR set, the query's question, and one
answer for its name: type A, the question's class, a TTL of 300, the softAP address. -/
theorem parseDnsRequest_answers (q : AQuery) (ip ipInfo : Ip4) (dnsReply : Buf dnsMaxLen)
    (name : Buf nameMaxLen) :
    ∃ reply m, parseDnsRequest (some ip) ipInfo q.wire dnsReply name =
        .ok (((q.wire.length + 16 : Nat) : Int), reply) ∧
      decodeMessage (reply.bytes.take (q.wire.length + 16)) = some (m, q.wire.length + 16) ∧
      m.id = q.id ∧ m.qr = true ∧ m.questions = [⟨q.qname, qdTypeA, q.qclass⟩] ∧
      m.answers = [⟨q.qname, qdTypeA, q.qclass, 300, ip.octets⟩] ∧
      m.authority = [] ∧ m.additional = [] := by
  have hfit : q.toQuery.wire.length ≤ dnsMaxLen := by
    rw [q.wire_toQuery]
    exact Nat.le_of_lt (Nat.lt_trans q.length_lt (by decide))
  have hpos := respond_fst_aQuery (some ip) ipInfo q
  rw [← q.wire_toQuery] at hpos ⊢
  obtain ⟨reply, hr, -⟩ := parseDnsRequest_ok (some ip) ipInfo hfit dnsReply name
  obtain ⟨-, -, hval, -, htake⟩ := reply_query hr hpos
  have hslot : q.toQuery.slot (some ip) ipInfo = slotBytes (some ip) ipInfo q.qclass := by
    unfold Query.slot
    rw [answerWritten_query hfit hpos q.nonRoot]
    rfl
  have hm := q.toQuery.decode_answer (some ip) ipInfo rfl rfl rfl
  rw [hval, Int.toNat_natCast, hslot] at htake
  have hm' := (congrArg decodeMessage htake).trans hm
  rw [hval] at hr
  exact ⟨reply, _, hr, hm', rfl, getLsbD_qr q.flags2 q.flags3, rfl, rfl, rfl, rfl⟩

end Gateway.Dns
