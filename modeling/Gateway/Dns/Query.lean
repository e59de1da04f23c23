import Gateway.Dns.Frame
import Gateway.Lib.Rfc1035

/-!
# Queries with one question

`Query` is a datagram with one question: any id and flag bytes, any name, type and class, and any
bytes after the question. What `parse_dns_request` makes of it:

* `nameWalk_question`: on the wire form of a name, the walk of `parse_dns_name` ends on the closing
  zero, or not within its bound. The induction is over the labels: no label is empty, so the walk
  only stops there.
* `respond_query`: an accepted query comes back with QR and the answer count set and 16 more bytes
  (`Query.slot`): an answer, or zeros.
* `Query.decode_answer`: a reply with an answer decodes to it.
* **`answer_count_iff`**: `an_count` is set from `qd_count` before the question is looked at, so it
  is right exactly when the question is of type A.
-/

namespace Gateway.Dns

open Gateway.Lib Gateway.Lib.Rfc1035

/-! ## The walk over a name -/

theorem nameRun_labels {z rest : List Byte} {start : Nat} (maxLen : Nat) (n : Name) (fuel k : Nat)
    (h : z.drop (start + k) = nameWire n ++ rest) (hn : n ≠ []) (hf : maxLen < fuel + k) :
    nameRun (fun i => byteAt z (start + i)) maxLen fuel k =
      if maxLen < k + (labelsWire n).length then none else some (k + (labelsWire n).length) := by
  induction n generalizing fuel k with
  | nil => exact absurd rfl hn
  | cons l n ih =>
    have hlabels : (labelsWire (l :: n)).length = l.wire.length + (labelsWire n).length := by
      rw [labelsWire_cons, List.length_append]
    cases fuel with
    | zero =>
      unfold nameRun
      rw [if_pos (by omega)]
    | succ fuel =>
      have h' : z.drop (start + k) = l.wire ++ (nameWire n ++ rest) := by
        rw [h, nameWire_cons_append]
      have hlen : (byteAt z (start + k)).toNat = l.octets.length := by
        rw [byteAt_of_drop h', l.toNat_head]
      have hnext : z.drop (start + (k + l.wire.length)) = nameWire n ++ rest := by
        have := drop_after h'
        rwa [Nat.add_assoc] at this
      unfold nameRun
      simp only [hlen, ← l.length_wire]
      by_cases hlong : maxLen < k + l.wire.length
      · rw [if_pos hlong, if_pos (by omega)]
      · rw [if_neg hlong]
        cases n with
        | nil =>
          have h0 : byteAt z (start + (k + l.wire.length)) = 0 := byteAt_of_drop hnext
          have hnil : (labelsWire [l]).length = l.wire.length := hlabels
          rw [if_neg (by simpa using h0), hnil, if_neg hlong]
        | cons l' n =>
          -- the next length byte is not zero, so the walk goes on
          have hne : byteAt z (start + (k + l.wire.length)) ≠ 0 := by
            intro h0
            have hb : byteAt z (start + (k + l.wire.length)) = BitVec.ofNat 8 l'.octets.length :=
              byteAt_of_drop hnext
            have hhead := l'.toNat_head
            rw [← hb, h0] at hhead
            exact absurd hhead (Nat.ne_of_lt l'.pos)
          have hpos := l.length_wire
          rw [if_pos hne, ih fuel _ hnext (by simp) (by omega), hlabels, Nat.add_assoc]

section Question

variable {z rest : List Byte} {q : Question}

/-- **The walk of `parse_dns_name` over a question's name ends on its closing zero**, unless the
name is too long for it. -/
theorem nameWalk_question (h : z.drop headerLen = q.wire ++ rest) (hn : q.qname ≠ []) :
    nameWalk z headerLen = if nameMaxLen < (labelsWire q.qname).length then none
      else some (labelsWire q.qname).length := by
  have hdrop : z.drop (headerLen + 0) =
      nameWire q.qname ++ (be16 q.qtype ++ be16 q.qclass ++ rest) := by
    rw [Nat.add_zero, h, q.wire_append]
  have hrun := nameRun_labels nameMaxLen q.qname (nameMaxLen + 1) 0 hdrop hn (by omega)
  rwa [Nat.zero_add] at hrun

/-- The type and the class after the name. -/
theorem questionType_question (h : z.drop headerLen = q.wire ++ rest) :
    questionType z (labelsWire q.qname).length = q.qtype ∧
      questionClass z (labelsWire q.qname).length = q.qclass := by
  have hdrop : z.drop headerLen = nameWire q.qname ++ (be16 q.qtype ++ be16 q.qclass ++ rest) := by
    rw [h, q.wire_append]
  have ht := drop_after hdrop
  rw [length_nameWire, ← Nat.add_assoc] at ht
  have hb : ∀ i, byteAt z (headerLen + (labelsWire q.qname).length + 1 + i) =
      byteAt (be16 q.qtype ++ be16 q.qclass ++ rest) i := by
    intro i
    rw [← byteAt_drop, ht]
  constructor
  · show le16 _ _ = _
    rw [hb 1, hb 0]
    exact le16_eta q.qtype
  · show le16 _ _ = _
    rw [hb 3, hb 2]
    exact le16_eta q.qclass

end Question

/-! ## Queries -/

/-- A datagram with one question and any bytes after it. -/
structure Query where
  id : BitVec 16
  flags2 : Byte
  flags3 : Byte
  anCount : BitVec 16
  nsCount : BitVec 16
  arCount : BitVec 16
  question : Question
  rest : List Byte
  name_le : (nameWire question.qname).length ≤ 255

namespace Query

/-- The header with the given flag byte and answer count, and `qd_count = 1`. -/
def header (q : Query) (flags2 : Byte) (anCount : BitVec 16) : List Byte :=
  be16 q.id ++ [flags2, q.flags3] ++ be16 1#16 ++ be16 anCount ++ be16 q.nsCount ++ be16 q.arCount

def body (q : Query) : List Byte := q.question.wire ++ q.rest

/-- The datagram. -/
def wire (q : Query) : List Byte := q.header q.flags2 q.anCount ++ q.body

/-- The datagram with QR and the answer count set. -/
def replied (q : Query) : List Byte := q.header (q.flags2 ||| 0x80#8) 1#16 ++ q.body

variable (q : Query)

theorem length_wire : q.wire.length = headerLen + q.question.wire.length + q.rest.length := by
  unfold wire body
  rw [List.length_append, List.length_append, Nat.add_assoc]
  rfl

theorem length_replied : q.replied.length = q.wire.length := by
  unfold replied wire
  rw [List.length_append, List.length_append]
  rfl

theorem replyHeader_wire : replyHeader (padded q.wire) =
    q.replied ++ List.replicate (dnsMaxLen - q.wire.length) 0 := rfl

theorem qdCount_wire : qdCount (padded q.wire) = 1 := by
  show (le16 (loByte 1#16) (hiByte 1#16)).toNat = 1
  rw [le16_eta]
  rfl

theorem flags3_wire : byteAt (padded q.wire) 3 = q.flags3 := rfl

/-- The question, in the request and in its copy. -/
theorem drop_padded : (padded q.wire).drop headerLen =
    q.question.wire ++ (q.rest ++ List.replicate (dnsMaxLen - q.wire.length) 0) := by
  have hbody : (padded q.wire).drop headerLen =
      q.body ++ List.replicate (dnsMaxLen - q.wire.length) 0 := rfl
  rw [hbody]
  unfold body
  rw [List.append_assoc]

theorem drop_replied (t : List Byte) :
    (q.replied ++ t).drop headerLen = q.question.wire ++ (q.rest ++ t) := by
  have hbody : (q.replied ++ t).drop headerLen = q.body ++ t := rfl
  rw [hbody]
  unfold body
  rw [List.append_assoc]

/-- What the loop leaves after the request copy: an answer, or zeros. -/
def slot (netif : Option Ip4) (ipInfo : Ip4) (q : Query) : List Byte :=
  match answerWritten netif ipInfo q.wire.length (replyHeader (padded q.wire)) with
  | none => List.replicate answerLen 0
  | some w => w.2

end Query

/-- The label `a`. -/
def labelA : Label := ⟨[0x61], by decide, by decide⟩

/-- A query for the name `a`: id 1, class IN. -/
def queryFor (qtype : BitVec 16) : Query where
  id := 1
  flags2 := 0
  flags3 := 0
  anCount := 0
  nsCount := 0
  arCount := 0
  question := ⟨[labelA], qtype, 1⟩
  rest := []
  name_le := show 3 ≤ 255 by decide

example : (queryFor qdTypeA).wire = queryA := by decide

variable {netif : Option Ip4} {ipInfo : Ip4} {q : Query}

/-- An accepted query leaves room for an answer. -/
theorem Query.length_le (h : q.wire.length ≤ dnsMaxLen)
    (hpos : 0 < (respond netif ipInfo q.wire).1) : q.wire.length + answerLen ≤ dnsMaxLen := by
  have hfit := (respond_fst_pos h hpos).2.1
  rw [q.qdCount_wire, Nat.one_mul] at hfit
  omega

/-- The one round of the loop: its answer, if the name parses. -/
theorem answers_query (h : q.wire.length ≤ dnsMaxLen)
    (hpos : 0 < (respond netif ipInfo q.wire).1) : answers netif ipInfo q.wire =
      (answerWritten netif ipInfo q.wire.length (replyHeader (padded q.wire))).toList := by
  obtain ⟨hstd, hfit, -, -⟩ := respond_fst_pos h hpos
  simp only [answers]
  rw [if_neg (not_not.mpr hstd), if_neg (Nat.not_lt.mpr hfit), q.qdCount_wire]
  unfold answersWritten
  cases hr : round netif ipInfo q.wire.length (replyHeader (padded q.wire)) with
  | some z' => exact List.append_nil _
  | none =>
    cases hw : nameWalk (replyHeader (padded q.wire)) headerLen with
    | none =>
      unfold answerWritten
      rw [hw]
      rfl
    | some e =>
      rw [round_some hw] at hr
      exact absurd hr (by simp)

/-- **The reply to a query**: the query with QR and the answer count set, the slot after it, zeros
to the end of the buffer. -/
theorem respond_query (h : q.wire.length ≤ dnsMaxLen)
    (hpos : 0 < (respond netif ipInfo q.wire).1) :
    respond netif ipInfo q.wire = (((q.wire.length + answerLen : Nat) : Int),
      q.replied ++ (q.slot netif ipInfo ++
        List.replicate (dnsMaxLen - q.wire.length - answerLen) 0)) := by
  have hlen := Query.length_le h hpos
  have hfst := (respond_fst_pos h hpos).2.2.2
  rw [q.qdCount_wire, Nat.one_mul, Nat.add_comm] at hfst
  have hsplit : List.replicate (dnsMaxLen - q.wire.length) (0 : Byte) =
      List.replicate answerLen 0 ++ List.replicate (dnsMaxLen - q.wire.length - answerLen) 0 := by
    rw [← List.replicate_add]
    congr 1
    omega
  refine Prod.ext hfst ?_
  rw [respond_snd_replay hpos, answers_query h hpos]
  unfold Query.slot replay
  cases hw : answerWritten netif ipInfo q.wire.length (replyHeader (padded q.wire)) with
  | none =>
    rw [q.replyHeader_wire, hsplit]
    rfl
  | some w =>
    obtain ⟨c, rfl⟩ := answerWritten_some hw
    simp only [Option.toList_some, List.foldl_cons, List.foldl_nil]
    rw [q.replyHeader_wire, hsplit, ← q.length_replied,
      writeAt_append _ _ _ _ (by rw [List.length_replicate]; rfl)]

theorem slot_cases (netif : Option Ip4) (ipInfo : Ip4) (q : Query) :
    q.slot netif ipInfo = List.replicate answerLen 0 ∨
      ∃ c, q.slot netif ipInfo = slotBytes netif ipInfo c := by
  unfold Query.slot
  cases hw : answerWritten netif ipInfo q.wire.length (replyHeader (padded q.wire)) with
  | none => exact Or.inl rfl
  | some w =>
    obtain ⟨c, rfl⟩ := answerWritten_some hw
    exact Or.inr ⟨c, rfl⟩

theorem length_slot (netif : Option Ip4) (ipInfo : Ip4) (q : Query) :
    (q.slot netif ipInfo).length = answerLen := by
  rcases slot_cases netif ipInfo q with h | ⟨c, h⟩
  · rw [h, List.length_replicate]
  · rw [h, length_slotBytes]

/-- **What an accepted query gets**: 16 bytes more than it has, which are the slot. -/
theorem reply_query {dnsReply : Buf dnsMaxLen} {name : Buf nameMaxLen} {r : Int}
    {reply : Buf dnsMaxLen}
    (hr : parseDnsRequest netif ipInfo q.wire dnsReply name = .ok (r, reply)) (hpos : 0 < r) :
    q.wire.length ≤ dnsMaxLen ∧ 0 < (respond netif ipInfo q.wire).1 ∧
      r = ((q.wire.length + answerLen : Nat) : Int) ∧
      (∃ t, reply.bytes = q.replied ++ t) ∧
      reply.bytes.take r.toNat = q.replied ++ q.slot netif ipInfo := by
  obtain ⟨hle, hresp⟩ := respond_of_parse hr hpos
  have hpos' : 0 < (respond netif ipInfo q.wire).1 := by
    rw [hresp]
    exact hpos
  have hquery := respond_query hle hpos'
  rw [hresp, Prod.mk.injEq] at hquery
  obtain ⟨hval, hb⟩ := hquery
  have hlen : (q.replied ++ q.slot netif ipInfo).length = r.toNat := by
    rw [List.length_append, q.length_replied, length_slot, hval, Int.toNat_natCast]
  refine ⟨hle, hpos', hval, ⟨_, hb⟩, ?_⟩
  rw [hb, ← List.append_assoc, ← hlen, List.take_append_length]

/-! ## The slot of a query for a name -/

/-- An accepted name that is not the root is walked to its end. -/
theorem Query.walk (h : q.wire.length ≤ dnsMaxLen) (hpos : 0 < (respond netif ipInfo q.wire).1)
    (hn : q.question.qname ≠ []) :
    nameWalk (padded q.wire) headerLen = some (labelsWire q.question.qname).length := by
  have hname := (respond_fst_pos h hpos).2.2.1.resolve_left (by rw [q.qdCount_wire]; decide)
  rw [nameWalk_question q.drop_padded hn] at hname ⊢
  split at hname
  · exact absurd rfl hname
  · rename_i hlong
    rw [if_neg hlong]

/-- **An answer is written exactly for type A.** -/
theorem answerWritten_query (h : q.wire.length ≤ dnsMaxLen)
    (hpos : 0 < (respond netif ipInfo q.wire).1) (hn : q.question.qname ≠ []) :
    answerWritten netif ipInfo q.wire.length (replyHeader (padded q.wire)) =
      if q.question.qtype = qdTypeA then
        some (q.wire.length, slotBytes netif ipInfo q.question.qclass)
      else none := by
  obtain ⟨ht, hc⟩ := questionType_question
    (q.drop_replied (List.replicate (dnsMaxLen - q.wire.length) 0))
  unfold answerWritten
  rw [nameWalk_start h, Query.walk h hpos hn]
  simp only
  rw [q.replyHeader_wire, ht, hc]

theorem length_answers_query (h : q.wire.length ≤ dnsMaxLen)
    (hpos : 0 < (respond netif ipInfo q.wire).1) (hn : q.question.qname ≠ []) :
    (answers netif ipInfo q.wire).length = if q.question.qtype = qdTypeA then 1 else 0 := by
  rw [answers_query h hpos, answerWritten_query h hpos hn]
  split <;> rfl

/-! ## Decoding the reply -/

namespace Query

/-- The answer record the decoder is to find. -/
def answer (q : Query) (ip : Ip4) : Record :=
  ⟨q.question.qname, qdTypeA, q.question.qclass, ansTtlSec, ip.octets⟩

variable (q : Query)

theorem decodeName_replied (t : List Byte) : decodeName (q.replied ++ t) 255 headerLen =
    some (q.question.qname, headerLen + (nameWire q.question.qname).length) := by
  have hdrop := q.drop_replied t
  rw [q.question.wire_append] at hdrop
  exact decodeName_wire _ 255 hdrop (length_lt_of_wire q.name_le)

/-- **The decoder on a reply**: the header and the question are the query's, and it goes on with
one answer. -/
theorem decodeMessage_replied {t : List Byte} {as ns rs : List Record} {oa on or : Nat}
    (ha : decodeMany (decodeRecord (q.replied ++ t)) 1 (headerLen + q.question.wire.length) =
      some (as, oa))
    (hns : decodeMany (decodeRecord (q.replied ++ t)) q.nsCount.toNat oa = some (ns, on))
    (har : decodeMany (decodeRecord (q.replied ++ t)) q.arCount.toNat on = some (rs, or)) :
    decodeMessage (q.replied ++ t) =
      some (⟨q.id, le16 q.flags3 (q.flags2 ||| 0x80#8), [q.question], as, ns, rs⟩, or) := by
  have hq := decodeQuestion_wire q.question (q.drop_replied t) q.name_le
  have hshape : q.replied ++ t = hiByte q.id :: loByte q.id :: (q.flags2 ||| 0x80#8) :: q.flags3 ::
      hiByte 1#16 :: loByte 1#16 :: hiByte 1#16 :: loByte 1#16 :: hiByte q.nsCount ::
      loByte q.nsCount :: hiByte q.arCount :: loByte q.arCount :: (q.body ++ t) := rfl
  have hm := decodeMessage_of hshape (decodeMany_one hq) ha (by rw [le16_eta]; exact hns)
    (by rw [le16_eta]; exact har)
  rwa [le16_eta] at hm

end Query

theorem slotBytes_eq (netif : Option Ip4) (ipInfo : Ip4) (c : BitVec 16) :
    slotBytes netif ipInfo c = 0xC0#8 :: 0x0C#8 :: hiByte qdTypeA :: loByte qdTypeA ::
      hiByte c :: loByte c :: 0#8 :: 0#8 :: 1#8 :: 44#8 :: 0#8 :: 4#8 ::
      (espNetifGetIpInfo netif ipInfo).octets := by
  unfold slotBytes answerBytes
  simp only [htons, loByte_le16, hiByte_le16]
  rfl

/-- **The decoder on an answer**: its owner is the question's name, found through the compression
pointer. -/
theorem decodeRecord_slotBytes {msg : List Byte} {off next : Nat} {n : Name} {c : BitVec 16}
    (h : msg.drop off = slotBytes netif ipInfo c) (hoff : headerLen < off)
    (hname : decodeName msg 255 headerLen = some (n, next)) (hle : (nameWire n).length ≤ 255) :
    decodeRecord msg off =
      some (⟨n, qdTypeA, c, ansTtlSec, (espNetifGetIpInfo netif ipInfo).octets⟩,
        off + answerLen) := by
  rw [slotBytes_eq] at h
  have hptr : decodeName msg 256 off = some (n, off + 2) :=
    decodeName_pointer h (by decide) hoff hname
  have hd2 := congrArg (List.drop 2) h
  rw [List.drop_drop] at hd2
  unfold decodeRecord
  rw [decodeOwner_of_decodeName hptr hle]
  simp only [hd2, List.drop_succ_cons, List.drop_zero, le16_eta]
  rfl

/-- **A reply with an answer decodes to it**, when nothing else follows the question. -/
theorem Query.decode_answer (netif : Option Ip4) (ipInfo : Ip4) (q : Query) (hrest : q.rest = [])
    (hns : q.nsCount = 0#16) (har : q.arCount = 0#16) :
    decodeMessage (q.replied ++ slotBytes netif ipInfo q.question.qclass) =
      some (⟨q.id, le16 q.flags3 (q.flags2 ||| 0x80#8), [q.question],
        [q.answer (espNetifGetIpInfo netif ipInfo)], [], []⟩, q.wire.length + answerLen) := by
  have hlen := q.length_wire
  rw [hrest, List.length_nil, Nat.add_zero] at hlen
  have hslot : (q.replied ++ slotBytes netif ipInfo q.question.qclass).drop q.wire.length =
      slotBytes netif ipInfo q.question.qclass := by
    rw [← q.length_replied, List.drop_append_length]
  have hrec := decodeRecord_slotBytes hslot (by rw [hlen, q.question.length_wire]; omega)
    (q.decodeName_replied _) q.name_le
  have hnone : ∀ off, decodeMany
      (decodeRecord (q.replied ++ slotBytes netif ipInfo q.question.qclass)) (0#16).toNat off =
        some ([], off) := fun _ => rfl
  exact q.decodeMessage_replied (by rw [← hlen]; exact decodeMany_one hrec)
    (by rw [hns]; exact hnone _) (by rw [har]; exact hnone _)

/-! ## The answer count -/

/-- The reply's `an_count` is the number of answers written, and its `r` bytes decode to exactly
these answers: for type A one, the softAP's address under the question's name, else none, in a
reply as long as the query. -/
def CountHonest (netif : Option Ip4) (ipInfo : Ip4) (q : Query) (r : Int) (reply : List Byte) :
    Prop :=
  (le16 (byteAt reply 7) (byteAt reply 6)).toNat = (answers netif ipInfo q.wire).length ∧
    ∃ m, decodeMessage (reply.take r.toNat) = some (m, r.toNat) ∧
      m.answers.length = (answers netif ipInfo q.wire).length ∧
      if q.question.qtype = qdTypeA then m.answers = [q.answer (espNetifGetIpInfo netif ipInfo)]
      else m.answers = [] ∧ r = q.wire.length

/-- **The answer count is right exactly for type A.** For every accepted query with one question,
a name other than the root, and nothing after it: `an_count` is the number of answers written, and
the reply decodes to them, if and only if the question is of type A. -/
theorem answer_count_iff (netif : Option Ip4) (ipInfo : Ip4) (q : Query)
    (hn : q.question.qname ≠ []) (hrest : q.rest = []) (hns : q.nsCount = 0#16)
    (har : q.arCount = 0#16) (dnsReply : Buf dnsMaxLen) (name : Buf nameMaxLen) {r : Int}
    {reply : Buf dnsMaxLen}
    (hr : parseDnsRequest netif ipInfo q.wire dnsReply name = .ok (r, reply)) (hpos : 0 < r) :
    CountHonest netif ipInfo q r reply.bytes ↔ q.question.qtype = qdTypeA := by
  obtain ⟨hle, hpos', hval, ⟨t, hb⟩, htake⟩ := reply_query hr hpos
  have hcount : (le16 (byteAt reply.bytes 7) (byteAt reply.bytes 6)).toNat = 1 := by
    rw [hb]
    show (le16 (loByte 1#16) (hiByte 1#16)).toNat = 1
    rw [le16_eta]
    rfl
  unfold CountHonest
  rw [hcount, length_answers_query hle hpos' hn]
  by_cases hA : q.question.qtype = qdTypeA
  · have hslot : q.slot netif ipInfo = slotBytes netif ipInfo q.question.qclass := by
      unfold Query.slot
      rw [answerWritten_query hle hpos' hn, if_pos hA]
    have hm := q.decode_answer netif ipInfo hrest hns har
    rw [← hslot, ← htake] at hm
    refine ⟨fun _ => hA, fun _ => ?_⟩
    rw [if_pos hA, hval, Int.toNat_natCast]
    rw [hval, Int.toNat_natCast] at hm
    refine ⟨rfl, _, hm, rfl, ?_⟩
    rw [if_pos hA]
  · rw [if_neg hA]
    exact ⟨fun h => absurd h.1 (by decide), fun h => absurd h hA⟩

theorem answer_count_iff_queryA : CountHonest (some apIp) apIp (queryFor qdTypeA) 35
    (Buf.ofList dnsMaxLen replyA).bytes :=
  (answer_count_iff _ _ (queryFor qdTypeA) (by simp [queryFor]) rfl rfl rfl _ _
    parseDnsRequest_queryA (by decide)).mpr rfl

/-- A query of type AAAA comes back announcing one answer, with none written: 16 zero bytes are
sent after the question. -/
theorem answer_count_AAAA :
    ∃ reply, parseDnsRequest (some apIp) apIp (queryFor 28#16).wire (Buf.fill dnsMaxLen 7)
        (Buf.fill nameMaxLen 7) = .ok (35, reply) ∧
      ¬ CountHonest (some apIp) apIp (queryFor 28#16) 35 reply.bytes := by
  refine ⟨Buf.ofList dnsMaxLen (queryFor 28#16).replied, by decide +kernel, fun h => ?_⟩
  exact absurd h.1 (by decide +kernel)

end Gateway.Dns
