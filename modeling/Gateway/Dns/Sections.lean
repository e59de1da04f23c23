import Gateway.Dns.Query

/-!
# Queries that carry other records

A resolver's query often has additional records (an EDNS0 `OPT`, for one). `parse_dns_request`
copies them and appends its answer after them, at `dns_reply + req_len`, with `an_count` set: a
reader who takes the sections in order finds the query's own first record in the place of the
answer.

* `decode_slot`: the 16 appended bytes always decode as some record, which becomes the last of the
  reply.
* `decode_sections`: the records of the reply are the query's, then that one, so that the answer
  section is the query's first record.
* **`answer_section_iff`**: the answer section is the answer only when the query's first record
  already was.
-/

namespace Gateway.Dns

open Gateway.Lib Gateway.Lib.Rfc1035

/-- A type-A query of at most 127 bytes that carries authority or additional records, which fill it
to its end. No name in them points into the header. -/
structure ExtraQuery extends Query where
  extra : List Record
  decodes : ∀ header : List Byte, header.length = headerLen →
    decodeMany (decodeRecord (header ++ toQuery.body)) (nsCount.toNat + arCount.toNat)
      (headerLen + question.wire.length) = some (extra, headerLen + toQuery.body.length)
  nonempty : 1 ≤ nsCount.toNat + arCount.toNat
  typeA : question.qtype = qdTypeA
  fits : toQuery.wire.length ≤ 127

/-- An address record for the question's name, with the given address. -/
def IsAnswer (q : Query) (ip : Ip4) (x : Record) : Prop :=
  x.owner = q.question.qname ∧ x.rtype = qdTypeA ∧ x.rdata = ip.octets

/-- The first `r` bytes of the reply decode, and the answer section is the one answer. -/
def AnswerFirst (q : Query) (ip : Ip4) (r : Int) (reply : List Byte) : Prop :=
  ∃ m next, decodeMessage (reply.take r.toNat) = some (m, next) ∧
    ∃ x, m.answers = [x] ∧ IsAnswer q ip x

variable {netif : Option Ip4} {ipInfo : Ip4}

/-! ## The appended bytes -/

/-- Eleven zero bytes are a record. -/
theorem decodeRecord_zeros {msg : List Byte} {off : Nat}
    (h : msg.drop off = List.replicate answerLen 0) :
    decodeRecord msg off = some (⟨[], 0#16, 0#16, 0, []⟩, off + 11) := by
  have hname : decodeName msg 256 off = some ([], off + 1) := by
    unfold decodeName
    rw [h]
    rfl
  have hd1 := congrArg (List.drop 1) h
  rw [List.drop_drop] at hd1
  unfold decodeRecord
  rw [decodeOwner_of_decodeName hname (show 1 ≤ 255 by decide)]
  simp only [hd1]
  rfl

/-- **What is appended is a record**, answer or not. -/
theorem decode_slot (netif : Option Ip4) (ipInfo : Ip4) (q : Query) :
    ∃ x next, decodeRecord (q.replied ++ q.slot netif ipInfo) q.wire.length = some (x, next) := by
  have hdrop : (q.replied ++ q.slot netif ipInfo).drop q.wire.length = q.slot netif ipInfo := by
    rw [← q.length_replied, List.drop_append_length]
  rcases slot_cases netif ipInfo q with h | ⟨c, h⟩
  · exact ⟨_, _, decodeRecord_zeros (hdrop.trans h)⟩
  · have hoff : headerLen < q.wire.length := by
      rw [q.length_wire, q.question.length_wire]
      omega
    exact ⟨_, _, decodeRecord_slotBytes (hdrop.trans h) hoff (q.decodeName_replied _) q.name_le⟩

/-! ## The sections of the reply -/

/-- **The reply decodes**, and its answer section is the query's first record. -/
theorem decode_sections (netif : Option Ip4) (ipInfo : Ip4) (q : ExtraQuery) :
    ∃ m next x, decodeMessage (q.replied ++ q.slot netif ipInfo) = some (m, next) ∧
      m.answers = [x] ∧ q.extra.head? = some x := by
  obtain ⟨x, next, hx⟩ := decode_slot netif ipInfo q.toQuery
  generalize hmsg : q.replied ++ q.slot netif ipInfo = msg at hx
  have hextra : decodeMany (decodeRecord msg) (q.nsCount.toNat + q.arCount.toNat)
      (headerLen + q.question.wire.length) = some (q.extra, q.wire.length) := by
    have hend : q.wire.length = headerLen + q.body.length := List.length_append
    rw [← hmsg, hend]
    exact decodeMany_mono (fun _ _ => decodeRecord_append _)
      (q.decodes (q.header (q.flags2 ||| 0x80#8) 1#16) rfl)
  -- the answer takes the first of the records in a row
  have hall := decodeMany_add.mpr ⟨_, _, _, hextra, decodeMany_one hx, rfl⟩
  rw [Nat.add_comm _ 1] at hall
  obtain ⟨as, oa, others, has, hothers, happ⟩ := decodeMany_add.mp hall
  obtain ⟨ns, on, rs, hns, hrs, -⟩ := decodeMany_add.mp hothers
  obtain ⟨y, rfl⟩ := List.length_eq_one_iff.mp (length_decodeMany has)
  have hm := q.decodeMessage_replied (t := q.slot netif ipInfo) (by rw [hmsg]; exact has)
    (by rw [hmsg]; exact hns) (by rw [hmsg]; exact hrs)
  rw [hmsg] at hm
  refine ⟨_, _, y, hm, rfl, ?_⟩
  have hlen := length_decodeMany hextra
  have hne := q.nonempty
  cases hq : q.extra with
  | nil =>
    rw [hq, List.length_nil] at hlen
    omega
  | cons z zs =>
    rw [hq] at happ
    cases happ
    rfl

/-- **The answer section holds the answer exactly when the query brought it along.** For every
type-A query with authority or additional records that gets a reply: decoded in section order, the
reply's answer section is the softAP's address under the question's name if and only if the query's
first record is. -/
theorem answer_section_iff (ip ipInfo : Ip4) (q : ExtraQuery) (dnsReply : Buf dnsMaxLen)
    (name : Buf nameMaxLen) {r : Int} {reply : Buf dnsMaxLen}
    (hr : parseDnsRequest (some ip) ipInfo q.wire dnsReply name = .ok (r, reply)) (hpos : 0 < r) :
    AnswerFirst q.toQuery ip r reply.bytes ↔
      ∃ x, q.extra.head? = some x ∧ IsAnswer q.toQuery ip x := by
  obtain ⟨-, -, -, -, htake⟩ := reply_query hr hpos
  obtain ⟨m, next, x, hm, hans, hhead⟩ := decode_sections (some ip) ipInfo q
  unfold AnswerFirst
  rw [htake, hm, hhead]
  constructor
  · rintro ⟨m', next', heq, y, hy, hyes⟩
    cases heq
    rw [hans] at hy
    cases hy
    exact ⟨x, rfl, hyes⟩
  · rintro ⟨y, hy, hyes⟩
    cases hy
    exact ⟨m, next, rfl, x, hans, hyes⟩

/-! ## Two queries -/

/-- The query for the name `a` with one additional record, given by its bytes. -/
def queryWith (rr : List Byte) (x : Record) (hfit : rr.length ≤ 108)
    (hx : ∀ header : List Byte, header.length = headerLen →
      decodeRecord (header ++ ((queryFor qdTypeA).question.wire ++ rr)) 19 =
        some (x, 19 + rr.length)) : ExtraQuery where
  toQuery := { queryFor qdTypeA with arCount := 1, rest := rr }
  extra := [x]
  decodes header hh := by
    have hend : headerLen + ((queryFor qdTypeA).question.wire ++ rr).length = 19 + rr.length := by
      rw [List.length_append, ← Nat.add_assoc]
      rfl
    show decodeMany _ 1 19 = some ([x], headerLen + ((queryFor qdTypeA).question.wire ++ rr).length)
    rw [hend]
    exact decodeMany_one (hx header hh)
  nonempty := Nat.le_refl 1
  typeA := rfl
  fits := by
    rw [Query.length_wire]
    show 19 + rr.length ≤ 127
    omega

/-- A list of twelve bytes. -/
theorem header_eq {header : List Byte} (h : header.length = headerLen) :
    ∃ b0 b1 b2 b3 b4 b5 b6 b7 b8 b9 b10 b11,
      header = [b0, b1, b2, b3, b4, b5, b6, b7, b8, b9, b10, b11] := by
  match header, h with
  | [b0, b1, b2, b3, b4, b5, b6, b7, b8, b9, b10, b11], _ =>
    exact ⟨b0, b1, b2, b3, b4, b5, b6, b7, b8, b9, b10, b11, rfl⟩

/-- With an EDNS0 `OPT` record: root name, type 41, a payload size of 4096. -/
def optQuery : ExtraQuery :=
  queryWith [0, 0, 41, 16, 0, 0, 0, 0, 0, 0, 0] ⟨[], 41, 4096, 0, []⟩ (by decide) <| by
    intro header hh
    obtain ⟨b0, b1, b2, b3, b4, b5, b6, b7, b8, b9, b10, b11, rfl⟩ := header_eq hh
    rfl

/-- The `OPT` record is read as the answer. -/
theorem answer_section_opt :
    ∃ reply, parseDnsRequest (some apIp) apIp optQuery.wire (Buf.fill dnsMaxLen 7)
        (Buf.fill nameMaxLen 7) = .ok (46, reply) ∧
      ¬ AnswerFirst optQuery.toQuery apIp 46 reply.bytes := by
  refine ⟨Buf.ofList dnsMaxLen (optQuery.replied ++ slotA), by decide +kernel, ?_⟩
  rintro ⟨m, next, hm, x, hx, -, htype, -⟩
  have hopt : (decodeMessage ((Buf.ofList dnsMaxLen (optQuery.replied ++ slotA)).bytes.take 46)).map
      (fun r => r.1.answers.map Record.rtype) = some [41] := by decide +kernel
  have hm' : decodeMessage ((Buf.ofList dnsMaxLen (optQuery.replied ++ slotA)).bytes.take 46) =
      some (m, next) := hm
  rw [hm', Option.map_some, hx, List.map_singleton, htype] at hopt
  exact absurd hopt (by decide)

/-- With the softAP's own record as an additional one. -/
def glueQuery : ExtraQuery :=
  queryWith slotA ((queryFor qdTypeA).answer apIp) (by decide) <| by
    intro header hh
    obtain ⟨b0, b1, b2, b3, b4, b5, b6, b7, b8, b9, b10, b11, rfl⟩ := header_eq hh
    rfl

theorem answer_section_iff_glue :
    AnswerFirst glueQuery.toQuery apIp 51
      (Buf.ofList dnsMaxLen (glueQuery.replied ++ slotA)).bytes :=
  (answer_section_iff apIp apIp glueQuery (Buf.fill dnsMaxLen 7) (Buf.fill nameMaxLen 7)
    (by decide +kernel) (by decide)).mpr ⟨_, rfl, rfl, rfl, rfl⟩

end Gateway.Dns
