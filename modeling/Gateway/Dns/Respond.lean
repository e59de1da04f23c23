import Gateway.Dns.Name

/-!
# `parse_dns_request` without its memory

`respond` computes the returned `int` and the 256 reply bytes on byte lists, with no bounds to
check. `parseDnsRequest_ok` is the refinement: on a request that fits the reply buffer, whatever the
arrays held before, `parse_dns_request` never faults and computes `respond`. Running out of fuel
is a fault, so this includes termination.

* `round`: one round of the question loop; `rounds`: the loop.
* `rounds_typeA`, `rounds_request`: whether the loop runs to its end is decided by its first round.
  A round only writes the answer slot when a type of A was read, and then the name and the type lie
  inside the request, below the slot, so the next round reads them again.
* `respond_fst`: the returned `int`, without the loop.
* `parseDnsRequest_long`, `respond_of_parse`: with the length check, so that a request the function
  answers is one `respond` answers, with the same reply.
-/

namespace Gateway.Dns

open Gateway.Lib

/-- The reply buffer after `memset` and `memcpy`. -/
def padded (req : List Byte) : List Byte := req ++ List.replicate (dnsMaxLen - req.length) 0

/-- `qd_count`, from the bytes on the wire. -/
def qdCount (z : List Byte) : Nat := (le16 (byteAt z 5) (byteAt z 4)).toNat

/-- The header after `flags |= QR_FLAG` and `an_count = htons(qd_count)`. -/
def replyHeader (z : List Byte) : List Byte :=
  writeAt (writeAt z 2 [byteAt z 2 ||| 0x80#8, byteAt z 3]) 6 [byteAt z 4, byteAt z 5]

section Rounds

variable (netif : Option Ip4) (ipInfo : Ip4) (reqLen : Nat)

/-- One round of the question loop; `none` when the name does not parse. -/
def round (z : List Byte) : Option (List Byte) :=
  match nameWalk z headerLen with
  | none => none
  | some e =>
    let q := headerLen + e + 1
    let qdType := le16 (byteAt z (q + 1)) (byteAt z q)
    let qdClass := le16 (byteAt z (q + 3)) (byteAt z (q + 2))
    some (if qdType = qdTypeA then
      writeAt z reqLen (answerBytes (0xC000#16 ||| BitVec.ofNat 16 headerLen) qdType qdClass
        (espNetifGetIpInfo netif ipInfo))
    else z)

/-- The question loop: `k` rounds. -/
def rounds : Nat → List Byte → Bool × List Byte
  | 0, z => (true, z)
  | k + 1, z =>
    match round netif ipInfo reqLen z with
    | none => (false, z)
    | some z' => rounds k z'

end Rounds

/-- `parse_dns_request` on byte lists. -/
def respond (netif : Option Ip4) (ipInfo : Ip4) (req : List Byte) : Int × List Byte :=
  let z := padded req
  if byteAt z 3 &&& 0x78#8 ≠ 0 then (0, z)
  else
    let replyLen := qdCount z * answerLen + req.length
    if dnsMaxLen < replyLen then (-1, replyHeader z)
    else
      let r := rounds netif ipInfo req.length (qdCount z) (replyHeader z)
      if r.1 then (replyLen, r.2) else (-1, r.2)

variable {netif : Option Ip4} {ipInfo : Ip4}

/-! ## The bytes -/

@[simp] theorem length_answerBytes (p t c : BitVec 16) (ip : Ip4) :
    (answerBytes p t c ip).length = answerLen := rfl

theorem length_padded {req : List Byte} (h : req.length ≤ dnsMaxLen) :
    (padded req).length = dnsMaxLen := by
  unfold padded
  rw [List.length_append, List.length_replicate]
  omega

/-- Past the request the buffer is zero. -/
theorem byteAt_padded_of_le {req : List Byte} {i : Nat} (h : req.length ≤ i) :
    byteAt (padded req) i = 0 := by
  unfold padded
  rw [byteAt_append, if_neg (by omega)]
  unfold byteAt
  rw [List.getD_eq_getElem?_getD, List.getElem?_replicate]
  split <;> rfl

theorem length_replyHeader {z : List Byte} (h : headerLen ≤ z.length) :
    (replyHeader z).length = z.length := by
  unfold headerLen at h
  have h2 : (writeAt z 2 [byteAt z 2 ||| 0x80#8, byteAt z 3]).length = z.length :=
    length_writeAt (by simp only [List.length_cons, List.length_nil]; omega)
  unfold replyHeader
  rw [length_writeAt, h2]
  rw [h2]
  simp only [List.length_cons, List.length_nil]
  omega

/-- What the header update leaves at an index. -/
theorem byteAt_replyHeader {z : List Byte} (h : headerLen ≤ z.length) (i : Nat) :
    byteAt (replyHeader z) i =
      if i = 2 then byteAt z 2 ||| 0x80#8
      else if i = 6 then byteAt z 4
      else if i = 7 then byteAt z 5
      else byteAt z i := by
  unfold headerLen at h
  have h2 : (writeAt z 2 [byteAt z 2 ||| 0x80#8, byteAt z 3]).length = z.length :=
    length_writeAt (by simp only [List.length_cons, List.length_nil]; omega)
  unfold replyHeader
  rw [byteAt_writeAt (by rw [h2]; simp only [List.length_cons, List.length_nil]; omega),
    byteAt_writeAt (by simp only [List.length_cons, List.length_nil]; omega)]
  simp only [List.length_cons, List.length_nil]
  by_cases h67 : 6 ≤ i ∧ i < 8
  · rw [if_pos h67, if_neg (by omega)]
    obtain rfl | rfl : i = 6 ∨ i = 7 := by omega
    · rfl
    · rfl
  · rw [if_neg h67]
    by_cases h23 : 2 ≤ i ∧ i < 4
    · rw [if_pos h23]
      obtain rfl | rfl : i = 2 ∨ i = 3 := by omega
      · rfl
      · rfl
    · rw [if_neg h23, if_neg (by omega), if_neg (by omega), if_neg (by omega)]

/-- Past the header the update changes nothing. -/
theorem byteAt_replyHeader_of_le {z : List Byte} (h : headerLen ≤ z.length) {i : Nat}
    (hi : headerLen ≤ i) : byteAt (replyHeader z) i = byteAt z i := by
  unfold headerLen at hi
  rw [byteAt_replyHeader h, if_neg (by omega), if_neg (by omega), if_neg (by omega)]

/-! ## The refinement -/

theorem logString_ok {n : Nat} (b : Buf n) {j : Nat} (hj : j < n) (h0 : byteAt b.bytes j = 0)
    (fuel i : Nat) (hi : i ≤ j) (hf : j < fuel + i) : logString b fuel i = .ok () := by
  induction fuel generalizing i with
  | zero => exact absurd hf (by omega)
  | succ fuel ih =>
    unfold logString
    simp only [b.load8_ok (by omega : i < n), bind, Except.bind]
    by_cases hz : byteAt b.bytes i = 0
    · rw [if_pos hz]
      rfl
    · have hne : i ≠ j := fun e => hz (e ▸ h0)
      rw [if_neg hz]
      exact ih (i + 1) (by omega) (by omega)

/-- What keeps the `%s` of `ESP_LOGE` inside the reply buffer: its last byte is zero, or the name
parses and lies below the answer slot, so that it goes on parsing. -/
def Terminated (reqLen : Nat) (z : List Byte) : Prop :=
  byteAt z (dnsMaxLen - 1) = 0 ∨ (nameWalk z headerLen ≠ none ∧ headerLen + nameMaxLen < reqLen)

/-- A write to the slot keeps it so. -/
theorem Terminated.write {reqLen e : Nat} {z bs : List Byte} (h : Terminated reqLen z)
    (hz : z.length = dnsMaxLen) (hbs : bs.length = answerLen)
    (hlen : reqLen + answerLen ≤ dnsMaxLen) (hw : nameWalk z headerLen = some e) :
    Terminated reqLen (writeAt z reqLen bs) := by
  have hfit : reqLen + bs.length ≤ z.length := by rw [hbs, hz]; exact hlen
  by_cases hin : headerLen + nameMaxLen < reqLen
  · right
    have hsame : nameWalk (writeAt z reqLen bs) headerLen = nameWalk z headerLen :=
      nameRun_congr (fun i hi => byteAt_writeAt_of_lt hfit (by omega)) (Nat.zero_le _)
    rw [hsame, hw]
    exact ⟨by simp, hin⟩
  · left
    have h0 := h.resolve_right fun hr => hin hr.2
    rw [byteAt_writeAt hfit, hbs, if_neg]
    · exact h0
    · unfold headerLen nameMaxLen at hin
      unfold answerLen dnsMaxLen
      omega

/-- **The question loop does not fault** and computes `rounds`, as long as the answer slot fits
the buffer. -/
theorem answerLoop_ok (netif : Option Ip4) (ipInfo : Ip4) {reqLen : Nat}
    (hlen : reqLen + answerLen ≤ dnsMaxLen) (k : Nat) (reply : Buf dnsMaxLen)
    (name : Buf nameMaxLen) (h0 : Terminated reqLen reply.bytes) :
    ∃ reply', answerLoop netif ipInfo reqLen k reply name =
        .ok ((rounds netif ipInfo reqLen k reply.bytes).1, reply') ∧
      reply'.bytes = (rounds netif ipInfo reqLen k reply.bytes).2 := by
  induction k generalizing reply name with
  | zero => exact ⟨reply, rfl, rfl⟩
  | succ k ih =>
    obtain ⟨name', hn⟩ := parseDnsName_ok reply headerLen (by decide) name
    unfold answerLoop rounds round
    simp only [hn, bind, Except.bind]
    cases hw : nameWalk reply.bytes headerLen with
    | none =>
      have hlast := h0.resolve_right fun hr => hr.1 hw
      simp only [Option.map_none]
      rw [logString_ok reply (j := dnsMaxLen - 1) (by decide) hlast _ _ (by decide) (by decide)]
      exact ⟨reply, rfl, rfl⟩
    | some e =>
      have he : e ≤ nameMaxLen := (nameRun_spec hw).2.1
      have hq : headerLen + e + 1 + 4 ≤ dnsMaxLen := by
        unfold headerLen dnsMaxLen
        unfold nameMaxLen at he
        omega
      simp only [Option.map_some]
      rw [reply.load16_ok (by omega), reply.load16_ok (by omega)]
      simp only [ntohs_le16]
      by_cases hA : le16 (byteAt reply.bytes (headerLen + e + 1 + 1))
          (byteAt reply.bytes (headerLen + e + 1)) = qdTypeA
      · simp only [if_pos hA]
        obtain ⟨r1, hr1, hb1⟩ := reply.store_ok reqLen
          (answerBytes (0xC000#16 ||| BitVec.ofNat 16 headerLen)
            (le16 (byteAt reply.bytes (headerLen + e + 1 + 1))
              (byteAt reply.bytes (headerLen + e + 1)))
            (le16 (byteAt reply.bytes (headerLen + e + 1 + 3))
              (byteAt reply.bytes (headerLen + e + 1 + 2)))
            (espNetifGetIpInfo netif ipInfo)) (by rw [length_answerBytes]; omega)
        have h0' : Terminated reqLen r1.bytes := by
          rw [hb1]
          exact h0.write reply.size (length_answerBytes _ _ _ _) hlen hw
        obtain ⟨reply', hl, hb⟩ := ih r1 name' h0'
        simp only [show headerLen + e + 1 + 2 + 1 = headerLen + e + 1 + 3 from rfl, hr1, hl]
        rw [← hb1]
        exact ⟨reply', rfl, hb⟩
      · simp only [if_neg hA]
        exact ih reply name' h0

theorem opcode_test (lo hi : Byte) : le16 lo hi &&& opcodeMask ≠ 0 ↔ hi &&& 0x78#8 ≠ 0 := by
  have hmask : opcodeMask = le16 0 0x78#8 := by decide
  rw [hmask, le16_and, show (0 : BitVec 16) = le16 0 0 by decide, ne_eq, le16_inj]
  simp

theorem set_qr (lo hi : Byte) : le16 lo hi ||| qrFlag = le16 (lo ||| 0x80#8) hi := by
  have hflag : qrFlag = le16 0x80#8 0 := by decide
  rw [hflag, le16_or]
  simp

/-- **`parse_dns_request` never faults** on a request that fits the reply buffer, and computes
`respond`. -/
theorem parseDnsRequest_ok (netif : Option Ip4) (ipInfo : Ip4) {req : List Byte}
    (hreq : req.length ≤ dnsMaxLen) (dnsReply : Buf dnsMaxLen) (name : Buf nameMaxLen) :
    ∃ reply, parseDnsRequest netif ipInfo req dnsReply name =
        .ok ((respond netif ipInfo req).1, reply) ∧
      reply.bytes = (respond netif ipInfo req).2 := by
  have h12 : headerLen ≤ (padded req).length := by rw [length_padded hreq]; decide
  obtain ⟨r1, hr1, hb1⟩ := dnsReply.store_ok 0 (List.replicate dnsMaxLen 0)
    (by rw [List.length_replicate]; omega)
  obtain ⟨r2, hr2, hb2⟩ := r1.store_ok 0 req (by omega)
  have hz : r2.bytes = padded req := by
    have hzero : writeAt dnsReply.bytes 0 (List.replicate dnsMaxLen 0) =
        List.replicate dnsMaxLen 0 := writeAt_all (by rw [List.length_replicate, dnsReply.size])
    rw [hb2, hb1, hzero]
    unfold writeAt padded
    rw [List.take_zero, List.nil_append, Nat.zero_add, List.drop_replicate]
  obtain ⟨r3, hr3, hb3⟩ := r2.store_ok 2
    [byteAt (padded req) 2 ||| 0x80#8, byteAt (padded req) 3]
    (show 2 + 2 ≤ dnsMaxLen by decide)
  obtain ⟨r4, hr4, hb4⟩ := r3.store_ok 6
    [byteAt (padded req) 4, byteAt (padded req) 5] (show 6 + 2 ≤ dnsMaxLen by decide)
  have hh : r4.bytes = replyHeader (padded req) := by
    rw [hb4, hb3, hz]
    rfl
  have h45 : ∀ i, 4 ≤ i → i < 6 → byteAt r3.bytes i = byteAt (padded req) i := by
    intro i h4 h6
    rw [hb3, hz, byteAt_writeAt (by rw [length_padded hreq]; show 2 + 2 ≤ dnsMaxLen; decide),
      if_neg]
    simp only [List.length_cons, List.length_nil]
    omega
  unfold parseDnsRequest respond
  simp only [if_neg (by omega : ¬ dnsMaxLen < req.length), hr1, hr2, bind, Except.bind,
    r2.load16_ok (by decide : 2 + 2 ≤ dnsMaxLen), hz, opcode_test]
  by_cases hop : byteAt (padded req) (2 + 1) &&& 0x78#8 ≠ 0
  · rw [if_pos hop, if_pos hop]
    exact ⟨r2, rfl, hz⟩
  · rw [if_neg hop, if_neg hop]
    simp only [set_qr, Buf.store16, loByte_le16, hiByte_le16, hr3,
      r3.load16_ok (by decide : 4 + 2 ≤ dnsMaxLen), h45 4 (by decide) (by decide),
      h45 5 (by decide) (by decide), ntohs_le16, htons_le16, hr4]
    rw [show (le16 (byteAt (padded req) 5) (byteAt (padded req) 4)).toNat = qdCount (padded req)
      from rfl]
    by_cases hbig : dnsMaxLen < qdCount (padded req) * answerLen + req.length
    · simp only [if_pos hbig]
      exact ⟨r4, rfl, hh⟩
    · simp only [if_neg hbig]
      obtain ⟨r5, hr5, hb5⟩ : ∃ r5, answerLoop netif ipInfo req.length (qdCount (padded req)) r4
          name = .ok ((rounds netif ipInfo req.length (qdCount (padded req)) r4.bytes).1, r5) ∧
          r5.bytes = (rounds netif ipInfo req.length (qdCount (padded req)) r4.bytes).2 := by
        cases hk : qdCount (padded req) with
        | zero => exact ⟨r4, rfl, rfl⟩
        | succ k =>
          rw [hk, Nat.succ_mul] at hbig
          have hlen : req.length + answerLen ≤ dnsMaxLen := by omega
          refine answerLoop_ok netif ipInfo hlen (k + 1) r4 name (Or.inl ?_)
          have hlast : req.length ≤ dnsMaxLen - 1 := by
            unfold answerLen at hlen
            omega
          rw [hh, byteAt_replyHeader_of_le h12 (by decide), byteAt_padded_of_le hlast]
      rw [hh] at hr5 hb5
      simp only [hr5]
      cases (rounds netif ipInfo req.length (qdCount (padded req)) (replyHeader (padded req))).1
      · exact ⟨r5, rfl, hb5⟩
      · exact ⟨r5, rfl, hb5⟩

/-- A request that does not fit the reply buffer is refused. -/
theorem parseDnsRequest_long {req : List Byte} (h : dnsMaxLen < req.length)
    (dnsReply : Buf dnsMaxLen) (name : Buf nameMaxLen) :
    parseDnsRequest netif ipInfo req dnsReply name = .ok (-1, dnsReply) := by
  unfold parseDnsRequest
  rw [if_pos h]
  rfl

/-- A positive result comes from `respond`. -/
theorem respond_of_parse {req : List Byte} {dnsReply : Buf dnsMaxLen} {name : Buf nameMaxLen}
    {r : Int} {reply : Buf dnsMaxLen}
    (hr : parseDnsRequest netif ipInfo req dnsReply name = .ok (r, reply)) (hpos : 0 < r) :
    req.length ≤ dnsMaxLen ∧ respond netif ipInfo req = (r, reply.bytes) := by
  by_cases h : dnsMaxLen < req.length
  · rw [parseDnsRequest_long h] at hr
    cases hr
    exact absurd hpos (by decide)
  · obtain ⟨reply', hr', hb⟩ := parseDnsRequest_ok netif ipInfo (Nat.le_of_not_lt h) dnsReply name
    rw [hr] at hr'
    cases hr'
    exact ⟨Nat.le_of_not_lt h, Prod.ext rfl hb.symm⟩

/-! ## The loop -/

section Loop

variable {reqLen : Nat} {z : List Byte}

/-- The type read after a name of length `e`. -/
def questionType (z : List Byte) (e : Nat) : BitVec 16 :=
  le16 (byteAt z (headerLen + e + 2)) (byteAt z (headerLen + e + 1))

/-- The class read after a name of length `e`. -/
def questionClass (z : List Byte) (e : Nat) : BitVec 16 :=
  le16 (byteAt z (headerLen + e + 4)) (byteAt z (headerLen + e + 3))

/-- What a round writes to the answer slot. -/
def slotBytes (netif : Option Ip4) (ipInfo : Ip4) (qdClass : BitVec 16) : List Byte :=
  answerBytes 0xC00C#16 qdTypeA qdClass (espNetifGetIpInfo netif ipInfo)

@[simp] theorem length_slotBytes (c : BitVec 16) :
    (slotBytes netif ipInfo c).length = answerLen := rfl

theorem round_none (h : nameWalk z headerLen = none) : round netif ipInfo reqLen z = none := by
  unfold round
  rw [h]

/-- **What one round does**, once the name parses. -/
theorem round_some {e : Nat} (h : nameWalk z headerLen = some e) :
    round netif ipInfo reqLen z = some (if questionType z e = qdTypeA then
      writeAt z reqLen (slotBytes netif ipInfo (questionClass z e)) else z) := by
  unfold round
  rw [h]
  simp only [show le16 (byteAt z (headerLen + e + 1 + 1)) (byteAt z (headerLen + e + 1)) =
    questionType z e from rfl]
  by_cases hA : questionType z e = qdTypeA
  · rw [if_pos hA, if_pos hA, hA]
    rfl
  · rw [if_neg hA, if_neg hA]

/-- A question of another type leaves the buffer alone, however often it is read. -/
theorem rounds_other {e : Nat} (h : nameWalk z headerLen = some e)
    (hA : questionType z e ≠ qdTypeA) (k : Nat) :
    rounds netif ipInfo reqLen k z = (true, z) := by
  induction k with
  | zero => rfl
  | succ k ih =>
    unfold rounds
    rw [round_some h, if_neg hA]
    exact ih

/-- What is left of a buffer when bytes from `reqLen` on change. -/
structure AgreesBelow (reqLen : Nat) (z z' : List Byte) : Prop where
  length_eq : z'.length = z.length
  below : ∀ i, i < reqLen → byteAt z' i = byteAt z i
  above : ∀ i, reqLen + answerLen ≤ i → byteAt z' i = byteAt z i

theorem AgreesBelow.refl : AgreesBelow reqLen z z := ⟨rfl, fun _ _ => rfl, fun _ _ => rfl⟩

theorem AgreesBelow.trans {z' z'' : List Byte} (h : AgreesBelow reqLen z z')
    (h' : AgreesBelow reqLen z' z'') : AgreesBelow reqLen z z'' :=
  ⟨h'.length_eq.trans h.length_eq, fun i hi => (h'.below i hi).trans (h.below i hi),
    fun i hi => (h'.above i hi).trans (h.above i hi)⟩

theorem agreesBelow_slot (netif : Option Ip4) (ipInfo : Ip4)
    (hfit : reqLen + answerLen ≤ z.length) (c : BitVec 16) :
    AgreesBelow reqLen z (writeAt z reqLen (slotBytes netif ipInfo c)) := by
  have hfit' : reqLen + (slotBytes netif ipInfo c).length ≤ z.length := hfit
  refine ⟨length_writeAt hfit', fun i hi => byteAt_writeAt_of_lt hfit' hi, fun i hi => ?_⟩
  rw [byteAt_writeAt hfit', length_slotBytes, if_neg (by omega)]

/-- A name and type that lie below the slot are read again as they were. -/
theorem AgreesBelow.question {z' : List Byte} {e : Nat} (hz : AgreesBelow reqLen z z')
    (h : nameWalk z headerLen = some e) (hin : headerLen + e + 3 ≤ reqLen) :
    nameWalk z' headerLen = some e ∧ questionType z' e = questionType z e := by
  refine ⟨nameRun_congr_some h fun i hi => (hz.below _ (by omega)).symm, ?_⟩
  unfold questionType
  rw [hz.below _ (by omega), hz.below _ (by omega)]

/-- **A question of type A below the slot**: every round succeeds, and only the slot changes. -/
theorem rounds_typeA {e : Nat} (hin : headerLen + e + 3 ≤ reqLen) (k : Nat) (z : List Byte)
    (hfit : reqLen + answerLen ≤ z.length) (h : nameWalk z headerLen = some e)
    (hA : questionType z e = qdTypeA) :
    (rounds netif ipInfo reqLen k z).1 = true ∧
      AgreesBelow reqLen z (rounds netif ipInfo reqLen k z).2 := by
  induction k generalizing z with
  | zero => exact ⟨rfl, AgreesBelow.refl⟩
  | succ k ih =>
    have hz := agreesBelow_slot netif ipInfo hfit (questionClass z e)
    obtain ⟨hw, ht⟩ := hz.question h hin
    obtain ⟨h1, h2⟩ := ih _ (by rw [hz.length_eq]; exact hfit) hw (ht.trans hA)
    unfold rounds
    rw [round_some h, if_pos hA]
    exact ⟨h1, hz.trans h2⟩

end Loop

/-! ## The request's question, as the loop reads it -/

section Question

variable {req : List Byte}

/-- Past the header, the buffer the loop starts from is the zero-padded request. -/
theorem byteAt_start (h : req.length ≤ dnsMaxLen) {i : Nat} (hi : headerLen ≤ i) :
    byteAt (replyHeader (padded req)) i = byteAt (padded req) i :=
  byteAt_replyHeader_of_le (by rw [length_padded h]; decide) hi

theorem nameWalk_start (h : req.length ≤ dnsMaxLen) :
    nameWalk (replyHeader (padded req)) headerLen = nameWalk (padded req) headerLen :=
  nameRun_congr (fun _ _ => byteAt_start h (Nat.le_add_right _ _)) (Nat.zero_le _)

theorem questionType_start (h : req.length ≤ dnsMaxLen) (e : Nat) :
    questionType (replyHeader (padded req)) e = questionType (padded req) e := by
  unfold questionType
  rw [byteAt_start h (by omega), byteAt_start h (by omega)]

/-- **A type of A was sent**: its low byte is not zero, so it is not padding, and the name and
the type lie inside the request. -/
theorem typeA_inside {e : Nat} (hA : questionType (padded req) e = qdTypeA) :
    headerLen + e + 3 ≤ req.length := by
  by_contra hc
  unfold questionType at hA
  rw [byteAt_padded_of_le (by omega : req.length ≤ headerLen + e + 2)] at hA
  have hlo := congrArg loByte hA
  rw [loByte_le16] at hlo
  exact absurd hlo (by decide)

theorem length_start (h : req.length ≤ dnsMaxLen) :
    (replyHeader (padded req)).length = dnsMaxLen := by
  rw [length_replyHeader (by rw [length_padded h]; decide), length_padded h]

/-- **The loop on a request**: it runs to its end unless the first parse of the name fails, and
it changes nothing outside the answer slot. -/
theorem rounds_request (netif : Option Ip4) (ipInfo : Ip4) (h : req.length ≤ dnsMaxLen) {k : Nat}
    (hk : k * answerLen + req.length ≤ dnsMaxLen) :
    ((rounds netif ipInfo req.length k (replyHeader (padded req))).1 = true ↔
      k = 0 ∨ nameWalk (padded req) headerLen ≠ none) ∧
    AgreesBelow req.length (replyHeader (padded req))
      (rounds netif ipInfo req.length k (replyHeader (padded req))).2 := by
  rw [← nameWalk_start h]
  cases k with
  | zero => exact ⟨⟨fun _ => Or.inl rfl, fun _ => rfl⟩, AgreesBelow.refl⟩
  | succ k =>
    have hfit : req.length + answerLen ≤ (replyHeader (padded req)).length := by
      rw [length_start h]
      rw [Nat.succ_mul] at hk
      omega
    cases hw : nameWalk (replyHeader (padded req)) headerLen with
    | none =>
      unfold rounds
      rw [round_none hw]
      exact ⟨by simp, AgreesBelow.refl⟩
    | some e =>
      simp only [ne_eq, reduceCtorEq, not_false_eq_true, or_true, iff_true]
      by_cases hA : questionType (replyHeader (padded req)) e = qdTypeA
      · have hin := typeA_inside ((questionType_start h e).symm.trans hA)
        exact rounds_typeA hin (k + 1) _ hfit hw hA
      · rw [rounds_other hw hA]
        exact ⟨rfl, AgreesBelow.refl⟩

/-- **The returned `int`**, without the loop. -/
theorem respond_fst (netif : Option Ip4) (ipInfo : Ip4) (h : req.length ≤ dnsMaxLen) :
    (respond netif ipInfo req).1 =
      if byteAt (padded req) 3 &&& 0x78#8 ≠ 0 then 0
      else if dnsMaxLen < qdCount (padded req) * answerLen + req.length then -1
      else if qdCount (padded req) = 0 ∨ nameWalk (padded req) headerLen ≠ none then
        ((qdCount (padded req) * answerLen + req.length : Nat) : Int)
      else -1 := by
  simp only [respond]
  split
  · rfl
  · split
    · rfl
    · rename_i hbig
      have hloop := (rounds_request netif ipInfo h (Nat.le_of_not_lt hbig)).1
      by_cases hr : (rounds netif ipInfo req.length (qdCount (padded req))
          (replyHeader (padded req))).1 = true
      · rw [if_pos hr, if_pos (hloop.mp hr)]
      · rw [if_neg hr, if_neg (fun hn => hr (hloop.mpr hn))]

/-- **What a positive result says**: the request was taken, and has this length. -/
theorem respond_fst_pos (h : req.length ≤ dnsMaxLen) (hpos : 0 < (respond netif ipInfo req).1) :
    byteAt (padded req) 3 &&& 0x78#8 = 0 ∧
      qdCount (padded req) * answerLen + req.length ≤ dnsMaxLen ∧
      (qdCount (padded req) = 0 ∨ nameWalk (padded req) headerLen ≠ none) ∧
      (respond netif ipInfo req).1 =
        ((qdCount (padded req) * answerLen + req.length : Nat) : Int) := by
  rw [respond_fst netif ipInfo h] at hpos ⊢
  by_cases hop : byteAt (padded req) 3 &&& 0x78#8 ≠ 0
  · rw [if_pos hop] at hpos
    exact absurd hpos (Int.lt_irrefl 0)
  · rw [if_neg hop] at hpos ⊢
    by_cases hbig : dnsMaxLen < qdCount (padded req) * answerLen + req.length
    · rw [if_pos hbig] at hpos
      exact absurd hpos (by decide)
    · rw [if_neg hbig] at hpos ⊢
      by_cases hname : qdCount (padded req) = 0 ∨ nameWalk (padded req) headerLen ≠ none
      · rw [if_pos hname]
        exact ⟨not_not.mp hop, Nat.le_of_not_lt hbig, hname, rfl⟩
      · rw [if_neg hname] at hpos
        exact absurd hpos (by decide)

/-- The reply never outgrows the buffer. -/
theorem respond_fst_le (netif : Option Ip4) (ipInfo : Ip4) (h : req.length ≤ dnsMaxLen) :
    (respond netif ipInfo req).1 ≤ dnsMaxLen := by
  by_cases hpos : 0 < (respond netif ipInfo req).1
  · obtain ⟨-, hfit, -, hr⟩ := respond_fst_pos h hpos
    rw [hr]
    exact Int.ofNat_le.mpr hfit
  · exact Int.le_trans (Int.not_lt.mp hpos) (Int.natCast_nonneg _)

/-- **The reply**, outside the answer slot, is the request with its header updated. -/
theorem respond_snd (h : req.length ≤ dnsMaxLen) (hpos : 0 < (respond netif ipInfo req).1) :
    AgreesBelow req.length (replyHeader (padded req)) (respond netif ipInfo req).2 := by
  simp only [respond] at hpos ⊢
  split
  · rename_i hop
    rw [if_pos hop] at hpos
    exact absurd hpos (Int.lt_irrefl 0)
  · split
    · exact AgreesBelow.refl
    · rename_i hbig
      have hloop := (rounds_request netif ipInfo h (Nat.le_of_not_lt hbig)).2
      split <;> exact hloop

end Question

end Gateway.Dns
