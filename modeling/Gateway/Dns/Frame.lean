import Gateway.Dns.Respond

/-!
# What a reply changes, and the answers that are written

`answersWritten` lists the answers the question loop of `parse_dns_request` writes, with the offset
of each: it follows `round`, and `rounds_replay` says that writing them in order is all the loop
does to the buffer.

* `AsksA`: the name parses and the type after it is A. `answersWritten_typeA`,
  `answersWritten_other`: then every round writes an answer, else none does.
* `respond_snd_other`: without an answer, only the header changes.
* **`reply_frame`**: on any received bytes, a reply differs from the zero-extended request in QR, in
  the answer count, and in the 16 bytes of an answer, which stand after a full header.
-/

namespace Gateway.Dns

open Gateway.Lib

/-- The name parses, and the type after it is A. -/
def AsksA (z : List Byte) : Prop := (nameWalk z headerLen).map (questionType z) = some qdTypeA

instance (z : List Byte) : Decidable (AsksA z) := inferInstanceAs (Decidable (_ = _))

section Writes

variable (netif : Option Ip4) (ipInfo : Ip4) (reqLen : Nat)

/-- The answer one round writes: its offset and its bytes. -/
def answerWritten (z : List Byte) : Option (Nat × List Byte) :=
  match nameWalk z headerLen with
  | none => none
  | some e =>
    if questionType z e = qdTypeA then
      some (reqLen, slotBytes netif ipInfo (questionClass z e))
    else none

/-- The answers the question loop writes in `k` rounds, in order. -/
def answersWritten : Nat → List Byte → List (Nat × List Byte)
  | 0, _ => []
  | k + 1, z =>
    match round netif ipInfo reqLen z with
    | none => []
    | some z' => (answerWritten netif ipInfo reqLen z).toList ++ answersWritten k z'

end Writes

/-- Write the answers in order. -/
def replay (z : List Byte) (ws : List (Nat × List Byte)) : List Byte :=
  ws.foldl (fun z w => writeAt z w.1 w.2) z

/-- The answers `parse_dns_request` writes. -/
def answers (netif : Option Ip4) (ipInfo : Ip4) (req : List Byte) : List (Nat × List Byte) :=
  let z := padded req
  if byteAt z 3 &&& 0x78#8 ≠ 0 then []
  else if dnsMaxLen < qdCount z * answerLen + req.length then []
  else answersWritten netif ipInfo req.length (qdCount z) (replyHeader z)

variable {netif : Option Ip4} {ipInfo : Ip4} {reqLen : Nat} {z : List Byte}

/-! ## The answers of the loop -/

theorem asksA_iff : AsksA z ↔ ∃ e, nameWalk z headerLen = some e ∧ questionType z e = qdTypeA := by
  unfold AsksA
  rw [Option.map_eq_some_iff]

/-- A round writes its answer and nothing else. -/
theorem round_replay {z' : List Byte} (h : round netif ipInfo reqLen z = some z') :
    z' = replay z (answerWritten netif ipInfo reqLen z).toList := by
  unfold answerWritten
  cases hw : nameWalk z headerLen with
  | none =>
    rw [round_none hw] at h
    exact absurd h (by simp)
  | some e =>
    rw [round_some hw, Option.some.injEq] at h
    by_cases hA : questionType z e = qdTypeA
    · rw [if_pos hA] at h
      simp only [if_pos hA]
      exact h.symm
    · rw [if_neg hA] at h
      simp only [if_neg hA]
      exact h.symm

/-- **The loop writes its answers and nothing else.** -/
theorem rounds_replay (k : Nat) (z : List Byte) :
    (rounds netif ipInfo reqLen k z).2 = replay z (answersWritten netif ipInfo reqLen k z) := by
  induction k generalizing z with
  | zero => rfl
  | succ k ih =>
    unfold rounds answersWritten
    cases hr : round netif ipInfo reqLen z with
    | none => rfl
    | some z' =>
      simp only
      rw [ih z', round_replay hr]
      unfold replay
      rw [List.foldl_append]

/-- An answer goes to the end of the request. -/
theorem answerWritten_some {w : Nat × List Byte}
    (h : answerWritten netif ipInfo reqLen z = some w) :
    ∃ c, w = (reqLen, slotBytes netif ipInfo c) := by
  unfold answerWritten at h
  split at h
  · exact absurd h (by simp)
  · rename_i e he
    split at h
    · exact ⟨_, by simpa using h.symm⟩
    · exact absurd h (by simp)

theorem mem_answersWritten (k : Nat) (z : List Byte) {w : Nat × List Byte}
    (h : w ∈ answersWritten netif ipInfo reqLen k z) :
    ∃ c, w = (reqLen, slotBytes netif ipInfo c) := by
  induction k generalizing z with
  | zero => exact absurd h (by simp [answersWritten])
  | succ k ih =>
    unfold answersWritten at h
    split at h
    · exact absurd h (by simp)
    · rename_i z' hr
      rcases List.mem_append.mp h with hw | hw
      · exact answerWritten_some (Option.mem_toList.mp hw)
      · exact ih z' hw

/-- No round writes an answer when the type is another. -/
theorem answersWritten_other (hA : ¬ AsksA z) (k : Nat) :
    answersWritten netif ipInfo reqLen k z = [] := by
  induction k with
  | zero => rfl
  | succ k ih =>
    unfold answersWritten answerWritten
    cases hw : nameWalk z headerLen with
    | none => rw [round_none hw]
    | some e =>
      have hne : questionType z e ≠ qdTypeA := fun ht => hA (asksA_iff.mpr ⟨e, hw, ht⟩)
      rw [round_some hw, if_neg hne]
      simp only [if_neg hne]
      exact ih

/-- Every round writes an answer when the type is A. -/
theorem answersWritten_typeA {e : Nat} (hin : headerLen + e + 3 ≤ reqLen) (k : Nat) (z : List Byte)
    (hfit : reqLen + answerLen ≤ z.length) (h : nameWalk z headerLen = some e)
    (hA : questionType z e = qdTypeA) :
    (answersWritten netif ipInfo reqLen k z).length = k := by
  induction k generalizing z with
  | zero => rfl
  | succ k ih =>
    have hz := agreesBelow_slot netif ipInfo hfit (questionClass z e)
    obtain ⟨hw, ht⟩ := hz.question h hin
    have hrest := ih _ (by rw [hz.length_eq]; exact hfit) hw (ht.trans hA)
    unfold answersWritten answerWritten
    rw [round_some h, if_pos hA, h]
    simp only [if_pos hA, Option.toList_some, List.singleton_append, List.length_cons, hrest]

/-! ## The answers of a request -/

variable {req : List Byte}

theorem asksA_start (h : req.length ≤ dnsMaxLen) :
    AsksA (replyHeader (padded req)) ↔ AsksA (padded req) := by
  rw [asksA_iff, asksA_iff]
  simp only [nameWalk_start h, questionType_start h]

/-- **Every answer is a slot**, at the end of the request. -/
theorem mem_answers {w : Nat × List Byte} (h : w ∈ answers netif ipInfo req) :
    ∃ c, w = (req.length, slotBytes netif ipInfo c) := by
  simp only [answers] at h
  split at h
  · exact absurd h (by simp)
  · split at h
    · exact absurd h (by simp)
    · exact mem_answersWritten _ _ h

/-- An answer is only written for a question of type A that lies inside the request. -/
theorem answers_inside (h : req.length ≤ dnsMaxLen) (hne : answers netif ipInfo req ≠ []) :
    qdCount (padded req) ≠ 0 ∧ AsksA (padded req) ∧ headerLen + 3 ≤ req.length := by
  simp only [answers] at hne
  split at hne
  · exact absurd rfl hne
  · split at hne
    · exact absurd rfl hne
    · have hA : AsksA (padded req) := by
        by_contra hA
        exact hne (answersWritten_other (fun hs => hA ((asksA_start h).mp hs)) _)
      obtain ⟨e, -, ht⟩ := asksA_iff.mp hA
      have hin := typeA_inside ht
      refine ⟨fun h0 => ?_, hA, by omega⟩
      rw [h0] at hne
      exact hne rfl

/-- **An answer is written** for every question counted, when the first one is of type A and the
request is taken. -/
theorem length_answers (netif : Option Ip4) (ipInfo : Ip4) (h : req.length ≤ dnsMaxLen)
    (hstd : byteAt (padded req) 3 &&& 0x78#8 = 0)
    (hfit : qdCount (padded req) * answerLen + req.length ≤ dnsMaxLen) (hA : AsksA (padded req)) :
    (answers netif ipInfo req).length = qdCount (padded req) := by
  obtain ⟨e, hw, ht⟩ := asksA_iff.mp hA
  simp only [answers, hstd]
  rw [if_neg (by simp), if_neg (by omega)]
  cases hk : qdCount (padded req) with
  | zero => rfl
  | succ k =>
    rw [hk, Nat.succ_mul] at hfit
    refine answersWritten_typeA (typeA_inside ht) (k + 1) _ ?_ ((nameWalk_start h).trans hw)
      ((questionType_start h e).trans ht)
    rw [length_start h]
    omega

/-- A reply is the request with its header updated and the answers written. -/
theorem respond_snd_replay (hpos : 0 < (respond netif ipInfo req).1) :
    (respond netif ipInfo req).2 =
      replay (replyHeader (padded req)) (answers netif ipInfo req) := by
  simp only [respond, answers] at hpos ⊢
  split
  · rename_i hop
    rw [if_pos hop] at hpos
    exact absurd hpos (Int.lt_irrefl 0)
  · split
    · rfl
    · rw [← rounds_replay]
      split <;> rfl

/-- Without an answer, only the header changes. -/
theorem respond_snd_other (h : req.length ≤ dnsMaxLen) (hpos : 0 < (respond netif ipInfo req).1)
    (hA : ¬ (qdCount (padded req) ≠ 0 ∧ AsksA (padded req))) :
    (respond netif ipInfo req).2 = replyHeader (padded req) := by
  have hnil : answers netif ipInfo req = [] := by
    by_contra hne
    obtain ⟨hk, ha, -⟩ := answers_inside h hne
    exact hA ⟨hk, ha⟩
  rw [respond_snd_replay hpos, hnil]
  rfl

/-- The header of a reply, byte by byte. -/
theorem byteAt_respond (h : req.length ≤ dnsMaxLen) (hpos : 0 < (respond netif ipInfo req).1)
    {i : Nat} (hi : i < headerLen) :
    byteAt (respond netif ipInfo req).2 i = byteAt (replyHeader (padded req)) i := by
  by_cases hA : qdCount (padded req) ≠ 0 ∧ AsksA (padded req)
  · obtain ⟨e, -, ht⟩ := asksA_iff.mp hA.2
    have hin := typeA_inside ht
    exact (respond_snd h hpos).below i (by omega)
  · rw [respond_snd_other h hpos hA]

/-! ## The frame -/

/-- **A reply changes nothing else.** On any 0 to 127 received bytes, a reply has the length of the
request and 16 bytes a counted question, at most 256. Against the zero-extended request, QR is set,
the answer count is the question count, and any other byte that differs lies in the one answer
slot, of a request whose first question parses and is of type A. Writing the answers is all that
happens to the request copy after its header was updated; each of them has 16 bytes and starts at
the end of the request, which holds a full header. -/
theorem reply_frame (netif : Option Ip4) (ipInfo : Ip4) (req : List Byte) (h : req.length ≤ 127)
    (dnsReply : Buf dnsMaxLen) (name : Buf nameMaxLen) {r : Int} {reply : Buf dnsMaxLen}
    (hr : parseDnsRequest netif ipInfo req dnsReply name = .ok (r, reply)) (hpos : 0 < r) :
    r = ((req.length + 16 * qdCount (padded req) : Nat) : Int) ∧ r ≤ 256 ∧
    byteAt reply.bytes 2 = byteAt (padded req) 2 ||| 0x80#8 ∧
    (byteAt reply.bytes 6 = byteAt (padded req) 4 ∧ byteAt reply.bytes 7 = byteAt (padded req) 5) ∧
    (∀ i, i ≠ 2 → i ≠ 6 → i ≠ 7 → byteAt reply.bytes i ≠ byteAt (padded req) i →
      1 ≤ qdCount (padded req) ∧ AsksA (padded req) ∧ req.length ≤ i ∧ i < req.length + 16) ∧
    reply.bytes = replay (replyHeader (padded req)) (answers netif ipInfo req) ∧
    ∀ w ∈ answers netif ipInfo req, w.1 = req.length ∧ w.2.length = 16 ∧ 12 ≤ req.length := by
  have hle : req.length ≤ dnsMaxLen := by
    unfold dnsMaxLen
    omega
  have h12 : headerLen ≤ (padded req).length := by
    rw [length_padded hle]
    decide
  obtain ⟨reply', hr', hb⟩ := parseDnsRequest_ok netif ipInfo hle dnsReply name
  rw [hr] at hr'
  cases hr'
  have hhead := byteAt_replyHeader h12
  refine ⟨?_, ?_, ?_, ⟨?_, ?_⟩, ?_, ?_, ?_⟩
  · rw [(respond_fst_pos hle hpos).2.2.2, Nat.add_comm, Nat.mul_comm]
    rfl
  · exact respond_fst_le netif ipInfo hle
  · rw [hb, byteAt_respond hle hpos (by decide), hhead, if_pos rfl]
  · rw [hb, byteAt_respond hle hpos (by decide), hhead, if_neg (by decide), if_pos rfl]
  · rw [hb, byteAt_respond hle hpos (by decide), hhead, if_neg (by decide), if_neg (by decide),
      if_pos rfl]
  · intro i h2 h6 h7 hne
    have hsame : byteAt (replyHeader (padded req)) i = byteAt (padded req) i := by
      rw [hhead, if_neg h2, if_neg h6, if_neg h7]
    rw [hb, ← hsame] at hne
    by_cases hA : qdCount (padded req) ≠ 0 ∧ AsksA (padded req)
    · have hagree := respond_snd hle hpos
      refine ⟨Nat.pos_of_ne_zero hA.1, hA.2, ?_, ?_⟩
      · by_contra hlt
        exact hne (hagree.below i (by omega))
      · by_contra hge
        exact hne (hagree.above i (Nat.le_of_not_lt hge))
    · rw [respond_snd_other hle hpos hA] at hne
      exact absurd rfl hne
  · rw [hb, respond_snd_replay hpos]
  · intro w hw
    obtain ⟨-, -, hin⟩ := answers_inside hle (List.ne_nil_of_mem hw)
    obtain ⟨c, rfl⟩ := mem_answers hw
    exact ⟨rfl, length_slotBytes c, Nat.le_trans (by decide) hin⟩

/-- A plain query is answered. -/
theorem parseDnsRequest_queryA : parseDnsRequest (some apIp) apIp queryA (Buf.fill dnsMaxLen 7)
    (Buf.fill nameMaxLen 7) = .ok (35, Buf.ofList dnsMaxLen replyA) := by decide +kernel

theorem reply_frame_queryA : (Buf.ofList dnsMaxLen replyA).bytes =
    replay (replyHeader (padded queryA)) (answers (some apIp) apIp queryA) :=
  (reply_frame _ _ queryA (by decide) _ _ parseDnsRequest_queryA (by decide)).2.2.2.2.2.1

end Gateway.Dns
