import Gateway.Dns.Respond
import Gateway.Lib.System

/-!
# The responder on hostile datagrams, and two responders facing each other

* **`parseDnsRequest_in_bounds`**: on any byte string `dns_server_task` can hand over,
  `parse_dns_request` and `parse_dns_name` terminate and stay inside the reply and name buffers.
* `serveDatagram_ok`: one turn of `dns_server_task` never faults, and sends what `replyTo` says.
* `replyTo_none_iff`: which datagrams are not answered. The QR bit is not tested anywhere: a
  response is turned away exactly like a query (`Rejected`).

The second part puts two responders on one network. A datagram carries, as a ghost, the datagram
it was sent in answer to.

* `netStep_mem`: where a datagram in flight comes from. `noReplyToReply_iff`: a run has no reply to
  a reply exactly when every response it delivers to a responder is turned away.
* **`response_unanswered_iff`**: both results together. `response_answered`: the responder answers
  the reply it makes to a plain query, and its answer to that again.
-/

namespace Gateway.Dns

open Gateway.Lib

variable {netif : Option Ip4} {ipInfo : Ip4}

/-- **Hostile-datagram safety.** Whatever the up to 127 bytes received and the previous contents
of the arrays, the call returns, and no access falls outside the 256-byte reply buffer or the
128-byte name buffer. -/
theorem parseDnsRequest_in_bounds (netif : Option Ip4) (ipInfo : Ip4) (req : List Byte)
    (h : req.length ≤ 127) (dnsReply : Buf dnsMaxLen) (name : Buf nameMaxLen) :
    ∃ r reply, parseDnsRequest netif ipInfo req dnsReply name = .ok (r, reply) := by
  have hreq : req.length ≤ dnsMaxLen := by
    unfold dnsMaxLen
    omega
  obtain ⟨reply, hr, -⟩ := parseDnsRequest_ok netif ipInfo hreq dnsReply name
  exact ⟨_, reply, hr⟩

/-- A truncated header announcing 15 questions, all length bytes 255. -/
theorem parseDnsRequest_in_bounds_garbage :
    ∃ r reply, parseDnsRequest none ⟨0, 0, 0, 0⟩
      ([0, 0, 0, 0, 0, 15, 0, 0, 0, 0, 0, 0] ++ List.replicate 4 255)
      (Buf.fill dnsMaxLen 7) (Buf.fill nameMaxLen 7) = .ok (r, reply) :=
  parseDnsRequest_in_bounds _ _ _ (by decide) _ _

/-! ## A turn of `dns_server_task` -/

/-- What a turn on the datagram `d` sends. -/
def replyTo (netif : Option Ip4) (ipInfo : Ip4) (d : List Byte) : Option (List Byte) :=
  let r := respond netif ipInfo (d.take (rxLen - 1))
  if r.1 ≤ 0 then none else some (slice r.2 0 r.1.toNat)

theorem length_received (d : List Byte) : (d.take (rxLen - 1)).length < rxLen := by
  rw [List.length_take]
  unfold rxLen
  omega

theorem received_le (d : List Byte) : (d.take (rxLen - 1)).length ≤ dnsMaxLen :=
  Nat.le_of_lt (Nat.lt_trans (length_received d) (by decide))

/-- **A turn never faults**, whatever the locals held, and sends what `replyTo` says. -/
theorem serveDatagram_ok (netif : Option Ip4) (loc : Locals) (d : List Byte) :
    serveDatagram netif loc d = .ok (replyTo netif loc.ipInfo d) := by
  have hlt := length_received d
  obtain ⟨rx1, h1, hb1⟩ := loc.rxBuffer.store_ok 0 (d.take (rxLen - 1)) (by omega)
  obtain ⟨rx2, h2, hb2⟩ := rx1.store_ok (d.take (rxLen - 1)).length [0]
    (by rw [List.length_singleton]; omega)
  have hload : rx2.load 0 (d.take (rxLen - 1)).length = .ok (d.take (rxLen - 1)) := by
    rw [rx2.load_ok (by omega), hb2, hb1, slice_writeAt_writeAt]
  obtain ⟨reply, hr, hb⟩ := parseDnsRequest_ok netif loc.ipInfo (received_le d) loc.reply loc.name
  unfold serveDatagram replyTo
  simp only [h1, h2, hload, hr, bind, Except.bind]
  split
  · rfl
  · have hle := respond_fst_le netif loc.ipInfo (received_le d)
    rw [reply.load_ok (by omega), hb]
    rfl

/-! ## Which datagrams are not answered -/

/-- The QR bit of the header. -/
def QrSet (d : List Byte) : Prop := byteAt d 2 &&& 0x80#8 ≠ 0

instance (d : List Byte) : Decidable (QrSet d) := inferInstanceAs (Decidable (_ ≠ _))

/-- The tests a datagram fails when it is turned away: it is empty, or the low four bits of the
tested flags byte are set, or the reply would outgrow the buffer, or a first name is announced
and does not parse. None of them looks at the QR bit. -/
def Rejected (d : List Byte) : Prop :=
  let req := d.take (rxLen - 1)
  req = [] ∨ byteAt (padded req) 3 &&& 0x78#8 ≠ 0 ∨
    dnsMaxLen < qdCount (padded req) * answerLen + req.length ∨
    (qdCount (padded req) ≠ 0 ∧ nameWalk (padded req) headerLen = none)

instance (d : List Byte) : Decidable (Rejected d) :=
  inferInstanceAs (Decidable (_ ∨ _ ∨ _ ∨ _))

/-- **A datagram is left unanswered** exactly when one of the tests turns it away. -/
theorem replyTo_none_iff (netif : Option Ip4) (ipInfo : Ip4) (d : List Byte) :
    replyTo netif ipInfo d = none ↔ Rejected d := by
  have hlt := received_le d
  unfold replyTo Rejected
  generalize d.take (rxLen - 1) = req at hlt ⊢
  have hle : (if (respond netif ipInfo req).1 ≤ 0 then none else
      some (slice (respond netif ipInfo req).2 0 (respond netif ipInfo req).1.toNat)) = none ↔
        (respond netif ipInfo req).1 ≤ 0 := by simp
  rw [hle, respond_fst netif ipInfo hlt]
  split
  · rename_i hop
    exact ⟨fun _ => Or.inr (Or.inl hop), fun _ => Int.le_refl 0⟩
  · rename_i hop
    split
    · rename_i hbig
      exact ⟨fun _ => Or.inr (Or.inr (Or.inl hbig)), fun _ => by omega⟩
    · rename_i hbig
      split
      · rename_i hname
        -- the loop ran to its end: the length is sent unless it is zero
        constructor
        · intro h0
          have hreq : req.length = 0 := by omega
          exact Or.inl (List.length_eq_zero_iff.mp hreq)
        · rintro (rfl | h | h | ⟨hk, hn⟩)
          · decide
          · exact absurd h hop
          · exact absurd h hbig
          · exact absurd hname (not_or.mpr ⟨hk, fun h => h hn⟩)
      · rename_i hname
        rw [not_or, ne_eq, not_not] at hname
        exact ⟨fun _ => Or.inr (Or.inr (Or.inr hname)), fun _ => by omega⟩

/-! ## Two responders on one network -/

/-- The two responders, and everyone else. -/
inductive Host where
  | server (b : Bool)
  | client
  deriving DecidableEq, Repr

/-- A datagram in flight. One that a responder sent carries, as a ghost, the datagram it
answers. -/
inductive Msg where
  | original (src dst : Host) (payload : List Byte)
  | reply (answered : Msg) (payload : List Byte)
  deriving DecidableEq

namespace Msg

def payload : Msg → List Byte
  | original _ _ d => d
  | reply _ d => d

/-- The sender and the receiver: `sendto` goes back to `source_addr`. -/
def ends : Msg → Host × Host
  | original src dst _ => (src, dst)
  | reply m _ => (m.ends.2, m.ends.1)

def dst (m : Msg) : Host := m.ends.2

/-- A response: its QR bit is set, or a responder sent it. -/
def IsResponse (m : Msg) : Prop := QrSet m.payload ∨ ∃ m' p, m = reply m' p

/-- Sent by a responder in answer to a response. -/
def ReplyToReply (m : Msg) : Prop := ∃ m' p, m = reply m' p ∧ m'.IsResponse

end Msg

/-- What happens next on the network: the datagram at a place is delivered (to a responder whose
locals are `loc`), or lost, or anyone sends a datagram, under any source address. -/
inductive NetAction where
  | deliver (i : Nat) (loc : Locals)
  | lose (i : Nat)
  | send (src dst : Host) (payload : List Byte)

/-- One step of the network. Responder `b` has the address `netif b`. -/
def netStep (netif : Bool → Option Ip4) (flight : List Msg) : NetAction → Option (List Msg)
  | .send src dst payload => some (flight ++ [.original src dst payload])
  | .lose i => some (flight.eraseIdx i)
  | .deliver i loc =>
    match flight[i]? with
    | none => none
    | some m =>
      match m.dst with
      | .client => some (flight.eraseIdx i)
      | .server b =>
        match serveDatagram (netif b) loc m.payload with
        | .error _ => none
        | .ok none => some (flight.eraseIdx i)
        | .ok (some p) => some (flight.eraseIdx i ++ [.reply m p])

/-- A response this step delivers to a responder is one that is turned away. -/
def RejectsResponses (flight : List Msg) : NetAction → Prop
  | .deliver i _ => ∀ m b, flight[i]? = some m → m.dst = .server b → m.IsResponse →
      Rejected m.payload
  | _ => True

variable {netif : Bool → Option Ip4} {flight flight' : List Msg} {a : NetAction}

/-- A delivery to a responder. -/
theorem netStep_deliver {i : Nat} {loc : Locals} {m : Msg} {b : Bool} (hi : flight[i]? = some m)
    (hb : m.dst = .server b) : netStep netif flight (.deliver i loc) =
      some (match replyTo (netif b) loc.ipInfo m.payload with
        | none => flight.eraseIdx i
        | some p => flight.eraseIdx i ++ [.reply m p]) := by
  simp only [netStep, hi, hb, serveDatagram_ok]
  cases replyTo (netif b) loc.ipInfo m.payload <;> rfl

/-- **Where a datagram in flight comes from**: it was there, or a host sends it, or a responder
answers a delivered datagram with it. -/
theorem netStep_mem (hs : netStep netif flight a = some flight') {x : Msg} (hx : x ∈ flight') :
    x ∈ flight ∨ (∃ src dst d, x = .original src dst d) ∨
      ∃ i loc m b p, a = .deliver i loc ∧ flight[i]? = some m ∧ m.dst = .server b ∧
        replyTo (netif b) loc.ipInfo m.payload = some p ∧ x = .reply m p := by
  cases a with
  | send src dst d =>
    cases hs
    rcases List.mem_append.mp hx with h | h
    · exact Or.inl h
    · exact Or.inr (Or.inl ⟨src, dst, d, List.mem_singleton.mp h⟩)
  | lose i =>
    cases hs
    exact Or.inl (List.mem_of_mem_eraseIdx hx)
  | deliver i loc =>
    cases hi : flight[i]? with
    | none =>
      simp only [netStep, hi] at hs
      exact absurd hs (by simp)
    | some m =>
      cases hd : m.dst with
      | client =>
        simp only [netStep, hi, hd] at hs
        cases hs
        exact Or.inl (List.mem_of_mem_eraseIdx hx)
      | server b =>
        rw [netStep_deliver hi hd] at hs
        cases hr : replyTo (netif b) loc.ipInfo m.payload with
        | none =>
          rw [hr] at hs
          cases hs
          exact Or.inl (List.mem_of_mem_eraseIdx hx)
        | some p =>
          rw [hr] at hs
          cases hs
          rcases List.mem_append.mp hx with h | h
          · exact Or.inl (List.mem_of_mem_eraseIdx h)
          · exact Or.inr (Or.inr ⟨i, loc, m, b, p, rfl, hi, hd, hr, List.mem_singleton.mp h⟩)

/-- **The step lemma**: a step that turns responses away adds no reply to a reply. -/
theorem noReplyToReply_step (h : ∀ m ∈ flight, ¬ m.ReplyToReply)
    (hc : RejectsResponses flight a) (hs : netStep netif flight a = some flight') :
    ∀ m ∈ flight', ¬ m.ReplyToReply := by
  intro x hx
  rcases netStep_mem hs hx with hold | ⟨src, dst, d, rfl⟩ | ⟨i, loc, m, b, p, rfl, hi, hb, hr, rfl⟩
  · exact h x hold
  · rintro ⟨m', p, hm, -⟩
    cases hm
  · rintro ⟨m', p', hm, hresp⟩
    cases hm
    have hrej := hc m b hi hb hresp
    rw [(replyTo_none_iff (netif b) loc.ipInfo m.payload).mpr hrej] at hr
    exact absurd hr (by simp)

/-- A response that is delivered and not turned away is answered. -/
theorem rejectsResponses_of_step (netif : Bool → Option Ip4)
    (h : ∀ flight', netStep netif flight a = some flight' → ∀ m ∈ flight', ¬ m.ReplyToReply) :
    RejectsResponses flight a := by
  cases a with
  | send _ _ _ => trivial
  | lose _ => trivial
  | deliver i loc =>
    intro m b hi hb hresp
    rw [← replyTo_none_iff (netif b) loc.ipInfo]
    cases hr : replyTo (netif b) loc.ipInfo m.payload with
    | none => rfl
    | some p =>
      have hs : netStep netif flight (.deliver i loc) = _ := netStep_deliver hi hb
      rw [hr] at hs
      exact absurd ⟨m, p, rfl, hresp⟩
        (h _ hs (.reply m p) (List.mem_append_right _ List.mem_cons_self))

/-- **The run lemma**: a run is free of replies to replies exactly when every response it
delivers to a responder is turned away. -/
theorem noReplyToReply_iff (as : List NetAction) (flight : List Msg)
    (h0 : ∀ m ∈ flight, ¬ m.ReplyToReply) :
    (∀ pre, pre <+: as → ∀ s, runActs (netStep netif) flight pre = some s →
        ∀ m ∈ s, ¬ m.ReplyToReply) ↔
      AllSteps (netStep netif) RejectsResponses flight as := by
  induction as generalizing flight with
  | nil =>
    refine ⟨fun _ => trivial, fun _ pre hpre s hr => ?_⟩
    rw [List.prefix_nil.mp hpre] at hr
    cases hr
    exact h0
  | cons a as ih =>
    constructor
    · intro h
      refine ⟨rejectsResponses_of_step netif fun s hs => ?_, fun s hs => ?_⟩
      · exact h [a] (by simp) s (by simp only [runActs, hs])
      · refine (ih s (h [a] (by simp) s (by simp only [runActs, hs]))).mp ?_
        intro pre hpre t ht
        refine h (a :: pre) (List.cons_prefix_cons.mpr ⟨rfl, hpre⟩) t ?_
        simpa only [runActs, hs] using ht
    · rintro ⟨hc, hrest⟩ pre hpre s hr
      cases pre with
      | nil =>
        cases hr
        exact h0
      | cons b pre =>
        obtain ⟨rfl, hpre'⟩ := List.cons_prefix_cons.mp hpre
        obtain ⟨t, ht, hr'⟩ := runActs_cons hr
        exact (ih t (noReplyToReply_step h0 hc ht)).mpr (hrest t ht) pre hpre' s hr'

/-- **A response is left unanswered exactly when another test turns it away.** For one datagram:
`dns_server_task` sends nothing in answer to a response exactly when `Rejected` holds of it. For
two responders and any datagrams in flight: a run contains no reply to a reply exactly when every
response it delivers to a responder is rejected. -/
theorem response_unanswered_iff (netif : Bool → Option Ip4) {flight : List Msg}
    (h0 : ∀ m ∈ flight, ¬ m.ReplyToReply) (as : List NetAction) :
    (∀ b loc d, QrSet d → (serveDatagram (netif b) loc d = .ok none ↔ Rejected d)) ∧
    ((∀ pre, pre <+: as → ∀ s, runActs (netStep netif) flight pre = some s →
        ∀ m ∈ s, ¬ m.ReplyToReply) ↔
      AllSteps (netStep netif) RejectsResponses flight as) := by
  refine ⟨fun b loc d _ => ?_, noReplyToReply_iff as flight h0⟩
  rw [serveDatagram_ok, Except.ok.injEq, replyTo_none_iff]

/-- The responder answers its own reply, and two responders exchange replies to replies. -/
theorem response_answered :
    serveDatagram (some apIp) .zero queryA = .ok (some replyA) ∧ QrSet replyA ∧
      serveDatagram (some apIp) .zero replyA = .ok (some (replyA ++ slotA)) ∧
      ∃ s, runActs (netStep fun _ => some apIp)
          [.original (.server true) (.server false) queryA]
          [.deliver 0 .zero, .deliver 0 .zero] = some s ∧ ∃ m ∈ s, m.ReplyToReply := by
  have hq : replyTo (some apIp) Locals.zero.ipInfo queryA = some replyA := by decide +kernel
  have hr : replyTo (some apIp) Locals.zero.ipInfo replyA = some (replyA ++ slotA) := by
    decide +kernel
  have hqr : QrSet replyA := by decide
  refine ⟨by rw [serveDatagram_ok, hq], hqr, by rw [serveDatagram_ok, hr], ?_⟩
  refine ⟨[.reply (.reply (.original (.server true) (.server false) queryA) replyA)
    (replyA ++ slotA)], ?_, _, List.mem_cons_self, _, _, rfl, Or.inl hqr⟩
  rw [runActs, netStep_deliver rfl rfl]
  simp only [Msg.payload, hq]
  rw [runActs, netStep_deliver rfl rfl]
  simp only [Msg.payload, hr]
  rfl

/-- A response with code 9 is turned away, also on the network. -/
theorem response_unanswered_iff_notauth :
    serveDatagram none .zero [0, 1, 0x80, 9, 0, 0, 0, 0, 0, 0, 0, 0] = .ok none ∧
      ∀ s, runActs (netStep fun _ => none)
          [.original .client (.server false) [0, 1, 0x80, 9, 0, 0, 0, 0, 0, 0, 0, 0]]
          [.deliver 0 .zero] = some s → ∀ m ∈ s, ¬ m.ReplyToReply := by
  have hrej : Rejected [0, 1, 0x80, 9, 0, 0, 0, 0, 0, 0, 0, 0] := by decide +kernel
  have h0 : ∀ m ∈ [Msg.original .client (.server false) [0, 1, 0x80, 9, 0, 0, 0, 0, 0, 0, 0, 0]],
      ¬ m.ReplyToReply := by
    intro m hm
    rw [List.mem_singleton.mp hm]
    rintro ⟨m', p, h, -⟩
    cases h
  obtain ⟨hone, hruns⟩ := response_unanswered_iff (fun _ => none) h0 [.deliver 0 .zero]
  refine ⟨(hone false _ _ (by decide)).mpr hrej, hruns.mpr ?_ _ List.prefix_rfl⟩
  refine ⟨fun m b hi _ _ => ?_, fun _ _ => trivial⟩
  cases hi
  exact hrej

end Gateway.Dns
