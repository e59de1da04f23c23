import Gateway.Dns.Exchange
import Gateway.Dns.Frame
import Gateway.Wifi.Station

/-!
# Which address an answer carries

`wifi_init_softapsta` is the only caller of `esp_netif_create_default_wifi_ap` (`WiFi.c:147`), so
the `WIFI_AP_DEF` interface exists in portal mode only; `app_main` starts the DNS server after
`wifi_init_sta`, whatever branch it returned through. Without the interface
`esp_netif_get_ip_info` leaves `ip_info` as it is, its error is not looked at, and the answer goes
out with what the stack held.

* `slice_replay`: after any answers, the slot holds one of them whole.
* `respond_none`: an accepted query for an address gets the old content of `ip_info` back.
* **`address_iff`**: after a boot, the addresses handed out are the softAP's, and the replies do
  not depend on the old content of `ip_info`, exactly in portal mode or for a datagram that is not
  an accepted query for an address.
-/

namespace Gateway.Dns

open Gateway.Lib Gateway.Wifi

/-- `app_main` has started the DNS server: `wifi_init_sta` has returned. -/
def DnsStarted (pc : InitPc) : Prop := pc ≠ .waiting ∧ pc ≠ .startingSoftap

instance (pc : InitPc) : Decidable (DnsStarted pc) := inferInstanceAs (Decidable (_ ∧ _))

/-- The address of `WIFI_AP_DEF` once `wifi_init_sta` has returned, with `ip` the one
`wifi_init_softapsta` gets for it. -/
def apInterface (ip : Ip4) : InitPc → Option Ip4
  | .portal => some ip
  | _ => none

/-- Every answer written for `req` carries the interface's address; without an interface there is
none. -/
def AnswersWithAp (netif : Option Ip4) (req : List Byte) : Prop :=
  ∀ ipInfo, ∀ w ∈ answers netif ipInfo req, ∃ ip, netif = some ip ∧ w.2.drop 12 = ip.octets

/-- The reply to `d` does not depend on what `ip_info` held. -/
def IgnoresIpInfo (netif : Option Ip4) (d : List Byte) : Prop :=
  ∀ loc ipInfo, serveDatagram netif { loc with ipInfo := ipInfo } d = serveDatagram netif loc d

/-- An accepted query whose first question is of type A. -/
def AsksAddress (req : List Byte) : Prop :=
  byteAt (padded req) 3 &&& 0x78#8 = 0 ∧
    qdCount (padded req) * answerLen + req.length ≤ dnsMaxLen ∧
    qdCount (padded req) ≠ 0 ∧ AsksA (padded req)

instance (req : List Byte) : Decidable (AsksAddress req) :=
  inferInstanceAs (Decidable (_ ∧ _ ∧ _ ∧ _))

variable {netif : Option Ip4} {ipInfo : Ip4} {req : List Byte}

/-! ## The answer slot of a reply -/

/-- **What the answers leave in their slot**: one of them, whole. -/
theorem slice_replay {reqLen : Nat} {ws : List (Nat × List Byte)} {z : List Byte}
    (hfit : reqLen + answerLen ≤ z.length)
    (hws : ∀ w ∈ ws, ∃ c, w = (reqLen, slotBytes netif ipInfo c)) (hne : ws ≠ []) :
    ∃ c, slice (replay z ws) reqLen answerLen = slotBytes netif ipInfo c := by
  induction ws generalizing z with
  | nil => exact absurd rfl hne
  | cons w ws ih =>
    obtain ⟨c, rfl⟩ := hws w List.mem_cons_self
    have hfit' : reqLen + (slotBytes netif ipInfo c).length ≤ z.length := hfit
    by_cases hnil : ws = []
    · -- the last answer stays
      subst hnil
      exact ⟨c, slice_writeAt (slotBytes netif ipInfo c) (by omega)⟩
    · exact ih (by rw [length_writeAt hfit']; exact hfit)
        (fun w hw => hws w (List.mem_cons_of_mem _ hw)) hnil

/-- The last four bytes of an answer are the address. -/
theorem slotBytes_octets (netif : Option Ip4) (ipInfo : Ip4) (c : BitVec 16) :
    (slotBytes netif ipInfo c).drop 12 = (espNetifGetIpInfo netif ipInfo).octets := rfl

/-- Answers are written for the accepted queries for an address. -/
theorem answers_ne_nil_iff (netif : Option Ip4) (ipInfo : Ip4) (h : req.length ≤ dnsMaxLen) :
    answers netif ipInfo req ≠ [] ↔ AsksAddress req := by
  constructor
  · intro hne
    obtain ⟨hk, hA, -⟩ := answers_inside h hne
    simp only [answers] at hne
    split at hne
    · exact absurd rfl hne
    · rename_i hstd
      split at hne
      · exact absurd rfl hne
      · rename_i hbig
        exact ⟨not_not.mp hstd, Nat.le_of_not_lt hbig, hk, hA⟩
  · rintro ⟨hstd, hfit, hk, hA⟩ hnil
    have hlen := length_answers netif ipInfo h hstd hfit hA
    rw [hnil] at hlen
    exact hk hlen.symm

/-- An accepted query for an address gets a positive result. -/
theorem respond_fst_asksAddress (netif : Option Ip4) (ipInfo : Ip4) (h : req.length ≤ dnsMaxLen)
    (hq : AsksAddress req) :
    (respond netif ipInfo req).1 = ((qdCount (padded req) * answerLen + req.length : Nat) : Int) ∧
      0 < (respond netif ipInfo req).1 := by
  obtain ⟨hstd, hfit, hk, hA⟩ := hq
  obtain ⟨e, hw, -⟩ := asksA_iff.mp hA
  have hr : (respond netif ipInfo req).1 =
      ((qdCount (padded req) * answerLen + req.length : Nat) : Int) := by
    rw [respond_fst netif ipInfo h, if_neg (not_not.mpr hstd), if_neg (Nat.not_lt.mpr hfit),
      if_pos (Or.inr (by rw [hw]; simp))]
  have hk16 : 0 < qdCount (padded req) * answerLen :=
    Nat.mul_pos (Nat.pos_of_ne_zero hk) (by decide)
  refine ⟨hr, ?_⟩
  rw [hr]
  omega

/-- **The reply to an accepted query for an address**: its answer slot is an answer. -/
theorem replyTo_asksAddress {d : List Byte} (netif : Option Ip4) (ipInfo : Ip4)
    (hq : AsksAddress (d.take (rxLen - 1))) :
    ∃ p c, replyTo netif ipInfo d = some p ∧
      slice p (d.take (rxLen - 1)).length answerLen = slotBytes netif ipInfo c := by
  have hlen := received_le d
  unfold replyTo
  generalize d.take (rxLen - 1) = req at hlen hq ⊢
  obtain ⟨hr, hpos⟩ := respond_fst_asksAddress netif ipInfo hlen hq
  have hk16 : answerLen ≤ qdCount (padded req) * answerLen :=
    Nat.le_mul_of_pos_left _ (Nat.pos_of_ne_zero hq.2.2.1)
  have hfit := hq.2.1
  obtain ⟨c, hc⟩ := slice_replay (z := replyHeader (padded req)) (by rw [length_start hlen]; omega)
    (fun w => mem_answers) ((answers_ne_nil_iff netif ipInfo hlen).mpr hq)
  refine ⟨_, c, if_neg (Int.not_le.mpr hpos), ?_⟩
  rw [← hc, ← respond_snd_replay hpos, hr, Int.toNat_natCast]
  unfold slice
  rw [List.drop_zero, List.drop_take, List.take_take, Nat.min_eq_left (by omega)]

/-! ## What the reply depends on -/

/-- The loop only uses `ip_info` through `esp_netif_get_ip_info`. -/
theorem rounds_congr {a b : Ip4} (h : espNetifGetIpInfo netif a = espNetifGetIpInfo netif b)
    (reqLen k : Nat) (z : List Byte) :
    rounds netif a reqLen k z = rounds netif b reqLen k z := by
  induction k generalizing z with
  | zero => rfl
  | succ k ih =>
    have hround : round netif a reqLen z = round netif b reqLen z := by
      unfold round
      rw [h]
    unfold rounds
    rw [hround]
    cases round netif b reqLen z with
    | none => rfl
    | some z' => exact ih z'

/-- With the interface, or without an answer, the reply does not depend on `ip_info`. -/
theorem replyTo_congr {d : List Byte} (a b : Ip4)
    (h : espNetifGetIpInfo netif a = espNetifGetIpInfo netif b ∨
      ¬ AsksAddress (d.take (rxLen - 1))) :
    replyTo netif a d = replyTo netif b d := by
  have hlen := received_le d
  unfold replyTo
  generalize d.take (rxLen - 1) = req at hlen h ⊢
  rcases h with hip | hno
  · have hresp : respond netif a req = respond netif b req := by
      unfold respond
      simp only [rounds_congr hip]
    rw [hresp]
  · have hnil : ∀ c, answers netif c req = [] := by
      intro c
      by_contra hne
      exact hno ((answers_ne_nil_iff _ _ hlen).mp hne)
    have hfst : (respond netif a req).1 = (respond netif b req).1 := by
      rw [respond_fst netif a hlen, respond_fst netif b hlen]
    by_cases hle : (respond netif b req).1 ≤ 0
    · simp only [hfst, if_pos hle]
    · have hpos := Int.not_le.mp hle
      simp only [hfst, if_neg hle, respond_snd_replay hpos, hnil,
        respond_snd_replay (hfst ▸ hpos)]

/-- **Without the interface, an accepted query for an address tells what `ip_info` held.** -/
theorem replyTo_none_ne {d : List Byte} (hq : AsksAddress (d.take (rxLen - 1))) {a b : Ip4}
    (hab : a.octets ≠ b.octets) : replyTo none a d ≠ replyTo none b d := by
  obtain ⟨p, c, hp, hslot⟩ := replyTo_asksAddress none a hq
  obtain ⟨p', c', hp', hslot'⟩ := replyTo_asksAddress none b hq
  rw [hp, hp']
  intro heq
  cases heq
  have hdrop := congrArg (List.drop 12) (hslot.symm.trans hslot')
  rw [slotBytes_octets, slotBytes_octets] at hdrop
  exact hab hdrop

/-! ## After a boot -/

/-- **Which addresses are handed out.** After any boot in which the DNS server is started, and for
any datagram: every answer carries the softAP's address, and no answer is written without a softAP,
exactly in portal mode or when the datagram is not an accepted query for an address. The reply is
independent of the previous contents of `ip_info` in just these cases. -/
theorem address_iff {p : Station × List StaEvent} (hr : Reach staStepH (.init, []) p)
    (hdns : DnsStarted p.1.pc) (ip : Ip4) (d : List Byte) :
    (AnswersWithAp (apInterface ip p.1.pc) (d.take (rxLen - 1)) ↔
      p.1.pc = .portal ∨ ¬ AsksAddress (d.take (rxLen - 1))) ∧
    (IgnoresIpInfo (apInterface ip p.1.pc) d ↔
      p.1.pc = .portal ∨ ¬ AsksAddress (d.take (rxLen - 1))) := by
  have hlen := received_le d
  have hreplies : ∀ netif, IgnoresIpInfo netif d ↔
      ∀ a b, replyTo netif a d = replyTo netif b d := by
    intro netif
    unfold IgnoresIpInfo
    simp only [serveDatagram_ok, Except.ok.injEq]
    exact ⟨fun h a b => h { Locals.zero with ipInfo := b } a, fun h loc a => h a loc.ipInfo⟩
  rw [hreplies]
  cases hpc : p.1.pc with
  | waiting => exact absurd hpc hdns.1
  | startingSoftap => exact absurd hpc hdns.2
  | unexpectedEvent => exact absurd hpc (staInv_reach hr).expected
  | portal =>
    refine ⟨⟨fun _ => Or.inl rfl, fun _ ipInfo w hw => ⟨ip, rfl, ?_⟩⟩,
      ⟨fun _ => Or.inl rfl, fun _ a b => replyTo_congr a b (Or.inl rfl)⟩⟩
    obtain ⟨c, rfl⟩ := mem_answers hw
    exact slotBytes_octets _ _ _
  | connectedToAp =>
    simp only [reduceCtorEq, false_or]
    constructor
    · constructor
      · intro h hq
        obtain ⟨w, hw⟩ := List.exists_mem_of_ne_nil _ ((answers_ne_nil_iff _ apIp hlen).mpr hq)
        obtain ⟨_, hnone, -⟩ := h apIp w hw
        exact absurd hnone (by simp [apInterface])
      · intro hno ipInfo w hw
        exact absurd ((answers_ne_nil_iff _ _ hlen).mp (List.ne_nil_of_mem hw)) hno
    · constructor
      · intro h hq
        exact replyTo_none_ne hq (a := ⟨0, 0, 0, 0⟩) (b := apIp) (by decide) (h _ _)
      · exact fun hno a b => replyTo_congr a b (Or.inr hno)

/-- In portal mode, after a boot that cannot join. -/
theorem address_iff_failedBoot :
    IgnoresIpInfo (apInterface apIp failedBootEnd.1.pc) queryA :=
  (address_iff ⟨failedBoot, by decide⟩ (by decide) apIp queryA).2.mpr (Or.inl rfl)

/-- A boot that joins. -/
def joinedBoot : List StaAction := [.handle, .attemptOk, .handle, .wake]

/-- After a boot that joined, a plain query gets an answer with what `ip_info` held. -/
theorem address_leaked :
    ∃ p : Station × List StaEvent, Reach staStepH (.init, []) p ∧ DnsStarted p.1.pc ∧
      ¬ AnswersWithAp (apInterface apIp p.1.pc) queryA ∧
      ¬ IgnoresIpInfo (apInterface apIp p.1.pc) queryA := by
  refine ⟨(⟨⟨0, true, false⟩, true, 0, [], .connectedToAp⟩, [.gotIp, .staStart]),
    ⟨joinedBoot, by decide⟩, by decide, fun h => ?_, fun h => ?_⟩
  · have hw : (19, slotBytes none apIp 1#16) ∈ answers none apIp queryA := by decide +kernel
    obtain ⟨ip, hnone, -⟩ := h apIp _ hw
    exact absurd hnone (by simp [apInterface])
  · have h0 := h Locals.zero ⟨10, 0, 0, 1⟩
    simp only [serveDatagram_ok, Except.ok.injEq] at h0
    exact absurd h0 (by decide +kernel)

end Gateway.Dns
