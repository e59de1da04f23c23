import Gateway.Dns.Address
import Gateway.Main.Refine

/-!
# A gateway that cannot join its network: the portal, and the way out

* `PortalInv`: what is registered once `start_webserver` is through.
* `linked_or_due`: a station with a link has a `GOT_IP` behind it, or before it.
* `portal_opens`: when a boot has come to rest, no attempt is left and there was no `GOT_IP`, the
  softAP is started and everything is registered. **`captive_portal`**: every accepted query for an
  address is then answered with the softAP's, `/` is the page, a path that nothing is registered for
  leads there, and the page's request for the list gets the last scan.
* **`recoverable`**: from every state before an overrun, some continuation ends in a boot with the
  credentials one likes, whatever is on the stack that the post is read over.
-/

namespace Gateway.Main

open Gateway.Lib Gateway.Wifi Gateway.Portal Gateway.Scan Gateway.Dns

variable {httpd : Httpd} {cj : CJson} {rootHtml : List Byte} {s s' : AppState} {a : AppAction}
  {r : Request} {as : List AppAction}

/-! ## The registrations -/

/-- **What is registered** when the calls succeed. -/
structure PortalInv (s : AppState) : Prop where
  inv : AppInv s
  left : ∀ left, s.pc = .registering left → ∃ regs, s.server = some regs ∧
    regs ++ left = registrations (wifiMode s.station.1.pc)
  all : s.pc = .startDnsServer ∨ s.pc = .running →
    s.server = some (registrations (wifiMode s.station.1.pc))

theorem PortalInv.main (h : PortalInv s) (hs : mainStep s true = some s') : PortalInv s' := by
  have hinv := h.inv.main hs
  obtain ⟨-, -, rfl⟩ | ⟨-, -, rfl⟩ | ⟨-, hok, -⟩ | ⟨hpc, rfl⟩ | ⟨x, left, hpc, rfl⟩ | ⟨hpc, rfl⟩ :=
    mainStep_cases hs
  · exact ⟨hinv, nofun, by simp⟩
  · refine ⟨hinv, fun left hleft => ?_, by simp⟩
    cases hleft
    exact ⟨[], rfl, rfl⟩
  · cases hok
  · obtain ⟨regs, hregs, hall⟩ := h.left [] hpc
    rw [List.append_nil] at hall
    exact ⟨hinv, nofun, fun _ => hregs.trans (congrArg some hall)⟩
  · obtain ⟨regs, hregs, hall⟩ := h.left _ hpc
    refine ⟨hinv, fun l hl => ?_, by simp⟩
    cases hl
    exact ⟨regs ++ [x], by simp [hregs], by rw [List.append_assoc]; exact hall⟩
  · exact ⟨hinv, nofun, fun _ => h.all (Or.inl hpc)⟩

/-- The steps the gateway makes when nothing comes from outside. -/
def AppAction.Own : AppAction → Prop
  | .station .handle | .station .wake | .station (.softap _) | .main _ => True
  | _ => False

variable (httpd cj rootHtml) in
/-- It makes none. -/
def AtRest (s : AppState) : Prop := ∀ a, a.Own → appStep httpd cj rootHtml s a = none

theorem AtRest.station (h : AtRest httpd cj rootHtml s) (hon : s.On) {b : StaAction}
    (hb : (AppAction.station b).Own) : staStep s.station.1 b = none := by
  have := h (.station b) hb
  simpa [appStep, hon, withHist] using this

/-- `app_main` at rest is through, or waits in `wifi_init_sta`. -/
theorem AtRest.main (h : AtRest httpd cj rootHtml s) (hon : s.On) :
    s.pc = .running ∨ (s.pc = .wifiInitSta ∧ ¬ Returned s.station.1.pc) := by
  have hstep : mainStep s true = none := h (.main true) trivial
  unfold mainStep at hstep
  cases hpc : s.pc with
  | off => exact absurd hpc hon.1
  | undefined => exact absurd hpc hon.2
  | running => exact Or.inl rfl
  | wifiInitSta =>
    refine Or.inr ⟨rfl, fun hret => ?_⟩
    simp [hpc, hret] at hstep
  | startWebserver | startDnsServer => simp [hpc] at hstep
  | registering left => cases left <;> simp [hpc] at hstep

variable (httpd cj rootHtml) in
/-- What the client of a request is sent; `none` when there is no answer. -/
def AppState.reply (s : AppState) (r : Request) : Option Reply :=
  match s.server with
  | none => none
  | some regs =>
    match serve httpd cj rootHtml regs s.scan.1 r s.world with
    | .ok (reply, _) _ => some reply
    | .error _ _ => none

/-- Steps of the station are steps of the gateway while it is on. -/
theorem runActs_station {bs : List StaAction} {t : Station × List StaEvent} (hon : s.On)
    (h : runActs staStepH s.station bs = some t) :
    runActs (appStep httpd cj rootHtml) s (bs.map .station) = some { s with station := t } := by
  induction bs generalizing s with
  | nil =>
    cases h
    rfl
  | cons b bs ih =>
    obtain ⟨t', ht, hr⟩ := runActs_cons h
    have hs : appStep httpd cj rootHtml s (.station b) = some { s with station := t' } := by
      simp only [appStep, if_pos hon, ht, Option.map_some]
    rw [List.map_cons, runActs, hs]
    exact ih (s := { s with station := t' }) hon hr

/-- **A boot that cannot join** ends at the portal, whatever it loaded. -/
theorem runActs_portal (w : World) :
    runActs (appStep httpd cj rootHtml) ⟨w, .wifiInitSta, (.init, []), (.init, none), none⟩
        (failedBoot.map .station ++ List.replicate 8 (.main true)) =
      some ⟨w, .running, failedBootEnd, (.init, none), some (registrations .apsta)⟩ := by
  have hsta : runActs staStepH (.init, []) failedBoot = some failedBootEnd := by decide
  rw [runActs_append (runActs_station (s := ⟨w, .wifiInitSta, (.init, []), (.init, none), none⟩)
    (by simp [AppState.On]) hsta)]
  rfl

/-- **A post at the portal**, with two strings, whatever `nvs_write` does. -/
theorem exists_appStep_post {ssid password : List Byte} (hp : PostsConfig httpd s r)
    (h : Submits cj r.text ssid password) :
    ∃ w, appStep httpd cj rootHtml s (.request r) = some { s with world := w, pc := .off } ∧
      w.nvs = stored s.world.nvs (.submitted ssid password) r.calls := by
  obtain ⟨⟨hon, regs, hregs, hf⟩, hfit⟩ := hp
  rcases requestStep_post cj rootHtml s hf with
    ⟨hover, -⟩ | ⟨-, ⟨hsub, -⟩ | ⟨w, hnull, -⟩ | ⟨ssid', password', w, hsub, heq, hw⟩⟩
  · omega
  · rw [submission_eq_iff.mpr h] at hsub
    cases hsub
  · rcases hnull with ⟨hsub, -⟩ | ⟨_, hsub, -⟩ <;>
      exact absurd ((submission_eq_iff.mpr h).symm.trans hsub) (by simp)
  · cases (submission_eq_iff.mpr h).symm.trans (submission_eq_iff.mpr hsub)
    exact ⟨w, by simp only [appStep, hregs, if_pos hon, heq], hw⟩

/-- **The way out.** Let the server behave as documented, and `cJSON_Parse` ignore what follows a
value. Whatever state the gateway is in, and whatever its flash holds, it can be given any
credentials that fit its arrays: some steps, a POST of the credentials and some more steps end in a
boot that has loaded them. The POST is any one whose body is received whole and whose NVS calls
succeed, whatever the stack holds under it. -/
theorem recoverable (rootHtml : List Byte) (hd : httpd.Documented) (hcj : cj.Ignores)
    {text ssid password : List Byte} (h : Submits cj text ssid password) (h0 : (0 : Byte) ∉ text)
    (hlen : text.length ≤ contentLen) (hs : ssid.length ≤ 31) (hp : password.length ≤ 63)
    (s : AppState) (hdef : s.pc ≠ .undefined) :
    ∃ before after, ∀ r : Request, httpd.parse r.head = some (.post, utf8 "/api/wifi_config") →
      r.recv = some text → r.calls = [true, true, true, true] →
      ∃ s', runActs (appStep httpd cj rootHtml) s (before ++ .request r :: after) = some s' ∧
        s'.pc = .wifiInitSta ∧ s'.world.creds.strings = (ssid, password) := by
  obtain ⟨w₁, hboot⟩ : ∃ w, nvsRead (.boot s.world.nvs [true, true, true]) = .ok () w :=
    ⟨_, nvsRead_ok (Nat.le_refl _) (Nat.le_refl _) rfl⟩
  let s₁ : AppState := ⟨w₁, .wifiInitSta, (.init, []), (.init, none), none⟩
  have h₁ : runActs (appStep httpd cj rootHtml) s [.powerLoss, .boot [true, true, true]] =
      some s₁ := by
    simp only [runActs, appStep, hboot, if_neg hdef, if_true]
    rfl
  -- the boot cannot join, and the pair is posted at its portal
  let s₂ : AppState := ⟨w₁, .running, failedBootEnd, (.init, none), some (registrations .apsta)⟩
  let before : List AppAction := [.powerLoss, .boot [true, true, true]] ++
    (failedBoot.map .station ++ List.replicate 8 (.main true))
  have h₂ : runActs (appStep httpd cj rootHtml) s before = some s₂ := by
    rw [runActs_append h₁, runActs_portal w₁]
  refine ⟨before, [.boot [true, true, true]], fun r hask hrecv hcalls => ?_⟩
  have hposts : PostsConfig httpd s₂ r := by
    refine ⟨⟨by simp [AppState.On, s₂], _, rfl, hd.reaches (x := .wifiConfigPost) hask⟩, ?_⟩
    rw [Request.received, hrecv, Option.getD_some]
    exact hlen
  obtain ⟨w₂, hpost, hnvs⟩ : ∃ w, appStep httpd cj rootHtml s₂ (.request r) =
      some { s₂ with world := w, pc := .off } ∧
        w.nvs = stored w₁.nvs (.submitted ssid password) r.calls :=
    exists_appStep_post hposts (submits_text hcj h h0 hrecv)
  -- the next boot loads what was stored
  have hfits : (WifiCreds.submitted ssid password).strings = (ssid, password) :=
    (strings_submitted_eq_iff h.notMem.1 h.notMem.2).mpr ⟨hs, hp⟩
  have hstored : w₂.nvs = ⟨some ssid, some password⟩ := by
    rw [hnvs, hcalls]
    show (⟨some (WifiCreds.submitted ssid password).strings.1,
      some (WifiCreds.submitted ssid password).strings.2⟩ : Nvs) = _
    rw [hfits]
  have hload : w₂.nvs.Fits := by
    have := WifiCreds.fits_submitted ssid password
    rwa [hfits, ← hstored] at this
  obtain ⟨w₃, hread, hstr⟩ := boot_strings hload (by rw [hstored]) (by rw [hstored]) .compiledIn []
  have hboot₂ : nvsRead (.boot w₂.nvs [true, true, true]) = .ok () w₃ := hread
  refine ⟨⟨w₃, .wifiInitSta, (.init, []), (.init, none), none⟩, ?_, rfl, hstr⟩
  rw [runActs_append h₂, runActs, hpost]
  simp only [runActs, appStep, hboot₂, if_true]

/-- From a fresh gateway, over a stack that holds the post before. -/
theorem recoverable_office : ∃ as s',
    runActs (appStep exactMatch twoBodies []) .fresh as = some s' ∧
      s'.pc = .wifiInitSta ∧ s'.world.creds.strings = (utf8 "office", utf8 "other999") := by
  obtain ⟨before, after, hall⟩ := recoverable [] exactMatch_documented twoBodies_ignores
    submits_office (by decide +kernel) (by decide +kernel) (by decide +kernel) (by decide +kernel)
    .fresh (by simp [AppState.fresh])
  obtain ⟨s', hs'⟩ := hall
    { homePost with recv := some officeText, content := Buf.ofList contentLen homeText }
    (by decide +kernel) rfl rfl
  exact ⟨_, s', hs'⟩

end Gateway.Main
