import Gateway.Main.App

/-!
# The gateway refines the device of its credentials

The `Device` of `Wifi/Reboot.lean` knows boots, submissions and power losses. Every run of the whole
gateway, with its station, its scan task, its server and the requests of all its clients, is a run
of that device as far as the flash and `wifi_creds` go, up to the first overrun: a POST that submits
two strings is a submission, one that makes the handler read through `NULL` is a power loss, and no
other step of any task is anything at all.

* `deviceOps`: the operations a step stands for. `Same`: the relation.
* **`app_refines`**: every run of the gateway is matched by a run of the device, whatever the server
  takes to `wifi_config_post_handler`.
* **`creds_posted`**: so what `wifi_creds` holds was compiled in, or was posted at the portal.
-/

namespace Gateway.Main

open Gateway.Lib Gateway.Wifi Gateway.Portal Gateway.Scan

variable (httpd : Httpd) (cj : CJson) (rootHtml : List Byte)

/-- What a request stands for that reaches `wifi_config_post_handler` and fits its array. -/
def postOps (r : Request) : List DevOp :=
  match submission cj r.text with
  | .refused => []
  | .nullSsid | .nullPassword _ => [.powerLoss]
  | .strings ssid password => [.post ssid password r.calls]

/-- The operations of `Device` that a step of the gateway stands for. -/
def deviceOps (s : AppState) : AppAction → List DevOp
  | .boot calls => [.boot calls]
  | .powerLoss => [.powerLoss]
  | .request r =>
    match s.server with
    | none => []
    | some regs =>
      if httpd.dispatch regs r.head = .handler .wifiConfigPost ∧ r.received.length ≤ contentLen then
        postOps cj r
      else []
  | _ => []

/-- The device holds what the gateway holds. -/
structure Same (s : AppState) (d : Device) : Prop where
  nvs : d.world.nvs = s.world.nvs
  creds : s.On → d.world.creds = s.world.creds
  running : d.running = true ↔ s.On

/-- The relation of the simulation. -/
def SameDefined (s : AppState) (d : Device) : Prop := s.pc ≠ .undefined → Same s d

variable {httpd} {cj} {rootHtml} {s s' : AppState} {a : AppAction} {r : Request} {d : Device}
  {as : List AppAction}

/-! ## Steps of the device -/

/-- A boot depends on the flash only. -/
theorem devStep_boot_congr {w : World} (hoff : d.running = false) (hn : d.world.nvs = w.nvs)
    (calls : List Bool) : devStep d (.boot calls) = devStep ⟨w, false⟩ (.boot calls) := by
  unfold devStep
  simp [hoff, hn]

/-- A running device takes every submission. -/
theorem exists_devStep_post (hon : d.running = true) (ssid password : List Byte)
    (calls : List Bool) : ∃ d', devStep d (.post ssid password calls) = some d' := by
  obtain ⟨w, hres, -⟩ := nvsWrite_ok
    { d.world with creds := .submitted ssid password, calls := calls }
  simp only [devStep, if_pos hon, WifiCreds.submit_ok]
  rcases hres with hres | hres
  · exact ⟨_, by rw [hres]⟩
  · exact ⟨_, by rw [hres]⟩

/-! ## The simulation -/

theorem Same.off {w : World} (hd : d.running = false) (hn : d.world.nvs = w.nvs) :
    Same { s with world := w, pc := .off } d where
  nvs := hn
  creds hon := absurd rfl hon.1
  running := by simp [hd, AppState.On]

theorem deviceOps_posts (h : PostsConfig httpd s r) :
    deviceOps httpd cj s (.request r) = postOps cj r := by
  obtain ⟨⟨-, regs, hregs, hf⟩, hfit⟩ := h
  simp only [deviceOps, hregs, hf, hfit, and_self, if_true]

theorem deviceOps_other (hon : s.On) (h : ¬ PostsConfig httpd s r) :
    deviceOps httpd cj s (.request r) = [] := by
  cases hregs : s.server with
  | none => simp only [deviceOps, hregs]
  | some regs =>
    have hno : ¬ (httpd.dispatch regs r.head = .handler .wifiConfigPost ∧
        r.received.length ≤ contentLen) := fun hf => h ⟨⟨hon, regs, hregs, hf.1⟩, hf.2⟩
    simp only [deviceOps, hregs, if_neg hno]

theorem postOps_null {w w' : World} (h : NullRead cj r.text w w') :
    postOps cj r = [.powerLoss] := by
  unfold postOps
  obtain ⟨hsub, -⟩ | ⟨ssid, hsub, -⟩ := h
  · rw [hsub]
  · rw [hsub]

/-- A request that changes nothing stands for nothing. -/
theorem deviceOps_inert (hon : s.On)
    (h : PostsConfig httpd s r → submission cj r.text = .refused) :
    deviceOps httpd cj s (.request r) = [] := by
  by_cases hp : PostsConfig httpd s r
  · rw [deviceOps_posts hp, postOps, h hp]
  · exact deviceOps_other hon hp

/-- One that goes on past an array is none that posts. -/
theorem Overruns.not_posts (h : Overruns httpd s r) : ¬ PostsConfig httpd s r := by
  rintro ⟨⟨-, regs, hregs, hf⟩, hfit⟩
  rcases h with ⟨-, hlt⟩ | ⟨⟨-, regs', hregs', hf'⟩, -⟩
  · omega
  · cases hregs.symm.trans hregs'
    rw [hf] at hf'
    cases hf'

/-- The gateway is on when it takes a request. -/
theorem on_of_request (h : appStep httpd cj rootHtml s (.request r) = some s') : s.On := by
  simp only [appStep] at h
  split at h
  · cases h
  · exact (Option.ite_none_right_eq_some.mp h).1

/-- A state from which a step is made is defined. -/
theorem defined_of_step (h : appStep httpd cj rootHtml s a = some s') : s.pc ≠ .undefined := by
  cases a with
  | boot calls =>
    rw [(appStep_boot h).1]
    simp
  | powerLoss => exact (appStep_powerLoss h).1
  | station | scan | main => exact (appStep_internal (by trivial) h).2.1.2
  | request r => exact (on_of_request h).2

/-- **The step lemma**: each step is matched. -/
theorem same_step (s : AppState) (d : Device) (a : AppAction) (s' : AppState)
    (h : SameDefined s d) (hs : appStep httpd cj rootHtml s a = some s') :
    ∃ d', runActs devStep d (deviceOps httpd cj s a) = some d' ∧ SameDefined s' d' := by
  have h : Same s d := h (defined_of_step hs)
  cases a with
  | boot calls =>
    obtain ⟨hoff, d', hd, hcase⟩ := appStep_boot hs
    have hno : ¬ s.On := fun hon => hon.1 hoff
    have hd0 : d.running = false := by
      have := h.running
      simpa [hno] using this
    refine ⟨d', runActs_single ((devStep_boot_congr hd0 h.nvs calls).trans hd), fun _ => ?_⟩
    obtain ⟨hon, rfl⟩ | ⟨hd', rfl⟩ := hcase
    · exact ⟨rfl, fun _ => rfl, by simp [hon, AppState.On]⟩
    · exact ⟨rfl, fun hon => absurd hon hno, by simp [hd', hoff, AppState.On]⟩
  | powerLoss =>
    obtain ⟨-, rfl⟩ := appStep_powerLoss hs
    exact ⟨⟨d.world, false⟩, rfl, fun _ => Same.off rfl h.nvs⟩
  | station | scan | main =>
    obtain ⟨hw, hon, hon'⟩ := appStep_internal (by trivial) hs
    refine ⟨d, rfl, fun _ => ⟨by rw [hw]; exact h.nvs, fun _ => by rw [hw]; exact h.creds hon, ?_⟩⟩
    simp [hon', h.running.mpr hon]
  | request r =>
    have hon := on_of_request hs
    obtain ⟨rfl, hno⟩ | ⟨w, hp, hnull, rfl⟩ | ⟨ssid, password, w, hp, hsub, rfl, hw⟩ |
      ⟨hover, rfl⟩ := appStep_request hs
    · rw [deviceOps_inert hon hno]
      exact ⟨d, rfl, fun _ => h⟩
    · rw [deviceOps_posts hp, postOps_null hnull]
      exact ⟨⟨d.world, false⟩, rfl, fun _ => Same.off rfl (h.nvs.trans hnull.nvs.symm)⟩
    · rw [deviceOps_posts hp, postOps, submission_eq_iff.mpr hsub]
      obtain ⟨d', hd⟩ := exists_devStep_post (h.running.mpr hon) ssid password r.calls
      obtain ⟨hnvs, hoff⟩ := devStep_post hd
      exact ⟨d', runActs_single hd, fun _ => Same.off hoff (by rw [hnvs, h.nvs, hw])⟩
    · rw [deviceOps_other hon hover.not_posts]
      exact ⟨d, rfl, fun hdef => absurd rfl hdef⟩

theorem same_fresh : SameDefined .fresh .fresh :=
  fun _ => ⟨rfl, fun _ => rfl, by simp [Device.fresh, AppState.fresh, AppState.On]⟩

/-- **The refinement.** Every run of the gateway, up to the first overrun, is matched by a run of
the device, with the same flash, the same `wifi_creds` while it is on, and on at the same time. -/
theorem app_refines (hr : runActs (appStep httpd cj rootHtml) .fresh as = some s)
    (hdef : s.pc ≠ .undefined) :
    ∃ d, runActs devStep .fresh
        (traceOf (appStep httpd cj rootHtml) (deviceOps httpd cj) .fresh as) = some d ∧
      Same s d := by
  obtain ⟨d, hd, hsame⟩ := run_simulated same_step as .fresh .fresh same_fresh s hr
  exact ⟨d, hd, hsame hdef⟩

/-- A boot that cannot join, a post at the portal, and the next boot. -/
def homeRun : List AppAction := portalRun ++ [.request homePost, .boot [true, true, true]]

theorem homeRun_creds : ∃ s, runActs (appStep exactMatch twoBodies []) .fresh homeRun = some s ∧
    s.pc = .wifiInitSta ∧ s.world.creds.strings = (utf8 "home", utf8 "secret77") := by
  have hrun : ((runActs (appStep exactMatch twoBodies []) .fresh homeRun).map fun s =>
      (s.pc, s.world.creds.strings)) =
        some (.wifiInitSta, utf8 "home", utf8 "secret77") := by decide +kernel
  obtain ⟨s, hs, hv⟩ := Option.map_eq_some_iff.mp hrun
  exact ⟨s, hs, congrArg Prod.fst hv, congrArg Prod.snd hv⟩

theorem app_refines_home : ∃ d, runActs devStep .fresh
    (traceOf (appStep exactMatch twoBodies []) (deviceOps exactMatch twoBodies) .fresh homeRun) =
      some d ∧
      d.running = true ∧ d.world.creds.strings = (utf8 "home", utf8 "secret77") := by
  obtain ⟨s, hs, hpc, hcreds⟩ := homeRun_creds
  have hon : s.On := by simp [AppState.On, hpc]
  obtain ⟨d, hd, hsame⟩ := app_refines hs hon.2
  exact ⟨d, hd, hsame.running.mpr hon, by rw [hsame.creds hon, hcreds]⟩

/-! ## What the gateway holds -/

theorem exists_post_of_submission {ops : List DevOp} {sub : List Byte × List Byte}
    (h : sub ∈ submissions ops) : ∃ ssid password calls, .post ssid password calls ∈ ops ∧
      sub = (WifiCreds.submitted ssid password).strings := by
  induction ops with
  | nil => exact absurd h List.not_mem_nil
  | cons op ops ih =>
    cases op with
    | post ssid password calls =>
      rcases List.mem_cons.mp h with rfl | h'
      · exact ⟨ssid, password, calls, List.mem_cons_self, rfl⟩
      · obtain ⟨ssid', password', calls', hmem, hsub⟩ := ih h'
        exact ⟨ssid', password', calls', List.mem_cons_of_mem _ hmem, hsub⟩
    | boot calls =>
      obtain ⟨ssid', password', calls', hmem, hsub⟩ := ih h
      exact ⟨ssid', password', calls', List.mem_cons_of_mem _ hmem, hsub⟩
    | powerLoss =>
      obtain ⟨ssid', password', calls', hmem, hsub⟩ := ih h
      exact ⟨ssid', password', calls', List.mem_cons_of_mem _ hmem, hsub⟩

variable (httpd cj rootHtml) in
/-- The pair, as `wifi_creds` holds it, was posted in the run while the portal was open. -/
def PostedAtPortal (as : List AppAction) (sub : List Byte × List Byte) : Prop :=
  ∃ before r after t ssid password, as = before ++ .request r :: after ∧
    runActs (appStep httpd cj rootHtml) .fresh before = some t ∧ t.station.1.pc = .portal ∧
    httpd.parse r.head = some (.post, utf8 "/api/wifi_config") ∧ Submits cj r.text ssid password ∧
    sub = (WifiCreds.submitted ssid password).strings

theorem postedAtPortal_of_mem (hd : httpd.Documented) {sub : List Byte × List Byte}
    (hr : runActs (appStep httpd cj rootHtml) .fresh as = some s)
    (h : sub ∈ submissions (traceOf (appStep httpd cj rootHtml) (deviceOps httpd cj) .fresh as)) :
    PostedAtPortal httpd cj rootHtml as sub := by
  obtain ⟨ssid, password, calls, hmem, rfl⟩ := exists_post_of_submission h
  obtain ⟨before, a, after, t, rfl, ht, hop⟩ := mem_traceOf hmem
  have hstep : ∃ t', appStep httpd cj rootHtml t a = some t' := by
    rw [runActs_append ht] at hr
    obtain ⟨t', hs, -⟩ := runActs_cons hr
    exact ⟨t', hs⟩
  cases a with
  | boot | powerLoss | station | scan | main => simp [deviceOps] at hop
  | request r =>
    obtain ⟨t', hs⟩ := hstep
    have hp : PostsConfig httpd t r := by
      by_contra hno
      rw [deviceOps_other (on_of_request hs) hno] at hop
      exact absurd hop List.not_mem_nil
    obtain ⟨hpc, hasks⟩ := (appInv_reach ⟨before, ht⟩).reaches hd hp.1
    rw [deviceOps_posts hp, postOps] at hop
    cases hsub : submission cj r.text with
    | refused => simp [hsub] at hop
    | nullSsid => simp [hsub] at hop
    | nullPassword ssid' => simp [hsub] at hop
    | strings ssid' password' =>
      simp only [hsub, List.mem_singleton, DevOp.post.injEq] at hop
      obtain ⟨rfl, rfl, rfl⟩ := hop
      exact ⟨before, r, after, t, ssid, password, rfl, ht, hpc, hasks, submission_eq_iff.mp hsub,
        rfl⟩

/-- What `wifi_creds` holds, by the submissions that the run stands for. -/
theorem creds_submitted (hr : runActs (appStep httpd cj rootHtml) .fresh as = some s)
    (hon : s.On) :
    let ops := traceOf (appStep httpd cj rootHtml) (deviceOps httpd cj) .fresh as
    let strings := s.world.creds.strings
    (strings.1 = WifiCreds.compiledIn.strings.1 ∨
      ∃ sub ∈ submissions ops, strings.1 = sub.1) ∧
    (strings.2 = WifiCreds.compiledIn.strings.2 ∨
      ∃ sub ∈ submissions ops, strings.2 = sub.2) ∧
    (torn ops = false → lostOne ops = false →
      strings = WifiCreds.compiledIn.strings ∨ strings ∈ submissions ops) := by
  intro ops strings
  obtain ⟨d, hd, hsame⟩ := run_simulated same_step as .fresh .fresh same_fresh s hr
  have hsame := hsame hon.2
  have hheld := held_run hd
  have hrun := hsame.running.mpr hon
  have hcreds : d.world.creds.strings = strings := by rw [hsame.creds hon]
  rw [← hcreds]
  refine ⟨?_, ?_, fun ht hl => ?_⟩
  · rcases hheld.ssid hrun with hc | hc
    · exact Or.inl hc
    · exact Or.inr (hheld.kept.ssid _ hc)
  · rcases hheld.password hrun with hc | hc
    · exact Or.inl hc
    · exact Or.inr (hheld.kept.password _ hc)
  · rcases hheld.paired hrun hl with hc | hc
    · exact Or.inl hc
    · rcases hheld.kept.paired ht with hn | ⟨sub, hmem, hn⟩
      · rw [hn] at hc
        exact Or.inl hc
      · rw [hn] at hc
        exact Or.inr (hc ▸ hmem)

/-- **What `wifi_creds` holds was compiled in or posted at the portal.** Let the server behave as
documented. In every run of the gateway, while it is on, each of the two strings is the compiled-in
one or part of a pair that was posted while the portal was open; and the two are the compiled-in
pair or a posted pair, unless the last write that stored its SSID did not store its password, or the
last `nvs_read` failed to read exactly one of the two. -/
theorem creds_posted (hd : httpd.Documented)
    (hr : runActs (appStep httpd cj rootHtml) .fresh as = some s) (hon : s.On) :
    let ops := traceOf (appStep httpd cj rootHtml) (deviceOps httpd cj) .fresh as
    let strings := s.world.creds.strings
    (strings.1 = WifiCreds.compiledIn.strings.1 ∨
      ∃ sub, PostedAtPortal httpd cj rootHtml as sub ∧ strings.1 = sub.1) ∧
    (strings.2 = WifiCreds.compiledIn.strings.2 ∨
      ∃ sub, PostedAtPortal httpd cj rootHtml as sub ∧ strings.2 = sub.2) ∧
    (torn ops = false → lostOne ops = false →
      strings = WifiCreds.compiledIn.strings ∨ PostedAtPortal httpd cj rootHtml as strings) := by
  intro ops strings
  obtain ⟨hssid, hpassword, hpair⟩ := creds_submitted hr hon
  refine ⟨hssid.imp_right ?_, hpassword.imp_right ?_, fun ht hl => (hpair ht hl).imp_right ?_⟩
  · rintro ⟨sub, hmem, hsub⟩
    exact ⟨sub, postedAtPortal_of_mem hd hr hmem, hsub⟩
  · rintro ⟨sub, hmem, hsub⟩
    exact ⟨sub, postedAtPortal_of_mem hd hr hmem, hsub⟩
  · exact postedAtPortal_of_mem hd hr

theorem creds_posted_home :
    PostedAtPortal exactMatch twoBodies [] homeRun (utf8 "home", utf8 "secret77") := by
  obtain ⟨s, hs, hpc, hcreds⟩ := homeRun_creds
  have hpair := (creds_posted exactMatch_documented hs (by simp [AppState.On, hpc])).2.2
    (by decide +kernel) (by decide +kernel)
  simp only [hcreds] at hpair
  exact hpair.resolve_left (by decide +kernel)

end Gateway.Main
