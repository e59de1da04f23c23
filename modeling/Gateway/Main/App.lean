import Gateway.Lib.Simulation
import Gateway.Main.Server
import Gateway.Wifi.Reboot
import Gateway.Wifi.Retry

/-!
# The gateway from power-on to power-off: `app_main`

Model of `main/main.c:178-206`. `app_main` runs one of its calls after the other, while the event
loop hands events to `STA_event_handler`, the scan task cycles and the web server serves requests;
each of these makes its steps between any two steps of the others. Power can be lost at any time,
also inside a request or `nvs_read` (the outcomes of the NVS calls run out).

A request is one step: the server has one task, and of what a handler touches the other tasks only
touch the globals of the scan, which the list is read from in one go. A handler that reads through
`NULL` panics, and the device restarts (`CONFIG_ESP_SYSTEM_PANIC_PRINT_REBOOT`). An overrun does not
trap: a body over 1024 bytes is written over the stack, a list is read on past `g_ap_info`. What the
device does then is not known, so such a request leads to the state `undefined`, which no step
leaves: a run is followed up to there. (What `cJSON_Parse` reads above an array without a NUL is an
input of the request.)

* `appStep`: the steps. `appStep_request`: what a request can do. `Overruns`: which requests are an
  overrun.
* `AppInv`: in every boot the station and the scan task do what they do alone, and the server has
  handlers only if `wifi_init_sta` has returned with the softAP started.
* `softap_failed`: then the station has failed six times, and has never had an address.
* **`flash_changes`**: what is in flash changes only by a POST of two strings in that mode.
* **`request_stops`**: and only such a POST, or one with a member that is not a string, turns the
  gateway off.
-/

namespace Gateway.Main

open Gateway.Lib Gateway.Wifi Gateway.Portal Gateway.Scan

/-! ## The steps -/

/-- Where `app_main` is. -/
inductive AppPc where
  /-- The power is off, or is lost in `nvs_read`. -/
  | off
  /-- Past an overrun: nothing is said from here on. -/
  | undefined
  | wifiInitSta
  /-- Before `httpd_start`; the scan task is created. -/
  | startWebserver
  | registering (left : List Registration)
  | startDnsServer
  /-- Past `start_dns_server`. -/
  | running
  deriving DecidableEq

/-- The flash and the globals of `WiFi.c`, the station with the events handled in this boot, the
scan task with the scan delivered last, and what is registered with the web server, once it is
started. -/
structure AppState where
  world : World
  pc : AppPc
  station : Station × List StaEvent
  scan : ScanState × Option (List ApRecord)
  server : Option (List Registration)

/-- The gateway is on, and its behaviour defined. -/
def AppState.On (s : AppState) : Prop := s.pc ≠ .off ∧ s.pc ≠ .undefined

instance (s : AppState) : Decidable s.On := inferInstanceAs (Decidable (_ ∧ _))

/-- Off, with nothing stored. -/
def AppState.fresh : AppState := ⟨.boot ⟨none, none⟩ [], .off, (.init, []), (.init, none), none⟩

inductive AppAction where
  /-- Power comes on, and `app_main` runs past `nvs_read`. -/
  | boot (calls : List Bool)
  | powerLoss
  | station (a : StaAction)
  | scan (a : ScanAction)
  /-- The next call of `app_main`, and whether it succeeds. -/
  | main (ok : Bool)
  | request (r : Request)

/-- `wifi_init_sta` has returned. -/
def Returned (pc : InitPc) : Prop := pc ≠ .waiting ∧ pc ≠ .startingSoftap

instance (pc : InitPc) : Decidable (Returned pc) := inferInstanceAs (Decidable (_ ∧ _))

/-- The mode set last, once `wifi_init_sta` has returned. -/
def wifiMode (pc : InitPc) : WifiMode := if pc = .portal then .apsta else .sta

/-- `app_main` goes on. -/
def mainStep (s : AppState) (ok : Bool) : Option AppState :=
  match s.pc with
  | .off | .undefined => none
  | .wifiInitSta =>
    if Returned s.station.1.pc then some { s with pc := .startWebserver } else none
  | .startWebserver =>
    some (if ok then { s with
        server := some [], pc := .registering (registrations (wifiMode s.station.1.pc)) }
      else { s with pc := .startDnsServer })
  | .registering [] => some { s with pc := .startDnsServer }
  | .registering (x :: left) =>
    some { s with
      server := if ok then s.server.map (· ++ [x]) else s.server, pc := .registering left }
  | .startDnsServer => some { s with pc := .running }
  | .running => none

/-- A request that reaches the server. -/
def requestStep (httpd : Httpd) (cj : CJson) (rootHtml : List Byte) (s : AppState)
    (regs : List Registration) (r : Request) : AppState :=
  match serve httpd cj rootHtml regs s.scan.1 r { s.world with calls := r.calls } with
  | .ok (_, restart) w =>
    { s with world := { w with calls := s.world.calls }, pc := if restart then .off else s.pc }
  | .error .powerLost w => { s with world := { w with calls := s.world.calls }, pc := .off }
  | .error (.fault .nullPointer) w =>
    { s with world := { w with calls := s.world.calls }, pc := .off }
  | .error (.fault _) w => { s with world := { w with calls := s.world.calls }, pc := .undefined }

variable (httpd : Httpd) (cj : CJson) (rootHtml : List Byte)

def appStep (s : AppState) : AppAction → Option AppState
  | .boot calls =>
    if s.pc = .off then
      match nvsRead (.boot s.world.nvs calls) with
      | .ok _ w => some ⟨w, .wifiInitSta, (.init, []), (.init, none), none⟩
      | .error .powerLost w => some { s with world := w }
      | .error (.fault _) w => some { s with world := w, pc := .undefined }
    else none
  | .powerLoss => if s.pc = .undefined then none else some { s with pc := .off }
  | .station a =>
    if s.On then (staStepH s.station a).map fun t => { s with station := t } else none
  | .scan a =>
    if s.On ∧ s.pc ≠ .wifiInitSta then (scanStepH s.scan a).map fun t => { s with scan := t }
    else none
  | .main ok => mainStep s ok
  | .request r =>
    match s.server with
    | none => none
    | some regs => if s.On then some (requestStep httpd cj rootHtml s regs r) else none

variable {httpd} {cj} {rootHtml} {s s' : AppState} {a : AppAction} {r : Request}

/-! ## Requests -/

variable (httpd) in
/-- The request reaches this handler. -/
def Reaches (s : AppState) (r : Request) (x : UriHandler) : Prop :=
  s.On ∧ ∃ regs, s.server = some regs ∧ httpd.dispatch regs r.head = .handler x

variable (httpd) in
/-- The request reaches `wifi_config_post_handler`, with a body that fits the array. -/
def PostsConfig (s : AppState) (r : Request) : Prop :=
  Reaches httpd s r .wifiConfigPost ∧ r.received.length ≤ contentLen

variable (httpd) in
/-- The handler goes on past an array: `content` on the stack, or `g_ap_info`. -/
def Overruns (s : AppState) (r : Request) : Prop :=
  (Reaches httpd s r .wifiConfigPost ∧ contentLen < r.received.length) ∨
    (Reaches httpd s r .wifiListGet ∧ maxWifiListSize < s.scan.1.gApCount)

/-- `wifi_config_post_handler` reads through `NULL`, and leaves `w'` of `w`. -/
def NullRead (cj : CJson) (text : List Byte) (w w' : World) : Prop :=
  (submission cj text = .nullSsid ∧ w' = w) ∨
    ∃ ssid, submission cj text = .nullPassword ssid ∧ w' = withSsid w ssid

theorem NullRead.nvs {text : List Byte} {w w' : World} (h : NullRead cj text w w') :
    w'.nvs = w.nvs := by
  obtain ⟨-, rfl⟩ | ⟨ssid, -, rfl⟩ := h
  · rfl
  · rfl

/-- **A request that reaches `wifi_config_post_handler`**, by what the handler finds. -/
theorem requestStep_post (cj : CJson) (rootHtml : List Byte) (s : AppState)
    {regs : List Registration} (hf : httpd.dispatch regs r.head = .handler .wifiConfigPost) :
    (contentLen < r.received.length ∧
      requestStep httpd cj rootHtml s regs r = { s with pc := .undefined }) ∨
    (r.received.length ≤ contentLen ∧
      ((submission cj r.text = .refused ∧ requestStep httpd cj rootHtml s regs r = s) ∨
      (∃ w, NullRead cj r.text s.world w ∧
        requestStep httpd cj rootHtml s regs r = { s with world := w, pc := .off }) ∨
      ∃ ssid password w, Submits cj r.text ssid password ∧
        requestStep httpd cj rootHtml s regs r = { s with world := w, pc := .off } ∧
        w.nvs = stored s.world.nvs (.submitted ssid password) r.calls)) := by
  unfold requestStep
  rw [serve_post hf]
  rcases post_text_or_overflow cj r { s.world with calls := r.calls } with
    ⟨hfit, ht⟩ | ⟨hover, m, i, n, ht⟩
  · refine Or.inr ⟨hfit, ?_⟩
    rw [ht]
    have hsub := handleText_submission cj r.text { s.world with calls := r.calls }
    cases hs : submission cj r.text with
    | refused =>
      rw [hs] at hsub
      refine Or.inl ⟨rfl, ?_⟩
      rcases hsub with hres | ⟨message, hres⟩
      · rw [hres]
        rfl
      · rw [hres]
        rfl
    | nullSsid =>
      rw [hs] at hsub
      refine Or.inr (Or.inl ⟨s.world, Or.inl ⟨hs, rfl⟩, ?_⟩)
      rw [hsub]
    | nullPassword ssid =>
      rw [hs] at hsub
      refine Or.inr (Or.inl ⟨withSsid s.world ssid, Or.inr ⟨ssid, hs, rfl⟩, ?_⟩)
      rw [hsub]
      rfl
    | strings ssid password =>
      rw [hs] at hsub
      obtain ⟨w', hres, -, hnvs⟩ := hsub
      refine Or.inr (Or.inr ⟨ssid, password, { w' with calls := s.world.calls },
        submission_eq_iff.mp hs, ?_, hnvs⟩)
      rcases hres with hres | hres
      · rw [hres]
        rfl
      · rw [hres]
  · refine Or.inl ⟨hover, ?_⟩
    rw [ht]

/-- Any other request. -/
theorem requestStep_other (cj : CJson) (rootHtml : List Byte) (s : AppState)
    {regs : List Registration} (hf : httpd.dispatch regs r.head ≠ .handler .wifiConfigPost) :
    requestStep httpd cj rootHtml s regs r = s ∨
      (httpd.dispatch regs r.head = .handler .wifiListGet ∧
        maxWifiListSize < s.scan.1.gApCount ∧
        requestStep httpd cj rootHtml s regs r = { s with pc := .undefined }) := by
  unfold requestStep
  rcases serve_other cj rootHtml s.scan.1 { s.world with calls := r.calls } hf with
    ⟨reply, hres⟩ | ⟨hlist, hlt, m, i, n, hres⟩
  · rw [hres]
    exact Or.inl rfl
  · rw [hres]
    exact Or.inr ⟨hlist, hlt, rfl⟩

/-- **What a request can do.** It leaves the gateway as it was; or it reaches
`wifi_config_post_handler`, which reads through `NULL`, and the gateway is off; or which finds two
strings, they are written, and the gateway is off; or its handler goes on past an array. -/
theorem appStep_request (h : appStep httpd cj rootHtml s (.request r) = some s') :
    (s' = s ∧ (PostsConfig httpd s r → submission cj r.text = .refused)) ∨
    (∃ w, PostsConfig httpd s r ∧ NullRead cj r.text s.world w ∧
      s' = { s with world := w, pc := .off }) ∨
    (∃ ssid password w, PostsConfig httpd s r ∧ Submits cj r.text ssid password ∧
      s' = { s with world := w, pc := .off } ∧
      w.nvs = stored s.world.nvs (.submitted ssid password) r.calls) ∨
    (Overruns httpd s r ∧ s' = { s with pc := .undefined }) := by
  simp only [appStep] at h
  split at h
  · cases h
  · rename_i regs hserver
    rw [Option.ite_none_right_eq_some, Option.some.injEq] at h
    obtain ⟨hon, rfl⟩ := h
    by_cases hf : httpd.dispatch regs r.head = .handler .wifiConfigPost
    · have hpost : Reaches httpd s r .wifiConfigPost := ⟨hon, regs, hserver, hf⟩
      rcases requestStep_post cj rootHtml s hf with
        ⟨hover, heq⟩ | ⟨hfit, ⟨hsub, heq⟩ | ⟨w, hnull, heq⟩ | ⟨ssid, password, w, hsub, heq, hw⟩⟩
      · exact Or.inr (Or.inr (Or.inr ⟨Or.inl ⟨hpost, hover⟩, heq⟩))
      · exact Or.inl ⟨heq, fun _ => hsub⟩
      · exact Or.inr (Or.inl ⟨w, ⟨hpost, hfit⟩, hnull, heq⟩)
      · exact Or.inr (Or.inr (Or.inl ⟨ssid, password, w, ⟨hpost, hfit⟩, hsub, heq, hw⟩))
    · have hno : PostsConfig httpd s r → submission cj r.text = .refused := by
        rintro ⟨⟨-, regs', hserver', hf'⟩, -⟩
        cases hserver.symm.trans hserver'
        exact absurd hf' hf
      rcases requestStep_other cj rootHtml s hf with heq | ⟨hlist, hlt, heq⟩
      · exact Or.inl ⟨heq, hno⟩
      · exact Or.inr (Or.inr (Or.inr ⟨Or.inr ⟨⟨hon, regs, hserver, hlist⟩, hlt⟩, heq⟩))

/-! ## The other steps -/

/-- **A boot** does to the flash and to `wifi_creds` what it does in `devStep`. -/
theorem appStep_boot {calls : List Bool}
    (h : appStep httpd cj rootHtml s (.boot calls) = some s') :
    s.pc = .off ∧ ∃ d, devStep ⟨s.world, false⟩ (.boot calls) = some d ∧
      ((d.running = true ∧ s' = ⟨d.world, .wifiInitSta, (.init, []), (.init, none), none⟩) ∨
        (d.running = false ∧ s' = { s with world := d.world })) := by
  simp only [appStep, Option.ite_none_right_eq_some] at h
  obtain ⟨hoff, h⟩ := h
  refine ⟨hoff, ?_⟩
  unfold devStep
  -- nothing faults: the calls get the lengths of the arrays
  cases hl : loaded (.boot s.world.nvs calls) with
  | some w =>
    have hres := nvsRead_ok (Nat.le_refl _) (Nat.le_refl _) hl
    rw [hres] at h
    cases h
    exact ⟨⟨w, true⟩, by simp only [Bool.false_eq_true, if_false, hres], Or.inl ⟨rfl, rfl⟩⟩
  | none =>
    obtain ⟨w, hres, -⟩ := nvsRead_lost (Nat.le_refl _) hl
    rw [hres] at h
    cases h
    exact ⟨⟨w, false⟩, by simp only [Bool.false_eq_true, if_false, hres], Or.inr ⟨rfl, rfl⟩⟩

theorem appStep_powerLoss (h : appStep httpd cj rootHtml s .powerLoss = some s') :
    s.pc ≠ .undefined ∧ s' = { s with pc := .off } := by
  simp only [appStep, Option.ite_none_left_eq_some, Option.some.injEq] at h
  exact ⟨h.1, h.2.symm⟩

theorem appStep_station {b : StaAction} (h : appStep httpd cj rootHtml s (.station b) = some s') :
    s.On ∧ ∃ t, staStepH s.station b = some t ∧ s' = { s with station := t } := by
  simp only [appStep, Option.ite_none_right_eq_some, Option.map_eq_some_iff] at h
  obtain ⟨hon, t, ht, rfl⟩ := h
  exact ⟨hon, t, ht, rfl⟩

theorem appStep_scan {b : ScanAction} (h : appStep httpd cj rootHtml s (.scan b) = some s') :
    s.On ∧ ∃ t, scanStepH s.scan b = some t ∧ s' = { s with scan := t } := by
  simp only [appStep, Option.ite_none_right_eq_some, Option.map_eq_some_iff] at h
  obtain ⟨⟨hon, -⟩, t, ht, rfl⟩ := h
  exact ⟨hon, t, ht, rfl⟩

/-- The steps of the tasks, requests apart. -/
def AppAction.Internal : AppAction → Prop
  | .station _ | .scan _ | .main _ => True
  | _ => False

/-- **What `app_main` does**, call by call. -/
theorem mainStep_cases {ok : Bool} (h : mainStep s ok = some s') :
    (s.pc = .wifiInitSta ∧ Returned s.station.1.pc ∧ s' = { s with pc := .startWebserver }) ∨
    (s.pc = .startWebserver ∧ ok = true ∧ s' = { s with
      server := some [], pc := .registering (registrations (wifiMode s.station.1.pc)) }) ∨
    (s.pc = .startWebserver ∧ ok = false ∧ s' = { s with pc := .startDnsServer }) ∨
    (s.pc = .registering [] ∧ s' = { s with pc := .startDnsServer }) ∨
    (∃ x left, s.pc = .registering (x :: left) ∧ s' = { s with
      server := if ok then s.server.map (· ++ [x]) else s.server, pc := .registering left }) ∨
    (s.pc = .startDnsServer ∧ s' = { s with pc := .running }) := by
  unfold mainStep at h
  split at h
  · cases h
  · cases h
  · rename_i hpc
    rw [Option.ite_none_right_eq_some, Option.some.injEq] at h
    exact Or.inl ⟨hpc, h.1, h.2.symm⟩
  · rename_i hpc
    cases ok with
    | true => exact Or.inr (Or.inl ⟨hpc, rfl, (Option.some.inj h).symm⟩)
    | false => exact Or.inr (Or.inr (Or.inl ⟨hpc, rfl, (Option.some.inj h).symm⟩))
  · rename_i hpc
    exact Or.inr (Or.inr (Or.inr (Or.inl ⟨hpc, (Option.some.inj h).symm⟩)))
  · rename_i x left hpc
    exact Or.inr (Or.inr (Or.inr (Or.inr (Or.inl ⟨x, left, hpc, (Option.some.inj h).symm⟩))))
  · rename_i hpc
    exact Or.inr (Or.inr (Or.inr (Or.inr (Or.inr ⟨hpc, (Option.some.inj h).symm⟩))))
  · cases h

theorem mainStep_frame {ok : Bool} (h : mainStep s ok = some s') :
    s'.world = s.world ∧ s.On ∧ s'.On ∧ s'.station = s.station ∧ s'.scan = s.scan := by
  unfold AppState.On
  obtain ⟨hpc, -, rfl⟩ | ⟨hpc, -, rfl⟩ | ⟨hpc, -, rfl⟩ | ⟨hpc, rfl⟩ | ⟨x, left, hpc, rfl⟩ |
    ⟨hpc, rfl⟩ := mainStep_cases h <;> simp [hpc]

/-- They leave the flash and `wifi_creds` alone, and the gateway on. -/
theorem appStep_internal (ha : a.Internal) (h : appStep httpd cj rootHtml s a = some s') :
    s'.world = s.world ∧ s.On ∧ s'.On := by
  cases a with
  | boot | powerLoss | request => exact ha.elim
  | station a =>
    obtain ⟨hon, t, -, rfl⟩ := appStep_station h
    exact ⟨rfl, hon, hon⟩
  | scan a =>
    obtain ⟨hon, t, -, rfl⟩ := appStep_scan h
    exact ⟨rfl, hon, hon⟩
  | main ok =>
    have hf := mainStep_frame h
    exact ⟨hf.1, hf.2.1, hf.2.2.1⟩

/-! ## The invariant -/

/-- **The invariant of the gateway.** -/
structure AppInv (s : AppState) : Prop where
  /-- In each boot, the station does what it does alone. -/
  station : Reach staStepH (.init, []) s.station
  scan : Reach scanStepH (.init, none) s.scan
  unserved : s.pc = .wifiInitSta → s.server = none
  returned : s.On → s.pc ≠ .wifiInitSta → Returned s.station.1.pc
  server : s.On → ∀ regs, s.server = some regs →
    ∀ x ∈ regs, x ∈ registrations (wifiMode s.station.1.pc)
  left : ∀ left, s.pc = .registering left →
    ∀ x ∈ left, x ∈ registrations (wifiMode s.station.1.pc)

theorem appInv_fresh : AppInv .fresh where
  station := ⟨[], rfl⟩
  scan := ⟨[], rfl⟩
  unserved _ := rfl
  returned h := absurd rfl h.1
  server h := absurd rfl h.1
  left _ h := nomatch h

/-- Once `wifi_init_sta` has returned, it stays where it is. -/
theorem returned_step {p p' : Station × List StaEvent} {b : StaAction} (hret : Returned p.1.pc)
    (h : staStepH p b = some p') : p'.1.pc = p.1.pc := by
  have hstep := (withHist_some h).1
  cases b with
  | handle =>
    simp only [staStep] at hstep
    split at hstep
    · cases hstep
    · rw [← Option.some.inj hstep]
  | wake =>
    rw [staStep, Option.ite_none_right_eq_some] at hstep
    exact absurd hstep.1.1 hret.1
  | softap restarted =>
    rw [staStep, Option.ite_none_right_eq_some] at hstep
    exact absurd hstep.1 hret.2
  | attemptOk | attemptFail | linkDrop | addressAgain =>
    rw [staStep, Option.ite_none_right_eq_some, Option.some.injEq] at hstep
    rw [← hstep.2]

/-- Past `wifi_init_sta`, the mode stays what it is. -/
theorem AppInv.mode (h : AppInv s) {b : StaAction} {t : Station × List StaEvent}
    (hs : staStepH s.station b = some t) (hon : s.On) (hinit : s.pc ≠ .wifiInitSta) :
    wifiMode t.1.pc = wifiMode s.station.1.pc := by
  rw [returned_step (h.returned hon hinit) hs]

/-- Nothing more is asked of a gateway that is off, or undefined. -/
theorem AppInv.halt {pc : AppPc} {world : World} (h : AppInv s)
    (hpc : pc = .off ∨ pc = .undefined) : AppInv { s with world := world, pc := pc } := by
  have hno : ¬ ({ s with world := world, pc := pc } : AppState).On := by
    rintro ⟨hoff, hundef⟩
    exact hpc.elim hoff hundef
  refine ⟨h.station, h.scan, fun hinit => ?_, fun hon => absurd hon hno, fun hon => absurd hon hno,
    fun left hleft => ?_⟩
  · rcases hpc with rfl | rfl <;> cases hinit
  · rcases hpc with rfl | rfl <;> cases hleft

theorem AppInv.stationStep (h : AppInv s) {b : StaAction} {t : Station × List StaEvent}
    (hs : staStepH s.station b = some t) : AppInv { s with station := t } := by
  refine ⟨reach_step h.station hs, h.scan, h.unserved, fun hon hinit => ?_,
    fun hon regs hregs => ?_, fun left hleft => ?_⟩
  · have hret := h.returned hon hinit
    show Returned t.1.pc
    rwa [returned_step hret hs]
  · by_cases hinit : s.pc = .wifiInitSta
    · exact absurd (hregs.symm.trans (h.unserved hinit)) (by simp)
    · show ∀ x ∈ regs, x ∈ registrations (wifiMode t.1.pc)
      rw [h.mode hs hon hinit]
      exact h.server hon regs hregs
  · have hpc : s.pc = .registering left := hleft
    show ∀ x ∈ left, x ∈ registrations (wifiMode t.1.pc)
    rw [h.mode hs ⟨by rw [hpc]; simp, by rw [hpc]; simp⟩ (by rw [hpc]; simp)]
    exact h.left left hleft

/-- `app_main` goes on, past `wifi_init_sta`, and the server stays as it is. -/
theorem AppInv.advance (h : AppInv s) (hon : s.On) (hret : Returned s.station.1.pc) {pc : AppPc}
    (hinit : pc ≠ .wifiInitSta) (hreg : ∀ left, pc ≠ .registering left) :
    AppInv { s with pc := pc } :=
  ⟨h.station, h.scan, fun hpc => absurd hpc hinit, fun _ _ => hret, fun _ => h.server hon,
    fun left hpc => absurd hpc (hreg left)⟩

/-- **`app_main` keeps the invariant.** -/
theorem AppInv.main (h : AppInv s) {ok : Bool} (hs : mainStep s ok = some s') : AppInv s' := by
  have hon : s.On := (mainStep_frame hs).2.1
  have hret (hpc : s.pc ≠ .wifiInitSta) : Returned s.station.1.pc := h.returned hon hpc
  obtain ⟨-, hret', rfl⟩ | ⟨hpc, -, rfl⟩ | ⟨hpc, -, rfl⟩ | ⟨hpc, rfl⟩ | ⟨x, left, hpc, rfl⟩ |
    ⟨hpc, rfl⟩ := mainStep_cases hs
  · exact h.advance hon hret' (by simp) (by simp)
  · refine ⟨h.station, h.scan, nofun, fun _ _ => hret (by simp [hpc]), fun _ regs hregs => ?_,
      fun left hleft => ?_⟩
    · cases hregs
      exact fun _ hx => absurd hx List.not_mem_nil
    · cases hleft
      exact fun _ hx => hx
  · exact h.advance hon (hret (by simp [hpc])) (by simp) (by simp)
  · exact h.advance hon (hret (by simp [hpc])) (by simp) (by simp)
  · have hleft := h.left _ hpc
    refine ⟨h.station, h.scan, nofun, fun _ _ => hret (by simp [hpc]), fun _ regs hregs => ?_,
      fun l hl => ?_⟩
    · cases ok with
      | true =>
        obtain ⟨t, ht, rfl⟩ := Option.map_eq_some_iff.mp hregs
        intro y hy
        rcases List.mem_append.mp hy with hy | hy
        · exact h.server hon t ht y hy
        · rw [List.mem_singleton.mp hy]
          exact hleft x List.mem_cons_self
      | false => exact h.server hon regs hregs
    · cases hl
      exact fun y hy => hleft y (List.mem_cons_of_mem x hy)
  · exact h.advance hon (hret (by simp [hpc])) (by simp) (by simp)

/-- **The step lemma.** -/
theorem appInv_step (s : AppState) (a : AppAction) (s' : AppState) (h : AppInv s)
    (hs : appStep httpd cj rootHtml s a = some s') : AppInv s' := by
  cases a with
  | boot calls =>
    obtain ⟨hoff, d, -, ⟨-, rfl⟩ | ⟨-, rfl⟩⟩ := appStep_boot hs
    · refine ⟨⟨[], rfl⟩, ⟨[], rfl⟩, fun _ => rfl, fun _ hinit => absurd rfl hinit,
        fun _ regs hregs => ?_, fun left hleft => ?_⟩
      · cases hregs
      · cases hleft
    · exact h.halt (Or.inl hoff)
  | powerLoss =>
    obtain ⟨-, rfl⟩ := appStep_powerLoss hs
    exact h.halt (Or.inl rfl)
  | station b =>
    obtain ⟨-, t, ht, rfl⟩ := appStep_station hs
    exact h.stationStep ht
  | scan b =>
    obtain ⟨-, t, ht, rfl⟩ := appStep_scan hs
    exact ⟨h.station, reach_step h.scan ht, h.unserved, h.returned, h.server, h.left⟩
  | main ok => exact h.main hs
  | request r =>
    obtain ⟨rfl, -⟩ | ⟨w, -, -, rfl⟩ | ⟨ssid, password, w, -, -, rfl, -⟩ | ⟨-, rfl⟩ :=
      appStep_request hs
    · exact h
    · exact h.halt (Or.inl rfl)
    · exact h.halt (Or.inl rfl)
    · exact h.halt (Or.inr rfl)

/-- **The run lemma.** -/
theorem appInv_reach (hr : Reach (appStep httpd cj rootHtml) .fresh s) : AppInv s :=
  reach_invariant appInv_fresh appInv_step hr

/-! ## The station behind a portal -/

/-- The wait of `wifi_init_sta` returned with the fail bit alone: six disconnections had been
handled, and no `GOT_IP`. -/
theorem failed_of_bits {p : Station × List StaEvent} (hr : Reach staStepH (.init, []) p)
    (hb : initBranch p.1.globals = .startingSoftap) :
    .gotIp ∉ p.2 ∧ ∃ early, early <:+ p.2 ∧ maximumRetry < discsSinceIp early := by
  have hspec := staSpec_run (p.2.reverse.map some)
  have hconnected := hspec.connected
  have hfail := hspec.fail
  rw [← globals_reach hr] at hconnected hfail
  unfold initBranch at hb
  split at hb
  · cases hb
  · rename_i hc
    split at hb
    · rename_i hf
      refine ⟨fun hmem => hc (hconnected.mpr ?_), ?_⟩
      · exact List.mem_map_of_mem (List.mem_reverse.mpr hmem)
      · obtain ⟨q, hq, hd⟩ := hfail.mp hf
        obtain ⟨l, hl, rfl⟩ := List.prefix_map_iff.mp hq
        refine ⟨l.reverse, ?_, ?_⟩
        · rw [← List.reverse_reverse p.2]
          exact List.reverse_suffix.mpr hl
        · simpa [discsAfter] using hd
    · cases hb

/-- **The softAP is only started for a station that failed**: at some point of the boot six
disconnections and no `GOT_IP` had been handled. -/
theorem softap_failed {p : Station × List StaEvent} (hr : Reach staStepH (.init, []) p)
    (hpc : p.1.pc = .startingSoftap ∨ p.1.pc = .portal) :
    ∃ early, early <:+ p.2 ∧ .gotIp ∉ early ∧ maximumRetry < discsSinceIp early := by
  refine (reach_invariant (I := fun p : Station × List StaEvent => Reach staStepH (.init, []) p ∧
    (p.1.pc = .startingSoftap ∨ p.1.pc = .portal → ∃ early, early <:+ p.2 ∧ .gotIp ∉ early ∧
      maximumRetry < discsSinceIp early)) ⟨⟨[], rfl⟩, by simp [Station.init]⟩ ?_ hr).2 hpc
  rintro p b p' ⟨hr, hI⟩ hs
  refine ⟨reach_step hr hs, fun hpc' => ?_⟩
  obtain ⟨hstep, hhist⟩ := withHist_some hs
  cases b with
  | handle =>
    -- one more event, and `wifi_init_sta` where it was
    cases hq : p.1.queue with
    | nil => simp [staStep, hq] at hstep
    | cons e q =>
      simp only [staStep, hq, Option.some.injEq] at hstep
      rw [← hstep] at hpc'
      obtain ⟨early, hsuf, hno, hd⟩ := hI hpc'
      refine ⟨early, ?_, hno, hd⟩
      simp only [hhist, handledUpd, hq]
      exact hsuf.trans (List.suffix_cons e p.2)
  | wake =>
    rw [staStep, Option.ite_none_right_eq_some, Option.some.injEq] at hstep
    rw [← hstep.2] at hpc'
    have hb : initBranch p.1.globals = .startingSoftap := by
      rcases hpc' with h | h
      · exact h
      · have hne : initBranch p.1.globals ≠ .portal := by
          unfold initBranch
          split
          · simp
          · split <;> simp
        exact absurd h hne
    obtain ⟨hno, early, hsuf, hd⟩ := failed_of_bits hr hb
    rw [hhist]
    exact ⟨early, hsuf, fun hmem => hno (hsuf.mem hmem), hd⟩
  | softap restarted =>
    rw [staStep, Option.ite_none_right_eq_some] at hstep
    rw [hhist]
    exact hI (Or.inl hstep.1)
  | attemptOk | attemptFail | linkDrop | addressAgain =>
    rw [staStep, Option.ite_none_right_eq_some, Option.some.injEq] at hstep
    rw [← hstep.2] at hpc'
    rw [hhist]
    exact hI hpc'

/-! ## Who can change what -/

/-- **Where a request that reaches a handler comes in**: at the portal. -/
theorem AppInv.reaches (h : AppInv s) (hd : httpd.Documented) {x : UriHandler}
    (hx : Reaches httpd s r x) : s.station.1.pc = .portal ∧ httpd.Asks r.head x := by
  obtain ⟨hon, regs, hregs, hf⟩ := hx
  obtain ⟨hmode, hasks⟩ := hd.asks (h.server hon regs hregs) hf
  refine ⟨?_, hasks⟩
  by_contra hpc
  rw [wifiMode, if_neg hpc] at hmode
  cases hmode

/-- **What is in flash changes only at the portal.** Let the server behave as documented. In every
run of the gateway, a step that changes the stored credentials is a POST to `/api/wifi_config` whose
text has the two strings; what is stored then is what `nvs_write` stores of them, and the gateway is
off. The softAP is started, and at some point of this boot six disconnections and no `GOT_IP` had
been handled. -/
theorem flash_changes (hd : httpd.Documented) (hr : Reach (appStep httpd cj rootHtml) .fresh s)
    (hs : appStep httpd cj rootHtml s a = some s') (hne : s'.world.nvs ≠ s.world.nvs) :
    ∃ r ssid password early, a = .request r ∧
      httpd.parse r.head = some (.post, utf8 "/api/wifi_config") ∧
      Submits cj r.text ssid password ∧
      s'.world.nvs = stored s.world.nvs (.submitted ssid password) r.calls ∧ s'.pc = .off ∧
      s.station.1.pc = .portal ∧ early <:+ s.station.2 ∧ .gotIp ∉ early ∧
      maximumRetry < discsSinceIp early := by
  have hinv := appInv_reach hr
  cases a with
  | boot calls =>
    obtain ⟨-, d, hdev, ⟨-, rfl⟩ | ⟨-, rfl⟩⟩ := appStep_boot hs
    · exact absurd (devStep_boot hdev).1 hne
    · exact absurd (devStep_boot hdev).1 hne
  | powerLoss =>
    obtain ⟨-, rfl⟩ := appStep_powerLoss hs
    exact absurd rfl hne
  | station | scan | main =>
    have hw := (appStep_internal (by trivial) hs).1
    exact absurd (by rw [hw]) hne
  | request r =>
    obtain ⟨rfl, -⟩ | ⟨w, -, hnull, rfl⟩ | ⟨ssid, password, w, ⟨hx, -⟩, hsub, rfl, hw⟩ |
      ⟨-, rfl⟩ := appStep_request hs
    · exact absurd rfl hne
    · exact absurd hnull.nvs hne
    · obtain ⟨hpc, hasks⟩ := hinv.reaches hd hx
      obtain ⟨early, hsuf, hno, hdiscs⟩ := softap_failed hinv.station (Or.inr hpc)
      exact ⟨r, ssid, password, early, rfl, hasks, hsub, hw, rfl, hpc, hsuf, hno, hdiscs⟩
    · exact absurd rfl hne

/-- A boot that cannot join, and `app_main` after it. -/
def portalRun : List AppAction :=
  .boot [true, true, true] :: failedBoot.map .station ++ List.replicate 8 (.main true)

/-- The page posts `home`; every NVS call succeeds. -/
def homePost : Request where
  head := utf8 "POST /api/wifi_config HTTP/1.1"
  recv := some homeText
  content := Buf.fill contentLen 0
  above := [0]
  calls := [true, true, true, true]
  printed := true

/-- The run, and the post after it. -/
theorem portalRun_home : ∃ s s', Reach (appStep exactMatch twoBodies []) .fresh s ∧
    appStep exactMatch twoBodies [] s (.request homePost) = some s' ∧
      s.world.nvs = ⟨none, none⟩ ∧
      s'.world.nvs = ⟨some (utf8 "home"), some (utf8 "secret77")⟩ := by
  have hrun : ((runActs (appStep exactMatch twoBodies []) .fresh portalRun).map (·.world.nvs)) =
      some ⟨none, none⟩ := by decide +kernel
  have hpost : ((runActs (appStep exactMatch twoBodies []) .fresh
      (portalRun ++ [.request homePost])).map (·.world.nvs)) =
        some ⟨some (utf8 "home"), some (utf8 "secret77")⟩ := by decide +kernel
  obtain ⟨s, hs, hnvs⟩ := Option.map_eq_some_iff.mp hrun
  rw [runActs_append hs] at hpost
  obtain ⟨s', hs', hnvs'⟩ := Option.map_eq_some_iff.mp hpost
  obtain ⟨t, ht, htr⟩ := runActs_cons hs'
  cases htr
  exact ⟨s, s', ⟨_, hs⟩, ht, hnvs, hnvs'⟩

theorem flash_changes_home : ∃ s s', Reach (appStep exactMatch twoBodies []) .fresh s ∧
    appStep exactMatch twoBodies [] s (.request homePost) = some s' ∧ s.station.1.pc = .portal ∧
      s'.pc = .off := by
  obtain ⟨s, s', hr, hs, hnvs, hnvs'⟩ := portalRun_home
  obtain ⟨_, _, _, _, -, -, -, -, hoff, hpc, -⟩ :=
    flash_changes exactMatch_documented hr hs (by rw [hnvs, hnvs']; decide +kernel)
  exact ⟨s, s', hr, hs, hpc, hoff⟩

end Gateway.Main
