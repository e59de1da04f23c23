import Gateway.Portal.Stored
import Gateway.Scan.WifiList

/-!
# The web server: `start_webserver` and the request handlers

Model of `main/main.c:55-64`, `77-93` and `139-176`. `start_webserver` starts the server and then
registers, in the mode `WIFI_MODE_APSTA` only, three handlers and one for the error 404.

The server itself, `esp_http_server`, is not under the repository: it is the parameter `Httpd`, what
its parser finds in the head of a request and where it then takes the request. `Httpd.Documented` is
what is assumed of it, and only where a result names it: a handler is called for its own method and
URI only, a request for a registered pair is handled, and one for a path that is not registered goes
to the handler of the error 404. What the server refuses (a URI over `CONFIG_HTTPD_MAX_URI_LEN`, for
one) and what it answers itself is left open.

* `serve_post`, `serve_other`: a request either goes to `wifi_config_post_handler`, or leaves the
  device as it was, or reads the list past its array.
* `handleText_submission`: what `wifi_config_post_handler` does with its text, by `submission`.
* `Httpd.Documented.asks`, `Httpd.Documented.reaches`, `Httpd.Documented.redirects`: who reaches a
  handler, and where a request goes once everything is registered.
-/

namespace Gateway.Main

open Gateway.Lib Gateway.Wifi Gateway.Portal Gateway.Scan

/-! ## What is registered -/

inductive HttpMethod where
  | get
  | post
  | other
  deriving DecidableEq, Repr

inductive UriHandler where
  | rootGet
  | wifiListGet
  | wifiConfigPost
  deriving DecidableEq, Repr

/-- `httpd_uri_t`. -/
structure HttpdUri where
  uri : List Byte
  method : HttpMethod
  handler : UriHandler
  deriving DecidableEq

def rootUri : HttpdUri := ⟨utf8 "/", .get, .rootGet⟩

def wifiListUri : HttpdUri := ⟨utf8 "/api/wifi_list", .get, .wifiListGet⟩

def wifiConfigUri : HttpdUri := ⟨utf8 "/api/wifi_config", .post, .wifiConfigPost⟩

inductive Registration where
  /-- `httpd_register_uri_handler`. -/
  | uri (u : HttpdUri)
  /-- `httpd_register_err_handler` of `http_404_error_handler` for `HTTPD_404_NOT_FOUND`. -/
  | redirect
  deriving DecidableEq

/-- The modes `esp_wifi_get_mode` tells. -/
inductive WifiMode where
  | sta
  | apsta
  deriving DecidableEq, Repr

/-- What `start_webserver` registers. -/
def registrations : WifiMode → List Registration
  | .apsta => [.uri rootUri, .uri wifiListUri, .uri wifiConfigUri, .redirect]
  | .sta => []

/-! ## The server -/

/-- Where the server takes a request. -/
inductive Target where
  | handler (x : UriHandler)
  | http404ErrorHandler
  /-- The server's own answer. -/
  | answer (body : List Byte)
  deriving DecidableEq

/-- `esp_http_server`. -/
structure Httpd where
  /-- The method and the path in the head of a request; `none` when the server refuses it. -/
  parse : List Byte → Option (HttpMethod × List Byte)
  /-- Where a request with this head goes after the registrations that have succeeded. -/
  dispatch : List Registration → List Byte → Target

/-- **What is assumed of the server.** -/
structure Httpd.Documented (httpd : Httpd) : Prop where
  /-- A handler is called for the method and the URI it is registered for. -/
  registered : ∀ regs head x, httpd.dispatch regs head = .handler x →
    ∃ u, .uri u ∈ regs ∧ u.handler = x ∧ httpd.parse head = some (u.method, u.uri)
  /-- A request for a registered method and URI is handled. -/
  called : ∀ regs head u, .uri u ∈ regs → httpd.parse head = some (u.method, u.uri) →
    ∃ x, httpd.dispatch regs head = .handler x
  /-- A path that is not registered is an error 404. -/
  notFound : ∀ regs head method path, httpd.parse head = some (method, path) →
    (∀ u, .uri u ∈ regs → u.uri ≠ path) → .redirect ∈ regs →
      httpd.dispatch regs head = .http404ErrorHandler

/-- A request, and what its handler meets: its head, what `httpd_req_recv` delivers over the stack
array `content` with `above` above it, the outcomes of the NVS calls, and whether there is memory to
print the list. -/
structure Request where
  head : List Byte
  recv : Option (List Byte)
  content : Buf contentLen
  above : List Byte
  calls : List Bool
  printed : Bool

/-- The bytes received. -/
def Request.received (r : Request) : List Byte := r.recv.getD []

/-- The string `wifi_config_post_handler` parses. -/
def Request.text (r : Request) : List Byte :=
  cStr (r.received ++ (r.content.bytes.drop r.received.length ++ r.above))

/-- What a client is sent. -/
inductive Reply where
  /-- `httpd_resp_send`, after `httpd_resp_set_type`. -/
  | send (type body : List Byte)
  /-- `httpd_resp_send`, after `httpd_resp_set_status` and `httpd_resp_set_hdr` of `Location`. -/
  | redirect (status location body : List Byte)
  /-- `httpd_resp_send_500`. -/
  | send500
  /-- `httpd_resp_send_err`. -/
  | sendErr (code : Nat) (message : List Byte)
  /-- The server's own answer. -/
  | own (body : List Byte)
  deriving DecidableEq

/-- `root_get_handler`, with `rootHtml` the file between `root_start` and `root_end`. -/
def rootGetHandler (rootHtml : List Byte) : Reply := .send (utf8 "text/html") rootHtml

/-- `wifi_list_get_handler`, with the globals of the scan. -/
def wifiListGetHandler (cj : CJson) (scan : ScanState) (r : Request) : NvsM Reply := do
  let list ← liftFault (getWifiListJson scan.gApInfo scan.gApCount)
  return if r.printed then .send (utf8 "application/json") (cj.print list) else .send500

/-- `http_404_error_handler`. -/
def http404ErrorHandler : Reply :=
  .redirect (utf8 "302 Temporary Redirect") (utf8 "/") (utf8 "Redirect to the captive portal")

/-- What `wifi_config_post_handler` sends. -/
def postReply : Outcome → Reply
  | .failed => .send500
  | .badRequest message => .sendErr 400 message
  | .accepted response => .send (utf8 "application/json") response

/-- Whether it calls `esp_restart` after that. -/
def restarts : Outcome → Bool
  | .accepted _ => true
  | _ => false

/-- A request is served: the reply, and whether the device restarts. -/
def serve (httpd : Httpd) (cj : CJson) (rootHtml : List Byte) (regs : List Registration)
    (scan : ScanState) (r : Request) : NvsM (Reply × Bool) :=
  match httpd.dispatch regs r.head with
  | .handler .rootGet => return (rootGetHandler rootHtml, false)
  | .handler .wifiListGet => do return (← wifiListGetHandler cj scan r, false)
  | .handler .wifiConfigPost => do
    let o ← wifiConfigPostHandler cj r.recv r.content r.above
    return (postReply o, restarts o)
  | .http404ErrorHandler => return (http404ErrorHandler, false)
  | .answer body => return (.own body, false)

variable {httpd : Httpd} {cj : CJson} {rootHtml : List Byte} {regs : List Registration}
  {scan : ScanState} {r : Request} {w w' : World}

/-! ## What a request does -/

/-- The list is only broken off outside its array. -/
theorem getWifiListJson_error {t : ApInfo} {count : Nat} {f : Fault}
    (h : getWifiListJson t count = .error f) : ∃ m i n, f = .outOfBounds m i n := by
  have hitems (k i : Nat) (f : Fault) (h : wifiListItems t k i = .error f) :
      ∃ m i n, f = .outOfBounds m i n := by
    induction k generalizing i f with
    | zero => cases h
    | succ k ih =>
      unfold wifiListItems ApInfo.load at h
      cases hr : t.records[i]? with
      | none =>
        rw [hr] at h
        cases h
        exact ⟨_, _, _, rfl⟩
      | some r =>
        cases hk : wifiListItems t k (i + 1) with
        | ok rest =>
          rw [hr, hk] at h
          cases h
        | error g =>
          rw [hr, hk] at h
          cases h
          exact ih (i + 1) f hk
  unfold getWifiListJson at h
  cases hk : wifiListItems t count 0 with
  | ok items =>
    rw [hk] at h
    cases h
  | error g =>
    rw [hk] at h
    cases h
    exact hitems count 0 f hk

theorem serve_post (h : httpd.dispatch regs r.head = .handler .wifiConfigPost) :
    serve httpd cj rootHtml regs scan r w =
      match wifiConfigPostHandler cj r.recv r.content r.above w with
      | .ok o w' => .ok (postReply o, restarts o) w'
      | .error e w' => .error e w' := by
  show (serve httpd cj rootHtml regs scan r).run w = _
  unfold serve
  rw [h]
  simp only [EStateM.run_bind, EStateM.run_pure]
  cases hres : (wifiConfigPostHandler cj r.recv r.content r.above).run w with
  | ok o w' => rw [show wifiConfigPostHandler cj r.recv r.content r.above w = _ from hres]
  | error e w' => rw [show wifiConfigPostHandler cj r.recv r.content r.above w = _ from hres]

/-- **Any other request leaves the device as it was**, unless it asks for a list that goes on past
its array. -/
theorem serve_other (cj : CJson) (rootHtml : List Byte) (scan : ScanState) {r : Request} (w : World)
    (h : httpd.dispatch regs r.head ≠ .handler .wifiConfigPost) :
    (∃ reply, serve httpd cj rootHtml regs scan r w = .ok (reply, false) w) ∨
      (httpd.dispatch regs r.head = .handler .wifiListGet ∧ maxWifiListSize < scan.gApCount ∧
        ∃ m i n, serve httpd cj rootHtml regs scan r w =
          .error (.fault (.outOfBounds m i n)) w) := by
  unfold serve
  match hf : httpd.dispatch regs r.head, h with
  | .handler .rootGet, _ => exact Or.inl ⟨_, rfl⟩
  | .handler .wifiListGet, _ =>
    simp only
    cases hl : getWifiListJson scan.gApInfo scan.gApCount with
    | ok list => exact Or.inl ⟨_, by unfold wifiListGetHandler; rw [hl]; rfl⟩
    | error f =>
      obtain ⟨m, i, n, rfl⟩ := getWifiListJson_error hl
      have hlt : maxWifiListSize < scan.gApCount := by
        by_contra hle
        rw [getWifiListJson_ok scan.gApInfo (Nat.le_of_not_lt hle)] at hl
        cases hl
      exact Or.inr ⟨trivial, hlt, m, i, n, by unfold wifiListGetHandler; rw [hl]; rfl⟩
  | .handler .wifiConfigPost, h => exact absurd rfl h
  | .http404ErrorHandler, _ => exact Or.inl ⟨_, rfl⟩
  | .answer body, _ => exact Or.inl ⟨_, rfl⟩

/-- What `wifi_config_post_handler` finds in a text. -/
inductive Submission where
  /-- The text does not parse, or lacks a member. -/
  | refused
  /-- Both members are there, and `ssid` is not a string. -/
  | nullSsid
  /-- Both members are there, and `password` alone is not a string. -/
  | nullPassword (ssid : List Byte)
  | strings (ssid password : List Byte)
  deriving DecidableEq

def submission (cj : CJson) (text : List Byte) : Submission :=
  match cj.parse text with
  | none => .refused
  | some root =>
    match cj.getObjectItem root (utf8 "ssid"), cj.getObjectItem root (utf8 "password") with
    | some ssidItem, some passwordItem =>
      match ssidItem.valuestring, passwordItem.valuestring with
      | none, _ => .nullSsid
      | some ssid, none => .nullPassword ssid
      | some ssid, some password => .strings ssid password
    | _, _ => .refused

theorem submission_refused {text : List Byte} (h : NoMembers cj text) :
    submission cj text = .refused := by
  unfold submission
  cases hroot : cj.parse text with
  | none => rfl
  | some root =>
    rcases h root hroot with hi | hj
    · simp only [hi]
    · cases hi : cj.getObjectItem root (utf8 "ssid") with
      | none => simp only [hi]
      | some i => simp only [hi, hj]

theorem submission_members {text : List Byte} {root i j : Json} (hroot : cj.parse text = some root)
    (hi : cj.getObjectItem root (utf8 "ssid") = some i)
    (hj : cj.getObjectItem root (utf8 "password") = some j) :
    submission cj text =
      match i.valuestring, j.valuestring with
      | none, _ => .nullSsid
      | some ssid, none => .nullPassword ssid
      | some ssid, some password => .strings ssid password := by
  unfold submission
  simp only [hroot, hi, hj]

theorem submission_eq_iff {text ssid password : List Byte} :
    submission cj text = .strings ssid password ↔ Submits cj text ssid password := by
  constructor
  · intro h
    by_cases hno : NoMembers cj text
    · rw [submission_refused hno] at h
      cases h
    · obtain ⟨root, i, j, hroot, hi, hj⟩ := members_of_not_noMembers hno
      rw [submission_members hroot hi hj] at h
      cases hs : i.valuestring with
      | none => simp [hs] at h
      | some s =>
        cases hp : j.valuestring with
        | none => simp [hs, hp] at h
        | some p =>
          simp only [hs, hp, Submission.strings.injEq] at h
          exact ⟨root, i, j, hroot, hi, hj, by rw [hs, h.1], by rw [hp, h.2]⟩
  · rintro ⟨root, i, j, hroot, hi, hj, hs, hp⟩
    rw [submission_members hroot hi hj]
    simp only [hs, hp]

/-- What follows a text is ignored. -/
theorem submits_append (hcj : cj.Ignores) {text ssid password : List Byte}
    (h : Submits cj text ssid password) (more : List Byte) :
    Submits cj (text ++ more) ssid password := by
  obtain ⟨root, i, j, hroot, hi, hj, hs, hp⟩ := h
  obtain ⟨root', hroot', hsame⟩ := hcj text root hroot more
  exact ⟨root', i, j, hroot', (hsame _).trans hi, (hsame _).trans hj, hs, hp⟩

/-- The text of a request whose body is `text`, whatever the stack held. -/
theorem submits_text (hcj : cj.Ignores) {text ssid password : List Byte}
    (h : Submits cj text ssid password) (h0 : (0 : Byte) ∉ text) (hr : r.recv = some text) :
    Submits cj r.text ssid password := by
  unfold Request.text Request.received
  rw [hr, Option.getD_some, cStr_append _ h0]
  exact submits_append hcj h _

/-- **What `wifi_config_post_handler` does** with what it finds in the text: it refuses; it reads
through `NULL`, and has copied the SSID by then if only the password is no string; or it submits the
two strings. -/
theorem handleText_submission (cj : CJson) (text : List Byte) (w : World) :
    match submission cj text with
    | .refused => Refused w (handleText cj text w)
    | .nullSsid => handleText cj text w = .error (.fault .nullPointer) w
    | .nullPassword ssid =>
      handleText cj text w = .error (.fault .nullPointer) (withSsid w ssid)
    | .strings ssid password => Accepted cj w ssid password (handleText cj text w) := by
  by_cases hno : NoMembers cj text
  · rw [submission_refused hno]
    exact handleText_refused hno
  · obtain ⟨root, i, j, hroot, hi, hj⟩ := members_of_not_noMembers hno
    rw [submission_members hroot hi hj, handleText_members hroot hi hj]
    cases hs : i.valuestring with
    | none =>
      simp only
      rw [acceptCredentials_fault (Or.inl hs), copiedSsid, hs]
    | some ssid =>
      cases hp : j.valuestring with
      | none =>
        simp only
        rw [acceptCredentials_fault (Or.inr hp), copiedSsid, hs]
      | some password => exact acceptCredentials_accepted hs hp

/-- A body that does not fit the array runs past it. -/
theorem post_text_or_overflow (cj : CJson) (r : Request) (w : World) :
    (r.received.length ≤ contentLen ∧
      wifiConfigPostHandler cj r.recv r.content r.above w = handleText cj r.text w) ∨
    (contentLen < r.received.length ∧ ∃ m i n,
      wifiConfigPostHandler cj r.recv r.content r.above w =
        .error (.fault (.outOfBounds m i n)) w) := by
  by_cases hfit : r.received.length ≤ contentLen
  · exact Or.inl ⟨hfit, post_text r.recv hfit⟩
  · refine Or.inr ⟨Nat.lt_of_not_le hfit, ?_⟩
    unfold Request.received at hfit
    cases hrecv : r.recv with
    | none => exact absurd (by rw [hrecv]; exact Nat.zero_le _) hfit
    | some delivered =>
      rw [hrecv, Option.getD_some] at hfit
      exact ⟨_, _, _, post_overflow (Nat.lt_of_not_le hfit) r.content r.above⟩

/-! ## Where a request goes -/

/-- What a handler is registered for. -/
def UriHandler.registeredFor : UriHandler → HttpdUri
  | .rootGet => rootUri
  | .wifiListGet => wifiListUri
  | .wifiConfigPost => wifiConfigUri

theorem uri_mem_registrations {u : HttpdUri} :
    .uri u ∈ registrations .apsta ↔ u.handler.registeredFor = u := by
  constructor
  · intro hu
    simp only [registrations, List.mem_cons, Registration.uri.injEq, reduceCtorEq,
      List.not_mem_nil, or_false] at hu
    rcases hu with rfl | rfl | rfl <;> rfl
  · intro hu
    rw [← hu]
    cases u.handler <;> simp [registrations, UriHandler.registeredFor]

/-- No two handlers have one path. -/
theorem handler_of_path {x y : UriHandler} (h : x.registeredFor.uri = y.registeredFor.uri) :
    x = y := by
  have hne : rootUri.uri ≠ wifiListUri.uri ∧ rootUri.uri ≠ wifiConfigUri.uri ∧
      wifiListUri.uri ≠ wifiConfigUri.uri := by decide +kernel
  cases x with
  | rootGet =>
    cases y with
    | rootGet => rfl
    | wifiListGet => exact absurd h hne.1
    | wifiConfigPost => exact absurd h hne.2.1
  | wifiListGet =>
    cases y with
    | rootGet => exact absurd h.symm hne.1
    | wifiListGet => rfl
    | wifiConfigPost => exact absurd h hne.2.2
  | wifiConfigPost =>
    cases y with
    | rootGet => exact absurd h.symm hne.2.1
    | wifiListGet => exact absurd h.symm hne.2.2
    | wifiConfigPost => rfl

/-- The server reads the head as a request for what the handler is registered for. -/
def Httpd.Asks (httpd : Httpd) (head : List Byte) (x : UriHandler) : Prop :=
  httpd.parse head = some (x.registeredFor.method, x.registeredFor.uri)

/-- **Who reaches a handler**, whatever is registered so far: a request for its method and URI, in
the mode with the softAP. -/
theorem Httpd.Documented.asks (hd : httpd.Documented) {mode : WifiMode} {x : UriHandler}
    {head : List Byte} (hsub : ∀ g ∈ regs, g ∈ registrations mode)
    (h : httpd.dispatch regs head = .handler x) : mode = .apsta ∧ httpd.Asks head x := by
  obtain ⟨u, hu, rfl, hparse⟩ := hd.registered regs head x h
  have hmem := hsub _ hu
  cases mode with
  | sta => exact absurd hmem List.not_mem_nil
  | apsta =>
    refine ⟨rfl, ?_⟩
    unfold Httpd.Asks
    rw [uri_mem_registrations.mp hmem]
    exact hparse

/-- **Once everything is registered**, such a request reaches the handler. -/
theorem Httpd.Documented.reaches (hd : httpd.Documented) {x : UriHandler} {head : List Byte}
    (h : httpd.Asks head x) : httpd.dispatch (registrations .apsta) head = .handler x := by
  have hx : .uri x.registeredFor ∈ registrations .apsta := by
    rw [uri_mem_registrations]
    cases x <;> rfl
  obtain ⟨y, hy⟩ := hd.called _ _ _ hx h
  have hpaths := (hd.asks (fun _ hg => hg) hy).2
  unfold Httpd.Asks at h hpaths
  rw [hy, handler_of_path (congrArg Prod.snd (Option.some.inj (h.symm.trans hpaths)))]

/-- `CONFIG_HTTPD_MAX_URI_LEN`. -/
def maxUriLen : Nat := 512

/-- The method and the target of a request line, with a target of at most `maxUriLen` bytes. -/
def requestLine (head : List Byte) : Option (HttpMethod × List Byte) :=
  let method := head.takeWhile (· ≠ 0x20)
  let target := (head.drop (method.length + 1)).takeWhile (· ≠ 0x20)
  if maxUriLen < target.length then none
  else if method = utf8 "GET" then some (.get, target)
  else if method = utf8 "POST" then some (.post, target)
  else some (.other, target)

/-- The handler of a registration, if it is for this method and path. -/
def Registration.takes (method : HttpMethod) (path : List Byte) : Registration → Option UriHandler
  | .uri u => if u.method = method ∧ u.uri = path then some u.handler else none
  | .redirect => none

def Registration.isAt (path : List Byte) : Registration → Bool
  | .uri u => u.uri = path
  | .redirect => false

/-- A server that reads the request line alone, and calls the first handler that takes it. -/
def exactMatch : Httpd where
  parse := requestLine
  dispatch regs head :=
    match requestLine head with
    | none => .answer []
    | some (method, path) =>
      match regs.findSome? (·.takes method path) with
      | some x => .handler x
      | none =>
        if .redirect ∈ regs ∧ regs.any (·.isAt path) = false then .http404ErrorHandler
        else .answer []

theorem Registration.takes_some {method : HttpMethod} {path : List Byte} {g : Registration}
    {x : UriHandler} (h : g.takes method path = some x) :
    ∃ u, g = .uri u ∧ u.handler = x ∧ u.method = method ∧ u.uri = path := by
  cases g with
  | redirect => cases h
  | uri u =>
    obtain ⟨⟨hm, hp⟩, hx⟩ := Option.ite_none_right_eq_some.mp h
    exact ⟨u, rfl, Option.some.inj hx, hm, hp⟩

theorem exactMatch_documented : exactMatch.Documented where
  registered regs head x h := by
    unfold exactMatch at h ⊢
    simp only at h ⊢
    cases hline : requestLine head with
    | none =>
      rw [hline] at h
      cases h
    | some line =>
      cases hfind : regs.findSome? (·.takes line.1 line.2) with
      | none =>
        simp only [hline, hfind] at h
        split at h <;> cases h
      | some y =>
        simp only [hline, hfind, Target.handler.injEq] at h
        obtain ⟨g, hg, htakes⟩ := List.exists_of_findSome?_eq_some hfind
        obtain ⟨u, rfl, hy, hm, hp⟩ := Registration.takes_some htakes
        exact ⟨u, hg, hy.trans h, by rw [hm, hp]⟩
  called regs head u hu h := by
    have hline : requestLine head = some (u.method, u.uri) := h
    cases hfind : regs.findSome? (·.takes u.method u.uri) with
    | none =>
      have := List.findSome?_eq_none_iff.mp hfind _ hu
      simp [Registration.takes] at this
    | some y => exact ⟨y, by simp only [exactMatch, hline, hfind]⟩
  notFound regs head method path h hno hmem := by
    have hline : requestLine head = some (method, path) := h
    have hfind : regs.findSome? (·.takes method path) = none := by
      rw [List.findSome?_eq_none_iff]
      intro g hg
      cases htakes : g.takes method path with
      | none => rfl
      | some x =>
        obtain ⟨u, rfl, -, -, hp⟩ := Registration.takes_some htakes
        exact absurd hp (hno u hg)
    have hany : regs.any (·.isAt path) = false := by
      rw [List.any_eq_false]
      intro g hg
      cases g with
      | redirect => simp [Registration.isAt]
      | uri u => simpa [Registration.isAt] using hno u hg
    simp only [exactMatch, hline, hfind, hmem, hany, and_self, if_true]

end Gateway.Main
