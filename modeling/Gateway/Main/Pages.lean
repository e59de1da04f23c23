import Mathlib.Logic.Function.Basic
import Gateway.Main.Refine
import Gateway.Portal.Markup

/-!
# The gateway and the pages that are open in its clients' browsers

The portal page of `main/root.html` is a program too: it shows the list the gateway serves, and its
form is what is posted. Here the gateway runs together with any number of pages, and nothing else
posts to `/api/wifi_config`. A list and a form take their time on the way, lists may overtake each
other, forms may be lost, and power is lost at any time. Other requests may come from anyone. A form
is received whole, in one `httpd_req_recv`, over an array and a stack of any content.

A run is followed up to two points, past which nothing is said: an overrun (a form over 1024 bytes,
a list read past `g_ap_info`), as in `App`, and a list with `<` in a text that reaches a page, since
the browser may run what such an SSID holds. `Net.markup` tells of the latter.

`JSON.parse` and `JSON.stringify` in the browser are the parameters `readList` and `stringify`, and
`Faithful` is what is assumed of them and of `cJSON`, document by document: the list is read as it
was printed, and the form is parsed as it was written. What stands behind the form on the stack is
ignored (`CJson.Ignores`).

* `netStep`: the steps. `NetInv`: everything that is called an SSID was typed, or was broadcast.
* **`creds_chosen`**: the credentials the gateway starts with are the compiled-in ones, or were
  filled into one form, whose SSID was typed there or found by a scan of the gateway, and whose
  password was typed.
-/

namespace Gateway.Main

open Gateway.Lib Gateway.Wifi Gateway.Portal Gateway.Scan

/-! ## The steps -/

/-- A form: `data` in the `submit` handler, the SSID and the password. -/
abbrev Form := List Char × List Char

/-- The gateway, the pages, the forms and lists that are on their way, and whether a list with
markup has reached a page. -/
structure Net where
  app : AppState
  pages : Nat → PageState
  forms : List Form
  lists : List (Nat × List WifiEntry)
  markup : Bool

def Net.init : Net := ⟨.fresh, fun _ => .loaded, [], [], false⟩

inductive NetAction where
  | app (a : AppAction)
  /-- The page `i` is loaded anew. -/
  | load (i : Nat)
  | page (i : Nat) (e : PageEvent)
  /-- The `k`-th form on its way reaches the server in the request `r`. -/
  | post (k : Nat) (r : Request)
  /-- A request of the page `i` for the list reaches the server. -/
  | list (i : Nat) (r : Request)
  /-- The `k`-th list on its way reaches its page. -/
  | reply (k : Nat)

/-- The server reads the request as a POST to `/api/wifi_config`. -/
def ConfigPost (httpd : Httpd) (r : Request) : Prop :=
  httpd.parse r.head = some (.post, utf8 "/api/wifi_config")

instance (httpd : Httpd) (r : Request) : Decidable (ConfigPost httpd r) :=
  inferInstanceAs (Decidable (_ = _))

/-- Nothing is posted to `/api/wifi_config`. -/
def AppAction.PostsNothing (httpd : Httpd) : AppAction → Prop
  | .request r => ¬ ConfigPost httpd r
  | _ => True

instance (httpd : Httpd) (a : AppAction) : Decidable (a.PostsNothing httpd) := by
  cases a <;> unfold AppAction.PostsNothing <;> infer_instance

/-- The event comes from the server, not from the user. -/
def FromServer : PageEvent → Prop
  | .listLoaded _ => True
  | _ => False

instance (e : PageEvent) : Decidable (FromServer e) := by
  cases e <;> unfold FromServer <;> infer_instance

section Steps

variable (httpd : Httpd) (cj : CJson) (rootHtml : List Byte)
  (readList : List Byte → Option (List WifiEntry)) (stringify : Form → List Byte)

/-- What `wifi_list_get_handler` sends, where it is registered. -/
def listReply (s : AppState) (r : Request) : Option (List Byte) :=
  match s.server with
  | none => none
  | some regs =>
    if s.On ∧ httpd.dispatch regs r.head = .handler .wifiListGet then
      match wifiListGetHandler cj s.scan.1 r s.world with
      | .ok (.send _ body) _ => some body
      | _ => none
    else none

/-- The lists on their way after the page `i` has asked for one. -/
def listsAfter (s : Net) (i : Nat) (r : Request) : List (Nat × List WifiEntry) :=
  match (listReply httpd cj s.app r).bind readList with
  | none => s.lists
  | some entries => s.lists ++ [(i, entries)]

/-- A step, while no list with markup has reached a page. -/
def textStep (s : Net) : NetAction → Option Net
  | .app a =>
    if a.PostsNothing httpd then
      (appStep httpd cj rootHtml s.app a).map fun app => { s with app := app }
    else none
  | .load i => some { s with pages := Function.update s.pages i .loaded }
  | .page i e =>
    if FromServer e then none
    else (pageStep (s.pages i) e).map fun p =>
      { s with
        pages := Function.update s.pages i p
        forms := s.forms ++ p.posts.drop (s.pages i).posts.length }
  | .post k r =>
    match s.forms[k]? with
    | none => none
    | some form =>
      if ConfigPost httpd r ∧ r.recv = some (stringify form) then
        (appStep httpd cj rootHtml s.app (.request r)).map fun app =>
          { s with app := app, forms := s.forms.eraseIdx k }
      else none
  | .list i r =>
    if ConfigPost httpd r then none
    else (appStep httpd cj rootHtml s.app (.request r)).map fun app =>
      { s with app := app, lists := listsAfter httpd cj readList s i r }
  | .reply k =>
    match s.lists[k]? with
    | none => none
    | some (i, entries) =>
      match pageStep (s.pages i) (.listLoaded entries) with
      | some p =>
        some { s with pages := Function.update s.pages i p, lists := s.lists.eraseIdx k }
      | none => if (s.pages i).requests = 0 then none else some { s with markup := true }

def netStep (s : Net) (a : NetAction) : Option Net :=
  if s.markup then none else textStep httpd cj rootHtml readList stringify s a

/-- The SSID or the password of a form, in UTF-8. -/
def utf8Chars (cs : List Char) : List Byte := utf8 (String.ofList cs)

/-- **What is assumed of the JSON libraries**, on the documents of a run: a form is parsed as it was
written, and a list that is sent is read as it was printed. -/
def Faithful (s : Net) : NetAction → Prop
  | .post k _ => ∀ form ∈ s.forms[k]?, (0 : Byte) ∉ stringify form ∧
    Submits cj (stringify form) (utf8Chars form.1) (utf8Chars form.2)
  | .list _ r => listReply httpd cj s.app r ≠ none →
    ListRead cj readList (s.app.scan.1.gApInfo.records.take s.app.scan.1.gApCount)
  | _ => True

/-- The steps of the gateway that a step stands for. -/
def appActions (_ : Net) : NetAction → List AppAction
  | .app a => [a]
  | .post _ r => [.request r]
  | .list _ r => [.request r]
  | _ => []

end Steps

/-! ## Where the texts of a page come from -/

/-- The SSIDs of the page meet `O`, its passwords are empty or meet `T`, and it posted both. -/
structure PageFrom (O T : List Char → Prop) (p : PageState) : Prop where
  items : ∀ x ∈ p.networkList, O x.dataSsid
  name : O p.manualName
  password : p.password = [] ∨ T p.password
  posts : ∀ f ∈ p.posts, O f.1 ∧ T f.2

/-- What an event brings. -/
def Brings (O T : List Char → Prop) : PageEvent → Prop
  | .listLoaded wifiList => ∀ e ∈ wifiList, O e.ssid
  | .typeName name => O name
  | .typePassword password => T password
  | _ => True

section PageFrom

variable {O O' T T' : List Char → Prop} {p p' : PageState} {e : PageEvent}

theorem PageFrom.mono (h : PageFrom O T p) (hO : ∀ cs, O cs → O' cs) (hT : ∀ cs, T cs → T' cs) :
    PageFrom O' T' p where
  items x hx := hO _ (h.items x hx)
  name := hO _ h.name
  password := h.password.imp_right (hT _)
  posts f hf := ⟨hO _ (h.posts f hf).1, hT _ (h.posts f hf).2⟩

theorem pageFrom_loaded (hnil : O []) : PageFrom O T .loaded where
  items _ hx := absurd hx List.not_mem_nil
  name := hnil
  password := Or.inl rfl
  posts _ hf := absurd hf List.not_mem_nil

/-- What a submit posts is on the page. -/
theorem PageFrom.submitSsid (h : PageFrom O T p) {ssid : List Char}
    (hs : submitSsid p = some ssid) : O ssid := by
  unfold Portal.submitSsid at hs
  split at hs
  · rename_i x hx
    cases hs
    exact h.items x (List.mem_of_find?_eq_some hx)
  · split at hs
    · cases hs
    · cases hs
      exact h.name

theorem dataSsid_updateWiFiList {n : Nat} {wifiList : List WifiEntry} {x : NetworkItem}
    (hx : x ∈ updateWiFiList n wifiList) : ∃ e ∈ wifiList, x.dataSsid = e.ssid := by
  obtain ⟨y, hy, rfl⟩ := List.mem_map.mp hx
  exact ⟨y.1, List.fst_mem_of_mem_zipIdx hy, rfl⟩

/-- **The step lemma** of a page: what it shows and posts is what it was brought. -/
theorem pageFrom_step (h : PageFrom O T p) (hnil : O []) (he : Brings O T e)
    (hs : pageStep p e = some p') :
    PageFrom O T p' ∧ ∃ new, p'.posts = p.posts ++ new := by
  have hsame : ∃ new, p.posts = p.posts ++ new := ⟨[], (List.append_nil _).symm⟩
  cases e with
  | listLoaded wifiList =>
    simp only [pageStep] at hs
    split at hs
    · cases hs
    · cases hs
      refine ⟨⟨fun x hx => ?_, h.name, h.password, h.posts⟩, hsame⟩
      obtain ⟨y, hy, hxy⟩ := dataSsid_updateWiFiList hx
      rw [hxy]
      exact he y hy
  | listFailed =>
    simp only [pageStep] at hs
    split at hs
    · cases hs
    · cases hs
      exact ⟨⟨h.items, h.name, h.password, h.posts⟩, hsame⟩
  | clickItem i =>
    simp only [pageStep, Option.map_eq_some_iff] at hs
    obtain ⟨item, -, rfl⟩ := hs
    refine ⟨⟨fun x hx => ?_, hnil, h.password, h.posts⟩, hsame⟩
    obtain ⟨y, hy, rfl⟩ := List.mem_map.mp hx
    exact h.items y hy
  | toggleManual =>
    rw [pageStep_toggleManual] at hs
    cases hs
    exact ⟨⟨h.items, h.name, h.password, h.posts⟩, hsame⟩
  | typeName name =>
    simp only [pageStep] at hs
    split at hs
    · cases hs
      exact ⟨⟨h.items, he, h.password, h.posts⟩, hsame⟩
    · cases hs
  | typePassword password =>
    cases hs
    exact ⟨⟨h.items, h.name, Or.inr he, h.posts⟩, hsame⟩
  | refresh =>
    cases hs
    exact ⟨⟨h.items, h.name, h.password, h.posts⟩, hsame⟩
  | submit =>
    simp only [pageStep] at hs
    split at hs
    · cases hs
    · split at hs
      · cases hs
        exact ⟨h, hsame⟩
      · rename_i ssid hssid
        split at hs
        · cases hs
          exact ⟨h, hsame⟩
        · rename_i hpw
          cases hs
          refine ⟨⟨h.items, h.name, h.password, fun f hf => ?_⟩, _, rfl⟩
          rw [List.mem_append, List.mem_singleton] at hf
          rcases hf with hf | rfl
          · exact h.posts f hf
          · exact ⟨h.submitSsid hssid, h.password.resolve_left hpw⟩
  | timeout =>
    simp only [pageStep] at hs
    split at hs
    · cases hs
      exact ⟨⟨h.items, h.name, h.password, h.posts⟩, hsame⟩
    · cases hs

end PageFrom

/-! ## Where the records of a scan come from -/

/-- The records that are found or listed meet `O`. -/
structure ScanFrom (O : ApRecord → Prop) (s : ScanState) : Prop where
  found : ∀ r ∈ s.found, O r
  records : ∀ r ∈ s.gApInfo.records, O r

section ScanFrom

variable {O O' : ApRecord → Prop} {s s' : ScanState} {a : ScanAction}

theorem ScanFrom.mono (h : ScanFrom O s) (hO : ∀ r, O r → O' r) : ScanFrom O' s :=
  ⟨fun r hr => hO r (h.found r hr), fun r hr => hO r (h.records r hr)⟩

theorem records_blank (hblank : O .blank) : ∀ r ∈ ApInfo.blank.records, O r := by
  intro r hr
  rw [List.eq_of_mem_replicate hr]
  exact hblank

theorem scanFrom_init (hblank : O .blank) : ScanFrom O .init :=
  ⟨fun _ hr => absurd hr List.not_mem_nil, records_blank hblank⟩

theorem scanFrom_step (h : ScanFrom O s) (hblank : O .blank)
    (ha : ∀ res, a = .scanned res → ∀ r ∈ res.records, O r) (hs : scanStep s a = some s') :
    ScanFrom O s' := by
  cases a with
  | scanned res =>
    simp only [scanStep] at hs
    split at hs
    · cases hs
      exact ⟨ha res rfl, h.records⟩
    · cases hs
  | next =>
    simp only [scanStep] at hs
    split at hs
    · cases hs
      exact ⟨h.found, records_blank hblank⟩
    · cases hs
      exact ⟨h.found, h.records⟩
    · cases hs
    · cases hs
      exact ⟨h.found, h.records⟩
    · cases hs
      exact ⟨h.found, h.records⟩
    · split at hs
      · cases hs
      · rename_i t ht
        cases hs
        refine ⟨fun _ hr => absurd hr List.not_mem_nil, fun r hr => ?_⟩
        unfold ApInfo.store at ht
        split at ht
        · cases ht
          rcases List.mem_append.mp hr with hr | hr
          · exact h.found r (List.mem_of_mem_take hr)
          · exact h.records r (List.mem_of_mem_drop hr)
        · cases ht
    · cases hs
      exact ⟨h.found, h.records⟩

end ScanFrom

/-- **What a step does to the scan task**: a step of its own, a boot, or nothing. -/
theorem appStep_scanTask {httpd : Httpd} {cj : CJson} {rootHtml : List Byte} {s s' : AppState}
    {a : AppAction} (h : appStep httpd cj rootHtml s a = some s') :
    s'.scan = s.scan ∨ s'.scan = (.init, none) ∨
      ∃ b, a = .scan b ∧ scanStepH s.scan b = some s'.scan := by
  cases a with
  | boot calls =>
    obtain ⟨-, d, -, ⟨-, rfl⟩ | ⟨-, rfl⟩⟩ := appStep_boot h
    · exact Or.inr (Or.inl rfl)
    · exact Or.inl rfl
  | powerLoss =>
    obtain ⟨-, rfl⟩ := appStep_powerLoss h
    exact Or.inl rfl
  | station b =>
    obtain ⟨-, t, -, rfl⟩ := appStep_station h
    exact Or.inl rfl
  | scan b =>
    obtain ⟨-, t, ht, rfl⟩ := appStep_scan h
    exact Or.inr (Or.inr ⟨b, rfl, ht⟩)
  | main ok => exact Or.inl (mainStep_frame h).2.2.2.2
  | request r =>
    obtain ⟨rfl, -⟩ | ⟨w, -, -, rfl⟩ | ⟨-, -, w, -, -, rfl, -⟩ | ⟨-, rfl⟩ := appStep_request h
    · exact Or.inl rfl
    · exact Or.inl rfl
    · exact Or.inl rfl
    · exact Or.inl rfl

/-! ## The invariant -/

/-- An SSID that a page may hold after the steps `done`: none, one that was typed, or that of a
record a scan found. -/
def Origin (done : List NetAction) (ssid : List Char) : Prop :=
  ssid = [] ∨ (∃ i, .page i (.typeName ssid) ∈ done) ∨
    ∃ res r, .app (.scan (.scanned res)) ∈ done ∧ r ∈ res.records ∧ ssid = ssidText r

def Typed (done : List NetAction) (password : List Char) : Prop :=
  ∃ i, .page i (.typePassword password) ∈ done

/-- A form that was filled in. -/
def Filled (done : List NetAction) (form : Form) : Prop :=
  Origin done form.1 ∧ Typed done form.2

section Invariant

variable {done done' : List NetAction} {ssid : List Char}

theorem Origin.mono (h : Origin done ssid) (hsub : ∀ a ∈ done, a ∈ done') : Origin done' ssid := by
  obtain hnil | ⟨i, hi⟩ | ⟨res, r, hres, hr⟩ := h
  · exact Or.inl hnil
  · exact Or.inr (Or.inl ⟨i, hsub _ hi⟩)
  · exact Or.inr (Or.inr ⟨res, r, hsub _ hres, hr⟩)

theorem Typed.mono (h : Typed done ssid) (hsub : ∀ a ∈ done, a ∈ done') : Typed done' ssid := by
  obtain ⟨i, hi⟩ := h
  exact ⟨i, hsub _ hi⟩

theorem Filled.mono {form : Form} (h : Filled done form) (hsub : ∀ a ∈ done, a ∈ done') :
    Filled done' form := ⟨h.1.mono hsub, h.2.mono hsub⟩

theorem origin_blank (done : List NetAction) : Origin done (ssidText .blank) :=
  Or.inl (by decide +kernel)

/-- **The invariant**: every SSID on its way from a scan to a form has its origin in the run, and
the forms were filled in. -/
structure NetInv (done : List NetAction) (s : Net) : Prop where
  scan : ScanFrom (fun r => Origin done (ssidText r)) s.app.scan.1
  lists : ∀ x ∈ s.lists, ∀ e ∈ x.2, Origin done e.ssid
  pages : ∀ i, PageFrom (Origin done) (Typed done) (s.pages i)
  forms : ∀ form ∈ s.forms, Filled done form

variable {httpd : Httpd} {cj : CJson} {rootHtml : List Byte}
  {readList : List Byte → Option (List WifiEntry)} {stringify : Form → List Byte} {s s' : Net}
  {a : NetAction}

theorem NetInv.mono (h : NetInv done s) (hsub : ∀ a ∈ done, a ∈ done') : NetInv done' s where
  scan := h.scan.mono fun _ hr => hr.mono hsub
  lists x hx e he := (h.lists x hx e he).mono hsub
  pages i := (h.pages i).mono (fun _ hc => hc.mono hsub) fun _ hc => hc.mono hsub
  forms form hf := (h.forms form hf).mono hsub

theorem netInv_init : NetInv [] .init where
  scan := scanFrom_init (origin_blank [])
  lists _ hx := absurd hx List.not_mem_nil
  pages _ := pageFrom_loaded (Or.inl rfl)
  forms _ hf := absurd hf List.not_mem_nil

/-- A step of the gateway. -/
theorem NetInv.app (h : NetInv done s) {b : AppAction} {app : AppState}
    (hb : ∀ res, b = .scan (.scanned res) → .app (.scan (.scanned res)) ∈ done)
    (hs : appStep httpd cj rootHtml s.app b = some app) : NetInv done { s with app := app } := by
  refine ⟨?_, h.lists, h.pages, h.forms⟩
  show ScanFrom _ app.scan.1
  rcases appStep_scanTask hs with hsame | hinit | ⟨c, rfl, hc⟩
  · rw [hsame]
    exact h.scan
  · rw [hinit]
    exact scanFrom_init (origin_blank done)
  · refine scanFrom_step h.scan (origin_blank done) ?_ (withHist_some hc).1
    rintro res rfl r hr
    exact Or.inr (Or.inr ⟨res, r, hb res rfl, hr, rfl⟩)

/-- A page changes, and so do the forms that are on their way. -/
theorem NetInv.page (h : NetInv done s) (i : Nat) {p : PageState} {forms : List Form}
    {lists : List (Nat × List WifiEntry)} (hp : PageFrom (Origin done) (Typed done) p)
    (hforms : ∀ form ∈ forms, Filled done form)
    (hlists : ∀ x ∈ lists, ∀ e ∈ x.2, Origin done e.ssid) :
    NetInv done { s with
      pages := Function.update s.pages i p, forms := forms, lists := lists } := by
  refine ⟨h.scan, hlists, fun j => ?_, hforms⟩
  by_cases hj : j = i
  · subst hj
    simpa using hp
  · simpa [hj] using h.pages j

/-- What the handler sends is the list of the records. -/
theorem listReply_eq {t : AppState} {r : Request} {body : List Byte}
    (h : listReply httpd cj t r = some body) :
    body = cj.print (wifiList (t.scan.1.gApInfo.records.take t.scan.1.gApCount)) := by
  unfold listReply wifiListGetHandler at h
  cases ht : t.server with
  | none =>
    rw [ht] at h
    cases h
  | some regs =>
    rw [ht] at h
    simp only at h
    split at h
    · cases hl : getWifiListJson t.scan.1.gApInfo t.scan.1.gApCount with
      | error f =>
        rw [hl] at h
        cases h
      | ok tree =>
        rw [hl, getWifiListJson_eq hl] at h
        cases hp : r.printed with
        | true =>
          rw [hp] at h
          cases h
          rfl
        | false =>
          rw [hp] at h
          cases h
    · cases h

/-- A list that goes on its way is that of the records. -/
theorem NetInv.listsAfter (h : NetInv done s) {i : Nat} {r : Request}
    (hfaith : Faithful httpd cj readList stringify s (.list i r)) :
    ∀ x ∈ listsAfter httpd cj readList s i r, ∀ e ∈ x.2, Origin done e.ssid := by
  unfold Main.listsAfter
  cases hbind : (listReply httpd cj s.app r).bind readList with
  | none => exact h.lists
  | some entries =>
    obtain ⟨body, hbody, hread⟩ := Option.bind_eq_some_iff.mp hbind
    have hentries := hfaith (by rw [hbody]; simp)
    rw [listReply_eq hbody] at hread
    cases hread.symm.trans hentries
    intro x hx e he
    rw [List.mem_append, List.mem_singleton] at hx
    rcases hx with hx | rfl
    · exact h.lists x hx e he
    · obtain ⟨r', hr', rfl⟩ := List.mem_map.mp he
      exact h.scan.records r' (List.mem_of_mem_take hr')

/-- **What each step does**, and when it can be made. -/
theorem netStep_cases (h : netStep httpd cj rootHtml readList stringify s a = some s') :
    match a with
    | .app b => b.PostsNothing httpd ∧
      ∃ app, appStep httpd cj rootHtml s.app b = some app ∧ s' = { s with app := app }
    | .load i => s' = { s with pages := Function.update s.pages i .loaded }
    | .page i e => ¬ FromServer e ∧ ∃ p, pageStep (s.pages i) e = some p ∧
      s' = { s with
        pages := Function.update s.pages i p
        forms := s.forms ++ p.posts.drop (s.pages i).posts.length }
    | .post k r => ConfigPost httpd r ∧ ∃ form app, s.forms[k]? = some form ∧
      r.recv = some (stringify form) ∧ appStep httpd cj rootHtml s.app (.request r) = some app ∧
      s' = { s with app := app, forms := s.forms.eraseIdx k }
    | .list i r => ¬ ConfigPost httpd r ∧
      ∃ app, appStep httpd cj rootHtml s.app (.request r) = some app ∧
        s' = { s with app := app, lists := listsAfter httpd cj readList s i r }
    | .reply k => ∃ i entries, s.lists[k]? = some (i, entries) ∧
      ((∃ p, pageStep (s.pages i) (.listLoaded entries) = some p ∧
        s' = { s with
          pages := Function.update s.pages i p, lists := s.lists.eraseIdx k }) ∨
        s' = { s with markup := true }) := by
  rw [netStep, Option.ite_none_left_eq_some] at h
  have h := h.2
  cases a with
  | app b =>
    simp only [textStep, Option.ite_none_right_eq_some, Option.map_eq_some_iff] at h
    obtain ⟨hno, app, happ, rfl⟩ := h
    exact ⟨hno, app, happ, rfl⟩
  | load i =>
    cases h
    rfl
  | page i e =>
    simp only [textStep, Option.ite_none_left_eq_some, Option.map_eq_some_iff] at h
    obtain ⟨hno, p, hp, rfl⟩ := h
    exact ⟨hno, p, hp, rfl⟩
  | post k r =>
    simp only [textStep] at h
    split at h
    · cases h
    · rename_i form hform
      rw [Option.ite_none_right_eq_some, Option.map_eq_some_iff] at h
      obtain ⟨⟨hpost, hrecv⟩, app, happ, rfl⟩ := h
      exact ⟨hpost, form, app, hform, hrecv, happ, rfl⟩
  | list i r =>
    simp only [textStep, Option.ite_none_left_eq_some, Option.map_eq_some_iff] at h
    obtain ⟨hno, app, happ, rfl⟩ := h
    exact ⟨hno, app, happ, rfl⟩
  | reply k =>
    simp only [textStep] at h
    split at h
    · cases h
    · rename_i i entries hk
      refine ⟨i, entries, hk, ?_⟩
      split at h
      · rename_i p hp
        cases h
        exact Or.inl ⟨p, hp, rfl⟩
      · rw [Option.ite_none_left_eq_some, Option.some.injEq] at h
        exact Or.inr h.2.symm

/-- **The step lemma.** -/
theorem netInv_step (done : List NetAction) (s : Net) (a : NetAction) (s' : Net)
    (h : NetInv done s) (hfaith : Faithful httpd cj readList stringify s a)
    (hs : netStep httpd cj rootHtml readList stringify s a = some s') :
    NetInv (done ++ [a]) s' := by
  have hlast : a ∈ done ++ [a] := List.mem_append_right _ (List.mem_singleton_self a)
  have h' : NetInv (done ++ [a]) s := h.mono fun b hb => List.mem_append_left _ hb
  have hnil : Origin (done ++ [a]) [] := Or.inl rfl
  have hs := netStep_cases hs
  cases a with
  | app b =>
    obtain ⟨-, app, happ, rfl⟩ := hs
    refine h'.app (fun res hres => ?_) happ
    rw [← hres]
    exact hlast
  | load i =>
    have hs : s' = { s with pages := Function.update s.pages i .loaded } := hs
    rw [hs]
    exact h'.page i (pageFrom_loaded hnil) h'.forms h'.lists
  | page i e =>
    obtain ⟨hno, p, hp, rfl⟩ := hs
    have hbrings : Brings (Origin (done ++ [.page i e])) (Typed (done ++ [.page i e])) e := by
      cases e with
      | listLoaded l => exact absurd trivial hno
      | typeName name => exact Or.inr (Or.inl ⟨i, hlast⟩)
      | typePassword password => exact ⟨i, hlast⟩
      | listFailed | clickItem | toggleManual | refresh | submit | timeout => trivial
    obtain ⟨hfrom, new, hnew⟩ := pageFrom_step (h'.pages i) hnil hbrings hp
    refine h'.page i hfrom (fun form hf => ?_) h'.lists
    rcases List.mem_append.mp hf with hf | hf
    · exact h'.forms form hf
    · exact hfrom.posts form (List.mem_of_mem_drop hf)
  | post k r =>
    obtain ⟨-, form, app, -, -, happ, rfl⟩ := hs
    have happ' := h'.app (fun res hres => by cases hres) happ
    exact ⟨happ'.scan, h'.lists, h'.pages, fun form hf =>
      h'.forms form (List.mem_of_mem_eraseIdx hf)⟩
  | list i r =>
    obtain ⟨-, app, happ, rfl⟩ := hs
    have happ' := h'.app (fun res hres => by cases hres) happ
    exact ⟨happ'.scan, h'.listsAfter hfaith, h'.pages, h'.forms⟩
  | reply k =>
    obtain ⟨i, entries, hk, ⟨p, hp, rfl⟩ | rfl⟩ := hs
    · have hbrings : ∀ e ∈ entries, Origin (done ++ [.reply k]) e.ssid :=
        h'.lists (i, entries) (List.mem_of_getElem? hk)
      obtain ⟨hfrom, -⟩ := pageFrom_step (e := .listLoaded entries) (h'.pages i) hnil hbrings hp
      exact h'.page i hfrom h'.forms fun x hx => h'.lists x (List.mem_of_mem_eraseIdx hx)
    · exact ⟨h'.scan, h'.lists, h'.pages, h'.forms⟩

/-! ## What the gateway starts with -/

/-- The gateway's part of a run. -/
theorem app_run {as : List NetAction}
    (hr : runActs (netStep httpd cj rootHtml readList stringify) .init as = some s) :
    runActs (appStep httpd cj rootHtml) .fresh
        (traceOf (netStep httpd cj rootHtml readList stringify) appActions .init as) =
      some s.app := by
  have hstep (s : Net) (t : AppState) (a : NetAction) (s' : Net) (hst : s.app = t)
      (hs : netStep httpd cj rootHtml readList stringify s a = some s') :
      ∃ t', runActs (appStep httpd cj rootHtml) t (appActions s a) = some t' ∧ s'.app = t' := by
    subst hst
    have hs := netStep_cases hs
    cases a with
    | app b =>
      obtain ⟨-, app, happ, rfl⟩ := hs
      exact ⟨app, runActs_single happ, rfl⟩
    | load i =>
      have hs : s' = { s with pages := Function.update s.pages i .loaded } := hs
      rw [hs]
      exact ⟨s.app, rfl, rfl⟩
    | page i e =>
      obtain ⟨-, p, -, rfl⟩ := hs
      exact ⟨s.app, rfl, rfl⟩
    | post k r =>
      obtain ⟨-, form, app, -, -, happ, rfl⟩ := hs
      exact ⟨app, runActs_single happ, rfl⟩
    | list i r =>
      obtain ⟨-, app, happ, rfl⟩ := hs
      exact ⟨app, runActs_single happ, rfl⟩
    | reply k =>
      obtain ⟨i, entries, -, ⟨p, -, rfl⟩ | rfl⟩ := hs
      · exact ⟨s.app, rfl, rfl⟩
      · exact ⟨s.app, rfl, rfl⟩
  obtain ⟨t, ht, happ⟩ := run_simulated hstep as .init .fresh rfl s hr
  rw [happ]
  exact ht

/-- The pair that a form leaves in `wifi_creds`. -/
def Form.strings (form : Form) : List Byte × List Byte :=
  (WifiCreds.submitted (utf8Chars form.1) (utf8Chars form.2)).strings

/-- What was posted at the portal was filled into a form. -/
theorem filled_of_posted {as : List NetAction} (hcj : cj.Ignores)
    (hr : runActs (netStep httpd cj rootHtml readList stringify) .init as = some s)
    (hfaith : AllSteps (netStep httpd cj rootHtml readList stringify)
      (Faithful httpd cj readList stringify) .init as)
    {sub : List Byte × List Byte} (h : PostedAtPortal httpd cj rootHtml
      (traceOf (netStep httpd cj rootHtml readList stringify) appActions .init as) sub) :
    ∃ form, Filled as form ∧ sub = Form.strings form := by
  obtain ⟨before, r, after, -, ssid, password, htrace, -, -, hpost, hsub, rfl⟩ := h
  have hmem : AppAction.request r ∈
      traceOf (netStep httpd cj rootHtml readList stringify) appActions .init as := by
    rw [htrace]
    exact List.mem_append_right _ List.mem_cons_self
  obtain ⟨as₁, a, as₂, t, rfl, ht, ha⟩ := mem_traceOf hmem
  obtain ⟨hfaith₁, hat⟩ := allSteps_at hfaith ht
  have hinv : NetInv as₁ t := by
    have := run_invariant_of netInv_step as₁ [] .init netInv_init hfaith₁ t ht
    rwa [List.nil_append] at this
  rw [runActs_append ht] at hr
  obtain ⟨t', hs, -⟩ := runActs_cons hr
  have hs := netStep_cases hs
  have hsub₁ : ∀ b ∈ as₁, b ∈ as₁ ++ a :: as₂ := fun b hb => List.mem_append_left _ hb
  cases a with
  | app b =>
    -- nothing but a form is posted there
    obtain rfl := List.mem_singleton.mp ha
    exact absurd hpost hs.1
  | post k r' =>
    obtain rfl := AppAction.request.inj (List.mem_singleton.mp ha)
    obtain ⟨-, form, app, hform, hrecv, -, -⟩ := hs
    obtain ⟨h0, hwritten⟩ := hat form hform
    have hsubmits := submits_text hcj hwritten h0 hrecv
    cases (submission_eq_iff.mpr hsub).symm.trans (submission_eq_iff.mpr hsubmits)
    exact ⟨form, (hinv.forms form (List.mem_of_getElem? hform)).mono hsub₁, rfl⟩
  | list i r' =>
    obtain rfl := AppAction.request.inj (List.mem_singleton.mp ha)
    exact absurd hpost hs.1
  | load | page | reply => exact absurd ha List.not_mem_nil

/-- **What the gateway starts with was chosen on a page.** Let the server behave as documented. In
every run of the gateway and the pages in which the JSON libraries are faithful, up to the first
list with markup that reaches a page, while the gateway is on, each of the two strings in
`wifi_creds` is the compiled-in one or that of a form that was filled in: its SSID was typed, or was
in a scan of the gateway's, or is empty; its password was typed. The two are the compiled-in pair or
those of one form, unless the last write that stored its SSID did not store its password, or the
last `nvs_read` failed to read exactly one of the two. -/
theorem creds_chosen {as : List NetAction} (hd : httpd.Documented) (hcj : cj.Ignores)
    (hr : runActs (netStep httpd cj rootHtml readList stringify) .init as = some s)
    (hfaith : AllSteps (netStep httpd cj rootHtml readList stringify)
      (Faithful httpd cj readList stringify) .init as)
    (hon : s.app.On) :
    let trace := traceOf (netStep httpd cj rootHtml readList stringify) appActions .init as
    let ops := traceOf (appStep httpd cj rootHtml) (deviceOps httpd cj) .fresh trace
    let strings := s.app.world.creds.strings
    (strings.1 = WifiCreds.compiledIn.strings.1 ∨
      ∃ form, Filled as form ∧ strings.1 = (Form.strings form).1) ∧
    (strings.2 = WifiCreds.compiledIn.strings.2 ∨
      ∃ form, Filled as form ∧ strings.2 = (Form.strings form).2) ∧
    (torn ops = false → lostOne ops = false →
      strings = WifiCreds.compiledIn.strings ∨
        ∃ form, Filled as form ∧ strings = Form.strings form) := by
  intro trace ops strings
  have hrun := app_run hr
  obtain ⟨hssid, hpassword, hpair⟩ := creds_submitted hrun hon
  refine ⟨hssid.imp_right ?_, hpassword.imp_right ?_, fun ht hl => (hpair ht hl).imp_right ?_⟩
  · rintro ⟨sub, hmem, hsub⟩
    obtain ⟨form, hform, rfl⟩ := filled_of_posted hcj hr hfaith (postedAtPortal_of_mem hd hrun hmem)
    exact ⟨form, hform, hsub⟩
  · rintro ⟨sub, hmem, hsub⟩
    obtain ⟨form, hform, rfl⟩ := filled_of_posted hcj hr hfaith (postedAtPortal_of_mem hd hrun hmem)
    exact ⟨form, hform, hsub⟩
  · intro hmem
    exact filled_of_posted hcj hr hfaith (postedAtPortal_of_mem hd hrun hmem)

end Invariant

/-! ## A network is chosen -/

/-- The request for the list. -/
def listGet : Request :=
  { homePost with head := utf8 "GET /api/wifi_list HTTP/1.1", recv := none }

/-- The request that the form for `net` is posted in. -/
def netPost : Request :=
  { homePost with recv := some (credentialsText (utf8 "net") (utf8 "secret77")) }

/-- A boot that cannot join, the portal, and a scan that finds `net`. -/
def scannedRun : List NetAction :=
  portalRun.map .app ++ firstCycle.map fun a => .app (.scan a)

/-- The list arrives; its entry is clicked, and the form is submitted. -/
def fillRun : List NetAction :=
  [.reply 0, .page 0 (.clickItem 0), .page 0 (.typePassword "secret77".toList), .page 0 .submit]

def chosenRun : List NetAction :=
  scannedRun ++ .list 0 listGet :: (fillRun ++ [.post 0 netPost, .app (.boot [true, true, true])])

/-- The browser, as far as this goes. -/
def netStringify (form : Form) : List Byte :=
  credentialsText (utf8Chars form.1) (utf8Chars form.2)

def chosenStep : Net → NetAction → Option Net :=
  netStep exactMatch (oneApCJson (utf8 "net") (utf8 "secret77")) [] netRead netStringify

theorem chosenRun_faithful : AllSteps chosenStep
    (Faithful exactMatch (oneApCJson (utf8 "net") (utf8 "secret77")) netRead netStringify) .init
    chosenRun := by
  refine allSteps_append (allSteps_of_mem _ _ fun s a ha => ?_) fun t ht => ⟨?_, fun t' ht' =>
    allSteps_append (allSteps_of_mem _ _ fun s a ha => ?_) fun u hu => ⟨?_, fun v _ =>
      ⟨trivial, fun _ _ => trivial⟩⟩⟩
  · rcases List.mem_append.mp ha with ha | ha
    · obtain ⟨b, -, rfl⟩ := List.mem_map.mp ha
      trivial
    · obtain ⟨b, -, rfl⟩ := List.mem_map.mp ha
      trivial
  · have hrecords : (runActs chosenStep .init scannedRun).map (fun t =>
        t.app.scan.1.gApInfo.records.take t.app.scan.1.gApCount) = some [apNet] := by
      decide +kernel
    rw [ht] at hrecords
    have hlist : t.app.scan.1.gApInfo.records.take t.app.scan.1.gApCount = [apNet] :=
      Option.some.inj hrecords
    have hread : ListRead (oneApCJson (utf8 "net") (utf8 "secret77")) netRead [apNet] := by
      unfold ListRead
      decide +kernel
    intro _
    rw [hlist]
    exact hread
  · simp only [fillRun, List.mem_cons, List.not_mem_nil, or_false] at ha
    rcases ha with rfl | rfl | rfl | rfl <;> trivial
  · have hforms : (runActs chosenStep .init (scannedRun ++ .list 0 listGet :: fillRun)).map
        (fun t => t.forms) = some [("net".toList, "secret77".toList)] := by
      decide +kernel
    have hrun : runActs chosenStep t (.list 0 listGet :: fillRun) = some u := by
      rw [runActs, ht']
      exact hu
    rw [runActs_append ht, hrun] at hforms
    have hsent : u.forms = [("net".toList, "secret77".toList)] := Option.some.inj hforms
    intro form hform
    rw [hsent] at hform
    cases hform
    exact ⟨by decide +kernel, submission_eq_iff.mp (by decide +kernel)⟩

/-- The gateway starts with what was chosen. -/
theorem creds_chosen_net : ∃ form, Filled chosenRun form ∧
    (utf8 "net", utf8 "secret77") = Form.strings form := by
  have hrun : (runActs chosenStep .init chosenRun).map (fun s =>
      (s.app.pc, s.app.world.creds.strings)) =
        some (.wifiInitSta, utf8 "net", utf8 "secret77") := by decide +kernel
  obtain ⟨s, hs, hv⟩ := Option.map_eq_some_iff.mp hrun
  have hpc : s.app.pc = .wifiInitSta := congrArg Prod.fst hv
  have hstrings : s.app.world.creds.strings = (utf8 "net", utf8 "secret77") := congrArg Prod.snd hv
  have hpair := (creds_chosen exactMatch_documented
    (oneApCJson_ignores (utf8 "net") (utf8 "secret77")) hs chosenRun_faithful
    (by simp [AppState.On, hpc])).2.2 (by decide +kernel) (by decide +kernel)
  rw [hstrings] at hpair
  exact hpair.resolve_left (by decide +kernel)

end Gateway.Main
