import Gateway.Portal.Handler

/-!
# The body of `POST /api/wifi_config`: its size and its types

`httpd_req_recv(req, content, req->content_len)` bounds the bytes it writes by the Content-Length of
the request and not by the array, and the handler writes no NUL after them. It looks for the two
members but not at their types, and `strncpy` reads through `valuestring`, which is `NULL` for what
is not a string.

* `handleText_refused`, `handleText_members`: what the handler does with a text, by what is found in
  it. `acceptCredentials_accepted`, `acceptCredentials_fault`: what it does with the two members, by
  their types.
* **`body_fits_iff`**: when the bytes received stay inside the array with a NUL after them, and a
  body too long for it is refused.
* **`typed_only_iff`**: when a complete document is stored if both members are strings and refused
  if not.
-/

namespace Gateway.Portal

open Gateway.Lib Gateway.Wifi

variable {cj : CJson} {w : World}

/-! ## What is found in a text -/

/-- The handler answers with an error, and changes nothing. -/
def Refused (w : World) (res : EStateM.Result Stop World Outcome) : Prop :=
  res = .ok .failed w ∨ ∃ message, res = .ok (.badRequest message) w

/-- The text does not parse, or one of the members is not found. -/
def NoMembers (cj : CJson) (text : List Byte) : Prop :=
  ∀ root, cj.parse text = some root → cj.getObjectItem root (utf8 "ssid") = none ∨
    cj.getObjectItem root (utf8 "password") = none

/-- The strings are in `wifi_creds`, `nvs_write` has run, and the client got the response, unless
power was lost in `nvs_write`. -/
def Accepted (cj : CJson) (w : World) (ssid password : List Byte)
    (res : EStateM.Result Stop World Outcome) : Prop :=
  ∃ w', (res = .ok (.accepted (cj.print acceptedJson)) w' ∨ res = .error .powerLost w') ∧
    w'.creds = .submitted ssid password ∧
    w'.nvs = stored w.nvs (.submitted ssid password) w.calls

theorem Accepted.not_refused {ssid password : List Byte}
    {res : EStateM.Result Stop World Outcome} (h : Accepted cj w ssid password res) :
    ¬ Refused w res := by
  obtain ⟨w', hres, -, -⟩ := h
  rcases hres with hres | hres
  · simp [Refused, hres]
  · simp [Refused, hres]

theorem not_refused_fault (f : Fault) (w' : World) : ¬ Refused w (.error (.fault f) w') := by
  simp [Refused]

/-- Otherwise both members are found. -/
theorem members_of_not_noMembers {text : List Byte} (h : ¬ NoMembers cj text) :
    ∃ root i j, cj.parse text = some root ∧ cj.getObjectItem root (utf8 "ssid") = some i ∧
      cj.getObjectItem root (utf8 "password") = some j := by
  unfold NoMembers at h
  push Not at h
  obtain ⟨root, hp, hi, hj⟩ := h
  obtain ⟨i, hi⟩ := Option.ne_none_iff_exists'.mp hi
  obtain ⟨j, hj⟩ := Option.ne_none_iff_exists'.mp hj
  exact ⟨root, i, j, hp, hi, hj⟩

/-- **Members missing**: refused. -/
theorem handleText_refused {text : List Byte} (h : NoMembers cj text) :
    Refused w (handleText cj text w) := by
  cases hp : cj.parse text with
  | none => exact Or.inl (handleText_none hp)
  | some root =>
    refine Or.inr ⟨utf8 "Missing SSID or password", ?_⟩
    unfold handleText
    simp only [hp]
    cases hi : cj.getObjectItem root (utf8 "ssid") with
    | none => rfl
    | some i =>
      rw [(h root hp).resolve_left (by rw [hi]; simp)]
      rfl

/-- **Both members found**: what follows is up to their types. -/
theorem handleText_members {text : List Byte} {root i j : Json} (hp : cj.parse text = some root)
    (hi : cj.getObjectItem root (utf8 "ssid") = some i)
    (hj : cj.getObjectItem root (utf8 "password") = some j) :
    handleText cj text w = acceptCredentials cj i j w := by
  unfold handleText
  simp only [hp, hi, hj]

/-- **Two strings**: accepted. -/
theorem acceptCredentials_accepted {i j : Json} {ssid password : List Byte}
    (hs : i.valuestring = some ssid) (hp : j.valuestring = some password) :
    Accepted cj w ssid password (acceptCredentials cj i j w) := by
  rw [acceptCredentials_ok hs hp]
  obtain ⟨w', hr, hnvs, hcreds⟩ := nvsWrite_ok { w with creds := .submitted ssid password }
  rcases hr with hr | hr
  · rw [hr]
    exact ⟨w', Or.inl rfl, hcreds, hnvs⟩
  · rw [hr]
    exact ⟨w', Or.inr rfl, hcreds, hnvs⟩

/-- **Refused exactly without the members.** -/
theorem handleText_refused_iff {text : List Byte} :
    Refused w (handleText cj text w) ↔ NoMembers cj text := by
  refine ⟨fun h => ?_, handleText_refused⟩
  by_contra hne
  obtain ⟨root, i, j, hp, hi, hj⟩ := members_of_not_noMembers hne
  rw [handleText_members hp hi hj] at h
  cases hs : i.valuestring with
  | none =>
    rw [acceptCredentials_fault (Or.inl hs)] at h
    exact not_refused_fault _ _ h
  | some ssid =>
    cases hq : j.valuestring with
    | none =>
      rw [acceptCredentials_fault (Or.inr hq)] at h
      exact not_refused_fault _ _ h
    | some password => exact (acceptCredentials_accepted hs hq).not_refused h

/-! ## The size of the body -/

/-- A request: its Content-Length, and what `httpd_req_recv` delivers of the body, at most that many
bytes; `none` when it fails. -/
structure Delivery where
  contentLength : Nat
  recv : Option (List Byte)
  bounded : (recv.getD []).length ≤ contentLength

/-- The bytes received. -/
def Delivery.bytes (dl : Delivery) : List Byte := dl.recv.getD []

/-- **The body fits its buffer**: the bytes received are stored inside `content` and a NUL stands
after them, and a body that leaves no room for one is refused. -/
def FitsBuffer (cj : CJson) (w : World) (dl : Delivery) (content : Buf contentLen)
    (above : List Byte) : Prop :=
  (∃ c, content.store 0 dl.bytes = .ok c ∧ dl.bytes.length < contentLen ∧
    byteAt c.bytes dl.bytes.length = 0) ∧
  (contentLen ≤ dl.contentLength →
    Refused w (wifiConfigPostHandler cj dl.recv content above w))

/-- With a NUL after the bytes received, they are the text. -/
theorem post_terminated {dl : Delivery} {content : Buf contentLen} {above : List Byte}
    (hlen : dl.bytes.length < contentLen) (hz : byteAt content.bytes dl.bytes.length = 0) :
    wifiConfigPostHandler cj dl.recv content above w = handleText cj (cStr dl.bytes) w := by
  have hdrop := drop_eq_cons (l := content.bytes) (by rw [content.size]; exact hlen)
  rw [hz] at hdrop
  rw [post_text dl.recv (Nat.le_of_lt hlen)]
  show handleText cj (cStr (dl.bytes ++ (content.bytes.drop dl.bytes.length ++ above))) w = _
  rw [hdrop, List.cons_append, cStr_append_zero]

/-- **When the body fits its buffer.** For every Content-Length, every way `httpd_req_recv` returns
and every content of the stack: the bytes received stay inside the array with a NUL after them, and
a body of 1024 bytes or more is refused, if and only if fewer than 1024 bytes were received, the
array already held a zero after them, and what was received of a body that long lacks one of the
members. -/
theorem body_fits_iff (cj : CJson) (w : World) (dl : Delivery) (content : Buf contentLen)
    (above : List Byte) :
    FitsBuffer cj w dl content above ↔
      dl.bytes.length < contentLen ∧ byteAt content.bytes dl.bytes.length = 0 ∧
        (contentLen ≤ dl.contentLength → NoMembers cj (cStr dl.bytes)) := by
  have hstore : dl.bytes.length < contentLen → ∃ c, content.store 0 dl.bytes = .ok c ∧
      byteAt c.bytes dl.bytes.length = byteAt content.bytes dl.bytes.length := by
    intro hlen
    obtain ⟨c, hc, hb⟩ := content.store_ok 0 dl.bytes (by omega)
    refine ⟨c, hc, ?_⟩
    rw [hb, byteAt_writeAt (by rw [content.size]; omega), if_neg (by omega)]
  constructor
  · rintro ⟨⟨c, hc, hlen, hz⟩, hlong⟩
    obtain ⟨c', hc', hsame⟩ := hstore hlen
    rw [hc] at hc'
    cases hc'
    rw [hsame] at hz
    refine ⟨hlen, hz, fun h => ?_⟩
    rw [post_terminated hlen hz] at hlong
    exact handleText_refused_iff.mp (hlong h)
  · rintro ⟨hlen, hz, hlong⟩
    obtain ⟨c, hc, hsame⟩ := hstore hlen
    refine ⟨⟨c, hc, hlen, hsame.trans hz⟩, fun h => ?_⟩
    rw [post_terminated hlen hz]
    exact handleText_refused (hlong h)

/-- More bytes than the array has: the store runs past its end. -/
theorem store_overflow {delivered : List Byte} (h : contentLen < delivered.length)
    (content : Buf contentLen) :
    content.store 0 delivered = .error (.outOfBounds contentLen 0 delivered.length) :=
  dif_neg (by omega)

theorem post_overflow {delivered : List Byte} (h : contentLen < delivered.length)
    (content : Buf contentLen) (above : List Byte) :
    wifiConfigPostHandler cj (some delivered) content above w =
      .error (.fault (.outOfBounds contentLen 0 delivered.length)) w := by
  unfold wifiConfigPostHandler
  simp only [store_overflow h]
  rfl

/-- A body of 1025 bytes, all of them received: the last one is written past the array. -/
theorem body_overflows :
    wifiConfigPostHandler twoBodies (some (List.replicate 1025 0x20)) (Buf.fill contentLen 0) [0]
        freshWorld = .error (.fault (.outOfBounds 1024 0 1025)) freshWorld ∧
      ¬ FitsBuffer twoBodies freshWorld ⟨1025, some (List.replicate 1025 0x20), by decide +kernel⟩
        (Buf.fill contentLen 0) [0] := by
  have hlen : contentLen < (List.replicate 1025 (0x20 : Byte)).length := by
    rw [List.length_replicate]
    decide
  constructor
  · rw [post_overflow hlen, List.length_replicate]
    rfl
  rintro ⟨⟨c, hc, -⟩, -⟩
  cases (store_overflow hlen (Buf.fill contentLen 0)).symm.trans hc

/-! ## The types of the members -/

/-- The document is an object whose two members are these strings. -/
def Credentials (cj : CJson) (doc : Json) (ssid password : List Byte) : Prop :=
  (∃ members, doc = .obj members) ∧ cj.getObjectItem doc (utf8 "ssid") = some (.str ssid) ∧
    cj.getObjectItem doc (utf8 "password") = some (.str password)

/-- **Only well-typed credentials are accepted**: two strings are stored, and any other document is
refused. -/
def TypedOnly (cj : CJson) (w : World) (doc : Json) (res : EStateM.Result Stop World Outcome) :
    Prop :=
  (∀ ssid password, Credentials cj doc ssid password →
    Accepted cj w (cStr ssid) (cStr password) res) ∧
  ((¬ ∃ ssid password, Credentials cj doc ssid password) → Refused w res)

/-- Members that are both found are strings. -/
def MembersTyped (cj : CJson) (doc : Json) : Prop :=
  ∀ i j, cj.getObjectItem doc (utf8 "ssid") = some i →
    cj.getObjectItem doc (utf8 "password") = some j →
    i.valuestring ≠ none ∧ j.valuestring ≠ none

theorem eq_str_of_valuestring {i : Json} (h : i.valuestring ≠ none) : ∃ s, i = .str s := by
  cases i with
  | str s => exact ⟨s, rfl⟩
  | _ => exact absurd rfl h

/-- **The handler on a text**: only well-typed credentials are accepted if the members that are
found are strings. -/
theorem handleText_typed_iff (hobj : cj.ObjectsOnly) {text : List Byte} {doc : Json}
    (hp : cj.parse text = some doc) :
    TypedOnly cj w doc (handleText cj text w) ↔ MembersTyped cj doc := by
  constructor
  · rintro ⟨-, href⟩ i j hi hj
    rw [handleText_members hp hi hj] at href
    by_contra hne
    have hnull : i.valuestring = none ∨ j.valuestring = none := by
      by_cases hs : i.valuestring = none
      · exact Or.inl hs
      · exact Or.inr (not_not.mp fun hq => hne ⟨hs, hq⟩)
    rw [acceptCredentials_fault hnull] at href
    refine not_refused_fault _ _ (href ?_)
    rintro ⟨ssid, password, -, hs, hq⟩
    cases hi.symm.trans hs
    cases hj.symm.trans hq
    exact absurd hnull (by simp [Json.valuestring])
  · intro htyped
    refine ⟨fun ssid password hcred => ?_, fun hno => ?_⟩
    · rw [handleText_members hp hcred.2.1 hcred.2.2]
      exact acceptCredentials_accepted rfl rfl
    · refine handleText_refused ?_
      by_contra hne
      obtain ⟨root, i, j, hroot, hi, hj⟩ := members_of_not_noMembers hne
      cases hp.symm.trans hroot
      obtain ⟨hs, hq⟩ := htyped i j hi hj
      obtain ⟨ssid, rfl⟩ := eq_str_of_valuestring hs
      obtain ⟨password, rfl⟩ := eq_str_of_valuestring hq
      exact hno ⟨ssid, password, hobj _ _ _ hi, hi, hj⟩

/-- **When only well-typed credentials are accepted.** For every document delivered complete, over
whatever the stack held: two strings are stored and answered, and every other document is refused
with nothing changed, if and only if the document's text fits the array and the two members, where
both are found, are strings. -/
theorem typed_only_iff (hcj : cj.Ignores) (hobj : cj.ObjectsOnly) (w : World) {body : List Byte}
    {doc : Json} (hparse : cj.parse body = some doc) (h0 : (0 : Byte) ∉ body)
    (content : Buf contentLen) (above : List Byte) :
    TypedOnly cj w doc (wifiConfigPostHandler cj (some body) content above w) ↔
      body.length ≤ contentLen ∧ MembersTyped cj doc := by
  by_cases hfit : body.length ≤ contentLen
  · obtain ⟨v, hv, hsame⟩ := hcj body doc hparse (cStr (content.bytes.drop body.length ++ above))
    rw [post_text (some body) hfit]
    simp only [Option.getD_some, hfit, true_and]
    rw [cStr_append _ h0, handleText_congr hparse hv hsame]
    exact handleText_typed_iff hobj hparse
  · rw [post_overflow (Nat.lt_of_not_le hfit)]
    refine ⟨fun ⟨hacc, href⟩ => ?_, fun h => absurd h.1 hfit⟩
    by_cases hcred : ∃ ssid password, Credentials cj doc ssid password
    · obtain ⟨ssid, password, hcred⟩ := hcred
      obtain ⟨w', h | h, -, -⟩ := hacc ssid password hcred
      · exact absurd h (by simp)
      · exact absurd h (by simp)
    · exact absurd (href hcred) (not_refused_fault _ _)

/-! ## Two documents -/

/-- `cJSON` as far as one document goes. -/
def oneBody (text : List Byte) (doc : Json) : CJson where
  parse t := if text <+: t then some doc else none
  print := twoBodies.print
  getObjectItem := twoBodies.getObjectItem

theorem oneBody_parse {text t : List Byte} (doc : Json) (h : text <+: t) :
    (oneBody text doc).parse t = some doc := if_pos h

theorem oneBody_ignores (text : List Byte) (doc : Json) : (oneBody text doc).Ignores := by
  intro t v h more
  simp only [oneBody] at h ⊢
  by_cases hc : text <+: t
  · rw [if_pos hc] at h
    rw [if_pos (hc.trans (List.prefix_append t more))]
    exact ⟨v, h, fun _ => rfl⟩
  · rw [if_neg hc] at h
    exact absurd h (by simp)

theorem oneBody_objectsOnly (text : List Byte) (doc : Json) :
    (oneBody text doc).ObjectsOnly := by
  intro v name item h
  cases v with
  | obj members => exact ⟨members, rfl⟩
  | _ => exact absurd h (by simp [oneBody, twoBodies])

theorem typed_only_iff_office :
    TypedOnly (oneBody officeText (credentialsJson (utf8 "office") (utf8 "other999"))) freshWorld
      (credentialsJson (utf8 "office") (utf8 "other999"))
      (wifiConfigPostHandler (oneBody officeText (credentialsJson (utf8 "office")
        (utf8 "other999"))) (some officeText) (Buf.fill contentLen 0x7D) [0] freshWorld) := by
  refine (typed_only_iff (oneBody_ignores _ _) (oneBody_objectsOnly _ _) freshWorld
    (oneBody_parse _ List.prefix_rfl) (by decide +kernel) _ _).mpr ⟨by decide +kernel, ?_⟩
  rintro i j hi hj
  cases hi
  cases hj
  simp [Json.valuestring]

/-- The text `{"ssid":5,"password":"x"}`. -/
def numberText : List Byte := utf8 "\x7b\"ssid\":5,\"password\":\"x\"\x7d"

def numberJson : Json := .obj [(utf8 "ssid", .number 5 0), (utf8 "password", .str (utf8 "x"))]

/-- A number for the SSID: `strncpy` reads through `NULL`. -/
theorem typed_only_number :
    wifiConfigPostHandler (oneBody numberText numberJson) (some numberText) (Buf.fill contentLen 0)
        [0] freshWorld = .error (.fault .nullPointer) freshWorld ∧
      ¬ TypedOnly (oneBody numberText numberJson) freshWorld numberJson
        (wifiConfigPostHandler (oneBody numberText numberJson) (some numberText)
          (Buf.fill contentLen 0) [0] freshWorld) := by
  have hnumber : (oneBody numberText numberJson).getObjectItem numberJson (utf8 "ssid") =
      some (.number 5 0) := rfl
  have hstring : (oneBody numberText numberJson).getObjectItem numberJson (utf8 "password") =
      some (.str (utf8 "x")) := rfl
  have hrun : wifiConfigPostHandler (oneBody numberText numberJson) (some numberText)
      (Buf.fill contentLen 0) [0] freshWorld = .error (.fault .nullPointer) freshWorld := by
    have hparse : (oneBody numberText numberJson).parse
        (cStr (numberText ++ ((Buf.fill contentLen 0).bytes.drop numberText.length ++ [0]))) =
          some numberJson := oneBody_parse numberJson (by decide +kernel)
    rw [post_text (some numberText) (by decide +kernel), Option.getD_some,
      handleText_members hparse hnumber hstring]
    exact acceptCredentials_fault (Or.inl rfl)
  refine ⟨hrun, ?_⟩
  rw [hrun]
  rintro ⟨-, href⟩
  refine not_refused_fault _ _ (href ?_)
  rintro ⟨ssid, password, -, hs, -⟩
  rw [hnumber] at hs
  exact absurd hs (by simp)

end Gateway.Portal
