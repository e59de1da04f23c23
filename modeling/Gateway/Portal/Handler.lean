import Gateway.Lib.Json
import Gateway.Wifi.Nvs

/-!
# `wifi_config_post_handler`

Model of `main/main.c:95-137`. The handler calls `httpd_req_recv` once, ignores what it returns,
and parses its 1024-byte stack array as a C string. What the array held before and the memory above
it are inputs. `handleText` is the handler from `cJSON_Parse` on.

* `handleText_congr`: the reply and the stored strings depend on the two members only.
* `Unfinished`: the bytes delivered are no value yet and some continuation is one.
* **`post_outcome_iff`**: the outcome is that of the body, whatever the array held, exactly when the
  bytes delivered are not unfinished. `stale_post`: a failed receive stores the credentials of the
  request before.
-/

namespace Gateway.Portal

open Gateway.Lib Gateway.Wifi

/-- How the handler ends: `httpd_resp_send_500`, `httpd_resp_send_err` with code 400, or the
response object followed by `esp_restart`. -/
inductive Outcome where
  | failed
  | badRequest (message : List Byte)
  | accepted (response : List Byte)
  deriving DecidableEq

/-- `"message"` of the response. Its last character is cut in the source. -/
def acceptedMessage : List Byte := utf8 "Wi-Fi连接请求已接" ++ [0xE6, 0x94, 0x3F]

def acceptedJson : Json :=
  .obj [(utf8 "success", .bool true), (utf8 "message", .str acceptedMessage)]

/-- A fault ends the handler. -/
def liftFault {α : Type} : Except Fault α → NvsM α
  | .ok a => pure a
  | .error f => throw (.fault f)

/-- `strncpy` reads through `valuestring`. -/
def readString (item : Json) : NvsM (List Byte) :=
  match item.valuestring with
  | some s => pure s
  | none => throw (.fault .nullPointer)

/-- A copy into `wifi_creds`. -/
def copyCreds (copy : WifiCreds → Except Fault WifiCreds) : NvsM Unit := do
  let creds ← liftFault (copy (← get).creds)
  modify fun w => { w with creds := creds }

/-- The branch in which both members are found: the strings are copied, one after the other, and
written, and the client gets the response. The log before the copies takes a `NULL` for `%s`. -/
def acceptCredentials (cj : CJson) (ssidItem passwordItem : Json) : NvsM Outcome := do
  let ssid ← readString ssidItem
  copyCreds (·.copySsid ssid)
  let password ← readString passwordItem
  copyCreds (·.copyPassword password)
  nvsWrite
  return .accepted (cj.print acceptedJson)

/-- The handler from `cJSON_Parse(content)` on, where `content` is the C string `text`. -/
def handleText (cj : CJson) (text : List Byte) : NvsM Outcome := do
  match cj.parse text with
  | none => return .failed
  | some root =>
    match cj.getObjectItem root (utf8 "ssid"), cj.getObjectItem root (utf8 "password") with
    | some ssidItem, some passwordItem => acceptCredentials cj ssidItem passwordItem
    | _, _ => return .badRequest (utf8 "Missing SSID or password")

/-- `sizeof(content)`. -/
def contentLen : Nat := 1024

/-- `wifi_config_post_handler`. `recv` is what `httpd_req_recv` delivers, `none` when it fails;
`content` is the array before it, `above` the memory above the array. -/
def wifiConfigPostHandler (cj : CJson) (recv : Option (List Byte)) (content : Buf contentLen)
    (above : List Byte) : NvsM Outcome := do
  let content ← match recv with
    | none => pure content
    | some delivered => liftFault (content.store 0 delivered)
  handleText cj (cStr (content.bytes ++ above))

variable {cj : CJson} {w : World}

/-! ## From the text on -/

/-- **Both members are strings**: they are submitted and written. -/
theorem acceptCredentials_ok {i j : Json} {ssid password : List Byte}
    (hs : i.valuestring = some ssid) (hp : j.valuestring = some password) :
    acceptCredentials cj i j w =
      match nvsWrite { w with creds := .submitted ssid password } with
      | .ok _ w' => .ok (.accepted (cj.print acceptedJson)) w'
      | .error e w' => .error e w' := by
  show (acceptCredentials cj i j).run w = _
  unfold acceptCredentials readString copyCreds
  rw [hs, hp]
  simp only [pure_bind, EStateM.run_bind, EStateM.run_get, WifiCreds.copySsid_ok,
    WifiCreds.copyPassword_ok, liftFault, EStateM.run_modify, EStateM.run_pure]
  rw [show (⟨Buf.terminated 31 ssid, Buf.terminated 63 password⟩ : WifiCreds) =
    .submitted ssid password from rfl]
  cases hres : nvsWrite.run { w with creds := .submitted ssid password } with
  | ok _ w' =>
    rw [show nvsWrite { w with creds := .submitted ssid password } = _ from hres]
  | error e w' =>
    rw [show nvsWrite { w with creds := .submitted ssid password } = _ from hres]

/-- The SSID is copied into `wifi_creds`, and nothing else has changed. -/
def withSsid (w : World) (ssid : List Byte) : World :=
  { w with creds := { w.creds with ssid := Buf.terminated 31 ssid } }

/-- What the copies leave when one of them reads through `NULL`: the SSID is copied by then, if it
is a string. -/
def copiedSsid (ssidItem : Json) (w : World) : World :=
  match ssidItem.valuestring with
  | some ssid => withSsid w ssid
  | none => w

/-- A member that is not a string: `strncpy` reads through `NULL`. -/
theorem acceptCredentials_fault {i j : Json} (h : i.valuestring = none ∨ j.valuestring = none) :
    acceptCredentials cj i j w = .error (.fault .nullPointer) (copiedSsid i w) := by
  show (acceptCredentials cj i j).run w = _
  unfold acceptCredentials readString copiedSsid
  cases hi : i.valuestring with
  | none => rfl
  | some ssid =>
    rw [h.resolve_left (by rw [hi]; simp)]
    unfold copyCreds
    simp only [pure_bind, EStateM.run_bind, EStateM.run_get, WifiCreds.copySsid_ok, liftFault,
      EStateM.run_modify, EStateM.run_pure]
    rfl

theorem handleText_none {text : List Byte} (h : cj.parse text = none) :
    handleText cj text w = .ok .failed w := by
  unfold handleText
  rw [h]
  rfl

/-- **The outcome depends on the two members only.** -/
theorem handleText_congr {text text' : List Byte} {v v' : Json} (h : cj.parse text = some v)
    (h' : cj.parse text' = some v')
    (hsame : ∀ name, cj.getObjectItem v' name = cj.getObjectItem v name) :
    handleText cj text' w = handleText cj text w := by
  unfold handleText
  rw [h, h']
  simp only [hsame]

theorem acceptCredentials_ne_failed {i j : Json} {w' : World} :
    acceptCredentials cj i j w ≠ .ok .failed w' := by
  intro h
  cases hi : i.valuestring with
  | none =>
    rw [acceptCredentials_fault (Or.inl hi)] at h
    exact absurd h (by simp)
  | some ssid =>
    cases hj : j.valuestring with
    | none =>
      rw [acceptCredentials_fault (Or.inr hj)] at h
      exact absurd h (by simp)
    | some password =>
      rw [acceptCredentials_ok hi hj] at h
      split at h <;> exact absurd h (by simp)

/-- Only a text that does not parse ends in the 500 reply. -/
theorem handleText_failed {text : List Byte} {w' : World}
    (h : handleText cj text w = .ok .failed w') : cj.parse text = none := by
  cases hp : cj.parse text with
  | none => rfl
  | some root =>
    unfold handleText at h
    simp only [hp] at h
    cases hi : cj.getObjectItem root (utf8 "ssid") with
    | none =>
      simp only [hi] at h
      exact absurd h (by simp [pure, EStateM.pure])
    | some i =>
      cases hj : cj.getObjectItem root (utf8 "password") with
      | none =>
        simp only [hi, hj] at h
        exact absurd h (by simp [pure, EStateM.pure])
      | some j =>
        simp only [hi, hj] at h
        exact absurd h acceptCredentials_ne_failed

/-! ## The stack array -/

/-- The bytes delivered are in the array, then what was there before. -/
theorem post_text (recv : Option (List Byte)) {content : Buf contentLen} {above : List Byte}
    (hfit : (recv.getD []).length ≤ contentLen) :
    wifiConfigPostHandler cj recv content above w =
      handleText cj (cStr (recv.getD [] ++ (content.bytes.drop (recv.getD []).length ++ above))) w
      := by
  unfold wifiConfigPostHandler
  cases recv with
  | none =>
    simp only [bind, EStateM.bind, pure, EStateM.pure, Option.getD_none, List.length_nil,
      List.drop_zero, List.nil_append]
  | some delivered =>
    obtain ⟨b, hb, hbytes⟩ := content.store_ok 0 delivered (by simpa using hfit)
    simp only [hb, liftFault, bind, EStateM.bind, pure, EStateM.pure, Option.getD_some]
    rw [hbytes]
    unfold writeAt
    rw [List.take_zero, List.nil_append, Nat.zero_add, List.append_assoc]

/-- A text that is no value yet and can be continued to one. -/
def Unfinished (cj : CJson) (delivered : List Byte) : Prop :=
  (0 : Byte) ∉ delivered ∧ cj.parse delivered = none ∧
    ∃ more, (0 : Byte) ∉ more ∧ cj.parse (delivered ++ more) ≠ none

/-- **The stack can continue the delivered bytes by any text.** -/
theorem exists_stale (cj : CJson) (w : World) {recv : Option (List Byte)}
    (hfit : (recv.getD []).length ≤ contentLen) (more : List Byte) :
    ∃ content above, wifiConfigPostHandler cj recv content above w =
      handleText cj (cStr (recv.getD [] ++ more)) w := by
  generalize hd : recv.getD [] = delivered at hfit
  -- the text and a NUL, cut where the array ends
  let text := delivered ++ (more ++ [0])
  refine ⟨Buf.ofList contentLen text, text.drop contentLen, ?_⟩
  have hstart : (Buf.ofList contentLen text).bytes.take delivered.length = delivered := by
    rw [Buf.bytes_ofList, List.take_append_of_le_length
      (by rw [List.length_take, List.length_append]; omega), List.take_take,
      Nat.min_eq_left hfit, List.take_left]
  have hall : delivered ++ ((Buf.ofList contentLen text).bytes.drop delivered.length ++
      text.drop contentLen) = delivered ++ more ++
        0 :: List.replicate (contentLen - text.length) 0 := by
    rw [← List.append_assoc]
    nth_rewrite 1 [← hstart]
    rw [List.take_append_drop, Buf.ofList_append_drop]
    show delivered ++ (more ++ [0]) ++ _ = _
    rw [List.append_assoc, List.append_assoc, List.append_assoc]
    rfl
  rw [post_text recv (by rw [hd]; exact hfit), hd, hall, cStr_append_zero]

/-- **The outcome is that of the body alone, exactly when the delivered bytes are not unfinished.**
For a body that fits the array and any way `httpd_req_recv` returns (some prefix of the body, or an
error), the following are equivalent: whatever the array and the memory above it held, the handler
ends as on exactly the body; and the bytes delivered contain a NUL, or hold a complete value, or
have no continuation that parses. -/
theorem post_outcome_iff (hcj : cj.Ignores) (w : World) {body : List Byte}
    (hbody : body.length ≤ 1023) {recv : Option (List Byte)}
    (hrecv : ∀ delivered, recv = some delivered → delivered <+: body) :
    (∀ content above, wifiConfigPostHandler cj recv content above w =
      handleText cj (cStr body) w) ↔ ¬ Unfinished cj (recv.getD []) := by
  have hpre : recv.getD [] <+: body := by
    cases recv with
    | none => exact List.nil_prefix
    | some delivered => exact hrecv delivered rfl
  have hfit : (recv.getD []).length ≤ contentLen := by
    have := hpre.length_le
    unfold contentLen
    omega
  constructor
  · rintro hall ⟨h0, hnone, more, hmore, hsome⟩
    obtain ⟨c₁, a₁, h₁⟩ := exists_stale cj w hfit []
    obtain ⟨c₂, a₂, h₂⟩ := exists_stale cj w hfit more
    -- after the delivered bytes alone the handler fails, so it fails on the body
    rw [List.append_nil, cStr_of_notMem h0, handleText_none hnone, hall] at h₁
    have hjoin : (0 : Byte) ∉ recv.getD [] ++ more := by
      rw [List.mem_append, not_or]
      exact ⟨h0, hmore⟩
    rw [hall, h₁, cStr_of_notMem hjoin] at h₂
    exact hsome (handleText_failed h₂.symm)
  · intro hfin content above
    obtain ⟨rest, rfl⟩ := hpre
    rw [post_text recv hfit]
    by_cases h0 : (0 : Byte) ∈ recv.getD []
    · rw [cStr_append_of_mem _ h0, cStr_append_of_mem _ h0]
    · rw [cStr_append _ h0, cStr_append _ h0]
      cases hp : cj.parse (recv.getD []) with
      | some v =>
        obtain ⟨v₁, h₁, hsame₁⟩ := hcj _ v hp
          (cStr (content.bytes.drop (recv.getD []).length ++ above))
        obtain ⟨v₂, h₂, hsame₂⟩ := hcj _ v hp (cStr rest)
        rw [handleText_congr hp h₁ hsame₁, handleText_congr hp h₂ hsame₂]
      | none =>
        have hnone (t : List Byte) (ht : (0 : Byte) ∉ t) : cj.parse (recv.getD [] ++ t) = none := by
          by_contra hsome
          exact hfin ⟨h0, hp, t, ht, hsome⟩
        rw [handleText_none (hnone _ (zero_notMem_cStr _)),
          handleText_none (hnone _ (zero_notMem_cStr _))]

/-! ## Two requests -/

/-- The object the page posts. -/
def credentialsJson (ssid password : List Byte) : Json :=
  .obj [(utf8 "ssid", .str ssid), (utf8 "password", .str password)]

/-- A body as the page writes it, for strings that need no escape. -/
def credentialsText (ssid password : List Byte) : List Byte :=
  utf8 "\x7b\"ssid\":\"" ++ ssid ++ utf8 "\",\"password\":\"" ++ password ++ utf8 "\"\x7d"

def homeText : List Byte := credentialsText (utf8 "home") (utf8 "secret77")

def officeText : List Byte := credentialsText (utf8 "office") (utf8 "other999")

/-- `cJSON` as far as these two bodies and the response go. -/
def twoBodies : CJson where
  parse text :=
    if homeText <+: text then some (credentialsJson (utf8 "home") (utf8 "secret77"))
    else if officeText <+: text then some (credentialsJson (utf8 "office") (utf8 "other999"))
    else none
  print _ := utf8 "\x7b\n\t\"success\":\ttrue,\n\t\"message\":\t\"" ++ acceptedMessage ++
    utf8 "\"\n\x7d"
  getObjectItem
    | .obj members, name => members.lookup name
    | _, _ => none

theorem twoBodies_ignores : twoBodies.Ignores := by
  intro text v h more
  simp only [twoBodies] at h ⊢
  by_cases hh : homeText <+: text
  · rw [if_pos hh] at h
    rw [if_pos (hh.trans (List.prefix_append text more))]
    exact ⟨v, h, fun _ => rfl⟩
  · rw [if_neg hh] at h
    by_cases ho : officeText <+: text
    · have ho' := ho.trans (List.prefix_append text more)
      have hh' : ¬ homeText <+: text ++ more := fun hc =>
        absurd (List.prefix_of_prefix_length_le hc ho' (by decide +kernel)) (by decide +kernel)
      rw [if_pos ho] at h
      rw [if_neg hh', if_pos ho']
      exact ⟨v, h, fun _ => rfl⟩
    · rw [if_neg ho] at h
      exact absurd h (by simp)

/-- An empty flash, and calls that all succeed. -/
def freshWorld : World := .boot ⟨none, none⟩ [true, true, true, true]

/-- The flash after the handler. -/
def nvsAfter : EStateM.Result Stop World Outcome → Nvs
  | .ok _ w => w.nvs
  | .error _ w => w.nvs

/-- A body delivered whole, over an array that holds another one. -/
theorem post_outcome_iff_office :
    wifiConfigPostHandler twoBodies (some officeText) (Buf.ofList contentLen homeText) [0]
      freshWorld = handleText twoBodies (cStr officeText) freshWorld := by
  refine (post_outcome_iff twoBodies_ignores freshWorld (by decide +kernel) ?_).mpr ?_ _ _
  · rintro _ ⟨⟩
    exact List.prefix_rfl
  · rintro ⟨-, hnone, -⟩
    exact absurd hnone (by decide +kernel)

/-- `httpd_req_recv` fails on the body of the second request: the credentials of the first one,
still in the array, are stored again. -/
theorem stale_post :
    nvsAfter (wifiConfigPostHandler twoBodies none (Buf.ofList contentLen homeText) [0]
        freshWorld) = ⟨some (utf8 "home"), some (utf8 "secret77")⟩ ∧
      nvsAfter (handleText twoBodies (cStr officeText) freshWorld) =
        ⟨some (utf8 "office"), some (utf8 "other999")⟩ ∧
      ¬ ∀ (cj : CJson) (w : World) (body : List Byte) (recv : Option (List Byte))
        (content : Buf contentLen) (above : List Byte), cj.Ignores → body.length ≤ 1023 →
        (∀ delivered, recv = some delivered → delivered <+: body) →
        wifiConfigPostHandler cj recv content above w = handleText cj (cStr body) w := by
  have hstale : nvsAfter (wifiConfigPostHandler twoBodies none (Buf.ofList contentLen homeText) [0]
      freshWorld) = ⟨some (utf8 "home"), some (utf8 "secret77")⟩ := by decide +kernel
  have hbody : nvsAfter (handleText twoBodies (cStr officeText) freshWorld) =
      ⟨some (utf8 "office"), some (utf8 "other999")⟩ := by decide +kernel
  refine ⟨hstale, hbody, fun h => ?_⟩
  have heq := h twoBodies freshWorld officeText none (Buf.ofList contentLen homeText) [0]
    twoBodies_ignores (by decide +kernel) (by simp)
  rw [heq, hbody] at hstale
  exact absurd hstale (by decide +kernel)

end Gateway.Portal
