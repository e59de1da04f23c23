import Gateway.Portal.Handler
import Gateway.Scan.WifiList

/-!
# From the list of networks to the driver's configuration

A scan record's SSID goes through `get_wifi_list_json` to the page (`main/root.html`), which reads
it into `data-ssid` and posts it with the passphrase; `wifi_config_post_handler` copies it to
`wifi_creds`, `nvs_write` stores it, and after the restart `nvs_read` loads it and `wifi_init_sta`
copies it to `wifi_config.sta`. `joined` is the whole way.

The page's `JSON.parse` and `JSON.stringify` and the calls into `cJSON` are parameters; `RoundTrips`
is what is assumed of them on the two documents that are exchanged.

* `joined_eq`: the driver gets the two strings cut to 31 and 63 bytes.
* **`joined_iff`**: it gets them whole exactly when they have at most that many. `cut_ssid`: an SSID
  of 32 bytes, which the list offers, is cut.
-/

namespace Gateway.Portal

open Gateway.Lib Gateway.Wifi Gateway.Scan

/-- The page's JSON. -/
structure Browser where
  jsonParse : List Byte → Option Json
  jsonStringify : Json → List Byte

/-- A property of a parsed object; of members of one name, the last one. -/
def jsMember : Json → List Byte → Option Json
  | .obj members, name => members.reverse.lookup name
  | _, _ => none

/-- `data-ssid` of entry `i` of the list (`updateWiFiList`). -/
def listedSsid (list : Json) (i : Nat) : Option (List Byte) :=
  match jsMember list (utf8 "wifi_list") with
  | some (.arr items) =>
    match items[i]?.bind (jsMember · (utf8 "ssid")) with
    | some (.str ssid) => some ssid
    | _ => none
  | _ => none

/-- The body the page posts when entry `i` is chosen. -/
def postBody (br : Browser) (text : List Byte) (i : Nat) (password : List Byte) :
    Option (List Byte) := do
  let list ← br.jsonParse text
  let ssid ← listedSsid list i
  return br.jsonStringify (credentialsJson ssid password)

/-- **The whole way**: entry `i` is listed, posted with a password and delivered whole, and the
device restarts. `content`, `above` and `w` are the stack and the device's state before the post,
`calls` the outcomes of the NVS calls of the next boot. -/
def joined (cj : CJson) (br : Browser) (gApInfo : ApInfo) (gApCount i : Nat)
    (password : List Byte) (content : Buf contentLen) (above : List Byte) (w : World)
    (calls : List Bool) : Option StaConfig := do
  let list ← (getWifiListJson gApInfo gApCount).toOption
  let body ← postBody br (cj.print list) i password
  match wifiConfigPostHandler cj (some body) content above w with
  | .ok (.accepted _) w =>
    match nvsRead (.boot w.nvs calls) with
    | .ok _ w => w.creds.staConfig.toOption
    | .error _ _ => none
  | _ => none

/-! ## Assumptions -/

def ValidUtf8 (s : List Byte) : Prop :=
  (ByteArray.mk (s.map UInt8.ofBitVec).toArray).IsValidUTF8

/-- A WPA passphrase: 8 to 63 printable ASCII characters, or 64 hex digits. -/
def Passphrase (p : List Byte) : Prop :=
  (8 ≤ p.length ∧ p.length ≤ 63 ∧ ∀ b ∈ p, 0x20#8 ≤ b ∧ b ≤ 0x7E#8) ∨
    (p.length = 64 ∧ ∀ b ∈ p, (0x30#8 ≤ b ∧ b ≤ 0x39#8) ∨ (0x41#8 ≤ b ∧ b ≤ 0x46#8) ∨
      (0x61#8 ≤ b ∧ b ≤ 0x66#8))

theorem Passphrase.length_le {p : List Byte} (h : Passphrase p) : p.length ≤ 64 := by
  rcases h with ⟨-, hle, -⟩ | ⟨hlen, -⟩
  · omega
  · omega

theorem Passphrase.zero_notMem {p : List Byte} (h : Passphrase p) : (0 : Byte) ∉ p := by
  intro h0
  rcases h with ⟨-, -, hb⟩ | ⟨-, hb⟩
  · exact absurd (hb 0 h0).1 (by decide)
  · rcases hb 0 h0 with ⟨hc, -⟩ | ⟨hc, -⟩ | ⟨hc, -⟩ <;> exact absurd hc (by decide)

/-- **What is assumed of the two JSON libraries**, on the list and on the object posted: an SSID
that is UTF-8 and a passphrase are read as they were written, and a JSON text has no NUL and spends
at most six bytes on a byte of a string. -/
structure RoundTrips (cj : CJson) (br : Browser) (list : Json) (i : Nat)
    (ssid password : List Byte) : Prop where
  listed : ValidUtf8 ssid → ∃ list', br.jsonParse (cj.print list) = some list' ∧
    listedSsid list' i = listedSsid list i
  posted : ValidUtf8 ssid → Passphrase password →
    cj.parse (br.jsonStringify (credentialsJson ssid password)) =
      some (credentialsJson ssid password)
  ssidItem : cj.getObjectItem (credentialsJson ssid password) (utf8 "ssid") = some (.str ssid)
  passwordItem : cj.getObjectItem (credentialsJson ssid password) (utf8 "password") =
    some (.str password)
  noNul : (0 : Byte) ∉ br.jsonStringify (credentialsJson ssid password)
  size : (br.jsonStringify (credentialsJson ssid password)).length ≤
    6 * (ssid.length + password.length) + 32

/-! ## The way, piece by piece -/

theorem listedSsid_wifiList {rs : List ApRecord} {i : Nat} {r : ApRecord} (h : rs[i]? = some r) :
    listedSsid (wifiList rs) i = some (cStr r.ssid.bytes) := by
  have hlist : jsMember (wifiList rs) (utf8 "wifi_list") = some (.arr (rs.map apItem)) := rfl
  have hitem : jsMember (apItem r) (utf8 "ssid") = some (.str (cStr r.ssid.bytes)) := rfl
  unfold listedSsid
  simp only [hlist, List.getElem?_map, h, Option.map_some, Option.bind_some, hitem]

section Way

variable {cj : CJson} {br : Browser} {gApInfo : ApInfo} {gApCount i : Nat} {r : ApRecord}
  {password : List Byte} {w : World}

/-- The handler stores the object it is posted, over whatever the array held. -/
theorem post_credentials (hcj : cj.Ignores) {ssid body : List Byte} {calls : List Bool}
    (hparse : cj.parse body = some (credentialsJson ssid password))
    (hssid : cj.getObjectItem (credentialsJson ssid password) (utf8 "ssid") = some (.str ssid))
    (hpassword : cj.getObjectItem (credentialsJson ssid password) (utf8 "password") =
      some (.str password))
    (h0 : (0 : Byte) ∉ body) (hfit : body.length ≤ contentLen)
    (hcalls : w.calls = true :: true :: true :: true :: calls) (content : Buf contentLen)
    (above : List Byte) :
    ∃ w', wifiConfigPostHandler cj (some body) content above w =
        .ok (.accepted (cj.print acceptedJson)) w' ∧
      w'.nvs = ⟨some (WifiCreds.submitted (cStr ssid) (cStr password)).strings.1,
        some (WifiCreds.submitted (cStr ssid) (cStr password)).strings.2⟩ := by
  obtain ⟨v', hparse', hsame⟩ := hcj body _ hparse (cStr (content.bytes.drop body.length ++ above))
  obtain ⟨w', hwrite, hnvs⟩ : ∃ w', nvsWrite { w with
      creds := .submitted (cStr ssid) (cStr password) } = .ok () w' ∧
      w'.nvs = ⟨some (WifiCreds.submitted (cStr ssid) (cStr password)).strings.1,
        some (WifiCreds.submitted (cStr ssid) (cStr password)).strings.2⟩ :=
    ⟨_, nvsWrite_all hcalls, rfl⟩
  refine ⟨w', ?_, hnvs⟩
  rw [post_text (some body) hfit]
  simp only [Option.getD_some]
  rw [cStr_append _ h0, handleText_congr hparse hparse' hsame]
  unfold handleText
  rw [hparse]
  simp only [hssid, hpassword]
  rw [acceptCredentials_ok rfl rfl, hwrite]

/-- The next boot loads what was stored, and `wifi_init_sta` copies it. -/
theorem boot_credentials (ssid password : List Byte) (calls : List Bool) :
    ∃ w', nvsRead (.boot ⟨some (WifiCreds.submitted ssid password).strings.1,
        some (WifiCreds.submitted ssid password).strings.2⟩ (true :: true :: true :: calls)) =
          .ok () w' ∧
      w'.creds.staConfig = .ok ⟨Buf.terminated 31 ssid, Buf.terminated 63 password⟩ := by
  obtain ⟨w', hread, hstr⟩ := boot_strings (WifiCreds.fits_submitted ssid password) rfl rfl
    .compiledIn calls
  exact ⟨w', hread, WifiCreds.staConfig_submitted hstr⟩

/-- **The way**: the driver gets the two strings, cut to 31 and 63 bytes. -/
theorem joined_eq (hcj : cj.Ignores) (hcount : gApCount ≤ maxWifiListSize)
    (hr : (gApInfo.records.take gApCount)[i]? = some r)
    (hlen : (cStr r.ssid.bytes).length ≤ 32) (hutf8 : ValidUtf8 (cStr r.ssid.bytes))
    (hpass : Passphrase password)
    (hrt : RoundTrips cj br (wifiList (gApInfo.records.take gApCount)) i (cStr r.ssid.bytes)
      password)
    {calls : List Bool} (hcalls : w.calls = true :: true :: true :: true :: calls)
    (content : Buf contentLen) (above : List Byte) (bootCalls : List Bool) :
    joined cj br gApInfo gApCount i password content above w (true :: true :: true :: bootCalls) =
      some ⟨Buf.terminated 31 (cStr r.ssid.bytes), Buf.terminated 63 password⟩ := by
  obtain ⟨list', hparse, hlisted⟩ := hrt.listed hutf8
  rw [listedSsid_wifiList hr] at hlisted
  have hbody : postBody br (cj.print (wifiList (gApInfo.records.take gApCount))) i password =
      some (br.jsonStringify (credentialsJson (cStr r.ssid.bytes) password)) := by
    unfold postBody
    rw [hparse]
    simp only [Option.bind_eq_bind, Option.bind_some, hlisted]
    rfl
  have hfit : (br.jsonStringify (credentialsJson (cStr r.ssid.bytes) password)).length ≤
      contentLen := by
    have hsize := hrt.size
    have hp := hpass.length_le
    unfold contentLen
    omega
  obtain ⟨w₁, hpost, hnvs⟩ := post_credentials hcj (hrt.posted hutf8 hpass) hrt.ssidItem
    hrt.passwordItem hrt.noNul hfit hcalls content above
  rw [cStr_cStr, cStr_of_notMem hpass.zero_notMem] at hnvs
  obtain ⟨w₂, hread, hsta⟩ := boot_credentials (cStr r.ssid.bytes) password bootCalls
  unfold joined
  rw [getWifiListJson_ok gApInfo hcount]
  simp only [Except.toOption, Option.bind_eq_bind, Option.bind_some, hbody, hpost, hnvs, hread,
    hsta]

/-- **The network offered is the network joined, exactly when it leaves room for the two
terminators.** Every listed record whose SSID is UTF-8 of at most 32 bytes, posted with a legal
passphrase, ends byte for byte and zero padded in the driver's configuration if and only if the
SSID has at most 31 bytes and the passphrase at most 63 characters. -/
theorem joined_iff (hcj : cj.Ignores) (hcount : gApCount ≤ maxWifiListSize)
    (hr : (gApInfo.records.take gApCount)[i]? = some r)
    (hlen : (cStr r.ssid.bytes).length ≤ 32) (hutf8 : ValidUtf8 (cStr r.ssid.bytes))
    (hpass : Passphrase password)
    (hrt : RoundTrips cj br (wifiList (gApInfo.records.take gApCount)) i (cStr r.ssid.bytes)
      password)
    {calls : List Bool} (hcalls : w.calls = true :: true :: true :: true :: calls)
    (content : Buf contentLen) (above : List Byte) (bootCalls : List Bool) :
    joined cj br gApInfo gApCount i password content above w
        (true :: true :: true :: bootCalls) =
      some ⟨Buf.ofList 32 (cStr r.ssid.bytes), Buf.ofList 64 password⟩ ↔
        (cStr r.ssid.bytes).length ≤ 31 ∧ password.length ≤ 63 := by
  have hssid := Buf.terminated_eq_ofList (zero_notMem_cStr r.ssid.bytes) hlen
  have hpassword := Buf.terminated_eq_ofList hpass.zero_notMem hpass.length_le
  rw [joined_eq hcj hcount hr hlen hutf8 hpass hrt hcalls content above bootCalls,
    Option.some.injEq, StaConfig.mk.injEq]
  constructor
  · rintro ⟨hs, hp⟩
    exact ⟨hssid.mp hs, hpassword.mp hp⟩
  · rintro ⟨hs, hp⟩
    exact ⟨hssid.mpr hs, hpassword.mpr hp⟩

end Way

/-! ## One access point -/

/-- A record with the SSID `ssid`. -/
def apNamed (ssid : List Byte) : ApRecord := ⟨Buf.ofList 33 ssid, 0xC4#8, 6, .wpa2Psk⟩

/-- `g_ap_info` after a scan that found it. -/
def oneAp (ssid : List Byte) : ApInfo :=
  ⟨apNamed ssid :: List.replicate 31 .blank, by rw [List.length_cons, List.length_replicate]; rfl⟩

/-- `cJSON_Print` on its list. -/
def oneApText (ssid : List Byte) : List Byte :=
  utf8 "\x7b\n\t\"wifi_list\":\t[\x7b\n\t\t\t\"ssid\":\t\"" ++ ssid ++
    utf8 "\",\n\t\t\t\"rssi\":\t-60,\n\t\t\t\"channel\":\t6,\n" ++
    utf8 "\t\t\t\"auth_mode\":\t\"WPA2-PSK\"\n\t\t\x7d]\n\x7d"

/-- `cJSON` as far as its list, one body and the response go. -/
def oneApCJson (ssid password : List Byte) : CJson where
  parse text :=
    if credentialsText ssid password <+: text then some (credentialsJson ssid password) else none
  print json :=
    match jsMember json (utf8 "wifi_list") with
    | some _ => oneApText ssid
    | none => twoBodies.print json
  getObjectItem
    | .obj members, name => members.lookup name
    | _, _ => none

/-- The page's JSON as far as the list and the strings need no escape. -/
def oneApBrowser (ssid : List Byte) : Browser where
  jsonParse text := if text = oneApText ssid then some (wifiList [apNamed ssid]) else none
  jsonStringify
    | .obj [(_, .str ssid), (_, .str password)] => credentialsText ssid password
    | _ => []

theorem oneApCJson_ignores (ssid password : List Byte) : (oneApCJson ssid password).Ignores := by
  intro text v h more
  simp only [oneApCJson] at h ⊢
  by_cases hc : credentialsText ssid password <+: text
  · rw [if_pos hc] at h
    rw [if_pos (hc.trans (List.prefix_append text more))]
    exact ⟨v, h, fun _ => rfl⟩
  · rw [if_neg hc] at h
    exact absurd h (by simp)

theorem oneAp_roundTrips {ssid password : List Byte} (hs : (0 : Byte) ∉ ssid)
    (hp : (0 : Byte) ∉ password) :
    RoundTrips (oneApCJson ssid password) (oneApBrowser ssid) (wifiList [apNamed ssid]) 0 ssid
      password where
  listed _ := ⟨wifiList [apNamed ssid], if_pos rfl, rfl⟩
  posted _ _ := if_pos List.prefix_rfl
  ssidItem := rfl
  passwordItem := rfl
  noNul := by
    show (0 : Byte) ∉ credentialsText ssid password
    unfold credentialsText
    simp only [List.mem_append, not_or]
    exact ⟨⟨⟨⟨by decide +kernel, hs⟩, by decide +kernel⟩, hp⟩, by decide +kernel⟩
  size := by
    show (credentialsText ssid password).length ≤ _
    have hconst : (utf8 "\x7b\"ssid\":\"").length = 9 ∧ (utf8 "\",\"password\":\"").length = 14 ∧
        (utf8 "\"\x7d").length = 2 := by decide +kernel
    unfold credentialsText
    simp only [List.length_append]
    omega

theorem passphrase_secret77 : Passphrase (utf8 "secret77") := Or.inl (by decide +kernel)

/-- An SSID of three bytes is joined. -/
theorem joined_iff_net :
    joined (oneApCJson (utf8 "net") (utf8 "secret77")) (oneApBrowser (utf8 "net"))
        (oneAp (utf8 "net")) 1 0 (utf8 "secret77") (Buf.fill contentLen 0) [0] freshWorld
        [true, true, true] =
      some ⟨Buf.ofList 32 (utf8 "net"), Buf.ofList 64 (utf8 "secret77")⟩ := by
  have hname : cStr (apNamed (utf8 "net")).ssid.bytes = utf8 "net" := by decide +kernel
  have hiff := joined_iff (r := apNamed (utf8 "net")) (i := 0) (w := freshWorld)
    (oneApCJson_ignores (utf8 "net") (utf8 "secret77")) (by decide : 1 ≤ maxWifiListSize)
    (show ((oneAp (utf8 "net")).records.take 1)[0]? = some (apNamed (utf8 "net")) from rfl)
    (by rw [hname]; decide +kernel) (by rw [hname]; unfold ValidUtf8; decide +kernel)
    passphrase_secret77
    (by rw [hname]; exact oneAp_roundTrips (by decide +kernel) (by decide +kernel)) rfl
    (Buf.fill contentLen 0) [0] []
  rw [hname] at hiff
  exact hiff.mpr (by decide +kernel)

/-- An SSID of 32 bytes. -/
def longSsid : List Byte := utf8 "abcdefghijklmnopqrstuvwxyz012345"

/-- The list offers it, and the driver gets its first 31 bytes. -/
theorem cut_ssid :
    listedSsid (wifiList ((oneAp longSsid).records.take 1)) 0 = some longSsid ∧
      joined (oneApCJson longSsid (utf8 "secret77")) (oneApBrowser longSsid) (oneAp longSsid) 1 0
          (utf8 "secret77") (Buf.fill contentLen 0) [0] freshWorld [true, true, true] =
        some ⟨Buf.ofList 32 (longSsid.take 31), Buf.ofList 64 (utf8 "secret77")⟩ ∧
      ¬ ∀ (cj : CJson) (br : Browser) (ssid password : List Byte), cj.Ignores →
        (0 : Byte) ∉ ssid → 1 ≤ ssid.length → ssid.length ≤ 32 → ValidUtf8 ssid →
        Passphrase password → RoundTrips cj br (wifiList [apNamed ssid]) 0 ssid password →
        joined cj br (oneAp ssid) 1 0 password (Buf.fill contentLen 0) [0] freshWorld
            [true, true, true] = some ⟨Buf.ofList 32 ssid, Buf.ofList 64 password⟩ := by
  have hcut : joined (oneApCJson longSsid (utf8 "secret77")) (oneApBrowser longSsid)
      (oneAp longSsid) 1 0 (utf8 "secret77") (Buf.fill contentLen 0) [0] freshWorld
      [true, true, true] =
        some ⟨Buf.ofList 32 (longSsid.take 31), Buf.ofList 64 (utf8 "secret77")⟩ := by
    decide +kernel
  have h0 : (0 : Byte) ∉ longSsid := by decide +kernel
  refine ⟨by decide +kernel, hcut, fun h => ?_⟩
  have hwhole := h _ _ _ _ (oneApCJson_ignores longSsid (utf8 "secret77")) h0 (by decide +kernel)
    (by decide +kernel) (by unfold ValidUtf8; decide +kernel) passphrase_secret77
    (oneAp_roundTrips h0 (by decide +kernel))
  rw [hcut] at hwhole
  exact absurd hwhole (by decide +kernel)

end Gateway.Portal
