import Gateway.Lib.CStr

/-!
# Credentials in RAM and in flash: `wifi_creds`, `nvs_read`, `nvs_write`

Model of `components/WiFi/WiFi.c:31-96`, with the lines of `wifi_config_post_handler` and
`wifi_init_sta` that copy credentials (`main.c:112-119`, `WiFi.c:197-212`).

NVS is not under the repository. Its calls follow the documented behaviour: each one succeeds or
fails, a failed call changes nothing, a successful `nvs_set_str` makes its key durable at once,
and `nvs_get_str` takes the size of the array in `*length` and leaves the stored size there. What
the calls to come do is a list of outcomes in the state; power is lost before the call that finds
the list empty.

* `staConfig_ok`: what the driver is given.
* `loaded`, `stored`: what `nvs_read` leaves in `wifi_creds` and what `nvs_write` leaves in flash,
  without the calls. **`nvsRead_ok`** and **`nvsWrite_ok`** are the refinements; neither function
  faults.
* `strings_loaded`: the strings after a boot.
-/

namespace Gateway.Wifi

open Gateway.Lib

/-! ## `wifi_creds` -/

structure WifiCreds where
  ssid : Buf 32
  password : Buf 64

namespace WifiCreds

/-- The initialiser of `wifi_creds`. -/
def compiledIn : WifiCreds := ⟨Buf.ofList 32 (utf8 "wifissid"), Buf.ofList 64 (utf8 "wifipassword")⟩

/-- The two strings. -/
def strings (c : WifiCreds) : List Byte × List Byte := (cStr c.ssid.bytes, cStr c.password.bytes)

/-- `wifi_config_post_handler` copies the SSID (`main.c:114-115`). -/
def copySsid (c : WifiCreds) (ssid : List Byte) : Except Fault WifiCreds := do
  let ssid ← c.ssid.copyString ssid
  return { c with ssid := ssid }

/-- It copies the password (`main.c:118-119`). -/
def copyPassword (c : WifiCreds) (password : List Byte) : Except Fault WifiCreds := do
  let password ← c.password.copyString password
  return { c with password := password }

/-- The two copies. -/
def submit (c : WifiCreds) (ssid password : List Byte) : Except Fault WifiCreds := do
  let c ← c.copySsid ssid
  c.copyPassword password

/-- `wifi_creds` after a submission. -/
def submitted (ssid password : List Byte) : WifiCreds :=
  ⟨Buf.terminated 31 ssid, Buf.terminated 63 password⟩

theorem copySsid_ok (c : WifiCreds) (ssid : List Byte) :
    c.copySsid ssid = .ok { c with ssid := Buf.terminated 31 ssid } := by
  unfold copySsid
  rw [show c.ssid.copyString ssid = _ from Buf.copyString_ok c.ssid ssid]
  rfl

theorem copyPassword_ok (c : WifiCreds) (password : List Byte) :
    c.copyPassword password = .ok { c with password := Buf.terminated 63 password } := by
  unfold copyPassword
  rw [show c.password.copyString password = _ from Buf.copyString_ok c.password password]
  rfl

theorem submit_ok (c : WifiCreds) (ssid password : List Byte) :
    c.submit ssid password = .ok (submitted ssid password) := by
  unfold submit
  rw [copySsid_ok]
  exact copyPassword_ok _ password

theorem strings_submitted (ssid password : List Byte) :
    (submitted ssid password).strings = ((cStr ssid).take 31, (cStr password).take 63) := by
  unfold strings submitted
  rw [Buf.cStr_terminated, Buf.cStr_terminated]

end WifiCreds

/-- The fields of `wifi_config.sta` that hold the credentials. -/
structure StaConfig where
  ssid : Buf 32
  password : Buf 64
  deriving DecidableEq

/-- `wifi_init_sta` fills them (`WiFi.c:197-212`). -/
def WifiCreds.staConfig (c : WifiCreds) : Except Fault StaConfig := do
  let ssid := Buf.ofList 32 [byteAt c.ssid.bytes 0]
  let password := Buf.ofList 64 [byteAt c.password.bytes 0]
  let ssid ← ssid.copyString c.ssid.bytes
  let password ← password.copyString c.password.bytes
  return ⟨ssid, password⟩

/-- **What the driver is given**: the two strings, each cut to one byte less than its field. -/
theorem WifiCreds.staConfig_ok (c : WifiCreds) :
    c.staConfig = .ok ⟨Buf.terminated 31 c.ssid.bytes, Buf.terminated 63 c.password.bytes⟩ := by
  unfold staConfig
  simp only [show ∀ (b : Buf 32) src, b.copyString src = _ from Buf.copyString_ok,
    show ∀ (b : Buf 64) src, b.copyString src = _ from Buf.copyString_ok]
  rfl

/-- The driver is given a submission as it was, once `wifi_creds` holds its strings. -/
theorem WifiCreds.staConfig_submitted {c : WifiCreds} {ssid password : List Byte}
    (h : c.strings = (submitted ssid password).strings) :
    c.staConfig = .ok ⟨Buf.terminated 31 ssid, Buf.terminated 63 password⟩ := by
  rw [strings_submitted] at h
  rw [staConfig_ok]
  congr 2
  · refine Buf.terminated_congr ?_
    rw [show cStr c.ssid.bytes = _ from congrArg Prod.fst h, List.take_take, Nat.min_self]
  · refine Buf.terminated_congr ?_
    rw [show cStr c.password.bytes = _ from congrArg Prod.snd h, List.take_take, Nat.min_self]

/-! ## NVS -/

/-- The keys `wifi_ssid` and `wifi_password`. -/
inductive NvsKey where
  | wifiSsid
  | wifiPassword
  deriving DecidableEq, Repr

/-- The namespace `wifi_config`. -/
structure Nvs where
  wifiSsid : Option (List Byte)
  wifiPassword : Option (List Byte)
  deriving DecidableEq, Repr

def Nvs.get (f : Nvs) : NvsKey → Option (List Byte)
  | .wifiSsid => f.wifiSsid
  | .wifiPassword => f.wifiPassword

def Nvs.set (f : Nvs) (v : List Byte) : NvsKey → Nvs
  | .wifiSsid => { f with wifiSsid := some v }
  | .wifiPassword => { f with wifiPassword := some v }

/-- The error codes the calls end in. -/
inductive EspErr where
  | ok
  | nvsNotFound
  | nvsInvalidLength
  | fail
  deriving DecidableEq, Repr

/-- Why a function did not return. -/
inductive Stop where
  | powerLost
  | fault (f : Fault)
  deriving DecidableEq, Repr

/-- The flash, the outcomes of the NVS calls to come, and the globals of `WiFi.c`. -/
structure World where
  nvs : Nvs
  calls : List Bool
  creds : WifiCreds
  lenSsid : Nat
  lenPassword : Nat

abbrev NvsM := EStateM Stop World

/-- A call: it returns `failed`, or does what `succeeds` does. -/
def nvsCall {α : Type} (failed : α) (succeeds : World → EStateM.Result Stop World α) : NvsM α :=
  fun w =>
    match w.calls with
    | [] => .error .powerLost w
    | false :: calls => .ok failed { w with calls := calls }
    | true :: calls => succeeds { w with calls := calls }

def nvsOpen : NvsM EspErr := nvsCall .fail (.ok .ok)

def nvsCommit : NvsM EspErr := nvsCall .fail (.ok .ok)

def nvsSetStr (key : NvsKey) (value : List Byte) : NvsM EspErr :=
  nvsCall .fail fun w => .ok .ok { w with nvs := w.nvs.set value key }

/-- `nvs_get_str(handle, key, out, &length)`: also the array and `length` after it. -/
def nvsGetStr {n : Nat} (key : NvsKey) (out : Buf n) (length : Nat) :
    NvsM (EspErr × Buf n × Nat) :=
  nvsCall (.fail, out, length) fun w =>
    match w.nvs.get key with
    | none => .ok (.nvsNotFound, out, length) w
    | some value =>
      if length < value.length + 1 then .ok (.nvsInvalidLength, out, value.length + 1) w
      else
        match out.storeString value with
        | .error f => .error (.fault f) w
        | .ok out => .ok (.ok, out, value.length + 1) w

/-- `nvs_get_str(my_handle, "wifi_ssid", wifi_creds.ssid, &len_ssid)`. -/
def getSsid : NvsM EspErr := fun w =>
  match nvsGetStr .wifiSsid w.creds.ssid w.lenSsid w with
  | .error e w => .error e w
  | .ok (err, ssid, len) w =>
    .ok err { w with creds := { w.creds with ssid := ssid }, lenSsid := len }

/-- `nvs_get_str(my_handle, "wifi_password", wifi_creds.password, &len_password)`. -/
def getPassword : NvsM EspErr := fun w =>
  match nvsGetStr .wifiPassword w.creds.password w.lenPassword w with
  | .error e w => .error e w
  | .ok (err, password, len) w =>
    .ok err { w with creds := { w.creds with password := password }, lenPassword := len }

/-- `nvs_read`. The two `switch`es on the error only print. -/
def nvsRead : NvsM Unit := do
  if (← nvsOpen) ≠ .ok then return
  let _ ← getSsid
  let _ ← getPassword

/-- `nvs_write`. -/
def nvsWrite : NvsM Unit := do
  if (← nvsOpen) ≠ .ok then return
  let creds := (← get).creds
  if (← nvsSetStr .wifiSsid (cStr creds.ssid.bytes)) ≠ .ok then return
  if (← nvsSetStr .wifiPassword (cStr creds.password.bytes)) ≠ .ok then return
  if (← nvsCommit) ≠ .ok then return

/-! ## Without the calls -/

/-- One `nvs_get_str`: the array and `length` after it. -/
def readInto {n : Nat} (succeeds : Bool) (value : Option (List Byte)) (out : Buf n)
    (length : Nat) : Buf n × Nat :=
  match succeeds, value with
  | true, some v =>
    if length < v.length + 1 then (out, v.length + 1)
    else ((out.storeString v).toOption.getD out, v.length + 1)
  | _, _ => (out, length)

/-- The state after `nvs_read`; `none` when power was lost in it. -/
def loaded (w : World) : Option World :=
  match w.calls with
  | false :: calls => some { w with calls := calls }
  | true :: b₁ :: b₂ :: calls =>
    let s := readInto b₁ w.nvs.wifiSsid w.creds.ssid w.lenSsid
    let p := readInto b₂ w.nvs.wifiPassword w.creds.password w.lenPassword
    some ⟨w.nvs, calls, ⟨s.1, p.1⟩, s.2, p.2⟩
  | _ => none

/-- The flash after `nvs_write`, or after power was lost in it. -/
def stored (nvs : Nvs) (creds : WifiCreds) : List Bool → Nvs
  | true :: true :: true :: _ => ⟨some creds.strings.1, some creds.strings.2⟩
  | true :: true :: _ => { nvs with wifiSsid := some creds.strings.1 }
  | _ => nvs

variable {w : World}

theorem nvsGetStr_ok {n : Nat} (key : NvsKey) (out : Buf n) {length : Nat} (hlen : length ≤ n)
    {b : Bool} {calls : List Bool} (hc : w.calls = b :: calls) :
    ∃ err, nvsGetStr key out length w =
      .ok (err, readInto b (w.nvs.get key) out length) { w with calls := calls } := by
  unfold nvsGetStr nvsCall
  rw [hc]
  cases b with
  | false => exact ⟨.fail, rfl⟩
  | true =>
    simp only
    cases w.nvs.get key with
    | none => exact ⟨.nvsNotFound, rfl⟩
    | some v =>
      simp only [readInto]
      by_cases hlt : length < v.length + 1
      · rw [if_pos hlt, if_pos hlt]
        exact ⟨.nvsInvalidLength, rfl⟩
      · rw [if_neg hlt, if_neg hlt]
        obtain ⟨c, hs, -⟩ := out.store_ok 0 (v ++ [0])
          (by rw [List.length_append, List.length_singleton]; omega)
        rw [show out.storeString v = .ok c from hs]
        exact ⟨.ok, rfl⟩

theorem getSsid_ok (hs : w.lenSsid ≤ 32) {b : Bool} {calls : List Bool}
    (hc : w.calls = b :: calls) :
    ∃ err, getSsid w = .ok err { w with
      calls := calls
      creds := { w.creds with ssid := (readInto b w.nvs.wifiSsid w.creds.ssid w.lenSsid).1 }
      lenSsid := (readInto b w.nvs.wifiSsid w.creds.ssid w.lenSsid).2 } := by
  obtain ⟨err, h⟩ := nvsGetStr_ok .wifiSsid w.creds.ssid hs hc
  refine ⟨err, ?_⟩
  unfold getSsid
  rw [h]
  rfl

theorem getPassword_ok (hp : w.lenPassword ≤ 64) {b : Bool} {calls : List Bool}
    (hc : w.calls = b :: calls) :
    ∃ err, getPassword w = .ok err { w with
      calls := calls
      creds := { w.creds with
        password := (readInto b w.nvs.wifiPassword w.creds.password w.lenPassword).1 }
      lenPassword := (readInto b w.nvs.wifiPassword w.creds.password w.lenPassword).2 } := by
  obtain ⟨err, h⟩ := nvsGetStr_ok .wifiPassword w.creds.password hp hc
  refine ⟨err, ?_⟩
  unfold getPassword
  rw [h]
  rfl

/-- **`nvs_read` computes `loaded`**, and stays inside the arrays. -/
theorem nvsRead_ok {w' : World} (hs : w.lenSsid ≤ 32) (hp : w.lenPassword ≤ 64)
    (h : loaded w = some w') : nvsRead w = .ok () w' := by
  obtain ⟨nvs, calls, creds, lenSsid, lenPassword⟩ := w
  match calls, h with
  | false :: calls, h =>
    cases h
    rfl
  | true :: b₁ :: b₂ :: calls, h =>
    cases h
    let w₁ : World := ⟨nvs, b₁ :: b₂ :: calls, creds, lenSsid, lenPassword⟩
    obtain ⟨e₁, h₁⟩ := getSsid_ok (w := w₁) hs rfl
    let r := readInto b₁ nvs.wifiSsid creds.ssid lenSsid
    let w₂ : World := ⟨nvs, b₂ :: calls, ⟨r.1, creds.password⟩, r.2, lenPassword⟩
    obtain ⟨e₂, h₂⟩ := getPassword_ok (w := w₂) hp rfl
    simp only [nvsRead, nvsOpen, nvsCall, bind, EStateM.bind, ne_eq, not_true_eq_false, if_false]
    rw [show getSsid _ = _ from h₁]
    simp only
    rw [show getPassword _ = _ from h₂]
    rfl

/-- Power lost in `nvs_read` leaves the flash as it was. -/
theorem nvsRead_lost (hs : w.lenSsid ≤ 32) (h : loaded w = none) :
    ∃ w', nvsRead w = .error .powerLost w' ∧ w'.nvs = w.nvs := by
  obtain ⟨nvs, calls, creds, lenSsid, lenPassword⟩ := w
  match calls, h with
  | [], _ => exact ⟨_, rfl, rfl⟩
  | [true], _ => exact ⟨_, rfl, rfl⟩
  | [true, b₁], _ =>
    let w₁ : World := ⟨nvs, [b₁], creds, lenSsid, lenPassword⟩
    obtain ⟨e₁, h₁⟩ := getSsid_ok (w := w₁) hs rfl
    simp only [nvsRead, nvsOpen, nvsCall, bind, EStateM.bind, ne_eq, not_true_eq_false, if_false]
    rw [show getSsid _ = _ from h₁]
    exact ⟨_, rfl, rfl⟩
  | false :: _, h => exact absurd h (by simp [loaded])
  | true :: _ :: _ :: _, h => exact absurd h (by simp [loaded])

/-- **`nvs_write` computes `stored`**, whether or not it returns, and leaves `wifi_creds`. -/
theorem nvsWrite_ok (w : World) : ∃ w', (nvsWrite w = .ok () w' ∨
    nvsWrite w = .error .powerLost w') ∧ w'.nvs = stored w.nvs w.creds w.calls ∧
      w'.creds = w.creds := by
  obtain ⟨nvs, calls, creds, lenSsid, lenPassword⟩ := w
  match calls with
  | [] => exact ⟨_, Or.inr rfl, rfl, rfl⟩
  | false :: _ => exact ⟨_, Or.inl rfl, rfl, rfl⟩
  | [true] => exact ⟨_, Or.inr rfl, rfl, rfl⟩
  | true :: false :: _ => exact ⟨_, Or.inl rfl, rfl, rfl⟩
  | [true, true] => exact ⟨_, Or.inr rfl, rfl, rfl⟩
  | true :: true :: false :: _ => exact ⟨_, Or.inl rfl, rfl, rfl⟩
  | [true, true, true] => exact ⟨_, Or.inr rfl, rfl, rfl⟩
  | true :: true :: true :: false :: _ => exact ⟨_, Or.inl rfl, rfl, rfl⟩
  | true :: true :: true :: true :: _ => exact ⟨_, Or.inl rfl, rfl, rfl⟩

/-! ## A boot -/

/-- Every call of `nvs_write` succeeds. -/
theorem nvsWrite_all {calls : List Bool} (hc : w.calls = true :: true :: true :: true :: calls) :
    nvsWrite w = .ok () { w with
      nvs := ⟨some w.creds.strings.1, some w.creds.strings.2⟩, calls := calls } := by
  obtain ⟨nvs, _, creds, lenSsid, lenPassword⟩ := w
  cases hc
  rfl

/-- `nvs_write` returns after a failed call as it does after a success. -/
theorem nvsWrite_failed (h : false ∈ w.calls.take 4) : ∃ w', nvsWrite w = .ok () w' := by
  obtain ⟨nvs, calls, creds, lenSsid, lenPassword⟩ := w
  match calls, h with
  | false :: _, _ => exact ⟨_, rfl⟩
  | true :: false :: _, _ => exact ⟨_, rfl⟩
  | true :: true :: false :: _, _ => exact ⟨_, rfl⟩
  | true :: true :: true :: false :: _, _ => exact ⟨_, rfl⟩

/-- Without a failed call, `nvs_write` makes all four of them, or loses power. -/
theorem nvsWrite_unfailed (h : false ∉ w.calls.take 4) :
    (∃ calls, w.calls = true :: true :: true :: true :: calls) ∨
      (w.calls.length < 4 ∧ ∃ w', nvsWrite w = .error .powerLost w') := by
  obtain ⟨nvs, calls, creds, lenSsid, lenPassword⟩ := w
  match calls, h with
  | [], _ => exact Or.inr ⟨by simp, _, rfl⟩
  | [true], _ => exact Or.inr ⟨by simp, _, rfl⟩
  | [true, true], _ => exact Or.inr ⟨by simp, _, rfl⟩
  | [true, true, true], _ => exact Or.inr ⟨by simp, _, rfl⟩
  | true :: true :: true :: true :: calls, _ => exact Or.inl ⟨calls, rfl⟩
  | false :: _, h => exact absurd h (by simp)
  | true :: false :: _, h => exact absurd h (by simp)
  | true :: true :: false :: _, h => exact absurd h (by simp)
  | true :: true :: true :: false :: _, h => exact absurd h (by simp)

/-- The globals as a boot finds them. -/
def World.boot (nvs : Nvs) (calls : List Bool) : World := ⟨nvs, calls, .compiledIn, 32, 64⟩

theorem loaded_nvs {w' : World} (h : loaded w = some w') : w'.nvs = w.nvs := by
  unfold loaded at h
  split at h
  · cases h
    rfl
  · cases h
    rfl
  · exact absurd h (by simp)

/-- Strings that `nvs_read` can load: they and their terminators fit the arrays. -/
structure Nvs.Fits (f : Nvs) : Prop where
  ssid : ∀ v, f.wifiSsid = some v → v.length < 32 ∧ (0 : Byte) ∉ v
  password : ∀ v, f.wifiPassword = some v → v.length < 64 ∧ (0 : Byte) ∉ v

/-- A submitted pair can be loaded. -/
theorem WifiCreds.fits_submitted (ssid password : List Byte) :
    Nvs.Fits ⟨some (submitted ssid password).strings.1,
      some (submitted ssid password).strings.2⟩ := by
  rw [strings_submitted]
  constructor
  · rintro _ ⟨⟩
    refine ⟨?_, fun h0 => zero_notMem_cStr _ (List.mem_of_mem_take h0)⟩
    rw [List.length_take]
    omega
  · rintro _ ⟨⟩
    refine ⟨?_, fun h0 => zero_notMem_cStr _ (List.mem_of_mem_take h0)⟩
    rw [List.length_take]
    omega

/-- **The string after a read**: the stored one, if it fits the length passed. -/
theorem cStr_readInto_some {n length : Nat} {v : List Byte} (h0 : (0 : Byte) ∉ v)
    (hlen : length ≤ n) (out : Buf n) :
    cStr (readInto true (some v) out length).1.bytes =
      if v.length < length then v else cStr out.bytes := by
  simp only [readInto]
  by_cases hlt : length < v.length + 1
  · rw [if_pos hlt, if_neg (by omega)]
  · obtain ⟨c, hs, hc⟩ := out.storeString_ok (show v.length < n by omega) h0
    rw [if_neg hlt, if_pos (by omega), hs]
    exact hc

theorem cStr_readInto {n : Nat} {value : Option (List Byte)}
    (hv : ∀ v, value = some v → v.length < n ∧ (0 : Byte) ∉ v) (b : Bool) (out : Buf n) :
    cStr (readInto b value out n).1.bytes =
      if b then value.getD (cStr out.bytes) else cStr out.bytes := by
  cases b with
  | false => cases value <;> rfl
  | true =>
    cases value with
    | none => rfl
    | some v =>
      obtain ⟨hlen, h0⟩ := hv v rfl
      rw [cStr_readInto_some h0 (Nat.le_refl n), if_pos hlen]
      rfl

/-- **The strings after a boot**: each key that is read and present replaces the compiled-in
string. -/
theorem strings_loaded {nvs : Nvs} {calls : List Bool} {w' : World} (hf : nvs.Fits)
    (h : loaded (.boot nvs calls) = some w') :
    (∃ rest, calls = false :: rest ∧ w'.creds.strings = WifiCreds.compiledIn.strings) ∨
      ∃ b₁ b₂ rest, calls = true :: b₁ :: b₂ :: rest ∧ w'.creds.strings =
        (if b₁ then nvs.wifiSsid.getD WifiCreds.compiledIn.strings.1
          else WifiCreds.compiledIn.strings.1,
         if b₂ then nvs.wifiPassword.getD WifiCreds.compiledIn.strings.2
          else WifiCreds.compiledIn.strings.2) := by
  match calls, h with
  | false :: rest, h =>
    cases h
    exact Or.inl ⟨rest, rfl, rfl⟩
  | true :: b₁ :: b₂ :: rest, h =>
    cases h
    exact Or.inr ⟨b₁, b₂, rest, rfl,
      Prod.ext (cStr_readInto hf.ssid b₁ _) (cStr_readInto hf.password b₂ _)⟩

/-- **What the next boot loads**, whatever `wifi_creds` starts with: the strings in flash. -/
theorem boot_strings {nvs : Nvs} (hf : nvs.Fits) {ssid password : List Byte}
    (hs : nvs.wifiSsid = some ssid) (hp : nvs.wifiPassword = some password) (defaults : WifiCreds)
    (calls : List Bool) :
    ∃ w', nvsRead ⟨nvs, true :: true :: true :: calls, defaults, 32, 64⟩ = .ok () w' ∧
      w'.creds.strings = (ssid, password) := by
  refine ⟨_, nvsRead_ok (Nat.le_refl _) (Nat.le_refl _) rfl, Prod.ext ?_ ?_⟩
  · refine (cStr_readInto hf.ssid true defaults.ssid).trans ?_
    rw [if_pos rfl, hs, Option.getD_some]
  · refine (cStr_readInto hf.password true defaults.password).trans ?_
    rw [if_pos rfl, hp, Option.getD_some]

end Gateway.Wifi
