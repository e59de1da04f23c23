import Mathlib.Data.List.TakeDrop
import Gateway.Portal.Body

/-!
# What a posted pair leaves behind

`nvs_write` returns nothing, and returns early when one of its calls fails;
`wifi_config_post_handler` answers `"success": true` and restarts in any case. After the restart
`nvs_read` loads the strings in flash over the compiled-in ones, and `wifi_init_sta` copies them.

* `Submits`: the text carries the two strings.
* **`success_stored_iff`**: a reported success is a stored success exactly if no call of
  `nvs_write` fails and the two strings fit `wifi_creds`. `success_not_stored`: the second
  `nvs_set_str` fails.
* `nextConfig`: the configuration the next boot gives the driver. **`no_residue`**: it depends on
  the posted pair only.
-/

namespace Gateway.Portal

open Gateway.Lib Gateway.Wifi

variable {cj : CJson} {text ssid password : List Byte}

/-- The text is a document with the members `ssid` and `password`, both strings. -/
def Submits (cj : CJson) (text ssid password : List Byte) : Prop :=
  ∃ root i j, cj.parse text = some root ∧ cj.getObjectItem root (utf8 "ssid") = some i ∧
    cj.getObjectItem root (utf8 "password") = some j ∧ i.valuestring = some ssid ∧
    j.valuestring = some password

theorem Submits.handleText_eq (h : Submits cj text ssid password) (w : World) :
    handleText cj text w =
      match nvsWrite { w with creds := .submitted ssid password } with
      | .ok _ w' => .ok (.accepted (cj.print acceptedJson)) w'
      | .error e w' => .error e w' := by
  obtain ⟨root, i, j, hroot, hi, hj, hs, hp⟩ := h
  exact (handleText_members hroot hi hj).trans (acceptCredentials_ok hs hp)

theorem valuestring_notMem {item : Json} {s : List Byte} (h : item.valuestring = some s) :
    (0 : Byte) ∉ s := by
  cases item with
  | str t =>
    cases h
    exact zero_notMem_cStr t
  | _ => exact absurd h (by simp [Json.valuestring])

/-- Submitted strings are C strings. -/
theorem Submits.notMem (h : Submits cj text ssid password) :
    (0 : Byte) ∉ ssid ∧ (0 : Byte) ∉ password := by
  obtain ⟨_, _, _, -, -, -, hs, hp⟩ := h
  exact ⟨valuestring_notMem hs, valuestring_notMem hp⟩

/-! ## A reported success -/

/-- **A reported success is a stored success**: success is only reported when `nvs_open`, both
`nvs_set_str` and `nvs_commit` succeeded, and then the next boot loads the pair; and if one of them
fails, the client gets an error reply. -/
structure SuccessStored (w : World) (ssid password : List Byte)
    (res : EStateM.Result Stop World Outcome) : Prop where
  stored : ∀ response w', res = .ok (.accepted response) w' →
    w.calls.take 4 = [true, true, true, true] ∧
    ∀ calls, ∃ w'', nvsRead (.boot w'.nvs (true :: true :: true :: calls)) = .ok () w'' ∧
      w''.creds.strings = (ssid, password)
  failed : false ∈ w.calls.take 4 →
    ∃ w', res = .ok .failed w' ∨ ∃ message, res = .ok (.badRequest message) w'

/-- A string that leaves room for the terminator is kept as it is. -/
theorem strings_submitted_eq_iff (hs : (0 : Byte) ∉ ssid) (hp : (0 : Byte) ∉ password) :
    (WifiCreds.submitted ssid password).strings = (ssid, password) ↔
      ssid.length ≤ 31 ∧ password.length ≤ 63 := by
  rw [WifiCreds.strings_submitted, cStr_of_notMem hs, cStr_of_notMem hp, Prod.mk.injEq,
    List.take_eq_self_iff, List.take_eq_self_iff]

/-- **When a reported success is a stored success.** For every submitted pair and every list of
outcomes: exactly if none of the four calls fails and, unless power is lost before the last of
them, the two strings have at most 31 and 63 bytes. -/
theorem success_stored_iff (h : Submits cj text ssid password) (w : World) :
    SuccessStored w ssid password (handleText cj text w) ↔
      false ∉ w.calls.take 4 ∧
        (4 ≤ w.calls.length → ssid.length ≤ 31 ∧ password.length ≤ 63) := by
  rw [h.handleText_eq w]
  by_cases hf : false ∈ w.calls.take 4
  · -- success is reported all the same
    obtain ⟨w', hw⟩ := nvsWrite_failed (w := { w with creds := .submitted ssid password }) hf
    rw [hw]
    refine ⟨fun hres => ?_, fun hres => absurd hf hres.1⟩
    obtain ⟨w'', h | ⟨message, h⟩⟩ := hres.failed hf
    · exact absurd h (by simp)
    · exact absurd h (by simp)
  · rcases nvsWrite_unfailed (w := { w with creds := .submitted ssid password }) hf with
      ⟨calls, hc⟩ | ⟨hlen, w', hw⟩
    · have hc' : w.calls = true :: true :: true :: true :: calls := hc
      have hlen : 4 ≤ w.calls.length := by
        rw [hc']
        exact Nat.le_add_left 4 calls.length
      have hboot := boot_strings (WifiCreds.fits_submitted ssid password) rfl rfl .compiledIn
      rw [nvsWrite_all hc]
      constructor
      · intro hres
        refine ⟨hf, fun _ => ?_⟩
        obtain ⟨w₁, h₁, hstr₁⟩ := (hres.stored _ _ rfl).2 []
        obtain ⟨w₂, h₂, hstr₂⟩ := hboot []
        cases h₁.symm.trans h₂
        exact (strings_submitted_eq_iff h.notMem.1 h.notMem.2).mp (hstr₂.symm.trans hstr₁)
      · rintro ⟨-, hfit⟩
        have hkept := (strings_submitted_eq_iff h.notMem.1 h.notMem.2).mpr (hfit hlen)
        refine ⟨fun response w' hres => ?_, fun hfalse => absurd hfalse hf⟩
        cases hres
        refine ⟨by rw [hc']; rfl, fun calls' => ?_⟩
        obtain ⟨w₂, h₂, hstr₂⟩ := hboot calls'
        exact ⟨w₂, h₂, hstr₂.trans hkept⟩
    · -- power is lost before the reply
      rw [hw]
      exact ⟨fun _ => ⟨hf, fun h4 => absurd h4 (Nat.not_le_of_lt hlen)⟩,
        fun _ => ⟨fun _ _ hres => absurd hres (by simp), fun hfalse => absurd hfalse hf⟩⟩

theorem submits_office : Submits twoBodies officeText (utf8 "office") (utf8 "other999") := by
  refine ⟨credentialsJson (utf8 "office") (utf8 "other999"), .str (utf8 "office"),
    .str (utf8 "other999"), ?_, rfl, rfl, ?_, ?_⟩
  · simp only [twoBodies]
    rw [if_neg (by decide +kernel), if_pos List.prefix_rfl]
  · exact congrArg some (cStr_of_notMem (by decide +kernel))
  · exact congrArg some (cStr_of_notMem (by decide +kernel))

theorem success_stored_iff_office :
    SuccessStored freshWorld (utf8 "office") (utf8 "other999")
      (handleText twoBodies officeText freshWorld) :=
  (success_stored_iff submits_office freshWorld).mpr (by decide +kernel)

/-- The second `nvs_set_str` fails. -/
def fullFlash : World := .boot ⟨none, none⟩ [true, true, false]

/-- The client is told of a success; the flash has the new SSID and no password. -/
theorem success_not_stored :
    (∃ w', handleText twoBodies officeText fullFlash =
        .ok (.accepted (twoBodies.print acceptedJson)) w') ∧
      nvsAfter (handleText twoBodies officeText fullFlash) = ⟨some (utf8 "office"), none⟩ ∧
      ¬ SuccessStored fullFlash (utf8 "office") (utf8 "other999")
        (handleText twoBodies officeText fullFlash) := by
  obtain ⟨w', hw⟩ := nvsWrite_failed
    (w := { fullFlash with creds := .submitted (utf8 "office") (utf8 "other999") }) (by decide)
  have hres : handleText twoBodies officeText fullFlash =
      .ok (.accepted (twoBodies.print acceptedJson)) w' := by
    rw [submits_office.handleText_eq fullFlash, hw]
  refine ⟨⟨w', hres⟩, by decide +kernel, fun h => ?_⟩
  exact absurd (h.stored _ _ hres).1 (by decide)

/-! ## The next boot -/

/-- The handler on the text, the restart, and the next boot up to the fields `wifi_init_sta` fills.
`defaults` is the initialiser of `wifi_creds` in that boot. -/
def nextConfig (cj : CJson) (text : List Byte) (w : World) (defaults : WifiCreds)
    (calls : List Bool) : Option StaConfig :=
  match handleText cj text w with
  | .ok (.accepted _) w' =>
    match nvsRead ⟨w'.nvs, calls, defaults, 32, 64⟩ with
    | .ok _ w'' => w''.creds.staConfig.toOption
    | .error _ _ => none
  | _ => none

/-- **The configuration is that of the posted pair.** -/
theorem nextConfig_eq (h : Submits cj text ssid password) {w : World} {calls : List Bool}
    (hc : w.calls = true :: true :: true :: true :: calls) (defaults : WifiCreds)
    (bootCalls : List Bool) :
    nextConfig cj text w defaults (true :: true :: true :: bootCalls) =
      some ⟨Buf.terminated 31 ssid, Buf.terminated 63 password⟩ := by
  obtain ⟨w', hread, hstr⟩ := boot_strings (WifiCreds.fits_submitted ssid password) rfl rfl
    defaults bootCalls
  unfold nextConfig
  rw [h.handleText_eq w, nvsWrite_all (w := { w with creds := .submitted ssid password }) hc]
  simp only [hread, WifiCreds.staConfig_submitted hstr]
  rfl

/-- What `nvs_write` stores of a submission ends inside the arrays. -/
theorem stored_fits (ssid password : List Byte) (nvs : Nvs) (calls : List Bool) :
    (∀ v, (stored nvs (.submitted ssid password) calls).wifiSsid = some v →
      nvs.wifiSsid = some v ∨ (v.length < 32 ∧ (0 : Byte) ∉ v)) ∧
    (∀ v, (stored nvs (.submitted ssid password) calls).wifiPassword = some v →
      nvs.wifiPassword = some v ∨ (v.length < 64 ∧ (0 : Byte) ∉ v)) := by
  have hfits := WifiCreds.fits_submitted ssid password
  unfold stored
  split
  · exact ⟨fun v hv => Or.inr (hfits.ssid v hv), fun v hv => Or.inr (hfits.password v hv)⟩
  · exact ⟨fun v hv => Or.inr (hfits.ssid v hv), fun v hv => Or.inl hv⟩
  · exact ⟨fun v hv => Or.inl hv, fun v hv => Or.inl hv⟩

/-- In a boot, `nvs_read` does not fault. -/
theorem nvsRead_boot (nvs : Nvs) (calls : List Bool) (defaults : WifiCreds) :
    ∃ w', nvsRead ⟨nvs, calls, defaults, 32, 64⟩ = .ok () w' ∨
      nvsRead ⟨nvs, calls, defaults, 32, 64⟩ = .error .powerLost w' := by
  cases hl : loaded ⟨nvs, calls, defaults, 32, 64⟩ with
  | some w' => exact ⟨w', Or.inl (nvsRead_ok (Nat.le_refl _) (Nat.le_refl _) hl)⟩
  | none =>
    obtain ⟨w', hw, -⟩ := nvsRead_lost (Nat.le_refl _) hl
    exact ⟨w', Or.inr hw⟩

/-- **No residue of earlier credentials.** Two devices are posted the same pair, whatever they held
before and whatever their next boot is compiled with: with all NVS calls succeeding, `wifi_init_sta`
fills the same two fields, each with a NUL inside it and zeros from there on. Whatever the calls
return, what `nvs_write` stores ends inside the arrays, and the next `nvs_read` stays in them. -/
theorem no_residue {text' : List Byte} (h : Submits cj text ssid password)
    (h' : Submits cj text' ssid password) :
    (∀ (w w' : World) (defaults defaults' : WifiCreds) (calls calls' boot boot' : List Bool),
      w.calls = true :: true :: true :: true :: calls →
      w'.calls = true :: true :: true :: true :: calls' →
      ∃ sta, nextConfig cj text w defaults (true :: true :: true :: boot) = some sta ∧
        nextConfig cj text' w' defaults' (true :: true :: true :: boot') = some sta ∧
        sta.ssid.ZeroPadded ∧ sta.password.ZeroPadded) ∧
    (∀ w : World,
      (∀ v, (nvsAfter (handleText cj text w)).wifiSsid = some v →
        w.nvs.wifiSsid = some v ∨ (v.length < 32 ∧ (0 : Byte) ∉ v)) ∧
      (∀ v, (nvsAfter (handleText cj text w)).wifiPassword = some v →
        w.nvs.wifiPassword = some v ∨ (v.length < 64 ∧ (0 : Byte) ∉ v)) ∧
      ∀ (calls : List Bool) (defaults : WifiCreds),
        ∃ w', nvsRead ⟨nvsAfter (handleText cj text w), calls, defaults, 32, 64⟩ = .ok () w' ∨
          nvsRead ⟨nvsAfter (handleText cj text w), calls, defaults, 32, 64⟩ =
            .error .powerLost w') := by
  refine ⟨fun w w' defaults defaults' calls calls' boot boot' hc hc' => ?_, fun w => ?_⟩
  · exact ⟨_, nextConfig_eq h hc defaults boot, nextConfig_eq h' hc' defaults' boot',
      Buf.zeroPadded_terminated 31 ssid, Buf.zeroPadded_terminated 63 password⟩
  · have hnvs : nvsAfter (handleText cj text w) =
        stored w.nvs (.submitted ssid password) w.calls := by
      obtain ⟨w', hres, hn, -⟩ := nvsWrite_ok { w with creds := .submitted ssid password }
      rw [h.handleText_eq w]
      rcases hres with hres | hres
      · rw [hres]
        exact hn
      · rw [hres]
        exact hn
    rw [hnvs]
    have hfits := stored_fits ssid password w.nvs w.calls
    exact ⟨hfits.1, hfits.2, fun calls defaults => nvsRead_boot _ calls defaults⟩

/-- Credentials longer than the arrays, left by an earlier boot. -/
def longCreds : WifiCreds := ⟨Buf.fill 32 0x41, Buf.fill 64 0x42⟩

theorem no_residue_office :
    ∃ sta, nextConfig twoBodies officeText freshWorld .compiledIn [true, true, true] = some sta ∧
      nextConfig twoBodies officeText { freshWorld with creds := longCreds } longCreds
        [true, true, true] = some sta ∧ sta.ssid.ZeroPadded ∧ sta.password.ZeroPadded :=
  (no_residue submits_office submits_office).1 freshWorld { freshWorld with creds := longCreds }
    .compiledIn longCreds [] [] [] [] rfl rfl

end Gateway.Portal
