import Gateway.Wifi.Nvs
import Gateway.Lib.System

/-!
# Stored credentials over reboots and power losses

A device boots (`nvs_read` into a fresh `wifi_creds`), takes a submission (`nvs_write`, then
`esp_restart`), and may lose power at any moment, also between two NVS calls. What the NVS calls
return is part of each operation.

`nvs_write` stores the two strings one after the other and `nvs_read` loads them one after the
other, each with its own result, so the pair can come apart in two ways only:

* `torn`: the last write that stored its SSID did not store its password.
* `lostOne`: the last `nvs_read` failed to read exactly one of the two keys.

**`loaded_pair`**: in every run, each string `nvs_read` leaves is the compiled-in one or one that
was submitted, and unless the run is torn or has lost one they belong together. `torn_pair` is the
run that combines two submissions.
-/

namespace Gateway.Wifi

open Gateway.Lib

/-! ## The device -/

/-- The flash and the globals, and whether the device runs (past `nvs_read`). -/
structure Device where
  world : World
  running : Bool

/-- Off, with nothing stored. -/
def Device.fresh : Device := ⟨.boot ⟨none, none⟩ [], false⟩

inductive DevOp where
  | boot (calls : List Bool)
  | post (ssid password : List Byte) (calls : List Bool)
  | powerLoss

def devStep (d : Device) : DevOp → Option Device
  | .boot calls =>
    if d.running then none
    else
      match nvsRead (.boot d.world.nvs calls) with
      | .ok _ w => some ⟨w, true⟩
      | .error .powerLost w => some ⟨w, false⟩
      | .error (.fault _) _ => none
  | .post ssid password calls =>
    if d.running then
      match d.world.creds.submit ssid password with
      | .error _ => none
      | .ok creds =>
        match nvsWrite { d.world with creds := creds, calls := calls } with
        -- `esp_restart`, or power is lost
        | .ok _ w => some ⟨w, false⟩
        | .error .powerLost w => some ⟨w, false⟩
        | .error (.fault _) _ => none
    else none
  | .powerLoss => some ⟨d.world, false⟩

/-- The pairs submitted, as `wifi_creds` holds them. -/
def submissions : List DevOp → List (List Byte × List Byte)
  | [] => []
  | .post ssid password _ :: ops => (WifiCreds.submitted ssid password).strings :: submissions ops
  | _ :: ops => submissions ops

/-- Whether the last write that stored its SSID did not store its password, given whether that was
so before. -/
def tornAfter (torn : Bool) : DevOp → Bool
  | .post _ _ (true :: true :: true :: _) => false
  | .post _ _ (true :: true :: _) => true
  | _ => torn

def torn (ops : List DevOp) : Bool := ops.foldl tornAfter false

/-- Whether the last `nvs_read` failed to read exactly one of the keys. -/
def lostOneAfter (lost : Bool) : DevOp → Bool
  | .boot (true :: b₁ :: b₂ :: _) => b₁ != b₂
  | .boot _ => false
  | _ => lost

def lostOne (ops : List DevOp) : Bool := ops.foldl lostOneAfter false

/-! ## One operation -/

variable {d d' : Device}

/-- **A boot** leaves the flash as it was, and runs with what `nvs_read` loads. -/
theorem devStep_boot {calls : List Bool} (h : devStep d (.boot calls) = some d') :
    d'.world.nvs = d.world.nvs ∧
      (d'.running = true → loaded (.boot d.world.nvs calls) = some d'.world) := by
  simp only [devStep] at h
  split at h
  · exact absurd h (by simp)
  · cases hl : loaded (.boot d.world.nvs calls) with
    | some w =>
      rw [nvsRead_ok (Nat.le_refl _) (Nat.le_refl _) hl] at h
      cases h
      exact ⟨(loaded_nvs hl).trans rfl, fun _ => rfl⟩
    | none =>
      obtain ⟨w, hr, hn⟩ := nvsRead_lost (Nat.le_refl _) hl
      rw [hr] at h
      cases h
      exact ⟨hn, fun hc => absurd hc (by simp)⟩

/-- **A submission** leaves in flash what `nvs_write` stores, and the device off. -/
theorem devStep_post {ssid password : List Byte} {calls : List Bool}
    (h : devStep d (.post ssid password calls) = some d') :
    d'.world.nvs = stored d.world.nvs (.submitted ssid password) calls ∧ d'.running = false := by
  simp only [devStep] at h
  split at h
  · rw [WifiCreds.submit_ok] at h
    simp only at h
    obtain ⟨w, hr, hn, -⟩ := nvsWrite_ok
      { d.world with creds := .submitted ssid password, calls := calls }
    rcases hr with hr | hr
    · rw [hr] at h
      cases h
      exact ⟨hn, rfl⟩
    · rw [hr] at h
      cases h
      exact ⟨hn, rfl⟩
  · exact absurd h (by simp)

/-! ## The invariant -/

/-- **What the flash holds** after the operations `done`. -/
structure Kept (done : List DevOp) (f : Nvs) : Prop where
  ssid : ∀ v, f.wifiSsid = some v → ∃ sub ∈ submissions done, v = sub.1
  password : ∀ v, f.wifiPassword = some v → ∃ sub ∈ submissions done, v = sub.2
  paired : torn done = false →
    f = ⟨none, none⟩ ∨ ∃ sub ∈ submissions done, f = ⟨some sub.1, some sub.2⟩

/-- **What a running device holds** after the operations `done`. -/
structure Held (done : List DevOp) (d : Device) : Prop where
  kept : Kept done d.world.nvs
  ssid : d.running = true → d.world.creds.strings.1 = WifiCreds.compiledIn.strings.1 ∨
    d.world.nvs.wifiSsid = some d.world.creds.strings.1
  password : d.running = true → d.world.creds.strings.2 = WifiCreds.compiledIn.strings.2 ∨
    d.world.nvs.wifiPassword = some d.world.creds.strings.2
  paired : d.running = true → lostOne done = false →
    d.world.creds.strings = WifiCreds.compiledIn.strings ∨ d.world.creds.strings =
      (d.world.nvs.wifiSsid.getD WifiCreds.compiledIn.strings.1,
        d.world.nvs.wifiPassword.getD WifiCreds.compiledIn.strings.2)

variable {done : List DevOp} {f : Nvs}

theorem submissions_append (ops ops' : List DevOp) :
    submissions (ops ++ ops') = submissions ops ++ submissions ops' := by
  induction ops with
  | nil => rfl
  | cons op ops ih =>
    cases op with
    | post ssid password calls =>
      rw [List.cons_append, submissions, submissions, ih, List.cons_append]
    | boot calls => exact ih
    | powerLoss => exact ih

theorem mem_submissions {sub : List Byte × List Byte} (op : DevOp) (h : sub ∈ submissions done) :
    sub ∈ submissions (done ++ [op]) := by
  rw [submissions_append]
  exact List.mem_append_left _ h

theorem submissions_fits (ops : List DevOp) {sub : List Byte × List Byte}
    (h : sub ∈ submissions ops) : (sub.1.length < 32 ∧ (0 : Byte) ∉ sub.1) ∧
      (sub.2.length < 64 ∧ (0 : Byte) ∉ sub.2) := by
  induction ops with
  | nil => exact absurd h (by simp [submissions])
  | cons op ops ih =>
    cases op with
    | post ssid password calls =>
      rcases List.mem_cons.mp h with rfl | h'
      · have hfits := WifiCreds.fits_submitted ssid password
        exact ⟨hfits.ssid _ rfl, hfits.password _ rfl⟩
      · exact ih h'
    | boot calls => exact ih h
    | powerLoss => exact ih h

theorem torn_append (op : DevOp) : torn (done ++ [op]) = tornAfter (torn done) op := by
  unfold torn
  rw [List.foldl_append]
  rfl

theorem lostOne_append (op : DevOp) :
    lostOne (done ++ [op]) = lostOneAfter (lostOne done) op := by
  unfold lostOne
  rw [List.foldl_append]
  rfl

theorem Kept.fits (h : Kept done f) : f.Fits where
  ssid v hv := by
    obtain ⟨sub, hs, rfl⟩ := h.ssid v hv
    exact (submissions_fits done hs).1
  password v hv := by
    obtain ⟨sub, hs, rfl⟩ := h.password v hv
    exact (submissions_fits done hs).2

/-- An operation that leaves the flash alone. -/
theorem Kept.frame (h : Kept done f) {op : DevOp} (ht : tornAfter (torn done) op = torn done) :
    Kept (done ++ [op]) f where
  ssid v hv := by
    obtain ⟨sub, hs, hv'⟩ := h.ssid v hv
    exact ⟨sub, mem_submissions op hs, hv'⟩
  password v hv := by
    obtain ⟨sub, hs, hv'⟩ := h.password v hv
    exact ⟨sub, mem_submissions op hs, hv'⟩
  paired htorn := by
    rw [torn_append, ht] at htorn
    rcases h.paired htorn with hn | ⟨sub, hs, hf⟩
    · exact Or.inl hn
    · exact Or.inr ⟨sub, mem_submissions op hs, hf⟩

/-- **A write**: both strings, the SSID alone, or nothing. -/
theorem Kept.write (h : Kept done f) (ssid password : List Byte) (calls : List Bool) :
    Kept (done ++ [.post ssid password calls]) (stored f (.submitted ssid password) calls) := by
  have hnew : (WifiCreds.submitted ssid password).strings ∈
      submissions (done ++ [.post ssid password calls]) := by
    rw [submissions_append]
    exact List.mem_append_right _ List.mem_cons_self
  have half (ht : torn (done ++ [.post ssid password calls]) = true) :
      Kept (done ++ [.post ssid password calls])
        { f with wifiSsid := some (WifiCreds.submitted ssid password).strings.1 } := by
    refine ⟨fun v hv => ⟨_, hnew, (Option.some.inj hv).symm⟩, fun v hv => ?_, fun ht' => ?_⟩
    · obtain ⟨sub, hs, hv'⟩ := h.password v hv
      exact ⟨sub, mem_submissions _ hs, hv'⟩
    · rw [ht] at ht'
      exact absurd ht' (by simp)
  match calls with
  | true :: true :: true :: _ =>
    exact ⟨fun v hv => ⟨_, hnew, (Option.some.inj hv).symm⟩,
      fun v hv => ⟨_, hnew, (Option.some.inj hv).symm⟩, fun _ => Or.inr ⟨_, hnew, rfl⟩⟩
  | [true, true] => exact half (torn_append _)
  | true :: true :: false :: _ => exact half (torn_append _)
  | [] => exact h.frame rfl
  | [true] => exact h.frame rfl
  | false :: _ => exact h.frame rfl
  | true :: false :: _ => exact h.frame rfl

/-- **A boot** keeps what the flash holds, and loads it. -/
theorem Held.boot {d d' : Device} (h : Held done d) {calls : List Bool}
    (hs : devStep d (.boot calls) = some d') : Held (done ++ [.boot calls]) d' := by
  obtain ⟨hnvs, hload⟩ := devStep_boot hs
  have hkept : Kept (done ++ [.boot calls]) d'.world.nvs := by
    rw [hnvs]
    exact h.kept.frame rfl
  have hstr (hon : d'.running = true) := strings_loaded h.kept.fits (hload hon)
  rw [← hnvs] at hstr
  refine ⟨hkept, fun hon => ?_, fun hon => ?_, fun hon hlost => ?_⟩
  · rcases hstr hon with ⟨rest, rfl, hc⟩ | ⟨b₁, b₂, rest, rfl, hc⟩
    · exact Or.inl (congrArg Prod.fst hc)
    · rw [hc]
      cases b₁ with
      | false => exact Or.inl rfl
      | true => cases d'.world.nvs.wifiSsid with
        | none => exact Or.inl rfl
        | some v => exact Or.inr rfl
  · rcases hstr hon with ⟨rest, rfl, hc⟩ | ⟨b₁, b₂, rest, rfl, hc⟩
    · exact Or.inl (congrArg Prod.snd hc)
    · rw [hc]
      cases b₂ with
      | false => exact Or.inl rfl
      | true => cases d'.world.nvs.wifiPassword with
        | none => exact Or.inl rfl
        | some v => exact Or.inr rfl
  · rcases hstr hon with ⟨rest, rfl, hc⟩ | ⟨b₁, b₂, rest, rfl, hc⟩
    · exact Or.inl hc
    · -- both keys were read, or neither
      rw [lostOne_append] at hlost
      have hb : b₁ = b₂ := by simpa [lostOneAfter] using hlost
      subst hb
      cases b₁ with
      | false => exact Or.inl hc
      | true => exact Or.inr hc

/-- **The step lemma.** -/
theorem held_step (done : List DevOp) (d : Device) (op : DevOp) (d' : Device) (h : Held done d)
    (hs : devStep d op = some d') : Held (done ++ [op]) d' := by
  cases op with
  | boot calls => exact h.boot hs
  | post ssid password calls =>
    obtain ⟨hnvs, hoff⟩ := devStep_post hs
    have hkept := h.kept.write ssid password calls
    rw [← hnvs] at hkept
    exact ⟨hkept, fun hon => absurd (hoff.symm.trans hon) (by simp),
      fun hon => absurd (hoff.symm.trans hon) (by simp),
      fun hon => absurd (hoff.symm.trans hon) (by simp)⟩
  | powerLoss =>
    cases hs
    exact ⟨h.kept.frame rfl, fun hon => absurd hon (by simp), fun hon => absurd hon (by simp),
      fun hon => absurd hon (by simp)⟩

theorem held_fresh : Held [] .fresh :=
  ⟨⟨fun _ hv => absurd hv (by simp [Device.fresh, World.boot]),
    fun _ hv => absurd hv (by simp [Device.fresh, World.boot]), fun _ => Or.inl rfl⟩,
    fun hon => absurd hon (by simp [Device.fresh]), fun hon => absurd hon (by simp [Device.fresh]),
    fun hon => absurd hon (by simp [Device.fresh])⟩

/-- **The run lemma.** -/
theorem held_run {ops : List DevOp} {d : Device} (hr : runActs devStep .fresh ops = some d) :
    Held ops d :=
  run_invariant held_fresh held_step hr

/-! ## The pair -/

/-- **The pair a boot loads.** After any run, each of the two strings in `wifi_creds` is the
compiled-in one or one that was submitted. They are the compiled-in pair or a pair submitted
together, unless the last write that stored its SSID did not store its password, or the last
`nvs_read` failed to read exactly one of the two. -/
theorem loaded_pair {ops : List DevOp} {d : Device}
    (hr : runActs devStep .fresh ops = some d) (hon : d.running = true) :
    (d.world.creds.strings.1 = WifiCreds.compiledIn.strings.1 ∨
      ∃ sub ∈ submissions ops, d.world.creds.strings.1 = sub.1) ∧
    (d.world.creds.strings.2 = WifiCreds.compiledIn.strings.2 ∨
      ∃ sub ∈ submissions ops, d.world.creds.strings.2 = sub.2) ∧
    (torn ops = false → lostOne ops = false →
      d.world.creds.strings = WifiCreds.compiledIn.strings ∨
        d.world.creds.strings ∈ submissions ops) := by
  have h := held_run hr
  refine ⟨(h.ssid hon).imp id (h.kept.ssid _), (h.password hon).imp id (h.kept.password _),
    fun ht hl => ?_⟩
  rcases h.paired hon hl with hc | hc
  · exact Or.inl hc
  · rcases h.kept.paired ht with hn | ⟨sub, hs, hn⟩
    · rw [hn] at hc
      exact Or.inl hc
    · rw [hn] at hc
      exact Or.inr (hc ▸ hs)

/-- A submission and a reboot in which every call succeeds. -/
def submitAndReboot : List DevOp :=
  [.boot [true, true, true], .post (utf8 "home") (utf8 "secret77") [true, true, true, true],
    .boot [true, true, true]]

theorem loaded_pair_home : ∃ d, runActs devStep .fresh submitAndReboot = some d ∧
    (d.world.creds.strings = WifiCreds.compiledIn.strings ∨
      d.world.creds.strings ∈ submissions submitAndReboot) := by
  have hrun : (runActs devStep .fresh submitAndReboot).isSome = true ∧
      (runActs devStep .fresh submitAndReboot).any (·.running) = true := by decide +kernel
  obtain ⟨d, hd⟩ := Option.isSome_iff_exists.mp hrun.1
  have hon : d.running = true := by
    have := hrun.2
    rwa [hd] at this
  exact ⟨d, hd, (loaded_pair hd hon).2.2 (by decide) (by decide)⟩

/-- Power is lost between the two `nvs_set_str` of the second submission. -/
def tornRun : List DevOp :=
  [.boot [true, true, true], .post (utf8 "home") (utf8 "secret77") [true, true, true, true],
    .boot [true, true, true], .post (utf8 "office") (utf8 "other999") [true, true],
    .boot [true, true, true]]

/-- The second boot fails to read the password. -/
def lostOneRun : List DevOp :=
  [.boot [true, true, true], .post (utf8 "home") (utf8 "secret77") [true, true, true, true],
    .boot [true, true, false]]

/-- The SSID of one submission with the password of another, or with the compiled-in one. -/
theorem torn_pair :
    ((runActs devStep .fresh tornRun).map fun d => (d.running, d.world.creds.strings)) =
        some (true, utf8 "office", utf8 "secret77") ∧
      ((runActs devStep .fresh lostOneRun).map fun d => (d.running, d.world.creds.strings)) =
        some (true, utf8 "home", utf8 "wifipassword") ∧
      ¬ ∀ ops d, runActs devStep .fresh ops = some d → d.running = true →
        d.world.creds.strings = WifiCreds.compiledIn.strings ∨
          d.world.creds.strings ∈ submissions ops := by
  have hrun : ((runActs devStep .fresh tornRun).map fun d => (d.running, d.world.creds.strings)) =
      some (true, utf8 "office", utf8 "secret77") := by decide +kernel
  refine ⟨hrun, by decide +kernel, fun h => ?_⟩
  obtain ⟨d, hd, hc⟩ := Option.map_eq_some_iff.mp hrun
  have hpair := h tornRun d hd (congrArg Prod.fst hc)
  rw [show d.world.creds.strings = _ from congrArg Prod.snd hc] at hpair
  exact absurd hpair (by decide +kernel)

end Gateway.Wifi
