import Gateway.Lib.System
import Gateway.Wifi.Nvs

/-!
# `len_ssid` and `len_password` across reads

`len_ssid` and `len_password` (`components/WiFi/WiFi.c:31-70`) start as the sizes of the arrays.
`nvs_get_str` takes the size of the array in `*length` and leaves the size of the stored string
there, and `nvs_read` passes the two globals as they are. So the sizes of one read bound the next.

* `CredOp`, `credStep`: assignments to `wifi_creds`, writes and reads within one boot, with no other
  failure than an insufficient length.
* `CredHist`: the pair written last, and the sizes of the strings a read has found last.
* `SizesInv`: the globals are these sizes. **`reads_iff`**: every read returns what was last written
  and passes no length beyond the arrays, exactly if every read meets `ReadCond`.
  `reads_other_lengths`: a longer string after a shorter one, and a stored string of 100 bytes.
-/

namespace Gateway.Wifi

open Gateway.Lib

/-! ## One boot -/

/-- An array with a string in it. -/
structure StringBuf (n : Nat) where
  buf : Buf n
  nul : (0 : Byte) ∈ buf.bytes

inductive CredOp where
  | setSsid (s : StringBuf 32)
  | setPassword (s : StringBuf 64)
  | write
  | read

/-- One step; `none` when it does not return. -/
def credStep (w : World) : CredOp → Option World
  | .setSsid s => some { w with creds := { w.creds with ssid := s.buf } }
  | .setPassword s => some { w with creds := { w.creds with password := s.buf } }
  | .write =>
    match nvsWrite { w with calls := [true, true, true, true] } with
    | .ok _ w' => some w'
    | .error _ _ => none
  | .read =>
    match nvsRead { w with calls := [true, true, true] } with
    | .ok _ w' => some w'
    | .error _ _ => none

/-- What happened so far. -/
structure CredHist where
  /-- The sizes, with the terminators, of the strings the last read has found under the keys, or of
  the arrays. -/
  sizes : Nat × Nat
  /-- The pair written last. -/
  written : Option (List Byte × List Byte)

/-- The size of a stored string with its terminator, or `before`. -/
def sizeFound (value : Option (List Byte)) (before : Nat) : Nat :=
  match value with
  | some v => v.length + 1
  | none => before

def credUpd (h : CredHist) (w : World) : CredOp → CredHist
  | .write => { h with written := some w.creds.strings }
  | .read =>
    { h with sizes := (sizeFound w.nvs.wifiSsid h.sizes.1, sizeFound w.nvs.wifiPassword h.sizes.2) }
  | _ => h

abbrev credStepH : World × CredHist → CredOp → Option (World × CredHist) :=
  withHist credStep credUpd

/-- A boot on any flash. -/
def credInit (nvs : Nvs) : World × CredHist := (.boot nvs [], ⟨(32, 64), none⟩)

/-- **A read does what is expected**: the lengths passed are none beyond the arrays, and after a
write it leaves the pair written last in `wifi_creds`. -/
def GoodRead (p : World × CredHist) : CredOp → Prop
  | .read => p.1.lenSsid ≤ 32 ∧ p.1.lenPassword ≤ 64 ∧
    ∀ pair, p.2.written = some pair →
      ∃ w', credStep p.1 .read = some w' ∧ w'.creds.strings = pair
  | _ => True

/-- **The condition on a read**: the strings found at the read before fitted the arrays, and after
a write each stored string is no longer than the one found there, or still in `wifi_creds`. -/
def ReadCond (p : World × CredHist) : CredOp → Prop
  | .read => p.2.sizes.1 ≤ 32 ∧ p.2.sizes.2 ≤ 64 ∧
    ∀ pair, p.2.written = some pair →
      (pair.1.length + 1 ≤ p.2.sizes.1 ∨ p.1.creds.strings.1 = pair.1) ∧
        (pair.2.length + 1 ≤ p.2.sizes.2 ∨ p.1.creds.strings.2 = pair.2)
  | _ => True

/-! ## What a read leaves in the lengths -/

variable {w w' : World} {p : World × CredHist}

/-- A call that returns leaves the stored size in the length. -/
theorem nvsGetStr_size {n length : Nat} {key : NvsKey} {out : Buf n} {r : EspErr × Buf n × Nat}
    {calls : List Bool} (hc : w.calls = true :: calls)
    (h : nvsGetStr key out length w = .ok r w') :
    r.2.2 = sizeFound (w.nvs.get key) length ∧ w' = { w with calls := calls } := by
  unfold nvsGetStr nvsCall at h
  rw [hc] at h
  simp only at h
  cases hv : w.nvs.get key with
  | none =>
    rw [hv] at h
    cases h
    exact ⟨rfl, rfl⟩
  | some v =>
    simp only [hv] at h
    split at h
    · cases h
      exact ⟨rfl, rfl⟩
    · split at h
      · exact absurd h (by simp)
      · cases h
        exact ⟨rfl, rfl⟩

theorem getSsid_sizes {calls : List Bool} {err : EspErr} (hc : w.calls = true :: calls)
    (h : getSsid w = .ok err w') : w'.nvs = w.nvs ∧ w'.calls = calls ∧
      w'.lenSsid = sizeFound w.nvs.wifiSsid w.lenSsid ∧ w'.lenPassword = w.lenPassword := by
  unfold getSsid at h
  split at h
  · exact absurd h (by simp)
  · rename_i hget
    obtain ⟨hlen, rfl⟩ := nvsGetStr_size hc hget
    cases h
    exact ⟨rfl, rfl, hlen, rfl⟩

theorem getPassword_sizes {calls : List Bool} {err : EspErr} (hc : w.calls = true :: calls)
    (h : getPassword w = .ok err w') : w'.nvs = w.nvs ∧ w'.lenSsid = w.lenSsid ∧
      w'.lenPassword = sizeFound w.nvs.wifiPassword w.lenPassword := by
  unfold getPassword at h
  split at h
  · exact absurd h (by simp)
  · rename_i hget
    obtain ⟨hlen, rfl⟩ := nvsGetStr_size hc hget
    cases h
    exact ⟨rfl, rfl, hlen⟩

/-- **A read that returns leaves the sizes of the stored strings in the globals**, whatever they
were. -/
theorem nvsRead_sizes (h : nvsRead { w with calls := [true, true, true] } = .ok () w') :
    w'.nvs = w.nvs ∧ w'.lenSsid = sizeFound w.nvs.wifiSsid w.lenSsid ∧
      w'.lenPassword = sizeFound w.nvs.wifiPassword w.lenPassword := by
  simp only [nvsRead, nvsOpen, nvsCall, bind, EStateM.bind, ne_eq, not_true_eq_false,
    if_false] at h
  split at h
  · rename_i err w₁ hs
    obtain ⟨hnvs₁, hcalls₁, hs₁, hp₁⟩ := getSsid_sizes rfl hs
    split at h
    · rename_i err' w₂ hp
      obtain ⟨hnvs₂, hs₂, hp₂⟩ := getPassword_sizes hcalls₁ hp
      cases h
      rw [hnvs₂, hs₂, hp₂, hnvs₁, hs₁, hp₁]
      exact ⟨rfl, rfl, rfl⟩
    · exact absurd h (by simp)
  · exact absurd h (by simp)

/-! ## The invariant -/

/-- **The invariant**: the globals are the sizes found, and what was written is in flash. -/
structure SizesInv (p : World × CredHist) : Prop where
  ssid : p.1.lenSsid = p.2.sizes.1
  password : p.1.lenPassword = p.2.sizes.2
  written : ∀ pair, p.2.written = some pair →
    p.1.nvs = ⟨some pair.1, some pair.2⟩ ∧ (0 : Byte) ∉ pair.1 ∧ (0 : Byte) ∉ pair.2

theorem sizesInv_init (nvs : Nvs) : SizesInv (credInit nvs) :=
  ⟨rfl, rfl, fun _ h => absurd h (by simp [credInit])⟩

theorem credStep_read (hs : w.lenSsid ≤ 32) (hp : w.lenPassword ≤ 64) :
    ∃ w', credStep w .read = some w' ∧
      w'.creds.ssid = (readInto true w.nvs.wifiSsid w.creds.ssid w.lenSsid).1 ∧
      w'.creds.password = (readInto true w.nvs.wifiPassword w.creds.password w.lenPassword).1 := by
  let s := readInto true w.nvs.wifiSsid w.creds.ssid w.lenSsid
  let q := readInto true w.nvs.wifiPassword w.creds.password w.lenPassword
  have h : nvsRead { w with calls := [true, true, true] } =
      .ok () ⟨w.nvs, [], ⟨s.1, q.1⟩, s.2, q.2⟩ := nvsRead_ok hs hp rfl
  refine ⟨⟨w.nvs, [], ⟨s.1, q.1⟩, s.2, q.2⟩, ?_, rfl, rfl⟩
  simp only [credStep]
  rw [h]

/-- **The step lemma.** -/
theorem sizesInv_step (p : World × CredHist) (a : CredOp) (p' : World × CredHist)
    (h : SizesInv p) (hs : credStepH p a = some p') : SizesInv p' := by
  obtain ⟨w, hist⟩ := p
  obtain ⟨w', hist'⟩ := p'
  obtain ⟨hstep, rfl⟩ := withHist_some hs
  cases a with
  | setSsid s =>
    cases hstep
    exact ⟨h.ssid, h.password, h.written⟩
  | setPassword s =>
    cases hstep
    exact ⟨h.ssid, h.password, h.written⟩
  | write =>
    have hwrite := nvsWrite_all (w := { w with calls := [true, true, true, true] }) rfl
    simp only [credStep] at hstep
    rw [hwrite] at hstep
    cases hstep
    refine ⟨h.ssid, h.password, fun pair hpair => ?_⟩
    cases hpair
    exact ⟨rfl, zero_notMem_cStr _, zero_notMem_cStr _⟩
  | read =>
    simp only [credStep] at hstep
    split at hstep
    · rename_i hread
      cases hstep
      obtain ⟨hnvs, hssid, hpassword⟩ := nvsRead_sizes hread
      refine ⟨?_, ?_, fun pair hpair => ?_⟩
      · rw [hssid, h.ssid]
        rfl
      · rw [hpassword, h.password]
        rfl
      · rw [hnvs]
        exact h.written pair hpair
    · exact absurd hstep (by simp)

/-- The string after a read is the stored one exactly if it fitted or was there. -/
theorem cStr_readInto_eq_iff {n length : Nat} {v : List Byte} (h0 : (0 : Byte) ∉ v)
    (hlen : length ≤ n) (out : Buf n) :
    cStr (readInto true (some v) out length).1.bytes = v ↔
      v.length + 1 ≤ length ∨ cStr out.bytes = v := by
  rw [cStr_readInto_some h0 hlen, ite_eq_left_iff, Nat.succ_le_iff, or_iff_not_imp_left]

/-- **A read does what is expected exactly under the condition.** -/
theorem goodRead_iff (p : World × CredHist) (a : CredOp) (h : SizesInv p) :
    GoodRead p a ↔ ReadCond p a := by
  obtain ⟨w, hist⟩ := p
  cases a with
  | read =>
    have hsizeS : hist.sizes.1 = w.lenSsid := h.ssid.symm
    have hsizeP : hist.sizes.2 = w.lenPassword := h.password.symm
    simp only [GoodRead, ReadCond]
    rw [hsizeS, hsizeP]
    refine and_congr_right fun hs => and_congr_right fun hp => forall_congr' fun pair =>
      forall_congr' fun hpair => ?_
    obtain ⟨hnvs, h1, h2⟩ := h.written pair hpair
    obtain ⟨w', hread, hssid, hpassword⟩ := credStep_read hs hp
    simp only at hnvs
    rw [hnvs] at hssid hpassword
    have h1' := cStr_readInto_eq_iff h1 hs w.creds.ssid
    have h2' := cStr_readInto_eq_iff h2 hp w.creds.password
    rw [← hssid] at h1'
    rw [← hpassword] at h2'
    unfold WifiCreds.strings
    rw [← h1', ← h2', hread]
    simp only [Option.some.injEq, exists_eq_left', Prod.ext_iff]
  | _ => exact Iff.rfl

/-- **When reads return what was last written.** For every flash a boot finds and every sequence of
assignments, writes and reads: all the reads do, and pass no length beyond the arrays, exactly if
all of them meet the condition. -/
theorem reads_iff (nvs : Nvs) (ops : List CredOp) :
    AllSteps credStepH GoodRead (credInit nvs) ops ↔
      AllSteps credStepH ReadCond (credInit nvs) ops :=
  allSteps_congr sizesInv_step goodRead_iff ops (credInit nvs) (sizesInv_init nvs)

/-! ## A longer string, and a stored one -/

def ssidBuf (s : List Byte) (h : (0 : Byte) ∈ (Buf.ofList 32 s).bytes) : CredOp :=
  .setSsid ⟨Buf.ofList 32 s, h⟩

/-- A short SSID is written and read, a longer one is written, a third one assigned. -/
def longerRun : List CredOp :=
  [ssidBuf (utf8 "home") (by decide +kernel), .write, .read,
    ssidBuf (utf8 "office-guest") (by decide +kernel), .write,
    ssidBuf (utf8 "other") (by decide +kernel)]

/-- The read after this run does not load the SSID written last; and on a flash with an SSID of 100
bytes the second read passes the length 101 for the array of 32. -/
theorem reads_other_lengths :
    (runActs credStepH (credInit ⟨none, none⟩) (longerRun ++ [.read])).map
        (fun p => (p.1.creds.strings.1, p.2.written.map Prod.fst)) =
      some (utf8 "other", some (utf8 "office-guest")) ∧
    (runActs credStepH (credInit ⟨some (List.replicate 100 0x61), none⟩) [.read]).map
        (fun p => p.1.lenSsid) = some 101 ∧
    (runActs credStepH (credInit ⟨some (List.replicate 100 0x61), none⟩) [.read, .read]).isNone ∧
    ¬ AllSteps credStepH GoodRead (credInit ⟨none, none⟩) (longerRun ++ [.read]) ∧
    ¬ AllSteps credStepH GoodRead (credInit ⟨some (List.replicate 100 0x61), none⟩)
      ([.read] ++ [.read]) := by
  have hlong : (runActs credStepH (credInit ⟨some (List.replicate 100 0x61), none⟩) [.read]).map
      (fun p => p.1.lenSsid) = some 101 := by decide +kernel
  have hlonger : (runActs credStepH (credInit ⟨none, none⟩) longerRun).map
      (fun p => (p.2.written.map Prod.fst,
        (credStep p.1 .read).map fun w => w.creds.strings.1)) =
      some (some (utf8 "office-guest"), some (utf8 "other")) := by decide +kernel
  refine ⟨by decide +kernel, hlong, by decide +kernel, ?_, ?_⟩
  · refine not_allSteps_of_last hlonger fun p hp hgood => ?_
    rw [Prod.mk.injEq] at hp
    obtain ⟨pair, hpair, hfst⟩ := Option.map_eq_some_iff.mp hp.1
    obtain ⟨w', hread, hstr⟩ := hgood.2.2 pair hpair
    rw [hread, Option.map_some, Option.some.injEq, hstr, hfst] at hp
    exact absurd hp.2 (by decide +kernel)
  · refine not_allSteps_of_last hlong fun p hp hgood => ?_
    have hle := hgood.1
    omega

end Gateway.Wifi
