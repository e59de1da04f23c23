import Gateway.Lib.Json
import Gateway.Lib.System

/-!
# The scan task and the list it leaves for the portal

Model of `components/scan/scan.c:130-187`. `wifi_scan_task` runs each of its statements as one step
on two globals, `g_ap_info` and `g_ap_count`, and `get_wifi_list_json` may read them between any
two. A failed `ESP_ERROR_CHECK` restarts the device, so only successful calls are steps. The access
points the driver found are an input of the scan; it counts them in a `uint16_t`.

* `wifiListItems_ok`: the list holds the first `g_ap_count` records, and reads inside the array when
  the count is at most 32. `getWifiListJson_eq`: it holds them whenever it is printed.
* `ScanInv`: what the globals hold at each statement.
* **`wifi_list_between_scans`**: from the delivery of a scan's records until the next cycle clears
  them, the list is that scan; while a scan runs it is empty.
* `wifi_list_broken`: that list is empty though a scan was delivered, and before the clamp the list
  runs past the array.
-/

namespace Gateway.Scan

open Gateway.Lib

/-- `MAX_WIFI_LIST_SIZE`. -/
def maxWifiListSize : Nat := 32

/-- `wifi_auth_mode_t`, as far as `get_wifi_list_json` tells its values apart. -/
inductive AuthMode where
  | openAuth
  | wep
  | wpaPsk
  | wpa2Psk
  | wpaWpa2Psk
  | other
  deriving DecidableEq, Repr

/-- The fields of `wifi_ap_record_t` that are read. -/
structure ApRecord where
  ssid : Buf 33
  rssi : BitVec 8
  primary : Byte
  authmode : AuthMode
  deriving DecidableEq

/-- A record of zero bytes; `WIFI_AUTH_OPEN` is 0. -/
def ApRecord.blank : ApRecord := ⟨Buf.fill 33 0, 0, 0, .openAuth⟩

/-- `g_ap_info`. -/
structure ApInfo where
  records : List ApRecord
  size : records.length = maxWifiListSize
  deriving DecidableEq

namespace ApInfo

/-- After `memset`. -/
def blank : ApInfo := ⟨List.replicate maxWifiListSize .blank, List.length_replicate⟩

def load (t : ApInfo) (i : Nat) : Except Fault ApRecord :=
  match t.records[i]? with
  | some r => .ok r
  | none => .error (.outOfBounds maxWifiListSize i 1)

/-- `esp_wifi_scan_get_ap_records` writes the records `rs` from the start on. -/
def store (t : ApInfo) (rs : List ApRecord) : Except Fault ApInfo :=
  if h : rs.length ≤ maxWifiListSize then
    .ok ⟨rs ++ t.records.drop rs.length, by
      rw [List.length_append, List.length_drop, t.size]
      omega⟩
  else .error (.outOfBounds maxWifiListSize 0 rs.length)

theorem store_ok (t : ApInfo) {rs : List ApRecord} (h : rs.length ≤ maxWifiListSize) :
    ∃ t', t.store rs = .ok t' ∧ t'.records.take rs.length = rs :=
  ⟨_, dif_pos h, List.take_left⟩

end ApInfo

/-! ## `get_wifi_list_json` -/

/-- The `switch` on `authmode`. -/
def authModeStr : AuthMode → String
  | .openAuth => "开放"
  | .wep => "WEP"
  | .wpaPsk => "WPA-PSK"
  | .wpa2Psk => "WPA2-PSK"
  | .wpaWpa2Psk => "WPA/WPA2-PSK"
  | .other => "未知"

/-- The object of one record. -/
def apItem (r : ApRecord) : Json :=
  .obj [(utf8 "ssid", .str (cStr r.ssid.bytes)),
    (utf8 "rssi", .number r.rssi.toInt 0),
    (utf8 "channel", .number r.primary.toNat 0),
    (utf8 "auth_mode", .str (utf8 (authModeStr r.authmode)))]

/-- The loop, with `k` rounds left. -/
def wifiListItems (t : ApInfo) : (k i : Nat) → Except Fault (List Json)
  | 0, _ => return []
  | k + 1, i => do
    let r ← t.load i
    let items ← wifiListItems t k (i + 1)
    return apItem r :: items

/-- The tree `get_wifi_list_json` prints. -/
def getWifiListJson (gApInfo : ApInfo) (gApCount : Nat) : Except Fault Json := do
  let items ← wifiListItems gApInfo gApCount 0
  return .obj [(utf8 "wifi_list", .arr items)]

/-- The list of the records `rs`. -/
def wifiList (rs : List ApRecord) : Json := .obj [(utf8 "wifi_list", .arr (rs.map apItem))]

theorem wifiListItems_ok (t : ApInfo) (k i : Nat) (h : i + k ≤ maxWifiListSize) :
    wifiListItems t k i = .ok (((t.records.drop i).take k).map apItem) := by
  induction k generalizing i with
  | zero =>
    rw [List.take_zero]
    rfl
  | succ k ih =>
    have hi : i < t.records.length := by rw [t.size]; omega
    unfold wifiListItems ApInfo.load
    rw [List.getElem?_eq_getElem hi, ih (i + 1) (by omega), List.drop_eq_getElem_cons hi]
    rfl

/-- **The list stays inside the array** when the count is at most 32. -/
theorem getWifiListJson_ok (t : ApInfo) {count : Nat} (h : count ≤ maxWifiListSize) :
    getWifiListJson t count = .ok (wifiList (t.records.take count)) := by
  unfold getWifiListJson
  rw [wifiListItems_ok t count 0 (by omega)]
  rfl

/-- The loop returns the items of the records it went over. -/
theorem wifiListItems_eq {t : ApInfo} {k i : Nat} {items : List Json}
    (h : wifiListItems t k i = .ok items) : items = ((t.records.drop i).take k).map apItem := by
  induction k generalizing i items with
  | zero =>
    cases h
    rw [List.take_zero, List.map_nil]
  | succ k ih =>
    unfold wifiListItems at h
    cases hr : t.records[i]? with
    | none =>
      rw [ApInfo.load, hr] at h
      cases h
    | some r =>
      rw [ApInfo.load, hr] at h
      cases hk : wifiListItems t k (i + 1) with
      | error f =>
        rw [hk] at h
        cases h
      | ok rest =>
        rw [hk] at h
        cases h
        obtain ⟨hi, rfl⟩ := List.getElem?_eq_some_iff.mp hr
        rw [ih hk, List.drop_eq_getElem_cons hi, List.take_succ_cons, List.map_cons]

/-- The list that was printed is the list of the first `count` records. -/
theorem getWifiListJson_eq {t : ApInfo} {count : Nat} {tree : Json}
    (h : getWifiListJson t count = .ok tree) : tree = wifiList (t.records.take count) := by
  unfold getWifiListJson at h
  cases hk : wifiListItems t count 0 with
  | error f =>
    rw [hk] at h
    cases h
  | ok items =>
    rw [hk] at h
    cases h
    rw [wifiListItems_eq hk]
    rfl

/-! ## `wifi_scan_task` -/

/-- The statement `wifi_scan_task` runs next. -/
inductive ScanPc where
  /-- `memset(g_ap_info, 0, …)` -/
  | clear
  /-- `g_ap_count = 0` -/
  | zeroCount
  /-- `esp_wifi_scan_start(NULL, true)` -/
  | scan
  | getApNum
  /-- `if (g_ap_count > MAX_WIFI_LIST_SIZE) …` -/
  | clamp
  | getApRecords
  | delay
  deriving DecidableEq, Repr

/-- What a scan found: no more than a `uint16_t` counts. -/
structure ScanResult where
  records : List ApRecord
  fits : records.length < 65536

structure ScanState where
  gApInfo : ApInfo
  gApCount : Nat
  /-- What the driver found and was not asked for yet. -/
  found : List ApRecord
  pc : ScanPc
  deriving DecidableEq

/-- The globals are zero. -/
def ScanState.init : ScanState := ⟨.blank, 0, [], .clear⟩

/-- The next statement. Each is one action; the scan's result is part of its action. -/
inductive ScanAction where
  | next
  | scanned (r : ScanResult)

def scanStep (s : ScanState) : ScanAction → Option ScanState
  | .next =>
    match s.pc with
    | .clear => some { s with gApInfo := .blank, pc := .zeroCount }
    | .zeroCount => some { s with gApCount := 0, pc := .scan }
    | .scan => none
    | .getApNum => some { s with gApCount := s.found.length, pc := .clamp }
    | .clamp =>
      some { s with
        gApCount := if maxWifiListSize < s.gApCount then maxWifiListSize else s.gApCount
        pc := .getApRecords }
    | .getApRecords =>
      let rs := s.found.take s.gApCount
      match s.gApInfo.store rs with
      | .error _ => none
      | .ok t => some { s with gApInfo := t, gApCount := rs.length, found := [], pc := .delay }
    | .delay => some { s with pc := .clear }
  | .scanned r =>
    match s.pc with
    | .scan => some { s with found := r.records, pc := .getApNum }
    | _ => none

/-- The history: the scan whose records were delivered last. -/
def deliveredUpd (delivered : Option (List ApRecord)) (s : ScanState) :
    ScanAction → Option (List ApRecord)
  | .next => if s.pc = .getApRecords then some s.found else delivered
  | _ => delivered

abbrev scanStepH : ScanState × Option (List ApRecord) → ScanAction →
    Option (ScanState × Option (List ApRecord)) :=
  withHist scanStep deliveredUpd

/-! ## The invariant -/

/-- The records a reader is to see after the scan that found `l`. -/
def Shows (s : ScanState) (l : List ApRecord) : Prop :=
  s.gApCount ≤ maxWifiListSize ∧ s.gApInfo.records.take s.gApCount = l.take maxWifiListSize

/-- **What the globals hold** before each statement. -/
def ScanInv (s : ScanState) (delivered : Option (List ApRecord)) : Prop :=
  match s.pc with
  | .clear => delivered.elim (s.gApCount = 0) (Shows s)
  | .zeroCount => s.gApCount ≤ maxWifiListSize
  | .scan => s.gApCount = 0
  | .getApNum => s.gApCount = 0
  | .clamp => s.gApCount = s.found.length
  | .getApRecords => s.gApCount = min maxWifiListSize s.found.length
  | .delay => ∃ l, delivered = some l ∧ Shows s l

theorem scanInv_init : ScanInv .init none := rfl

variable {s s' : ScanState} {delivered : Option (List ApRecord)}

/-- Before the first delivery and after each one, the count is in range. -/
theorem count_le_of_clear (h : delivered.elim (s.gApCount = 0) (Shows s)) :
    s.gApCount ≤ maxWifiListSize := by
  cases delivered with
  | none =>
    have h0 : s.gApCount = 0 := h
    omega
  | some l => exact h.1

/-- **A delivery**: the records of the scan, cut to the array. -/
theorem shows_delivery {t : ApInfo} (hc : s.gApCount = min maxWifiListSize s.found.length)
    (ht : s.gApInfo.store (s.found.take s.gApCount) = .ok t) :
    Shows { s with
      gApInfo := t, gApCount := (s.found.take s.gApCount).length, found := [], pc := .delay }
      s.found := by
  have hlen : (s.found.take s.gApCount).length = s.gApCount := by
    rw [List.length_take]
    omega
  obtain ⟨t', ht', htake⟩ := s.gApInfo.store_ok
    (show (s.found.take s.gApCount).length ≤ maxWifiListSize by omega)
  rw [ht] at ht'
  cases ht'
  refine ⟨?_, ?_⟩
  · show (s.found.take s.gApCount).length ≤ maxWifiListSize
    omega
  · show t.records.take (s.found.take s.gApCount).length = _
    rw [htake, hc]
    by_cases hle : s.found.length ≤ maxWifiListSize
    · rw [Nat.min_eq_right hle, List.take_of_length_le hle, List.take_length]
    · rw [Nat.min_eq_left (by omega)]

/-- **The step lemma**, one case for each statement. -/
theorem scanInv_step (p : ScanState × Option (List ApRecord)) (a : ScanAction)
    (p' : ScanState × Option (List ApRecord)) (h : ScanInv p.1 p.2)
    (hs : scanStepH p a = some p') : ScanInv p'.1 p'.2 := by
  obtain ⟨hstep, hhist⟩ := withHist_some hs
  obtain ⟨s, delivered⟩ := p
  obtain ⟨s', delivered'⟩ := p'
  simp only at h hstep hhist ⊢
  subst hhist
  unfold ScanInv at h
  cases a with
  | scanned r =>
    simp only [scanStep] at hstep
    split at hstep
    · rename_i hpc
      rw [hpc] at h
      cases hstep
      exact h
    · exact absurd hstep (by simp)
  | next =>
    simp only [scanStep] at hstep
    cases hpc : s.pc with
    | clear =>
      rw [hpc] at h hstep
      cases hstep
      exact count_le_of_clear (s := s) h
    | zeroCount =>
      rw [hpc] at hstep
      cases hstep
      exact rfl
    | scan =>
      rw [hpc] at hstep
      exact absurd hstep (by simp)
    | getApNum =>
      rw [hpc] at hstep
      cases hstep
      exact rfl
    | clamp =>
      rw [hpc] at h hstep
      cases hstep
      have hc : s.gApCount = s.found.length := h
      show (if maxWifiListSize < s.gApCount then maxWifiListSize else s.gApCount) =
        min maxWifiListSize s.found.length
      split <;> omega
    | getApRecords =>
      rw [hpc] at h hstep
      simp only at hstep
      split at hstep
      · exact absurd hstep (by simp)
      · rename_i t ht
        cases hstep
        refine ⟨s.found, ?_, shows_delivery h ht⟩
        simp only [deliveredUpd, hpc, if_true]
    | delay =>
      rw [hpc] at h hstep
      cases hstep
      obtain ⟨l, hd, hl⟩ := h
      have hupd : deliveredUpd delivered s .next = some l := by
        simp only [deliveredUpd, hpc]
        exact hd
      show (deliveredUpd delivered s .next).elim _ _
      rw [hupd]
      exact hl

/-- **The run lemma.** -/
theorem scanInv_reach {p : ScanState × Option (List ApRecord)}
    (hr : Reach scanStepH (.init, none) p) : ScanInv p.1 p.2 :=
  reach_invariant (I := fun p : ScanState × Option (List ApRecord) => ScanInv p.1 p.2)
    scanInv_init scanInv_step hr

theorem ScanInv.shows (h : ScanInv s delivered) {l : List ApRecord} (hd : delivered = some l)
    (hpc : s.pc = .delay ∨ s.pc = .clear) : Shows s l := by
  unfold ScanInv at h
  rcases hpc with hpc | hpc
  · rw [hpc] at h
    obtain ⟨l', hd', hl⟩ := h
    cases hd.symm.trans hd'
    exact hl
  · rw [hpc, hd] at h
    exact h

theorem ScanInv.count_zero (h : ScanInv s delivered) (hpc : s.pc = .scan ∨ s.pc = .getApNum) :
    s.gApCount = 0 := by
  unfold ScanInv at h
  rcases hpc with hpc | hpc
  · rw [hpc] at h
    exact h
  · rw [hpc] at h
    exact h

/-- The count is out of range only between `esp_wifi_scan_get_ap_num` and the clamp. -/
theorem ScanInv.count_le (h : ScanInv s delivered) (hpc : s.pc ≠ .clamp) :
    s.gApCount ≤ maxWifiListSize := by
  have hinv := h
  unfold ScanInv at hinv
  cases hp : s.pc with
  | clear =>
    rw [hp] at hinv
    exact count_le_of_clear hinv
  | zeroCount =>
    rw [hp] at hinv
    exact hinv
  | scan =>
    rw [h.count_zero (Or.inl hp)]
    exact Nat.zero_le _
  | getApNum =>
    rw [h.count_zero (Or.inr hp)]
    exact Nat.zero_le _
  | clamp => exact absurd hp hpc
  | getApRecords =>
    rw [hp] at hinv
    have hc : s.gApCount = min maxWifiListSize s.found.length := hinv
    omega
  | delay =>
    rw [hp] at hinv
    obtain ⟨l, -, hl⟩ := hinv
    exact hl.1

/-! ## The list -/

/-- **The list between scans.** Once a scan's records were delivered and until the next cycle
clears them, the count is at most 32, the first `g_ap_count` records are the last scan's, cut to
32, and the list holds them. From the zeroing of the count until the end of the scan, the list is
empty. The count is out of range only before the clamp. -/
theorem wifi_list_between_scans {p : ScanState × Option (List ApRecord)}
    (hr : Reach scanStepH (.init, none) p) :
    (∀ l, p.2 = some l → p.1.pc = .delay ∨ p.1.pc = .clear →
      p.1.gApCount ≤ 32 ∧ p.1.gApInfo.records.take p.1.gApCount = l.take 32 ∧
        getWifiListJson p.1.gApInfo p.1.gApCount = .ok (wifiList (l.take 32))) ∧
    (p.1.pc = .scan ∨ p.1.pc = .getApNum →
      p.1.gApCount = 0 ∧ getWifiListJson p.1.gApInfo p.1.gApCount = .ok (wifiList [])) ∧
    (p.1.pc ≠ .clamp → p.1.gApCount ≤ 32) := by
  have hinv := scanInv_reach hr
  refine ⟨fun l hd hpc => ?_, fun hpc => ?_, hinv.count_le⟩
  · obtain ⟨hle, htake⟩ := hinv.shows hd hpc
    refine ⟨hle, htake, ?_⟩
    rw [getWifiListJson_ok p.1.gApInfo hle, htake]
    rfl
  · have h0 := hinv.count_zero hpc
    refine ⟨h0, ?_⟩
    have hclamp : p.1.pc ≠ .clamp := by rcases hpc with hpc | hpc <;> simp [hpc]
    rw [getWifiListJson_ok p.1.gApInfo (hinv.count_le hclamp), h0]
    rfl

/-- An access point named `net`. -/
def apNet : ApRecord := ⟨Buf.ofList 33 (utf8 "net"), 0xC4#8, 6, .wpa2Psk⟩

/-- The first cycle finds it. -/
def firstCycle : List ScanAction :=
  [.next, .next, .scanned ⟨[apNet], by decide⟩, .next, .next, .next]

theorem wifi_list_between_scans_net :
    ∃ p, runActs scanStepH (.init, none) firstCycle = some p ∧
      getWifiListJson p.1.gApInfo p.1.gApCount = .ok (wifiList [apNet]) := by
  have hrun : ((runActs scanStepH (.init, none) firstCycle).map fun p => (p.1.pc, p.2)) =
      some (.delay, some [apNet]) := by decide +kernel
  obtain ⟨p, hp, hv⟩ := Option.map_eq_some_iff.mp hrun
  exact ⟨p, hp, ((wifi_list_between_scans ⟨firstCycle, hp⟩).1 [apNet] (congrArg Prod.snd hv)
    (Or.inl (congrArg Prod.fst hv))).2.2⟩

/-- The next cycle: the count is zeroed, then a scan finds 33 access points. -/
def secondCycle : List ScanAction :=
  firstCycle ++ [.next, .next, .next, .scanned ⟨List.replicate 33 apNet, by decide⟩, .next]

/-- During the second scan the list is empty, though a scan was delivered; before the clamp it runs
past the array. -/
theorem wifi_list_broken :
    ((runActs scanStepH (.init, none) (secondCycle.take 9)).map fun p => (p.1.gApCount, p.2)) =
        some (0, some [apNet]) ∧
      ((runActs scanStepH (.init, none) secondCycle).map fun p =>
        (p.1.gApCount, (getWifiListJson p.1.gApInfo p.1.gApCount).toOption.isSome)) =
        some (33, false) ∧
      ¬ ∀ p, Reach scanStepH (.init, none) p → ∀ l, p.2 = some l →
        p.1.gApCount ≤ 32 ∧ p.1.gApInfo.records.take p.1.gApCount = l.take 32 := by
  have hrun : ((runActs scanStepH (.init, none) (secondCycle.take 9)).map fun p =>
      (p.1.gApCount, p.2)) = some (0, some [apNet]) := by decide +kernel
  refine ⟨hrun, by decide +kernel, fun h => ?_⟩
  obtain ⟨p, hp, hv⟩ := Option.map_eq_some_iff.mp hrun
  have htake := (h p ⟨_, hp⟩ [apNet] (congrArg Prod.snd hv)).2
  rw [show p.1.gApCount = 0 from congrArg Prod.fst hv] at htake
  exact absurd htake (by simp)

end Gateway.Scan
