import Gateway.Lib.Simulation
import Gateway.Scan.WifiList
import Mathlib.Data.List.GetD

/-!
# A list that is put together while the scan goes on

`get_wifi_list_json` runs in the web server's task and reads `g_ap_count` in each test of its loop
and `g_ap_info[i]` for each member of an entry; nothing keeps `wifi_scan_task` from running in
between. Here both run one statement at a time, in any order: an action is a statement of the scan
task, a statement of the list, or the request that starts a list. `Listing` holds the loop's
variables. One statement reads one field, and the copy of an SSID counts as one read.

The history (`TornHist`) numbers the values of `g_ap_info`: `tables` has one for each statement of
the scan task so far, and `reads` the number of the one that each member of the list was read from.

Results:
* `list_alone`: a list that no statement of the scan task interrupts is the one of
  `getWifiListJson`, or faults as that does.
* `OfScan`: each value of `g_ap_info` is blank, or holds one delivered scan and blanks after it.
* **`torn_list`**: in every interleaving the `j`-th member of entry `i` is that of record `i` of
  the table it was read from, later members come from later tables, and the first read of a list
  outside the array, after which nothing is said of it, is that of record 32, after a test that saw
  the count before its clamp.
* `torn_list_two`: one entry with the name from one scan and the channel from another.
-/

namespace Gateway.Scan

open Gateway.Lib

/-- The members of an entry, in the order of the source. -/
inductive Member where
  | ssid
  | rssi
  | channel
  | authMode
  deriving DecidableEq, Repr

/-- The members that `get_wifi_list_json` adds before this one. -/
def Member.index : Member → Nat
  | .ssid => 0
  | .rssi => 1
  | .channel => 2
  | .authMode => 3

def Member.next : Member → Option Member
  | .ssid => some .rssi
  | .rssi => some .channel
  | .channel => some .authMode
  | .authMode => none

/-- What a record has for a member. -/
def member (r : ApRecord) : Member → List Byte × Json
  | .ssid => (utf8 "ssid", .str (cStr r.ssid.bytes))
  | .rssi => (utf8 "rssi", .number r.rssi.toInt 0)
  | .channel => (utf8 "channel", .number r.primary.toNat 0)
  | .authMode => (utf8 "auth_mode", .str (utf8 (authModeStr r.authmode)))

/-- The statement of `get_wifi_list_json` that runs next. -/
inductive ListPc where
  /-- `i < g_ap_count` -/
  | test
  | add (m : Member)
  | returned
  deriving DecidableEq, Repr

/-- The variables of `get_wifi_list_json`. -/
structure Listing where
  i : Nat
  item : List (List Byte × Json)
  wifiList : List Json
  pc : ListPc

def Listing.init : Listing := ⟨0, [], [], .test⟩

/-- One statement of `get_wifi_list_json`. The last member also ends the round. -/
def listStep (g : ScanState) (l : Listing) : Except Fault Listing :=
  match l.pc with
  | .test => .ok { l with pc := if l.i < g.gApCount then .add .ssid else .returned }
  | .add m => do
    let r ← g.gApInfo.load l.i
    match m.next with
    | some m' => .ok { l with item := l.item ++ [member r m], pc := .add m' }
    | none =>
      .ok { i := l.i + 1, item := [], wifiList := l.wifiList ++ [.obj (l.item ++ [member r m])],
            pc := .test }
  | .returned => .ok l

/-- The scan task and the list that is being made, or the fault it ended in. -/
structure TornState where
  scan : ScanState
  list : Except Fault Listing

inductive TornAction where
  | scan (a : ScanAction)
  | list
  /-- `wifi_list_get_handler` calls `get_wifi_list_json`. -/
  | request

/-- The web server handles one request at a time. -/
def tornStep (s : TornState) : TornAction → Option TornState
  | .scan a => (scanStep s.scan a).map fun t => { s with scan := t }
  | .list =>
    match s.list with
    | .ok l => if l.pc = .returned then none else some { s with list := listStep s.scan l }
    | .error _ => none
  | .request =>
    match s.list with
    | .ok l => if l.pc = .returned then some { s with list := .ok .init } else none
    | .error _ => none

def TornState.init : TornState := ⟨.init, .ok { Listing.init with pc := .returned }⟩

structure TornHist where
  /-- The scan whose records were delivered last, and all of them. -/
  delivered : Option (List ApRecord)
  scans : List (List ApRecord)
  /-- `g_ap_info` at the start and after each statement of the scan task. -/
  tables : List ApInfo
  /-- The table that each member of the current list was read from. -/
  reads : List Nat
  /-- The last test saw the count before its clamp. -/
  unclamped : Bool

def TornHist.init : TornHist := ⟨none, [], [.blank], [], false⟩

/-- All scans that were delivered. -/
def scansUpd (scans : List (List ApRecord)) (s : ScanState) : ScanAction → List (List ApRecord)
  | .next => if s.pc = .getApRecords then scans ++ [s.found] else scans
  | .scanned _ => scans

def tornUpd (h : TornHist) (s : TornState) : TornAction → TornHist
  | .scan a =>
    { h with
      delivered := deliveredUpd h.delivered s.scan a
      scans := scansUpd h.scans s.scan a
      tables := h.tables ++ ((scanStep s.scan a).map fun t => t.gApInfo).toList }
  | .list =>
    match s.list with
    | .ok l =>
      match l.pc with
      | .test => { h with unclamped := decide (s.scan.pc = .clamp) }
      | .add _ => { h with reads := h.reads ++ [h.tables.length - 1] }
      | .returned => h
    | .error _ => h
  | .request => { h with reads := [] }

abbrev tornStepH : TornState × TornHist → TornAction → Option (TornState × TornHist) :=
  withHist tornStep tornUpd

/-! ## A list alone -/

section Alone

variable {s : TornState} {l : Listing}

theorem runActs_list (hl : s.list = .ok l) (hret : l.pc ≠ .returned) (as : List TornAction) :
    runActs tornStep s (.list :: as) =
      runActs tornStep { s with list := listStep s.scan l } as := by
  have hstep : tornStep s .list = some { s with list := listStep s.scan l } := by
    unfold tornStep
    rw [hl]
    exact if_neg hret
  rw [runActs, hstep]

/-- A round whose record is in the array: the test and the four members. -/
theorem round_ok {r : ApRecord} (hl : s.list = .ok l) (hpc : l.pc = .test) (hitem : l.item = [])
    (hlt : l.i < s.scan.gApCount) (hr : s.scan.gApInfo.load l.i = .ok r) :
    runActs tornStep s (List.replicate 5 .list) =
      some { s with list := .ok ⟨l.i + 1, [], l.wifiList ++ [apItem r], .test⟩ } := by
  have htest : listStep s.scan l = .ok { l with pc := .add .ssid } := by
    unfold listStep
    rw [hpc]
    simp only [if_pos hlt]
  have hadd : ∀ item m, listStep s.scan { l with item := item, pc := .add m } =
      match m.next with
      | some m' => .ok { l with item := item ++ [member r m], pc := .add m' }
      | none => .ok { i := l.i + 1, item := [],
                      wifiList := l.wifiList ++ [.obj (item ++ [member r m])], pc := .test } := by
    intro item m
    unfold listStep
    simp only
    rw [hr]
    rfl
  have hstart : { l with pc := ListPc.add .ssid } = { l with item := [], pc := .add .ssid } := by
    rw [← hitem]
  show runActs tornStep s [.list, .list, .list, .list, .list] = _
  rw [runActs_list hl (by simp [hpc]), htest, hstart]
  rw [runActs_list rfl (by simp), hadd]
  simp only [Member.next]
  rw [runActs_list rfl (by simp), hadd]
  simp only [Member.next]
  rw [runActs_list rfl (by simp), hadd]
  simp only [Member.next]
  rw [runActs_list rfl (by simp), hadd]
  rfl

/-- What a list alone ends in. -/
def EndsAs (s s' : TornState) (before : List Json) (res : Except Fault (List Json)) : Prop :=
  s'.scan = s.scan ∧ match res with
    | .ok items => ∃ l, s'.list = .ok l ∧ l.pc = .returned ∧ l.wifiList = before ++ items
    | .error e => s'.list = .error e

/-- The rounds that are left, by induction on their number. -/
theorem rounds_alone {k : Nat} (hl : s.list = .ok l) (hpc : l.pc = .test) (hitem : l.item = [])
    (hk : l.i + k = s.scan.gApCount) :
    ∃ n s', runActs tornStep s (List.replicate n .list) = some s' ∧
      EndsAs s s' l.wifiList (wifiListItems s.scan.gApInfo k l.i) := by
  induction k generalizing s l with
  | zero =>
    have htest : listStep s.scan l = .ok { l with pc := .returned } := by
      unfold listStep
      rw [hpc]
      simp only [if_neg (show ¬ l.i < s.scan.gApCount by omega)]
    refine ⟨1, { s with list := .ok { l with pc := .returned } }, ?_, rfl, ?_⟩
    · show runActs tornStep s [.list] = _
      rw [runActs_list hl (by simp [hpc]), htest]
      rfl
    · exact ⟨_, rfl, rfl, (List.append_nil _).symm⟩
  | succ k ih =>
    unfold wifiListItems
    cases hr : s.scan.gApInfo.load l.i with
    | error e =>
      have htest : listStep s.scan l = .ok { l with pc := .add .ssid } := by
        unfold listStep
        rw [hpc]
        simp only [if_pos (show l.i < s.scan.gApCount by omega)]
      refine ⟨2, { s with list := .error e }, ?_, rfl, rfl⟩
      show runActs tornStep s [.list, .list] = _
      rw [runActs_list hl (by simp [hpc]), htest, runActs_list rfl (by simp)]
      unfold listStep
      simp only
      rw [hr]
      rfl
    | ok r =>
      have hround := round_ok hl hpc hitem (by omega) hr
      obtain ⟨n, s', hrun, hscan, hend⟩ :=
        ih (s := { s with list := .ok ⟨l.i + 1, [], l.wifiList ++ [apItem r], .test⟩ }) rfl rfl rfl
          (show l.i + 1 + k = s.scan.gApCount by omega)
      refine ⟨5 + n, s', ?_, hscan, ?_⟩
      · rw [List.replicate_add, runActs_append hround]
        exact hrun
      · have hend' : match wifiListItems s.scan.gApInfo k (l.i + 1) with
            | .ok items => ∃ l', s'.list = .ok l' ∧ l'.pc = .returned ∧
                l'.wifiList = (l.wifiList ++ [apItem r]) ++ items
            | .error e => s'.list = .error e := hend
        cases hitems : wifiListItems s.scan.gApInfo k (l.i + 1) with
        | error e =>
          rw [hitems] at hend'
          exact hend'
        | ok items =>
          rw [hitems] at hend'
          obtain ⟨l', hl', hpc', hlist⟩ := hend'
          refine ⟨l', hl', hpc', ?_⟩
          rw [hlist, List.append_assoc]
          rfl

/-- **A list that nothing interrupts** is the one of `getWifiListJson`, or ends in its fault. -/
theorem list_alone (hl : s.list = .ok .init) :
    ∃ n s', runActs tornStep s (List.replicate n .list) = some s' ∧ s'.scan = s.scan ∧
      match getWifiListJson s.scan.gApInfo s.scan.gApCount with
      | .ok tree => ∃ l, s'.list = .ok l ∧ l.pc = .returned ∧
          tree = .obj [(utf8 "wifi_list", .arr l.wifiList)]
      | .error e => s'.list = .error e := by
  obtain ⟨n, s', hrun, hscan, hend⟩ :=
    rounds_alone (k := s.scan.gApCount) hl rfl rfl (Nat.zero_add _)
  refine ⟨n, s', hrun, hscan, ?_⟩
  unfold getWifiListJson
  have hend' : match wifiListItems s.scan.gApInfo s.scan.gApCount 0 with
      | .ok items => ∃ l, s'.list = .ok l ∧ l.pc = .returned ∧ l.wifiList = items
      | .error e => s'.list = .error e := hend
  cases hitems : wifiListItems s.scan.gApInfo s.scan.gApCount 0 with
  | error e =>
    rw [hitems] at hend'
    exact hend'
  | ok items =>
    rw [hitems] at hend'
    obtain ⟨l, hl', hpc, rfl⟩ := hend'
    exact ⟨l, hl', hpc, rfl⟩

end Alone

/-! ## What a list was read from -/

/-- Record `i` of table `v`. -/
def recordAt (tables : List ApInfo) (v i : Nat) : ApRecord :=
  (tables.getD v .blank).records.getD i .blank

/-- Member `m` of entry `i`, from the table it was read from. -/
def readMember (tables : List ApInfo) (reads : List Nat) (i : Nat) (m : Member) :
    List Byte × Json :=
  member (recordAt tables (reads.getD (4 * i + m.index) 0) i) m

/-- Entry `i`. -/
def entryAt (tables : List ApInfo) (reads : List Nat) (i : Nat) : Json :=
  .obj ([.ssid, .rssi, .channel, .authMode].map (readMember tables reads i))

/-- The members before this one. -/
def Member.before : Member → List Member
  | .ssid => []
  | .rssi => [.ssid]
  | .channel => [.ssid, .rssi]
  | .authMode => [.ssid, .rssi, .channel]

theorem Member.next_some {m m' : Member} (h : m.next = some m') :
    m'.before = m.before ++ [m] ∧ m'.index = m.index + 1 := by
  cases m <;> cases h <;> exact ⟨rfl, rfl⟩

theorem Member.next_none {m : Member} (h : m.next = none) : m = .authMode := by
  cases m <;> first | rfl | cases h

/-- The members before this one have been read before it. -/
theorem Member.index_lt_of_before {m m' : Member} (h : m' ∈ m.before) : m'.index < m.index := by
  revert h
  cases m <;> cases m' <;> decide

/-- A table is blank, or one scan cut to the array and blanks. -/
def OfScan (scans : List (List ApRecord)) (t : ApInfo) : Prop :=
  t = .blank ∨ ∃ rs ∈ scans, t.records =
    rs.take maxWifiListSize ++ List.replicate (maxWifiListSize - rs.length) ApRecord.blank

section Reads

variable {tables ts : List ApInfo} {reads : List Nat} {i v : Nat} {m : Member}

theorem Member.index_lt (m : Member) : m.index < 4 := by
  cases m <;> decide

theorem readMember_append_tables (hlen : 4 * i + m.index < reads.length)
    (hknown : ∀ v ∈ reads, v < tables.length) :
    readMember (tables ++ ts) reads i m = readMember tables reads i m := by
  have hv : reads.getD (4 * i + m.index) 0 < tables.length := by
    rw [List.getD_eq_getElem?_getD, List.getElem?_eq_getElem hlen]
    exact hknown _ (List.getElem_mem hlen)
  unfold readMember recordAt
  rw [List.getD_append _ _ _ _ hv]

theorem readMember_append_reads (hlen : 4 * i + m.index < reads.length) :
    readMember tables (reads ++ [v]) i m = readMember tables reads i m := by
  unfold readMember
  rw [List.getD_append _ _ _ _ hlen]

/-- The member that was read last. -/
theorem readMember_last (hlen : reads.length = 4 * i + m.index) :
    readMember tables (reads ++ [v]) i m = member (recordAt tables v i) m := by
  unfold readMember
  rw [← hlen, List.getD_eq_getElem?_getD, List.getElem?_concat_length]
  rfl

theorem entryAt_append_tables (hlen : 4 * i + 4 ≤ reads.length)
    (hknown : ∀ v ∈ reads, v < tables.length) :
    entryAt (tables ++ ts) reads i = entryAt tables reads i := by
  refine congrArg Json.obj (List.map_congr_left fun m _ => ?_)
  have hm := m.index_lt
  exact readMember_append_tables (by omega) hknown

theorem entryAt_append_reads (hlen : 4 * i + 4 ≤ reads.length) :
    entryAt tables (reads ++ [v]) i = entryAt tables reads i := by
  refine congrArg Json.obj (List.map_congr_left fun m _ => ?_)
  have hm := m.index_lt
  exact readMember_append_reads (by omega)

end Reads

/-! ## The invariant -/

/-- What a running list consists of. -/
structure ListInv (tables : List ApInfo) (reads : List Nat) (unclamped : Bool) (l : Listing) :
    Prop where
  inArray : l.i ≤ maxWifiListSize
  entries : l.wifiList = (List.range l.i).map (entryAt tables reads)
  item : l.item = match l.pc with
    | .add m => m.before.map (readMember tables reads l.i)
    | _ => []
  count : reads.length = 4 * l.i + match l.pc with
    | .add m => m.index
    | _ => 0
  bound : ∀ m, l.pc = .add m → l.i < maxWifiListSize ∨ unclamped = true

theorem ListInv.entries_le {tables : List ApInfo} {reads : List Nat} {unclamped : Bool}
    {l : Listing} (h : ListInv tables reads unclamped l) {i : Nat} (hi : i < l.i) :
    4 * i + 4 ≤ reads.length := by
  have := h.count
  omega

/-- A statement of the scan task does not change what was read. -/
theorem ListInv.tables {tables ts : List ApInfo} {reads : List Nat} {unclamped : Bool}
    {l : Listing} (h : ListInv tables reads unclamped l) (hknown : ∀ v ∈ reads, v < tables.length) :
    ListInv (tables ++ ts) reads unclamped l := by
  refine ⟨h.inArray, ?_, ?_, h.count, h.bound⟩
  · rw [h.entries]
    refine List.map_congr_left fun i hi => ?_
    exact (entryAt_append_tables (h.entries_le (List.mem_range.mp hi)) hknown).symm
  · rw [h.item]
    have hcount := h.count
    cases hpc : l.pc with
    | test => rfl
    | returned => rfl
    | add m =>
      rw [hpc] at hcount
      refine List.map_congr_left fun m' hm' => ?_
      refine (readMember_append_tables ?_ hknown).symm
      have hlt := Member.index_lt_of_before hm'
      have : reads.length = 4 * l.i + m.index := hcount
      omega

/-! ## One statement of the list -/

section ListStep

variable {g : ScanState} {tables : List ApInfo} {reads : List Nat} {unclamped : Bool}
  {l : Listing} {m : Member} {r : ApRecord}

/-- The test of the loop. -/
theorem ListInv.test (h : ListInv tables reads unclamped l) (hpc : l.pc = .test)
    (hle : g.pc ≠ .clamp → g.gApCount ≤ maxWifiListSize) :
    ListInv tables reads (decide (g.pc = .clamp))
      { l with pc := if l.i < g.gApCount then .add .ssid else .returned } := by
  have hitem := h.item
  have hcount := h.count
  rw [hpc] at hitem hcount
  by_cases hlt : l.i < g.gApCount
  · rw [if_pos hlt]
    refine ⟨h.inArray, h.entries, hitem, hcount, fun m _ => ?_⟩
    by_cases hclamp : g.pc = .clamp
    · exact Or.inr (decide_eq_true hclamp)
    · exact Or.inl (Nat.lt_of_lt_of_le hlt (hle hclamp))
  · rw [if_neg hlt]
    exact ⟨h.inArray, h.entries, hitem, hcount, fun m hm => by cases hm⟩

theorem load_ok {t : ApInfo} {i : Nat} (h : t.load i = .ok r) :
    i < maxWifiListSize ∧ t.records.getD i .blank = r := by
  unfold ApInfo.load at h
  cases hr : t.records[i]? with
  | none =>
    rw [hr] at h
    cases h
  | some r' =>
    rw [hr] at h
    cases h
    obtain ⟨hi, -⟩ := List.getElem?_eq_some_iff.mp hr
    rw [t.size] at hi
    refine ⟨hi, ?_⟩
    rw [List.getD_eq_getElem?_getD, hr]
    rfl

theorem load_error {t : ApInfo} {i : Nat} {e : Fault} (h : t.load i = .error e) :
    maxWifiListSize ≤ i ∧ e = .outOfBounds maxWifiListSize i 1 := by
  unfold ApInfo.load at h
  cases hr : t.records[i]? with
  | none =>
    rw [hr] at h
    cases h
    have hi := List.getElem?_eq_none_iff.mp hr
    rw [t.size] at hi
    exact ⟨hi, rfl⟩
  | some r' =>
    rw [hr] at h
    cases h

/-- The table that is read now is the last one. -/
theorem recordAt_last {t : ApInfo} {i : Nat} (h : tables.getLast? = some t) :
    recordAt tables (tables.length - 1) i = t.records.getD i .blank := by
  have hget : tables.getD (tables.length - 1) .blank = t := by
    rw [List.getD_eq_getElem?_getD, ← List.getLast?_eq_getElem?, h]
    rfl
  unfold recordAt
  rw [hget]

/-- **A member is added**, from the table as it is now. -/
theorem ListInv.add (h : ListInv tables reads unclamped l) (hpc : l.pc = .add m)
    (hr : g.gApInfo.load l.i = .ok r) (hlast : tables.getLast? = some g.gApInfo) :
    ∃ l', listStep g l = .ok l' ∧
      ListInv tables (reads ++ [tables.length - 1]) unclamped l' := by
  obtain ⟨hin, hrec⟩ := load_ok hr
  have hitem := h.item
  have hcount := h.count
  rw [hpc] at hitem hcount
  have hcount : reads.length = 4 * l.i + m.index := hcount
  have hread : readMember tables (reads ++ [tables.length - 1]) l.i m = member r m := by
    rw [readMember_last hcount, recordAt_last hlast, hrec]
  have hentries : l.wifiList =
      (List.range l.i).map (entryAt tables (reads ++ [tables.length - 1])) := by
    rw [h.entries]
    refine List.map_congr_left fun i hi => ?_
    exact (entryAt_append_reads (h.entries_le (List.mem_range.mp hi))).symm
  have hbefore : l.item = m.before.map (readMember tables (reads ++ [tables.length - 1]) l.i) := by
    rw [hitem]
    refine List.map_congr_left fun m' hm' => (readMember_append_reads ?_).symm
    have hlt := Member.index_lt_of_before hm'
    omega
  have hlen : (reads ++ [tables.length - 1]).length = 4 * l.i + m.index + 1 := by
    rw [List.length_append, hcount, List.length_singleton]
  unfold listStep
  rw [hpc]
  simp only
  rw [hr]
  cases hnext : m.next with
  | none =>
    -- the last member: the entry is complete
    obtain rfl := Member.next_none hnext
    refine ⟨_, rfl, ⟨hin, ?_, rfl, hlen, fun m hm => by cases hm⟩⟩
    show l.wifiList ++ [.obj (l.item ++ [member r .authMode])] = _
    rw [List.range_succ, List.map_append, ← hentries, hbefore, ← hread]
    rfl
  | some m' =>
    obtain ⟨hbefore', hindex'⟩ := Member.next_some hnext
    refine ⟨_, rfl, ⟨h.inArray, hentries, ?_, ?_, fun _ _ => Or.inl hin⟩⟩
    · show l.item ++ [member r m] = m'.before.map _
      rw [hbefore', List.map_append, ← hbefore, ← hread]
      rfl
    · show _ = 4 * l.i + m'.index
      rw [hlen, hindex', Nat.add_assoc]

/-- **A read past the array** comes after a test that saw the count before its clamp. -/
theorem ListInv.fault (h : ListInv tables reads unclamped l) (hpc : l.pc = .add m) {e : Fault}
    (he : g.gApInfo.load l.i = .error e) :
    unclamped = true ∧ e = .outOfBounds maxWifiListSize maxWifiListSize 1 := by
  obtain ⟨hi, rfl⟩ := load_error he
  have hle := h.inArray
  have heq : l.i = maxWifiListSize := by omega
  rw [heq]
  exact ⟨(h.bound m hpc).resolve_left (by omega), rfl⟩

end ListStep

/-! ## One statement of the scan task -/

/-- From the `memset` until the records are written the table is blank. -/
def Cleared (s : ScanState) : Prop := s.pc ≠ .delay → s.pc ≠ .clear → s.gApInfo = .blank

theorem OfScan.mono {scans scans' : List (List ApRecord)} {t : ApInfo} (h : OfScan scans t)
    (hsub : scans ⊆ scans') : OfScan scans' t := by
  rcases h with rfl | ⟨rs, hrs, ht⟩
  · exact Or.inl rfl
  · exact Or.inr ⟨rs, hsub hrs, ht⟩

theorem subset_scansUpd (scans : List (List ApRecord)) (s : ScanState) (a : ScanAction) :
    scans ⊆ scansUpd scans s a := by
  intro rs hrs
  cases a with
  | scanned r => exact hrs
  | next =>
    show rs ∈ if s.pc = .getApRecords then scans ++ [s.found] else scans
    by_cases hpc : s.pc = .getApRecords
    · rw [if_pos hpc]
      exact List.mem_append_left _ hrs
    · rwa [if_neg hpc]

/-- What a delivery leaves of the blank table. -/
theorem store_blank {rs : List ApRecord} {t : ApInfo}
    (h : ApInfo.blank.store (rs.take (min maxWifiListSize rs.length)) = .ok t) :
    t.records =
      rs.take maxWifiListSize ++ List.replicate (maxWifiListSize - rs.length) ApRecord.blank := by
  have htake : rs.take (min maxWifiListSize rs.length) = rs.take maxWifiListSize := by
    rw [← List.take_take, List.take_length]
  have hlen : (rs.take maxWifiListSize).length = min maxWifiListSize rs.length := List.length_take
  rw [htake] at h
  unfold ApInfo.store at h
  rw [dif_pos (by omega)] at h
  cases h
  show rs.take maxWifiListSize ++
    (List.replicate maxWifiListSize ApRecord.blank).drop (rs.take maxWifiListSize).length = _
  rw [List.drop_replicate, hlen]
  congr 2
  omega

/-- **The table after a statement of the scan task.** -/
theorem table_step {s t : ScanState} {a : ScanAction} {delivered : Option (List ApRecord)}
    {scans : List (List ApRecord)} (hinv : ScanInv s delivered) (hcl : Cleared s)
    (hof : OfScan scans s.gApInfo) (h : scanStep s a = some t) :
    OfScan (scansUpd scans s a) t.gApInfo ∧ Cleared t := by
  unfold ScanInv at hinv
  cases a with
  | scanned r =>
    simp only [scanStep] at h
    split at h
    · rename_i hpc
      cases h
      have hblank := hcl (by simp [hpc]) (by simp [hpc])
      exact ⟨hof, fun _ _ => hblank⟩
    · cases h
  | next =>
    have hsub := subset_scansUpd scans s .next
    cases hpc : s.pc with
    | clear =>
      simp only [scanStep, hpc] at h
      cases h
      exact ⟨Or.inl rfl, fun _ _ => rfl⟩
    | zeroCount =>
      simp only [scanStep, hpc] at h
      cases h
      have hblank := hcl (by simp [hpc]) (by simp [hpc])
      exact ⟨hof.mono hsub, fun _ _ => hblank⟩
    | scan =>
      simp only [scanStep, hpc] at h
      cases h
    | getApNum =>
      simp only [scanStep, hpc] at h
      cases h
      have hblank := hcl (by simp [hpc]) (by simp [hpc])
      exact ⟨hof.mono hsub, fun _ _ => hblank⟩
    | clamp =>
      simp only [scanStep, hpc] at h
      cases h
      have hblank := hcl (by simp [hpc]) (by simp [hpc])
      exact ⟨hof.mono hsub, fun _ _ => hblank⟩
    | getApRecords =>
      have hblank := hcl (by simp [hpc]) (by simp [hpc])
      rw [hpc] at hinv
      simp only [scanStep, hpc] at h
      split at h
      · cases h
      · rename_i t' ht'
        cases h
        have hcount : s.gApCount = min maxWifiListSize s.found.length := hinv
        rw [hblank, hcount] at ht'
        have hmem : s.found ∈ scansUpd scans s .next := by
          unfold scansUpd
          rw [if_pos hpc]
          exact List.mem_append_right _ (List.mem_singleton_self _)
        exact ⟨Or.inr ⟨s.found, hmem, store_blank ht'⟩, fun hd _ => absurd rfl hd⟩
    | delay =>
      simp only [scanStep, hpc] at h
      cases h
      exact ⟨hof.mono hsub, fun _ hc => absurd rfl hc⟩

/-! ## Every interleaving -/

/-- **The invariant** of the scan task, the list and the history. -/
structure TornInv (s : TornState) (h : TornHist) : Prop where
  scan : ScanInv s.scan h.delivered
  cleared : Cleared s.scan
  last : h.tables.getLast? = some s.scan.gApInfo
  ofScan : ∀ t ∈ h.tables, OfScan h.scans t
  sorted : h.reads.Pairwise (· ≤ ·)
  known : ∀ v ∈ h.reads, v < h.tables.length
  list : match s.list with
    | .ok l => ListInv h.tables h.reads h.unclamped l
    | .error e => h.unclamped = true ∧ e = .outOfBounds maxWifiListSize maxWifiListSize 1

theorem tornInv_init : TornInv .init .init where
  scan := scanInv_init
  cleared := fun _ hc => absurd rfl hc
  last := rfl
  ofScan := fun t ht => Or.inl (List.mem_singleton.mp ht)
  sorted := List.Pairwise.nil
  known := fun v hv => absurd hv List.not_mem_nil
  list := ⟨Nat.zero_le _, rfl, rfl, rfl, fun m hm => by cases hm⟩

/-- The invariant through a statement of the scan task. -/
theorem TornInv.scanned {s : TornState} {h : TornHist} (hI : TornInv s h) {a : ScanAction}
    {t : ScanState} (ht : scanStep s.scan a = some t) :
    TornInv { s with scan := t } (tornUpd h s (.scan a)) := by
  obtain ⟨hof, hcl⟩ := table_step hI.scan hI.cleared
    (hI.ofScan _ (List.mem_of_getLast? hI.last)) ht
  have hstepH : scanStepH (s.scan, h.delivered) a =
      some (t, deliveredUpd h.delivered s.scan a) := by
    unfold scanStepH withHist
    rw [ht]
    rfl
  have hinv := scanInv_step (s.scan, h.delivered) a _ hI.scan hstepH
  have htables : (tornUpd h s (.scan a)).tables = h.tables ++ [t.gApInfo] := by
    show h.tables ++ ((scanStep s.scan a).map fun t => t.gApInfo).toList = _
    rw [ht]
    rfl
  have hsub := subset_scansUpd h.scans s.scan a
  refine ⟨hinv, hcl, ?_, ?_, hI.sorted, ?_, ?_⟩
  · rw [htables, List.getLast?_concat]
  · intro t' ht'
    rw [htables] at ht'
    rcases List.mem_append.mp ht' with hold | hnew
    · exact (hI.ofScan t' hold).mono hsub
    · rw [List.mem_singleton.mp hnew]
      exact hof
  · intro v hv
    rw [htables, List.length_append]
    exact Nat.lt_add_right _ (hI.known v hv)
  · have hlist := hI.list
    show match s.list with
      | .ok l => ListInv (tornUpd h s (.scan a)).tables h.reads h.unclamped l
      | .error e => h.unclamped = true ∧ e = .outOfBounds maxWifiListSize maxWifiListSize 1
    rw [htables]
    cases hl : s.list with
    | ok l =>
      rw [hl] at hlist
      exact ListInv.tables hlist hI.known
    | error e =>
      rw [hl] at hlist
      exact hlist

/-- A read of the table as it is now comes after the reads before. -/
theorem TornInv.reads {s : TornState} {h : TornHist} (hI : TornInv s h) :
    (h.reads ++ [h.tables.length - 1]).Pairwise (· ≤ ·) ∧
      ∀ v ∈ h.reads ++ [h.tables.length - 1], v < h.tables.length := by
  have hpos : 0 < h.tables.length := List.length_pos_of_mem (List.mem_of_getLast? hI.last)
  constructor
  · refine List.pairwise_append.mpr ⟨hI.sorted, List.pairwise_singleton _ _, fun v hv w hw => ?_⟩
    have hlt := hI.known v hv
    rw [List.mem_singleton.mp hw]
    omega
  · intro v hv
    rcases List.mem_append.mp hv with hv | hv
    · exact hI.known v hv
    · rw [List.mem_singleton.mp hv]
      omega

/-- The invariant through a statement of the list. -/
theorem TornInv.listed {s : TornState} {h : TornHist} (hI : TornInv s h) {l : Listing}
    (hl : s.list = .ok l) (hret : l.pc ≠ .returned) :
    TornInv { s with list := listStep s.scan l } (tornUpd h s .list) := by
  have hlist := hI.list
  rw [hl] at hlist
  have hlist : ListInv h.tables h.reads h.unclamped l := hlist
  unfold tornUpd
  rw [hl]
  cases hpc : l.pc with
  | returned => exact absurd hpc hret
  | test =>
    have htest := hlist.test hpc hI.scan.count_le
    have hstep : listStep s.scan l =
        .ok { l with pc := if l.i < s.scan.gApCount then .add .ssid else .returned } := by
      unfold listStep
      rw [hpc]
    rw [hstep]
    simp only [hpc]
    exact ⟨hI.scan, hI.cleared, hI.last, hI.ofScan, hI.sorted, hI.known, htest⟩
  | add m =>
    simp only [hpc]
    obtain ⟨hsorted, hknown⟩ := hI.reads
    cases hr : s.scan.gApInfo.load l.i with
    | ok r =>
      obtain ⟨l', hl', hadd⟩ := hlist.add hpc hr hI.last
      rw [hl']
      exact ⟨hI.scan, hI.cleared, hI.last, hI.ofScan, hsorted, hknown, hadd⟩
    | error e =>
      have hstep : listStep s.scan l = .error e := by
        unfold listStep
        rw [hpc]
        simp only
        rw [hr]
        rfl
      rw [hstep]
      exact ⟨hI.scan, hI.cleared, hI.last, hI.ofScan, hsorted, hknown, hlist.fault hpc hr⟩

/-- **The step lemma.** -/
theorem tornInv_step (p : TornState × TornHist) (a : TornAction) (p' : TornState × TornHist)
    (hI : TornInv p.1 p.2) (hs : tornStepH p a = some p') : TornInv p'.1 p'.2 := by
  obtain ⟨s, h⟩ := p
  obtain ⟨s', h'⟩ := p'
  obtain ⟨hstep, rfl⟩ : tornStep s a = some s' ∧ h' = tornUpd h s a := withHist_some hs
  cases a with
  | scan a =>
    obtain ⟨t, ht, rfl⟩ := Option.map_eq_some_iff.mp hstep
    exact hI.scanned ht
  | request =>
    unfold tornStep at hstep
    cases hl : s.list with
    | error e =>
      simp only [hl] at hstep
      cases hstep
    | ok l =>
      simp only [hl] at hstep
      split at hstep
      · cases hstep
        exact ⟨hI.scan, hI.cleared, hI.last, hI.ofScan, List.Pairwise.nil,
          fun v hv => absurd hv List.not_mem_nil, Nat.zero_le _, rfl, rfl, rfl,
          fun m hm => by cases hm⟩
      · cases hstep
  | list =>
    unfold tornStep at hstep
    cases hl : s.list with
    | error e =>
      simp only [hl] at hstep
      cases hstep
    | ok l =>
      simp only [hl] at hstep
      split at hstep
      · cases hstep
      · rename_i hret
        cases hstep
        exact hI.listed hl hret

/-- **The run lemma.** -/
theorem tornInv_reach {p : TornState × TornHist} (hr : Reach tornStepH (.init, .init) p) :
    TornInv p.1 p.2 :=
  reach_invariant (I := fun p : TornState × TornHist => TornInv p.1 p.2) tornInv_init
    tornInv_step hr

/-- A record of such a table is blank, or the one at its place in a delivered scan. -/
theorem recordAt_ofScan {tables : List ApInfo} {scans : List (List ApRecord)}
    (h : ∀ t ∈ tables, OfScan scans t) (v i : Nat) :
    recordAt tables v i = .blank ∨ ∃ rs ∈ scans, rs[i]? = some (recordAt tables v i) := by
  have hblank : (ApInfo.blank.records).getD i .blank = .blank :=
    List.getElem?_getD_replicate_default_eq ApRecord.blank maxWifiListSize i
  unfold recordAt
  by_cases hv : v < tables.length
  · rw [List.getD_eq_getElem _ _ hv]
    rcases h _ (List.getElem_mem hv) with ht | ⟨rs, hrs, ht⟩
    · rw [ht]
      exact Or.inl hblank
    · rw [ht]
      by_cases hi : i < (rs.take maxWifiListSize).length
      · rw [List.getD_append _ _ _ _ hi, List.getD_eq_getElem _ _ hi, List.getElem_take]
        rw [List.length_take] at hi
        exact Or.inr ⟨rs, hrs, List.getElem?_eq_getElem (by omega)⟩
      · rw [List.getD_append_right _ _ _ _ (Nat.le_of_not_lt hi)]
        exact Or.inl (List.getElem?_getD_replicate_default_eq ApRecord.blank _ _)
  · rw [List.getD_eq_default _ _ (Nat.le_of_not_lt hv)]
    exact Or.inl hblank

/-- **What a list is in every interleaving.** Each value that `g_ap_info` had is blank or one
delivered scan, cut to 32, and blanks. Entry `i` of a list has, member by member, what record `i`
held when that member was read, so that each member is a blank record's or that of the `i`-th
record of one scan; members are read in their order, so that a later one comes from the same table
or from a later one; and each entry is inside the array. The first read of a list outside the array
is that of record 32, and only after a test that saw the count before its clamp; the source then
goes on with what is behind the array, and nothing more is said of that list. -/
theorem torn_list {p : TornState × TornHist} (hr : Reach tornStepH (.init, .init) p) :
    (∀ t ∈ p.2.tables, OfScan p.2.scans t) ∧
    (∀ v i, recordAt p.2.tables v i = .blank ∨
      ∃ rs ∈ p.2.scans, rs[i]? = some (recordAt p.2.tables v i)) ∧
    p.2.reads.Pairwise (· ≤ ·) ∧ (∀ v ∈ p.2.reads, v < p.2.tables.length) ∧
    (∀ l, p.1.list = .ok l → l.i ≤ 32 ∧
      l.wifiList = (List.range l.i).map (entryAt p.2.tables p.2.reads)) ∧
    (∀ e, p.1.list = .error e → p.2.unclamped = true ∧ e = .outOfBounds 32 32 1) := by
  have hI := tornInv_reach hr
  refine ⟨hI.ofScan, recordAt_ofScan hI.ofScan, hI.sorted, hI.known, fun l hl => ?_,
    fun e he => ?_⟩
  · have hlist := hI.list
    rw [hl] at hlist
    exact ⟨hlist.inArray, hlist.entries⟩
  · have hlist := hI.list
    rw [he] at hlist
    exact hlist

/-- An access point on another channel. -/
def apAttic : ApRecord := ⟨Buf.ofList 33 (utf8 "attic"), 0xB0#8, 11, .wpa2Psk⟩

/-- One cycle of the scan task that finds `r`. -/
def cycleOf (r : ApRecord) : List TornAction :=
  [.scan .next, .scan .next, .scan (.scanned ⟨[r], show 1 < 65536 by decide⟩), .scan .next,
    .scan .next, .scan .next]

/-- A list whose first member is read before the second cycle, and the others after it. -/
def mixedRun : List TornAction :=
  cycleOf apNet ++ [.request, .list, .list, .scan .next] ++ cycleOf apAttic ++
    [.list, .list, .list, .list]

theorem torn_list_two :
    ∃ p l, runActs tornStepH (.init, .init) mixedRun = some p ∧ p.1.list = .ok l ∧
      l.pc = .returned ∧ l.wifiList = [.obj [member apNet .ssid, member apAttic .rssi,
        member apAttic .channel, member apAttic .authMode]] := by
  have hrun : ((runActs tornStepH (.init, .init) mixedRun).map fun p =>
      (p.2.reads, p.1.list.toOption.map fun l => (l.i, l.pc), recordAt p.2.tables 6 0,
        recordAt p.2.tables 13 0)) =
      some ([6, 13, 13, 13], some (1, .returned), apNet, apAttic) := by decide +kernel
  obtain ⟨p, hp, hv⟩ := Option.map_eq_some_iff.mp hrun
  have hreads := congrArg Prod.fst hv
  have hlist := congrArg (fun v => v.2.1) hv
  have hnet := congrArg (fun v => v.2.2.1) hv
  have hattic := congrArg (fun v => v.2.2.2) hv
  simp only at hreads hlist hnet hattic
  cases hl : p.1.list with
  | error e =>
    rw [hl] at hlist
    cases hlist
  | ok l =>
    rw [hl] at hlist
    obtain ⟨hi, hpc⟩ := Prod.mk.inj (Option.some.inj hlist)
    have hentries := ((torn_list ⟨mixedRun, hp⟩).2.2.2.2.1 l hl).2
    rw [hi, hreads] at hentries
    refine ⟨p, l, hp, hl, hpc, hentries.trans ?_⟩
    rw [← hnet, ← hattic]
    rfl

end Gateway.Scan
