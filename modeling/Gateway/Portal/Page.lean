import Mathlib.Data.List.Nodup
import Mathlib.Data.List.Pairwise
import Gateway.Lib.System

/-!
# The portal page: which network is submitted

Model of the script of `main/root.html:426-597`, one event of the page at a time. A list arrives
for every request that was made, at any time after it; a name can be typed while the panel for it is
shown; a submit is ignored while the button is disabled. An element of the list is named by a
number, since the same text may be in the list twice. A list that has no array in it, or a bad entry
in the array, is the list of the entries before that point.

The elements of the page are the ones that the script makes: what becomes of the page after a list
with markup in its texts is up to the browser, and `pageStep` is not defined on it (`IsText`).

`networkItems` is what `querySelectorAll('.network-item')` returned when the page was loaded. The
list is loaded later, so it is empty (`networkItems_eq`), and the handlers that were added to its
elements are never run. The `click` handler of a list entry looks the elements up again; the one of
the toggle button does not.

* `pageStep`: the events. `submitSsid`: the network a submit posts.
* `PageOk`: what is expected of the selection. `PageCond`: when it can be expected.
* `PageInv`: the selection as long as the condition was met. `pageInv_step`, `not_pageOk_step`: one
  event under the condition, and one against it.
* **`selection_iff`**: the selection is as expected throughout a run exactly if every event meets
  the condition. `selection_stale`: a name typed after a click, and a list that arrives after one.
-/

namespace Gateway.Portal

open Gateway.Lib

/-! ## The list -/

/-- An entry of `wifi_list`. -/
structure WifiEntry where
  ssid : List Char
  rssi : Int
  authMode : List Char
  deriving DecidableEq

/-- The texts make no element where they are put into markup. -/
def WifiEntry.IsText (e : WifiEntry) : Prop := '<' ∉ e.ssid ∧ '<' ∉ e.authMode

instance (e : WifiEntry) : Decidable e.IsText := inferInstanceAs (Decidable (_ ∧ _))

/-- `signalIcon`. -/
def signalIcon (rssi : Int) : List Char :=
  if -50 ≤ rssi then "📶".toList else if -70 ≤ rssi then "⚠️".toList else "🚫".toList

/-- The string assigned to `networkItem.innerHTML`. -/
def itemHtml (e : WifiEntry) : List Char :=
  "\n                        <span class=\"network-name\"><i>".toList ++
    (signalIcon e.rssi ++ ("</i> ".toList ++ (e.ssid ++
      ("</span>\n                        <span class=\"network-strength\">".toList ++
        (e.authMode ++ "</span>\n                    ".toList)))))

/-- A `div` of the class `network-item`. -/
structure NetworkItem where
  id : Nat
  dataSsid : List Char
  innerHtml : List Char
  active : Bool
  deriving DecidableEq

def networkItem (id : Nat) (e : WifiEntry) : NetworkItem := ⟨id, e.ssid, itemHtml e, false⟩

/-- `updateWiFiList`; the new elements are numbered from `nextId` on. -/
def updateWiFiList (nextId : Nat) (wifiList : List WifiEntry) : List NetworkItem :=
  (wifiList.zipIdx nextId).map fun x => networkItem x.2 x.1

/-! ## The page -/

structure PageState where
  networkList : List NetworkItem
  nextId : Nat
  /-- `manual-input` has the class `show`. -/
  manualShow : Bool
  manualName : List Char
  password : List Char
  /-- Requests for `/api/wifi_list` that are not answered. -/
  requests : Nat
  buttonDisabled : Bool
  /-- What was posted to `/api/wifi_config`: the SSIDs and the passwords. -/
  posts : List (List Char × List Char)
  deriving DecidableEq

/-- After `DOMContentLoaded`. -/
def PageState.loaded : PageState := ⟨[], 0, false, [], [], 1, false, []⟩

/-- The elements found when the page was loaded. -/
def networkItems : List Nat := PageState.loaded.networkList.map NetworkItem.id

inductive PageEvent where
  | listLoaded (wifiList : List WifiEntry)
  | listFailed
  /-- On the `i`-th entry of the list. -/
  | clickItem (i : Nat)
  | toggleManual
  | typeName (name : List Char)
  | typePassword (password : List Char)
  | refresh
  | submit
  /-- The button is enabled again. -/
  | timeout
  deriving DecidableEq

/-- The `ssid` of the data a submit posts; `none` when nothing is chosen. -/
def submitSsid (s : PageState) : Option (List Char) :=
  match s.networkList.find? (·.active) with
  | some selectedNetwork => some selectedNetwork.dataSsid
  | none => if s.manualName = [] then none else some s.manualName

def pageStep (s : PageState) : PageEvent → Option PageState
  | .listLoaded wifiList =>
    if s.requests = 0 ∨ ∃ e ∈ wifiList, ¬ e.IsText then none
    else some { s with
      requests := s.requests - 1
      networkList := updateWiFiList s.nextId wifiList
      nextId := s.nextId + wifiList.length }
  | .listFailed => if s.requests = 0 then none else some { s with requests := s.requests - 1 }
  | .clickItem i =>
    s.networkList[i]?.map fun item => { s with
      networkList := s.networkList.map fun x => { x with active := decide (x.id = item.id) }
      manualShow := false
      manualName := [] }
  | .toggleManual =>
    some { s with
      manualShow := !s.manualShow
      networkList := s.networkList.map fun x =>
        if x.id ∈ networkItems then { x with active := false } else x }
  | .typeName name => if s.manualShow then some { s with manualName := name } else none
  | .typePassword password => some { s with password := password }
  | .refresh => some { s with requests := s.requests + 1 }
  | .submit =>
    if s.buttonDisabled then none
    else
      match submitSsid s with
      | none => some s
      | some ssid =>
        if s.password = [] then some s
        else some { s with
          buttonDisabled := true
          posts := s.posts ++ [(ssid, s.password)] }
  | .timeout => if s.buttonDisabled then some { s with buttonDisabled := false } else none

/-- The SSID of the entry clicked last, with no toggle and no refresh after it. -/
def chosenUpd (chosen : Option (List Char)) (s : PageState) : PageEvent → Option (List Char)
  | .clickItem i => s.networkList[i]?.map NetworkItem.dataSsid
  | .toggleManual => none
  | .refresh => none
  | _ => chosen

abbrev pageStepH : PageState × Option (List Char) → PageEvent →
    Option (PageState × Option (List Char)) :=
  withHist pageStep chosenUpd

def pageInit : PageState × Option (List Char) := (.loaded, none)

/-! ## What is expected -/

/-- A submit posts this network, with whatever password is typed. (Without one the form refuses.) -/
def SubmitPosts (s : PageState) (ssid : List Char) : Prop :=
  ∀ password, password ≠ [] →
    (pageStep { s with password := password, buttonDisabled := false } .submit).map
      PageState.posts = some (s.posts ++ [(ssid, password)])

/-- **What is expected of the selection**: no two entries are active, and none while the panel is
shown; a name typed there is posted; and so is the entry clicked last. -/
structure PageOk (p : PageState × Option (List Char)) : Prop where
  single : p.1.networkList.Pairwise fun x y => ¬ (x.active ∧ y.active)
  exclusive : p.1.manualShow → ∀ x ∈ p.1.networkList, x.active = false
  manual : p.1.manualShow → p.1.manualName ≠ [] → SubmitPosts p.1 p.1.manualName
  clicked : ∀ ssid, p.2 = some ssid → SubmitPosts p.1 ssid

/-- **The condition on an event**: the panel is not opened while an entry is active, and no list
arrives between a click on an entry and the next toggle or refresh. -/
def PageCond (p : PageState × Option (List Char)) : PageEvent → Prop
  | .toggleManual => p.1.manualShow = false → ∀ x ∈ p.1.networkList, x.active = false
  | .listLoaded _ => p.2 = none
  | _ => True

theorem networkItems_eq : networkItems = [] := rfl

variable {s s' : PageState} {e : PageEvent} {p p' : PageState × Option (List Char)}

/-- The network posted is `submitSsid`. -/
theorem submitPosts_iff {ssid : List Char} : SubmitPosts s ssid ↔ submitSsid s = some ssid := by
  have hstep (password : List Char) (hne : password ≠ []) :
      (pageStep { s with password := password, buttonDisabled := false } .submit).map
        PageState.posts = some (match submitSsid s with
          | some ssid => s.posts ++ [(ssid, password)]
          | none => s.posts) := by
    have hs : submitSsid { s with password := password, buttonDisabled := false } = submitSsid s :=
      rfl
    cases h : submitSsid s <;> simp [pageStep, hs, h, hne]
  constructor
  · intro h
    have h1 := h ['x'] (List.cons_ne_nil _ _)
    rw [hstep ['x'] (List.cons_ne_nil _ _)] at h1
    cases hs : submitSsid s with
    | none => simp [hs] at h1
    | some ssid' => simpa [hs] using h1
  · intro h password hne
    rw [hstep password hne, h]

/-! ## The invariant -/

/-- **The invariant**, as long as every event met the condition. -/
structure PageInv (p : PageState × Option (List Char)) : Prop where
  ids : (p.1.networkList.map NetworkItem.id).Nodup
  single : p.1.networkList.Pairwise fun x y => ¬ (x.active ∧ y.active)
  exclusive : p.1.manualShow → ∀ x ∈ p.1.networkList, x.active = false
  clicked : ∀ ssid, p.2 = some ssid → ∃ x ∈ p.1.networkList, x.active ∧ x.dataSsid = ssid
  cleared : p.2 ≠ none → p.1.manualShow = false ∧ p.1.manualName = []

theorem pageInv_init : PageInv pageInit where
  ids := List.nodup_nil
  single := List.Pairwise.nil
  exclusive := fun _ _ hx => absurd hx List.not_mem_nil
  clicked := nofun
  cleared := fun h => absurd rfl h

/-- With no active entry, the name that was typed is submitted. -/
theorem submitSsid_manual (h : ∀ x ∈ s.networkList, x.active = false) :
    submitSsid s = if s.manualName = [] then none else some s.manualName := by
  have hf : s.networkList.find? (·.active) = none := by
    rw [List.find?_eq_none]
    intro x hx
    simp [h x hx]
  simp only [submitSsid, hf]

/-- The only active entry is submitted. -/
theorem submitSsid_active {x : NetworkItem}
    (hp : s.networkList.Pairwise fun x y => ¬ (x.active ∧ y.active)) (hx : x ∈ s.networkList)
    (ha : x.active) : submitSsid s = some x.dataSsid := by
  cases hf : s.networkList.find? (·.active) with
  | none => exact absurd ha (by simpa using List.find?_eq_none.mp hf x hx)
  | some y =>
    have hy : y = x := by
      by_contra hne
      have : Std.Symm fun x y : NetworkItem => ¬ (x.active ∧ y.active) :=
        ⟨fun a b h hab => h hab.symm⟩
      exact hp.forall (List.mem_of_find?_eq_some hf) hx hne ⟨List.find?_some hf, ha⟩
    simp only [submitSsid, hf, hy]

theorem PageInv.ok (h : PageInv p) : PageOk p where
  single := h.single
  exclusive := h.exclusive
  manual := by
    intro hs hn
    rw [submitPosts_iff, submitSsid_manual (h.exclusive hs), if_neg hn]
  clicked := by
    intro ssid hp
    obtain ⟨x, hx, ha, rfl⟩ := h.clicked ssid hp
    exact submitPosts_iff.mpr (submitSsid_active h.single hx ha)

/-! ## One event -/

/-- An event that leaves the list and the panel as they are. -/
theorem PageInv.frame {c c' : Option (List Char)} (h : PageInv (s, c))
    (hl : s'.networkList = s.networkList) (hs : s'.manualShow = s.manualShow)
    (hn : s'.manualName = s.manualName) (hc : c' = c ∨ c' = none) : PageInv (s', c') := by
  have hsome (ssid : List Char) (h' : c' = some ssid) : c = some ssid := by
    rcases hc with rfl | rfl
    · exact h'
    · exact nomatch h'
  refine ⟨by rw [hl]; exact h.ids, by rw [hl]; exact h.single, ?_, ?_, ?_⟩
  · intro hshow
    rw [hl]
    exact h.exclusive (hs ▸ hshow)
  · intro ssid h'
    rw [hl]
    exact h.clicked ssid (hsome ssid h')
  · intro h'
    obtain ⟨ssid, h'⟩ := Option.ne_none_iff_exists'.mp h'
    rw [hs, hn]
    exact h.cleared (by rw [hsome ssid h']; exact Option.some_ne_none _)

/-- The events that leave the list and the panel as they are. -/
def PageEvent.Quiet : PageEvent → Prop
  | .listFailed | .typePassword _ | .refresh | .submit | .timeout => True
  | _ => False

theorem pageStep_quiet (hq : e.Quiet)
    (h : pageStep s e = some s') :
    s'.networkList = s.networkList ∧ s'.manualShow = s.manualShow ∧
      s'.manualName = s.manualName := by
  cases e with
  | listLoaded | clickItem | toggleManual | typeName => exact hq.elim
  | typePassword | refresh =>
    cases h
    exact ⟨rfl, rfl, rfl⟩
  | listFailed | timeout =>
    simp only [pageStep] at h
    split at h <;> cases h
    exact ⟨rfl, rfl, rfl⟩
  | submit =>
    simp only [pageStep] at h
    split at h
    · cases h
    · split at h
      · cases h
        exact ⟨rfl, rfl, rfl⟩
      · -- posted, or refused for want of a password
        split at h <;> cases h <;> exact ⟨rfl, rfl, rfl⟩

theorem pageInv_quiet {c : Option (List Char)} (hq : e.Quiet)
    (h : PageInv (s, c)) (hs : pageStep s e = some s') : PageInv (s', chosenUpd c s e) := by
  obtain ⟨hl, hshow, hname⟩ := pageStep_quiet hq hs
  refine h.frame hl hshow hname ?_
  cases e with
  | listLoaded | clickItem | toggleManual | typeName => exact hq.elim
  | refresh => exact .inr rfl
  | listFailed | typePassword | submit | timeout => exact .inl rfl

/-- Nothing is active in a list that has just arrived. -/
theorem active_updateWiFiList {n : Nat} {wifiList : List WifiEntry} {x : NetworkItem}
    (hx : x ∈ updateWiFiList n wifiList) : x.active = false := by
  obtain ⟨y, -, rfl⟩ := List.mem_map.mp hx
  rfl

theorem ids_updateWiFiList (n : Nat) (wifiList : List WifiEntry) :
    (updateWiFiList n wifiList).map NetworkItem.id = List.range' n wifiList.length := by
  rw [updateWiFiList, List.map_map, ← List.zipIdx_map_snd]
  rfl

theorem pairwise_inactive {l : List NetworkItem} (h : ∀ x ∈ l, x.active = false) :
    l.Pairwise fun x y => ¬ (x.active ∧ y.active) :=
  List.pairwise_of_forall_mem_list fun x hx _ _ hxy => absurd hxy.1 (by simp [h x hx])

/-- `pageStep` of a list that arrives. -/
theorem pageStep_listLoaded {wifiList : List WifiEntry}
    (h : pageStep s (.listLoaded wifiList) = some s') :
    s'.networkList = updateWiFiList s.nextId wifiList ∧ s'.manualShow = s.manualShow ∧
      s'.manualName = s.manualName := by
  simp only [pageStep] at h
  split at h
  · cases h
  · cases h
    exact ⟨rfl, rfl, rfl⟩

/-- The click makes one element active, by its number. -/
theorem pageInv_click {i : Nat} (h : PageInv p)
    (hs : pageStep p.1 (.clickItem i) = some s') :
    PageInv (s', p.1.networkList[i]?.map NetworkItem.dataSsid) := by
  simp only [pageStep, Option.map_eq_some_iff] at hs
  obtain ⟨item, hi, rfl⟩ := hs
  rw [hi]
  have hid : (p.1.networkList.map fun x => { x with active := decide (x.id = item.id) }).map
      NetworkItem.id = p.1.networkList.map NetworkItem.id := by
    rw [List.map_map]
    rfl
  refine ⟨by rw [hid]; exact h.ids, ?_, nofun, ?_, fun _ => ⟨rfl, rfl⟩⟩
  · -- Two elements have two numbers.
    have hne : p.1.networkList.Pairwise fun x y => x.id ≠ y.id := List.pairwise_map.mp h.ids
    refine List.pairwise_map.mpr (hne.imp fun hxy => ?_)
    rintro ⟨hx, hy⟩
    exact hxy ((of_decide_eq_true hx).trans (of_decide_eq_true hy).symm)
  · rintro ssid ⟨⟩
    exact ⟨_, List.mem_map_of_mem (List.mem_of_getElem? hi), decide_eq_true rfl, rfl⟩

/-- The toggle clears nothing, since `networkItems` is empty. -/
theorem pageStep_toggleManual :
    pageStep s .toggleManual = some { s with manualShow := !s.manualShow } := by
  simp [pageStep, networkItems_eq]

/-- **A step under the condition.** -/
theorem pageInv_step (h : PageInv p) (hC : PageCond p e)
    (hs : pageStepH p e = some p') : PageInv p' := by
  obtain ⟨s, c⟩ := p
  obtain ⟨s', c'⟩ := p'
  obtain ⟨hs, hc⟩ := withHist_some hs
  subst hc
  cases e with
  | listLoaded wifiList =>
    obtain ⟨hl, hshow, hname⟩ := pageStep_listLoaded hs
    have hnone : c = none := hC
    subst hnone
    have hact (x : NetworkItem) (hx : x ∈ s'.networkList) : x.active = false :=
      active_updateWiFiList (hl ▸ hx)
    refine ⟨?_, pairwise_inactive hact, fun _ => hact, nofun, fun hne => absurd rfl hne⟩
    rw [hl, ids_updateWiFiList]
    exact List.nodup_range'
  | clickItem i => exact pageInv_click h hs
  | toggleManual =>
    rw [pageStep_toggleManual] at hs
    cases hs
    refine ⟨h.ids, h.single, fun hshow => hC ?_, nofun, fun hne => absurd rfl hne⟩
    simpa using hshow
  | typeName name =>
    simp only [pageStep] at hs
    split at hs
    · rename_i hshow
      cases hs
      -- The panel is shown, so no click is remembered.
      have hnone : c = none := by
        by_contra hne
        have hhidden : s.manualShow = false := (h.cleared hne).1
        rw [hhidden] at hshow
        cases hshow
      subst hnone
      exact ⟨h.ids, h.single, h.exclusive, nofun, fun hne => absurd rfl hne⟩
    · cases hs
  | listFailed | typePassword | refresh | submit | timeout => exact pageInv_quiet trivial h hs

/-- **A step against the condition.** -/
theorem not_pageOk_step (h : PageInv p) (hC : ¬ PageCond p e)
    (hs : pageStepH p e = some p') : ¬ PageOk p' := by
  obtain ⟨s, c⟩ := p
  obtain ⟨s', c'⟩ := p'
  obtain ⟨hs, hc⟩ := withHist_some hs
  subst hc
  intro hok
  cases e with
  | listLoaded wifiList =>
    -- The entry that was clicked is gone, and no name is typed.
    obtain ⟨hl, -, hname⟩ := pageStep_listLoaded hs
    obtain ⟨ssid, hc⟩ := Option.ne_none_iff_exists'.mp hC
    have hact (x : NetworkItem) (hx : x ∈ s'.networkList) : x.active = false :=
      active_updateWiFiList (hl ▸ hx)
    have hsub : submitSsid s' = none := by
      rw [submitSsid_manual hact, hname, if_pos (h.cleared hC).2]
    have := submitPosts_iff.mp (hok.clicked ssid hc)
    rw [hsub] at this
    cases this
  | toggleManual =>
    -- The panel opens and the entry stays active.
    rw [pageStep_toggleManual] at hs
    cases hs
    obtain ⟨(hshow : s.manualShow = false), hact⟩ := Classical.not_imp.mp hC
    exact hact (hok.exclusive (by simp only [hshow, Bool.not_false]))
  | listFailed | clickItem | typeName | typePassword | refresh | submit | timeout =>
    exact hC trivial

/-- **The selection is as expected throughout a run exactly if** every event of it meets the
condition: the panel is not opened while an entry is active, and no list arrives after a click. -/
theorem selection_iff (as : List PageEvent) (hr : (runActs pageStepH pageInit as).isSome) :
    Throughout pageStepH PageOk pageInit as ↔ AllSteps pageStepH PageCond pageInit as :=
  throughout_iff (fun _ => PageInv.ok) (fun _ _ _ => pageInv_step) (fun _ _ _ => not_pageOk_step)
    as pageInit pageInv_init hr

/-- A list, a second list that was asked for, a click in it, a typed name, and a submit. -/
def typedRun (home cafe : WifiEntry) : List PageEvent :=
  [.refresh, .listLoaded [home], .listLoaded [home, cafe], .toggleManual, .typeName ['l'],
    .clickItem 1, .typePassword ['p'], .submit]

theorem selection_iff_typedRun :
    Throughout pageStepH PageOk pageInit
        (typedRun ⟨['h'], -40, "开放".toList⟩ ⟨['c'], -80, "WPA2-PSK".toList⟩) ↔
      AllSteps pageStepH PageCond pageInit
        (typedRun ⟨['h'], -40, "开放".toList⟩ ⟨['c'], -80, "WPA2-PSK".toList⟩) :=
  selection_iff _ (by decide +kernel)

/-- A name typed after a click on an entry is not the network that is posted, and a click before the
second of two lists is forgotten. -/
theorem selection_stale :
    (runActs pageStep .loaded [.listLoaded [⟨"home".toList, -40, "开放".toList⟩], .clickItem 0,
        .toggleManual, .typeName "office".toList, .typePassword "secret".toList, .submit]).map
      PageState.posts = some [("home".toList, "secret".toList)] ∧
    (runActs pageStep .loaded [.refresh, .listLoaded [⟨"home".toList, -40, "开放".toList⟩],
        .clickItem 0, .listLoaded [⟨"home".toList, -40, "开放".toList⟩],
        .typePassword "secret".toList, .submit]).map PageState.posts = some [] ∧
    ¬ ∀ as, (runActs pageStepH pageInit as).isSome → Throughout pageStepH PageOk pageInit as := by
  refine ⟨by decide +kernel, by decide +kernel, fun hall => ?_⟩
  have h := hall [.listLoaded [⟨"home".toList, -40, "开放".toList⟩], .clickItem 0, .toggleManual]
    (by decide +kernel)
  refine not_throughout_of_last (f := fun p => (p.1.manualShow, p.1.networkList.any (·.active)))
    (b := (true, true)) (by decide +kernel) ?_ h
  rintro t ht hok
  obtain ⟨hshow, hany⟩ := Prod.mk.inj ht
  obtain ⟨x, hx, ha⟩ := List.any_eq_true.mp hany
  exact absurd ha (by simp [hok.exclusive hshow x hx])

end Gateway.Portal
