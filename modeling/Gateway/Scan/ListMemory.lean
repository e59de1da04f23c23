import Gateway.Lib.CJsonHeap
import Gateway.Scan.WifiList

/-!
# The memory of `get_wifi_list_json`

`components/scan/scan.c:158-187` once more, over the records it goes over, with the trees that are
built and deleted and with the calls that find no memory; the source looks at none of them. A list
that could not be created takes no item, and an object that could not be created takes no list.
`cJSON` is a parameter (`CJsonMem`); `enough` says that every call finds memory.

* `partialItem`, `addItems`: the object of a record and the loop.
* **`getWifiListJsonMem_meets`**: whatever finds memory, what is obtained is released, but for the
  text and the items nothing took; and if every call does, the text is that of `getWifiListJson`.
-/

namespace Gateway.Scan

open Gateway.Lib

/-- A member, if it was added. -/
def fieldIf (added : Bool) (name : String) (v : Json) : List (List Byte × Json) :=
  if added then [(utf8 name, v)] else []

/-- The object of one record, by what was added. -/
def partialItem (r : ApRecord) (hasSsid hasRssi hasChannel hasAuth : Bool) : Json :=
  .obj (fieldIf hasSsid "ssid" (.str (cStr r.ssid.bytes)) ++
    fieldIf hasRssi "rssi" (.number r.rssi.toInt 0) ++
    fieldIf hasChannel "channel" (.number r.primary.toNat 0) ++
    fieldIf hasAuth "auth_mode" (.str (utf8 (authModeStr r.authmode))))

theorem partialItem_all (r : ApRecord) : partialItem r true true true true = apItem r := rfl

variable (cm : CJsonMem) (cj : CJson)

/-- The loop: what the array holds afterwards. -/
def addItems (wifiList : Option Nat) : List ApRecord → HeapM (List Json)
  | [] => return []
  | r :: rs => do
    let item ← cm.createItem
    let hasSsid ← cm.addMember item
    let hasRssi ← cm.addMember item
    let hasChannel ← cm.addMember item
    let hasAuth ← cm.addMember item
    let hasItem ← cm.append wifiList item
    let items ← addItems wifiList rs
    return (if hasItem then [partialItem r hasSsid hasRssi hasChannel hasAuth] else []) ++ items

/-- `get_wifi_list_json()`. -/
def getWifiListJsonMem (rs : List ApRecord) : HeapM (Option Text) := do
  let root ← cm.createItem
  let wifiList ← cm.createItem
  let items ← addItems cm wifiList rs
  let hasList ← cm.addItem root wifiList
  let jsonStr ← cm.printItem root (cj.print (.obj (fieldIf hasList "wifi_list" (.arr items))))
  cm.deleteTree root
  return jsonStr

variable {cm} {cj} {enough : Prop} {rs live : List Nat}

/-- **The loop**: it leaves no tree of its own but the refused ones. -/
theorem addItems_meets (hcm : cm.Sound enough) {root wifiList : Option Nat}
    (hlist : enough → wifiList ≠ none) (hlive : ∀ p ∈ wifiList, p ∈ live)
    (records : List ApRecord) :
    Meets (Owns enough (wifiList.toList ++ (root.toList ++ rs)) live) (addItems cm wifiList records)
      fun items s => Owns enough (wifiList.toList ++ (root.toList ++ rs)) live s ∧
        (enough → items = records.map apItem) := by
  induction records with
  | nil => exact Meets.pure fun s hs => ⟨hs, fun _ => rfl⟩
  | cons r records ih =>
    unfold addItems
    refine hcm.createItem_owns.bind_fact fun item hitem => ?_
    have hin : ∀ p ∈ item, p ∈ item.toList ++ live := fun p hp =>
      List.mem_append_left _ (Option.mem_toList.mpr hp)
    have hin' : ∀ p ∈ wifiList, p ∈ item.toList ++ live := fun p hp =>
      List.mem_append_right _ (hlive p hp)
    refine (hcm.addMember _ hin).bind_fact fun hasSsid h₁ => ?_
    refine (hcm.addMember _ hin).bind_fact fun hasRssi h₂ => ?_
    refine (hcm.addMember _ hin).bind_fact fun hasChannel h₃ => ?_
    refine (hcm.addMember _ hin).bind_fact fun hasAuth h₄ => ?_
    refine ((hcm.append (wifiList.toList ++ (root.toList ++ rs)) hin').strengthen
      fun s hs => ?_).bind_fact fun hasItem h₅ => ?_
    · refine ⟨hs, fun hnone hall => hlist hall hnone, ?_⟩
      rintro p hp c hc
      cases hc
      have hp' : p ∈ wifiList.toList ++ (root.toList ++ rs) :=
        List.mem_append_left _ (Option.mem_toList.mpr hp)
      exact hs.apart hp'
    refine (ih.strengthen fun s hs => hs.mono fun x hx => List.mem_append_right _ hx).bind_fact
      fun items hitems => Meets.pure fun s hs => ⟨hs, fun hall => ?_⟩
    have hne := hitem hall
    rw [h₁ hall hne, h₂ hall hne, h₃ hall hne, h₄ hall hne, h₅ hall hne, hitems hall,
      partialItem_all]
    rfl

/-- **What `get_wifi_list_json` does to the heap.** Every block it obtained is released, but for the
text's and those of the items nothing took. If every call finds memory, then the text is that of the
list of the records. -/
theorem getWifiListJsonMem_meets (hcm : cm.Sound enough) (records : List ApRecord) :
    Meets (Owns enough rs []) (getWifiListJsonMem cm cj records) fun r s =>
      Owns enough ((r.map Text.block).toList ++ rs) [] s ∧ (enough →
        r.map Text.chars = some (cj.print (wifiList records))) := by
  unfold getWifiListJsonMem
  refine hcm.createItem_owns.bind_fact fun root hroot => ?_
  refine hcm.createItem_owns.bind_fact fun wifiList hlist => ?_
  have hroot' : ∀ p ∈ root, p ∈ wifiList.toList ++ (root.toList ++ []) := fun p hp =>
    List.mem_append_right _ (List.mem_append_left _ (Option.mem_toList.mpr hp))
  have hlist' : ∀ p ∈ wifiList, p ∈ wifiList.toList ++ (root.toList ++ []) := fun p hp =>
    List.mem_append_left _ (Option.mem_toList.mpr hp)
  refine (addItems_meets hcm hlist hlist' records).bind_fact fun items hitems => ?_
  refine ((hcm.addItem (root.toList ++ rs) hroot').strengthen fun s hs => ?_).bind_fact
    fun hasList h₁ => ?_
  · refine ⟨hs, fun hnone hall => hroot hall hnone, ?_⟩
    rintro p hp c hc
    cases hc
    have hp' : p ∈ root.toList ++ rs := List.mem_append_left _ (Option.mem_toList.mpr hp)
    exact hs.apart hp'
  refine (hcm.printItem _ hroot' _).bind_fact fun t ht => ?_
  refine ((hcm.deleteTree _ _ root).strengthen fun s hs =>
    hs.perm (List.perm_append_comm_assoc _ _ _)).bind fun _ => ?_
  refine Meets.pure fun s hs => ⟨hs, fun hall => ?_⟩
  obtain ⟨u, rfl⟩ := Option.ne_none_iff_exists'.mp (ht.2 hall (hroot hall))
  rw [Option.map_some, ht.1 u rfl, h₁ hall (hlist hall), hitems hall]
  rfl

end Gateway.Scan
