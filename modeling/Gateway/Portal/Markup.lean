import Gateway.Lib.Html
import Gateway.Lib.Utf8
import Gateway.Portal.Join
import Gateway.Portal.Page

/-!
# The portal page: an SSID in markup

What a broadcast SSID does to the markup of its list entry: from the record, through the JSON text
of `get_wifi_list_json` and the page's `JSON.parse`, to the string that `updateWiFiList`
(`main/root.html:560-596`) assigns to `innerHTML`. In the same loop `setAttribute` takes the SSID as
text.

The browser is a parameter: `readList` is what `JSON.parse` makes of a text, read at `wifi_list`
(`ListRead`: the strings come back, decoded), and `refs` are the character references.

* `EntrySafe`: what is expected of an entry: the brackets and tags of one with no SSID, and the SSID
  shown as text. `entrySafe_iff`: when that is so.
* **`markup_iff`**: every entry of a list is as expected exactly if no SSID of the records holds an
  angle bracket, a carriage return or a character reference. `markup_injected`: one that makes an
  element, and one that shows as something else.
-/

namespace Gateway.Portal

open Gateway.Lib Gateway.Scan

/-! ## From the record to the entry -/

/-- The SSID as the page sees it: the bytes before the first zero, decoded. -/
def ssidText (r : ApRecord) : List Char := utf8Decode (cStr r.ssid.bytes)

/-- The entry that the page reads of a record. -/
def entryOf (r : ApRecord) : WifiEntry :=
  ⟨ssidText r, r.rssi.toInt, (authModeStr r.authmode).toList⟩

/-- **What a browser reads of the printed list**: its entries. -/
def ListRead (cj : CJson) (readList : List Byte → Option (List WifiEntry)) (rs : List ApRecord) :
    Prop :=
  readList (cj.print (wifiList rs)) = some (rs.map entryOf)

/-! ## What is expected of an entry -/

/-- **What is expected of an entry's markup**: the angle brackets and the tags are those of an entry
with no SSID, and the text after the icon is the SSID. -/
structure EntrySafe (refs : CharRefs) (e : WifiEntry) : Prop where
  brackets : angles (itemHtml e) = angles (itemHtml { e with ssid := [] })
  elements : tags (itemHtml e) = tags (itemHtml { e with ssid := [] })
  shown : (texts (itemHtml e))[3]?.map refs.resolve = some (' ' :: e.ssid)

theorem angles_signalIcon (rssi : Int) : angles (signalIcon rssi) = [] := by
  unfold signalIcon
  split_ifs <;> decide +kernel

theorem angles_authModeStr (m : AuthMode) : angles (authModeStr m).toList = [] := by
  cases m <;> decide +kernel

/-- The runs of an entry whose texts hold no angle bracket. -/
theorem pieces_itemHtml {e : WifiEntry} (hs : angles e.ssid = []) (ha : angles e.authMode = []) :
    pieces (itemHtml e) = ("\n                        ".toList,
      ["span class=\"network-name\"".toList, [], "i".toList, signalIcon e.rssi, "/i".toList,
        ' ' :: e.ssid, "/span".toList, "\n                        ".toList,
        "span class=\"network-strength\"".toList, e.authMode, "/span".toList,
        "\n                    ".toList]) := by
  have h1 : pieces "\n                        <span class=\"network-name\"><i>".toList =
      ("\n                        ".toList,
        ["span class=\"network-name\"".toList, [], "i".toList, []]) := by decide +kernel
  have h2 : pieces "</i> ".toList = ([], ["/i".toList, [' ']]) := by decide +kernel
  have h3 : pieces "</span>\n                        <span class=\"network-strength\">".toList =
      ([], ["/span".toList, "\n                        ".toList,
        "span class=\"network-strength\"".toList, []]) := by decide +kernel
  have h4 : pieces "</span>\n                    ".toList =
      ([], ["/span".toList, "\n                    ".toList]) := by decide +kernel
  unfold itemHtml
  rw [pieces_append, h1, pieces_append, pieces_text (angles_signalIcon _), pieces_append, h2,
    pieces_append, pieces_text hs, pieces_append, h3, pieces_append, pieces_text ha, h4]
  simp only [joinRuns, List.nil_append, List.append_nil, List.singleton_append]

/-- Only an SSID without angle brackets leaves the brackets as they are. -/
theorem angles_itemHtml_iff (e : WifiEntry) :
    angles (itemHtml e) = angles (itemHtml { e with ssid := [] }) ↔ angles e.ssid = [] := by
  have hmiddle (a b c s d : List Char) :
      angles (a ++ (b ++ (c ++ (s ++ d)))) = angles (a ++ (b ++ (c ++ ([] ++ d)))) ↔
        angles s = [] := by
    simp only [angles_append, List.append_cancel_left_eq, List.nil_append,
      List.append_left_eq_self]
  exact hmiddle _ _ _ e.ssid _

/-- The tags of the template. -/
theorem tags_itemHtml {e : WifiEntry} (hs : angles e.ssid = []) (ha : angles e.authMode = []) :
    tags (itemHtml e) = ["span class=\"network-name\"".toList, "i".toList, "/i".toList,
      "/span".toList, "span class=\"network-strength\"".toList, "/span".toList] := by
  rw [tags, pieces_itemHtml hs ha]
  rfl

/-- The text after the icon. -/
theorem texts_itemHtml {e : WifiEntry} (hs : angles e.ssid = []) (ha : angles e.authMode = []) :
    (texts (itemHtml e))[3]? = some (' ' :: e.ssid) := by
  rw [texts, pieces_itemHtml hs ha]
  rfl

/-- **When an entry is as expected.** -/
theorem entrySafe_iff {refs : CharRefs} {e : WifiEntry} (ha : angles e.authMode = []) :
    EntrySafe refs e ↔ angles e.ssid = [] ∧ refs.Plain e.ssid := by
  have hcr : ' ' ≠ '\r' := by decide
  have hamp : ' ' ≠ '&' := by decide
  have hshown (hs : angles e.ssid = []) : (texts (itemHtml e))[3]?.map refs.resolve =
      some (' ' :: e.ssid) ↔ refs.Plain e.ssid := by
    rw [texts_itemHtml hs ha, Option.map_some, Option.some_inj, CharRefs.resolve_eq_iff,
      CharRefs.plain_cons]
    exact ⟨fun h => h.2.2, fun h => ⟨hcr, fun h' => absurd h' hamp, h⟩⟩
  constructor
  · intro h
    have hs := (angles_itemHtml_iff e).mp h.brackets
    exact ⟨hs, (hshown hs).mp h.shown⟩
  · rintro ⟨hs, hplain⟩
    refine ⟨(angles_itemHtml_iff e).mpr hs, ?_, (hshown hs).mpr hplain⟩
    rw [tags_itemHtml hs ha]
    exact (tags_itemHtml (e := { e with ssid := [] }) rfl ha).symm

/-! ## A list -/

/-- **The condition on an SSID**: up to its first zero byte, no angle bracket, and no carriage
return and no character reference in its text. -/
def SsidPlain (refs : CharRefs) (r : ApRecord) : Prop :=
  0x3C#8 ∉ cStr r.ssid.bytes ∧ 0x3E#8 ∉ cStr r.ssid.bytes ∧ refs.Plain (ssidText r)

theorem entryOf_safe_iff {refs : CharRefs} (r : ApRecord) :
    EntrySafe refs (entryOf r) ↔ SsidPlain refs r := by
  have hlt : '<' ∈ ssidText r ↔ 0x3C#8 ∈ cStr r.ssid.bytes := mem_utf8Decode (by decide) _
  have hgt : '>' ∈ ssidText r ↔ 0x3E#8 ∈ cStr r.ssid.bytes := mem_utf8Decode (by decide) _
  rw [entrySafe_iff (angles_authModeStr r.authmode), entryOf, angles_eq_nil_iff, hlt, hgt,
    and_assoc]
  rfl

/-- **Every entry of a list is as expected exactly if** no SSID of the records holds an angle
bracket, a carriage return or a character reference. -/
theorem markup_iff (cj : CJson) (readList : List Byte → Option (List WifiEntry)) (refs : CharRefs)
    (t : ApInfo) (count : Nat) (tree : Json) (htree : getWifiListJson t count = .ok tree)
    (hread : ListRead cj readList (t.records.take count)) :
    (∃ entries, readList (cj.print tree) = some entries ∧ ∀ e ∈ entries, EntrySafe refs e) ↔
      ∀ r ∈ t.records.take count, SsidPlain refs r := by
  have hentries : readList (cj.print tree) = some ((t.records.take count).map entryOf) := by
    rw [getWifiListJson_eq htree]
    exact hread
  constructor
  · rintro ⟨entries, he, hsafe⟩ r hr
    cases he.symm.trans hentries
    exact (entryOf_safe_iff r).mp (hsafe _ (List.mem_map_of_mem hr))
  · intro h
    refine ⟨_, hentries, fun e he => ?_⟩
    obtain ⟨r, hr, rfl⟩ := List.mem_map.mp he
    exact (entryOf_safe_iff r).mpr (h r hr)

/-- Three of the character references. -/
def basicRefs : CharRefs where
  ref
    | 'l' :: 't' :: ';' :: _ => some (['<'], 3)
    | 'g' :: 't' :: ';' :: _ => some (['>'], 3)
    | 'a' :: 'm' :: 'p' :: ';' :: _ => some (['&'], 4)
    | _ => none
  shorter := by
    intro t shown k h
    split at h <;> cases h <;> simp only [List.length_cons, List.length_nil] <;> omega

/-- What a browser reads of the list of an access point `net`. -/
def netRead (text : List Byte) : Option (List WifiEntry) :=
  if text = oneApText (utf8 "net") then some [⟨"net".toList, -60, "WPA2-PSK".toList⟩] else none

theorem markup_iff_net :
    (∃ entries, netRead ((oneApCJson (utf8 "net") []).print (wifiList [apNamed (utf8 "net")])) =
        some entries ∧ ∀ e ∈ entries, EntrySafe basicRefs e) ↔
      ∀ r ∈ (oneAp (utf8 "net")).records.take 1, SsidPlain basicRefs r :=
  markup_iff (oneApCJson (utf8 "net") []) netRead basicRefs _ 1 _
    (getWifiListJson_ok (oneAp (utf8 "net")) (by decide)) (by unfold ListRead; decide +kernel)

/-- An SSID that makes an element, which runs a script, and one that shows as something else. -/
theorem markup_injected :
    getWifiListJson (oneAp (utf8 "<img src=x onerror=alert(1)>")) 1 =
        .ok (wifiList [apNamed (utf8 "<img src=x onerror=alert(1)>")]) ∧
      "img src=x onerror=alert(1)".toList ∈
        tags (itemHtml (entryOf (apNamed (utf8 "<img src=x onerror=alert(1)>")))) ∧
      angles (itemHtml (entryOf (apNamed (utf8 "<img src=x onerror=alert(1)>")))) ≠
        angles (itemHtml (entryOf (apNamed (utf8 "net")))) ∧
      (texts (itemHtml (entryOf (apNamed (utf8 "a&lt;b")))))[3]?.map basicRefs.resolve =
        some " a<b".toList ∧
      ¬ EntrySafe basicRefs (entryOf (apNamed (utf8 "<img src=x onerror=alert(1)>"))) ∧
      ¬ EntrySafe basicRefs (entryOf (apNamed (utf8 "a&lt;b"))) := by
  refine ⟨getWifiListJson_ok (oneAp _) (by decide), by decide +kernel, by decide +kernel,
    by decide +kernel, fun h => ?_, fun h => ?_⟩
  · exact absurd h.brackets (by decide +kernel)
  · exact absurd h.shown (by decide +kernel)

end Gateway.Portal
