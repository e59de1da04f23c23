import Gateway.Lib.JsonText
import Gateway.Lib.Json
import Gateway.Lib.Token
import Gateway.Lib.Decimal

/-!
# `parse_data_to_json`: what is a frame, and what is published for it

Model of `components/uart_handler/uart_handler.c:28-72`. The bytes of an event are copied, closed
with a NUL and cut with `strtok_r` at the colons. The first piece is the key, `atoi` of the second
one is the value. `cJSON` is a parameter; `FramesRoundTrip` is what is assumed of it. What `atoi`
returns for a number outside the range of `int` is a parameter too.

* `parseDataToJson_eq`: the function in terms of the runs between the colons.
* **`frame_grammar`**: a payload is returned exactly for the texts with two runs; its one parameter
  has the first run as its name; and `key:v` yields `key` and `v`.
* **`published_iff`**: what is published is what was received exactly if the value is a number in
  the range of `int`. `published_fraction`: `21.5` is published as 21.
-/

namespace Gateway.Uart

open Gateway.Lib

/-- `":"`. -/
def colon : Byte := 0x3A#8

/-- The tree that is printed. -/
def frameJson (key : List Byte) (value : BitVec 32) : Json :=
  .obj [(utf8 "id", .str (utf8 "123")), (utf8 "version", .str (utf8 "1.0")),
    (utf8 "params", .obj [(key, .obj [(utf8 "value", .number value.toInt 0)])])]

variable (cj : CJson) (overflow : List Byte → BitVec 32)

/-- `parse_data_to_json(data, len)`; `none` is `NULL`. -/
def parseDataToJson (data : List Byte) : Option (List Byte) :=
  let buffer := cStr (data ++ [0])
  let (key, saveptr) := strtokR colon buffer
  let (valueStr, _) := strtokR colon saveptr
  match key, valueStr with
  | some key, some valueStr => some (cj.print (frameJson key (atoi overflow valueStr)))
  | _, _ => none

/-- **What is assumed of `cJSON`**: the tree of a frame is parsed back from its text. -/
def FramesRoundTrip : Prop :=
  ∀ key value, (0 : Byte) ∉ key →
    cj.parse (cj.print (frameJson key value)) = some (frameJson key value)

variable {cj} {overflow}

/-- **The function, by the runs** between the colons. -/
theorem parseDataToJson_eq (cj : CJson) (overflow : List Byte → BitVec 32) (data : List Byte) :
    parseDataToJson cj overflow data =
      match runs colon (cStr data) with
      | key :: valueStr :: _ => some (cj.print (frameJson key (atoi overflow valueStr)))
      | _ => none := by
  obtain ⟨hkey, hrest⟩ := strtokR_spec colon (cStr data)
  obtain ⟨hvalue, -⟩ := strtokR_spec colon (strtokR colon (cStr data)).2
  rw [hrest] at hvalue
  unfold parseDataToJson
  simp only [cStr_append_zero, hkey, hvalue]
  match runs colon (cStr data) with
  | [] => rfl
  | [_] => rfl
  | _ :: _ :: _ => rfl

theorem parseDataToJson_some {data key valueStr : List Byte} {rest : List (List Byte)}
    (h : runs colon (cStr data) = key :: valueStr :: rest) :
    parseDataToJson cj overflow data =
      some (cj.print (frameJson key (atoi overflow valueStr))) := by
  rw [parseDataToJson_eq, h]

/-- A payload comes from two runs. -/
theorem runs_of_payload {data payload : List Byte}
    (h : parseDataToJson cj overflow data = some payload) :
    ∃ key valueStr rest, runs colon (cStr data) = key :: valueStr :: rest ∧
      payload = cj.print (frameJson key (atoi overflow valueStr)) := by
  rw [parseDataToJson_eq] at h
  match hr : runs colon (cStr data), h with
  | key :: valueStr :: rest, h => exact ⟨key, valueStr, rest, rfl, (Option.some.inj h).symm⟩

/-- A key has no NUL. -/
theorem key_notMem {data key valueStr : List Byte} {rest : List (List Byte)}
    (h : runs colon (cStr data) = key :: valueStr :: rest) : (0 : Byte) ∉ key := fun h0 =>
  zero_notMem_cStr data (mem_of_mem_head_runs (by rw [h]; rfl) h0)

theorem payload_iff {data : List Byte} :
    (∃ payload, parseDataToJson cj overflow data = some payload) ↔
      2 ≤ (runs colon (cStr data)).length := by
  constructor
  · rintro ⟨payload, h⟩
    obtain ⟨key, valueStr, rest, hr, -⟩ := runs_of_payload h
    rw [hr]
    exact Nat.le_add_left 2 rest.length
  · intro h
    match hr : runs colon (cStr data), h with
    | key :: valueStr :: rest, _ => exact ⟨_, parseDataToJson_some hr⟩

/-! ## The frames `key:value` -/

theorem colon_notMem_numeral {t : List Byte} {n : Int} (h : Numeral t n) : colon ∉ t := fun hb =>
  not_numeral_of_mem hb (by decide) (by decide) h

theorem zero_notMem_numeral {t : List Byte} {n : Int} (h : Numeral t n) : (0 : Byte) ∉ t :=
  fun hb => not_numeral_of_mem hb (by decide) (by decide) h

/-- **A frame as it is written** yields its key and its number, whatever begins with a colon after
it. -/
theorem runs_frame {key number : List Byte} {n : Int} (hne : key ≠ []) (hcolon : colon ∉ key)
    (h0 : (0 : Byte) ∉ key) (hn : Numeral number n) {rest : List Byte}
    (hrest : rest = [] ∨ ∃ more, rest = colon :: more) :
    ∃ more, runs colon (cStr (key ++ colon :: (number ++ rest))) = key :: number :: more := by
  have hkey : (0 : Byte) ∉ key ++ colon :: number := by
    rw [List.mem_append, List.mem_cons, not_or, not_or]
    exact ⟨h0, by decide, zero_notMem_numeral hn⟩
  rw [← List.cons_append, ← List.append_assoc, cStr_append rest hkey, List.append_assoc,
    List.cons_append, runs_append_cons hcolon hne]
  rcases hrest with rfl | ⟨more, rfl⟩
  · rw [show cStr ([] : List Byte) = [] from rfl, List.append_nil,
      runs_of_notMem (colon_notMem_numeral hn) hn.ne_nil]
    exact ⟨[], rfl⟩
  · rw [cStr, if_neg (by decide), runs_append_cons (colon_notMem_numeral hn) hn.ne_nil]
    exact ⟨_, rfl⟩

theorem atoi_intDecimal (v : BitVec 32) : atoi overflow (intDecimal v.toInt) = v := by
  exact atoi_eq (atoiValue_of_numeral (numeral_intDecimal v.toInt))

/-- **The grammar of frames, and the payload.** For all bytes of an event: a payload is returned if
and only if the text up to the first NUL has at least two non-empty runs of bytes other than `:`.
The payload is then the object with the id, the version and one parameter, whose name is the first
run and whose value is an integer. And `key:v` yields exactly that key and that number, whatever
follows after another colon. -/
theorem frame_grammar (hrt : FramesRoundTrip cj) (overflow : List Byte → BitVec 32)
    (data : List Byte) :
    ((∃ payload, parseDataToJson cj overflow data = some payload) ↔
      2 ≤ (runs colon (cStr data)).length) ∧
    (∀ payload, parseDataToJson cj overflow data = some payload →
      ∃ (key : List Byte) (v : BitVec 32), (runs colon (cStr data)).head? = some key ∧
        cj.parse payload = some (.obj [(utf8 "id", .str (utf8 "123")),
          (utf8 "version", .str (utf8 "1.0")),
          (utf8 "params", .obj [(key, .obj [(utf8 "value", .number v.toInt 0)])])])) ∧
    ∀ (key : List Byte) (v : BitVec 32) (rest : List Byte), key ≠ [] → colon ∉ key →
      (0 : Byte) ∉ key → (rest = [] ∨ ∃ more, rest = colon :: more) →
      data = key ++ colon :: (intDecimal v.toInt ++ rest) →
      ∃ payload, parseDataToJson cj overflow data = some payload ∧
        cj.parse payload = some (.obj [(utf8 "id", .str (utf8 "123")),
          (utf8 "version", .str (utf8 "1.0")),
          (utf8 "params", .obj [(key, .obj [(utf8 "value", .number v.toInt 0)])])]) := by
  refine ⟨payload_iff, fun payload h => ?_, fun key v rest hne hcolon h0 hrest hdata => ?_⟩
  · obtain ⟨key, valueStr, rest, hr, rfl⟩ := runs_of_payload h
    exact ⟨key, _, by rw [hr]; rfl, hrt key _ (key_notMem hr)⟩
  · subst hdata
    obtain ⟨more, hr⟩ := runs_frame hne hcolon h0 (numeral_intDecimal v.toInt) hrest
    refine ⟨_, parseDataToJson_some hr, ?_⟩
    rw [atoi_intDecimal]
    exact hrt key v h0

/-! ## What is published -/

/-- **What is published is what was received**: a payload has the number its value field denotes,
white space aside; and a frame whose value field is no number in the range of `int` is rejected. -/
def PublishesReceived (cj : CJson) (overflow : List Byte → BitVec 32) (data : List Byte) : Prop :=
  (∀ payload, parseDataToJson cj overflow data = some payload →
    ∃ key valueStr rest n, runs colon (cStr data) = key :: valueStr :: rest ∧
      Numeral (trim valueStr) n ∧ InInt n ∧
      cj.parse payload = some (.obj [(utf8 "id", .str (utf8 "123")),
        (utf8 "version", .str (utf8 "1.0")),
        (utf8 "params", .obj [(key, .obj [(utf8 "value", .number n 0)])])])) ∧
  ∀ key valueStr rest, runs colon (cStr data) = key :: valueStr :: rest →
    (¬ ∃ n, Numeral (trim valueStr) n ∧ InInt n) → parseDataToJson cj overflow data = none

/-- **When what is published is what was received.** For all bytes of an event, and whatever `atoi`
returns outside the range of `int`: exactly if there is no value field, or it is an optionally
signed decimal number in the range of `int`, with white space around it or none. -/
theorem published_iff (hrt : FramesRoundTrip cj) (overflow : List Byte → BitVec 32)
    (data : List Byte) :
    PublishesReceived cj overflow data ↔
      ∀ key valueStr rest, runs colon (cStr data) = key :: valueStr :: rest →
        ∃ n, Numeral (trim valueStr) n ∧ InInt n := by
  constructor
  · rintro ⟨-, hreject⟩ key valueStr rest hr
    by_contra hno
    have hnone := hreject key valueStr rest hr hno
    rw [parseDataToJson_some hr] at hnone
    exact absurd hnone (by simp)
  · intro hnum
    refine ⟨fun payload h => ?_, fun key valueStr rest hr hno => absurd (hnum _ _ _ hr) hno⟩
    obtain ⟨key, valueStr, rest, hr, rfl⟩ := runs_of_payload h
    obtain ⟨n, hn, hint⟩ := hnum key valueStr rest hr
    have hval := atoiValue_trim hn
    have hatoi := toInt_atoi overflow (hval ▸ hint)
    rw [hval] at hatoi
    refine ⟨key, valueStr, rest, n, hr, hn, hint, ?_⟩
    rw [hrt key _ (key_notMem hr), frameJson, hatoi]

/-! ## `cJSON` on frames -/

/-- `cJSON_Print` up to the key. -/
def frameHead : List Byte :=
  utf8 "\x7b\n\t\"id\":\t\"123\",\n\t\"version\":\t\"1.0\",\n\t\"params\":\t\x7b\n\t\t\""

/-- From the quote after the key up to the number. -/
def frameMiddle : List Byte := utf8 ":\t\x7b\n\t\t\t\"value\":\t"

def frameTail : List Byte := utf8 "\n\t\t\x7d\n\t\x7d\n\x7d"

def frameText (key : List Byte) (value : Int) : List Byte :=
  frameHead ++ (escape key ++ 0x22#8 :: (frameMiddle ++ (intDecimal value ++ frameTail)))

/-- The frame a text is of. -/
def parseFrame (text : List Byte) : Option Json := do
  let (key, t) ← if frameHead <+: text then readString (text.drop frameHead.length) else none
  if frameMiddle <+: t then
    return frameJson key (BitVec.ofInt 32 (atoiValue (t.drop frameMiddle.length)))
  else none

/-- `cJSON` as far as frames go. -/
def frameCJson : CJson where
  parse := parseFrame
  print
    | .obj [_, _, (_, .obj [(key, .obj [(_, .number value _)])])] => frameText key value
    | _ => []
  getObjectItem
    | .obj members, name => members.lookup name
    | _, _ => none

theorem frameCJson_roundTrip : FramesRoundTrip frameCJson := by
  intro key value _
  show parseFrame (frameText key value.toInt) = _
  have hval := atoiValue_append (numeral_intDecimal value.toInt)
    (show ∀ b ∈ frameTail.head?, isDigit b = false by decide +kernel)
  unfold parseFrame frameText
  rw [if_pos (List.prefix_append _ _), List.drop_append_length, readString_escape]
  simp only [Option.bind_eq_bind, Option.bind_some]
  rw [if_pos (List.prefix_append _ _), List.drop_append_length, hval, BitVec.ofInt_toInt]
  rfl

/-- A reading of -40 degrees. -/
theorem frame_grammar_temp : ∃ payload,
    parseDataToJson frameCJson (fun _ => 0) (utf8 "temp:-40") = some payload ∧
      frameCJson.parse payload = some (frameJson (utf8 "temp") (-40)) :=
  (frame_grammar frameCJson_roundTrip (fun _ => 0) (utf8 "temp:-40")).2.2 (utf8 "temp") (-40) []
    (by decide +kernel) (by decide +kernel) (by decide +kernel) (Or.inl rfl) (by decide +kernel)

theorem runs_temp : runs colon (cStr (utf8 "temp:-40\r\n")) = [utf8 "temp", utf8 "-40\r\n"] := by
  decide +kernel

theorem published_iff_temp :
    PublishesReceived frameCJson (fun _ => 0) (utf8 "temp:-40\r\n") := by
  refine (published_iff frameCJson_roundTrip (fun _ => 0) _).mpr fun key valueStr rest hr => ?_
  rw [runs_temp] at hr
  cases hr
  have htrim : trim (utf8 "-40\r\n") = intDecimal (-40) := by decide +kernel
  exact ⟨-40, htrim ▸ numeral_intDecimal (-40), by decide⟩

/-- What is published for a frame of two runs. -/
theorem parse_payload {data : List Byte} (key valueStr : List Byte) (rest : List (List Byte))
    (hr : runs colon (cStr data) = key :: valueStr :: rest) :
    (parseDataToJson frameCJson overflow data).bind frameCJson.parse =
      some (frameJson key (atoi overflow valueStr)) := by
  rw [parseDataToJson_some hr]
  exact frameCJson_roundTrip key _ (key_notMem hr)

/-- `21.5` is published as 21, and `abc` as 0. -/
theorem published_fraction :
    (parseDataToJson frameCJson (fun _ => 0) (utf8 "temp:21.5")).bind frameCJson.parse =
        some (frameJson (utf8 "temp") 21) ∧
      (parseDataToJson frameCJson (fun _ => 0) (utf8 "temp:abc")).bind frameCJson.parse =
        some (frameJson (utf8 "temp") 0) ∧
      ¬ PublishesReceived frameCJson (fun _ => 0) (utf8 "temp:21.5") := by
  have hr : runs colon (cStr (utf8 "temp:21.5")) = [utf8 "temp", utf8 "21.5"] := by
    decide +kernel
  refine ⟨?_, ?_, ?_⟩
  · rw [parse_payload _ _ _ hr, show atoi (fun _ => 0) (utf8 "21.5") = 21#32 by decide +kernel]
    rfl
  · rw [parse_payload (utf8 "temp") (utf8 "abc") [] (by decide +kernel),
      show atoi (fun _ => 0) (utf8 "abc") = 0#32 by decide +kernel]
    rfl
  · rintro ⟨hpub, -⟩
    obtain ⟨key, valueStr, rest, n, hr', hn, -⟩ := hpub _ (parseDataToJson_some hr)
    rw [hr] at hr'
    cases hr'
    exact not_numeral_of_mem (t := trim (utf8 "21.5")) (b := 0x2E#8) (by decide +kernel)
      (by decide) (by decide) hn

end Gateway.Uart
