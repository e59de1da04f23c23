import Gateway.Lib.CStr

/-!
# JSON trees and the cJSON calls over them

`Json` is the tree `cJSON` builds. The library itself is not under the repository: `CJson` is the
part of it the handlers call, as functions. `CJson.Ignores` and `CJson.ObjectsOnly` are what is
documented about `cJSON_Parse`, which reads one value and ignores what follows it, and about
`cJSON_GetObjectItem`, which finds members of objects.
-/

namespace Gateway.Lib

/-- A JSON tree. A number is `mantissa * 10 ^ exponent`; a string is its bytes. -/
inductive Json where
  | null
  | bool (b : Bool)
  | number (mantissa exponent : Int)
  | str (s : List Byte)
  | arr (items : List Json)
  | obj (members : List (List Byte × Json))

/-- `valuestring`: `none` is `NULL`, for what is not a string. -/
def Json.valuestring : Json → Option (List Byte)
  | .str s => some (cStr s)
  | _ => none

/-- The calls into `cJSON`. -/
structure CJson where
  /-- `cJSON_Parse` on a C string. -/
  parse : List Byte → Option Json
  /-- `cJSON_Print`. -/
  print : Json → List Byte
  /-- `cJSON_GetObjectItem`. -/
  getObjectItem : Json → List Byte → Option Json

/-- **What `cJSON_Parse` ignores.** A text that parses goes on parsing when more follows it, and
to a value with the same members. (The value itself may differ: a number goes on.) -/
def CJson.Ignores (cj : CJson) : Prop :=
  ∀ text v, cj.parse text = some v → ∀ more, ∃ v', cj.parse (text ++ more) = some v' ∧
    ∀ name, cj.getObjectItem v' name = cj.getObjectItem v name

/-- **Where `cJSON_GetObjectItem` finds something**: in an object. -/
def CJson.ObjectsOnly (cj : CJson) : Prop :=
  ∀ v name item, cj.getObjectItem v name = some item → ∃ members, v = .obj members

end Gateway.Lib
