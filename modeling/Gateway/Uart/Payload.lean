import Gateway.Lib.CJsonHeap
import Gateway.Uart.Frame

/-!
# The memory of `parse_data_to_json`

`components/uart_handler/uart_handler.c:28-73` once more, with the tree that is built and deleted
and with the calls that find no memory. The source looks at three of them: the objects that are
created. Whether a member was added it does not look at, and prints what there is. `cJSON` is a
parameter (`CJsonMem`); `enough` says that every call finds memory.

* `partialFrame`: the tree that is printed. `partialFrame_all`: with every member it is `frameJson`.
* **`parseDataToJson_meets`**: whatever finds memory, what is obtained is released, but for the
  payload and the items no object took; and if every call does, the payload is the one of
  `parseDataToJson`.
-/

namespace Gateway.Uart

open Gateway.Lib

/-- A member, if it was added. -/
def memberIf (added : Bool) (name : List Byte) (v : Json) : List (List Byte × Json) :=
  if added then [(name, v)] else []

/-- The tree `root` when it is printed, by what was added. -/
def partialFrame (key : List Byte) (value : BitVec 32)
    (hasId hasVersion hasParams hasProperty hasValue : Bool) : Json :=
  let property := Json.obj (memberIf hasValue (utf8 "value") (.number value.toInt 0))
  let params := Json.obj (memberIf hasProperty key property)
  .obj (memberIf hasId (utf8 "id") (.str (utf8 "123")) ++
    memberIf hasVersion (utf8 "version") (.str (utf8 "1.0")) ++
    memberIf hasParams (utf8 "params") params)

theorem partialFrame_all (key : List Byte) (value : BitVec 32) :
    partialFrame key value true true true true true = frameJson key value := rfl

variable (cm : CJsonMem) (cj : CJson) (overflow : List Byte → BitVec 32)

/-- `parse_data_to_json(data, len)`, from `atoi` on. -/
def buildFrame (key valueStr : List Byte) : HeapM (Option Text) := do
  let value := atoi overflow valueStr
  let root ← cm.createItem
  if root = none then return none else
  let hasId ← cm.addMember root
  let hasVersion ← cm.addMember root
  let params ← cm.createItem
  if params = none then
    cm.deleteTree root
    return none
  else
  let hasParams ← cm.addItem root params
  let propertyObj ← cm.createItem
  if propertyObj = none then
    cm.deleteTree root
    return none
  else
  let hasProperty ← cm.addItem params propertyObj
  let hasValue ← cm.addMember propertyObj
  let jsonString ← cm.printItem root
    (cj.print (partialFrame key value hasId hasVersion hasParams hasProperty hasValue))
  cm.deleteTree root
  return jsonString

/-- `parse_data_to_json(data, len)`. -/
def parseDataToJsonMem (data : List Byte) : HeapM (Option Text) :=
  let buffer := cStr (data ++ [0])
  let (key, saveptr) := strtokR colon buffer
  let (valueStr, _) := strtokR colon saveptr
  match key, valueStr with
  | some key, some valueStr => buildFrame cm cj overflow key valueStr
  | _, _ => return none

variable {cm} {cj} {overflow} {enough : Prop} {rs : List Nat}

/-- `cJSON_Print` and `cJSON_Delete` of what was built. -/
theorem printAndDelete_meets (hcm : cm.Sound enough) {r : Nat} {live : List Nat}
    (hlive : r ∈ live) (text : List Byte) :
    Meets (Owns enough (r :: rs) live)
      (do
        let jsonString ← cm.printItem (some r) text
        cm.deleteTree (some r)
        return jsonString)
      fun t s => Owns enough ((t.map Text.block).toList ++ rs) [] s ∧
        (enough → t.map Text.chars = some text) := by
  have hr : ∀ p ∈ some r, p ∈ live := fun p hp => by cases hp; exact hlive
  refine (hcm.printItem (r :: rs) hr text).bind_fact fun t ht => ?_
  refine ((hcm.deleteTree _ live (some r)).strengthen fun s hs =>
    hs.perm List.perm_middle).bind fun _ => ?_
  refine Meets.pure fun s hs => ⟨hs, fun hall => ?_⟩
  obtain ⟨u, rfl⟩ := Option.ne_none_iff_exists'.mp (ht.2 hall (Option.some_ne_none r))
  rw [Option.map_some, ht.1 u rfl]

theorem buildFrame_meets (hcm : cm.Sound enough) (key valueStr : List Byte) :
    Meets (Owns enough rs []) (buildFrame cm cj overflow key valueStr) fun r s =>
      Owns enough ((r.map Text.block).toList ++ rs) [] s ∧ (enough →
        r.map Text.chars = some (cj.print (frameJson key (atoi overflow valueStr)))) := by
  unfold buildFrame
  refine hcm.createItem_owns.bind_fact fun root hroot =>
    Meets.ite (fun hnone => ?_) fun hsome => ?_
  · subst hnone
    exact Meets.pure fun s hs => ⟨hs, fun hall => absurd rfl (hroot hall)⟩
  obtain ⟨r, rfl⟩ := Option.ne_none_iff_exists'.mp hsome
  have hr : ∀ p ∈ some r, p ∈ [r] := fun p hp => by cases hp; exact List.mem_cons_self
  refine (hcm.addMember _ hr).bind_fact fun hasId hid => ?_
  refine (hcm.addMember _ hr).bind_fact fun hasVersion hversion => ?_
  refine (hcm.createItem _ _).bind_fact fun params hparams =>
    Meets.ite (fun hnone => ?_) fun hsome' => ?_
  · subst hnone
    refine ((hcm.deleteTree rs _ (some r)).strengthen fun s hs => hs.1).bind fun _ =>
      Meets.pure fun s hs => ?_
    exact ⟨hs, fun hall => absurd rfl (hparams hall)⟩
  obtain ⟨c, rfl⟩ := Option.ne_none_iff_exists'.mp hsome'
  have hr' : ∀ p ∈ some r, p ∈ [c, r] := fun p hp => List.mem_cons_of_mem c (hr p hp)
  refine ((hcm.addItem (r :: rs) hr').strengthen fun s hs => ?_).bind_fact
    fun hasParams hadded => ?_
  · refine ⟨hs.1, fun h => absurd h hsome, ?_⟩
    intro p hp x hx
    exact hs.2 x hx p (hr p hp)
  refine (hcm.createItem _ _).bind_fact fun propertyObj hproperty =>
    Meets.ite (fun hnone => ?_) fun hsome'' => ?_
  · subst hnone
    refine ((hcm.deleteTree rs _ (some r)).strengthen fun s hs => hs.1).bind fun _ =>
      Meets.pure fun s hs => ?_
    exact ⟨hs, fun hall => absurd rfl (hproperty hall)⟩
  obtain ⟨o, rfl⟩ := Option.ne_none_iff_exists'.mp hsome''
  have hc : ∀ p ∈ some c, p ∈ [o, c, r] := fun p hp => by cases hp; simp
  have ho : ∀ p ∈ some o, p ∈ [o, c, r] := fun p hp => by cases hp; simp
  refine ((hcm.addItem (r :: rs) hc).strengthen fun s hs => ?_).bind_fact
    fun hasProperty hadded' => ?_
  · refine ⟨hs.1, fun h => absurd h hsome', ?_⟩
    intro p hp x hx
    cases hp
    exact hs.2 x hx c List.mem_cons_self
  refine (hcm.addMember _ ho).bind_fact fun hasValue hvalue => ?_
  refine (printAndDelete_meets hcm (by simp) _).weaken fun t s h => ⟨h.1, fun hall => ?_⟩
  rw [h.2 hall, hid hall hsome, hversion hall hsome, hadded hall hsome', hadded' hall hsome'',
    hvalue hall hsome'', partialFrame_all]

/-- **What `parse_data_to_json` does to the heap.** Every block it obtained is released, but for the
payload's and those of the items no object took. If every call finds memory, then the payload is
that of `parseDataToJson`. -/
theorem parseDataToJson_meets (hcm : cm.Sound enough) (data : List Byte) :
    Meets (Owns enough rs []) (parseDataToJsonMem cm cj overflow data) fun r s =>
      Owns enough ((r.map Text.block).toList ++ rs) [] s ∧ (enough →
        r.map Text.chars = parseDataToJson cj overflow data) := by
  unfold parseDataToJsonMem parseDataToJson
  simp only
  cases (strtokR colon (cStr (data ++ [0]))).1 with
  | none => exact Meets.pure fun s hs => ⟨hs, fun _ => rfl⟩
  | some key =>
    cases (strtokR colon (strtokR colon (cStr (data ++ [0]))).2).1 with
    | none => exact Meets.pure fun s hs => ⟨hs, fun _ => rfl⟩
    | some valueStr => exact buildFrame_meets hcm key valueStr

end Gateway.Uart
