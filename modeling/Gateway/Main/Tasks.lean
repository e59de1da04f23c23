import Gateway.Lib.Simulation
import Gateway.Mqtt.Client
import Gateway.Scan.ListMemory
import Gateway.Uart.Payload
import Gateway.Uart.Segments

/-!
# The tasks past `app_main`, and what they share

`app_main` ends with `mqtt_app_start()` and `uart_handler_init(mqtt_publish_data)`. From then on the
UART task takes events and calls `mqtt_publish_data` with each payload, the MQTT client hands out
events, and the web server, which was there before, serves the list and the form. They share
`client`, the broker's connection and the heap; each makes its steps between any two steps of the
others. A request is one step. `cJSON` is a parameter; `enough` says that every call finds memory.

What a POST does to the heap depends on what is in its body (`Posted`). A body of more than 1024
bytes has no case there: it overflows `content`, and nothing is known of the heap from then on. So
the runs are those without such a POST.

The callback is a step of its own: between `parse_data_to_json` and the return of the callback the
UART task holds the payload and takes no event, while interrupts go on.

* `tasksStep`: the steps. `TasksInv`: the invariant.
* **`memory_owned`**: no block is used or released after it was released, and the trees left are the
  payload in the callback and the items no object took.
* **`published_in_order`**: what was published is what `parse_data_to_json` returned, in order, each
  once, all of it by the one client, on the one topic; or nothing if there is no client.
* **`frames_published`**: so for frames that the events keep apart there is one message each, if
  `esp_mqtt_client_init` returned a client.
-/

namespace Gateway.Main

open Gateway.Lib Gateway.Mqtt Gateway.Uart Gateway.Scan

/-! ## The handlers on the heap -/

section Handlers

variable (cm : CJsonMem) (cj : CJson)

/-- `data_callback(json_payload)` and `free(json_payload)`. The client copies the text. -/
def callbackMem (client : Option Client) (t : Text) : HeapM Unit := do
  if client = none then freeBlock t.block else
  useBlock t.block
  freeBlock t.block

/-- `wifi_list_get_handler`: the text that is sent, or `none` for the status 500. -/
def wifiListGetMem (records : List ApRecord) : HeapM (Option (List Byte)) := do
  let jsonStr ← getWifiListJsonMem cm cj records
  match jsonStr with
  | none => return none
  | some t =>
    useBlock t.block
    freeBlock t.block
    return some t.chars

/-- What is in the body of a POST of at most 1024 bytes. -/
inductive Posted where
  | notJson
  | missing
  /-- Both members are there, but one is not a string: its `valuestring` is `NULL`. -/
  | notString
  | complete
  deriving DecidableEq

/-- `wifi_config_post_handler`: whether it ends in a reset, by `esp_restart` or, for a read through
`NULL`, by the exception. The text of the response is not released. -/
def wifiConfigPostMem (text : List Byte) (p : Posted) : HeapM Bool := do
  if p = .notJson then return false else
  let root ← cm.parseItem
  if root = none then return false else
  if p = .missing then
    cm.deleteTree root
    return false
  else
  if p = .notString then return true else
  let response ← cm.createItem
  let _ ← cm.addMember response
  let _ ← cm.addMember response
  let _ ← cm.printItem response text
  cm.deleteTree response
  return true

variable {cm} {cj} {enough : Prop} {rs : List Nat}

theorem callbackMem_meets (client : Option Client) (t : Text) :
    Meets (Owns enough (t.block :: rs) []) (callbackMem client t)
      fun _ s => Owns enough rs [] s := by
  unfold callbackMem
  refine Meets.ite (fun _ => freeBlock_meets) fun _ => ?_
  exact (useBlock_meets List.mem_cons_self).bind fun _ => freeBlock_meets

theorem wifiListGetMem_meets (hcm : cm.Sound enough) (records : List ApRecord) :
    Meets (Owns enough rs []) (wifiListGetMem cm cj records) fun r s =>
      Owns enough rs [] s ∧ (enough → r = some (cj.print (wifiList records))) := by
  unfold wifiListGetMem
  refine (getWifiListJsonMem_meets hcm records).bind_fact fun jsonStr hjson => ?_
  cases jsonStr with
  | none => exact Meets.pure fun s hs => ⟨hs, hjson⟩
  | some t =>
    refine (useBlock_meets List.mem_cons_self).bind fun _ => ?_
    exact freeBlock_meets.bind fun _ => Meets.pure fun s hs => ⟨hs, hjson⟩

theorem wifiConfigPostMem_meets (hcm : cm.Sound enough) (text : List Byte) (p : Posted) :
    Meets (Owns enough rs []) (wifiConfigPostMem cm text p) fun restart s =>
      ∃ rs', Owns enough rs' [] s ∧ (restart = false → rs' = rs) := by
  unfold wifiConfigPostMem
  refine Meets.ite (fun _ => Meets.pure fun s hs => ⟨rs, hs, fun _ => rfl⟩) fun _ => ?_
  refine (hcm.parseItem rs []).bind fun root => Meets.ite (fun hnone => ?_) fun _ =>
    Meets.ite (fun _ => ?_) fun _ => Meets.ite (fun _ => ?_) fun _ => ?_
  · subst hnone
    exact Meets.pure fun s hs => ⟨rs, hs, fun _ => rfl⟩
  · exact (hcm.deleteTree rs _ root).bind fun _ => Meets.pure fun s hs => ⟨rs, hs, fun _ => rfl⟩
  · exact Meets.pure fun s hs =>
      ⟨_, hs.mono fun x hx => absurd hx List.not_mem_nil, fun h => absurd h (by simp)⟩
  refine hcm.createItem_owns.bind_fact fun response _ => ?_
  have hin : ∀ q ∈ response, q ∈ response.toList ++ (root.toList ++ []) := fun q hq =>
    List.mem_append_left _ (Option.mem_toList.mpr hq)
  refine (hcm.addMember _ hin).bind_fact fun _ _ => ?_
  refine (hcm.addMember _ hin).bind_fact fun _ _ => ?_
  refine (hcm.printItem _ hin text).bind_fact fun t _ => ?_
  refine ((hcm.deleteTree _ _ response).strengthen fun s hs =>
    hs.perm (List.perm_append_comm_assoc _ _ _)).bind fun _ => Meets.pure fun s hs => ?_
  exact ⟨_, hs, fun h => absurd h (by simp)⟩

end Handlers

/-! ## The steps -/

structure Tasks where
  mqtt : MqttState
  /-- Once `uart_handler_init` has installed the driver. -/
  uart : Option UartState
  heap : Heap
  /-- The payload the UART task is passing to its callback. -/
  sending : Option Text
  /-- What `parse_data_to_json` returned, in order. -/
  produced : List (List Byte)
  restarting : Bool

def Tasks.init : Tasks := ⟨.init, none, .empty, none, [], false⟩

inductive TaskAction where
  | mqtt (a : MqttAction)
  | uartInit
  | uart (a : UartAction)
  | callback
  | wifiListGet (records : List ApRecord)
  | wifiConfigPost (p : Posted)

/-- The UART task waits for its callback, interrupts do not. -/
def Waits (s : Tasks) : UartAction → Prop
  | .isr _ => False
  | _ => s.sending ≠ none

instance (s : Tasks) (a : UartAction) : Decidable (Waits s a) := by
  cases a <;> unfold Waits <;> infer_instance

/-- The bytes a read takes. -/
def readBytes (u : UartState) : UartAction → Option (List Byte)
  | .read =>
    match u.pc with
    | .reading own _ => some (u.buf.take own.length)
    | _ => none
  | _ => none

section Steps

variable (cm : CJsonMem) (cj : CJson) (overflow : List Byte → BitVec 32) (response : List Byte)

/-- `parse_data_to_json(dtmp, event.size)`. -/
def parseRead (s : Tasks) (data : List Byte) : Tasks :=
  let (r, heap) := parseDataToJsonMem cm cj overflow data s.heap
  { s with heap := heap, sending := r, produced := s.produced ++ (r.map Text.chars).toList }

def tasksStep (s : Tasks) (a : TaskAction) : Option Tasks :=
  if s.restarting then none else
  match a with
  | .mqtt a => (mqttStep s.mqtt a).map fun m => { s with mqtt := m }
  | .uartInit =>
    if s.mqtt.pc = .returned ∧ s.uart = none then some { s with uart := some .init } else none
  | .uart a =>
    match s.uart with
    | none => none
    | some u =>
      if Waits s a then none else
      (uartStep u a).map fun u' =>
        match readBytes u a with
        | none => { s with uart := some u' }
        | some data => parseRead cm cj overflow { s with uart := some u' } data
  | .callback =>
    match s.sending with
    | none => none
    | some t =>
      some { s with
        mqtt := mqttPublishData s.mqtt t.chars
        heap := (callbackMem s.mqtt.client t s.heap).2
        sending := none }
  | .wifiListGet records =>
    some { s with heap := (wifiListGetMem cm cj records s.heap).2 }
  | .wifiConfigPost p =>
    let (restart, heap) := wifiConfigPostMem cm response p s.heap
    some { s with heap := heap, restarting := restart }

end Steps

/-! ## Publishing -/

def publishes (calls : List MqttCall) : List MqttCall := calls.filter fun
  | .publish .. => true
  | .subscribe .. => false

/-- What is asked of the client for the payloads `done`. -/
def publishCalls (client : Option Client) (done : List (List Byte)) : List MqttCall :=
  match client with
  | none => []
  | some c => done.map fun data => .publish c pubTopic data 0 1 0

@[simp] theorem publishCalls_nil (client : Option Client) : publishCalls client [] = [] := by
  cases client <;> rfl

theorem publishCalls_append (client : Option Client) (done more : List (List Byte)) :
    publishCalls client (done ++ more) = publishCalls client done ++ publishCalls client more := by
  cases client with
  | none => rfl
  | some c => exact List.map_append

/-- An event publishes nothing. -/
theorem publishes_step {m m' : MqttState} {a : MqttAction} (hs : mqttStep m a = some m') :
    publishes m'.calls = publishes m.calls := by
  cases a with
  | clientInit r =>
    simp only [mqttStep, Option.ite_none_right_eq_some] at hs
    obtain ⟨-, hs'⟩ := hs
    cases hs'
    rfl
  | registerEvent ok =>
    simp only [mqttStep, Option.ite_none_right_eq_some] at hs
    obtain ⟨-, hs'⟩ := hs
    cases hs'
    rfl
  | clientStart ok =>
    simp only [mqttStep, Option.ite_none_right_eq_some] at hs
    obtain ⟨-, hs'⟩ := hs
    cases hs'
    rfl
  | event e =>
    simp only [mqttStep, Option.ite_none_right_eq_some] at hs
    obtain ⟨-, hs'⟩ := hs
    cases hs'
    unfold mqttEventHandler
    cases e.eventId with
    | connected =>
      show publishes (m.calls ++ [_, _]) = publishes m.calls
      unfold publishes
      rw [List.filter_append]
      exact List.append_nil _
    | disconnected => rfl
    | unsubscribed => rfl
    | data => rfl
    | error => rfl
    | other => rfl

theorem publishes_publish (m : MqttState) (data : List Byte) :
    publishes (mqttPublishData m data).calls = publishes m.calls ++ publishCalls m.client [data] ∧
      (mqttPublishData m data).client = m.client ∧ (mqttPublishData m data).pc = m.pc := by
  unfold mqttPublishData
  split
  · rename_i c hc
    rw [hc]
    exact ⟨List.filter_append _ _, rfl, rfl⟩
  · rename_i hc
    rw [hc]
    exact ⟨(List.append_nil _).symm, rfl, rfl⟩

/-! ## The UART task -/

/-- **What a step of the task parses**: what a read takes, and otherwise nothing. -/
theorem readBytes_step {u u' : UartState} {a : UartAction} (hs : uartStep u a = some u') :
    u'.parsed = u.parsed ++ (readBytes u a).toList := by
  cases a with
  | isr i =>
    cases hs
    cases i <;> exact (List.append_nil _).symm
  | receive =>
    simp only [uartStep] at hs
    split at hs
    · cases hs
      exact (List.append_nil _).symm
    · cases hs
  | read =>
    simp only [uartStep] at hs
    split at hs
    · rename_i own stray hpc
      rw [Option.ite_none_right_eq_some] at hs
      obtain ⟨-, hs'⟩ := hs
      cases hs'
      unfold readBytes
      rw [hpc]
      rfl
    · cases hs
  | flush =>
    simp only [uartStep] at hs
    split at hs
    · cases hs
      exact (List.append_nil _).symm
    · cases hs
  | reset =>
    simp only [uartStep] at hs
    split at hs
    · cases hs
      exact (List.append_nil _).symm
    · cases hs

/-! ## The invariant -/

section Invariant

variable (enough : Prop) (cj : CJson) (overflow : List Byte → BitVec 32)

structure TasksInv (s : Tasks) : Prop where
  mqtt : MqttInv s.mqtt
  owned : ∃ rs, Owns enough rs [] s.heap ∧
    (s.restarting = false → rs = (s.sending.map Text.block).toList)
  order : ∃ done, s.produced = done ++ (s.sending.map Text.chars).toList ∧
    publishes s.mqtt.calls = publishCalls s.mqtt.client done
  started : s.uart ≠ none → s.mqtt.pc ≠ .clientInit
  idle : s.uart = none → s.produced = []
  parsed : enough → ∀ u ∈ s.uart, s.produced = payloads cj overflow u

variable {enough} {cm : CJsonMem} {cj} {overflow} {response : List Byte} {s s' : Tasks}
  {a : TaskAction}

theorem tasksInv_init : TasksInv enough cj overflow .init where
  mqtt := mqttInv_init
  owned := ⟨[], Owns.empty, fun _ => rfl⟩
  order := ⟨[], rfl, rfl⟩
  started h := absurd rfl h
  idle _ := rfl
  parsed _ u hu := by cases hu

theorem TasksInv.mqttStep (h : TasksInv enough cj overflow s) {b : MqttAction} {m : MqttState}
    (hs : mqttStep s.mqtt b = some m) : TasksInv enough cj overflow { s with mqtt := m } := by
  obtain ⟨done, hdone, hcalls⟩ := h.order
  refine ⟨mqttInv_step h.mqtt hs, h.owned, ⟨done, hdone, ?_⟩, fun hu => ?_, h.idle, h.parsed⟩
  · rw [publishes_step hs, hcalls]
    by_cases hpc : s.mqtt.pc = .clientInit
    · -- nothing has been published yet
      have hnone : s.uart = none := Classical.not_not.mp fun hu => h.started hu hpc
      rw [h.idle hnone] at hdone
      rw [(List.append_eq_nil_iff.mp hdone.symm).1, publishCalls_nil, publishCalls_nil]
    · rw [(client_step h.mqtt hpc hs).1]
  · exact (client_step h.mqtt (h.started hu) hs).2.1

theorem TasksInv.callback (h : TasksInv enough cj overflow s) (hre : s.restarting = false)
    {t : Text} (ht : s.sending = some t) : TasksInv enough cj overflow { s with
      mqtt := mqttPublishData s.mqtt t.chars
      heap := (callbackMem s.mqtt.client t s.heap).2
      sending := none } := by
  obtain ⟨done, hdone, hcalls⟩ := h.order
  obtain ⟨rs, hrs, hsend⟩ := h.owned
  have hpub := publishes_publish s.mqtt t.chars
  have hroots : rs = [t.block] := by rw [hsend hre, ht]; rfl
  subst hroots
  have hu : s.uart ≠ none := by
    intro hnone
    rw [h.idle hnone, ht] at hdone
    exact absurd hdone.symm (by simp)
  refine ⟨h.mqtt.publish (h.started hu) _, ?_, ⟨done ++ [t.chars], ?_, ?_⟩, fun hu => ?_, h.idle,
    h.parsed⟩
  · exact ⟨[], callbackMem_meets s.mqtt.client t s.heap hrs _ _ rfl, fun _ => rfl⟩
  · rw [hdone, ht]
    exact (List.append_nil _).symm
  · rw [hpub.1, hpub.2.1, hcalls, publishCalls_append]
  · rw [hpub.2.2]
    exact h.started hu

/-- A read, when the callback has returned. -/
theorem TasksInv.read (hcm : cm.Sound enough) (h : TasksInv enough cj overflow s)
    (hre : s.restarting = false) (hsend : s.sending = none) {u u' : UartState}
    (hu : s.uart = some u) {data : List Byte} (hparsed : u'.parsed = u.parsed ++ [data]) :
    TasksInv enough cj overflow (parseRead cm cj overflow { s with uart := some u' } data) := by
  obtain ⟨done, hdone, hcalls⟩ := h.order
  obtain ⟨rs, hrs, hroots⟩ := h.owned
  rw [hsend] at hdone hroots
  rw [hroots hre] at hrs
  have hmeets : Meets (Owns enough [] []) (parseDataToJsonMem cm cj overflow data) fun r s =>
      Owns enough ((r.map Text.block).toList ++ []) [] s ∧
        (enough → r.map Text.chars = parseDataToJson cj overflow data) :=
    parseDataToJson_meets hcm data
  obtain ⟨r, heap, hp⟩ : ∃ r heap, parseDataToJsonMem cm cj overflow data s.heap = (r, heap) :=
    ⟨_, _, rfl⟩
  obtain ⟨howns, hchars⟩ := hmeets s.heap hrs r heap hp
  unfold parseRead
  simp only [hp]
  refine ⟨h.mqtt, ⟨_, howns, fun _ => List.append_nil _⟩, ⟨s.produced, rfl, ?_⟩, fun _ => ?_,
    fun hnone => absurd hnone (Option.some_ne_none _), fun hall v hv => ?_⟩
  · rw [hdone]
    exact hcalls.trans (congrArg _ (List.append_nil _).symm)
  · exact h.started (by rw [hu]; exact Option.some_ne_none u)
  · cases hv
    have hold := h.parsed hall u hu
    unfold payloads at hold ⊢
    rw [hparsed, List.filterMap_append, ← hold, hchars hall]
    cases hd : parseDataToJson cj overflow data <;> simp [hd]

theorem TasksInv.uart (h : TasksInv enough cj overflow s) {u u' : UartState} (hu : s.uart = some u)
    (hparsed : u'.parsed = u.parsed) : TasksInv enough cj overflow { s with uart := some u' } := by
  refine ⟨h.mqtt, h.owned, h.order, fun _ => ?_, fun hnone => absurd hnone (Option.some_ne_none _),
    fun hall v hv => ?_⟩
  · exact h.started (by rw [hu]; exact Option.some_ne_none u)
  · cases hv
    rw [h.parsed hall u hu]
    unfold payloads
    rw [hparsed]

/-- **The step lemma.** -/
theorem tasksInv_step (hcm : cm.Sound enough) (s : Tasks) (a : TaskAction) (s' : Tasks)
    (h : TasksInv enough cj overflow s) (hs : tasksStep cm cj overflow response s a = some s') :
    TasksInv enough cj overflow s' := by
  unfold tasksStep at hs
  split at hs
  · cases hs
  rename_i hre
  have hre' : s.restarting = false := by simpa using hre
  obtain ⟨rs, hrs, hroots⟩ := h.owned
  cases a with
  | mqtt b =>
    obtain ⟨m, hm, hs'⟩ := Option.map_eq_some_iff.mp hs
    cases hs'
    exact h.mqttStep hm
  | uartInit =>
    simp only [Option.ite_none_right_eq_some] at hs
    obtain ⟨⟨hpc, hnone⟩, hs'⟩ := hs
    cases hs'
    refine ⟨h.mqtt, h.owned, h.order, fun _ => ?_, fun hn => absurd hn (Option.some_ne_none _),
      fun _ u hu => ?_⟩
    · rw [hpc]
      simp
    · cases hu
      exact h.idle hnone
  | uart b =>
    cases hu : s.uart with
    | none =>
      rw [hu] at hs
      cases hs
    | some u =>
      rw [hu] at hs
      simp only [Option.ite_none_left_eq_some, Option.map_eq_some_iff] at hs
      obtain ⟨hwaits, u', hu', hs'⟩ := hs
      have hparsed := readBytes_step hu'
      cases hb : readBytes u b with
      | none =>
        rw [hb] at hs' hparsed
        cases hs'
        exact h.uart hu (hparsed.trans (List.append_nil _))
      | some data =>
        rw [hb] at hs' hparsed
        cases hs'
        have hsend : s.sending = none := by
          cases b with
          | read => exact Classical.not_not.mp hwaits
          | isr i => cases hb
          | receive => cases hb
          | flush => cases hb
          | reset => cases hb
        exact h.read hcm hre' hsend hu hparsed
  | callback =>
    cases ht : s.sending with
    | none =>
      rw [ht] at hs
      cases hs
    | some t =>
      rw [ht] at hs
      cases hs
      exact h.callback hre' ht
  | wifiListGet records =>
    cases hs
    have hmeets : Meets (Owns enough rs []) (wifiListGetMem cm cj records) fun _ s =>
        Owns enough rs [] s := (wifiListGetMem_meets hcm records).weaken fun _ _ hq => hq.1
    exact ⟨h.mqtt, ⟨rs, hmeets s.heap hrs _ _ rfl, hroots⟩, h.order, h.started, h.idle, h.parsed⟩
  | wifiConfigPost p =>
    cases hs
    obtain ⟨rs', hrs', hsame⟩ := wifiConfigPostMem_meets hcm response p s.heap hrs _ _ rfl
    exact ⟨h.mqtt, ⟨rs', hrs', fun hr => (hsame hr).trans (hroots hre')⟩, h.order, h.started,
      h.idle, h.parsed⟩

/-- **The run lemma.** -/
theorem tasksInv_reach (hcm : cm.Sound enough)
    (hr : Reach (tasksStep cm cj overflow response) .init s) :
    TasksInv enough cj overflow s :=
  reach_invariant tasksInv_init (tasksInv_step hcm) hr

/-! ## Results -/

/-- **The heap in every run.** No block is used or released after it was released. Until the device
restarts, the trees left are the payload in the callback and the items no object took; so when the
UART task is in no callback, nothing has leaked exactly if there are no such items, and there are
none if every call finds memory. -/
theorem memory_owned (hcm : cm.Sound enough)
    (hr : Reach (tasksStep cm cj overflow response) .init s) :
    Owned s.heap.blocks.log ∧ (s.restarting = false →
      s.heap.blocks.roots.Perm ((s.sending.map Text.block).toList ++ s.heap.refused)) ∧
    (s.restarting = false → s.sending = none →
      ((∀ h, obtained h s.heap.blocks.log = released h s.heap.blocks.log) ↔
        s.heap.refused = [])) ∧
    (enough → s.heap.refused = []) := by
  obtain ⟨rs, hrs, hroots⟩ := (tasksInv_reach hcm hr).owned
  refine ⟨hrs.trees.valid.balanced.owned, fun hre => ?_, fun hre hsend => ?_, hrs.refused⟩
  · rw [← hroots hre]
    exact hrs.trees.roots
  · have hnil : rs = [] := by rw [hroots hre, hsend]; rfl
    subst hnil
    exact hrs.trees.no_leak_iff

/-- What `esp_mqtt_client_init` returned in a run. -/
def clientReturned (as : List TaskAction) : List (Option Client) := as.filterMap fun
  | .mqtt (.clientInit r) => some r
  | _ => none

theorem clientReturned_append (done as : List TaskAction) :
    clientReturned (done ++ as) = clientReturned done ++ clientReturned as := List.filterMap_append

/-- Only the client's own steps set `client`. -/
theorem tasksStep_mqtt (hs : tasksStep cm cj overflow response s a = some s') :
    (∃ b, a = .mqtt b ∧ mqttStep s.mqtt b = some s'.mqtt) ∨
      clientReturned [a] = [] ∧ s'.mqtt.client = s.mqtt.client ∧ s'.mqtt.pc = s.mqtt.pc := by
  unfold tasksStep at hs
  split at hs
  · cases hs
  cases a with
  | mqtt b =>
    obtain ⟨m, hm, hs'⟩ := Option.map_eq_some_iff.mp hs
    cases hs'
    exact Or.inl ⟨b, rfl, hm⟩
  | uartInit =>
    simp only [Option.ite_none_right_eq_some] at hs
    obtain ⟨-, hs'⟩ := hs
    cases hs'
    exact Or.inr ⟨rfl, rfl, rfl⟩
  | uart b =>
    cases hu : s.uart with
    | none =>
      rw [hu] at hs
      cases hs
    | some u =>
      rw [hu] at hs
      simp only [Option.ite_none_left_eq_some, Option.map_eq_some_iff] at hs
      obtain ⟨-, u', -, hs'⟩ := hs
      cases hb : readBytes u b <;> rw [hb] at hs' <;> cases hs' <;> exact Or.inr ⟨rfl, rfl, rfl⟩
  | callback =>
    cases ht : s.sending <;> rw [ht] at hs <;> cases hs
    exact Or.inr ⟨rfl, (publishes_publish _ _).2⟩
  | wifiListGet records =>
    cases hs
    exact Or.inr ⟨rfl, rfl, rfl⟩
  | wifiConfigPost p =>
    cases hs
    exact Or.inr ⟨rfl, rfl, rfl⟩

/-- **`client` is what `esp_mqtt_client_init` returned**, which is called once. -/
theorem client_eq_returned (hcm : cm.Sound enough) {as : List TaskAction}
    (hr : runActs (tasksStep cm cj overflow response) .init as = some s) :
    (s.mqtt.pc = .clientInit → clientReturned as = []) ∧
      (s.mqtt.pc ≠ .clientInit → clientReturned as = [s.mqtt.client]) := by
  refine (run_invariant (I := fun done s => TasksInv enough cj overflow s ∧
    (s.mqtt.pc = .clientInit → clientReturned done = []) ∧
      (s.mqtt.pc ≠ .clientInit → clientReturned done = [s.mqtt.client]))
    ⟨tasksInv_init, fun _ => rfl, fun hpc => absurd rfl hpc⟩ ?_ hr).2
  rintro done s a s' ⟨hinv, hfirst, hlater⟩ hs
  refine ⟨tasksInv_step hcm s a s' hinv hs, ?_⟩
  rw [clientReturned_append]
  rcases tasksStep_mqtt hs with ⟨b, rfl, hb⟩ | ⟨ha, hclient, hpc⟩
  · by_cases hpc : s.mqtt.pc = .clientInit
    · obtain ⟨hb', hpc'⟩ := clientInit_step hinv.mqtt hpc hb
      refine ⟨fun h => absurd h hpc', fun _ => ?_⟩
      rw [hfirst hpc, hb']
      rfl
    · obtain ⟨hclient, hpc', hno⟩ := client_step hinv.mqtt hpc hb
      refine ⟨fun h => absurd h hpc', fun _ => ?_⟩
      have hnone : clientReturned [.mqtt b] = [] := by
        cases b with
        | clientInit r => exact absurd rfl (hno r)
        | registerEvent ok => rfl
        | clientStart ok => rfl
        | event e => rfl
      rw [hnone, List.append_nil, hlater hpc, hclient]
  · rw [ha, List.append_nil, hpc, hclient]
    exact ⟨hfirst, hlater⟩

/-- **What is published in every run.** The calls to publish are, in order and each once, those for
the payloads `parse_data_to_json` returned, except the one still in the callback; all go to the one
client that `esp_mqtt_client_init` returned, and there are none if it returned no client. If every
call finds memory, then the payloads are those of the bytes that were read. -/
theorem published_in_order (hcm : cm.Sound enough) {as : List TaskAction}
    (hr : runActs (tasksStep cm cj overflow response) .init as = some s) :
    ∃ done, s.produced = done ++ (s.sending.map Text.chars).toList ∧
      publishes s.mqtt.calls = publishCalls s.mqtt.client done ∧
      (∀ call ∈ s.mqtt.calls, s.mqtt.client = some call.client) ∧
      (clientReturned as = [] ∧ s.mqtt = .init ∨ clientReturned as = [s.mqtt.client]) ∧
      (enough → ∀ u ∈ s.uart, s.produced = payloads cj overflow u) := by
  have hinv := tasksInv_reach hcm ⟨as, hr⟩
  obtain ⟨done, hdone, hcalls⟩ := hinv.order
  obtain ⟨hfirst, hlater⟩ := client_eq_returned hcm hr
  refine ⟨done, hdone, hcalls, hinv.mqtt.calls, ?_, hinv.parsed⟩
  by_cases hpc : s.mqtt.pc = .clientInit
  · exact Or.inl ⟨hfirst hpc, hinv.mqtt.first hpc⟩
  · exact Or.inr (hlater hpc)

/-- What the driver and the UART task did in a run. -/
def uartActions (as : List TaskAction) : List UartAction := as.filterMap fun
  | .uart a => some a
  | _ => none

theorem uartActions_append (done as : List TaskAction) :
    uartActions (done ++ as) = uartActions done ++ uartActions as := List.filterMap_append

/-- The other tasks do not touch the driver. -/
theorem tasksStep_uart (hs : tasksStep cm cj overflow response s a = some s') :
    uartActions [a] = [] ∧ (s'.uart = s.uart ∨ s.uart = none ∧ s'.uart = some .init) ∨
      ∃ b u u', a = .uart b ∧ s.uart = some u ∧ s'.uart = some u' ∧ uartStep u b = some u' := by
  unfold tasksStep at hs
  split at hs
  · cases hs
  cases a with
  | mqtt b =>
    obtain ⟨m, -, hs'⟩ := Option.map_eq_some_iff.mp hs
    cases hs'
    exact Or.inl ⟨rfl, Or.inl rfl⟩
  | uartInit =>
    simp only [Option.ite_none_right_eq_some] at hs
    obtain ⟨⟨-, hnone⟩, hs'⟩ := hs
    cases hs'
    exact Or.inl ⟨rfl, Or.inr ⟨hnone, rfl⟩⟩
  | uart b =>
    cases hu : s.uart with
    | none =>
      rw [hu] at hs
      cases hs
    | some u =>
      rw [hu] at hs
      simp only [Option.ite_none_left_eq_some, Option.map_eq_some_iff] at hs
      obtain ⟨-, u', hu', hs'⟩ := hs
      refine Or.inr ⟨b, u, u', rfl, rfl, ?_, hu'⟩
      cases hb : readBytes u b <;> rw [hb] at hs' <;> cases hs' <;> rfl
  | callback =>
    cases ht : s.sending <;> rw [ht] at hs <;> cases hs
    exact Or.inl ⟨rfl, Or.inl rfl⟩
  | wifiListGet records =>
    cases hs
    exact Or.inl ⟨rfl, Or.inl rfl⟩
  | wifiConfigPost p =>
    cases hs
    exact Or.inl ⟨rfl, Or.inl rfl⟩

/-- **The run of the driver and the UART task** within a run of all. -/
theorem uart_run {as : List TaskAction}
    (hr : runActs (tasksStep cm cj overflow response) .init as = some s) {u : UartState}
    (hu : s.uart = some u) : runActs uartStep .init (uartActions as) = some u := by
  have hinv : (∀ v ∈ s.uart, runActs uartStep .init (uartActions as) = some v) ∧
      (s.uart = none → uartActions as = []) := by
    refine run_invariant (I := fun done s =>
      (∀ v ∈ s.uart, runActs uartStep .init (uartActions done) = some v) ∧
        (s.uart = none → uartActions done = [])) ⟨fun v hv => ?_, fun _ => rfl⟩ ?_ hr
    · cases hv
    rintro done s a s' ⟨hsome, hnone⟩ hs
    rw [uartActions_append]
    rcases tasksStep_uart hs with ⟨ha, hsame | ⟨hu, hu'⟩⟩ | ⟨b, u, u', rfl, hu, hu', hb⟩
    · rw [ha, List.append_nil, hsame]
      exact ⟨hsome, hnone⟩
    · rw [ha, List.append_nil, hu', hnone hu]
      refine ⟨fun v hv => ?_, fun h => absurd h (Option.some_ne_none _)⟩
      cases hv
      rfl
    · rw [hu']
      refine ⟨fun v hv => ?_, fun h => absurd h (Option.some_ne_none _)⟩
      cases hv
      rw [runActs_append (hsome u hu)]
      exact runActs_single hb
  exact hinv.1 u hu

/-- **A message for each frame.** If `esp_mqtt_client_init` returned a client, every call finds
memory, nothing overflows, and the events keep the frames apart, then once they are handled one
message was published for each frame, in order, whatever the other tasks did meanwhile. -/
theorem frames_published (hcm : cm.Sound enough) (hall : enough) {as : List TaskAction}
    {frames : List Frame} {u : UartState} {c : Client}
    (hr : runActs (tasksStep cm cj overflow response) .init as = some s)
    (hclient : .mqtt (.clientInit (some c)) ∈ as) (hu : s.uart = some u)
    (hno : AllSteps uartStep NoOverflow .init (uartActions as)) (hidle : u.pc = .receiving)
    (hdrained : u.queue = []) (hsend : s.sending = none)
    (haligned : Aligned frames (segmentsOf (uartActions as))) :
    publishes s.mqtt.calls = frames.map fun f => .publish c pubTopic (f.payload cj) 0 1 0 := by
  have hinv := tasksInv_reach hcm ⟨as, hr⟩
  obtain ⟨done, hdone, hcalls⟩ := hinv.order
  have hdelivered : Delivered (uartActions as) u := ⟨uart_run hr hu, hno, hidle, hdrained⟩
  have hpayloads : payloads cj overflow u = frames.map (Frame.payload cj) := by
    unfold payloads
    rw [parsed_eq_segments hdelivered]
    exact payloads_of_legible haligned.legible
  have hsome : s.mqtt.client = some c := by
    have hmem : some c ∈ clientReturned as := List.mem_filterMap.mpr ⟨_, hclient, rfl⟩
    have hpc := hinv.started (by rw [hu]; exact Option.some_ne_none u)
    rw [(client_eq_returned hcm hr).2 hpc, List.mem_singleton] at hmem
    exact hmem.symm
  have hdone' : done = frames.map (Frame.payload cj) := by
    rw [← hpayloads, ← hinv.parsed hall u hu, hdone, hsend]
    exact (List.append_nil done).symm
  rw [hcalls, hsome, hdone', publishCalls, List.map_map]
  rfl

end Invariant

/-! ## A reading on its way -/

/-- The client connects, and a reading comes in while the list is served. -/
def readingRun : List TaskAction :=
  [.mqtt (.clientInit (some 1)), .mqtt (.registerEvent true), .mqtt (.clientStart true), .uartInit,
    .uart (.isr (.data (utf8 "temp:21\n"))), .mqtt (.event ⟨1, .connected⟩), .uart .receive,
    .uart .read, .wifiListGet [], .callback]

def readingStep : Tasks → TaskAction → Option Tasks :=
  tasksStep (heapCJson fun _ => true) frameCJson (fun _ => 0) []

/-- What the run leaves of the driver, of the payload and of the client. -/
theorem readingRun_ends : ∃ s, runActs readingStep .init readingRun = some s ∧
    s.uart = some { UartState.init with parsed := [utf8 "temp:21\n"] } ∧ s.sending = none ∧
      s.restarting = false ∧ s.mqtt.client = some 1 := by
  have h : (runActs readingStep .init readingRun).map
      (fun s => (s.uart, s.sending, s.restarting, s.mqtt.client)) =
        some (some { UartState.init with parsed := [utf8 "temp:21\n"] }, none, false, some 1) := by
    decide +kernel
  obtain ⟨s, hs, hends⟩ := Option.map_eq_some_iff.mp h
  simp only [Prod.mk.injEq] at hends
  exact ⟨s, hs, hends⟩

theorem memory_owned_reading : ∃ s, Reach readingStep .init s ∧ Owned s.heap.blocks.log ∧
    ∀ h, obtained h s.heap.blocks.log = released h s.heap.blocks.log := by
  obtain ⟨s, hs, -, hsend, hre, -⟩ := readingRun_ends
  obtain ⟨howned, -, hleak, hrefused⟩ := memory_owned (heapCJson_sound _) ⟨readingRun, hs⟩
  exact ⟨s, ⟨readingRun, hs⟩, howned, (hleak hre hsend).mpr (hrefused fun _ => rfl)⟩

theorem published_in_order_reading : ∃ s, Reach readingStep .init s ∧
    publishes s.mqtt.calls = publishCalls (some 1) s.produced ∧
      s.produced = [frameTemp.payload frameCJson] := by
  obtain ⟨s, hs, hu, hsend, -, hclient⟩ := readingRun_ends
  obtain ⟨done, hdone, hcalls, -, -, hparsed⟩ := published_in_order (heapCJson_sound _) hs
  rw [hsend] at hdone
  refine ⟨s, ⟨readingRun, hs⟩, ?_, ?_⟩
  · rw [hcalls, hclient, hdone]
    exact congrArg _ (List.append_nil _).symm
  · rw [hparsed (fun _ => rfl) _ hu]
    decide +kernel

theorem frames_published_reading : ∃ s, runActs readingStep .init readingRun = some s ∧
    publishes s.mqtt.calls = [.publish 1 pubTopic (frameTemp.payload frameCJson) 0 1 0] := by
  obtain ⟨s, hs, hu, hsend, -, -⟩ := readingRun_ends
  have haligned : Aligned [frameTemp] (segmentsOf (uartActions readingRun)) :=
    ⟨[], utf8 "temp:21\n", [], [], by decide +kernel, rfl, by decide +kernel, by decide +kernel,
      rfl⟩
  exact ⟨s, hs, frames_published (heapCJson_sound _) (fun _ => rfl) hs List.mem_cons_self hu
    (delivered_deliver [utf8 "temp:21\n"]).noOverflow rfl rfl hsend haligned⟩

end Gateway.Main
