import Gateway.Lib.CStr
import Gateway.Lib.System

/-!
# The MQTT client

Model of `components/mqtt_gateway/mqtt_gateway.c:23-99`. `mqtt_app_start` makes three calls, and
looks at the outcome of none; from the third one on, if it succeeded, the client hands its events to
`mqtt_event_handler` (if that was registered), each with the client it comes from. What the log is
told is left out. The broker is not part of this: `calls` is what the client is asked to do.

* `MqttInv`: whatever is asked is asked of the client `esp_mqtt_client_init` returned.
  `mqttInv_step`, `MqttInv.publish`: the steps and `mqtt_publish_data` keep it.
* `clientInit_step`, `client_step`: the first step is `esp_mqtt_client_init`, which sets `client`;
  no later one is, and none changes `client`.
-/

namespace Gateway.Mqtt

open Gateway.Lib

/-- `esp_mqtt_client_handle_t`, without `NULL`. -/
abbrev Client := Nat

/-- `PUB_TOPIC`. -/
def pubTopic : List Byte := utf8 "$sys/4W3U84PNXj/Gateway/thing/property/post"

def replyTopic : List Byte := utf8 "$sys/4W3U84PNXj/Gateway/thing/property/post/reply"

def setTopic : List Byte := utf8 "$sys/4W3U84PNXj/Gateway/thing/property/set"

/-- What a client is asked to do. -/
inductive MqttCall where
  /-- `esp_mqtt_client_subscribe`. -/
  | subscribe (client : Client) (topic : List Byte) (qos : Nat)
  /-- `esp_mqtt_client_publish`; with `len` 0, up to the NUL. -/
  | publish (client : Client) (topic data : List Byte) (len qos retain : Nat)
  deriving DecidableEq

def MqttCall.client : MqttCall → Client
  | .subscribe c _ _ => c
  | .publish c _ _ _ _ _ => c

/-- `esp_mqtt_event_id_t`, as far as the handler tells its values apart. -/
inductive MqttEventId where
  | connected
  | disconnected
  | unsubscribed
  | data
  | error
  | other
  deriving DecidableEq

structure MqttEvent where
  client : Client
  eventId : MqttEventId
  deriving DecidableEq

/-- Where `mqtt_app_start` is. -/
inductive MqttPc where
  | clientInit
  | registerEvent
  | clientStart
  | returned
  deriving DecidableEq

structure MqttState where
  pc : MqttPc
  /-- The global `client`. -/
  client : Option Client
  /-- The client that calls `mqtt_event_handler`. -/
  registered : Option Client
  started : Option Client
  calls : List MqttCall
  deriving DecidableEq

def MqttState.init : MqttState := ⟨.clientInit, none, none, none, []⟩

inductive MqttAction where
  /-- `esp_mqtt_client_init` returns `r`; `none` is `NULL`. -/
  | clientInit (r : Option Client)
  | registerEvent (ok : Bool)
  | clientStart (ok : Bool)
  | event (e : MqttEvent)

/-- `mqtt_event_handler`. -/
def mqttEventHandler (s : MqttState) (e : MqttEvent) : MqttState :=
  let s := { s with client := some e.client }
  match e.eventId with
  | .connected =>
    { s with
      calls := s.calls ++ [.subscribe e.client replyTopic 0, .subscribe e.client setTopic 0] }
  | _ => s

/-- `mqtt_publish_data(data)`. -/
def mqttPublishData (s : MqttState) (data : List Byte) : MqttState :=
  match s.client with
  | some c => { s with calls := s.calls ++ [.publish c pubTopic data 0 1 0] }
  | none => s

/-- The calls with `NULL` for a client fail. -/
def mqttStep (s : MqttState) : MqttAction → Option MqttState
  | .clientInit r =>
    if s.pc = .clientInit then some { s with client := r, pc := .registerEvent } else none
  | .registerEvent ok =>
    if s.pc = .registerEvent then
      some { s with registered := if ok then s.client else none, pc := .clientStart }
    else none
  | .clientStart ok =>
    if s.pc = .clientStart then
      some { s with started := if ok then s.client else none, pc := .returned }
    else none
  | .event e =>
    if s.started = some e.client ∧ s.registered = some e.client then some (mqttEventHandler s e)
    else none

/-- **The invariant**: the client that was registered with, or started, or asked for something is
the one `client` points to, and there is none before `esp_mqtt_client_init`. -/
structure MqttInv (s : MqttState) : Prop where
  registered : ∀ c ∈ s.registered, s.client = some c
  started : ∀ c ∈ s.started, s.client = some c
  calls : ∀ call ∈ s.calls, s.client = some call.client
  first : s.pc = .clientInit → s = .init

variable {s s' : MqttState} {a : MqttAction}

theorem mqttInv_init : MqttInv .init where
  registered c hc := by cases hc
  started c hc := by cases hc
  calls call hc := absurd hc List.not_mem_nil
  first _ := rfl

/-- A client that called the handler is the one it was started as. -/
theorem mqttEventHandler_client {e : MqttEvent} (h : s.client = some e.client) :
    (mqttEventHandler s e).client = s.client := by
  rw [h]
  cases he : e.eventId <;> simp [mqttEventHandler, he]

theorem MqttInv.event (h : MqttInv s) {e : MqttEvent} (he : s.client = some e.client)
    (hpc : s.pc ≠ .clientInit) : MqttInv (mqttEventHandler s e) := by
  have hself : ({ s with client := some e.client } : MqttState) = s := by rw [← he]
  cases hid : e.eventId with
  | connected =>
    simp only [mqttEventHandler, hid]
    refine ⟨fun c hc => he ▸ h.registered c hc, fun c hc => he ▸ h.started c hc, fun call hc => ?_,
      fun hr => absurd hr hpc⟩
    rw [List.mem_append] at hc
    rcases hc with hc | hc
    · exact he ▸ h.calls call hc
    · rcases List.mem_pair.mp hc with rfl | rfl <;> rfl
  | disconnected => simpa only [mqttEventHandler, hid, hself] using h
  | unsubscribed => simpa only [mqttEventHandler, hid, hself] using h
  | data => simpa only [mqttEventHandler, hid, hself] using h
  | error => simpa only [mqttEventHandler, hid, hself] using h
  | other => simpa only [mqttEventHandler, hid, hself] using h

theorem MqttInv.publish (h : MqttInv s) (hpc : s.pc ≠ .clientInit) (data : List Byte) :
    MqttInv (mqttPublishData s data) := by
  unfold mqttPublishData
  split
  · rename_i c hc
    refine ⟨h.registered, h.started, fun call hcall => ?_, fun hr => absurd hr hpc⟩
    rw [List.mem_append, List.mem_singleton] at hcall
    rcases hcall with hcall | rfl
    · exact h.calls call hcall
    · exact hc
  · exact h

/-- **The step lemma.** -/
theorem mqttInv_step (h : MqttInv s) (hs : mqttStep s a = some s') : MqttInv s' := by
  cases a with
  | clientInit r =>
    simp only [mqttStep, Option.ite_none_right_eq_some] at hs
    obtain ⟨hpc, hs'⟩ := hs
    cases hs'
    cases h.first hpc
    refine ⟨?_, ?_, ?_, fun hr => absurd hr (by simp)⟩
    · intro c hc
      cases hc
    · intro c hc
      cases hc
    · exact fun call hc => absurd hc List.not_mem_nil
  | registerEvent ok =>
    simp only [mqttStep, Option.ite_none_right_eq_some] at hs
    obtain ⟨hpc, hs'⟩ := hs
    cases hs'
    refine ⟨fun c hc => ?_, h.started, h.calls, fun hr => absurd hr (by simp)⟩
    cases ok with
    | true => exact hc
    | false => cases hc
  | clientStart ok =>
    simp only [mqttStep, Option.ite_none_right_eq_some] at hs
    obtain ⟨hpc, hs'⟩ := hs
    cases hs'
    refine ⟨h.registered, fun c hc => ?_, h.calls, fun hr => absurd hr (by simp)⟩
    cases ok with
    | true => exact hc
    | false => cases hc
  | event e =>
    simp only [mqttStep, Option.ite_none_right_eq_some] at hs
    obtain ⟨⟨hstart, -⟩, hs'⟩ := hs
    cases hs'
    have hc := h.started e.client hstart
    refine h.event hc fun hpc => ?_
    rw [h.first hpc] at hc
    cases hc

/-- The first step is `esp_mqtt_client_init`. -/
theorem clientInit_step (h : MqttInv s) (hpc : s.pc = .clientInit)
    (hs : mqttStep s a = some s') : a = .clientInit s'.client ∧ s'.pc ≠ .clientInit := by
  have hinit := h.first hpc
  cases a with
  | clientInit r =>
    simp only [mqttStep, if_pos hpc] at hs
    cases hs
    exact ⟨rfl, by simp⟩
  | registerEvent ok =>
    simp only [mqttStep, hpc] at hs
    cases hs
  | clientStart ok =>
    simp only [mqttStep, hpc] at hs
    cases hs
  | event e =>
    simp only [mqttStep, Option.ite_none_right_eq_some] at hs
    obtain ⟨⟨hstart, -⟩, -⟩ := hs
    rw [hinit] at hstart
    cases hstart

/-- **`client` is set once**: a step after `esp_mqtt_client_init` leaves it as it is. -/
theorem client_step (h : MqttInv s) (hpc : s.pc ≠ .clientInit) (hs : mqttStep s a = some s') :
    s'.client = s.client ∧ s'.pc ≠ .clientInit ∧ ∀ r, a ≠ .clientInit r := by
  cases a with
  | clientInit r =>
    simp only [mqttStep, if_neg hpc] at hs
    cases hs
  | registerEvent ok =>
    simp only [mqttStep, Option.ite_none_right_eq_some] at hs
    obtain ⟨-, hs'⟩ := hs
    cases hs'
    exact ⟨rfl, by simp, by simp⟩
  | clientStart ok =>
    simp only [mqttStep, Option.ite_none_right_eq_some] at hs
    obtain ⟨-, hs'⟩ := hs
    cases hs'
    exact ⟨rfl, by simp, by simp⟩
  | event e =>
    simp only [mqttStep, Option.ite_none_right_eq_some] at hs
    obtain ⟨⟨hstart, -⟩, hs'⟩ := hs
    cases hs'
    refine ⟨mqttEventHandler_client (h.started e.client hstart), ?_, by simp⟩
    unfold mqttEventHandler
    cases e.eventId <;> exact hpc

end Gateway.Mqtt
