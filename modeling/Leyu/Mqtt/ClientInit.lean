import Leyu.Mqtt.Broker
import Leyu.Mqtt.UserProperties

/-!
# The initialisation of the client

`mqtt5_client_init` fills the record `g_mqtt_client` step by step and undoes the steps before one
that fails. The queue and the client are given back; the record keeps their handles.
-/

namespace Leyu

open Framework

abbrev Handle := Nat

/-- `mqtt_config_t`; a null pointer is `none`. -/
structure MqttConfig where
  brokerUri : Option Text
  username : Option Text
  password : Option Text
  clientId : Option Text
  willTopic : Option Text
  willMessage : Option Text
  willQos : Int
  willRetain : Bool
  keepalive : Int
  disableAutoReconnect : Bool
  networkTimeout : Int
  cleanSession : Bool

/-- The record after `memset`. -/
def MqttConfig.zero : MqttConfig := ⟨none, none, none, none, none, none, 0, false, 0, false, 0, false⟩

structure LastWill where
  topic : Text
  msg : Text
  msgLen : Nat
  qos : Int
  retain : Bool

/-- The fields of `esp_mqtt_client_config_t` that are set; the protocol version is always 5. -/
structure EspMqttConfig where
  uri : Option Text
  disableAutoReconnect : Bool
  timeoutMs : Int
  username : Option Text
  password : Option Text
  clientId : Option Text
  keepalive : Int
  disableCleanSession : Bool
  stackSize : Nat
  priority : Nat
  bufferSize : Nat
  reconnectTimeoutMs : Nat
  lastWill : Option LastWill

/-- `g_mqtt_client`; the task handle is never used. -/
structure MqttClientInstance where
  client : Option Handle
  config : MqttConfig
  state : MqttState
  callback : Option Handle
  userData : Option Handle
  eventQueue : Option Handle
  userProperties : PropertyTable
  initialized : Bool
  running : Bool

/-- The arguments of `mqtt5_client_init`. -/
structure InitArgs where
  config : Option MqttConfig
  callback : Option Handle
  userData : Option Handle

/-- What the calls of the initialisation return. -/
structure InitWorld where
  xQueueCreate : Option Handle
  espMqttClientInit : EspMqttConfig → Option Handle
  registerEvent : EspErr

inductive InitEffect
  | queueDeleted (queue : Handle)
  | clientDestroyed (client : Handle)
  deriving DecidableEq, Repr

namespace MqttConfig

def withDefaults (c : MqttConfig) : MqttConfig :=
  { c with
    keepalive := if c.keepalive ≤ 0 then 120 else c.keepalive
    networkTimeout := if c.networkTimeout ≤ 0 then 20000 else c.networkTimeout }

def lastWill (c : MqttConfig) : Option LastWill :=
  match c.willTopic, c.willMessage with
  | some topic, some msg => some ⟨topic, msg, (content msg).length, c.willQos, c.willRetain⟩
  | _, _ => none

def esp (c : MqttConfig) : EspMqttConfig where
  uri := c.brokerUri
  disableAutoReconnect := c.disableAutoReconnect
  timeoutMs := c.networkTimeout
  username := c.username
  password := c.password
  clientId := c.clientId
  keepalive := c.keepalive
  disableCleanSession := !c.cleanSession
  stackSize := 7 * 1024
  priority := 5
  bufferSize := 1240
  reconnectTimeoutMs := 10000
  lastWill := c.lastWill

end MqttConfig

namespace InitArgs

/-- The configuration, if the arguments pass the check. -/
def valid (a : InitArgs) : Option MqttConfig := a.config.filter fun c => c.brokerUri.isSome

end InitArgs

namespace MqttClientInstance

def zero : MqttClientInstance :=
  ⟨none, .zero, .disconnected, none, none, none, ⟨[], Nat.zero_le _⟩, false, false⟩

end MqttClientInstance

/-- The steps of `mqtt5_client_init` behind the checks. -/
def buildClient (w : InitWorld) (config : MqttConfig) (callback userData : Option Handle) :
    EspErr × MqttClientInstance × List InitEffect :=
  let g := { MqttClientInstance.zero with
    config := config.withDefaults
    callback := callback
    userData := userData }
  let g := { g with eventQueue := w.xQueueCreate }
  match g.eventQueue with
  | none => (.noMem, g, [])
  | some queue =>
      let g := { g with client := w.espMqttClientInit g.config.esp }
      match g.client with
      | none => (.fail, g, [.queueDeleted queue])
      | some client =>
          if w.registerEvent ≠ .ok then
            (w.registerEvent, g, [.clientDestroyed client, .queueDeleted queue])
          else (.ok, { g with state := .disconnected, initialized := true, running := false }, [])

def mqtt5ClientInit (w : InitWorld) (a : InitArgs) (g : MqttClientInstance) :
    EspErr × MqttClientInstance × List InitEffect :=
  if g.initialized then (.invalidState, g, [])
  else
    match a.valid with
    | none => (.invalidArg, g, [])
    | some config => buildClient w config a.callback a.userData

def mqtt5ClientGetEventQueue (g : MqttClientInstance) : Option Handle := g.eventQueue

def mqtt5ClientStart (espStart : EspErr) (g : MqttClientInstance) : EspErr × MqttClientInstance :=
  if g.initialized = false then (.invalidState, g)
  else if g.running then (.invalidState, g)
  else if espStart ≠ .ok then (espStart, g)
  else (.ok, { g with state := .connecting, running := true })

/-- `mqtt5_client_publish`, with the message id that the esp-mqtt client would return. -/
def mqtt5ClientPublish (espPublish : Int) (topic data : Option Text) (g : MqttClientInstance) :
    Int :=
  if g.initialized = false ∨ g.running = false then -1
  else if topic = none ∨ data = none then -1
  else espPublish

def mqtt5ClientSubscribe (espSubscribe : Int) (topic : Option Text) (g : MqttClientInstance) :
    Int :=
  if g.initialized = false ∨ g.running = false then -1
  else if topic = none then -1
  else espSubscribe

/-- Nothing of the client is left: no queue and no handle, its functions refuse, and the same
arguments initialise it as if for the first time. -/
structure NotBuilt (a : InitArgs) (g : MqttClientInstance) : Prop where
  queue : mqtt5ClientGetEventQueue g = none
  client : g.client = none
  start : ∀ espStart, mqtt5ClientStart espStart g = (.invalidState, g)
  publish : ∀ espPublish topic data, mqtt5ClientPublish espPublish topic data g = -1
  subscribe : ∀ espSubscribe topic, mqtt5ClientSubscribe espSubscribe topic g = -1
  again : ∀ w, (mqtt5ClientInit w a g).1 = (mqtt5ClientInit w a .zero).1 ∧
    ((mqtt5ClientInit w a g).1 = .ok → mqtt5ClientInit w a g = mqtt5ClientInit w a .zero)

/-- With valid arguments no step behind the creation of the queue fails; with others there was
nothing in the record. -/
def InitUndone (w : InitWorld) (a : InitArgs) (g : MqttClientInstance) : Prop :=
  match a.valid with
  | some config => w.xQueueCreate = none ∨
      (w.espMqttClientInit config.withDefaults.esp).isSome = true ∧ w.registerEvent = .ok
  | none => g.eventQueue = none ∧ g.client = none

private theorem notBuilt_iff {a : InitArgs} {g : MqttClientInstance} (hg : g.initialized = false) :
    NotBuilt a g ↔ g.eventQueue = none ∧ g.client = none := by
  refine ⟨fun h => ⟨h.queue, h.client⟩, fun h => ⟨h.1, h.2, ?_, ?_, ?_, ?_⟩⟩
  · intro espStart
    exact if_pos hg
  · intro espPublish topic data
    exact if_pos (.inl hg)
  · intro espSubscribe topic
    exact if_pos (.inl hg)
  · intro w
    rw [mqtt5ClientInit, mqtt5ClientInit, hg]
    cases a.valid with
    | none => exact ⟨rfl, nofun⟩
    | some config => exact ⟨rfl, fun _ => rfl⟩

theorem buildClient_cases (w : InitWorld) (config : MqttConfig)
    (callback userData : Option Handle) :
    let r := buildClient w config callback userData
    let client := w.espMqttClientInit config.withDefaults.esp
    (w.xQueueCreate = none ∧ r.1 = .noMem ∧ r.2.1.eventQueue = none ∧ r.2.1.client = none ∧
      r.2.1.initialized = false) ∨
    (∃ queue, r.2.1.eventQueue = some queue ∧ w.xQueueCreate = some queue ∧
      r.2.1.initialized = false ∧ r.2.1.client = client ∧
      ((client = none ∧ r.1 = .fail ∧ r.2.2 = [.queueDeleted queue]) ∨
        (w.registerEvent ≠ .ok ∧ r.1 = w.registerEvent ∧
          ∃ c, client = some c ∧ r.2.2 = [.clientDestroyed c, .queueDeleted queue]))) ∨
    (r.1 = .ok ∧ client.isSome = true ∧ w.registerEvent = .ok) := by
  unfold buildClient
  dsimp only
  cases w.xQueueCreate with
  | none => exact .inl ⟨rfl, rfl, rfl, rfl, rfl⟩
  | some queue =>
    right
    dsimp only
    cases w.espMqttClientInit config.withDefaults.esp with
    | none => exact .inl ⟨queue, rfl, rfl, rfl, rfl, .inl ⟨rfl, rfl, rfl⟩⟩
    | some c =>
      dsimp only
      by_cases hregister : w.registerEvent = .ok
      · rw [if_neg (not_not.2 hregister)]
        exact .inr ⟨rfl, rfl, hregister⟩
      · rw [if_pos hregister]
        exact .inl ⟨queue, rfl, rfl, rfl, rfl, .inr ⟨hregister, rfl, c, rfl, rfl⟩⟩

theorem buildClient_released (w : InitWorld) (config : MqttConfig)
    (callback userData : Option Handle)
    (herr : (buildClient w config callback userData).1 ≠ .ok) :
    let r := buildClient w config callback userData
    (∀ queue ∈ r.2.1.eventQueue, .queueDeleted queue ∈ r.2.2) ∧
      ∀ client ∈ r.2.1.client, .clientDestroyed client ∈ r.2.2 := by
  dsimp only
  rcases buildClient_cases w config callback userData with
    ⟨-, -, hqueue, hclient, -⟩ | ⟨queue, hqueue, -, -, hclient, hstep⟩ | ⟨hok, -⟩
  · rw [hqueue, hclient]
    exact ⟨nofun, nofun⟩
  · rw [hqueue, hclient]
    rcases hstep with ⟨hnone, -, heffects⟩ | ⟨-, -, c, hsome, heffects⟩
    · simp [hnone, heffects]
    · simp [hsome, heffects]
  · exact absurd hok herr

/-- A failed initialisation of a client that is not initialised leaves nothing exactly when only the
creation of the queue can be what has failed. -/
theorem mqtt5ClientInit_undone_iff (w : InitWorld) (a : InitArgs) (g : MqttClientInstance)
    (hg : g.initialized = false) :
    ((mqtt5ClientInit w a g).1 ≠ .ok → NotBuilt a (mqtt5ClientInit w a g).2.1) ↔
      InitUndone w a g := by
  unfold mqtt5ClientInit InitUndone
  rw [hg, if_neg Bool.false_ne_true]
  cases a.valid with
  | none =>
    dsimp only
    rw [notBuilt_iff hg]
    exact ⟨fun h => h nofun, fun h _ => h⟩
  | some config =>
    dsimp only
    rcases buildClient_cases w config a.callback a.userData with
      ⟨hqueue, -, hnoQueue, hnoClient, hnone⟩ | ⟨queue, hqueue, hcreated, -, -, hstep⟩ |
        ⟨hok, hbuilt⟩
    · exact iff_of_true (fun _ => (notBuilt_iff hnone).2 ⟨hnoQueue, hnoClient⟩) (.inl hqueue)
    · have herr : (buildClient w config a.callback a.userData).1 ≠ .ok := by
        rcases hstep with ⟨-, herr, -⟩ | ⟨hregister, herr, -⟩
        · rw [herr]
          exact nofun
        · rwa [herr]
      have hfailed : ¬ ((w.espMqttClientInit config.withDefaults.esp).isSome = true ∧
          w.registerEvent = .ok) := by
        intro hbuilt
        obtain ⟨hclient, hok⟩ := hbuilt
        rcases hstep with ⟨hnone, -⟩ | ⟨hregister, -⟩
        · rw [hnone] at hclient
          cases hclient
        · exact hregister hok
      refine iff_of_false (fun h => ?_) ?_
      · exact nomatch hqueue.symm.trans (h herr).queue
      · rw [hcreated]
        simpa using fun hclient hok => hfailed ⟨hclient, hok⟩
    · exact iff_of_true (fun h => absurd hok h) (.inr hbuilt)

def brokerArgs : InitArgs :=
  ⟨some { MqttConfig.zero with brokerUri := some "mqtt://broker".toList }, none, none⟩

theorem noQueue_undone :
    (mqtt5ClientInit ⟨none, fun _ => none, .ok⟩ brokerArgs .zero).1 = .noMem ∧
      NotBuilt brokerArgs (mqtt5ClientInit ⟨none, fun _ => none, .ok⟩ brokerArgs .zero).2.1 :=
  ⟨rfl, (mqtt5ClientInit_undone_iff ⟨none, fun _ => none, .ok⟩ brokerArgs .zero rfl).2 (.inl rfl)
    nofun⟩

/-- The esp-mqtt client cannot be created, and the deleted queue is still handed out. -/
theorem noClient_leavesQueue :
    (mqtt5ClientInit ⟨some 1, fun _ => none, .ok⟩ brokerArgs .zero).1 = .fail ∧
      (mqtt5ClientInit ⟨some 1, fun _ => none, .ok⟩ brokerArgs .zero).2.2 = [.queueDeleted 1] ∧
      mqtt5ClientGetEventQueue
        (mqtt5ClientInit ⟨some 1, fun _ => none, .ok⟩ brokerArgs .zero).2.1 = some 1 ∧
      ¬ ((mqtt5ClientInit ⟨some 1, fun _ => none, .ok⟩ brokerArgs .zero).1 ≠ .ok →
        NotBuilt brokerArgs (mqtt5ClientInit ⟨some 1, fun _ => none, .ok⟩ brokerArgs .zero).2.1) := by
  refine ⟨rfl, rfl, rfl, fun h => ?_⟩
  have hqueue := (h nofun).queue
  cases hqueue

end Leyu
