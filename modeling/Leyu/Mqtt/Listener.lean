import Leyu.Mqtt.Broker

/-!
# The event task behind the queue

`mqtt_event_task` subscribes when it takes a `MQTT_STATE_CONNECTED` out of the queue, resets its
subscription flag on `MQTT_STATE_DISCONNECTED` and handles a message on
`MQTT_STATE_DATA_RECEIVED`. The handler also makes a state out of the message id of an
`MQTT_EVENT_PUBLISHED`, and three message ids are the numbers of just these states.
-/

namespace Leyu

open Framework

inductive TaskAction
  | subscribeTopics
  | sendHeartbeatOn
  | resetSubscribed
  | parseData (topic data : Text)
  deriving DecidableEq

/-- One event of the queue: the subscription flag afterwards and what the task does. -/
def mqttEventTaskOn (mqttSubscribed : Bool) (event : MqttEvent) : Bool × List TaskAction :=
  match event.state with
  | .connected =>
      (true, (if mqttSubscribed then [] else [.subscribeTopics]) ++ [.sendHeartbeatOn])
  | .dataReceived =>
      (mqttSubscribed, event.received.toList.map fun message => .parseData message.1 message.2)
  | .disconnected => (false, [.resetSubscribed])
  | _ => (mqttSubscribed, [])

/-- The client with its queue; each event of the queue with the event of the broker for which it
was put there. -/
structure Listener where
  clientState : MqttState
  queue : List (EspMqttEvent × MqttEvent)
  mqttSubscribed : Bool

inductive ListenerStep
  | broker (w : HandlerWorld) (event : EspMqttEvent)
  | task

namespace Listener

def init : Listener := ⟨.disconnected, [], false⟩

def step (s : Listener) : ListenerStep → Listener
  | .broker w event =>
      let handled := mqtt5EventHandler w event s.clientState
      { s with
        clientState := handled.clientState
        queue := s.queue ++ handled.queued.toList.map fun e => (event, e) }
  | .task =>
      match s.queue with
      | [] => s
      | (_, e) :: rest =>
          { s with queue := rest, mqttSubscribed := (mqttEventTaskOn s.mqttSubscribed e).1 }

end Listener

/-- The three states by which the application acts stand for their own broker events. -/
def NotConfused (origin : EspMqttEvent) (event : MqttEvent) : Prop :=
  (event.state = .connected → origin = .connected) ∧
    (event.state = .disconnected → origin = .disconnected) ∧
    (event.state = .dataReceived → ∃ d, origin = .data d)

/-- The task does this only for the event of the broker it is meant for. -/
def TaskAction.Justified (origin : EspMqttEvent) : TaskAction → Prop
  | .subscribeTopics => origin = .connected
  | .sendHeartbeatOn => origin = .connected
  | .resetSubscribed => origin = .disconnected
  | .parseData topic data => ∃ d, origin = .data d ∧ d.topic = topic ∧ d.data = data

/-- What the separation says of one step: of the event given to the callback and to the
queue, or of what the task does with the event it takes. -/
def StepNotConfused (s : Listener) : ListenerStep → Prop
  | .broker w event =>
      let handled := mqtt5EventHandler w event s.clientState
      NotConfused event handled.called ∧ ∀ e ∈ handled.queued, NotConfused event e
  | .task =>
      ∀ x ∈ s.queue.head?, ∀ a ∈ (mqttEventTaskOn s.mqttSubscribed x.2).2, a.Justified x.1

/-- The message id of an `MQTT_EVENT_PUBLISHED` is not the number of one of the three states. -/
def NoAlias : ListenerStep → Prop
  | .broker _ (.published msgId) => msgId ≠ 0 ∧ msgId ≠ 2 ∧ msgId ≠ 4
  | _ => True

def Listener.Inv (s : Listener) : Prop :=
  ∀ x ∈ s.queue, NotConfused x.1 x.2 ∧ ∃ w, x.2 = mqttEventOf w x.1

private theorem MqttState.ofInt_acting_iff (value : Int) :
    (MqttState.ofInt value ≠ .disconnected ∧ MqttState.ofInt value ≠ .connected ∧
      MqttState.ofInt value ≠ .dataReceived) ↔ value ≠ 0 ∧ value ≠ 2 ∧ value ≠ 4 := by
  unfold MqttState.ofInt
  split <;> simp_all

private theorem notConfused_iff (w : HandlerWorld) (event : EspMqttEvent) :
    NotConfused event (mqttEventOf w event) ↔ NoAlias (.broker w event) := by
  cases event with
  | published msgId =>
    show NotConfused _ _ ↔ msgId ≠ 0 ∧ msgId ≠ 2 ∧ msgId ≠ 4
    rw [← MqttState.ofInt_acting_iff]
    simp only [NotConfused, mqttEventOf, reduceCtorEq, exists_false, imp_false, ne_eq]
    exact and_left_comm
  | _ => simp [NotConfused, mqttEventOf, NoAlias]

private theorem received_mqttEventOf {w : HandlerWorld} {origin : EspMqttEvent}
    {message : Text × Text} (h : (mqttEventOf w origin).received = some message) :
    ∃ d, origin = .data d ∧ d.topic = message.1 ∧ d.data = message.2 := by
  cases origin with
  | data d =>
    rw [received_data, pieceMessage] at h
    split at h
    · have hmessage : (d.topic, d.data) = message := Option.some.inj h
      exact ⟨d, rfl, congrArg Prod.fst hmessage, congrArg Prod.snd hmessage⟩
    · cases h
  | published msgId =>
    have hnone : (mqttEventOf w (.published msgId)).received = none := by
      simp [mqttEventOf, MqttEvent.received]
    rw [hnone] at h
    cases h
  | _ => cases h

private theorem justified_of_notConfused {w : HandlerWorld} {origin : EspMqttEvent}
    (h : NotConfused origin (mqttEventOf w origin)) (mqttSubscribed : Bool) (a : TaskAction)
    (ha : a ∈ (mqttEventTaskOn mqttSubscribed (mqttEventOf w origin)).2) : a.Justified origin := by
  unfold mqttEventTaskOn at ha
  split at ha
  · rename_i hstate
    have horigin := h.1 hstate
    have hcases : a = .subscribeTopics ∨ a = .sendHeartbeatOn := by
      cases mqttSubscribed <;> simp_all
    rcases hcases with rfl | rfl
    · exact horigin
    · exact horigin
  · obtain ⟨message, hmessage, rfl⟩ := List.mem_map.1 ha
    exact received_mqttEventOf (Option.mem_toList.1 hmessage)
  · rename_i hstate
    obtain rfl := List.mem_singleton.1 ha
    exact h.2.1 hstate
  · exact absurd ha List.not_mem_nil

private theorem mem_queued {w : HandlerWorld} {event : EspMqttEvent} {state : MqttState}
    {e : MqttEvent} (h : e ∈ (mqtt5EventHandler w event state).queued) : e = mqttEventOf w event := by
  simp only [mqtt5EventHandler] at h
  split at h
  · exact (Option.some.inj h).symm
  · cases h

theorem inv_broker {s : Listener} (hs : s.Inv) {w : HandlerWorld} {event : EspMqttEvent}
    (h : NotConfused event (mqttEventOf w event)) : (s.step (.broker w event)).Inv := by
  intro x hx
  rcases List.mem_append.1 hx with hold | hnew
  · exact hs x hold
  · obtain ⟨e, he, rfl⟩ := List.mem_map.1 hnew
    have hevent : e = mqttEventOf w event := mem_queued (Option.mem_toList.1 he)
    subst hevent
    exact ⟨h, w, rfl⟩

theorem inv_task {s : Listener} (hs : s.Inv) : (s.step .task).Inv := by
  unfold Listener.step
  cases hqueue : s.queue with
  | nil => exact hs
  | cons head rest =>
    intro x hx
    apply hs x
    rw [hqueue]
    exact List.mem_cons_of_mem head hx

private theorem stepNotConfused_broker_iff (s : Listener) (w : HandlerWorld)
    (event : EspMqttEvent) :
    StepNotConfused s (.broker w event) ↔ NoAlias (.broker w event) := by
  rw [← notConfused_iff]
  constructor
  · intro h
    exact h.1
  · intro h
    refine ⟨h, ?_⟩
    intro e he
    rw [mem_queued he]
    exact h

private theorem stepNotConfused_task {s : Listener} (hs : s.Inv) : StepNotConfused s .task := by
  intro x hx a ha
  have hmem : x ∈ s.queue := List.mem_of_mem_head? hx
  obtain ⟨hnot, w, hevent⟩ := hs x hmem
  rw [hevent] at hnot ha
  exact justified_of_notConfused hnot s.mqttSubscribed a ha

/-- Over every sequence of broker events and turns of the task, events are not confused exactly as
long as no publication is acknowledged under one of the three message ids. -/
theorem notConfused_run_iff (steps : List ListenerStep) :
    AllSteps Listener.step StepNotConfused .init steps ↔
      AllSteps Listener.step (fun _ l => NoAlias l) .init steps := by
  have hinit : Listener.init.Inv := fun x hx => absurd hx List.not_mem_nil
  apply allSteps_congr (I := Listener.Inv) _ _ hinit steps
  · intro s l hs hok
    cases l with
    | broker w event =>
      have hgood := (stepNotConfused_broker_iff s w event).2 hok
      exact ⟨hgood, inv_broker hs hgood.1⟩
    | task => exact ⟨stepNotConfused_task hs, inv_task hs⟩
  · intro s l _ hgood
    cases l with
    | broker w event => exact (stepNotConfused_broker_iff s w event).1 hgood
    | task => trivial

/-- The broker acknowledges the publication with message id 2, and the task takes that for a new
connection. -/
def acknowledged : List ListenerStep := [.broker roomyWorld (.published 2), .task]

theorem acknowledged_confused :
    ¬ AllSteps Listener.step StepNotConfused .init acknowledged ∧
      (mqttEventTaskOn false (mqttEventOf roomyWorld (.published 2))).2 =
        [.subscribeTopics, .sendHeartbeatOn] := by
  refine ⟨?_, rfl⟩
  intro h
  have hpublished := h.1.1.1 rfl
  cases hpublished

end Leyu
