import Leyu.Framework.Runs
import Leyu.Framework.CString

/-!
# Events of the broker

`mqtt5_event_handler` turns each event of the esp-mqtt client into one application event, hands it
to the callback and then puts it into the event queue. The client was set up by
`mqtt5_client_init`, with a callback and a queue.

A message longer than the receive buffer comes as several `MQTT_EVENT_DATA` events. Nothing joins
them, so only a message that comes in one piece arrives whole.
-/

namespace Leyu

open Framework

/-- `mqtt_state_t`; the numbers are those of the enumeration. -/
inductive MqttState
  | disconnected
  | connecting
  | connected
  | reconnecting
  | dataReceived
  | error
  | idle
  | other (value : Int)
  deriving DecidableEq, Repr

def MqttState.ofInt : Int → MqttState
  | 0 => .disconnected
  | 1 => .connecting
  | 2 => .connected
  | 3 => .reconnecting
  | 4 => .dataReceived
  | 5 => .error
  | 6 => .idle
  | value => .other value

/-- `mqtt_message_t`; a null pointer is `none`. -/
structure MqttMessage where
  topic : Option Text := none
  data : Option Text := none
  dataLen : Nat := 0
  qos : Int := 0
  msgId : Int := 0
  retain : Bool := false

/-- `mqtt_event_t` -/
structure MqttEvent where
  state : MqttState
  errorCode : Int := 0
  message : MqttMessage := {}

structure DataEvent where
  topic : Text
  data : Text
  totalDataLen : Nat
  currentDataOffset : Nat
  qos : Int
  msgId : Int
  retain : Bool

/-- An event of the esp-mqtt client, with the fields the handler reads. -/
inductive EspMqttEvent
  | connected
  | disconnected
  | subscribed (msgId : Int)
  | unsubscribed (msgId : Int)
  | published (msgId : Int)
  | data (event : DataEvent)
  | error (connectReturnCode : Int)
  | other (eventId : Int)

/-- What one call of the handler finds: memory for the topic, for the data and for the copy that
goes into the queue, and room in the queue. -/
structure HandlerWorld where
  topicAllocated : Bool
  dataAllocated : Bool
  copyAllocated : Bool
  queueHasRoom : Bool

/-- The message of a data event; without memory for topic and data there is none. -/
def mqttMessageOf (w : HandlerWorld) (event : DataEvent) : MqttMessage :=
  if w.topicAllocated && w.dataAllocated then
    { topic := some event.topic
      data := some event.data
      dataLen := event.data.length
      qos := event.qos
      msgId := event.msgId
      retain := event.retain }
  else {}

def mqttEventOf (w : HandlerWorld) : EspMqttEvent → MqttEvent
  | .connected => { state := .connected }
  | .disconnected => { state := .disconnected }
  | .subscribed _ => { state := .connecting }
  | .unsubscribed _ => { state := .connecting }
  | .published msgId => { state := .ofInt msgId }
  | .data event => { state := .dataReceived, message := mqttMessageOf w event }
  | .error connectReturnCode => { state := .error, errorCode := connectReturnCode }
  | .other _ => { state := .idle }

def clientStateAfter (state : MqttState) : EspMqttEvent → MqttState
  | .connected => .connected
  | .disconnected => .disconnected
  | .error _ => .error
  | _ => state

/-- What one call of the handler does: the state of the client, the event the callback is called
with, and the event that goes into the queue. -/
structure Handled where
  clientState : MqttState
  called : MqttEvent
  queued : Option MqttEvent

def mqtt5EventHandler (w : HandlerWorld) (event : EspMqttEvent) (state : MqttState) : Handled where
  clientState := clientStateAfter state event
  called := mqttEventOf w event
  queued := if w.copyAllocated && w.queueHasRoom then some (mqttEventOf w event) else none

structure Traffic where
  clientState : MqttState
  called : List MqttEvent
  queued : List MqttEvent

def Traffic.step (t : Traffic) (l : EspMqttEvent × HandlerWorld) : Traffic :=
  let handled := mqtt5EventHandler l.2 l.1 t.clientState
  { clientState := handled.clientState
    called := t.called ++ [handled.called]
    queued := t.queued ++ handled.queued.toList }

def MqttEvent.received (event : MqttEvent) : Option (Text × Text) :=
  if event.state = .dataReceived then
    event.message.topic.bind fun topic => event.message.data.map fun data => (topic, data)
  else none

/-- A publication as the esp-mqtt client delivers it: its pieces in order, each with what its
handling finds. A topic has at least one character, and a piece after the first at least one
byte. -/
structure Delivery where
  topic : Text
  topic_ne : topic ≠ []
  first : Text × HandlerWorld
  rest : List (Text × HandlerWorld)
  rest_ne : ∀ piece ∈ rest, piece.1 ≠ []
  qos : Int
  msgId : Int
  retain : Bool

namespace Delivery

def payload (d : Delivery) : Text := d.first.1 ++ d.rest.flatMap Prod.fst

def dataEvent (d : Delivery) (topic data : Text) (offset : Nat) : DataEvent where
  topic := topic
  data := data
  totalDataLen := d.payload.length
  currentDataOffset := offset
  qos := d.qos
  msgId := d.msgId
  retain := d.retain

/-- The events of the pieces from some offset on, without the topic. -/
def laterEvents (d : Delivery) : Nat → List (Text × HandlerWorld) → List (EspMqttEvent × HandlerWorld)
  | _, [] => []
  | offset, piece :: rest =>
      (.data (d.dataEvent [] piece.1 offset), piece.2) ::
        d.laterEvents (offset + piece.1.length) rest

def events (d : Delivery) : List (EspMqttEvent × HandlerWorld) :=
  (.data (d.dataEvent d.topic d.first.1 0), d.first.2) :: d.laterEvents d.first.1.length d.rest

/-- Exactly one more message, with the topic and the complete payload, for the callback, and the
same one for the queue. -/
def ArrivesWhole (d : Delivery) (t : Traffic) : Prop :=
  let t' := run Traffic.step t d.events
  t'.called.filterMap MqttEvent.received =
      t.called.filterMap MqttEvent.received ++ [(d.topic, d.payload)] ∧
    t'.queued.filterMap MqttEvent.received =
      t.queued.filterMap MqttEvent.received ++ [(d.topic, d.payload)]

/-- The publication comes in one piece, and its handling finds memory and room. -/
def InOnePiece (d : Delivery) : Prop :=
  d.rest = [] ∧ d.first.2.topicAllocated = true ∧ d.first.2.dataAllocated = true ∧
    d.first.2.copyAllocated = true ∧ d.first.2.queueHasRoom = true

end Delivery

def pieceMessage (topic : Text) (piece : Text × HandlerWorld) : Option (Text × Text) :=
  if piece.2.topicAllocated && piece.2.dataAllocated then some (topic, piece.1) else none

def queuedMessage (topic : Text) (piece : Text × HandlerWorld) : Option (Text × Text) :=
  if piece.2.copyAllocated && piece.2.queueHasRoom then pieceMessage topic piece else none

theorem received_data (w : HandlerWorld) (event : DataEvent) :
    (mqttEventOf w (.data event)).received = pieceMessage event.topic (event.data, w) := by
  cases h : w.topicAllocated && w.dataAllocated <;>
    simp [mqttEventOf, MqttEvent.received, mqttMessageOf, pieceMessage, h]

private theorem queued_data (w : HandlerWorld) (event : DataEvent) (state : MqttState) :
    (mqtt5EventHandler w (.data event) state).queued.bind MqttEvent.received =
      queuedMessage event.topic (event.data, w) := by
  cases h : w.copyAllocated && w.queueHasRoom with
  | false => simp [mqtt5EventHandler, queuedMessage, h]
  | true =>
    have hreceived := received_data w event
    simp [mqtt5EventHandler, queuedMessage, h, hreceived]

private theorem step_data (t : Traffic) (w : HandlerWorld) (event : DataEvent) :
    (t.step (.data event, w)).called.filterMap MqttEvent.received =
        t.called.filterMap MqttEvent.received ++ (pieceMessage event.topic (event.data, w)).toList ∧
      (t.step (.data event, w)).queued.filterMap MqttEvent.received =
        t.queued.filterMap MqttEvent.received ++ (queuedMessage event.topic (event.data, w)).toList := by
  have hqueued := queued_data w event t.clientState
  constructor
  · simp only [Traffic.step, mqtt5EventHandler, List.filterMap_append, List.filterMap_cons,
      List.filterMap_nil, received_data]
    cases pieceMessage event.topic (event.data, w) <;> rfl
  · simp only [Traffic.step, List.filterMap_append]
    rw [← hqueued]
    cases (mqtt5EventHandler w (.data event) t.clientState).queued with
    | none => rfl
    | some e => cases h : e.received <;> simp [h]

theorem run_laterEvents (d : Delivery) (t : Traffic) (offset : Nat)
    (rest : List (Text × HandlerWorld)) :
    (run Traffic.step t (d.laterEvents offset rest)).called.filterMap MqttEvent.received =
        t.called.filterMap MqttEvent.received ++ rest.filterMap (pieceMessage []) ∧
      (run Traffic.step t (d.laterEvents offset rest)).queued.filterMap MqttEvent.received =
        t.queued.filterMap MqttEvent.received ++ rest.filterMap (queuedMessage []) := by
  induction rest generalizing t offset with
  | nil => simp [Delivery.laterEvents]
  | cons piece rest ih =>
    have hstep := step_data t piece.2 (d.dataEvent [] piece.1 offset)
    have hrest := ih (t.step (.data (d.dataEvent [] piece.1 offset), piece.2))
      (offset + piece.1.length)
    rw [Delivery.laterEvents, run_cons, hrest.1, hrest.2, hstep.1, hstep.2]
    constructor
    · cases h : pieceMessage [] piece <;> simp [Delivery.dataEvent, h]
    · cases h : queuedMessage [] piece <;> simp [Delivery.dataEvent, h]

theorem run_events (d : Delivery) (t : Traffic) :
    (run Traffic.step t d.events).called.filterMap MqttEvent.received =
        t.called.filterMap MqttEvent.received ++
          ((pieceMessage d.topic d.first).toList ++ d.rest.filterMap (pieceMessage [])) ∧
      (run Traffic.step t d.events).queued.filterMap MqttEvent.received =
        t.queued.filterMap MqttEvent.received ++
          ((queuedMessage d.topic d.first).toList ++ d.rest.filterMap (queuedMessage [])) := by
  have hstep := step_data t d.first.2 (d.dataEvent d.topic d.first.1 0)
  have hrest := run_laterEvents d (t.step (.data (d.dataEvent d.topic d.first.1 0), d.first.2))
    d.first.1.length d.rest
  rw [Delivery.events, run_cons, hrest.1, hrest.2, hstep.1, hstep.2]
  constructor <;> simp [Delivery.dataEvent, List.append_assoc]

private theorem topic_of_mem_later {rest : List (Text × HandlerWorld)} {message : Text × Text}
    (h : message ∈ rest.filterMap (pieceMessage [])) : message.1 = [] := by
  obtain ⟨piece, -, hpiece⟩ := List.mem_filterMap.1 h
  unfold pieceMessage at hpiece
  split at hpiece
  · exact (congrArg Prod.fst (Option.some.inj hpiece)).symm
  · cases hpiece

private theorem onePiece_of_called (d : Delivery)
    (h : (pieceMessage d.topic d.first).toList ++ d.rest.filterMap (pieceMessage []) =
      [(d.topic, d.payload)]) :
    d.rest = [] ∧ d.first.2.topicAllocated = true ∧ d.first.2.dataAllocated = true := by
  cases hfirst : pieceMessage d.topic d.first with
  | none =>
    rw [hfirst] at h
    have hmem : (d.topic, d.payload) ∈ d.rest.filterMap (pieceMessage []) := by
      have hlater : d.rest.filterMap (pieceMessage []) = [(d.topic, d.payload)] := h
      rw [hlater]
      exact List.mem_singleton_self _
    exact absurd (topic_of_mem_later hmem) d.topic_ne
  | some message =>
    rw [hfirst] at h
    have hmessage : message = (d.topic, d.payload) := (List.cons.inj h).1
    have hallocated : d.first.2.topicAllocated = true ∧ d.first.2.dataAllocated = true := by
      by_contra hne
      rw [← Bool.and_eq_true] at hne
      simp [pieceMessage, hne] at hfirst
    have hwhole : d.first.1 = d.payload := by
      rw [pieceMessage, hallocated.1, hallocated.2, hmessage] at hfirst
      exact congrArg Prod.snd (Option.some.inj hfirst)
    have hempty : d.rest.flatMap Prod.fst = [] := List.append_right_eq_self.1 hwhole.symm
    have hrest : d.rest = [] := by
      apply List.eq_nil_iff_forall_not_mem.2
      intro piece hpiece
      exact d.rest_ne piece hpiece (List.flatMap_eq_nil_iff.1 hempty piece hpiece)
    exact ⟨hrest, hallocated⟩

/-- A publication arrives whole exactly when it comes in one piece and its handling finds memory
and room. -/
theorem arrivesWhole_iff (d : Delivery) (t : Traffic) : d.ArrivesWhole t ↔ d.InOnePiece := by
  have hrun := run_events d t
  simp only [Delivery.ArrivesWhole, hrun.1, hrun.2, List.append_cancel_left_eq]
  constructor
  · intro h
    have hpiece := onePiece_of_called d h.1
    have hqueued := h.2
    rw [hpiece.1] at hqueued
    refine ⟨hpiece.1, hpiece.2.1, hpiece.2.2, ?_⟩
    rw [← Bool.and_eq_true]
    by_contra hne
    simp [queuedMessage, hne] at hqueued
  · intro h
    have hpayload : d.payload = d.first.1 := by simp [Delivery.payload, h.1]
    have hmessage : pieceMessage d.topic d.first = some (d.topic, d.payload) := by
      simp [pieceMessage, h.2.1, h.2.2.1, hpayload]
    have hqueued : queuedMessage d.topic d.first = some (d.topic, d.payload) := by
      simp [queuedMessage, h.2.2.2.1, h.2.2.2.2, hmessage]
    simp [h.1, hmessage, hqueued]

def roomyWorld : HandlerWorld := ⟨true, true, true, true⟩

def twoPieces (topic head tail : Text) (htopic : topic ≠ []) (htail : tail ≠ []) : Delivery where
  topic := topic
  topic_ne := htopic
  first := (head, roomyWorld)
  rest := [(tail, roomyWorld)]
  rest_ne := by
    intro piece hpiece
    obtain rfl := List.mem_singleton.1 hpiece
    exact htail
  qos := 0
  msgId := 1
  retain := false

private theorem twoPieces_called (topic head tail : Text) (htopic : topic ≠ []) (htail : tail ≠ [])
    (state : MqttState) :
    (run Traffic.step ⟨state, [], []⟩ (twoPieces topic head tail htopic htail).events).called.filterMap
        MqttEvent.received = [(topic, head), ([], tail)] := by
  rw [(run_events _ _).1]
  rfl

private theorem twoPieces_not_whole (topic head tail : Text) (htopic : topic ≠ [])
    (htail : tail ≠ []) (state : MqttState) :
    ¬ (twoPieces topic head tail htopic htail).ArrivesWhole ⟨state, [], []⟩ := by
  intro harrives
  have hone := harrives.1
  rw [twoPieces_called] at hone
  have hlength : 2 = 1 := congrArg List.length hone
  omega

/-- A contact list somewhat longer than the receive buffer of 1240: the callback is given its two
pieces as two messages, the second one without a topic. -/
theorem longDelivery_torn :
    let d := twoPieces "/device/specific/app/contact/sync/860000000000001".toList
      (List.replicate 1180 'a') (List.replicate 300 'b') (by decide) (List.cons_ne_nil _ _)
    ¬ d.ArrivesWhole ⟨.connected, [], []⟩ ∧
      (run Traffic.step ⟨.connected, [], []⟩ d.events).called.filterMap MqttEvent.received =
        [(d.topic, List.replicate 1180 'a'), ([], List.replicate 300 'b')] :=
  ⟨twoPieces_not_whole _ _ _ _ _ _, twoPieces_called _ _ _ _ _ _⟩

end Leyu
