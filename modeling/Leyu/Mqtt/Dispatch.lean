import Leyu.Mqtt.Broker
import Leyu.Mqtt.EventTask

/-!
# Who handles a message

Every message is seen by two consumers: `mqtt_event_callback` compares its topic with two topics
made from the identifiers of the device, and `mqtt_event_task` searches the topic for fragments in
a fixed order. The key binding is known to both.
-/

namespace Leyu

open Framework

inductive Handler
  | sipInfo
  | serviceStatus
  | keyBindMessage
  | serverCommandResponse
  | voiceInterceptRules
  | voiceCallCommand
  | smsSendCommand
  | atCommand
  | otaUpgradeCommand
  | contactSyncMessage
  deriving DecidableEq, Repr

/-- `device_imei`, and the serial number as `read_sn_from_nvs` gives it. -/
structure Identity where
  imei : Text
  imei_short : imei.length < 25
  sn : Option Text

def topicGsmCall : Text := "/device/specific/app/gsm/call/".toList

def topicSmsCall : Text := "/device/specific/app/sms/call/".toList

def topicAtCall : Text := "/device/specific/app/at/call/".toList

def topicVersionUpgrade : Text := "/device/specific/app/version/upgrade/".toList

def topicContactSync : Text := "/device/specific/app/contact/sync/".toList

/-- `expected_topic` and `contact_topic` of the callback, as `snprintf` leaves them in buffers of
256. -/
def expectedTopic (sn : Text) : Text := (topicKeyBind ++ sn).take 255

def contactTopic (imei : Text) : Text := (topicContactSync ++ imei).take 255

/-- The handlers `mqtt_event_callback` calls for a topic. -/
def callbackHandlers (ids : Identity) (topic : Text) : List Handler :=
  (match ids.sn with
    | some sn => if sn ≠ [] ∧ topic = expectedTopic sn then [.keyBindMessage] else []
    | none => []) ++
  (if topic = contactTopic ids.imei then [.contactSyncMessage] else [])

def mqttEventCallback (ids : Identity) (event : MqttEvent) : List Handler :=
  event.received.elim [] fun message => callbackHandlers ids message.1

/-- The `strstr` tests of `mqtt_event_task`, in their order. -/
def taskTable : List (Text × Handler) :=
  [(topicSipInfo, .sipInfo), (topicServiceStatus, .serviceStatus), (topicKeyBind, .keyBindMessage),
    (topicSendResponse, .serverCommandResponse), (topicGsmRules, .voiceInterceptRules),
    (topicGsmCall, .voiceCallCommand), (topicSmsCall, .smsSendCommand), (topicAtCall, .atCommand),
    (topicVersionUpgrade, .otaUpgradeCommand)]

def taskHandler (topic : Text) : Option Handler :=
  (taskTable.find? fun entry => decide (Occurs entry.1 topic)).map Prod.snd

def handlersOf (ids : Identity) (handled : Handled) : List Handler :=
  mqttEventCallback ids handled.called ++
    handled.queued.toList.flatMap fun event =>
      event.received.toList.flatMap fun message => (taskHandler message.1).toList

/-- `snprintf` into the buffer of 128; a topic that does not fit is not subscribed. -/
def subscribeTopic (front imei : Text) : Option Text :=
  if (front ++ imei).length < 128 then some (front ++ imei) else none

/-- What `mqtt_event_task` subscribes when the client is connected; the topic of the key binding is
not checked for its length. -/
def subscribedTopics (imei : Text) : List Text :=
  [topicSipInfo, topicSendResponse, topicGsmRules, topicGsmCall, topicSmsCall, topicAtCall,
      topicVersionUpgrade].filterMap (subscribeTopic · imei) ++
    [(topicKeyBind ++ imei).take 127] ++ (subscribeTopic topicContactSync imei).toList

/-- A received message is handled at most once, and on a subscribed topic exactly once. -/
def ExecutedOnce (ids : Identity) (w : HandlerWorld) (event : DataEvent) (state : MqttState) :
    Prop :=
  let handlers := handlersOf ids (mqtt5EventHandler w (.data event) state)
  handlers.length ≤ 1 ∧ (event.topic ∈ subscribedTopics ids.imei → handlers.length = 1)

def BoundBySerial (ids : Identity) (topic : Text) : Prop :=
  ∃ sn ∈ ids.sn, sn ≠ [] ∧ topic = expectedTopic sn

/-- The topic is the one of the contact list, and the IMEI in it looks like a key binding. -/
def SyncLikeKeyBind (ids : Identity) (topic : Text) : Prop :=
  topic = contactTopic ids.imei ∧ Occurs topicKeyBind ids.imei

/-- The topics that both consumers handle. -/
def TakenTwice (ids : Identity) (topic : Text) : Prop :=
  BoundBySerial ids topic ∨ SyncLikeKeyBind ids topic

/-- The topics that the callback handles. -/
def ForCallback (ids : Identity) (topic : Text) : Prop :=
  BoundBySerial ids topic ∨ topic = contactTopic ids.imei

namespace HandlerWorld

/-- There is memory for the topic and the data. -/
def Builds (w : HandlerWorld) : Prop := w.topicAllocated = true ∧ w.dataAllocated = true

/-- There is memory for the copy of the event, and room for it in the queue. -/
def Queues (w : HandlerWorld) : Prop := w.copyAllocated = true ∧ w.queueHasRoom = true

instance (w : HandlerWorld) : Decidable w.Builds := by unfold Builds; infer_instance

instance (w : HandlerWorld) : Decidable w.Queues := by unfold Queues; infer_instance

end HandlerWorld

theorem dispatch_eq_taskHandler (o : Outside) (topic data : Text) (d : Device) :
    dispatch o topic data d =
      match taskHandler topic with
      | some .sipInfo => .running (parseSipInfo o data d)
      | some .serviceStatus => parseServiceStatus o data d
      | some .voiceInterceptRules => .running (parseVoiceInterceptRules o data d)
      | _ => .running d := by
  unfold dispatch taskHandler taskTable
  by_cases hsip : Occurs topicSipInfo topic
  · simp [hsip]
  by_cases hstatus : Occurs topicServiceStatus topic
  · simp [hsip, hstatus]
  by_cases hkey : Occurs topicKeyBind topic
  · simp [hsip, hstatus, hkey]
  by_cases hresponse : Occurs topicSendResponse topic
  · simp [hsip, hstatus, hkey, hresponse]
  by_cases hrules : Occurs topicGsmRules topic
  · simp [hsip, hstatus, hkey, hresponse, hrules]
  -- The handlers behind the rules leave the settings alone.
  · by_cases hcall : Occurs topicGsmCall topic
    · simp [hsip, hstatus, hkey, hresponse, hrules, hcall]
    · by_cases hsms : Occurs topicSmsCall topic
      · simp [hsip, hstatus, hkey, hresponse, hrules, hcall, hsms]
      · by_cases hat : Occurs topicAtCall topic
        · simp [hsip, hstatus, hkey, hresponse, hrules, hcall, hsms, hat]
        · by_cases hversion : Occurs topicVersionUpgrade topic <;>
            simp [hsip, hstatus, hkey, hresponse, hrules, hcall, hsms, hat, hversion]

private theorem taskHandler_isSome_iff (topic : Text) :
    (taskHandler topic).isSome = true ↔ ∃ entry ∈ taskTable, Occurs entry.1 topic := by
  simp only [taskHandler, Option.isSome_map, List.find?_isSome, decide_eq_true_eq]

private theorem taskHandler_of_prefix {front : Text} (hfront : front ∈ taskTable.map Prod.fst)
    (rest : Text) : (taskHandler (front ++ rest)).isSome = true := by
  obtain ⟨entry, hentry, rfl⟩ := List.mem_map.1 hfront
  exact (taskHandler_isSome_iff _).2 ⟨entry, hentry, (List.prefix_append _ _).isInfix⟩

/-- The topic of the contact list is left alone by the task, unless the IMEI brings the fragment of
the key binding into it. -/
theorem taskHandler_contactTopic (imei : Text) (hshort : imei.length < 25) :
    (taskHandler (topicContactSync ++ imei)).isSome = true ↔ Occurs topicKeyBind imei := by
  rw [taskHandler_isSome_iff]
  constructor
  · intro h
    obtain ⟨entry, hentry, hoccurs⟩ := h
    have hlong : ∀ needle : Text, ¬ Occurs needle topicContactSync →
        (∀ k ≤ topicContactSync.length, 1 < k →
          topicContactSync.drop (topicContactSync.length - k) ≠ needle.take k) →
        25 < needle.length → ¬ Occurs needle (topicContactSync ++ imei) := by
      intro needle hnot hborder hlength h
      rcases occurs_append_cases hnot hborder h with himei | ⟨-, hcross⟩
      · have hle := himei.length_le
        omega
      · omega
    simp only [taskTable, List.mem_cons, List.not_mem_nil, or_false] at hentry
    rcases hentry with rfl | rfl | rfl | rfl | rfl | rfl | rfl | rfl | rfl
    case inr.inr.inl =>
      rcases occurs_append_cases (m := 0) (by decide) (by decide) hoccurs with himei | hcross
      · exact himei
      · exact absurd hcross.1 (by decide)
    all_goals exact absurd hoccurs (hlong _ (by decide) (by decide) (by decide))
  · intro h
    exact ⟨(topicKeyBind, .keyBindMessage), by simp [taskTable], h.trans (List.suffix_append _ _).isInfix⟩

private theorem contactTopic_eq {imei : Text} (hshort : imei.length < 25) :
    contactTopic imei = topicContactSync ++ imei := by
  have hlength : (topicContactSync ++ imei).length ≤ 255 := by
    have hfront : topicContactSync.length = 34 := by decide
    rw [List.length_append]
    omega
  exact List.take_of_length_le hlength

private theorem handlersOf_data (ids : Identity) (w : HandlerWorld) (event : DataEvent)
    (state : MqttState) :
    handlersOf ids (mqtt5EventHandler w (.data event) state) =
      if w.Builds then
        callbackHandlers ids event.topic ++
          if w.Queues then (taskHandler event.topic).toList else []
      else [] := by
  have hreceived := received_data w event
  by_cases hb : w.Builds
  · have hread : (mqttEventOf w (.data event)).received = some (event.topic, event.data) := by
      rw [hreceived, pieceMessage, hb.1, hb.2]
      rfl
    rw [if_pos hb]
    by_cases hq : w.Queues
    · rw [if_pos hq]
      simp [handlersOf, mqtt5EventHandler, mqttEventCallback, hread, hq.1, hq.2]
    · rw [if_neg hq]
      have hnot : (w.copyAllocated && w.queueHasRoom) = false := by
        rwa [← Bool.not_eq_true, Bool.and_eq_true]
      simp [handlersOf, mqtt5EventHandler, mqttEventCallback, hread, hnot]
  · have hnot : (w.topicAllocated && w.dataAllocated) = false := by
      rwa [← Bool.not_eq_true, Bool.and_eq_true]
    have hread : (mqttEventOf w (.data event)).received = none := by
      rw [hreceived, pieceMessage, hnot]
      rfl
    rw [if_neg hb]
    cases hq : w.copyAllocated && w.queueHasRoom <;>
      simp [handlersOf, mqtt5EventHandler, mqttEventCallback, hread, hq]

private theorem expectedTopic_eq (sn : Text) : expectedTopic sn = topicKeyBind ++ sn.take 246 :=
  List.take_append

private theorem expectedTopic_ne_contactTopic (sn imei : Text) :
    expectedTopic sn ≠ contactTopic imei := by
  have hbinding : topicKeyBind.head? = some 'k' := by decide
  have hcontact : topicContactSync.head? = some '/' := by decide
  intro h
  have hhead := congrArg List.head? h
  rw [expectedTopic_eq, contactTopic, List.head?_take, List.head?_append, List.head?_append,
    hbinding, hcontact] at hhead
  exact absurd hhead (by simp)

private theorem callbackHandlers_length_of {ids : Identity} {topic : Text}
    (h : ForCallback ids topic) : (callbackHandlers ids topic).length = 1 := by
  unfold callbackHandlers
  rcases h with ⟨sn, hsn, hmatch⟩ | hcontact
  · have hsome : ids.sn = some sn := hsn
    have hother : topic ≠ contactTopic ids.imei := by
      rw [hmatch.2]
      exact expectedTopic_ne_contactTopic sn ids.imei
    simp [hsome, hmatch.1, ← hmatch.2, hother]
  · have hother : ∀ sn, topic ≠ expectedTopic sn := by
      intro sn h
      exact expectedTopic_ne_contactTopic sn ids.imei (h.symm.trans hcontact)
    cases ids.sn <;> simp [hcontact, hcontact ▸ hother _]

private theorem callbackHandlers_eq_nil {ids : Identity} {topic : Text}
    (h : ¬ ForCallback ids topic) : callbackHandlers ids topic = [] := by
  obtain ⟨hbound, hcontact⟩ := not_or.mp h
  unfold callbackHandlers
  rw [if_neg hcontact, List.append_nil]
  cases hsn : ids.sn with
  | none => rfl
  | some sn =>
    have hnomatch : ¬ (sn ≠ [] ∧ topic = expectedTopic sn) := fun hmatch =>
      hbound ⟨sn, hsn, hmatch⟩
    simp only [if_neg hnomatch]

private theorem taskHandler_expectedTopic (sn : Text) :
    (taskHandler (expectedTopic sn)).isSome = true := by
  rw [expectedTopic_eq]
  exact taskHandler_of_prefix (by simp [taskTable]) _

private theorem takenTwice_iff (ids : Identity) (topic : Text) :
    TakenTwice ids topic ↔ ForCallback ids topic ∧ (taskHandler topic).isSome = true := by
  have hsync : topic = contactTopic ids.imei →
      ((taskHandler topic).isSome = true ↔ Occurs topicKeyBind ids.imei) := by
    rintro rfl
    rw [contactTopic_eq ids.imei_short, taskHandler_contactTopic ids.imei ids.imei_short]
  constructor
  · rintro (hbound | ⟨hcontact, hlike⟩)
    · obtain ⟨sn, -, -, htopic⟩ := id hbound
      exact ⟨.inl hbound, htopic ▸ taskHandler_expectedTopic sn⟩
    · exact ⟨.inr hcontact, (hsync hcontact).mpr hlike⟩
  · rintro ⟨hbound | hcontact, htask⟩
    · exact .inl hbound
    · exact .inr ⟨hcontact, (hsync hcontact).mp htask⟩

private theorem taskHandler_subscribed {imei topic : Text} (hshort : imei.length < 25)
    (h : topic ∈ subscribedTopics imei) :
    topic = contactTopic imei ∨ (taskHandler topic).isSome = true := by
  have hsubscribe : ∀ front, topic ∈ subscribeTopic front imei → topic = front ++ imei := by
    intro front hfront
    unfold subscribeTopic at hfront
    split at hfront
    · exact (Option.some.inj hfront).symm
    · cases hfront
  simp only [subscribedTopics, List.mem_append, List.mem_singleton, List.mem_filterMap,
    Option.mem_toList] at h
  rcases h with (⟨front, hfront, htopic⟩ | hkey) | hcontact
  · right
    rw [hsubscribe front htopic]
    apply taskHandler_of_prefix
    simp only [List.mem_cons, List.not_mem_nil, or_false] at hfront
    rcases hfront with rfl | rfl | rfl | rfl | rfl | rfl | rfl <;> simp [taskTable]
  · right
    have hcut : (topicKeyBind ++ imei).take 127 = topicKeyBind ++ imei.take 118 := List.take_append
    rw [hkey, hcut]
    exact taskHandler_of_prefix (by simp [taskTable]) _
  · left
    rw [hsubscribe topicContactSync hcontact, contactTopic_eq hshort]

/-- A message is handled as often as it should be exactly when no second consumer gets at a topic
that is taken twice, and one of a subscribed topic is built, and queued unless the callback handles
it. -/
theorem executedOnce_iff (ids : Identity) (w : HandlerWorld) (event : DataEvent)
    (state : MqttState) :
    ExecutedOnce ids w event state ↔
      ¬ (TakenTwice ids event.topic ∧ w.Builds ∧ w.Queues) ∧
        (event.topic ∈ subscribedTopics ids.imei →
          w.Builds ∧ (w.Queues ∨ ForCallback ids event.topic)) := by
  have hsubscribed : event.topic ∈ subscribedTopics ids.imei →
      ForCallback ids event.topic ∨ (taskHandler event.topic).isSome = true := fun h =>
    (taskHandler_subscribed ids.imei_short h).imp_left .inr
  simp only [ExecutedOnce, handlersOf_data, takenTwice_iff]
  by_cases hb : w.Builds
  · simp only [hb, if_true, true_and, List.length_append]
    by_cases hc : ForCallback ids event.topic
    · rw [callbackHandlers_length_of hc]
      simp only [hc, true_and, or_true, implies_true, and_true]
      by_cases hq : w.Queues
      · cases taskHandler event.topic <;> simp [hq]
      · simp [hq]
    · rw [callbackHandlers_eq_nil hc]
      simp only [hc, false_and, or_false, not_false_eq_true, true_and, List.length_nil,
        Nat.zero_add]
      by_cases hq : w.Queues
      · cases hh : taskHandler event.topic with
        | none =>
          have hnot : event.topic ∉ subscribedTopics ids.imei := by
            intro h
            rcases hsubscribed h with h | h
            · exact hc h
            · exact absurd h (by simp [hh])
          simp [hq, hnot]
        | some handler => simp [hq]
      · simp [hq]
  · simp [hb]

def sameIdentity : Identity where
  imei := "860000000000001".toList
  imei_short := by decide
  sn := some "860000000000001".toList

def bindingEvent : DataEvent where
  topic := "key_bind/860000000000001".toList
  data := "\x7b\x7d".toList
  totalDataLen := 2
  currentDataOffset := 0
  qos := 0
  msgId := 1
  retain := false

theorem bindingEvent_twice :
    bindingEvent.topic ∈ subscribedTopics sameIdentity.imei ∧
      handlersOf sameIdentity (mqtt5EventHandler roomyWorld (.data bindingEvent) .connected) =
        [.keyBindMessage, .keyBindMessage] ∧
      ¬ ExecutedOnce sameIdentity roomyWorld bindingEvent .connected := by
  have htwice : handlersOf sameIdentity
      (mqtt5EventHandler roomyWorld (.data bindingEvent) .connected) =
        [.keyBindMessage, .keyBindMessage] := by
    rw [handlersOf_data]
    decide
  refine ⟨by decide, htwice, ?_⟩
  intro h
  have hone := h.1
  rw [htwice] at hone
  exact absurd hone (by decide)

end Leyu
