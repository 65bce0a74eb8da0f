import Leyu.Framework.Scan
import Leyu.Mqtt.Handlers

/-!
# The MQTT event task

How `mqtt_event_task` deals with a received message: the topic decides on the handler, and
afterwards on the item under which the message is stored.
-/

namespace Leyu

open Framework

def topicSipInfo : Text := "/device/specific/app/sip/info/".toList

def topicServiceStatus : Text := "/device/specific/app/service/status/".toList

def topicKeyBind : Text := "key_bind/".toList

def topicSendResponse : Text := "/device/specific/app/send/response/".toList

def topicGsmRules : Text := "/device/specific/app/gsm/rules/".toList

/-- The handler for a topic. The key binding, the server's answers and the topics behind the
rules have handlers that leave these settings alone. -/
def dispatch (o : Outside) (topic data : Text) (d : Device) : Outcome :=
  if Occurs topicSipInfo topic then .running (parseSipInfo o data d)
  else if Occurs topicServiceStatus topic then parseServiceStatus o data d
  else if Occurs topicKeyBind topic then .running d
  else if Occurs topicSendResponse topic then .running d
  else if Occurs topicGsmRules topic then .running (parseVoiceInterceptRules o data d)
  else .running d

/-- The storing of a message after its handler has returned. -/
def storeMessage (topic data : Text) (d : Device) : Device :=
  let d := d.nvsOpen
  let d :=
    if Occurs topicSipInfo topic then d.nvsSetStr .sipInfo data
    else if Occurs topicGsmRules topic then d.nvsSetStr .rules data
    else if Occurs topicServiceStatus topic then d.nvsSetStr .srvStat data
    else d
  d.nvsClose

/-- `mqtt_event_task` on `MQTT_STATE_DATA_RECEIVED`. -/
def mqttEventTask (o : Outside) (topic data : Text) (d : Device) : Outcome :=
  match dispatch o topic data d with
  | .running d => .running (storeMessage topic data d)
  | .restarted flash => .restarted flash

private theorem slash_notMem (imei : Digits) : '/' ∉ imei.text := by
  intro h
  exact absurd (imei.digits '/' h) (by decide)

private theorem occurs_topic {needle topic : Text} (hneedle : needle.dropLast ++ ['/'] = needle)
    (imei : Digits) (h : Occurs needle (topic ++ imei.text)) : Occurs needle topic :=
  occurs_of_last_notMem hneedle (slash_notMem imei) h

theorem mqttEventTask_rules (o : Outside) (imei : Digits) (data : Text) (d : Device) :
    mqttEventTask o (topicGsmRules ++ imei.text) data d =
      .running ((parseVoiceInterceptRules o data d).nvsOpen.nvsSetStr .rules data).nvsClose := by
  have hsip : ¬ Occurs topicSipInfo (topicGsmRules ++ imei.text) := fun h =>
    absurd (occurs_topic (by decide) imei h) (by decide)
  have hstatus : ¬ Occurs topicServiceStatus (topicGsmRules ++ imei.text) := fun h =>
    absurd (occurs_topic (by decide) imei h) (by decide)
  have hkey : ¬ Occurs topicKeyBind (topicGsmRules ++ imei.text) := fun h =>
    absurd (occurs_topic (by decide) imei h) (by decide)
  have hresponse : ¬ Occurs topicSendResponse (topicGsmRules ++ imei.text) := fun h =>
    absurd (occurs_topic (by decide) imei h) (by decide)
  have hrules : Occurs topicGsmRules (topicGsmRules ++ imei.text) :=
    (List.prefix_append _ _).isInfix
  rw [mqttEventTask, dispatch, if_neg hsip, if_neg hstatus, if_neg hkey, if_neg hresponse,
    if_pos hrules]
  simp only [storeMessage, if_neg hsip, if_pos hrules]

theorem mqttEventTask_status (o : Outside) (imei : Digits) (data : Text) (d : Device) :
    mqttEventTask o (topicServiceStatus ++ imei.text) data d =
      match parseServiceStatus o data d with
      | .running d => .running (d.nvsOpen.nvsSetStr .srvStat data).nvsClose
      | .restarted flash => .restarted flash := by
  have hsip : ¬ Occurs topicSipInfo (topicServiceStatus ++ imei.text) := fun h =>
    absurd (occurs_topic (by decide) imei h) (by decide)
  have hrules : ¬ Occurs topicGsmRules (topicServiceStatus ++ imei.text) := fun h =>
    absurd (occurs_topic (by decide) imei h) (by decide)
  have hstatus : Occurs topicServiceStatus (topicServiceStatus ++ imei.text) :=
    (List.prefix_append _ _).isInfix
  rw [mqttEventTask, dispatch, if_neg hsip, if_pos hstatus]
  simp only [storeMessage, if_neg hsip, if_neg hrules, if_pos hstatus]

end Leyu
