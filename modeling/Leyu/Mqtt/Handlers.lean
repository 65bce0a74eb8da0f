import Leyu.Mqtt.Device

/-!
# The handlers of the server's settings

`parse_sip_info`, `parse_voice_intercept_rules` and `parse_service_status`, and their use at
start-up by `mqtt_flash_load`.
-/

namespace Leyu

open Framework

def sipInfoOf (root : Json) : Option (Text × Text × Text) := do
  let message ← messageOf root
  let host ← message.body.stringItem "host".toList
  let user ← message.body.stringItem "user".toList
  let passwd ← message.body.stringItem "passwd".toList
  some (host, user, passwd)

/-- The URI as `snprintf` leaves it in the buffer of 128. -/
def sipUri (host user passwd : Text) : Text :=
  ("udp://".toList ++ user ++ ":".toList ++ passwd ++ "@".toList ++ host).take 127

def parseSipInfo (o : Outside) (jsonStr : Text) (d : Device) : Device :=
  match (o.cJSONParse jsonStr).bind sipInfoOf with
  | none => d
  | some (host, user, passwd) =>
      let d := if d.espSip then d.emit .sipServiceStop else d
      { d.emit (.sipServiceStart (sipUri host user passwd)) with espSip := o.sipStarts }

def interceptRulesOf (root : Json) : Option (Text × List Text) := do
  let message ← messageOf root
  let rules ← (message.body.getObjectItem "rules".toList).bind Json.items?
  some (message.serial, rules.filterMap Json.valuestring?)

/-- The rule loop of `parse_voice_intercept_rules`; what `call_manager_add_intercept_rule`
returns is not looked at. -/
def installRules (patterns : List Text) : RuleTable :=
  patterns.foldl (fun t pattern => (callManagerAddInterceptRule (.ofText pattern) false t).2)
    (callManagerClearInterceptRules .empty).2

/-- `parse_voice_intercept_rules`: the message is stored before it is parsed. -/
def parseVoiceInterceptRules (o : Outside) (jsonStr : Text) (d : Device) : Device :=
  let d := (d.nvsOpen.nvsSetStr .rules jsonStr).nvsClose
  match (o.cJSONParse jsonStr).bind interceptRulesOf with
  | none => d
  | some (serial, patterns) =>
      { d with rules := installRules patterns }.emit
        (.published ⟨serial, "01".toList, code200, "规则设置成功".toList, "9000".toList⟩)

def actionOn : Text := ['o', 'n']

def actionOff : Text := ['o', 'f', 'f']

def serviceActionOf (root : Json) : Option Text := do
  let message ← messageOf root
  message.body.stringItem "action".toList

/-- `control_device_by_service_status`: switching on restarts the device. -/
def controlDeviceByServiceStatus (action : Bool) (d : Device) : Outcome :=
  if action then .restarted d.flash
  else .running ((d.emit .sipServiceStop).emit .servicesClosed)

def parseServiceStatus (o : Outside) (jsonStr : Text) (d : Device) : Outcome :=
  match (o.cJSONParse jsonStr).bind serviceActionOf with
  | none => .running d
  | some action =>
      if action = actionOn ∧ d.isServiceStatus = false then
        -- The caller stores the message only after this has returned, which it does not.
        controlDeviceByServiceStatus true { d with isServiceStatus := true }
      else if action = actionOff ∧ d.isServiceStatus = true then
        controlDeviceByServiceStatus false { d with isServiceStatus := false }
      else .running d

/-- `mqtt_flash_load`; every handler works with the global handle, which
`parse_voice_intercept_rules` leaves closed. -/
def mqttFlashLoad (o : Outside) (d : Device) : Outcome :=
  let d := d.nvsOpen
  let d := (d.nvsGetStr .sipInfo).elim d fun sipInfo => parseSipInfo o sipInfo d
  let d := (d.nvsGetStr .rules).elim d fun rules => parseVoiceInterceptRules o rules d
  -- After readable rules the handle is the one they have closed, and this reading fails.
  let r := (d.nvsGetStr .srvStat).elim (.running d) fun srvStat => parseServiceStatus o srvStat d
  match r with
  | .running d => .running d.nvsClose
  | .restarted flash => .restarted flash

end Leyu
