import Leyu.Call.Rules
import Leyu.Mqtt.Messages
import Mathlib.Logic.Function.Basic

/-!
# The server's settings on the device

What the server can set (the SIP account, the intercept rules, the service status), in RAM and in
the `mqtt_data` namespace of the flash. The flash stores and returns strings faithfully; a closed
handle reads nothing, and a string that does not fit the buffer with its terminator is not read.
-/

namespace Leyu

open Framework

inductive FlashItem
  | sipInfo
  | rules
  | srvStat
  deriving DecidableEq, Repr

abbrev Flash := FlashItem → Option Text

inductive ServerEffect
  | sipServiceStop
  | sipServiceStart (uri : Text)
  | servicesClosed
  | published (response : DeviceCommandResponse)

/-- What is not part of the repository: the JSON parser, and whether the SIP service starts. -/
structure Outside where
  cJSONParse : Text → Option Json
  sipStarts : Bool

def parserOf (message : Text) (tree : Json) : Outside where
  cJSONParse t := if t = message then some tree else none
  sipStarts := true

theorem parserOf_parse (message : Text) (tree : Json) :
    (parserOf message tree).cJSONParse message = some tree := if_pos rfl

/-- The settings in RAM with the flash behind them; `handleOpen` says that `nvs_mqtt_handle` is
usable, `espSip` that `s_esp_sip` is not null. -/
structure Device where
  flash : Flash
  handleOpen : Bool
  rules : RuleTable
  isServiceStatus : Bool
  espSip : Bool
  effects : List ServerEffect

/-- How a function ends: it returns, or it has called `esp_restart`, and only the flash is left. -/
inductive Outcome
  | running (d : Device)
  | restarted (flash : Flash)

namespace Device

/-- The RAM after a start, `call_manager_init` included. -/
def boot (flash : Flash) : Device where
  flash := flash
  handleOpen := false
  rules := .empty
  isServiceStatus := true
  espSip := false
  effects := []

def emit (e : ServerEffect) (d : Device) : Device := { d with effects := d.effects ++ [e] }

def nvsOpen (d : Device) : Device := { d with handleOpen := true }

def nvsClose (d : Device) : Device := { d with handleOpen := false }

def nvsSetStr (item : FlashItem) (value : Text) (d : Device) : Device :=
  if d.handleOpen then { d with flash := Function.update d.flash item (some value) } else d

/-- `nvs_get_str` into a buffer of 256. -/
def nvsGetStr (item : FlashItem) (d : Device) : Option Text :=
  if d.handleOpen then (d.flash item).filter fun value => decide (value.length < 256) else none

end Device

end Leyu
