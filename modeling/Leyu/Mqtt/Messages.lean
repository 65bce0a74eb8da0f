import Leyu.Mqtt.Json

/-!
# Messages of the server

The fields with which every handler starts, and the answer a handler publishes.
-/

namespace Leyu

open Framework

structure Message where
  timeStamp : Text
  serial : Text
  imei : Text
  body : Json

/-- The checks with which every handler starts: three strings and an object. -/
def messageOf (root : Json) : Option Message := do
  let timeStamp ← root.stringItem "timeStamp".toList
  let serial ← root.stringItem "serial".toList
  let imei ← root.stringItem "imei".toList
  let body ← (root.getObjectItem "body".toList).bind Json.object?
  some ⟨timeStamp, serial, imei, body⟩

/-- The fields of `send_device_command_response` that depend on the caller. -/
structure DeviceCommandResponse where
  oriSerial : Text
  busi : Text
  code : Text
  msg : Text
  cmdRes : Text
  deriving DecidableEq

def code200 : Text := "200".toList

def code500 : Text := "500".toList

end Leyu
