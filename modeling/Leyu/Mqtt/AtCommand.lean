import Leyu.Mqtt.Messages
import Leyu.Call.Phone

/-!
# Remote AT commands

`parse_at_command`: a command from the server is sent to the modem and answered with the
modem's text.
-/

namespace Leyu

open Framework

def atCommandOf (root : Json) : Option (Text × Text) := do
  let message ← messageOf root
  let cmd ← message.body.stringItem "cmd".toList
  some (message.serial, cmd)

/-- What `snprintf` leaves in `g_at_command_buffer`. -/
def remoteCommand (cmd : Text) : Text := (cmd ++ crlf).take 255

/-- The answer to a command, from the result of sending it and the text in
`g_at_response_buffer`. -/
def atCommandAnswer (w : World) (responseBuffer serial : Text) : DeviceCommandResponse :=
  if w.atBuffers then
    if w.atMutex then
      if w.atReturn = .ok then
        ⟨serial, "04".toList, code200, "AT指令执行成功".toList, responseBuffer⟩
      else ⟨serial, "04".toList, code500, "AT指令执行失败".toList, "9001".toList⟩
    else ⟨serial, "04".toList, code500, "系统繁忙无法发送AT指令".toList, "9001".toList⟩
  else ⟨serial, "04".toList, code500, "AT句柄或缓冲区未初始化".toList, "9001".toList⟩

/-- `parse_at_command`: nothing is answered to a malformed message. -/
def parseAtCommand (cJSONParse : Text → Option Json) (w : World) (responseBuffer jsonStr : Text) :
    Option DeviceCommandResponse :=
  ((cJSONParse jsonStr).bind atCommandOf).map fun (serial, _) =>
    atCommandAnswer w responseBuffer serial

theorem atCommandAnswer_code (w : World) (responseBuffer serial : Text) :
    (atCommandAnswer w responseBuffer serial).code = code200 ↔ w.Accepts := by
  have hne : code500 ≠ code200 := by decide
  rw [atCommandAnswer]
  by_cases hb : w.atBuffers = true
  · by_cases hm : w.atMutex = true
    · by_cases hr : w.atReturn = .ok
      · rw [if_pos hb, if_pos hm, if_pos hr]
        exact iff_of_true rfl ⟨hb, hm, hr⟩
      · rw [if_pos hb, if_pos hm, if_neg hr]
        exact iff_of_false hne fun h => hr h.2.2
    · rw [if_pos hb, if_neg hm]
      exact iff_of_false hne fun h => hm h.2.1
  · rw [if_neg hb]
    exact iff_of_false hne fun h => hb h.1

end Leyu
