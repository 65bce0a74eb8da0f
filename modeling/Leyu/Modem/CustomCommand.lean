import Leyu.Modem.Parser
import Mathlib.Algebra.Group.Nat.Defs

/-!
# Custom commands

`at_send_custom_command` with its line handler `_handle_string`. The handler says that the
response is complete for either result code; which of the two it was is not kept.
-/

namespace Leyu

open Framework

/-- `at_common_string_t`: the length of the result buffer and the text in it. -/
structure CommonString where
  len : Nat
  string : Text

/-- `strip_cr_lf_tail` on 32 bits: a carriage return in one of the last two places before `len`
ends the text. -/
def stripCrLfTail (str : Text) (len : Nat) : Text :=
  let beforeLast := (len + 2 ^ 32 - 2) % 2 ^ 32
  let last := (len + 2 ^ 32 - 1) % 2 ^ 32
  if str[beforeLast]? = some '\r' then str.take beforeLast
  else if str[last]? = some '\r' then str.take last
  else str

/-- `_handle_string`. The length is a `size_t`, so it wraps when there are fewer than two
characters in front of the result code; the buffer then gets the text up to its end. -/
def handleString (line : Text) (result : CommonString) : Bool × CommonString :=
  if Occurs resultError line then (true, result)
  else
    match strstr resultOk line with
    | none => (false, result)
    | some fin =>
        let start := if line.take 2 = crlf then 2 else 0
        let len := min ((fin + 2 ^ 32 - start - 2) % 2 ^ 32) (result.len - 1)
        (true, { result with string := stripCrLfTail ((line.drop start).take len) len })

/-- `at_send_custom_command`; the pointers are not null. -/
def atSendCustomCommand {σ : Type} (sendOk : Bool) (events : List RxEvent) (command : Text)
    (resBuffer : CommonString) (p : AtParser CommonString σ) (s : σ) :
    EspErr × AtParser CommonString σ × σ :=
  if resBuffer.len = 0 then (.invalidArg, p, s)
  else modemAtSendCommand sendOk events command handleString resBuffer p s

def HasResult (line : Text) : Prop := Occurs resultError line ∨ Occurs resultOk line

instance (line : Text) : Decidable (HasResult line) := by unfold HasResult; infer_instance

theorem handleString_done (line : Text) (result : CommonString) :
    (handleString line result).1 = true ↔ HasResult line := by
  unfold handleString HasResult
  by_cases he : Occurs resultError line
  · simp [he]
  · rw [← strstr_isSome resultOk line]
    cases strstr resultOk line <;> simp [he]

theorem atSendCustomCommand_ok_iff {σ : Type} {p : AtParser CommonString σ} (hp : p.Ready)
    (sendOk : Bool) (texts : List Text) (command : Text) {resBuffer : CommonString}
    (hlen : resBuffer.len ≠ 0) (s : σ) :
    (atSendCustomCommand sendOk (texts.map .written) command resBuffer p s).1 = .ok ↔
      command.length < p.config.sendBufferLength - 3 ∧ sendOk = true ∧
        Completes p.config.recvBufferLength HasResult [] texts := by
  rw [atSendCustomCommand, if_neg hlen]
  exact modemAtSendCommand_ok_iff handleString_done hp sendOk texts command resBuffer s

end Leyu
