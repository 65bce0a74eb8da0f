import Leyu.Framework.SharedCell
import Leyu.Call.ButtonHandler
import Leyu.Mqtt.AtCommand

/-!
# The shared AT buffers

The tasks that use `g_at_command_buffer` and `g_at_response_buffer` under `g_at_mutex`. Dialling
reads the response before it gives the mutex back; every other use reads it afterwards.
-/

namespace Leyu

open Framework

inductive BufferUse
  | sendHeartbeatPacket
  | parseAtCommand (cmd : Text)
  | callManagerAnswerCall
  | callManagerEndCall
  | atHangUpPhoneCall
  | atMakePhoneCall (phoneNumber : Text)

def muestatsCommand : Text := "AT+MUESTATS=\"radio\"".toList

def mccidCommand : Text := "AT+MCCID".toList

namespace BufferUse

/-- One command whose response is read `readings` times after the mutex is given back, when
sending it succeeded. -/
def commandThenRead (command : Text) (readings : Nat) : List (Instr Text) :=
  [.take, .prepare command, .exchange, .give] ++ List.replicate readings (.read false)

/-- The accesses of a use to the mutex and to the buffers, in the order of the source. A remote
command's response is logged and published, the first of the heartbeat's logged and parsed. -/
def program : BufferUse → List (Instr Text)
  | sendHeartbeatPacket => commandThenRead muestatsCommand 2 ++ commandThenRead mccidCommand 1
  | parseAtCommand cmd => commandThenRead (remoteCommand cmd) 2
  | callManagerAnswerCall => commandThenRead ata 1
  | callManagerEndCall => commandThenRead ath 1
  | atHangUpPhoneCall => commandThenRead ath 1
  | atMakePhoneCall phoneNumber =>
      [.take, .prepare escapeCommand, .exchange, .read true,
        .prepare (atdCommand phoneNumber), .exchange, .read false, .give]

private theorem program_bracketed (u : BufferUse) : bracketed false false u.program = true := by
  cases u <;> rfl

end BufferUse

section

variable {ι : Type} [DecidableEq ι]

def bufferStep (s : SharedCell ι Text Text) (l : CellStep ι BufferUse Text) :
    SharedCell ι Text Text := s.step BufferUse.program l

/-- Every response that a run of the tasks leaves to be read is the one to the reader's own
command exactly when no step clears the buffers while another task still has to read them or
stores a text of the modem that answers another command; and then whatever a task reads is the
response to its own command. -/
theorem ownResponse_run_iff (steps : List (CellStep ι BufferUse Text)) :
    (AllStates bufferStep SharedCell.AllOwn (.idle : SharedCell ι Text Text) steps ↔
        AllSteps bufferStep SharedCell.Undisturbed .idle steps) ∧
      (AllSteps bufferStep SharedCell.Undisturbed (.idle : SharedCell ι Text Text) steps →
        AllSteps bufferStep SharedCell.ReadsOwn .idle steps) :=
  SharedCell.allOwn_run_iff BufferUse.program_bracketed steps

end

inductive ExampleTask
  | remote
  | heartbeat
  deriving DecidableEq

def remoteAnswered : List (CellStep ExampleTask BufferUse Text) :=
  [.start .remote (.parseAtCommand "ATI".toList), .run .remote true none,
    .run .remote true none, .run .remote true (some ⟨⟨.remote, 1⟩, "LEYU".toList⟩),
    .run .remote true none]

def heartbeatAnswered : List (CellStep ExampleTask BufferUse Text) :=
  [.start .heartbeat .sendHeartbeatPacket, .run .heartbeat true none, .run .heartbeat true none,
    .run .heartbeat true (some ⟨⟨.heartbeat, 1⟩, "+MUESTATS: ".toList⟩)]

theorem ownResponse_run_iff_remote :
    AllSteps bufferStep SharedCell.ReadsOwn .idle
      (remoteAnswered ++ [.run .remote true none, .run .remote true none]) := by
  refine (ownResponse_run_iff _).2 ⟨trivial, trivial, ?_, ?_, trivial, trivial, trivial, trivial⟩
  · intro j hj hawaits
    cases j with
    | remote => exact hj rfl
    | heartbeat => exact hawaits
  · intro _ a ha
    obtain rfl := Option.some.inj ha
    rfl

/-- The heartbeat clears and fills the buffer before the remote command's task has read it: that
task publishes the heartbeat's response. -/
theorem remote_readsHeartbeat :
    let s := run bufferStep .idle (remoteAnswered ++ heartbeatAnswered)
    s.cell.answer.map (·.text) = some "+MUESTATS: ".toList ∧
      ¬ AllSteps bufferStep SharedCell.ReadsOwn .idle
        (remoteAnswered ++ heartbeatAnswered ++ [.run .remote true none]) := by
  refine ⟨rfl, fun h => ?_⟩
  obtain ⟨-, hread, -⟩ := (allSteps_append _ _ _ _).mp h
  have hown : SharedCell.Own _ ExampleTask.remote := hread (.inr rfl)
  exact absurd hown.1 (by decide)

end Leyu
