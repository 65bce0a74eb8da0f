import Leyu.Call.Manager
import Leyu.Modem.CustomCommand
import Leyu.Mqtt.AtCommand

/-!
# Replies that end with ERROR

What the users of a custom command make of a reply that the modem ends with ERROR. The response
counts as complete for either result code, so every such reply that fits the receive buffer is
taken for a success.
-/

namespace Leyu

open Framework

/-- What the port does for one command: whether sending succeeds, and the texts of the reply as
they are received. -/
structure Exchange where
  sendOk : Bool
  texts : List Text

/-- The final result code of a reply: its last line. -/
def FinalResult (code reply : Text) : Prop := (crlf ++ code ++ crlf) <:+ reply

namespace Exchange

variable {σ : Type}

def reply (x : Exchange) : Text := x.texts.flatten

def returns (x : Exchange) (at' : AtParser CommonString σ) (s : σ) (command : Text) : EspErr :=
  (atSendCustomCommand x.sendOk (x.texts.map .written) command ⟨1024, []⟩ at' s).1

def world (x : Exchange) (at' : AtParser CommonString σ) (s : σ) (command : Text) (w : World) :
    World :=
  { w with atBuffers := true, atMutex := true, atReturn := x.returns at' s command }

/-- The command is sent, and at some point the received text ends a line and has a result code,
OK or ERROR, behind its first line. -/
def Completed (x : Exchange) (at' : AtParser CommonString σ) : Prop :=
  x.sendOk = true ∧ Completes at'.config.recvBufferLength HasResult [] x.texts

private theorem returns_ok_iff (x : Exchange) {at' : AtParser CommonString σ} (h : at'.Ready)
    (s : σ) (command : Text) : x.returns at' s command = .ok ↔
      command.length < at'.config.sendBufferLength - 3 ∧ x.Completed at' :=
  atSendCustomCommand_ok_iff h x.sendOk x.texts command (by decide) s

private theorem world_accepts_iff (x : Exchange) {at' : AtParser CommonString σ} (h : at'.Ready)
    (s : σ) (command : Text) (w : World) : (x.world at' s command w).Accepts ↔
      command.length < at'.config.sendBufferLength - 3 ∧ x.Completed at' := by
  rw [← x.returns_ok_iff h s command]
  simp [World.Accepts, world]

private theorem world_accepts_short (x : Exchange) {at' : AtParser CommonString σ}
    (h : at'.Ready) (s : σ) (command : Text) (hshort : command.length ≤ 3) (w : World) :
    (x.world at' s command w).Accepts ↔ x.Completed at' := by
  rw [x.world_accepts_iff h s command w]
  have hlarge := at'.config.sendLarge
  exact and_iff_right (by omega)

end Exchange

private theorem completes_of_finalResult {length : Nat} {texts : List Text}
    (hfinal : FinalResult resultError texts.flatten) (hfit : texts.flatten.length < length) :
    Completes length HasResult [] texts := by
  refine ⟨texts, List.prefix_refl texts, ?_⟩
  rw [accumulate_flatten (by simpa using hfit), List.nil_append]
  have hlen : (crlf ++ resultError ++ crlf).length ≤ texts.flatten.length := hfinal.length_le
  refine ⟨⟨Nat.lt_of_lt_of_le (by decide) hlen, ?_⟩, .inl (occurs_skipFirstLine ?_)⟩
  · exact (List.suffix_append _ _).trans hfinal
  · exact (List.prefix_append _ _).isInfix.trans hfinal.isInfix

/-- Each user of a custom command keeps a failed command apart from a successful one exactly when
the reply never completes a response; a reply that ends with ERROR and fits the receive buffer
always does. -/
theorem errorReply_iff {σ : Type} (at' : AtParser CommonString σ) (hat : at'.Ready) (s : σ)
    (x : Exchange) (w : World) :
    (∀ command, x.returns at' s command ≠ .ok ↔
      ¬ (command.length < at'.config.sendBufferLength - 3 ∧ x.Completed at')) ∧
    (∀ p : Phone, p.state = .ringing →
      ((callManagerAnswerCall (x.world at' s ata w) p).2.state ≠ .inCall ↔ ¬ x.Completed at')) ∧
    (∀ p : Phone, p.state = .ringing ∨ p.state = .inCall →
      (¬ ((callManagerRejectCall (x.world at' s ath w) p).1 = .ok ∧
          (callManagerRejectCall (x.world at' s ath w) p).2.state = .idle) ↔
        ¬ x.Completed at')) ∧
    (∀ p : Phone, p.state = .ringing ∨ p.state = .inCall →
      (¬ ((callManagerHangupCall (x.world at' s ath w) p).1 = .ok ∧
          (callManagerHangupCall (x.world at' s ath w) p).2.state = .idle) ↔
        ¬ x.Completed at')) ∧
    (∀ (cJSONParse : Text → Option Json) (responseBuffer jsonStr serial cmd : Text),
      (cJSONParse jsonStr).bind atCommandOf = some (serial, cmd) →
      ((parseAtCommand cJSONParse (x.world at' s (remoteCommand cmd) w) responseBuffer
          jsonStr).map (·.code) ≠ some code200 ↔
        ¬ ((remoteCommand cmd).length < at'.config.sendBufferLength - 3 ∧ x.Completed at'))) ∧
    (FinalResult resultError x.reply → x.reply.length < at'.config.recvBufferLength →
      x.sendOk = true → x.Completed at') := by
  refine ⟨fun command => (x.returns_ok_iff hat s command).not, ?_, ?_, ?_, ?_, ?_⟩
  · intro p hp
    rw [← x.world_accepts_short hat s ata (by decide) w]
    exact (callManagerAnswerCall_inCall_iff _ hp).not
  · intro p hp
    rw [← x.world_accepts_short hat s ath (by decide) w]
    exact (endCall_idle_iff _ hp).not
  · intro p hp
    rw [← x.world_accepts_short hat s ath (by decide) w]
    exact (endCall_idle_iff _ hp).not
  · intro cJSONParse responseBuffer jsonStr serial cmd hcmd
    rw [← x.world_accepts_iff hat s (remoteCommand cmd) w,
      ← atCommandAnswer_code _ responseBuffer serial]
    simp [parseAtCommand, hcmd]
  · exact fun hfinal hfit hsend => ⟨hsend, completes_of_finalResult hfinal hfit⟩

def refusal : Exchange := ⟨true, [crlf ++ resultError ++ crlf]⟩

def startedParser : AtParser CommonString Unit :=
  modemAtStart (modemAtParserCreate atConfig ⟨0, []⟩)

theorem errorReply_iff_refusal : refusal.Completed startedParser :=
  (errorReply_iff startedParser (modemAtStart_ready _ _) () refusal World.allOk).2.2.2.2.2
    (List.suffix_refl _) (by decide) rfl

theorem refusal_answers :
    let w := World.allOk
    FinalResult resultError refusal.reply ∧ refusal.returns startedParser () ata = .ok ∧
      (callManagerAnswerCall (refusal.world startedParser () ata w)
        { Phone.init with state := .ringing }).2.state = .inCall :=
  ⟨List.suffix_refl _, by decide, by decide⟩

end Leyu
