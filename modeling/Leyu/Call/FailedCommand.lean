import Leyu.Call.ButtonHandler
import Leyu.Framework.Runs

/-!
# What a failed command leaves behind

Dialling, answering, rejecting and hanging up act on the phone before the modem has accepted the
command, and none of them takes that back when the command fails.
-/

namespace Leyu

open Framework

section Dialling

def SameRoute (p p' : Phone) : Prop :=
  p'.isInCall = p.isInCall ∧ p'.gpio47 = p.gpio47 ∧ p'.gpio48 = p.gpio48

instance (p p' : Phone) : Decidable (SameRoute p p') := by
  unfold SameRoute; infer_instance

/-- A dialling that fails leaves the flag and the route as they were. -/
def DialLeavesNoTrace (w : World) (phoneNumber : CString) (p : Phone) : Prop :=
  (atMakePhoneCall w phoneNumber p).1 ≠ .ok → SameRoute p (atMakePhoneCall w phoneNumber p).2

/-- The phone is taken to be in a call already, with the route of the 4G module open. -/
def RouteOpen (p : Phone) : Prop := p.isInCall = true ∧ p.gpio47 = true ∧ p.gpio48 = true

private theorem atMakePhoneCall_prepared {w : World} {phoneNumber : CString}
    (hnumber : phoneNumber.text ≠ []) (hbuffers : w.atBuffers = true) (p : Phone) :
    RouteOpen (atMakePhoneCall w phoneNumber p).2 ∧
      ((atMakePhoneCall w phoneNumber p).1 = .ok ↔ w.atMutex = true ∧ w.atReturn = .ok) := by
  unfold atMakePhoneCall
  rw [if_neg hnumber, if_pos hbuffers]
  dsimp only
  cases w.atMutex with
  | true => exact ⟨⟨rfl, rfl, rfl⟩, by simp⟩
  | false => exact ⟨⟨rfl, rfl, rfl⟩, by simp⟩

private theorem sameRoute_open_iff {p p' : Phone} (h : RouteOpen p') :
    SameRoute p p' ↔ RouteOpen p := by
  obtain ⟨hcall, h47, h48⟩ := h
  unfold SameRoute RouteOpen
  rw [hcall, h47, h48]
  exact and_congr eq_comm (and_congr eq_comm eq_comm)

/-- A failed dialling leaves no trace exactly when it fails before anything is set, or when
everything was set before. -/
theorem dialLeavesNoTrace_iff (w : World) (phoneNumber : CString) (p : Phone) :
    DialLeavesNoTrace w phoneNumber p ↔
      phoneNumber.text = [] ∨ w.atBuffers = false ∨ (w.atMutex = true ∧ w.atReturn = .ok) ∨
        RouteOpen p := by
  unfold DialLeavesNoTrace
  by_cases hnumber : phoneNumber.text = []
  · have hrefused : atMakePhoneCall w phoneNumber p = (.invalidArg, p) := if_pos hnumber
    rw [hrefused]
    exact iff_of_true (fun _ => ⟨rfl, rfl, rfl⟩) (.inl hnumber)
  · cases hbuffers : w.atBuffers with
    | false =>
      have hrefused : atMakePhoneCall w phoneNumber p = (.invalidState, p) := by
        unfold atMakePhoneCall
        rw [if_neg hnumber, hbuffers]
        rfl
      rw [hrefused]
      exact iff_of_true (fun _ => ⟨rfl, rfl, rfl⟩) (.inr (.inl rfl))
    | true =>
      obtain ⟨hopen, hok⟩ := atMakePhoneCall_prepared hnumber hbuffers p
      rw [sameRoute_open_iff hopen, ne_eq, hok]
      simp only [hnumber, Bool.true_eq_false, false_or]
      exact or_iff_not_imp_left.symm

/-- The modem does not answer in time. -/
def silentModem : World := { World.allOk with atReturn := .timeout }

theorem failedDial_staysInCall :
    ¬ DialLeavesNoTrace silentModem (.ofText "10086".toList) Phone.init := by
  intro h
  have hsame := h (by decide)
  exact absurd hsame (by decide)

end Dialling

section Control

structure SameCall (p p' : Phone) : Prop where
  state : p'.state = p.state
  callerNumber : p'.callerNumber = p.callerNumber
  timerActive : p'.timerActive = p.timerActive
  isInCall : p'.isInCall = p.isInCall
  isPlayingRingtone : p'.isPlayingRingtone = p.isPlayingRingtone

private theorem SameCall.refl (p : Phone) : SameCall p p := ⟨rfl, rfl, rfl, rfl, rfl⟩

/-- The control of a call, when it fails, leaves the call as it was. -/
def ControlKeepsCall (p : Phone) : CallOp → Prop
  | .answer w => (callManagerAnswerCall w p).1 ≠ .ok → SameCall p (callManagerAnswerCall w p).2
  | .reject w => (callManagerRejectCall w p).1 ≠ .ok → SameCall p (callManagerRejectCall w p).2
  | .hangup w => (callManagerHangupCall w p).1 ≠ .ok → SameCall p (callManagerHangupCall w p).2
  | _ => True

/-- The state is one that refuses the control, the modem accepts the command, or no ringtone is
playing. -/
def NoRingtoneToLose (p : Phone) : CallOp → Prop
  | .answer w => p.state ≠ .ringing ∨ w.Accepts ∨ p.isPlayingRingtone = false
  | .reject w | .hangup w =>
      (p.state ≠ .ringing ∧ p.state ≠ .inCall) ∨ w.Accepts ∨ p.isPlayingRingtone = false
  | _ => True

private theorem failedExchange_sameCall_iff (w : World) (command : Text) (p : Phone) :
    SameCall p (atExchange w command (stopRingtoneTask p)).2 ↔ p.isPlayingRingtone = false := by
  have hfields : ∀ p' : Phone, p' = stopRingtoneTask p ∨
      p' = (stopRingtoneTask p).emit (.atCommand command) →
        (SameCall p p' ↔ p.isPlayingRingtone = false) := by
    rintro p' (rfl | rfl)
    · exact ⟨fun h => h.isPlayingRingtone.symm, fun h => ⟨rfl, rfl, rfl, rfl, h.symm⟩⟩
    · exact ⟨fun h => h.isPlayingRingtone.symm, fun h => ⟨rfl, rfl, rfl, rfl, h.symm⟩⟩
  exact hfields _ (atExchange_phone w command _)

private theorem endCall_keeps_iff (w : World) (p : Phone) :
    ((endCall w p).1 ≠ .ok → SameCall p (endCall w p).2) ↔
      (p.state ≠ .ringing ∧ p.state ≠ .inCall) ∨ w.Accepts ∨ p.isPlayingRingtone = false := by
  rcases endCall_cases w p with ⟨hring, hcall, h⟩ | ⟨hlive, hw, h⟩ | ⟨hlive, hw, h⟩
  · rw [h]
    exact iff_of_true (fun _ => .refl p) (.inl ⟨hring, hcall⟩)
  · have hfail : (atExchange w ath (stopRingtoneTask p)).1 ≠ .ok :=
      fun hok => hw ((atExchange_ok_iff w ath _).mp hok)
    have hrefused : ¬ (p.state ≠ .ringing ∧ p.state ≠ .inCall) := by
      rintro ⟨hring, hcall⟩
      exact hlive.elim hring hcall
    rw [h, ← failedExchange_sameCall_iff w ath p]
    simp only [hfail, hrefused, hw, true_implies, ne_eq, not_false_eq_true, false_or]
  · rw [h]
    exact iff_of_true (fun hne => absurd rfl hne) (.inr (.inl hw))

private theorem answerCall_keeps_iff (w : World) (p : Phone) :
    ((callManagerAnswerCall w p).1 ≠ .ok → SameCall p (callManagerAnswerCall w p).2) ↔
      p.state ≠ .ringing ∨ w.Accepts ∨ p.isPlayingRingtone = false := by
  rcases callManagerAnswerCall_cases w p with ⟨hring, h⟩ | ⟨hring, hw, h⟩ | ⟨hring, hw, h⟩
  · rw [h]
    exact iff_of_true (fun _ => .refl p) (.inl hring)
  · have hfail : (atExchange w ata (stopRingtoneTask p)).1 ≠ .ok :=
      fun hok => hw ((atExchange_ok_iff w ata _).mp hok)
    rw [h, ← failedExchange_sameCall_iff w ata p]
    simp only [hfail, hring, hw, true_implies, ne_eq, not_false_eq_true, not_true_eq_false,
      false_or]
  · have hok : (answerFinish w .ok ((stopRingtoneTask p).emit (.atCommand ata))).1 = .ok := rfl
    rw [h]
    exact iff_of_true (fun hne => absurd hok hne) (.inr (.inl hw))

private theorem controlKeepsCall_iff (p : Phone) (op : CallOp) :
    ControlKeepsCall p op ↔ NoRingtoneToLose p op := by
  cases op with
  | answer w => exact answerCall_keeps_iff w p
  | reject w => exact endCall_keeps_iff w p
  | hangup w => exact endCall_keeps_iff w p
  | _ => exact Iff.rfl

/-- In every run of the call manager each failed control keeps the call exactly when none is made
while the ringtone plays. -/
theorem controlKeepsCall_run_iff (ops : List CallOp) :
    AllSteps CallOp.step ControlKeepsCall Phone.init ops ↔
      AllSteps CallOp.step NoRingtoneToLose Phone.init ops := by
  apply allSteps_congr (I := fun _ => True) _ _ trivial ops
  · exact fun s op _ hok => ⟨(controlKeepsCall_iff s op).mpr hok, trivial⟩
  · exact fun s op _ hgood => (controlKeepsCall_iff s op).mp hgood

/-- A call that the rules let through comes in, and the answer key is pressed while the modem is
silent. -/
def unanswered : List CallOp :=
  [.addRule (.ofText ['*']) false, .incoming .allOk (.ofText "10086".toList), .answer silentModem]

theorem unanswered_silenced :
    ¬ AllSteps CallOp.step ControlKeepsCall Phone.init unanswered ∧
      (run CallOp.step Phone.init unanswered).state = .ringing ∧
      (run CallOp.step Phone.init unanswered).isPlayingRingtone = false := by
  refine ⟨?_, by decide, by decide⟩
  rintro ⟨-, -, hanswer, -⟩
  have hsame := hanswer (by decide)
  exact absurd hsame.isPlayingRingtone (by decide)

end Control

end Leyu
