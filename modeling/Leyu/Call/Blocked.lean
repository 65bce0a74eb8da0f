import Leyu.Call.Manager
import Leyu.Framework.Runs

/-!
# Blocked calls

A number that the rules block is stored and handed to `call_manager_reject_call`, which accepts
only a call that rings or is under way. The phone is still idle, so nothing is sent.
-/

namespace Leyu

open Framework

/-- The call was turned away: one ATH, no ringtone, no timer, and no trace of the number. -/
def RejectedOnArrival (before after : Phone) : Prop :=
  (before.since after).count (.atCommand ath) = 1 ∧
    Effect.ringtoneStarted ∉ before.since after ∧ Effect.timerStarted ∉ before.since after ∧
    after.state = .idle ∧ after.callerNumber = []

instance (before after : Phone) : Decidable (RejectedOnArrival before after) := by
  unfold RejectedOnArrival; infer_instance

/-- No blocked call is turned away: the incoming call returns `ESP_OK`, has only stored the
number, and has sent nothing. -/
theorem callManagerHandleIncomingCall_blocked (w : World) (p : Phone) (number : CString)
    (hblocked : callManagerCheckIntercept p.rules number = some true)
    (hne : number.text ≠ []) (hidle : p.state = .idle) :
    callManagerHandleIncomingCall w number p =
        (.ok, { p with callerNumber := number.text.take (maxPhoneNumberLength - 1) }) ∧
      ¬ RejectedOnArrival p (callManagerHandleIncomingCall w number p).2 := by
  have hi : p.rules.intercepts number = true := (p.rules.intercepts_iff number true).mpr hblocked
  have hstored : callManagerHandleIncomingCall w number p =
      (.ok, { p with callerNumber := number.text.take (maxPhoneNumberLength - 1) }) := by
    rcases callManagerHandleIncomingCall_cases w number p with
      ⟨h, -⟩ | ⟨-, -, -, h⟩ | ⟨-, -, h, -⟩
    · rcases h with h | h
      · exact absurd h hne
      · exact absurd hidle h
    · exact h
    · rw [hi] at h
      exact absurd h (by decide)
  refine ⟨hstored, ?_⟩
  rintro ⟨hath, -⟩
  rw [hstored] at hath
  simp [Phone.since] at hath

theorem callManagerHandleIncomingCall_blocked_init :
    let w := World.allOk
    let number := CString.ofText "10086".toList
    ¬ RejectedOnArrival Phone.init (callManagerHandleIncomingCall w number Phone.init).2 :=
  (callManagerHandleIncomingCall_blocked _ _ _ (by decide) (by decide) (by decide)).2

/-- After `call_manager_init` every number is blocked and none is turned away. -/
theorem blockedCall_notRejected :
    let w := World.allOk
    let number := CString.ofText "13800138000".toList
    Reachable CallOp.step Phone.init Phone.init ∧ Phone.init.state = .idle ∧ w.Accepts ∧
      callManagerCheckIntercept Phone.init.rules number = some true ∧
      ¬ RejectedOnArrival Phone.init (callManagerHandleIncomingCall w number Phone.init).2 :=
  ⟨⟨[], rfl⟩, rfl, by decide, by decide, by decide⟩

end Leyu
