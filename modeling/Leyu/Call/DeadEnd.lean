import Leyu.Call.Manager
import Leyu.Framework.Runs

/-!
# The dead end of the auto-hang-up

The timer callback is the only writer of `CALL_STATE_HANGING_UP`, and the hang-up that is to
consume that state refuses it. So the call manager stays free of dead ends exactly as long as
the timer does not expire while the phone rings.
-/

namespace Leyu

open Framework

/-- The hang-up that the timer asks for goes through, and the state is never left without it
being asked for. -/
def NoDeadEnd (p : Phone) : Prop :=
  (p.state = .hangingUp → p.AutoHangupPending → ∀ w : World, w.Accepts →
    Effect.atCommand ath ∈ p.since (callManagerProcessEvents w p) ∧
      (callManagerProcessEvents w p).state = .idle ∧
      (callManagerProcessEvents w p).callerNumber = []) ∧
  ¬ (p.state = .hangingUp ∧ ¬ p.AutoHangupPending)

/-- The step is an expiry of the running timer while the phone rings. -/
def ExpiresRinging (p : Phone) : CallOp → Prop
  | .timerExpiry => p.timerActive ∧ p.state = .ringing
  | _ => False

/-- In `CALL_STATE_HANGING_UP` every operation on the call is refused and changes nothing. -/
theorem hangingUp_refused (w : World) {p : Phone} (h : p.state = .hangingUp) :
    (∀ number, (callManagerHandleIncomingCall w number p).2 = p) ∧
      callManagerAnswerCall w p = (.invalidState, p) ∧
      callManagerRejectCall w p = (.invalidState, p) ∧
      callManagerHangupCall w p = (.invalidState, p) ∧ callManagerHandleCallEnded w p = p := by
  refine ⟨?_, ?_, ?_, ?_, ?_⟩
  · intro number
    by_cases hn : number.text = [] <;> simp [callManagerHandleIncomingCall, hn, h]
  · simp [callManagerAnswerCall, h]
  · simp [callManagerRejectCall, endCall, h]
  · simp [callManagerHangupCall, endCall, h]
  · simp [callManagerHandleCallEnded, h]

/-- Handling the auto-hang-up event clears its bit and does nothing else: the hang-up it asks for
refuses the only state it is asked for in. -/
theorem processAutoHangup_eq (w : World) (p : Phone) :
    processAutoHangup w p = p.mapEvents fun b => { b with autoHangup := false } := by
  unfold processAutoHangup
  dsimp only
  split
  · next h =>
    obtain ⟨-, -, -, hhangup, -⟩ := hangingUp_refused w h
    rw [hhangup]
  · rfl

theorem callManagerProcessEvents_eq (w : World) (p : Phone) :
    ∃ f, callManagerProcessEvents w p = p.mapEvents f := by
  unfold callManagerProcessEvents
  cases hg : p.eventGroup with
  | none => exact ⟨id, by simp [Phone.mapEvents]⟩
  | some bits =>
    dsimp only
    rw [processAutoHangup_eq]
    split <;> split
    · exact ⟨_, Phone.mapEvents_mapEvents _ _ p⟩
    · exact ⟨_, rfl⟩
    · exact ⟨_, rfl⟩
    · exact ⟨id, by simp [Phone.mapEvents]⟩

@[simp] theorem callManagerProcessEvents_state (w : World) (p : Phone) :
    (callManagerProcessEvents w p).state = p.state := by
  obtain ⟨f, hf⟩ := callManagerProcessEvents_eq w p
  rw [hf, Phone.mapEvents_state]

private theorem noDeadEnd_iff_state (p : Phone) : NoDeadEnd p ↔ p.state ≠ .hangingUp := by
  constructor
  · rintro ⟨hpending, hlost⟩ h
    by_cases hp : p.AutoHangupPending
    · have hw : World.allOk.Accepts := by decide
      obtain ⟨-, hidle, -⟩ := hpending h hp _ hw
      rw [callManagerProcessEvents_state, h] at hidle
      exact absurd hidle (by decide)
    · exact hlost ⟨h, hp⟩
  · intro h
    exact ⟨fun h' => absurd h' h, fun h' => h h'.1⟩

private theorem endCall_state (w : World) (p : Phone) :
    (endCall w p).2.state = p.state ∨ (endCall w p).2.state = .idle := by
  rcases endCall_cases w p with ⟨-, -, h⟩ | ⟨-, -, h⟩ | ⟨-, -, h⟩ <;> rw [h]
  · exact .inl rfl
  · exact .inl (atExchange_records w ath _).1
  · exact .inr (stopTimer_records w _).1

private theorem callManagerAnswerCall_state (w : World) (p : Phone) :
    (callManagerAnswerCall w p).2.state = p.state ∨
      (callManagerAnswerCall w p).2.state = .inCall := by
  rcases callManagerAnswerCall_cases w p with ⟨-, h⟩ | ⟨-, -, h⟩ | ⟨-, -, h⟩ <;> rw [h]
  · exact .inl rfl
  · exact .inl (atExchange_records w ata _).1
  · exact .inr (stopTimer_records w _).1

private theorem startRingtoneTask_state (w : World) (p : Phone) :
    (startRingtoneTask w p).2.state = p.state := by
  unfold startRingtoneTask
  cases w.taskCreated with
  | true => rfl
  | false => rfl

theorem ringIncoming_state (w : World) (number : Text) (p : Phone) :
    (ringIncoming w number p).2.state = .ringing ∨ (ringIncoming w number p).2.state = .idle := by
  unfold ringIncoming
  cases w.timerStarts with
  | true =>
    left
    cases w.engine with
    | true => exact startRingtoneTask_state w _
    | false => exact startRingtoneTask_state w _
  | false => exact .inr rfl

private theorem callManagerHandleIncomingCall_state (w : World) (number : CString) (p : Phone) :
    (callManagerHandleIncomingCall w number p).2.state = p.state ∨
      (callManagerHandleIncomingCall w number p).2.state = .ringing ∨
      (callManagerHandleIncomingCall w number p).2.state = .idle := by
  rcases callManagerHandleIncomingCall_cases w number p with
    ⟨-, h⟩ | ⟨-, -, -, h⟩ | ⟨-, -, -, h⟩ <;> rw [h]
  · exact .inl rfl
  · exact .inl rfl
  · exact .inr (ringIncoming_state w _ _)

private theorem callManagerHandleCallEnded_state (w : World) (p : Phone) :
    (callManagerHandleCallEnded w p).state = p.state ∨
      (callManagerHandleCallEnded w p).state = .idle := by
  rcases callManagerHandleCallEnded_cases w p with ⟨-, -, h⟩ | ⟨-, h⟩ <;> rw [h]
  · exact .inl rfl
  · exact .inr (stopTimer_records w _).1

private theorem step_hangingUp_iff (p : Phone) (op : CallOp) (h : p.state ≠ .hangingUp) :
    (op.step p).state = .hangingUp ↔ ExpiresRinging p op := by
  cases op with
  | addRule pattern flag => simp [CallOp.step, ExpiresRinging, h]
  | clearRules => simp [CallOp.step, ExpiresRinging, h]
  | incoming w number =>
    simp only [CallOp.step, ExpiresRinging, iff_false]
    rcases callManagerHandleIncomingCall_state w number p with h' | h' | h' <;> simp [h', h]
  | answer w =>
    simp only [CallOp.step, ExpiresRinging, iff_false]
    rcases callManagerAnswerCall_state w p with h' | h' <;> simp [h', h]
  | reject w =>
    simp only [CallOp.step, ExpiresRinging, iff_false, callManagerRejectCall]
    rcases endCall_state w p with h' | h' <;> simp [h', h]
  | hangup w =>
    simp only [CallOp.step, ExpiresRinging, iff_false, callManagerHangupCall]
    rcases endCall_state w p with h' | h' <;> simp [h', h]
  | callEnded w =>
    simp only [CallOp.step, ExpiresRinging, iff_false]
    rcases callManagerHandleCallEnded_state w p with h' | h' <;> simp [h', h]
  | timerExpiry =>
    simp only [CallOp.step, ExpiresRinging]
    obtain ⟨ht, h'⟩ | ⟨-, hr, h'⟩ | ⟨ht, hr, h'⟩ := timerExpiry_cases p
    · rw [h']
      exact iff_of_false h fun hexp => absurd (ht.symm.trans hexp.1) (by decide)
    · rw [h']
      exact iff_of_false h fun hexp => hr hexp.2
    · rw [h', Phone.mapEvents_state]
      exact iff_of_true rfl ⟨ht, hr⟩
  | processEvents w => simp [CallOp.step, ExpiresRinging, callManagerProcessEvents_state, h]

/-- A run of the call manager is free of dead ends exactly when the auto-hang-up timer never
expires during it while the phone rings. -/
theorem noDeadEnd_run_iff (ops : List CallOp) :
    AllStates CallOp.step NoDeadEnd Phone.init ops ↔
      AllSteps CallOp.step (fun p op => ¬ ExpiresRinging p op) Phone.init ops := by
  have hinit : Phone.init.state ≠ .hangingUp := by decide
  rw [allStates_iff]
  simp only [noDeadEnd_iff_state, ne_eq, hinit, not_false_eq_true, true_and]
  refine allSteps_congr (I := fun p => p.state ≠ .hangingUp) ?_ ?_ hinit ops
  · intro p op hp hok
    have hnext : (op.step p).state ≠ .hangingUp := fun h => hok ((step_hangingUp_iff p op hp).mp h)
    exact ⟨hnext, hnext⟩
  · intro p op hp hgood hexp
    exact hgood ((step_hangingUp_iff p op hp).mpr hexp)

def unansweredCall : List CallOp :=
  let w := World.allOk
  [.addRule (.ofText ['*']) false, .incoming w (.ofText "10086".toList), .timerExpiry,
    .processEvents w]

theorem unansweredCall_deadEnd :
    ¬ AllStates CallOp.step NoDeadEnd Phone.init unansweredCall := by
  intro h
  have hlast := (noDeadEnd_iff_state _).mp h.last
  exact hlast (by decide)

end Leyu
