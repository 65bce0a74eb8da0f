import Leyu.Call.DeadEnd

/-!
# What an operation does to the call

State, caller number and timer of the call together: every operation of the call manager keeps
them, or makes one of six changes. The invariants of the call are read off here.
-/

namespace Leyu

open Framework

inductive CallChange (p p' : Phone) : CallOp → Prop
  | kept {op : CallOp} (hs : p'.state = p.state) (hn : p'.callerNumber = p.callerNumber)
      (ht : p'.timerActive = p.timerActive)
      (hop : ∀ w number, op = .incoming w number → number.text = [] ∨ p.state ≠ .idle) :
      CallChange p p' op
  /-- The number is intercepted, or the timer does not start. -/
  | unrung {w : World} {number : CString} (hidle : p.state = .idle) (hne : number.text ≠ [])
      (hwhy : p.rules.intercepts number = true ∨ w.timerStarts = false) (hs : p'.state = .idle)
      (hn : p'.callerNumber = number.text.take (maxPhoneNumberLength - 1))
      (ht : p'.timerActive = p.timerActive) : CallChange p p' (.incoming w number)
  | rang {w : World} {number : CString} (hidle : p.state = .idle) (hne : number.text ≠ [])
      (hfree : p.rules.intercepts number = false) (hstarts : w.timerStarts = true)
      (hs : p'.state = .ringing)
      (hn : p'.callerNumber = number.text.take (maxPhoneNumberLength - 1))
      (ht : p'.timerActive = true) : CallChange p p' (.incoming w number)
  | answered {w : World} (hring : p.state = .ringing) (hs : p'.state = .inCall)
      (hn : p'.callerNumber = p.callerNumber)
      (ht : p'.timerActive = (p.timerActive && !w.timerStops)) : CallChange p p' (.answer w)
  | ended {op : CallOp} {w : World} (hlive : p.state = .ringing ∨ p.state = .inCall)
      (hop : op = .reject w ∨ op = .hangup w ∨ op = .callEnded w) (hs : p'.state = .idle)
      (hn : p'.callerNumber = []) (ht : p'.timerActive = (p.timerActive && !w.timerStops)) :
      CallChange p p' op
  | expired (hring : p.state = .ringing) (hs : p'.state = .hangingUp)
      (hn : p'.callerNumber = p.callerNumber) (ht : p'.timerActive = false) :
      CallChange p p' .timerExpiry
  | expiredLate (hring : p.state ≠ .ringing) (hs : p'.state = p.state)
      (hn : p'.callerNumber = p.callerNumber) (ht : p'.timerActive = false) :
      CallChange p p' .timerExpiry

private theorem stopTimer_timerActive (w : World) (p : Phone) :
    (stopTimer w p).timerActive = (p.timerActive && !w.timerStops) := by
  unfold stopTimer
  cases ht : p.timerActive <;> cases hw : w.timerStops <;> simp [ht]

private theorem stopTimer_callerNumber (w : World) (p : Phone) :
    (stopTimer w p).callerNumber = p.callerNumber := by
  obtain ⟨active, h⟩ := stopTimer_eq w p
  rw [h]

private theorem atExchange_kept {w : World} {command : Text} {p q : Phone} {op : CallOp}
    (hs : q.state = p.state) (hn : q.callerNumber = p.callerNumber)
    (ht : q.timerActive = p.timerActive)
    (hop : ∀ w number, op = .incoming w number → number.text = [] ∨ p.state ≠ .idle) :
    CallChange p (atExchange w command q).2 op := by
  rcases atExchange_phone w command q with h | h
  · rw [h]
    exact .kept hs hn ht hop
  · rw [h]
    exact .kept hs hn ht hop

private theorem ringIncoming_change {w : World} {number : CString} {p : Phone}
    (hidle : p.state = .idle) (hne : number.text ≠ []) (hfree : p.rules.intercepts number = false) :
    CallChange p (ringIncoming w number.text
      { p with callerNumber := number.text.take (maxPhoneNumberLength - 1) }).2
      (.incoming w number) := by
  cases hstarts : w.timerStarts with
  | true =>
    apply CallChange.rang hidle hne hfree hstarts
    all_goals
      unfold ringIncoming startRingtoneTask
      cases w.engine <;> cases w.taskCreated <;> simp [hstarts, Phone.emit, Phone.mapEvents]
  | false =>
    apply CallChange.unrung hidle hne (.inr hstarts)
    all_goals
      unfold ringIncoming startRingtoneTask
      cases w.engine <;> cases w.taskCreated <;>
        simp [hstarts, Phone.emit, Phone.mapEvents, stopRingtoneTask]

private theorem endCall_change {w : World} {p : Phone} {op : CallOp}
    (hop : op = .reject w ∨ op = .hangup w) : CallChange p (endCall w p).2 op := by
  have hno : ∀ w' number, op = .incoming w' number → number.text = [] ∨ p.state ≠ .idle := by
    intro w' number hin
    rcases hop with rfl | rfl <;> cases hin
  rcases endCall_cases w p with ⟨-, -, h⟩ | ⟨-, -, h⟩ | ⟨hlive, -, h⟩
  · rw [h]
    exact .kept rfl rfl rfl hno
  · rw [h]
    exact atExchange_kept rfl rfl rfl hno
  · rw [h]
    refine .ended (w := w) hlive (hop.imp id .inl) ?_ ?_ ?_
    · exact (stopTimer_records w _).1
    · exact stopTimer_callerNumber w _
    · exact stopTimer_timerActive w _

theorem callOp_change (p : Phone) (op : CallOp) : CallChange p (op.step p) op := by
  cases op with
  | addRule pattern flag => exact .kept rfl rfl rfl fun _ _ h => by cases h
  | clearRules => exact .kept rfl rfl rfl fun _ _ h => by cases h
  | incoming w number =>
    show CallChange p (callManagerHandleIncomingCall w number p).2 _
    rcases callManagerHandleIncomingCall_cases w number p with
      ⟨hrefused, h⟩ | ⟨hne, hidle, hint, h⟩ | ⟨hne, hidle, hfree, h⟩
    · rw [h]
      refine .kept rfl rfl rfl fun w' number' hop => ?_
      cases hop
      exact hrefused
    · rw [h]
      exact .unrung hidle hne (.inl hint) hidle rfl rfl
    · rw [h]
      exact ringIncoming_change hidle hne hfree
  | answer w =>
    show CallChange p (callManagerAnswerCall w p).2 _
    rcases callManagerAnswerCall_cases w p with ⟨-, h⟩ | ⟨-, -, h⟩ | ⟨hring, -, h⟩
    · rw [h]
      exact .kept rfl rfl rfl fun _ _ hop => by cases hop
    · rw [h]
      exact atExchange_kept rfl rfl rfl fun _ _ hop => by cases hop
    · rw [h]
      apply CallChange.answered hring
      · exact (stopTimer_records w _).1
      · exact stopTimer_callerNumber w _
      · exact stopTimer_timerActive w _
  | reject w => exact endCall_change (.inl rfl)
  | hangup w => exact endCall_change (.inr rfl)
  | callEnded w =>
    show CallChange p (callManagerHandleCallEnded w p) _
    rcases callManagerHandleCallEnded_cases w p with ⟨-, -, h⟩ | ⟨hlive, h⟩
    · rw [h]
      exact .kept rfl rfl rfl fun _ _ hop => by cases hop
    · rw [h]
      refine .ended (w := w) hlive.symm (.inr (.inr rfl)) ?_ ?_ ?_
      · exact (stopTimer_records w _).1
      · exact stopTimer_callerNumber w _
      · exact stopTimer_timerActive w _
  | timerExpiry =>
    show CallChange p (timerExpiry p) _
    rcases timerExpiry_cases p with ⟨-, h⟩ | ⟨-, hring, h⟩ | ⟨-, hring, h⟩
    · rw [h]
      exact .kept rfl rfl rfl fun _ _ hop => by cases hop
    · rw [h]
      exact .expiredLate hring rfl rfl rfl
    · rw [h]
      exact .expired hring rfl rfl rfl
  | processEvents w =>
    show CallChange p (callManagerProcessEvents w p) _
    obtain ⟨f, h⟩ := callManagerProcessEvents_eq w p
    rw [h]
    exact .kept rfl rfl rfl fun _ _ hop => by cases hop

end Leyu
