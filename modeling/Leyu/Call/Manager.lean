import Leyu.Call.Phone

/-!
# The call manager

The operations of `call_manager.c` on the phone, in the order of the source. Every operation
that sends an AT command is its guard, the part before the command, the exchange with the
modem and the part after it, so that the same parts serve when the exchange is interleaved
with other tasks.
-/

namespace Leyu

open Framework

def startRingtoneTask (w : World) (p : Phone) : EspErr × Phone :=
  let p := { p with isPlayingRingtone := true }.mapEvents fun b => { b with ringStop := false }
  if w.taskCreated then (.ok, p.emit .ringtoneStarted)
  else (.noMem, { p with isPlayingRingtone := false })

def stopRingtoneTask (p : Phone) : Phone :=
  ({ p with isPlayingRingtone := false }.mapEvents fun b => { b with ringStop := true }).emit
    .ringtoneStopped

def autoHangupTimerCallback (p : Phone) : Phone :=
  if p.state = .ringing then
    { p with state := .hangingUp }.mapEvents fun b => { b with autoHangup := true }
  else p

def timerExpiry (p : Phone) : Phone :=
  if p.timerActive then autoHangupTimerCallback { p with timerActive := false } else p

theorem timerExpiry_cases (p : Phone) :
    (p.timerActive = false ∧ timerExpiry p = p) ∨
    (p.timerActive = true ∧ p.state ≠ .ringing ∧
      timerExpiry p = { p with timerActive := false }) ∨
    (p.timerActive = true ∧ p.state = .ringing ∧
      timerExpiry p = { p with timerActive := false, state := .hangingUp }.mapEvents
        fun b => { b with autoHangup := true }) := by
  unfold timerExpiry autoHangupTimerCallback
  cases hactive : p.timerActive with
  | false => exact .inl ⟨rfl, rfl⟩
  | true =>
    by_cases hstate : p.state = .ringing
    · exact .inr (.inr ⟨rfl, hstate, by rw [if_pos rfl, if_pos hstate]⟩)
    · exact .inr (.inl ⟨rfl, hstate, by rw [if_pos rfl, if_neg hstate]⟩)

/-- `call_manager_init`; the flags say which of its two creations succeed. -/
def callManagerInit (eventGroupCreated timerCreated : Bool) (p : Phone) : EspErr × Phone :=
  let p := { p with rules := .empty }
  if eventGroupCreated then
    let p := { p with eventGroup := some ⟨false, false⟩, callerNumber := [], state := .idle,
                      timerActive := false }
    if timerCreated then (.ok, p) else (.fail, p)
  else (.fail, { p with eventGroup := none })

/-- The exchange of an AT command under `g_at_mutex`, with the guards around it. -/
def atExchange (w : World) (command : Text) (p : Phone) : EspErr × Phone :=
  if w.atBuffers then
    if w.atMutex then (w.atReturn, p.emit (.atCommand command)) else (.fail, p)
  else (.invalidState, p)

theorem atExchange_ok_iff (w : World) (command : Text) (p : Phone) :
    (atExchange w command p).1 = .ok ↔ w.Accepts := by
  unfold atExchange World.Accepts
  cases w.atBuffers <;> cases w.atMutex <;> simp

private theorem atExchange_accepts {w : World} (h : w.Accepts) (command : Text) (p : Phone) :
    atExchange w command p = (.ok, p.emit (.atCommand command)) := by
  obtain ⟨hb, hm, hr⟩ := h
  simp [atExchange, hb, hm, hr]

theorem atExchange_phone (w : World) (command : Text) (p : Phone) :
    (atExchange w command p).2 = p ∨
      (atExchange w command p).2 = p.emit (.atCommand command) := by
  unfold atExchange
  cases w.atBuffers <;> cases w.atMutex <;> simp

theorem atExchange_records (w : World) (command : Text) (p : Phone) :
    (atExchange w command p).2.state = p.state ∧
      (atExchange w command p).2.isInCall = p.isInCall ∧
      (atExchange w command p).2.gpio47 = p.gpio47 := by
  obtain h | h := atExchange_phone w command p
  · rw [h]
    exact ⟨rfl, rfl, rfl⟩
  · rw [h]
    exact ⟨rfl, rfl, rfl⟩

/-- `xTimerStop` behind `xTimerIsTimerActive`. -/
def stopTimer (w : World) (p : Phone) : Phone :=
  if p.timerActive && w.timerStops then { p with timerActive := false } else p

theorem stopTimer_eq (w : World) (p : Phone) :
    ∃ active, stopTimer w p = { p with timerActive := active } := by
  unfold stopTimer
  split
  · exact ⟨false, rfl⟩
  · exact ⟨p.timerActive, rfl⟩

theorem stopTimer_records (w : World) (p : Phone) :
    (stopTimer w p).state = p.state ∧ (stopTimer w p).isInCall = p.isInCall ∧
      (stopTimer w p).gpio47 = p.gpio47 := by
  obtain ⟨active, h⟩ := stopTimer_eq w p
  rw [h]
  exact ⟨rfl, rfl, rfl⟩

def resetCall (p : Phone) : Phone := { p with state := .idle, callerNumber := [] }

def answerFinish (w : World) (r : EspErr) (p : Phone) : EspErr × Phone :=
  if r = .ok then
    let p := ((p.setGpio48 false).setGpio47 true).setGpio48 true
    (.ok, stopTimer w { p with state := .inCall, isInCall := true })
  else (r, p)

def callManagerAnswerCall (w : World) (p : Phone) : EspErr × Phone :=
  if p.state ≠ .ringing then (.invalidState, p)
  else
    let r := atExchange w ata (stopRingtoneTask p)
    answerFinish w r.1 r.2

def endFinish (w : World) (r : EspErr) (p : Phone) : EspErr × Phone :=
  if r = .ok then (.ok, stopTimer w (resetCall p)) else (r, p)

/-- The common body of `call_manager_reject_call` and `call_manager_hangup_call`. -/
def endCall (w : World) (p : Phone) : EspErr × Phone :=
  if p.state ≠ .ringing ∧ p.state ≠ .inCall then (.invalidState, p)
  else
    let r := atExchange w ath (stopRingtoneTask p)
    endFinish w r.1 r.2

theorem endCall_cases (w : World) (p : Phone) :
    (p.state ≠ .ringing ∧ p.state ≠ .inCall ∧ endCall w p = (.invalidState, p)) ∨
    ((p.state = .ringing ∨ p.state = .inCall) ∧ ¬ w.Accepts ∧
      endCall w p = atExchange w ath (stopRingtoneTask p)) ∨
    ((p.state = .ringing ∨ p.state = .inCall) ∧ w.Accepts ∧
      endCall w p =
        (.ok, stopTimer w (resetCall ((stopRingtoneTask p).emit (.atCommand ath))))) := by
  by_cases hs : p.state ≠ .ringing ∧ p.state ≠ .inCall
  · exact .inl ⟨hs.1, hs.2, by rw [endCall, if_pos hs]⟩
  · have hlive : p.state = .ringing ∨ p.state = .inCall := by
      by_cases h : p.state = .ringing
      · exact .inl h
      · exact .inr (by_contra fun h' => hs ⟨h, h'⟩)
    by_cases hw : w.Accepts
    · refine .inr (.inr ⟨hlive, hw, ?_⟩)
      rw [endCall, if_neg hs, atExchange_accepts hw]
      rfl
    · refine .inr (.inl ⟨hlive, hw, ?_⟩)
      have hr : (atExchange w ath (stopRingtoneTask p)).1 ≠ .ok :=
        fun h => hw ((atExchange_ok_iff w ath _).mp h)
      rw [endCall, if_neg hs]
      simp only [endFinish, hr, if_false]

theorem callManagerAnswerCall_cases (w : World) (p : Phone) :
    (p.state ≠ .ringing ∧ callManagerAnswerCall w p = (.invalidState, p)) ∨
    (p.state = .ringing ∧ ¬ w.Accepts ∧
      callManagerAnswerCall w p = atExchange w ata (stopRingtoneTask p)) ∨
    (p.state = .ringing ∧ w.Accepts ∧
      callManagerAnswerCall w p =
        answerFinish w .ok ((stopRingtoneTask p).emit (.atCommand ata))) := by
  by_cases hs : p.state = .ringing
  · by_cases hw : w.Accepts
    · refine .inr (.inr ⟨hs, hw, ?_⟩)
      rw [callManagerAnswerCall, if_neg (not_not.mpr hs), atExchange_accepts hw]
    · refine .inr (.inl ⟨hs, hw, ?_⟩)
      have hr : (atExchange w ata (stopRingtoneTask p)).1 ≠ .ok :=
        fun h => hw ((atExchange_ok_iff w ata _).mp h)
      rw [callManagerAnswerCall, if_neg (not_not.mpr hs)]
      simp only [answerFinish, hr, if_false]
  · exact .inl ⟨hs, by rw [callManagerAnswerCall, if_pos hs]⟩

theorem callManagerAnswerCall_inCall_iff (w : World) {p : Phone} (hp : p.state = .ringing) :
    (callManagerAnswerCall w p).2.state = .inCall ↔ w.Accepts := by
  rcases callManagerAnswerCall_cases w p with ⟨h, -⟩ | ⟨-, hw, h⟩ | ⟨-, hw, h⟩
  · exact absurd hp h
  · rw [h]
    have hstate : (atExchange w ata (stopRingtoneTask p)).2.state = .ringing :=
      (atExchange_records w ata _).1.trans hp
    simp [hstate, hw]
  · rw [h]
    simp only [answerFinish, if_true, stopTimer_records, hw]

theorem endCall_idle_iff (w : World) {p : Phone} (hp : p.state = .ringing ∨ p.state = .inCall) :
    ((endCall w p).1 = .ok ∧ (endCall w p).2.state = .idle) ↔ w.Accepts := by
  rcases endCall_cases w p with ⟨hr, hc, -⟩ | ⟨-, hw, h⟩ | ⟨-, hw, h⟩
  · rcases hp with hp | hp
    · exact absurd hp hr
    · exact absurd hp hc
  · rw [h, atExchange_ok_iff]
    exact iff_of_false (fun h' => hw h'.1) hw
  · rw [h]
    simp only [stopTimer_records, hw]
    exact iff_of_true ⟨trivial, rfl⟩ trivial

def callManagerRejectCall (w : World) (p : Phone) : EspErr × Phone := endCall w p

def callManagerHangupCall (w : World) (p : Phone) : EspErr × Phone := endCall w p

def callManagerHandleCallEnded (w : World) (p : Phone) : Phone :=
  if p.state ≠ .inCall ∧ p.state ≠ .ringing then p
  else stopTimer w (resetCall (stopRingtoneTask p))

theorem callManagerHandleCallEnded_cases (w : World) (p : Phone) :
    (p.state ≠ .inCall ∧ p.state ≠ .ringing ∧ callManagerHandleCallEnded w p = p) ∨
    ((p.state = .inCall ∨ p.state = .ringing) ∧
      callManagerHandleCallEnded w p = stopTimer w (resetCall (stopRingtoneTask p))) := by
  by_cases h : p.state ≠ .inCall ∧ p.state ≠ .ringing
  · exact .inl ⟨h.1, h.2, by rw [callManagerHandleCallEnded, if_pos h]⟩
  · refine .inr ⟨?_, by rw [callManagerHandleCallEnded, if_neg h]⟩
    by_cases hc : p.state = .inCall
    · exact .inl hc
    · exact .inr (by_contra fun hr => h ⟨hc, hr⟩)

/-- The spoken announcement: the number with a blank after each character, as far as it fits
behind the 25 bytes of the opening into 120. -/
def ttsText (number : Text) : Text :=
  "有新来电，号码是 ".toList ++ (number.take 48).flatMap fun c => [c, ' ']

/-- The part of `call_manager_handle_incoming_call` for a number that passes the rules. -/
def ringIncoming (w : World) (number : Text) (p : Phone) : EspErr × Phone :=
  let p := { p with state := .ringing }
  let p := if w.engine then p.emit (.announced (ttsText number)) else p
  let p := (startRingtoneTask w p).2
  if w.timerStarts then (.ok, { p with timerActive := true }.emit .timerStarted)
  else (.fail, { stopRingtoneTask p with state := .idle })

def callManagerHandleIncomingCall (w : World) (number : CString) (p : Phone) : EspErr × Phone :=
  if number.text = [] then (.invalidArg, p)
  else if p.state ≠ .idle then (.fail, p)
  else
    let p := { p with callerNumber := number.text.take (maxPhoneNumberLength - 1) }
    -- The state is still idle here, which the rejection does not accept.
    if p.rules.intercepts number then (.ok, (callManagerRejectCall w p).2)
    else ringIncoming w number.text p

/-- The branch of `call_manager_process_events` for `AUTO_HANGUP_EVENT`. -/
def processAutoHangup (w : World) (p : Phone) : Phone :=
  let p := p.mapEvents fun b => { b with autoHangup := false }
  if p.state = .hangingUp then (callManagerHangupCall w p).2 else p

/-- `call_manager_process_events`; both branches test the bits read at its start. -/
def callManagerProcessEvents (w : World) (p : Phone) : Phone :=
  match p.eventGroup with
  | none => p
  | some bits =>
      let p := if bits.autoHangup then processAutoHangup w p else p
      if bits.ringStop then p.mapEvents fun b => { b with ringStop := false } else p

theorem callManagerHandleIncomingCall_cases (w : World) (number : CString) (p : Phone) :
    ((number.text = [] ∨ p.state ≠ .idle) ∧ (callManagerHandleIncomingCall w number p).2 = p) ∨
    (number.text ≠ [] ∧ p.state = .idle ∧ p.rules.intercepts number = true ∧
      callManagerHandleIncomingCall w number p =
        (.ok, { p with callerNumber := number.text.take (maxPhoneNumberLength - 1) })) ∨
    (number.text ≠ [] ∧ p.state = .idle ∧ p.rules.intercepts number = false ∧
      callManagerHandleIncomingCall w number p = ringIncoming w number.text
        { p with callerNumber := number.text.take (maxPhoneNumberLength - 1) }) := by
  by_cases hn : number.text = []
  · exact .inl ⟨.inl hn, by rw [callManagerHandleIncomingCall, if_pos hn]⟩
  · by_cases hs : p.state = .idle
    · right
      unfold callManagerHandleIncomingCall
      rw [if_neg hn, if_neg (not_not.mpr hs)]
      cases hi : p.rules.intercepts number with
      | true =>
        refine .inl ⟨hn, hs, rfl, ?_⟩
        simp [hi, callManagerRejectCall, endCall, hs]
      | false => exact .inr ⟨hn, hs, rfl, by simp [hi]⟩
    · refine .inl ⟨.inr hs, ?_⟩
      rw [callManagerHandleIncomingCall, if_neg hn, if_pos hs]

inductive CallOp
  | addRule (pattern : CString) (isIntercepted : Bool)
  | clearRules
  | incoming (w : World) (number : CString)
  | answer (w : World)
  | reject (w : World)
  | hangup (w : World)
  | callEnded (w : World)
  | timerExpiry
  | processEvents (w : World)

def CallOp.step (p : Phone) : CallOp → Phone
  | .addRule pattern flag =>
      { p with rules := (callManagerAddInterceptRule pattern flag p.rules).2 }
  | .clearRules => { p with rules := (callManagerClearInterceptRules p.rules).2 }
  | .incoming w number => (callManagerHandleIncomingCall w number p).2
  | .answer w => (callManagerAnswerCall w p).2
  | .reject w => (callManagerRejectCall w p).2
  | .hangup w => (callManagerHangupCall w p).2
  | .callEnded w => callManagerHandleCallEnded w p
  | .timerExpiry => Leyu.timerExpiry p
  | .processEvents w => callManagerProcessEvents w p

def Phone.init : Phone := (callManagerInit true true Phone.boot).2

end Leyu
