import Leyu.Call.Manager

/-!
# The call part of the button handler

The second record of a call in progress, `g_is_in_call` with the audio route, and the two
functions behind the keys that dial and hang up.
-/

namespace Leyu

open Framework

def buttonHandlerSetCallState (inCall : Bool) (p : Phone) : Phone := { p with isInCall := inCall }

def hangUpCleanup (p : Phone) : Phone :=
  { ((p.setGpio48 false).setGpio47 false).setGpio48 true with isInCall := false }

/-- The escape from the data mode that precedes a dialling. -/
def escapeCommand : Text := ['+', '+', '+']

/-- The dialling command as `snprintf` leaves it in the buffer of 256. -/
def atdCommand (phoneNumber : Text) : Text := ("ATD".toList ++ phoneNumber ++ [';']).take 255

/-- What `at_make_phone_call` does before it asks for the mutex. -/
def dialPrepare (p : Phone) : Phone :=
  { ((p.setGpio48 false).setGpio47 true).setGpio48 true with isInCall := true }

/-- `at_make_phone_call`. The route and the flag are set before the mutex is asked for; the
result of the escape is not looked at. -/
def atMakePhoneCall (w : World) (phoneNumber : CString) (p : Phone) : EspErr × Phone :=
  if phoneNumber.text = [] then (.invalidArg, p)
  else if w.atBuffers then
    let p := dialPrepare p
    if w.atMutex then
      -- A failed dialling leaves the flag and the route as they are set above.
      (w.atReturn, (p.emit (.atCommand escapeCommand)).emit
        (.atCommand (atdCommand phoneNumber.text)))
    else (.fail, p)
  else (.invalidState, p)

/-- `at_hang_up_phone_call`: the clean-up comes before the command and whatever its result. -/
def atHangUpPhoneCall (w : World) (p : Phone) : EspErr × Phone :=
  if w.atBuffers then
    let p := hangUpCleanup p
    if w.atMutex then (w.atReturn, p.emit (.atCommand ath)) else (.fail, p)
  else (.invalidState, p)

theorem atMakePhoneCall_cases (w : World) (phoneNumber : CString) (p : Phone) :
    (atMakePhoneCall w phoneNumber p).2 = p ∨
      ∃ effects, (atMakePhoneCall w phoneNumber p).2 =
        { dialPrepare p with effects := effects } := by
  unfold atMakePhoneCall
  by_cases hnumber : phoneNumber.text = []
  · exact .inl (by rw [if_pos hnumber])
  · rw [if_neg hnumber]
    cases w.atBuffers with
    | false => exact .inl rfl
    | true =>
      cases w.atMutex with
      | false => exact .inr ⟨p.effects, rfl⟩
      | true => exact .inr ⟨_, rfl⟩

theorem atMakePhoneCall_state (w : World) (phoneNumber : CString) (p : Phone) :
    (atMakePhoneCall w phoneNumber p).2.state = p.state := by
  obtain h | ⟨effects, h⟩ := atMakePhoneCall_cases w phoneNumber p
  · rw [h]
  · rw [h]
    rfl

theorem atMakePhoneCall_records (w : World) (phoneNumber : CString) {p : Phone}
    (hp : p.isInCall = true ∧ p.gpio47 = true) :
    (atMakePhoneCall w phoneNumber p).2.isInCall = true ∧
      (atMakePhoneCall w phoneNumber p).2.gpio47 = true := by
  obtain h | ⟨effects, h⟩ := atMakePhoneCall_cases w phoneNumber p
  · rw [h]
    exact hp
  · rw [h]
    exact ⟨rfl, rfl⟩

theorem atHangUpPhoneCall_cases (w : World) (p : Phone) :
    (w.atBuffers = false ∧ (atHangUpPhoneCall w p).2 = p) ∨
    (w.atBuffers = true ∧ (atHangUpPhoneCall w p).2.state = p.state ∧
      (atHangUpPhoneCall w p).2.isInCall = false ∧ (atHangUpPhoneCall w p).2.gpio47 = false) := by
  unfold atHangUpPhoneCall
  cases w.atBuffers with
  | false => exact .inl ⟨rfl, rfl⟩
  | true =>
    cases w.atMutex with
    | false => exact .inr ⟨rfl, rfl, rfl, rfl⟩
    | true => exact .inr ⟨rfl, rfl, rfl, rfl⟩

end Leyu
