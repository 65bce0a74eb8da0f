import Leyu.Call.Changes

/-!
# The caller number

`call_manager_handle_incoming_call` stores the number before it knows whether the call will
ring. The two exits after that, interception and a timer that does not start, leave the state
idle and the number stored.
-/

namespace Leyu

open Framework

/-- The phone, with the number of the last incoming call it accepted. -/
structure NotedPhone where
  phone : Phone
  accepted : Text

/-- The number of an incoming call that makes the idle phone ring. -/
def CallOp.accepts (p : Phone) : CallOp → Option Text
  | .incoming w number =>
      if p.state = .idle ∧ (callManagerHandleIncomingCall w number p).2.state = .ringing then
        some number.text
      else none
  | _ => none

def NotedPhone.step (c : NotedPhone) (op : CallOp) : NotedPhone where
  phone := op.step c.phone
  accepted := (op.accepts c.phone).getD c.accepted

def NotedPhone.init : NotedPhone := ⟨Phone.init, []⟩

def callManagerGetState (p : Phone) : CallState := p.state

def callManagerGetCallerNumber (p : Phone) : Text := p.callerNumber

/-- The idle phone shows no number, every other one the number of the call it accepted, as far
as it fits. -/
structure NumberOfLiveCall (c : NotedPhone) : Prop where
  idle : callManagerGetState c.phone = .idle → callManagerGetCallerNumber c.phone = []
  live : callManagerGetState c.phone ≠ .idle →
    callManagerGetCallerNumber c.phone = c.accepted.take (maxPhoneNumberLength - 1)

/-- An incoming call the idle phone looks at is not intercepted, and its timer starts. -/
def Rings (c : NotedPhone) : CallOp → Prop
  | .incoming w number =>
      number.text ≠ [] → c.phone.state = .idle →
        c.phone.rules.intercepts number = false ∧ w.timerStarts = true
  | _ => True

instance (c : NotedPhone) (op : CallOp) : Decidable (Rings c op) := by
  cases op <;> unfold Rings <;> infer_instance

private theorem CallOp.accepts_eq_none {p : Phone} {op : CallOp}
    (h : (op.step p).state = p.state ∨ (op.step p).state ≠ .ringing) : op.accepts p = none := by
  cases op with
  | incoming w number =>
    unfold accepts
    apply if_neg
    rintro ⟨hidle, hring⟩
    rcases h with h | h
    · have hringing : p.state = .ringing := by rw [← h]; exact hring
      rw [hidle] at hringing
      cases hringing
    · exact h hring
  | _ => rfl

private theorem NotedPhone.step_accepted {c : NotedPhone} {op : CallOp}
    (h : (op.step c.phone).state = c.phone.state ∨ (op.step c.phone).state ≠ .ringing) :
    (c.step op).accepted = c.accepted := by
  unfold step
  rw [CallOp.accepts_eq_none h]
  rfl

private theorem NumberOfLiveCall.of_idle {c : NotedPhone} (hs : c.phone.state = .idle)
    (hn : c.phone.callerNumber = []) : NumberOfLiveCall c :=
  ⟨fun _ => hn, fun hlive => absurd hs hlive⟩

private theorem NumberOfLiveCall.of_live {c : NotedPhone} (hs : c.phone.state ≠ .idle)
    (hn : c.phone.callerNumber = c.accepted.take (maxPhoneNumberLength - 1)) :
    NumberOfLiveCall c :=
  ⟨fun hidle => absurd hidle hs, fun _ => hn⟩

private theorem NumberOfLiveCall.goes_on {c : NotedPhone} {op : CallOp} (h : NumberOfLiveCall c)
    (hlive : c.phone.state ≠ .idle) (hs : (op.step c.phone).state ≠ .idle)
    (hring : (op.step c.phone).state = c.phone.state ∨ (op.step c.phone).state ≠ .ringing)
    (hn : (op.step c.phone).callerNumber = c.phone.callerNumber) :
    NumberOfLiveCall (c.step op) := by
  apply NumberOfLiveCall.of_live hs
  calc (op.step c.phone).callerNumber
      = c.phone.callerNumber := hn
    _ = c.accepted.take (maxPhoneNumberLength - 1) := h.live hlive
    _ = (c.step op).accepted.take (maxPhoneNumberLength - 1) := by
        rw [NotedPhone.step_accepted hring]

private theorem NumberOfLiveCall.stays {c : NotedPhone} {op : CallOp} (h : NumberOfLiveCall c)
    (hs : (op.step c.phone).state = c.phone.state)
    (hn : (op.step c.phone).callerNumber = c.phone.callerNumber) :
    NumberOfLiveCall (c.step op) := by
  by_cases hidle : c.phone.state = .idle
  · apply NumberOfLiveCall.of_idle (hs.trans hidle)
    exact hn.trans (h.idle hidle)
  · exact h.goes_on hidle (fun hafter => hidle (hs.symm.trans hafter)) (.inl hs) hn

private theorem NumberOfLiveCall.leaves_ringing {c : NotedPhone} {op : CallOp}
    (h : NumberOfLiveCall c) (hring : c.phone.state = .ringing)
    (hlive : (op.step c.phone).state ≠ .idle) (hs : (op.step c.phone).state ≠ .ringing)
    (hn : (op.step c.phone).callerNumber = c.phone.callerNumber) :
    NumberOfLiveCall (c.step op) := by
  apply h.goes_on _ hlive (.inr hs) hn
  rw [hring]
  decide

private theorem NumberOfLiveCall.step {c : NotedPhone} {op : CallOp} (h : NumberOfLiveCall c)
    (hok : Rings c op) : NumberOfLiveCall (c.step op) := by
  cases callOp_change c.phone op with
  | kept hs hn ht hop => exact h.stays hs hn
  | unrung hidle hne hwhy hs hn ht =>
    obtain ⟨hfree, hstarts⟩ := hok hne hidle
    rcases hwhy with hint | hfails
    · rw [hfree] at hint
      cases hint
    · rw [hstarts] at hfails
      cases hfails
  | @rang w number hidle hne hfree hstarts hs hn ht =>
    have hnoted : (c.step (.incoming w number)).accepted = number.text := by
      have haccepts : CallOp.accepts c.phone (.incoming w number) = some number.text :=
        if_pos ⟨hidle, hs⟩
      show (CallOp.accepts c.phone (.incoming w number)).getD c.accepted = number.text
      rw [haccepts]
      rfl
    apply NumberOfLiveCall.of_live
    · show (CallOp.step c.phone (.incoming w number)).state ≠ .idle
      rw [hs]
      decide
    · rw [hnoted]
      exact hn
  | answered hring hs hn ht =>
    exact h.leaves_ringing hring (by rw [hs]; decide) (by rw [hs]; decide) hn
  | ended hlive hop hs hn ht => exact .of_idle hs hn
  | expired hring hs hn ht =>
    exact h.leaves_ringing hring (by rw [hs]; decide) (by rw [hs]; decide) hn
  | expiredLate hring hs hn ht => exact h.stays hs hn

private theorem NumberOfLiveCall.rings {c : NotedPhone} {op : CallOp}
    (h : NumberOfLiveCall (c.step op)) :
    Rings c op := by
  cases op with
  | incoming w number =>
    intro hne hidle
    cases callOp_change c.phone (.incoming w number) with
    | kept hs hn ht hop =>
      rcases hop w number rfl with hempty | hlive
      · exact absurd hempty hne
      · exact absurd hidle hlive
    | unrung hidle hne hwhy hs hn ht => exact absurd (hn.symm.trans (h.idle hs)) (take_ne_nil hne (by decide))
    | rang hidle hne hfree hstarts hs hn ht => exact ⟨hfree, hstarts⟩
    | ended hlive hop hs hn ht => rcases hop with hop | hop | hop <;> cases hop
  | _ => trivial

private theorem NumberOfLiveCall.init : NumberOfLiveCall NotedPhone.init := .of_idle rfl rfl

/-- The number belongs to a live call in every state of a run exactly when every incoming call
the idle phone looks at rings. -/
theorem numberOfLiveCall_run_iff (ops : List CallOp) :
    AllStates NotedPhone.step NumberOfLiveCall NotedPhone.init ops ↔
      AllSteps NotedPhone.step Rings NotedPhone.init ops := by
  rw [allStates_iff, and_iff_right NumberOfLiveCall.init]
  refine allSteps_congr (fun c op hinv hok => ?_) (fun c op _ hgood => ?_) NumberOfLiveCall.init ops
  · have hnext := hinv.step hok
    exact ⟨hnext, hnext⟩
  · exact NumberOfLiveCall.rings hgood

/-- A number on the list calls the idle phone: it is rejected, which the idle state refuses. -/
def interceptedCall : List CallOp :=
  [.addRule (CString.ofText ['1', '0']) true, .incoming .allOk (CString.ofText ['1', '0'])]

theorem interceptedCall_number_left :
    ¬ NumberOfLiveCall (run NotedPhone.step NotedPhone.init interceptedCall) := by
  intro h
  exact absurd (h.idle (by decide +kernel)) (by decide +kernel)

end Leyu
