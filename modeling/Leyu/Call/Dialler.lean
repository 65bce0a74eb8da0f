import Mathlib.Logic.Function.Basic
import Leyu.Contacts.Book

/-!
# Deferred dialling

The branch `bodadianhua` of `onFunctionCall` and `phone_call_timer_callback` of `brtc_app.c`. The
first runs in the task of the engine, the second in the timer task, and neither takes a lock, so
each is cut into its accesses to `s_phone_number`, `s_pending_phone_call` and
`s_phone_call_timer`, and these interleave freely. The array of the number is read character by
character, and is written in any number of steps, since the library does not say in which order it
stores the characters; whether it is empty is seen at its first character. A timer is named by the
request that creates it. The buffers and the lock of `at_make_phone_call` are there.
-/

namespace Leyu

open Framework

/-- A `cJSON` member of a parameter, as far as the handler tells them apart. -/
inductive CallItem
  | number (valueint : Int)
  | string (valuestring : Text)
  | other
  deriving DecidableEq

inductive CallParam
  | object (p1 p2 : Option CallItem)
  | other

/-- A member that the loop over the parameters looks at. -/
inductive CallField
  | p1 (item : CallItem)
  | p2 (item : CallItem)
  deriving DecidableEq

/-- The members in the order the loop comes to them. -/
def CallParam.fields : CallParam → List CallField
  | object p1 p2 => (p1.map CallField.p1).toList ++ (p2.map CallField.p2).toList
  | other => []

/-- The number that a member determines: given by `p1`, or the one of the contact `p2` names. -/
def CallField.number (book : Book) : CallField → Option Text
  | p1 (.number valueint) => some (toString valueint).toList
  | p1 (.string valuestring) => some valuestring
  | p2 (.string valuestring) => contactGetPhoneByName valuestring book
  | _ => none

/-- What `s_phone_number`, an array of 32 bytes, holds of a number copied or printed into it. -/
def storedNumber (number : Text) : Text := number.take 31

/-- The text for the speech synthesis, of an array of 128 bytes. -/
def callTtsText (number : Text) : Text := (utf8 "小乐正在为您接通" ++ number).take 127

/-- Where the branch `bodadianhua` is; `created` says that `xTimerCreate` gave it a timer, `read` is
the part of the number read so far. -/
inductive RequestPc
  | idle
  | fields (rest : List CallField)
  | copying (number : Text) (rest : List CallField)
  | setPending (rest : List CallField)
  | announcing (read : Text)
  | testTimer
  | deleteTimer
  | resetTimer
  | createTimer
  | testCreated
  | startTimer
  | dialDirect (created : Bool)
  | readNumber (created : Bool) (read : Text)
  | clearPending (created : Bool)
  | clearNumber (created : Bool)
  | deleteOwn
  | resetOwn
  deriving DecidableEq

/-- Where `phone_call_timer_callback` is, and the timer it was called for; from `calling` to
`reading` it is inside `at_make_phone_call`. -/
inductive CallbackPc
  | idle
  | entered (timer : Nat)
  | measuring (timer : Nat)
  | calling (timer : Nat)
  | reading (timer : Nat) (read : Text)
  | clearing (timer : Nat)
  | clearingNumber (timer : Nat)
  | leaving (timer : Nat)
  | deleting (timer : Nat)
  | resetting (timer : Nat)
  deriving DecidableEq

/-- A timer of the timer service; between `xTimerDelete` and the service taking its command from
the queue, a timer still expires. -/
inductive TimerState
  | dormant
  | armed
  | deleting
  deriving DecidableEq

/-- The statics of `brtc_app.c` and both tasks, with what the user hears of them, and the history
of the requests: how many there were, the last one that determined a number and that number, the
ones a call was placed for, and whether the request whose timer the callback was called for was
the last one when that timer expired. -/
structure Dialler where
  phoneNumber : Text
  pendingPhoneCall : Bool
  phoneCallTimer : Option Nat
  timer : Nat → TimerState
  request : RequestPc
  callback : CallbackPc
  announced : List Text
  calls : List Text
  requests : Nat
  latest : Nat
  latestNumber : Text
  dialled : List Nat
  due : Bool

structure CallWorld where
  book : Book
  timerCreated : Bool
  timerStarted : Bool
  deleteQueued : Bool
  /-- What the array of the number holds while it is still being written. -/
  mixture : Option Text

inductive CallStep
  | onFunctionCall (parameterList : List CallParam)
  | request (w : CallWorld)
  | expire (timer : Nat)
  | callback (deleteQueued : Bool) (mixture : Option Text)
  | deleted (timer : Nat)

namespace Dialler

def init : Dialler where
  phoneNumber := []
  pendingPhoneCall := false
  phoneCallTimer := none
  timer := fun _ => .dormant
  request := .idle
  callback := .idle
  announced := []
  calls := []
  requests := 0
  latest := 0
  latestNumber := []
  dialled := []
  due := false

/-- The request has determined a number, and is now the last one that did. -/
def determine (number : Text) (d : Dialler) : Dialler :=
  { d with latest := d.requests, latestNumber := number }

/-- `at_make_phone_call` has read the number into its command, put down to the last request that
determined one. -/
def placeCall (number : Text) (d : Dialler) : Dialler :=
  { d with calls := number :: d.calls, dialled := d.latest :: d.dialled }

/-- The timers after `xTimerDelete`, which does nothing when the queue of the service is full. -/
def timersWithout (deleteQueued : Bool) (d : Dialler) : Nat → TimerState :=
  match d.phoneCallTimer with
  | none => d.timer
  | some h =>
      if deleteQueued ∧ d.timer h = .armed then Function.update d.timer h .deleting else d.timer

/-- `xTimerStart`; the service does not take a handle that is `NULL`. -/
def startedTimers (d : Dialler) : Nat → TimerState :=
  match d.phoneCallTimer with
  | none => d.timer
  | some h => Function.update d.timer h .armed

def bodadianhua (w : CallWorld) (d : Dialler) : Dialler :=
  match d.request with
  | .idle => d
  | .fields (f :: rest) =>
      match f.number w.book with
      | none => { d with request := .fields rest }
      | some number => { d.determine number with request := .copying number rest }
  | .copying number rest =>
      match w.mixture with
      | some t => { d with phoneNumber := t, request := .copying number rest }
      | none => { d with phoneNumber := storedNumber number, request := .setPending rest }
  | .setPending rest => { d with pendingPhoneCall := true, request := .fields rest }
  | .fields [] => { d with request := if d.pendingPhoneCall then .announcing [] else .idle }
  | .announcing read =>
      match d.phoneNumber[read.length]? with
      | some c => { d with request := .announcing (read ++ [c]) }
      | none => { d with announced := callTtsText read :: d.announced, request := .testTimer }
  | .testTimer =>
      { d with request := if d.phoneCallTimer.isSome then .deleteTimer else .createTimer }
  | .deleteTimer => { d with timer := d.timersWithout w.deleteQueued, request := .resetTimer }
  | .resetTimer => { d with phoneCallTimer := none, request := .createTimer }
  | .createTimer =>
      { d with
        phoneCallTimer := if w.timerCreated then some d.requests else none
        request := .testCreated }
  | .testCreated =>
      { d with request := if d.phoneCallTimer.isSome then .startTimer else .dialDirect false }
  | .startTimer =>
      if w.timerStarted then { d with timer := d.startedTimers, request := .idle }
      else { d with request := .dialDirect true }
  -- `at_make_phone_call` refuses an empty number.
  | .dialDirect created =>
      { d with
        request := if d.phoneNumber = [] then .clearPending created else .readNumber created [] }
  | .readNumber created read =>
      match d.phoneNumber[read.length]? with
      | some c => { d with request := .readNumber created (read ++ [c]) }
      | none => { d.placeCall read with request := .clearPending created }
  | .clearPending created => { d with pendingPhoneCall := false, request := .clearNumber created }
  | .clearNumber created =>
      match w.mixture with
      | some t => { d with phoneNumber := t, request := .clearNumber created }
      | none => { d with phoneNumber := [], request := if created then .deleteOwn else .idle }
  | .deleteOwn => { d with timer := d.timersWithout w.deleteQueued, request := .resetOwn }
  | .resetOwn => { d with phoneCallTimer := none, request := .idle }

def phoneCallTimerCallback (deleteQueued : Bool) (mixture : Option Text) (d : Dialler) : Dialler :=
  match d.callback with
  | .idle => d
  | .entered h => { d with callback := if d.pendingPhoneCall then .measuring h else .leaving h }
  | .measuring h => { d with callback := if d.phoneNumber = [] then .leaving h else .calling h }
  | .calling h => { d with callback := if d.phoneNumber = [] then .clearing h else .reading h [] }
  | .reading h read =>
      match d.phoneNumber[read.length]? with
      | some c => { d with callback := .reading h (read ++ [c]) }
      | none => { d.placeCall read with callback := .clearing h }
  | .clearing h => { d with pendingPhoneCall := false, callback := .clearingNumber h }
  | .clearingNumber h =>
      match mixture with
      | some t => { d with phoneNumber := t, callback := .clearingNumber h }
      | none => { d with phoneNumber := [], callback := .leaving h }
  | .leaving h => { d with callback := if d.phoneCallTimer.isSome then .deleting h else .idle }
  | .deleting h => { d with timer := d.timersWithout deleteQueued, callback := .resetting h }
  | .resetting _ => { d with phoneCallTimer := none, callback := .idle }

/-- The timer service calls the callback of a one-shot timer that has run out. -/
def expire (h : Nat) (d : Dialler) : Dialler :=
  if d.callback = .idle ∧ d.timer h ≠ .dormant then
    { d with
      timer := Function.update d.timer h .dormant
      callback := .entered h
      due := decide (d.latest = h) }
  else d

def deleted (h : Nat) (d : Dialler) : Dialler :=
  if d.callback = .idle ∧ d.timer h = .deleting then
    { d with timer := Function.update d.timer h .dormant }
  else d

/-- `bodadianhua` is called; the engine calls one function at a time. -/
def onFunctionCall (parameterList : List CallParam) (d : Dialler) : Dialler :=
  match d.request with
  | .idle =>
      { d with
        requests := d.requests + 1
        request := .fields (parameterList.flatMap CallParam.fields) }
  | _ => d

def step (d : Dialler) : CallStep → Dialler
  | .onFunctionCall parameterList => d.onFunctionCall parameterList
  | .request w => d.bodadianhua w
  | .expire h => d.expire h
  | .callback deleteQueued mixture => d.phoneCallTimerCallback deleteQueued mixture
  | .deleted h => d.deleted h

/-- The accesses of the branch after which only its place is another one. -/
inductive RequestMove (w : CallWorld) (d : Dialler) : RequestPc → Prop
  | passed {f : CallField} {rest : List CallField} (hr : d.request = .fields (f :: rest))
      (hn : f.number w.book = none) : RequestMove w d (.fields rest)
  | tested (hr : d.request = .fields []) (hset : d.pendingPhoneCall = true) :
      RequestMove w d (.announcing [])
  | silent (hr : d.request = .fields []) (hclear : d.pendingPhoneCall = false) :
      RequestMove w d .idle
  | spelt {read : Text} {c : Char} (hr : d.request = .announcing read) :
      RequestMove w d (.announcing (read ++ [c]))
  | hasTimer (hr : d.request = .testTimer) : RequestMove w d .deleteTimer
  | noTimer (hr : d.request = .testTimer) : RequestMove w d .createTimer
  | created (hr : d.request = .testCreated) (hh : d.phoneCallTimer ≠ none) :
      RequestMove w d .startTimer
  | notCreated (hr : d.request = .testCreated) : RequestMove w d (.dialDirect false)
  | notStarted (hr : d.request = .startTimer) : RequestMove w d (.dialDirect true)
  | refused {created : Bool} (hr : d.request = .dialDirect created) (hn : d.phoneNumber = []) :
      RequestMove w d (.clearPending created)
  | dials {created : Bool} (hr : d.request = .dialDirect created) (hne : d.phoneNumber ≠ []) :
      RequestMove w d (.readNumber created [])
  | read {created : Bool} {read : Text} {c : Char} (hr : d.request = .readNumber created read)
      (hc : d.phoneNumber[read.length]? = some c) :
      RequestMove w d (.readNumber created (read ++ [c]))

inductive BodadianhuaStep (w : CallWorld) (d : Dialler) : Dialler → Prop
  | idle (hr : d.request = .idle) : BodadianhuaStep w d d
  | moved {pc : RequestPc} (hm : RequestMove w d pc) : BodadianhuaStep w d { d with request := pc }
  | determined {f : CallField} {rest : List CallField} {number : Text}
      (hr : d.request = .fields (f :: rest)) (hn : f.number w.book = some number) :
      BodadianhuaStep w d { d.determine number with request := .copying number rest }
  | mixed {number : Text} {rest : List CallField} (t : Text)
      (hr : d.request = .copying number rest) :
      BodadianhuaStep w d { d with phoneNumber := t, request := .copying number rest }
  | copied {number : Text} {rest : List CallField} (hr : d.request = .copying number rest) :
      BodadianhuaStep w d { d with phoneNumber := storedNumber number, request := .setPending rest }
  | flagged {rest : List CallField} (hr : d.request = .setPending rest) :
      BodadianhuaStep w d { d with pendingPhoneCall := true, request := .fields rest }
  | announced {read : Text} (hr : d.request = .announcing read)
      (hend : d.phoneNumber[read.length]? = none) :
      BodadianhuaStep w d
        { d with announced := callTtsText read :: d.announced, request := .testTimer }
  | timerDeleted (hr : d.request = .deleteTimer) :
      BodadianhuaStep w d
        { d with timer := d.timersWithout w.deleteQueued, request := .resetTimer }
  | timerReset (hr : d.request = .resetTimer) :
      BodadianhuaStep w d { d with phoneCallTimer := none, request := .createTimer }
  | timerCreated {handle : Option Nat} (hr : d.request = .createTimer)
      (hh : handle = none ∨ handle = some d.requests) :
      BodadianhuaStep w d { d with phoneCallTimer := handle, request := .testCreated }
  | started (hr : d.request = .startTimer) :
      BodadianhuaStep w d { d with timer := d.startedTimers, request := .idle }
  | dialled {created : Bool} {read : Text} (hr : d.request = .readNumber created read)
      (hend : d.phoneNumber[read.length]? = none) :
      BodadianhuaStep w d { d.placeCall read with request := .clearPending created }
  | flagCleared {created : Bool} (hr : d.request = .clearPending created) :
      BodadianhuaStep w d { d with pendingPhoneCall := false, request := .clearNumber created }
  | mixedClearing {created : Bool} (t : Text) (hr : d.request = .clearNumber created) :
      BodadianhuaStep w d { d with phoneNumber := t, request := .clearNumber created }
  | numberCleared {created : Bool} (hr : d.request = .clearNumber created) :
      BodadianhuaStep w d
        { d with phoneNumber := [], request := if created then .deleteOwn else .idle }
  | ownDeleted (hr : d.request = .deleteOwn) :
      BodadianhuaStep w d { d with timer := d.timersWithout w.deleteQueued, request := .resetOwn }
  | ownReset (hr : d.request = .resetOwn) :
      BodadianhuaStep w d { d with phoneCallTimer := none, request := .idle }

theorem bodadianhua_step (w : CallWorld) (d : Dialler) :
    BodadianhuaStep w d (d.bodadianhua w) := by
  unfold bodadianhua
  cases hr : d.request with
  | idle => exact .idle hr
  | fields rest =>
    cases rest with
    | nil =>
      dsimp only
      split
      · next hset => exact .moved (.tested hr hset)
      · next hclear => exact .moved (.silent hr (by simpa using hclear))
    | cons f rest =>
      dsimp only
      cases hn : f.number w.book with
      | none => exact .moved (.passed hr hn)
      | some number => exact .determined hr hn
  | copying number rest =>
    dsimp only
    cases w.mixture with
    | none => exact .copied hr
    | some t => exact .mixed t hr
  | setPending rest => exact .flagged hr
  | announcing read =>
    dsimp only
    cases hc : d.phoneNumber[read.length]? with
    | none => exact .announced hr hc
    | some c => exact .moved (.spelt hr)
  | testTimer =>
    dsimp only
    split
    · exact .moved (.hasTimer hr)
    · exact .moved (.noTimer hr)
  | deleteTimer => exact .timerDeleted hr
  | resetTimer => exact .timerReset hr
  | createTimer =>
    dsimp only
    split
    · exact .timerCreated hr (.inr rfl)
    · exact .timerCreated hr (.inl rfl)
  | testCreated =>
    dsimp only
    split
    · next hh => exact .moved (.created hr (Option.isSome_iff_ne_none.mp hh))
    · exact .moved (.notCreated hr)
  | startTimer =>
    dsimp only
    split
    · exact .started hr
    · exact .moved (.notStarted hr)
  | dialDirect created =>
    dsimp only
    split
    · next hn => exact .moved (.refused hr hn)
    · next hne => exact .moved (.dials hr hne)
  | readNumber created read =>
    dsimp only
    cases hc : d.phoneNumber[read.length]? with
    | none => exact .dialled hr hc
    | some c => exact .moved (.read hr hc)
  | clearPending created => exact .flagCleared hr
  | clearNumber created =>
    dsimp only
    cases w.mixture with
    | none => exact .numberCleared hr
    | some t => exact .mixedClearing t hr
  | deleteOwn => exact .ownDeleted hr
  | resetOwn => exact .ownReset hr

/-- The accesses of the callback after which only its place is another one. -/
inductive CallbackMove (d : Dialler) : CallbackPc → Prop
  | tested {h : Nat} (hc : d.callback = .entered h) (hset : d.pendingPhoneCall = true) :
      CallbackMove d (.measuring h)
  | skipped {h : Nat} (hc : d.callback = .entered h) (hclear : d.pendingPhoneCall = false) :
      CallbackMove d (.leaving h)
  | measured {h : Nat} (hc : d.callback = .measuring h) (hne : d.phoneNumber ≠ []) :
      CallbackMove d (.calling h)
  | empty {h : Nat} (hc : d.callback = .measuring h) (hn : d.phoneNumber = []) :
      CallbackMove d (.leaving h)
  | called {h : Nat} (hc : d.callback = .calling h) (hne : d.phoneNumber ≠ []) :
      CallbackMove d (.reading h [])
  | refused {h : Nat} (hc : d.callback = .calling h) (hn : d.phoneNumber = []) :
      CallbackMove d (.clearing h)
  | read {h : Nat} {read : Text} {c : Char} (hc : d.callback = .reading h read)
      (hx : d.phoneNumber[read.length]? = some c) : CallbackMove d (.reading h (read ++ [c]))
  | hasTimer {h : Nat} (hc : d.callback = .leaving h) : CallbackMove d (.deleting h)
  | noTimer {h : Nat} (hc : d.callback = .leaving h) : CallbackMove d .idle

inductive CallbackStep (deleteQueued : Bool) (d : Dialler) : Dialler → Prop
  | idle (hc : d.callback = .idle) : CallbackStep deleteQueued d d
  | moved {pc : CallbackPc} (hm : CallbackMove d pc) :
      CallbackStep deleteQueued d { d with callback := pc }
  | dialled {h : Nat} {read : Text} (hc : d.callback = .reading h read)
      (hend : d.phoneNumber[read.length]? = none) :
      CallbackStep deleteQueued d { d.placeCall read with callback := .clearing h }
  | flagCleared {h : Nat} (hc : d.callback = .clearing h) :
      CallbackStep deleteQueued d
        { d with pendingPhoneCall := false, callback := .clearingNumber h }
  | mixed {h : Nat} (t : Text) (hc : d.callback = .clearingNumber h) :
      CallbackStep deleteQueued d { d with phoneNumber := t, callback := .clearingNumber h }
  | numberCleared {h : Nat} (hc : d.callback = .clearingNumber h) :
      CallbackStep deleteQueued d { d with phoneNumber := [], callback := .leaving h }
  | timerDeleted {h : Nat} (hc : d.callback = .deleting h) :
      CallbackStep deleteQueued d
        { d with timer := d.timersWithout deleteQueued, callback := .resetting h }
  | timerReset {h : Nat} (hc : d.callback = .resetting h) :
      CallbackStep deleteQueued d { d with phoneCallTimer := none, callback := .idle }

theorem phoneCallTimerCallback_step (deleteQueued : Bool) (mixture : Option Text) (d : Dialler) :
    CallbackStep deleteQueued d (d.phoneCallTimerCallback deleteQueued mixture) := by
  unfold phoneCallTimerCallback
  cases hc : d.callback with
  | idle => exact .idle hc
  | entered h =>
    dsimp only
    split
    · next hset => exact .moved (.tested hc hset)
    · next hclear => exact .moved (.skipped hc (by simpa using hclear))
  | measuring h =>
    dsimp only
    split
    · next hn => exact .moved (.empty hc hn)
    · next hne => exact .moved (.measured hc hne)
  | calling h =>
    dsimp only
    split
    · next hn => exact .moved (.refused hc hn)
    · next hne => exact .moved (.called hc hne)
  | reading h read =>
    dsimp only
    cases hx : d.phoneNumber[read.length]? with
    | none => exact .dialled hc hx
    | some c => exact .moved (.read hc hx)
  | clearing h => exact .flagCleared hc
  | clearingNumber h =>
    dsimp only
    cases mixture with
    | none => exact .numberCleared hc
    | some t => exact .mixed t hc
  | leaving h =>
    dsimp only
    split
    · exact .moved (.hasTimer hc)
    · exact .moved (.noTimer hc)
  | deleting h => exact .timerDeleted hc
  | resetting h => exact .timerReset hc

theorem timersWithout_cases (deleteQueued : Bool) (d : Dialler) (h : Nat) :
    d.timersWithout deleteQueued h = d.timer h ∨
      d.phoneCallTimer = some h ∧ d.timer h = .armed ∧
        d.timersWithout deleteQueued h = .deleting := by
  unfold timersWithout
  cases hh : d.phoneCallTimer with
  | none => exact .inl rfl
  | some h' =>
    dsimp only
    split
    · next hq =>
      by_cases heq : h = h'
      · subst heq
        exact .inr ⟨rfl, hq.2, Function.update_self ..⟩
      · exact .inl (Function.update_of_ne heq ..)
    · exact .inl rfl

theorem startedTimers_of_ne {d : Dialler} {h : Nat} (hh : d.phoneCallTimer ≠ some h) :
    d.startedTimers h = d.timer h := by
  unfold startedTimers
  cases hh' : d.phoneCallTimer with
  | none => rfl
  | some h' =>
    have hne : h ≠ h' := by
      rintro rfl
      exact hh hh'
    exact Function.update_of_ne hne ..

theorem startedTimers_self {d : Dialler} {h : Nat} (hh : d.phoneCallTimer = some h) :
    d.startedTimers h = .armed := by
  simp only [startedTimers, hh, Function.update_self]

end Dialler

end Leyu
