import Leyu.Framework.Runs

/-!
# The SIP service

`sip_event_handler_task` of `sip_service.c` with the loop of `app_main` that places an outgoing
call. The six booleans are shared without a lock. An event that ends the call is processed in
two parts, with a delay of 100 ms between them, and an incoming call in two parts around the
announcement; the main loop reads the two booleans of its test one after the other.
-/

namespace Leyu

inductive SipEvent
  | calling | incoming | begin | ended | answered | hangup | registered | unregistered | error
  deriving DecidableEq, Repr

/-- Where `sip_event_handler_task` stands. -/
inductive SipTask
  | receiving
  /-- The incoming call was announced, `brtc_is_playing` is not yet asked. -/
  | announced
  /-- In the delay before the audio pipe is closed; the flag is for the branches of an error. -/
  | closing (failed : Bool)
  deriving DecidableEq, Repr

/-- Where `app_main` stands in its loop on `is_sip_flag`. -/
inductive SipLoop
  | top
  | delay
  | modeRead
  | dialling
  deriving DecidableEq, Repr

structure SipService where
  isSipFlag : Bool
  isSipMode : Bool
  isSipBegin : Bool
  isSipIncoming : Bool
  isSipEventCalling : Bool
  isSipEventIncoming : Bool
  /-- `s_bdrtc.is_playing` -/
  isPlaying : Bool
  /-- The argument of the last call of `audio_pipe_sip_mode`. -/
  pipe : Option Bool
  task : SipTask
  loop : SipLoop
  deriving DecidableEq, Repr

namespace SipService

/-- The first part of the branches that end a call on a hang-up or an error. -/
def clearCall (failed : Bool) (s : SipService) : SipService :=
  { s with isSipBegin := false, isSipIncoming := false, isSipEventCalling := false,
           isSipEventIncoming := false, task := .closing failed }

/-- `BEGIN` and `ANSWERED` have the same branch. -/
def beginCall (s : SipService) : SipService :=
  if s.isSipBegin then s
  else { s with isSipBegin := true, isSipEventCalling := false, isSipEventIncoming := false }

/-- The task takes the next event and processes it, or its first part. `UNREGISTERED` falls
through to `ERROR` and that to the default branch, with the same test and the same body. -/
def receive (e : SipEvent) (s : SipService) : SipService :=
  match e with
  | .calling =>
      { s with isPlaying := true, isSipMode := true, pipe := some true,
               isSipEventCalling := true, isSipEventIncoming := false, isSipFlag := false }
  | .incoming =>
      if s.isSipIncoming then { s with task := .announced }
      else { s with isSipIncoming := true, isPlaying := true, task := .announced }
  | .begin => s.beginCall
  | .answered => s.beginCall
  | .ended =>
      if s.isSipBegin then
        { s with isSipBegin := false, isSipIncoming := false, task := .closing false }
      else s
  | .hangup =>
      if s.isSipBegin || s.isSipIncoming || s.isSipEventCalling then s.clearCall false else s
  | .registered => s
  | .unregistered => if s.isSipMode then s.clearCall true else s
  | .error => if s.isSipMode then s.clearCall true else s

def proceed (s : SipService) : SipService :=
  match s.task with
  | .receiving => s
  | .announced =>
      if s.isPlaying then { s with task := .receiving }
      else
        { s with isPlaying := true, isSipMode := true, pipe := some true,
                 isSipEventCalling := false, isSipEventIncoming := true, isSipFlag := false,
                 task := .receiving }
  | .closing failed =>
      { s with isSipFlag := if failed then false else s.isSipFlag, pipe := some false,
               isSipMode := false, task := .receiving }

/-- The next access of the main loop: `esp_rtc_call` follows the write of `is_sip_mode`. -/
def mainLoop (s : SipService) : SipService :=
  match s.loop with
  | .top => if s.isSipFlag then { s with loop := .delay } else s
  | .delay => { s with loop := if s.isSipMode then .top else .modeRead }
  | .modeRead => { s with loop := if s.isPlaying then .top else .dialling }
  | .dialling => { s with isSipMode := true, loop := .top }

def requestCall (s : SipService) : SipService := { s with isPlaying := true, isSipFlag := true }

def start : SipService where
  isSipFlag := false
  isSipMode := false
  isSipBegin := false
  isSipIncoming := false
  isSipEventCalling := false
  isSipEventIncoming := false
  isPlaying := false
  pipe := none
  task := .receiving
  loop := .top

end SipService

inductive SipStep
  | receive (e : SipEvent)
  | proceed
  | mainLoop
  | requestCall
  /-- The speech engine starts or stops to speak. -/
  | speaking (isPlaying : Bool)
  deriving DecidableEq, Repr

/-- An event is taken only when the one before it is processed. -/
def SipStep.step (s : SipService) : SipStep → SipService
  | .receive e => if s.task = .receiving then s.receive e else s
  | .proceed => s.proceed
  | .mainLoop => s.mainLoop
  | .requestCall => s.requestCall
  | .speaking isPlaying => { s with isPlaying }

end Leyu
