import Leyu.Call.Rules

/-!
# The state of the phone

The globals of the call manager and of the button handler in one record, with the levels of
the two audio pins and the log of what was asked of the outside world. What the outside world
answers during one call of a function is a `World`.
-/

namespace Leyu

open Framework

/-- `call_state_t` -/
inductive CallState
  | idle | ringing | inCall | hangingUp
  deriving DecidableEq, Repr

structure EventBits where
  autoHangup : Bool
  ringStop : Bool
  deriving DecidableEq, Repr

/-- What a function asks of the modem, of the player, of the speech engine or of the timer
service. -/
inductive Effect
  | atCommand (command : Text)
  | ringtoneStarted
  | ringtoneStopped
  | announced (text : Text)
  | timerStarted
  deriving DecidableEq, Repr

/-- The globals of `call_manager.c`, `g_is_in_call` of `button_handler.c` and the audio pins.
GPIO47 high selects the audio route of the 4G module, low that of the DAC. -/
structure Phone where
  rules : RuleTable
  callerNumber : Text
  state : CallState
  timerActive : Bool
  eventGroup : Option EventBits
  isPlayingRingtone : Bool
  isInCall : Bool
  gpio47 : Bool
  gpio48 : Bool
  effects : List Effect
  deriving DecidableEq

/-- The answers of the outside world to one call of a function. -/
structure World where
  engine : Bool
  taskCreated : Bool
  timerStarts : Bool
  timerStops : Bool
  /-- The two AT buffers and the AT handle are not null. -/
  atBuffers : Bool
  /-- `g_at_mutex` is there and taken. -/
  atMutex : Bool
  atReturn : EspErr
  deriving DecidableEq, Repr

/-- The AT channel is available and the modem accepts the command. -/
def World.Accepts (w : World) : Prop := w.atBuffers ∧ w.atMutex ∧ w.atReturn = .ok

instance (w : World) : Decidable w.Accepts := by
  unfold World.Accepts; infer_instance

def World.allOk : World := ⟨true, true, true, true, true, true, .ok⟩

namespace Phone

def emit (e : Effect) (p : Phone) : Phone := { p with effects := p.effects ++ [e] }

def since (before after : Phone) : List Effect := after.effects.drop before.effects.length

def setGpio47 (level : Bool) (p : Phone) : Phone := { p with gpio47 := level }

def setGpio48 (level : Bool) (p : Phone) : Phone := { p with gpio48 := level }

/-- `xEventGroupSetBits` / `xEventGroupClearBits` behind the null check of the source. -/
def mapEvents (f : EventBits → EventBits) (p : Phone) : Phone :=
  { p with eventGroup := p.eventGroup.map f }

def AutoHangupPending (p : Phone) : Prop := ∃ bits, p.eventGroup = some bits ∧ bits.autoHangup

def boot : Phone where
  rules := .empty
  callerNumber := []
  state := .idle
  timerActive := false
  eventGroup := none
  isPlayingRingtone := false
  isInCall := false
  gpio47 := false
  gpio48 := true
  effects := []

@[simp] theorem mapEvents_state (f : EventBits → EventBits) (p : Phone) :
    (p.mapEvents f).state = p.state := rfl
theorem mapEvents_mapEvents (f g : EventBits → EventBits) (p : Phone) :
    (p.mapEvents f).mapEvents g = p.mapEvents (g ∘ f) := by
  simp [mapEvents]

end Phone

end Leyu
