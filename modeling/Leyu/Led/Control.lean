import Leyu.Framework.Cyclic
import Leyu.Led.DecodedColours

/-!
# The animations of the strip

`led_display` selects a mode, and `timer_callback` shows the next frame of the animations 11 to 14.
The one runs in the task that takes the commands, the other in the task of the timers: every access
of a variable that both use is a step of its own.
-/

namespace Leyu

open Framework

/-- `LED_NUM` -/
def ledNum : Nat := 9

def ledOffArray : List Char := List.replicate ledNum '0'
def ledWhiteArray : List Char := List.replicate ledNum 'W'
def ledRedArray : List Char := List.replicate ledNum 'R'
def ledGreenArray : List Char := List.replicate ledNum 'G'
def ledBlueArray : List Char := List.replicate ledNum 'B'
def ledYellowArray : List Char := List.replicate ledNum 'Y'
def ledCyanArray : List Char := List.replicate ledNum 'C'
def ledPurpleArray : List Char := List.replicate ledNum 'P'
def ledOrangeArray : List Char := List.replicate ledNum 'O'
def ledMixedArray : List Char := ['R', 'G', 'B', 'Y', 'C', 'P', 'O', 'W', 'R']

/-- The array that `led_static_display` shows for a mode. -/
def staticArray : UInt8 → Option (List Char)
  | 0 => some ledOffArray
  | 1 => some ledWhiteArray
  | 2 => some ledGreenArray
  | 3 => some ledYellowArray
  | 4 => some ledRedArray
  | 5 => some ledMixedArray
  | 6 => some ledWhiteArray
  | 7 => some ledBlueArray
  | 8 => some ledPurpleArray
  | 9 => some ledOrangeArray
  | 10 => some ledCyanArray
  -- `led_14_1` to `led_14_15`
  | 17 => some ['R', '0', '0', '0', '0', '0', '0', '0', '0']
  | 18 => some ['G', 'R', '0', '0', '0', '0', '0', '0', '0']
  | 19 => some ['B', 'G', 'R', '0', '0', '0', '0', '0', '0']
  | 20 => some ['Y', 'B', 'G', 'R', '0', '0', '0', '0', '0']
  | 21 => some ['C', 'Y', 'B', 'G', 'R', '0', '0', '0', '0']
  | 22 => some ['P', 'C', 'Y', 'B', 'G', 'R', '0', '0', '0']
  | 23 => some ['O', 'P', 'C', 'Y', 'B', 'G', 'R', '0', '0']
  | 24 => some ['0', 'O', 'P', 'C', 'Y', 'B', 'G', 'R', '0']
  | 25 => some ['0', '0', 'O', 'P', 'C', 'Y', 'B', 'G', 'R']
  | 26 => some ['R', '0', '0', 'O', 'P', 'C', 'Y', 'B', 'G']
  | 27 => some ['G', 'R', '0', '0', 'O', 'P', 'C', 'Y', 'B']
  | 28 => some ['B', 'G', 'R', '0', '0', 'O', 'P', 'C', 'Y']
  | 29 => some ['Y', 'B', 'G', 'R', '0', '0', 'O', 'P', 'C']
  | 30 => some ['C', 'Y', 'B', 'G', 'R', '0', '0', 'O', 'P']
  | 31 => some ['P', 'C', 'Y', 'B', 'G', 'R', '0', '0', 'O']
  | _ => none

def ledList11 : List UInt8 := [4, 2, 7, 3, 8, 10, 9]
/-- `{255, 0, 0}` -/
def ledList13 : LedColour := redLed
def ledList14_1 : List UInt8 := [17, 18, 19, 20, 21, 22]
def ledList14_2 : List UInt8 := [23, 24, 25, 26, 27, 28, 29, 30, 31]

/-- A call that shows a frame. -/
inductive LedCall
  | ledStaticDisplay (mode level : UInt8)
  | setColourChange (colour : LedColour) (level : UInt8)

namespace LedCall

def level : LedCall → UInt8
  | ledStaticDisplay _ level => level
  | setColourChange _ level => level

def frame : LedCall → Option RmtItems
  | ledStaticDisplay mode level => (staticArray mode).map fun a => xgb1815SetColourArray a level
  | setColourChange colour level => some (xgb1815SetColourChange colour ledNum level)

end LedCall

private theorem staticArray_letters (mode : UInt8) :
    (staticArray mode).all fun a => a.all fun letter => ledLetters.contains letter := by
  unfold staticArray
  split <;> rfl

theorem LedCall.frame_defined {call : LedCall} {frame : RmtItems} (h : call.frame = some frame) :
    none ∉ frame := by
  cases call with
  | ledStaticDisplay mode level =>
    obtain ⟨colourArray, harray, rfl⟩ := Option.map_eq_some_iff.mp h
    have hletters := staticArray_letters mode
    rw [harray, Option.all_some, List.all_eq_true] at hletters
    rw [defined_array]
    intro letter hletter
    exact List.contains_iff_mem.mp (hletters letter hletter)
  | setColourChange colour level =>
    obtain rfl := Option.some.inj h
    simp [xgb1815SetColourChange_eq, none_notMem_rgbItems]

inductive LedEffect
  | indexed (table : List UInt8) (index : Int)
  | called (call : LedCall)
  | faded (rising : Bool) (old new : UInt8)

/-- A blink pattern of mode 12: the last count that shows a frame, the flags at which it is red, the
flag that is set back and to what, the last count of the pause, and the pattern that is next. -/
structure SosPart where
  shown : UInt8
  red : UInt8 → Bool
  lastFlag : UInt8
  firstFlag : UInt8
  pause : UInt8
  next : UInt8

/-- `switch (i_12)` -/
def sosPart : UInt8 → Option SosPart
  | 0 => some ⟨6, (· == 1), 1, 0, 9, 1⟩
  | 1 => some ⟨12, (· ≤ 3), 4, 1, 15, 2⟩
  | 2 => some ⟨6, (· == 1), 1, 0, 13, 0⟩
  | _ => none

/-- A phase of mode 13: the byte of `led_list_13` that changes. -/
structure GradientPart where
  channel : Fin 3
  rising : Bool
  next : UInt8

/-- `switch (i_13)` -/
def gradientPart : UInt8 → Option GradientPart
  | 0 => some ⟨1, true, 1⟩
  | 1 => some ⟨0, false, 2⟩
  | 2 => some ⟨2, true, 3⟩
  | 3 => some ⟨1, false, 4⟩
  | 4 => some ⟨0, true, 5⟩
  | 5 => some ⟨2, false, 0⟩
  | _ => none

/-- The byte goes on, in `int` arithmetic; `none` when it would leave the range. -/
def fade (rising : Bool) (value : UInt8) : Option UInt8 :=
  if rising then (if value.toNat + 10 ≤ 255 then some (value + 10) else none)
  else (if (value.toNat : Int) - 10 ≥ 0 then some (value - 10) else none)

def fadeEnd (rising : Bool) : UInt8 := if rising then 255 else 0

/-! ## The points at which the two tasks stand -/

/-- In front of the next access of a shared variable. Only `led_display` writes `level`, so that its
own reads of it need no step. -/
inductive DisplayPoint
  | idle
  | entered (mode : UInt8)
  | countReset
  | flagReset
  | incremented
  | decremented
  | chosen (mode : UInt8)
  | stored (mode : UInt8)
  deriving DecidableEq, Repr

inductive CyclePoint
  | test
  | reset
  | read
  | next (old : UInt8)
  | send (index : UInt8)

inductive SosPoint
  | part
  | test (p : SosPart)
  | colour (p : SosPart)
  | flagTest (p : SosPart)
  | flagReset (p : SosPart)
  | flagRead
  | flagNext (old : UInt8)
  | pause (p : SosPart)
  | count
  | countNext (old : UInt8)
  | restart (p : SosPart)
  | advance (p : SosPart)
  | flag

inductive GradientPoint
  | send
  | part
  | next (i : UInt8)

inductive ChasePoint
  | test
  | first
  | low
  | high
  | second
  | send (entry : UInt8)
  | last
  | reset
  | read
  | next (old : UInt8)

/-- `undefined`: a table has been read out of its range, and nothing is said about the rest. -/
inductive TimerPoint
  | idle
  | undefined
  | entered
  | cycle (p : CyclePoint)
  | sos (p : SosPoint)
  | gradient (p : GradientPoint)
  | chase (p : ChasePoint)

/-- `entries` is what the ticks have shown in the mode 11 since it was last entered or begun anew,
and `whole` says that the tick under way has begun since then. -/
structure LedRun where
  i11 : UInt8
  i12 : UInt8
  i13 : UInt8
  i14 : UInt8
  flag12 : UInt8
  count12 : UInt8
  level : UInt8
  mode : UInt8
  oldMode : UInt8
  ledList13 : LedColour
  display : DisplayPoint
  timer : TimerPoint
  effects : List LedEffect
  entries : List UInt8
  whole : Bool

namespace LedRun

def init : LedRun where
  i11 := 0
  i12 := 0
  i13 := 0
  i14 := 0
  flag12 := 1
  count12 := 1
  level := 2
  mode := 0
  oldMode := 0
  ledList13 := Leyu.ledList13
  display := .idle
  timer := .idle
  effects := []
  entries := []
  whole := false

def emit (e : LedEffect) (s : LedRun) : LedRun := { s with effects := s.effects ++ [e] }

def goto (p : TimerPoint) (s : LedRun) : LedRun := { s with timer := p }

/-- `table[index]`, and what the tick does with the entry. -/
def lookup (table : List UInt8) (index : Int) (k : UInt8 → LedRun → LedRun) (s : LedRun) : LedRun :=
  let s := s.emit (.indexed table index)
  if index < 0 then s.goto .undefined
  else match table[index.toNat]? with
    | none => s.goto .undefined
    | some entry => k entry s

/-- The run of the mode 11 is interrupted. -/
def interrupt (s : LedRun) : LedRun := { s with entries := [], whole := false }

/-! ## `led_display` -/

def displayStep (s : LedRun) : LedRun :=
  match s.display with
  | .idle => s
  | .entered mode =>
      match mode with
      | 11 => { s.interrupt with i11 := 0, display := .chosen mode }
      | 12 => { s with i12 := 0, display := .countReset }
      | 13 => { s with i13 := 0, display := .chosen mode }
      | 14 => { s with i14 := 0, display := .chosen mode }
      | 15 => { s with level := s.level + 1, display := .incremented }
      | 16 => { s with level := s.level - 1, display := .decremented }
      | _ => { s with display := .chosen mode }
  | .countReset => { s with count12 := 1, display := .flagReset }
  | .flagReset => { s with flag12 := 1, display := .chosen 12 }
  | .incremented =>
      { s with level := if s.level ≥ 5 then 5 else s.level, display := .chosen s.oldMode }
  | .decremented =>
      { s with level := if s.level ≤ 1 then 1 else s.level, display := .chosen s.oldMode }
  | .chosen mode =>
      -- A mode other than 11 ends the run; after 15 and 16 it is the mode that was set already.
      let s := if mode = 11 then s else s.interrupt
      { s with mode := mode, display := .stored mode }
  | .stored mode =>
      { s.emit (.called (.ledStaticDisplay mode s.level)) with oldMode := mode, display := .idle }

/-! ## `timer_callback` -/

def cycleShow (entry : UInt8) (s : LedRun) : LedRun :=
  { s.emit (.called (.ledStaticDisplay entry s.level)) with
    entries := if s.whole then s.entries ++ [entry] else s.entries
    timer := .idle }

def cycleStep (s : LedRun) : CyclePoint → LedRun
  | .test => if s.i11 = 6 then s.goto (.cycle .reset) else s.goto (.cycle .read)
  | .reset => { s with i11 := 0, timer := .cycle (.send 0) }
  | .read => s.goto (.cycle (.next s.i11))
  | .next old => { s with i11 := old + 1, timer := .cycle (.send old) }
  | .send index => s.lookup ledList11 index.toNat cycleShow

def sosStep (s : LedRun) : SosPoint → LedRun
  | .part =>
      match sosPart s.i12 with
      | none => s.goto .idle
      | some p => s.goto (.sos (.test p))
  | .test p =>
      if s.count12 ≤ p.shown then s.goto (.sos (.colour p)) else s.goto (.sos (.pause p))
  | .colour p =>
      (s.emit (.called (.ledStaticDisplay (if p.red s.flag12 then 4 else 0) 5))).goto
        (.sos (.flagTest p))
  | .flagTest p =>
      if s.flag12 = p.lastFlag then s.goto (.sos (.flagReset p)) else s.goto (.sos .flagRead)
  | .flagReset p => { s with flag12 := p.firstFlag, timer := .sos .count }
  | .flagRead => s.goto (.sos (.flagNext s.flag12))
  | .flagNext old => { s with flag12 := old + 1, timer := .sos .count }
  | .pause p =>
      if s.count12 ≤ p.pause then s.goto (.sos .count) else s.goto (.sos (.restart p))
  | .count => s.goto (.sos (.countNext s.count12))
  | .countNext old => { s with count12 := old + 1, timer := .idle }
  | .restart p => { s with count12 := 1, timer := .sos (.advance p) }
  | .advance p => { s with i12 := p.next, timer := .sos .flag }
  | .flag => { s with flag12 := 1, timer := .idle }

def gradientStep (s : LedRun) : GradientPoint → LedRun
  | .send => (s.emit (.called (.setColourChange s.ledList13 s.level))).goto (.gradient .part)
  | .part =>
      match gradientPart s.i13 with
      | none => s.goto .idle
      | some p =>
          let old := s.ledList13.get p.channel
          let new := (fade p.rising old).getD (fadeEnd p.rising)
          { s.emit (.faded p.rising old new) with
            ledList13 := s.ledList13.set p.channel new p.channel.isLt
            timer := if (fade p.rising old).isSome then .idle else .gradient (.next p.next) }
  | .next i => { s with i13 := i, timer := .idle }

def chaseStep (s : LedRun) : ChasePoint → LedRun
  | .test => if s.i14 ≤ 5 then s.goto (.chase .first) else s.goto (.chase .low)
  | .first => s.lookup ledList14_1 s.i14.toNat fun entry s => s.goto (.chase (.send entry))
  | .low => if s.i14 > 5 then s.goto (.chase .high) else s.goto (.chase .last)
  | .high => if s.i14 ≤ 14 then s.goto (.chase .second) else s.goto (.chase .last)
  | .second =>
      s.lookup ledList14_2 ((s.i14.toNat : Int) - 6) fun entry s => s.goto (.chase (.send entry))
  | .send entry =>
      (s.emit (.called (.ledStaticDisplay entry s.level))).goto (.chase .last)
  | .last => if s.i14 = 14 then s.goto (.chase .reset) else s.goto (.chase .read)
  | .reset => { s with i14 := 6, timer := .idle }
  | .read => s.goto (.chase (.next s.i14))
  | .next old => { s with i14 := old + 1, timer := .idle }

def timerStep (s : LedRun) : LedRun :=
  match s.timer with
  | .idle => s
  | .undefined => s
  | .entered =>
      match s.mode with
      | 11 => s.goto (.cycle .test)
      | 12 => s.goto (.sos .part)
      | 13 => s.goto (.gradient .send)
      | 14 => s.goto (.chase .test)
      | _ => s.goto .idle
  | .cycle p => s.cycleStep p
  | .sos p => s.sosStep p
  | .gradient p => s.gradientStep p
  | .chase p => s.chaseStep p

end LedRun

/-- `call` and `tick` begin a call of `led_display` and one of `timer_callback`, which go on by
`display` and `timer`. Each of the two functions runs in one task only. -/
inductive LedOp
  | call (mode : UInt8)
  | tick
  | display
  | timer

namespace LedRun

def step (s : LedRun) : LedOp → LedRun
  | .call mode =>
      match s.display with
      | .idle => { s with display := .entered mode }
      | _ => s
  | .tick =>
      match s.timer with
      | .idle => { s with timer := .entered, whole := true }
      | _ => s
  | .display => s.displayStep
  | .timer => s.timerStep

end LedRun

end Leyu
