import Mathlib.Tactic.TypeStar

/-!
# The scan of the keys

One sample of one key in `button_scan_task`. The time is in milliseconds and does not run
backwards; the event queue takes every event.
-/

namespace Leyu

/-- `BUTTON_GPIO_*` -/
inductive ButtonGpio
  | gpio38 | gpio39 | gpio40 | gpio4
  deriving DecidableEq, Repr

/-- `BUTTON_RELEASED` and `BUTTON_PRESSED` -/
inductive ButtonLevel
  | released | pressed
  deriving DecidableEq, Repr

inductive ButtonEventType
  | shortPress | longPress | doubleClick
  deriving DecidableEq, Repr

structure ButtonEvent where
  type : ButtonEventType
  gpio : ButtonGpio
  deriving DecidableEq, Repr

/-- `button_info_t`; the name is only logged. -/
structure ButtonInfo where
  gpioNum : ButtonGpio
  lastState : ButtonLevel
  lastChangeTime : Nat
  pressStartTime : Nat
  longPressTriggered : Bool
  lastShortPressTime : Nat
  deriving DecidableEq, Repr

/-- An entry of `buttons`. -/
def ButtonInfo.boot (gpioNum : ButtonGpio) : ButtonInfo :=
  ⟨gpioNum, .released, 0, 0, false, 0⟩

def debounceTimeMs : Nat := 50

def longPressTimeMs : Nat := 2000

def doubleClickTimeMs : Nat := 500

namespace ButtonInfo

variable (b : ButtonInfo) (currentTime : Nat) (currentState : ButtonLevel)

def Changes : Prop :=
  currentState ≠ b.lastState ∧ debounceTimeMs < currentTime - b.lastChangeTime

instance : Decidable (b.Changes currentTime currentState) := by unfold Changes; infer_instance

/-- A pressed level at this time makes a long press. -/
def Holds : Prop :=
  b.longPressTriggered = false ∧ longPressTimeMs ≤ currentTime - b.pressStartTime

instance : Decidable (b.Holds currentTime) := by unfold Holds; infer_instance

/-- A release that was not a long press. -/
def shortRelease : ButtonInfo × List ButtonEvent :=
  if b.gpioNum = .gpio4 ∧ currentTime - b.lastShortPressTime < doubleClickTimeMs then
    ({ b with lastShortPressTime := 0 }, [⟨.doubleClick, b.gpioNum⟩])
  else ({ b with lastShortPressTime := currentTime }, [⟨.shortPress, b.gpioNum⟩])

/-- The first half of the loop body: the change of state, once the key has settled. -/
def checkChange : ButtonInfo × List ButtonEvent :=
  if b.Changes currentTime currentState then
    let b := { b with lastState := currentState, lastChangeTime := currentTime }
    match currentState with
    | .pressed => ({ b with pressStartTime := currentTime, longPressTriggered := false }, [])
    | .released => if b.longPressTriggered then (b, []) else b.shortRelease currentTime
  else (b, [])

/-- The second half: the long press looks at the level as it was read. -/
def checkLongPress : ButtonInfo × List ButtonEvent :=
  if b.gpioNum = .gpio4 ∧ currentState = .pressed ∧ b.Holds currentTime then
    ({ b with longPressTriggered := true }, [⟨.longPress, .gpio4⟩])
  else (b, [])

/-- The body of the loop of `button_scan_task`, with the events it posts. -/
def scan : ButtonInfo × List ButtonEvent :=
  let changed := b.checkChange currentTime currentState
  let long := changed.1.checkLongPress currentTime currentState
  (long.1, changed.2 ++ long.2)

end ButtonInfo

section

variable {b : ButtonInfo} {t : Nat} {level : ButtonLevel}

theorem not_released (h : level = .pressed) : level ≠ .released := by
  rw [h]
  decide

theorem scan_press (h : b.Changes t .pressed) :
    b.scan t .pressed =
      ({ b with lastState := .pressed, lastChangeTime := t, pressStartTime := t,
                longPressTriggered := false }, []) := by
  have hchange : b.checkChange t .pressed =
      ({ b with lastState := .pressed, lastChangeTime := t, pressStartTime := t,
                longPressTriggered := false }, []) := by
    rw [ButtonInfo.checkChange, if_pos h]
  rw [ButtonInfo.scan, hchange]
  simp [ButtonInfo.checkLongPress, ButtonInfo.Holds, longPressTimeMs]

private theorem scan_released (t : Nat) (b : ButtonInfo) :
    b.scan t .released = b.checkChange t .released := by
  rw [ButtonInfo.scan]
  simp [ButtonInfo.checkLongPress]

theorem scan_release_long (h : b.Changes t .released) (hlong : b.longPressTriggered = true) :
    b.scan t .released = ({ b with lastState := .released, lastChangeTime := t }, []) := by
  rw [scan_released, ButtonInfo.checkChange, if_pos h]
  simp [hlong]

theorem scan_release_short (h : b.Changes t .released) (hshort : b.longPressTriggered = false) :
    b.scan t .released =
      ({ b with lastState := .released, lastChangeTime := t } : ButtonInfo).shortRelease t := by
  rw [scan_released, ButtonInfo.checkChange, if_pos h]
  simp [hshort]

theorem scan_quiet (hchange : ¬ b.Changes t level) (hhold : ¬ (level = .pressed ∧ b.Holds t)) :
    b.scan t level = (b, []) := by
  have hsame : b.checkChange t level = (b, []) := by rw [ButtonInfo.checkChange, if_neg hchange]
  have hnot : ¬ (b.gpioNum = .gpio4 ∧ level = .pressed ∧ b.Holds t) := fun h => hhold h.2
  rw [ButtonInfo.scan, hsame]
  simp only [ButtonInfo.checkLongPress, if_neg hnot, List.append_nil]

theorem scan_hold (hgpio : b.gpioNum = .gpio4) (hchange : ¬ b.Changes t .pressed)
    (hhold : b.Holds t) :
    b.scan t .pressed = ({ b with longPressTriggered := true }, [⟨.longPress, .gpio4⟩]) := by
  have hsame : b.checkChange t .pressed = (b, []) := by
    rw [ButtonInfo.checkChange, if_neg hchange]
  have hlong : b.checkLongPress t .pressed =
      ({ b with longPressTriggered := true }, [⟨.longPress, .gpio4⟩]) := by
    rw [ButtonInfo.checkLongPress, if_pos ⟨hgpio, rfl, hhold⟩]
  rw [ButtonInfo.scan, hsame]
  simp only [hlong, List.nil_append]

theorem scan_otherKey (hgpio : b.gpioNum ≠ .gpio4) (t : Nat) (level : ButtonLevel) :
    ∀ e ∈ (b.scan t level).2, e = ⟨.shortPress, b.gpioNum⟩ := by
  have hlong : ∀ b' : ButtonInfo, b'.gpioNum = b.gpioNum → (b'.checkLongPress t level).2 = [] := by
    intro b' hb'
    rw [ButtonInfo.checkLongPress, if_neg]
    rintro ⟨h, -⟩
    exact hgpio (hb'.symm.trans h)
  have hshort : ∀ b' : ButtonInfo, b'.gpioNum = b.gpioNum →
      b'.shortRelease t =
        ({ b' with lastShortPressTime := t }, [⟨.shortPress, b.gpioNum⟩]) := by
    intro b' hb'
    rw [ButtonInfo.shortRelease, if_neg, hb']
    rintro ⟨h, -⟩
    exact hgpio (hb'.symm.trans h)
  by_cases hchange : b.Changes t level
  · cases level with
    | pressed => simp [scan_press hchange]
    | released =>
      cases hl : b.longPressTriggered with
      | true => simp [scan_release_long hchange hl]
      | false => simp [scan_release_short hchange hl, hshort]
  · have hsame : b.checkChange t level = (b, []) := by
      rw [ButtonInfo.checkChange, if_neg hchange]
    simp [ButtonInfo.scan, hsame, hlong b rfl]

end

end Leyu
