import Leyu.Framework.Runs
import Leyu.Keys.ButtonScan

/-!
# What the key means

The key beside its debounced state, which is kept from the samples alone. A press lasts from one
debounced edge to the next; the events of a press are those posted from its first sample to the
sample that ends it.
-/

namespace Leyu

open Framework

/-- A sample of the key, so many milliseconds after the one before. -/
structure KeySample where
  elapsed : Nat
  level : ButtonLevel

/-- A level and the time it began; another one counts when the last change is long enough ago. -/
structure DebouncedKey where
  level : ButtonLevel
  since : Nat

def DebouncedKey.sample (d : DebouncedKey) (t : Nat) (level : ButtonLevel) : DebouncedKey :=
  if level ≠ d.level ∧ debounceTimeMs < t - d.since then ⟨level, t⟩ else d

/-- The scan of the key on GPIO4 and what there is to say about it: the events since the press
began, and the time of the last release of a press that was not long. -/
structure KeyScan where
  now : Nat
  button : ButtonInfo
  key : DebouncedKey
  posted : List ButtonEvent
  shortRelease : Option Nat

def longPressEvent : ButtonEvent := ⟨.longPress, .gpio4⟩

def doubleClickEvent : ButtonEvent := ⟨.doubleClick, .gpio4⟩

namespace KeyScan

def boot : KeyScan := ⟨0, .boot .gpio4, ⟨.released, 0⟩, [], none⟩

def time (s : KeyScan) (x : KeySample) : Nat := s.now + x.elapsed

def events (s : KeyScan) (x : KeySample) : List ButtonEvent :=
  (s.button.scan (s.time x) x.level).2

def nextKey (s : KeyScan) (x : KeySample) : DebouncedKey := s.key.sample (s.time x) x.level

def Begins (s : KeyScan) (x : KeySample) : Prop :=
  s.key.level = .released ∧ (s.nextKey x).level = .pressed

instance (s : KeyScan) (x : KeySample) : Decidable (s.Begins x) := by unfold Begins; infer_instance

def Ends (s : KeyScan) (x : KeySample) : Prop :=
  s.key.level = .pressed ∧ (s.nextKey x).level = .released

instance (s : KeyScan) (x : KeySample) : Decidable (s.Ends x) := by unfold Ends; infer_instance

/-- The events of the press that is in progress or ends with the sample. -/
def pressEvents (s : KeyScan) (x : KeySample) : List ButtonEvent :=
  if s.Begins x then s.events x else s.posted ++ s.events x

def step (s : KeyScan) (x : KeySample) : KeyScan where
  now := s.time x
  button := (s.button.scan (s.time x) x.level).1
  key := s.nextKey x
  posted := s.pressEvents x
  shortRelease :=
    if s.Ends x ∧ longPressEvent ∉ s.posted then some (s.time x) else s.shortRelease

/-- The events of a sample are those the key means. -/
structure Decodes (s : KeyScan) (x : KeySample) : Prop where
  long : longPressEvent ∈ s.events x →
    (s.nextKey x).level = .pressed ∧ longPressTimeMs ≤ s.time x - (s.nextKey x).since
  once : s.Ends x → (s.pressEvents x).length = 1
  atMostOnce : (s.nextKey x).level = .pressed → (s.pressEvents x).length ≤ 1
  onlyPresses : s.key.level = .released → (s.nextKey x).level = .released → s.events x = []
  longRelease : s.Ends x → longPressEvent ∈ s.posted → s.events x = []
  double : doubleClickEvent ∈ s.events x →
    ∃ t, s.shortRelease = some t ∧ s.time x - t < doubleClickTimeMs

/-- The sample is not a bounce of a release, more than two seconds after the press began, of a
press that was not long; and it does not end such a press in the first half second of all. -/
def Clean (s : KeyScan) (x : KeySample) : Prop :=
  (x.level = .pressed → s.button.lastState = .released →
    s.time x - s.button.lastChangeTime ≤ debounceTimeMs → ¬ s.button.Holds (s.time x)) ∧
  (x.level = .released → s.button.Changes (s.time x) .released →
    s.button.longPressTriggered = false → doubleClickTimeMs ≤ s.time x)

instance (s : KeyScan) (x : KeySample) : Decidable (s.Clean x) := by unfold Clean; infer_instance

/-- What holds between clean samples. -/
structure Inv (s : KeyScan) : Prop where
  gpio : s.button.gpioNum = .gpio4
  state : s.button.lastState = s.key.level
  change : s.button.lastChangeTime = s.key.since
  past : s.key.since ≤ s.now
  start : s.key.level = .pressed → s.button.pressStartTime = s.key.since
  posted : s.key.level = .pressed →
    s.posted = if s.button.longPressTriggered then [longPressEvent] else []
  short : s.button.lastShortPressTime ≠ 0 → s.shortRelease = some s.button.lastShortPressTime
  early : s.now < doubleClickTimeMs →
    s.button.lastShortPressTime = 0 ∧ s.shortRelease = none

theorem inv_boot : boot.Inv where
  gpio := rfl
  state := rfl
  change := rfl
  past := Nat.le_refl 0
  start := fun h => absurd h (by decide)
  posted := fun h => absurd h (by decide)
  short := fun h => absurd rfl h
  early := fun _ => ⟨rfl, rfl⟩

section

variable {s : KeyScan} {x : KeySample}

private theorem Inv.nextKey_changes (h : s.Inv) (hchange : s.button.Changes (s.time x) x.level) :
    s.nextKey x = ⟨x.level, s.time x⟩ := by
  obtain ⟨hlevel, htime⟩ := hchange
  rw [h.state] at hlevel
  rw [h.change] at htime
  rw [nextKey, DebouncedKey.sample, if_pos ⟨hlevel, htime⟩]

private theorem Inv.nextKey_same (h : s.Inv) (hchange : ¬ s.button.Changes (s.time x) x.level) :
    s.nextKey x = s.key := by
  rw [ButtonInfo.Changes, h.state, h.change] at hchange
  rw [nextKey, DebouncedKey.sample, if_neg hchange]

private theorem time_early (h : s.time x < doubleClickTimeMs) : s.now < doubleClickTimeMs :=
  Nat.lt_of_le_of_lt (Nat.le_add_right _ _) h

private theorem decodes_of_silent (hevents : s.events x = []) (hends : ¬ s.Ends x)
    (hcount : (s.nextKey x).level = .pressed → (s.pressEvents x).length ≤ 1) : s.Decodes x where
  long := fun hmem => absurd (hevents ▸ hmem) List.not_mem_nil
  once := fun he => absurd he hends
  atMostOnce := hcount
  onlyPresses := fun _ _ => hevents
  longRelease := fun he => absurd he hends
  double := fun hmem => absurd (hevents ▸ hmem) List.not_mem_nil

private theorem step_begins (h : s.Inv) (hlevel : x.level = .pressed)
    (hchange : s.button.Changes (s.time x) x.level) :
    s.Clean x ∧ s.Decodes x ∧ (s.step x).Inv := by
  have hnext := h.nextKey_changes hchange
  have hfrom : s.key.level = .released := by
    have hne := hchange.1
    rw [hlevel, h.state] at hne
    cases hkey : s.key.level with
    | released => rfl
    | pressed => exact absurd hkey.symm hne
  rw [hlevel] at hchange hnext
  have hscan := scan_press hchange
  have hevents : s.events x = [] := by rw [events, hlevel, hscan]
  have hbegins : s.Begins x := ⟨hfrom, by rw [hnext]⟩
  have hends : ¬ s.Ends x := by
    rintro ⟨hpressed, -⟩
    exact not_released hpressed hfrom
  have hpress : s.pressEvents x = [] := by rw [pressEvents, if_pos hbegins, hevents]
  have hbutton : (s.step x).button = { s.button with
      lastState := .pressed, lastChangeTime := s.time x, pressStartTime := s.time x,
      longPressTriggered := false } := by
    show (s.button.scan (s.time x) x.level).1 = _
    rw [hlevel, hscan]
  have hshort : (s.step x).shortRelease = s.shortRelease := if_neg fun he => hends he.1
  refine ⟨⟨?_, ?_⟩, ?_, ?_⟩
  · intro _ _ htime
    exact absurd hchange.2 (Nat.not_lt.mpr htime)
  · exact fun hreleased => absurd hreleased (not_released hlevel)
  · apply decodes_of_silent hevents hends
    intro _
    rw [hpress]
    exact Nat.zero_le 1
  · constructor
    · rw [hbutton]
      exact h.gpio
    · rw [hbutton]
      exact (congrArg DebouncedKey.level hnext).symm
    · rw [hbutton]
      exact (congrArg DebouncedKey.since hnext).symm
    · exact Nat.le_of_eq (congrArg DebouncedKey.since hnext)
    · intro _
      rw [hbutton]
      exact (congrArg DebouncedKey.since hnext).symm
    · intro _
      rw [hbutton]
      exact hpress
    · rw [hbutton, hshort]
      exact h.short
    · intro hearly
      rw [hbutton, hshort]
      exact h.early (time_early hearly)

private theorem ends_of_released (h : s.Inv) (hlevel : x.level = .released)
    (hchange : s.button.Changes (s.time x) x.level) :
    s.key.level = .pressed ∧ s.nextKey x = ⟨.released, s.time x⟩ := by
  have hnext := h.nextKey_changes hchange
  have hne := hchange.1
  rw [hlevel, h.state] at hne
  refine ⟨?_, by rw [hnext, hlevel]⟩
  cases hkey : s.key.level with
  | released => exact absurd hkey.symm hne
  | pressed => rfl

private theorem pressEvents_of_pressed (hkey : s.key.level = .pressed) :
    s.pressEvents x = s.posted ++ s.events x := by
  rw [pressEvents, if_neg]
  rintro ⟨hreleased, -⟩
  exact not_released hkey hreleased

/-- A press ends after which the button's record says that it is released, and what is known of
short releases is right. -/
theorem inv_of_ends {button : ButtonInfo} (hkey : s.nextKey x = ⟨.released, s.time x⟩)
    (hbutton : (s.step x).button = { button with
      lastState := .released, lastChangeTime := s.time x })
    (hgpio : button.gpioNum = .gpio4)
    (hshort : button.lastShortPressTime ≠ 0 →
      (s.step x).shortRelease = some button.lastShortPressTime)
    (hearly : s.time x < doubleClickTimeMs →
      button.lastShortPressTime = 0 ∧ (s.step x).shortRelease = none) : (s.step x).Inv := by
  have hreleased : (s.step x).key.level = .released := congrArg DebouncedKey.level hkey
  have hsince : (s.step x).key.since = s.time x := congrArg DebouncedKey.since hkey
  constructor
  · rw [hbutton]
    exact hgpio
  · rw [hbutton, hreleased]
  · rw [hbutton, hsince]
  · exact Nat.le_of_eq hsince
  · exact fun hpressed => absurd hreleased (not_released hpressed)
  · exact fun hpressed => absurd hreleased (not_released hpressed)
  · rw [hbutton]
    exact hshort
  · intro htime
    rw [hbutton]
    exact hearly htime

private theorem step_endsLong (h : s.Inv) (hlevel : x.level = .released)
    (hchange : s.button.Changes (s.time x) x.level)
    (hlong : s.button.longPressTriggered = true) :
    s.Clean x ∧ s.Decodes x ∧ (s.step x).Inv := by
  obtain ⟨hkey, hnext⟩ := ends_of_released h hlevel hchange
  rw [hlevel] at hchange
  have hscan := scan_release_long hchange hlong
  have hevents : s.events x = [] := by rw [events, hlevel, hscan]
  have hposted : s.posted = [longPressEvent] := by rw [h.posted hkey, if_pos hlong]
  have hpress : s.pressEvents x = [longPressEvent] := by
    rw [pressEvents_of_pressed hkey, hevents, hposted]
    rfl
  have hshort : (s.step x).shortRelease = s.shortRelease := by
    apply if_neg
    rintro ⟨-, hnot⟩
    exact hnot (by rw [hposted]; exact List.mem_singleton_self _)
  have hbutton : (s.step x).button = { s.button with
      lastState := .released, lastChangeTime := s.time x } := by
    show (s.button.scan (s.time x) x.level).1 = _
    rw [hlevel, hscan]
  refine ⟨⟨?_, ?_⟩, ?_, ?_⟩
  · exact fun hpressed => absurd hlevel (not_released hpressed)
  · intro _ _ hnot
    rw [hlong] at hnot
    cases hnot
  · constructor
    · exact fun hmem => absurd (hevents ▸ hmem) List.not_mem_nil
    · intro _
      rw [hpress]
      rfl
    · intro hpressed
      rw [hnext] at hpressed
      cases hpressed
    · exact fun _ _ => hevents
    · exact fun _ _ => hevents
    · exact fun hmem => absurd (hevents ▸ hmem) List.not_mem_nil
  · apply inv_of_ends hnext hbutton h.gpio
    · rw [hshort]
      exact h.short
    · intro htime
      rw [hshort]
      exact h.early (time_early htime)

private theorem decodes_of_event (hkey : s.key.level = .pressed) (hposted : s.posted = [])
    {e : ButtonEvent} (hevents : s.events x = [e]) (hlong : e ≠ longPressEvent)
    (hdouble : e = doubleClickEvent →
      ∃ t, s.shortRelease = some t ∧ s.time x - t < doubleClickTimeMs) : s.Decodes x := by
  have hpress : (s.pressEvents x).length = 1 := by
    rw [pressEvents_of_pressed hkey, hposted, hevents]
    rfl
  constructor
  · intro hmem
    rw [hevents, List.mem_singleton] at hmem
    exact absurd hmem.symm hlong
  · exact fun _ => hpress
  · exact fun _ => Nat.le_of_eq hpress
  · exact fun hreleased => absurd hreleased (not_released hkey)
  · intro _ hmem
    rw [hposted] at hmem
    cases hmem
  · intro hmem
    rw [hevents, List.mem_singleton] at hmem
    exact hdouble hmem.symm

private theorem clean_iff_of_short (hlevel : x.level = .released)
    (hchange : s.button.Changes (s.time x) .released)
    (hshort : s.button.longPressTriggered = false) :
    s.Clean x ↔ doubleClickTimeMs ≤ s.time x := by
  constructor
  · exact fun hc => hc.2 hlevel hchange hshort
  · intro htime
    refine ⟨?_, fun _ _ _ => htime⟩
    exact fun hpressed => absurd hlevel (not_released hpressed)

/-- The release of a short press soon after another one is the second of a double click; before half
a second has passed since the start there is no other one. -/
theorem step_endsDouble (h : s.Inv) (hlevel : x.level = .released)
    (hchange : s.button.Changes (s.time x) .released)
    (hshort : s.button.longPressTriggered = false) (hkey : s.key.level = .pressed)
    (hnext : s.nextKey x = ⟨.released, s.time x⟩) (hposted : s.posted = [])
    (hdouble : s.time x - s.button.lastShortPressTime < doubleClickTimeMs) :
    (s.Clean x → s.Decodes x ∧ (s.step x).Inv) ∧ (s.Decodes x → s.Clean x) := by
  have hrun : s.button.scan (s.time x) x.level = ({ s.button with
      lastState := .released, lastChangeTime := s.time x, lastShortPressTime := 0 },
      [doubleClickEvent]) := by
    rw [hlevel, scan_release_short hchange hshort, ButtonInfo.shortRelease,
      if_pos ⟨h.gpio, hdouble⟩]
    simp only [h.gpio]
    rfl
  have hevents : s.events x = [doubleClickEvent] := by rw [events, hrun]
  have hbutton : (s.step x).button = { ({ s.button with lastShortPressTime := 0 } : ButtonInfo)
      with lastState := .released, lastChangeTime := s.time x } := by
    show (s.button.scan (s.time x) x.level).1 = _
    rw [hrun]
  have hmem : doubleClickEvent ∈ s.events x := by
    rw [hevents]
    exact List.mem_singleton_self _
  rw [clean_iff_of_short hlevel hchange hshort]
  constructor
  · intro htime
    have hne : s.button.lastShortPressTime ≠ 0 := by
      intro hzero
      rw [hzero] at hdouble
      omega
    constructor
    · apply decodes_of_event hkey hposted hevents (by decide)
      exact fun _ => ⟨_, h.short hne, hdouble⟩
    · apply inv_of_ends hnext hbutton h.gpio
      · exact fun hzero => absurd rfl hzero
      · exact fun hlt => absurd hlt (Nat.not_lt.mpr htime)
  · intro hdecodes
    by_contra hearly
    obtain ⟨t, ht, -⟩ := hdecodes.double hmem
    rw [(h.early (time_early (Nat.not_le.mp hearly))).2] at ht
    cases ht

private theorem step_endsSingle (h : s.Inv) (hlevel : x.level = .released)
    (hchange : s.button.Changes (s.time x) .released)
    (hshort : s.button.longPressTriggered = false) (hkey : s.key.level = .pressed)
    (hnext : s.nextKey x = ⟨.released, s.time x⟩) (hposted : s.posted = [])
    (hsingle : ¬ s.time x - s.button.lastShortPressTime < doubleClickTimeMs) :
    (s.Clean x → s.Decodes x ∧ (s.step x).Inv) ∧ (s.Decodes x → s.Clean x) := by
  have hrun : s.button.scan (s.time x) x.level = ({ s.button with
      lastState := .released, lastChangeTime := s.time x, lastShortPressTime := s.time x },
      [⟨.shortPress, .gpio4⟩]) := by
    rw [hlevel, scan_release_short hchange hshort, ButtonInfo.shortRelease,
      if_neg fun hd => hsingle hd.2]
    simp only [h.gpio]
  have hevents : s.events x = [⟨.shortPress, .gpio4⟩] := by rw [events, hrun]
  have hbutton : (s.step x).button = { ({ s.button with
      lastShortPressTime := s.time x } : ButtonInfo)
      with lastState := .released, lastChangeTime := s.time x } := by
    show (s.button.scan (s.time x) x.level).1 = _
    rw [hrun]
  have hrelease : (s.step x).shortRelease = some (s.time x) := by
    apply if_pos
    refine ⟨⟨hkey, by rw [hnext]⟩, ?_⟩
    rw [hposted]
    exact List.not_mem_nil
  have htime : doubleClickTimeMs ≤ s.time x :=
    Nat.le_trans (Nat.not_lt.mp hsingle) (Nat.sub_le _ _)
  rw [clean_iff_of_short hlevel hchange hshort]
  refine ⟨fun _ => ⟨?_, ?_⟩, fun _ => htime⟩
  · apply decodes_of_event hkey hposted hevents (by decide)
    exact fun he => absurd he (by decide)
  · apply inv_of_ends hnext hbutton h.gpio
    · exact fun _ => hrelease
    · exact fun hlt => absurd hlt (Nat.not_lt.mpr htime)

private theorem step_endsShort (h : s.Inv) (hlevel : x.level = .released)
    (hchange : s.button.Changes (s.time x) x.level)
    (hshort : s.button.longPressTriggered = false) :
    (s.Clean x → s.Decodes x ∧ (s.step x).Inv) ∧ (s.Decodes x → s.Clean x) := by
  obtain ⟨hkey, hnext⟩ := ends_of_released h hlevel hchange
  rw [hlevel] at hchange
  have hposted : s.posted = [] := by rw [h.posted hkey, if_neg (by rw [hshort]; decide)]
  by_cases hdouble : s.time x - s.button.lastShortPressTime < doubleClickTimeMs
  · exact step_endsDouble h hlevel hchange hshort hkey hnext hposted hdouble
  · exact step_endsSingle h hlevel hchange hshort hkey hnext hposted hdouble

private theorem not_ends_of_same (hnext : s.nextKey x = s.key) : ¬ s.Ends x := by
  rintro ⟨hpressed, hreleased⟩
  rw [hnext] at hreleased
  exact not_released hpressed hreleased

theorem inv_of_same (h : s.Inv) {long : Bool} (hnext : s.nextKey x = s.key)
    (hbutton : (s.step x).button = { s.button with longPressTriggered := long })
    (hposted : s.key.level = .pressed →
      s.pressEvents x = if long then [longPressEvent] else []) : (s.step x).Inv := by
  have hkey : (s.step x).key = s.key := hnext
  have hshort : (s.step x).shortRelease = s.shortRelease := by
    apply if_neg
    exact fun he => not_ends_of_same hnext he.1
  constructor
  · rw [hbutton]
    exact h.gpio
  · rw [hbutton, hkey]
    exact h.state
  · rw [hbutton, hkey]
    exact h.change
  · rw [hkey]
    exact Nat.le_trans h.past (Nat.le_add_right _ _)
  · rw [hbutton, hkey]
    exact h.start
  · rw [hbutton, hkey]
    exact hposted
  · rw [hbutton, hshort]
    exact h.short
  · intro htime
    rw [hbutton, hshort]
    exact h.early (time_early htime)

private theorem step_holds (h : s.Inv) (hlevel : x.level = .pressed)
    (hchange : ¬ s.button.Changes (s.time x) x.level) (hhold : s.button.Holds (s.time x)) :
    (s.Clean x → s.Decodes x ∧ (s.step x).Inv) ∧ (s.Decodes x → s.Clean x) := by
  have hnext := h.nextKey_same hchange
  rw [hlevel] at hchange
  have hscan := scan_hold h.gpio hchange hhold
  have hevents : s.events x = [longPressEvent] := by
    rw [events, hlevel, hscan]
    rfl
  have hmem : longPressEvent ∈ s.events x := by
    rw [hevents]
    exact List.mem_singleton_self _
  have hbutton : (s.step x).button = { s.button with longPressTriggered := true } := by
    show (s.button.scan (s.time x) x.level).1 = _
    rw [hlevel, hscan]
  cases hkey : s.key.level with
  | released =>
    have hclean : ¬ s.Clean x := by
      intro hc
      have hstate : s.button.lastState = .released := h.state.trans hkey
      apply hc.1 hlevel hstate _ hhold
      apply Nat.not_lt.mp
      intro htime
      apply hchange
      refine ⟨?_, htime⟩
      rw [hstate]
      decide
    refine ⟨fun hc => absurd hc hclean, ?_⟩
    intro hdecodes
    have hpressed := (hdecodes.long hmem).1
    rw [hnext] at hpressed
    exact absurd hkey (not_released hpressed)
  | pressed =>
    have hposted : s.posted = [] := by
      rw [h.posted hkey, if_neg]
      rw [hhold.1]
      decide
    have hpress : s.pressEvents x = [longPressEvent] := by
      rw [pressEvents_of_pressed hkey, hposted, hevents]
      rfl
    refine ⟨fun _ => ⟨⟨?_, ?_, ?_, ?_, ?_, ?_⟩, ?_⟩, fun _ => ⟨?_, ?_⟩⟩
    · intro _
      rw [hnext, ← h.start hkey]
      exact ⟨hkey, hhold.2⟩
    · exact fun he => absurd he (not_ends_of_same hnext)
    · intro _
      rw [hpress]
      exact Nat.le_refl 1
    · exact fun hreleased => absurd hreleased (not_released hkey)
    · exact fun he => absurd he (not_ends_of_same hnext)
    · intro hd
      rw [hevents] at hd
      exact absurd (List.mem_singleton.mp hd) (by decide)
    · exact inv_of_same h hnext hbutton fun _ => hpress
    · exact fun _ hreleased => absurd hreleased (not_released (h.state.trans hkey))
    · exact fun hreleased => absurd hreleased (not_released hlevel)

private theorem step_quiet (h : s.Inv) (hchange : ¬ s.button.Changes (s.time x) x.level)
    (hhold : ¬ (x.level = .pressed ∧ s.button.Holds (s.time x))) :
    s.Clean x ∧ s.Decodes x ∧ (s.step x).Inv := by
  have hnext := h.nextKey_same hchange
  have hscan := scan_quiet hchange hhold
  have hevents : s.events x = [] := by rw [events, hscan]
  have hbutton : (s.step x).button = s.button := by
    show (s.button.scan (s.time x) x.level).1 = _
    rw [hscan]
  have hpress (hkey : s.key.level = .pressed) :
      s.pressEvents x = if s.button.longPressTriggered then [longPressEvent] else [] := by
    rw [pressEvents_of_pressed hkey, hevents, List.append_nil]
    exact h.posted hkey
  refine ⟨⟨?_, ?_⟩, ?_, ?_⟩
  · exact fun hpressed _ _ hholds => hhold ⟨hpressed, hholds⟩
  · intro hreleased hc
    rw [hreleased] at hchange
    exact absurd hc hchange
  · apply decodes_of_silent hevents (not_ends_of_same hnext)
    intro hkey
    rw [hnext] at hkey
    rw [hpress hkey]
    split
    · exact Nat.le_refl 1
    · exact Nat.zero_le 1
  · exact inv_of_same h hnext hbutton hpress

private theorem step_decodes (h : s.Inv) :
    (s.Clean x → s.Decodes x ∧ (s.step x).Inv) ∧ (s.Decodes x → s.Clean x) := by
  have hboth (hall : s.Clean x ∧ s.Decodes x ∧ (s.step x).Inv) :
      (s.Clean x → s.Decodes x ∧ (s.step x).Inv) ∧ (s.Decodes x → s.Clean x) :=
    ⟨fun _ => hall.2, fun _ => hall.1⟩
  by_cases hchange : s.button.Changes (s.time x) x.level
  · cases hlevel : x.level with
    | pressed => exact hboth (step_begins h hlevel hchange)
    | released =>
      cases hlong : s.button.longPressTriggered with
      | true => exact hboth (step_endsLong h hlevel hchange hlong)
      | false => exact step_endsShort h hlevel hchange hlong
  · by_cases hhold : x.level = .pressed ∧ s.button.Holds (s.time x)
    · exact step_holds h hhold.1 hchange hhold.2
    · exact hboth (step_quiet h hchange hhold)

/-- The keys are decoded exactly in every run without a bounce of a late release, and without a
release in the first half second. -/
theorem decodes_run_iff (xs : List KeySample) :
    AllSteps step Decodes boot xs ↔ AllSteps step Clean boot xs := by
  apply allSteps_congr (I := Inv)
  · intro s x h hclean
    exact (step_decodes h).1 hclean
  · intro s x h hdecodes
    exact (step_decodes h).2 hdecodes
  · exact inv_boot

end

/-- Pressed at one second, released at 2.98 with a bounce 30 ms later. -/
def lateBounce : List KeySample :=
  [⟨1000, .pressed⟩, ⟨1980, .released⟩, ⟨30, .pressed⟩]

/-- The bounce is a long press of a key that is not pressed. -/
theorem lateBounce_longPress :
    (run step boot (lateBounce.take 2)).events ⟨30, .pressed⟩ = [longPressEvent] ∧
      ¬ AllSteps step Decodes boot lateBounce := by
  have hevents : (run step boot (lateBounce.take 2)).events ⟨30, .pressed⟩ = [longPressEvent] := by
    decide
  refine ⟨hevents, ?_⟩
  rintro ⟨-, -, hlast, -⟩
  have hmem : longPressEvent ∈ (run step boot (lateBounce.take 2)).events ⟨30, .pressed⟩ := by
    rw [hevents]
    exact List.mem_singleton_self _
  exact absurd (hlast.long hmem).1 (by decide)

end KeyScan

end Leyu
