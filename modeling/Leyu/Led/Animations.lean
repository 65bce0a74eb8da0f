import Leyu.Framework.Runs
import Leyu.Led.Control

/-!
# The animations over whole runs

Mode 11 sets its index back before it has shown the entry that the index stands for, so that the
last entry is never shown. Two other steps of `led_display` can meet a tick halfway: it sets `i_14`
back behind the tests of the second table, and it counts `level` past its range before it restores
it.
-/

namespace Leyu

open Framework

/-- The index lies in the table, the level in its range, and the byte does not wrap. -/
def LedEffect.Ok : LedEffect → Prop
  | indexed table index => 0 ≤ index ∧ index < table.length
  | called call => 1 ≤ call.level ∧ call.level ≤ 5
  | faded rising old new =>
      if rising then old ≤ new ∧ new.toNat ≤ old.toNat + 10
      else new ≤ old ∧ old.toNat ≤ new.toNat + 10

/-- `level` has been counted up or down, and its range is restored next. -/
def DisplayPoint.restores : DisplayPoint → Bool
  | incremented => true
  | decremented => true
  | _ => false

namespace TimerPoint

/-- The tick shows a frame at the level. -/
def readsLevel : TimerPoint → Bool
  | cycle (.send _) => true
  | gradient .send => true
  | chase (.send _) => true
  | _ => false

/-- `i_14` has passed the test of the second table, and its entry is still to be read. -/
def usesSecond : TimerPoint → Bool
  | chase .high => true
  | chase .second => true
  | _ => false

def testsCycle : TimerPoint → Bool
  | cycle .test => true
  | _ => false

end TimerPoint

namespace LedRun

structure Safe (s : LedRun) : Prop where
  effects : ∀ e ∈ s.effects, e.Ok
  level : s.display.restores = false → 1 ≤ s.level ∧ s.level ≤ 5
  inTurn : RoundRobin ledList11 s.entries

/-- `level++` at 5 or `level--` at 1, and nothing behind it yet. -/
def OutOfRange (s : LedRun) : Prop :=
  (s.display = .incremented ∧ s.level = 6) ∨ (s.display = .decremented ∧ s.level = 0)

instance (s : LedRun) : Decidable s.OutOfRange :=
  inferInstanceAs (Decidable (_ ∨ _))

/-- No tick of mode 11 finds its index at 6, no `led_display(14)` sets back the index that a tick has
tested, and no tick shows a frame at a level that is out of its range. -/
def OnTime (s : LedRun) : LedOp → Prop
  | .display => s.display = .entered 14 → s.timer.usesSecond = false
  | .timer =>
      (s.timer.testsCycle = true → s.i11 ≠ 6) ∧ (s.timer.readsLevel = true → ¬ s.OutOfRange)
  | _ => True

instance (s : LedRun) : (op : LedOp) → Decidable (s.OnTime op)
  | .call _ => .isTrue trivial
  | .tick => .isTrue trivial
  | .display => inferInstanceAs (Decidable (_ → _))
  | .timer => inferInstanceAs (Decidable (_ ∧ _))

end LedRun

/-! ## The invariant -/

/-- What `level` can be at the point where `led_display` stands. -/
def DisplayPoint.LevelFits (level : UInt8) : DisplayPoint → Prop
  | incremented => 2 ≤ level ∧ level ≤ 6
  | decremented => level ≤ 4
  | _ => 1 ≤ level ∧ level ≤ 5

def CyclePoint.Fits (i11 : UInt8) : CyclePoint → Prop
  | test => True
  | reset => False
  | read => i11 ≤ 5
  | next old => old ≤ 5
  | send index => index ≤ 5

def ChasePoint.Fits (i14 : UInt8) : ChasePoint → Prop
  | first => i14 ≤ 5
  | high => 6 ≤ i14
  | second => 6 ≤ i14
  | read => i14 ≤ 13
  | next old => old ≤ 13
  | _ => True

namespace TimerPoint

/-- What the tests in front of a point have established, and no step takes away. -/
def Fits (i11 i14 : UInt8) : TimerPoint → Prop
  | undefined => False
  | cycle p => p.Fits i11
  | chase p => p.Fits i14
  | _ => True

private theorem Fits.restart {i11 i14 : UInt8} {p : TimerPoint} (h : p.Fits i11 i14) :
    p.Fits 0 i14 := by
  cases p with
  | cycle p =>
    cases p with
    | read => exact UInt8.zero_le
    | _ => exact h
  | _ => exact h

private theorem Fits.rewind {i11 i14 : UInt8} {p : TimerPoint} (h : p.Fits i11 i14)
    (hfree : p.usesSecond = false) : p.Fits i11 0 := by
  cases p with
  | chase p =>
    cases p with
    | first => exact UInt8.zero_le
    | high => cases hfree
    | second => cases hfree
    | read => exact UInt8.zero_le
    | _ => exact h
  | _ => exact h

/-- The index that the tick has taken from `i_11`. -/
def taken : TimerPoint → Option UInt8
  | cycle (.next old) => some old
  | cycle (.send index) => some index
  | _ => none

end TimerPoint

/-- The entry `i` is the next one in turn. -/
def Follows (entries : List UInt8) (i : Nat) : Prop :=
  ∃ start, start + entries.length = i ∧ CyclicFrom ledList11 start entries

private theorem follows_nil (i : Nat) : Follows [] i := ⟨i, rfl, cyclicFrom_nil ledList11 i⟩

private theorem Follows.append_singleton {entries : List UInt8} {i : Nat} {entry : UInt8}
    (h : Follows entries i) (hi : i < ledList11.length) (hentry : ledList11[i]? = some entry) :
    Follows (entries ++ [entry]) (i + 1) := by
  obtain ⟨start, hlength, hcyclic⟩ := h
  refine ⟨start, by rw [List.length_append, ← hlength]; rfl, hcyclic.append_singleton ?_⟩
  rw [hlength, Nat.mod_eq_of_lt hi, hentry]

namespace LedRun

/-- The entry that is next in turn is the one the tick has taken, or else the one of `i_11`. A run of
mode 11 in which no whole tick has begun has shown nothing. -/
structure Inv (s : LedRun) : Prop where
  effects : ∀ e ∈ s.effects, e.Ok
  level : s.display.LevelFits s.level
  i11 : s.i11 ≤ 6
  i14 : s.i14 ≤ 14
  point : s.timer.Fits s.i11 s.i14
  turn : Follows s.entries (s.timer.taken.getD s.i11).toNat
  fresh : s.whole = false → s.entries = []
  sending : ∀ index, s.timer = .cycle (.send index) → s.whole = true → s.i11 = index + 1

theorem inv_init : init.Inv where
  effects := by simp [init]
  level := ⟨by decide, by decide⟩
  i11 := by decide
  i14 := by decide
  point := trivial
  turn := follows_nil 0
  fresh := fun _ => rfl
  sending := by simp [init]

private theorem Inv.safe {s : LedRun} (h : s.Inv) : s.Safe where
  effects := h.effects
  level := by
    have hlevel := h.level
    intro hpoint
    cases hdisplay : s.display <;> simp_all [DisplayPoint.restores, DisplayPoint.LevelFits]
  inTurn := by
    obtain ⟨start, -, hcyclic⟩ := h.turn
    exact hcyclic.roundRobin

/-! ## What the steps of `led_display` do to the invariant -/

section

variable {s : LedRun}

private theorem Inv.others (h : s.Inv) (i12 i13 flag12 count12 mode oldMode : UInt8)
    (ledList13 : LedColour) :
    ({ s with i12 := i12, i13 := i13, flag12 := flag12, count12 := count12, mode := mode,
              oldMode := oldMode, ledList13 := ledList13 } : LedRun).Inv :=
  { h with }

private theorem Inv.display (h : s.Inv) (p : DisplayPoint) {level : UInt8}
    (hlevel : p.LevelFits level) :
    ({ s with level := level, display := p } : LedRun).Inv :=
  { h with level := hlevel }

private theorem Inv.emit (h : s.Inv) {e : LedEffect} (he : e.Ok) : (s.emit e).Inv where
  effects := by
    intro e' he'
    rcases List.mem_append.mp he' with he' | he'
    · exact h.effects e' he'
    · rw [List.mem_singleton.mp he']
      exact he
  level := h.level
  i11 := h.i11
  i14 := h.i14
  point := h.point
  turn := h.turn
  fresh := h.fresh
  sending := h.sending

private theorem Inv.interrupt (h : s.Inv) : s.interrupt.Inv :=
  { h with
    turn := follows_nil _
    fresh := fun _ => rfl
    sending := fun _ _ hwhole => nomatch hwhole }

private theorem Inv.restart (h : s.Inv) : ({ s.interrupt with i11 := 0 } : LedRun).Inv :=
  { h.interrupt with
    i11 := UInt8.zero_le
    point := h.point.restart
    turn := follows_nil _
    sending := fun _ _ hwhole => nomatch hwhole }

private theorem Inv.rewind (h : s.Inv) (hfree : s.timer.usesSecond = false) :
    ({ s with i14 := 0 } : LedRun).Inv :=
  { h with
    i14 := UInt8.zero_le
    point := h.point.rewind hfree }

theorem inv_displayStep (h : s.Inv) (hok : s.OnTime .display) : s.displayStep.Inv := by
  have hlevel := h.level
  cases hdisplay : s.display with
  | idle => simpa only [displayStep, hdisplay] using h
  | entered mode =>
    rw [hdisplay] at hlevel
    have hlow : 1 ≤ s.level := hlevel.1
    have hhigh : s.level ≤ 5 := hlevel.2
    simp only [displayStep, hdisplay]
    split
    · exact h.restart.display (.chosen 11) hlevel
    · exact (h.display .countReset hlevel).others ..
    · exact (h.display (.chosen 13) hlevel).others ..
    · exact (h.rewind (hok hdisplay)).display (.chosen 14) hlevel
    · exact h.display .incremented ⟨by grind, by grind⟩
    · exact h.display .decremented (by show s.level - 1 ≤ 4; grind)
    · exact h.display (.chosen mode) hlevel
  | countReset =>
    rw [hdisplay] at hlevel
    simp only [displayStep, hdisplay]
    exact (h.display .flagReset hlevel).others ..
  | flagReset =>
    rw [hdisplay] at hlevel
    simp only [displayStep, hdisplay]
    exact (h.display (.chosen 12) hlevel).others ..
  | incremented =>
    rw [hdisplay] at hlevel
    have hlow : 2 ≤ s.level := hlevel.1
    have hclamped : 1 ≤ (if s.level ≥ 5 then 5 else s.level) ∧
        (if s.level ≥ 5 then 5 else s.level) ≤ 5 := by grind
    simp only [displayStep, hdisplay]
    exact h.display (.chosen s.oldMode) hclamped
  | decremented =>
    rw [hdisplay] at hlevel
    have hhigh : s.level ≤ 4 := hlevel
    have hclamped : 1 ≤ (if s.level ≤ 1 then 1 else s.level) ∧
        (if s.level ≤ 1 then 1 else s.level) ≤ 5 := by grind
    simp only [displayStep, hdisplay]
    exact h.display (.chosen s.oldMode) hclamped
  | chosen mode =>
    rw [hdisplay] at hlevel
    simp only [displayStep, hdisplay]
    split
    · exact (h.display (.stored mode) hlevel).others ..
    · exact (h.interrupt.display (.stored mode) hlevel).others ..
  | stored mode =>
    rw [hdisplay] at hlevel
    have hcalled : (LedEffect.called (.ledStaticDisplay mode s.level)).Ok := hlevel
    simp only [displayStep, hdisplay]
    exact ((h.emit hcalled).display .idle hlevel).others ..

/-! ## What the steps of a tick do to the invariant -/

private theorem Inv.goto (h : s.Inv) (hfrom : s.timer.taken = none) (p : TimerPoint)
    (hto : p.taken = none) (hpoint : p.Fits s.i11 s.i14) : (s.goto p).Inv :=
  { h with
    point := hpoint
    turn := by
      have hturn := h.turn
      rw [hfrom] at hturn
      show Follows s.entries (p.taken.getD s.i11).toNat
      rwa [hto]
    sending := by
      intro index hsend
      have hp : p = .cycle (.send index) := hsend
      subst hp
      cases hto }

private theorem Inv.level_inside (h : s.Inv) (hlevel : ¬ s.OutOfRange) :
    1 ≤ s.level ∧ s.level ≤ 5 := by
  have hfits := h.level
  cases hdisplay : s.display with
  | incremented =>
    rw [hdisplay] at hfits
    have hlow : 2 ≤ s.level := hfits.1
    have hhigh : s.level ≤ 6 := hfits.2
    have hne : s.level ≠ 6 := fun heq => hlevel (.inl ⟨hdisplay, heq⟩)
    grind
  | decremented =>
    rw [hdisplay] at hfits
    have hhigh : s.level ≤ 4 := hfits
    have hne : s.level ≠ 0 := fun heq => hlevel (.inr ⟨hdisplay, heq⟩)
    grind
  | _ =>
    rw [hdisplay] at hfits
    exact hfits

private theorem lookup_of_lt {table : List UInt8} {i : Nat} (hi : i < table.length)
    (k : UInt8 → LedRun → LedRun) :
    ∃ entry, table[i]? = some entry ∧ s.lookup table i k = k entry (s.emit (.indexed table i)) := by
  have hentry : table[i]? = some table[i] := List.getElem?_eq_getElem hi
  have hneg : ¬ (i : Int) < 0 := by omega
  refine ⟨table[i], hentry, ?_⟩
  rw [lookup, if_neg hneg, Int.toNat_natCast, hentry]

private theorem indexed_ok {table : List UInt8} {i : Nat} (hi : i < table.length) :
    (LedEffect.indexed table i).Ok := ⟨by omega, by omega⟩

private theorem faded_ok (rising : Bool) (old : UInt8) :
    (LedEffect.faded rising old ((fade rising old).getD (fadeEnd rising))).Ok := by
  have hold : old.toNat < 256 := old.toNat_lt
  cases rising with
  | true =>
    by_cases hfits : old.toNat + 10 ≤ 255
    · have hfade : fade true old = some (old + 10) := if_pos hfits
      have hnew : (old + 10).toNat = old.toNat + 10 := Nat.mod_eq_of_lt (Nat.lt_succ_of_le hfits)
      rw [hfade, LedEffect.Ok, if_pos rfl, Option.getD_some, UInt8.le_iff_toNat_le, hnew]
      omega
    · have hfade : fade true old = none := if_neg hfits
      rw [hfade, LedEffect.Ok, if_pos rfl, Option.getD_none, UInt8.le_iff_toNat_le]
      show old.toNat ≤ 255 ∧ 255 ≤ old.toNat + 10
      omega
  | false =>
    by_cases hfits : (old.toNat : Int) - 10 ≥ 0
    · have hfade : fade false old = some (old - 10) := if_pos hfits
      have hten : 10 ≤ old.toNat := by omega
      have hnew : (old - 10).toNat = old.toNat - 10 := UInt8.toNat_sub_of_le _ _ hten
      rw [hfade, LedEffect.Ok, if_neg Bool.false_ne_true, Option.getD_some, UInt8.le_iff_toNat_le,
        hnew]
      omega
    · have hfade : fade false old = none := if_neg hfits
      rw [hfade, LedEffect.Ok, if_neg Bool.false_ne_true, Option.getD_none, UInt8.le_iff_toNat_le]
      show 0 ≤ old.toNat ∧ old.toNat ≤ 0 + 10
      omega

theorem inv_sosStep (h : s.Inv) (htaken : s.timer.taken = none) (p : SosPoint) :
    (s.sosStep p).Inv := by
  have hgoto (q : SosPoint) : (s.goto (.sos q)).Inv := h.goto htaken (.sos q) rfl trivial
  have hend : (s.goto .idle).Inv := h.goto htaken .idle rfl trivial
  cases p with
  | part =>
    simp only [sosStep]
    split
    · exact hend
    · exact hgoto _
  | test p =>
    simp only [sosStep]
    split
    · exact hgoto (.colour p)
    · exact hgoto (.pause p)
  | colour p =>
    have hcalled (mode : UInt8) : (LedEffect.called (.ledStaticDisplay mode 5)).Ok :=
      ⟨(by decide : (1 : UInt8) ≤ 5), (by decide : (5 : UInt8) ≤ 5)⟩
    exact (h.emit (hcalled _)).goto htaken (.sos (.flagTest p)) rfl trivial
  | flagTest p =>
    simp only [sosStep]
    split
    · exact hgoto (.flagReset p)
    · exact hgoto .flagRead
  | flagReset p => exact (hgoto .count).others ..
  | flagRead => exact hgoto (.flagNext s.flag12)
  | flagNext old => exact (hgoto .count).others ..
  | pause p =>
    simp only [sosStep]
    split
    · exact hgoto .count
    · exact hgoto (.restart p)
  | count => exact hgoto (.countNext s.count12)
  | countNext old => exact hend.others ..
  | restart p => exact (hgoto (.advance p)).others ..
  | advance p => exact (hgoto .flag).others ..
  | flag => exact hend.others ..

theorem inv_gradientStep (h : s.Inv) {p : GradientPoint} (htimer : s.timer = .gradient p)
    (hok : s.OnTime .timer) : (s.gradientStep p).Inv := by
  have htaken : s.timer.taken = none := by rw [htimer]; rfl
  have hend : (s.goto .idle).Inv := h.goto htaken .idle rfl trivial
  cases p with
  | send =>
    have hcalled : (LedEffect.called (.setColourChange s.ledList13 s.level)).Ok :=
      h.level_inside (hok.2 (by rw [htimer]; rfl))
    exact (h.emit hcalled).goto htaken (.gradient .part) rfl trivial
  | part =>
    simp only [gradientStep]
    split
    · exact hend
    next p _ =>
      have hfaded := h.emit (faded_ok p.rising (s.ledList13.get p.channel))
      split
      · exact (hfaded.goto htaken .idle rfl trivial).others ..
      · exact (hfaded.goto htaken (.gradient (.next p.next)) rfl trivial).others ..
  | next i => exact hend.others ..

private theorem Inv.chase_lookup (h : s.Inv) (htaken : s.timer.taken = none) {table : List UInt8}
    {i : Nat} (hi : i < table.length) :
    (s.lookup table i fun entry s => s.goto (.chase (.send entry))).Inv := by
  obtain ⟨entry, -, hlookup⟩ := lookup_of_lt (s := s) hi fun entry s => s.goto (.chase (.send entry))
  rw [hlookup]
  exact (h.emit (indexed_ok hi)).goto htaken (.chase (.send entry)) rfl trivial

theorem inv_chaseStep (h : s.Inv) {p : ChasePoint} (htimer : s.timer = .chase p)
    (hok : s.OnTime .timer) : (s.chaseStep p).Inv := by
  have htaken : s.timer.taken = none := by rw [htimer]; rfl
  have hpoint : p.Fits s.i14 := by
    have hpoint := h.point
    rwa [htimer] at hpoint
  have hgoto (q : ChasePoint) (hq : q.Fits s.i14) : (s.goto (.chase q)).Inv :=
    h.goto htaken (.chase q) rfl hq
  have hend {i : UInt8} (hi : i ≤ 14) : ({ s with i14 := i, timer := .idle } : LedRun).Inv :=
    { h.goto htaken .idle rfl trivial with i14 := hi }
  have hi14 := h.i14
  cases p with
  | test =>
    simp only [chaseStep]
    split
    next hfirst => exact hgoto .first hfirst
    · exact hgoto .low trivial
  | first =>
    have hi : s.i14.toNat < ledList14_1.length := Nat.lt_succ_of_le hpoint
    exact h.chase_lookup htaken hi
  | low =>
    simp only [chaseStep]
    split
    next hlow => exact hgoto .high (by show 6 ≤ s.i14; grind)
    · exact hgoto .last trivial
  | high =>
    rw [chaseStep, if_pos hi14]
    exact hgoto .second hpoint
  | second =>
    have hlow : 6 ≤ s.i14.toNat := hpoint
    have hhigh : s.i14.toNat ≤ 14 := hi14
    have hindex : (s.i14.toNat : Int) - 6 = (s.i14.toNat - 6 : Nat) := by omega
    have hi : s.i14.toNat - 6 < ledList14_2.length := by
      show s.i14.toNat - 6 < 9
      omega
    rw [chaseStep, hindex]
    exact h.chase_lookup htaken hi
  | send entry =>
    have hcalled : (LedEffect.called (.ledStaticDisplay entry s.level)).Ok :=
      h.level_inside (hok.2 (by rw [htimer]; rfl))
    exact (h.emit hcalled).goto htaken (.chase .last) rfl trivial
  | last =>
    simp only [chaseStep]
    split
    · exact hgoto .reset trivial
    next hlast => exact hgoto .read (by show s.i14 ≤ 13; grind)
  | reset => exact hend (by decide)
  | read => exact hgoto (.next s.i14) hpoint
  | next old =>
    have hold : old ≤ 13 := hpoint
    exact hend (by grind)

private theorem Inv.index_lt (h : s.Inv) {index : UInt8} (htimer : s.timer = .cycle (.send index)) :
    index.toNat < ledList11.length := by
  have hpoint := h.point
  rw [htimer] at hpoint
  exact Nat.lt_of_le_of_lt hpoint (by decide)

private theorem Inv.turn_shown (h : s.Inv) {index entry : UInt8}
    (htimer : s.timer = .cycle (.send index)) (hentry : ledList11[index.toNat]? = some entry) :
    Follows (if s.whole then s.entries ++ [entry] else s.entries) s.i11.toNat := by
  cases hwhole : s.whole with
  | false =>
    rw [h.fresh hwhole]
    exact follows_nil s.i11.toNat
  | true =>
    have hturn := h.turn
    rw [htimer] at hturn
    have hindex := h.index_lt htimer
    have hnext : s.i11.toNat = index.toNat + 1 := by
      rw [h.sending index htimer hwhole, UInt8.toNat_add]
      exact Nat.mod_eq_of_lt (Nat.lt_of_le_of_lt hindex (by decide))
    rw [hnext]
    exact Follows.append_singleton hturn hindex hentry

theorem inv_cycleStep (h : s.Inv) {p : CyclePoint} (htimer : s.timer = .cycle p)
    (hok : s.OnTime .timer) : (s.cycleStep p).Inv := by
  have hpoint : p.Fits s.i11 := by
    have hpoint := h.point
    rwa [htimer] at hpoint
  have hturn := h.turn
  rw [htimer] at hturn
  have hi11 := h.i11
  cases p with
  | test =>
    have htaken : s.timer.taken = none := by rw [htimer]; rfl
    have hne : s.i11 ≠ 6 := hok.1 (by rw [htimer]; rfl)
    rw [cycleStep, if_neg hne]
    exact h.goto htaken (.cycle .read) rfl (by show s.i11 ≤ 5; grind)
  | reset =>
    -- The test has found 6, and the tick was not on time.
    exact hpoint.elim
  | read =>
    exact { h with point := hpoint, turn := hturn, sending := fun _ hsend => nomatch hsend }
  | next old =>
    have hold : old ≤ 5 := hpoint
    refine { h with i11 := ?_, point := hpoint, turn := hturn, sending := ?_ }
    · show old + 1 ≤ 6
      grind
    · intro index hsend _
      cases hsend
      rfl
  | send index =>
    have hindex := h.index_lt htimer
    have hlevel := h.level_inside (hok.2 (by rw [htimer]; rfl))
    obtain ⟨entry, hentry, hlookup⟩ := lookup_of_lt (s := s) hindex cycleShow
    have hcalled : (LedEffect.called (.ledStaticDisplay entry s.level)).Ok := hlevel
    have hshown := (h.emit (indexed_ok hindex)).emit hcalled
    rw [cycleStep, hlookup]
    exact { hshown with
      point := trivial
      turn := h.turn_shown htimer hentry
      fresh := by
        intro hwhole
        have hwhole : s.whole = false := hwhole
        show (if s.whole then s.entries ++ [entry] else s.entries) = []
        rw [hwhole]
        exact h.fresh hwhole
      sending := fun _ hsend => nomatch hsend }

theorem inv_timerStep (h : s.Inv) (hok : s.OnTime .timer) : s.timerStep.Inv := by
  cases htimer : s.timer with
  | idle => simpa only [timerStep, htimer] using h
  | undefined => simpa only [timerStep, htimer] using h
  | entered =>
    have htaken : s.timer.taken = none := by rw [htimer]; rfl
    simp only [timerStep, htimer]
    split
    · exact h.goto htaken (.cycle .test) rfl trivial
    · exact h.goto htaken (.sos .part) rfl trivial
    · exact h.goto htaken (.gradient .send) rfl trivial
    · exact h.goto htaken (.chase .test) rfl trivial
    · exact h.goto htaken .idle rfl trivial
  | cycle p =>
    simp only [timerStep, htimer]
    exact inv_cycleStep h htimer hok
  | sos p =>
    simp only [timerStep, htimer]
    exact inv_sosStep h (by rw [htimer]; rfl) p
  | gradient p =>
    simp only [timerStep, htimer]
    exact inv_gradientStep h htimer hok
  | chase p =>
    simp only [timerStep, htimer]
    exact inv_chaseStep h htimer hok

theorem inv_step (h : s.Inv) {op : LedOp} (hok : s.OnTime op) : (s.step op).Inv := by
  cases op with
  | call mode =>
    cases hdisplay : s.display with
    | idle =>
      have hlevel := h.level
      rw [hdisplay] at hlevel
      simp only [step, hdisplay]
      exact h.display (.entered mode) hlevel
    | _ => simpa only [step, hdisplay] using h
  | tick =>
    cases htimer : s.timer with
    | idle =>
      have hturn := h.turn
      rw [htimer] at hturn
      simp only [step, htimer]
      exact { h with
        point := trivial
        turn := hturn
        fresh := fun hwhole => nomatch hwhole
        sending := fun _ hsend => nomatch hsend }
    | _ => simpa only [step, htimer] using h
  | display => exact inv_displayStep h hok
  | timer => exact inv_timerStep h hok

/-! ## Steps that are not on time -/

theorem onTime_of_apart (hapart : s.display = .idle ∨ s.timer = .idle)
    (htest : s.timer.testsCycle = true → s.i11 ≠ 6) (op : LedOp) : s.OnTime op := by
  cases op with
  | call mode => trivial
  | tick => trivial
  | display =>
    intro hentered
    rcases hapart with hdisplay | htimer
    · rw [hdisplay] at hentered
      cases hentered
    · rw [htimer]
      rfl
  | timer =>
    refine ⟨htest, ?_⟩
    intro hread hrange
    rcases hapart with hdisplay | htimer
    · simp [OutOfRange, hdisplay] at hrange
    · rw [htimer] at hread
      cases hread

private theorem Inv.timerStep_calls (h : s.Inv) (hread : s.timer.readsLevel = true) :
    ∃ call : LedCall, call.level = s.level ∧ .called call ∈ s.timerStep.effects := by
  cases htimer : s.timer with
  | cycle p =>
    cases p with
    | send index =>
      obtain ⟨entry, -, hlookup⟩ := lookup_of_lt (s := s) (h.index_lt htimer) cycleShow
      refine ⟨.ledStaticDisplay entry s.level, rfl, ?_⟩
      simp [timerStep, htimer, cycleStep, hlookup, cycleShow, LedRun.emit]
    | _ =>
      rw [htimer] at hread
      cases hread
  | gradient p =>
    cases p with
    | send =>
      refine ⟨.setColourChange s.ledList13 s.level, rfl, ?_⟩
      simp [timerStep, htimer, gradientStep, LedRun.emit, LedRun.goto]
    | _ =>
      rw [htimer] at hread
      cases hread
  | chase p =>
    cases p with
    | send entry =>
      refine ⟨.ledStaticDisplay entry s.level, rfl, ?_⟩
      simp [timerStep, htimer, chaseStep, LedRun.emit, LedRun.goto]
    | _ =>
      rw [htimer] at hread
      cases hread
  | _ =>
    rw [htimer] at hread
    cases hread

theorem not_safe_of_outOfRange (h : s.Inv) (hread : s.timer.readsLevel = true)
    (hrange : s.OutOfRange) : ¬ s.timerStep.Safe := by
  have hlevel : ¬ (1 ≤ s.level ∧ s.level ≤ 5) := by
    rcases hrange with ⟨-, hlevel⟩ | ⟨-, hlevel⟩
    · rw [hlevel]
      decide
    · rw [hlevel]
      decide
  obtain ⟨call, hcall, hmem⟩ := h.timerStep_calls hread
  intro hsafe
  have hok := hsafe.effects _ hmem
  rw [LedEffect.Ok, hcall] at hok
  exact hlevel hok

/-- `led_display(14)` between the tests of the second table and its use. -/
theorem not_safe_of_usesSecond (hentered : s.display = .entered 14)
    (hsecond : s.timer.usesSecond = true) : ¬ (run step s [.display, .timer, .timer]).Safe := by
  have hindexed : .indexed ledList14_2 (-6) ∈ (run step s [.display, .timer, .timer]).effects := by
    cases htimer : s.timer with
    | chase p =>
      cases p with
      | high => simp [step, displayStep, hentered, timerStep, htimer, chaseStep, lookup, emit, goto]
      | second =>
        simp [step, displayStep, hentered, timerStep, htimer, chaseStep, lookup, emit, goto]
      | _ =>
        rw [htimer] at hsecond
        cases hsecond
    | _ =>
      rw [htimer] at hsecond
      cases hsecond
  intro hsafe
  have hlow : (0 : Int) ≤ -6 := (hsafe.effects _ hindexed).1
  omega

/-- A tick of mode 11 that finds the index at 6, when the run of the mode has already shown an
entry: the last entry of the table is left out. -/
theorem not_safe_of_late (h : s.Inv) (htimer : s.timer = .cycle .test) (hi11 : s.i11 = 6)
    (hwhole : s.whole = true) (hshown : s.entries ≠ []) :
    ¬ (run step s [.timer, .timer, .timer]).Safe := by
  have hentries : (run step s [.timer, .timer, .timer]).entries = s.entries ++ [4] := by
    simp [step, timerStep, htimer, cycleStep, hi11, hwhole, lookup, cycleShow, ledList11, emit, goto]
  have hturn := h.turn
  rw [htimer, hi11] at hturn
  obtain ⟨start, hlength, hcyclic⟩ := hturn
  obtain ⟨front, last, hsplit⟩ := (List.eq_nil_or_concat s.entries).resolve_left hshown
  rw [List.concat_eq_append] at hsplit
  have hlast : ledList11[5]? = some last := by
    have hplace : start + front.length = 5 := by
      rw [hsplit, List.length_append] at hlength
      exact Nat.succ.inj hlength
    have hentry := hcyclic front.length last (by simp [hsplit])
    rwa [hplace] at hentry
  intro hsafe
  obtain ⟨start', hcyclic'⟩ := hsafe.inTurn.cyclic
  rw [hentries, hsplit, List.append_assoc] at hcyclic'
  have hnext : ledList11[6]? = some 4 := hcyclic'.next (by decide) hlast
  exact absurd hnext (by decide)

end

end LedRun

/-- `led_display(11)`, and ticks that nothing comes between. -/
def cycleRun (ticks : Nat) : List LedOp :=
  [.call 11, .display, .display, .display] ++
    (List.replicate ticks [.tick, .timer, .timer, .timer, .timer, .timer]).flatten

end Leyu
