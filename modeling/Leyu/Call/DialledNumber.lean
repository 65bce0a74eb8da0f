import Leyu.Call.Dialler
import Leyu.Framework.Runs
import Mathlib.Algebra.Group.Nat.Defs

/-!
# The dialled number

A request for a call that no other request comes in between: what is announced and dialled is the
number that its parameter gives, as far as `valueint` holds it and unless it is empty. An earlier
request may still be waiting for its timer when it comes; it is superseded.
-/

namespace Leyu

open Framework

/-- A `cJSON` number that is an integer: the double holds every integer of 15 digits, and
`valueint` saturates. -/
def cJSONInteger (n : Nat) : CallItem := .number (min n 2147483647 : Nat)

/-- The parameter `p1` as the server sends it. -/
inductive AskedNumber
  | integer (n : Nat) (digits : n < 10 ^ 15)
  | text (s : Text) (short : s.length ≤ 31)

namespace AskedNumber

def item : AskedNumber → CallItem
  | integer n _ => cJSONInteger n
  | text s _ => .string s

def digits : AskedNumber → Text
  | integer n _ => (toString n).toList
  | text s _ => s

/-- The integer is one of the int range. -/
def FitsInt : AskedNumber → Prop
  | integer n _ => n ≤ 2147483647
  | text _ _ => True

instance : (asked : AskedNumber) → Decidable asked.FitsInt
  | integer n _ => inferInstanceAs (Decidable (n ≤ 2147483647))
  | text _ _ => .isTrue trivial

end AskedNumber

namespace Dialler

/-- The callback is not running, and neither is the timer of the last request. -/
structure Still (own : Nat) (d : Dialler) : Prop where
  callback : d.callback = .idle
  timer : d.timer own = .dormant

def announcement (number : Text) : Text := utf8 "小乐正在为您接通" ++ number

/-- What a request for `number` adds to the announcements and to the calls. -/
structure Delivers (number : Text) (own : Nat) (before after : Dialler) : Prop where
  announced : after.announced = before.announced ∨
    after.announced = announcement number :: before.announced
  calls : after.calls = before.calls ∨ after.calls = number :: before.calls
  finished : after.request = .idle → after.Still own →
    after.announced = announcement number :: before.announced ∧
      after.calls = number :: before.calls

/-- The number is in place and waits to be dialled. -/
def Loaded (number : Text) (d : Dialler) : Prop :=
  d.phoneNumber = number ∧ d.pendingPhoneCall = true

/-- The request `own` is under way, and its timer has not been started. -/
structure Fresh (own : Nat) (d : Dialler) : Prop where
  still : d.Still own
  requests : d.requests = own

/-- The places of the branch between the announcement and the start of the timer. -/
def Timing (own : Nat) (d : Dialler) : Prop :=
  d.request = .testTimer ∨ d.request = .deleteTimer ∨ d.request = .resetTimer ∨
    d.request = .createTimer ∨
    d.request = .testCreated ∧ (d.phoneCallTimer = none ∨ d.phoneCallTimer = some own) ∨
    d.request = .startTimer ∧ d.phoneCallTimer = some own

/-- The callback has been called and has read a front part of the number at most. -/
def Ringing (number : Text) : CallbackPc → Prop
  | .entered _ | .measuring _ | .calling _ => True
  | .reading _ read => read <+: number
  | _ => False

/-- The callback finds nothing to dial any more. -/
def Finds (d : Dialler) : CallbackPc → Prop
  | .measuring _ => d.phoneNumber = []
  | .calling _ | .reading .. => False
  | .clearing _ => True
  | .clearingNumber _ => d.pendingPhoneCall = false
  | _ => d.pendingPhoneCall = false ∨ d.phoneNumber = []

/-- How far the request `own` for `number` has come, with the announcements `a` and the calls `c`
before it. -/
inductive Placing (number : Text) (own : Nat) (a c : List Text) (d : Dialler) : Prop
  | looked {f : CallField} {given : Text} (hr : d.request = .fields [f])
      (hf : ∀ book, f.number book = some given) (hg : storedNumber given = number)
      (hs : d.Fresh own) (ha : d.announced = a) (hc : d.calls = c)
  | copying {given : Text} (hr : d.request = .copying given []) (hg : storedNumber given = number)
      (hs : d.Fresh own) (ha : d.announced = a) (hc : d.calls = c)
  | flagging (hr : d.request = .setPending []) (hn : d.phoneNumber = number) (hs : d.Fresh own)
      (ha : d.announced = a) (hc : d.calls = c)
  | testing (hr : d.request = .fields []) (hl : d.Loaded number) (hs : d.Fresh own)
      (ha : d.announced = a) (hc : d.calls = c)
  | announcing {read : Text} (hr : d.request = .announcing read) (hread : read <+: number)
      (hl : d.Loaded number) (hs : d.Fresh own) (ha : d.announced = a) (hc : d.calls = c)
  | timing (hr : d.Timing own) (hl : d.Loaded number) (hs : d.Fresh own)
      (ha : d.announced = callTtsText number :: a) (hc : d.calls = c)
  | waiting (hr : d.request = .idle) (hcallback : d.callback = .idle) (hl : d.Loaded number)
      (harmed : d.timer own = .armed) (ha : d.announced = callTtsText number :: a)
      (hc : d.calls = c)
  | dialling (hr : d.request = .idle) (hcallback : Ringing number d.callback)
      (hl : d.Loaded number) (ha : d.announced = callTtsText number :: a) (hc : d.calls = c)
  | direct {created : Bool} (hr : d.request = .dialDirect created ∨
        ∃ read, d.request = .readNumber created read ∧ read <+: number)
      (hl : d.Loaded number) (hs : d.Fresh own) (ha : d.announced = callTtsText number :: a)
      (hc : d.calls = c)
  | cleaning (hr : (∃ created, d.request = .clearPending created) ∨
        ((∃ created, d.request = .clearNumber created) ∨ d.request = .deleteOwn ∨
          d.request = .resetOwn) ∧ d.pendingPhoneCall = false)
      (hs : d.Fresh own) (ha : d.announced = callTtsText number :: a)
      (hc : d.calls = number :: c ∨ number = [] ∧ d.calls = c)
  | settled (hr : d.request = .idle) (hcallback : d.Finds d.callback)
      (ha : d.announced = callTtsText number :: a)
      (hc : d.calls = number :: c ∨ number = [] ∧ d.calls = c)

variable {number : Text} {own : Nat} {a c : List Text} {d : Dialler}

private theorem Fresh.deleteTimer (hs : d.Fresh own) (deleteQueued : Bool) (pc : RequestPc) :
    Fresh own { d with timer := d.timersWithout deleteQueued, request := pc } := by
  refine ⟨⟨hs.still.callback, ?_⟩, hs.requests⟩
  rcases timersWithout_cases deleteQueued d own with hsame | ⟨-, harmed, -⟩
  · exact hsame.trans hs.still.timer
  · exact nomatch hs.still.timer.symm.trans harmed

private theorem Fresh.keep {d' : Dialler} (hs : d.Fresh own) (hc : d'.callback = d.callback)
    (ht : d'.timer = d.timer) (hr : d'.requests = d.requests) : d'.Fresh own :=
  ⟨⟨hc.trans hs.still.callback, by rw [ht]; exact hs.still.timer⟩, hr.trans hs.requests⟩

private theorem Timing.request (ht : d.Timing own) (hl : d.Loaded number) (hs : d.Fresh own)
    (ha : d.announced = callTtsText number :: a) (hc : d.calls = c) (w : CallWorld) :
    Placing number own a c (d.bodadianhua w) := by
  unfold bodadianhua
  rcases ht with hr | hr | hr | hr | ⟨hr, hh⟩ | ⟨hr, hh⟩
  · rw [hr]
    refine .timing ?_ hl (hs.keep rfl rfl rfl) ha hc
    dsimp only [Timing]
    split
    · exact .inr (.inl rfl)
    · exact .inr (.inr (.inr (.inl rfl)))
  · rw [hr]
    exact .timing (.inr (.inr (.inl rfl))) hl (hs.deleteTimer _ _) ha hc
  · rw [hr]
    exact .timing (.inr (.inr (.inr (.inl rfl)))) hl (hs.keep rfl rfl rfl) ha hc
  · rw [hr]
    refine .timing (.inr (.inr (.inr (.inr (.inl ⟨rfl, ?_⟩))))) hl (hs.keep rfl rfl rfl) ha hc
    dsimp only
    rw [hs.requests]
    split
    · exact .inr rfl
    · exact .inl rfl
  · rw [hr]
    rcases hh with hh | hh
    · have hpc : (if d.phoneCallTimer.isSome then RequestPc.startTimer else .dialDirect false) =
          .dialDirect false := by simp [hh]
      exact .direct (.inl hpc) hl (hs.keep rfl rfl rfl) ha hc
    · refine .timing (.inr (.inr (.inr (.inr (.inr ⟨?_, hh⟩))))) hl (hs.keep rfl rfl rfl) ha hc
      simp [hh]
  · rw [hr]
    dsimp only
    split
    · exact .waiting rfl hs.still.callback hl (startedTimers_self hh) ha hc
    · exact .direct (.inl rfl) hl (hs.keep rfl rfl rfl) ha hc

private theorem Placing.request (hp : Placing number own a c d) (w : CallWorld) :
    Placing number own a c (d.bodadianhua w) := by
  cases hp with
  | looked hr hf hg hs ha hc =>
    unfold bodadianhua
    rw [hr]
    simp only [hf]
    exact .copying rfl hg (hs.keep rfl rfl rfl) ha hc
  | copying hr hg hs ha hc =>
    unfold bodadianhua
    rw [hr]
    dsimp only
    split
    · exact .copying rfl hg (hs.keep rfl rfl rfl) ha hc
    · exact .flagging rfl hg (hs.keep rfl rfl rfl) ha hc
  | flagging hr hn hs ha hc =>
    unfold bodadianhua
    rw [hr]
    exact .testing rfl ⟨hn, rfl⟩ (hs.keep rfl rfl rfl) ha hc
  | testing hr hl hs ha hc =>
    unfold bodadianhua
    rw [hr]
    simp only [hl.2, if_true]
    exact .announcing rfl List.nil_prefix ⟨hl.1, rfl⟩ (hs.keep rfl rfl rfl) ha hc
  | @announcing read hr hread hl hs ha hc =>
    unfold bodadianhua
    rw [hr]
    dsimp only
    rw [hl.1]
    split
    · next hx =>
      exact .announcing rfl (prefix_next hread hx) ⟨rfl, hl.2⟩ (hs.keep rfl rfl rfl) ha hc
    · next hend =>
      refine .timing (.inl rfl) ⟨rfl, hl.2⟩ (hs.keep rfl rfl rfl) ?_ hc
      rw [eq_of_prefix_end hread hend, ha]
  | timing hr hl hs ha hc => exact hr.request hl hs ha hc w
  | waiting hr hcallback hl harmed ha hc =>
    unfold bodadianhua
    rw [hr]
    exact .waiting hr hcallback hl harmed ha hc
  | dialling hr hcallback hl ha hc =>
    unfold bodadianhua
    rw [hr]
    exact .dialling hr hcallback hl ha hc
  | @direct created hr hl hs ha hc =>
    unfold bodadianhua
    rcases hr with hr | ⟨read, hr, hread⟩
    · rw [hr]
      dsimp only
      split
      · next hnil =>
        refine .cleaning (.inl ⟨created, rfl⟩) (hs.keep rfl rfl rfl) ha (.inr ⟨?_, hc⟩)
        rw [← hl.1, hnil]
      · exact .direct (.inr ⟨[], rfl, List.nil_prefix⟩) hl (hs.keep rfl rfl rfl) ha hc
    · rw [hr]
      dsimp only
      rw [hl.1]
      split
      · next hx =>
        exact .direct (.inr ⟨_, rfl, prefix_next hread hx⟩) ⟨rfl, hl.2⟩ (hs.keep rfl rfl rfl) ha hc
      · next hend =>
        refine .cleaning (.inl ⟨created, rfl⟩) (hs.keep rfl rfl rfl) ha (.inl ?_)
        show read :: d.calls = _
        rw [eq_of_prefix_end hread hend, hc]
  | cleaning hr hs ha hc =>
    unfold bodadianhua
    rcases hr with ⟨created, hr⟩ | ⟨⟨created, hr⟩ | hr | hr, hclear⟩
    · rw [hr]
      exact .cleaning (.inr ⟨.inl ⟨created, rfl⟩, rfl⟩) (hs.keep rfl rfl rfl) ha hc
    · rw [hr]
      dsimp only
      split
      · exact .cleaning (.inr ⟨.inl ⟨created, rfl⟩, hclear⟩) (hs.keep rfl rfl rfl) ha hc
      · cases created with
        | true =>
          exact .cleaning (.inr ⟨.inr (.inl rfl), hclear⟩) (hs.keep rfl rfl rfl) ha hc
        | false =>
          refine .settled rfl ?_ ha hc
          show Finds _ d.callback
          rw [hs.still.callback]
          exact .inr rfl
    · rw [hr]
      exact .cleaning (.inr ⟨.inr (.inr rfl), hclear⟩) (hs.deleteTimer _ _) ha hc
    · rw [hr]
      refine .settled rfl ?_ ha hc
      show Finds _ d.callback
      rw [hs.still.callback]
      exact .inl hclear
  | settled hr hcallback ha hc =>
    unfold bodadianhua
    rw [hr]
    exact .settled hr hcallback ha hc

private theorem Placing.of_ringing (hr : d.request = .idle) (hcallback : Ringing number d.callback)
    (hl : d.Loaded number) (ha : d.announced = callTtsText number :: a) (hc : d.calls = c)
    (deleteQueued : Bool) (mixture : Option Text) :
    Placing number own a c (d.phoneCallTimerCallback deleteQueued mixture) := by
  unfold phoneCallTimerCallback
  have hempty (hnil : d.phoneNumber = []) : number = [] := by rw [← hl.1, hnil]
  cases hpc : d.callback with
  | entered h =>
    simp only [hl.2, if_true]
    exact .dialling hr trivial ⟨hl.1, rfl⟩ ha hc
  | measuring h =>
    dsimp only
    split
    · next hnil => exact .settled hr (.inr hnil) ha (.inr ⟨hempty hnil, hc⟩)
    · exact .dialling hr trivial hl ha hc
  | calling h =>
    dsimp only
    split
    · next hnil => exact .settled hr trivial ha (.inr ⟨hempty hnil, hc⟩)
    · exact .dialling hr List.nil_prefix hl ha hc
  | reading h read =>
    rw [hpc] at hcallback
    have hread : read <+: number := hcallback
    dsimp only
    rw [hl.1]
    split
    · next hx => exact .dialling hr (prefix_next hread hx) ⟨rfl, hl.2⟩ ha hc
    · next hend =>
      refine .settled hr trivial ha (.inl ?_)
      show read :: d.calls = _
      rw [eq_of_prefix_end hread hend, hc]
  | idle | clearing | clearingNumber | leaving | deleting | resetting =>
    rw [hpc] at hcallback
    exact hcallback.elim

private theorem Placing.of_finds (hr : d.request = .idle) (hcallback : d.Finds d.callback)
    (ha : d.announced = callTtsText number :: a)
    (hc : d.calls = number :: c ∨ number = [] ∧ d.calls = c)
    (deleteQueued : Bool) (mixture : Option Text) :
    Placing number own a c (d.phoneCallTimerCallback deleteQueued mixture) := by
  unfold phoneCallTimerCallback
  cases hpc : d.callback with
  | idle => exact .settled hr hcallback ha hc
  | entered h =>
    rw [hpc] at hcallback
    have hrest : d.pendingPhoneCall = false ∨ d.phoneNumber = [] := hcallback
    dsimp only
    split
    · next hset =>
      have hnil : d.phoneNumber = [] := hrest.resolve_left (by simp [hset])
      exact .settled hr hnil ha hc
    · exact .settled hr hcallback ha hc
  | measuring h =>
    rw [hpc] at hcallback
    have hnil : d.phoneNumber = [] := hcallback
    dsimp only
    rw [if_pos hnil]
    exact .settled hr (.inr hnil) ha hc
  | clearing h => exact .settled hr rfl ha hc
  | clearingNumber h =>
    rw [hpc] at hcallback
    dsimp only
    split
    · exact .settled hr hcallback ha hc
    · exact .settled hr (.inr rfl) ha hc
  | leaving h =>
    rw [hpc] at hcallback
    dsimp only
    split
    · exact .settled hr hcallback ha hc
    · exact .settled hr hcallback ha hc
  | deleting h | resetting h =>
    rw [hpc] at hcallback
    exact .settled hr hcallback ha hc
  | calling | reading =>
    rw [hpc] at hcallback
    exact hcallback.elim

private theorem Placing.callback (hp : Placing number own a c d) (deleteQueued : Bool)
    (mixture : Option Text) :
    Placing number own a c (d.phoneCallTimerCallback deleteQueued mixture) := by
  have hidle (hcallback : d.callback = .idle) :
      Placing number own a c (d.phoneCallTimerCallback deleteQueued mixture) := by
    unfold phoneCallTimerCallback
    rw [hcallback]
    exact hp
  cases hp with
  | looked hr hf hg hs ha hc => exact hidle hs.still.callback
  | copying hr hg hs ha hc => exact hidle hs.still.callback
  | flagging hr hn hs ha hc => exact hidle hs.still.callback
  | testing hr hl hs ha hc => exact hidle hs.still.callback
  | announcing hr hread hl hs ha hc => exact hidle hs.still.callback
  | timing hr hl hs ha hc => exact hidle hs.still.callback
  | waiting hr hcallback hl harmed ha hc => exact hidle hcallback
  | dialling hr hcallback hl ha hc => exact .of_ringing hr hcallback hl ha hc _ _
  | direct hr hl hs ha hc => exact hidle hs.still.callback
  | cleaning hr hs ha hc => exact hidle hs.still.callback
  | settled hr hcallback ha hc => exact .of_finds hr hcallback ha hc _ _

/-- The timer of the request itself runs out. -/
theorem Placing.expire (hp : Placing number own a c d) :
    Placing number own a c (d.expire own) := by
  unfold Dialler.expire
  split
  · next hlive =>
    obtain ⟨hidle, hlive⟩ := hlive
    have hfresh : ¬ d.Fresh own := fun hs => hlive hs.still.timer
    cases hp with
    | looked hr hf hg hs ha hc => exact absurd hs hfresh
    | copying hr hg hs ha hc => exact absurd hs hfresh
    | flagging hr hn hs ha hc => exact absurd hs hfresh
    | testing hr hl hs ha hc => exact absurd hs hfresh
    | announcing hr hread hl hs ha hc => exact absurd hs hfresh
    | timing hr hl hs ha hc => exact absurd hs hfresh
    | direct hr hl hs ha hc => exact absurd hs hfresh
    | cleaning hr hs ha hc => exact absurd hs hfresh
    | waiting hr hcallback hl harmed ha hc => exact .dialling hr trivial hl ha hc
    | dialling hr hcallback hl ha hc =>
      rw [hidle] at hcallback
      exact hcallback.elim
    | settled hr hcallback ha hc =>
      rw [hidle] at hcallback
      exact .settled hr hcallback ha hc
  · exact hp

private theorem Fresh.deleted (hs : d.Fresh own) (h : Nat) :
    Fresh own { d with timer := Function.update d.timer h .dormant } := by
  refine ⟨⟨hs.still.callback, ?_⟩, hs.requests⟩
  rcases eq_or_ne own h with rfl | hne
  · exact Function.update_self ..
  · exact (Function.update_of_ne hne ..).trans hs.still.timer

private theorem Placing.deleted (hp : Placing number own a c d) (h : Nat) :
    Placing number own a c (d.deleted h) := by
  unfold Dialler.deleted
  split
  · next hlive =>
    cases hp with
    | looked hr hf hg hs ha hc => exact .looked hr hf hg (hs.deleted h) ha hc
    | copying hr hg hs ha hc => exact .copying hr hg (hs.deleted h) ha hc
    | flagging hr hn hs ha hc => exact .flagging hr hn (hs.deleted h) ha hc
    | testing hr hl hs ha hc => exact .testing hr hl (hs.deleted h) ha hc
    | announcing hr hread hl hs ha hc => exact .announcing hr hread hl (hs.deleted h) ha hc
    | timing hr hl hs ha hc => exact .timing hr hl (hs.deleted h) ha hc
    | direct hr hl hs ha hc => exact .direct hr hl (hs.deleted h) ha hc
    | cleaning hr hs ha hc => exact .cleaning hr (hs.deleted h) ha hc
    | waiting hr hcallback hl harmed ha hc =>
      have hne : own ≠ h := by
        rintro rfl
        exact nomatch harmed.symm.trans hlive.2
      exact .waiting hr hcallback hl ((Function.update_of_ne hne ..).trans harmed) ha hc
    | dialling hr hcallback hl ha hc => exact .dialling hr hcallback hl ha hc
    | settled hr hcallback ha hc => exact .settled hr hcallback ha hc
  · exact hp

/-- The step is not one of another request: none comes, and no earlier timer runs out. -/
def OwnStep (own : Nat) : CallStep → Prop
  | .onFunctionCall _ => False
  | .expire h => h = own
  | _ => True

private theorem Placing.run (hp : Placing number own a c d) {steps : List CallStep}
    (halone : ∀ l ∈ steps, OwnStep own l) : Placing number own a c (run step d steps) := by
  apply AllStates.last
  apply allStates_of_labels _ hp halone
  intro d l hp hl
  cases l with
  | onFunctionCall parameterList => exact hl.elim
  | request w => exact hp.request w
  | expire h =>
    obtain rfl : h = own := hl
    exact hp.expire
  | callback deleteQueued mixture => exact hp.callback deleteQueued mixture
  | deleted h => exact hp.deleted h

private theorem announcement_of_short (hnumber : number.length ≤ 31) :
    callTtsText number = announcement number := by
  unfold callTtsText announcement
  apply List.take_of_length_le
  have hopening : (utf8 "小乐正在为您接通").length = 24 := by decide
  rw [List.length_append, hopening]
  omega

private theorem Placing.delivers {before : Dialler}
    (hp : Placing number own before.announced before.calls d) (hnumber : number.length ≤ 31)
    (hne : number ≠ []) : Delivers number own before d := by
  have htext := announcement_of_short hnumber
  have hbusy {pc : RequestPc} (hr : d.request = pc) (hpc : pc ≠ .idle) : d.request ≠ .idle :=
    fun hidle => hpc (hr.symm.trans hidle)
  cases hp with
  | looked hr hf hg hs ha hc => exact ⟨.inl ha, .inl hc, fun h => absurd h (hbusy hr nofun)⟩
  | copying hr hg hs ha hc => exact ⟨.inl ha, .inl hc, fun h => absurd h (hbusy hr nofun)⟩
  | flagging hr hn hs ha hc => exact ⟨.inl ha, .inl hc, fun h => absurd h (hbusy hr nofun)⟩
  | testing hr hl hs ha hc => exact ⟨.inl ha, .inl hc, fun h => absurd h (hbusy hr nofun)⟩
  | announcing hr hread hl hs ha hc =>
    exact ⟨.inl ha, .inl hc, fun h => absurd h (hbusy hr nofun)⟩
  | timing hr hl hs ha hc =>
    refine ⟨.inr (htext ▸ ha), .inl hc, ?_⟩
    intro hidle
    rw [Timing, hidle] at hr
    simp at hr
  | waiting hr hcallback hl harmed ha hc =>
    refine ⟨.inr (htext ▸ ha), .inl hc, ?_⟩
    intro hidle hstill
    exact nomatch harmed.symm.trans hstill.timer
  | dialling hr hcallback hl ha hc =>
    refine ⟨.inr (htext ▸ ha), .inl hc, ?_⟩
    intro hidle hstill
    rw [hstill.callback] at hcallback
    exact hcallback.elim
  | direct hr hl hs ha hc =>
    refine ⟨.inr (htext ▸ ha), .inl hc, ?_⟩
    intro hidle
    rw [hidle] at hr
    simp at hr
  | cleaning hr hs ha hc =>
    have hcalls := hc.resolve_right fun hnil => hne hnil.1
    exact ⟨.inr (htext ▸ ha), .inr hcalls, fun _ _ => ⟨htext ▸ ha, hcalls⟩⟩
  | settled hr hcallback ha hc =>
    have hcalls := hc.resolve_right fun hnil => hne hnil.1
    exact ⟨.inr (htext ▸ ha), .inr hcalls, fun _ _ => ⟨htext ▸ ha, hcalls⟩⟩

/-- The timers that run and the one the handle names are those of requests that have come. -/
structure KnownTimers (d : Dialler) : Prop where
  running : ∀ h, d.timer h ≠ .dormant → h ≤ d.requests
  handle : ∀ h, d.phoneCallTimer = some h → h ≤ d.requests

private theorem KnownTimers.delete (hk : d.KnownTimers) (deleteQueued : Bool) :
    KnownTimers { d with timer := d.timersWithout deleteQueued } := by
  refine ⟨?_, hk.handle⟩
  intro h hlive
  rcases timersWithout_cases deleteQueued d h with hsame | ⟨hh, -, -⟩
  · exact hk.running h (hsame ▸ hlive)
  · exact hk.handle h hh

private theorem KnownTimers.start (hk : d.KnownTimers) :
    KnownTimers { d with timer := d.startedTimers } := by
  refine ⟨?_, hk.handle⟩
  intro h hlive
  by_cases hh : d.phoneCallTimer = some h
  · exact hk.handle h hh
  · exact hk.running h (startedTimers_of_ne hh ▸ hlive)

private theorem KnownTimers.stopped (hk : d.KnownTimers) (h : Nat) :
    KnownTimers { d with timer := Function.update d.timer h .dormant } := by
  refine ⟨?_, hk.handle⟩
  intro h' hlive
  rcases eq_or_ne h' h with rfl | hne
  · exact absurd (Function.update_self ..) hlive
  · exact hk.running h' (Function.update_of_ne hne _ d.timer ▸ hlive)

private theorem knownTimers_step (hk : d.KnownTimers) (l : CallStep) : (d.step l).KnownTimers := by
  cases l with
  | onFunctionCall parameterList =>
    show (d.onFunctionCall parameterList).KnownTimers
    unfold Dialler.onFunctionCall
    split
    · exact ⟨fun h hlive => (hk.running h hlive).trans d.requests.le_succ,
        fun h hh => (hk.handle h hh).trans d.requests.le_succ⟩
    · exact hk
  | request w =>
    show (d.bodadianhua w).KnownTimers
    have hstep := bodadianhua_step w d
    generalize d.bodadianhua w = d' at hstep ⊢
    cases hstep with
    | timerDeleted hr | ownDeleted hr => exact ⟨(hk.delete _).running, hk.handle⟩
    | timerReset hr | ownReset hr => exact ⟨hk.running, nofun⟩
    | timerCreated hr hh =>
      refine ⟨hk.running, ?_⟩
      intro h hsome
      rcases hh with rfl | rfl
      · cases hsome
      · exact (Option.some.inj hsome).ge
    | started hr => exact ⟨hk.start.running, hk.handle⟩
    | _ => exact ⟨hk.running, hk.handle⟩
  | expire h =>
    show (d.expire h).KnownTimers
    unfold Dialler.expire
    split
    · exact ⟨(hk.stopped h).running, hk.handle⟩
    · exact hk
  | callback deleteQueued mixture =>
    show (d.phoneCallTimerCallback deleteQueued mixture).KnownTimers
    have hstep := phoneCallTimerCallback_step deleteQueued mixture d
    generalize d.phoneCallTimerCallback deleteQueued mixture = d' at hstep ⊢
    cases hstep with
    | timerDeleted hc => exact ⟨(hk.delete _).running, hk.handle⟩
    | timerReset hc => exact ⟨hk.running, nofun⟩
    | _ => exact ⟨hk.running, hk.handle⟩
  | deleted h =>
    show (d.deleted h).KnownTimers
    unfold Dialler.deleted
    split
    · exact hk.stopped h
    · exact hk

/-- The timer of the next request has not been created yet. -/
theorem next_dormant (hd : Reachable step init d) : d.timer (d.requests + 1) = .dormant := by
  obtain ⟨steps, rfl⟩ := hd
  have hinit : init.KnownTimers := ⟨fun h hlive => absurd rfl hlive, nofun⟩
  have hk : (Framework.run step init steps).KnownTimers :=
    run_of_step (I := KnownTimers) (fun d l hk => knownTimers_step hk l) hinit steps
  by_contra hlive
  exact absurd (hk.running _ hlive) (by omega)

/-- The request with the one parameter `p1`; no other request comes, and no earlier timer runs out
any more. -/
def DeliversAlone (asked : AskedNumber) (d : Dialler) : Prop :=
  ∀ (parameterList : List CallParam) (steps : List CallStep),
    parameterList.flatMap CallParam.fields = [.p1 asked.item] →
    (∀ l ∈ steps, OwnStep (d.requests + 1) l) →
      Delivers asked.digits (d.requests + 1) d
        (Framework.run step (d.onFunctionCall parameterList) steps)

private theorem placing_onFunctionCall {item : CallItem} {given : Text}
    {parameterList : List CallParam} (hd : d.request = .idle) (hs : d.Still (d.requests + 1))
    (hfields : parameterList.flatMap CallParam.fields = [.p1 item])
    (hgiven : ∀ book, (CallField.p1 item).number book = some given) :
    Placing (storedNumber given) (d.requests + 1) d.announced d.calls
      (d.onFunctionCall parameterList) := by
  unfold Dialler.onFunctionCall
  rw [hd]
  refine .looked ?_ hgiven rfl ⟨⟨hs.callback, hs.timer⟩, rfl⟩ rfl rfl
  rw [← hfields]

private theorem digits_inj {m n : Nat} (h : (toString m).toList = (toString n).toList) : m = n := by
  simp only [Nat.toString_eq_repr, Nat.toList_repr] at h
  have hvalue := congrArg (fun cs => Nat.ofDigitChars 10 cs 0) h
  simpa only [Nat.ofDigitChars_ten_toDigits] using hvalue

private theorem digits_short {n : Nat} (h : n < 10 ^ 15) : (toString n).toList.length ≤ 15 := by
  rw [Nat.toString_eq_repr, Nat.toList_repr]
  exact (Nat.length_toDigits_le_iff (by decide) (by decide)).mpr h

/-- What the parameter determines, when nothing is cut off. -/
def given : AskedNumber → Text
  | .integer n _ => (toString (min n 2147483647)).toList
  | .text s _ => s

private theorem given_number (asked : AskedNumber) (book : Book) :
    (CallField.p1 asked.item).number book = some (given asked) := by
  cases asked with
  | integer n hn => rfl
  | text s hs => rfl

private theorem given_short (asked : AskedNumber) : (given asked).length ≤ 31 := by
  cases asked with
  | integer n hn =>
    have hmin : min n 2147483647 < 10 ^ 15 := by omega
    exact (digits_short hmin).trans (by decide)
  | text s hs => exact hs

private theorem given_eq_iff (asked : AskedNumber) :
    given asked = asked.digits ↔ asked.FitsInt := by
  cases asked with
  | integer n hn =>
    constructor
    · intro h
      have hmin := digits_inj h
      show n ≤ 2147483647
      omega
    · intro h
      have hmin : min n 2147483647 = n := Nat.min_eq_left h
      show (toString (min n 2147483647)).toList = _
      rw [hmin]
      rfl
  | text s hs => exact iff_of_true rfl trivial

private theorem delivers_given (asked : AskedNumber) (hd : d.request = .idle)
    (hs : d.Still (d.requests + 1)) {parameterList : List CallParam} {steps : List CallStep}
    (hfields : parameterList.flatMap CallParam.fields = [.p1 asked.item])
    (halone : ∀ l ∈ steps, OwnStep (d.requests + 1) l) (hne : given asked ≠ []) :
    Delivers (given asked) (d.requests + 1) d
      (Framework.run step (d.onFunctionCall parameterList) steps) := by
  have hstart := placing_onFunctionCall hd hs hfields (given_number asked)
  have hstored : storedNumber (given asked) = given asked :=
    List.take_of_length_le (given_short asked)
  rw [hstored] at hstart
  exact (hstart.run halone).delivers (given_short asked) hne

section OneWorld

variable (w : CallWorld) (hw : w.mixture = none) (asked : AskedNumber)

theorem run_announcing {read rest : Text} (hr : d.request = .announcing read)
    (hn : d.phoneNumber = read ++ rest) :
    Framework.run step d (List.replicate (rest.length + 1) (.request w)) =
      { d with announced := callTtsText (read ++ rest) :: d.announced, request := .testTimer } := by
  induction rest generalizing d read with
  | nil =>
    have hend : d.phoneNumber[read.length]? = none := by simp [hn]
    simp [step, bodadianhua, hr, hend]
  | cons c rest ih =>
    have hnext : d.phoneNumber[read.length]? = some c := by simp [hn]
    have hstep : d.step (.request w) = { d with request := .announcing (read ++ [c]) } := by
      simp only [step, bodadianhua, hr, hnext]
    have hpc : (d.step (.request w)).request = .announcing (read ++ [c]) := by rw [hstep]
    have hrest : (d.step (.request w)).phoneNumber = read ++ [c] ++ rest := by
      rw [hstep, List.append_assoc]
      exact hn
    rw [List.length_cons, List.replicate_succ, run_cons, ih hpc hrest, hstep]
    simp

include hw

theorem run_upToAnnouncement (hd : d.request = .idle) :
    Framework.run step (d.onFunctionCall [.object (some asked.item) none])
        (List.replicate (4 + ((given asked).length + 1)) (.request w)) =
      { d with
        requests := d.requests + 1
        latest := d.requests + 1
        latestNumber := given asked
        phoneNumber := given asked
        pendingPhoneCall := true
        announced := callTtsText (given asked) :: d.announced
        request := .testTimer } := by
  have hcall : d.onFunctionCall [.object (some asked.item) none] =
      { d with requests := d.requests + 1, request := .fields [.p1 asked.item] } := by
    unfold Dialler.onFunctionCall
    rw [hd]
    rfl
  have hstored : storedNumber (given asked) = given asked :=
    List.take_of_length_le (given_short asked)
  have htested : Framework.run step (d.onFunctionCall [.object (some asked.item) none])
      (List.replicate 4 (.request w)) =
        { d with
          requests := d.requests + 1
          latest := d.requests + 1
          latestNumber := given asked
          phoneNumber := given asked
          pendingPhoneCall := true
          request := .announcing [] } := by
    rw [hcall]
    simp only [List.replicate, run_cons, run_nil, step, bodadianhua, given_number, determine, hw,
      hstored, if_true]
  rw [List.replicate_add, run_append, htested]
  exact run_announcing w rfl (List.nil_append _).symm

end OneWorld

def noTimerWorld : CallWorld := ⟨.off, false, false, false, none⟩

def emptyRequest : List CallStep := List.replicate 13 (.request noTimerWorld)

theorem run_emptyRequest {asked : AskedNumber} (hd : d.request = .idle)
    (hempty : given asked = []) :
    (Framework.run step (d.onFunctionCall [.object (some asked.item) none]) emptyRequest) =
      { d with
        requests := d.requests + 1
        latest := d.requests + 1
        latestNumber := []
        phoneNumber := []
        pendingPhoneCall := false
        phoneCallTimer := none
        announced := callTtsText [] :: d.announced } := by
  have hsplit : emptyRequest =
      List.replicate (4 + ((given asked).length + 1)) (.request noTimerWorld) ++
        List.replicate 8 (.request noTimerWorld) := by
    rw [hempty]
    rfl
  rw [hsplit, run_append, run_upToAnnouncement noTimerWorld rfl asked hd, hempty]
  cases hh : d.phoneCallTimer with
  | none => simp [List.replicate, step, bodadianhua, noTimerWorld, hd]
  | some h => simp [List.replicate, step, bodadianhua, noTimerWorld, timersWithout, hd]

/-- The world of a call whose timer starts. -/
def timerWorld : CallWorld := ⟨.off, true, true, true, none⟩

/-- An earlier request for 112 waits for its timer. -/
def waiting112 : Dialler :=
  Framework.run step init
    (.onFunctionCall [.object (some (.string "112".toList)) none] ::
      List.replicate 12 (.request timerWorld))

def mobile : AskedNumber := .integer 13800138000 (by decide)

def upToCall : List CallStep :=
  List.replicate 19 (.request timerWorld) ++ .expire 1 :: List.replicate 14 (.callback true none)

end Dialler

end Leyu
