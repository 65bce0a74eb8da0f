import Leyu.Sip.Service

/-!
# The end of a SIP call

Each event that ends a call is ignored unless a flag says that there is something to end, and
the flags of the guards are not the ones that were set: the main loop sets `is_sip_mode` before
any event has come, and an incoming call is announced before it is set.
-/

namespace Leyu

open Framework

def SipEvent.endsCall : SipEvent → Bool
  | .hangup | .unregistered | .error => true
  | _ => false

namespace SipService

/-- No call is going on, and the audio pipe is not left in SIP mode. -/
def Clean (s : SipService) : Prop :=
  s.isSipMode = false ∧ s.isSipBegin = false ∧ s.isSipIncoming = false ∧
    s.isSipEventCalling = false ∧ s.isSipEventIncoming = false ∧ s.pipe ≠ some true

instance (s : SipService) : Decidable s.Clean := by unfold Clean; infer_instance

def closes (s : SipService) : Bool :=
  match s.task with
  | .closing _ => true
  | _ => false

/-- With this step the task has processed a `HANGUP`, an `UNREGISTERED` or an `ERROR`, or the
`END` of a call that had begun. -/
def EndProcessed (s : SipService) : SipStep → Prop
  | .receive e =>
      s.task = .receiving ∧ e.endsCall = true ∧ (SipStep.step s (.receive e)).task = .receiving
  | .proceed => s.closes = true
  | _ => False

def EndsClean (s : SipService) (l : SipStep) : Prop := s.EndProcessed l → (l.step s).Clean

instance (s : SipService) (l : SipStep) : Decidable (s.EndsClean l) := by
  unfold EndsClean
  cases l <;> unfold EndProcessed <;> infer_instance

/-- An event that ends the call finds the flag its guard asks for, or nothing to end, and no
other call is dialled or rings when a call that had begun is closed. -/
def EndNoticed (s : SipService) : SipStep → Prop
  | .receive .hangup =>
      s.task = .receiving →
        s.isSipBegin = true ∨ s.isSipIncoming = true ∨ s.isSipEventCalling = true ∨
          s.isSipMode = false
  | .receive .unregistered | .receive .error =>
      s.task = .receiving →
        s.isSipMode = true ∨ s.isSipBegin = false ∧ s.isSipIncoming = false
  | .proceed =>
      s.closes = true → s.isSipEventCalling = false ∧ s.isSipEventIncoming = false
  | _ => True

/-- The pipe and the two ringing flags go with the mode, and a call that is being closed has
neither begun nor comes in. -/
structure RoutedCall (s : SipService) : Prop where
  calling : s.isSipEventCalling = true → s.isSipMode = true
  ringing : s.isSipEventIncoming = true → s.isSipMode = true
  piped : s.pipe = some true → s.isSipMode = true
  closing : s.closes = true → s.isSipBegin = false ∧ s.isSipIncoming = false

private theorem RoutedCall.clean {s : SipService} (h : RoutedCall s) (hm : s.isSipMode = false)
    (hb : s.isSipBegin = false) (hi : s.isSipIncoming = false) : s.Clean := by
  have hoff {p : Prop} (hp : p → s.isSipMode = true) : ¬ p := by
    intro hyes
    rw [hp hyes] at hm
    cases hm
  refine ⟨hm, hb, hi, ?_, ?_, hoff h.piped⟩
  · simpa using hoff h.calling
  · simpa using hoff h.ringing

private theorem RoutedCall.start : RoutedCall SipService.start := by
  refine ⟨?_, ?_, ?_, ?_⟩ <;> intro h <;> cases h

private theorem closes_of_receiving {s : SipService} (htask : s.task = .receiving) :
    s.closes = false := by
  unfold closes
  rw [htask]

private theorem RoutedCall.of_mode {s : SipService} (hm : s.isSipMode = true)
    (hc : s.closes = false) :
    RoutedCall s := by
  refine ⟨fun _ => hm, fun _ => hm, fun _ => hm, fun hclosing => ?_⟩
  rw [hc] at hclosing
  cases hclosing

private theorem RoutedCall.of_le {s s' : SipService} (h : RoutedCall s)
    (hm : s'.isSipMode = s.isSipMode) (hp : s'.pipe = s.pipe)
    (hcall : s'.isSipEventCalling = true → s.isSipEventCalling = true)
    (hring : s'.isSipEventIncoming = true → s.isSipEventIncoming = true)
    (hc : s'.closes = true → s'.isSipBegin = false ∧ s'.isSipIncoming = false) :
    RoutedCall s' := by
  refine ⟨fun hset => ?_, fun hset => ?_, fun hset => ?_, hc⟩
  · rw [hm]
    exact h.calling (hcall hset)
  · rw [hm]
    exact h.ringing (hring hset)
  · rw [hm]
    exact h.piped (hp ▸ hset)

private theorem RoutedCall.clearCall {s : SipService} (h : RoutedCall s) (failed : Bool) :
    RoutedCall (s.clearCall failed) := by
  refine h.of_le rfl rfl ?_ ?_ ?_
  · exact fun hset => absurd hset Bool.false_ne_true
  · exact fun hset => absurd hset Bool.false_ne_true
  · exact fun _ => ⟨rfl, rfl⟩

private theorem RoutedCall.beginCall {s : SipService} (h : RoutedCall s)
    (htask : s.task = .receiving) :
    RoutedCall s.beginCall := by
  unfold SipService.beginCall
  split
  · exact h
  · refine h.of_le rfl rfl ?_ ?_ ?_
    · exact fun hset => absurd hset Bool.false_ne_true
    · exact fun hset => absurd hset Bool.false_ne_true
    · intro hclosing
      have hnot : s.closes = false := closes_of_receiving htask
      rw [show s.closes = true from hclosing] at hnot
      cases hnot

private theorem RoutedCall.receive {s : SipService} (h : RoutedCall s) (htask : s.task = .receiving)
    (e : SipEvent) : RoutedCall (s.receive e) := by
  have hopen : s.closes = false := closes_of_receiving htask
  cases e with
  | calling => exact .of_mode rfl hopen
  | incoming =>
    unfold SipService.receive
    dsimp only
    split
    · exact h.of_le rfl rfl id id fun hc => absurd hc Bool.false_ne_true
    · exact h.of_le rfl rfl id id fun hc => absurd hc Bool.false_ne_true
  | begin => exact h.beginCall htask
  | answered => exact h.beginCall htask
  | ended =>
    unfold SipService.receive
    dsimp only
    split
    · exact h.of_le rfl rfl id id fun _ => ⟨rfl, rfl⟩
    · exact h
  | hangup =>
    unfold SipService.receive
    dsimp only
    split
    · exact h.clearCall false
    · exact h
  | registered => exact h
  | unregistered =>
    unfold SipService.receive
    dsimp only
    split
    · exact h.clearCall true
    · exact h
  | error =>
    unfold SipService.receive
    dsimp only
    split
    · exact h.clearCall true
    · exact h

private theorem RoutedCall.mainLoop {s : SipService} (h : RoutedCall s) :
    RoutedCall s.mainLoop := by
  unfold SipService.mainLoop
  split
  · split
    · exact h.of_le rfl rfl id id h.closing
    · exact h
  · exact h.of_le rfl rfl id id h.closing
  · exact h.of_le rfl rfl id id h.closing
  · exact ⟨fun _ => rfl, fun _ => rfl, fun _ => rfl, h.closing⟩

private theorem proceed_clean_iff {s : SipService} (h : RoutedCall s) (hc : s.closes = true) :
    s.proceed.Clean ↔ s.isSipEventCalling = false ∧ s.isSipEventIncoming = false := by
  obtain ⟨hb, hi⟩ := h.closing hc
  unfold closes at hc
  unfold SipService.proceed
  cases htask : s.task with
  | receiving => simp [htask] at hc
  | announced => simp [htask] at hc
  | closing failed =>
    constructor
    · rintro ⟨-, -, -, hcall, hring, -⟩
      exact ⟨hcall, hring⟩
    · rintro ⟨hcall, hring⟩
      exact ⟨rfl, hb, hi, hcall, hring, by simp⟩

private theorem RoutedCall.proceed {s : SipService} (h : RoutedCall s)
    (hok : s.EndNoticed .proceed) :
    RoutedCall s.proceed := by
  unfold SipService.proceed
  cases htask : s.task with
  | receiving => exact h
  | announced =>
    dsimp only
    split
    · exact h.of_le rfl rfl id id fun hc => absurd hc Bool.false_ne_true
    · exact .of_mode rfl rfl
  | closing failed =>
    have hquiet := hok (by unfold closes; rw [htask])
    refine ⟨fun hset => ?_, fun hset => ?_, fun hset => ?_, fun hc => ?_⟩
    · have hcall : s.isSipEventCalling = true := hset
      rw [hquiet.1] at hcall
      cases hcall
    · have hring : s.isSipEventIncoming = true := hset
      rw [hquiet.2] at hring
      cases hring
    · cases hset
    · cases hc

private theorem RoutedCall.step {s : SipService} {l : SipStep} (h : RoutedCall s)
    (hok : s.EndNoticed l) : RoutedCall (l.step s) := by
  cases l with
  | receive e =>
    unfold SipStep.step
    dsimp only
    split
    · rename_i htask
      exact h.receive htask e
    · exact h
  | proceed => exact h.proceed hok
  | mainLoop => exact h.mainLoop
  | requestCall => exact h.of_le rfl rfl id id h.closing
  | speaking isPlaying => exact h.of_le rfl rfl id id h.closing

private theorem endsClean_of_not_ending {s : SipService} {e : SipEvent} (he : e.endsCall = false) :
    s.EndsClean (.receive e) := by
  rintro ⟨-, hends, -⟩
  rw [he] at hends
  cases hends

private theorem endsClean_of_taken {s : SipService} {e : SipEvent} {failed : Bool}
    (hstep : s.receive e = s.clearCall failed) : s.EndsClean (.receive e) := by
  rintro ⟨htask, -, hkept⟩
  have hclosing : (SipStep.step s (.receive e)).task = .closing failed := by
    show (if s.task = .receiving then s.receive e else s).task = .closing failed
    rw [if_pos htask, hstep]
    rfl
  rw [hclosing] at hkept
  cases hkept

private theorem endsClean_iff_of_ignored {s : SipService} {e : SipEvent} (he : e.endsCall = true)
    (hstep : s.receive e = s) : s.EndsClean (.receive e) ↔ (s.task = .receiving → s.Clean) := by
  have hsame : SipStep.step s (.receive e) = s := by
    show (if s.task = .receiving then s.receive e else s) = s
    rw [hstep, ite_self]
  show (s.task = .receiving ∧ e.endsCall = true ∧
    (SipStep.step s (.receive e)).task = .receiving → (SipStep.step s (.receive e)).Clean) ↔ _
  rw [hsame]
  constructor
  · intro h htask
    exact h ⟨htask, he, htask⟩
  · rintro h ⟨htask, -, -⟩
    exact h htask

private theorem endsClean_hangup_iff {s : SipService} (h : RoutedCall s) :
    s.EndsClean (.receive .hangup) ↔ s.EndNoticed (.receive .hangup) := by
  cases hguard : s.isSipBegin || s.isSipIncoming || s.isSipEventCalling with
  | true =>
    have hstep : s.receive .hangup = s.clearCall false := if_pos hguard
    refine iff_of_true (endsClean_of_taken hstep) fun _ => ?_
    simp only [Bool.or_eq_true] at hguard
    rcases hguard with (hb | hi) | hc
    · exact .inl hb
    · exact .inr (.inl hi)
    · exact .inr (.inr (.inl hc))
  | false =>
    have hstep : s.receive .hangup = s := if_neg (by rw [hguard]; exact Bool.false_ne_true)
    rw [endsClean_iff_of_ignored rfl hstep]
    simp only [Bool.or_eq_false_iff] at hguard
    obtain ⟨⟨hb, hi⟩, hc⟩ := hguard
    constructor
    · intro hclean htask
      exact .inr (.inr (.inr (hclean htask).1))
    · intro hnoticed htask
      rcases hnoticed htask with hb' | hi' | hc' | hm
      · rw [hb] at hb'
        cases hb'
      · rw [hi] at hi'
        cases hi'
      · rw [hc] at hc'
        cases hc'
      · exact h.clean hm hb hi

private theorem endsClean_error_iff {s : SipService} (h : RoutedCall s) {e : SipEvent}
    (he : e.endsCall = true) (hstep : s.receive e = if s.isSipMode then s.clearCall true else s) :
    s.EndsClean (.receive e) ↔
      (s.task = .receiving → s.isSipMode = true ∨ s.isSipBegin = false ∧ s.isSipIncoming = false) := by
  cases hm : s.isSipMode with
  | true =>
    rw [hm] at hstep
    exact iff_of_true (endsClean_of_taken hstep) fun _ => .inl rfl
  | false =>
    rw [hm] at hstep
    rw [endsClean_iff_of_ignored he hstep]
    constructor
    · intro hclean htask
      obtain ⟨-, hb, hi, -⟩ := hclean htask
      exact .inr ⟨hb, hi⟩
    · intro hquiet htask
      rcases hquiet htask with hm' | ⟨hb, hi⟩
      · cases hm'
      · exact h.clean hm hb hi

private theorem endsClean_iff {s : SipService} (h : RoutedCall s) (l : SipStep) :
    s.EndsClean l ↔ s.EndNoticed l := by
  cases l with
  | receive e =>
    cases e with
    | hangup => exact endsClean_hangup_iff h
    | unregistered => exact endsClean_error_iff h rfl rfl
    | error => exact endsClean_error_iff h rfl rfl
    | _ => exact iff_of_true (endsClean_of_not_ending rfl) trivial
  | proceed =>
    constructor
    · exact fun hclean hc => (proceed_clean_iff h hc).mp (hclean hc)
    · exact fun hnoticed hc => (proceed_clean_iff h hc).mpr (hnoticed hc)
  | _ => exact iff_of_true (fun hfalse => hfalse.elim) trivial

end SipService

open SipService in
/-- Every ending in a run is clean exactly when every event that ends a call is noticed. -/
theorem endsClean_run_iff (ls : List SipStep) :
    AllSteps SipStep.step EndsClean SipService.start ls ↔
      AllSteps SipStep.step EndNoticed SipService.start ls := by
  refine allSteps_congr (fun s l hr hok => ?_) (fun s l hr hgood => ?_) RoutedCall.start ls
  · exact ⟨(endsClean_iff hr l).mpr hok, hr.step hok⟩
  · exact (endsClean_iff hr l).mp hgood

/-- The main loop places a call, and the other side hangs up before `CALLING` has come. -/
def hangupBeforeCalling : List SipStep :=
  [.requestCall, .speaking false, .mainLoop, .mainLoop, .mainLoop, .mainLoop, .receive .hangup]

theorem hangupBeforeCalling_stuck :
    ¬ AllSteps SipStep.step SipService.EndsClean SipService.start hangupBeforeCalling ∧
      (run SipStep.step SipService.start hangupBeforeCalling).isSipFlag = true ∧
      (run SipStep.step SipService.start hangupBeforeCalling).isSipMode = true := by
  decide

end Leyu
