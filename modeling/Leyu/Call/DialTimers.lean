import Leyu.Call.Dialler

/-!
# The timers of the deferred calls

The condition under which the two tasks of the dialler keep out of each other's way, and what it
gives for the timers: each belongs to a request that determined a number, none to the one that
still has to create its own, and the one the callback was called for has run out.
-/

namespace Leyu

open Framework

namespace RequestPc

def Early : RequestPc → Prop
  | fields _ | copying .. | setPending _ | announcing _ | testTimer | deleteTimer | resetTimer
  | createTimer => True
  | _ => False

/-- The request is at a number it has determined: it is past the look at its parameters, or at
one of them. -/
def Committed : RequestPc → Prop
  | idle | fields _ => False
  | _ => True

/-- The branch relies on the handle. -/
def UsesTimer : RequestPc → Prop
  | testCreated | startTimer | dialDirect true | readNumber true _ | clearPending true
  | clearNumber true | deleteOwn | resetOwn => True
  | _ => False

/-- The number is being written, or it is being dialled and the flag is still set. -/
def Handles : RequestPc → Prop
  | copying .. | readNumber .. | clearPending _ => True
  | _ => False

end RequestPc

namespace CallbackPc

def timer? : CallbackPc → Option Nat
  | idle => none
  | entered h | measuring h | calling h | reading h _ | clearing h | clearingNumber h | leaving h
  | deleting h | resetting h => some h

/-- The callback is not between its test of the flag and the end of its clearing. -/
def Apart : CallbackPc → Prop
  | idle | entered _ | leaving _ | deleting _ | resetting _ => True
  | _ => False

/-- A number may be written: the callback is apart, and if it has not tested the flag, it was called
for a timer that is no longer the one of the handle. -/
def LetsWrite (handle : Option Nat) : CallbackPc → Prop
  | entered h => handle ≠ some h
  | pc => pc.Apart

def Empties : CallbackPc → Prop
  | clearingNumber _ => True
  | _ => False

theorem LetsWrite.apart {handle : Option Nat} {pc : CallbackPc} (h : pc.LetsWrite handle) :
    pc.Apart := by
  cases pc with
  | entered => trivial
  | _ => exact h

end CallbackPc

namespace Dialler

/-- The condition on a step: the two tasks keep out of each other's way on the flag, the number and
the handle, and a request that has determined no number does not find the flag set. -/
def Orderly (d : Dialler) : CallStep → Prop
  | .request w =>
      match d.request with
      -- A second number of one request comes while the first one is still to be dialled.
      | .fields (f :: _) => ∀ number ∈ f.number w.book, number ≠ [] ∧ number.length ≤ 31 ∧
          (d.latest = d.requests → d.pendingPhoneCall = true) ∧
            d.callback.LetsWrite d.phoneCallTimer
      | .fields [] => d.pendingPhoneCall = true → d.latest = d.requests
      -- The callback has not emptied the number between its write and the flag.
      | .setPending _ => d.phoneNumber ≠ [] ∧ ¬ d.callback.Empties
      | .dialDirect _ => d.pendingPhoneCall = true ∧ d.callback.Apart
      | _ => True
  | .callback _ _ =>
      match d.callback with
      -- The flag is not found set while the branch is at the number.
      | .entered _ => d.pendingPhoneCall = true → ¬ d.request.Handles
      -- Another timer than its own is deleted, and its handle lost, only if it is superseded.
      | .deleting h | .resetting h => d.phoneCallTimer = none ∨ d.phoneCallTimer = some h ∨
          ¬ d.request.UsesTimer ∧
            (d.pendingPhoneCall = true → d.request ≠ .idle ∧ d.latest = d.requests)
      | _ => True
  | _ => True

instance (pc : RequestPc) : Decidable pc.UsesTimer := by
  unfold RequestPc.UsesTimer
  split <;> infer_instance

instance (pc : RequestPc) : Decidable pc.Handles := by
  unfold RequestPc.Handles
  split <;> infer_instance

instance (pc : CallbackPc) : Decidable pc.Apart := by
  unfold CallbackPc.Apart
  split <;> infer_instance

instance (handle : Option Nat) (pc : CallbackPc) : Decidable (pc.LetsWrite handle) := by
  unfold CallbackPc.LetsWrite
  split <;> infer_instance

instance (pc : CallbackPc) : Decidable pc.Empties := by
  unfold CallbackPc.Empties
  split <;> infer_instance

instance (d : Dialler) (l : CallStep) : Decidable (d.Orderly l) := by
  unfold Orderly
  split
  · split <;> infer_instance
  · split <;> infer_instance
  · infer_instance

structure Ordered (d : Dialler) : Prop where
  latest : d.latest ≤ d.requests
  dialled : ∀ r ∈ d.dialled, r ≤ d.latest
  begun : d.request ≠ .idle → 0 < d.requests
  committed : d.request.Committed → d.latest = d.requests
  live : ∀ h, d.timer h ≠ .dormant ∨ d.callback.timer? = some h →
    0 < h ∧ h ≤ d.latest ∧ (d.request ≠ .idle → h < d.requests)
  fired : ∀ h, d.callback.timer? = some h → d.timer h = .dormant
  handle : ∀ h, d.phoneCallTimer = some h → h ≤ d.latest ∧ (d.request.Early → h < d.requests)
  own : d.request.UsesTimer → d.phoneCallTimer = some d.requests ∨
    d.request = .testCreated ∧ d.phoneCallTimer = none

private theorem Ordered.goTo {d : Dialler} (ho : d.Ordered) (pc : RequestPc)
    (hr : d.request ≠ .idle) (hcommitted : pc.Committed → d.latest = d.requests)
    (hearly : pc.Early → d.request.Early)
    (hown : pc.UsesTimer → d.phoneCallTimer = some d.requests) :
    Ordered { d with request := pc } where
  latest := ho.latest
  dialled := ho.dialled
  begun := fun _ => ho.begun hr
  committed := hcommitted
  live h hlive := by
    obtain ⟨hpos, hle, hlt⟩ := ho.live h hlive
    exact ⟨hpos, hle, fun _ => hlt hr⟩
  fired := ho.fired
  handle h hh := ⟨(ho.handle h hh).1, fun he => (ho.handle h hh).2 (hearly he)⟩
  own huse := .inl (hown huse)

private theorem Ordered.toIdle {d : Dialler} (ho : d.Ordered) :
    Ordered { d with request := .idle } where
  latest := ho.latest
  dialled := ho.dialled
  begun h := absurd rfl h
  committed h := h.elim
  live h hlive := ⟨(ho.live h hlive).1, (ho.live h hlive).2.1, fun h => absurd rfl h⟩
  fired := ho.fired
  handle h hh := ⟨(ho.handle h hh).1, fun he => he.elim⟩
  own h := h.elim

private theorem Ordered.placeCall {d : Dialler} (ho : d.Ordered) (number : Text) :
    (d.placeCall number).Ordered where
  latest := ho.latest
  dialled r hr := by
    obtain rfl | hr := List.mem_cons.mp hr
    · exact le_rfl
    · exact ho.dialled r hr
  begun := ho.begun
  committed := ho.committed
  live := ho.live
  fired := ho.fired
  handle := ho.handle
  own := ho.own

private theorem Ordered.deleteTimer {d : Dialler} (ho : d.Ordered) (q : Bool) :
    Ordered { d with timer := d.timersWithout q } := by
  have hlive (h : Nat) (hh : d.timersWithout q h ≠ .dormant) : d.timer h ≠ .dormant := by
    obtain heq | ⟨-, harmed, -⟩ := timersWithout_cases q d h
    · exact heq ▸ hh
    · simp [harmed]
  refine ⟨ho.latest, ho.dialled, ho.begun, ho.committed, ?_, ?_, ho.handle, ho.own⟩
  · intro h hh
    exact ho.live h (hh.imp_left (hlive h))
  · intro h hc
    by_contra hne
    exact hlive h hne (ho.fired h hc)

private theorem Ordered.resetHandle {d : Dialler} (ho : d.Ordered)
    (hr : d.request.UsesTimer → d.request = .testCreated) :
    Ordered { d with phoneCallTimer := none } where
  latest := ho.latest
  dialled := ho.dialled
  begun := ho.begun
  committed := ho.committed
  live := ho.live
  fired := ho.fired
  handle h hh := by simp at hh
  own h := .inr ⟨hr h, rfl⟩

private theorem Ordered.callbackTo {d : Dialler} (ho : d.Ordered) (pc : CallbackPc)
    (hpc : pc.timer? = d.callback.timer? ∨ pc = .idle) : Ordered { d with callback := pc } := by
  have hsame (h : Nat) (hpc' : pc.timer? = some h) : d.callback.timer? = some h := by
    obtain hpc | rfl := hpc
    · exact hpc ▸ hpc'
    · simp [CallbackPc.timer?] at hpc'
  refine ⟨ho.latest, ho.dialled, ho.begun, ho.committed, ?_, ?_, ho.handle, ho.own⟩
  · exact fun h hlive => ho.live h (hlive.imp_right (hsame h))
  · exact fun h hpc' => ho.fired h (hsame h hpc')

private theorem CallbackMove.timer? {d : Dialler} {pc : CallbackPc} (hm : CallbackMove d pc) :
    pc.timer? = d.callback.timer? ∨ pc = .idle := by
  cases hm with
  | noTimer hc => exact .inr rfl
  | tested hc | skipped hc | measured hc | empty hc | called hc | refused hc | read hc
  | hasTimer hc =>
    left
    rw [hc]
    rfl

private theorem usesTimer_of_resetting {d : Dialler} {q : Bool} {m : Option Text} {h : Nat}
    (ho : d.Ordered) (hc : d.callback = .resetting h) (hok : d.Orderly (.callback q m))
    (huse : d.request.UsesTimer) : d.request = .testCreated := by
  simp only [Orderly, hc] at hok
  obtain hown | ⟨hcreated, -⟩ := ho.own huse
  · obtain hnone | hsome | ⟨hnot, -⟩ := hok
    · simp [hown] at hnone
    · have heq : d.requests = h := by simpa [hown] using hsome
      have hidle : d.request ≠ .idle := by
        intro hidle
        simp [hidle, RequestPc.UsesTimer] at huse
      have hlt : h < d.requests := (ho.live h (.inr (by rw [hc]; rfl))).2.2 hidle
      omega
    · exact absurd huse hnot
  · exact hcreated

theorem CallbackStep.ordered {d d' : Dialler} {q : Bool} {m : Option Text}
    (hstep : CallbackStep q d d') (ho : d.Ordered) (hok : d.Orderly (.callback q m)) :
    d'.Ordered := by
  cases hstep with
  | idle hc => exact ho
  | moved hm => exact ho.callbackTo _ hm.timer?
  | dialled hc => exact (ho.callbackTo (.clearing _) (.inl (by rw [hc]; rfl))).placeCall _
  | flagCleared hc =>
    have hnext := ho.callbackTo (.clearingNumber _) (.inl (by rw [hc]; rfl))
    exact { hnext with }
  | mixed t hc =>
    have hnext := ho.callbackTo (.clearingNumber _) (.inl (by rw [hc]))
    exact { hnext with }
  | numberCleared hc =>
    have hnext := ho.callbackTo (.leaving _) (.inl (by rw [hc]; rfl))
    exact { hnext with }
  | timerDeleted hc => exact (ho.callbackTo (.resetting _) (.inl (by rw [hc]; rfl))).deleteTimer q
  | timerReset hc =>
    have huse := usesTimer_of_resetting ho hc hok
    exact (ho.callbackTo .idle (.inr rfl)).resetHandle huse

private theorem RequestMove.ne_idle {d : Dialler} {w : CallWorld} {pc : RequestPc}
    (hm : RequestMove w d pc) : d.request ≠ .idle := by
  intro hidle
  cases hm with
  | passed hr | tested hr | silent hr | spelt hr | hasTimer hr | noTimer hr | created hr
  | notCreated hr | notStarted hr | refused hr | dials hr | read hr =>
    rw [hidle] at hr
    cases hr

private theorem RequestMove.early {d : Dialler} {w : CallWorld} {pc : RequestPc}
    (hm : RequestMove w d pc) (hpc : pc.Early) : d.request.Early := by
  cases hm with
  | passed hr | tested hr | spelt hr | hasTimer hr | noTimer hr =>
    rw [hr]
    trivial
  | silent | created | notCreated | notStarted | refused | dials | read => exact hpc.elim

private theorem RequestMove.committed {d : Dialler} {w : CallWorld} {pc : RequestPc}
    (hm : RequestMove w d pc) (ho : d.Ordered) (hok : d.Orderly (.request w))
    (hpc : pc.Committed) : d.latest = d.requests := by
  cases hm with
  | passed | silent => exact hpc.elim
  | tested hr hset =>
    simp only [Orderly, hr] at hok
    exact hok hset
  | spelt hr | hasTimer hr | noTimer hr | created hr | notCreated hr | notStarted hr | refused hr
  | dials hr | read hr => exact ho.committed (by rw [hr]; trivial)

private theorem RequestMove.own {d : Dialler} {w : CallWorld} {pc : RequestPc}
    (hm : RequestMove w d pc) (ho : d.Ordered) (hpc : pc.UsesTimer) :
    d.phoneCallTimer = some d.requests := by
  have hkept (huse : d.request.UsesTimer) (hnot : d.request ≠ .testCreated) :
      d.phoneCallTimer = some d.requests :=
    (ho.own huse).resolve_right fun h => hnot h.1
  cases hm with
  | created hr hh =>
    exact (ho.own (by rw [hr]; trivial)).resolve_right fun h => hh h.2
  | notStarted hr => exact hkept (by rw [hr]; trivial) (by simp [hr])
  | @refused created hr | @dials created hr | @read created _ _ hr =>
    refine hkept ?_ (by simp [hr])
    rw [hr]
    cases created <;> exact hpc
  | passed | tested | silent | spelt | hasTimer | noTimer | notCreated => exact hpc.elim

private theorem Ordered.moved {d : Dialler} {w : CallWorld} {pc : RequestPc} (ho : d.Ordered)
    (hm : RequestMove w d pc) (hok : d.Orderly (.request w)) : Ordered { d with request := pc } :=
  ho.goTo pc hm.ne_idle (hm.committed ho hok) hm.early (hm.own ho)

private theorem Ordered.determine {d : Dialler} (ho : d.Ordered) (hr : d.request ≠ .idle)
    (hearly : d.request.Early) (number : Text) (rest : List CallField) :
    Ordered { d.determine number with request := .copying number rest } where
  latest := le_rfl
  dialled r hmem := (ho.dialled r hmem).trans ho.latest
  begun := fun _ => ho.begun hr
  committed := fun _ => rfl
  live h hlive := by
    obtain ⟨hpos, hle, hlt⟩ := ho.live h hlive
    exact ⟨hpos, hle.trans ho.latest, fun _ => hlt hr⟩
  fired := ho.fired
  handle h hh := by
    obtain ⟨hle, hlt⟩ := ho.handle h hh
    exact ⟨hle.trans ho.latest, fun _ => hlt hearly⟩
  own h := h.elim

private theorem Ordered.timerCreated {d : Dialler} (ho : d.Ordered) (hr : d.request ≠ .idle)
    (hlatest : d.latest = d.requests) {handle : Option Nat}
    (hh : handle = none ∨ handle = some d.requests) :
    Ordered { d with phoneCallTimer := handle, request := .testCreated } where
  latest := ho.latest
  dialled := ho.dialled
  begun := fun _ => ho.begun hr
  committed := fun _ => hlatest
  live h hlive := by
    obtain ⟨hpos, hle, hlt⟩ := ho.live h hlive
    exact ⟨hpos, hle, fun _ => hlt hr⟩
  fired := ho.fired
  handle h hsome := by
    obtain rfl | rfl := hh
    · simp at hsome
    · have heq : d.requests = h := by simpa using hsome
      have hle : h ≤ d.latest := heq ▸ hlatest.ge
      exact ⟨hle, fun h => h.elim⟩
  own := fun _ => hh.symm.imp_right fun hnone => ⟨rfl, hnone⟩

private theorem Ordered.timerStarted {d : Dialler} (ho : d.Ordered) (hr : d.request = .startTimer) :
    Ordered { d with timer := d.startedTimers, request := .idle } := by
  have hidle : d.request ≠ .idle := by simp [hr]
  have hown : d.phoneCallTimer = some d.requests :=
    (ho.own (by rw [hr]; trivial)).resolve_right (by simp [hr])
  have hlatest : d.latest = d.requests := ho.committed (by rw [hr]; trivial)
  have hstarted (h : Nat) (hne : h ≠ d.requests) : d.startedTimers h = d.timer h := by
    apply startedTimers_of_ne
    rw [hown]
    simpa using hne.symm
  refine ⟨ho.latest, ho.dialled, fun h => absurd rfl h, fun h => h.elim, ?_, ?_, ?_,
    fun h => h.elim⟩
  · intro h hlive
    by_cases heq : h = d.requests
    · subst heq
      exact ⟨ho.begun hidle, hlatest.ge, fun h => absurd rfl h⟩
    · obtain ⟨hpos, hle, -⟩ := ho.live h (hlive.imp_left fun hl => hstarted h heq ▸ hl)
      exact ⟨hpos, hle, fun h => absurd rfl h⟩
  · intro h hc
    have hlt : h < d.requests := (ho.live h (.inr hc)).2.2 hidle
    exact (hstarted h hlt.ne).trans (ho.fired h hc)
  · exact fun h hh => ⟨(ho.handle h hh).1, fun he => he.elim⟩

private theorem Ordered.next {d : Dialler} (ho : d.Ordered) {p : RequestPc}
    (hr : d.request.Committed) (hearly : p.Early → d.request.Early)
    (huse : p.UsesTimer → d.request.UsesTimer ∧ d.request ≠ .testCreated) :
    Ordered { d with request := p } := by
  refine ho.goTo p ?_ (fun _ => ho.committed hr) hearly fun h => ?_
  · intro hidle
    rw [hidle] at hr
    exact hr
  · exact (ho.own (huse h).1).resolve_right fun h' => (huse h).2 h'.1

theorem BodadianhuaStep.ordered {d d' : Dialler} {w : CallWorld} (hstep : BodadianhuaStep w d d')
    (ho : d.Ordered) (hok : d.Orderly (.request w)) : d'.Ordered := by
  cases hstep with
  | idle hr => exact ho
  | moved hm => exact ho.moved hm hok
  | determined hr hn =>
    have hearly : d.request.Early := by rw [hr]; trivial
    exact ho.determine (by simp [hr]) hearly _ _
  | @mixed number rest t hr =>
    have hnext := ho.next (p := .copying number rest) (by rw [hr]; trivial)
      (fun _ => by rw [hr]; trivial) (fun h => h.elim)
    exact { hnext with }
  | @copied number rest hr =>
    have hnext := ho.next (p := .setPending rest) (by rw [hr]; trivial)
      (fun _ => by rw [hr]; trivial) (fun h => h.elim)
    exact { hnext with }
  | @flagged rest hr =>
    have hnext := ho.next (p := .fields rest) (by rw [hr]; trivial)
      (fun _ => by rw [hr]; trivial) (fun h => h.elim)
    exact { hnext with }
  | announced hr =>
    have hnext := ho.next (p := .testTimer) (by rw [hr]; trivial)
      (fun _ => by rw [hr]; trivial) (fun h => h.elim)
    exact { hnext with }
  | timerDeleted hr =>
    have hnext := ho.next (p := .resetTimer) (by rw [hr]; trivial)
      (fun _ => by rw [hr]; trivial) (fun h => h.elim)
    exact hnext.deleteTimer w.deleteQueued
  | timerReset hr =>
    have hnext := ho.next (p := .createTimer) (by rw [hr]; trivial)
      (fun _ => by rw [hr]; trivial) (fun h => h.elim)
    exact hnext.resetHandle fun h => h.elim
  | timerCreated hr hh =>
    exact ho.timerCreated (by simp [hr]) (ho.committed (by rw [hr]; trivial)) hh
  | started hr => exact ho.timerStarted hr
  | @dialled created read hr =>
    have hnext := ho.next (p := .clearPending created) (by rw [hr]; trivial) (fun h => h.elim)
      (fun h => ⟨by rw [hr]; cases created <;> exact h, by simp [hr]⟩)
    exact hnext.placeCall read
  | @flagCleared created hr =>
    have hnext := ho.next (p := .clearNumber created) (by rw [hr]; trivial) (fun h => h.elim)
      (fun h => ⟨by rw [hr]; cases created <;> exact h, by simp [hr]⟩)
    exact { hnext with }
  | @mixedClearing created t hr =>
    have hnext := ho.next (p := .clearNumber created) (by rw [hr]; trivial) (fun h => h.elim)
      (fun h => ⟨by rw [hr]; cases created <;> exact h, by simp [hr]⟩)
    exact { hnext with }
  | @numberCleared created hr =>
    cases created with
    | false => exact { ho.toIdle with }
    | true =>
      have hnext := ho.next (p := .deleteOwn) (by rw [hr]; trivial) (fun h => h.elim)
        (fun _ => ⟨by rw [hr]; trivial, by simp [hr]⟩)
      exact { hnext with }
  | ownDeleted hr =>
    have hnext := ho.next (p := .resetOwn) (by rw [hr]; trivial) (fun h => h.elim)
      (fun _ => ⟨by rw [hr]; trivial, by simp [hr]⟩)
    exact hnext.deleteTimer w.deleteQueued
  | ownReset hr => exact ho.toIdle.resetHandle fun h => h.elim

theorem onFunctionCall_ordered {d : Dialler} (ho : d.Ordered) (parameterList : List CallParam) :
    (d.onFunctionCall parameterList).Ordered := by
  unfold onFunctionCall
  cases hr : d.request with
  | idle =>
    have hlatest := ho.latest
    refine ⟨?_, ho.dialled, ?_, ?_, ?_, ho.fired, ?_, fun h => h.elim⟩
    · exact hlatest.trans (Nat.le_succ _)
    · exact fun _ => Nat.succ_pos _
    · exact fun h => h.elim
    · intro h hlive
      obtain ⟨hpos, hle, -⟩ := ho.live h hlive
      exact ⟨hpos, hle, fun _ => Nat.lt_succ_of_le (hle.trans hlatest)⟩
    · intro h hh
      obtain ⟨hle, -⟩ := ho.handle h hh
      exact ⟨hle, fun _ => Nat.lt_succ_of_le (hle.trans hlatest)⟩
  | _ => exact ho

/-- The timer service only stops timers, and calls the callback of one that was not stopped. -/
theorem Ordered.service {d : Dialler} (ho : d.Ordered) {h : Nat} (hh : d.timer h ≠ .dormant)
    (pc : CallbackPc) (due : Bool) (hpc : pc = d.callback ∨ pc = .entered h) :
    Ordered { d with timer := Function.update d.timer h .dormant, callback := pc, due := due } := by
  have hstopped (h' : Nat) : Function.update d.timer h .dormant h' ≠ .dormant →
      d.timer h' ≠ .dormant := by
    intro hne
    by_cases heq : h' = h
    · exact heq ▸ hh
    · rwa [Function.update_of_ne heq] at hne
  refine ⟨ho.latest, ho.dialled, ho.begun, ho.committed, ?_, ?_, ho.handle, ho.own⟩
  · intro h' hlive
    apply ho.live h'
    obtain hlive | hlive := hlive
    · exact .inl (hstopped h' hlive)
    · obtain rfl | rfl := hpc
      · exact .inr hlive
      · have heq : h = h' := by simpa [CallbackPc.timer?] using hlive
        exact .inl (heq ▸ hh)
  · intro h' hc
    show Function.update d.timer h .dormant h' = .dormant
    by_cases heq : h' = h
    · rw [heq, Function.update_self]
    · rw [Function.update_of_ne heq]
      obtain rfl | rfl := hpc
      · exact ho.fired h' hc
      · have heq' : h = h' := by simpa [CallbackPc.timer?] using hc
        exact absurd heq'.symm heq

end Dialler

end Leyu
