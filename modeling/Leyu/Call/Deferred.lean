import Leyu.Call.PhoneCell

/-!
# Deferred dialling follows the requests

A number that a request has determined is dialled once, unless a later request supersedes it, as
long as the two tasks keep out of each other's way and a request that determines no number does
not come upon the number of an earlier one.
-/

namespace Leyu

open Framework

namespace Dialler

/-- What a step does where dialling follows the requests. A call goes to the number of the last
request that determined one, and is the first for it. A request that has determined no number
announces nothing and leaves the timers alone. A timer only stops for its expiry, or when its
request has been dialled or superseded; the callback of a timer whose request was the last one
leaves it dialled. When both tasks are idle and no timer is armed, nothing is left to be dialled. -/
structure Follows (d : Dialler) (l : CallStep) : Prop where
  call : ∀ number, (d.step l).calls = number :: d.calls →
    number = d.latestNumber ∧ 0 < d.latest ∧ d.latest ∉ d.dialled
  quiet : ∀ w, l = .request w → d.latest ≠ d.requests →
    (d.step l).announced = d.announced ∧ (d.step l).phoneCallTimer = d.phoneCallTimer ∧
      (d.step l).timer = d.timer
  stopped : ∀ h, d.timer h = .armed → (d.step l).timer h ≠ .armed →
    l = .expire h ∨ h ∈ d.dialled ∨ h < d.latest
  answered : ∀ h q m, d.callback = .leaving h → l = .callback q m → d.due = true → h ∈ d.dialled
  atRest : (d.step l).request = .idle → (d.step l).callback = .idle →
    (∀ h, (d.step l).timer h ≠ .armed) → (d.step l).Settled

/-- The branch is at a number that its request has determined. -/
def Busy (d : Dialler) : Prop := d.request ≠ .idle ∧ d.latest = d.requests

/-- A number that is not dialled is on its way: the branch is still at it, or its timer is armed
and is the one of the handle, or the callback is about to dial it. -/
def OnItsWay (d : Dialler) : Prop :=
  d.Busy ∨ (d.phoneCallTimer = some d.latest ∧ d.timer d.latest = .armed) ∨
    d.callback.phase = .dialling ∨ d.callback = .entered d.latest

/-- What the callback owes the request whose timer it was called for. -/
def Owes (d : Dialler) : CallbackPc → Prop
  | .idle => True
  | .entered h | .measuring h | .calling h | .reading h _ =>
      h ∈ d.dialled ∨ d.latest = h ∧ d.phoneCallTimer = some h
  | .clearing h | .clearingNumber h | .leaving h | .deleting h | .resetting h => h ∈ d.dialled

structure Kept (d : Dialler) : Prop where
  agrees : d.Agrees
  ordered : d.Ordered
  promised : d.Settled ∨ d.OnItsWay
  owes : d.due = true → d.Owes d.callback

private theorem busy_of_committed {d : Dialler} (ho : d.Ordered) (hr : d.request.Committed) :
    d.Busy := by
  refine ⟨?_, ho.committed hr⟩
  intro hidle
  rw [hidle] at hr
  exact hr

private theorem Busy.lt {d : Dialler} {h : Nat} (hb : d.Busy) (ho : d.Ordered)
    (hlive : d.timer h ≠ .dormant ∨ d.callback.timer? = some h) : h < d.latest := by
  have hlt : h < d.requests := (ho.live h hlive).2.2 hb.1
  exact hb.2 ▸ hlt

private theorem settled_or_busy {d : Dialler} (hk : d.Kept) (hq : d.callback.phase = .apart)
    (hclear : d.pendingPhoneCall = false) : d.Settled ∨ d.Busy := by
  have hnot : d.pendingPhoneCall ≠ true := by simp [hclear]
  have hholds := hk.agrees.holds
  rw [hq] at hholds
  by_cases hr : d.request.Committed
  · exact .inr (busy_of_committed hk.ordered hr)
  · left
    cases hpc : d.request with
    | idle | fields =>
      rw [hpc] at hholds
      exact (hholds.resolve_left fun h => hnot h.1).2
    | _ =>
      rw [hpc] at hr
      exact absurd trivial hr

private theorem mem_dialled_of_busy {d : Dialler} (ho : d.Ordered) (hb : d.Busy) {h : Nat}
    (howes : d.Owes d.callback) (hc : d.callback.timer? = some h) : h ∈ d.dialled := by
  have hne : d.latest ≠ h := (hb.lt ho (.inr hc)).ne'
  cases hpc : d.callback with
  | idle => simp [hpc, CallbackPc.timer?] at hc
  | entered h' | measuring h' | calling h' | reading h' =>
    rw [hpc] at howes hc
    obtain rfl : h' = h := by simpa [CallbackPc.timer?] using hc
    exact howes.resolve_right fun hkeep => hne hkeep.1
  | clearing h' | clearingNumber h' | leaving h' | deleting h' | resetting h' =>
    rw [hpc] at howes hc
    obtain rfl : h' = h := by simpa [CallbackPc.timer?] using hc
    exact howes

private theorem owes_of_mem {d : Dialler} {pc : CallbackPc}
    (hmem : ∀ h, pc.timer? = some h → h ∈ d.dialled) : d.Owes pc := by
  cases pc with
  | idle => trivial
  | entered h | measuring h | calling h | reading h => exact .inl (hmem h rfl)
  | clearing h | clearingNumber h | leaving h | deleting h | resetting h => exact hmem h rfl

private theorem BodadianhuaStep.frame {d d' : Dialler} {w : CallWorld}
    (hstep : BodadianhuaStep w d d') :
    d'.callback = d.callback ∧ d'.due = d.due ∧ d.dialled ⊆ d'.dialled := by
  cases hstep with
  | dialled hr => exact ⟨rfl, rfl, List.subset_cons_self ..⟩
  | _ => exact ⟨rfl, rfl, List.Subset.refl _⟩

private theorem BodadianhuaStep.not_busy {d d' : Dialler} {w : CallWorld}
    (hstep : BodadianhuaStep w d d') (ho : d.Ordered) (hb : ¬ d.Busy) :
    (∃ pc, d' = { d with request := pc }) ∨
      ∃ f rest number, d.request = .fields (f :: rest) ∧ f.number w.book = some number ∧
        d' = { d.determine number with request := .copying number rest } := by
  have hnot (hr : d.request.Committed) : False := hb (busy_of_committed ho hr)
  cases hstep with
  | idle hr => exact .inl ⟨d.request, rfl⟩
  | moved hm => exact .inl ⟨_, rfl⟩
  | determined hr hn => exact .inr ⟨_, _, _, hr, hn, rfl⟩
  | mixed t hr | copied hr | flagged hr | announced hr | timerDeleted hr | timerReset hr
  | timerCreated hr | started hr | dialled hr | flagCleared hr | mixedClearing t hr
  | numberCleared hr | ownDeleted hr | ownReset hr =>
    exact (hnot (by rw [hr]; trivial)).elim

private theorem BodadianhuaStep.owes {d d' : Dialler} {w : CallWorld}
    (hstep : BodadianhuaStep w d d') (hk : d.Kept) (hok : d.Orderly (.request w))
    (hdue : d'.due = true) : d'.Owes d'.callback := by
  obtain ⟨hcallback, hdue', hdialled⟩ := hstep.frame
  have howes := hk.owes (hdue' ▸ hdue)
  rw [hcallback]
  by_cases hb : d.Busy
  · apply owes_of_mem
    intro h hc
    exact hdialled (mem_dialled_of_busy hk.ordered hb howes hc)
  · obtain ⟨pc, rfl⟩ | ⟨f, rest, number, hr, hn, rfl⟩ := hstep.not_busy hk.ordered hb
    · exact howes
    · simp only [Orderly, hr] at hok
      have hlets := (hok number hn).2.2.2
      cases hc : d.callback with
      | idle => trivial
      | entered h =>
        rw [hc] at howes hlets
        exact .inl (howes.resolve_right fun hkeep => hlets hkeep.2)
      | measuring | calling | reading =>
        rw [hc] at hlets
        exact hlets.elim
      | clearing h | clearingNumber h | leaving h | deleting h | resetting h =>
        rw [hc] at howes
        exact howes

private theorem RequestMove.promised {d : Dialler} {w : CallWorld} {pc : RequestPc}
    (hm : RequestMove w d pc) (hk : d.Kept) (hb : d.Busy) :
    d.Settled ∨ OnItsWay { d with request := pc } := by
  cases hm with
  | silent hr hclear => exact .inl (settled_of_clear hk.agrees (by rw [hr]; rfl) hclear)
  | passed | tested | spelt | hasTimer | noTimer | created | notCreated | notStarted | refused
  | dials | read => exact .inr (.inl ⟨RequestPc.noConfusion, hb.2⟩)

private theorem BodadianhuaStep.promised_of_busy {d d' : Dialler} {w : CallWorld}
    (hstep : BodadianhuaStep w d d') (hk : d.Kept) (hb : d.Busy) : d'.Settled ∨ d'.OnItsWay := by
  have hlatest : d.latest = d.requests := hb.2
  cases hstep with
  | idle hr => exact absurd hr hb.1
  | moved hm => exact hm.promised hk hb
  | determined hr hn => exact .inr (.inl ⟨RequestPc.noConfusion, rfl⟩)
  | mixed | copied | flagged | announced | timerDeleted | timerReset | timerCreated | flagCleared
  | mixedClearing | ownDeleted => exact .inr (.inl ⟨RequestPc.noConfusion, hlatest⟩)
  | started hr =>
    have hown : d.phoneCallTimer = some d.latest := by
      rw [hlatest]
      exact (hk.ordered.own (by rw [hr]; trivial)).resolve_right (by simp [hr])
    exact .inr (.inr (.inl ⟨hown, startedTimers_self hown⟩))
  | dialled => exact .inl (.inr List.mem_cons_self)
  | numberCleared hr | ownReset hr =>
    have hsettled : d.Settled := settled_of_dialled hk.agrees (.inr (by rw [hr]; rfl))
    exact .inl hsettled

private theorem BodadianhuaStep.promised {d d' : Dialler} {w : CallWorld}
    (hstep : BodadianhuaStep w d d') (hk : d.Kept) : d'.Settled ∨ d'.OnItsWay := by
  by_cases hb : d.Busy
  · exact hstep.promised_of_busy hk hb
  · obtain ⟨pc, rfl⟩ | ⟨f, rest, number, -, -, rfl⟩ := hstep.not_busy hk.ordered hb
    · obtain hs | hway := hk.promised
      · exact .inl hs
      · exact .inr (.inr (hway.resolve_left hb))
    · exact .inr (.inl ⟨RequestPc.noConfusion, rfl⟩)

/-- When the callback deletes an armed timer, or loses its handle, nothing is left to be dialled or
the branch is at it. -/
theorem settled_or_busy_of_deleting {d : Dialler} {h h' : Nat} {q : Bool} {m : Option Text}
    (hk : d.Kept) (hok : d.Orderly (.callback q m))
    (hc : d.callback = .deleting h ∨ d.callback = .resetting h)
    (hh' : d.phoneCallTimer = some h') (harmed : d.timer h' = .armed) : d.Settled ∨ d.Busy := by
  have htimer : d.callback.timer? = some h := by rcases hc with hc | hc <;> rw [hc] <;> rfl
  have hapart : d.callback.phase = .apart := by rcases hc with hc | hc <;> rw [hc] <;> rfl
  have hkeeps : d.phoneCallTimer = none ∨ d.phoneCallTimer = some h ∨ ¬ d.request.UsesTimer ∧
      (d.pendingPhoneCall = true → d.request ≠ .idle ∧ d.latest = d.requests) := by
    rcases hc with hc | hc <;> simpa only [Orderly, hc] using hok
  obtain hnone | hown | ⟨-, hset⟩ := hkeeps
  · simp [hh'] at hnone
  · have heq : h' = h := by simpa [hh'] using hown
    rw [heq, hk.ordered.fired h htimer] at harmed
    exact absurd harmed (by decide)
  · by_cases hp : d.pendingPhoneCall = true
    · exact .inr (hset hp)
    · exact settled_or_busy hk hapart (by simpa using hp)

private theorem promised_of_leaving {d : Dialler} (hk : d.Kept) (hc : d.callback.phase = .apart)
    (hentered : ∀ h, d.callback ≠ .entered h) :
    d.Settled ∨ d.Busy ∨ d.phoneCallTimer = some d.latest ∧ d.timer d.latest = .armed := by
  obtain hs | hbusy | harmed | hdial | hlast := hk.promised
  · exact .inl hs
  · exact .inr (.inl hbusy)
  · exact .inr (.inr harmed)
  · exact nomatch hc.symm.trans hdial
  · exact absurd hlast (hentered _)

private theorem CallbackMove.promised {d : Dialler} {pc : CallbackPc} (hm : CallbackMove d pc)
    (hk : d.Kept) : d.Settled ∨ OnItsWay { d with callback := pc } := by
  have hholds := hk.agrees.holds
  cases hm with
  | tested | measured | called | read => exact .inr (.inr (.inr (.inl rfl)))
  | skipped hc hclear =>
    exact (settled_or_busy hk (by rw [hc]; rfl) hclear).imp_right .inl
  | empty hc hn | refused hc hn =>
    rw [hc] at hholds
    exact absurd hn hholds.waiting.2.2
  | hasTimer hc | noTimer hc =>
    obtain hs | hbusy | harmed := promised_of_leaving hk (by rw [hc]; rfl) (by simp [hc])
    · exact .inl hs
    · exact .inr (.inl hbusy)
    · exact .inr (.inr (.inl harmed))

private theorem CallbackStep.promised {d d' : Dialler} {q : Bool} {m : Option Text}
    (hstep : CallbackStep q d d') (hk : d.Kept) (hok : d.Orderly (.callback q m)) :
    d'.Settled ∨ d'.OnItsWay := by
  have hholds := hk.agrees.holds
  cases hstep with
  | idle hc => exact hk.promised
  | moved hm => exact hm.promised hk
  | dialled hc => exact .inl (.inr List.mem_cons_self)
  | flagCleared hc =>
    rw [hc] at hholds
    have hsettled : d.Settled := hholds.settled (.inl rfl)
    exact .inl hsettled
  | mixed t hc | numberCleared hc =>
    rw [hc] at hholds
    have hsettled : d.Settled := hholds.settled (.inr rfl)
    exact .inl hsettled
  | timerDeleted hc =>
    obtain hs | hbusy | ⟨hh, harmed⟩ := promised_of_leaving hk (by rw [hc]; rfl) (by simp [hc])
    · exact .inl hs
    · exact .inr (.inl hbusy)
    · exact (settled_or_busy_of_deleting hk hok (.inl hc) hh harmed).imp_right .inl
  | timerReset hc =>
    obtain hs | hbusy | ⟨hh, harmed⟩ := promised_of_leaving hk (by rw [hc]; rfl) (by simp [hc])
    · exact .inl hs
    · exact .inr (.inl hbusy)
    · exact (settled_or_busy_of_deleting hk hok (.inr hc) hh harmed).imp_right .inl

private theorem CallbackMove.owes {d : Dialler} {pc : CallbackPc} (hm : CallbackMove d pc)
    (hk : d.Kept) (howes : d.Owes d.callback) : d.Owes pc := by
  have hholds := hk.agrees.holds
  cases hm with
  | tested hc | measured hc | called hc | read hc | hasTimer hc =>
    rw [hc] at howes
    exact howes
  | @skipped h hc hclear =>
    rw [hc] at howes
    have hlive : d.timer h ≠ .dormant ∨ d.callback.timer? = some h := .inr (by rw [hc]; rfl)
    have hpos : 0 < h := (hk.ordered.live h hlive).1
    show h ∈ d.dialled
    obtain hmem | ⟨hlatest, -⟩ := howes
    · exact hmem
    · obtain (hzero | hmem) | hb := settled_or_busy hk (by rw [hc]; rfl) hclear
      · omega
      · exact hlatest ▸ hmem
      · have hlt := hb.lt hk.ordered hlive
        omega
  | empty hc hn | refused hc hn =>
    rw [hc] at hholds
    exact absurd hn hholds.waiting.2.2
  | noTimer hc => trivial

private theorem CallbackStep.owes {d d' : Dialler} {q : Bool} (hstep : CallbackStep q d d')
    (hk : d.Kept) (hdue : d'.due = true) : d'.Owes d'.callback := by
  have howes := hk.owes
  cases hstep with
  | idle hc => exact howes hdue
  | moved hm => exact hm.owes hk (howes hdue)
  | dialled hc =>
    rw [hc] at howes
    obtain hmem | ⟨hlatest, -⟩ := howes hdue
    · exact List.mem_cons_of_mem _ hmem
    · exact hlatest ▸ List.mem_cons_self
  | flagCleared hc | mixed t hc | numberCleared hc | timerDeleted hc =>
    rw [hc] at howes
    exact howes hdue
  | timerReset hc => trivial

private theorem onFunctionCall_kept {d : Dialler} (hk : d.Kept) (parameterList : List CallParam) :
    (d.onFunctionCall parameterList).Kept := by
  have hordered := onFunctionCall_ordered hk.ordered parameterList
  unfold onFunctionCall at hordered ⊢
  cases hr : d.request with
  | idle =>
    rw [hr] at hordered
    have hholds := hk.agrees.holds
    rw [hr] at hholds
    have hagrees : Agrees { d with
        requests := d.requests + 1
        request := .fields (parameterList.flatMap CallParam.fields) } :=
      hk.agrees.branch rfl rfl rfl hholds fun read h => nomatch h
    refine ⟨hagrees, hordered, ?_, hk.owes⟩
    obtain hs | hway := hk.promised
    · exact .inl hs
    · exact .inr (.inr (hway.resolve_left fun h => h.1 hr))
  | _ => exact hk

private theorem promised_of_idle {d : Dialler} (hk : d.Kept) (hc : d.callback = .idle) :
    d.Settled ∨ d.Busy ∨ d.phoneCallTimer = some d.latest ∧ d.timer d.latest = .armed :=
  promised_of_leaving hk (by rw [hc]; rfl) (by simp [hc])

private theorem owes_of_expires {d : Dialler} {h : Nat} (hk : d.Kept) (hc : d.callback = .idle)
    (hh : d.timer h ≠ .dormant) (hlatest : d.latest = h) : d.Owes (.entered h) := by
  have hpos : 0 < h := (hk.ordered.live h (.inl hh)).1
  obtain (hzero | hmem) | hb | ⟨hhandle, -⟩ := promised_of_idle hk hc
  · omega
  · exact .inl (hlatest ▸ hmem)
  · have hlt := hb.lt hk.ordered (.inl hh)
    omega
  · exact .inr ⟨hlatest, hlatest ▸ hhandle⟩

private theorem expire_kept {d : Dialler} (hk : d.Kept) (h : Nat) : (d.expire h).Kept := by
  unfold expire
  split
  · next hexpires =>
    obtain ⟨hc, hh⟩ := hexpires
    have hholds := hk.agrees.holds
    rw [hc] at hholds
    have hagrees : Agrees { d with
        timer := Function.update d.timer h .dormant
        callback := .entered h
        due := decide (d.latest = h) } :=
      hk.agrees.callback rfl rfl rfl hholds fun read h => nomatch h
    refine ⟨hagrees, hk.ordered.service hh _ _ (.inr rfl), ?_, ?_⟩
    · obtain hs | hb | ⟨hhandle, harmed⟩ := promised_of_idle hk hc
      · exact .inl hs
      · exact .inr (.inl hb)
      · by_cases heq : h = d.latest
        · exact .inr (.inr (.inr (.inr (by rw [heq]))))
        · have hstill : Function.update d.timer h .dormant d.latest = .armed :=
            (Function.update_of_ne (Ne.symm heq) ..).trans harmed
          exact .inr (.inr (.inl ⟨hhandle, hstill⟩))
    · intro hdue
      have howes : d.Owes (.entered h) := owes_of_expires hk hc hh (of_decide_eq_true hdue)
      exact howes
  · exact hk

private theorem deleted_kept {d : Dialler} (hk : d.Kept) (h : Nat) : (d.deleted h).Kept := by
  unfold deleted
  split
  · next hstops =>
    obtain ⟨hc, hh⟩ := hstops
    have hne : d.timer h ≠ .dormant := by simp [hh]
    have hagrees : Agrees { d with timer := Function.update d.timer h .dormant } :=
      hk.agrees.callback rfl rfl rfl hk.agrees.holds fun read h => hk.agrees.reads read (.inr h)
    refine ⟨hagrees, hk.ordered.service hne d.callback d.due (.inl rfl), ?_, hk.owes⟩
    obtain hs | hbusy | ⟨hhandle, harmed⟩ | hcallback := hk.promised
    · exact .inl hs
    · exact .inr (.inl hbusy)
    · have hlatest : d.latest ≠ h := by
        rintro rfl
        simp [hh] at harmed
      have hstill : Function.update d.timer h .dormant d.latest = .armed :=
        (Function.update_of_ne hlatest ..).trans harmed
      exact .inr (.inr (.inl ⟨hhandle, hstill⟩))
    · exact .inr (.inr (.inr hcallback))
  · exact hk

private theorem step_kept {d : Dialler} {l : CallStep} (hk : d.Kept) (hok : d.Orderly l) :
    (d.step l).Kept := by
  cases l with
  | onFunctionCall parameterList => exact onFunctionCall_kept hk parameterList
  | request w =>
    have hstep := bodadianhua_step w d
    exact ⟨hstep.agrees hk.ordered hk.agrees hok, hstep.ordered hk.ordered hok,
      hstep.promised hk, hstep.owes hk hok⟩
  | expire h => exact expire_kept hk h
  | callback q m =>
    have hstep := phoneCallTimerCallback_step q m d
    exact ⟨hstep.agrees hk.agrees hok, hstep.ordered hk.ordered hok, hstep.promised hk hok,
      hstep.owes hk⟩
  | deleted h => exact deleted_kept hk h

private theorem init_kept : init.Kept where
  agrees := by
    refine ⟨.inr ⟨rfl, .inl rfl⟩, fun number h => absurd h (Option.some_ne_none _).symm, ?_⟩
    rintro read (h | h)
    · cases h
    · cases h
  ordered := by
    refine ⟨le_rfl, ?_, ?_, ?_, ?_, ?_, ?_, ?_⟩
    · exact fun r hr => absurd hr List.not_mem_nil
    · exact fun h => absurd rfl h
    · exact fun h => h.elim
    · intro h hlive
      obtain hlive | hlive := hlive
      · exact absurd rfl hlive
      · simp [init, CallbackPc.timer?] at hlive
    · exact fun _ _ => rfl
    · intro h hh
      simp [init] at hh
    · exact fun h => h.elim
  promised := .inl (.inl rfl)
  owes := fun _ => trivial

private theorem BodadianhuaStep.calls {d d' : Dialler} {w : CallWorld}
    (hstep : BodadianhuaStep w d d') (ha : d.Agrees) :
    d'.calls = d.calls ∨ d'.calls = d.phoneNumber :: d.calls ∧ d.Waiting := by
  have hholds := ha.holds
  cases hstep with
  | @dialled created read hr hend =>
    have hread := eq_of_prefix_end (ha.reads read (.inl (by rw [hr]; rfl))) hend
    rw [hr] at hholds
    have hapart := hholds.apart_of_branch (.inr (.inl rfl))
    rw [hapart] at hholds
    exact .inr ⟨by rw [← hread]; rfl, hholds.2⟩
  | _ => exact .inl rfl

private theorem CallbackStep.calls {d d' : Dialler} {q : Bool} (hstep : CallbackStep q d d')
    (ha : d.Agrees) : d'.calls = d.calls ∨ d'.calls = d.phoneNumber :: d.calls ∧ d.Waiting := by
  have hholds := ha.holds
  cases hstep with
  | @dialled h read hc hend =>
    have hread := eq_of_prefix_end (ha.reads read (.inr (by rw [hc]; rfl))) hend
    rw [hc] at hholds
    exact .inr ⟨by rw [← hread]; rfl, hholds.waiting⟩
  | _ => exact .inl rfl

private theorem step_calls {d : Dialler} (hk : d.Kept) (l : CallStep) :
    (d.step l).calls = d.calls ∨ (d.step l).calls = d.phoneNumber :: d.calls ∧ d.Waiting := by
  cases l with
  | onFunctionCall parameterList =>
    left
    simp only [step, onFunctionCall]
    cases d.request <;> rfl
  | request w => exact (bodadianhua_step w d).calls hk.agrees
  | expire h =>
    left
    simp only [step, expire]
    split <;> rfl
  | callback q m => exact (phoneCallTimerCallback_step q m d).calls hk.agrees
  | deleted h =>
    left
    simp only [step, deleted]
    split <;> rfl

private theorem BodadianhuaStep.stopped {d d' : Dialler} {w : CallWorld} {h : Nat}
    (hstep : BodadianhuaStep w d d') (ho : d.Ordered) (harmed : d.timer h = .armed)
    (hstop : d'.timer h ≠ .armed) : h < d.latest := by
  have hlive : d.timer h ≠ .dormant := by simp [harmed]
  have hdeletes (hr : d.request.Committed) : h < d.latest :=
    (busy_of_committed ho hr).lt ho (.inl hlive)
  cases hstep with
  | timerDeleted hr | ownDeleted hr => exact hdeletes (by rw [hr]; trivial)
  | started hr =>
    have hstarted : d.startedTimers h = .armed := by
      by_cases hh : d.phoneCallTimer = some h
      · exact startedTimers_self hh
      · exact (startedTimers_of_ne hh).trans harmed
    exact absurd hstarted hstop
  | _ => exact absurd harmed hstop

private theorem CallbackStep.stopped {d d' : Dialler} {q : Bool} {m : Option Text} {h : Nat}
    (hstep : CallbackStep q d d') (hk : d.Kept) (hok : d.Orderly (.callback q m))
    (harmed : d.timer h = .armed) (hstop : d'.timer h ≠ .armed) :
    h ∈ d.dialled ∨ h < d.latest := by
  have hlive : d.timer h ≠ .dormant ∨ d.callback.timer? = some h := .inl (by simp [harmed])
  cases hstep with
  | timerDeleted hc =>
    have hpos : 0 < h := (hk.ordered.live h hlive).1
    have hle : h ≤ d.latest := (hk.ordered.live h hlive).2.1
    have hhandle : d.phoneCallTimer = some h := by
      obtain hsame | ⟨hhandle, -⟩ := timersWithout_cases q d h
      · exact absurd (hsame.trans harmed) hstop
      · exact hhandle
    obtain hs | hb := settled_or_busy_of_deleting hk hok (.inl hc) hhandle harmed
    · by_cases heq : h = d.latest
      · left
        obtain hzero | hmem := hs
        · omega
        · exact heq ▸ hmem
      · right
        omega
    · exact .inr (hb.lt hk.ordered hlive)
  | _ => exact absurd harmed hstop

private theorem step_stopped {d : Dialler} {l : CallStep} {h : Nat} (hk : d.Kept)
    (hok : d.Orderly l) (harmed : d.timer h = .armed) (hstop : (d.step l).timer h ≠ .armed) :
    l = .expire h ∨ h ∈ d.dialled ∨ h < d.latest := by
  cases l with
  | onFunctionCall parameterList =>
    simp only [step, onFunctionCall] at hstop
    cases hr : d.request <;> rw [hr] at hstop <;> exact absurd harmed hstop
  | request w => exact .inr (.inr ((bodadianhua_step w d).stopped hk.ordered harmed hstop))
  | expire h' =>
    left
    simp only [step, expire] at hstop
    split at hstop
    · by_cases heq : h = h'
      · rw [heq]
      · exact absurd ((Function.update_of_ne heq ..).trans harmed) hstop
    · exact absurd harmed hstop
  | callback q m => exact .inr ((phoneCallTimerCallback_step q m d).stopped hk hok harmed hstop)
  | deleted h' =>
    simp only [step, deleted] at hstop
    split at hstop
    · next hdeleting =>
      by_cases heq : h = h'
      · rw [← heq, harmed] at hdeleting
        exact absurd hdeleting.2 (by decide)
      · exact absurd ((Function.update_of_ne heq ..).trans harmed) hstop
    · exact absurd harmed hstop

private theorem Kept.atRest {d : Dialler} (hk : d.Kept) (hr : d.request = .idle)
    (hc : d.callback = .idle) (harmed : ∀ h, d.timer h ≠ .armed) : d.Settled := by
  obtain hs | hb | ⟨-, hlast⟩ := promised_of_idle hk hc
  · exact hs
  · exact absurd hr hb.1
  · exact absurd hlast (harmed _)

private theorem step_follows {d : Dialler} {l : CallStep} (hk : d.Kept) (hok : d.Orderly l) :
    d.Follows l where
  call number hcall := by
    obtain hsame | ⟨hplaced, hwaiting⟩ := step_calls hk l
    · simp [hsame] at hcall
    · obtain ⟨hpast, hstored, -⟩ := hwaiting
      have heq : d.phoneNumber = number := by
        rw [hplaced] at hcall
        exact (List.cons.inj hcall).1
      refine ⟨heq ▸ hstored, ?_, fun hmem => hpast (.inr hmem)⟩
      exact Nat.pos_of_ne_zero fun hzero => hpast (.inl hzero)
  quiet w hl hother := by
    subst hl
    have hb : ¬ d.Busy := fun hb => hother hb.2
    obtain ⟨pc, hstep⟩ | ⟨f, rest, number, -, -, hstep⟩ :=
      (bodadianhua_step w d).not_busy hk.ordered hb
    · simp only [step, hstep, and_self]
    · simp only [step, hstep, determine, and_self]
  stopped h harmed hstop := step_stopped hk hok harmed hstop
  answered h q m hc hl hdue := by
    have howes := hk.owes hdue
    rw [hc] at howes
    exact howes
  atRest hr hc harmed := (step_kept hk hok).atRest hr hc harmed

/-- A world in which everything is there; `mixture` is what the array holds for a moment. -/
def allThere (mixture : Option Text) : CallWorld := ⟨.off, true, true, true, mixture⟩

/-- A request for 10086, up to the start of its timer; the number is seen half written once. -/
def scheduled : List CallStep :=
  .onFunctionCall [.object (some (.string "10086".toList)) none] ::
    .request (allThere none) :: .request (allThere (some "100".toList)) ::
      List.replicate 13 (.request (allThere none))

/-- The request is followed by the expiry of its timer and the whole callback. -/
def dialledOnce : List CallStep :=
  scheduled ++ .expire 1 :: List.replicate 14 (.callback true none)

/-- Before the timer expires, another request names a contact that the book does not hold. -/
def unknownContact : List CallStep :=
  scheduled ++ .onFunctionCall [.object none (some (.string "nobody".toList))] ::
    List.replicate 7 (.request (allThere none))

end Dialler

end Leyu
