import Leyu.Call.DialTimers

/-!
# The cell of the number

`s_phone_number` and `s_pending_phone_call` are a cell with room for one number. The branch
`bodadianhua` fills it and then arms a timer, and the callback of the timer, or the branch itself
where there is no timer, dials the number and empties the cell. What the cell holds is a table
over where the two tasks are between filling and emptying it.
-/

namespace Leyu

open Framework

/-- Where a task is between filling the cell and emptying it. -/
inductive Phase
  | apart
  | copying
  | writing
  | dialling
  | dialled
  | cleared

namespace RequestPc

def phase : RequestPc → Phase
  | copying .. => .copying
  | setPending _ => .writing
  | readNumber .. => .dialling
  | clearPending _ => .dialled
  | clearNumber _ | deleteOwn | resetOwn => .cleared
  | _ => .apart

/-- The number being copied. -/
def number? : RequestPc → Option Text
  | copying number _ => some number
  | _ => none

/-- What `at_make_phone_call` has read. -/
def read? : RequestPc → Option Text
  | readNumber _ read => some read
  | _ => none

private theorem phase_of_read? {pc : RequestPc} {read : Text} (h : pc.read? = some read) :
    pc.phase = .dialling := by
  cases pc with
  | readNumber => rfl
  | _ => cases h

end RequestPc

namespace CallbackPc

def phase : CallbackPc → Phase
  | measuring _ | calling _ | reading .. => .dialling
  | clearing _ => .dialled
  | clearingNumber _ => .cleared
  | _ => .apart

def read? : CallbackPc → Option Text
  | reading _ read => some read
  | _ => none

private theorem phase_of_read? {pc : CallbackPc} {read : Text} (h : pc.read? = some read) :
    pc.phase = .dialling := by
  cases pc with
  | reading => rfl
  | _ => cases h

private theorem Apart.phase {pc : CallbackPc} (h : pc.Apart) : pc.phase = .apart := by
  cases pc with
  | idle | entered | leaving | deleting | resetting => rfl
  | measuring | calling | reading | clearing | clearingNumber => exact h.elim

end CallbackPc

namespace Dialler

def Settled (d : Dialler) : Prop := d.latest = 0 ∨ d.latest ∈ d.dialled

/-- The last number determined is the one stored, and it has not been dialled. -/
def Waiting (d : Dialler) : Prop :=
  ¬ d.Settled ∧ d.phoneNumber = d.latestNumber ∧ d.phoneNumber ≠ []

/-- What the cell holds, over the phases of the branch and of the callback. -/
def Holds (d : Dialler) : Phase → Phase → Prop
  | .apart, .apart => d.pendingPhoneCall = true ∧ d.Waiting ∨ d.pendingPhoneCall = false ∧ d.Settled
  | .copying, .apart => ¬ d.Settled
  | .writing, .apart =>
      d.Waiting ∨ d.Settled ∧ d.pendingPhoneCall = false ∧ d.phoneNumber = []
  | .dialling, .apart | .apart, .dialling | .writing, .dialling =>
      d.pendingPhoneCall = true ∧ d.Waiting
  | .dialled, .apart | .apart, .dialled | .writing, .dialled =>
      d.pendingPhoneCall = true ∧ d.Settled
  | .cleared, .apart | .apart, .cleared | .writing, .cleared =>
      d.pendingPhoneCall = false ∧ d.Settled
  | _, _ => False

/-- The cell agrees with the phases, the number being copied is the one last determined and fits the
array, and what has been read of it is a front part of what it holds. -/
structure Agrees (d : Dialler) : Prop where
  holds : d.Holds d.request.phase d.callback.phase
  copies : ∀ number, d.request.number? = some number →
    number = d.latestNumber ∧ number ≠ [] ∧ number.length ≤ 31
  reads : ∀ read, d.request.read? = some read ∨ d.callback.read? = some read →
    read <+: d.phoneNumber

/-- Where the callback lets a number be written, a flag that is set stands for a number that has not
been dialled. -/
theorem Holds.waiting_of_set {d : Dialler} (h : d.Holds .apart .apart)
    (hset : d.pendingPhoneCall = true) : d.Waiting := by
  have hnot : d.pendingPhoneCall ≠ false := by simp [hset]
  exact (h.resolve_right fun hclear => hnot hclear.1).2

/-- Over the two tasks, a callback on its way from the call to the empty cell leaves the branch
either apart or about to set the flag. -/
theorem Holds.move {d d' : Dialler} {p q q' : Phase} (h : d.Holds p q)
    (hq : q ≠ .apart) (hapart : d.Holds .apart q → d'.Holds .apart q')
    (hwriting : d.Holds .writing q → d'.Holds .writing q') : d'.Holds p q' := by
  cases p with
  | apart => exact hapart h
  | writing => exact hwriting h
  | copying | dialling | dialled | cleared =>
    cases q with
    | apart => exact absurd rfl hq
    | copying | writing | dialling | dialled | cleared => exact h.elim

theorem Holds.waiting {d : Dialler} {p : Phase} (h : d.Holds p .dialling) : d.Waiting := by
  cases p with
  | apart | writing => exact h.2
  | copying | dialling | dialled | cleared => exact h.elim

theorem Holds.settled {d : Dialler} {p q : Phase} (h : d.Holds p q)
    (hq : q = .dialled ∨ q = .cleared) : d.Settled := by
  obtain rfl | rfl := hq
  · cases p with
    | apart | writing => exact h.2
    | copying | dialling | dialled | cleared => exact h.elim
  · cases p with
    | apart | writing => exact h.2
    | copying | dialling | dialled | cleared => exact h.elim

theorem Holds.apart_of_branch {d : Dialler} {p q : Phase} (h : d.Holds p q)
    (hp : p = .copying ∨ p = .dialling ∨ p = .dialled ∨ p = .cleared) : q = .apart := by
  obtain rfl | rfl | rfl | rfl := hp
  · cases q with
    | apart => rfl
    | copying | writing | dialling | dialled | cleared => exact h.elim
  · cases q with
    | apart => rfl
    | copying | writing | dialling | dialled | cleared => exact h.elim
  · cases q with
    | apart => rfl
    | copying | writing | dialling | dialled | cleared => exact h.elim
  · cases q with
    | apart => rfl
    | copying | writing | dialling | dialled | cleared => exact h.elim

private theorem Agrees.no_read {d : Dialler} (ha : d.Agrees)
    (hp : d.request.phase = .copying ∨ d.request.phase = .cleared) (read : Text) :
    ¬ (d.request.read? = some read ∨ d.callback.read? = some read) := by
  rintro (hread | hread)
  · rw [RequestPc.phase_of_read? hread] at hp
    simp at hp
  · have hapart := ha.holds.apart_of_branch (hp.imp_right fun h => .inr (.inr h))
    rw [CallbackPc.phase_of_read? hread] at hapart
    cases hapart

section

variable {d d' : Dialler}

theorem Agrees.callback (ha : d.Agrees) (hr : d'.request = d.request)
    (hn : d'.phoneNumber = d.phoneNumber) (hl : d'.latestNumber = d.latestNumber)
    (hholds : d'.Holds d.request.phase d'.callback.phase)
    (hread : ∀ read, d'.callback.read? = some read → read <+: d.phoneNumber) : d'.Agrees := by
  refine ⟨hr ▸ hholds, ?_, ?_⟩
  · rw [hr, hl]
    exact ha.copies
  · rw [hr, hn]
    rintro read (h | h)
    · exact ha.reads read (.inl h)
    · exact hread read h

private theorem waiting_of_tested {q : Bool} {m : Option Text} {h : Nat} (ha : d.Agrees)
    (hok : d.Orderly (.callback q m)) (hc : d.callback = .entered h)
    (hset : d.pendingPhoneCall = true) : d.Holds d.request.phase .dialling := by
  have hnot : d.pendingPhoneCall ≠ false := by simp [hset]
  have hholds := ha.holds
  simp only [Orderly, hc] at hok
  have hhandles := hok hset
  rw [hc] at hholds
  cases hr : d.request with
  | idle | fields | announcing | testTimer | deleteTimer | resetTimer | createTimer | testCreated
  | startTimer | dialDirect =>
    rw [hr] at hholds
    exact hholds.resolve_right fun h => hnot h.1
  | setPending rest =>
    rw [hr] at hholds
    exact ⟨hset, hholds.resolve_right fun h => hnot h.2.1⟩
  | copying | readNumber | clearPending =>
    rw [hr] at hhandles
    exact absurd trivial hhandles
  | clearNumber | deleteOwn | resetOwn =>
    rw [hr] at hholds
    exact absurd hholds.1 hnot

private theorem CallbackMove.agrees {q : Bool} {m : Option Text} {pc : CallbackPc}
    (hm : CallbackMove d pc) (ha : d.Agrees) (hok : d.Orderly (.callback q m)) :
    Agrees { d with callback := pc } := by
  have hholds := ha.holds
  cases hm with
  | tested hc hset =>
    have hwaiting := waiting_of_tested ha hok hc hset
    exact ha.callback rfl rfl rfl hwaiting fun read h => nomatch h
  | skipped hc | hasTimer hc | noTimer hc =>
    rw [hc] at hholds
    exact ha.callback rfl rfl rfl hholds fun read h => nomatch h
  | measured hc hne =>
    rw [hc] at hholds
    exact ha.callback rfl rfl rfl hholds fun read h => nomatch h
  | empty hc hn | refused hc hn =>
    rw [hc] at hholds
    exact absurd hn hholds.waiting.2.2
  | called hc hne =>
    rw [hc] at hholds
    refine ha.callback rfl rfl rfl hholds fun read h => ?_
    obtain rfl : [] = read := by simpa [CallbackPc.read?] using h
    exact List.nil_prefix
  | @read h front x hc hx =>
    have hfront := ha.reads front (.inr (by rw [hc]; rfl))
    rw [hc] at hholds
    refine ha.callback rfl rfl rfl hholds fun read hread => ?_
    obtain rfl : front ++ [x] = read := by simpa [CallbackPc.read?] using hread
    exact prefix_next hfront hx

/-- The callback clears the array: only a branch that is apart, or about to set the flag, is beside
it, and neither reads it. -/
theorem Agrees.emptied (ha : d.Agrees) (hq : d.callback.phase = .cleared) (t : Text)
    {pc : CallbackPc} (hread : pc.read? = none)
    (hholds : Holds { d with phoneNumber := t } d.request.phase pc.phase) :
    Agrees { d with phoneNumber := t, callback := pc } := by
  refine ⟨hholds, ha.copies, ?_⟩
  rintro read (h | h)
  · have hbeside := ha.holds
    rw [RequestPc.phase_of_read? h, hq] at hbeside
    exact hbeside.elim
  · rw [hread] at h
    cases h

theorem CallbackStep.agrees {q : Bool} {m : Option Text} (hstep : CallbackStep q d d')
    (ha : d.Agrees) (hok : d.Orderly (.callback q m)) : d'.Agrees := by
  have hholds := ha.holds
  cases hstep with
  | idle hc => exact ha
  | moved hm => exact hm.agrees ha hok
  | @dialled h read hc =>
    have hsettled : (d.placeCall read).Settled := .inr List.mem_cons_self
    rw [hc] at hholds
    have hnext : (d.placeCall read).Holds d.request.phase .dialled :=
      hholds.move Phase.noConfusion (fun h => ⟨h.1, hsettled⟩) (fun h => ⟨h.1, hsettled⟩)
    exact ha.callback rfl rfl rfl hnext fun read h => nomatch h
  | flagCleared hc =>
    rw [hc] at hholds
    have hnext : Holds { d with pendingPhoneCall := false } d.request.phase .cleared :=
      hholds.move Phase.noConfusion (fun h => ⟨rfl, h.2⟩) (fun h => ⟨rfl, h.2⟩)
    exact ha.callback rfl rfl rfl hnext fun read h => nomatch h
  | mixed t hc =>
    rw [hc] at hholds
    have hnext : Holds { d with phoneNumber := t } d.request.phase .cleared :=
      hholds.move Phase.noConfusion id id
    exact ha.emptied (by rw [hc]; rfl) t rfl hnext
  | numberCleared hc =>
    rw [hc] at hholds
    have hnext : Holds { d with phoneNumber := [] } d.request.phase .apart :=
      hholds.move Phase.noConfusion (fun h => .inr h) (fun h => .inr ⟨h.2, h.1, rfl⟩)
    exact ha.emptied (by rw [hc]; rfl) [] rfl hnext
  | timerDeleted hc | timerReset hc =>
    rw [hc] at hholds
    exact ha.callback rfl rfl rfl hholds fun read h => nomatch h

theorem Agrees.branch (ha : d.Agrees) (hc : d'.callback = d.callback)
    (hn : d'.phoneNumber = d.phoneNumber) (hcopy : d'.request.number? = none)
    (hholds : d'.Holds d'.request.phase d.callback.phase)
    (hread : ∀ read, d'.request.read? = some read → read <+: d.phoneNumber) : d'.Agrees := by
  refine ⟨hc ▸ hholds, ?_, ?_⟩
  · intro number h
    rw [hcopy] at h
    cases h
  · rw [hc, hn]
    rintro read (h | h)
    · exact hread read h
    · exact ha.reads read (.inr h)

private theorem Agrees.stored (ha : d.Agrees)
    (hp : d.request.phase = .copying ∨ d.request.phase = .cleared) (hc : d'.callback = d.callback)
    (hread : d'.request.read? = none) (hholds : d'.Holds d'.request.phase .apart)
    (hcopy : ∀ number, d'.request.number? = some number →
      number = d'.latestNumber ∧ number ≠ [] ∧ number.length ≤ 31) : d'.Agrees := by
  have hapart := ha.holds.apart_of_branch (hp.imp_right fun h => .inr (.inr h))
  refine ⟨by rw [hc, hapart]; exact hholds, hcopy, ?_⟩
  rintro read (h | h)
  · rw [hread] at h
    cases h
  · rw [hc] at h
    exact absurd (.inr h) (ha.no_read hp read)

private theorem requests_fresh {w : CallWorld} {f : CallField} {rest : List CallField}
    {number : Text} (ho : d.Ordered) (ha : d.Agrees) (hr : d.request = .fields (f :: rest))
    (hn : f.number w.book = some number) (hok : d.Orderly (.request w)) :
    0 < d.requests ∧ d.requests ∉ d.dialled := by
  have hholds := ha.holds
  have hidle : d.request ≠ .idle := by simp [hr]
  refine ⟨ho.begun hidle, ?_⟩
  intro hmem
  have hle : d.requests ≤ d.latest := ho.dialled _ hmem
  have heq : d.latest = d.requests := le_antisymm ho.latest hle
  simp only [Orderly, hr] at hok
  obtain ⟨-, -, hpending, hlets⟩ := hok number hn
  rw [hr, hlets.apart.phase] at hholds
  have hwaiting : d.Waiting := hholds.waiting_of_set (hpending heq)
  apply hwaiting.1
  right
  rw [heq]
  exact hmem

private theorem determined_agrees {w : CallWorld} {f : CallField} {rest : List CallField}
    {number : Text} (ho : d.Ordered) (ha : d.Agrees) (hr : d.request = .fields (f :: rest))
    (hn : f.number w.book = some number) (hok : d.Orderly (.request w)) :
    Agrees { d.determine number with request := .copying number rest } := by
  obtain ⟨hpos, hfresh⟩ := requests_fresh ho ha hr hn hok
  simp only [Orderly, hr] at hok
  obtain ⟨hne, hlength, -, hlets⟩ := hok number hn
  have hnew : ¬ (d.determine number).Settled := by
    rintro (hzero | hmem)
    · exact absurd hzero hpos.ne'
    · exact hfresh hmem
  refine ⟨?_, ?_, ?_⟩
  · show Holds (d.determine number) .copying d.callback.phase
    rw [hlets.apart.phase]
    exact hnew
  · intro n hcopy
    obtain rfl : number = n := by simpa [RequestPc.number?] using hcopy
    exact ⟨rfl, hne, hlength⟩
  · rintro read (h | h)
    · cases h
    · have hreading : d.callback.phase = .dialling := CallbackPc.phase_of_read? h
      rw [hlets.apart.phase] at hreading
      cases hreading

private theorem flagged_agrees {w : CallWorld} {rest : List CallField} (ha : d.Agrees)
    (hr : d.request = .setPending rest) (hok : d.Orderly (.request w)) :
    Agrees { d with pendingPhoneCall := true, request := .fields rest } := by
  have hholds := ha.holds
  simp only [Orderly, hr] at hok
  refine ha.branch rfl rfl rfl ?_ ?_
  · show Holds { d with pendingPhoneCall := true } .apart d.callback.phase
    rw [hr] at hholds
    cases hc : d.callback with
    | idle | entered | leaving | deleting | resetting =>
      rw [hc] at hholds
      exact .inl ⟨rfl, hholds.resolve_right fun h => hok.1 h.2.2⟩
    | measuring | calling | reading | clearing =>
      rw [hc] at hholds
      exact ⟨rfl, hholds.2⟩
    | clearingNumber h =>
      rw [hc] at hok
      exact absurd trivial hok.2
  · intro read h
    cases h

private theorem waiting_of_dialDirect {w : CallWorld} {created : Bool} (ha : d.Agrees)
    (hr : d.request = .dialDirect created) (hok : d.Orderly (.request w)) :
    d.callback.phase = .apart ∧ d.pendingPhoneCall = true ∧ d.Waiting := by
  have hholds := ha.holds
  simp only [Orderly, hr] at hok
  rw [hr, hok.2.phase] at hholds
  exact ⟨hok.2.phase, hok.1, hholds.waiting_of_set hok.1⟩

private theorem RequestMove.agrees {w : CallWorld} {pc : RequestPc} (hm : RequestMove w d pc)
    (ha : d.Agrees) (hok : d.Orderly (.request w)) : Agrees { d with request := pc } := by
  have hholds := ha.holds
  cases hm with
  | passed hr | tested hr | silent hr | spelt hr | hasTimer hr | noTimer hr | created hr
  | notCreated hr | notStarted hr =>
    rw [hr] at hholds
    exact ha.branch rfl rfl rfl hholds fun read h => nomatch h
  | refused hr hn => exact absurd hn (waiting_of_dialDirect ha hr hok).2.2.2.2
  | @dials created hr hne =>
    obtain ⟨hapart, hset, hwaiting⟩ := waiting_of_dialDirect ha hr hok
    have hnext : d.Holds .dialling d.callback.phase := by
      rw [hapart]
      exact ⟨hset, hwaiting⟩
    refine ha.branch rfl rfl rfl hnext fun read h => ?_
    obtain rfl : [] = read := by simpa [RequestPc.read?] using h
    exact List.nil_prefix
  | @read created front x hr hx =>
    have hfront := ha.reads front (.inl (by rw [hr]; rfl))
    rw [hr] at hholds
    refine ha.branch rfl rfl rfl hholds fun read hread => ?_
    obtain rfl : front ++ [x] = read := by simpa [RequestPc.read?] using hread
    exact prefix_next hfront hx

theorem BodadianhuaStep.agrees {w : CallWorld} (hstep : BodadianhuaStep w d d')
    (ho : d.Ordered) (ha : d.Agrees) (hok : d.Orderly (.request w)) : d'.Agrees := by
  have hholds := ha.holds
  cases hstep with
  | idle hr => exact ha
  | moved hm => exact hm.agrees ha hok
  | determined hr hn => exact determined_agrees ho ha hr hn hok
  | @mixed number rest t hr =>
    have hphase : d.request.phase = .copying := by rw [hr]; rfl
    have hnot : ¬ d.Settled := by
      rw [hholds.apart_of_branch (.inl hphase), hphase] at hholds
      exact hholds
    refine ha.stored (.inl hphase) rfl rfl hnot ?_
    intro n hcopy
    exact ha.copies n (by rw [hr]; exact hcopy)
  | @copied number rest hr =>
    have hphase : d.request.phase = .copying := by rw [hr]; rfl
    have hnot : ¬ d.Settled := by
      rw [hholds.apart_of_branch (.inl hphase), hphase] at hholds
      exact hholds
    obtain ⟨hlatest, hne, hlength⟩ := ha.copies number (by rw [hr]; rfl)
    have hstored : storedNumber number = number := List.take_of_length_le hlength
    refine ha.stored (.inl hphase) rfl rfl (.inl ⟨hnot, ?_, ?_⟩) fun n h => nomatch h
    · show storedNumber number = d.latestNumber
      rw [hstored, hlatest]
    · show storedNumber number ≠ []
      rw [hstored]
      exact hne
  | flagged hr => exact flagged_agrees ha hr hok
  | announced hr | timerDeleted hr | timerReset hr | timerCreated hr | started hr =>
    rw [hr] at hholds
    exact ha.branch rfl rfl rfl hholds fun read h => nomatch h
  | @dialled created read hr =>
    have hsettled : (d.placeCall read).Settled := .inr List.mem_cons_self
    rw [hr] at hholds
    have hapart := hholds.apart_of_branch (.inr (.inl rfl))
    have hnext : (d.placeCall read).Holds .dialled d.callback.phase := by
      rw [hapart] at hholds ⊢
      exact ⟨hholds.1, hsettled⟩
    exact ha.branch rfl rfl rfl hnext fun read h => nomatch h
  | flagCleared hr =>
    rw [hr] at hholds
    have hapart := hholds.apart_of_branch (.inr (.inr (.inl rfl)))
    have hnext : Holds { d with pendingPhoneCall := false } .cleared d.callback.phase := by
      rw [hapart] at hholds ⊢
      exact ⟨rfl, hholds.2⟩
    exact ha.branch rfl rfl rfl hnext fun read h => nomatch h
  | mixedClearing t hr =>
    have hphase : d.request.phase = .cleared := by rw [hr]; rfl
    rw [hholds.apart_of_branch (.inr (.inr (.inr hphase))), hphase] at hholds
    exact ha.stored (.inr hphase) rfl rfl hholds fun n h => nomatch h
  | @numberCleared created hr =>
    have hphase : d.request.phase = .cleared := by rw [hr]; rfl
    rw [hholds.apart_of_branch (.inr (.inr (.inr hphase))), hphase] at hholds
    cases created with
    | true => exact ha.stored (.inr hphase) rfl rfl hholds fun n h => nomatch h
    | false => exact ha.stored (.inr hphase) rfl rfl (.inr hholds) fun n h => nomatch h
  | ownDeleted hr =>
    rw [hr] at hholds
    exact ha.branch rfl rfl rfl hholds fun read h => nomatch h
  | ownReset hr =>
    rw [hr] at hholds
    have hapart := hholds.apart_of_branch (.inr (.inr (.inr rfl)))
    refine ha.branch rfl rfl rfl ?_ fun read h => nomatch h
    show Holds { d with phoneCallTimer := none } .apart d.callback.phase
    rw [hapart] at hholds ⊢
    exact .inr hholds

theorem settled_of_clear (ha : d.Agrees) (hr : d.request.phase = .apart)
    (hclear : d.pendingPhoneCall = false) : d.Settled := by
  have hnot : d.pendingPhoneCall ≠ true := by simp [hclear]
  have hholds := ha.holds
  rw [hr] at hholds
  cases hq : d.callback.phase with
  | apart =>
    rw [hq] at hholds
    exact (hholds.resolve_left fun h => hnot h.1).2
  | dialled | dialling =>
    rw [hq] at hholds
    exact absurd hholds.1 hnot
  | cleared =>
    rw [hq] at hholds
    exact hholds.2
  | copying | writing =>
    rw [hq] at hholds
    exact hholds.elim

theorem settled_of_dialled (ha : d.Agrees)
    (hr : d.request.phase = .dialled ∨ d.request.phase = .cleared) : d.Settled := by
  have hholds := ha.holds
  rw [hholds.apart_of_branch (.inr (.inr hr))] at hholds
  rcases hr with hr | hr <;> rw [hr] at hholds <;> exact hholds.2

end

end Dialler

end Leyu
