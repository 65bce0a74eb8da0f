import Leyu.Rndis.Link

/-!
# Rules for the task of the driver

What a control message keeps while others go on, and what its result says of the answers that were
given. A response that arrives may also say something of the moment (`Heard`), as long as others
keep that. A turn that is safe is safe in the run of task and callbacks.
-/

namespace Leyu

open Framework Routine

/-- What others do to the state. -/
def Rndis.Disturbed (s s' : Rndis) : Prop := s' = s.callback ∨ s' = s.requestStop

/-- What does not speak of the numbers that the control messages count and keep. -/
structure Framed (rely : Rndis → Rndis → Prop) (I : Rndis → Prop) : Prop where
  stable : Stable rely I
  requestId : ∀ s id, I s → I { s with requestId := id }
  transfer : ∀ s pkts size, I s → I { s with maxTransferPkts := pkts, maxTransferSize := size }

/-- Whoever gets a response knows this of the moment. -/
structure Hears (rely : Rndis → Rndis → Prop) (answered : Rndis → (r : RndisControl) → r.Answer → Prop)
    (Heard : Rndis → Prop) : Prop where
  stable : Stable rely Heard
  heard : ∀ s query resp, answered s (.receive query) (some resp) → Heard s

section Results

variable (I : Rndis → Prop) (answered : Rndis → (r : RndisControl) → r.Answer → Prop)

/-- Some request has been answered so, in a state of which this holds. -/
def Given (r : RndisControl) (answer : r.Answer) : Prop := ∃ s, I s ∧ answered s r answer

/-- The result of a query and the answers that have led to it. -/
def Queried (oid queryLen : UInt32) (info : Bytes) : Option (Bytes × Nat) → Prop
  | none => (∃ data id, Given I answered (.send (rndisQueryMsg data id oid queryLen)) false) ∨
      Given I answered (.receive (some ⟨oid, info.length⟩)) none
  | some result => (∃ data id, Given I answered (.send (rndisQueryMsg data id oid queryLen)) true) ∧
      ∃ resp, Given I answered (.receive (some ⟨oid, info.length⟩)) (some resp) ∧
        result = (copyInformation resp info, informationLength resp)

end Results

variable {rely may : Rndis → Rndis → Prop} {answered : Rndis → (r : RndisControl) → r.Answer → Prop}
  {I Heard : Rndis → Prop}

private theorem stable_and_const (hI : Stable rely I) (fact : Prop) :
    Stable rely fun s => I s ∧ fact :=
  fun s s' hs h => ⟨hI s s' hs h.1, h.2⟩

private theorem Hears.stable_and (hH : Hears rely answered Heard) (hI : Stable rely I)
    (fact heard : Prop) : Stable rely fun s => I s ∧ fact ∧ (heard → Heard s) :=
  fun s s' hs h => ⟨hI s s' hs h.1, h.2.1, fun hheard => hH.stable s s' hs (h.2.2 hheard)⟩

namespace RndisRoutine

private theorem safe_nextRequestId (hI : Framed rely I) {s : Rndis} (h : I s) :
    Safe rely may answered (fun _ => I) nextRequestId s := by
  apply Safe.seq (M := fun _ => I)
  · exact safe_current hI.stable (fun _ => hI.stable) (fun _ hs => hs) h
  · intro rndis s hs
    apply Safe.seq (M := fun _ => I)
    · exact safe_modify hI.stable hI.stable (fun s hs _ => hI.requestId s _ hs) hs
    · exact fun _ s hs => safe_return hI.stable hs

theorem safe_array (hI : Framed rely I) (size : Nat) {s : Rndis} (h : I s) :
    Safe rely may answered (fun _ => I) (array size) s :=
  safe_request (α := RndisControl.Answer) (r := .array size) hI.stable (fun _ => hI.stable)
    (fun _ _ hs _ => hs) h

private theorem safe_send (hI : Framed rely I) (message : Bytes) {s : Rndis} (h : I s) :
    Safe rely may answered (fun (sent : Bool) s => I s ∧ Given I answered (.send message) sent)
      (send message) s :=
  safe_request (α := RndisControl.Answer) (r := .send message) hI.stable
    (fun _ => stable_and_const hI.stable _) (fun s _ hs hanswer => ⟨hs, s, hs, hanswer⟩) h

private theorem safe_receive (hI : Framed rely I) (hH : Hears rely answered Heard)
    (query : Option RndisQuery) {s : Rndis} (h : I s) :
    Safe rely may answered (fun (resp : Option RndisBuffer) s => I s ∧ Given I answered (.receive query) resp ∧
      (resp ≠ none → Heard s)) (receive query) s := by
  apply safe_request (α := RndisControl.Answer) (r := .receive query) hI.stable
    (fun _ => hH.stable_and hI.stable _ _) _ h
  intro s resp hs hanswer
  refine ⟨hs, ⟨s, hs, hanswer⟩, ?_⟩
  intro hsome
  obtain ⟨resp, rfl⟩ := Option.ne_none_iff_exists'.mp hsome
  exact hH.heard s query resp hanswer

private theorem safe_sendRetry (hI : Framed rely I) (message : Bytes) (tries : Nat) {s : Rndis}
    (h : I s) :
    Safe rely may answered (fun (sent : Bool) s => I s ∧ Given I answered (.send message) sent)
      (sendRetry message (tries + 1)) s := by
  induction tries generalizing s with
  | zero =>
    apply (safe_send hI message h).seq
    intro sent s hs
    cases sent <;> exact safe_pure (stable_and_const hI.stable _) hs
  | succ tries ih =>
    apply (safe_send hI message h).seq
    intro sent s hs
    cases sent with
    | false => exact ih hs.1
    | true => exact safe_pure (stable_and_const hI.stable _) hs

private theorem safe_receiveRetry (hI : Framed rely I) (hH : Hears rely answered Heard)
    (query : Option RndisQuery) (tries : Nat) {s : Rndis} (h : I s) :
    Safe rely may answered (fun (resp : Option RndisBuffer) s => I s ∧ Given I answered (.receive query) resp ∧
      (resp ≠ none → Heard s)) (receiveRetry query (tries + 1)) s := by
  induction tries generalizing s with
  | zero =>
    apply (safe_receive hI hH query h).seq
    intro resp s hs
    cases resp <;> exact safe_pure (hH.stable_and hI.stable _ _) hs
  | succ tries ih =>
    apply (safe_receive hI hH query h).seq
    intro resp s hs
    cases resp with
    | none => exact ih hs.1
    | some resp => exact safe_pure (hH.stable_and hI.stable _ _) hs

theorem safe_queryMsgRequest (hI : Framed rely I) (hH : Hears rely answered Heard)
    (oid queryLen : UInt32) (info : Bytes) {s : Rndis} (h : I s) :
    Safe rely may answered (fun result s => I s ∧ Queried I answered oid queryLen info result ∧
      (result ≠ none → Heard s)) (queryMsgRequest oid queryLen info) s := by
  apply (safe_array hI 256 h).seq
  intro data s hs
  apply (safe_nextRequestId hI hs).seq
  intro id s hs
  apply (safe_sendRetry hI _ 2 hs).seq
  rintro sent s ⟨hs, hsent⟩
  have hstable (result : Option (Bytes × Nat)) :=
    hH.stable_and hI.stable (Queried I answered oid queryLen info result) (result ≠ none)
  cases sent with
  | false => exact safe_pure (hstable none) ⟨hs, .inl ⟨data, id, hsent⟩, fun h => absurd rfl h⟩
  | true =>
    rw [if_pos rfl]
    apply (safe_receiveRetry hI hH _ 2 hs).seq
    rintro resp s ⟨hs, hresp, hheard⟩
    cases resp with
    | none => exact safe_pure (hstable none) ⟨hs, .inr hresp, fun h => absurd rfl h⟩
    | some resp =>
      dsimp only
      split
      · exact safe_pure (hstable (some _))
          ⟨hs, ⟨⟨data, id, hsent⟩, resp, hresp, rfl⟩, fun _ => hheard (by simp)⟩
      · exact safe_fault

theorem safe_initMsgRequest (hI : Framed rely I) (hH : Hears rely answered Heard) {s : Rndis}
    (h : I s) :
    Safe rely may answered (fun done s => I s ∧ (done = false → Given I answered (.receive none) none))
      initMsgRequest s := by
  apply (safe_nextRequestId hI h).seq
  intro id s hs
  apply (safe_send hI _ hs).seq
  intro sent s hs
  apply (safe_receive hI hH none hs.1).seq
  rintro resp s ⟨hs, hresp, -⟩
  cases resp with
  | none => exact safe_pure (stable_and_const hI.stable _) ⟨hs, fun _ => hresp⟩
  | some resp =>
    apply Safe.seq (M := fun _ => I)
    · exact safe_modify hI.stable hI.stable (fun s hs _ => hI.transfer s _ _ hs) hs
    · exact fun _ s hs => safe_pure (stable_and_const hI.stable _) ⟨hs, fun hfalse => by cases hfalse⟩

theorem safe_setMsgRequest (hI : Framed rely I) (hH : Hears rely answered Heard) (oid : UInt32)
    (info : Bytes) {s : Rndis} (h : I s) :
    Safe rely may answered (fun done s => I s ∧
      (done = false → Given I answered (.receive none) none) ∧ (done = true → Heard s))
      (setMsgRequest oid info) s := by
  apply (safe_nextRequestId hI h).seq
  intro id s hs
  apply (safe_send hI _ hs).seq
  intro sent s hs
  apply (safe_receive hI hH none hs.1).seq
  rintro resp s ⟨hs, hresp, hheard⟩
  cases resp with
  | none =>
    exact safe_pure (hH.stable_and hI.stable _ _) ⟨hs, fun _ => hresp, fun hfalse => by cases hfalse⟩
  | some resp =>
    exact safe_pure (hH.stable_and hI.stable _ _)
      ⟨hs, (fun hfalse => by cases hfalse), fun _ => hheard (by simp)⟩

theorem safe_keepalive (hI : Framed rely I) (hH : Hears rely answered Heard) {s : Rndis} (h : I s) :
    Safe rely may answered (fun _ => I) keepalive s := by
  apply (safe_nextRequestId hI h).seq
  intro id s hs
  apply (safe_sendRetry hI _ 2 hs).seq
  rintro sent s ⟨hs, -⟩
  cases sent with
  | false => exact safe_return hI.stable hs
  | true =>
    apply (safe_receiveRetry hI hH none 2 hs).seq
    exact fun resp s hs => safe_return hI.stable hs.1

end RndisRoutine

/-- What a turn ends in, if it ends in a wait. -/
def EndsIn (P : RndisCounters → Rndis → Prop) : Option RndisCounters → Rndis → Prop
  | some counters, s => P counters s
  | none, _ => True

namespace RndisLink

variable {P : RndisCounters → Rndis → Prop}

section

variable (rely may : Rndis → Rndis → Prop)
  (answered : Rndis → (r : RndisControl) → r.Answer → Prop)

/-- The task waits with this, or what is left of its turn leads to it. -/
def Keeps (P : RndisCounters → Rndis → Prop) (s : RndisLink) : Prop :=
  match s.task with
  | .waiting counters => P counters s.rndis
  | .running routine => Safe rely may answered (EndsIn P) routine s.rndis
  | .exited => True

end

private theorem keeps_ofRoutine {routine : RndisRoutine (Option RndisCounters)} {rndis : Rndis}
    (h : Safe rely may answered (EndsIn P) routine rndis) :
    Keeps rely may answered P ⟨rndis, .ofRoutine routine⟩ := by
  cases routine with
  | done result =>
    cases result with
    | none => trivial
    | some counters => exact h.result
  | fault => exact h
  | act f next => exact h
  | ask r next => exact h

theorem Keeps.disturb {s : RndisLink} (h : s.Keeps rely may answered P)
    (hP : ∀ counters, Stable rely (P counters)) {rndis : Rndis} (hs : rely s.rndis rndis) :
    Keeps rely may answered P ⟨rndis, s.task⟩ := by
  obtain ⟨rndis', task⟩ := s
  cases task with
  | waiting counters => exact hP counters _ _ hs h
  | running routine => exact h.later (.single hs)
  | exited => trivial

theorem Keeps.taskStep {Q : RndisCounters → Rndis → Prop} {s : RndisLink}
    (h : s.Keeps rely may answered P) {device : (r : RndisControl) → r.Answer}
    (hwake : ∀ counters, s.task = .waiting counters → P counters s.rndis →
      Safe rely may answered (EndsIn Q) (RndisRoutine.turn counters s.rndis.events)
        { s.rndis with events := .none })
    (hgoes : (∀ counters, s.task ≠ .waiting counters) → P = Q)
    (hanswers : ∀ r, answered s.rndis r (s.rndis.answer device r))
    (hmay : may s.rndis (s.taskStep device).rndis) :
    (s.taskStep device).Keeps rely may answered Q := by
  obtain ⟨rndis, task⟩ := s
  cases task with
  | exited => trivial
  | waiting counters => exact keeps_ofRoutine (hwake counters rfl h)
  | running routine =>
    obtain rfl := hgoes fun counters hwaiting => by cases hwaiting
    exact keeps_ofRoutine (Routine.Safe.step h hanswers hmay)

end RndisLink

end Leyu
