import Leyu.Rndis.Link

/-!
# Responses that are longer than there is room for

The length in a response is believed. The driver leaves its memory exactly where one of them says
more than the response has or than the array takes that the caller has for it.
-/

namespace Leyu

open Framework

/-- A response whose information the caller cannot copy. -/
def RndisControl.Overlong : (r : RndisControl) → r.Answer → Prop
  | .receive (some query) => fun answer =>
      ∃ resp, answer = some resp ∧ ¬ InformationFits query.room resp
  | .receive none => fun _ => False
  | .send _ => fun _ => False
  | .array _ => fun _ => False

namespace RndisRoutine

open Routine RndisControl

private theorem faultsOn_nextRequestId : FaultsOn Overlong nextRequestId :=
  faultsOn_current.bind fun _ => (faultsOn_modify _).bind fun _ => faultsOn_pure _

private theorem faultsOn_send (message : Bytes) : FaultsOn Overlong (send message) :=
  faultsOn_request (fun _ h => h)

private theorem faultsOn_receive :
    FaultsOn Overlong (receive none) := faultsOn_request (fun _ h => h)

private theorem faultsOn_array (size : Nat) : FaultsOn Overlong (array size) :=
  faultsOn_request (fun _ h => h)

private theorem faultsOn_sendRetry (message : Bytes) (tries : Nat) :
    FaultsOn Overlong (sendRetry message tries) := by
  induction tries with
  | zero => exact faultsOn_pure false
  | succ tries ih =>
    apply (faultsOn_send message).bind
    intro sent
    cases sent with
    | false => exact ih
    | true => exact faultsOn_pure true

private theorem faultsOn_receiveRetry (tries : Nat) :
    FaultsOn Overlong (receiveRetry none tries) := by
  induction tries with
  | zero => exact faultsOn_pure none
  | succ tries ih =>
    apply faultsOn_receive.bind
    intro resp
    cases resp with
    | none => exact ih
    | some resp => exact faultsOn_pure (some resp)

private theorem faultsOn_receiveRetry_bind {ε : Type} {query : RndisQuery}
    {k : Option RndisBuffer → RndisRoutine ε} (hnone : FaultsOn Overlong (k none))
    (hbad : ∀ resp, ¬ InformationFits query.room resp → k (some resp) = fault)
    (hgood : ∀ resp, InformationFits query.room resp → FaultsOn Overlong (k (some resp)))
    (tries : Nat) :
    FaultsOn Overlong (receiveRetry (some query) tries >>= k) := by
  induction tries with
  | zero => exact hnone
  | succ tries ih =>
    apply faultsOn_ask
    · rintro answer ⟨resp, rfl, hresp⟩
      exact hbad resp hresp
    · intro answer hanswer
      cases answer with
      | none => exact ih
      | some resp =>
        apply hgood resp
        by_contra hresp
        exact hanswer ⟨resp, rfl, hresp⟩

private theorem faultsOn_queryMsgRequest (oid queryLen : UInt32) (info : Bytes) :
    FaultsOn Overlong (queryMsgRequest oid queryLen info) := by
  apply (faultsOn_array 256).bind
  intro data
  apply faultsOn_nextRequestId.bind
  intro id
  apply (faultsOn_sendRetry _ 3).bind
  intro sent
  cases sent with
  | false => exact faultsOn_pure none
  | true =>
    rw [if_pos rfl]
    apply faultsOn_receiveRetry_bind
    · exact faultsOn_pure none
    · intro resp hresp
      exact if_neg hresp
    · intro resp hresp
      dsimp only
      rw [if_pos hresp]
      exact faultsOn_pure _

private theorem faultsOn_initMsgRequest : FaultsOn Overlong initMsgRequest := by
  apply faultsOn_nextRequestId.bind
  intro id
  apply (faultsOn_send _).bind
  intro sent
  apply faultsOn_receive.bind
  intro resp
  cases resp with
  | none => exact faultsOn_pure false
  | some resp => exact (faultsOn_modify _).bind fun _ => faultsOn_pure true

private theorem faultsOn_setMsgRequest (oid : UInt32) (info : Bytes) :
    FaultsOn Overlong (setMsgRequest oid info) := by
  apply faultsOn_nextRequestId.bind
  intro id
  apply (faultsOn_send _).bind
  intro sent
  exact faultsOn_receive.bind fun resp => faultsOn_pure resp.isSome

private theorem faultsOn_queryObjects (oids : List UInt32) (data : Bytes) :
    FaultsOn Overlong (queryObjects oids data) := by
  induction oids generalizing data with
  | nil => exact faultsOn_pure true
  | cons oid oids ih =>
    rw [queryObjects]
    split
    · exact ih data
    · apply (faultsOn_queryMsgRequest _ _ data).bind
      intro result
      cases result with
      | none => exact faultsOn_pure false
      | some result => exact (faultsOn_modify _).bind fun _ => ih result.1

private theorem faultsOn_connect : FaultsOn Overlong connect := by
  apply faultsOn_initMsgRequest.bind
  intro ready
  cases ready with
  | false => exact faultsOn_pure false
  | true =>
    apply (faultsOn_array 256).bind
    intro tmpBuffer
    apply (faultsOn_queryMsgRequest _ _ tmpBuffer.val).bind
    intro list
    cases list with
    | none => exact faultsOn_pure false
    | some list =>
      apply (faultsOn_array 32).bind
      intro data
      apply (faultsOn_queryObjects _ data.val).bind
      intro asked
      cases asked with
      | false => exact faultsOn_pure false
      | true =>
        apply (faultsOn_setMsgRequest _ _).bind
        intro filter
        cases filter with
        | false => exact faultsOn_pure false
        | true => exact faultsOn_current.bind fun rndis => faultsOn_setMsgRequest _ rndis.macAddr

private theorem faultsOn_getConnectStatus : FaultsOn Overlong getConnectStatus := by
  apply (faultsOn_array 32).bind
  intro data
  apply (faultsOn_queryMsgRequest _ _ data.val).bind
  intro result
  cases result with
  | none => exact faultsOn_pure false
  | some result =>
    apply faultsOn_current.bind
    intro rndis
    dsimp only
    split
    · exact faultsOn_pure true
    · exact (faultsOn_modify _).bind fun _ => (faultsOn_modify _).bind fun _ => faultsOn_pure true

private theorem faultsOn_keepalive : FaultsOn Overlong keepalive := by
  apply faultsOn_nextRequestId.bind
  intro id
  apply (faultsOn_sendRetry _ 3).bind
  intro sent
  cases sent with
  | false => exact faultsOn_pure false
  | true => exact (faultsOn_receiveRetry 3).bind fun resp => faultsOn_pure resp.isSome

private theorem faultsOn_idle (counters : RndisCounters) : FaultsOn Overlong (idle counters) := by
  have hcheck (counters : RndisCounters) : FaultsOn Overlong (checkStatus counters) := by
    rw [checkStatus]
    split
    · apply faultsOn_getConnectStatus.bind
      intro asked
      cases asked <;> exact faultsOn_pure _
    · exact faultsOn_pure _
  apply (hcheck _).bind
  intro counters
  apply faultsOn_current.bind
  intro rndis
  split
  · exact faultsOn_keepalive.bind fun _ => faultsOn_pure _
  · exact faultsOn_pure _

private theorem faultsOn_turn (counters : RndisCounters) (events : RndisEvents) :
    FaultsOn Overlong (turn counters events) := by
  have hconnected : FaultsOn Overlong (handleConnected counters) := by
    apply faultsOn_connect.bind
    intro connected
    cases connected with
    | false => exact faultsOn_pure _
    | true => exact (faultsOn_modify _).bind fun _ => faultsOn_pure _
  have hbranch {taken : Bool} {routine : RndisRoutine RndisCounters} (h : FaultsOn Overlong routine)
      (counters : RndisCounters) : FaultsOn Overlong (branch taken routine counters) := by
    cases taken with
    | false => exact faultsOn_pure counters
    | true => exact h
  have hdisconnected : FaultsOn Overlong handleDisconnected :=
    (faultsOn_modify _).bind fun _ => (faultsOn_modify _).bind fun _ => faultsOn_pure _
  have hline : FaultsOn Overlong handleLineChange := (faultsOn_modify _).bind fun _ => faultsOn_pure _
  apply (hbranch hconnected counters).bind
  intro counters
  apply (hbranch hdisconnected counters).bind
  intro counters
  apply (hbranch hline counters).bind
  intro counters
  split
  · exact faultsOn_pure none
  · apply faultsOn_current.bind
    intro rndis
    split
    · exact (faultsOn_idle counters).bind fun _ => faultsOn_pure _
    · exact faultsOn_pure _

end RndisRoutine

namespace RndisLink

open RndisRoutine RndisControl Routine

/-- The task takes a response whose information it cannot copy. -/
def TakesOverlong (s : RndisLink) : RndisLinkOp → Prop
  | .task device => ∃ query next resp, s.task = .running (.ask (.receive (some query)) next) ∧
      ¬ s.rndis.Gone ∧ device (.receive (some query)) = some resp ∧
      ¬ InformationFits query.room resp
  | _ => False

/-- The task has left its memory. -/
def Faulted (s : RndisLink) : Prop := s.task = .running .fault

/-- What is left of a turn faults at overlong responses and nowhere else. -/
def Careful : RndisTask → Prop
  | .running routine => FaultsOn Overlong routine
  | _ => True

private theorem careful_ofRoutine {routine : RndisRoutine (Option RndisCounters)}
    (h : FaultsOn Overlong routine) : Careful (.ofRoutine routine) := by
  cases routine with
  | done result => cases result <;> exact trivial
  | fault => exact h
  | act f next => exact h
  | ask r next => exact h

private theorem careful_step {s : RndisLink} (h : Careful s.task) (op : RndisLinkOp)
    (hop : ¬ s.TakesOverlong op) : Careful (s.step op).task := by
  cases op with
  | callback => exact h
  | stop => exact h
  | task device =>
    obtain ⟨rndis, task⟩ := s
    cases task with
    | waiting counters => exact careful_ofRoutine (faultsOn_turn counters rndis.events)
    | exited => exact h
    | running routine =>
      cases routine with
      | done result => exact careful_ofRoutine h
      | fault => exact h.elim
      | act f next => exact careful_ofRoutine (h rndis)
      | ask r next =>
        rcases h (rndis.answer device r) with ⟨hbad, -⟩ | ⟨-, hnext⟩
        · exfalso
          cases r with
          | send message => exact hbad
          | array size => exact hbad
          | receive query =>
            cases query with
            | none => exact hbad
            | some query =>
              obtain ⟨resp, hresp, hlong⟩ := hbad
              by_cases hgone : rndis.Gone
              · rw [Rndis.answer_receive_gone hgone] at hresp
                cases hresp
              · rw [Rndis.answer_receive_here hgone] at hresp
                exact hop ⟨query, next, resp, rfl, hgone, hresp, hlong⟩
        · exact careful_ofRoutine hnext

private theorem faulted_of_overlong {s : RndisLink} (h : Careful s.task) {op : RndisLinkOp}
    (hop : s.TakesOverlong op) : (s.step op).Faulted := by
  cases op with
  | callback => exact hop.elim
  | stop => exact hop.elim
  | task device =>
    obtain ⟨query, next, resp, htask, hhere, hresp, hlong⟩ := hop
    rw [htask] at h
    have hanswer : s.rndis.answer device (.receive (some query)) = some resp :=
      (Rndis.answer_receive_here hhere device _).trans hresp
    rcases h (some resp) with ⟨-, hnext⟩ | ⟨hgood, -⟩
    · rw [Faulted, step, taskStep, htask]
      dsimp only [Routine.step]
      rw [hanswer, hnext]
      rfl
    · exact absurd ⟨resp, rfl, hlong⟩ hgood

private theorem faulted_step {s : RndisLink} (h : s.Faulted) (op : RndisLinkOp) :
    (s.step op).Faulted := by
  cases op with
  | callback => exact h
  | stop => exact h
  | task device =>
    rw [Faulted, step, taskStep, h]
    rfl

/-- In every run the driver leaves its memory exactly when it takes a response that says more than
it has or than there is room for. -/
theorem faulted_iff_overlong (macAddr : Bytes) (ops : List RndisLinkOp) :
    (run step (init macAddr) ops).Faulted ↔
      ¬ AllSteps step (fun s op => ¬ s.TakesOverlong op) (init macAddr) ops := by
  have hinit : Careful (init macAddr).task := trivial
  have hok (s : RndisLink) (op : RndisLinkOp) (h : Careful s.task) := careful_step h op
  have hbad (s : RndisLink) (op : RndisLinkOp) (h : Careful s.task)
      (hop : ¬ ¬ s.TakesOverlong op) := faulted_of_overlong h (not_not.mp hop)
  have hstuck (s : RndisLink) (op : RndisLinkOp) (h : s.Faulted) := faulted_step h op
  rcases allSteps_or_stuck hok hbad hstuck hinit ops with ⟨hall, hcareful⟩ | ⟨hnot, hfaulted⟩
  · refine iff_of_false ?_ (not_not.mpr hall)
    intro hfaulted
    rw [hfaulted] at hcareful
    exact hcareful
  · exact iff_of_true hfaulted hnot

end RndisLink

end Leyu
