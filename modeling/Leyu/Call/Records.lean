import Leyu.Modem.Unsolicited
import Leyu.Call.DeadEnd

/-!
# The two records of a call

That a call is under way is kept by the call manager, by `g_is_in_call` and by the audio route.
Answering writes all three and a NO CARRIER notice restores all three; the hang-up key restores
the last two only, rejecting and hanging up through the call manager the first only.
-/

namespace Leyu

open Framework

/-- The operations that write one of the records, or that lead up to such an operation. -/
inductive PhoneOp
  | setRules (rules : RuleTable)
  | answer (w : World)
  | reject (w : World)
  | hangup (w : World)
  | hangUpKey (w : World)
  | dial (w : World) (phoneNumber : CString)
  | response (w : World) (text : Text)
  | timerExpiry
  | processEvents (w : World)

/-- An operation, with whether the line still carries another call after it. -/
structure LineStep where
  op : PhoneOp
  otherCall : Bool

def PhoneOp.step (p : Phone) : PhoneOp → Phone
  | .setRules rules => { p with rules := rules }
  | .answer w => (callManagerAnswerCall w p).2
  | .reject w => (callManagerRejectCall w p).2
  | .hangup w => (callManagerHangupCall w p).2
  | .hangUpKey w => (atHangUpPhoneCall w p).2
  | .dial w phoneNumber => (atMakePhoneCall w phoneNumber p).2
  | .response w text => (atHandleUnsolicitedResponse w text p).2
  | .timerExpiry => Leyu.timerExpiry p
  | .processEvents w => callManagerProcessEvents w p

def LineStep.step (p : Phone) (s : LineStep) : Phone := s.op.step p

/-- The button handler and the route say what the call manager says of a call under way. -/
def RecordsAgree (p : Phone) : Prop := p.state = .inCall → p.isInCall = true ∧ p.gpio47 = true

/-- A step out of the last call leaves the other two records cleared. -/
def CleansUp (p : Phone) (s : LineStep) : Prop :=
  p.state = .inCall → (s.step p).state ≠ .inCall → s.otherCall = false →
    (s.step p).isInCall = false ∧ (s.step p).gpio47 = false

/-- The steps of a call under way that restore only a part of its records: the hang-up key with
its buffers there, and a rejection or a hang-up of the last call that the modem accepts. -/
def ClearsPartly (p : Phone) (s : LineStep) : Prop :=
  p.state = .inCall ∧
    match s.op with
    | .hangUpKey w => w.atBuffers = true
    | .reject w => w.Accepts ∧ s.otherCall = false
    | .hangup w => w.Accepts ∧ s.otherCall = false
    | _ => False

private theorem callManagerAnswerCall_records (w : World) (p : Phone) :
    ((callManagerAnswerCall w p).2.state = p.state ∧
      (callManagerAnswerCall w p).2.isInCall = p.isInCall ∧
      (callManagerAnswerCall w p).2.gpio47 = p.gpio47) ∨
    (p.state = .ringing ∧ (callManagerAnswerCall w p).2.state = .inCall ∧
      (callManagerAnswerCall w p).2.isInCall = true ∧
      (callManagerAnswerCall w p).2.gpio47 = true) := by
  rcases callManagerAnswerCall_cases w p with ⟨-, h⟩ | ⟨-, -, h⟩ | ⟨hs, -, h⟩ <;> rw [h]
  · exact .inl ⟨rfl, rfl, rfl⟩
  · exact .inl (atExchange_records w ata _)
  · refine .inr ⟨hs, ?_⟩
    simp [answerFinish, stopTimer_records, Phone.setGpio47, Phone.setGpio48]

private theorem endCall_records (w : World) (p : Phone) :
    (endCall w p).2.isInCall = p.isInCall ∧ (endCall w p).2.gpio47 = p.gpio47 ∧
      (endCall w p).2.state =
        if (p.state = .ringing ∨ p.state = .inCall) ∧ w.Accepts then .idle else p.state := by
  rcases endCall_cases w p with ⟨hr, hc, h⟩ | ⟨-, hw, h⟩ | ⟨hlive, hw, h⟩ <;> rw [h]
  · simp [hr, hc]
  · obtain ⟨hst, hin, hroute⟩ := atExchange_records w ath (stopRingtoneTask p)
    rw [hst, hin, hroute, if_neg fun h' => hw h'.2]
    exact ⟨rfl, rfl, rfl⟩
  · simp only [stopTimer_records, hlive, hw, and_self, if_true]
    exact ⟨rfl, rfl, rfl⟩

private theorem ringIncoming_not_inCall (w : World) (number : Text) (p : Phone) :
    (ringIncoming w number p).2.state ≠ .inCall := by
  obtain h | h := ringIncoming_state w number p
  · rw [h]
    decide
  · rw [h]
    decide

private theorem notification_records (w : World) (n : Notification) (p : Phone)
    (hp : RecordsAgree p) :
    RecordsAgree (n.apply w p) ∧
      (p.state = .inCall → (n.apply w p).state ≠ .inCall →
        (n.apply w p).isInCall = false ∧ (n.apply w p).gpio47 = false) := by
  cases n with
  | callEnded =>
    simp only [Notification.apply]
    rcases callManagerHandleCallEnded_cases w (hangUpCleanup p) with ⟨hc, -, h⟩ | ⟨-, h⟩ <;> rw [h]
    · exact ⟨fun h' => absurd h' hc, fun h' => absurd h' hc⟩
    · obtain ⟨hst, hin, hroute⟩ :=
        stopTimer_records w (resetCall (stopRingtoneTask (hangUpCleanup p)))
      rw [RecordsAgree, hst, hin, hroute]
      exact ⟨fun h' => absurd h' (by simp [resetCall]), fun _ _ => ⟨rfl, rfl⟩⟩
  | outgoing => exact ⟨fun h => ⟨rfl, (hp h).2⟩, fun h h' => absurd h h'⟩
  | incoming number =>
    simp only [Notification.apply]
    rcases callManagerHandleIncomingCall_cases w (.ofText number) p with
      ⟨-, h⟩ | ⟨-, hs, -, h⟩ | ⟨-, hs, -, h⟩ <;> rw [h]
    · exact ⟨hp, fun h' h'' => absurd h' h''⟩
    · exact ⟨fun h' => absurd (hs.symm.trans h') (by decide),
        fun h' => absurd (hs.symm.trans h') (by decide)⟩
    · exact ⟨fun h' => absurd h' (ringIncoming_not_inCall w _ _),
        fun h' => absurd (hs.symm.trans h') (by decide)⟩

private theorem good_of_same {p : Phone} {s : LineStep} (hp : RecordsAgree p)
    (hst : (s.step p).state = p.state) (hin : p.isInCall = true → (s.step p).isInCall = true)
    (hroute : p.gpio47 = true → (s.step p).gpio47 = true) :
    RecordsAgree (s.step p) ∧ CleansUp p s := by
  refine ⟨fun h => ?_, fun h h' => absurd (hst.trans h) h'⟩
  obtain ⟨h₁, h₂⟩ := hp (hst.symm.trans h)
  exact ⟨hin h₁, hroute h₂⟩

private theorem endCall_good {p : Phone} {s : LineStep} {w : World} (hp : RecordsAgree p)
    (hs : s.step p = (endCall w p).2)
    (hok : ¬ (p.state = .inCall ∧ w.Accepts ∧ s.otherCall = false)) :
    RecordsAgree (s.step p) ∧ CleansUp p s := by
  obtain ⟨hin, hroute, hst⟩ := endCall_records w p
  unfold CleansUp
  rw [hs, RecordsAgree, hin, hroute, hst]
  split
  · rename_i hend
    refine ⟨fun h => absurd h (by decide), fun hc _ hother => ?_⟩
    exact absurd ⟨hc, hend.2, hother⟩ hok
  · exact ⟨hp, fun hc hc' => absurd hc hc'⟩

private theorem step_keepsRecords {p : Phone} {s : LineStep} (hp : RecordsAgree p)
    (hok : ¬ ClearsPartly p s) : RecordsAgree (s.step p) ∧ CleansUp p s := by
  obtain ⟨op, other⟩ := s
  cases op with
  | setRules rules => exact good_of_same hp rfl id id
  | answer w =>
    rcases callManagerAnswerCall_records w p with ⟨hst, hin, hroute⟩ | ⟨hs, -, hin, hroute⟩
    · exact good_of_same hp hst (fun h => hin.trans h) (fun h => hroute.trans h)
    · exact ⟨fun _ => ⟨hin, hroute⟩, fun h => absurd (hs.symm.trans h) (by decide)⟩
  | reject w => exact endCall_good hp rfl hok
  | hangup w => exact endCall_good hp rfl hok
  | hangUpKey w =>
    rcases atHangUpPhoneCall_cases w p with ⟨-, h⟩ | ⟨hw, hst, -, -⟩
    · exact good_of_same hp (congrArg Phone.state h)
        (fun h' => (congrArg Phone.isInCall h).trans h')
        (fun h' => (congrArg Phone.gpio47 h).trans h')
    · have hnot : p.state ≠ .inCall := fun h => hok ⟨h, hw⟩
      exact ⟨fun h => absurd (hst.symm.trans h) hnot, fun h => absurd h hnot⟩
  | dial w phoneNumber =>
    refine ⟨fun h => ?_, fun h h' => absurd ((atMakePhoneCall_state w phoneNumber p).trans h) h'⟩
    exact atMakePhoneCall_records w phoneNumber
      (hp ((atMakePhoneCall_state w phoneNumber p).symm.trans h))
  | response w text =>
    unfold CleansUp
    simp only [LineStep.step, PhoneOp.step, atHandleUnsolicitedResponse_phone]
    cases notification text with
    | none => exact ⟨hp, fun h h' => absurd h h'⟩
    | some n =>
      obtain ⟨hagree, hclean⟩ := notification_records w n p hp
      exact ⟨hagree, fun h h' _ => hclean h h'⟩
  | timerExpiry =>
    unfold CleansUp
    simp only [LineStep.step, PhoneOp.step]
    obtain ⟨-, h⟩ | ⟨-, -, h⟩ | ⟨-, hr, h⟩ := timerExpiry_cases p
    · rw [h]
      exact ⟨hp, fun hc hc' => absurd hc hc'⟩
    · rw [h]
      exact ⟨hp, fun hc hc' => absurd hc hc'⟩
    · rw [h]
      exact ⟨fun hc => CallState.noConfusion hc, fun hc => absurd (hr.symm.trans hc) (by decide)⟩
  | processEvents w =>
    obtain ⟨f, hf⟩ := callManagerProcessEvents_eq w p
    have hst := congrArg Phone.state hf
    have hin := congrArg Phone.isInCall hf
    have hroute := congrArg Phone.gpio47 hf
    exact good_of_same hp hst (fun h => hin.trans h) (fun h => hroute.trans h)

private theorem step_clearsPartly {p : Phone} {s : LineStep} (hp : RecordsAgree p)
    (hbad : ClearsPartly p s) : ¬ (RecordsAgree (s.step p) ∧ CleansUp p s) := by
  obtain ⟨hc, hop⟩ := hbad
  obtain ⟨op, other⟩ := s
  have hend : ∀ w : World, w.Accepts → LineStep.step p ⟨op, other⟩ = (endCall w p).2 →
      other = false → ¬ CleansUp p ⟨op, other⟩ := by
    intro w hw hstep hother hclean
    obtain ⟨hin, -, hst⟩ := endCall_records w p
    have hidle : (LineStep.step p ⟨op, other⟩).state ≠ .inCall := by
      rw [hstep, hst, if_pos ⟨.inr hc, hw⟩]
      decide
    obtain ⟨hcleared, -⟩ := hclean hc hidle hother
    rw [hstep, hin, (hp hc).1] at hcleared
    exact absurd hcleared (by decide)
  rintro ⟨hagree, hclean⟩
  cases op with
  | reject w => exact hend w hop.1 rfl hop.2 hclean
  | hangup w => exact hend w hop.1 rfl hop.2 hclean
  | hangUpKey w =>
    rcases atHangUpPhoneCall_cases w p with ⟨hw, -⟩ | ⟨-, hst, hin, -⟩
    · exact absurd (hw.symm.trans hop) (by decide)
    · obtain ⟨htrue, -⟩ := hagree (hst.trans hc)
      exact absurd (hin.symm.trans htrue) (by decide)
  | _ => exact hop

/-- The records agree in every state of a run and every end of a last call clears them, exactly
when no step of the run clears them partly. -/
theorem recordsAgree_run_iff (steps : List LineStep) :
    (AllStates LineStep.step RecordsAgree Phone.init steps ∧
        AllSteps LineStep.step CleansUp Phone.init steps) ↔
      AllSteps LineStep.step (fun p s => ¬ ClearsPartly p s) Phone.init steps := by
  have hinit : RecordsAgree Phone.init := fun h => absurd h (by decide)
  rw [allStates_iff, and_assoc, and_iff_right hinit, ← allSteps_and]
  refine allSteps_congr (I := RecordsAgree) ?_ ?_ hinit steps
  · intro p s hp hok
    have h := step_keepsRecords hp hok
    exact ⟨h, h.1⟩
  · intro p s hp hgood hbad
    exact step_clearsPartly hp hbad hgood

def answeredThenKey : List LineStep :=
  let w := World.allOk
  [⟨.setRules (callManagerAddInterceptRule (.ofText ['*']) false .empty).2, false⟩,
    ⟨.response w "+CLCC: 1,1,4,0,0,\"10086\",129".toList, true⟩, ⟨.answer w, true⟩,
    ⟨.hangUpKey w, false⟩]

theorem answeredThenKey_disagrees :
    ¬ (AllStates LineStep.step RecordsAgree Phone.init answeredThenKey ∧
      AllSteps LineStep.step CleansUp Phone.init answeredThenKey) := by
  rintro ⟨hagree, -⟩
  obtain ⟨hin, -⟩ := hagree.last (by decide)
  exact absurd hin (by decide)

end Leyu
