import Leyu.Rndis.TaskRules

/-!
# The link of a device that is gone

The task takes its events in one go while the callbacks go on. What it still has to handle of them
may speak of a device that is no longer there. Followed through a turn, the link is found down once
the device is gone and that has been handled, whatever came in between. The one way round it is a
status that is stored for a device that has gone since.
-/

namespace Leyu

open Framework Routine

namespace Rndis

/-- No change of the line is announced once the device is gone. -/
def Timely (s s' : Rndis) : Prop :=
  s.Gone → s'.events.lineChange = true → s.events.lineChange = true

/-- A response has come from a device that is there. -/
def Answered (s : Rndis) : (r : RndisControl) → r.Answer → Prop
  | .receive _ => fun answer => answer ≠ none → ¬ s.Gone
  | .send _ => fun _ => True
  | .array _ => fun _ => True

private theorem answered_answer (s : Rndis) (device : (r : RndisControl) → r.Answer)
    (r : RndisControl) :
    s.Answered r (s.answer device r) := by
  cases r with
  | send message => trivial
  | array size => trivial
  | receive query =>
    intro hsome hgone
    exact hsome (answer_receive_gone hgone device query)

abbrev Safe {ε : Type} (post : ε → Rndis → Prop) (p : RndisRoutine ε) (s : Rndis) : Prop :=
  Routine.Safe Disturbed Timely Answered post p s

/-- If the device goes, or has gone, during the turn, its event is pending. -/
def Fresh (s : Rndis) : Prop := s.cable = .absent → s.events.disconnected = true

/-- The device has been gone since before the turn: its event is still to be handled or the link is
down, and a change of the line that is still to be handled will not bring the link up. -/
def Held (disconnected lineChange : Bool) (s : Rndis) : Prop :=
  s.cable = .absent → s.events.disconnected = false →
    (disconnected = true ∨ s.link = false) ∧ (lineChange = true → s.connectStatus = false)

def Inside (disconnected lineChange : Bool) (s : Rndis) : Prop :=
  s.Held disconnected lineChange ∧ s.events.lineChange = false

/-- What holds between two turns. -/
def Resting (s : Rndis) : Prop :=
  s.Held false false ∧ (s.events.lineChange = true → s.Gone → s.connectStatus = false)

private theorem stable_fresh : Stable Disturbed Fresh := by
  rintro s s' (rfl | rfl) h
  · obtain ⟨events, cable⟩ := s
    cases cable <;> simp_all [Fresh, callback]
  · exact h

private theorem stable_held (disconnected lineChange : Bool) :
    Stable Disturbed (Held disconnected lineChange) := by
  rintro s s' (rfl | rfl) h
  · obtain ⟨events, cable⟩ := s
    cases cable <;> simp_all [Held, callback]
  · exact h

private theorem stable_noLine : Stable Disturbed fun s => s.events.lineChange = false := by
  rintro s s' (rfl | rfl) h
  · obtain ⟨events, cable⟩ := s
    cases cable <;> exact h
  · exact h

private theorem stable_inside (disconnected lineChange : Bool) :
    Stable Disturbed (Inside disconnected lineChange) :=
  (stable_held disconnected lineChange).and stable_noLine

private theorem stable_resting : Stable Disturbed Resting := by
  apply (stable_held false false).and
  rintro s s' (rfl | rfl) h
  · obtain ⟨events, cable⟩ := s
    cases cable <;> simp_all [Gone, callback]
  · exact h

private theorem framed_inside (disconnected lineChange : Bool) :
    Framed Disturbed (Inside disconnected lineChange) :=
  ⟨stable_inside disconnected lineChange, fun _ _ h => h, fun _ _ _ h => h⟩

private theorem framed_resting : Framed Disturbed Resting :=
  ⟨stable_resting, fun _ _ h => h, fun _ _ _ h => h⟩

private theorem Fresh.held {s : Rndis} (h : s.Fresh) (disconnected lineChange : Bool) :
    s.Held disconnected lineChange := by
  intro habsent hnone
  rw [h habsent] at hnone
  cases hnone

private theorem fresh_of_here {s : Rndis} (h : ¬ s.Gone) : s.Fresh := fun habsent =>
  absurd (.inl habsent) h

private theorem hears_fresh : Hears Disturbed Answered Fresh :=
  ⟨stable_fresh, fun _ _ resp h => fresh_of_here (h (Option.some_ne_none resp))⟩

private theorem Inside.resting {s : Rndis} (h : s.Inside false false) : s.Resting := by
  refine ⟨h.1, ?_⟩
  intro hline
  rw [h.2] at hline
  cases hline

end Rndis

namespace RndisRoutine

open Rndis

private theorem keepObject_inside {s : Rndis} {disconnected lineChange : Bool}
    (h : s.Inside disconnected lineChange) (hfresh : s.Fresh) (oid : UInt32) (data : Bytes) :
    (s.keepObject oid data).Inside disconnected lineChange := by
  have hkept : (s.keepObject oid data).cable = s.cable ∧
      (s.keepObject oid data).events = s.events := by
    rw [keepObject]
    split
    · exact ⟨rfl, rfl⟩
    · split
      · exact ⟨rfl, rfl⟩
      · split <;> exact ⟨rfl, rfl⟩
  have hfresh' : (s.keepObject oid data).Fresh := by
    rw [Fresh, hkept.1, hkept.2]
    exact hfresh
  exact ⟨hfresh'.held disconnected lineChange, by rw [hkept.2, h.2]⟩

private theorem safe_queryObjects (disconnected lineChange : Bool) (oids : List UInt32)
    (data : Bytes) {s : Rndis} (h : s.Inside disconnected lineChange) :
    Safe (fun _ s => s.Inside disconnected lineChange) (queryObjects oids data) s := by
  have hI := framed_inside disconnected lineChange
  induction oids generalizing data s with
  | nil => exact safe_return hI.stable h
  | cons oid oids ih =>
    rw [queryObjects]
    split
    · exact ih data h
    · apply (safe_queryMsgRequest hI hears_fresh _ _ data h).seq
      rintro result s ⟨hs, -, hheard⟩
      cases result with
      | none => exact safe_return hI.stable hs
      | some result =>
        apply Routine.Safe.seq (M := fun _ s => s.Inside disconnected lineChange)
        · exact safe_modify (hI.stable.and stable_fresh) hI.stable
            (fun s hs _ => keepObject_inside hs.1 hs.2 oid result.1) ⟨hs, hheard (by simp)⟩
        · exact fun _ s hs => ih result.1 hs

private theorem safe_connect (disconnected lineChange : Bool) {s : Rndis}
    (h : s.Inside disconnected lineChange) :
    Safe (fun done s => s.Inside disconnected lineChange ∧ (done = true → s.Fresh)) connect s := by
  have hI := framed_inside disconnected lineChange
  have hstable (done : Bool) : Stable Disturbed fun s =>
      s.Inside disconnected lineChange ∧ (done = true → s.Fresh) :=
    hI.stable.and fun s s' hs h hdone => stable_fresh s s' hs (h hdone)
  have hfailed {s : Rndis} (hs : s.Inside disconnected lineChange) :
      Safe (fun done s => s.Inside disconnected lineChange ∧ (done = true → s.Fresh))
        (pure false : RndisRoutine Bool) s :=
    safe_pure (hstable false) ⟨hs, fun hfalse => by cases hfalse⟩
  apply (safe_initMsgRequest hI hears_fresh h).seq
  rintro ready s ⟨hs, -⟩
  cases ready with
  | false => exact hfailed hs
  | true =>
    apply (safe_array hI 256 hs).seq
    intro tmpBuffer s hs
    apply (safe_queryMsgRequest hI hears_fresh _ _ tmpBuffer.val hs).seq
    rintro list s ⟨hs, -⟩
    cases list with
    | none => exact hfailed hs
    | some list =>
      apply (safe_array hI 32 hs).seq
      intro data s hs
      apply (safe_queryObjects disconnected lineChange _ data.val hs).seq
      intro asked s hs
      cases asked with
      | false => exact hfailed hs
      | true =>
        apply (safe_setMsgRequest hI hears_fresh _ _ hs).seq
        rintro filter s ⟨hs, -⟩
        cases filter with
        | false => exact hfailed hs
        | true =>
          apply Routine.Safe.seq (M := fun _ s => s.Inside disconnected lineChange)
          · exact safe_current hI.stable (fun _ => hI.stable) (fun _ hs => hs) hs
          · intro rndis s hs
            exact (safe_setMsgRequest hI hears_fresh _ rndis.macAddr hs).mono
              fun done s hs => ⟨hs.1, hs.2.2⟩

private theorem safe_getConnectStatus {s : Rndis} (h : s.Inside false false) :
    Safe (fun _ => Resting) getConnectStatus s := by
  have hI := framed_inside false false
  have hheard := hI.stable.and stable_fresh
  apply (safe_array hI 32 h).seq
  intro data s hs
  apply (safe_queryMsgRequest hI hears_fresh _ _ data.val hs).seq
  rintro result s ⟨hs, -, hfresh⟩
  cases result with
  | none => exact safe_return stable_resting hs.resting
  | some result =>
    apply Routine.Safe.seq (M := fun _ s => s.Inside false false ∧ s.Fresh)
    · exact safe_current hheard (fun _ => hheard) (fun _ hs => hs) ⟨hs, hfresh (by simp)⟩
    · intro rndis s hs
      dsimp only
      split
      · exact safe_return stable_resting hs.1.resting
      · have hnoLine := stable_fresh.and stable_noLine
        apply Routine.Safe.seq (M := fun _ s => s.Fresh ∧ s.events.lineChange = false)
        · exact safe_modify hheard hnoLine (fun s hs _ => ⟨hs.2, hs.1.2⟩) hs
        · intro _ s hs
          apply Routine.Safe.seq (M := fun _ => Resting)
          · apply safe_modify hnoLine stable_resting _ hs
            intro s hs hmay
            have hhere : ¬ s.Gone := by
              intro hgone
              have hline := hmay hgone rfl
              rw [hs.2] at hline
              cases hline
            exact ⟨(fresh_of_here hhere).held false false, fun _ hgone => absurd hgone hhere⟩
          · exact fun _ s hs => safe_return stable_resting hs

private theorem safe_idle (counters : RndisCounters) {s : Rndis} (h : s.Inside false false) :
    Safe (fun _ => Resting) (idle counters) s := by
  have hcheck (counters : RndisCounters) :
      Safe (fun _ => Resting) (checkStatus counters) s := by
    rw [checkStatus]
    split
    · apply (safe_getConnectStatus h).seq
      intro asked s hs
      cases asked <;> exact safe_return stable_resting hs
    · exact safe_return stable_resting h.resting
  apply (hcheck _).seq
  intro counters s hs
  apply Routine.Safe.seq (M := fun _ => Resting)
  · exact safe_current stable_resting (fun _ => stable_resting) (fun _ hs => hs) hs
  · intro rndis s hs
    split
    · exact (safe_keepalive framed_resting hears_fresh hs).seq fun _ s hs => safe_return stable_resting hs
    · exact safe_return stable_resting hs

private theorem safe_handleConnected (counters : RndisCounters) {disconnected lineChange : Bool}
    {s : Rndis} (h : s.Inside disconnected lineChange) :
    Safe (fun _ s => s.Inside disconnected lineChange) (handleConnected counters) s := by
  have hI := framed_inside disconnected lineChange
  apply (safe_connect disconnected lineChange h).seq
  intro connected s hs
  cases connected with
  | false => exact safe_return hI.stable hs.1
  | true =>
    apply Routine.Safe.seq (M := fun _ s => s.Inside disconnected lineChange)
    · apply safe_modify (hI.stable.and stable_fresh) hI.stable _ ⟨hs.1, hs.2 rfl⟩
      intro s hs _
      have hfresh : Fresh { s with link := true } := hs.2
      exact ⟨hfresh.held disconnected lineChange, hs.1.2⟩
    · exact fun _ s hs => safe_return hI.stable hs

private theorem safe_handleDisconnected {disconnected lineChange : Bool} {s : Rndis}
    (h : s.Inside disconnected lineChange) :
    Safe (fun _ s => s.Inside false lineChange) handleDisconnected s := by
  have hI := framed_inside disconnected lineChange
  have hI' := framed_inside false lineChange
  apply Routine.Safe.seq (M := fun _ s => s.Inside disconnected lineChange)
  · exact safe_modify hI.stable hI.stable (fun s hs _ => hs) h
  · intro _ s hs
    apply Routine.Safe.seq (M := fun _ s => s.Inside false lineChange)
    · apply safe_modify hI.stable hI'.stable _ hs
      intro s hs _
      exact ⟨fun habsent hnone => ⟨.inr rfl, (hs.1 habsent hnone).2⟩, hs.2⟩
    · exact fun _ s hs => safe_return hI'.stable hs

private theorem safe_handleLineChange {s : Rndis} (h : s.Inside false true) :
    Safe (fun _ s => s.Inside false false) handleLineChange s := by
  have hI := framed_inside false true
  have hI' := framed_inside false false
  apply Routine.Safe.seq (M := fun _ s => s.Inside false false)
  · apply safe_modify hI.stable hI'.stable _ h
    intro s hs _
    refine ⟨?_, hs.2⟩
    intro habsent hnone
    have hdown := (hs.1 habsent hnone).2 rfl
    exact ⟨.inr hdown, fun hfalse => by cases hfalse⟩
  · exact fun _ s hs => safe_return hI'.stable hs

private theorem safe_turn (counters : RndisCounters) (events : RndisEvents) {s : Rndis}
    (h : s.Inside events.disconnected events.lineChange) :
    Safe (fun _ => Resting) (turn counters events) s := by
  apply Routine.Safe.seq (M := fun _ s => s.Inside events.disconnected events.lineChange)
  · cases events.connected with
    | false => exact safe_return (stable_inside _ _) h
    | true => exact safe_handleConnected counters h
  · intro counters s hs
    apply Routine.Safe.seq (M := fun _ s => s.Inside false events.lineChange)
    · cases hevent : events.disconnected with
      | false => exact safe_return (stable_inside _ _) (hevent ▸ hs)
      | true => exact safe_handleDisconnected hs
    · intro counters s hs
      apply Routine.Safe.seq (M := fun _ s => s.Inside false false)
      · cases hevent : events.lineChange with
        | false => exact safe_return (stable_inside _ _) (hevent ▸ hs)
        | true => exact safe_handleLineChange (hevent ▸ hs)
      · intro counters s hs
        split
        · exact safe_return stable_resting hs.resting
        · apply Routine.Safe.seq (M := fun _ s => s.Inside false false)
          · exact safe_current (stable_inside _ _) (fun _ => stable_inside _ _) (fun _ hs => hs) hs
          · intro rndis s hs
            split
            · exact (safe_idle counters hs).seq fun _ s hs => safe_return stable_resting hs
            · exact safe_return stable_resting hs.resting

end RndisRoutine

namespace RndisLink

open Rndis RndisRoutine

/-- A change of the line is announced for a device that is gone. -/
def RaisedLate (s : RndisLink) (op : RndisLinkOp) : Prop :=
  s.rndis.Gone ∧ s.rndis.events.lineChange = false ∧ (s.step op).rndis.events.lineChange = true

instance (s : RndisLink) (op : RndisLinkOp) : Decidable (s.RaisedLate op) :=
  inferInstanceAs (Decidable (_ ∧ _))

def Inv (s : RndisLink) : Prop := s.Keeps Disturbed Timely Answered fun _ => Resting

private theorem Inv.step {s : RndisLink} (h : s.Inv) (op : RndisLinkOp) (hop : ¬ s.RaisedLate op) :
    (s.step op).Inv := by
  cases op with
  | callback => exact h.disturb (fun _ => stable_resting) (.inl rfl)
  | stop => exact h.disturb (fun _ => stable_resting) (.inr rfl)
  | task device =>
    apply h.taskStep _ (fun _ => rfl) (answered_answer s.rndis device)
    · intro hgone hraised
      by_contra hnone
      exact hop ⟨hgone, by simpa using hnone, hraised⟩
    · intro counters _ hresting
      apply (safe_turn counters s.rndis.events _).mono
      · intro result s hs
        cases result with
        | none => trivial
        | some counters => exact hs
      · refine ⟨?_, rfl⟩
        intro habsent _
        refine ⟨?_, fun hevent => hresting.2 hevent (.inl habsent)⟩
        cases hevent : s.rndis.events.disconnected with
        | true => exact .inl rfl
        | false => exact .inr ((hresting.1 habsent hevent).1.resolve_left Bool.false_ne_true)

/-- Whatever the order of callbacks and steps of the task: once the device is gone and the task
waits with that handled, the link is down, unless a change of the line has been announced for a
device that was gone. -/
theorem link_down_when_gone (macAddr : Bytes) (ops : List RndisLinkOp)
    (hops : AllSteps step (fun s op => ¬ s.RaisedLate op) (init macAddr) ops)
    {counters : RndisCounters} (hwait : (run step (init macAddr) ops).task = .waiting counters)
    (habsent : (run step (init macAddr) ops).rndis.cable = .absent)
    (hhandled : (run step (init macAddr) ops).rndis.events.disconnected = false) :
    (run step (init macAddr) ops).rndis.link = false := by
  have hinit : (init macAddr).Inv := ⟨fun _ _ => ⟨.inr rfl, fun hfalse => by cases hfalse⟩,
    fun hfalse => by cases hfalse⟩
  have hinv := hops.keeps (fun s op (h : s.Inv) hop => h.step op hop) hinit
  rw [Inv, Keeps, hwait] at hinv
  exact (hinv.1 habsent hhandled).1.resolve_left Bool.false_ne_true

/-- The link comes up, and goes down when the device has been pulled out. -/
theorem link_down_when_gone_unplugged :
    let device : (r : RndisControl) → r.Answer
      | .send _ => true
      | .receive _ => some ⟨List.replicate 256 0, List.length_replicate⟩
      | .array size => ⟨List.replicate size 0, List.length_replicate⟩
    let plugged := List.replicate 2 .callback ++ List.replicate 24 (.task device)
    let unplugged := List.replicate 2 .callback ++ List.replicate 8 (.task device)
    (run step (init [2, 0, 0, 0, 0, 1]) plugged).rndis.link = true ∧
      (run step (init [2, 0, 0, 0, 0, 1]) (plugged ++ unplugged)).rndis.link = false := by
  intro device plugged unplugged
  have hops : AllSteps step (fun s op => ¬ s.RaisedLate op) (init [2, 0, 0, 0, 0, 1])
      (plugged ++ unplugged) := by decide +kernel
  have hwaits : (run step (init [2, 0, 0, 0, 0, 1]) (plugged ++ unplugged)).wakesUp := by
    decide +kernel
  obtain ⟨counters, hwait⟩ := hwaits
  refine ⟨by decide +kernel, ?_⟩
  exact link_down_when_gone _ _ hops hwait (by decide +kernel) (by decide +kernel)

end RndisLink

end Leyu
