import Leyu.Framework.Runs
import Leyu.Framework.History

/-!
# The ringtone

`start_ringtone_task`, `stop_ringtone_task` and `ringtone_playback_task` of `call_manager.c`,
with the clearing of the stop bit by `call_manager_process_events`. Each access to
`g_is_playing_ringtone` and to `RING_STOP_EVENT` is a step of its own; any number of calls of
the two functions may be under way, and every start makes one more task. The event group is the
one `call_manager_init` has made.
-/

namespace Leyu

open Framework

inductive RingPoint
  /-- The loop that waits for the announcement, before its test and before its look at the bit. -/
  | ttsTest (count : Nat)
  | ttsPoll (count : Nat)
  | loopTest
  | bitTest
  | raise
  | device
  | play
  | failed
  /-- The loop in `play_ringtone_independent`, in steps of 500 ms. -/
  | playing (count : Nat)
  | playPoll (count : Nat)
  | played
  | pauseTest (count : Nat)
  | pausePoll (count : Nat)
  /-- At the label `stop_playback`. -/
  | lower
  | clearBit
  | ended
  deriving DecidableEq, Repr

inductive RingMark
  | started | stopped | played
  deriving DecidableEq, Repr

structure RingAnswer where
  brtcPlaying : Bool
  device : Bool
  plays : Bool
  deriving DecidableEq, Repr

structure Ringtone where
  isPlayingRingtone : Bool
  /-- `RING_STOP_EVENT` -/
  ringStop : Bool
  tasks : List RingPoint
  /-- Calls of `start_ringtone_task` that have set the flag, and those that have cleared the bit. -/
  clearing : Nat
  creating : Nat
  /-- Calls of `stop_ringtone_task` that have cleared the flag and not yet set the bit. -/
  stopping : Nat
  /-- Newest first. -/
  history : List RingMark
  deriving DecidableEq, Repr

namespace Ringtone

def log (mark : RingMark) (r : Ringtone) : Ringtone := { r with history := mark :: r.history }

/-- The next step of `ringtone_playback_task` from a place: the place after it, and what it does. -/
def playbackTask (a : RingAnswer) (r : Ringtone) : RingPoint → RingPoint × Ringtone
  | .ttsTest count => if a.brtcPlaying ∧ count < 20 then (.ttsPoll (count + 1), r) else (.loopTest, r)
  | .ttsPoll count => if r.ringStop then (.lower, r) else (.ttsTest count, r)
  | .loopTest => if r.isPlayingRingtone then (.bitTest, r) else (.lower, r)
  | .bitTest => if r.ringStop then (.lower, { r with ringStop := false }) else (.raise, r)
  | .raise => (.device, { r with isPlayingRingtone := true })
  | .device => if a.device then (.play, r) else (.failed, r)
  | .play => if a.plays then (.playing 0, r.log .played) else (.failed, r)
  | .failed => (.loopTest, { r with isPlayingRingtone := false })
  | .playing count =>
      if count < 40 ∧ r.isPlayingRingtone then (.playPoll count, r) else (.played, r)
  | .playPoll count =>
      if r.ringStop then (.played, { r with ringStop := false }) else (.playing (count + 1), r)
  | .played => if r.isPlayingRingtone then (.pauseTest 0, r) else (.loopTest, r)
  | .pauseTest count =>
      if count < 3 ∧ r.isPlayingRingtone then (.pausePoll count, r) else (.loopTest, r)
  | .pausePoll count =>
      if r.ringStop then (.lower, { r with ringStop := false }) else (.pauseTest (count + 1), r)
  | .lower => (.clearBit, { r with isPlayingRingtone := false })
  | .clearBit => (.ended, { r with ringStop := false })
  | .ended => (.ended, r)

def start : Ringtone := ⟨false, false, [], 0, 0, 0, []⟩

end Ringtone

inductive RingOp
  /-- `start_ringtone_task` is called and sets the flag. -/
  | start
  | startClears
  /-- The task is created, or it is not and the flag is taken back. -/
  | startCreates (created : Bool)
  | stop
  | stopSets
  /-- `call_manager_process_events` clears the stop bit. -/
  | processEvents
  | task (i : Nat) (a : RingAnswer)
  deriving DecidableEq, Repr

def RingOp.step (r : Ringtone) : RingOp → Ringtone
  | .start => { r with isPlayingRingtone := true, clearing := r.clearing + 1 }.log .started
  | .startClears =>
      if 0 < r.clearing then
        { r with ringStop := false, clearing := r.clearing - 1, creating := r.creating + 1 }
      else r
  | .startCreates created =>
      if 0 < r.creating then
        if created then { r with creating := r.creating - 1, tasks := r.tasks ++ [.ttsTest 0] }
        else { r with creating := r.creating - 1, isPlayingRingtone := false }
      else r
  | .stop => { r with isPlayingRingtone := false, stopping := r.stopping + 1 }.log .stopped
  | .stopSets =>
      if 0 < r.stopping then { r with ringStop := true, stopping := r.stopping - 1 } else r
  | .processEvents => { r with ringStop := false }
  | .task i a =>
      match r.tasks[i]? with
      | none => r
      | some p =>
          let moved := r.playbackTask a p
          { moved.2 with tasks := r.tasks.set i moved.1 }

/-- The task is past its look at the stop bit and has not yet started the playback. -/
def RingPoint.armed : RingPoint → Bool
  | .raise | .device | .play => true
  | _ => false

def RingPoint.running : RingPoint → Bool
  | .lower | .clearBit | .ended => false
  | _ => true

/-- A call of `stop_ringtone_task` has come after the last call of `start_ringtone_task`. -/
def Stopped (h : List RingMark) : Prop := HitSince (· = .started) (· = .stopped) h

instance : DecidablePred Stopped := fun h =>
  inferInstanceAs (Decidable (HitSince (· = .started) (· = .stopped) h))

/-- No playback is started after a stop. -/
def PlayOrder (older : List RingMark) (mark : RingMark) : Prop :=
  mark = .played → ¬ Stopped older

instance (older : List RingMark) (mark : RingMark) : Decidable (PlayOrder older mark) :=
  inferInstanceAs (Decidable (mark = .played → ¬ Stopped older))

/-- A stop stops: no playback after it until the next start, and one task at most. -/
def RingtoneStops (r : Ringtone) : Prop :=
  EachAfter PlayOrder r.history ∧ r.tasks.countP (·.running) ≤ 1

instance (r : Ringtone) : Decidable (RingtoneStops r) := by unfold RingtoneStops; infer_instance

theorem RingtoneStops.start_between {r : Ringtone} (h : RingtoneStops r)
    {newer mid older : List RingMark}
    (hsplit : r.history = newer ++ .played :: (mid ++ .stopped :: older)) : .started ∈ mid := by
  have hplayed := (eachAfter_iff _ _).mp h.1 newer .played _ hsplit rfl
  obtain ⟨mark, hmark, rfl⟩ := cut_of_not_hitSince hplayed rfl
  exact hmark

/-- No stop is called while a task is between its look at the bit and the playback, no task looks
at the bit after a stop when the bit is not set, and no task is created while another one is
running. -/
def StopHeeded (r : Ringtone) : RingOp → Prop
  | .stop => ∀ p ∈ r.tasks, p.armed = false
  | .task i _ => r.tasks[i]? = some .bitTest → Stopped r.history → r.ringStop = true
  | .startCreates created =>
      0 < r.creating → created = true → ∀ p ∈ r.tasks, p.running = false
  | _ => True

instance (r : Ringtone) (op : RingOp) : Decidable (StopHeeded r op) := by
  cases op <;> unfold StopHeeded <;> infer_instance

structure TaskMoves (p : RingPoint) (r : Ringtone) (p' : RingPoint) (r' : Ringtone) : Prop where
  flag : r'.isPlayingRingtone = true → r.isPlayingRingtone = true ∨ p.armed = true
  history : r'.history = r.history ∨ p.armed = true ∧ r'.history = .played :: r.history
  armed : p'.armed = true → p.armed = true ∨ p = .bitTest ∧ r.ringStop = false
  running : p'.running = true → p.running = true

private theorem playbackTask_moves (a : RingAnswer) (r : Ringtone) (p : RingPoint) :
    TaskMoves p r (r.playbackTask a p).1 (r.playbackTask a p).2 := by
  cases p with
  | bitTest =>
    unfold Ringtone.playbackTask
    dsimp only
    split
    · exact ⟨.inl, .inl rfl, fun h => absurd h Bool.false_ne_true, fun _ => rfl⟩
    · rename_i hbit
      exact ⟨.inl, .inl rfl, fun _ => .inr ⟨rfl, by simpa using hbit⟩, fun _ => rfl⟩
  | raise => exact ⟨fun _ => .inr rfl, .inl rfl, fun _ => .inl rfl, fun _ => rfl⟩
  | device =>
    unfold Ringtone.playbackTask
    dsimp only
    split
    · exact ⟨.inl, .inl rfl, fun _ => .inl rfl, fun _ => rfl⟩
    · exact ⟨.inl, .inl rfl, fun h => absurd h Bool.false_ne_true, fun _ => rfl⟩
  | play =>
    unfold Ringtone.playbackTask
    dsimp only
    split
    · exact ⟨.inl, .inr ⟨rfl, rfl⟩, fun _ => .inl rfl, fun _ => rfl⟩
    · exact ⟨.inl, .inl rfl, fun _ => .inl rfl, fun _ => rfl⟩
  | failed =>
    exact ⟨fun h => absurd h Bool.false_ne_true, .inl rfl, fun h => absurd h Bool.false_ne_true,
      fun _ => rfl⟩
  | lower =>
    exact ⟨fun h => absurd h Bool.false_ne_true, .inl rfl, fun h => absurd h Bool.false_ne_true,
      fun h => absurd h Bool.false_ne_true⟩
  | clearBit =>
    exact ⟨.inl, .inl rfl, fun h => absurd h Bool.false_ne_true, fun h => absurd h Bool.false_ne_true⟩
  | ended => exact ⟨.inl, .inl rfl, .inl, id⟩
  -- the loops read flag and bit, and leave for a place that starts nothing
  | _ =>
    unfold Ringtone.playbackTask
    dsimp only
    split
    · exact ⟨.inl, .inl rfl, fun h => absurd h Bool.false_ne_true, fun _ => rfl⟩
    · exact ⟨.inl, .inl rfl, fun h => absurd h Bool.false_ne_true, fun _ => rfl⟩

private theorem not_stopped_started (h : List RingMark) : ¬ Stopped (.started :: h) := by
  rintro (hstop | ⟨hcut, -⟩)
  · cases hstop
  · exact hcut rfl

private theorem stopped_played_iff (h : List RingMark) : Stopped (.played :: h) ↔ Stopped h := by
  constructor
  · rintro (hstop | ⟨-, hrest⟩)
    · cases hstop
    · exact hrest
  · intro hrest
    apply HitSince.cons_of_not_cut hrest
    intro hcut
    cases hcut

structure RingQuiet (r : Ringtone) : Prop where
  order : EachAfter PlayOrder r.history
  single : r.tasks.countP (·.running) ≤ 1
  flag : Stopped r.history → r.isPlayingRingtone = false
  armed : Stopped r.history → ∀ p ∈ r.tasks, p.armed = false

private theorem RingQuiet.stops {r : Ringtone} (h : RingQuiet r) :
    RingtoneStops r := ⟨h.order, h.single⟩

private theorem countP_set_le {tasks : List RingPoint} {i : ℕ} {p p' : RingPoint}
    (hp : tasks[i]? = some p) (hrun : p'.running = true → p.running = true) :
    (tasks.set i p').countP (·.running) ≤ tasks.countP (·.running) := by
  obtain ⟨hi, hget⟩ := List.getElem?_eq_some_iff.mp hp
  rw [List.countP_set hi, hget]
  by_cases hp' : p'.running = true
  · have hpos : 0 < tasks.countP (·.running) := by
      apply List.countP_pos_iff.mpr
      exact ⟨p, List.mem_of_getElem? hp, hrun hp'⟩
    rw [if_pos hp', if_pos (hrun hp')]
    omega
  · rw [if_neg hp']
    omega

private theorem RingQuiet.taskStep {r : Ringtone} (h : RingQuiet r) {i : ℕ} {p : RingPoint}
    (hp : r.tasks[i]? = some p) (a : RingAnswer)
    (hok : p = .bitTest → Stopped r.history → r.ringStop = true) :
    RingQuiet { (r.playbackTask a p).2 with tasks := r.tasks.set i (r.playbackTask a p).1 } := by
  have hmoves := playbackTask_moves a r p
  have hquiet : Stopped r.history → p.armed = false := by
    intro hstopped
    exact h.armed hstopped p (List.mem_of_getElem? hp)
  have hback : Stopped (r.playbackTask a p).2.history → Stopped r.history := by
    intro hstopped
    rcases hmoves.history with hsame | ⟨-, hplayed⟩
    · rwa [hsame] at hstopped
    · rw [hplayed] at hstopped
      exact (stopped_played_iff _).mp hstopped
  refine ⟨?_, ?_, ?_, ?_⟩
  · show EachAfter PlayOrder (r.playbackTask a p).2.history
    rcases hmoves.history with hsame | ⟨harmed, hplayed⟩
    · rw [hsame]
      exact h.order
    · rw [hplayed]
      refine ⟨fun _ hstopped => ?_, h.order⟩
      rw [hquiet hstopped] at harmed
      cases harmed
  · exact (countP_set_le hp hmoves.running).trans h.single
  · intro hstopped
    have hstopped := hback hstopped
    apply Bool.eq_false_iff.mpr
    intro hflag
    rcases hmoves.flag hflag with hflag | harmed
    · rw [h.flag hstopped] at hflag
      cases hflag
    · rw [hquiet hstopped] at harmed
      cases harmed
  · intro hstopped q hq
    have hstopped := hback hstopped
    rcases List.mem_or_eq_of_mem_set hq with hq | rfl
    · exact h.armed hstopped q hq
    · apply Bool.eq_false_iff.mpr
      intro harmed
      rcases hmoves.armed harmed with harmed | ⟨hbit, hclear⟩
      · rw [hquiet hstopped] at harmed
        cases harmed
      · rw [hok hbit hstopped] at hclear
        cases hclear

private theorem RingQuiet.step {r : Ringtone} (h : RingQuiet r) (op : RingOp)
    (hok : StopHeeded r op) :
    RingQuiet (op.step r) := by
  cases op with
  | start =>
    have hnot := not_stopped_started r.history
    refine ⟨⟨fun hplayed => ?_, h.order⟩, h.single, fun hs => absurd hs hnot,
      fun hs => absurd hs hnot⟩
    cases hplayed
  | startClears =>
    show RingQuiet (if 0 < r.clearing then _ else r)
    split
    · exact ⟨h.order, h.single, h.flag, h.armed⟩
    · exact h
  | startCreates created =>
    show RingQuiet (if 0 < r.creating then _ else r)
    split
    · rename_i hcreating
      cases created with
      | false => exact ⟨h.order, h.single, fun _ => rfl, h.armed⟩
      | true =>
        have hidle : ∀ p ∈ r.tasks, p.running = false := hok hcreating rfl
        refine ⟨h.order, ?_, h.flag, fun hstopped p hp => ?_⟩
        · show (r.tasks ++ [RingPoint.ttsTest 0]).countP (·.running) ≤ 1
          have hnone : r.tasks.countP (·.running) = 0 := by
            apply List.countP_eq_zero.mpr
            intro p hp hrun
            rw [hidle p hp] at hrun
            cases hrun
          rw [List.countP_append, hnone]
          exact Nat.le_refl 1
        · rcases List.mem_append.mp hp with hp | hp
          · exact h.armed hstopped p hp
          · rw [List.mem_singleton.mp hp]
            rfl
    · exact h
  | stop =>
    refine ⟨⟨fun hplayed => ?_, h.order⟩, h.single, fun _ => rfl, fun _ => hok⟩
    cases hplayed
  | stopSets =>
    show RingQuiet (if 0 < r.stopping then _ else r)
    split
    · exact ⟨h.order, h.single, h.flag, h.armed⟩
    · exact h
  | processEvents => exact ⟨h.order, h.single, h.flag, h.armed⟩
  | task i a =>
    show RingQuiet (match r.tasks[i]? with | none => r | some p => _)
    cases hp : r.tasks[i]? with
    | none => exact h
    | some p =>
      apply h.taskStep hp a
      intro hbit
      apply hok
      rw [hp, hbit]

private theorem RingQuiet.start : RingQuiet Ringtone.start :=
  ⟨trivial, Nat.zero_le 1, fun _ => rfl, fun _ _ hp => absurd hp List.not_mem_nil⟩

/-- A stop stops the ringtone as long as no task is past its look at the bit when it comes, the
bit is set at every look after it, and no task is created beside a running one. -/
theorem ringtoneStops_of_heeded (ops : List RingOp)
    (hok : AllSteps RingOp.step StopHeeded Ringtone.start ops) :
    AllStates RingOp.step RingtoneStops Ringtone.start ops := by
  apply (allStates_iff _ _ _).mpr
  refine ⟨RingQuiet.start.stops, ?_⟩
  refine hok.strengthen (I := RingQuiet) (fun r op hI hop => ?_) RingQuiet.start
  have hnext := hI.step op hop
  exact ⟨hnext.stops, hnext⟩

namespace Ringtone

def rings : List RingOp := [.start, .startClears, .startCreates true]

def answers : RingAnswer := ⟨false, true, true⟩

def looks : List RingOp := [.task 0 answers, .task 0 answers, .task 0 answers]

def ringsAndStops : List RingOp :=
  rings ++ looks ++ List.replicate 3 (.task 0 answers) ++ [.stop, .stopSets] ++
    List.replicate 5 (.task 0 answers)

/-- The stop comes when the task has just looked at the bit. -/
def stopAfterLook : List RingOp :=
  rings ++ looks ++ [.stop, .stopSets] ++ List.replicate 3 (.task 0 answers)

def ringsAgain : List RingOp :=
  rings ++ looks ++ List.replicate 3 (.task 0 answers) ++
    List.replicate 80 (.task 0 answers) ++ List.replicate 4 (.task 0 answers) ++
    [.stop, .stopSets] ++ rings ++
    List.replicate 10 (.task 0 answers) ++ List.replicate 6 (.task 1 answers)

end Ringtone

theorem ringtoneStops_of_heeded_ringsAndStops :
    AllSteps RingOp.step StopHeeded Ringtone.start Ringtone.ringsAndStops ∧
      AllStates RingOp.step RingtoneStops Ringtone.start Ringtone.ringsAndStops := by
  have hok : AllSteps RingOp.step StopHeeded Ringtone.start Ringtone.ringsAndStops := by
    decide +kernel
  exact ⟨hok, ringtoneStops_of_heeded _ hok⟩

/-- A stop between the look at the bit and the playback: the task sets the flag again and plays.
A stop and a start while the task sleeps: both tasks play. -/
theorem stopMissed_plays :
    (¬ RingtoneStops (run RingOp.step Ringtone.start Ringtone.stopAfterLook) ∧
        (run RingOp.step Ringtone.start Ringtone.stopAfterLook).history =
          [.played, .stopped, .started]) ∧
      ¬ RingtoneStops (run RingOp.step Ringtone.start Ringtone.ringsAgain) ∧
        (run RingOp.step Ringtone.start Ringtone.ringsAgain).tasks = [.playing 0, .playing 0] := by
  refine ⟨⟨?_, ?_⟩, ?_, ?_⟩ <;> decide +kernel

end Leyu
