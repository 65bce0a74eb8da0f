import Leyu.Framework.Runs
import Leyu.Platform

/-!
# The RTC mode

`brtc_set_rtc_mode` stores the client of an RTC room in `s_bdrtc.rtc_client`, and
`brtc_switch_to_ai_mode` is to leave the room and destroy the client. It begins with a call of
`brtc_set_rtc_mode` that clears the slot.
-/

namespace Leyu

open Framework

/-- A pointer to a client or to an engine. -/
abbrev BrtcHandle := Nat

inductive CodecDev
  | playDev
  | recDev
  deriving DecidableEq, Repr

structure SampleInfo where
  sampleRate : Nat
  channel : Nat
  bitsPerSample : Nat
  deriving DecidableEq, Repr

inductive AudioFormat
  | g711u
  | pcm
  deriving DecidableEq, Repr

/-- The configuration of the recorder's encoder and of the feeder's decoder. -/
structure CodecConfig where
  format : AudioFormat
  sampleRate : Nat
  sampleBits : Nat
  channels : Nat
  frameDuration : Nat
  deriving DecidableEq, Repr

/-- What is asked of the audio devices and of the RTC library, and each write of the slot with the
mode it comes with. -/
inductive BrtcEffect
  | slotWritten (enable : Bool) (rtcClient : Option BrtcHandle)
  | loggedOut (rtcClient : BrtcHandle)
  | destroyed (rtcClient : BrtcHandle)
  | recorderClosed
  | feederClosed
  | codecClosed (dev : CodecDev)
  | codecOpened (dev : CodecDev) (fs : SampleInfo)
  | recorderOpened (encoder : CodecConfig)
  | feederOpened (decoder : CodecConfig)
  | feederRun
  | mixerClosed
  | mixerOpened
  | playbackFocused
  | sdkInitialized
  | engineCalled (engine : BrtcHandle)
  | engineDestroyed (engine : BrtcHandle)
  deriving DecidableEq, Repr

/-- The fields of `s_bdrtc` that the two functions use. -/
structure Brtc where
  isRtcMode : Bool
  rtcClient : Option BrtcHandle
  isRtcStreamUp : Bool
  isConnected : Bool
  engine : Option BrtcHandle
  playDev : Bool
  recDev : Bool
  log : List BrtcEffect

/-- What the steps of `brtc_switch_to_ai_mode` behind the cleaning up return. -/
structure SwitchWorld where
  brtcSdkInit : Int
  createEngine : Option BrtcHandle
  engineInit : Int

namespace Brtc

def start (playDev recDev : Bool) : Brtc := ⟨false, none, false, false, none, playDev, recDev, []⟩

def emit (effects : List BrtcEffect) (s : Brtc) : Brtc := { s with log := s.log ++ effects }

def writeSlot (enable : Bool) (rtcClient : Option BrtcHandle) (s : Brtc) : Brtc :=
  { s with rtcClient := rtcClient }.emit [.slotWritten enable rtcClient]

/-- Closing the devices and opening them again in another format. -/
def reopened (fs : SampleInfo) (codec : CodecConfig) (s : Brtc) : List BrtcEffect :=
  [.recorderClosed, .feederClosed] ++
    (if s.playDev then [.codecClosed .playDev] else []) ++
    (if s.recDev then [.codecClosed .recDev, .codecOpened .recDev fs] else []) ++
    (if s.playDev then [.codecOpened .playDev fs] else []) ++
    [.recorderOpened codec, .feederOpened codec, .feederRun]

def setRtcMode (enable : Bool) (rtcClient : Option BrtcHandle) (s : Brtc) : Brtc :=
  let s := { s with isRtcMode := enable }.writeSlot enable rtcClient
  let s := { s with isRtcStreamUp := false, isConnected := enable }
  if enable then
    s.emit (s.reopened ⟨8000, 1, 16⟩ ⟨.g711u, 8000, 16, 1, 20⟩ ++ [.mixerClosed])
  else
    s.emit (s.reopened ⟨16000, 2, 16⟩ ⟨.pcm, 16000, 16, 1, 20⟩ ++ [.mixerOpened, .playbackFocused])

/-- The cleaning up of `brtc_switch_to_ai_mode`. -/
def leaveRoom (s : Brtc) : Brtc :=
  match s.rtcClient with
  | none => s
  | some client => (s.emit [.loggedOut client, .destroyed client]).writeSlot false none

/-- The rest of `brtc_switch_to_ai_mode`: an engine for the conversation with the AI. -/
def startEngine (w : SwitchWorld) (s : Brtc) : EspErr × Brtc :=
  let s := s.emit [.sdkInitialized]
  if w.brtcSdkInit < 0 ∧ w.brtcSdkInit ≠ 1 then (.fail, s)
  else
    let s := { s with engine := w.createEngine }
    match s.engine with
    | none => (.fail, s)
    | some engine =>
        if w.engineInit ≠ 200 then (.fail, { s.emit [.engineDestroyed engine] with engine := none })
        else (.ok, s.emit [.engineCalled engine])

def switchToAiMode (w : SwitchWorld) (s : Brtc) : EspErr × Brtc :=
  (s.setRtcMode false none).leaveRoom.startEngine w

end Brtc

inductive BrtcOp
  | setRtcMode (enable : Bool) (rtcClient : Option BrtcHandle)
  | switchToAiMode (w : SwitchWorld)

def BrtcOp.step (s : Brtc) : BrtcOp → Brtc
  | setRtcMode enable rtcClient => s.setRtcMode enable rtcClient
  | switchToAiMode w => (s.switchToAiMode w).2

/-- The client that an enabling call has stored in the slot, and what has been done with it
since. -/
structure SlotAccount where
  client : Option BrtcHandle
  logouts : Nat
  destroys : Nat

namespace SlotAccount

def after (a : SlotAccount) : BrtcEffect → SlotAccount
  | .slotWritten enable rtcClient => ⟨if enable then rtcClient else none, 0, 0⟩
  | .loggedOut rtcClient =>
      if a.client = some rtcClient then { a with logouts := a.logouts + 1 } else a
  | .destroyed rtcClient =>
      if a.client = some rtcClient then { a with destroys := a.destroys + 1 } else a
  | _ => a

/-- The slot is overwritten only when its client has been logged out and destroyed, each once. -/
def Settled (a : SlotAccount) (e : BrtcEffect) : Prop :=
  ∀ enable rtcClient, e = .slotWritten enable rtcClient →
    a.client ≠ none → a.logouts = 1 ∧ a.destroys = 1

end SlotAccount

def NeverDropped (log : List BrtcEffect) : Prop :=
  AllSteps SlotAccount.after SlotAccount.Settled ⟨none, 0, 0⟩ log

def BrtcEffect.TouchesSlot : BrtcEffect → Prop
  | .slotWritten _ _ | .loggedOut _ | .destroyed _ => True
  | _ => False

namespace SlotAccount

variable {a : SlotAccount} {e : BrtcEffect}

private theorem after_quiet (h : ¬ e.TouchesSlot) : a.after e = a := by
  cases e <;> first | rfl | exact absurd trivial h

private theorem settled_quiet (h : ¬ e.TouchesSlot) : a.Settled e := by
  rintro enable rtcClient rfl
  exact absurd trivial h

private theorem settled_slotWritten {enable : Bool} {rtcClient : Option BrtcHandle} :
    a.Settled (.slotWritten enable rtcClient) ↔
      (a.client ≠ none → a.logouts = 1 ∧ a.destroys = 1) := by
  simp [Settled]

private theorem quiet_tail {tail : List BrtcEffect} (h : ∀ e ∈ tail, ¬ e.TouchesSlot) :
    run after a tail = a ∧ AllSteps after Settled a tail := by
  induction tail with
  | nil => exact ⟨rfl, trivial⟩
  | cons e tail ih =>
    have hrest := ih fun e' he' => h e' (List.mem_cons_of_mem e he')
    have he := h e List.mem_cons_self
    rw [run_cons, allSteps_cons, after_quiet he]
    exact ⟨hrest.1, settled_quiet he, hrest.2⟩

end SlotAccount

namespace Brtc

variable {s : Brtc}

/-- What one call does: a write of the slot, and then nothing that touches a client. -/
def OneWrite (s s' : Brtc) : Prop :=
  ∃ tail, s'.log = s.log ++ .slotWritten s'.isRtcMode s'.rtcClient :: tail ∧
    ∀ e ∈ tail, ¬ e.TouchesSlot

private theorem OneWrite.emit {s' : Brtc} {effects : List BrtcEffect} (h : s.OneWrite s')
    (hq : ∀ e ∈ effects, ¬ e.TouchesSlot) : s.OneWrite (s'.emit effects) := by
  obtain ⟨tail, hlog, htail⟩ := h
  refine ⟨tail ++ effects, ?_, ?_⟩
  · simp [Brtc.emit, hlog]
  · intro e he
    rcases List.mem_append.mp he with he | he
    · exact htail e he
    · exact hq e he

private theorem quiet_reopened (fs : SampleInfo) (codec : CodecConfig) :
    ∀ e ∈ s.reopened fs codec, ¬ e.TouchesSlot := by
  intro e he
  simp only [reopened, List.mem_append] at he
  split at he <;> split at he <;> simp at he <;> grind [BrtcEffect.TouchesSlot]

private theorem setRtcMode_oneWrite (enable : Bool) (rtcClient : Option BrtcHandle) :
    s.OneWrite (s.setRtcMode enable rtcClient) := by
  have hwritten : s.OneWrite { { s with isRtcMode := enable }.writeSlot enable rtcClient with
      isRtcStreamUp := false, isConnected := enable } := ⟨[], rfl, by simp⟩
  cases enable
  all_goals
    refine hwritten.emit fun e he => ?_
    rcases List.mem_append.mp he with he | he
    · exact quiet_reopened _ _ e he
    · simp at he
      grind [BrtcEffect.TouchesSlot]

private theorem leaveRoom_unreachable :
    (s.setRtcMode false none).leaveRoom = s.setRtcMode false none := rfl

private theorem startEngine_oneWrite {s' : Brtc} (w : SwitchWorld) (h : s.OneWrite s') :
    s.OneWrite (s'.startEngine w).2 := by
  have hinit : s.OneWrite (s'.emit [.sdkInitialized]) := h.emit (by simp [BrtcEffect.TouchesSlot])
  have hengine : s.OneWrite { s'.emit [.sdkInitialized] with engine := w.createEngine } := hinit
  simp only [startEngine]
  split
  · exact hinit
  split
  · exact hengine
  split
  · exact hengine.emit (by simp [BrtcEffect.TouchesSlot])
  · exact hengine.emit (by simp [BrtcEffect.TouchesSlot])

private theorem switchToAiMode_oneWrite (w : SwitchWorld) : s.OneWrite (s.switchToAiMode w).2 := by
  rw [switchToAiMode, leaveRoom_unreachable]
  exact startEngine_oneWrite w (setRtcMode_oneWrite false none)

private theorem step_oneWrite (op : BrtcOp) : s.OneWrite (op.step s) := by
  cases op with
  | setRtcMode enable rtcClient => exact setRtcMode_oneWrite enable rtcClient
  | switchToAiMode w => exact switchToAiMode_oneWrite w

/-- The account of the log says what the slot holds, and that nothing has been done with it. -/
def Untouched (s : Brtc) : Prop :=
  run SlotAccount.after ⟨none, 0, 0⟩ s.log = ⟨if s.isRtcMode then s.rtcClient else none, 0, 0⟩

/-- The slot holds a client that an enabling call has stored. -/
def HoldsClient (s : Brtc) : Prop := s.isRtcMode = true ∧ s.rtcClient.isSome

instance : DecidablePred HoldsClient := fun s =>
  inferInstanceAs (Decidable (s.isRtcMode = true ∧ s.rtcClient.isSome = true))

private theorem start_untouched (playDev recDev : Bool) : (start playDev recDev).Untouched := rfl

private theorem oneWrite_neverDropped {s s' : Brtc} (h : s.OneWrite s') (hs : s.Untouched) :
    s'.Untouched ∧ (NeverDropped s'.log ↔ NeverDropped s.log ∧ ¬ s.HoldsClient) := by
  obtain ⟨tail, hlog, hquiet⟩ := h
  constructor
  · rw [Untouched, hlog, run_append, run_cons]
    exact (SlotAccount.quiet_tail hquiet).1
  · have htail := (SlotAccount.quiet_tail (a := (SlotAccount.mk
      (if s.isRtcMode then s.rtcClient else none) 0 0).after
        (.slotWritten s'.isRtcMode s'.rtcClient)) hquiet).2
    rw [NeverDropped, hlog, allSteps_append, hs, allSteps_cons, SlotAccount.settled_slotWritten]
    simp only [htail, and_true, NeverDropped, HoldsClient]
    cases s.isRtcMode <;> cases s.rtcClient <;> simp

theorem neverDropped_run {s : Brtc} (hs : s.Untouched) (calls : List BrtcOp) :
    NeverDropped (run BrtcOp.step s calls).log ↔
      NeverDropped s.log ∧ AllSteps BrtcOp.step (fun s _ => ¬ s.HoldsClient) s calls := by
  induction calls generalizing s with
  | nil => simp
  | cons op calls ih =>
    obtain ⟨hnext, hiff⟩ := oneWrite_neverDropped (step_oneWrite op) hs
    rw [run_cons, ih hnext, hiff, allSteps_cons, and_assoc]

end Brtc

/-- In a run from the start no client is dropped alive exactly when every call finds the slot
without a client of an enabling call: no call logs such a client out. -/
theorem rtcClient_neverDropped_iff (playDev recDev : Bool) (calls : List BrtcOp) :
    NeverDropped (run BrtcOp.step (.start playDev recDev) calls).log ↔
      AllSteps BrtcOp.step (fun s _ => ¬ s.HoldsClient) (.start playDev recDev) calls := by
  rw [Brtc.neverDropped_run (Brtc.start_untouched playDev recDev)]
  exact and_iff_right trivial

/-- The RTC mode is entered with a client and left again: the client is neither logged out nor
destroyed. -/
theorem oneCycle_dropsClient :
    ¬ NeverDropped (run BrtcOp.step (.start true true)
        [.setRtcMode true (some 7), .switchToAiMode ⟨0, some 9, 200⟩]).log := by
  rw [Brtc.neverDropped_run (Brtc.start_untouched true true)]
  intro hsteps
  obtain ⟨-, -, hswitch, -⟩ := hsteps
  exact hswitch ⟨rfl, rfl⟩

end Leyu
