import Leyu.Platform
import Leyu.Framework.Runs

/-!
# The WiFi station

`wifi_event_handler` of `blufi_example_main.c` with `example_wifi_connect` and
`example_wifi_reconnect`. A disconnect is answered by a new attempt as long as attempts are
left, and by the failure handling otherwise, unless the station was connected until then. A
reason that is taken for a wrong password uses up the attempts at once: after a successful
connection such a disconnect is answered by nothing.
-/

namespace Leyu

open Framework

/-- The reason codes `wifi_event_handler` names, and all others. -/
inductive WifiReason
  | authExpire | authLeave | fourWayHandshakeTimeout | authFail | handshakeTimeout
  | other (code : Nat)
  deriving DecidableEq, Repr

def WifiReason.isPwdError : WifiReason → Bool
  | .other _ => false
  | _ => true

def exampleWifiConnectionMaximumRetry : Nat := 10

def wifiErrorUri : Text := "file:///spiffs/wifierror.mp3".toList

def wifiFailUri : Text := "file:///spiffs/wifi_fail.mp3".toList

/-- What the station code asks of the SDK, of the prompt player and of the app. -/
inductive WifiEffect
  | connect
  | prompt (uri : Text)
  /-- The stored configuration is overwritten by an empty one. -/
  | configCleared
  | waitAudioStarted
  /-- The failure message with its type: 1 for a wrong password, 0 for any other failure. -/
  | failMessage (failType : Nat)
  deriving DecidableEq, Repr

structure WifiWorld where
  connects : Bool
  /-- `create_wifi_fail_json` gives a text. -/
  jsonCreated : Bool
  /-- There is memory for the copy of it. -/
  dataAllocated : Bool
  hostStarts : Bool
  deriving DecidableEq, Repr

def WifiWorld.allOk : WifiWorld := ⟨true, true, true, true⟩

structure Station where
  /-- `example_wifi_retry`, a `uint8_t`. -/
  exampleWifiRetry : Nat
  glStaConnected : Bool
  glStaIsConnecting : Bool
  glStaGotIp : Bool
  bleIsConnected : Bool
  bleIsInitialized : Bool
  deriving DecidableEq, Repr

namespace Station

def connect (w : WifiWorld) (s : Station) : Station × List WifiEffect :=
  ({ s with exampleWifiRetry := 0, glStaIsConnecting := w.connects }, [.connect])

def reconnect (s : Station) : Bool × Station × List WifiEffect :=
  let retried := { s with exampleWifiRetry := (s.exampleWifiRetry + 1) % 256 }
  if s.exampleWifiRetry < exampleWifiConnectionMaximumRetry then (true, retried, [.connect])
  else (false, retried, [])

/-- The message to the app, which needs memory twice. -/
def sendFail (failType : Nat) (w : WifiWorld) : List WifiEffect :=
  if w.jsonCreated && w.dataAllocated then [.failMessage failType] else []

/-- The branch for a wrong password: prompt, empty configuration, BLE for a new one. -/
def passwordFailure (w : WifiWorld) (s : Station) : Station × List WifiEffect :=
  if s.bleIsInitialized then (s, [.prompt wifiErrorUri, .configCleared])
  else if w.hostStarts then
    ({ s with bleIsInitialized := true }, [.prompt wifiErrorUri, .configCleared, .waitAudioStarted])
  else (s, [.prompt wifiErrorUri, .configCleared])

/-- What is done when a connection is given up. -/
def connectionFailure (reason : WifiReason) (w : WifiWorld) (s : Station) :
    Station × List WifiEffect :=
  let s := { s with glStaIsConnecting := false }
  let r := if reason.isPwdError then s.passwordFailure w else (s, [.prompt wifiFailUri])
  if r.1.bleIsConnected then
    (r.1, r.2 ++ sendFail (if reason.isPwdError then 1 else 0) w)
  else r

/-- The branch for `WIFI_EVENT_STA_DISCONNECTED`. -/
def disconnected (reason : WifiReason) (w : WifiWorld) (s : Station) :
    Station × List WifiEffect :=
  let s :=
    if reason.isPwdError then { s with exampleWifiRetry := exampleWifiConnectionMaximumRetry }
    else s
  let again := s.reconnect
  let r :=
    if again.1 = false ∧ again.2.1.glStaConnected = false then
      connectionFailure reason w again.2.1
    else again.2
  ({ r.1 with glStaConnected := false, glStaGotIp := false }, r.2)

def boot : Station := ⟨0, false, false, false, false, false⟩

end Station

inductive WifiOp
  | staStart (w : WifiWorld)
  | staConnected
  | staDisconnected (reason : WifiReason) (w : WifiWorld)
  | apStart (w : WifiWorld)
  | gotIp
  | bleStarted
  | bleReleased
  | bleConnected
  | bleDisconnected
  | connectToAp (w : WifiWorld)
  | button (w : WifiWorld)
  deriving DecidableEq, Repr

def WifiOp.handle (s : Station) : WifiOp → Station × List WifiEffect
  | .staStart w => s.connect w
  | .staConnected =>
      ({ s with exampleWifiRetry := 0, glStaConnected := true, glStaIsConnecting := false }, [])
  | .staDisconnected reason w => s.disconnected reason w
  | .apStart w =>
      if s.bleIsConnected && !s.glStaConnected && !s.glStaIsConnecting then
        (s, .prompt wifiFailUri :: Station.sendFail 1 w)
      else (s, [])
  | .gotIp => ({ s with glStaGotIp := true }, [])
  | .bleStarted => ({ s with bleIsInitialized := true }, [])
  | .bleReleased => ({ s with bleIsInitialized := false }, [])
  | .bleConnected => ({ s with bleIsConnected := true }, [])
  | .bleDisconnected => ({ s with bleIsConnected := false }, [])
  | .connectToAp w => s.connect w
  | .button w =>
      if s.glStaConnected = false ∧ s.glStaIsConnecting = false then s.connect w else (s, [])

def WifiOp.step (s : Station) (op : WifiOp) : Station := (op.handle s).1

/-- A new attempt was started, or the failure was prompted and, with BLE connected, told to the
app. -/
def LossAnswered (bleIsConnected : Bool) (effects : List WifiEffect) : Prop :=
  .connect ∈ effects ∨
    (.prompt wifiErrorUri ∈ effects ∨ .prompt wifiFailUri ∈ effects) ∧
      (bleIsConnected = true → .failMessage 0 ∈ effects ∨ .failMessage 1 ∈ effects)

instance (b : Bool) (effects : List WifiEffect) : Decidable (LossAnswered b effects) := by
  unfold LossAnswered; infer_instance

def NoLossDropped (s : Station) : WifiOp → Prop
  | .staDisconnected reason w => LossAnswered s.bleIsConnected (s.disconnected reason w).2
  | _ => True

instance (s : Station) (op : WifiOp) : Decidable (NoLossDropped s op) := by
  cases op <;> unfold NoLossDropped <;> infer_instance

/-- The reason of a disconnect is not one of a wrong password while the station is connected, and
where no attempt is left and BLE is connected there is memory for the message. -/
def LossExpected (s : Station) : WifiOp → Prop
  | .staDisconnected reason w =>
      (reason.isPwdError = true → s.glStaConnected = false) ∧
        (reason.isPwdError = true ∨ exampleWifiConnectionMaximumRetry ≤ s.exampleWifiRetry →
          s.bleIsConnected = true → w.jsonCreated = true ∧ w.dataAllocated = true)
  | _ => True

def AttemptsLeft (s : Station) : Prop := s.glStaConnected = true → s.exampleWifiRetry = 0

private theorem AttemptsLeft.boot : AttemptsLeft Station.boot := by
  intro h
  cases h

private theorem AttemptsLeft.step {s : Station} (h : AttemptsLeft s) (op : WifiOp) :
    AttemptsLeft (op.step s) := by
  cases op with
  | staStart w => exact fun _ => rfl
  | staConnected => exact fun _ => rfl
  | staDisconnected reason w =>
    intro hconnected
    rw [show ((WifiOp.staDisconnected reason w).step s).glStaConnected = false from rfl]
      at hconnected
    cases hconnected
  | apStart w =>
    unfold WifiOp.step WifiOp.handle
    dsimp only
    split
    · exact h
    · exact h
  | connectToAp w => exact fun _ => rfl
  | button w =>
    unfold WifiOp.step WifiOp.handle
    dsimp only
    split
    · exact fun _ => rfl
    · exact h
  | gotIp | bleStarted | bleReleased | bleConnected | bleDisconnected => exact h

/-- No attempt is made for this reason: it is one of a wrong password, or none is left. -/
def GivesUp (reason : WifiReason) (s : Station) : Prop :=
  reason.isPwdError = true ∨ exampleWifiConnectionMaximumRetry ≤ s.exampleWifiRetry

theorem disconnected_retries {reason : WifiReason} {s : Station} (h : ¬ GivesUp reason s)
    (w : WifiWorld) : (s.disconnected reason w).2 = [.connect] := by
  unfold GivesUp at h
  rw [not_or, not_le] at h
  obtain ⟨hreason, hleft⟩ := h
  simp [Station.disconnected, Station.reconnect, hreason, hleft]

private theorem reconnect_of_no_attempt {s : Station}
    (h : exampleWifiConnectionMaximumRetry ≤ s.exampleWifiRetry) :
    s.reconnect = (false, { s with exampleWifiRetry := (s.exampleWifiRetry + 1) % 256 }, []) := by
  unfold Station.reconnect
  rw [if_neg (not_lt.mpr h)]

theorem disconnected_givesUp {reason : WifiReason} {s : Station} (h : GivesUp reason s)
    (w : WifiWorld) : ∃ retry, (s.disconnected reason w).2 =
      if s.glStaConnected = false then
        (Station.connectionFailure reason w { s with exampleWifiRetry := retry }).2
      else [] := by
  unfold Station.disconnected
  cases hreason : reason.isPwdError with
  | true =>
    refine ⟨(exampleWifiConnectionMaximumRetry + 1) % 256, ?_⟩
    simp only [if_true]
    rw [reconnect_of_no_attempt le_rfl]
    simp only [true_and]
    split
    · rfl
    · rfl
  | false =>
    have hused : exampleWifiConnectionMaximumRetry ≤ s.exampleWifiRetry := by
      rcases h with hpwd | hused
      · rw [hreason] at hpwd
        cases hpwd
      · exact hused
    refine ⟨(s.exampleWifiRetry + 1) % 256, ?_⟩
    simp only [Bool.false_eq_true, if_false]
    rw [reconnect_of_no_attempt hused]
    simp only [true_and]
    split
    · rfl
    · rfl

private theorem sendFail_mem (t failType : Nat) (w : WifiWorld) :
    WifiEffect.failMessage t ∈ Station.sendFail failType w ↔
      t = failType ∧ w.jsonCreated = true ∧ w.dataAllocated = true := by
  unfold Station.sendFail
  cases w.jsonCreated <;> cases w.dataAllocated <;> simp

/-- What happens on the device itself: a prompt, and neither an attempt nor a message. -/
structure LocalFailure (effects : List WifiEffect) : Prop where
  prompted : .prompt wifiErrorUri ∈ effects ∨ .prompt wifiFailUri ∈ effects
  quiet : .connect ∉ effects ∧ ∀ failType, .failMessage failType ∉ effects

private theorem passwordFailure_local (w : WifiWorld) (s : Station) :
    LocalFailure (s.passwordFailure w).2 ∧
      (s.passwordFailure w).1.bleIsConnected = s.bleIsConnected := by
  unfold Station.passwordFailure
  split
  · exact ⟨⟨by simp, by simp⟩, rfl⟩
  · split
    · exact ⟨⟨by simp, by simp⟩, rfl⟩
    · exact ⟨⟨by simp, by simp⟩, rfl⟩

theorem connectionFailure_effects (reason : WifiReason) (w : WifiWorld) (s : Station) :
    ∃ effects failType, LocalFailure effects ∧ (failType = 0 ∨ failType = 1) ∧
      (Station.connectionFailure reason w s).2 =
        if s.bleIsConnected then effects ++ Station.sendFail failType w else effects := by
  unfold Station.connectionFailure
  cases hreason : reason.isPwdError with
  | true =>
    obtain ⟨hlocal, hble⟩ := passwordFailure_local w { s with glStaIsConnecting := false }
    refine ⟨_, 1, hlocal, .inr rfl, ?_⟩
    simp only [if_true]
    rw [hble]
    split
    · rfl
    · rfl
  | false =>
    refine ⟨[.prompt wifiFailUri], 0, ⟨by simp, by simp⟩, .inl rfl, ?_⟩
    simp only [Bool.false_eq_true, if_false]
    split
    · rfl
    · rfl

private theorem connectionFailure_answered_iff (reason : WifiReason) (w : WifiWorld) (s : Station) :
    LossAnswered s.bleIsConnected (Station.connectionFailure reason w s).2 ↔
      (s.bleIsConnected = true → w.jsonCreated = true ∧ w.dataAllocated = true) := by
  obtain ⟨effects, failType, hlocal, htype, heffects⟩ := connectionFailure_effects reason w s
  have hprompt := hlocal.prompted
  obtain ⟨hconnect, hmessage⟩ := hlocal.quiet
  rw [heffects]
  unfold LossAnswered
  cases hble : s.bleIsConnected with
  | false =>
    refine iff_of_true (.inr ⟨hprompt, fun h => ?_⟩) fun h => ?_
    · cases h
    · cases h
  | true =>
    have hconnect' : WifiEffect.connect ∉ Station.sendFail failType w := by
      unfold Station.sendFail
      split <;> simp
    simp only [if_true, List.mem_append, hconnect, hconnect', hmessage, or_self, false_or,
      true_implies]
    constructor
    · rintro ⟨-, hsent | hsent⟩
      · exact ((sendFail_mem 0 failType w).mp hsent).2
      · exact ((sendFail_mem 1 failType w).mp hsent).2
    · intro hmemory
      refine ⟨hprompt.imp .inl .inl, ?_⟩
      have hsent := (sendFail_mem failType failType w).mpr ⟨rfl, hmemory⟩
      rcases htype with rfl | rfl
      · exact .inl hsent
      · exact .inr hsent

private theorem noLossDropped_iff {s : Station} (h : AttemptsLeft s) (op : WifiOp) :
    NoLossDropped s op ↔ LossExpected s op := by
  cases op with
  | staDisconnected reason w =>
    show LossAnswered s.bleIsConnected (s.disconnected reason w).2 ↔
      (reason.isPwdError = true → s.glStaConnected = false) ∧ (GivesUp reason s →
        s.bleIsConnected = true → w.jsonCreated = true ∧ w.dataAllocated = true)
    by_cases hgive : GivesUp reason s
    · obtain ⟨retry, heffects⟩ := disconnected_givesUp hgive w
      rw [heffects]
      by_cases hconn : s.glStaConnected = false
      · rw [if_pos hconn]
        have hanswer := connectionFailure_answered_iff reason w { s with exampleWifiRetry := retry }
        constructor
        · exact fun hans => ⟨fun _ => hconn, fun _ => hanswer.mp hans⟩
        · exact fun hexp => hanswer.mpr (hexp.2 hgive)
      · -- the station had all its attempts, so the reason is one of a wrong password
        rw [if_neg hconn]
        have hpwd : reason.isPwdError = true := by
          rcases hgive with hpwd | hused
          · exact hpwd
          · rw [h (by simpa using hconn)] at hused
            exact absurd hused (by decide)
        refine iff_of_false ?_ fun hexp => hconn (hexp.1 hpwd)
        simp [LossAnswered]
    · rw [disconnected_retries hgive w]
      have hpwd : reason.isPwdError ≠ true := fun hpwd => hgive (.inl hpwd)
      refine iff_of_true (.inl List.mem_cons_self) ⟨?_, ?_⟩
      · exact fun hyes => absurd hyes hpwd
      · exact fun hyes => absurd hyes hgive
  | _ => exact Iff.rfl

/-- No disconnect of a run is dropped exactly when each one is of the kind the handler expects. -/
theorem noLossDropped_run_iff (ops : List WifiOp) :
    AllSteps WifiOp.step NoLossDropped Station.boot ops ↔
      AllSteps WifiOp.step LossExpected Station.boot ops := by
  refine allSteps_congr (fun s op hs hok => ?_) (fun s op hs hgood => ?_) AttemptsLeft.boot ops
  · exact ⟨(noLossDropped_iff hs op).mpr hok, hs.step op⟩
  · exact (noLossDropped_iff hs op).mp hgood

/-- The access point goes down under a station that was connected. -/
def apReboots : List WifiOp :=
  [.staStart .allOk, .staConnected, .gotIp, .staDisconnected .authExpire .allOk]

theorem apReboots_dropped : ¬ AllSteps WifiOp.step NoLossDropped Station.boot apReboots := by
  decide

end Leyu
