import Leyu.Platform
import Leyu.Framework.Runs

/-!
# The 4G module

`usb_rndis_4g_module.c`: the start-up state machine of `usb_module_app_init` with its monitor
loop, the handler of the Ethernet and IP events and the callback for a closed AT port. One step
of the state machine reads and writes what the tasks share at one place, so that the handler,
the callback and a reset by another task can come between any two places.
`g_4g_hardware_reset_requested` is set nowhere in the repository and its tests are left out.
-/

namespace Leyu

/-- `ml307a_state_t` -/
inductive Ml307aState
  | powerOn | atSync | checkSim | checkNetwork | startDatacall | connected | errorNoSim
  | errorNetFail
  deriving DecidableEq, Repr

/-- `esp_modem_pin_state_t` -/
inductive PinState
  | unknown | ready | simPin | simPin2 | simPuk | simPuk2
  deriving DecidableEq, Repr

/-- The events `iot_event_handle` tells apart: four of the Ethernet driver, two of the IP stack. -/
inductive NetEvent
  | start | stop | connected | disconnected | gotIp | lostIp
  deriving DecidableEq, Repr

def atReadyMaxRetries : Nat := 15

def simReadyMaxRetries : Nat := 20

def networkReadyMaxRetries : Nat := 30

inductive RecoveryStage
  | reset | deinit | clearOnline | clearBits | waitLink
  deriving DecidableEq, Repr

/-- Where the task of `usb_module_app_init` stands. -/
inductive FsmPoint
  | powerOn
  /-- The link is up, the CDC handle is being polled. -/
  | settle
  /-- In `recover_rndis_link`; from `STATE_POWER_ON` a timeout restarts the device. -/
  | recovery (fromPowerOn : Bool) (stage : RecoveryStage)
  | atSync
  | probe (attempt : Nat)
  | checkSim (attempt : Nat)
  /-- `wait_for_sim_ready` has returned `ESP_OK`. -/
  | simReady
  | checkNetwork (attempt : Nat)
  | startDatacall
  | clearOnline
  | dial
  | waitIp
  | netFail
  /-- `STATE_CONNECTED` has left the inner loop, the online flag is not yet set. -/
  | declare
  | monitor
  /-- The flag was seen down and is read again three seconds later. -/
  | debounce
  | noSim
  | finished
  | restarted
  deriving DecidableEq, Repr

/-- What the properties of the module look back at. -/
inductive ModuleMark
  /-- `fsm_state` was assigned; the flag tells that the AT handle was not null. -/
  | entered (state : Ml307aState) (handle : Bool)
  | pinAnswer (pin : PinState)
  | hardwareReset
  | waitReturned (ret : EspErr)
  | received (event : NetEvent)
  deriving DecidableEq, Repr

/-- The globals of `usb_rndis_4g_module.c` and the place of its task. -/
structure UsbModule where
  point : FsmPoint
  /-- `g_at_ctx.cdc_port` is not null. -/
  cdcPort : Bool
  /-- `g_at_ctx.at_handle` is not null. -/
  atHandle : Bool
  /-- `EVENT_LINK_UP_BIT` -/
  linkUp : Bool
  /-- `EVENT_GOT_IP_BIT` -/
  gotIp : Bool
  /-- `EVENT_HW_RESET_BIT` -/
  hwReset : Bool
  internetConnected : Bool
  /-- The event whose handler is running. -/
  handling : Option NetEvent
  /-- Newest first. -/
  history : List ModuleMark
  deriving DecidableEq, Repr

structure AtInitWorld where
  parserCreated : Bool
  cdcHandle : Bool
  portOpen : EspErr
  parserStart : EspErr
  deriving DecidableEq, Repr

structure ModuleAnswer where
  /-- The wait at this place has run out of time. -/
  timedOut : Bool
  /-- The CDC handle was seen twice in a row. -/
  cdcStable : Bool
  atInit : AtInitWorld
  /-- What the AT command returns, when there is a handle to send it on. -/
  reply : EspErr
  pin : PinState
  stat : Nat
  deriving DecidableEq, Repr

def ModuleAnswer.allOk : ModuleAnswer := ⟨false, true, ⟨true, true, .ok, .ok⟩, .ok, .ready, 1⟩

namespace UsbModule

def goto (p : FsmPoint) (m : UsbModule) : UsbModule := { m with point := p }

def log (mark : ModuleMark) (m : UsbModule) : UsbModule := { m with history := mark :: m.history }

def enter (state : Ml307aState) (p : FsmPoint) (m : UsbModule) : UsbModule :=
  (m.log (.entered state m.atHandle)).goto p

/-- An AT command on a null handle is refused, with one it is the modem that answers. -/
def atCall (reply : EspErr) (m : UsbModule) : EspErr := if m.atHandle then reply else .invalidArg

def atDeinitContext (m : UsbModule) : UsbModule := { m with cdcPort := false, atHandle := false }

def atPortClosedCb (m : UsbModule) : UsbModule := { m with cdcPort := false, atHandle := false }

def reset4gModuleHardware (m : UsbModule) : UsbModule :=
  { m with hwReset := true }.log .hardwareReset

def atInit (w : AtInitWorld) (m : UsbModule) : EspErr × UsbModule :=
  let m := if m.cdcPort || m.atHandle then m.atDeinitContext else m
  let m := { m with cdcPort := false, atHandle := false }
  if w.parserCreated then
    let m := { m with atHandle := true }
    if w.cdcHandle then
      if w.portOpen = .ok then
        let m := { m with cdcPort := true }
        if w.parserStart = .ok then (.ok, m) else (w.parserStart, m.atDeinitContext)
      else (w.portOpen, m.atDeinitContext)
    else (.fail, { m with atHandle := false })
  else (.fail, m)

theorem atInit_cases (w : AtInitWorld) (m : UsbModule) :
    atInit w m = (.ok, { m with cdcPort := true, atHandle := true }) ∨
      ((atInit w m).1 ≠ .ok ∧ (atInit w m).2 = m.atDeinitContext) := by
  have hclean : (if m.cdcPort || m.atHandle then m.atDeinitContext else m).atDeinitContext
      = m.atDeinitContext := by split <;> rfl
  unfold atInit
  cases hp : w.parserCreated
  · exact .inr ⟨by simp, by simpa [atDeinitContext] using hclean⟩
  · cases hc : w.cdcHandle
    · exact .inr ⟨by simp, by simpa [atDeinitContext] using hclean⟩
    · by_cases ho : w.portOpen = .ok
      · by_cases hs : w.parserStart = .ok
        · left
          simp only [ho, hs, if_true]
          split <;> rfl
        · exact .inr ⟨by simp [ho, hs], by simpa [ho, hs, atDeinitContext] using hclean⟩
      · exact .inr ⟨by simp [ho], by simpa [ho, atDeinitContext] using hclean⟩

def syncFails (m : UsbModule) : UsbModule := m.atDeinitContext.goto (.recovery false .reset)

/-- `wait_for_rndis_link_up` at the start of `wait_for_rndis_ready`. -/
def powerOnStep (a : ModuleAnswer) (m : UsbModule) : UsbModule :=
  if m.linkUp then m.goto .settle
  else if a.timedOut then m.goto (.recovery true .reset) else m

/-- The rest of `wait_for_rndis_ready`. -/
def settleStep (a : ModuleAnswer) (m : UsbModule) : UsbModule :=
  if a.cdcStable then m.enter .atSync .atSync else m.goto (.recovery true .reset)

def atSyncStep (a : ModuleAnswer) (m : UsbModule) : UsbModule :=
  if !m.cdcPort || !m.atHandle then
    let r := atInit a.atInit m
    if r.1 = .ok then r.2.goto (.probe 0) else r.2.syncFails
  else m.goto (.probe 0)

/-- One attempt of `wait_for_at_probe_ready`. -/
def probeStep (attempt : Nat) (a : ModuleAnswer) (m : UsbModule) : UsbModule :=
  if m.atHandle then
    if a.reply = .ok then m.enter .checkSim (.checkSim 0)
    else if attempt + 1 < atReadyMaxRetries then m.goto (.probe (attempt + 1))
    else m.syncFails
  else m.syncFails

/-- One attempt of `wait_for_sim_ready`; its result is `ESP_OK` only for `PIN_READY`. -/
def simStep (attempt : Nat) (a : ModuleAnswer) (m : UsbModule) : UsbModule :=
  let ret := m.atCall a.reply
  let m := if ret = .ok then m.log (.pinAnswer a.pin) else m
  if ret = .ok ∧ a.pin = .ready then m.goto .simReady
  else if attempt + 1 < simReadyMaxRetries then m.goto (.checkSim (attempt + 1))
  else m.enter .errorNoSim .noSim

/-- One attempt of `wait_for_network_registered`. -/
def networkStep (attempt : Nat) (a : ModuleAnswer) (m : UsbModule) : UsbModule :=
  if m.atCall a.reply = .ok ∧ (a.stat = 1 ∨ a.stat = 5) then
    m.enter .startDatacall .startDatacall
  else if attempt + 1 < networkReadyMaxRetries then m.goto (.checkNetwork (attempt + 1))
  else m.enter .errorNetFail .netFail

/-- `execute_datacall`, which fails when the dial command does. -/
def dialStep (a : ModuleAnswer) (m : UsbModule) : UsbModule :=
  if m.atCall a.reply = .ok then m.goto .waitIp else m.enter .errorNetFail .netFail

def waitForUsbGotIp (a : ModuleAnswer) (m : UsbModule) : UsbModule :=
  if m.hwReset then
    ({ m with hwReset := false }.log (.waitReturned .fail)).enter .errorNetFail .netFail
  else if m.gotIp then (m.log (.waitReturned .ok)).enter .connected .declare
  else if a.timedOut then (m.log (.waitReturned .timeout)).enter .errorNetFail .netFail
  else m

/-- `recover_rndis_link` -/
def recoverStep (fromPowerOn : Bool) (a : ModuleAnswer) (m : UsbModule) : RecoveryStage → UsbModule
  | .reset => m.reset4gModuleHardware.goto (.recovery fromPowerOn .deinit)
  | .deinit => m.atDeinitContext.goto (.recovery fromPowerOn .clearOnline)
  | .clearOnline => { m with internetConnected := false }.goto (.recovery fromPowerOn .clearBits)
  | .clearBits => { m with linkUp := false, gotIp := false }.goto (.recovery fromPowerOn .waitLink)
  | .waitLink =>
      if m.linkUp then
        if fromPowerOn then m.goto .powerOn else m.enter .powerOn .powerOn
      else if a.timedOut then
        if fromPowerOn then m.reset4gModuleHardware.goto .restarted else m.enter .powerOn .powerOn
      else m

def fsmStep (a : ModuleAnswer) (m : UsbModule) : UsbModule :=
  match m.point with
  | .powerOn => m.powerOnStep a
  | .settle => m.settleStep a
  | .recovery fromPowerOn stage => m.recoverStep fromPowerOn a stage
  | .atSync => m.atSyncStep a
  | .probe attempt => m.probeStep attempt a
  | .checkSim attempt => m.simStep attempt a
  | .simReady => m.enter .checkNetwork (.checkNetwork 0)
  | .checkNetwork attempt => m.networkStep attempt a
  | .startDatacall => { m with gotIp := false }.goto .clearOnline
  | .clearOnline => { m with internetConnected := false }.goto .dial
  | .dial => m.dialStep a
  | .waitIp => m.waitForUsbGotIp a
  | .netFail => m.enter .checkNetwork (.checkNetwork 0)
  | .declare => { m with internetConnected := true }.goto .monitor
  | .monitor => if m.internetConnected then m else m.goto .debounce
  | .debounce =>
      if m.internetConnected then m.goto .monitor
      else m.atDeinitContext.goto (.recovery false .reset)
  | .noSim => { m.atDeinitContext with internetConnected := false }.goto .finished
  | .finished => m
  | .restarted => m

/-- What a step of the state machine can do, place by place. -/
inductive FsmStep (a : ModuleAnswer) (m : UsbModule) : UsbModule → Prop
  | stays : FsmStep a m m
  | linkSeen (hp : m.point = .powerOn) : FsmStep a m (m.goto .settle)
  | notReady (hp : m.point = .powerOn ∨ m.point = .settle) :
      FsmStep a m (m.goto (.recovery true .reset))
  | ready (hp : m.point = .settle) : FsmStep a m (m.enter .atSync .atSync)
  | contextKept (hp : m.point = .atSync) (hh : m.atHandle = true) : FsmStep a m (m.goto (.probe 0))
  | contextMade (hp : m.point = .atSync) :
      FsmStep a m ({ m with cdcPort := true, atHandle := true }.goto (.probe 0))
  | syncFails (hp : m.point = .atSync ∨ ∃ k, m.point = .probe k) : FsmStep a m m.syncFails
  | probeAgain (k : Nat) (hp : m.point = .probe k) : FsmStep a m (m.goto (.probe (k + 1)))
  | probed (k : Nat) (hp : m.point = .probe k) (hh : m.atHandle = true) :
      FsmStep a m (m.enter .checkSim (.checkSim 0))
  | simReady (k : Nat) (hp : m.point = .checkSim k) (hh : m.atHandle = true) :
      FsmStep a m ((m.log (.pinAnswer .ready)).goto .simReady)
  | simRefused (k : Nat) (pin : PinState) (hp : m.point = .checkSim k)
      (hk : k + 1 < simReadyMaxRetries) (hpin : pin ≠ .ready) :
      FsmStep a m ((m.log (.pinAnswer pin)).goto (.checkSim (k + 1)))
  | simFailed (k : Nat) (hp : m.point = .checkSim k) (hk : k + 1 < simReadyMaxRetries) :
      FsmStep a m (m.goto (.checkSim (k + 1)))
  | noSimRefused (k : Nat) (pin : PinState) (hp : m.point = .checkSim k) (hpin : pin ≠ .ready) :
      FsmStep a m ((m.log (.pinAnswer pin)).enter .errorNoSim .noSim)
  | noSimFailed (k : Nat) (hp : m.point = .checkSim k) (hk : simReadyMaxRetries ≤ k + 1)
      (hret : m.atCall a.reply ≠ .ok) :
      FsmStep a m (m.enter .errorNoSim .noSim)
  | networkChecked (hp : m.point = .simReady ∨ m.point = .netFail) :
      FsmStep a m (m.enter .checkNetwork (.checkNetwork 0))
  | registered (k : Nat) (hp : m.point = .checkNetwork k) (hh : m.atHandle = true)
      (hreg : m.atCall a.reply = .ok ∧ (a.stat = 1 ∨ a.stat = 5)) :
      FsmStep a m (m.enter .startDatacall .startDatacall)
  | notRegistered (k : Nat) (hp : m.point = .checkNetwork k) :
      FsmStep a m (m.goto (.checkNetwork (k + 1)))
  | networkFails (hp : (∃ k, m.point = .checkNetwork k) ∨ m.point = .dial) :
      FsmStep a m (m.enter .errorNetFail .netFail)
  | gotIpCleared (hp : m.point = .startDatacall) :
      FsmStep a m ({ m with gotIp := false }.goto .clearOnline)
  | onlineCleared (hp : m.point = .clearOnline) :
      FsmStep a m ({ m with internetConnected := false }.goto .dial)
  | dialled (hp : m.point = .dial) (hh : m.atHandle = true) : FsmStep a m (m.goto .waitIp)
  | resetSeen (hp : m.point = .waitIp) (hr : m.hwReset = true) :
      FsmStep a m (({ m with hwReset := false }.log (.waitReturned .fail)).enter .errorNetFail
        .netFail)
  | ipSeen (hp : m.point = .waitIp) (hr : m.hwReset = false) (hg : m.gotIp = true) :
      FsmStep a m ((m.log (.waitReturned .ok)).enter .connected .declare)
  | waitTimeout (hp : m.point = .waitIp) (hr : m.hwReset = false) (hg : m.gotIp = false)
      (ht : a.timedOut = true) :
      FsmStep a m ((m.log (.waitReturned .timeout)).enter .errorNetFail .netFail)
  | declared (hp : m.point = .declare) :
      FsmStep a m ({ m with internetConnected := true }.goto .monitor)
  | offlineSeen (hp : m.point = .monitor) : FsmStep a m (m.goto .debounce)
  | onlineAgain (hp : m.point = .debounce) : FsmStep a m (m.goto .monitor)
  | offline (hp : m.point = .debounce) :
      FsmStep a m (m.atDeinitContext.goto (.recovery false .reset))
  | recoveryReset (b : Bool) (hp : m.point = .recovery b .reset) :
      FsmStep a m (m.reset4gModuleHardware.goto (.recovery b .deinit))
  | recoveryDeinit (b : Bool) (hp : m.point = .recovery b .deinit) :
      FsmStep a m (m.atDeinitContext.goto (.recovery b .clearOnline))
  | recoveryOffline (b : Bool) (hp : m.point = .recovery b .clearOnline) :
      FsmStep a m ({ m with internetConnected := false }.goto (.recovery b .clearBits))
  | recoveryBits (b : Bool) (hp : m.point = .recovery b .clearBits) :
      FsmStep a m ({ m with linkUp := false, gotIp := false }.goto (.recovery b .waitLink))
  | recoveredPowerOn (hp : m.point = .recovery true .waitLink) : FsmStep a m (m.goto .powerOn)
  | recovered (hp : m.point = .recovery false .waitLink) : FsmStep a m (m.enter .powerOn .powerOn)
  | restarts (hp : m.point = .recovery true .waitLink) :
      FsmStep a m (m.reset4gModuleHardware.goto .restarted)
  | stopped (hp : m.point = .noSim) :
      FsmStep a m ({ m.atDeinitContext with internetConnected := false }.goto .finished)

private theorem atCall_ok {m : UsbModule} {reply : EspErr} (h : m.atCall reply = .ok) :
    m.atHandle = true ∧ reply = .ok := by
  unfold atCall at h
  cases hh : m.atHandle with
  | true => exact ⟨rfl, by simpa [hh] using h⟩
  | false => simp [hh] at h

private theorem atSyncStep_spec (a : ModuleAnswer) {m : UsbModule} (hp : m.point = .atSync) :
    FsmStep a m (m.atSyncStep a) := by
  unfold atSyncStep
  split
  · rcases atInit_cases a.atInit m with hok | ⟨hne, hm⟩
    · rw [hok]
      exact .contextMade hp
    · simp only [hne, if_false, hm]
      exact .syncFails (.inl hp)
  · rename_i hset
    have hboth : m.cdcPort = true ∧ m.atHandle = true := by simpa using hset
    exact .contextKept hp hboth.2

private theorem probeStep_spec (a : ModuleAnswer) {m : UsbModule} {k : Nat}
    (hp : m.point = .probe k) :
    FsmStep a m (m.probeStep k a) := by
  unfold probeStep
  split
  · rename_i hh
    split
    · exact .probed k hp hh
    · split
      · exact .probeAgain k hp
      · exact .syncFails (.inr ⟨k, hp⟩)
  · exact .syncFails (.inr ⟨k, hp⟩)

private theorem simStep_spec (a : ModuleAnswer) {m : UsbModule} {k : Nat}
    (hp : m.point = .checkSim k) :
    FsmStep a m (m.simStep k a) := by
  unfold simStep
  by_cases hret : m.atCall a.reply = .ok
  · by_cases hpin : a.pin = .ready
    · simp only [hret, hpin, if_true, and_self]
      exact .simReady k hp (atCall_ok hret).1
    · simp only [hret, hpin, if_true, and_false, if_false]
      split
      · exact .simRefused k a.pin hp ‹_› hpin
      · exact .noSimRefused k a.pin hp hpin
  · simp only [hret, if_false, false_and]
    split
    · exact .simFailed k hp ‹_›
    · rename_i hk
      exact .noSimFailed k hp (by omega) hret

private theorem waitForUsbGotIp_spec (a : ModuleAnswer) {m : UsbModule} (hp : m.point = .waitIp) :
    FsmStep a m (m.waitForUsbGotIp a) := by
  unfold waitForUsbGotIp
  cases hr : m.hwReset with
  | true => exact .resetSeen hp hr
  | false =>
    cases hg : m.gotIp with
    | true => exact .ipSeen hp hr hg
    | false =>
      simp only [Bool.false_eq_true, if_false]
      split
      · rename_i ht
        exact .waitTimeout hp hr hg ht
      · exact .stays

private theorem recoverStep_spec (a : ModuleAnswer) {m : UsbModule} {b : Bool}
    {stage : RecoveryStage} (hp : m.point = .recovery b stage) :
    FsmStep a m (m.recoverStep b a stage) := by
  cases stage with
  | reset => exact .recoveryReset b hp
  | deinit => exact .recoveryDeinit b hp
  | clearOnline => exact .recoveryOffline b hp
  | clearBits => exact .recoveryBits b hp
  | waitLink =>
    unfold recoverStep
    cases b with
    | true =>
      simp only [if_true]
      split
      · exact .recoveredPowerOn hp
      · split
        · exact .restarts hp
        · exact .stays
    | false =>
      simp only [Bool.false_eq_true, if_false]
      split
      · exact .recovered hp
      · split
        · exact .recovered hp
        · exact .stays

theorem fsmStep_spec (a : ModuleAnswer) (m : UsbModule) : FsmStep a m (m.fsmStep a) := by
  unfold fsmStep
  split
  · rename_i hp
    unfold powerOnStep
    split
    · exact .linkSeen hp
    · split
      · exact .notReady (.inl hp)
      · exact .stays
  · rename_i hp
    unfold settleStep
    split
    · exact .ready hp
    · exact .notReady (.inr hp)
  · exact recoverStep_spec a ‹_›
  · exact atSyncStep_spec a ‹_›
  · exact probeStep_spec a ‹_›
  · exact simStep_spec a ‹_›
  · exact .networkChecked (.inl ‹_›)
  · rename_i k hp
    unfold networkStep
    split
    · rename_i hreg
      exact .registered k hp (atCall_ok hreg.1).1 hreg
    · split
      · exact .notRegistered k hp
      · exact .networkFails (.inl ⟨k, hp⟩)
  · exact .gotIpCleared ‹_›
  · exact .onlineCleared ‹_›
  · rename_i hp
    unfold dialStep
    split
    · rename_i hret
      exact .dialled hp (atCall_ok hret).1
    · exact .networkFails (.inr hp)
  · exact waitForUsbGotIp_spec a ‹_›
  · exact .networkChecked (.inr ‹_›)
  · exact .declared ‹_›
  · rename_i hp
    split
    · exact .stays
    · exact .offlineSeen hp
  · rename_i hp
    split
    · exact .onlineAgain hp
    · exact .offline hp
  · exact .stopped ‹_›
  · exact .stays
  · exact .stays

/-- The handler takes the next event: it writes the online flag. -/
def receive (e : NetEvent) (m : UsbModule) : UsbModule :=
  if m.handling.isSome then m
  else
    let m := { m with handling := some e }.log (.received e)
    match e with
    | .gotIp => { m with internetConnected := true }
    | .disconnected | .lostIp => { m with internetConnected := false }
    | .start | .stop | .connected => m

/-- The handler ends: it writes the bits of the event group. -/
def handled (m : UsbModule) : UsbModule :=
  match m.handling with
  | none => m
  | some e =>
      let m := { m with handling := none }
      match e with
      | .start | .stop | .disconnected => { m with linkUp := false, gotIp := false }
      | .connected => { m with linkUp := true }
      | .gotIp => { m with gotIp := true }
      | .lostIp => { m with gotIp := false }

theorem FsmStep.history_suffix {a : ModuleAnswer} {m m' : UsbModule} (h : FsmStep a m m') :
    m.history <:+ m'.history := by
  cases h with
  | simRefused | simReady | ready | probed | networkChecked | registered | networkFails
  | recoveryReset | recovered | restarts | noSimFailed => exact List.suffix_cons _ _
  | noSimRefused | resetSeen | ipSeen | waitTimeout =>
    exact (List.suffix_cons _ _).trans (List.suffix_cons _ _)
  | _ => exact List.suffix_rfl

theorem receive_cases (e : NetEvent) (m : UsbModule) :
    m.receive e = m ∨ (m.handling = none ∧ ∃ online,
      m.receive e = { m with handling := some e, internetConnected := online }.log (.received e) ∧
        (online = true → e = .gotIp ∨ m.internetConnected = true ∧ e ≠ .lostIp ∧
          e ≠ .disconnected)) := by
  unfold receive
  cases hh : m.handling with
  | some e' => exact .inl rfl
  | none =>
    refine .inr ⟨rfl, ?_⟩
    cases e with
    | gotIp => exact ⟨true, rfl, fun _ => .inl rfl⟩
    | disconnected => exact ⟨false, rfl, fun h => absurd h Bool.false_ne_true⟩
    | lostIp => exact ⟨false, rfl, fun h => absurd h Bool.false_ne_true⟩
    | start => exact ⟨m.internetConnected, rfl, fun h => .inr ⟨h, by decide, by decide⟩⟩
    | stop => exact ⟨m.internetConnected, rfl, fun h => .inr ⟨h, by decide, by decide⟩⟩
    | connected => exact ⟨m.internetConnected, rfl, fun h => .inr ⟨h, by decide, by decide⟩⟩

theorem handled_cases (m : UsbModule) :
    m.handled = m ∨ ∃ e up ip, m.handling = some e ∧
      m.handled = { m with handling := none, linkUp := up, gotIp := ip } ∧
        (ip = true → e = .gotIp ∨ e = .connected ∧ m.gotIp = true) := by
  unfold handled
  cases hh : m.handling with
  | none => exact .inl rfl
  | some e =>
    right
    cases e with
    | start => exact ⟨_, false, false, rfl, rfl, fun h => absurd h Bool.false_ne_true⟩
    | stop => exact ⟨_, false, false, rfl, rfl, fun h => absurd h Bool.false_ne_true⟩
    | disconnected => exact ⟨_, false, false, rfl, rfl, fun h => absurd h Bool.false_ne_true⟩
    | connected => exact ⟨_, true, m.gotIp, rfl, rfl, fun h => .inr ⟨rfl, h⟩⟩
    | gotIp => exact ⟨_, m.linkUp, true, rfl, rfl, fun _ => .inl rfl⟩
    | lostIp => exact ⟨_, m.linkUp, false, rfl, rfl, fun h => absurd h Bool.false_ne_true⟩

/-- After `iot_eth_start`, where the first round of the state machine begins. -/
def start : UsbModule where
  point := .powerOn
  cdcPort := false
  atHandle := false
  linkUp := false
  gotIp := false
  hwReset := false
  internetConnected := false
  handling := none
  history := [.entered .powerOn false]

end UsbModule

inductive ModuleOp
  | fsm (a : ModuleAnswer)
  | receive (e : NetEvent)
  | handled
  | portClosed
  /-- `reset_4g_module_hardware` is called by another task. -/
  | resetByOther

def ModuleOp.step (m : UsbModule) : ModuleOp → UsbModule
  | .fsm a => m.fsmStep a
  | .receive e => m.receive e
  | .handled => m.handled
  | .portClosed => m.atPortClosedCb
  | .resetByOther => m.reset4gModuleHardware

/-- The link comes up and the state machine makes `n` steps that succeed. -/
def bringUp (n : Nat) : List ModuleOp :=
  [.receive .connected, .handled] ++ List.replicate n (.fsm .allOk)

def online : List ModuleOp := bringUp 10 ++ [.receive .gotIp, .handled, .fsm .allOk, .fsm .allOk]

/-- The link goes down and the monitor loop leaves for the recovery, up to its wait. -/
def linkLost : List ModuleOp := [.receive .disconnected, .handled] ++ List.replicate 6 (.fsm .allOk)

end Leyu
