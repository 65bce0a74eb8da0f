import Leyu.Network.Manager

/-!
# The network monitor

`network_monitor_task` of `network_manager.c`, one round of its loop at a time, and the calls of
`switch_to_4g_network` by the task of the 4G module between two rounds. Each round leaves a mark
in the history: whether it found WiFi to work, and what it has switched and announced.
-/

namespace Leyu

open Framework

inductive NetPrompt
  | wifiNet | net4g | networkError
  deriving DecidableEq, Repr

def NetPrompt.uri : NetPrompt → Text
  | .wifiNet => "file:///spiffs/5_wifinet.mp3".toList
  | .net4g => "file:///spiffs/4_4Gnet.mp3".toList
  | .networkError => "file:///spiffs/10_networkerror.mp3".toList

/-- What a round has switched; a switch back to WiFi comes with what the task had read of
`internet_connected`. -/
inductive RouteChange
  | kept
  | failedOver
  | switchedBack (internetConnected : Bool)
  deriving DecidableEq, Repr

structure TickMark where
  /-- WiFi had an interface and an IP, and its probe succeeded in this round. -/
  wifiOk : Bool
  change : RouteChange
  prompt : Option NetPrompt
  deriving DecidableEq, Repr

structure TickWorld where
  net : Interfaces
  aligns : Bool
  /-- `internet_connected` at the first look, and behind a successful probe. -/
  connected : Bool
  connectedAfterProbe : Bool
  hasIp : Bool
  /-- `test_network_connectivity_with_netif` returns `ESP_OK`. -/
  probe : Bool
  configSaved : Bool

def TickWorld.wifiOk (a : TickWorld) : Bool :=
  (a.net.handle .wifiStaDef).isSome && a.hasIp && a.probe

structure NetworkMonitor where
  manager : NetworkManager
  wifiFailCount : Nat
  wifiRecoveryCount : Nat
  wifiCooldownCounter : Nat
  networkErrorPromptCooldown : Nat
  /-- Newest first. -/
  history : List TickMark
  deriving DecidableEq, Repr

def networkErrorPromptCooldownTicks : Nat := 3

namespace NetworkMonitor

def log (mark : TickMark) (m : NetworkMonitor) : NetworkMonitor :=
  { m with history := mark :: m.history }

/-- The head of the loop: the active interface is made the default one, and a round passes. -/
def beginTick (a : TickWorld) (m : NetworkMonitor) : NetworkMonitor :=
  let current := if a.aligns then m.manager.getActiveNetif a.net else none
  { m with
    manager := { m.manager with defaultNetif := current.or m.manager.defaultNetif }
    wifiCooldownCounter := m.wifiCooldownCounter - 1
    networkErrorPromptCooldown := m.networkErrorPromptCooldown - 1 }

def requiredRecovery (internetConnected : Bool) : Nat := if internetConnected then 3 else 1

/-- The WiFi probe has succeeded while the route is the 4G module's. -/
def recovered (a : TickWorld) (m : NetworkMonitor) : NetworkMonitor :=
  if requiredRecovery a.connectedAfterProbe ≤ m.wifiRecoveryCount + 1 then
    let change : RouteChange :=
      if (m.manager.switchToWifiNetwork a.net).err = .ok then .switchedBack a.connectedAfterProbe
      else .kept
    { m with
      manager := (m.manager.switchToWifiNetwork a.net).manager
      wifiRecoveryCount := 0
      wifiFailCount := 0
      wifiCooldownCounter := 0 }.log ⟨true, change, some .wifiNet⟩
  else { m with wifiRecoveryCount := m.wifiRecoveryCount + 1 }.log ⟨true, .kept, none⟩

def watch4g (a : TickWorld) (m : NetworkMonitor) : NetworkMonitor :=
  if 0 < m.wifiCooldownCounter ∧ a.connected = true then m.log ⟨false, .kept, none⟩
  else
    match a.net.handle .wifiStaDef with
    | none => m.log ⟨false, .kept, none⟩
    | some _ =>
        if a.hasIp then
          if a.probe then m.recovered a
          else { m with wifiRecoveryCount := 0 }.log ⟨false, .kept, none⟩
        else { m with wifiRecoveryCount := 0 }.log ⟨false, .kept, none⟩

/-- WiFi is lost and its configuration is stored: the route goes over to the 4G module. -/
def failOver (a : TickWorld) (m : NetworkMonitor) : NetworkMonitor :=
  let prompt : Option NetPrompt :=
    if a.connected then some .net4g
    else if m.networkErrorPromptCooldown = 0 then some .networkError
    else none
  let change : RouteChange :=
    if (m.manager.switchTo4gNetwork a.net).err = .ok then .failedOver else .kept
  { m with
    manager := (m.manager.switchTo4gNetwork a.net).manager
    networkErrorPromptCooldown :=
      if prompt = some NetPrompt.networkError then networkErrorPromptCooldownTicks
      else m.networkErrorPromptCooldown
    wifiFailCount := 0
    wifiRecoveryCount := 0
    wifiCooldownCounter := 30 }.log ⟨false, change, prompt⟩

def watchWifi (a : TickWorld) (m : NetworkMonitor) : NetworkMonitor :=
  if a.wifiOk then { m with wifiFailCount := 0 }.log ⟨true, .kept, none⟩
  else
    let failed := { m with wifiFailCount := m.wifiFailCount + 1 }
    if 1 ≤ failed.wifiFailCount then
      if a.configSaved then failed.failOver a
      else { failed with wifiFailCount := 0, wifiRecoveryCount := 0 }.log ⟨false, .kept, none⟩
    else failed.log ⟨false, .kept, none⟩

def tick (a : TickWorld) (m : NetworkMonitor) : NetworkMonitor :=
  let m := m.beginTick a
  if m.manager.on4g then m.watch4g a
  else if m.manager.onWifi then m.watchWifi a
  else m.log ⟨false, .kept, none⟩

/-- The task begins, whatever the manager's state. -/
def start (manager : NetworkManager) : NetworkMonitor := ⟨manager, 0, 0, 0, 0, []⟩

end NetworkMonitor

inductive MonitorOp
  | tick (a : TickWorld)
  /-- The task of the 4G module has connected and switches to its interface. -/
  | switchTo4g (w : Interfaces)

def MonitorOp.step (m : NetworkMonitor) : MonitorOp → NetworkMonitor
  | .tick a => m.tick a
  | .switchTo4g w => { m with manager := (m.manager.switchTo4gNetwork w).manager }

end Leyu
