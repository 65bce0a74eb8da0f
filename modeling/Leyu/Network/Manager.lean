import Leyu.Platform
import Leyu.Framework.CString

/-!
# The network manager

`network_manager_init`, `switch_to_4g_network`, `switch_to_wifi_network` and `get_active_netif`
of `network_manager.c`: the two flags and the default interface of the SDK. A handle of an
interface is its key, as the SDK keeps the keys apart; a call of the manager is one step, and
the interfaces are those of that moment.
-/

namespace Leyu

open Framework

/-- The keys by which the manager asks for interfaces, and the one of the 4G module's. -/
inductive IfKey
  | wifiStaDef | wifiApDef | wifiSta | wifiAp | ethDef | usbDef
  deriving DecidableEq, Repr

/-- `wifi_mode_t` -/
inductive WifiMode
  | null | sta | ap | apsta | nan
  deriving DecidableEq, Repr

namespace WifiMode

/-- `current_mode & WIFI_MODE_STA` -/
def hasSta : WifiMode → Bool
  | .sta | .apsta => true
  | _ => false

/-- `current_mode & WIFI_MODE_AP` -/
def hasAp : WifiMode → Bool
  | .ap | .apsta => true
  | _ => false

end WifiMode

/-- What the SDK and the other modules answer to one call of the manager. -/
structure Interfaces where
  present : IfKey → Bool
  desc : IfKey → Text
  /-- The task of the 4G module has made its interface. -/
  usbCreated : Bool
  /-- `app_wifi` has noted the interface of its access point. -/
  apNoted : Bool
  /-- `esp_wifi_get_mode`, which may fail. -/
  getMode : Option WifiMode
  setDefault : EspErr

namespace Interfaces

/-- `esp_netif_get_handle_from_ifkey` -/
def handle (w : Interfaces) (k : IfKey) : Option IfKey := if w.present k then some k else none

def getUsbNetif (w : Interfaces) : Option IfKey := if w.usbCreated then some .usbDef else none

def getApNetif (w : Interfaces) : Option IfKey := if w.apNoted then some .wifiApDef else none

def wifiMode (w : Interfaces) : Option WifiMode := w.getMode.filter (· ≠ .null)

def descHas (w : Interfaces) (needle : Text) (k : IfKey) : Bool := (strstr needle (w.desc k)).isSome

def staWord : Text := ['s', 't', 'a']

def apWord : Text := ['a', 'p']

/-- The last attempt: the first interface that is described as a station, else the last one that
is described as an access point. -/
def searchWifi (w : Interfaces) : Option IfKey → List IfKey → Option IfKey
  | found, [] => found
  | found, k :: ks =>
      match w.handle k with
      | none => searchWifi w found ks
      | some netif =>
          if w.descHas staWord netif then some netif
          else if w.descHas apWord netif then searchWifi w (some netif) ks
          else searchWifi w found ks

/-- `wifi_keys` behind its first element -/
def otherWifiKeys : List IfKey := [.wifiApDef, .wifiSta, .wifiAp]

/-- The interface `switch_to_wifi_network` takes. -/
def wifiNetif (w : Interfaces) (mode : WifiMode) : Option IfKey :=
  let netif := if mode.hasSta then w.handle .wifiStaDef else none
  let netif := if netif.isNone && mode.hasAp then w.handle .wifiApDef else netif
  let netif :=
    if netif.isNone then
      let again := if mode.hasSta then w.handle .wifiStaDef else none
      if again.isNone && mode.hasAp then w.getApNetif else again
    else netif
  if netif.isNone then w.searchWifi none (.wifiStaDef :: otherWifiKeys) else netif

def inMode (mode : WifiMode) : Interfaces where
  present k := k = .wifiStaDef || k = .wifiApDef
  desc k := if k = .wifiStaDef then staWord else apWord
  usbCreated := true
  apNoted := true
  getMode := some mode
  setDefault := .ok

end Interfaces

structure NetworkManager where
  is4gActive : Bool
  isWifiActive : Bool
  /-- The default interface of the SDK, on which `esp_netif_set_default_netif` acts. -/
  defaultNetif : Option IfKey
  deriving DecidableEq, Repr

/-- What a switch returns, and the interface it has made the default one. -/
structure Switch where
  err : EspErr
  installed : Option IfKey
  manager : NetworkManager
  deriving DecidableEq, Repr

namespace NetworkManager

def getActiveNetif (m : NetworkManager) (w : Interfaces) : Option IfKey :=
  if m.is4gActive then w.getUsbNetif
  else if m.isWifiActive then w.handle .wifiStaDef
  else none

def on4g (m : NetworkManager) : Bool := m.is4gActive && !m.isWifiActive

def onWifi (m : NetworkManager) : Bool := m.isWifiActive && !m.is4gActive

def switchTo4gNetwork (w : Interfaces) (m : NetworkManager) : Switch :=
  if m.on4g then ⟨.ok, none, m⟩
  else
    match w.getUsbNetif with
    | none => ⟨.invalidState, none, m⟩
    | some usb =>
        if w.setDefault ≠ .ok then ⟨w.setDefault, none, m⟩
        else ⟨.ok, some usb, ⟨true, false, some usb⟩⟩

def switchToWifiNetwork (w : Interfaces) (m : NetworkManager) : Switch :=
  if m.onWifi then ⟨.ok, none, m⟩
  else
    match w.wifiMode with
    | none => ⟨.invalidState, none, m⟩
    | some mode =>
        match w.wifiNetif mode with
        | none => ⟨.invalidState, none, m⟩
        | some netif =>
            if w.setDefault ≠ .ok then ⟨w.setDefault, none, m⟩
            else ⟨.ok, some netif, ⟨false, true, some netif⟩⟩

/-- `network_manager_init`, by what `internet_connected` and `check_wifi_config_saved` say. -/
def init (internetConnected configSaved : Bool) (w : Interfaces) (m : NetworkManager) :
    NetworkManager :=
  if internetConnected && !configSaved then
    let eth := if w.setDefault = .ok then w.handle .ethDef else none
    ⟨true, false, eth.or m.defaultNetif⟩
  else ⟨false, w.wifiMode.isSome, m.defaultNetif⟩

def start (defaultNetif : Option IfKey) : NetworkManager := ⟨false, false, defaultNetif⟩

end NetworkManager

theorem switchTo4g_of_on4g {m : NetworkManager} (h : m.on4g = true) (w : Interfaces) :
    (m.switchTo4gNetwork w).manager = m := by
  rw [NetworkManager.switchTo4gNetwork, if_pos h]

theorem switchTo4g_on4g {m : NetworkManager} {w : Interfaces}
    (h : (m.switchTo4gNetwork w).err = .ok) : (m.switchTo4gNetwork w).manager.on4g = true := by
  unfold NetworkManager.switchTo4gNetwork at h ⊢
  split
  · assumption
  · rename_i hnot
    rw [if_neg hnot] at h
    split
    · rename_i husb
      rw [husb] at h
      cases h
    · rename_i usb husb
      rw [husb] at h
      dsimp only at h
      split
      · rename_i hfails
        rw [if_pos hfails] at h
        exact absurd h hfails
      · rfl

theorem switchToWifi_failed {m : NetworkManager} {w : Interfaces}
    (h : (m.switchToWifiNetwork w).err ≠ .ok) : (m.switchToWifiNetwork w).manager = m := by
  unfold NetworkManager.switchToWifiNetwork at h ⊢
  split
  · rfl
  · rename_i hnot
    rw [if_neg hnot] at h
    split
    · rfl
    · rename_i mode hmode
      rw [hmode] at h
      split
      · rfl
      · rename_i netif hnetif
        dsimp only at h
        rw [hnetif] at h
        dsimp only at h
        split
        · rfl
        · rename_i hset
          rw [if_neg hset] at h
          exact absurd rfl h

end Leyu
