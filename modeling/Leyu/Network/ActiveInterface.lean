import Leyu.Network.Manager
import Leyu.Framework.Runs

/-!
# The active interface

`get_active_netif` answers the station interface whenever WiFi is active, while a switch to WiFi
may take an access point's. The two agree in a run exactly when each switch that takes effect
finds the station first.
-/

namespace Leyu

open Framework

inductive ManagerOp
  | init (internetConnected configSaved : Bool) (w : Interfaces)
  | switchTo4g (w : Interfaces)
  | switchToWifi (w : Interfaces)

def ManagerOp.step (m : NetworkManager) : ManagerOp → NetworkManager
  | .init internetConnected configSaved w => m.init internetConnected configSaved w
  | .switchTo4g w => (m.switchTo4gNetwork w).manager
  | .switchToWifi w => (m.switchToWifiNetwork w).manager

/-- After a switch that worked, the interface it has made the default one is the one the getter
answers; after one that failed, nothing has changed. -/
structure SwitchKept (m : NetworkManager) (w : Interfaces) (r : Switch) : Prop where
  route : r.err = .ok → ∀ netif, r.installed = some netif →
    r.manager.defaultNetif = some netif ∧ r.manager.getActiveNetif w = some netif
  failed : r.err ≠ .ok → r.manager = m

def RouteKept (m : NetworkManager) (op : ManagerOp) : Prop :=
  ¬ ((op.step m).is4gActive = true ∧ (op.step m).isWifiActive = true) ∧
    match op with
    | .init .. => True
    | .switchTo4g w => SwitchKept m w (m.switchTo4gNetwork w)
    | .switchToWifi w => SwitchKept m w (m.switchToWifiNetwork w)

namespace Interfaces

def WifiLike (w : Interfaces) (k : IfKey) : Prop :=
  w.present k = true ∧ (w.descHas staWord k = true ∨ w.descHas apWord k = true)

/-- The station is on and has its interface; or no access point is on with an interface, and
either the station's interface is described as one or no other interface looks like WiFi. -/
def StaFirst (w : Interfaces) (mode : WifiMode) : Prop :=
  mode.hasSta = true ∧ w.present .wifiStaDef = true ∨
    ¬ (mode.hasAp = true ∧ (w.present .wifiApDef = true ∨ w.apNoted = true)) ∧
      (w.present .wifiStaDef = true ∧ w.descHas staWord .wifiStaDef = true ∨
        ∀ k ∈ otherWifiKeys, ¬ w.WifiLike k)

variable (w : Interfaces)

private theorem handle_of_present {k : IfKey} (h : w.present k = true) :
    w.handle k = some k := if_pos h

private theorem handle_of_absent {k : IfKey} (h : ¬ w.present k = true) :
    w.handle k = none := if_neg h

private theorem handle_eq_some {k netif : IfKey} (h : w.handle k = some netif) :
    w.present k = true ∧ netif = k := by
  unfold handle at h
  split at h
  · rename_i hpresent
    exact ⟨hpresent, (Option.some.inj h).symm⟩
  · cases h

private theorem searchWifi_of_none {ks : List IfKey} (found : Option IfKey)
    (h : ∀ k ∈ ks, ¬ w.WifiLike k) : w.searchWifi found ks = found := by
  induction ks generalizing found with
  | nil => rfl
  | cons k ks ih =>
    have hrest : ∀ k' ∈ ks, ¬ w.WifiLike k' := fun k' hk' => h k' (List.mem_cons_of_mem k hk')
    have hk := h k List.mem_cons_self
    unfold searchWifi
    cases hget : w.handle k with
    | none => exact ih found hrest
    | some netif =>
      obtain ⟨hpresent, rfl⟩ := w.handle_eq_some hget
      have hsta : ¬ w.descHas staWord netif = true := fun hd => hk ⟨hpresent, .inl hd⟩
      have hap : ¬ w.descHas apWord netif = true := fun hd => hk ⟨hpresent, .inr hd⟩
      dsimp only
      rw [if_neg hsta, if_neg hap]
      exact ih found hrest

private theorem searchWifi_of_some {ks : List IfKey} (found : Option IfKey)
    (h : ∃ k ∈ ks, w.WifiLike k) : ∃ k ∈ ks, w.searchWifi found ks = some k := by
  induction ks generalizing found with
  | nil =>
    obtain ⟨k, hk, -⟩ := h
    cases hk
  | cons k ks ih =>
    by_cases hrest : ∃ k' ∈ ks, w.WifiLike k'
    · -- what is found here either ends the search or is replaced further on
      have hgo : ∀ found', ∃ k' ∈ k :: ks, w.searchWifi found' ks = some k' := by
        intro found'
        obtain ⟨k', hk', heq⟩ := ih found' hrest
        exact ⟨k', List.mem_cons_of_mem k hk', heq⟩
      unfold searchWifi
      cases hget : w.handle k with
      | none => exact hgo found
      | some netif =>
        obtain ⟨-, rfl⟩ := w.handle_eq_some hget
        dsimp only
        split
        · exact ⟨netif, List.mem_cons_self, rfl⟩
        · split
          · exact hgo _
          · exact hgo _
    · have hnone : ∀ k' ∈ ks, ¬ w.WifiLike k' := fun k' hk' hlike => hrest ⟨k', hk', hlike⟩
      have hk : w.WifiLike k := by
        obtain ⟨k', hk', hlike⟩ := h
        rcases List.mem_cons.mp hk' with rfl | hk'
        · exact hlike
        · exact absurd hlike (hnone k' hk')
      refine ⟨k, List.mem_cons_self, ?_⟩
      unfold searchWifi
      rw [w.handle_of_present hk.1]
      dsimp only
      by_cases hsta : w.descHas staWord k = true
      · rw [if_pos hsta]
      · rw [if_neg hsta, if_pos (hk.2.resolve_left hsta)]
        exact w.searchWifi_of_none _ hnone

private theorem searchWifi_goes_on {k : IfKey} (ks : List IfKey)
    (hsta : ¬ (w.present k = true ∧ w.descHas staWord k = true)) :
    ∃ found, w.searchWifi none (k :: ks) = w.searchWifi found ks := by
  rw [searchWifi]
  cases hget : w.handle k with
  | none => exact ⟨none, rfl⟩
  | some netif =>
    obtain ⟨hpresent, rfl⟩ := w.handle_eq_some hget
    have hdesc : ¬ w.descHas staWord netif = true := fun hd => hsta ⟨hpresent, hd⟩
    dsimp only
    rw [if_neg hdesc]
    split
    · exact ⟨_, rfl⟩
    · exact ⟨_, rfl⟩

/-- The search over all keys takes no other interface than the station's exactly when that one is
described as a station or no other one looks like WiFi. -/
theorem searchWifi_sta_iff :
    (∀ netif, w.searchWifi none (.wifiStaDef :: otherWifiKeys) = some netif →
        w.handle .wifiStaDef = some netif) ↔
      (w.present .wifiStaDef = true ∧ w.descHas staWord .wifiStaDef = true ∨
        ∀ k ∈ otherWifiKeys, ¬ w.WifiLike k) := by
  have hother : IfKey.wifiStaDef ∉ otherWifiKeys := by decide
  constructor
  · intro hall
    by_contra hneg
    rw [not_or] at hneg
    obtain ⟨hsta, hlike⟩ := hneg
    have hsome : ∃ k ∈ otherWifiKeys, w.WifiLike k := by
      by_contra hnone
      exact hlike fun k hk hw => hnone ⟨k, hk, hw⟩
    obtain ⟨found, hfound⟩ := w.searchWifi_goes_on otherWifiKeys hsta
    obtain ⟨k, hk, heq⟩ := w.searchWifi_of_some found hsome
    have hkey := hall k (hfound.trans heq)
    obtain ⟨-, rfl⟩ := w.handle_eq_some hkey
    exact hother hk
  · intro hfirst netif hsearch
    rw [searchWifi] at hsearch
    cases hget : w.handle .wifiStaDef with
    | none =>
      rw [hget] at hsearch
      rcases hfirst with ⟨hpresent, -⟩ | hnone
      · rw [w.handle_of_present hpresent] at hget
        cases hget
      · rw [w.searchWifi_of_none none hnone] at hsearch
        cases hsearch
    | some sta =>
      rw [hget] at hsearch
      obtain ⟨-, rfl⟩ := w.handle_eq_some hget
      dsimp only at hsearch
      split at hsearch
      · exact hsearch
      · rename_i hdesc
        have hnone : ∀ k ∈ otherWifiKeys, ¬ w.WifiLike k :=
          hfirst.resolve_left fun h => hdesc h.2
        split at hsearch
        · rw [w.searchWifi_of_none _ hnone] at hsearch
          exact hsearch
        · rw [w.searchWifi_of_none _ hnone] at hsearch
          cases hsearch

private theorem wifiNetif_of_sta {mode : WifiMode} (hmode : mode.hasSta = true)
    (hsta : w.present .wifiStaDef = true) : w.wifiNetif mode = some .wifiStaDef := by
  simp [wifiNetif, hmode, w.handle_of_present hsta]

private theorem firstAttempt_none {mode : WifiMode}
    (hsta : ¬ (mode.hasSta = true ∧ w.present .wifiStaDef = true)) :
    (if mode.hasSta then w.handle .wifiStaDef else none) = none := by
  split
  · rename_i hmode
    exact w.handle_of_absent fun hpresent => hsta ⟨hmode, hpresent⟩
  · rfl

private theorem wifiNetif_of_ap {mode : WifiMode}
    (hsta : ¬ (mode.hasSta = true ∧ w.present .wifiStaDef = true))
    (hap : mode.hasAp = true ∧ (w.present .wifiApDef = true ∨ w.apNoted = true)) :
    w.wifiNetif mode = some .wifiApDef := by
  unfold wifiNetif
  rw [w.firstAttempt_none hsta]
  by_cases hpresent : w.present .wifiApDef = true
  · simp [hap.1, w.handle_of_present hpresent]
  · have hnoted : w.apNoted = true := hap.2.resolve_left hpresent
    simp [hap.1, w.handle_of_absent hpresent, getApNetif, hnoted]

private theorem wifiNetif_of_search {mode : WifiMode}
    (hsta : ¬ (mode.hasSta = true ∧ w.present .wifiStaDef = true))
    (hap : ¬ (mode.hasAp = true ∧ (w.present .wifiApDef = true ∨ w.apNoted = true))) :
    w.wifiNetif mode = w.searchWifi none (.wifiStaDef :: otherWifiKeys) := by
  unfold wifiNetif
  rw [w.firstAttempt_none hsta]
  by_cases hmode : mode.hasAp = true
  · have hpresent : ¬ w.present .wifiApDef = true := fun h => hap ⟨hmode, .inl h⟩
    have hnoted : ¬ w.apNoted = true := fun h => hap ⟨hmode, .inr h⟩
    simp [hmode, w.handle_of_absent hpresent, getApNetif, hnoted]
  · simp [hmode]

private theorem wifiNetif_sta_iff (mode : WifiMode) :
    (∀ netif, w.wifiNetif mode = some netif → w.handle .wifiStaDef = some netif) ↔
      w.StaFirst mode := by
  by_cases hsta : mode.hasSta = true ∧ w.present .wifiStaDef = true
  · refine iff_of_true (fun netif hnetif => ?_) (.inl hsta)
    rw [w.wifiNetif_of_sta hsta.1 hsta.2] at hnetif
    rw [w.handle_of_present hsta.2]
    exact hnetif
  · by_cases hap : mode.hasAp = true ∧ (w.present .wifiApDef = true ∨ w.apNoted = true)
    · refine iff_of_false (fun hall => ?_) ?_
      · obtain ⟨-, hkey⟩ := w.handle_eq_some (hall .wifiApDef (w.wifiNetif_of_ap hsta hap))
        cases hkey
      · rintro (h | ⟨hnot, -⟩)
        · exact hsta h
        · exact hnot hap
    · rw [w.wifiNetif_of_search hsta hap, w.searchWifi_sta_iff]
      constructor
      · intro h
        exact .inr ⟨hap, h⟩
      · rintro (h | ⟨-, h⟩)
        · exact absurd h hsta
        · exact h

end Interfaces

/-- A switch to WiFi that is not in effect already, by a WiFi that is initialized and a default
interface the SDK accepts, finds the station first. -/
def RoutesSta (m : NetworkManager) : ManagerOp → Prop
  | .switchToWifi w =>
      m.onWifi = false → w.setDefault = .ok → ∀ mode, w.wifiMode = some mode → w.StaFirst mode
  | _ => True

private theorem switchTo4g_kept (m : NetworkManager) (w : Interfaces) :
    SwitchKept m w (m.switchTo4gNetwork w) := by
  unfold NetworkManager.switchTo4gNetwork
  split
  · exact ⟨fun _ netif h => absurd h (Option.some_ne_none netif).symm, fun _ => rfl⟩
  · cases husb : w.getUsbNetif with
    | none => exact ⟨fun h => absurd h EspErr.noConfusion, fun _ => rfl⟩
    | some usb =>
      dsimp only
      split
      · rename_i hfails
        exact ⟨fun h => absurd h hfails, fun _ => rfl⟩
      · refine ⟨fun _ netif hinst => ?_, fun h => absurd rfl h⟩
        rw [← hinst]
        exact ⟨rfl, husb⟩

private theorem switchToWifi_kept_iff (m : NetworkManager) (w : Interfaces) :
    SwitchKept m w (m.switchToWifiNetwork w) ↔ RoutesSta m (.switchToWifi w) := by
  show _ ↔ (m.onWifi = false → w.setDefault = .ok →
    ∀ mode, w.wifiMode = some mode → w.StaFirst mode)
  unfold NetworkManager.switchToWifiNetwork
  split
  · rename_i hactive
    refine iff_of_true ?_ (fun hnot => ?_)
    · exact ⟨fun _ netif h => absurd h (Option.some_ne_none netif).symm, fun _ => rfl⟩
    · rw [hactive] at hnot
      cases hnot
  · rename_i hactive
    have hactive : m.onWifi = false := Bool.eq_false_iff.mpr hactive
    cases hmode : w.wifiMode with
    | none =>
      refine iff_of_true ?_ (fun _ _ mode h => ?_)
      · exact ⟨fun h => absurd h EspErr.noConfusion, fun _ => rfl⟩
      · cases h
    | some mode =>
      dsimp only
      have hkey := w.wifiNetif_sta_iff mode
      by_cases hset : w.setDefault = .ok
      · cases hnetif : w.wifiNetif mode with
        | none =>
          rw [hnetif] at hkey
          refine iff_of_true ?_ (fun _ _ mode' h => ?_)
          · exact ⟨fun h => absurd h EspErr.noConfusion, fun _ => rfl⟩
          · rw [← Option.some.inj h]
            exact hkey.mp fun netif h => absurd h (Option.some_ne_none netif).symm
        | some netif =>
          rw [hnetif] at hkey
          dsimp only
          rw [if_neg (not_not_intro hset)]
          constructor
          · intro hkept _ _ mode' h
            rw [← Option.some.inj h]
            apply hkey.mp
            intro netif' hnetif'
            exact (hkept.route rfl netif' hnetif').2
          · intro hfirst
            refine ⟨fun _ netif' hinst => ⟨hinst, ?_⟩, fun h => absurd rfl h⟩
            exact hkey.mpr (hfirst hactive hset mode rfl) netif' hinst
      · refine iff_of_true ?_ (fun _ h => absurd h hset)
        cases w.wifiNetif mode with
        | none => exact ⟨fun h => absurd h EspErr.noConfusion, fun _ => rfl⟩
        | some netif =>
          dsimp only
          rw [if_pos hset]
          exact ⟨fun h => absurd h hset, fun _ => rfl⟩

def OneActive (m : NetworkManager) : Prop := ¬ (m.is4gActive = true ∧ m.isWifiActive = true)

private theorem OneActive.step {m : NetworkManager} (h : OneActive m) (op : ManagerOp) :
    OneActive (op.step m) := by
  cases op with
  | init internetConnected configSaved w =>
    show OneActive (m.init internetConnected configSaved w)
    unfold NetworkManager.init
    split
    · exact fun hboth => Bool.false_ne_true hboth.2
    · exact fun hboth => Bool.false_ne_true hboth.1
  | switchTo4g w =>
    show OneActive (m.switchTo4gNetwork w).manager
    unfold NetworkManager.switchTo4gNetwork
    split
    · exact h
    · split
      · exact h
      · split
        · exact h
        · exact fun hboth => Bool.false_ne_true hboth.2
  | switchToWifi w =>
    show OneActive (m.switchToWifiNetwork w).manager
    unfold NetworkManager.switchToWifiNetwork
    split
    · exact h
    · split
      · exact h
      · split
        · exact h
        · split
          · exact h
          · exact fun hboth => Bool.false_ne_true hboth.1

/-- In a run of the manager's calls the flags and the default interface keep to the route exactly
when every switch to WiFi that takes effect finds the station first. -/
theorem routeKept_run_iff (defaultNetif : Option IfKey) (ops : List ManagerOp) :
    AllSteps ManagerOp.step RouteKept (NetworkManager.start defaultNetif) ops ↔
      AllSteps ManagerOp.step RoutesSta (NetworkManager.start defaultNetif) ops := by
  have hstart : OneActive (NetworkManager.start defaultNetif) := fun h => Bool.false_ne_true h.1
  refine allSteps_congr (I := OneActive) (fun m op hI hok => ?_) (fun m op _ hgood => ?_) hstart ops
  · have hnext := hI.step op
    refine ⟨⟨hnext, ?_⟩, hnext⟩
    cases op with
    | init => trivial
    | switchTo4g w => exact switchTo4g_kept m w
    | switchToWifi w => exact (switchToWifi_kept_iff m w).mpr hok
  · cases op with
    | init => trivial
    | switchTo4g w => trivial
    | switchToWifi w => exact (switchToWifi_kept_iff m w).mp hgood.2

/-- A device without stored WiFi starts on 4G and switches to WiFi in access point mode. -/
def switchInApMode : List ManagerOp := [.init true false (.inMode .ap), .switchToWifi (.inMode .ap)]

/-- The switch makes the interface of the access point the default one, and the getter answers
the station's. -/
theorem apMode_route_differs :
    run ManagerOp.step (NetworkManager.start none) switchInApMode =
        ⟨false, true, some .wifiApDef⟩ ∧
      (run ManagerOp.step (NetworkManager.start none) switchInApMode).getActiveNetif (.inMode .ap) =
        some .wifiStaDef ∧
      ¬ AllSteps ManagerOp.step RouteKept (NetworkManager.start none) switchInApMode := by
  refine ⟨by decide, by decide, fun hall => ?_⟩
  have hkept := hall.2.1.2
  have hget := (hkept.route (by decide) .wifiApDef (by decide)).2
  have hsta : (run ManagerOp.step (NetworkManager.start none) switchInApMode).getActiveNetif
      (.inMode .ap) = some .wifiStaDef := by decide
  have hkeys : some IfKey.wifiStaDef = some IfKey.wifiApDef := hsta.symm.trans hget
  cases hkeys

end Leyu
