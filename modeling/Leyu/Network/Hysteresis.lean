import Leyu.Network.Monitor
import Leyu.Framework.Runs
import Leyu.Framework.History

/-!
# The way back to WiFi

After a fail-over the monitor is to go back to WiFi only when 4G is lost and WiFi works, or after
thirty rounds and three successful probes in a row. The invariant of that wait: the cooldown
still covers what is left of the thirty rounds, and the recovery count stands for successes up
to the last round. A round that finds no interface or is skipped keeps the count, and a switch
that fails takes the cooldown away; a run without such rounds keeps the invariant.
-/

namespace Leyu

open Framework

/-- The rounds since the last fail-over, unless the task has gone back to WiFi since. -/
def ticksSinceFailover : List TickMark → Option Nat
  | [] => none
  | mark :: older =>
      match mark.change with
      | .failedOver => some 0
      | .switchedBack _ => none
      | .kept => (ticksSinceFailover older).map (· + 1)

def successesInRow (h : List TickMark) : Nat := (h.takeWhile (·.wifiOk)).length

/-- A way back to WiFi is due: 4G is not connected and WiFi works, or thirty rounds have passed
since the fail-over and the last three of them found WiFi to work. -/
def SwitchDue (older : List TickMark) (mark : TickMark) : Prop :=
  match mark.change, ticksSinceFailover older with
  | .switchedBack internetConnected, some n =>
      internetConnected = false ∧ mark.wifiOk = true ∨
        30 ≤ n + 1 ∧ 3 ≤ successesInRow (mark :: older)
  | _, _ => True

instance (older : List TickMark) (mark : TickMark) : Decidable (SwitchDue older mark) := by
  unfold SwitchDue
  split <;> infer_instance

def Hysteresis (m : NetworkMonitor) : Prop := EachAfter SwitchDue m.history

instance : DecidablePred Hysteresis := fun m =>
  inferInstanceAs (Decidable (EachAfter SwitchDue m.history))

private theorem ticksSinceFailover_append {mid older : List TickMark} {failure : TickMark}
    (hfailure : failure.change = .failedOver) (hmid : ∀ mark ∈ mid, mark.change = .kept) :
    ticksSinceFailover (mid ++ failure :: older) = some mid.length := by
  induction mid with
  | nil =>
    show ticksSinceFailover (failure :: older) = some 0
    rw [ticksSinceFailover, hfailure]
  | cons mark mid ih =>
    have hrest : ∀ mark' ∈ mid, mark'.change = .kept := by
      intro mark' hmark'
      exact hmid mark' (List.mem_cons_of_mem mark hmark')
    rw [List.cons_append, ticksSinceFailover, hmid mark List.mem_cons_self]
    dsimp only
    rw [ih hrest]
    rfl

private theorem wifiOk_of_successesInRow {h : List TickMark} {k : Nat} (hk : k ≤ successesInRow h) :
    ∀ mark ∈ h.take k, mark.wifiOk = true := by
  intro mark hmark
  have hfront : h.takeWhile (·.wifiOk) = h.take (successesInRow h) :=
    List.prefix_iff_eq_take.mp (List.takeWhile_prefix _)
  have htake : h.take k = (h.takeWhile (·.wifiOk)).take k := by
    rw [hfront, List.take_take, Nat.min_eq_left hk]
  rw [htake] at hmark
  exact List.mem_takeWhile_imp (List.mem_of_mem_take hmark)

/-- The first way back after a fail-over, where 4G is connected: thirty rounds have passed, and
this round and the two before it found WiFi to work. -/
theorem Hysteresis.waited {m : NetworkMonitor} (h : Hysteresis m)
    {newer mid older : List TickMark} {back failure : TickMark}
    (hsplit : m.history = newer ++ back :: (mid ++ failure :: older))
    (hback : back.change = .switchedBack true) (hfailure : failure.change = .failedOver)
    (hmid : ∀ mark ∈ mid, mark.change = .kept) :
    30 ≤ mid.length + 1 ∧
      ∀ mark ∈ (back :: (mid ++ failure :: older)).take 3, mark.wifiOk = true := by
  have hdue := (eachAfter_iff _ _).mp h newer back _ hsplit
  rw [SwitchDue, hback, ticksSinceFailover_append hfailure hmid] at hdue
  rcases hdue with ⟨hlost, -⟩ | ⟨hrounds, hrow⟩
  · cases hlost
  · exact ⟨hrounds, wifiOk_of_successesInRow hrow⟩

/-- `switch_to_wifi_network` finds an interface that the SDK accepts. -/
def Interfaces.acceptsWifi (w : Interfaces) : Bool :=
  (w.wifiMode.bind w.wifiNetif).isSome && w.setDefault = .ok

/-- After a fail-over, the station's interface does not vanish between two counted successes;
within the cooldown no counted success waits for its followers while 4G is connected, no third
one is counted, and a switch that is tried works. -/
def SteadyRound (m : NetworkMonitor) : MonitorOp → Prop
  | .switchTo4g _ => True
  | .tick a =>
      (ticksSinceFailover m.history).isSome = true →
        (a.net.present .wifiStaDef = false → m.wifiRecoveryCount = 0) ∧
          (1 < m.wifiCooldownCounter →
            if a.connected then m.wifiRecoveryCount = 0
            else a.wifiOk = true →
              if a.connectedAfterProbe then m.wifiRecoveryCount < 2
              else a.net.acceptsWifi = true)

instance (m : NetworkMonitor) (op : MonitorOp) : Decidable (SteadyRound m op) := by
  cases op <;> unfold SteadyRound <;> infer_instance

structure Waiting (n : Nat) (m : NetworkMonitor) : Prop where
  route : m.manager.on4g = true
  cooled : 30 ≤ n + m.wifiCooldownCounter
  counted : m.wifiRecoveryCount ≤ successesInRow m.history

/-- What a round does while the route is the 4G module's. -/
inductive Watch4g (a : TickWorld) (m : NetworkMonitor) : NetworkMonitor → Prop
  | skipped (hcool : 0 < m.wifiCooldownCounter) (hconn : a.connected = true) :
      Watch4g a m (m.log ⟨false, .kept, none⟩)
  | missing (habsent : a.net.present .wifiStaDef = false) :
      Watch4g a m (m.log ⟨false, .kept, none⟩)
  | failed : Watch4g a m ({ m with wifiRecoveryCount := 0 }.log ⟨false, .kept, none⟩)
  | recovered (hlook : 0 < m.wifiCooldownCounter → a.connected = false)
      (hok : a.wifiOk = true) : Watch4g a m (m.recovered a)

private theorem watch4g_spec (a : TickWorld) (m : NetworkMonitor) : Watch4g a m (m.watch4g a) := by
  unfold NetworkMonitor.watch4g
  split
  · rename_i hskip
    exact .skipped hskip.1 hskip.2
  · rename_i hlook
    have hlook : 0 < m.wifiCooldownCounter → a.connected = false := by
      intro hcool
      apply Bool.eq_false_iff.mpr
      intro hconn
      exact hlook ⟨hcool, hconn⟩
    split
    · rename_i habsent
      apply Watch4g.missing
      apply Bool.eq_false_iff.mpr
      intro hpresent
      rw [Interfaces.handle, if_pos hpresent] at habsent
      cases habsent
    · rename_i netif hhandle
      split
      · rename_i hip
        split
        · rename_i hprobe
          apply Watch4g.recovered hlook
          rw [TickWorld.wifiOk, hhandle, hip, hprobe]
          rfl
        · exact .failed
      · exact .failed

private theorem ticksSinceFailover_kept {mark : TickMark} (h : mark.change = .kept)
    (older : List TickMark) :
    ticksSinceFailover (mark :: older) = (ticksSinceFailover older).map (· + 1) := by
  rw [ticksSinceFailover, h]

private theorem ticksSinceFailover_switchedBack {mark : TickMark} {internetConnected : Bool}
    (h : mark.change = .switchedBack internetConnected) (older : List TickMark) :
    ticksSinceFailover (mark :: older) = none := by
  rw [ticksSinceFailover, h]

private theorem switchDue_of_kept {mark : TickMark} (h : mark.change = .kept)
    (older : List TickMark) :
    SwitchDue older mark := by
  rw [SwitchDue, h]
  trivial

private theorem switchDue_of_none {older : List TickMark} (h : ticksSinceFailover older = none)
    (mark : TickMark) : SwitchDue older mark := by
  rw [SwitchDue, h]
  split
  · contradiction
  · trivial

private theorem switchDue_switchedBack {older : List TickMark} {mark : TickMark} {n : Nat}
    {internetConnected : Bool} (hsince : ticksSinceFailover older = some n)
    (hback : mark.change = .switchedBack internetConnected)
    (hdue : internetConnected = false ∧ mark.wifiOk = true ∨
      30 ≤ n + 1 ∧ 3 ≤ successesInRow (mark :: older)) : SwitchDue older mark := by
  rw [SwitchDue, hsince, hback]
  exact hdue

private theorem successesInRow_ok {mark : TickMark} (h : mark.wifiOk = true)
    (older : List TickMark) :
    successesInRow (mark :: older) = successesInRow older + 1 := by
  rw [successesInRow, List.takeWhile_cons_of_pos h]
  rfl

private theorem switchToWifi_of_accepts {m : NetworkManager} {w : Interfaces}
    (hroute : m.on4g = true) (h : w.acceptsWifi = true) : (m.switchToWifiNetwork w).err = .ok := by
  have hnot : ¬ m.onWifi = true := by
    intro hwifi
    simp only [NetworkManager.on4g, NetworkManager.onWifi, Bool.and_eq_true, Bool.not_eq_true']
      at hroute hwifi
    rw [hroute.1] at hwifi
    cases hwifi.2
  obtain ⟨hfound, hset⟩ := (Bool.and_eq_true _ _).mp h
  have hset : w.setDefault = .ok := of_decide_eq_true hset
  rw [NetworkManager.switchToWifiNetwork, if_neg hnot]
  cases hmode : w.wifiMode with
  | none =>
    rw [hmode] at hfound
    cases hfound
  | some mode =>
    rw [hmode] at hfound
    cases hnetif : w.wifiNetif mode with
    | none =>
      rw [Option.bind_some, hnetif] at hfound
      cases hfound
    | some netif =>
      dsimp only
      rw [hnetif]
      dsimp only
      rw [if_neg (not_not_intro hset)]

structure Patient (m : NetworkMonitor) : Prop where
  order : Hysteresis m
  waits : ∀ n, ticksSinceFailover m.history = some n → Waiting n m

private theorem Waiting.beginTick {n : Nat} {m : NetworkMonitor} (h : Waiting n m) (a : TickWorld) :
    Waiting (n + 1) (m.beginTick a) := by
  refine ⟨h.route, ?_, h.counted⟩
  have hcooled := h.cooled
  show 30 ≤ n + 1 + (m.wifiCooldownCounter - 1)
  omega

private theorem Waiting.log_kept {n : Nat} {m : NetworkMonitor} {mark : TickMark}
    (h : Waiting (n + 1) (m.log mark)) (hmark : mark.change = .kept)
    (hsince : ticksSinceFailover m.history = some n) (horder : Hysteresis m) :
    Patient (m.log mark) := by
  refine ⟨⟨switchDue_of_kept hmark _, horder⟩, fun k hk => ?_⟩
  have hk : ticksSinceFailover (mark :: m.history) = some k := hk
  rw [ticksSinceFailover_kept hmark, hsince] at hk
  rw [← Option.some.inj hk]
  exact h

private theorem Waiting.recovered {n : Nat} {m : NetworkMonitor} {a : TickWorld}
    (h : Waiting (n + 1) m) (hsince : ticksSinceFailover m.history = some n)
    (horder : Hysteresis m)
    (hcool : 0 < m.wifiCooldownCounter →
      if a.connectedAfterProbe then m.wifiRecoveryCount < 2 else a.net.acceptsWifi = true) :
    Patient (m.recovered a) := by
  have hcooled := h.cooled
  have hcounted := h.counted
  unfold NetworkMonitor.recovered
  split
  · rename_i hrequired
    have hthree : a.connectedAfterProbe = true → 2 ≤ m.wifiRecoveryCount := by
      intro hconn
      rw [NetworkMonitor.requiredRecovery, if_pos hconn] at hrequired
      omega
    by_cases herr : (m.manager.switchToWifiNetwork a.net).err = .ok
    · dsimp only
      rw [if_pos herr]
      refine ⟨⟨switchDue_switchedBack hsince rfl ?_, horder⟩, fun k hk => ?_⟩
      · cases hconn : a.connectedAfterProbe with
        | false => exact .inl ⟨rfl, rfl⟩
        | true =>
          have htwo := hthree hconn
          have hdone : m.wifiCooldownCounter = 0 := by
            by_contra hpos
            have hfew := hcool (Nat.pos_of_ne_zero hpos)
            rw [if_pos hconn] at hfew
            omega
          refine .inr ⟨by omega, ?_⟩
          rw [successesInRow_ok rfl]
          show 3 ≤ successesInRow m.history + 1
          omega
      · cases hk
    · dsimp only
      rw [if_neg herr]
      have hdone : m.wifiCooldownCounter = 0 := by
        by_contra hpos
        have hwithin := hcool (Nat.pos_of_ne_zero hpos)
        split at hwithin
        · rename_i hconn
          have htwo := hthree hconn
          omega
        · exact herr (switchToWifi_of_accepts h.route hwithin)
      have hroute : (m.manager.switchToWifiNetwork a.net).manager.on4g = true := by
        rw [switchToWifi_failed herr]
        exact h.route
      refine Waiting.log_kept ⟨hroute, ?_, Nat.zero_le _⟩ rfl hsince horder
      show 30 ≤ n + 1 + 0
      omega
  · refine Waiting.log_kept ⟨h.route, h.cooled, ?_⟩ rfl hsince horder
    show m.wifiRecoveryCount + 1 ≤ successesInRow (⟨true, .kept, none⟩ :: m.history)
    rw [successesInRow_ok rfl]
    omega

private theorem Waiting.watch4g {n : Nat} {m : NetworkMonitor} {a : TickWorld}
    (h : Waiting (n + 1) m) (hsince : ticksSinceFailover m.history = some n)
    (horder : Hysteresis m)
    (hmissing : a.net.present .wifiStaDef = false → m.wifiRecoveryCount = 0)
    (hcool : 0 < m.wifiCooldownCounter →
      if a.connected then m.wifiRecoveryCount = 0
      else a.wifiOk = true →
        if a.connectedAfterProbe then m.wifiRecoveryCount < 2 else a.net.acceptsWifi = true) :
    Patient (m.watch4g a) := by
  have hround := watch4g_spec a m
  generalize m.watch4g a = m' at hround ⊢
  cases hround with
  | skipped hpos hconn =>
    refine Waiting.log_kept ⟨h.route, h.cooled, ?_⟩ rfl hsince horder
    have hzero := hcool hpos
    rw [if_pos hconn] at hzero
    exact hzero.le.trans (Nat.zero_le _)
  | missing habsent =>
    refine Waiting.log_kept ⟨h.route, h.cooled, ?_⟩ rfl hsince horder
    exact (hmissing habsent).le.trans (Nat.zero_le _)
  | failed => exact Waiting.log_kept ⟨h.route, h.cooled, Nat.zero_le _⟩ rfl hsince horder
  | recovered hlook hok =>
    apply h.recovered hsince horder
    intro hpos
    have hwithin := hcool hpos
    rw [hlook hpos] at hwithin
    exact hwithin hok

private theorem tick_mark (a : TickWorld) (m : NetworkMonitor) :
    ∃ mark, (m.tick a).history = mark :: m.history ∧
      (mark.change = .failedOver → Waiting 0 (m.tick a)) := by
  unfold NetworkMonitor.tick
  dsimp only
  split
  · have hround := watch4g_spec a (m.beginTick a)
    generalize (m.beginTick a).watch4g a = m' at hround ⊢
    cases hround with
    | skipped => exact ⟨_, rfl, fun h => absurd h RouteChange.noConfusion⟩
    | missing => exact ⟨_, rfl, fun h => absurd h RouteChange.noConfusion⟩
    | failed => exact ⟨_, rfl, fun h => absurd h RouteChange.noConfusion⟩
    | recovered =>
      unfold NetworkMonitor.recovered
      split
      · refine ⟨_, rfl, fun h => ?_⟩
        dsimp only at h
        split at h
        · cases h
        · cases h
      · exact ⟨_, rfl, fun h => absurd h RouteChange.noConfusion⟩
  · split
    · unfold NetworkMonitor.watchWifi
      split
      · exact ⟨_, rfl, fun h => absurd h RouteChange.noConfusion⟩
      · dsimp only
        split
        · split
          · refine ⟨_, rfl, fun h => ?_⟩
            dsimp only at h
            split at h
            · rename_i herr
              exact ⟨switchTo4g_on4g herr, Nat.le_refl 30, Nat.zero_le _⟩
            · cases h
          · exact ⟨_, rfl, fun h => absurd h RouteChange.noConfusion⟩
        · exact ⟨_, rfl, fun h => absurd h RouteChange.noConfusion⟩
    · exact ⟨_, rfl, fun h => absurd h RouteChange.noConfusion⟩

private theorem Patient.tick {m : NetworkMonitor} (h : Patient m) {a : TickWorld}
    (hok : SteadyRound m (.tick a)) : Patient (m.tick a) := by
  cases hsince : ticksSinceFailover m.history with
  | some n =>
    have hwait := h.waits n hsince
    obtain ⟨hmissing, hcool⟩ := hok (by rw [hsince]; rfl)
    have hroute : (m.beginTick a).manager.on4g = true := hwait.route
    rw [NetworkMonitor.tick, if_pos hroute]
    apply (hwait.beginTick a).watch4g hsince h.order hmissing
    intro hpos
    apply hcool
    have hpos : 0 < m.wifiCooldownCounter - 1 := hpos
    omega
  | none =>
    -- no fail-over to wait after, unless this round makes one
    obtain ⟨mark, hhistory, hfailure⟩ := tick_mark a m
    refine ⟨?_, fun k hk => ?_⟩
    · show EachAfter SwitchDue (m.tick a).history
      rw [hhistory]
      exact ⟨switchDue_of_none hsince mark, h.order⟩
    · rw [hhistory] at hk
      cases hchange : mark.change with
      | failedOver =>
        rw [ticksSinceFailover, hchange] at hk
        rw [← Option.some.inj hk]
        exact hfailure hchange
      | switchedBack internetConnected =>
        rw [ticksSinceFailover_switchedBack hchange] at hk
        cases hk
      | kept =>
        rw [ticksSinceFailover_kept hchange, hsince] at hk
        cases hk

private theorem Patient.step {m : NetworkMonitor} (h : Patient m) (op : MonitorOp)
    (hok : SteadyRound m op) : Patient (op.step m) := by
  cases op with
  | tick a => exact h.tick hok
  | switchTo4g w =>
    refine ⟨h.order, fun n hn => ?_⟩
    have hwait := h.waits n hn
    refine ⟨?_, hwait.cooled, hwait.counted⟩
    show (m.manager.switchTo4gNetwork w).manager.on4g = true
    rw [switchTo4g_of_on4g hwait.route]
    exact hwait.route

private theorem Patient.start (manager : NetworkManager) :
    Patient (NetworkMonitor.start manager) := by
  refine ⟨trivial, fun n hn => ?_⟩
  cases hn

/-- In a run of steady rounds the task goes back to WiFi only when that is due. -/
theorem hysteresis_of_steady (manager : NetworkManager) (ops : List MonitorOp)
    (hok : AllSteps MonitorOp.step SteadyRound (NetworkMonitor.start manager) ops) :
    AllStates MonitorOp.step Hysteresis (NetworkMonitor.start manager) ops := by
  apply (allStates_iff _ _ _).mpr
  refine ⟨(Patient.start manager).order, ?_⟩
  refine hok.strengthen (I := Patient) (fun m op hI hop => ?_) (Patient.start manager)
  have hnext := hI.step op hop
  exact ⟨hnext.order, hnext⟩

namespace TickWorld

def works : TickWorld := ⟨.inMode .sta, true, true, true, true, true, true⟩

def lost : TickWorld := { works with probe := false }

def vanished : TickWorld := { works with net := { works.net with present := fun _ => false } }

/-- 4G is not connected, and the SDK refuses the default interface. -/
def refused : TickWorld :=
  { works with
    net := { works.net with setDefault := .fail }
    connected := false
    connectedAfterProbe := false }

end TickWorld

namespace NetworkMonitor

def startOnWifi : NetworkMonitor := start ⟨false, true, some .wifiStaDef⟩

def waitsOut : List MonitorOp := .tick .lost :: List.replicate 32 (.tick .works)

/-- The interface vanishes between the second and the third success. -/
def vanishes : List MonitorOp :=
  .tick .lost :: List.replicate 31 (.tick .works) ++ [.tick .vanished, .tick .works]

def refusedEarly : List MonitorOp :=
  [.tick .lost, .tick .refused, .tick .works, .tick .works, .tick .works]

end NetworkMonitor

theorem hysteresis_of_steady_waitsOut :
    AllSteps MonitorOp.step SteadyRound NetworkMonitor.startOnWifi NetworkMonitor.waitsOut ∧
      AllStates MonitorOp.step Hysteresis NetworkMonitor.startOnWifi NetworkMonitor.waitsOut := by
  have hok : AllSteps MonitorOp.step SteadyRound NetworkMonitor.startOnWifi
      NetworkMonitor.waitsOut := by decide +kernel
  exact ⟨hok, hysteresis_of_steady _ _ hok⟩

/-- The third success comes after a round without the interface, and the way back is taken while
4G is connected; and the way back is taken four rounds after the fail-over. -/
theorem vanishes_not_hysteresis :
    (¬ Hysteresis (run MonitorOp.step NetworkMonitor.startOnWifi NetworkMonitor.vanishes) ∧
        (run MonitorOp.step NetworkMonitor.startOnWifi NetworkMonitor.vanishes).history.take 5 =
          [⟨true, .switchedBack true, some .wifiNet⟩, ⟨false, .kept, none⟩, ⟨true, .kept, none⟩,
            ⟨true, .kept, none⟩, ⟨false, .kept, none⟩]) ∧
      ¬ Hysteresis (run MonitorOp.step NetworkMonitor.startOnWifi NetworkMonitor.refusedEarly) ∧
        (run MonitorOp.step NetworkMonitor.startOnWifi NetworkMonitor.refusedEarly).history =
          [⟨true, .switchedBack true, some .wifiNet⟩, ⟨true, .kept, none⟩, ⟨true, .kept, none⟩,
            ⟨true, .kept, some .wifiNet⟩, ⟨false, .failedOver, some .net4g⟩] := by
  refine ⟨⟨?_, ?_⟩, ?_, ?_⟩ <;> decide +kernel

end Leyu
