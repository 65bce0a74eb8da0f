import Leyu.Cellular.Module
import Leyu.Framework.History

/-!
# Losing the AT port

Only `at_init` makes a new AT context, and only `STATE_AT_SYNC` calls it. The states behind it
take the error of a null handle for a missing SIM or a missing network, and the network check
comes back to itself: from there a closed port is never recovered from.
-/

namespace Leyu

open Framework

/-- The AT context is made anew in these states, or on the way from them. -/
def ModuleMark.rebuilds : ModuleMark → Bool
  | .entered .powerOn _ => true
  | .entered .atSync _ => true
  | _ => false

/-- `STATE_CHECK_NETWORK` is entered with a null AT handle. -/
def ModuleMark.nullCheck : ModuleMark → Bool
  | .entered .checkNetwork handle => !handle
  | _ => false

def ModuleMark.startsSimCheck : ModuleMark → Bool
  | .entered .checkSim _ => true
  | _ => false

def ModuleMark.refusesPin : ModuleMark → Bool
  | .pinAnswer pin => decide (pin ≠ .ready)
  | _ => false

def ModuleMark.reportsNoSim : ModuleMark → Bool
  | .entered .errorNoSim _ => true
  | _ => false

def PinRefused (h : List ModuleMark) : Prop :=
  HitSince (·.startsSimCheck) (·.refusesPin) h

instance : DecidablePred PinRefused := fun h =>
  inferInstanceAs (Decidable (HitSince (·.startsSimCheck) (·.refusesPin) h))

/-- `STATE_ERROR_NO_SIM` comes after an answer of the modem. -/
def NoSimOrder (older : List ModuleMark) (mark : ModuleMark) : Prop :=
  mark.reportsNoSim → PinRefused older

instance (older : List ModuleMark) (mark : ModuleMark) : Decidable (NoSimOrder older mark) :=
  inferInstanceAs (Decidable (mark.reportsNoSim → PinRefused older))

/-- The AT context is made anew between two entries into the network check with a null handle,
and a SIM is reported missing only after the modem has said so. -/
def RecoversPort (h : List ModuleMark) : Prop :=
  Apart (·.rebuilds) (·.nullCheck) h ∧ EachAfter NoSimOrder h

theorem RecoversPort.rebuilt_between {newer mid older : List ModuleMark} {a b : ModuleMark}
    (h : RecoversPort (newer ++ b :: (mid ++ a :: older))) (ha : a.nullCheck = true)
    (hb : b.nullCheck = true) : ∃ c ∈ mid, c.rebuilds = true := h.1.cut_between ha hb

theorem RecoversPort.pin_refused {newer older : List ModuleMark} {mark : ModuleMark}
    (h : RecoversPort (newer ++ mark :: older)) (hmark : mark.reportsNoSim = true) :
    ∃ mid answer before, older = mid ++ answer :: before ∧ answer.refusesPin = true ∧
      ∀ c ∈ mid, ¬ c.startsSimCheck = true := by
  have hrefused := (eachAfter_iff _ _).mp h.2 newer mark older rfl hmark
  exact (hitSince_iff _).mp hrefused

/-- Here the state machine relies on the AT handle and does not make it anew. -/
def FsmPoint.reliesOnPort : FsmPoint → Bool
  | .simReady | .checkNetwork _ | .netFail | .startDatacall | .clearOnline | .dial => true
  | _ => false

def FsmPoint.pinQuery : FsmPoint → Option Nat
  | .checkSim attempt => some attempt
  | _ => none

/-- The port does not close where the state machine relies on it, a wait for the IP address that
fails finds it open, and a SIM check does not end without any answer of the modem. -/
def PortKept (m : UsbModule) : ModuleOp → Prop
  | .portClosed => m.point.reliesOnPort = false
  | .fsm a =>
      (m.point = .waitIp → m.hwReset = true ∨ m.gotIp = false ∧ a.timedOut = true →
        m.atHandle = true) ∧
      (m.point = .checkSim (simReadyMaxRetries - 1) → m.atCall a.reply ≠ .ok →
        PinRefused m.history)
  | _ => True

instance (m : UsbModule) : (op : ModuleOp) → Decidable (PortKept m op)
  | .portClosed | .fsm _ => by unfold PortKept; infer_instance
  | .receive _ | .handled | .resetByOther => .isTrue trivial

structure PortOrder (h : List ModuleMark) : Prop where
  noNullCheck : ∀ mark ∈ h, mark.nullCheck = false
  noSim : EachAfter NoSimOrder h

structure PortInv (m : UsbModule) : Prop where
  held : m.point.reliesOnPort = true → m.atHandle = true
  attempts : ∀ k, m.point.pinQuery = some k → k < simReadyMaxRetries
  order : PortOrder m.history

private theorem PortOrder.recoversPort {h : List ModuleMark} (ho : PortOrder h) :
    RecoversPort h := by
  refine ⟨apart_of_no_hit fun mark hmem hhit => ?_, ho.noSim⟩
  rw [ho.noNullCheck mark hmem] at hhit
  exact Bool.false_ne_true hhit

private theorem PortOrder.cons {h : List ModuleMark} {mark : ModuleMark} (ho : PortOrder h)
    (hnull : mark.nullCheck = false) (hsim : mark.reportsNoSim = true → PinRefused h) :
    PortOrder (mark :: h) := by
  refine ⟨fun x hx => ?_, hsim, ho.noSim⟩
  rcases List.mem_cons.mp hx with rfl | hx
  · exact hnull
  · exact ho.noNullCheck x hx

private theorem PortOrder.other {h : List ModuleMark} {mark : ModuleMark} (ho : PortOrder h)
    (hnull : mark.nullCheck = false) (hsim : mark.reportsNoSim = false) :
    PortOrder (mark :: h) := by
  apply ho.cons hnull
  intro hmark
  rw [hsim] at hmark
  exact absurd hmark Bool.false_ne_true

private theorem PortInv.of_free {m : UsbModule} (hfree : m.point.reliesOnPort = false)
    (hsim : m.point.pinQuery = none) (ho : PortOrder m.history) : PortInv m := by
  refine ⟨fun hp => ?_, fun k hk => ?_, ho⟩
  · rw [hfree] at hp
    exact absurd hp Bool.false_ne_true
  · rw [hsim] at hk
    cases hk

private theorem PortInv.of_held {m : UsbModule} (hh : m.atHandle = true)
    (hsim : m.point.pinQuery = none) (ho : PortOrder m.history) : PortInv m := by
  refine ⟨fun _ => hh, fun k hk => ?_, ho⟩
  rw [hsim] at hk
  cases hk

private theorem PortInv.of_query {m : UsbModule} {k : Nat} (hp : m.point = .checkSim k)
    (hk : k < simReadyMaxRetries) (ho : PortOrder m.history) : PortInv m := by
  refine ⟨fun hrel => ?_, fun j hj => ?_, ho⟩
  · rw [hp] at hrel
    cases hrel
  · rw [hp] at hj
    cases hj
    exact hk

private theorem PortInv.start : PortInv UsbModule.start := by
  apply PortInv.of_free rfl rfl
  refine PortOrder.other ⟨?_, trivial⟩ rfl rfl
  intro mark hmem
  exact absurd hmem List.not_mem_nil

private theorem PortInv.handle {m : UsbModule} (h : PortInv m) {p : FsmPoint} (hp : m.point = p)
    (hrel : p.reliesOnPort = true) : m.atHandle = true := by
  apply h.held
  rw [hp, hrel]

private theorem PortInv.fsm {a : ModuleAnswer} {m m' : UsbModule} (h : PortInv m)
    (hok : PortKept m (.fsm a)) (hstep : UsbModule.FsmStep a m m') : PortInv m' := by
  obtain ⟨hwait, hquery⟩ := hok
  have ho := h.order
  cases hstep with
  | stays => exact h
  | linkSeen hp => exact .of_free rfl rfl ho
  | notReady hp => exact .of_free rfl rfl ho
  | ready hp => exact .of_free rfl rfl (ho.other rfl rfl)
  | contextKept hp hh => exact .of_free rfl rfl ho
  | contextMade hp => exact .of_free rfl rfl ho
  | syncFails hp => exact .of_free rfl rfl ho
  | probeAgain k hp => exact .of_free rfl rfl ho
  | probed k hp hh =>
    apply PortInv.of_query rfl
    · decide
    · exact ho.other rfl rfl
  | simReady k hp hh => exact .of_held hh rfl (ho.other rfl rfl)
  | simRefused k pin hp hk hpin => exact .of_query rfl hk (ho.other rfl rfl)
  | simFailed k hp hk => exact .of_query rfl hk ho
  | noSimRefused k pin hp hpin =>
    have hanswer : PortOrder (.pinAnswer pin :: m.history) := ho.other rfl rfl
    refine .of_free rfl rfl (hanswer.cons rfl fun _ => ?_)
    exact .inl (decide_eq_true hpin)
  | noSimFailed k hp hk hret =>
    -- the last query of the check: the condition gives an earlier answer
    have hlt : k < simReadyMaxRetries := h.attempts k (by rw [hp]; rfl)
    have hlast : k = simReadyMaxRetries - 1 := by omega
    have hrefused : PinRefused m.history := hquery (by rw [hp, hlast]) hret
    exact .of_free rfl rfl (ho.cons rfl fun _ => hrefused)
  | networkChecked hp =>
    have hh : m.atHandle = true := by
      rcases hp with hp | hp
      · exact h.handle hp rfl
      · exact h.handle hp rfl
    refine .of_held hh rfl (ho.other ?_ rfl)
    show (!m.atHandle) = false
    rw [hh]
    rfl
  | registered k hp hh hreg => exact .of_held hh rfl (ho.other rfl rfl)
  | notRegistered k hp => exact .of_held (h.handle hp rfl) rfl ho
  | networkFails hp =>
    have hh : m.atHandle = true := by
      rcases hp with ⟨k, hp⟩ | hp
      · exact h.handle hp rfl
      · exact h.handle hp rfl
    exact .of_held hh rfl (ho.other rfl rfl)
  | gotIpCleared hp => exact .of_held (h.handle hp rfl) rfl ho
  | onlineCleared hp => exact .of_held (h.handle hp rfl) rfl ho
  | dialled hp hh => exact .of_free rfl rfl ho
  | resetSeen hp hr =>
    have hmark : PortOrder (.waitReturned .fail :: m.history) := ho.other rfl rfl
    exact .of_held (hwait hp (.inl hr)) rfl (hmark.other rfl rfl)
  | ipSeen hp hr hg =>
    have hmark : PortOrder (.waitReturned .ok :: m.history) := ho.other rfl rfl
    exact .of_free rfl rfl (hmark.other rfl rfl)
  | waitTimeout hp hr hg ht =>
    have hmark : PortOrder (.waitReturned .timeout :: m.history) := ho.other rfl rfl
    exact .of_held (hwait hp (.inr ⟨hg, ht⟩)) rfl (hmark.other rfl rfl)
  | declared hp => exact .of_free rfl rfl ho
  | offlineSeen hp => exact .of_free rfl rfl ho
  | onlineAgain hp => exact .of_free rfl rfl ho
  | offline hp => exact .of_free rfl rfl ho
  | recoveryReset b hp => exact .of_free rfl rfl (ho.other rfl rfl)
  | recoveryDeinit b hp => exact .of_free rfl rfl ho
  | recoveryOffline b hp => exact .of_free rfl rfl ho
  | recoveryBits b hp => exact .of_free rfl rfl ho
  | recoveredPowerOn hp => exact .of_free rfl rfl ho
  | recovered hp => exact .of_free rfl rfl (ho.other rfl rfl)
  | restarts hp => exact .of_free rfl rfl (ho.other rfl rfl)
  | stopped hp => exact .of_free rfl rfl ho

private theorem PortInv.of_other {m m' : UsbModule} (h : PortInv m) (hp : m'.point = m.point)
    (hh : m'.atHandle = m.atHandle) (ho : PortOrder m'.history) : PortInv m' := by
  refine ⟨fun hrel => ?_, fun k hk => ?_, ho⟩
  · rw [hh]
    exact h.held (by rw [← hp]; exact hrel)
  · exact h.attempts k (by rw [← hp]; exact hk)

private theorem PortInv.step {m : UsbModule} {op : ModuleOp} (h : PortInv m) (hok : PortKept m op) :
    PortInv (op.step m) := by
  cases op with
  | fsm a => exact h.fsm hok (UsbModule.fsmStep_spec a m)
  | receive e =>
    show PortInv (m.receive e)
    rcases UsbModule.receive_cases e m with hm | ⟨-, online, hm, -⟩
    · rw [hm]
      exact h
    · rw [hm]
      exact h.of_other rfl rfl (h.order.other rfl rfl)
  | handled =>
    show PortInv m.handled
    rcases UsbModule.handled_cases m with hm | ⟨e, up, ip, -, hm, -⟩
    · rw [hm]
      exact h
    · rw [hm]
      exact h.of_other rfl rfl h.order
  | portClosed =>
    refine ⟨fun hrel => ?_, h.attempts, h.order⟩
    have hfree : m.point.reliesOnPort = false := hok
    have hpoint : m.point.reliesOnPort = true := hrel
    rw [hfree] at hpoint
    exact absurd hpoint Bool.false_ne_true
  | resetByOther => exact h.of_other rfl rfl (h.order.other rfl rfl)

/-- As long as the port is kept open where it is relied on, every state recovers from its loss. -/
theorem recoversPort_of_kept (ops : List ModuleOp)
    (h : AllSteps ModuleOp.step PortKept UsbModule.start ops) :
    AllStates ModuleOp.step (fun m => RecoversPort m.history) UsbModule.start ops := by
  apply (allStates_iff _ _ _).mpr
  refine ⟨PortInv.start.order.recoversPort, ?_⟩
  refine h.strengthen (fun m op hinv hok => ?_) PortInv.start
  have hnext : PortInv (op.step m) := hinv.step hok
  exact ⟨hnext.order.recoversPort, hnext⟩

def FsmPoint.checksNetwork : FsmPoint → Bool
  | .checkNetwork _ | .netFail => true
  | _ => false

theorem recoversPort_of_kept_online :
    AllStates ModuleOp.step (fun m => RecoversPort m.history) UsbModule.start
      (online ++ .portClosed :: linkLost ++ bringUp 7) :=
  recoversPort_of_kept _ (by decide +kernel)

def Stranded (m : UsbModule) : Prop := m.atHandle = false ∧ m.point.checksNetwork = true

private theorem Stranded.fsm {a : ModuleAnswer} {m m' : UsbModule} (h : Stranded m)
    (hstep : UsbModule.FsmStep a m m') : Stranded m' := by
  obtain ⟨hh, hp⟩ := h
  cases hstep with
  | stays => exact ⟨hh, hp⟩
  | networkChecked hp' => exact ⟨hh, rfl⟩
  | notRegistered k hp' => exact ⟨hh, rfl⟩
  | networkFails hp' => exact ⟨hh, rfl⟩
  | registered k hp' hh' hreg =>
    rw [hh] at hh'
    cases hh'
  | syncFails hp' => rcases hp' with hp' | ⟨k, hp'⟩ <;> rw [hp'] at hp <;> cases hp
  | notReady hp' => rcases hp' with hp' | hp' <;> rw [hp'] at hp <;> cases hp
  -- every other step starts at a place outside the network check
  | _ =>
    simp_all only [FsmPoint.checksNetwork]
    contradiction

/-- Nothing any task does leads out of there again: a port closed during the network check stays
lost, whatever the modem, the link and the other tasks do. -/
theorem Stranded.run {m : UsbModule} (h : Stranded m) (ops : List ModuleOp) :
    Stranded (run ModuleOp.step m ops) := by
  apply run_of_step (fun m op hm => ?_) h
  cases op with
  | fsm a => exact hm.fsm (UsbModule.fsmStep_spec a m)
  | receive e =>
    show Stranded (m.receive e)
    rcases UsbModule.receive_cases e m with hr | ⟨-, online, hr, -⟩
    · rw [hr]
      exact hm
    · rw [hr]
      exact hm
  | handled =>
    show Stranded m.handled
    rcases UsbModule.handled_cases m with hr | ⟨e, up, ip, -, hr, -⟩
    · rw [hr]
      exact hm
    · rw [hr]
      exact hm
  | portClosed => exact ⟨rfl, hm.2⟩
  | resetByOther => exact hm

/-- The port closes when the network check has begun. -/
def portLost : List ModuleOp :=
  bringUp 6 ++ .portClosed :: List.replicate 62 (.fsm .allOk)

/-- The port closes when the SIM check has begun. -/
def portLostInSimCheck : List ModuleOp :=
  bringUp 4 ++ .portClosed :: List.replicate simReadyMaxRetries (.fsm .allOk)

theorem portLost_unrecovered :
    ¬ Apart (·.rebuilds) (·.nullCheck) (run ModuleOp.step UsbModule.start portLost).history ∧
      ¬ EachAfter NoSimOrder (run ModuleOp.step UsbModule.start portLostInSimCheck).history := by
  decide +kernel

end Leyu
