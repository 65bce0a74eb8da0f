import Leyu.Cellular.Module
import Leyu.Framework.History

/-!
# The reset bit

`reset_4g_module_hardware` sets `EVENT_HW_RESET_BIT`, and only a wait for the IP address that
sees it clears it. A data call clears the bit of the IP address before it begins, but not this
one: the bit of an old reset fails the next data call.
-/

namespace Leyu

open Framework

def ModuleMark.startsDatacall : ModuleMark → Bool
  | .entered .startDatacall _ => true
  | _ => false

def ResetInDatacall (h : List ModuleMark) : Prop :=
  HitSince (·.startsDatacall) (· = .hardwareReset) h

instance : DecidablePred ResetInDatacall := fun h =>
  inferInstanceAs (Decidable (HitSince (·.startsDatacall) (· = .hardwareReset) h))

/-- `wait_for_usb_got_ip` returns `ESP_FAIL` only for a reset of its own data call. -/
def WaitOrder (older : List ModuleMark) (mark : ModuleMark) : Prop :=
  mark = .waitReturned .fail → ResetInDatacall older

instance (older : List ModuleMark) (mark : ModuleMark) : Decidable (WaitOrder older mark) :=
  inferInstanceAs (Decidable (mark = .waitReturned .fail → ResetInDatacall older))

theorem reset_of_failed_wait {newer older : List ModuleMark}
    (h : EachAfter WaitOrder (newer ++ .waitReturned .fail :: older)) :
    ∃ mid before, older = mid ++ .hardwareReset :: before ∧
      ∀ c ∈ mid, ¬ c.startsDatacall = true := by
  have hreset := (eachAfter_iff _ _).mp h newer _ older rfl rfl
  obtain ⟨mid, mark, before, hsplit, rfl, hmid⟩ := (hitSince_iff _).mp hreset
  exact ⟨mid, before, hsplit, hmid⟩

def FsmPoint.inDatacall : FsmPoint → Bool
  | .startDatacall | .clearOnline | .dial | .waitIp => true
  | _ => false

def FsmPoint.checksRegistration : FsmPoint → Bool
  | .checkNetwork _ => true
  | _ => false

/-- Where the network check finds the modem registered, and so starts a data call, the reset bit
is clear. -/
def NoStaleReset (m : UsbModule) : ModuleOp → Prop
  | .fsm a =>
      m.point.checksRegistration = true → m.atCall a.reply = .ok ∧ (a.stat = 1 ∨ a.stat = 5) →
        m.hwReset = false
  | _ => True

instance (m : UsbModule) : (op : ModuleOp) → Decidable (NoStaleReset m op)
  | .fsm _ => by unfold NoStaleReset; infer_instance
  | .receive _ | .handled | .portClosed | .resetByOther => .isTrue trivial

structure ResetInv (m : UsbModule) : Prop where
  /-- During a data call the bit stands for a reset of this call. -/
  fresh : m.point.inDatacall = true → m.hwReset = true → ResetInDatacall m.history
  order : EachAfter WaitOrder m.history

private theorem ResetInv.outside {m : UsbModule} (hp : m.point.inDatacall = false)
    (ho : EachAfter WaitOrder m.history) : ResetInv m := by
  refine ⟨fun hin => ?_, ho⟩
  rw [hp] at hin
  exact absurd hin Bool.false_ne_true

private theorem waitOrder_cons {h : List ModuleMark} {mark : ModuleMark}
    (ho : EachAfter WaitOrder h) (hmark : mark ≠ .waitReturned .fail) :
    EachAfter WaitOrder (mark :: h) :=
  ⟨fun hfail => absurd hfail hmark, ho⟩

private theorem ResetInv.within {m m' : UsbModule} (h : ResetInv m) {p : FsmPoint}
    (hp : m.point = p) (hin : p.inDatacall = true) (hbit : m'.hwReset = m.hwReset)
    (hhist : m'.history = m.history) :
    ResetInv m' := by
  have hm : m.point.inDatacall = true := by rw [hp, hin]
  refine ⟨fun _ hr => ?_, ?_⟩
  · rw [hhist]
    exact h.fresh hm (by rw [← hbit, hr])
  · rw [hhist]
    exact h.order

private theorem ResetInv.start : ResetInv UsbModule.start := by
  apply ResetInv.outside rfl
  exact waitOrder_cons trivial (by decide)

private theorem ResetInv.fsm {a : ModuleAnswer} {m m' : UsbModule} (h : ResetInv m)
    (hok : NoStaleReset m (.fsm a)) (hstep : UsbModule.FsmStep a m m') : ResetInv m' := by
  have ho := h.order
  cases hstep with
  | stays => exact h
  | registered k hp hh hreg =>
    have hclear : m.hwReset = false := hok (by rw [hp]; rfl) hreg
    refine ⟨fun _ hr => ?_, waitOrder_cons ho (by simp)⟩
    have hset : m.hwReset = true := hr
    rw [hclear] at hset
    exact absurd hset Bool.false_ne_true
  | gotIpCleared hp => exact h.within hp rfl rfl rfl
  | onlineCleared hp => exact h.within hp rfl rfl rfl
  | dialled hp hh => exact h.within hp rfl rfl rfl
  | resetSeen hp hr =>
    -- the only return of ESP_FAIL: the bit was set during this data call
    have hreset : ResetInDatacall m.history := h.fresh (by rw [hp]; rfl) hr
    apply ResetInv.outside rfl
    apply waitOrder_cons
    · exact ⟨fun _ => hreset, ho⟩
    · simp
  | ipSeen hp hr hg =>
    exact .outside rfl (waitOrder_cons (waitOrder_cons ho (by simp)) (by simp))
  | waitTimeout hp hr hg ht =>
    exact .outside rfl (waitOrder_cons (waitOrder_cons ho (by simp)) (by simp))
  | simReady k hp hh => exact .outside rfl (waitOrder_cons ho (by simp))
  | simRefused k pin hp hk hpin => exact .outside rfl (waitOrder_cons ho (by simp))
  | noSimRefused k pin hp hpin =>
    exact .outside rfl (waitOrder_cons (waitOrder_cons ho (by simp)) (by simp))
  | ready hp => exact .outside rfl (waitOrder_cons ho (by simp))
  | probed k hp hh => exact .outside rfl (waitOrder_cons ho (by simp))
  | noSimFailed k hp hk hret => exact .outside rfl (waitOrder_cons ho (by simp))
  | networkChecked hp => exact .outside rfl (waitOrder_cons ho (by simp))
  | networkFails hp => exact .outside rfl (waitOrder_cons ho (by simp))
  | recoveryReset b hp => exact .outside rfl (waitOrder_cons ho (by simp))
  | recovered hp => exact .outside rfl (waitOrder_cons ho (by simp))
  | restarts hp => exact .outside rfl (waitOrder_cons ho (by simp))
  -- the remaining steps lead outside the data call and log nothing
  | _ => exact .outside rfl ho

private theorem ResetInv.step {m : UsbModule} {op : ModuleOp} (h : ResetInv m)
    (hok : NoStaleReset m op) :
    ResetInv (op.step m) := by
  cases op with
  | fsm a => exact h.fsm hok (UsbModule.fsmStep_spec a m)
  | receive e =>
    show ResetInv (m.receive e)
    rcases UsbModule.receive_cases e m with hm | ⟨-, online, hm, -⟩
    · rw [hm]
      exact h
    · rw [hm]
      refine ⟨fun hin hr => ?_, waitOrder_cons h.order (by simp)⟩
      exact (h.fresh hin hr).cons_of_not_cut Bool.false_ne_true
  | handled =>
    show ResetInv m.handled
    rcases UsbModule.handled_cases m with hm | ⟨e, up, ip, -, hm, -⟩
    · rw [hm]
      exact h
    · rw [hm]
      exact ⟨h.fresh, h.order⟩
  | portClosed => exact ⟨h.fresh, h.order⟩
  | resetByOther =>
    refine ⟨fun _ _ => ?_, waitOrder_cons h.order (by simp)⟩
    exact .inl rfl

/-- As long as no data call is started with the bit of an old reset, a wait fails for a reset of
its own data call only. -/
theorem waitOrder_of_noStaleReset (ops : List ModuleOp)
    (h : AllSteps ModuleOp.step NoStaleReset UsbModule.start ops) :
    AllStates ModuleOp.step (fun m => EachAfter WaitOrder m.history) UsbModule.start ops := by
  apply (allStates_iff _ _ _).mpr
  refine ⟨ResetInv.start.order, ?_⟩
  refine h.strengthen (fun m op hinv hok => ?_) ResetInv.start
  have hnext : ResetInv (op.step m) := hinv.step hok
  exact ⟨hnext.order, hnext⟩

theorem waitOrder_of_noStaleReset_ownReset :
    AllStates ModuleOp.step (fun m => EachAfter WaitOrder m.history) UsbModule.start
      (bringUp 10 ++ [.resetByOther, .receive .gotIp, .handled, .fsm .allOk]) :=
  waitOrder_of_noStaleReset _ (by decide +kernel)

/-- The link was lost and recovered; the next data call obtains its IP address. -/
def relinked : List ModuleOp :=
  online ++ linkLost ++ bringUp 11 ++ [.receive .gotIp, .handled, .fsm .allOk]

theorem relinked_wait_fails :
    (run ModuleOp.step UsbModule.start relinked).gotIp = true ∧
      ¬ EachAfter WaitOrder (run ModuleOp.step UsbModule.start relinked).history := by
  decide +kernel

def ResetPending (m : UsbModule) : Prop :=
  m.hwReset = true ∨ .waitReturned .fail ∈ m.history

private theorem ResetPending.grow {m m' : UsbModule} (h : ResetPending m)
    (hbit : m.hwReset = true → m'.hwReset = true) (hhist : m.history <:+ m'.history) :
    ResetPending m' := by
  rcases h with hr | hf
  · exact .inl (hbit hr)
  · exact .inr (hhist.subset hf)

private theorem ResetPending.fsm {a : ModuleAnswer} {m m' : UsbModule} (h : ResetPending m)
    (hstep : UsbModule.FsmStep a m m') : ResetPending m' := by
  have hhist := hstep.history_suffix
  cases hstep with
  | resetSeen hp hr => exact .inr (List.mem_cons_of_mem _ List.mem_cons_self)
  | recoveryReset b hp => exact .inl rfl
  | restarts hp => exact .inl rfl
  | _ => exact h.grow id hhist

/-- Nothing but a failed wait clears the bit: whatever happens after a reset, it is set until a
wait has returned `ESP_FAIL`. -/
theorem ResetPending.run {m : UsbModule} (h : ResetPending m) (ops : List ModuleOp) :
    ResetPending (run ModuleOp.step m ops) := by
  apply run_of_step (fun m op hm => ?_) h
  cases op with
  | fsm a => exact hm.fsm (UsbModule.fsmStep_spec a m)
  | receive e =>
    show ResetPending (m.receive e)
    rcases UsbModule.receive_cases e m with hr | ⟨-, online, hr, -⟩
    · rw [hr]
      exact hm
    · rw [hr]
      exact hm.grow id (List.suffix_cons _ _)
  | handled =>
    show ResetPending m.handled
    rcases UsbModule.handled_cases m with hr | ⟨e, up, ip, -, hr, -⟩
    · rw [hr]
      exact hm
    · rw [hr]
      exact hm
  | portClosed => exact hm
  | resetByOther => exact .inl rfl

end Leyu
