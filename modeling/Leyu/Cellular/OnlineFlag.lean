import Leyu.Cellular.Module
import Leyu.Framework.History

/-!
# The online flag

`internet_connected` is written by the handler of the events and by the state machine, which
sets it a second time when it declares itself connected. That second write is the only one that
can lie: it follows a wait that has seen the bit of the IP address, and what the handler does
in between is written over.
-/

namespace Leyu

open Framework

/-- The event takes the IP address or the link away; `EVENT_GOT_IP_BIT` is cleared for it. -/
def NetEvent.isLoss : NetEvent → Bool
  | .lostIp | .disconnected | .start | .stop => true
  | .gotIp | .connected => false

def ModuleMark.loss : ModuleMark → Bool
  | .received e => e.isLoss
  | _ => false

/-- An IP address was got, and since then neither it nor the link was lost. -/
def HasIp (h : List ModuleMark) : Prop := HitSince (·.loss) (· = .received .gotIp) h

instance : DecidablePred HasIp := fun h =>
  inferInstanceAs (Decidable (HitSince (·.loss) (· = .received .gotIp) h))

/-- The flag tells the truth, and the monitor loop notices when there is no IP address. -/
def OnlineTruthful (m : UsbModule) : Prop :=
  (m.internetConnected = true → HasIp m.history) ∧
    (m.point = .monitor → ¬ HasIp m.history → ∀ a, (m.fsmStep a).point = .debounce)

theorem OnlineTruthful.got_ip {m : UsbModule} (h : OnlineTruthful m)
    (hon : m.internetConnected = true) :
    ∃ newer older, m.history = newer ++ .received .gotIp :: older ∧
      ∀ c ∈ newer, ¬ c.loss = true := by
  obtain ⟨newer, mark, older, hsplit, rfl, hnewer⟩ := (hitSince_iff _).mp (h.1 hon)
  exact ⟨newer, older, hsplit, hnewer⟩

/-- No loss is being handled when a wait succeeds, none is received between there and the
declaration, and the driver is not started or stopped under a flag that is up. -/
def FlagGuarded (m : UsbModule) : ModuleOp → Prop
  | .fsm _ =>
      m.point = .waitIp → m.hwReset = false → m.gotIp = true → ∀ e ∈ m.handling, e.isLoss = false
  | .receive e =>
      e.isLoss = true →
        m.point ≠ .declare ∧ (e = .start ∨ e = .stop → m.internetConnected = false)
  | _ => True

instance (m : UsbModule) : (op : ModuleOp) → Decidable (FlagGuarded m op)
  | .fsm _ | .receive _ => by unfold FlagGuarded; infer_instance
  | .handled | .portClosed | .resetByOther => .isTrue trivial

structure FlagInv (m : UsbModule) : Prop where
  flag : m.internetConnected = true → HasIp m.history
  /-- The bit may lag behind a loss whose handler is still running. -/
  bit : m.gotIp = true → HasIp m.history ∨ ∃ e, m.handling = some e ∧ e.isLoss = true
  running : m.handling = some .gotIp → HasIp m.history
  declaring : m.point = .declare → HasIp m.history

private theorem FlagInv.truthful {m : UsbModule} (h : FlagInv m) : OnlineTruthful m := by
  refine ⟨h.flag, fun hp hno a => ?_⟩
  have hoff : m.internetConnected = false := by
    by_contra hon
    exact hno (h.flag (by simpa using hon))
  simp [UsbModule.fsmStep, hp, hoff, UsbModule.goto]

private theorem FlagInv.start : FlagInv UsbModule.start := by
  refine ⟨?_, ?_, ?_, ?_⟩ <;> intro h <;> cases h

private theorem HasIp.cons {h : List ModuleMark} {mark : ModuleMark} (hip : HasIp h)
    (hmark : mark.loss = false) : HasIp (mark :: h) := by
  apply hip.cons_of_not_cut
  rw [hmark]
  exact Bool.false_ne_true

private theorem UsbModule.FsmStep.hasIp {a : ModuleAnswer} {m m' : UsbModule}
    (hstep : UsbModule.FsmStep a m m') (hip : HasIp m.history) : HasIp m'.history := by
  cases hstep with
  | simRefused | simReady | ready | probed | networkChecked | registered | networkFails
  | recoveryReset | recovered | restarts | noSimFailed => exact hip.cons rfl
  | noSimRefused | resetSeen | ipSeen | waitTimeout => exact (hip.cons rfl).cons rfl
  | _ => exact hip

private theorem FlagInv.quiet {m m' : UsbModule} (h : FlagInv m)
    (hflag : m'.internetConnected = true → m.internetConnected = true)
    (hbit : m'.gotIp = true → m.gotIp = true) (hh : m'.handling = m.handling)
    (hhist : HasIp m.history → HasIp m'.history) (hp : m'.point ≠ .declare) : FlagInv m' where
  flag hon := hhist (h.flag (hflag hon))
  bit hset := by
    rw [hh]
    exact (h.bit (hbit hset)).imp hhist id
  running hrun := hhist (h.running (by rw [← hh]; exact hrun))
  declaring hdec := absurd hdec hp

private theorem FlagInv.fsm {a : ModuleAnswer} {m m' : UsbModule} (h : FlagInv m)
    (hok : FlagGuarded m (.fsm a)) (hstep : UsbModule.FsmStep a m m') : FlagInv m' := by
  have hhist := hstep.hasIp
  cases hstep with
  | stays => exact h
  | ipSeen hp hr hg =>
    -- the handler is not running for a loss, so the bit is up to date
    have hip : HasIp m.history := by
      rcases h.bit hg with hip | ⟨e, he, hloss⟩
      · exact hip
      · rw [hok hp hr hg e he] at hloss
        exact absurd hloss Bool.false_ne_true
    exact ⟨fun _ => hhist hip, fun _ => .inl (hhist hip), fun _ => hhist hip, fun _ => hhist hip⟩
  | declared hp =>
    have hip : HasIp m.history := h.declaring hp
    exact ⟨fun _ => hip, fun _ => .inl hip, fun _ => hip, fun _ => hip⟩
  | gotIpCleared | recoveryBits =>
    exact h.quiet id (fun hset => absurd hset Bool.false_ne_true) rfl id (by simp [UsbModule.goto])
  | onlineCleared | recoveryOffline | stopped =>
    exact h.quiet (fun hon => absurd hon Bool.false_ne_true) id rfl id (by simp [UsbModule.goto])
  | _ => exact h.quiet id id rfl hhist (by simp [UsbModule.goto, UsbModule.enter,
      UsbModule.syncFails])

private theorem FlagInv.receive {e : NetEvent} {m : UsbModule} (h : FlagInv m)
    (hok : FlagGuarded m (.receive e)) : FlagInv (m.receive e) := by
  rcases UsbModule.receive_cases e m with hm | ⟨hidle, online, hm, honline⟩
  · rw [hm]
    exact h
  · rw [hm]
    cases hloss : e.isLoss with
    | true =>
      obtain ⟨hdec, hdriver⟩ := hok hloss
      refine ⟨fun hon => ?_, fun _ => .inr ⟨e, rfl, hloss⟩, fun hrun => ?_,
        fun hp => absurd hp hdec⟩
      · -- only a start or a stop of the driver leaves the flag alone, and it is down then
        have hset : online = true := hon
        rcases honline hset with rfl | ⟨hflag, hlost, hdisc⟩
        · cases hloss
        · cases e with
          | start => rw [hdriver (.inl rfl)] at hflag; cases hflag
          | stop => rw [hdriver (.inr rfl)] at hflag; cases hflag
          | connected => cases hloss
          | gotIp => cases hloss
          | disconnected => exact absurd rfl hdisc
          | lostIp => exact absurd rfl hlost
      · have he : e = .gotIp := Option.some.inj hrun
        rw [he] at hloss
        cases hloss
    | false =>
      cases e with
      | gotIp =>
        have hip : HasIp (.received .gotIp :: m.history) := .inl rfl
        exact ⟨fun _ => hip, fun _ => .inl hip, fun _ => hip, fun _ => hip⟩
      | connected =>
        have hkeep : HasIp m.history → HasIp (.received .connected :: m.history) :=
          fun hip => hip.cons rfl
        refine ⟨fun hon => ?_, fun hset => ?_, fun hrun => ?_, fun hp => hkeep (h.declaring hp)⟩
        · have hset : online = true := hon
          rcases honline hset with hgot | ⟨hflag, -, -⟩
          · cases hgot
          · exact hkeep (h.flag hflag)
        · rcases h.bit hset with hip | ⟨e, he, -⟩
          · exact .inl (hkeep hip)
          · rw [hidle] at he
            cases he
        · cases hrun
      | _ => cases hloss

private theorem FlagInv.handled {m : UsbModule} (h : FlagInv m) : FlagInv m.handled := by
  rcases UsbModule.handled_cases m with hm | ⟨e, up, ip, he, hm, hip⟩
  · rw [hm]
    exact h
  · rw [hm]
    refine ⟨h.flag, fun hset => ?_, fun hrun => ?_, h.declaring⟩
    · rcases hip hset with rfl | ⟨rfl, hbit⟩
      · exact .inl (h.running he)
      · -- a new link leaves the bit alone, and no loss was being handled
        rcases h.bit hbit with hip | ⟨e, he', hloss⟩
        · exact .inl hip
        · rw [he] at he'
          cases he'
          cases hloss
    · cases hrun

private theorem FlagInv.step {m : UsbModule} {op : ModuleOp} (h : FlagInv m)
    (hok : FlagGuarded m op) :
    FlagInv (op.step m) := by
  cases op with
  | fsm a => exact h.fsm hok (UsbModule.fsmStep_spec a m)
  | receive e => exact h.receive hok
  | handled => exact h.handled
  | portClosed => exact ⟨h.flag, h.bit, h.running, h.declaring⟩
  | resetByOther =>
    have hkeep : HasIp m.history → HasIp (.hardwareReset :: m.history) := fun hip => hip.cons rfl
    exact ⟨fun hon => hkeep (h.flag hon), fun hset => (h.bit hset).imp hkeep id,
      fun hrun => hkeep (h.running hrun), fun hp => hkeep (h.declaring hp)⟩

/-- The IP address is lost between the successful wait and the declaration. -/
def lostBeforeDeclared : List ModuleOp :=
  bringUp 10 ++ [.receive .gotIp, .handled, .fsm .allOk, .receive .lostIp, .handled, .fsm .allOk]

end Leyu
