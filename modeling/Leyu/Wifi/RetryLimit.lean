import Leyu.Wifi.Station

/-!
# The limit of the WiFi retries

`example_wifi_reconnect` counts every disconnect, also those it no longer answers with an attempt,
and its counter has eight bits: after 246 disconnects without an attempt it is at zero again.
-/

namespace Leyu

open Framework

/-- No `STA_CONNECTED`, and `example_wifi_connect` is not called. -/
def KeepsCounting (s : Station) : WifiOp → Prop
  | .staStart _ | .staConnected | .connectToAp _ => False
  | .button _ => ¬ (s.glStaConnected = false ∧ s.glStaIsConnecting = false)
  | _ => True

instance (s : Station) : (op : WifiOp) → Decidable (KeepsCounting s op)
  | .staStart _ | .staConnected | .connectToAp _ => .isFalse id
  | .button _ =>
      inferInstanceAs (Decidable (¬ (s.glStaConnected = false ∧ s.glStaIsConnecting = false)))
  | .staDisconnected _ _ | .apStart _ | .gotIp | .bleStarted | .bleReleased | .bleConnected
  | .bleDisconnected => .isTrue trivial

/-- The reconnection attempts that a disconnect starts. -/
def startedBy (s : Station) : WifiOp → Nat
  | .staDisconnected reason w => (s.disconnected reason w).2.count .connect
  | _ => 0

/-- The reconnection attempts that `example_wifi_reconnect` starts in a run. -/
def attempts : Station → List WifiOp → Nat
  | _, [] => 0
  | s, op :: ops => startedBy s op + attempts (op.step s) ops

/-- The counter does not wrap. -/
def CounterInRange (s : Station) : WifiOp → Prop
  | .staDisconnected reason _ => reason.isPwdError = true ∨ s.exampleWifiRetry < 255
  | _ => True

instance (s : Station) : (op : WifiOp) → Decidable (CounterInRange s op)
  | .staDisconnected reason _ =>
      inferInstanceAs (Decidable (reason.isPwdError = true ∨ s.exampleWifiRetry < 255))
  | .staStart _ | .staConnected | .apStart _ | .gotIp | .bleStarted | .bleReleased | .bleConnected
  | .bleDisconnected | .connectToAp _ | .button _ => .isTrue trivial

/-- The counter before the increment: a wrong password uses up all attempts. -/
def forcedRetry (reason : WifiReason) (s : Station) : Nat :=
  if reason.isPwdError then exampleWifiConnectionMaximumRetry else s.exampleWifiRetry

private theorem passwordFailure_retry (w : WifiWorld) (s : Station) :
    (s.passwordFailure w).1.exampleWifiRetry = s.exampleWifiRetry := by
  unfold Station.passwordFailure
  split
  · rfl
  · split
    · rfl
    · rfl

private theorem connectionFailure_retry (reason : WifiReason) (w : WifiWorld) (s : Station) :
    (Station.connectionFailure reason w s).1.exampleWifiRetry = s.exampleWifiRetry := by
  have hpassword := passwordFailure_retry w { s with glStaIsConnecting := false }
  unfold Station.connectionFailure
  cases reason.isPwdError with
  | true =>
    simp only [if_true]
    split
    · exact hpassword
    · exact hpassword
  | false =>
    simp only [Bool.false_eq_true, if_false]
    split
    · rfl
    · rfl

private theorem disconnected_retry (reason : WifiReason) (w : WifiWorld) (s : Station) :
    (s.disconnected reason w).1.exampleWifiRetry = (forcedRetry reason s + 1) % 256 := by
  have hforced : (if reason.isPwdError then
      { s with exampleWifiRetry := exampleWifiConnectionMaximumRetry } else s).exampleWifiRetry =
        forcedRetry reason s := by
    unfold forcedRetry
    split
    · rfl
    · rfl
  have hreconnect : ∀ s : Station,
      s.reconnect.2.1.exampleWifiRetry = (s.exampleWifiRetry + 1) % 256 := by
    intro s
    unfold Station.reconnect
    dsimp only
    split
    · rfl
    · rfl
  unfold Station.disconnected
  dsimp only
  generalize (if reason.isPwdError then
    { s with exampleWifiRetry := exampleWifiConnectionMaximumRetry } else s) = forced at hforced ⊢
  rw [← hforced, ← hreconnect forced]
  split
  · exact connectionFailure_retry reason w _
  · rfl

private theorem startedBy_disconnected (reason : WifiReason) (w : WifiWorld) (s : Station) :
    startedBy s (.staDisconnected reason w) =
      if forcedRetry reason s < exampleWifiConnectionMaximumRetry then 1 else 0 := by
  have hgives : GivesUp reason s ↔
      ¬ forcedRetry reason s < exampleWifiConnectionMaximumRetry := by
    unfold GivesUp forcedRetry
    cases reason.isPwdError with
    | true => simp
    | false => simp
  show List.count _ (s.disconnected reason w).2 = _
  by_cases hgive : GivesUp reason s
  · rw [if_neg (hgives.mp hgive), List.count_eq_zero]
    obtain ⟨retry, heffects⟩ := disconnected_givesUp hgive w
    rw [heffects]
    split
    · obtain ⟨effects, failType, hlocal, -, hfailure⟩ := connectionFailure_effects reason w
        { s with exampleWifiRetry := retry }
      have hsend : WifiEffect.connect ∉ Station.sendFail failType w := by
        unfold Station.sendFail
        split <;> simp
      rw [hfailure]
      split
      · rw [List.mem_append, not_or]
        exact ⟨hlocal.quiet.1, hsend⟩
      · exact hlocal.quiet.1
    · exact List.not_mem_nil
  · rw [if_pos (not_not.mp fun h => hgive (hgives.mpr h)), disconnected_retries hgive w]
    rfl

private theorem keepsCounting_retry {s : Station} {op : WifiOp} (hkeeps : KeepsCounting s op)
    (hop : ∀ reason w, op ≠ .staDisconnected reason w) :
    (op.step s).exampleWifiRetry = s.exampleWifiRetry ∧ startedBy s op = 0 := by
  cases op with
  | staDisconnected reason w => exact absurd rfl (hop reason w)
  | staStart | staConnected | connectToAp => exact hkeeps.elim
  | button w =>
    have hstep : (WifiOp.button w).step s = s := by
      unfold WifiOp.step WifiOp.handle
      dsimp only
      rw [if_neg hkeeps]
    exact ⟨by rw [hstep], rfl⟩
  | apStart w =>
    have hstep : (WifiOp.apStart w).step s = s := by
      unfold WifiOp.step WifiOp.handle
      dsimp only
      split
      · rfl
      · rfl
    exact ⟨by rw [hstep], rfl⟩
  | gotIp | bleStarted | bleReleased | bleConnected | bleDisconnected => exact ⟨rfl, rfl⟩

private theorem attempts_step {s : Station} {op : WifiOp}
    (hok : KeepsCounting s op ∧ CounterInRange s op) :
    startedBy s op + (exampleWifiConnectionMaximumRetry - (op.step s).exampleWifiRetry) ≤
      exampleWifiConnectionMaximumRetry - s.exampleWifiRetry := by
  obtain ⟨hkeeps, hrange⟩ := hok
  by_cases hop : ∀ reason w, op ≠ .staDisconnected reason w
  · obtain ⟨hretry, hstarted⟩ := keepsCounting_retry hkeeps hop
    rw [hretry, hstarted]
    omega
  · push Not at hop
    obtain ⟨reason, w, rfl⟩ := hop
    have hretry : ((WifiOp.staDisconnected reason w).step s).exampleWifiRetry =
        (forcedRetry reason s + 1) % 256 := disconnected_retry reason w s
    have hforced : forcedRetry reason s = exampleWifiConnectionMaximumRetry ∨
        forcedRetry reason s = s.exampleWifiRetry ∧ s.exampleWifiRetry < 255 := by
      unfold forcedRetry
      rcases hrange with hpwd | hless
      · exact .inl (if_pos hpwd)
      · split
        · exact .inl rfl
        · exact .inr ⟨rfl, hless⟩
    rw [hretry, startedBy_disconnected]
    unfold exampleWifiConnectionMaximumRetry at *
    split
    · omega
    · omega

/-- In every run without a wrap of the counter the attempts stay within the limit, those that an
earlier run has used up left out. -/
theorem attempts_le {s : Station} {ops : List WifiOp}
    (h : AllSteps WifiOp.step (fun s op => KeepsCounting s op ∧ CounterInRange s op) s ops) :
    attempts s ops ≤ exampleWifiConnectionMaximumRetry - s.exampleWifiRetry := by
  induction ops generalizing s with
  | nil => exact Nat.zero_le _
  | cons op ops ih =>
    obtain ⟨hok, hrest⟩ := h
    have hstep := attempts_step hok
    have hlater := ih hrest
    show startedBy s op + attempts (op.step s) ops ≤ _
    omega

theorem retryLimit_run (ops : List WifiOp) (s : Station)
    (hkeeps : AllSteps WifiOp.step KeepsCounting s ops)
    (hrange : AllSteps WifiOp.step CounterInRange s ops) :
    ∀ front, front <+: ops → attempts s front ≤ exampleWifiConnectionMaximumRetry := by
  rintro front ⟨back, rfl⟩
  have hboth := (allSteps_and KeepsCounting CounterInRange s front).mpr
    ⟨((allSteps_append _ s front back).mp hkeeps).1, ((allSteps_append _ s front back).mp hrange).1⟩
  exact (attempts_le hboth).trans (Nat.sub_le _ _)

def apGone (n : Nat) : List WifiOp := List.replicate n (.staDisconnected (.other 201) .allOk)

/-- The attempts of the first `k` disconnects after a connection. -/
def attemptsAfter (k : Nat) : Nat := 10 * (k / 256) + min (k % 256) 10

private theorem attempts_apGone {s : Station} {k : Nat} (hs : s.exampleWifiRetry = k % 256)
    (n : Nat) :
    attemptsAfter k + attempts s (apGone n) = attemptsAfter (k + n) := by
  induction n generalizing s k with
  | zero => rfl
  | succ n ih =>
    have hforced : forcedRetry (.other 201) s = k % 256 := hs
    have hretry : ((WifiOp.staDisconnected (.other 201) .allOk).step s).exampleWifiRetry =
        (k + 1) % 256 := by
      have hstep := disconnected_retry (.other 201) .allOk s
      rw [hforced] at hstep
      have hmod : (k % 256 + 1) % 256 = (k + 1) % 256 := by omega
      exact hstep.trans hmod
    have hstarted := startedBy_disconnected (.other 201) .allOk s
    rw [hforced] at hstarted
    have hrest := ih hretry
    have hrun : attempts s (apGone (n + 1)) =
        startedBy s (.staDisconnected (.other 201) .allOk) +
          attempts ((WifiOp.staDisconnected (.other 201) .allOk).step s) (apGone n) := rfl
    rw [hrun, hstarted, show k + (n + 1) = k + 1 + n by omega, ← hrest]
    unfold attemptsAfter exampleWifiConnectionMaximumRetry
    split
    · omega
    · omega

private theorem keepsCounting_apGone (n : Nat) (s : Station) :
    AllSteps WifiOp.step KeepsCounting s (apGone n) := by
  induction n generalizing s with
  | zero => trivial
  | succ n ih => exact ⟨trivial, ih _⟩

/-- After a connection the limit holds for 256 disconnects in a row, and not for one more. -/
theorem attempts_apGone_le_iff {s : Station} (hs : s.exampleWifiRetry = 0) (n : Nat) :
    attempts s (apGone n) ≤ exampleWifiConnectionMaximumRetry ↔ n ≤ 256 := by
  have hcount := attempts_apGone (k := 0) hs n
  unfold attemptsAfter at hcount
  unfold exampleWifiConnectionMaximumRetry
  omega

/-- The disconnect after the wrap of the counter starts an eleventh attempt. -/
theorem apGone_wraps :
    AllSteps WifiOp.step KeepsCounting Station.boot (apGone 257) ∧
      ¬ attempts Station.boot (apGone 257) ≤ exampleWifiConnectionMaximumRetry := by
  refine ⟨keepsCounting_apGone 257 _, ?_⟩
  rw [attempts_apGone_le_iff rfl]
  omega

theorem retryLimit_apGone :
    attempts Station.boot (apGone 255) ≤ exampleWifiConnectionMaximumRetry :=
  retryLimit_run (apGone 255) Station.boot (by decide +kernel) (by decide +kernel) (apGone 255)
    (List.prefix_refl _)

end Leyu
