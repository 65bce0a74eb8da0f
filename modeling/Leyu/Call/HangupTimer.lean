import Leyu.Call.Changes

/-!
# The timer runs while it rings

The timer is started by the last statement of a call that comes in and stopped where the state
leaves `CALL_STATE_RINGING`; the exits of a failed modem command come before either. So the
timer is active exactly while the phone rings, as long as the timer service stops it when asked.
-/

namespace Leyu

open Framework

def TimerWhileRinging (p : Phone) : Prop := p.timerActive = true ↔ p.state = .ringing

/-- The timer service accepts the stop command, if the operation sends one. -/
def CallOp.TimerStops : CallOp → Prop
  | .answer w | .reject w | .hangup w | .callEnded w => w.timerStops = true
  | _ => True

private theorem TimerWhileRinging.not_ringing {p : Phone} (ht : p.timerActive = false)
    (hs : p.state ≠ .ringing) : TimerWhileRinging p := by
  unfold TimerWhileRinging
  rw [ht]
  exact iff_of_false Bool.false_ne_true hs

private theorem TimerWhileRinging.step {p : Phone} {op : CallOp} (h : TimerWhileRinging p)
    (hstops : op.TimerStops) : TimerWhileRinging (op.step p) := by
  have hidle (hnot : p.state ≠ .ringing) : p.timerActive = false := by
    by_contra hactive
    exact hnot (h.mp (by simpa using hactive))
  cases callOp_change p op with
  | kept hs hn ht hop =>
    unfold TimerWhileRinging
    rw [hs, ht]
    exact h
  | unrung hwas hne hwhy hs hn ht =>
    apply TimerWhileRinging.not_ringing
    · rw [ht]
      exact hidle (by rw [hwas]; decide)
    · rw [hs]
      decide
  | rang hwas hne hfree hstarts hs hn ht => exact iff_of_true ht hs
  | answered hring hs hn ht =>
    have hstop : (CallOp.answer _).TimerStops := hstops
    apply TimerWhileRinging.not_ringing
    · rw [ht, show World.timerStops _ = true from hstop]
      exact Bool.and_false _
    · rw [hs]
      decide
  | @ended op w hlive hop hs hn ht =>
    have hstop : w.timerStops = true := by
      rcases hop with rfl | rfl | rfl
      · exact hstops
      · exact hstops
      · exact hstops
    apply TimerWhileRinging.not_ringing
    · rw [ht, hstop]
      exact Bool.and_false _
    · rw [hs]
      decide
  | expired hring hs hn ht =>
    apply TimerWhileRinging.not_ringing ht
    rw [hs]
    decide
  | expiredLate hring hs hn ht =>
    apply TimerWhileRinging.not_ringing ht
    rw [hs]
    exact hring

/-- Whatever the modem answers, the timer is active exactly in the ringing states of a run. -/
theorem timerWhileRinging_run (ops : List CallOp) (hstops : ∀ op ∈ ops, op.TimerStops) :
    AllStates CallOp.step TimerWhileRinging Phone.init ops := by
  have hinit : TimerWhileRinging Phone.init := .not_ringing rfl (by decide)
  exact allStates_of_labels (fun p op hp hop => hp.step hop) hinit hstops

/-- Every caller is let through; the modem refuses to answer the first call, which is hung up, and
answers the next one. -/
def refusedThenAnswered : List CallOp :=
  [.addRule (.ofText ['*']) false, .incoming .allOk (.ofText ['1']),
    .answer { World.allOk with atReturn := .fail }, .hangup .allOk,
    .incoming .allOk (.ofText ['2']), .answer .allOk, .timerExpiry]

/-- The timer runs behind the refused answer, and no longer when the second call is answered. -/
theorem timerWhileRinging_run_refused :
    (run CallOp.step Phone.init (refusedThenAnswered.take 3)).timerActive = true ∧
      (run CallOp.step Phone.init refusedThenAnswered).state = .inCall ∧
        AllStates CallOp.step TimerWhileRinging Phone.init refusedThenAnswered := by
  refine ⟨by decide +kernel, by decide +kernel, ?_⟩
  apply timerWhileRinging_run
  intro op hop
  simp only [refusedThenAnswered, List.mem_cons, List.not_mem_nil, or_false] at hop
  rcases hop with rfl | rfl | rfl | rfl | rfl | rfl | rfl
  · exact trivial
  · exact trivial
  · rfl
  · rfl
  · exact trivial
  · rfl
  · exact trivial

end Leyu
