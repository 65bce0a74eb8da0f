import Leyu.Framework.Runs

/-!
# What the steps of a run put out

A function that reads off a step, from the state before it, what the step puts out. A log that
every step extends by just that is the outputs of the run.
-/

namespace Leyu.Framework

variable {σ ℓ ο : Type*} (step : σ → ℓ → σ) (out : σ → ℓ → List ο)

def outputs : σ → List ℓ → List ο
  | _, [] => []
  | s, l :: ls => out s l ++ outputs (step s l) ls

variable {step out}

@[simp] theorem outputs_nil (s : σ) : outputs step out s [] = [] := rfl

@[simp] theorem outputs_cons (s : σ) (l : ℓ) (ls : List ℓ) :
    outputs step out s (l :: ls) = out s l ++ outputs step out (step s l) ls := rfl

/-- The log rule: an invariant under which the allowed steps extend the log by their outputs. -/
theorem log_eq_outputs {I : σ → Prop} {ok : ℓ → Prop} (log : σ → List ο)
    (hstep : ∀ s l, I s → ok l → log (step s l) = log s ++ out s l ∧ I (step s l)) {s : σ}
    (hs : I s) {ls : List ℓ} (hok : ∀ l ∈ ls, ok l) :
    log (run step s ls) = log s ++ outputs step out s ls ∧ I (run step s ls) := by
  induction ls generalizing s with
  | nil => exact ⟨(List.append_nil _).symm, hs⟩
  | cons l ls ih =>
    obtain ⟨hlog, hnext⟩ := hstep s l hs (hok l List.mem_cons_self)
    obtain ⟨hrest, hlast⟩ := ih hnext fun l' hl' => hok l' (List.mem_cons_of_mem l hl')
    refine ⟨?_, hlast⟩
    rw [run_cons, hrest, hlog, outputs_cons, List.append_assoc]

end Leyu.Framework
