import Mathlib.Data.List.Infix

/-!
# Runs of a labelled machine

A machine is a total step function; a label carries the operation together with what the
outside world answered to it. `AllStates` speaks about every state of a run, `AllSteps`
about every step of it, seen from the state before the step. The rules below reduce a fact
about whole runs to a fact about one step.
-/

namespace Leyu.Framework

variable {σ ℓ : Type*} (step : σ → ℓ → σ)

def run : σ → List ℓ → σ
  | s, [] => s
  | s, l :: ls => run (step s l) ls

/-- A state some list of labels leads to. -/
def Reachable (init s : σ) : Prop := ∃ ls, run step init ls = s

/-- The property holds in every state of the run, its first and last included. -/
def AllStates (P : σ → Prop) : σ → List ℓ → Prop
  | s, [] => P s
  | s, l :: ls => P s ∧ AllStates P (step s l) ls

/-- Every step of the run meets the condition in the state it starts from. -/
def AllSteps (ok : σ → ℓ → Prop) : σ → List ℓ → Prop
  | _, [] => True
  | s, l :: ls => ok s l ∧ AllSteps ok (step s l) ls

variable {step}

@[simp] theorem run_nil (s : σ) : run step s [] = s := rfl

@[simp] theorem run_cons (s : σ) (l : ℓ) (ls : List ℓ) :
    run step s (l :: ls) = run step (step s l) ls := rfl

theorem run_append (s : σ) (ls ls' : List ℓ) :
    run step s (ls ++ ls') = run step (run step s ls) ls' := by
  induction ls generalizing s with
  | nil => rfl
  | cons l ls ih => exact ih (step s l)

@[simp] theorem allSteps_nil (ok : σ → ℓ → Prop) (s : σ) : AllSteps step ok s [] := trivial

@[simp] theorem allSteps_cons (ok : σ → ℓ → Prop) (s : σ) (l : ℓ) (ls : List ℓ) :
    AllSteps step ok s (l :: ls) ↔ ok s l ∧ AllSteps step ok (step s l) ls := Iff.rfl

instance decidableAllSteps (ok : σ → ℓ → Prop) [∀ s l, Decidable (ok s l)] (s : σ) :
    (ls : List ℓ) → Decidable (AllSteps step ok s ls)
  | [] => .isTrue trivial
  | l :: ls =>
      have := decidableAllSteps ok (step s l) ls
      inferInstanceAs (Decidable (ok s l ∧ AllSteps step ok (step s l) ls))

theorem allSteps_append (ok : σ → ℓ → Prop) (s : σ) (ls ls' : List ℓ) :
    AllSteps step ok s (ls ++ ls') ↔
      AllSteps step ok s ls ∧ AllSteps step ok (run step s ls) ls' := by
  induction ls generalizing s with
  | nil => simp
  | cons l ls ih => simp only [List.cons_append, allSteps_cons, run_cons, ih, and_assoc]

theorem allSteps_and (ok ok' : σ → ℓ → Prop) (s : σ) (ls : List ℓ) :
    AllSteps step (fun s l => ok s l ∧ ok' s l) s ls ↔
      AllSteps step ok s ls ∧ AllSteps step ok' s ls := by
  induction ls generalizing s with
  | nil => simp
  | cons l ls ih =>
    simp only [allSteps_cons, ih]
    exact and_and_and_comm

theorem allStates_iff (P : σ → Prop) (s : σ) (ls : List ℓ) :
    AllStates step P s ls ↔ P s ∧ AllSteps step (fun s l => P (step s l)) s ls := by
  induction ls generalizing s with
  | nil => simp [AllStates]
  | cons l ls ih => simp only [AllStates, ih, allSteps_cons]

theorem allStates_iff_forall_take (P : σ → Prop) (s : σ) (ls : List ℓ) :
    AllStates step P s ls ↔ ∀ pre, pre <+: ls → P (run step s pre) := by
  induction ls generalizing s with
  | nil =>
    simp only [AllStates, List.prefix_nil]
    exact ⟨fun h pre hp => hp ▸ h, fun h => h [] rfl⟩
  | cons l ls ih =>
    simp only [AllStates, ih]
    constructor
    · rintro ⟨hs, hrest⟩ pre hpre
      cases pre with
      | nil => exact hs
      | cons a pre =>
        obtain ⟨rfl, hp⟩ := List.cons_prefix_cons.mp hpre
        exact hrest pre hp
    · intro h
      refine ⟨h [] (List.nil_prefix), fun pre hp => ?_⟩
      exact h (l :: pre) (List.cons_prefix_cons.mpr ⟨rfl, hp⟩)

/-- The run rule: an invariant kept by every step that meets the condition holds in the whole run,
and what such a step does from the invariant holds of every step. -/
theorem AllSteps.strengthen {I : σ → Prop} {ok good : σ → ℓ → Prop}
    (hstep : ∀ s l, I s → ok s l → good s l ∧ I (step s l)) {s : σ} {ls : List ℓ}
    (hs : I s) (h : AllSteps step ok s ls) : AllSteps step good s ls := by
  induction ls generalizing s with
  | nil => trivial
  | cons l ls ih =>
    obtain ⟨hok, hrest⟩ := h
    obtain ⟨hgood, hnext⟩ := hstep s l hs hok
    exact ⟨hgood, ih hnext hrest⟩

/-- What every step that meets the condition keeps holds at the end of a run of such steps. -/
theorem AllSteps.keeps {I : σ → Prop} {ok : σ → ℓ → Prop}
    (hstep : ∀ s l, I s → ok s l → I (step s l)) {s : σ} {ls : List ℓ} (hs : I s)
    (h : AllSteps step ok s ls) : I (run step s ls) := by
  induction ls generalizing s with
  | nil => exact hs
  | cons l ls ih => exact ih (hstep s l hs h.1) h.2

theorem run_of_step {I : σ → Prop} (hstep : ∀ s l, I s → I (step s l)) {s : σ} (hs : I s)
    (ls : List ℓ) : I (run step s ls) := by
  induction ls generalizing s with
  | nil => exact hs
  | cons l ls ih => exact ih (hstep s l hs)

theorem allStates_of_labels {I : σ → Prop} {ok : ℓ → Prop}
    (hstep : ∀ s l, I s → ok l → I (step s l)) {s : σ} {ls : List ℓ} (hs : I s)
    (hok : ∀ l ∈ ls, ok l) : AllStates step I s ls := by
  induction ls generalizing s with
  | nil => exact hs
  | cons l ls ih =>
    refine ⟨hs, ih ?_ ?_⟩
    · exact hstep s l hs (hok l List.mem_cons_self)
    · intro l' hl'
      exact hok l' (List.mem_cons_of_mem l hl')

theorem AllStates.last {P : σ → Prop} {s : σ} {ls : List ℓ} (h : AllStates step P s ls) :
    P (run step s ls) :=
  (allStates_iff_forall_take P s ls).mp h ls (List.prefix_refl ls)

/-- The exactness rule: from the invariant, a step is good exactly when it meets the condition,
and such a step keeps the invariant. Then a run is good throughout exactly when every one of
its steps meets the condition. -/
theorem allSteps_congr {I : σ → Prop} {ok good : σ → ℓ → Prop}
    (hgood : ∀ s l, I s → ok s l → good s l ∧ I (step s l))
    (hbad : ∀ s l, I s → good s l → ok s l) {s : σ} (hs : I s) (ls : List ℓ) :
    AllSteps step good s ls ↔ AllSteps step ok s ls := by
  refine ⟨fun h => ?_, fun h => h.strengthen hgood hs⟩
  refine h.strengthen (fun s l hI hg => ?_) hs
  have hok := hbad s l hI hg
  exact ⟨hok, (hgood s l hI hok).2⟩

/-- The rule of the point of no return: steps that meet the condition keep the invariant, any other
leads to where no step leads out of. -/
theorem allSteps_or_stuck {I L : σ → Prop} {ok : σ → ℓ → Prop}
    (hok : ∀ s l, I s → ok s l → I (step s l)) (hbad : ∀ s l, I s → ¬ ok s l → L (step s l))
    (hstuck : ∀ s l, L s → L (step s l)) {s : σ} (hs : I s) (ls : List ℓ) :
    AllSteps step ok s ls ∧ I (run step s ls) ∨ ¬ AllSteps step ok s ls ∧ L (run step s ls) := by
  induction ls generalizing s with
  | nil => exact .inl ⟨trivial, hs⟩
  | cons l ls ih =>
    by_cases hl : ok s l
    · rcases ih (hok s l hs hl) with ⟨hall, hI⟩ | ⟨hnot, hL⟩
      · exact .inl ⟨⟨hl, hall⟩, hI⟩
      · exact .inr ⟨fun h => hnot h.2, hL⟩
    · refine .inr ⟨fun h => hl h.1, ?_⟩
      exact run_of_step hstuck (hbad s l hs hl) ls

end Leyu.Framework
