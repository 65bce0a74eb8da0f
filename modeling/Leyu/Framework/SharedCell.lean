import Leyu.Framework.Runs
import Mathlib.Logic.Function.Basic

/-!
# An answer cell shared under a mutex

Tasks use one answer cell in turns: a task takes the mutex, clears the cell and puts down its
command, has it answered into the cell, gives the mutex back and reads the cell, some of it
before and some of it after giving the mutex back. Each task finds the answer to its own command
exactly as long as no task clears the cell while another still has to read it and no answer to
another command is put into it.
-/

namespace Leyu.Framework

/-- One use of the cell by a task, in steps; a reading may depend on the success of the last
exchange. -/
inductive Instr (α : Type)
  | take
  | give
  | prepare (command : α)
  | exchange
  | read (always : Bool)

structure CommandTag (ι : Type) where
  task : ι
  number : Nat
  deriving DecidableEq

structure Answer (ι β : Type) where
  command : CommandTag ι
  text : β

/-- The cell: the command it was last cleared for, and what was put into it since. -/
structure Cell (ι β : Type) where
  clearedFor : Option (CommandTag ι)
  answer : Option (Answer ι β)

structure TaskState (α : Type) where
  program : List (Instr α)
  sent : Nat
  ok : Bool

structure SharedCell (ι α β : Type) where
  mutex : Option ι
  command : Option α
  cell : Cell ι β
  task : ι → TaskState α

/-- A task starts a use of the cell, or runs its next instruction; the result and the answer are
those of an exchange. -/
inductive CellStep (ι υ β : Type)
  | start (i : ι) (u : υ)
  | run (i : ι) (ok : Bool) (answer : Option (Answer ι β))

variable {ι α β υ : Type}

/-- A reading comes before the cell is cleared again. -/
def ReadsNext (ok : Bool) : List (Instr α) → Prop
  | .read always :: r => (always = true ∨ ok = true) ∨ ReadsNext ok r
  | .give :: r => ReadsNext ok r
  | .exchange :: _ => True
  | _ => False

def TaskState.Awaits (t : TaskState α) : Prop := ReadsNext t.ok t.program

/-- The program takes the mutex before it clears the cell, clears it before it uses it, and gives
the mutex back. -/
def bracketed : Bool → Bool → List (Instr α) → Bool
  | held, _, [] => !held
  | held, _, .take :: r => !held && bracketed true false r
  | held, fresh, .give :: r => held && bracketed false fresh r
  | held, _, .prepare _ :: r => held && bracketed true true r
  | held, fresh, .exchange :: r => held && fresh && bracketed true true r
  | held, fresh, .read _ :: r => fresh && bracketed held fresh r

theorem not_readsNext (ok : Bool) {held : Bool} {r : List (Instr α)}
    (h : bracketed held false r = true) : ¬ ReadsNext ok r := by
  induction r generalizing held with
  | nil => exact id
  | cons a r ih =>
    cases a with
    | take => exact id
    | prepare c => exact id
    | give =>
      simp only [bracketed, Bool.and_eq_true] at h
      exact ih h.2
    | exchange => simp [bracketed] at h
    | read always => simp [bracketed] at h

namespace SharedCell

def idle : SharedCell ι α β := ⟨none, none, ⟨none, none⟩, fun _ => ⟨[], 0, false⟩⟩

def tag (s : SharedCell ι α β) (i : ι) : CommandTag ι := ⟨i, (s.task i).sent⟩

/-- What is in the cell belongs to the last command of the task. -/
def Own (s : SharedCell ι α β) (i : ι) : Prop :=
  s.cell.clearedFor = some (s.tag i) ∧ ∀ a ∈ s.cell.answer, a.command = s.tag i

/-- Every task that still has to read the cell will find its own answer. -/
def AllOwn (s : SharedCell ι α β) : Prop := ∀ i, (s.task i).Awaits → s.Own i

variable [DecidableEq ι]

def setTask (i : ι) (t : TaskState α) (s : SharedCell ι α β) : SharedCell ι α β :=
  { s with task := Function.update s.task i t }

def step (program : υ → List (Instr α)) (s : SharedCell ι α β) :
    CellStep ι υ β → SharedCell ι α β
  | .start i u =>
      match (s.task i).program with
      | [] => s.setTask i { s.task i with program := program u }
      | _ :: _ => s
  | .run i ok answer =>
      match (s.task i).program with
      | [] => s
      | .take :: r =>
          match s.mutex with
          | none => { s with mutex := some i }.setTask i { s.task i with program := r }
          | some _ => s
      | .give :: r => { s with mutex := none }.setTask i { s.task i with program := r }
      | .prepare c :: r =>
          { s with
            command := some c
            cell := ⟨some ⟨i, (s.task i).sent + 1⟩, none⟩ }.setTask i
              { s.task i with program := r, sent := (s.task i).sent + 1 }
      | .exchange :: r =>
          { s with cell := { s.cell with answer := answer <|> s.cell.answer } }.setTask i
            { s.task i with program := r, ok := ok }
      | .read _ :: r => s.setTask i { s.task i with program := r }

/-- What a task reads in the step is the answer to its own command. -/
def ReadsOwn (s : SharedCell ι α β) : CellStep ι υ β → Prop
  | .start _ _ => True
  | .run i _ _ =>
      match (s.task i).program with
      | .read always :: _ => always = true ∨ (s.task i).ok = true → s.Own i
      | _ => True

/-- The step does not clear the cell while another task still has to read it, and puts no answer
to another command into it that will be read. -/
def Undisturbed (s : SharedCell ι α β) : CellStep ι υ β → Prop
  | .start _ _ => True
  | .run i ok answer =>
      match (s.task i).program with
      | .prepare _ :: _ => ∀ j, j ≠ i → ¬ (s.task j).Awaits
      | .exchange :: r => ReadsNext ok r → ∀ a ∈ answer, a.command = s.tag i
      | _ => True

/-- The programs are at a bracketed place, and every task that still has to read the cell will
find its own answer. -/
structure Inv (s : SharedCell ι α β) : Prop where
  places : ∀ i, ∃ fresh, bracketed (decide (s.mutex = some i)) fresh (s.task i).program = true
  own : s.AllOwn

theorem idle_inv : (idle : SharedCell ι α β).Inv :=
  ⟨fun _ => ⟨false, rfl⟩, fun _ h => h.elim⟩

@[simp] theorem setTask_same (i : ι) (t : TaskState α) (s : SharedCell ι α β) :
    (s.setTask i t).task i = t := by
  simp [setTask]

theorem setTask_other {i j : ι} (h : j ≠ i) (t : TaskState α) (s : SharedCell ι α β) :
    (s.setTask i t).task j = s.task j := by
  simp [setTask, h]

omit [DecidableEq ι] in
theorem Own.unique {s : SharedCell ι α β} {i j : ι} (hi : s.Own i) (hj : s.Own j) : i = j := by
  have h := hi.1.symm.trans hj.1
  exact congrArg CommandTag.task (Option.some.inj h)

private theorem Inv.of_task {s s' : SharedCell ι α β} {i : ι} (h : s.Inv)
    (htask : ∀ j, j ≠ i → s'.task j = s.task j)
    (hmutex : ∀ j, j ≠ i → (s'.mutex = some j ↔ s.mutex = some j))
    (hplace : ∃ fresh, bracketed (decide (s'.mutex = some i)) fresh (s'.task i).program = true)
    (hself : (s'.task i).Awaits → s'.Own i)
    (hothers : ∀ j, j ≠ i → (s.task j).Awaits → s'.Own j) : s'.Inv := by
  constructor
  · intro j
    by_cases hj : j = i
    · subst hj
      exact hplace
    · rw [htask j hj]
      simpa only [hmutex j hj] using h.places j
  · intro j hawaits
    by_cases hj : j = i
    · subst hj
      exact hself hawaits
    · rw [htask j hj] at hawaits
      exact hothers j hj hawaits

omit [DecidableEq ι] in
private theorem Own.congr {s s' : SharedCell ι α β} {j : ι} (h : s.Own j)
    (hcell : s'.cell = s.cell) (hsent : (s'.task j).sent = (s.task j).sent) : s'.Own j := by
  unfold Own tag at h ⊢
  rw [hcell, hsent]
  exact h

private theorem Inv.start {program : υ → List (Instr α)}
    (hprogram : ∀ u, bracketed false false (program u) = true) {s : SharedCell ι α β}
    (h : s.Inv) (i : ι) (u : υ) :
    (s.step program (.start i u : CellStep ι υ β)).Inv := by
  cases hp : (s.task i).program with
  | cons a r =>
    simp only [step, hp]
    exact h
  | nil =>
    simp only [step, hp]
    have hfree : s.mutex ≠ some i := by
      obtain ⟨fresh, hplace⟩ := h.places i
      rw [hp] at hplace
      simpa [bracketed] using hplace
    refine h.of_task (fun j hj => setTask_other hj _ s) (fun _ _ => Iff.rfl) ⟨false, ?_⟩ ?_ ?_
    · rw [setTask_same]
      have hheld : decide ((s.setTask i { s.task i with program := program u }).mutex = some i) =
          false := decide_eq_false hfree
      rw [hheld]
      exact hprogram u
    · intro hawaits
      rw [setTask_same] at hawaits
      exact absurd hawaits (not_readsNext _ (hprogram u))
    · intro j hj hawaits
      exact (h.own j hawaits).congr rfl (by rw [setTask_other hj])

section

variable {program : υ → List (Instr α)} {s : SharedCell ι α β} {i : ι} {r : List (Instr α)}

private theorem Inv.place (h : s.Inv) {a : Instr α} (hp : (s.task i).program = a :: r) :
    ∃ fresh, bracketed (decide (s.mutex = some i)) fresh (a :: r) = true := by
  obtain ⟨fresh, hplace⟩ := h.places i
  exact ⟨fresh, hp ▸ hplace⟩

private theorem Inv.own_of_reads (h : s.Inv) {a : Instr α} (hp : (s.task i).program = a :: r)
    (hreads : ReadsNext (s.task i).ok (a :: r)) : s.Own i := by
  apply h.own i
  rw [TaskState.Awaits, hp]
  exact hreads

private theorem Inv.take (h : s.Inv) (hp : (s.task i).program = .take :: r) (ok : Bool)
    (answer : Option (Answer ι β)) : (s.step program (.run i ok answer)).Inv := by
  obtain ⟨fresh, hplace⟩ := h.place hp
  simp only [bracketed, Bool.and_eq_true] at hplace
  simp only [SharedCell.step, hp]
  cases hm : s.mutex with
  | some k => exact h
  | none =>
    refine h.of_task (fun j hj => setTask_other hj _ _) ?_ ⟨false, ?_⟩ ?_ ?_
    · intro j hj
      simp [setTask, hm, Ne.symm hj]
    · rw [setTask_same]
      simpa [setTask] using hplace.2
    · intro hawaits
      rw [setTask_same] at hawaits
      exact absurd hawaits (not_readsNext _ hplace.2)
    · intro j hj hawaits
      exact (h.own j hawaits).congr rfl (by rw [setTask_other hj])

private theorem Inv.give (h : s.Inv) (hp : (s.task i).program = .give :: r) (ok : Bool)
    (answer : Option (Answer ι β)) : (s.step program (.run i ok answer)).Inv := by
  obtain ⟨fresh, hplace⟩ := h.place hp
  simp only [bracketed, Bool.and_eq_true, decide_eq_true_eq] at hplace
  simp only [SharedCell.step, hp]
  refine h.of_task (fun j hj => setTask_other hj _ _) ?_ ⟨fresh, ?_⟩ ?_ ?_
  · intro j hj
    simp [setTask, hplace.1, Ne.symm hj]
  · rw [setTask_same]
    simpa [setTask] using hplace.2
  · intro hawaits
    rw [setTask_same] at hawaits
    exact (h.own_of_reads hp hawaits).congr rfl (by rw [setTask_same])
  · intro j hj hawaits
    exact (h.own j hawaits).congr rfl (by rw [setTask_other hj])

private theorem Inv.prepare (h : s.Inv) {c : α} (hp : (s.task i).program = .prepare c :: r)
    (hothers : ∀ j, j ≠ i → ¬ (s.task j).Awaits) (ok : Bool) (answer : Option (Answer ι β)) :
    (s.step program (.run i ok answer)).Inv := by
  obtain ⟨fresh, hplace⟩ := h.place hp
  simp only [bracketed, Bool.and_eq_true, decide_eq_true_eq] at hplace
  simp only [SharedCell.step, hp]
  refine h.of_task (fun j hj => setTask_other hj _ _) (fun _ _ => Iff.rfl) ⟨true, ?_⟩ ?_ ?_
  · rw [setTask_same]
    simpa [setTask, hplace.1] using hplace.2
  · intro _
    exact ⟨by simp [tag, setTask], by simp [setTask]⟩
  · intro j hj hawaits
    exact absurd hawaits (hothers j hj)

private theorem Inv.exchange (h : s.Inv) (hp : (s.task i).program = .exchange :: r) {ok : Bool}
    {answer : Option (Answer ι β)}
    (hanswer : ReadsNext ok r → ∀ a ∈ answer, a.command = s.tag i) :
    (s.step program (.run i ok answer)).Inv := by
  obtain ⟨fresh, hplace⟩ := h.place hp
  simp only [bracketed, Bool.and_eq_true, decide_eq_true_eq] at hplace
  have hown : s.Own i := h.own_of_reads hp trivial
  simp only [SharedCell.step, hp]
  refine h.of_task (fun j hj => setTask_other hj _ _) (fun _ _ => Iff.rfl) ⟨true, ?_⟩ ?_ ?_
  · rw [setTask_same]
    simpa [setTask, hplace.1.1] using hplace.2
  · intro hawaits
    rw [setTask_same] at hawaits
    refine ⟨by simpa [tag, setTask] using hown.1, ?_⟩
    intro a ha
    have htag : a.command = s.tag i := by
      cases answer with
      | none => exact hown.2 a (by simpa [setTask] using ha)
      | some b => exact hanswer hawaits a (by simpa [setTask] using ha)
    simpa [tag, setTask] using htag
  · intro j hj hawaits
    -- The task that exchanges still has to read, so nobody else can be waiting.
    exact absurd ((h.own j hawaits).unique hown) hj

private theorem Inv.read (h : s.Inv) {always : Bool} (hp : (s.task i).program = .read always :: r)
    (ok : Bool) (answer : Option (Answer ι β)) : (s.step program (.run i ok answer)).Inv := by
  obtain ⟨fresh, hplace⟩ := h.place hp
  simp only [bracketed, Bool.and_eq_true] at hplace
  simp only [SharedCell.step, hp]
  refine h.of_task (fun j hj => setTask_other hj _ s) (fun _ _ => Iff.rfl) ⟨fresh, ?_⟩ ?_ ?_
  · rw [setTask_same]
    exact hplace.2
  · intro hawaits
    rw [setTask_same] at hawaits
    exact (h.own_of_reads hp (.inr hawaits)).congr rfl (by rw [setTask_same])
  · intro j hj hawaits
    exact (h.own j hawaits).congr rfl (by rw [setTask_other hj])

theorem Inv.step (hprogram : ∀ u, bracketed false false (program u) = true) (h : s.Inv)
    {l : CellStep ι υ β} (hl : s.Undisturbed l) : s.ReadsOwn l ∧ (s.step program l).Inv := by
  cases l with
  | start i u => exact ⟨trivial, h.start hprogram i u⟩
  | run i ok answer =>
    simp only [ReadsOwn, Undisturbed] at hl ⊢
    cases hp : (s.task i).program with
    | nil =>
      simp only [SharedCell.step, hp]
      exact ⟨trivial, h⟩
    | cons a r =>
      simp only [hp] at hl
      cases a with
      | take => exact ⟨trivial, h.take hp ok answer⟩
      | give => exact ⟨trivial, h.give hp ok answer⟩
      | prepare c => exact ⟨trivial, h.prepare hp hl ok answer⟩
      | exchange => exact ⟨trivial, h.exchange hp hl⟩
      | read always =>
        exact ⟨fun hread => h.own_of_reads hp (.inl hread), h.read hp ok answer⟩

end

theorem undisturbed_of_allOwn {program : υ → List (Instr α)} {s : SharedCell ι α β}
    {l : CellStep ι υ β} (h : (s.step program l).AllOwn) : s.Undisturbed l := by
  cases l with
  | start i u => trivial
  | run i ok answer =>
    simp only [Undisturbed]
    cases hp : (s.task i).program with
    | nil => trivial
    | cons a r =>
      cases a with
      | prepare c =>
        intro j hj hawaits
        simp only [SharedCell.step, hp] at h
        have hcleared := (h j (by rwa [setTask_other hj])).1
        simp [tag, setTask, Ne.symm hj] at hcleared
      | exchange =>
        intro hreads a ha
        simp only [SharedCell.step, hp] at h
        have hown := (h i (by rw [setTask_same]; exact hreads)).2 a (by
          obtain rfl : answer = some a := ha
          rfl)
        simpa [tag, setTask] using hown
      | _ => trivial

/-- Every answer that a run leaves to be read is the reader's own exactly when no step of the run
is a disturbance; and then every reading of the run reads the reader's own answer. -/
theorem allOwn_run_iff {program : υ → List (Instr α)}
    (hprogram : ∀ u, bracketed false false (program u) = true) (ls : List (CellStep ι υ β)) :
    (AllStates (step program) AllOwn (idle : SharedCell ι α β) ls ↔
        AllSteps (step program) Undisturbed idle ls) ∧
      (AllSteps (step program) Undisturbed (idle : SharedCell ι α β) ls →
        AllSteps (step program) ReadsOwn idle ls) := by
  constructor
  · rw [allStates_iff, and_iff_right (idle_inv : (idle : SharedCell ι α β).Inv).own]
    refine allSteps_congr (I := Inv) ?_ ?_ idle_inv ls
    · intro s l h hl
      have hnext := (h.step hprogram hl).2
      exact ⟨hnext.own, hnext⟩
    · intro s l _ hown
      exact undisturbed_of_allOwn hown
  · intro h
    exact h.strengthen (I := Inv) (fun s l hs hl => hs.step hprogram hl) idle_inv

end SharedCell

end Leyu.Framework
