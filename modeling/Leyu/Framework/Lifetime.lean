import Mathlib.Tactic.Common

/-!
# The life of an object

A program that acquires one object, uses it and releases it, and otherwise works on a state of its
own. A use of the object while it is not there goes on, as it does on a heap, and is counted. The
rules follow the program: what only uses the object may be put in front of what releases it, and
what leaves it alone may come behind.
-/

namespace Leyu.Framework

structure Lifetime where
  live : Bool
  acquisitions : Nat
  releases : Nat
  staleUses : Nat

namespace Lifetime

def fresh : Lifetime := ⟨false, 0, 0, 0⟩

def acquire (l : Lifetime) : Lifetime := { l with live := true, acquisitions := l.acquisitions + 1 }

def use (l : Lifetime) : Lifetime :=
  if l.live then l else { l with staleUses := l.staleUses + 1 }

def release (l : Lifetime) : Lifetime := { l with live := false, releases := l.releases + 1 }

end Lifetime

/-- How a program ends: it returns, or the machine stops in the middle of it. -/
inductive Ending (α : Type)
  | returned (a : α)
  | halted

def Program (σ α : Type) : Type := Lifetime → σ → Ending α × Lifetime × σ

namespace Program

variable {σ α β : Type}

protected def pure (a : α) : Program σ α := fun l s => (.returned a, l, s)

protected def bind (p : Program σ α) (f : α → Program σ β) : Program σ β := fun l s =>
  match p l s with
  | (.returned a, l, s) => f a l s
  | (.halted, l, s) => (.halted, l, s)

instance : Monad (Program σ) where
  pure := Program.pure
  bind := Program.bind

/-- The object is there when there is something to acquire. -/
def acquire (x : Option α) : Program σ (Option α) := fun l s =>
  (.returned x, if x.isSome then l.acquire else l, s)

def use : Program σ Unit := fun l s => (.returned (), l.use, s)

def release : Program σ Unit := fun l s => (.returned (), l.release, s)

def get : Program σ σ := fun l s => (.returned s, l, s)

def act (f : σ → Ending α × σ) : Program σ α := fun l s => ((f s).1, l, (f s).2)

def modify (f : σ → σ) : Program σ Unit := act fun s => (.returned (), f s)

/-- While the object is there, the program finds `a` and changes nothing. -/
def Reads (p : Program σ α) (a : α) : Prop := ∀ l s, l.live = true → p l s = (.returned a, l, s)

def Uses (p : Program σ α) : Prop := ∀ l s, l.live = true → (p l s).2.1 = l

/-- Once it returns, the object has been released; before that it has only been used. -/
def Releases (p : Program σ α) : Prop := ∀ l s, l.live = true →
  (p l s).2.1 = l.release ∨ (p l s).1 = .halted ∧ (p l s).2.1 = l

/-- What a run from the start on has come to: the object was only used while it was there, it was
not released more often than acquired, and if the program has returned it has been released. -/
def Orderly (r : Ending α × Lifetime × σ) : Prop :=
  r.2.1.staleUses = 0 ∧ r.2.1.releases ≤ r.2.1.acquisitions ∧
    ∀ a, r.1 = .returned a → r.2.1.releases = r.2.1.acquisitions

@[simp] theorem pure_apply (a : α) (l : Lifetime) (s : σ) :
    (pure a : Program σ α) l s = (.returned a, l, s) := rfl

theorem bind_apply (p : Program σ α) (f : α → Program σ β) (l : Lifetime) (s : σ) :
    (p >>= f) l s = match p l s with
      | (.returned a, l, s) => f a l s
      | (.halted, l, s) => (.halted, l, s) := rfl

theorem bind_returned {p : Program σ α} {f : α → Program σ β} {l l' : Lifetime} {s s' : σ} {a : α}
    (h : p l s = (.returned a, l', s')) : (p >>= f) l s = f a l' s' := by rw [bind_apply, h]

theorem reads_pure (a : α) : Reads (pure a : Program σ α) a := fun _ _ _ => rfl

theorem reads_use : Reads (use : Program σ Unit) () := by
  intro l s hl
  simp [use, Lifetime.use, hl]

theorem Reads.run {p : Program σ α} {a : α} (hp : Reads p a) (f : α → Program σ β)
    {l : Lifetime} (hl : l.live = true) (s : σ) : (p >>= f) l s = f a l s :=
  bind_returned (hp l s hl)

theorem Reads.bind {p : Program σ α} {a : α} {f : α → Program σ β} {b : β} (hp : Reads p a)
    (hf : Reads (f a) b) : Reads (p >>= f) b := by
  intro l s hl
  rw [hp.run f hl]
  exact hf l s hl

theorem Reads.foldlM {f : β → α → Program σ β} {g : β → α → β}
    (hf : ∀ b a, Reads (f b a) (g b a)) (xs : List α) (b : β) :
    Reads (xs.foldlM f b) (xs.foldl g b) := by
  induction xs generalizing b with
  | nil => exact reads_pure b
  | cons x xs ih => exact (hf b x).bind (ih (g b x))

theorem Reads.uses {p : Program σ α} {a : α} (hp : Reads p a) : Uses p := by
  intro l s hl
  rw [hp l s hl]

theorem uses_act (f : σ → Ending α × σ) : Uses (act f) := fun _ _ _ => rfl

theorem uses_get : Uses (get : Program σ σ) := fun _ _ _ => rfl

theorem Uses.run {p : Program σ α} (hp : Uses p) (f : α → Program σ β) {l : Lifetime}
    (hl : l.live = true) (s : σ) :
    (∃ a s', (p >>= f) l s = f a l s') ∨ ∃ s', (p >>= f) l s = (.halted, l, s') := by
  have hsame := hp l s hl
  match hrun : p l s with
  | (.returned a, l', s') =>
    rw [hrun] at hsame
    obtain rfl : l' = l := hsame
    exact .inl ⟨a, s', bind_returned hrun⟩
  | (.halted, l', s') =>
    rw [hrun] at hsame
    obtain rfl : l' = l := hsame
    exact .inr ⟨s', by rw [bind_apply, hrun]⟩

theorem Uses.bind {p : Program σ α} {f : α → Program σ β} (hp : Uses p) (hf : ∀ a, Uses (f a)) :
    Uses (p >>= f) := by
  intro l s hl
  rcases hp.run f hl s with ⟨a, s', hrun⟩ | ⟨s', hrun⟩
  · rw [hrun]
    exact hf a l s' hl
  · rw [hrun]

theorem Uses.foldlM {f : β → α → Program σ β} (hf : ∀ b a, Uses (f b a)) (xs : List α) (b : β) :
    Uses (xs.foldlM f b) := by
  induction xs generalizing b with
  | nil => exact (reads_pure b).uses
  | cons x xs ih => exact (hf b x).bind ih

theorem foldlM_run {f : α → Program σ Unit} {g : σ → α → σ} {l : Lifetime}
    (hf : ∀ a s, f a l s = (.returned (), l, g s a)) (xs : List α) (s : σ) :
    xs.foldlM (fun _ a => f a) () l s = (.returned (), l, xs.foldl g s) := by
  induction xs generalizing s with
  | nil => rfl
  | cons x xs ih =>
    rw [List.foldlM_cons, bind_returned (hf x s)]
    exact ih (g s x)

theorem releases_release : Releases (release : Program σ Unit) := fun _ _ _ => .inl rfl

theorem Uses.releases {p : Program σ α} {f : α → Program σ β} (hp : Uses p)
    (hf : ∀ a, Releases (f a)) : Releases (p >>= f) := by
  intro l s hl
  rcases hp.run f hl s with ⟨a, s', hrun⟩ | ⟨s', hrun⟩
  · rw [hrun]
    exact hf a l s' hl
  · rw [hrun]
    exact .inr ⟨rfl, rfl⟩

theorem orderly_fresh (e : Ending α) (s : σ) : Orderly (e, .fresh, s) :=
  ⟨rfl, Nat.le_refl _, fun _ _ => rfl⟩

theorem Releases.orderly {p : Program σ α} (hp : Releases p) (s : σ) :
    Orderly (p Lifetime.fresh.acquire s) := by
  unfold Orderly
  rcases hp Lifetime.fresh.acquire s rfl with hl | ⟨hhalt, hl⟩
  · rw [hl]
    exact ⟨rfl, Nat.le_refl _, fun _ _ => rfl⟩
  · rw [hl, hhalt]
    exact ⟨rfl, Nat.zero_le _, fun _ h => nomatch h⟩

end Program

end Leyu.Framework
