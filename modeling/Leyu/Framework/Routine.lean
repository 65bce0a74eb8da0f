import Mathlib.Logic.Relation

/-!
# Routines

A routine is what a task does between two waits: actions on a state that it shares, each of them
atomic, and requests that are answered from outside. Between any two of its steps others may change
the state. A routine that touches what it must not comes to an end as a fault. The rules follow the
routine as it is put together: what holds of two parts holds of the one behind the other.
-/

namespace Leyu.Framework

inductive Routine (σ : Type) {ρ : Type} (α : ρ → Type) (ε : Type) : Type
  | done (result : ε)
  | fault
  /-- What comes next may depend on the state before the action. -/
  | act (f : σ → σ) (next : σ → Routine σ α ε)
  | ask (request : ρ) (next : α request → Routine σ α ε)

namespace Routine

open Relation

variable {σ ρ : Type} {α : ρ → Type} {ε ζ : Type}

protected def bind : Routine σ α ε → (ε → Routine σ α ζ) → Routine σ α ζ
  | done result, k => k result
  | fault, _ => fault
  | act f next, k => act f fun s => (next s).bind k
  | ask request next, k => ask request fun answer => (next answer).bind k

instance : Monad (Routine σ α) where
  pure := done
  bind := Routine.bind

def current : Routine σ α σ := act id done

def modify (f : σ → σ) : Routine σ α Unit := act f fun _ => done ()

def request (r : ρ) : Routine σ α (α r) := ask r done

/-- The routine goes one step on; `answers` is what a request is answered with. -/
def step (answers : (r : ρ) → α r) (s : σ) : Routine σ α ε → Routine σ α ε × σ
  | done result => (done result, s)
  | fault => (fault, s)
  | act f next => (next s, f s)
  | ask r next => (next (answers r), s)

/-- The routine faults at the bad answers and nowhere else. -/
def FaultsOn (bad : (r : ρ) → α r → Prop) : Routine σ α ε → Prop
  | done _ => True
  | fault => False
  | act _ next => ∀ s, FaultsOn bad (next s)
  | ask r next => ∀ answer, bad r answer ∧ next answer = fault ∨
      ¬ bad r answer ∧ FaultsOn bad (next answer)

section Interference

variable (rely : σ → σ → Prop) (may : σ → σ → Prop) (answered : σ → (r : ρ) → α r → Prop)

/-- With others taking steps of `rely` in between, actions that are allowed and answers that can be
given, the routine ends in `post` if it ends. -/
def Safe (post : ε → σ → Prop) : Routine σ α ε → σ → Prop
  | done result, s => ∀ s', ReflTransGen rely s s' → post result s'
  | fault, _ => True
  | act f next, s => ∀ s', ReflTransGen rely s s' → may s' (f s') → Safe post (next s') (f s')
  | ask r next, s => ∀ s' answer, ReflTransGen rely s s' → answered s' r answer →
      Safe post (next answer) s'

/-- Others keep it. -/
def Stable (P : σ → Prop) : Prop := ∀ s s', rely s s' → P s → P s'

end Interference

section FaultsOn

variable {bad : (r : ρ) → α r → Prop}

theorem faultsOn_pure (e : ε) : FaultsOn bad (pure e : Routine σ α ε) := trivial

theorem faultsOn_current : FaultsOn bad (current : Routine σ α σ) := fun _ => trivial

theorem faultsOn_modify (f : σ → σ) : FaultsOn bad (modify f : Routine σ α Unit) := fun _ => trivial

theorem faultsOn_request {r : ρ} (hgood : ∀ answer, ¬ bad r answer) :
    FaultsOn bad (request r : Routine σ α (α r)) := fun answer => .inr ⟨hgood answer, trivial⟩

theorem FaultsOn.bind {p : Routine σ α ε} {k : ε → Routine σ α ζ} (hp : FaultsOn bad p)
    (hk : ∀ e, FaultsOn bad (k e)) : FaultsOn bad (p >>= k) := by
  change FaultsOn bad (p.bind k)
  induction p with
  | done result => exact hk result
  | fault => exact hp.elim
  | act f next ih => exact fun s => ih s (hp s)
  | ask r next ih =>
    intro answer
    rcases hp answer with ⟨hbad, hnext⟩ | ⟨hgood, hnext⟩
    · refine .inl ⟨hbad, ?_⟩
      dsimp only
      rw [hnext, Routine.bind]
    · exact .inr ⟨hgood, ih answer hnext⟩

theorem faultsOn_ask {r : ρ} {k : α r → Routine σ α ε}
    (hbad : ∀ answer, bad r answer → k answer = fault)
    (hgood : ∀ answer, ¬ bad r answer → FaultsOn bad (k answer)) :
    FaultsOn bad (request r >>= k) := by
  intro answer
  by_cases h : bad r answer
  · exact .inl ⟨h, hbad answer h⟩
  · exact .inr ⟨h, hgood answer h⟩

end FaultsOn

section Interference

variable {rely may : σ → σ → Prop} {answered : σ → (r : ρ) → α r → Prop}

theorem Stable.later {P : σ → Prop} (hP : Stable rely P) {s s' : σ} (h : ReflTransGen rely s s')
    (hs : P s) : P s' := by
  induction h with
  | refl => exact hs
  | tail _ hlast ih => exact hP _ _ hlast ih

theorem Stable.and {P Q : σ → Prop} (hP : Stable rely P) (hQ : Stable rely Q) :
    Stable rely fun s => P s ∧ Q s := fun s s' h hs => ⟨hP s s' h hs.1, hQ s s' h hs.2⟩

theorem Safe.later {post : ε → σ → Prop} {p : Routine σ α ε} {s s' : σ}
    (h : Safe rely may answered post p s) (hs : ReflTransGen rely s s') :
    Safe rely may answered post p s' := by
  cases p with
  | done result => exact fun s'' h' => h s'' (hs.trans h')
  | fault => trivial
  | act f next => exact fun s'' h' => h s'' (hs.trans h')
  | ask r next => exact fun s'' answer h' => h s'' answer (hs.trans h')

theorem Safe.step {post : ε → σ → Prop} {p : Routine σ α ε} {s : σ}
    (h : Safe rely may answered post p s) {answers : (r : ρ) → α r}
    (hanswers : ∀ r, answered s r (answers r)) (hmay : may s (p.step answers s).2) :
    Safe rely may answered post (p.step answers s).1 (p.step answers s).2 := by
  cases p with
  | done result => exact h
  | fault => trivial
  | act f next => exact h s .refl hmay
  | ask r next => exact h s _ .refl (hanswers r)

theorem Safe.bind {post : ζ → σ → Prop} {p : Routine σ α ε} {k : ε → Routine σ α ζ} {s : σ}
    (h : Safe rely may answered (fun e s => Safe rely may answered post (k e) s) p s) :
    Safe rely may answered post (p >>= k) s := by
  change Safe rely may answered post (p.bind k) s
  induction p generalizing s with
  | done result => exact h s .refl
  | fault => trivial
  | act f next ih => exact fun s' hs' hmay => ih s' (h s' hs' hmay)
  | ask r next ih => exact fun s' answer hs' hanswer => ih answer (h s' answer hs' hanswer)

theorem Safe.mono {post post' : ε → σ → Prop} (hpost : ∀ e s, post e s → post' e s)
    {p : Routine σ α ε} {s : σ} (h : Safe rely may answered post p s) :
    Safe rely may answered post' p s := by
  induction p generalizing s with
  | done result => exact fun s' hs' => hpost _ _ (h s' hs')
  | fault => trivial
  | act f next ih => exact fun s' hs' hmay => ih s' (h s' hs' hmay)
  | ask r next ih => exact fun s' answer hs' hanswer => ih answer (h s' answer hs' hanswer)

/-- Two parts, with what holds between them. -/
theorem Safe.seq {M : ε → σ → Prop} {post : ζ → σ → Prop} {p : Routine σ α ε}
    {k : ε → Routine σ α ζ} {s : σ} (hp : Safe rely may answered M p s)
    (hk : ∀ e s, M e s → Safe rely may answered post (k e) s) :
    Safe rely may answered post (p >>= k) s := Safe.bind (hp.mono hk)

theorem safe_fault {post : ε → σ → Prop} {s : σ} :
    Safe rely may answered post (fault : Routine σ α ε) s := trivial

theorem Safe.result {post : ε → σ → Prop} {e : ε} {s : σ}
    (h : Safe rely may answered post (done e : Routine σ α ε) s) : post e s := h s .refl

theorem safe_pure {post : ε → σ → Prop} {e : ε} (hpost : Stable rely (post e)) {s : σ}
    (h : post e s) : Safe rely may answered post (pure e : Routine σ α ε) s :=
  fun _ hs' => hpost.later hs' h

theorem safe_return {P : σ → Prop} (hP : Stable rely P) {e : ε} {s : σ} (h : P s) :
    Safe rely may answered (fun _ => P) (pure e : Routine σ α ε) s := safe_pure hP h

theorem safe_modify {P : σ → Prop} {post : Unit → σ → Prop} (hP : Stable rely P)
    (hpost : Stable rely (post ())) {f : σ → σ} (hf : ∀ s, P s → may s (f s) → post () (f s)) {s : σ}
    (h : P s) : Safe rely may answered post (modify f : Routine σ α Unit) s :=
  fun s' hs' hmay _ hs'' => hpost.later hs'' (hf s' (hP.later hs' h) hmay)

theorem safe_current {P : σ → Prop} {post : σ → σ → Prop} (hP : Stable rely P)
    (hpost : ∀ s, Stable rely (post s)) (hread : ∀ s, P s → post s s) {s : σ} (h : P s) :
    Safe rely may answered post (current : Routine σ α σ) s :=
  fun s' hs' _ _ hs'' => (hpost s').later hs'' (hread s' (hP.later hs' h))

theorem safe_request {P : σ → Prop} {r : ρ} {post : α r → σ → Prop} (hP : Stable rely P)
    (hpost : ∀ answer, Stable rely (post answer))
    (hanswer : ∀ s answer, P s → answered s r answer → post answer s) {s : σ} (h : P s) :
    Safe rely may answered post (request r : Routine σ α (α r)) s :=
  fun s' answer hs' ha _ hs'' =>
    (hpost answer).later hs'' (hanswer s' answer (hP.later hs' h) ha)

end Interference

section Alone

variable {answered : σ → (r : ρ) → α r → Prop}

/-- Nobody else touches the state, and every action is allowed. -/
abbrev Alone (answered : σ → (r : ρ) → α r → Prop) (post : ε → σ → Prop) (p : Routine σ α ε)
    (s : σ) : Prop := Safe (fun _ _ => False) (fun _ _ => True) answered post p s

theorem eq_of_alone {s s' : σ} (h : ReflTransGen (fun _ _ => False) s s') : s = s' := by
  cases h with
  | refl => rfl
  | tail _ hlast => exact hlast.elim

theorem alone_pure {post : ε → σ → Prop} {e : ε} {s : σ} (h : post e s) :
    Alone answered post (pure e : Routine σ α ε) s := fun _ hs' => eq_of_alone hs' ▸ h

theorem alone_modify {post : Unit → σ → Prop} {f : σ → σ} {s : σ} (h : post () (f s)) :
    Alone answered post (modify f : Routine σ α Unit) s := by
  intro s' hs' _ s'' hs''
  obtain rfl := eq_of_alone hs'
  exact eq_of_alone hs'' ▸ h

theorem alone_current {post : σ → σ → Prop} {s : σ} (h : post s s) :
    Alone answered post (current : Routine σ α σ) s := by
  intro s' hs' _ s'' hs''
  obtain rfl := eq_of_alone hs'
  exact eq_of_alone hs'' ▸ h

end Alone

-- from here on the rules are all that is used of it
attribute [irreducible] Safe

end Routine

end Leyu.Framework
