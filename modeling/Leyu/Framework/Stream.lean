import Leyu.Framework.Runs

/-!
# Items cut out of a stream

A splitter takes one item off the front of what has come in, or waits for more. What it makes of
a stream does not depend on the pieces in which the stream arrives: a machine that, piece by
piece, cuts off whatever items there are has in the end cut the whole stream.
-/

namespace Leyu.Framework

/-- What follows behind an item changes nothing about it. -/
structure Splitter (α β : Type*) where
  next : List α → Option (β × List α)
  shorter : ∀ {xs b rest}, next xs = some (b, rest) → rest.length < xs.length
  extend : ∀ {xs b rest}, next xs = some (b, rest) →
    ∀ more, next (xs ++ more) = some (b, rest ++ more)

namespace Splitter

variable {α β : Type*} (S : Splitter α β)

/-- All the items there are, and what is left. -/
def drain (xs : List α) : List β × List α :=
  match h : S.next xs with
  | none => ([], xs)
  | some (b, rest) =>
      have := S.shorter h
      (b :: (drain rest).1, (drain rest).2)
  termination_by xs.length

variable {S}

theorem drain_of_none {xs : List α} (h : S.next xs = none) : S.drain xs = ([], xs) := by
  rw [drain]
  split
  · rfl
  · next heq =>
    rw [h] at heq
    cases heq

theorem drain_of_some {xs rest : List α} {b : β} (h : S.next xs = some (b, rest)) :
    S.drain xs = (b :: (S.drain rest).1, (S.drain rest).2) := by
  rw [drain]
  split
  · next heq =>
    rw [h] at heq
    cases heq
  · next heq =>
    rw [h] at heq
    obtain ⟨rfl, rfl⟩ := Prod.mk.inj (Option.some.inj heq)
    rfl

theorem next_drain (xs : List α) : S.next (S.drain xs).2 = none := by
  induction hlen : xs.length using Nat.strongRecOn generalizing xs with
  | ind n ih =>
    cases hnext : S.next xs with
    | none => rwa [drain_of_none hnext]
    | some item =>
      have hshort := S.shorter hnext
      rw [drain_of_some hnext]
      exact ih item.2.length (hlen ▸ hshort) item.2 rfl

theorem drain_append (xs ys : List α) :
    S.drain (xs ++ ys) =
      ((S.drain xs).1 ++ (S.drain ((S.drain xs).2 ++ ys)).1,
        (S.drain ((S.drain xs).2 ++ ys)).2) := by
  induction hlen : xs.length using Nat.strongRecOn generalizing xs with
  | ind n ih =>
    cases hnext : S.next xs with
    | none => simp [drain_of_none hnext]
    | some item =>
      have hshort := S.shorter hnext
      have hrest := ih item.2.length (hlen ▸ hshort) item.2 rfl
      rw [drain_of_some hnext, drain_of_some (S.extend hnext ys), hrest]
      rfl

theorem forall_drain {P : β → Prop} (h : ∀ xs b rest, S.next xs = some (b, rest) → P b)
    (xs : List α) : ∀ b ∈ (S.drain xs).1, P b := by
  induction hlen : xs.length using Nat.strongRecOn generalizing xs with
  | ind n ih =>
    cases hnext : S.next xs with
    | none =>
      rw [drain_of_none hnext]
      intro b hb
      exact absurd hb List.not_mem_nil
    | some item =>
      have hshort := S.shorter hnext
      rw [drain_of_some hnext]
      intro b hb
      rcases List.mem_cons.mp hb with rfl | hb
      · exact h xs _ _ hnext
      · exact ih item.2.length (hlen ▸ hshort) item.2 rfl b hb

section Encoded

variable {γ : Type*} {encode : γ → List α} {item : γ → β} {gs : List γ}

/-- What has been encoded item by item comes back as these items, each as soon as all of it is
there. -/
theorem drain_front
    (h : ∀ g ∈ gs, ∀ more, S.next (encode g ++ more) = some (item g, more)) {xs more : List α}
    (hxs : xs ++ more = (gs.map encode).flatten) :
    ∃ done todo, gs = done ++ todo ∧ (S.drain xs).1 = done.map item ∧
      (S.drain xs).2 ++ more = (todo.map encode).flatten := by
  induction gs generalizing xs with
  | nil =>
    obtain ⟨rfl, rfl⟩ := List.append_eq_nil_iff.mp hxs
    have hnil : S.next [] = none := by
      cases hnext : S.next [] with
      | none => rfl
      | some out => exact absurd (S.shorter hnext) (Nat.not_lt_zero _)
    exact ⟨[], [], rfl, by rw [drain_of_none hnil, List.map_nil], by rw [drain_of_none hnil]; rfl⟩
  | cons g gs ih =>
    cases hnext : S.next xs with
    | none => exact ⟨[], g :: gs, rfl, by rw [drain_of_none hnext]; rfl, by rwa [drain_of_none hnext]⟩
    | some out =>
      obtain ⟨b, rest⟩ := out
      have hext := S.extend hnext more
      rw [hxs, List.map_cons, List.flatten_cons, h g List.mem_cons_self] at hext
      obtain ⟨rfl, hrest⟩ := Prod.mk.inj (Option.some.inj hext)
      obtain ⟨done, todo, rfl, hdone, htodo⟩ :=
        ih (fun g' hg' => h g' (List.mem_cons_of_mem g hg')) hrest.symm
      refine ⟨g :: done, todo, rfl, ?_, ?_⟩
      · rw [drain_of_some hnext, hdone, List.map_cons]
      · rwa [drain_of_some hnext]

theorem drain_encoded
    (h : ∀ g ∈ gs, ∀ more, S.next (encode g ++ more) = some (item g, more)) (more : List α) :
    S.drain ((gs.map encode).flatten ++ more) =
      (gs.map item ++ (S.drain more).1, (S.drain more).2) := by
  induction gs with
  | nil => rfl
  | cons g gs ih =>
    have hnext := h g List.mem_cons_self ((gs.map encode).flatten ++ more)
    rw [List.map_cons, List.flatten_cons, List.append_assoc, drain_of_some hnext,
      ih fun g' hg' => h g' (List.mem_cons_of_mem g hg')]
    rfl

end Encoded

variable {σ ℓ γ : Type*} {step : σ → ℓ → σ}

/-- The feeding rule. A machine stands for what is left of its input and, at every step that meets
the condition, puts out the items that the step completes; only where a stream has gone wrong, and
then it stays wrong, nothing is known of it. Over a run the machine puts out the items of all that
has come in. -/
theorem feed_run {Stands : σ → List α → Prop} {bad : List α → Prop} {ok : σ → ℓ → Prop}
    (log : σ → List γ) (input : ℓ → List α) (emit : β → List γ)
    (hbad : ∀ xs more, S.next xs = none → bad xs → bad (S.drain (xs ++ more)).2)
    (hstep : ∀ s xs l, Stands s xs → ok s l → ¬ bad (S.drain (xs ++ input l)).2 →
      Stands (step s l) (S.drain (xs ++ input l)).2 ∧
        log (step s l) = log s ++ (S.drain (xs ++ input l)).1.flatMap emit)
    {s : σ} {xs : List α} (hs : Stands s xs) (hwait : S.next xs = none) {ls : List ℓ}
    (hok : AllSteps step ok s ls) (hgood : ¬ bad (S.drain (xs ++ ls.flatMap input)).2) :
    Stands (run step s ls) (S.drain (xs ++ ls.flatMap input)).2 ∧
      log (run step s ls) = log s ++ (S.drain (xs ++ ls.flatMap input)).1.flatMap emit := by
  induction ls generalizing s xs with
  | nil => simpa [drain_of_none hwait] using hs
  | cons l ls ih =>
    obtain ⟨hl, hrest⟩ := hok
    have hcut := drain_append (S := S) (xs ++ input l) (ls.flatMap input)
    rw [List.flatMap_cons, ← List.append_assoc, hcut] at hgood ⊢
    have hfine : ¬ bad (S.drain (xs ++ input l)).2 := by
      intro hb
      exact hgood (hbad _ _ (next_drain _) hb)
    obtain ⟨hstands, hlog⟩ := hstep s xs l hs hl hfine
    obtain ⟨hstands', hlog'⟩ := ih hstands (next_drain _) hrest hgood
    refine ⟨hstands', ?_⟩
    rw [run_cons, hlog', hlog, List.flatMap_append, List.append_assoc]

end Splitter

end Leyu.Framework
