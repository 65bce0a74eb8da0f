import Mathlib.Data.List.Basic

/-!
# Histories

What happened so far is a list with the newest element first. `HitSince` says that something
happened after the last cut, `Apart` that a cut lies between any two hits, and `EachAfter` that
every element was in order when it came. Each is defined by recursion on the history, so that
a step that adds one element is one rewriting; the rules below say what they mean for the list
as a whole.
-/

namespace Leyu.Framework

variable {α : Type*} (cut hit : α → Prop)

/-- Some hit comes after the last cut; an element that is both counts as a hit. -/
def HitSince : List α → Prop
  | [] => False
  | a :: older => hit a ∨ ¬ cut a ∧ HitSince older

/-- No hit comes before a cut has come after the hit before it. -/
def Apart : List α → Prop
  | [] => True
  | a :: older => (hit a → ¬ HitSince cut hit older) ∧ Apart older

/-- Every element met the condition on the elements before it. -/
def EachAfter (ok : List α → α → Prop) : List α → Prop
  | [] => True
  | a :: older => ok older a ∧ EachAfter ok older

variable {cut hit}

instance decidableHitSince [DecidablePred cut] [DecidablePred hit] :
    DecidablePred (HitSince cut hit)
  | [] => .isFalse id
  | a :: older =>
      have := decidableHitSince older
      inferInstanceAs (Decidable (hit a ∨ ¬ cut a ∧ HitSince cut hit older))

instance decidableApart [DecidablePred cut] [DecidablePred hit] : DecidablePred (Apart cut hit)
  | [] => .isTrue trivial
  | a :: older =>
      have := decidableApart older
      inferInstanceAs (Decidable ((hit a → ¬ HitSince cut hit older) ∧ Apart cut hit older))

instance decidableEachAfter (ok : List α → α → Prop) [∀ older a, Decidable (ok older a)] :
    DecidablePred (EachAfter ok)
  | [] => .isTrue trivial
  | a :: older =>
      have := decidableEachAfter ok older
      inferInstanceAs (Decidable (ok older a ∧ EachAfter ok older))

@[simp] theorem hitSince_nil : ¬ HitSince cut hit [] := id

@[simp] theorem hitSince_cons (a : α) (older : List α) :
    HitSince cut hit (a :: older) ↔ hit a ∨ ¬ cut a ∧ HitSince cut hit older := Iff.rfl

@[simp] theorem apart_nil : Apart cut hit [] := trivial

@[simp] theorem apart_cons (a : α) (older : List α) :
    Apart cut hit (a :: older) ↔ (hit a → ¬ HitSince cut hit older) ∧ Apart cut hit older :=
  Iff.rfl

@[simp] theorem eachAfter_nil (ok : List α → α → Prop) : EachAfter ok [] := trivial

@[simp] theorem eachAfter_cons (ok : List α → α → Prop) (a : α) (older : List α) :
    EachAfter ok (a :: older) ↔ ok older a ∧ EachAfter ok older := Iff.rfl

theorem HitSince.cons_of_not_cut {a : α} {older : List α} (h : HitSince cut hit older)
    (ha : ¬ cut a) : HitSince cut hit (a :: older) := .inr ⟨ha, h⟩

/-- The last hit is found behind elements that are no cuts. -/
theorem hitSince_iff (h : List α) :
    HitSince cut hit h ↔
      ∃ newer a older, h = newer ++ a :: older ∧ hit a ∧ ∀ b ∈ newer, ¬ cut b := by
  induction h with
  | nil =>
    constructor
    · intro hfalse
      exact absurd hfalse hitSince_nil
    · rintro ⟨newer, a, older, hnil, -, -⟩
      cases newer <;> cases hnil
  | cons b h ih =>
    rw [hitSince_cons, ih]
    constructor
    · rintro (hb | ⟨hb, newer, a, older, rfl, ha, hnewer⟩)
      · exact ⟨[], b, h, rfl, hb, fun c hc => absurd hc List.not_mem_nil⟩
      · refine ⟨b :: newer, a, older, rfl, ha, fun c hc => ?_⟩
        rcases List.mem_cons.mp hc with rfl | hc
        · exact hb
        · exact hnewer c hc
    · rintro ⟨newer, a, older, hsplit, ha, hnewer⟩
      cases newer with
      | nil =>
        obtain ⟨rfl, rfl⟩ := List.cons.inj hsplit
        exact .inl ha
      | cons c newer =>
        obtain ⟨rfl, rfl⟩ := List.cons.inj hsplit
        refine .inr ⟨hnewer b List.mem_cons_self, newer, a, older, rfl, ha, fun c hc => ?_⟩
        exact hnewer c (List.mem_cons_of_mem b hc)

/-- Every element of the history met the condition on what lies behind it. -/
theorem eachAfter_iff (ok : List α → α → Prop) (h : List α) :
    EachAfter ok h ↔ ∀ newer a older, h = newer ++ a :: older → ok older a := by
  induction h with
  | nil =>
    refine iff_of_true trivial fun newer a older hnil => ?_
    cases newer <;> cases hnil
  | cons b h ih =>
    rw [eachAfter_cons, ih]
    constructor
    · rintro ⟨hb, hrest⟩ newer a older hsplit
      cases newer with
      | nil =>
        obtain ⟨rfl, rfl⟩ := List.cons.inj hsplit
        exact hb
      | cons c newer => exact hrest newer a older (List.cons.inj hsplit).2
    · intro hall
      refine ⟨hall [] b h rfl, fun newer a older hsplit => ?_⟩
      exact hall (b :: newer) a older (by rw [hsplit, List.cons_append])

theorem apart_iff_eachAfter (h : List α) :
    Apart cut hit h ↔ EachAfter (fun older a => hit a → ¬ HitSince cut hit older) h := by
  induction h with
  | nil => exact Iff.rfl
  | cons a h ih => rw [apart_cons, eachAfter_cons, ih]

theorem cut_of_not_hitSince {mid older : List α} {a : α}
    (h : ¬ HitSince cut hit (mid ++ a :: older)) (ha : hit a) : ∃ c ∈ mid, cut c := by
  by_contra hnone
  have hmid : ∀ c ∈ mid, ¬ cut c := fun c hc hcut => hnone ⟨c, hc, hcut⟩
  exact h ((hitSince_iff _).mpr ⟨mid, a, older, rfl, ha, hmid⟩)

theorem Apart.cut_between {newer mid older : List α} {a b : α}
    (h : Apart cut hit (newer ++ b :: (mid ++ a :: older))) (ha : hit a) (hb : hit b) :
    ∃ c ∈ mid, cut c := by
  have heach := (apart_iff_eachAfter _).mp h
  exact cut_of_not_hitSince ((eachAfter_iff _ _).mp heach newer b _ rfl hb) ha

theorem apart_of_no_hit {h : List α} (hno : ∀ a ∈ h, ¬ hit a) : Apart cut hit h := by
  induction h with
  | nil => exact trivial
  | cons a h ih =>
    refine ⟨fun ha => absurd ha (hno a List.mem_cons_self), ih fun b hb => ?_⟩
    exact hno b (List.mem_cons_of_mem a hb)

end Leyu.Framework
