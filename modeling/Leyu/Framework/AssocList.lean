import Mathlib.Logic.Function.Basic
import Mathlib.Data.List.Basic

/-!
# Association lists as maps

The map of an association list takes each key to the value of its first entry. Replacing the value
of that entry, or adding an entry for a key that has none, is an update of the map at that key.
-/

namespace Leyu.Framework

variable {α β ι : Type*} [DecidableEq α]

def mapOf (l : List (α × β)) (a : α) : Option β := l.lookup a

theorem mapOf_cons_of_ne {k a : α} (v : β) (l : List (α × β)) (hne : a ≠ k) :
    mapOf ((k, v) :: l) a = mapOf l a := by
  have hbeq : (a == k) = false := beq_eq_false_iff_ne.mpr hne
  rw [mapOf, List.lookup_cons, hbeq, mapOf]

theorem mapOf_eq_none {l : List (α × β)} {a : α} (h : a ∉ l.map Prod.fst) : mapOf l a = none := by
  rw [mapOf, List.lookup_eq_none_iff]
  intro p hp
  rw [bne_iff_ne]
  rintro rfl
  exact h (List.mem_map_of_mem hp)

theorem mapOf_append (l l' : List (α × β)) (a : α) :
    mapOf (l ++ l') a = (mapOf l a).or (mapOf l' a) := List.lookup_append

theorem map_find?_eq_mapOf (key : ι → α) (value : ι → β) (a : α) (is : List ι) :
    (is.find? fun i => key i = a).map value = mapOf (is.map fun i => (key i, value i)) a := by
  induction is with
  | nil => rfl
  | cons i is ih =>
    rw [List.map_cons, List.find?_cons]
    by_cases h : key i = a
    · subst h
      simp [mapOf]
    · rw [mapOf_cons_of_ne _ _ (Ne.symm h), ← ih]
      simp [h]

theorem mapOf_set {l : List (α × β)} {i : Nat} {k : α} {old : β} (new : β)
    (hentry : l[i]? = some (k, old)) (hfirst : ∀ j < i, ∀ p ∈ l[j]?, p.1 ≠ k) :
    mapOf (l.set i (k, new)) = Function.update (mapOf l) k (some new) := by
  induction l generalizing i with
  | nil => cases hentry
  | cons p l ih =>
    funext a
    cases i with
    | zero =>
      obtain rfl := Option.some.inj hentry
      rw [List.set_cons_zero]
      by_cases ha : a = k
      · subst ha
        rw [Function.update_self, mapOf, List.lookup_cons_self]
      · rw [Function.update_of_ne ha, mapOf_cons_of_ne _ _ ha, mapOf_cons_of_ne _ _ ha]
    | succ i =>
      have hhead : p.1 ≠ k := hfirst 0 (Nat.succ_pos i) p rfl
      have hrest := ih hentry fun j hj => hfirst (j + 1) (Nat.succ_lt_succ hj)
      rw [List.set_cons_succ]
      by_cases ha : a = p.1
      · rw [ha, Function.update_of_ne hhead, mapOf, mapOf, List.lookup_cons_self,
          List.lookup_cons_self]
      · rw [mapOf_cons_of_ne p.2 _ ha, hrest]
        by_cases hk : a = k
        · rw [hk, Function.update_self, Function.update_self]
        · rw [Function.update_of_ne hk, Function.update_of_ne hk, mapOf_cons_of_ne p.2 _ ha]

theorem mapOf_append_of_ne (l : List (α × β)) {k a : α} (v : β) (hne : a ≠ k) :
    mapOf (l ++ [(k, v)]) a = mapOf l a := by
  rw [mapOf_append, mapOf_cons_of_ne _ _ hne, mapOf, mapOf, List.lookup_nil, Option.or_none]

theorem mapOf_insert {l : List (α × β)} {k : α} (v : β) (hnew : mapOf l k = none) :
    mapOf (l ++ [(k, v)]) = Function.update (mapOf l) k (some v) := by
  funext a
  by_cases ha : a = k
  · subst ha
    rw [Function.update_self, mapOf_append, hnew, Option.none_or, mapOf, List.lookup_cons_self]
  · rw [Function.update_of_ne ha, mapOf_append_of_ne l v ha]

end Leyu.Framework
