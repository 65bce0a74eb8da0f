import Mathlib.Data.List.Rotate

/-!
# Taking the entries of a table in turn

A list goes round a table when it consists of consecutive entries of it, the first one behind the
last. Then every part of it that is as long as the table is a rotation of the table, so that it
has each entry exactly as often as the table.
-/

namespace Leyu.Framework

variable {α : Type*}

/-- Consecutive entries of the table, beginning at `start`. -/
def CyclicFrom (table : List α) (start : Nat) (xs : List α) : Prop :=
  ∀ k x, xs[k]? = some x → table[(start + k) % table.length]? = some x

/-- Consecutive entries, and each entry once in every part that is as long as the table. -/
structure RoundRobin (table xs : List α) : Prop where
  cyclic : ∃ start, CyclicFrom table start xs
  once : ∀ front turn back, xs = front ++ turn ++ back → turn.length = table.length →
    turn.Perm table

theorem cyclicFrom_nil (table : List α) (start : Nat) : CyclicFrom table start [] := by
  intro k x hx
  simp at hx

theorem CyclicFrom.append_singleton {table xs : List α} {start : Nat} {x : α}
    (h : CyclicFrom table start xs) (hx : table[(start + xs.length) % table.length]? = some x) :
    CyclicFrom table start (xs ++ [x]) := by
  intro k y hy
  rcases Nat.lt_trichotomy k xs.length with hk | hk | hk
  · rw [List.getElem?_append_left hk] at hy
    exact h k y hy
  · subst hk
    rw [List.getElem?_concat_length] at hy
    rwa [← hy]
  · have hend : (xs ++ [x]).length ≤ k := by rw [List.length_append]; exact hk
    rw [List.getElem?_eq_none hend] at hy
    cases hy

theorem CyclicFrom.part {table front part back : List α} {start : Nat}
    (h : CyclicFrom table start (front ++ part ++ back)) :
    CyclicFrom table (start + front.length) part := by
  intro k x hx
  have hk : k < part.length := (List.getElem?_eq_some_iff.mp hx).1
  have hplace : (front ++ part ++ back)[front.length + k]? = some x := by
    rw [List.append_assoc, List.getElem?_append_right (Nat.le_add_right _ _),
      Nat.add_sub_cancel_left, List.getElem?_append_left hk, hx]
  rw [Nat.add_assoc]
  exact h (front.length + k) x hplace

theorem CyclicFrom.eq_rotate {table turn : List α} {start : Nat} (h : CyclicFrom table start turn)
    (hlength : turn.length = table.length) : turn = table.rotate start := by
  apply List.ext_getElem?
  intro k
  by_cases hk : k < table.length
  · have hturn : turn[k]? = some turn[k] := List.getElem?_eq_getElem (hlength ▸ hk)
    rw [List.getElem?_rotate hk, Nat.add_comm, hturn, h k _ hturn]
  · have hrotate : (table.rotate start).length = table.length := List.length_rotate table start
    rw [List.getElem?_eq_none (by omega), List.getElem?_eq_none (by omega)]

theorem CyclicFrom.roundRobin {table xs : List α} {start : Nat} (h : CyclicFrom table start xs) :
    RoundRobin table xs := by
  constructor
  · exact ⟨start, h⟩
  · intro front turn back hsplit hlength
    subst hsplit
    rw [h.part.eq_rotate hlength]
    exact List.rotate_perm table (start + front.length)

theorem CyclicFrom.next {table front : List α} {start i : Nat} {x y : α} (hnodup : table.Nodup)
    (h : CyclicFrom table start (front ++ [x, y])) (hx : table[i]? = some x) :
    table[(i + 1) % table.length]? = some y := by
  have hi : i < table.length := (List.getElem?_eq_some_iff.mp hx).1
  have hfront := h front.length x (by simp)
  have hback := h (front.length + 1) y (by simp)
  have hplace : i = (start + front.length) % table.length :=
    (List.getElem?_inj hi hnodup).mp (hx.trans hfront.symm)
  rwa [hplace, Nat.mod_add_mod, Nat.add_assoc]

end Leyu.Framework
