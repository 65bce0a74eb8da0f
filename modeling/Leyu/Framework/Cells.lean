import Mathlib.Data.List.Infix

/-!
# Blocks of allocated memory

A cell is empty until it is first written. Copies are checked: one that leaves its source or the
block it writes to has no result. `Holds` says what the front of a block has been filled with, so
that copies one behind the other add up to one text.
-/

namespace Leyu.Framework

variable {α : Type*}

/-- `n` cells from `start` on. A negative number of bytes is a huge one as `size_t`. -/
def slice (src : List α) (start : Nat) (n : Int) : Option (List α) :=
  if 0 ≤ n ∧ start + n ≤ src.length then some ((src.drop start).take n.toNat) else none

theorem slice_of_neg (src : List α) (start : Nat) {n : Int} (hn : n < 0) :
    slice src start n = none := by
  rw [slice, if_neg]
  omega

theorem slice_sub {src : List α} {start n : Nat} (hstart : start ≤ n) (hn : n ≤ src.length) :
    slice src start ((n : Int) - start) = some ((src.take n).drop start) := by
  have hcount : ((n : Int) - start).toNat = n - start := by omega
  rw [slice, if_pos, hcount, List.drop_take]
  omega

abbrev Cells (α : Type*) := List (Option α)

namespace Cells

def malloc (n : Nat) : Cells α := List.replicate n none

@[simp] theorem length_malloc (n : Nat) : (malloc n : Cells α).length = n := by simp [malloc]

def write (b : Cells α) (start : Nat) (xs : List α) : Option (Cells α) :=
  if start + xs.length ≤ b.length then
    some (b.take start ++ xs.map some ++ b.drop (start + xs.length))
  else none

/-- The text of a block, once all of it has been written. -/
def text : Cells α → Option (List α)
  | [] => some []
  | none :: _ => none
  | some x :: cells => (text cells).map (x :: ·)

@[simp] theorem text_map_some (xs : List α) : text (xs.map some) = some xs := by
  induction xs with
  | nil => rfl
  | cons x xs ih => simp [text, ih]

theorem write_malloc (xs : List α) : (malloc xs.length).write 0 xs = some (xs.map some) := by
  simp [write, malloc]

/-- The block starts with these cells, written. -/
def Holds (b : Cells α) (xs : List α) : Prop := xs.map some <+: b

theorem holds_nil (b : Cells α) : Holds b [] := List.nil_prefix

theorem Holds.length_le {b : Cells α} {xs : List α} (h : Holds b xs) : xs.length ≤ b.length := by
  simpa using List.IsPrefix.length_le h

theorem Holds.write {b : Cells α} {xs : List α} (h : Holds b xs) (ys : List α)
    (hroom : xs.length + ys.length ≤ b.length) :
    ∃ b', b.write xs.length ys = some b' ∧ Holds b' (xs ++ ys) ∧ b'.length = b.length := by
  obtain ⟨rest, rfl⟩ := h
  refine ⟨(xs ++ ys).map some ++ rest.drop ys.length, ?_, List.prefix_append _ _, ?_⟩
  · have htake : (xs.map some ++ rest).take xs.length = xs.map some :=
      List.take_left' (List.length_map _)
    have hdrop : (xs.map some ++ rest).drop (xs.length + ys.length) = rest.drop ys.length := by
      rw [← List.drop_drop, List.drop_left' (List.length_map _)]
    rw [Cells.write, if_pos hroom, htake, hdrop, List.map_append]
  · simp only [List.length_append, List.length_map, List.length_drop] at hroom ⊢
    omega

theorem write_isSome {b : Cells α} {start : Nat} {xs : List α} :
    (b.write start xs).isSome ↔ start + xs.length ≤ b.length := by
  simp only [Cells.write]
  split <;> simp_all

theorem Holds.text {b : Cells α} {xs : List α} (h : Holds b xs) (hfull : xs.length = b.length) :
    b.text = some xs := by
  have hcells : xs.map some = b := List.IsPrefix.eq_of_length h (by simpa using hfull)
  rw [← hcells, text_map_some]

end Cells

end Leyu.Framework
