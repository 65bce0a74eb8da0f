import Leyu.Framework.Cells
import Mathlib.Algebra.Ring.Nat

/-!
# A text put together from pieces

Pieces are written to a fresh block, each at a place of its own choice. As many cells as the
pieces have elements are all written exactly when the pieces fit together without gap and overlap,
and then every piece is found in the text where it was put.
-/

namespace Leyu.Framework

variable {α : Type*}

/-- A place, and what is written from there on. -/
abbrev Piece (α : Type*) := Nat × List α

namespace Piece

def total (ws : List (Piece α)) : Nat := (ws.map fun w => w.2.length).sum

/-- The text is as long as the pieces together, holds each of them at its place, and every place
of it belongs to a piece. -/
def Fit (ws : List (Piece α)) (text : List α) : Prop :=
  text.length = total ws ∧ (∀ w ∈ ws, w.2 <+: text.drop w.1) ∧
    ∀ i < total ws, ∃ w ∈ ws, w.1 ≤ i ∧ i < w.1 + w.2.length

@[simp] theorem total_nil : total ([] : List (Piece α)) = 0 := rfl

@[simp] theorem total_cons (w : Piece α) (ws : List (Piece α)) :
    total (w :: ws) = w.2.length + total ws := rfl

theorem total_append (ws ws' : List (Piece α)) : total (ws ++ ws') = total ws + total ws' := by
  simp [total]

theorem Fit.total_le {ws : List (Piece α)} {text : List α} (h : Fit ws text) {n : Nat}
    (hn : ∀ w ∈ ws, w.1 + w.2.length ≤ n) : total ws ≤ n := by
  by_contra hmore
  have hlast : total ws - 1 < total ws := by omega
  obtain ⟨w, hw, -, hend⟩ := h.2.2 _ hlast
  have hle := hn w hw
  omega

/-- Pieces each behind the one before. -/
def inOrder : Nat → List (List α) → List (Piece α)
  | _, [] => []
  | start, v :: vs => (start, v) :: inOrder (start + v.length) vs

theorem total_inOrder (start : Nat) (vs : List (List α)) :
    total (inOrder start vs) = vs.flatten.length := by
  induction vs generalizing start with
  | nil => rfl
  | cons v vs ih => rw [inOrder, total_cons, ih, List.flatten_cons, List.length_append]

theorem inOrder_bounds {start : Nat} {vs : List (List α)} {w : Piece α}
    (hw : w ∈ inOrder start vs) : w.1 + w.2.length ≤ start + vs.flatten.length := by
  induction vs generalizing start with
  | nil => exact absurd hw List.not_mem_nil
  | cons v vs ih =>
    rw [List.flatten_cons, List.length_append]
    rcases List.mem_cons.mp hw with rfl | hw
    · exact Nat.add_le_add_left (Nat.le_add_right _ _) start
    · have hrest := ih hw
      omega

theorem fit_inOrder (vs : List (List α)) : Fit (inOrder 0 vs) vs.flatten := by
  have hgeneral : ∀ (front : List α) (vs : List (List α)),
      (∀ w ∈ inOrder front.length vs, w.2 <+: (front ++ vs.flatten).drop w.1) ∧
        ∀ i, front.length ≤ i → i < front.length + vs.flatten.length →
          ∃ w ∈ inOrder front.length vs, w.1 ≤ i ∧ i < w.1 + w.2.length := by
    intro front vs
    induction vs generalizing front with
    | nil =>
      refine ⟨fun w hw => absurd hw List.not_mem_nil, fun i hle hlt => ?_⟩
      exact absurd hlt (Nat.not_lt_of_le hle)
    | cons v vs ih =>
      obtain ⟨hplaces, hcover⟩ := ih (front ++ v)
      rw [List.length_append] at hplaces hcover
      rw [inOrder, List.flatten_cons, ← List.append_assoc]
      refine ⟨?_, ?_⟩
      · intro w hw
        rcases List.mem_cons.mp hw with rfl | hw
        · rw [List.append_assoc, List.drop_left]
          exact List.prefix_append v _
        · exact hplaces w hw
      · intro i hle hlt
        rw [List.length_append] at hlt
        by_cases hi : i < front.length + v.length
        · exact ⟨_, List.mem_cons_self, hle, hi⟩
        · obtain ⟨w, hw, hin⟩ := hcover i (Nat.le_of_not_lt hi) (by omega)
          exact ⟨w, List.mem_cons_of_mem _ hw, hin⟩
  obtain ⟨hplaces, hcover⟩ := hgeneral [] vs
  refine ⟨(total_inOrder 0 vs).symm, hplaces, ?_⟩
  intro i hi
  rw [total_inOrder] at hi
  exact hcover i (Nat.zero_le i) (by simpa using hi)

end Piece

namespace Cells

open Piece

def writeAll : Cells α → List (Piece α) → Option (Cells α)
  | b, [] => some b
  | b, w :: ws => (b.write w.1 w.2).bind fun b => writeAll b ws

theorem writeAll_append (b : Cells α) (ws ws' : List (Piece α)) :
    writeAll b (ws ++ ws') = (writeAll b ws).bind fun b => writeAll b ws' := by
  induction ws generalizing b with
  | nil => rfl
  | cons w ws ih =>
    simp only [List.cons_append, writeAll]
    cases b.write w.1 w.2 with
    | none => rfl
    | some b' => exact ih b'

def written (b : Cells α) : Nat := b.countP Option.isSome

@[simp] theorem written_append (b b' : Cells α) : written (b ++ b') = written b + written b' :=
  List.countP_append

@[simp] theorem written_map_some (xs : List α) : written (xs.map some) = xs.length := by
  simp [written, List.countP_map]

theorem write_eq_some {b b' : Cells α} {start : Nat} {xs : List α} (h : b.write start xs = some b') :
    ∃ front mid back, b = front ++ mid ++ back ∧ b' = front ++ xs.map some ++ back ∧
      front.length = start ∧ mid.length = xs.length := by
  unfold Cells.write at h
  split at h
  · next hroom =>
    obtain rfl := Option.some.inj h
    refine ⟨b.take start, (b.drop start).take xs.length, b.drop (start + xs.length), ?_, rfl, ?_, ?_⟩
    · rw [List.append_assoc, ← List.drop_drop, List.take_append_drop, List.take_append_drop]
    · rw [List.length_take]
      omega
    · rw [List.length_take, List.length_drop]
      omega
  · cases h

theorem length_writeAll {b b' : Cells α} {ws : List (Piece α)} (h : writeAll b ws = some b') :
    b'.length = b.length := by
  induction ws generalizing b with
  | nil => rw [Option.some.inj h]
  | cons w ws ih =>
    obtain ⟨b₁, hw, hws⟩ := Option.bind_eq_some_iff.mp h
    obtain ⟨front, mid, back, rfl, rfl, -, hmid⟩ := write_eq_some hw
    rw [ih hws]
    simp [hmid]

theorem written_write {b b' : Cells α} {w : Piece α} (h : b.write w.1 w.2 = some b') :
    written b' ≤ written b + w.2.length ∧
      (written b' = written b + w.2.length →
        ∀ (i : Nat) (x : α), b[i]? = some (some x) → b'[i]? = some (some x)) := by
  obtain ⟨front, mid, back, rfl, rfl, hfront, hmid⟩ := write_eq_some h
  simp only [written_append, written_map_some]
  refine ⟨by omega, ?_⟩
  intro hfresh i x hx
  have hnone : ∀ c ∈ mid, ¬ c.isSome = true := by
    have hzero : written mid = 0 := by omega
    exact List.countP_eq_zero.mp hzero
  rcases Nat.lt_or_ge i front.length with hi | hi
  · rw [List.append_assoc, List.getElem?_append_left hi] at hx ⊢
    exact hx
  · rw [List.append_assoc, List.getElem?_append_right hi] at hx ⊢
    rcases Nat.lt_or_ge (i - front.length) mid.length with hj | hj
    · rw [List.getElem?_append_left hj] at hx
      exact absurd rfl (hnone _ (List.mem_of_getElem? hx))
    · rw [List.getElem?_append_right hj, hmid] at hx
      rw [List.getElem?_append_right (by simpa [hmid] using hj), List.length_map]
      exact hx

theorem written_writeAll {b b' : Cells α} {ws : List (Piece α)} (h : writeAll b ws = some b') :
    written b' ≤ written b + total ws := by
  induction ws generalizing b with
  | nil =>
    rw [Option.some.inj h]
    exact Nat.le_add_right _ _
  | cons w ws ih =>
    obtain ⟨b₁, hw, hws⟩ := Option.bind_eq_some_iff.mp h
    have hone := (written_write hw).1
    have hrest := ih hws
    rw [total_cons]
    omega

theorem getElem?_write_of_mem {b b' : Cells α} {w : Piece α} (h : b.write w.1 w.2 = some b')
    {i : Nat} {x : α} (hx : w.2[i]? = some x) : b'[w.1 + i]? = some (some x) := by
  obtain ⟨front, mid, back, -, rfl, hfront, -⟩ := write_eq_some h
  obtain ⟨hi, -⟩ := List.getElem?_eq_some_iff.mp hx
  rw [List.append_assoc, List.getElem?_append_right (by omega), hfront, Nat.add_sub_cancel_left,
    List.getElem?_append_left (by rwa [List.length_map]), List.getElem?_map, hx, Option.map_some]

theorem getElem?_write_of_not_mem {b b' : Cells α} {w : Piece α} (h : b.write w.1 w.2 = some b')
    {i : Nat} (hi : ¬ (w.1 ≤ i ∧ i < w.1 + w.2.length)) : b'[i]? = b[i]? := by
  obtain ⟨front, mid, back, rfl, rfl, hfront, hmid⟩ := write_eq_some h
  rcases Nat.lt_or_ge i front.length with hlt | hge
  · rw [List.append_assoc, List.append_assoc, List.getElem?_append_left hlt,
      List.getElem?_append_left hlt]
  · have hbehind : mid.length ≤ i - front.length := by omega
    rw [List.append_assoc, List.append_assoc, List.getElem?_append_right hge,
      List.getElem?_append_right hge, List.getElem?_append_right hbehind,
      List.getElem?_append_right (by rwa [List.length_map, ← hmid]), List.length_map, hmid]

theorem writeAll_kept {b b' : Cells α} {ws : List (Piece α)} (h : writeAll b ws = some b')
    (hfull : written b' = written b + total ws) :
    (∀ (i : Nat) (x : α), b[i]? = some (some x) → b'[i]? = some (some x)) ∧
      ∀ w ∈ ws, ∀ (i : Nat) (x : α), w.2[i]? = some x → b'[w.1 + i]? = some (some x) := by
  induction ws generalizing b with
  | nil =>
    obtain rfl := Option.some.inj h
    exact ⟨fun _ _ hx => hx, fun w hw => absurd hw List.not_mem_nil⟩
  | cons w ws ih =>
    obtain ⟨b₁, hw, hws⟩ := Option.bind_eq_some_iff.mp h
    obtain ⟨hone, hkeep⟩ := written_write hw
    have hrest := written_writeAll hws
    rw [total_cons] at hfull
    obtain ⟨hold, hnew⟩ := ih hws (by omega)
    refine ⟨?_, ?_⟩
    · intro i x hx
      exact hold i x (hkeep (by omega) i x hx)
    · intro w' hw' i x hx
      rcases List.mem_cons.mp hw' with rfl | hw'
      · exact hold _ x (getElem?_write_of_mem hw hx)
      · exact hnew w' hw' i x hx

theorem writeAll_covers {b b' : Cells α} {ws : List (Piece α)} (h : writeAll b ws = some b')
    {i : Nat} {x : α} (hx : b'[i]? = some (some x)) :
    b[i]? = some (some x) ∨ ∃ w ∈ ws, w.1 ≤ i ∧ i < w.1 + w.2.length := by
  induction ws generalizing b with
  | nil =>
    obtain rfl := Option.some.inj h
    exact .inl hx
  | cons w ws ih =>
    obtain ⟨b₁, hw, hws⟩ := Option.bind_eq_some_iff.mp h
    by_cases hi : w.1 ≤ i ∧ i < w.1 + w.2.length
    · exact .inr ⟨w, List.mem_cons_self, hi⟩
    · rcases ih hws with hold | ⟨w', hw', hi'⟩
      · rw [getElem?_write_of_not_mem hw hi] at hold
        exact .inl hold
      · exact .inr ⟨w', List.mem_cons_of_mem w hw', hi'⟩

theorem writeAll_isSome {b b' : Cells α} {ws : List (Piece α)} (h : writeAll b ws = some b')
    {i : Nat} (hi : (∃ x, b[i]? = some (some x)) ∨
      ∃ w ∈ ws, w.1 ≤ i ∧ i < w.1 + w.2.length) : ∃ x, b'[i]? = some (some x) := by
  induction ws generalizing b with
  | nil =>
    obtain rfl := Option.some.inj h
    rcases hi with hx | ⟨w, hw, -⟩
    · exact hx
    · exact absurd hw List.not_mem_nil
  | cons w ws ih =>
    obtain ⟨b₁, hw, hws⟩ := Option.bind_eq_some_iff.mp h
    apply ih hws
    by_cases hcov : w.1 ≤ i ∧ i < w.1 + w.2.length
    · have hlt : i - w.1 < w.2.length := by omega
      have hplace := getElem?_write_of_mem hw (List.getElem?_eq_getElem hlt)
      rw [Nat.add_sub_cancel' hcov.1] at hplace
      exact .inl ⟨_, hplace⟩
    · rcases hi with ⟨x, hx⟩ | ⟨w', hw', hi'⟩
      · exact .inl ⟨x, by rwa [getElem?_write_of_not_mem hw hcov]⟩
      · rcases List.mem_cons.mp hw' with rfl | hw'
        · exact absurd hi' hcov
        · exact .inr ⟨w', hw', hi'⟩

theorem text_eq_some_iff {b : Cells α} {xs : List α} : b.text = some xs ↔ b = xs.map some := by
  constructor
  · intro h
    induction b generalizing xs with
    | nil =>
      obtain rfl := Option.some.inj h
      rfl
    | cons c b ih =>
      cases c with
      | none => cases h
      | some x =>
        obtain ⟨ys, hys, rfl⟩ := Option.map_eq_some_iff.mp h
        rw [List.map_cons, ih hys]
  · rintro rfl
    exact text_map_some xs

/-- The first `n` cells of a block, when all of them have been written. -/
def readFront (b : Cells α) (n : Nat) : Option (List α) :=
  if n ≤ b.length then text (b.take n) else none

theorem readFront_eq_some {b : Cells α} {n : Nat} {xs : List α} :
    b.readFront n = some xs ↔ xs.length = n ∧ ∀ i < n, b[i]? = some xs[i]? := by
  unfold readFront
  constructor
  · intro h
    split at h
    · next hn =>
      have hcells := text_eq_some_iff.mp h
      have hlen : xs.length = n := by
        have hcount := congrArg List.length hcells
        rw [List.length_take, List.length_map] at hcount
        omega
      refine ⟨hlen, ?_⟩
      intro i hi
      rw [← List.getElem?_take_of_lt hi, hcells, List.getElem?_map,
        List.getElem?_eq_getElem (hlen ▸ hi), Option.map_some]
    · cases h
  · rintro ⟨rfl, hcells⟩
    have hn : xs.length ≤ b.length := by
      by_contra hshort
      have hlast := hcells b.length (Nat.lt_of_not_le hshort)
      rw [List.getElem?_eq_none (Nat.le_refl _)] at hlast
      cases hlast
    rw [if_pos hn, text_eq_some_iff]
    apply List.ext_getElem?
    intro i
    rcases Nat.lt_or_ge i xs.length with hi | hi
    · rw [List.getElem?_take_of_lt hi, hcells i hi, List.getElem?_map, List.getElem?_eq_getElem hi,
        Option.map_some]
    · rw [List.getElem?_eq_none (by rw [List.length_take]; omega),
        List.getElem?_eq_none (by rwa [List.length_map])]

theorem getElem?_malloc_ne (n i : Nat) (x : α) : (malloc n : Cells α)[i]? ≠ some (some x) := by
  intro h
  have hmem := List.mem_of_getElem? h
  exact absurd (List.eq_of_mem_replicate hmem) (Option.some_ne_none x)

theorem written_malloc (n : Nat) : written (malloc n : Cells α) = 0 := by
  simp [written, malloc, List.countP_replicate]

theorem le_written_of_readFront {b : Cells α} {n : Nat} {xs : List α}
    (h : b.readFront n = some xs) :
    n ≤ written b ∧ ∀ (i : Nat) (x : α), n ≤ i → b[i]? = some (some x) → n < written b := by
  obtain ⟨hlen, hcells⟩ := readFront_eq_some.mp h
  have htake : written (b.take n) = n := by
    unfold readFront at h
    split at h
    · rw [text_eq_some_iff.mp h, written_map_some, hlen]
    · cases h
  have hsplit : written b = n + written (b.drop n) := by
    rw [← htake, ← written_append, htake, List.take_append_drop]
  refine ⟨hsplit ▸ Nat.le_add_right _ _, ?_⟩
  intro i x hi hx
  have hmem : some x ∈ b.drop n := by
    apply List.mem_of_getElem? (i := i - n)
    rw [List.getElem?_drop, Nat.add_sub_cancel' hi, hx]
  have hpos : 0 < written (b.drop n) := List.countP_pos_iff.mpr ⟨some x, hmem, rfl⟩
  omega

theorem exists_text {b : Cells α} (h : ∀ i < b.length, ∃ x, b[i]? = some (some x)) :
    ∃ xs, b.text = some xs := by
  induction b with
  | nil => exact ⟨[], rfl⟩
  | cons a b ih =>
    obtain ⟨x, hx⟩ := h 0 (Nat.zero_lt_succ _)
    obtain rfl : a = some x := Option.some.inj hx
    obtain ⟨xs, hxs⟩ := ih fun i hi => h (i + 1) (Nat.succ_lt_succ hi)
    exact ⟨x :: xs, by rw [text, hxs, Option.map_some]⟩

theorem exists_readFront {b : Cells α} {n : Nat} (h : ∀ i < n, ∃ x, b[i]? = some (some x)) :
    ∃ xs, b.readFront n = some xs := by
  have hn : n ≤ b.length := by
    by_contra hshort
    obtain ⟨x, hx⟩ := h b.length (Nat.lt_of_not_le hshort)
    rw [List.getElem?_eq_none (Nat.le_refl _)] at hx
    cases hx
  rw [readFront, if_pos hn]
  apply exists_text
  intro i hi
  rw [List.length_take] at hi
  rw [List.getElem?_take_of_lt (by omega)]
  exact h i (by omega)

/-- As many cells as the pieces have elements are all written exactly when the pieces fit. -/
theorem readFront_writeAll {n : Nat} {b : Cells α} {ws : List (Piece α)}
    (h : writeAll (malloc n) ws = some b) {packet : List α} :
    b.readFront (total ws) = some packet ↔ Fit ws packet := by
  have hmost : written b ≤ total ws := by
    have hall := written_writeAll h
    rwa [written_malloc, Nat.zero_add] at hall
  -- what has been read holds every piece: none is overwritten, none stands behind
  have hkept : ∀ {xs : List α}, b.readFront (total ws) = some xs →
      ∀ w ∈ ws, ∀ (i : Nat) (x : α), w.2[i]? = some x → xs[w.1 + i]? = some x := by
    intro xs hread w hw i x hx
    obtain ⟨hle, hbehind⟩ := le_written_of_readFront hread
    have hcell := (writeAll_kept h (by rw [written_malloc]; omega)).2 w hw i x hx
    have hplace : w.1 + i < total ws := by
      by_contra hfar
      have hmore := hbehind _ x (Nat.le_of_not_lt hfar) hcell
      omega
    rw [(readFront_eq_some.mp hread).2 _ hplace] at hcell
    exact Option.some.inj hcell
  constructor
  · intro hread
    obtain ⟨hlen, hcells⟩ := readFront_eq_some.mp hread
    refine ⟨hlen, ?_, ?_⟩
    · intro w hw
      apply List.prefix_iff_getElem?.mpr
      intro i hi
      rw [List.getElem?_drop]
      exact hkept hread w hw i _ (List.getElem?_eq_getElem hi)
    · intro i hi
      have hcell := hcells i hi
      have hin : i < packet.length := by rwa [hlen]
      rw [List.getElem?_eq_getElem hin] at hcell
      exact (writeAll_covers h hcell).resolve_left (getElem?_malloc_ne n i _)
  · rintro ⟨hlen, hplaces, hcover⟩
    obtain ⟨xs, hread⟩ := exists_readFront fun i hi => writeAll_isSome h (.inr (hcover i hi))
    have hsame : xs = packet := by
      have hxs := (readFront_eq_some.mp hread).1
      apply List.ext_getElem?
      intro i
      rcases Nat.lt_or_ge i (total ws) with hi | hi
      · obtain ⟨w, hw, hle, hlt⟩ := hcover i hi
        have hoff : i - w.1 < w.2.length := by omega
        have hx := hkept hread w hw (i - w.1) _ (List.getElem?_eq_getElem hoff)
        have hy := List.prefix_iff_getElem?.mp (hplaces w hw) (i - w.1) hoff
        rw [List.getElem?_drop] at hy
        rw [Nat.add_sub_cancel' hle] at hx hy
        rw [hx, hy]
      · rw [List.getElem?_eq_none (by omega), List.getElem?_eq_none (by omega)]
    rw [← hsame]
    exact hread

end Cells

end Leyu.Framework
