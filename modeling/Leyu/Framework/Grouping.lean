import Mathlib.Data.List.Forall2
import Mathlib.Data.List.Infix

/-!
# Outputs made of groups of inputs

A machine that collects inputs and now and then puts out what it has collected. `Grouped` says
that every output comes from a group of inputs of its own, that the groups keep the order of the
inputs and share none of them, and that the pending inputs stand behind the last group. There is
one rule for each thing such a machine does with an input.
-/

namespace Leyu.Framework

variable {α β : Type*}

def Grouped (R : List α → β → Prop) (ins : List α) (outs : List β) (pending : List α) : Prop :=
  ∃ groups : List (List α),
    (groups.flatten ++ pending).Sublist ins ∧ List.Forall₂ R groups outs

namespace Grouped

variable {R : List α → β → Prop} {ins more pending : List α} {outs : List β} {a : α} {b : β}

theorem nil : Grouped R [] [] [] := ⟨[], List.Sublist.refl [], .nil⟩

theorem skip (h : Grouped R ins outs pending) (more : List α) :
    Grouped R (ins ++ more) outs pending := by
  obtain ⟨groups, hsub, hR⟩ := h
  exact ⟨groups, hsub.trans (List.sublist_append_left ins more), hR⟩

theorem collect (h : Grouped R ins outs pending) (a : α) :
    Grouped R (ins ++ [a]) outs (pending ++ [a]) := by
  obtain ⟨groups, hsub, hR⟩ := h
  refine ⟨groups, ?_, hR⟩
  rw [← List.append_assoc]
  exact hsub.append (List.Sublist.refl [a])

theorem discard (h : Grouped R ins outs pending) : Grouped R ins outs [] := by
  obtain ⟨groups, hsub, hR⟩ := h
  refine ⟨groups, ?_, hR⟩
  rw [List.append_nil]
  exact (List.sublist_append_left _ _).trans hsub

theorem emit (h : Grouped R ins outs pending) (hb : R pending b) :
    Grouped R ins (outs ++ [b]) [] := by
  obtain ⟨groups, hsub, hR⟩ := h
  refine ⟨groups ++ [pending], ?_, List.rel_append hR (.cons hb .nil)⟩
  simpa using hsub

theorem single (h : Grouped R ins outs []) (hb : R [a] b) :
    Grouped R (ins ++ [a]) (outs ++ [b]) [] := (h.collect a).emit hb

end Grouped

end Leyu.Framework
