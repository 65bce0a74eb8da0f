import Leyu.Framework.CString

/-!
# Lines on the wire

Texts made of lines that CR LF ends. A needle without line ends is found in such a text exactly
where it is found in one of the lines, and a front part that ends with a line end is made of
whole lines.
-/

namespace Leyu.Framework

def crlf : Text := ['\r', '\n']

/-- The text has no line end, nor a part of one. -/
def Plain (l : Text) : Prop := '\r' ∉ l ∧ '\n' ∉ l

instance (l : Text) : Decidable (Plain l) := by unfold Plain; infer_instance

def joinLines (ls : List Text) : Text := ls.flatMap (· ++ crlf)

/-- The lines of a text; what follows the last line end is left out. -/
def splitLines : Text → List Text
  | [] => []
  | '\r' :: '\n' :: t => [] :: splitLines t
  | c :: t =>
      match splitLines t with
      | [] => []
      | l :: ls => (c :: l) :: ls

def skipFirstLine : Text → Text
  | '\r' :: '\n' :: t => t
  | _ :: t => skipFirstLine t
  | [] => []

@[simp] theorem joinLines_nil : joinLines [] = [] := rfl

theorem joinLines_cons (l : Text) (ls : List Text) :
    joinLines (l :: ls) = l ++ crlf ++ joinLines ls := rfl

theorem joinLines_append (ls ms : List Text) :
    joinLines (ls ++ ms) = joinLines ls ++ joinLines ms := List.flatMap_append

private theorem plain_cons {c : Char} {l : Text} (h : Plain (c :: l)) :
    c ≠ '\r' ∧ c ≠ '\n' ∧ Plain l := by
  obtain ⟨hr, hn⟩ := h
  simp only [List.mem_cons, not_or] at hr hn
  exact ⟨Ne.symm hr.1, Ne.symm hn.1, hr.2, hn.2⟩

theorem skipFirstLine_plain {l : Text} (hl : Plain l) (t : Text) :
    skipFirstLine (l ++ crlf ++ t) = t := by
  induction l with
  | nil => rfl
  | cons c l ih =>
    obtain ⟨hc, -, hl'⟩ := plain_cons hl
    rw [List.cons_append, List.cons_append, skipFirstLine.eq_2 _ _ fun _ h => absurd h hc]
    exact ih hl'

theorem splitLines_plain {l : Text} (hl : Plain l) (t : Text) :
    splitLines (l ++ crlf ++ t) = l :: splitLines t := by
  induction l with
  | nil => rfl
  | cons c l ih =>
    obtain ⟨hc, -, hl'⟩ := plain_cons hl
    rw [List.cons_append, List.cons_append, splitLines.eq_3 _ _ fun _ h => absurd h hc, ih hl']

theorem splitLines_joinLines {ls : List Text} (h : ∀ l ∈ ls, Plain l) :
    splitLines (joinLines ls) = ls := by
  induction ls with
  | nil => rfl
  | cons l ls ih =>
    rw [joinLines_cons, splitLines_plain (h l (by simp)), ih fun m hm => h m (by simp [hm])]

theorem occurs_skipFirstLine {needle t : Text} (h : Occurs (crlf ++ needle) t) :
    Occurs needle (skipFirstLine t) := by
  induction t using skipFirstLine.induct with
  | case1 t =>
    rcases List.infix_cons_iff.mp h with h | h
    · exact (List.cons_prefix_cons.mp (List.cons_prefix_cons.mp h).2).2.isInfix
    · rcases List.infix_cons_iff.mp h with h | h
      · exact absurd (List.cons_prefix_cons.mp h).1 (by decide)
      · exact (List.suffix_append _ _).isInfix.trans h
  | case2 c t hne ih =>
    rw [skipFirstLine.eq_2 c t hne]
    rcases List.infix_cons_iff.mp h with h | h
    · obtain ⟨rfl, h⟩ := List.cons_prefix_cons.mp h
      obtain ⟨u, hu⟩ := h
      exact (hne _ rfl (List.cons.inj hu.symm).2).elim
    · exact ih h
  | case3 => simp [crlf] at h

theorem occurs_line_iff {needle : Text} (hne : needle ≠ []) (hplain : Plain needle)
    (l t : Text) : Occurs needle (l ++ crlf ++ t) ↔ Occurs needle l ∨ Occurs needle t := by
  have hhead : ∀ {d : Char} {u v : Text}, (d = '\r' ∨ d = '\n') → u ≠ [] → u <+: d :: v →
      ∀ w, needle ≠ w ++ u := by
    rintro d u v hd hu hpre w rfl
    obtain ⟨c, u, rfl⟩ := List.exists_cons_of_ne_nil hu
    obtain ⟨rfl, -⟩ := List.cons_prefix_cons.mp hpre
    rcases hd with rfl | rfl
    · exact hplain.1 (by simp)
    · exact hplain.2 (by simp)
  have hend : Occurs needle (crlf ++ t) → Occurs needle t := by
    intro h
    rcases List.infix_cons_iff.mp h with h | h
    · exact absurd rfl (hhead (.inl rfl) hne h [])
    · rcases List.infix_cons_iff.mp h with h | h
      · exact absurd rfl (hhead (.inr rfl) hne h [])
      · exact h
  rw [List.append_assoc]
  constructor
  · intro h
    rcases List.infix_append_iff_ne_nil.mp h with h | h | ⟨u, v, -, hv, hsplit, -, hpre⟩
    · exact .inl h
    · exact .inr (hend h)
    · exact absurd hsplit (hhead (.inl rfl) hv hpre u)
  · rintro (h | h)
    · exact h.trans (List.prefix_append _ _).isInfix
    · exact h.trans ((List.suffix_append _ _).trans (List.suffix_append _ _)).isInfix

theorem occurs_joinLines_iff {needle : Text} (hne : needle ≠ []) (hplain : Plain needle)
    (ls : List Text) : Occurs needle (joinLines ls) ↔ ∃ l ∈ ls, Occurs needle l := by
  induction ls with
  | nil => simp [hne]
  | cons l ls ih => rw [joinLines_cons, occurs_line_iff hne hplain, ih, List.exists_mem_cons_iff]

theorem prefix_line {front l t : Text} (hplain : Plain front) (h : front <+: l ++ crlf ++ t) :
    front <+: l := by
  induction front generalizing l with
  | nil => exact List.nil_prefix
  | cons c front ih =>
    obtain ⟨hc, -, hfront⟩ := plain_cons hplain
    cases l with
    | nil => exact absurd (List.cons_prefix_cons.mp h).1 hc
    | cons d l =>
      obtain ⟨rfl, hrest⟩ := List.cons_prefix_cons.mp h
      exact List.cons_prefix_cons.mpr ⟨rfl, ih hfront hrest⟩

private theorem joinLines_head_ne {ls : List Text} (h : ∀ l ∈ ls, Plain l) (t : Text) :
    joinLines ls ≠ '\n' :: t := by
  intro heq
  cases ls with
  | nil => simp at heq
  | cons l ls =>
    cases l with
    | nil => exact absurd (List.cons.inj heq).1 (by decide)
    | cons c l => exact (plain_cons (h (c :: l) (by simp))).2.1 (List.cons.inj heq).1

private theorem suffix_crlf_cases {l b : Text} (h : crlf <:+ l ++ crlf ++ b) :
    b = [] ∨ b = ['\n'] ∨ crlf <:+ b := by
  cases b with
  | nil => exact .inl rfl
  | cons c b =>
    cases b with
    | nil =>
      obtain ⟨u, hu⟩ := h
      have hlast := congrArg List.getLast? hu
      have hc : '\n' = c := by simpa [crlf] using hlast
      exact .inr (.inl (by rw [← hc]))
    | cons d b =>
      exact .inr (.inr (List.suffix_of_suffix_length_le h (List.suffix_append _ _) (by simp [crlf])))

theorem joinLines_split {ls : List Text} (hls : ∀ l ∈ ls, Plain l) {b u : Text}
    (h : b ++ u = joinLines ls) (hb : crlf <:+ b) :
    ∃ front back, ls = front ++ back ∧ b = joinLines front ∧ u = joinLines back := by
  induction ls generalizing b with
  | nil =>
    obtain ⟨rfl, rfl⟩ := List.append_eq_nil_iff.mp h
    simp [crlf] at hb
  | cons l ls ih =>
    have hrest : ∀ m ∈ ls, Plain m := fun m hm => hls m (by simp [hm])
    rw [joinLines_cons] at h
    rcases List.append_eq_append_iff.mp h with ⟨as, hl, hu⟩ | ⟨bs, hl, hu⟩
    · cases as with
      | nil =>
        rw [List.append_nil] at hl
        exact ⟨[l], ls, rfl, by rw [← hl, joinLines_cons, joinLines_nil, List.append_nil], hu⟩
      | cons a as =>
        obtain ⟨w, rfl⟩ := hb
        have hcut := congrArg List.dropLast hl
        rw [crlf, show l ++ ['\r', '\n'] = (l ++ ['\r']) ++ ['\n'] by simp,
          List.dropLast_concat, List.dropLast_append_of_ne_nil (by simp)] at hcut
        have hmem : '\n' ∈ l ++ ['\r'] := by rw [hcut]; simp
        rcases List.mem_append.mp hmem with hmem | hmem
        · exact absurd hmem (hls l (by simp)).2
        · exact absurd hmem (by decide)
    · subst hl
      rcases suffix_crlf_cases hb with rfl | rfl | hbs
      · exact ⟨[l], ls, rfl, by simp [joinLines_cons], by simpa using hu.symm⟩
      · exact absurd hu (joinLines_head_ne hrest u)
      · obtain ⟨front, back, rfl, rfl, rfl⟩ := ih hrest hu.symm hbs
        exact ⟨l :: front, back, rfl, rfl, rfl⟩

end Leyu.Framework
