import Leyu.Framework.Crlf

/-!
# Searching a text that is still growing

Where `strstr` finds its needle does not change when more text arrives behind it, and a needle
without line ends that a line does not have is looked for behind the line.
-/

namespace Leyu.Framework

theorem strstr_nil_eq_some {needle : Text} {i : Nat} :
    strstr needle [] = some i ↔ needle = [] ∧ i = 0 := by
  by_cases hne : needle = []
  · simp [strstr, hne, eq_comm]
  · simp [strstr, hne]

theorem strstr_cons_eq_some {needle t : Text} {c : Char} {i : Nat} :
    strstr needle (c :: t) = some i ↔
      (needle <+: c :: t ∧ i = 0) ∨
        (¬ needle <+: c :: t ∧ ∃ j, strstr needle t = some j ∧ i = j + 1) := by
  by_cases hpre : needle <+: c :: t
  · simp [strstr, hpre, eq_comm]
  · simp [strstr, hpre, @eq_comm Nat i]

theorem strstr_length {needle t : Text} {i : Nat} (h : strstr needle t = some i) :
    i + needle.length ≤ t.length := by
  induction t generalizing i with
  | nil =>
    obtain ⟨rfl, rfl⟩ := strstr_nil_eq_some.mp h
    simp
  | cons c t ih =>
    rcases strstr_cons_eq_some.mp h with ⟨hpre, rfl⟩ | ⟨-, j, hj, rfl⟩
    · simpa using hpre.length_le
    · have hlen := ih hj
      rw [List.length_cons]
      omega

theorem strstr_split {needle t : Text} {i : Nat} (h : strstr needle t = some i) :
    t = t.take i ++ needle ++ t.drop (i + needle.length) := by
  induction t generalizing i with
  | nil =>
    obtain ⟨rfl, rfl⟩ := strstr_nil_eq_some.mp h
    simp
  | cons c t ih =>
    rcases strstr_cons_eq_some.mp h with ⟨⟨rest, hrest⟩, rfl⟩ | ⟨-, j, hj, rfl⟩
    · simp [← hrest]
    · conv_lhs => rw [ih hj]
      simp [Nat.add_right_comm j 1]

theorem strstr_append {needle t : Text} {i : Nat} (h : strstr needle t = some i) (u : Text) :
    strstr needle (t ++ u) = some i := by
  induction t generalizing i with
  | nil =>
    obtain ⟨rfl, rfl⟩ := strstr_nil_eq_some.mp h
    cases u <;> simp [strstr]
  | cons c t ih =>
    rw [List.cons_append, strstr_cons_eq_some]
    rcases strstr_cons_eq_some.mp h with ⟨hpre, rfl⟩ | ⟨hpre, j, hj, rfl⟩
    · exact .inl ⟨hpre.trans (List.prefix_append (c :: t) u), rfl⟩
    · have hlen := strstr_length hj
      -- The needle fits in what was there, so it does not begin at a place it did not before.
      have hnot : ¬ needle <+: c :: (t ++ u) := by
        intro hlong
        apply hpre
        apply List.prefix_of_prefix_length_le hlong (List.prefix_append (c :: t) u)
        rw [List.length_cons]
        omega
      exact .inr ⟨hnot, j, ih hj, rfl⟩

theorem strstr_front {needle t u : Text} {i : Nat} (htu : t <+: u)
    (h : strstr needle t = some i) : strstr needle u = some i := by
  obtain ⟨v, rfl⟩ := htu
  exact strstr_append h v

theorem strstr_line {needle l : Text} (hplain : Plain needle) (hl : ¬ Occurs needle l) (t : Text) :
    strstr needle (l ++ crlf ++ t) = (strstr needle t).map (· + (l.length + 2)) := by
  have hne : needle ≠ [] := by
    rintro rfl
    exact hl (List.nil_infix)
  have hcrlf : strstr needle (crlf ++ t) = (strstr needle t).map (· + 2) := by
    have hr : ¬ needle <+: '\r' :: '\n' :: t := by
      intro h
      exact hne (List.prefix_nil.mp (prefix_line (l := []) hplain h))
    have hn : ¬ needle <+: '\n' :: t := by
      intro h
      obtain ⟨c, cs, rfl⟩ := List.exists_cons_of_ne_nil hne
      exact hplain.2 ((List.cons_prefix_cons.mp h).1 ▸ by simp)
    rw [crlf, List.cons_append, List.cons_append, List.nil_append, strstr, if_neg hr, strstr,
      if_neg hn, Option.map_map]
    rfl
  induction l with
  | nil => exact hcrlf
  | cons c l ih =>
    have hpre : ¬ needle <+: c :: (l ++ crlf ++ t) := by
      intro h
      exact hl (prefix_line (l := c :: l) hplain h).isInfix
    have hrest : ¬ Occurs needle l := fun h => hl (h.trans (List.suffix_cons c l).isInfix)
    rw [List.cons_append, List.cons_append, strstr, if_neg hpre, ih hrest, Option.map_map]
    apply Option.map_congr
    intro i _
    simp only [Function.comp_apply, List.length_cons]
    omega

/-- The first line may have carriage returns of its own, as an echo has. -/
theorem skipFirstLine_echo {echo : Text} (hecho : '\n' ∉ echo) (t : Text) :
    skipFirstLine (echo ++ crlf ++ t) = t := by
  induction echo with
  | nil => rfl
  | cons c l ih =>
    simp only [List.mem_cons, not_or] at hecho
    have hnext : ∀ u, c = '\r' → l ++ crlf ++ t = '\n' :: u → False := by
      intro u _ hu
      cases l with
      | nil => exact absurd (List.cons.inj hu).1 (by decide)
      | cons d l => exact hecho.2 (by rw [(List.cons.inj hu).1]; simp)
    rw [List.cons_append, List.cons_append, skipFirstLine.eq_2 _ _ hnext]
    exact ih hecho.2

end Leyu.Framework
