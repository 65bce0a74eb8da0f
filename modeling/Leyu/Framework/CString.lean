import Mathlib.Data.List.Infix
import Mathlib.Data.List.TakeWhile

/-!
# C strings

A memory object is a list of characters; a pointer into it is what is left of the object from
there on, so reading through an empty rest is an access out of bounds and gives `none`. The
string functions of the C library are written over such pointers, and each one's rule says
what it computes on a terminated object: no access is out of bounds, and the answer is the one
of the text before the terminator.
-/

namespace Leyu.Framework

/-- The text of a C string, its terminator left out. -/
abbrev Text := List Char

def nul : Char := Char.ofNat 0

/-- A memory object, seen from a pointer into it. -/
abbrev Block := List Char

def content (b : Block) : Text := b.takeWhile (· ≠ nul)

def strlen : Block → Option Nat
  | [] => none
  | c :: cs => if c = nul then some 0 else (strlen cs).map (· + 1)

/-- `strcmp(a, b) == 0` -/
def strcmpEq : Block → Block → Option Bool
  | a :: as, b :: bs =>
      if a ≠ b then some false else if a = nul then some true else strcmpEq as bs
  | _, _ => none

/-- `strncmp(a, b, n) == 0` -/
def strncmpEq : Nat → Block → Block → Option Bool
  | 0, _, _ => some true
  | n + 1, a :: as, b :: bs =>
      if a ≠ b then some false else if a = nul then some true else strncmpEq n as bs
  | _ + 1, _, _ => none

/-- `p[i]` -/
def readAt (p : Block) (i : Int) : Option Char :=
  if i < 0 then none else p[i.toNat]?

/-- `p + i`, which must stay inside the object. -/
def advance (p : Block) (i : Int) : Option Block :=
  if i < 0 ∨ p.length < i.toNat then none else some (p.drop i.toNat)

/-- `strncpy` of a text into an object of `n` characters. -/
def strncpy (n : Nat) (src : Text) : Block := src.take n ++ List.replicate (n - src.length) nul

theorem take_ne_nil {t : Text} (ht : t ≠ []) {n : Nat} (hn : 0 < n) : t.take n ≠ [] := by
  intro hnil
  rcases List.take_eq_nil_iff.1 hnil with h | h
  · omega
  · exact ht h

theorem prefix_next {read t : Text} {c : Char} (h : read <+: t) (hc : t[read.length]? = some c) :
    read ++ [c] <+: t := by
  obtain ⟨rest, rfl⟩ := h
  cases rest with
  | nil => simp at hc
  | cons x rest =>
    have heq : x = c := by simpa using hc
    exact ⟨rest, by simp [heq]⟩

theorem eq_of_prefix_end {read t : Text} (h : read <+: t) (hend : t[read.length]? = none) :
    read = t := by
  obtain ⟨rest, rfl⟩ := h
  cases rest with
  | nil => exact (List.append_nil read).symm
  | cons x rest => simp at hend

@[simp] theorem content_nil : content [] = [] := rfl

theorem content_cons (c : Char) (b : Block) :
    content (c :: b) = if c = nul then [] else c :: content b := by
  by_cases h : c = nul <;> simp [content, h]

theorem nul_notMem_content (b : Block) : nul ∉ content b := by
  intro h
  have := List.all_takeWhile (p := (· ≠ nul)) (l := b)
  simpa using List.all_eq_true.mp this nul h

theorem content_append_nul {t : Text} (ht : nul ∉ t) (b : Block) :
    content (t ++ nul :: b) = t := by
  induction t with
  | nil => simp [content_cons]
  | cons c t ih =>
    have hc : c ≠ nul := fun h => ht (by simp [h])
    have hrest : nul ∉ t := fun h => ht (by simp [h])
    simp [content_cons, hc, ih hrest]

theorem content_eq_self {t : Text} (ht : nul ∉ t) : content t = t := by
  rw [content, List.takeWhile_eq_self_iff]
  intro c hc
  have hne : c ≠ nul := fun h => ht (h ▸ hc)
  simpa using hne

theorem content_sublist_length (b : Block) : (content b).length ≤ b.length :=
  (List.takeWhile_prefix _).length_le

theorem block_eq_content {b : Block} (hb : nul ∈ b) :
    ∃ rest, b = content b ++ nul :: rest := by
  induction b with
  | nil => simp at hb
  | cons c b ih =>
    by_cases hc : c = nul
    · exact ⟨b, by simp [content_cons, hc]⟩
    · have hb' : nul ∈ b := by
        rcases List.mem_cons.mp hb with h | h
        · exact absurd h.symm hc
        · exact h
      obtain ⟨rest, hrest⟩ := ih hb'
      exact ⟨rest, by rw [content_cons, if_neg hc, List.cons_append, ← hrest]⟩

theorem content_append_of_mem {a : Block} (ha : nul ∈ a) (b : Block) :
    content (a ++ b) = content a := by
  obtain ⟨rest, hrest⟩ := block_eq_content ha
  have hsplit : a ++ b = content a ++ nul :: (rest ++ b) := by
    conv_lhs => rw [hrest]
    rw [List.append_assoc, List.cons_append]
  rw [hsplit]
  exact content_append_nul (nul_notMem_content a) (rest ++ b)

theorem strlen_eq {b : Block} (hb : nul ∈ b) : strlen b = some (content b).length := by
  induction b with
  | nil => simp at hb
  | cons c b ih =>
    by_cases hc : c = nul
    · simp [strlen, content_cons, hc]
    · have hb' : nul ∈ b := by simpa [Ne.symm hc] using hb
      simp [strlen, content_cons, hc, ih hb']

theorem strcmpEq_eq {a b : Block} (ha : nul ∈ a) (hb : nul ∈ b) :
    strcmpEq a b = some (decide (content a = content b)) := by
  induction a generalizing b with
  | nil => simp at ha
  | cons c a ih =>
    cases b with
    | nil => simp at hb
    | cons d b =>
      by_cases hcd : c = d
      · subst d
        by_cases hc : c = nul
        · simp [strcmpEq, content_cons, hc]
        · have ha' : nul ∈ a := by simpa [Ne.symm hc] using ha
          have hb' : nul ∈ b := by simpa [Ne.symm hc] using hb
          simp [strcmpEq, content_cons, hc, ih ha' hb']
      · by_cases hc : c = nul
        · have hd : d ≠ nul := fun h => hcd (hc.trans h.symm)
          simp [strcmpEq, content_cons, hc, hd, Ne.symm hd]
        · by_cases hd : d = nul <;> simp [strcmpEq, content_cons, hcd, hc, hd]

theorem strncmpEq_eq (n : Nat) {a b : Block} (ha : nul ∈ a) (hb : nul ∈ b) :
    strncmpEq n a b = some (decide ((content a).take n = (content b).take n)) := by
  induction n generalizing a b with
  | zero => simp [strncmpEq]
  | succ n ih =>
    cases a with
    | nil => simp at ha
    | cons c a =>
      cases b with
      | nil => simp at hb
      | cons d b =>
        by_cases hcd : c = d
        · subst d
          by_cases hc : c = nul
          · simp [strncmpEq, content_cons, hc]
          · have ha' : nul ∈ a := by simpa [Ne.symm hc] using ha
            have hb' : nul ∈ b := by simpa [Ne.symm hc] using hb
            simp [strncmpEq, content_cons, hc, ih ha' hb']
        · by_cases hc : c = nul
          · have hd : d ≠ nul := fun h => hcd (hc.trans h.symm)
            simp [strncmpEq, content_cons, hc, hd, Ne.symm hd]
          · by_cases hd : d = nul <;> simp [strncmpEq, content_cons, hcd, hc, hd]

theorem readAt_content {b : Block} (hb : nul ∈ b) {i : Nat} (hi : i < (content b).length) :
    readAt b i = some (content b)[i] := by
  obtain ⟨rest, hrest⟩ := block_eq_content hb
  have hneg : ¬ ((i : Int) < 0) := by omega
  rw [readAt, if_neg hneg, Int.toNat_natCast]
  conv_lhs => rw [hrest]
  rw [List.getElem?_append_left hi, List.getElem?_eq_getElem hi]

theorem advance_content {b : Block} (hb : nul ∈ b) {i : Nat} (hi : i ≤ (content b).length) :
    ∃ p, advance b i = some p ∧ nul ∈ p ∧ content p = (content b).drop i := by
  obtain ⟨rest, hrest⟩ := block_eq_content hb
  have hlen := content_sublist_length b
  have hin : ¬ ((i : Int) < 0 ∨ b.length < (i : Int).toNat) := by
    rw [Int.toNat_natCast]; omega
  have hdrop : b.drop i = (content b).drop i ++ nul :: rest := by
    conv_lhs => rw [hrest]
    exact List.drop_append_of_le_length hi
  refine ⟨b.drop i, by rw [advance, if_neg hin, Int.toNat_natCast], ?_, ?_⟩
  · rw [hdrop]; simp
  · rw [hdrop]
    exact content_append_nul (fun h => nul_notMem_content b (List.mem_of_mem_drop h)) rest

theorem strncpy_length (n : Nat) (src : Text) : (strncpy n src).length = n := by
  simp only [strncpy, List.length_append, List.length_take, List.length_replicate]
  omega

theorem content_strncpy {src : Text} (hsrc : nul ∉ src) (n : Nat) :
    content (strncpy n src ++ [nul]) = src.take n := by
  have htake : nul ∉ src.take n := fun h => hsrc (List.mem_of_mem_take h)
  have hshape : ∃ rest, strncpy n src ++ [nul] = src.take n ++ nul :: rest := by
    unfold strncpy
    cases n - src.length with
    | zero => exact ⟨[], by simp⟩
    | succ k => exact ⟨List.replicate k nul ++ [nul], by simp [List.replicate_succ]⟩
  obtain ⟨rest, hrest⟩ := hshape
  rw [hrest]
  exact content_append_nul htake rest

structure CString where
  block : Block
  terminated : nul ∈ block

def CString.text (s : CString) : Text := content s.block

def CString.ofText (t : Text) : CString := ⟨t ++ [nul], by simp⟩

theorem content_text (s : CString) : content s.text = s.text :=
  content_eq_self (nul_notMem_content s.block)

theorem CString.text_ofText {t : Text} (ht : nul ∉ t) : (CString.ofText t).text = t :=
  content_append_nul ht []

/-- `strstr` finds the needle somewhere in the text. -/
abbrev Occurs (needle hay : Text) : Prop := needle <:+: hay

theorem occurs_of_last_notMem {front rest p t : Text} {c : Char} (hneedle : front ++ [c] = p)
    (hc : c ∉ rest) (h : Occurs p (t ++ rest)) : Occurs p t := by
  subst hneedle
  rcases List.infix_append_iff_ne_nil.mp h with h | h | ⟨u, v, -, hv, hsplit, -, hpre⟩
  · exact h
  · exact absurd (h.subset (by simp)) hc
  · obtain ⟨w, d, rfl⟩ := List.eq_nil_or_concat v |>.resolve_left hv
    rw [List.concat_eq_append, ← List.append_assoc] at hsplit
    obtain rfl : c = d := by simpa using (List.append_inj' hsplit rfl).2
    exact absurd (hpre.subset (by simp)) hc

/-- An occurrence in two joined texts lies in one of them or crosses the joint. When no front of
the needle longer than `m` ends the first text, it crosses with at most `m` characters there. -/
theorem occurs_append_cases {needle front t : Text} {m : Nat} (hfront : ¬ Occurs needle front)
    (hborder : ∀ k ≤ front.length, m < k → front.drop (front.length - k) ≠ needle.take k)
    (h : Occurs needle (front ++ t)) :
    Occurs needle t ∨ 0 < m ∧ needle.length ≤ t.length + m := by
  rcases List.infix_append_iff_ne_nil.mp h with h | h | ⟨u, v, hu, -, hsplit, hsuffix, hprefix⟩
  · exact absurd h hfront
  · exact .inl h
  · have hulength : u.length ≤ front.length := hsuffix.length_le
    have hvlength : v.length ≤ t.length := hprefix.length_le
    have hupos : 0 < u.length := List.length_pos_iff.mpr hu
    have hneedle : needle.length = u.length + v.length := by rw [hsplit, List.length_append]
    have hshort : u.length ≤ m := by
      by_contra hlong
      apply hborder u.length hulength (by omega)
      have hdrop : front.drop (front.length - u.length) = u := (List.suffix_iff_eq_drop.mp hsuffix).symm
      rw [hdrop, hsplit, List.take_left]
    exact .inr ⟨by omega, by omega⟩

/-- `strstr`, as the place of the first occurrence. -/
def strstr (needle : Text) : Text → Option Nat
  | [] => if needle = [] then some 0 else none
  | c :: t => if needle <+: c :: t then some 0 else (strstr needle t).map (· + 1)

theorem strstr_isSome (needle hay : Text) : (strstr needle hay).isSome = true ↔ Occurs needle hay := by
  induction hay with
  | nil => by_cases h : needle = [] <;> simp [strstr, h]
  | cons c t ih =>
    rw [Occurs, List.infix_cons_iff, ← Occurs, ← ih]
    by_cases h : needle <+: c :: t <;> simp [strstr, h]

end Leyu.Framework
