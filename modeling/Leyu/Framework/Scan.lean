import Leyu.Framework.CString
import Mathlib.Data.List.DropRight

/-!
# Directives of `sscanf`

Each directive consumes a front part of the text and fails where the C function stops the
conversion. The rules say what a directive consumes in front of a known continuation.
-/

namespace Leyu.Framework

def isSpace (c : Char) : Bool := c = ' ' || (decide ('\t' ≤ c) && decide (c ≤ '\r'))

/-- A blank in the format skips any white space, also none. -/
def skipSpace (t : Text) : Text := t.dropWhile isSpace

def lit (c : Char) : Text → Option Text
  | [] => none
  | d :: t => if d = c then some t else none

def lits : Text → Text → Option Text
  | [], t => some t
  | c :: cs, t => (lit c t).bind (lits cs)

def digitsValue (ds : Text) : Nat := ds.foldl (fun n c => 10 * n + (c.toNat - 48)) 0

private def scanDigits (t : Text) : Option (Nat × Text) :=
  if t.takeWhile Char.isDigit = [] then none
  else some (digitsValue (t.takeWhile Char.isDigit), t.dropWhile Char.isDigit)

/-- `%d`: white space, a sign, digits. -/
def scanInt (t : Text) : Option (Int × Text) :=
  match skipSpace t with
  | '-' :: r => (scanDigits r).map fun x => (-(x.1 : Int), x.2)
  | '+' :: r => (scanDigits r).map fun x => ((x.1 : Int), x.2)
  | r => (scanDigits r).map fun x => ((x.1 : Int), x.2)

/-- `%[^q]`: at least one character up to `q` or the end of the text. -/
def scanUntil (q : Char) (t : Text) : Option Text :=
  if t.takeWhile (· ≠ q) = [] then none else some (t.takeWhile (· ≠ q))

structure Digits where
  text : Text
  nonempty : text ≠ []
  digits : ∀ c ∈ text, c.isDigit = true

def NoDigitHead (t : Text) : Prop := ∀ c ∈ t.head?, c.isDigit = false

theorem lit_cons (c : Char) (t : Text) : lit c (c :: t) = some t := by simp [lit]

theorem lits_append (cs t : Text) : lits cs (cs ++ t) = some t := by
  induction cs with
  | nil => rfl
  | cons c cs ih => simp [lits, lit, ih]

theorem lits_eq_some {cs t r : Text} (h : lits cs t = some r) : t = cs ++ r := by
  induction cs generalizing t with
  | nil => simpa [lits] using h
  | cons c cs ih =>
    cases t with
    | nil => simp [lits, lit] at h
    | cons d t =>
      by_cases hd : d = c
      · subst d
        simp only [lits, lit, if_true, Option.bind_some] at h
        rw [ih h, List.cons_append]
      · simp [lits, lit, hd] at h

theorem takeWhile_digits {ds r : Text} (hd : ∀ c ∈ ds, c.isDigit = true)
    (hr : NoDigitHead r) : (ds ++ r).takeWhile Char.isDigit = ds := by
  rw [List.takeWhile_append_of_pos hd]
  cases r with
  | nil => simp
  | cons c r => simp [hr c rfl]

private theorem dropWhile_digits {ds r : Text} (hd : ∀ c ∈ ds, c.isDigit = true)
    (hr : NoDigitHead r) : (ds ++ r).dropWhile Char.isDigit = r := by
  rw [List.dropWhile_append_of_pos hd]
  cases r with
  | nil => simp
  | cons c r => simp [hr c rfl]

private theorem isSpace_of_isDigit {c : Char} (h : c.isDigit = true) : isSpace c = false := by
  simp only [Char.isDigit, Bool.and_eq_true, decide_eq_true_eq] at h
  simp only [isSpace, Bool.or_eq_false_iff, Bool.and_eq_false_iff, decide_eq_false_iff_not]
  refine ⟨?_, .inr ?_⟩
  · rintro rfl
    exact absurd h.1 (by decide)
  · intro hle
    exact absurd (UInt32.le_trans h.1 hle) (by decide)

theorem scanInt_digits (d : Digits) {r : Text} (hr : NoDigitHead r) :
    scanInt (d.text ++ r) = some ((digitsValue d.text : Int), r) := by
  obtain ⟨ds, hne, hd⟩ := d
  cases ds with
  | nil => exact absurd rfl hne
  | cons d ds =>
    have hdd : d.isDigit = true := hd d (by simp)
    have hskip : skipSpace (d :: ds ++ r) = d :: ds ++ r := by
      simp [skipSpace, isSpace_of_isDigit hdd]
    have hscan : scanDigits (d :: ds ++ r) = some (digitsValue (d :: ds), r) := by
      rw [scanDigits, takeWhile_digits hd hr, dropWhile_digits hd hr]
      simp
    have hminus : d ≠ '-' := by rintro rfl; exact absurd hdd (by decide)
    have hplus : d ≠ '+' := by rintro rfl; exact absurd hdd (by decide)
    unfold scanInt
    rw [hskip]
    split
    · rename_i h
      exact absurd (List.cons.inj h).1 hminus
    · rename_i h
      exact absurd (List.cons.inj h).1 hplus
    · rw [hscan]
      rfl

theorem scanInt_skipSpace (t : Text) : scanInt (skipSpace t) = scanInt t := by
  unfold scanInt
  rw [show skipSpace (skipSpace t) = skipSpace t from List.dropWhile_idempotent _ _]

theorem scanInt_space {c : Char} (hc : isSpace c = true) (t : Text) :
    scanInt (c :: t) = scanInt t := by
  rw [← scanInt_skipSpace (c :: t), ← scanInt_skipSpace t]
  simp [skipSpace, hc]

theorem scanUntil_append {q : Char} {t : Text} (ht : q ∉ t) (r : Text) :
    scanUntil q (t ++ q :: r) = if t = [] then none else some t := by
  have htake : (t ++ q :: r).takeWhile (· ≠ q) = t := by
    rw [List.takeWhile_append_of_pos (by
      intro c hc
      have hne : c ≠ q := fun h => ht (h ▸ hc)
      simpa using hne)]
    simp
  rw [scanUntil, htake]

theorem lit_eq_some_iff {c : Char} {t r : Text} : lit c t = some r ↔ t = c :: r := by
  cases t with
  | nil => simp [lit]
  | cons d t => by_cases h : d = c <;> simp [lit, h]

theorem lits_eq_some_iff {cs t r : Text} : lits cs t = some r ↔ t = cs ++ r := by
  constructor
  · exact lits_eq_some
  · rintro rfl
    exact lits_append cs r

/-- What `%d` converts: white space, a sign, digits. -/
inductive IntText : Int → Text → Prop
  | plain {ws : Text} (d : Digits) (hws : ∀ c ∈ ws, isSpace c = true) :
      IntText (digitsValue d.text) (ws ++ d.text)
  | minus {ws : Text} (d : Digits) (hws : ∀ c ∈ ws, isSpace c = true) :
      IntText (-(digitsValue d.text : Int)) (ws ++ '-' :: d.text)
  | plus {ws : Text} (d : Digits) (hws : ∀ c ∈ ws, isSpace c = true) :
      IntText (digitsValue d.text) (ws ++ '+' :: d.text)

private theorem scanDigits_append (d : Digits) {r : Text} (hr : NoDigitHead r) :
    scanDigits (d.text ++ r) = some (digitsValue d.text, r) := by
  rw [scanDigits, takeWhile_digits d.digits hr, dropWhile_digits d.digits hr, if_neg d.nonempty]

theorem noDigitHead_dropWhile (t : Text) : NoDigitHead (t.dropWhile Char.isDigit) := by
  intro c hc
  have hhead := List.head?_dropWhile_not Char.isDigit t
  rw [Option.mem_def.mp hc] at hhead
  exact hhead

private theorem scanDigits_eq_some {t r : Text} {n : Nat} (h : scanDigits t = some (n, r)) :
    ∃ d : Digits, t = d.text ++ r ∧ n = digitsValue d.text ∧ NoDigitHead r := by
  unfold scanDigits at h
  split at h
  · cases h
  · rename_i hne
    obtain ⟨rfl, rfl⟩ := Prod.mk.inj (Option.some.inj h)
    refine ⟨⟨t.takeWhile Char.isDigit, hne, ?_⟩, ?_, rfl, noDigitHead_dropWhile t⟩
    · intro c hc
      exact List.mem_takeWhile_imp hc
    · exact List.takeWhile_append_dropWhile.symm

private theorem scanInt_skip {ws : Text} (hws : ∀ c ∈ ws, isSpace c = true) (t : Text) :
    scanInt (ws ++ t) = scanInt t := by
  rw [← scanInt_skipSpace (ws ++ t), ← scanInt_skipSpace t, skipSpace, skipSpace,
    List.dropWhile_append_of_pos hws]

/-- `%d` converts a front part of the text that is a number, and as many digits as there are. -/
theorem scanInt_eq_some_iff {t r : Text} {v : Int} :
    scanInt t = some (v, r) ↔ ∃ s, IntText v s ∧ t = s ++ r ∧ NoDigitHead r := by
  constructor
  · intro h
    have hws : ∀ c ∈ t.takeWhile isSpace, isSpace c = true := fun c hc => List.mem_takeWhile_imp hc
    have ht : t = t.takeWhile isSpace ++ skipSpace t := List.takeWhile_append_dropWhile.symm
    unfold scanInt at h
    split at h
    all_goals
      obtain ⟨⟨n, r'⟩, hdigits, heq⟩ := Option.map_eq_some_iff.mp h
      obtain ⟨rfl, rfl⟩ := Prod.mk.inj heq
      obtain ⟨d, hsplit, rfl, hr⟩ := scanDigits_eq_some hdigits
    · rename_i r hskip
      refine ⟨_, .minus d hws, ?_, hr⟩
      rw [hsplit] at hskip
      conv_lhs => rw [ht, hskip]
      simp
    · rename_i r hskip
      refine ⟨_, .plus d hws, ?_, hr⟩
      rw [hsplit] at hskip
      conv_lhs => rw [ht, hskip]
      simp
    · refine ⟨_, .plain d hws, ?_, hr⟩
      conv_lhs => rw [ht, hsplit]
      simp
  · intro htext
    obtain ⟨s, hs, rfl, hr⟩ := htext
    cases hs with
    | plain d hws => rw [List.append_assoc, scanInt_skip hws, scanInt_digits d hr]
    | minus d hws =>
      rw [List.append_assoc, scanInt_skip hws, List.cons_append]
      simp [scanInt, skipSpace, isSpace, scanDigits_append d hr]
    | plus d hws =>
      rw [List.append_assoc, scanInt_skip hws, List.cons_append]
      simp [scanInt, skipSpace, isSpace, scanDigits_append d hr]

/-- `%[^q]` converts at least one character, up to `q` or the end of the text. -/
theorem scanUntil_eq_some_iff {q : Char} {t n : Text} :
    scanUntil q t = some n ↔
      n ≠ [] ∧ q ∉ n ∧ ∃ r, t = n ++ r ∧ ∀ c ∈ r.head?, c = q := by
  unfold scanUntil
  constructor
  · intro h
    split at h
    · cases h
    · rename_i hne
      obtain rfl := Option.some.inj h
      refine ⟨hne, ?_, t.dropWhile (· ≠ q), List.takeWhile_append_dropWhile.symm, ?_⟩
      · intro hq
        simpa using List.mem_takeWhile_imp hq
      · intro c hc
        have hhead := List.head?_dropWhile_not (fun c => decide (c ≠ q)) t
        rw [Option.mem_def.mp hc] at hhead
        simpa using hhead
  · intro htext
    obtain ⟨hne, hq, r, rfl, hr⟩ := htext
    have htake : (n ++ r).takeWhile (· ≠ q) = n := by
      rw [List.takeWhile_append_of_pos (by
        intro c hc
        have hc' : c ≠ q := fun h => hq (h ▸ hc)
        simpa using hc')]
      cases r with
      | nil => simp
      | cons c r => simp [hr c rfl]
    rw [htake, if_neg hne]

end Leyu.Framework
