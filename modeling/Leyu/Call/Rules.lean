import Leyu.Platform

/-!
# Intercept rules

The rule table of the call manager and its pattern matching, written over checked memory
accesses. `wildcardMatch_eq` shows that no access leaves its string and reduces the matching
to texts; `callManagerCheckIntercept_documented` reads it off for the documented pattern forms.
-/

namespace Leyu

open Framework

def maxInterceptRules : Nat := 32

def maxPhoneNumberLength : Nat := 32

/-- `intercept_rule_t`: one used slot of the rule array. -/
structure InterceptRule where
  phoneNumber : Block
  isIntercepted : Bool
  size : phoneNumber.length = maxPhoneNumberLength
  terminated : nul ∈ phoneNumber
  nonempty : content phoneNumber ≠ []
  deriving DecidableEq

/-- `g_intercept_rules` with `g_intercept_rule_count`: the used slots in order. -/
@[ext] structure RuleTable where
  rules : List InterceptRule
  bounded : rules.length ≤ maxInterceptRules
  deriving DecidableEq

def RuleTable.empty : RuleTable := ⟨[], by simp⟩

def callManagerClearInterceptRules (_ : RuleTable) : EspErr × RuleTable := (.ok, .empty)

/-- The bytes of a slot after `strncpy` and the terminator. -/
def slotBlock (phoneNumber : Text) : Block :=
  strncpy (maxPhoneNumberLength - 1) phoneNumber ++ [nul]

/-- `wildcard_match` over the memory of the two strings; `none` is an access out of bounds. -/
def wildcardMatch (pattern number : Block) : Option Bool := do
  let patLen ← strlen pattern
  let numLen ← strlen number
  if ← strcmpEq pattern ['*', nul] then
    return true
  else if (← readAt pattern ((patLen : Int) - 1)) = '*' then
    strncmpEq (patLen - 1) number pattern
  else if (← readAt pattern 0) = '*' then
    let suffix ← advance pattern 1
    let suffixLen ← strlen suffix
    if numLen < suffixLen then
      return false
    else
      strcmpEq (← advance number ((numLen : Int) - suffixLen)) suffix
  else
    strcmpEq pattern number

/-- What `wildcard_match` decides, on the texts of its two strings. -/
def textMatch (pattern number : Text) : Bool :=
  if pattern = ['*'] then true
  else if pattern.getLast? = some '*' then decide (pattern.dropLast <+: number)
  else if pattern.head? = some '*' then decide (pattern.tail <:+ number)
  else decide (pattern = number)

private theorem star_ne_nul : '*' ≠ nul := by decide

private theorem strcmpEq_star {pattern : Block} (hp : nul ∈ pattern) :
    strcmpEq pattern ['*', nul] = some (decide (content pattern = ['*'])) := by
  rw [strcmpEq_eq hp (by simp)]
  simp [content_cons, star_ne_nul]

private theorem readAt_last {pattern : Block} (hp : nul ∈ pattern) (hne : content pattern ≠ []) :
    readAt pattern (((content pattern).length : Int) - 1) =
      some ((content pattern).getLast hne) := by
  have hpos : 0 < (content pattern).length := List.length_pos_iff.mpr hne
  have hcast : ((content pattern).length : Int) - 1 = ((content pattern).length - 1 : Nat) := by
    omega
  rw [hcast, readAt_content hp (by omega), List.getLast_eq_getElem]

private theorem readAt_head {pattern : Block} (hp : nul ∈ pattern) (hne : content pattern ≠ []) :
    readAt pattern 0 = some ((content pattern).head hne) := by
  have hpos : 0 < (content pattern).length := List.length_pos_iff.mpr hne
  have h := readAt_content hp hpos
  rw [List.head_eq_getElem]
  exact h

private theorem strncmp_dropLast (pattern number : Block) :
    ((content number).take ((content pattern).length - 1) =
      (content pattern).take ((content pattern).length - 1)) ↔
      (content pattern).dropLast <+: content number := by
  rw [List.dropLast_eq_take, List.prefix_iff_eq_take]
  have hlen : ((content pattern).take ((content pattern).length - 1)).length =
      (content pattern).length - 1 := by simp
  rw [hlen]
  exact eq_comm

private theorem suffix_compare {suffix number : Block} (hs : nul ∈ suffix) (hn : nul ∈ number) :
    (if (content number).length < (content suffix).length then some false
      else do
        let tail ← advance number (((content number).length : Int) - (content suffix).length)
        strcmpEq tail suffix) = some (decide (content suffix <:+ content number)) := by
  by_cases hlt : (content number).length < (content suffix).length
  · rw [if_pos hlt]
    have hno : ¬ content suffix <:+ content number := fun h => by
      have := h.length_le
      omega
    simp [hno]
  · rw [if_neg hlt]
    have hcast : ((content number).length : Int) - (content suffix).length =
        ((content number).length - (content suffix).length : Nat) := by omega
    obtain ⟨p, hadv, hpnul, hpc⟩ :=
      advance_content hn (Nat.sub_le (content number).length (content suffix).length)
    rw [hcast, hadv]
    simp only [Option.bind_eq_bind, Option.bind_some]
    rw [strcmpEq_eq hpnul hs, hpc]
    have hiff : (content number).drop ((content number).length - (content suffix).length) =
        content suffix ↔ content suffix <:+ content number := by
      rw [List.suffix_iff_eq_drop]
      exact eq_comm
    simp only [hiff]

/-- No access of `wildcard_match` leaves its string, and it decides `textMatch`. -/
theorem wildcardMatch_eq {pattern number : Block} (hp : nul ∈ pattern) (hn : nul ∈ number)
    (hne : content pattern ≠ []) :
    wildcardMatch pattern number = some (textMatch (content pattern) (content number)) := by
  have hlast : (content pattern).getLast? = some ((content pattern).getLast hne) :=
    List.getLast?_eq_some_getLast hne
  have hhead : (content pattern).head? = some ((content pattern).head hne) :=
    List.head?_eq_some_head hne
  have hpos : 1 ≤ (content pattern).length := List.length_pos_iff.mpr hne
  obtain ⟨suffix, hadv, hsnul, hsc⟩ := advance_content hp hpos
  have htail : content suffix = (content pattern).tail := by rw [hsc, List.drop_one]
  unfold wildcardMatch textMatch
  simp only [strlen_eq hp, strlen_eq hn, strcmpEq_star hp, readAt_last hp hne,
    readAt_head hp hne, Option.bind_eq_bind, Option.bind_some, Option.pure_def, hlast, hhead,
    Option.some.injEq]
  by_cases hstar : content pattern = ['*']
  · simp only [hstar, decide_true, if_true]
  · simp only [hstar, decide_false, Bool.false_eq_true, if_false]
    by_cases hl : (content pattern).getLast hne = '*'
    · simp only [hl, if_true]
      rw [strncmpEq_eq _ hn hp]
      simp only [strncmp_dropLast]
    · simp only [hl, if_false]
      by_cases hh : (content pattern).head hne = '*'
      · simp only [hh, if_true]
        rw [show advance pattern 1 = some suffix from hadv]
        simp only [Option.bind_some, strlen_eq hsnul]
        have h := suffix_compare hsnul hn
        simp only [Option.bind_eq_bind] at h
        rw [h, htail]
      · simp only [hh, if_false]
        exact strcmpEq_eq hp hn

private theorem slotBlock_length (phoneNumber : Text) :
    (slotBlock phoneNumber).length = maxPhoneNumberLength := by
  simp [slotBlock, strncpy_length, maxPhoneNumberLength]

private theorem slotBlock_terminated (phoneNumber : Text) : nul ∈ slotBlock phoneNumber := by
  simp [slotBlock]

theorem content_slotBlock {phoneNumber : Text} (ht : nul ∉ phoneNumber) :
    content (slotBlock phoneNumber) = phoneNumber.take (maxPhoneNumberLength - 1) :=
  content_strncpy ht _

private theorem slotBlock_nonempty {phoneNumber : Text} (h : content phoneNumber ≠ []) :
    content (slotBlock phoneNumber) ≠ [] := by
  cases phoneNumber with
  | nil => simp at h
  | cons c t =>
    have hc : c ≠ nul := fun hc => h (by simp [content_cons, hc])
    simp [slotBlock, strncpy, maxPhoneNumberLength, content_cons, hc]

/-- `call_manager_add_intercept_rule`; the callers never pass a null pointer. -/
def callManagerAddInterceptRule (phoneNumber : CString) (isIntercepted : Bool) (t : RuleTable) :
    EspErr × RuleTable :=
  if h : phoneNumber.text = [] then (.invalidArg, t)
  else if hroom : maxInterceptRules ≤ t.rules.length then (.noMem, t)
  else
    let slot : InterceptRule :=
      { phoneNumber := slotBlock phoneNumber.text
        isIntercepted := isIntercepted
        size := slotBlock_length _
        terminated := slotBlock_terminated _
        nonempty := slotBlock_nonempty (by rwa [content_text]) }
    (.ok, ⟨t.rules ++ [slot], by simp; omega⟩)

/-- The rule loop of `call_manager_check_intercept`. -/
def checkRules (number : Block) : List InterceptRule → Option Bool
  | [] => some true
  | r :: rs => do
      if ← wildcardMatch r.phoneNumber number then some r.isIntercepted
      else checkRules number rs

/-- `call_manager_check_intercept`: true blocks the call; `none` is an access out of bounds. -/
def callManagerCheckIntercept (t : RuleTable) (phoneNumber : CString) : Option Bool :=
  if phoneNumber.text = [] then some true else checkRules phoneNumber.block t.rules

/-- The verdict of a rule list on a number: the flag of the first rule that matches, and
blocked when none does. -/
def firstMatch (number : Text) (rs : List InterceptRule) : Bool :=
  ((rs.find? fun r => textMatch (content r.phoneNumber) number).map (·.isIntercepted)).getD true

private theorem checkRules_eq {number : Block} (hn : nul ∈ number) (rs : List InterceptRule) :
    checkRules number rs = some (firstMatch (content number) rs) := by
  induction rs with
  | nil => rfl
  | cons r rs ih =>
    simp only [checkRules, wildcardMatch_eq r.terminated hn r.nonempty, Option.bind_eq_bind,
      Option.bind_some, ih, firstMatch, List.find?_cons]
    cases textMatch (content r.phoneNumber) (content number) <;> simp

private theorem callManagerCheckIntercept_eq (t : RuleTable) (n : CString) (hn : n.text ≠ []) :
    callManagerCheckIntercept t n = some (firstMatch n.text t.rules) := by
  rw [callManagerCheckIntercept, if_neg hn]
  exact checkRules_eq n.terminated t.rules

private theorem callManagerCheckIntercept_isSome (t : RuleTable) (n : CString) :
    (callManagerCheckIntercept t n).isSome := by
  by_cases hn : n.text = []
  · simp [callManagerCheckIntercept, hn]
  · simp [callManagerCheckIntercept_eq t n hn]

def RuleTable.intercepts (t : RuleTable) (n : CString) : Bool :=
  (callManagerCheckIntercept t n).get (callManagerCheckIntercept_isSome t n)

theorem RuleTable.intercepts_iff (t : RuleTable) (n : CString) (b : Bool) :
    t.intercepts n = b ↔ callManagerCheckIntercept t n = some b := by
  rw [RuleTable.intercepts, Option.eq_some_iff_get_eq]
  exact ⟨fun h => ⟨_, h⟩, fun ⟨_, h⟩ => h⟩

inductive PatternForm
  | any
  | startsWith (p : Text)
  | endsWith (s : Text)
  | literal (l : Text)

namespace PatternForm

def pattern : PatternForm → Text
  | any => ['*']
  | startsWith p => p ++ ['*']
  | endsWith s => '*' :: s
  | literal l => l

/-- The parts of the form are not empty, a literal has no star, and a suffix does not itself end
with one, which would make the pattern a prefix pattern. -/
def WellFormed : PatternForm → Prop
  | any => True
  | startsWith p => p ≠ []
  | endsWith s => s ≠ [] ∧ s.getLast? ≠ some '*'
  | literal l => l ≠ [] ∧ '*' ∉ l

def Matches : PatternForm → Text → Prop
  | any, _ => True
  | startsWith p, number => p <+: number
  | endsWith s, number => s <:+ number
  | literal l, number => number = l

instance : (f : PatternForm) → (number : Text) → Decidable (f.Matches number)
  | any, _ => .isTrue trivial
  | startsWith p, number => inferInstanceAs (Decidable (p <+: number))
  | endsWith s, number => inferInstanceAs (Decidable (s <:+ number))
  | literal l, number => inferInstanceAs (Decidable (number = l))

private theorem textMatch_pattern {f : PatternForm} (hf : f.WellFormed) (number : Text) :
    textMatch f.pattern number = decide (f.Matches number) := by
  rw [Bool.eq_iff_iff, decide_eq_true_iff]
  cases f with
  | any => simp [textMatch, pattern, Matches]
  | startsWith p =>
    have hne : p ++ ['*'] ≠ ['*'] := by
      intro h
      exact hf (List.append_left_eq_self.mp h)
    have hlast : (p ++ ['*']).getLast? = some '*' := List.getLast?_concat
    simp [textMatch, pattern, Matches, hne, hlast]
  | endsWith s =>
    obtain ⟨hs, hstar⟩ := hf
    have hne : '*' :: s ≠ ['*'] := by simpa using hs
    have hlast : ('*' :: s).getLast? ≠ some '*' := by
      rwa [List.getLast?_cons_of_ne_nil hs]
    simp only [textMatch, pattern, Matches, hne, hlast, if_false, List.head?_cons, if_true,
      List.tail_cons]
    exact decide_eq_true_iff
  | literal l =>
    obtain ⟨hl, hstar⟩ := hf
    have hne : l ≠ ['*'] := fun h => hstar (by simp [h])
    have hlast : l.getLast? ≠ some '*' := fun h => hstar (List.mem_of_getLast? h)
    have hhead : l.head? ≠ some '*' := fun h => hstar (List.mem_of_head? h)
    simp [textMatch, pattern, Matches, hne, hlast, hhead, eq_comm]

end PatternForm

def addRules : List (PatternForm × Bool) → RuleTable → Option RuleTable
  | [], t => some t
  | (f, flag) :: rest, t =>
      match callManagerAddInterceptRule (.ofText f.pattern) flag t with
      | (.ok, t') => addRules rest t'
      | _ => none

private theorem callManagerAddInterceptRule_ok {p : Text} {flag : Bool} {t t' : RuleTable}
    (hnul : nul ∉ p) (hfit : p.length < maxPhoneNumberLength)
    (h : callManagerAddInterceptRule (.ofText p) flag t = (.ok, t')) :
    ∃ r : InterceptRule, t'.rules = t.rules ++ [r] ∧ content r.phoneNumber = p ∧
      r.isIntercepted = flag := by
  unfold callManagerAddInterceptRule at h
  split at h
  · simp at h
  · split at h
    · simp at h
    · obtain rfl := (Prod.mk.inj h).2
      refine ⟨_, rfl, ?_, rfl⟩
      change content (slotBlock (CString.ofText p).text) = p
      rw [CString.text_ofText hnul, content_slotBlock hnul]
      exact List.take_of_length_le (by omega)

private theorem addRules_rules {adds : List (PatternForm × Bool)} {t t' : RuleTable}
    (hadds : ∀ a ∈ adds, nul ∉ a.1.pattern ∧ a.1.pattern.length < maxPhoneNumberLength)
    (h : addRules adds t = some t') :
    ∃ rs : List InterceptRule, t'.rules = t.rules ++ rs ∧
      rs.map (fun r => (content r.phoneNumber, r.isIntercepted)) =
        adds.map (fun a => (a.1.pattern, a.2)) := by
  induction adds generalizing t with
  | nil =>
    obtain rfl := Option.some.inj h
    exact ⟨[], by simp, rfl⟩
  | cons a adds ih =>
    obtain ⟨f, flag⟩ := a
    have hf := hadds (f, flag) (by simp)
    unfold addRules at h
    split at h
    · rename_i t₁ hadd
      obtain ⟨r, hr, hrp, hrf⟩ := callManagerAddInterceptRule_ok hf.1 hf.2 hadd
      obtain ⟨rs, hrs, hmap⟩ := ih (fun a ha => hadds a (by simp [ha])) h
      refine ⟨r :: rs, ?_, ?_⟩
      · rw [hrs, hr, List.append_assoc, List.singleton_append]
      · simp only [List.map_cons, hrp, hrf, hmap]
    · simp at h

private theorem firstMatch_map {number : Text} {rs : List InterceptRule}
    {adds : List (PatternForm × Bool)} (hwf : ∀ a ∈ adds, a.1.WellFormed)
    (hmap : rs.map (fun r => (content r.phoneNumber, r.isIntercepted)) =
      adds.map (fun a => (a.1.pattern, a.2))) :
    firstMatch number rs =
      ((adds.find? fun a => decide (a.1.Matches number)).map (·.2)).getD true := by
  induction rs generalizing adds with
  | nil =>
    have hnil : adds = [] := by simpa using hmap.symm
    subst adds
    rfl
  | cons r rs ih =>
    cases adds with
    | nil => simp at hmap
    | cons a adds =>
      obtain ⟨hhead, htail⟩ := List.cons.inj hmap
      obtain ⟨hp, hflag⟩ := Prod.mk.inj hhead
      have ih' := ih (fun a ha => hwf a (by simp [ha])) htail
      simp only [firstMatch, List.find?_cons] at ih' ⊢
      rw [hp, PatternForm.textMatch_pattern (hwf a (by simp)) number]
      cases decide (a.1.Matches number) with
      | true => simp [hflag]
      | false => simpa using ih'

/-- Rules added one after the other to a cleared table decide every number by the first pattern
that stands for it, and block it when there is none. No access leaves a slot or the number, and
none leaves the strings in them either: the matching also goes through on objects that end with
the terminator. -/
theorem callManagerCheckIntercept_documented (t₀ t : RuleTable)
    (adds : List (PatternForm × Bool)) (number : CString)
    (hadds : addRules adds (callManagerClearInterceptRules t₀).2 = some t)
    (hwf : ∀ a ∈ adds, a.1.WellFormed ∧ nul ∉ a.1.pattern ∧
      a.1.pattern.length ≤ maxPhoneNumberLength - 1)
    (hne : number.text ≠ []) :
    callManagerCheckIntercept t number =
        some (((adds.find? fun a => decide (a.1.Matches number.text)).map (·.2)).getD true) ∧
      ∀ r ∈ t.rules, (wildcardMatch (content r.phoneNumber ++ [nul]) (number.text ++ [nul])).isSome := by
  have hfit : ∀ a ∈ adds, nul ∉ a.1.pattern ∧ a.1.pattern.length < maxPhoneNumberLength := by
    intro a ha
    obtain ⟨-, hnul, hlen⟩ := hwf a ha
    exact ⟨hnul, Nat.lt_of_le_of_lt hlen (by decide)⟩
  obtain ⟨rs, hrs, hmap⟩ := addRules_rules hfit hadds
  have hrules : t.rules = rs := by
    rw [hrs]
    exact List.nil_append rs
  constructor
  · rw [callManagerCheckIntercept_eq t number hne, hrules,
      firstMatch_map (fun a ha => (hwf a ha).1) hmap]
  · intro r _
    have hpattern : content (content r.phoneNumber ++ [nul]) = content r.phoneNumber :=
      content_append_nul (nul_notMem_content _) []
    rw [wildcardMatch_eq (by simp) (by simp) (by rw [hpattern]; exact r.nonempty)]
    rfl

theorem callManagerCheckIntercept_documented_example :
    let adds := [(PatternForm.startsWith "0592".toList, false),
      (PatternForm.endsWith "86".toList, true), (PatternForm.any, false)]
    ∃ t, addRules adds RuleTable.empty = some t ∧
      callManagerCheckIntercept t (.ofText "059286".toList) = some false ∧
      callManagerCheckIntercept t (.ofText "10086".toList) = some true := by
  intro adds
  obtain ⟨t, ht⟩ : ∃ t, addRules adds RuleTable.empty = some t := ⟨_, rfl⟩
  have hwf : ∀ a ∈ adds, a.1.WellFormed ∧ nul ∉ a.1.pattern ∧
      a.1.pattern.length ≤ maxPhoneNumberLength - 1 := by
    simp [adds, PatternForm.WellFormed, PatternForm.pattern, maxPhoneNumberLength, nul]
  refine ⟨t, ht, ?_, ?_⟩
  · exact (callManagerCheckIntercept_documented .empty t adds _ ht hwf (by decide)).1
  · exact (callManagerCheckIntercept_documented .empty t adds _ ht hwf (by decide)).1

end Leyu
