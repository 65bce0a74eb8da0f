import Leyu.Mqtt.Restart

/-!
# The answer to a rule message

`parse_voice_intercept_rules` answers 200 to every well-formed message, whatever became of its
rules: the table takes 32 of them, a slot 31 bytes of each, and none that is empty.
-/

namespace Leyu

open Framework

def stringOf (pattern : Text) : Text := (CString.ofText pattern).text

/-- The rules in force are exactly these numbers, in this order and all allowed. -/
def AllowsExactly (t : RuleTable) (numbers : List Text) : Prop :=
  t.rules.map (fun r => (content r.phoneNumber, r.isIntercepted)) = numbers.map fun s => (s, false)

/-- An answer with the code 200 is published. -/
def Answers200 (before after : Device) : Prop :=
  ∃ response : DeviceCommandResponse, response.code = code200 ∧
    after.effects = before.effects ++ [.published response]

/-- A rule message is answered by 200 only with its strings in force, and a malformed one leaves
the rules alone. -/
def DownloadTruthful (o : Outside) (jsonStr : Text) (d : Device) : Prop :=
  match patternsOf o jsonStr with
  | some patterns =>
      Answers200 d (parseVoiceInterceptRules o jsonStr d) →
        AllowsExactly (parseVoiceInterceptRules o jsonStr d).rules (patterns.map stringOf)
  | none => (parseVoiceInterceptRules o jsonStr d).rules = d.rules

/-- What the table can take: a string that is neither empty nor longer than a slot. -/
def FitsSlot (s : Text) : Prop := s ≠ [] ∧ s.length < maxPhoneNumberLength

def ruleView (r : InterceptRule) : Text × Bool := (content r.phoneNumber, r.isIntercepted)

def addAllowed (t : RuleTable) (pattern : Text) : RuleTable :=
  (callManagerAddInterceptRule (.ofText pattern) false t).2

theorem addAllowed_cases (t : RuleTable) (pattern : Text) :
    ((stringOf pattern = [] ∨ maxInterceptRules ≤ t.rules.length) ∧ addAllowed t pattern = t) ∨
      stringOf pattern ≠ [] ∧ t.rules.length < maxInterceptRules ∧
        ∃ r, (addAllowed t pattern).rules = t.rules ++ [r] ∧
          ruleView r = ((stringOf pattern).take (maxPhoneNumberLength - 1), false) := by
  unfold addAllowed callManagerAddInterceptRule
  by_cases hempty : (CString.ofText pattern).text = []
  · rw [dif_pos hempty]
    exact .inl ⟨.inl hempty, rfl⟩
  · rw [dif_neg hempty]
    by_cases hroom : maxInterceptRules ≤ t.rules.length
    · rw [dif_pos hroom]
      exact .inl ⟨.inr hroom, rfl⟩
    · rw [dif_neg hroom]
      refine .inr ⟨hempty, by omega, _, rfl, ?_⟩
      have hcontent := content_slotBlock (nul_notMem_content (CString.ofText pattern).block)
      exact Prod.ext hcontent rfl

private theorem foldl_addAllowed_length (patterns : List Text) (t : RuleTable) :
    (patterns.foldl addAllowed t).rules.length ≤ t.rules.length + patterns.length := by
  induction patterns generalizing t with
  | nil => exact Nat.le_refl _
  | cons pattern patterns ih =>
    have hrest := ih (addAllowed t pattern)
    have hone : (addAllowed t pattern).rules.length ≤ t.rules.length + 1 := by
      rcases addAllowed_cases t pattern with ⟨-, hsame⟩ | ⟨-, -, r, hadded, -⟩
      · rw [hsame]
        exact Nat.le_succ _
      · rw [hadded, List.length_append]
        exact Nat.le_refl _
    rw [List.foldl_cons, List.length_cons]
    omega

private theorem foldl_addAllowed_prefix (patterns : List Text) (t : RuleTable) :
    t.rules <+: (patterns.foldl addAllowed t).rules := by
  induction patterns generalizing t with
  | nil => exact List.prefix_refl _
  | cons pattern patterns ih =>
    have hone : t.rules <+: (addAllowed t pattern).rules := by
      rcases addAllowed_cases t pattern with ⟨-, hsame⟩ | ⟨-, -, r, hadded, -⟩
      · rw [hsame]
      · rw [hadded]
        exact List.prefix_append _ _
    exact hone.trans (ih _)

private theorem foldl_addAllowed_iff (patterns : List Text) (t : RuleTable) :
    (patterns.foldl addAllowed t).rules.map ruleView =
        t.rules.map ruleView ++ patterns.map (fun p => (stringOf p, false)) ↔
      t.rules.length + patterns.length ≤ maxInterceptRules ∧
        ∀ p ∈ patterns, FitsSlot (stringOf p) := by
  induction patterns generalizing t with
  | nil =>
    have hbound := t.bounded
    simp [hbound]
  | cons pattern patterns ih =>
    rw [List.foldl_cons, List.forall_mem_cons, List.length_cons]
    rcases addAllowed_cases t pattern with ⟨hrefused, hsame⟩ | ⟨hne, hroom, r, hadded, hview⟩
    · -- one string is missing, and the rest cannot make up for it
      rw [hsame]
      constructor
      · intro hall
        have hlength := congrArg List.length hall
        have hbound := foldl_addAllowed_length patterns t
        simp only [List.length_map, List.length_append, List.length_cons] at hlength
        omega
      · rintro ⟨hlength, hfits, -⟩
        rcases hrefused with hempty | hfull
        · exact absurd hempty hfits.1
        · omega
    · have hmap : (addAllowed t pattern).rules.map ruleView =
          t.rules.map ruleView ++ [((stringOf pattern).take (maxPhoneNumberLength - 1), false)] := by
        rw [hadded, List.map_append, List.map_singleton, hview]
      have hcount : (addAllowed t pattern).rules.length = t.rules.length + 1 := by
        rw [hadded, List.length_append, List.length_singleton]
      have hrest := ih (addAllowed t pattern)
      rw [hmap, hcount] at hrest
      by_cases hfits : FitsSlot (stringOf pattern)
      · have htake : (stringOf pattern).take (maxPhoneNumberLength - 1) = stringOf pattern := by
          apply List.take_of_length_le
          exact Nat.le_sub_one_of_lt hfits.2
        rw [htake] at hrest
        rw [List.map_cons, List.append_cons, hrest]
        have hsum : t.rules.length + 1 + patterns.length = t.rules.length + (patterns.length + 1) := by
          omega
        rw [hsum]
        exact and_congr_right fun _ => (and_iff_right hfits).symm
      · refine iff_of_false ?_ fun h => hfits h.2.1
        intro hall
        -- the slot of the string holds less than the string
        obtain ⟨back, hback⟩ := foldl_addAllowed_prefix patterns (addAllowed t pattern)
        rw [← hback, List.map_append, hmap, List.map_cons, List.append_assoc] at hall
        have hslot := (List.cons.inj (List.append_cancel_left hall)).1
        have htake := congrArg List.length (Prod.mk.inj hslot).1
        rw [List.length_take] at htake
        apply hfits
        refine ⟨hne, ?_⟩
        unfold maxPhoneNumberLength at *
        omega

private theorem answers200_of_patterns {o : Outside} {jsonStr : Text} {patterns : List Text}
    (h : patternsOf o jsonStr = some patterns) (d : Device) :
    Answers200 d (parseVoiceInterceptRules o jsonStr d) := by
  obtain ⟨x, hx, rfl⟩ := Option.map_eq_some_iff.mp h
  unfold parseVoiceInterceptRules
  rw [hx]
  exact ⟨_, rfl, rfl⟩

/-- A rule message is answered truthfully exactly when it is malformed, or all its strings fit the
table. -/
theorem downloadTruthful_iff (o : Outside) (jsonStr : Text) (d : Device) :
    DownloadTruthful o jsonStr d ↔
      ∀ patterns ∈ patternsOf o jsonStr, patterns.length ≤ maxInterceptRules ∧
        ∀ p ∈ patterns, FitsSlot (stringOf p) := by
  unfold DownloadTruthful
  have hrules := (parseVoiceInterceptRules_frame o jsonStr d).2.2.1
  cases h : patternsOf o jsonStr with
  | none =>
    simp only [rulesAfter, h, Option.elim_none] at hrules
    exact iff_of_true hrules fun patterns hnone => nomatch hnone
  | some patterns =>
    simp only [rulesAfter, h, Option.elim_some] at hrules
    have hinstalled := foldl_addAllowed_iff patterns .empty
    have hempty : RuleTable.empty.rules = [] := rfl
    rw [hempty, List.map_nil, List.nil_append, List.length_nil, Nat.zero_add] at hinstalled
    simp only [answers200_of_patterns h d, true_implies, Option.mem_some_iff, forall_eq', hrules]
    rw [← hinstalled, AllowsExactly, List.map_map]
    rfl

def ruleTree (numbers : List Text) : Json :=
  .object [("timeStamp".toList, .string "1".toList), ("serial".toList, .string "2".toList),
    ("imei".toList, .string "3".toList),
    ("body".toList, .object [("rules".toList, .array (numbers.map .string))])]

def ruleMessage (numbers : List Text) : Text :=
  "\x7b\"timeStamp\":\"1\",\"serial\":\"2\",\"imei\":\"3\",\"body\":\x7b\"rules\":[".toList ++
    List.intercalate [','] (numbers.map fun n => '"' :: n ++ ['"']) ++ "]\x7d\x7d".toList

private theorem patternsOf_ruleMessage (numbers : List Text) :
    patternsOf (parserOf (ruleMessage numbers) (ruleTree numbers)) (ruleMessage numbers) =
      some numbers := by
  have hstrings : (numbers.map Json.string).filterMap Json.valuestring? = numbers := by
    rw [List.filterMap_map]
    exact List.filterMap_some
  have hrules : interceptRulesOf (ruleTree numbers) =
      some ("2".toList, (numbers.map Json.string).filterMap Json.valuestring?) := rfl
  unfold patternsOf
  rw [parserOf_parse, Option.bind_some, hrules, hstrings]
  rfl

private theorem untruthful_of_many {o : Outside} {jsonStr : Text} {patterns : List Text}
    (h : patternsOf o jsonStr = some patterns) (hmany : maxInterceptRules < patterns.length)
    (d : Device) : ¬ DownloadTruthful o jsonStr d := by
  intro htruthful
  unfold DownloadTruthful at htruthful
  rw [h] at htruthful
  have hlength := congrArg List.length (htruthful (answers200_of_patterns h d))
  have hbound := (parseVoiceInterceptRules o jsonStr d).rules.bounded
  simp only [List.length_map] at hlength
  omega

/-- The rules `1`, `11` and so on, one more than the table takes. -/
def manyRules : List Text := (List.range 33).map fun i => List.replicate (i + 1) '1'

theorem manyRules_untruthful :
    ¬ DownloadTruthful (parserOf (ruleMessage manyRules) (ruleTree manyRules))
      (ruleMessage manyRules) (.boot fun _ => none) := by
  apply untruthful_of_many (patternsOf_ruleMessage manyRules)
  rw [manyRules, List.length_map, List.length_range]
  decide

end Leyu
