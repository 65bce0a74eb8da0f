import Leyu.Mqtt.Restart

/-!
# Rules across a restart

A rule message is stored before it is looked at, and read back into a buffer of 256. The rules in
force are therefore there again after a restart exactly when the last message of the history is
well-formed and fits the buffer, or when there is nothing to lose.
-/

namespace Leyu

open Framework

def handleRules (o : Outside) (imei : Digits) (data : Text) (d : Device) : Device :=
  handleMessage o (topicGsmRules ++ imei.text) data d

def afterRules (o : Outside) (imei : Digits) (messages : List Text) (d : Device) : Device :=
  messages.foldl (fun d data => handleRules o imei data d) d

/-- A stored message gives its rules back: it is well-formed and fits the reload buffer. -/
def RulesReadable (o : Outside) (data : Text) : Prop :=
  data.length < 256 ∧ (patternsOf o data).isSome

/-- There is nothing to lose: the last well-formed message of the history asks for no rule, or
there was no rule before and no well-formed message. -/
def NothingToKeep (o : Outside) (t : RuleTable) (messages : List Text) : Prop :=
  match messages.reverse.findSome? (patternsOf o) with
  | none => t = .empty
  | some patterns => ∀ pattern ∈ patterns, (CString.ofText pattern).text = []

private theorem handleRules_flash (o : Outside) (imei : Digits) (data : Text) (d : Device) :
    (handleRules o imei data d).flash .rules = some data := by
  simp only [handleRules, handleMessage, mqttEventTask_rules, Device.nvsClose, Device.nvsSetStr,
    Device.nvsOpen, if_true, Function.update_self]

private theorem handleRules_rules (o : Outside) (imei : Digits) (data : Text) (d : Device) :
    (handleRules o imei data d).rules = rulesAfter o data d.rules := by
  simp only [handleRules, handleMessage, mqttEventTask_rules, Device.nvsClose, Device.nvsSetStr,
    Device.nvsOpen, if_true]
  exact (parseVoiceInterceptRules_frame o data d).2.2.1

private theorem afterRules_rules (o : Outside) (imei : Digits) (messages : List Text) (d : Device) :
    (afterRules o imei messages d).rules =
      (messages.reverse.findSome? (patternsOf o)).elim d.rules installRules := by
  induction messages generalizing d with
  | nil => rfl
  | cons data messages ih =>
    have hstep : (handleRules o imei data d).rules = (patternsOf o data).elim d.rules installRules :=
      handleRules_rules o imei data d
    rw [afterRules, List.foldl_cons, ← afterRules, ih, hstep, List.reverse_cons,
      List.findSome?_append]
    cases messages.reverse.findSome? (patternsOf o) with
    | some patterns => rfl
    | none => cases h : patternsOf o data <;> simp [h]

private theorem afterRules_flash (o : Outside) (imei : Digits) (messages : List Text) (data : Text)
    (d : Device) : (afterRules o imei (messages ++ [data]) d).flash .rules = some data := by
  rw [afterRules, List.foldl_append]
  exact handleRules_flash o imei data _

private theorem addInterceptRule_rules_ne_nil {pattern : Text}
    (h : (CString.ofText pattern).text ≠ []) (t : RuleTable) :
    (callManagerAddInterceptRule (.ofText pattern) false t).2.rules ≠ [] := by
  unfold callManagerAddInterceptRule
  rw [dif_neg h]
  split
  · intro hnil
    simp_all [maxInterceptRules]
  · simp

private theorem addInterceptRule_keeps (pattern : Text) {t : RuleTable} (ht : t.rules ≠ []) :
    (callManagerAddInterceptRule (.ofText pattern) false t).2.rules ≠ [] := by
  unfold callManagerAddInterceptRule
  split
  · exact ht
  · split
    · exact ht
    · simp

private theorem foldl_add_keeps (patterns : List Text) {t : RuleTable} (ht : t.rules ≠ []) :
    (patterns.foldl (fun t pattern =>
      (callManagerAddInterceptRule (.ofText pattern) false t).2) t).rules ≠ [] := by
  induction patterns generalizing t with
  | nil => exact ht
  | cons pattern patterns ih => exact ih (addInterceptRule_keeps pattern ht)

private theorem installRules_eq_empty_iff (patterns : List Text) :
    installRules patterns = .empty ↔
      ∀ pattern ∈ patterns, (CString.ofText pattern).text = [] := by
  change patterns.foldl _ RuleTable.empty = _ ↔ _
  induction patterns with
  | nil => simp
  | cons pattern patterns ih =>
    rw [List.foldl_cons, List.forall_mem_cons]
    by_cases h : (CString.ofText pattern).text = []
    · have hadd : (callManagerAddInterceptRule (.ofText pattern) false .empty).2 = .empty := by
        rw [callManagerAddInterceptRule, dif_pos h]
      rw [hadd, ih]
      exact ⟨fun hall => ⟨h, hall⟩, And.right⟩
    · constructor
      · intro hempty
        exact absurd (congrArg RuleTable.rules hempty)
          (foldl_add_keeps patterns (addInterceptRule_rules_ne_nil h .empty))
      · intro hall
        exact absurd hall.1 h

private theorem afterRules_eq_empty_iff (o : Outside) (imei : Digits) (messages : List Text)
    (d : Device) :
    (afterRules o imei messages d).rules = .empty ↔ NothingToKeep o d.rules messages := by
  rw [afterRules_rules, NothingToKeep]
  cases messages.reverse.findSome? (patternsOf o) with
  | none => rfl
  | some patterns => exact installRules_eq_empty_iff patterns

private theorem reload_of_rulesReadable {o : Outside} {flash : Flash} {data : Text}
    (hflash : flash .rules = some data) (h : RulesReadable o data) (t : RuleTable) :
    (powerUp o flash).rules = rulesAfter o data t := by
  obtain ⟨hlength, hsome⟩ := h
  obtain ⟨patterns, hpatterns⟩ := Option.isSome_iff_exists.1 hsome
  have hread : readable flash .rules = some data :=
    (readable_eq_some_iff flash .rules data).2 ⟨hflash, hlength⟩
  rw [powerUp_rules, hread]
  simp only [Option.elim_some, rulesAfter, hpatterns]

private theorem reload_of_not_rulesReadable {o : Outside} {flash : Flash} {data : Text}
    (hflash : flash .rules = some data) (h : ¬ RulesReadable o data) :
    (powerUp o flash).rules = .empty := by
  rw [powerUp_rules]
  cases hread : readable flash .rules with
  | none => rfl
  | some stored =>
    obtain ⟨hstored, hlength⟩ := (readable_eq_some_iff flash .rules stored).1 hread
    obtain rfl : data = stored := Option.some.inj (hflash.symm.trans hstored)
    have hmalformed : patternsOf o data = none := by
      by_contra hsome
      exact h ⟨hlength, Option.isSome_iff_ne_none.2 hsome⟩
    simp only [Option.elim_some, rulesAfter, hmalformed, Option.elim_none]

/-- The rules in force are there again after a restart exactly when the last message of the
history can be read back, or when there is nothing to lose. -/
theorem rulesSurvive_iff (o : Outside) (imei : Digits) (flash : Flash) (messages : List Text) :
    (powerUp o (afterRules o imei messages (powerUp o flash)).flash).rules =
        (afterRules o imei messages (powerUp o flash)).rules ↔
      (∀ data ∈ messages.getLast?, RulesReadable o data) ∨
        NothingToKeep o (powerUp o flash).rules messages := by
  rw [← afterRules_eq_empty_iff o imei messages]
  obtain rfl | ⟨messages, data, rfl⟩ := messages.eq_nil_or_concat'
  · simp [afterRules]
  · have hflash := afterRules_flash o imei messages data (powerUp o flash)
    have hlast : (∀ x ∈ (messages ++ [data]).getLast?, RulesReadable o x) ↔
        RulesReadable o data := by simp
    rw [hlast]
    by_cases h : RulesReadable o data
    · have hrules : (afterRules o imei (messages ++ [data]) (powerUp o flash)).rules =
          rulesAfter o data (afterRules o imei messages (powerUp o flash)).rules := by
        rw [afterRules, List.foldl_append]
        exact handleRules_rules o imei data _
      exact iff_of_true ((reload_of_rulesReadable hflash h _).trans hrules.symm) (.inl h)
    · rw [reload_of_not_rulesReadable hflash h]
      constructor
      · intro hempty
        exact .inr hempty.symm
      · intro hempty
        exact (hempty.resolve_left h).symm

def allowMessage : Text :=
  "\x7b\"timeStamp\":\"1\",\"serial\":\"2\",\"imei\":\"3\",\"body\":\x7b\"rules\":[\"10086\"]\x7d\x7d".toList

def ruleParser : Outside where
  cJSONParse t :=
    if t = allowMessage then
      some (.object
        [("timeStamp".toList, .string "1".toList), ("serial".toList, .string "2".toList),
          ("imei".toList, .string "3".toList),
          ("body".toList, .object [("rules".toList, .array [.string "10086".toList])])])
    else none
  sipStarts := true

/-- A rule is in force, a cut-off message arrives: the rule stays in force, and is gone after the
next restart. -/
theorem malformedRules_lost :
    (afterRules ruleParser someImei [allowMessage, "\x7b".toList]
        (powerUp ruleParser fun _ => none)).rules = installRules ["10086".toList] ∧
      (powerUp ruleParser (afterRules ruleParser someImei [allowMessage, "\x7b".toList]
        (powerUp ruleParser fun _ => none)).flash).rules = .empty ∧
      installRules ["10086".toList] ≠ .empty := by
  refine ⟨?_, ?_, by decide⟩
  · rw [afterRules_rules]
    rfl
  · refine reload_of_not_rulesReadable
      (afterRules_flash ruleParser someImei [allowMessage] "\x7b".toList _) ?_
    intro h
    exact absurd h.2 (by decide)

end Leyu
