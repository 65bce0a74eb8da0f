import Leyu.Mqtt.RuleReload
import Leyu.Mqtt.StatusReload

/-!
# The reload at start-up, item by item

`mqtt_flash_load` once more, with a record of the items it hands to their handlers. The handler of
the rules closes the handle through which the service status would be read next, so a stored
status is applied only when no rules are stored.
-/

namespace Leyu

open Framework

/-- What comes next is done only when the function before it has returned. -/
def Outcome.andThen (next : Device → Outcome) : Outcome → Outcome
  | .running d => next d
  | .restarted flash => .restarted flash

def Outcome.nvsClose (r : Outcome) : Outcome := r.andThen fun d => .running d.nvsClose

def applyItem (o : Outside) : FlashItem → Text → Device → Outcome
  | .sipInfo, t, d => .running (parseSipInfo o t d)
  | .rules, t, d => .running (parseVoiceInterceptRules o t d)
  | .srvStat, t, d => parseServiceStatus o t d

def applyItems (o : Outside) : List (FlashItem × Text) → Device → Outcome
  | [], d => .running d
  | (item, t) :: rest, d => (applyItem o item t d).andThen (applyItems o rest)

def itemLog (item : FlashItem) (read : Option Text) : List (FlashItem × Text) :=
  read.toList.map fun t => (item, t)

/-- `mqtt_flash_load` with the list of its handler calls. -/
def mqttFlashLoadLogged (o : Outside) (d : Device) : Outcome × List (FlashItem × Text) :=
  let d := d.nvsOpen
  let sipInfo := d.nvsGetStr .sipInfo
  let d := sipInfo.elim d fun sipInfo => parseSipInfo o sipInfo d
  let rules := d.nvsGetStr .rules
  let d := rules.elim d fun rules => parseVoiceInterceptRules o rules d
  let srvStat := d.nvsGetStr .srvStat
  let r := srvStat.elim (.running d) fun srvStat => parseServiceStatus o srvStat d
  (r.nvsClose, itemLog .sipInfo sipInfo ++ itemLog .rules rules ++ itemLog .srvStat srvStat)

def appliedTexts (item : FlashItem) (log : List (FlashItem × Text)) : List Text :=
  (log.filter fun x => x.1 = item).map Prod.snd

/-- Each stored item goes to its handler once, an item that is not stored never. -/
def ReloadComplete (flash : Flash) (log : List (FlashItem × Text)) : Prop :=
  ∀ item, appliedTexts item log = (flash item).toList

/-- What the handler of an item takes for well-formed. -/
def WellFormedItem (o : Outside) : FlashItem → Text → Prop
  | .sipInfo, t => ((o.cJSONParse t).bind sipInfoOf).isSome
  | .rules, t => ((o.cJSONParse t).bind interceptRulesOf).isSome
  | .srvStat, t => ((o.cJSONParse t).bind serviceActionOf).isSome

private theorem mqttFlashLoadLogged_fst (o : Outside) (d : Device) :
    (mqttFlashLoadLogged o d).1 = mqttFlashLoad o d := rfl

private theorem applyItems_append (o : Outside) (xs ys : List (FlashItem × Text)) (d : Device) :
    applyItems o (xs ++ ys) d = (applyItems o xs d).andThen (applyItems o ys) := by
  induction xs generalizing d with
  | nil => rfl
  | cons x xs ih =>
    have hx : ∀ d', applyItems o (xs ++ ys) d' = (applyItems o xs d').andThen (applyItems o ys) :=
      fun d' => ih d'
    simp only [List.cons_append, applyItems]
    cases applyItem o x.1 x.2 d with
    | running d' => exact hx d'
    | restarted flash => rfl

private theorem applyItems_itemLog (o : Outside) (item : FlashItem) (read : Option Text)
    (d : Device) :
    applyItems o (itemLog item read) d = read.elim (.running d) fun t => applyItem o item t d := by
  cases read with
  | none => rfl
  | some t =>
    show (applyItem o item t d).andThen (applyItems o []) = applyItem o item t d
    cases applyItem o item t d <;> rfl

private theorem elim_running (read : Option Text) (f : Text → Device) (d : Device) :
    read.elim (.running d) (fun t => .running (f t)) = Outcome.running (read.elim d f) := by
  cases read <;> rfl

/-- The record is the whole reload: calling the recorded handlers in their order gives what
`mqtt_flash_load` gives. -/
theorem mqttFlashLoad_eq_applyItems (o : Outside) (d : Device) :
    mqttFlashLoad o d = (applyItems o (mqttFlashLoadLogged o d).2 d.nvsOpen).nvsClose := by
  rw [← mqttFlashLoadLogged_fst]
  simp only [mqttFlashLoadLogged, applyItems_append, applyItems_itemLog, applyItem, elim_running,
    Outcome.andThen]

private theorem mqttFlashLoadLogged_snd (o : Outside) (d : Device) :
    (mqttFlashLoadLogged o d).2 =
      itemLog .sipInfo (readable d.flash .sipInfo) ++ itemLog .rules (readable d.flash .rules) ++
        itemLog .srvStat
          (if readable d.flash .rules = none then readable d.flash .srvStat else none) := by
  have hsip : d.nvsOpen.nvsGetStr .sipInfo = readable d.flash .sipInfo :=
    nvsGetStr_open (d := d.nvsOpen) rfl .sipInfo
  simp only [mqttFlashLoadLogged, hsip]
  generalize hd₁ : (readable d.flash .sipInfo).elim d.nvsOpen
    (fun sipInfo => parseSipInfo o sipInfo d.nvsOpen) = d₁
  have hframe : d₁.flash = d.flash ∧ d₁.handleOpen = true := by
    subst hd₁
    cases readable d.flash .sipInfo with
    | none => exact ⟨rfl, rfl⟩
    | some t =>
      have h := parseSipInfo_frame o t d.nvsOpen
      exact ⟨h.1, h.2.1⟩
  have hrules : d₁.nvsGetStr .rules = readable d.flash .rules := by
    rw [nvsGetStr_open hframe.2, hframe.1]
  rw [hrules]
  cases readable d.flash .rules with
  | none =>
    have hstatus : d₁.nvsGetStr .srvStat = readable d.flash .srvStat := by
      rw [nvsGetStr_open hframe.2, hframe.1]
    simp only [Option.elim_none, hstatus, if_true]
  | some t =>
    have hclosed := (parseVoiceInterceptRules_frame o t d₁).2.1
    have hstatus : (parseVoiceInterceptRules o t d₁).nvsGetStr .srvStat = none :=
      nvsGetStr_closed hclosed .srvStat
    simp only [Option.elim_some, hstatus, reduceCtorEq, if_false]

private theorem appliedTexts_append (item : FlashItem) (xs ys : List (FlashItem × Text)) :
    appliedTexts item (xs ++ ys) = appliedTexts item xs ++ appliedTexts item ys := by
  simp only [appliedTexts, List.filter_append, List.map_append]

private theorem appliedTexts_itemLog (item other : FlashItem) (read : Option Text) :
    appliedTexts item (itemLog other read) = if other = item then read.toList else [] := by
  cases read with
  | none => simp [appliedTexts, itemLog]
  | some t => by_cases h : other = item <;> simp [appliedTexts, itemLog, h]

private theorem readable_of_short {flash : Flash} {item : FlashItem}
    (hshort : ∀ t ∈ flash item, t.length < 256) : readable flash item = flash item := by
  cases hitem : flash item with
  | none => simp [readable, hitem]
  | some t => exact (readable_eq_some_iff flash item t).2 ⟨hitem, hshort t hitem⟩

/-- With every stored item well-formed and short, the reload is complete exactly when the rules
and the service status are not both stored. -/
theorem reloadComplete_iff (o : Outside) (d : Device)
    (hitems : ∀ item, ∀ t ∈ d.flash item, WellFormedItem o item t ∧ t.length < 256) :
    ReloadComplete d.flash (mqttFlashLoadLogged o d).2 ↔
      d.flash .rules = none ∨ d.flash .srvStat = none := by
  have hread : ∀ item, readable d.flash item = d.flash item := fun item =>
    readable_of_short fun t ht => (hitems item t ht).2
  have happlied : ∀ item, appliedTexts item (mqttFlashLoadLogged o d).2 =
      if item = .srvStat ∧ d.flash .rules ≠ none then [] else (d.flash item).toList := by
    intro item
    simp only [mqttFlashLoadLogged_snd, appliedTexts_append, appliedTexts_itemLog, hread]
    cases item with
    | sipInfo => simp
    | rules => simp
    | srvStat => by_cases h : d.flash .rules = none <;> simp [h]
  constructor
  · intro hcomplete
    have hstatus := hcomplete .srvStat
    rw [happlied] at hstatus
    by_cases hrules : d.flash .rules = none
    · exact .inl hrules
    · rw [if_pos ⟨rfl, hrules⟩] at hstatus
      exact .inr (Option.toList_eq_nil_iff.1 hstatus.symm)
  · intro h item
    rw [happlied]
    by_cases hlost : item = .srvStat ∧ d.flash .rules ≠ none
    · have hnone : d.flash .srvStat = none := h.resolve_left hlost.2
      rw [if_pos hlost, hlost.1, hnone]
      rfl
    · rw [if_neg hlost]

def rulesFlash : Flash
  | .rules => some allowMessage
  | _ => none

theorem reloadComplete_rules :
    ReloadComplete rulesFlash (mqttFlashLoadLogged ruleParser (.boot rulesFlash)).2 := by
  apply (reloadComplete_iff ruleParser (.boot rulesFlash) _).2 (.inr rfl)
  intro item t ht
  cases item with
  | sipInfo => cases ht
  | srvStat => cases ht
  | rules =>
    obtain rfl : allowMessage = t := Option.some.inj ht
    exact ⟨rfl, by decide⟩

def sipMessage : Text :=
  "\x7b\"timeStamp\":\"1\",\"serial\":\"2\",\"imei\":\"3\",\"body\":\x7b\"host\":\"h\",\"user\":\"u\",\"passwd\":\"p\"\x7d\x7d".toList

def storedParser : Outside where
  cJSONParse t :=
    if t = sipMessage then
      some (.object
        [("timeStamp".toList, .string "1".toList), ("serial".toList, .string "2".toList),
          ("imei".toList, .string "3".toList),
          ("body".toList, .object
            [("host".toList, .string "h".toList), ("user".toList, .string "u".toList),
              ("passwd".toList, .string "p".toList)])])
    else (ruleParser.cJSONParse t).or (statusParser.cJSONParse t)
  sipStarts := true

def storedFlash : Flash
  | .sipInfo => some sipMessage
  | .rules => some allowMessage
  | .srvStat => some offMessage

/-- Everything stored is well-formed and short, but the stored status is never applied: after the
start the service is on. -/
theorem storedStatus_lost :
    (∀ item, ∀ t ∈ storedFlash item, WellFormedItem storedParser item t ∧ t.length < 256) ∧
      ¬ ReloadComplete storedFlash (mqttFlashLoadLogged storedParser (.boot storedFlash)).2 ∧
      (powerUp storedParser storedFlash).isServiceStatus = true := by
  have hread : readable storedFlash .rules = some allowMessage :=
    (readable_eq_some_iff storedFlash .rules allowMessage).2 ⟨rfl, by decide⟩
  refine ⟨?_, ?_, ?_⟩
  · intro item t ht
    cases item with
    | sipInfo =>
      obtain rfl : sipMessage = t := Option.some.inj ht
      exact ⟨rfl, by decide⟩
    | rules =>
      obtain rfl : allowMessage = t := Option.some.inj ht
      exact ⟨rfl, by decide⟩
    | srvStat =>
      obtain rfl : offMessage = t := Option.some.inj ht
      exact ⟨rfl, by decide⟩
  · intro hcomplete
    have hstatus := hcomplete .srvStat
    rw [mqttFlashLoadLogged_snd] at hstatus
    simp only [appliedTexts_append, appliedTexts_itemLog, Device.boot, hread] at hstatus
    exact absurd hstatus (by decide)
  · rw [← Bool.not_eq_false]
    intro hoff
    have hnone := ((powerUp_off_iff storedParser storedFlash).1 hoff).1
    rw [hread] at hnone
    exact absurd hnone (by simp)

end Leyu
