import Leyu.Mqtt.EventTask

/-!
# Settings across a restart

What of the server's settings comes back after a restart and `mqtt_flash_load`. The rules come
back from the last message stored, well-formed or not, if it fits the reload buffer; the service
status is not stored by the message that restarts the device, and is not read at all behind
readable rules.
-/

namespace Leyu

open Framework

def powerUp (o : Outside) (flash : Flash) : Device :=
  match mqttFlashLoad o (.boot flash) with
  | .running d => d
  | .restarted flash => .boot flash

/-- The device handles a message; after a restart it loads its settings. -/
def handleMessage (o : Outside) (topic data : Text) (d : Device) : Device :=
  match mqttEventTask o topic data d with
  | .running d => d
  | .restarted flash => powerUp o flash

/-- What `mqtt_flash_load` can read of an item before the rules are parsed. -/
def readable (flash : Flash) (item : FlashItem) : Option Text :=
  (flash item).filter fun value => decide (value.length < 256)

def patternsOf (o : Outside) (jsonStr : Text) : Option (List Text) :=
  ((o.cJSONParse jsonStr).bind interceptRulesOf).map (·.2)

def rulesAfter (o : Outside) (jsonStr : Text) (t : RuleTable) : RuleTable :=
  (patternsOf o jsonStr).elim t installRules

theorem readable_eq_some_iff (flash : Flash) (item : FlashItem) (t : Text) :
    readable flash item = some t ↔ flash item = some t ∧ t.length < 256 := by
  simp [readable, Option.filter_eq_some_iff]

theorem parseSipInfo_frame (o : Outside) (jsonStr : Text) (d : Device) :
    (parseSipInfo o jsonStr d).flash = d.flash ∧
      (parseSipInfo o jsonStr d).handleOpen = d.handleOpen ∧
      (parseSipInfo o jsonStr d).rules = d.rules ∧
      (parseSipInfo o jsonStr d).isServiceStatus = d.isServiceStatus := by
  unfold parseSipInfo
  cases (o.cJSONParse jsonStr).bind sipInfoOf with
  | none => exact ⟨rfl, rfl, rfl, rfl⟩
  | some x => cases d.espSip <;> exact ⟨rfl, rfl, rfl, rfl⟩

theorem parseVoiceInterceptRules_frame (o : Outside) (jsonStr : Text) (d : Device) :
    (parseVoiceInterceptRules o jsonStr d).flash =
        Function.update d.flash .rules (some jsonStr) ∧
      (parseVoiceInterceptRules o jsonStr d).handleOpen = false ∧
      (parseVoiceInterceptRules o jsonStr d).rules = rulesAfter o jsonStr d.rules ∧
      (parseVoiceInterceptRules o jsonStr d).isServiceStatus = d.isServiceStatus := by
  unfold parseVoiceInterceptRules rulesAfter patternsOf
  cases (o.cJSONParse jsonStr).bind interceptRulesOf <;> exact ⟨rfl, rfl, rfl, rfl⟩

def actionOf (o : Outside) (jsonStr : Text) : Option Text :=
  (o.cJSONParse jsonStr).bind serviceActionOf

/-- With the service on, a status message never restarts the device; it switches the service off
when that is its action. -/
theorem parseServiceStatus_on (o : Outside) (jsonStr : Text) {d : Device}
    (hon : d.isServiceStatus = true) :
    ∃ d', parseServiceStatus o jsonStr d = .running d' ∧ d'.flash = d.flash ∧
      d'.rules = d.rules ∧
      d'.isServiceStatus = decide (actionOf o jsonStr ≠ some actionOff) := by
  unfold parseServiceStatus actionOf
  cases (o.cJSONParse jsonStr).bind serviceActionOf with
  | none => exact ⟨d, rfl, rfl, rfl, by simp [hon]⟩
  | some action =>
    by_cases hoff : action = actionOff
    · subst hoff
      have hne : ¬ (actionOff = actionOn ∧ d.isServiceStatus = false) := fun h =>
        absurd h.1 (by decide)
      simp only [hon, and_self, if_true, controlDeviceByServiceStatus,
        Bool.false_eq_true, if_false]
      exact ⟨_, rfl, rfl, rfl, by simp [Device.emit]⟩
    · have hne : ¬ (action = actionOn ∧ d.isServiceStatus = false) := fun h =>
        absurd (hon.symm.trans h.2) (by decide)
      have hne' : ¬ (action = actionOff ∧ d.isServiceStatus = true) := fun h => hoff h.1
      simp only [if_neg hne, if_neg hne']
      exact ⟨d, rfl, rfl, rfl, by simp [hon, hoff]⟩

theorem parseServiceStatus_off_off (o : Outside) {jsonStr : Text} {d : Device}
    (hoff : d.isServiceStatus = false) (haction : actionOf o jsonStr = some actionOff) :
    parseServiceStatus o jsonStr d = .running d := by
  have hne : actionOff ≠ actionOn := by decide
  rw [actionOf] at haction
  rw [parseServiceStatus, haction]
  simp only [hne, false_and, hoff, Bool.false_eq_true, and_false, if_false]

theorem parseServiceStatus_off_on (o : Outside) {jsonStr : Text} {d : Device}
    (hoff : d.isServiceStatus = false) (haction : actionOf o jsonStr = some actionOn) :
    parseServiceStatus o jsonStr d = .restarted d.flash := by
  rw [actionOf] at haction
  rw [parseServiceStatus, haction]
  simp only [hoff, and_self, if_true, controlDeviceByServiceStatus]

theorem nvsGetStr_open {d : Device} (hopen : d.handleOpen = true) (item : FlashItem) :
    d.nvsGetStr item = readable d.flash item := by
  simp only [Device.nvsGetStr, hopen, if_true, readable]

theorem nvsGetStr_closed {d : Device} (hclosed : d.handleOpen = false)
    (item : FlashItem) : d.nvsGetStr item = none := by
  simp only [Device.nvsGetStr, hclosed, Bool.false_eq_true, if_false]

private theorem loadSipInfo_frame (o : Outside) (flash : Flash) (d : Device)
    (hd : d = ((Device.boot flash).nvsOpen.nvsGetStr .sipInfo).elim (Device.boot flash).nvsOpen
      fun sipInfo => parseSipInfo o sipInfo (Device.boot flash).nvsOpen) :
    d.flash = flash ∧ d.handleOpen = true ∧ d.rules = .empty ∧ d.isServiceStatus = true := by
  subst hd
  cases (Device.boot flash).nvsOpen.nvsGetStr .sipInfo with
  | none => exact ⟨rfl, rfl, rfl, rfl⟩
  | some t => exact parseSipInfo_frame o t (Device.boot flash).nvsOpen

private theorem loadRules_frame (o : Outside) {d : Device} (hopen : d.handleOpen = true)
    (hrules : d.rules = .empty) (d' : Device)
    (hd' : d' = (d.nvsGetStr .rules).elim d fun rules => parseVoiceInterceptRules o rules d) :
    d'.flash = d.flash ∧ d'.isServiceStatus = d.isServiceStatus ∧
      d'.rules = ((readable d.flash .rules).elim .empty fun t => rulesAfter o t .empty) ∧
      d'.nvsGetStr .srvStat =
        if readable d.flash .rules = none then readable d.flash .srvStat else none := by
  subst hd'
  rw [nvsGetStr_open hopen]
  cases hread : readable d.flash .rules with
  | none => exact ⟨rfl, rfl, hrules, by simpa using nvsGetStr_open hopen .srvStat⟩
  | some t =>
    obtain ⟨hflash, hclosed, hr, hstatus⟩ := parseVoiceInterceptRules_frame o t d
    have hsame : Function.update d.flash .rules (some t) = d.flash := by
      rw [← ((readable_eq_some_iff d.flash .rules t).1 hread).1, Function.update_eq_self]
    refine ⟨hflash.trans hsame, hstatus, ?_, ?_⟩
    · rw [hrules] at hr
      exact hr
    · simpa using nvsGetStr_closed hclosed .srvStat

/-- `mqtt_flash_load` never restarts the device, since the service is on after a start. What
comes back: everything stored is still stored; the rules are those of the stored message, if it
can be read; the service is off exactly when the stored status message can be read, no stored
rule message can, and its action is to switch off. -/
theorem mqttFlashLoad_boot (o : Outside) (flash : Flash) :
    ∃ d, mqttFlashLoad o (.boot flash) = .running d ∧ d.flash = flash ∧
      d.rules = ((readable flash .rules).elim .empty fun t => rulesAfter o t .empty) ∧
      (d.isServiceStatus = false ↔ readable flash .rules = none ∧
        ∃ t ∈ readable flash .srvStat, actionOf o t = some actionOff) := by
  unfold mqttFlashLoad
  simp only []
  generalize hd₁ : ((Device.boot flash).nvsOpen.nvsGetStr .sipInfo).elim
    (Device.boot flash).nvsOpen (fun sipInfo => parseSipInfo o sipInfo _) = d₁
  obtain ⟨hflash₁, hopen₁, hrules₁, hon₁⟩ := loadSipInfo_frame o flash d₁ hd₁.symm
  generalize hd₂ : (d₁.nvsGetStr .rules).elim d₁
    (fun rules => parseVoiceInterceptRules o rules d₁) = d₂
  obtain ⟨hflash₂, hon₂, hrules₂, hread₂⟩ := loadRules_frame o hopen₁ hrules₁ d₂ hd₂.symm
  rw [hflash₁] at hflash₂ hrules₂ hread₂
  rw [hon₁] at hon₂
  rw [hread₂]
  by_cases hnone : readable flash .rules = none
  · rw [if_pos hnone]
    cases readable flash .srvStat with
    | none => exact ⟨_, rfl, hflash₂, hrules₂, by simp [Device.nvsClose, hon₂]⟩
    | some t =>
      obtain ⟨d₃, hd₃, hflash₃, hrules₃, hstatus₃⟩ := parseServiceStatus_on o t hon₂
      refine ⟨d₃.nvsClose, by simp only [Option.elim, hd₃], hflash₃.trans hflash₂,
        hrules₃.trans hrules₂, ?_⟩
      simp [Device.nvsClose, hstatus₃, hnone]
  · rw [if_neg hnone]
    exact ⟨_, rfl, hflash₂, hrules₂, by simp [Device.nvsClose, hon₂, hnone]⟩

@[simp] theorem powerUp_flash (o : Outside) (flash : Flash) : (powerUp o flash).flash = flash := by
  obtain ⟨d, hd, hflash, -, -⟩ := mqttFlashLoad_boot o flash
  simp only [powerUp, hd, hflash]

theorem powerUp_rules (o : Outside) (flash : Flash) :
    (powerUp o flash).rules =
      (readable flash .rules).elim .empty fun t => rulesAfter o t .empty := by
  obtain ⟨d, hd, -, hrules, -⟩ := mqttFlashLoad_boot o flash
  simp only [powerUp, hd, hrules]

theorem powerUp_off_iff (o : Outside) (flash : Flash) :
    (powerUp o flash).isServiceStatus = false ↔ readable flash .rules = none ∧
      ∃ t ∈ readable flash .srvStat, actionOf o t = some actionOff := by
  obtain ⟨d, hd, -, -, hstatus⟩ := mqttFlashLoad_boot o flash
  simp only [powerUp, hd, hstatus]

def someImei : Digits := ⟨"860000000000001".toList, by decide, List.all_eq_true.mp rfl⟩

end Leyu
