import Leyu.Mqtt.Restart

/-!
# The service status across a restart

Switching the service on restarts the device before the message is stored, so the stored `off`
comes back; and behind readable rules no status is read back at all.
-/

namespace Leyu

open Framework

structure StatusMessage (o : Outside) where
  text : Text
  action : Bool
  wellFormed : actionOf o text = some (if action then actionOn else actionOff)

def handleStatus (o : Outside) (imei : Digits) (d : Device) (m : StatusMessage o) : Device :=
  handleMessage o (topicServiceStatus ++ imei.text) m.text d

/-- A status message takes effect for good. Switching on has to find the service on, or no status
that could be read back; switching off has to fit the reload buffer and no rules in its way. -/
def Lasting {o : Outside} (d : Device) (m : StatusMessage o) : Prop :=
  if m.action then
    d.isServiceStatus = true ∨ readable d.flash .srvStat = none ∨ readable d.flash .rules ≠ none
  else m.text.length < 256 ∧ readable d.flash .rules = none

/-- The service is off only with a stored message that switches it off. -/
def OffIsStored (o : Outside) (d : Device) : Prop :=
  d.isServiceStatus = false → ∃ t, d.flash .srvStat = some t ∧ actionOf o t = some actionOff

private theorem StatusMessage.off_iff {o : Outside} (m : StatusMessage o) :
    actionOf o m.text = some actionOff ↔ m.action = false := by
  rw [m.wellFormed]
  cases m.action <;> decide

private theorem handleStatus_running {o : Outside} (imei : Digits) {d : Device}
    (m : StatusMessage o) (h : d.isServiceStatus = true ∨ m.action = false) :
    (handleStatus o imei d m).flash = Function.update d.flash .srvStat (some m.text) ∧
      (handleStatus o imei d m).isServiceStatus = m.action := by
  obtain ⟨d', hd', hflash, hstatus⟩ : ∃ d', parseServiceStatus o m.text d = .running d' ∧
      d'.flash = d.flash ∧ d'.isServiceStatus = m.action := by
    cases hd : d.isServiceStatus with
    | true =>
      obtain ⟨d', hd', hflash, -, hstatus⟩ := parseServiceStatus_on o m.text hd
      refine ⟨d', hd', hflash, ?_⟩
      rw [hstatus]
      simp only [ne_eq, m.off_iff]
      cases m.action <;> rfl
    | false =>
      have hoff : m.action = false := h.resolve_left (by simp [hd])
      refine ⟨d, ?_, rfl, hd.trans hoff.symm⟩
      exact parseServiceStatus_off_off o hd (m.off_iff.2 hoff)
  rw [handleStatus, handleMessage, mqttEventTask_status, hd']
  simp only [Device.nvsOpen, Device.nvsSetStr, Device.nvsClose, if_true, hflash, hstatus, and_self]

private theorem handleStatus_restart {o : Outside} (imei : Digits) {d : Device}
    (m : StatusMessage o) (hoff : d.isServiceStatus = false) (hon : m.action = true) :
    handleStatus o imei d m = powerUp o d.flash := by
  have haction : actionOf o m.text = some actionOn := by
    rw [m.wellFormed, hon]
    rfl
  rw [handleStatus, handleMessage, mqttEventTask_status, parseServiceStatus_off_on o hoff haction]

private theorem offIsStored_powerUp (o : Outside) (flash : Flash) :
    OffIsStored o (powerUp o flash) := by
  intro hoff
  obtain ⟨-, t, ht, haction⟩ := (powerUp_off_iff o flash).1 hoff
  rw [powerUp_flash]
  exact ⟨t, ((readable_eq_some_iff flash .srvStat t).1 ht).1, haction⟩

private theorem offIsStored_handleStatus {o : Outside} (imei : Digits) {d : Device}
    (m : StatusMessage o) : OffIsStored o (handleStatus o imei d m) := by
  by_cases h : d.isServiceStatus = true ∨ m.action = false
  · obtain ⟨hflash, hstatus⟩ := handleStatus_running imei m h
    intro hoff
    rw [hflash]
    exact ⟨m.text, Function.update_self .., m.off_iff.2 (hstatus.symm.trans hoff)⟩
  · obtain ⟨hoff, hon⟩ := not_or.1 h
    rw [handleStatus_restart imei m (by simpa using hoff) (by simpa using hon)]
    exact offIsStored_powerUp o d.flash

private theorem offIsStored_foldl (o : Outside) (imei : Digits) (flash : Flash)
    (messages : List (StatusMessage o)) :
    OffIsStored o (messages.foldl (handleStatus o imei) (powerUp o flash)) := by
  induction messages using List.reverseRecOn with
  | nil => exact offIsStored_powerUp o flash
  | append_singleton messages m _ =>
    rw [List.foldl_append]
    exact offIsStored_handleStatus imei m

private theorem readable_update_rules (flash : Flash) (t : Text) :
    readable (Function.update flash .srvStat (some t)) .rules = readable flash .rules := by
  rw [readable, Function.update_of_ne (by decide), readable]

private theorem readable_update_srvStat (flash : Flash) (t u : Text) :
    readable (Function.update flash .srvStat (some t)) .srvStat = some u ↔
      t = u ∧ t.length < 256 := by
  rw [readable_eq_some_iff, Function.update_self, Option.some.injEq]
  constructor
  · rintro ⟨rfl, hlength⟩
    exact ⟨rfl, hlength⟩
  · rintro ⟨rfl, hlength⟩
    exact ⟨rfl, hlength⟩

private theorem status_reload_off {o : Outside} (imei : Digits) {d : Device} (m : StatusMessage o)
    (hoff : m.action = false) :
    (powerUp o (handleStatus o imei d m).flash).isServiceStatus = false ↔
      m.text.length < 256 ∧ readable d.flash .rules = none := by
  obtain ⟨hflash, -⟩ := handleStatus_running imei (d := d) m (.inr hoff)
  rw [hflash, powerUp_off_iff, readable_update_rules]
  constructor
  · intro h
    obtain ⟨hrules, t, ht, -⟩ := h
    exact ⟨((readable_update_srvStat d.flash m.text t).1 ht).2, hrules⟩
  · intro h
    obtain ⟨hlength, hrules⟩ := h
    exact ⟨hrules, m.text, (readable_update_srvStat d.flash m.text m.text).2 ⟨rfl, hlength⟩,
      m.off_iff.2 hoff⟩

private theorem status_reload_on {o : Outside} (imei : Digits) {d : Device} (m : StatusMessage o)
    (hon : m.action = true) (hd : d.isServiceStatus = true) :
    (powerUp o (handleStatus o imei d m).flash).isServiceStatus = true := by
  obtain ⟨hflash, -⟩ := handleStatus_running imei m (.inl hd)
  by_contra hne
  obtain ⟨-, t, ht, haction⟩ := (powerUp_off_iff o _).1 (Bool.eq_false_iff.2 hne)
  rw [hflash] at ht
  obtain ⟨rfl, -⟩ := (readable_update_srvStat d.flash m.text t).1 ht
  exact absurd (hon.symm.trans (m.off_iff.1 haction)) (by decide)

/-- With the service off, switching on brings the stored `off` back unless something keeps it from
being read. -/
theorem status_reload_lost {o : Outside} (imei : Digits) {d : Device} (hstored : OffIsStored o d)
    (m : StatusMessage o) (hon : m.action = true) (hd : d.isServiceStatus = false) :
    (powerUp o (handleStatus o imei d m).flash).isServiceStatus = false ↔
      readable d.flash .rules = none ∧ readable d.flash .srvStat ≠ none := by
  rw [handleStatus_restart imei m hd hon, powerUp_flash, powerUp_off_iff]
  refine and_congr_right fun _ => ?_
  constructor
  · intro h hnone
    obtain ⟨t, ht, -⟩ := h
    rw [hnone] at ht
    exact absurd ht (by simp)
  · intro h
    obtain ⟨u, hu⟩ := Option.ne_none_iff_exists'.1 h
    obtain ⟨t, ht, haction⟩ := hstored hd
    have hut : u = t := by
      have hflash := ((readable_eq_some_iff d.flash .srvStat u).1 hu).1
      exact Option.some.inj (hflash.symm.trans ht)
    exact ⟨u, hu, hut ▸ haction⟩

private theorem status_reload_iff {o : Outside} (imei : Digits) {d : Device}
    (hstored : OffIsStored o d) (m : StatusMessage o) :
    (powerUp o (handleStatus o imei d m).flash).isServiceStatus = m.action ↔ Lasting d m := by
  unfold Lasting
  cases haction : m.action with
  | false => exact status_reload_off imei m haction
  | true =>
    rw [if_pos rfl]
    cases hd : d.isServiceStatus with
    | true => exact iff_of_true (status_reload_on imei m haction hd) (.inl rfl)
    | false =>
      have hlost := status_reload_lost imei hstored m haction hd
      rw [← Bool.not_eq_false, not_congr hlost, not_and_or, not_not, or_comm]
      simp only [Bool.false_eq_true, false_or]

/-- The service status after a restart is the action of the last message exactly when that
message is lasting. -/
theorem serviceStatusSurvives_iff (o : Outside) (imei : Digits) (flash : Flash)
    (messages : List (StatusMessage o)) (m : StatusMessage o) :
    (powerUp o ((messages ++ [m]).foldl (handleStatus o imei) (powerUp o flash)).flash
        ).isServiceStatus = m.action ↔
      Lasting (messages.foldl (handleStatus o imei) (powerUp o flash)) m := by
  rw [List.foldl_append]
  exact status_reload_iff imei (offIsStored_foldl o imei flash messages) m

def onMessage : Text :=
  "\x7b\"timeStamp\":\"1\",\"serial\":\"2\",\"imei\":\"3\",\"body\":\x7b\"action\":\"on\"\x7d\x7d".toList

def offMessage : Text :=
  "\x7b\"timeStamp\":\"1\",\"serial\":\"2\",\"imei\":\"3\",\"body\":\x7b\"action\":\"off\"\x7d\x7d".toList

private def statusTree (action : Text) : Json :=
  .object
    [("timeStamp".toList, .string "1".toList), ("serial".toList, .string "2".toList),
      ("imei".toList, .string "3".toList), ("body".toList, .object [("action".toList, .string action)])]

def statusParser : Outside where
  cJSONParse t :=
    if t = onMessage then some (statusTree "on".toList)
    else if t = offMessage then some (statusTree "off".toList)
    else none
  sipStarts := true

def switchOn : StatusMessage statusParser := ⟨onMessage, true, by rfl⟩

def switchOff : StatusMessage statusParser := ⟨offMessage, false, by rfl⟩

/-- The service is switched off and on again: after the restart it is off. -/
theorem switchedOn_lost :
    (powerUp statusParser
        ([switchOff, switchOn].foldl (handleStatus statusParser someImei)
          (powerUp statusParser fun _ => none)).flash).isServiceStatus ≠ switchOn.action := by
  obtain ⟨hflash, hstatus⟩ := handleStatus_running someImei
    (d := powerUp statusParser fun _ => none) switchOff (.inr rfl)
  rw [powerUp_flash] at hflash
  have hrules : readable (handleStatus statusParser someImei (powerUp statusParser fun _ => none)
      switchOff).flash .rules = none := by
    rw [hflash, readable_update_rules]
    rfl
  have hsrvStat : readable (handleStatus statusParser someImei (powerUp statusParser fun _ => none)
      switchOff).flash .srvStat = some offMessage := by
    rw [hflash, readable_update_srvStat]
    exact ⟨rfl, by decide⟩
  have hlost := (status_reload_lost someImei (offIsStored_handleStatus someImei switchOff) switchOn rfl
    hstatus).2 ⟨hrules, by simp [hsrvStat]⟩
  rw [List.foldl_cons, List.foldl_cons, List.foldl_nil, hlost]
  decide

end Leyu
