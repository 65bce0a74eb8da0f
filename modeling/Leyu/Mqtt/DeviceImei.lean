import Leyu.Framework.Scan
import Leyu.Framework.Search
import Leyu.Modem.ErrorReply

/-!
# The identity of the device

`get_device_imei` asks the modem with AT+CGSN=1. The digits behind `+CGSN: ` are copied until the
buffer of 16 is full, so a longer number passes for one of 15 digits, and so does one whose end the
buffer of 25 for the reply has cut off; a text that cannot be parsed stays in `device_imei`.
-/

namespace Leyu

open Framework

def cgsnCommand : Text := "AT+CGSN=1".toList

def cgsnPrefix : Text := ['+', 'C', 'G', 'S', 'N', ':', ' ']

/-- What `get_device_imei` falls back on. -/
def defaultImei : Text := List.replicate 15 '1'

/-- The loop of `parse_cgsn_imei_strict`, with room for so many digits. -/
def copyDigits : Nat → Text → Text
  | 0, _ => []
  | _, [] => []
  | room + 1, c :: t => if '0' ≤ c ∧ c ≤ '9' then c :: copyDigits room t else []

/-- `parse_cgsn_imei_strict`; -1 is `none`. -/
def parseCgsnImeiStrict (atResponse : Text) (maxLen : Nat) : Option Text :=
  (strstr cgsnPrefix atResponse).bind fun i =>
    let imeiOut := copyDigits (maxLen - 1) (atResponse.drop (i + cgsnPrefix.length))
    if imeiOut.length = 15 then some imeiOut else none

/-- What the storing of the IMEI under `key_bind` finds. -/
structure ImeiWorld where
  nvsOpens : Bool
  nvsSets : Bool

structure ImeiState where
  deviceImei : Text
  nvsImei : Option Text

section

variable {σ : Type}

/-- `at_cmd_get_imei_number` into `device_imei`: what it returns, and the text that is then in the
buffer of 25. -/
def atCmdGetImeiNumber (sendOk : Bool) (events : List RxEvent) (deviceImei : Text)
    (p : AtParser CommonString σ) (s : σ) : EspErr × Text :=
  let r := atSendCustomCommand sendOk events cgsnCommand ⟨25, deviceImei⟩ p s
  (r.1, r.2.1.handleLineCtx.string)

/-- `get_device_imei`; without a handle it does nothing. -/
def getDeviceImei (atHandle : Option (AtParser CommonString σ)) (s : σ) (sendOk : Bool)
    (events : List RxEvent) (w : ImeiWorld) (d : ImeiState) : ImeiState :=
  match atHandle with
  | none => d
  | some p =>
      let reply := atCmdGetImeiNumber sendOk events d.deviceImei p s
      if reply.1 = .ok then
        let deviceImei := (parseCgsnImeiStrict reply.2 16).getD reply.2
        ⟨deviceImei, if w.nvsOpens && w.nvsSets then some deviceImei else d.nvsImei⟩
      else { d with deviceImei := defaultImei }

end

def RxEvent.text : RxEvent → Text
  | .written text => text
  | .stop => []

/-- All that the modem writes until the wait for its response is over. -/
def heard {κ σ : Type} : List RxEvent → AtParser κ σ × σ → Text
  | [], _ => []
  | e :: es, x => if x.1.rspBit || x.1.stoppedBit then [] else e.text ++ heard es (e.step x)

/-- The text that the modem returns for the command, with its echo and all its lines. -/
def cgsnText {σ : Type} (events : List RxEvent) (deviceImei : Text) (p : AtParser CommonString σ)
    (s : σ) : Text :=
  heard events (sendCommandStart handleString ⟨25, deviceImei⟩ p, s)

/-- The text reports this IMEI: `+CGSN: ` and a run of exactly 15 digits. -/
def Reports (t imei : Text) : Prop :=
  ∃ front back, t = front ++ cgsnPrefix ++ (imei ++ back) ∧ imei.length = 15 ∧
    (∀ c ∈ imei, c.isDigit = true) ∧ NoDigitHead back

/-- The digits behind each `+CGSN: `. -/
def runs : Text → List Text
  | [] => []
  | c :: t =>
      if cgsnPrefix <+: c :: t then
        ((c :: t).drop cgsnPrefix.length).takeWhile Char.isDigit :: runs t
      else runs t

/-- The digits behind the first `+CGSN: `. -/
def firstRun (t : Text) : Option Text :=
  (strstr cgsnPrefix t).map fun i => (t.drop (i + cgsnPrefix.length)).takeWhile Char.isDigit

private theorem copyDigits_eq (room : Nat) (t : Text) :
    copyDigits room t = (t.takeWhile Char.isDigit).take room := by
  induction room generalizing t with
  | zero => simp [copyDigits]
  | succ room ih =>
    cases t with
    | nil => rfl
    | cons c t =>
      have hdigit : ('0' ≤ c ∧ c ≤ '9') ↔ c.isDigit = true := by
        simp only [Char.isDigit, Bool.and_eq_true, decide_eq_true_eq, Char.le_def]
      by_cases hc : c.isDigit = true
      · simp [copyDigits, hdigit, hc, ih]
      · simp [copyDigits, hdigit, hc]

private theorem parse_eq (t : Text) :
    parseCgsnImeiStrict t 16 =
      (firstRun t).bind fun run => if 15 ≤ run.length then some (run.take 15) else none := by
  unfold parseCgsnImeiStrict firstRun
  cases strstr cgsnPrefix t with
  | none => rfl
  | some i =>
    simp only [Option.bind_some, Option.map_some, copyDigits_eq, List.length_take]
    congr 1
    apply propext
    omega

private theorem mem_runs_iff {t run : Text} :
    run ∈ runs t ↔ ∃ front back, t = front ++ cgsnPrefix ++ (run ++ back) ∧
      (∀ c ∈ run, c.isDigit = true) ∧ NoDigitHead back := by
  induction t with
  | nil => simp [runs, cgsnPrefix]
  | cons c t ih =>
    have hrest : (∃ front back, c :: t = front ++ cgsnPrefix ++ (run ++ back) ∧
        (∀ c ∈ run, c.isDigit = true) ∧ NoDigitHead back) ↔
        (∃ back, c :: t = cgsnPrefix ++ (run ++ back) ∧ (∀ c ∈ run, c.isDigit = true) ∧
          NoDigitHead back) ∨ run ∈ runs t := by
      rw [ih]
      constructor
      · intro hrun
        obtain ⟨front, back, hsplit, hdigits, hback⟩ := hrun
        cases front with
        | nil => exact .inl ⟨back, hsplit, hdigits, hback⟩
        | cons a front => exact .inr ⟨front, back, (List.cons.inj hsplit).2, hdigits, hback⟩
      · rintro (⟨back, hsplit, hdigits, hback⟩ | ⟨front, back, rfl, hdigits, hback⟩)
        · exact ⟨[], back, hsplit, hdigits, hback⟩
        · exact ⟨c :: front, back, rfl, hdigits, hback⟩
    rw [hrest, runs]
    split
    · rename_i hpre
      obtain ⟨u, hu⟩ := hpre
      rw [← hu, List.drop_left, List.mem_cons]
      refine or_congr_left ⟨?_, ?_⟩
      · rintro rfl
        exact ⟨u.dropWhile Char.isDigit, by rw [List.takeWhile_append_dropWhile],
          fun c hc => List.mem_takeWhile_imp hc, noDigitHead_dropWhile u⟩
      · intro hrun
        obtain ⟨back, hsplit, hdigits, hback⟩ := hrun
        rw [List.append_cancel_left hsplit]
        exact (takeWhile_digits hdigits hback).symm
    · rename_i hpre
      refine ⟨.inr, ?_⟩
      rintro (⟨back, hsplit, -⟩ | hmem)
      · exact absurd ⟨_, hsplit.symm⟩ hpre
      · exact hmem

private theorem reports_iff_mem {t imei : Text} :
    Reports t imei ↔ imei ∈ runs t ∧ imei.length = 15 := by
  rw [mem_runs_iff]
  constructor
  · intro hreports
    obtain ⟨front, back, hsplit, hlen, hdigits, hback⟩ := hreports
    exact ⟨⟨front, back, hsplit, hdigits, hback⟩, hlen⟩
  · intro hmem
    obtain ⟨⟨front, back, hsplit, hdigits, hback⟩, hlen⟩ := hmem
    exact ⟨front, back, hsplit, hlen, hdigits, hback⟩

instance (t imei : Text) : Decidable (Reports t imei) := decidable_of_iff' _ reports_iff_mem

/-- The first 15 digits behind the first `+CGSN: ` of what is left of the reply are all the digits
behind a `+CGSN: ` of the reply itself: neither the buffer nor the loop has cut off any. -/
def WholeRun (reply text : Text) : Prop :=
  ∃ run, firstRun reply = some run ∧ 15 ≤ run.length ∧ run.take 15 ∈ runs text

private theorem WholeRun.reports {reply text : Text} (h : WholeRun reply text) :
    ∃ run, firstRun reply = some run ∧ 15 ≤ run.length ∧ Reports text (run.take 15) := by
  obtain ⟨run, hrun, hlong, hmem⟩ := h
  exact ⟨run, hrun, hlong, reports_iff_mem.mpr ⟨hmem, List.length_take_of_le hlong⟩⟩

private theorem wholeRun_iff_parsed {reply text : Text} :
    WholeRun reply text ↔
      ∃ imei, parseCgsnImeiStrict reply 16 = some imei ∧ Reports text imei := by
  constructor
  · intro hwhole
    obtain ⟨run, hrun, hlong, hreports⟩ := hwhole.reports
    exact ⟨run.take 15, by simp [parse_eq, hrun, hlong], hreports⟩
  · intro hparsed
    obtain ⟨imei, himei, hreports⟩ := hparsed
    rw [parse_eq] at himei
    obtain ⟨run, hrun, hcut⟩ := Option.bind_eq_some_iff.mp himei
    obtain ⟨hlong, heq⟩ := Option.ite_none_right_eq_some.mp hcut
    obtain rfl := Option.some.inj heq
    exact ⟨run, hrun, hlong, (reports_iff_mem.mp hreports).1⟩

section

variable {σ : Type} (p : AtParser CommonString σ) (s : σ) (sendOk : Bool)
  (events : List RxEvent) (w : ImeiWorld) (d : ImeiState)

/-- The parser succeeds exactly when the text that the modem returns reports an IMEI, and the device
then has the reported IMEI, or the default when there is none. -/
def DeviceImeiOk : Prop :=
  let reply := atCmdGetImeiNumber sendOk events d.deviceImei p s
  let text := cgsnText events d.deviceImei p s
  let imei := (getDeviceImei (some p) s sendOk events w d).deviceImei
  (reply.1 = .ok →
    ((parseCgsnImeiStrict reply.2 16).isSome ↔ ∃ reported, Reports text reported)) ∧
  ((reply.1 = .ok ∧ Reports text imei) ∨
    (reply.1 = .ok → ∀ reported, ¬ Reports text reported) ∧ imei = defaultImei)

/-- The device has a valid IMEI exactly when the command fails, or it leaves the default itself and
the modem has reported none, or the run that is parsed is a whole one. -/
theorem deviceImeiOk_iff :
    DeviceImeiOk p s sendOk events w d ↔
      let reply := atCmdGetImeiNumber sendOk events d.deviceImei p s
      let text := cgsnText events d.deviceImei p s
      reply.1 = .ok →
        reply.2 = defaultImei ∧ (∀ run ∈ runs text, run.length ≠ 15) ∨ WholeRun reply.2 text := by
  have hnone (text : Text) : (∀ run ∈ runs text, run.length ≠ 15) ↔
      ∀ reported, ¬ Reports text reported := by
    simp only [reports_iff_mem, not_and]
  by_cases hok : (atCmdGetImeiNumber sendOk events d.deviceImei p s).1 = .ok
  · have himei : (getDeviceImei (some p) s sendOk events w d).deviceImei =
        (parseCgsnImeiStrict (atCmdGetImeiNumber sendOk events d.deviceImei p s).2 16).getD
          (atCmdGetImeiNumber sendOk events d.deviceImei p s).2 := by
      simp only [getDeviceImei, hok, if_true]
    simp only [DeviceImeiOk, himei, hok, true_implies, true_and, hnone, wholeRun_iff_parsed]
    generalize (atCmdGetImeiNumber sendOk events d.deviceImei p s).2 = t
    generalize cgsnText events d.deviceImei p s = text
    cases hparsed : parseCgsnImeiStrict t 16 with
    | none =>
      constructor
      · rintro ⟨hparses, h | ⟨hnot, hdefault⟩⟩
        · exact absurd (hparses.mpr ⟨_, h⟩) (by decide)
        · exact .inl ⟨hdefault, hnot⟩
      · rintro (⟨hdefault, hnot⟩ | ⟨imei, himei, -⟩)
        · exact ⟨by simp [hnot], .inr ⟨hnot, hdefault⟩⟩
        · cases himei
    | some imei =>
      constructor
      · rintro ⟨hparses, h | ⟨hnot, -⟩⟩
        · exact .inr ⟨imei, rfl, h⟩
        · obtain ⟨reported, hreported⟩ := hparses.mp rfl
          exact absurd hreported (hnot reported)
      · rintro (⟨rfl, -⟩ | ⟨_, ⟨rfl⟩, hreports⟩)
        · have hfails : parseCgsnImeiStrict defaultImei 16 = none := by decide
          rw [hfails] at hparsed
          cases hparsed
        · exact ⟨iff_of_true rfl ⟨imei, hreports⟩, .inl hreports⟩
  · have himei : (getDeviceImei (some p) s sendOk events w d).deviceImei = defaultImei := by
      simp only [getDeviceImei, hok, if_false]
    refine iff_of_true ?_ fun h => absurd h hok
    exact ⟨fun h => absurd h hok, .inr ⟨fun h => absurd h hok, himei⟩⟩

end

/-- A number of 16 digits: the first 15 of them become the identity of the device. -/
def longNumber : List RxEvent :=
  [.written "AT+CGSN=1\r\r\n+CGSN: 8604250000000012\r\n\r\nOK\r\n".toList]

theorem longNumber_accepted :
    (getDeviceImei (some startedParser) () true longNumber ⟨true, true⟩ ⟨[], none⟩).deviceImei =
      "860425000000001".toList ∧
    ¬ DeviceImeiOk startedParser () true longNumber ⟨true, true⟩ ⟨[], none⟩ := by
  have hreply : atCmdGetImeiNumber true longNumber [] startedParser () =
      (.ok, "+CGSN: 8604250000000012".toList) := by decide
  refine ⟨by decide, ?_⟩
  rw [deviceImeiOk_iff, hreply]
  intro h
  rcases h rfl with ⟨hdefault, -⟩ | ⟨run, hrun, -, hmem⟩
  · exact absurd hdefault (by decide)
  · have hfirst : firstRun "+CGSN: 8604250000000012".toList = some "8604250000000012".toList := by
      decide
    obtain rfl := Option.some.inj (hfirst.symm.trans hrun)
    exact absurd hmem (by decide)

end Leyu
