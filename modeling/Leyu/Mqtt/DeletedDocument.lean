import Leyu.Mqtt.DocumentHandlers

/-!
# The documents of the handlers

Every handler deletes its document once. `parse_contact_sync_message` deletes it before the address
book is updated and reads the serial of its answer afterwards; no other handler reads what it has
deleted.
-/

namespace Leyu

open Framework Program

/-- Whether the power goes at one of the steps of `contact_manager_save_to_flash`. -/
def SaveWorld.losesPower (w : SaveWorld) : Bool :=
  match w.nvsOpen, w.setCount, w.setBlob, w.commit with
  | .powerLost, _, _, _ => true
  | .ok, .powerLost, _, _ => true
  | .ok, .ok, .powerLost, _ => true
  | .ok, .ok, .ok, .powerLost => true
  | _, _, _, _ => false

namespace Document

/-- The messages behind which an answer is read from the deleted document: a list with a contact
that is taken over, and the memory and the power to come to the answer. -/
def Handler.AnswersFromDeleted (o : Outside) (jsonStr : Text) : Handler → Prop
  | contactSyncMessage w =>
      ∃ serial items, (o.cJSONParse jsonStr).bind contactSyncOf = some (serial, items) ∧
        w.tempAllocates = true ∧ (∃ item ∈ items, (contactOfItem item).isSome = true) ∧
        ¬ (w.book.allocates = true ∧ w.book.save.losesPower = true)
  | _ => False

section

variable (o : Outside) (jsonStr : Text) (b : Board)

private theorem uses_stringItems (object : Node Json) (names : List Text) :
    Uses (stringItems object names : Program Board _) := (reads_stringItems object names).uses

private theorem uses_logTexts (texts : List (Node Text)) :
    Uses (logTexts texts : Program Board Unit) := (reads_logTexts texts).uses

private theorem uses_sendDeviceCommandResponse (serial : Node Text) (busi code msg cmdRes : Text) :
    Uses (sendDeviceCommandResponse serial busi code msg cmdRes) :=
  (reads_read serial).uses.bind fun _ => uses_act _

private theorem parseServiceStatus_orderly : Orderly (parseServiceStatus o jsonStr .fresh b) := by
  apply orderly_withMessage
  intro m
  apply (uses_stringItems _ _).releases
  intro items
  split
  · apply (uses_logTexts _).releases
    intro _
    apply (reads_read _).uses.releases
    intro word
    apply uses_get.releases
    intro b
    split
    · exact (uses_act _).releases fun _ => releases_release
    · split
      · exact (uses_act _).releases fun _ => releases_release
      · exact releases_release
  · exact releases_release

private theorem parseSipInfo_orderly : Orderly (parseSipInfo o jsonStr .fresh b) := by
  apply orderly_withMessage
  intro m
  apply (uses_stringItems _ _).releases
  intro items
  split
  · exact (uses_logTexts _).releases fun _ => (reads_read _).uses.releases fun _ =>
      (reads_read _).uses.releases fun _ => (reads_read _).uses.releases fun _ =>
      (uses_act _).releases fun _ => releases_release
  · exact releases_release

private theorem parseServerCommandResponse_orderly :
    Orderly (parseServerCommandResponse o jsonStr .fresh b) := by
  apply orderly_withMessage
  intro m
  apply (uses_stringItems _ _).releases
  intro items
  split
  · apply (uses_logTexts _).releases
    intro _
    apply (reads_read _).uses.releases
    intro code
    split
    · exact (uses_logTexts _).releases fun _ => releases_release
    · exact releases_release
  · exact releases_release

private theorem uses_addRule (rules : Node (List Json)) (i : Nat) : Uses (addRule rules i) := by
  apply (reads_getArrayItem rules i).uses.bind
  intro rule
  apply (reads_is Json.valuestring? rule).uses.bind
  intro rule
  cases rule with
  | none => exact (reads_pure _).uses
  | some rule => exact (reads_read rule).uses.bind fun _ => uses_act _

private theorem parseVoiceInterceptRules_orderly :
    Orderly (parseVoiceInterceptRules o jsonStr .fresh b) := by
  -- The message is stored in the flash before there is a document.
  rw [parseVoiceInterceptRules, bind_returned rfl]
  apply orderly_withMessage
  intro m
  apply (reads_getObjectItem _ _).uses.releases
  intro rules
  apply (reads_is Json.items? rules).uses.releases
  intro rules
  cases rules with
  | none => exact releases_release
  | some rules =>
    apply (uses_logTexts _).releases
    intro _
    apply (uses_act _).releases
    intro _
    apply (reads_getArraySize rules).uses.releases
    intro rulesCount
    apply (Uses.foldlM (fun _ i => uses_addRule rules i) _ ()).releases
    intro _
    exact (uses_sendDeviceCommandResponse _ _ _ _ _).releases fun _ => releases_release

private theorem acknowledgeCommand_orderly (names : List Text) (busi msg : Text) :
    Orderly (acknowledgeCommand names busi msg o jsonStr .fresh b) := by
  apply orderly_withMessage
  intro m
  apply (uses_stringItems _ _).releases
  intro items
  cases items with
  | none => exact releases_release
  | some items =>
    exact (uses_logTexts _).releases fun _ =>
      (uses_sendDeviceCommandResponse _ _ _ _ _).releases fun _ => releases_release

private theorem parseAtCommand_orderly (w : World) (responseBuffer : Text) :
    Orderly (parseAtCommand o w responseBuffer jsonStr .fresh b) := by
  apply orderly_withMessage
  intro m
  apply (uses_stringItems _ _).releases
  intro items
  split
  · apply (uses_logTexts _).releases
    intro _
    have hanswer := fun code msg cmdRes =>
      (uses_sendDeviceCommandResponse m.nodes.serial "04".toList code msg cmdRes).releases
        fun _ => releases_release
    split
    · exact hanswer _ _ _
    · split
      · apply (reads_read _).uses.releases
        intro cmd
        apply (uses_act _).releases
        intro _
        split
        · exact hanswer _ _ _
        · exact hanswer _ _ _
      · exact hanswer _ _ _
  · exact releases_release

private theorem parseKeyBindMessage_orderly (w : BindWorld) :
    Orderly (parseKeyBindMessage o w jsonStr .fresh b) := by
  rw [parseKeyBindMessage, cJSONParse, bind_returned rfl]
  cases o.cJSONParse jsonStr with
  | none => exact orderly_fresh _ b
  | some root =>
    refine Releases.orderly (p := stringItems ⟨root⟩ _ >>= _) ?_ b
    apply (uses_stringItems _ _).releases
    intro items
    split
    · exact (uses_logTexts _).releases fun _ => (reads_read _).uses.releases fun _ =>
        (reads_read _).uses.releases fun _ => (reads_read _).uses.releases fun _ =>
        (uses_act _).releases fun _ => releases_release
    · exact releases_release

private theorem parseOtaUpgradeCommand_orderly (otaStart : Text → Board → Board) :
    Orderly (parseOtaUpgradeCommand otaStart o jsonStr .fresh b) := by
  apply orderly_withMessage
  intro m
  apply (uses_stringItems _ _).releases
  intro items
  split
  · exact (uses_logTexts _).releases fun _ =>
      (uses_sendDeviceCommandResponse _ _ _ _ _).releases fun _ =>
      (reads_read _).uses.releases fun _ => (uses_act _).releases fun _ => releases_release
  · exact releases_release

private theorem contactManagerUpdate_powerLost_iff (w : BookWorld) {contacts : List ContactT}
    (hcontacts : contacts ≠ []) (s : AddressBook) :
    (contactManagerUpdate w contacts s).1 = .powerLost ↔
      w.allocates = true ∧ w.save.losesPower = true := by
  rw [contactManagerUpdate, if_neg hcontacts, updatedBook]
  cases w.allocates with
  | false => simp
  | true =>
    have hcount : contacts.length ≠ 0 := mt List.length_eq_zero_iff.1 hcontacts
    simp only [if_true, finishWithSave, contactManagerSaveToFlash, SaveWorld.losesPower, true_and,
      Option.isNone_some, Bool.false_eq_true, false_or, if_neg hcount]
    cases w.save.nvsOpen with
    | ok =>
      cases w.save.setCount with
      | ok =>
        cases w.save.setBlob with
        | ok => cases w.save.commit <;> simp
        | fails => simp
        | powerLost => simp
      | fails => simp
      | powerLost => simp
    | fails => simp
    | powerLost => simp

private theorem contactSync_orderly_iff (w : SyncWorld) :
    Orderly (parseContactSyncMessage o w jsonStr .fresh b) ↔
      ¬ (Handler.contactSyncMessage w).AnswersFromDeleted o jsonStr := by
  have hreleased : ∀ b, Orderly ((.returned (), Lifetime.fresh.acquire.release, b) :
      Ending Unit × Lifetime × Board) := releases_release.orderly
  rw [parseContactSyncMessage_run, Handler.AnswersFromDeleted]
  cases o.cJSONParse jsonStr with
  | none => exact iff_of_true (orderly_fresh _ b) (by simp)
  | some root =>
    dsimp only [Option.bind_some]
    cases contactSyncOf root with
    | none => exact iff_of_true (hreleased b) (by simp)
    | some found =>
      obtain ⟨serial, items⟩ := found
      have hfound : (∃ item ∈ items, (contactOfItem item).isSome = true) ↔
          items.filterMap contactOfItem ≠ [] := by
        simp [List.filterMap_eq_nil_iff, Option.isSome_iff_ne_none]
      dsimp only
      by_cases hskips : w.tempAllocates = false ∨ items.filterMap contactOfItem = []
      · rw [if_pos hskips]
        refine iff_of_true (hreleased b) ?_
        intro hstale
        obtain ⟨_, _, hitems, hmemory, hcontacts, -⟩ := hstale
        obtain ⟨rfl, rfl⟩ := Prod.mk.inj (Option.some.inj hitems)
        rcases hskips with hnone | hnone
        · exact nomatch hmemory.symm.trans hnone
        · exact hfound.1 hcontacts hnone
      · rw [if_neg hskips]
        obtain ⟨hmemory, hcontacts⟩ := not_or.1 hskips
        have hpower := contactManagerUpdate_powerLost_iff w.book hcontacts b.addressBook
        cases hupdate : contactManagerUpdate w.book (items.filterMap contactOfItem)
            b.addressBook with
        | mk result book =>
          rw [hupdate] at hpower
          cases result with
          | powerLost =>
            refine iff_of_true ⟨rfl, Nat.le_refl _, fun _ _ => rfl⟩ ?_
            intro hstale
            obtain ⟨_, _, -, -, -, hpowered⟩ := hstale
            exact hpowered (hpower.1 rfl)
          | returned err =>
            refine iff_of_false (fun h => nomatch h.1) (not_not.2 ?_)
            exact ⟨serial, items, rfl, (Bool.not_eq_false _).mp hmemory, hfound.2 hcontacts,
              mt hpower.2 nofun⟩

theorem handler_orderly_iff (h : Handler) :
    Orderly (h.parse o jsonStr .fresh b) ↔ ¬ h.AnswersFromDeleted o jsonStr := by
  cases h with
  | serviceStatus => exact iff_of_true (parseServiceStatus_orderly o jsonStr b) not_false
  | sipInfo => exact iff_of_true (parseSipInfo_orderly o jsonStr b) not_false
  | serverCommandResponse =>
    exact iff_of_true (parseServerCommandResponse_orderly o jsonStr b) not_false
  | voiceInterceptRules => exact iff_of_true (parseVoiceInterceptRules_orderly o jsonStr b) not_false
  | voiceCallCommand => exact iff_of_true (acknowledgeCommand_orderly o jsonStr b _ _ _) not_false
  | smsSendCommand => exact iff_of_true (acknowledgeCommand_orderly o jsonStr b _ _ _) not_false
  | atCommand w responseBuffer =>
    exact iff_of_true (parseAtCommand_orderly o jsonStr b w responseBuffer) not_false
  | keyBindMessage w => exact iff_of_true (parseKeyBindMessage_orderly o jsonStr b w) not_false
  | otaUpgradeCommand otaStart =>
    exact iff_of_true (parseOtaUpgradeCommand_orderly o jsonStr b otaStart) not_false
  | contactSyncMessage w => exact contactSync_orderly_iff o jsonStr b w

end

def oneContactTree : Json :=
  contactSyncTree ['1'] ['2'] ['3'] [contactItem (['b'], ['2'])]

def oneContactMessage : Text :=
  "\x7b\"timeStamp\":\"1\",\"serial\":\"2\",\"imei\":\"3\",\"body\":\x7b\"contacts\":[\x7b\"name\":\"b\",\"phone\":\"2\"\x7d]\x7d\x7d".toList

def Board.new : Board := ⟨.boot fun _ => none, ⟨fun _ => none, none⟩, .new, [], []⟩

/-- One contact is taken over, and the answer reads its serial from the deleted document. -/
theorem oneContact_staleAnswer :
    ((Handler.contactSyncMessage goodSync).parse (parserOf oneContactMessage oneContactTree)
        oneContactMessage .fresh Board.new).2.1 = ⟨false, 1, 1, 1⟩ ∧
      ¬ Orderly ((Handler.contactSyncMessage goodSync).parse
        (parserOf oneContactMessage oneContactTree) oneContactMessage .fresh Board.new) := by
  have hrun : ((Handler.contactSyncMessage goodSync).parse
      (parserOf oneContactMessage oneContactTree) oneContactMessage .fresh Board.new).2.1 =
        ⟨false, 1, 1, 1⟩ := by
    show (parseContactSyncMessage _ _ _ _ _).2.1 = _
    rw [parseContactSyncMessage_run, parserOf_parse]
    rfl
  refine ⟨hrun, fun h => ?_⟩
  have hstale := h.1
  rw [hrun] at hstale
  cases hstale

end Document

end Leyu
