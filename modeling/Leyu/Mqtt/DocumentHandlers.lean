import Leyu.Contacts.Sync
import Leyu.Mqtt.AtCommand
import Leyu.Mqtt.Document
import Leyu.Mqtt.Handlers
import Leyu.Mqtt.KeyBind

/-!
# The handlers and their documents

The ten handlers of `mqtt_msg_parser.c` as programs over the document they parse. What they do to
the device is what the functions on trees say that other modules work with.
-/

namespace Leyu

open Framework Program

def Device.publish (responses : List DeviceCommandResponse) (d : Device) : Device :=
  responses.foldl (fun d response => d.emit (.published response)) d

namespace Document

/-- What the handlers work on besides the document. -/
structure Board where
  device : Device
  keyStore : KeyStore
  addressBook : AddressBook
  bindResponses : List BindResponse
  atCommands : List Text

def mapDevice (f : Device → Device) : Program Board Unit :=
  modify fun b => { b with device := f b.device }

/-- `send_device_command_response`, which copies the serial into its own message. -/
def sendDeviceCommandResponse (serial : Node Text) (busi code msg cmdRes : Text) :
    Program Board Unit := do
  let oriSerial ← read serial
  mapDevice (·.emit (.published ⟨oriSerial, busi, code, msg, cmdRes⟩))

/-- `control_device_by_service_status`, which on switching on ends in `esp_restart`. -/
def controlDevice (action : Bool) (b : Board) : Ending Unit × Board :=
  match controlDeviceByServiceStatus action { b.device with isServiceStatus := action } with
  | .running d => (.returned (), { b with device := d })
  | .restarted flash => (.halted, { b with device := .boot flash })

def parseServiceStatus (o : Outside) (jsonStr : Text) : Program Board Unit :=
  withMessage o jsonStr fun m => do
    match ← stringItems m.body ["action".toList] with
    | some [action] => do
        logTexts [action]
        let word ← read action
        let b ← get
        if word = actionOn ∧ b.device.isServiceStatus = false then act (controlDevice true)
        else if word = actionOff ∧ b.device.isServiceStatus = true then act (controlDevice false)
        cJSONDelete
    | _ => cJSONDelete

def restartSip (o : Outside) (uri : Text) (d : Device) : Device :=
  let d := if d.espSip then d.emit .sipServiceStop else d
  { d.emit (.sipServiceStart uri) with espSip := o.sipStarts }

def parseSipInfo (o : Outside) (jsonStr : Text) : Program Board Unit :=
  withMessage o jsonStr fun m => do
    match ← stringItems m.body ["host".toList, "user".toList, "passwd".toList] with
    | some [host, user, passwd] => do
        logTexts [host, user, passwd]
        let user ← read user
        let passwd ← read passwd
        let host ← read host
        mapDevice (restartSip o (sipUri host user passwd))
        cJSONDelete
    | _ => cJSONDelete

def parseServerCommandResponse (o : Outside) (jsonStr : Text) : Program Board Unit :=
  withMessage o jsonStr fun m => do
    match ← stringItems m.body ["oriSerial".toList, "busi".toList, "code".toList, "msg".toList] with
    | some [oriSerial, busi, code, msg] => do
        logTexts [m.timeStamp, m.serial, m.imei, oriSerial, busi, code, msg]
        let code ← read code
        if code ≠ code200 then logTexts [msg]
        cJSONDelete
    | _ => cJSONDelete

def cJSONGetArraySize (array : Node (List Json)) : Program Board Nat := do
  let items ← read array
  pure items.length

def cJSONGetArrayItem (array : Node (List Json)) (i : Nat) :
    Program Board (Option (Node Json)) := do
  let items ← read array
  pure (items[i]?.map .mk)

def addRule (rules : Node (List Json)) (i : Nat) : Program Board Unit := do
  let rule ← cJSONGetArrayItem rules i
  match ← cJSONIsString rule with
  | none => pure ()
  | some rule => do
      let pattern ← read rule
      mapDevice fun d =>
        { d with rules := (callManagerAddInterceptRule (.ofText pattern) false d.rules).2 }

def parseVoiceInterceptRules (o : Outside) (jsonStr : Text) : Program Board Unit := do
  mapDevice fun d => (d.nvsOpen.nvsSetStr .rules jsonStr).nvsClose
  withMessage o jsonStr fun m => do
    let rules ← cJSONGetObjectItem m.body "rules".toList
    match ← cJSONIs Json.items? rules with
    | none => cJSONDelete
    | some rules => do
        logTexts [m.timeStamp, m.serial, m.imei]
        mapDevice fun d => { d with rules := (callManagerClearInterceptRules d.rules).2 }
        let rulesCount ← cJSONGetArraySize rules
        (List.range rulesCount).foldlM (fun _ i => addRule rules i) ()
        sendDeviceCommandResponse m.serial "01".toList code200 "规则设置成功".toList "9000".toList
        cJSONDelete

/-- A command that is logged and answered, and not carried out. -/
def acknowledgeCommand (names : List Text) (busi msg : Text) (o : Outside) (jsonStr : Text) :
    Program Board Unit :=
  withMessage o jsonStr fun m => do
    match ← stringItems m.body names with
    | none => cJSONDelete
    | some texts => do
        logTexts ([m.timeStamp, m.serial, m.imei] ++ texts)
        sendDeviceCommandResponse m.serial busi code200 msg "9000".toList
        cJSONDelete

def parseVoiceCallCommand : Outside → Text → Program Board Unit :=
  acknowledgeCommand ["phone".toList] "02".toList "语音呼叫成功".toList

def parseSmsSendCommand : Outside → Text → Program Board Unit :=
  acknowledgeCommand ["phone".toList, "content".toList] "03".toList "短信发送成功".toList

def parseAtCommand (o : Outside) (w : World) (responseBuffer jsonStr : Text) : Program Board Unit :=
  withMessage o jsonStr fun m => do
    match ← stringItems m.body ["cmd".toList] with
    | some [cmd] => do
        logTexts [m.timeStamp, m.serial, m.imei, cmd]
        if w.atBuffers = false then
          sendDeviceCommandResponse m.serial "04".toList code500 "AT句柄或缓冲区未初始化".toList
            "9001".toList
          cJSONDelete
        else do
          if w.atMutex then do
            let cmd ← read cmd
            modify fun b => { b with atCommands := b.atCommands ++ [remoteCommand cmd] }
            if w.atReturn = .ok then
              sendDeviceCommandResponse m.serial "04".toList code200 "AT指令执行成功".toList
                responseBuffer
            else
              sendDeviceCommandResponse m.serial "04".toList code500 "AT指令执行失败".toList
                "9001".toList
          else
            sendDeviceCommandResponse m.serial "04".toList code500 "系统繁忙无法发送AT指令".toList
              "9001".toList
          cJSONDelete
    | _ => cJSONDelete

def keyTexts (key1 key2 key3 : Text) : KeySlot → Text
  | .key1 => key1
  | .key2 => key2
  | .key3 => key3

def parseKeyBindMessage (o : Outside) (w : BindWorld) (jsonStr : Text) : Program Board Unit := do
  match ← cJSONParse o jsonStr with
  | none => pure ()
  | some root => do
      match ← stringItems root ["key1".toList, "key2".toList, "key3".toList] with
      | some [key1, key2, key3] => do
          logTexts [key1, key2, key3]
          let key1 ← read key1
          let key2 ← read key2
          let key3 ← read key3
          modify fun b =>
            let r := bindKeys w (keyTexts (content key1) (content key2) (content key3)) b.keyStore
            { b with keyStore := r.1, bindResponses := b.bindResponses ++ [r.2] }
          cJSONDelete
      | _ => cJSONDelete

/-- `parse_ota_upgrade_command`; `otaStart` stands for `ota_start` of the OTA library, which is
given the URL for the time of its call and whose result is only logged. -/
def parseOtaUpgradeCommand (otaStart : Text → Board → Board) (o : Outside)
    (jsonStr : Text) : Program Board Unit :=
  withMessage o jsonStr fun m => do
    match ← stringItems m.body ["version".toList, "url".toList] with
    | some [version, url] => do
        logTexts [m.timeStamp, m.serial, m.imei, version, url]
        sendDeviceCommandResponse m.serial "05".toList code200 "OTA升级指令接收成功".toList
          "9000".toList
        let url ← read url
        modify (otaStart url)
        cJSONDelete
    | _ => cJSONDelete

def readContact (contacts : Node (List Json)) (i : Nat) : Program Board (Option ContactT) := do
  let item ← cJSONGetArrayItem contacts i
  match ← cJSONIs Json.object? item with
  | none => pure none
  | some item => do
      match ← stringItems item ["name".toList, "phone".toList] with
      | some [name, phone] => do
          let name ← read name
          if (content name).length = 0 ∨ 32 ≤ (content name).length then pure none
          else do
            let phone ← read phone
            if (content phone).length = 0 ∨ 16 ≤ (content phone).length then pure none
            else pure (some (.ofTexts (content name) (content phone)))
      | _ => pure none

/-- The loop that fills the array `temp_contacts`. -/
def readContacts (contacts : Node (List Json)) (contactCount : Nat) :
    Program Board (List ContactT) :=
  (List.range contactCount).foldlM (fun tempContacts i => do
    let contact ← readContact contacts i
    pure (tempContacts ++ contact.toList)) []

def updateContacts (w : BookWorld) (contacts : List ContactT) (b : Board) : Ending EspErr × Board :=
  match contactManagerUpdate w contacts b.addressBook with
  | (.returned err, book) => (.returned err, { b with addressBook := book })
  | (.powerLost, book) => (.halted, { b with addressBook := book })

def parseContactSyncMessage (o : Outside) (w : SyncWorld) (jsonStr : Text) : Program Board Unit :=
  withMessage o jsonStr fun m => do
    logTexts [m.timeStamp, m.serial, m.imei]
    let contacts ← cJSONGetObjectItem m.body "contacts".toList
    match ← cJSONIs Json.items? contacts with
    | none => cJSONDelete
    | some contacts => do
        let contactCount ← cJSONGetArraySize contacts
        if contactCount = 0 ∨ 1000 < contactCount then cJSONDelete
        else if w.tempAllocates = false then cJSONDelete
        else do
          let tempContacts ← readContacts contacts contactCount
          cJSONDelete
          if tempContacts = [] then pure ()
          else do
            let ret ← act (updateContacts w.book tempContacts)
            -- The serial is a node of the tree that has been deleted.
            if ret = .ok then
              sendDeviceCommandResponse m.serial "09".toList code200 "通讯录同步成功".toList
                "9000".toList
            else
              sendDeviceCommandResponse m.serial "09".toList code500 "通讯录同步失败".toList
                "9000".toList

/-- The handlers, each with what it finds outside. -/
inductive Handler
  | serviceStatus
  | sipInfo
  | serverCommandResponse
  | voiceInterceptRules
  | voiceCallCommand
  | smsSendCommand
  | atCommand (w : World) (responseBuffer : Text)
  | keyBindMessage (w : BindWorld)
  | otaUpgradeCommand (otaStart : Text → Board → Board)
  | contactSyncMessage (w : SyncWorld)

def Handler.parse (o : Outside) (jsonStr : Text) : Handler → Program Board Unit
  | serviceStatus => parseServiceStatus o jsonStr
  | sipInfo => parseSipInfo o jsonStr
  | serverCommandResponse => parseServerCommandResponse o jsonStr
  | voiceInterceptRules => parseVoiceInterceptRules o jsonStr
  | voiceCallCommand => parseVoiceCallCommand o jsonStr
  | smsSendCommand => parseSmsSendCommand o jsonStr
  | atCommand w responseBuffer => parseAtCommand o w responseBuffer jsonStr
  | keyBindMessage w => parseKeyBindMessage o w jsonStr
  | otaUpgradeCommand otaStart => parseOtaUpgradeCommand otaStart o jsonStr
  | contactSyncMessage w => parseContactSyncMessage o w jsonStr

section

variable (o : Outside) (jsonStr : Text) (b : Board)

theorem reads_getArraySize (array : Node (List Json)) :
    Reads (cJSONGetArraySize array) array.target.length :=
  (reads_read array).bind (reads_pure _)

theorem reads_getArrayItem (array : Node (List Json)) (i : Nat) :
    Reads (cJSONGetArrayItem array i) (array.target[i]?.map .mk) :=
  (reads_read array).bind (reads_pure _)

private theorem reads_readContact (contacts : Node (List Json)) (i : Nat) :
    Reads (readContact contacts i) (contacts.target[i]?.bind contactOfItem) := by
  refine (reads_getArrayItem contacts i).bind ?_
  refine (reads_isItem Json.object? contacts.target[i]?).bind ?_
  cases contacts.target[i]? with
  | none => exact reads_pure _
  | some item =>
    dsimp only [Option.bind_some, contactOfItem]
    cases item.object? with
    | none => exact reads_pure _
    | some item =>
      refine (reads_stringItems ⟨item⟩ _).bind ?_
      rw [List.mapM_cons, List.mapM_cons, List.mapM_nil]
      dsimp only [Option.bind_eq_bind, Option.bind_some]
      cases item.stringItem "name".toList with
      | none => exact reads_pure (none : Option ContactT)
      | some name =>
        cases item.stringItem "phone".toList with
        | none => exact reads_pure (none : Option ContactT)
        | some phone =>
          refine (reads_read ⟨name⟩).bind ?_
          show Reads _ (if Admissible (content name, content phone) then
            some (ContactT.ofTexts (content name) (content phone)) else none)
          have hadmissible : Admissible (content name, content phone) ↔
              ¬ ((content name).length = 0 ∨ 32 ≤ (content name).length) ∧
                ¬ ((content phone).length = 0 ∨ 16 ≤ (content phone).length) := by
            dsimp only [Admissible]
            omega
          by_cases hname : (content name).length = 0 ∨ 32 ≤ (content name).length
          · rw [if_pos hname, if_neg fun h => (hadmissible.1 h).1 hname]
            exact reads_pure none
          · rw [if_neg hname]
            refine (reads_read ⟨phone⟩).bind ?_
            by_cases hphone : (content phone).length = 0 ∨ 16 ≤ (content phone).length
            · rw [if_pos hphone, if_neg fun h => (hadmissible.1 h).2 hphone]
              exact reads_pure none
            · rw [if_neg hphone, if_pos (hadmissible.2 ⟨hname, hphone⟩)]
              exact reads_pure _

private theorem foldl_range_getElem {α β : Type} (f : β → Option α → β) (xs : List α) (y : β) :
    (List.range xs.length).foldl (fun y i => f y xs[i]?) y =
      xs.foldl (fun y x => f y (some x)) y := by
  have hxs : (List.range xs.length).map (fun i => xs[i]?) = xs.map some := by
    apply List.ext_getElem (by simp)
    intro i hi _
    have hlt : i < xs.length := by simpa using hi
    simp [hlt]
  calc (List.range xs.length).foldl (fun y i => f y xs[i]?) y
      = ((List.range xs.length).map fun i => xs[i]?).foldl f y := by rw [List.foldl_map]
    _ = xs.foldl (fun y x => f y (some x)) y := by rw [hxs, List.foldl_map]

private theorem reads_readContacts (contacts : Node (List Json)) :
    Reads (readContacts contacts contacts.target.length)
      (contacts.target.filterMap contactOfItem) := by
  have hloop := Reads.foldlM (f := fun tempContacts i => do
      let contact ← readContact contacts i
      pure (tempContacts ++ contact.toList))
    (fun _ i => (reads_readContact contacts i).bind (reads_pure _))
    (List.range contacts.target.length) []
  rw [foldl_range_getElem fun found item => found ++ (item.bind contactOfItem).toList,
    ← List.flatMap_eq_foldl] at hloop
  rw [List.filterMap_eq_flatMap_toList]
  exact hloop

theorem parseContactSyncMessage_run (w : SyncWorld) :
    parseContactSyncMessage o w jsonStr .fresh b =
      match o.cJSONParse jsonStr with
      | none => (.returned (), .fresh, b)
      | some root =>
          match contactSyncOf root with
          | none => (.returned (), Lifetime.fresh.acquire.release, b)
          | some (serial, items) =>
              if w.tempAllocates = false ∨ items.filterMap contactOfItem = [] then
                (.returned (), Lifetime.fresh.acquire.release, b)
              else
                match contactManagerUpdate w.book (items.filterMap contactOfItem) b.addressBook with
                | (.powerLost, book) =>
                    (.halted, Lifetime.fresh.acquire.release, { b with addressBook := book })
                | (.returned err, book) =>
                    (.returned (), Lifetime.fresh.acquire.release.use,
                      { b with
                        addressBook := book
                        device := b.device.publish (contactSyncResponse serial (.returned err)) }) := by
  rw [parseContactSyncMessage, withMessage_run]
  cases o.cJSONParse jsonStr with
  | none => rfl
  | some root =>
    dsimp only [contactSyncOf]
    cases messageOf root with
    | none => rfl
    | some m =>
      dsimp only [Option.bind_eq_bind, Option.bind_some]
      rw [(reads_logTexts _).run _ rfl, (reads_getObjectItem _ _).run _ rfl,
        (reads_isItem _ _).run _ rfl]
      dsimp only [Message.nodes]
      cases (m.body.getObjectItem "contacts".toList).bind Json.items? with
      | none => rfl
      | some items =>
        show (cJSONGetArraySize ⟨items⟩ >>= _) Lifetime.fresh.acquire b = _
        rw [(reads_getArraySize _).run _ rfl]
        dsimp only [Option.bind_some]
        by_cases hcount : items.length = 0 ∨ 1000 < items.length
        · rw [if_pos hcount, if_pos hcount]
          rfl
        · rw [if_neg hcount, if_neg hcount]
          dsimp only
          cases hmemory : w.tempAllocates with
          | false => rfl
          | true =>
            rw [if_neg (by decide), (reads_readContacts ⟨items⟩).run _ rfl, cJSONDelete,
              bind_returned rfl]
            by_cases hcontacts : items.filterMap contactOfItem = []
            · rw [if_pos hcontacts, if_pos (.inr hcontacts)]
              rfl
            · rw [if_neg hcontacts, if_neg (by simp [hcontacts])]
              rw [bind_apply, act, updateContacts]
              cases contactManagerUpdate w.book (items.filterMap contactOfItem) b.addressBook with
              | mk result book =>
                cases result with
                | powerLost => rfl
                | returned err =>
                  by_cases herr : err = .ok
                  · subst herr
                    rfl
                  · dsimp only
                    rw [if_neg herr]
                    cases err <;> first | exact absurd rfl herr | rfl

/-- The deletion does not change what the run does to the rest of the device: the node that is read
behind it still holds its text. -/
theorem parseContactSyncMessage_board (w : SyncWorld) :
    (parseContactSyncMessage o w jsonStr .fresh b).2.2 =
      let r := Leyu.parseContactSyncMessage o w jsonStr b.addressBook
      { b with addressBook := r.1, device := b.device.publish r.2 } := by
  rw [parseContactSyncMessage_run, Leyu.parseContactSyncMessage]
  cases o.cJSONParse jsonStr with
  | none => rfl
  | some root =>
    dsimp only [Option.bind_some]
    cases contactSyncOf root with
    | none => rfl
    | some found =>
      obtain ⟨serial, items⟩ := found
      dsimp only
      by_cases hmemory : w.tempAllocates = false
      · rw [if_pos (.inl hmemory), if_pos hmemory]
        rfl
      · by_cases hcontacts : items.filterMap contactOfItem = []
        · rw [if_pos (.inr hcontacts), if_neg hmemory, if_pos hcontacts]
          rfl
        · rw [if_neg (not_or.2 ⟨hmemory, hcontacts⟩), if_neg hmemory, if_neg hcontacts]
          cases contactManagerUpdate w.book (items.filterMap contactOfItem) b.addressBook with
          | mk result book => cases result <;> rfl

theorem parseServiceStatus_board :
    (parseServiceStatus o jsonStr .fresh b).2.2 = { b with
      device := match Leyu.parseServiceStatus o jsonStr b.device with
        | .running d => d
        | .restarted flash => .boot flash } := by
  rw [parseServiceStatus, withMessage_run, Leyu.parseServiceStatus]
  cases o.cJSONParse jsonStr with
  | none => rfl
  | some root =>
    dsimp only [Option.bind_some, serviceActionOf, Option.bind_eq_bind]
    cases messageOf root with
    | none => rfl
    | some m =>
      dsimp only [Option.bind_some]
      rw [(reads_stringItems _ _).run _ rfl, List.mapM_cons, List.mapM_nil]
      dsimp only [Message.nodes, Option.bind_eq_bind]
      cases m.body.stringItem "action".toList with
      | none => rfl
      | some action =>
        show ((logTexts [⟨action⟩] : Program Board Unit) >>= _) Lifetime.fresh.acquire b |>.2.2 = _
        rw [(reads_logTexts _).run _ rfl, (reads_read _).run _ rfl, bind_returned rfl]
        dsimp only
        by_cases hon : action = actionOn ∧ b.device.isServiceStatus = false
        · rw [if_pos hon, if_pos hon]
          rfl
        · rw [if_neg hon, if_neg hon]
          by_cases hoff : action = actionOff ∧ b.device.isServiceStatus = true
          · rw [if_pos hoff, if_pos hoff]
            rfl
          · rw [if_neg hoff, if_neg hoff]
            rfl

theorem parseAtCommand_board (w : World) (responseBuffer : Text) :
    (parseAtCommand o w responseBuffer jsonStr .fresh b).2.2.device =
      b.device.publish (Leyu.parseAtCommand o.cJSONParse w responseBuffer jsonStr).toList := by
  rw [parseAtCommand, withMessage_run, Leyu.parseAtCommand]
  cases o.cJSONParse jsonStr with
  | none => rfl
  | some root =>
    dsimp only [Option.bind_some, atCommandOf, Option.bind_eq_bind]
    cases messageOf root with
    | none => rfl
    | some m =>
      dsimp only [Option.bind_some]
      rw [(reads_stringItems _ _).run _ rfl, List.mapM_cons, List.mapM_nil]
      dsimp only [Message.nodes, Option.bind_eq_bind]
      cases m.body.stringItem "cmd".toList with
      | none => rfl
      | some cmd =>
        dsimp only [Option.bind_some, Option.map_some, Option.toList_some, atCommandAnswer]
        cases hb : w.atBuffers with
        | false => rfl
        | true =>
          cases hm : w.atMutex with
          | false => rfl
          | true =>
            by_cases hr : w.atReturn = .ok
            · rw [if_pos hr, if_pos hr]
              rfl
            · rw [if_neg hr, if_neg hr]
              rfl

theorem parseKeyBindMessage_board (w : BindWorld) :
    (parseKeyBindMessage o w jsonStr .fresh b).2.2 =
      let r := Leyu.parseKeyBindMessage o w jsonStr b.keyStore
      { b with keyStore := r.1, bindResponses := b.bindResponses ++ r.2.toList } := by
  have hnone : { b with bindResponses := b.bindResponses ++ [] } = b := by rw [List.append_nil]
  rw [parseKeyBindMessage, cJSONParse, bind_returned rfl, Leyu.parseKeyBindMessage]
  cases o.cJSONParse jsonStr with
  | none => exact hnone.symm
  | some root =>
    dsimp only [Option.bind_some, keysOf, Option.map_some]
    rw [(reads_stringItems _ _).run _ rfl, List.mapM_cons, List.mapM_cons, List.mapM_cons,
        List.mapM_nil]
    dsimp only [Option.bind_eq_bind]
    cases root.stringItem "key1".toList with
    | none => exact hnone.symm
    | some key1 =>
      cases root.stringItem "key2".toList with
      | none => exact hnone.symm
      | some key2 =>
        cases root.stringItem "key3".toList with
        | none => exact hnone.symm
        | some key3 => rfl

def ruleAdded (b : Board) (rule : Option Json) : Board :=
  match rule.bind Json.valuestring? with
  | none => b
  | some pattern =>
      { b with device := { b.device with
        rules := (callManagerAddInterceptRule (.ofText pattern) false b.device.rules).2 } }

theorem addRule_run (rules : Node (List Json)) (i : Nat) {l : Lifetime} (hl : l.live = true) :
    addRule rules i l b = (.returned (), l, ruleAdded b rules.target[i]?) := by
  have hrule : Reads (cJSONIsString (rules.target[i]?.map .mk) : Program Board _) _ :=
    reads_isItem Json.valuestring? rules.target[i]?
  rw [addRule, (reads_getArrayItem rules i).run _ hl, hrule.run _ hl, ruleAdded]
  cases rules.target[i]?.bind Json.valuestring? with
  | none => rfl
  | some pattern => exact (reads_read ⟨pattern⟩).run _ hl b

private theorem foldl_ruleAdded (items : List Json) :
    items.foldl (fun b item => ruleAdded b (some item)) b = { b with device := { b.device with
      rules := (items.filterMap Json.valuestring?).foldl
        (fun t pattern => (callManagerAddInterceptRule (.ofText pattern) false t).2)
        b.device.rules } } := by
  induction items generalizing b with
  | nil => rfl
  | cons item items ih =>
    rw [List.foldl_cons, ih, ruleAdded, List.filterMap_cons]
    dsimp only [Option.bind_some]
    cases item.valuestring? with
    | none => rfl
    | some pattern => rfl

theorem parseVoiceInterceptRules_board :
    (parseVoiceInterceptRules o jsonStr .fresh b).2.2 =
      { b with device := Leyu.parseVoiceInterceptRules o jsonStr b.device } := by
  rw [parseVoiceInterceptRules, bind_returned rfl, withMessage_run, Leyu.parseVoiceInterceptRules]
  cases o.cJSONParse jsonStr with
  | none => rfl
  | some root =>
    dsimp only [Option.bind_some, interceptRulesOf, Option.bind_eq_bind]
    cases messageOf root with
    | none => rfl
    | some m =>
      dsimp only [Option.bind_some]
      rw [(reads_getObjectItem _ _).run _ rfl, (reads_isItem _ _).run _ rfl]
      dsimp only [Message.nodes]
      cases (m.body.getObjectItem "rules".toList).bind Json.items? with
      | none => rfl
      | some items =>
        dsimp only [Option.bind_some, Option.map_some]
        rw [(reads_logTexts _).run _ rfl, bind_returned rfl,
          (reads_getArraySize _).run _ rfl, bind_returned (foldlM_run
            (fun i b => addRule_run b ⟨items⟩ i rfl) _ _)]
        dsimp only
        rw [foldl_range_getElem ruleAdded, foldl_ruleAdded]
        rfl

end

end Document

end Leyu
