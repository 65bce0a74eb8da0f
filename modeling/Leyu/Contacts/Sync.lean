import Leyu.Contacts.Saving
import Leyu.Mqtt.Device

/-!
# Publishing and receiving the address book

`send_contact_sync_data` publishes the whole address book, `parse_contact_sync_message` replaces
it. The receiver leaves out a contact without a name or a phone, or with one that is too long; of
what the firmware writes itself it leaves out nothing.
-/

namespace Leyu

open Framework

/-- What `send_contact_sync_data` finds: the connection, the serial number, the IMEI, and the two
texts generated for the message. -/
structure SyncSender where
  connected : Bool
  sn : Option Text
  deviceImei : Text
  timestamp : Option Text
  serial : Option Text

/-- The texts of all contacts, as reading them one after the other gives them. -/
def Book.texts (b : Book) : List (Text × Text) :=
  (List.range b.count).map fun i => (nameAt (b.contacts.getD []) i, phoneAt (b.contacts.getD []) i)

def contactItem (texts : Text × Text) : Json :=
  .object [("name".toList, .string texts.1), ("phone".toList, .string texts.2)]

def contactSyncTree (timestamp serial imei : Text) (items : List Json) : Json :=
  .object
    [("timeStamp".toList, .string timestamp), ("serial".toList, .string serial),
      ("imei".toList, .string imei), ("body".toList, .object [("contacts".toList, .array items)])]

def imeiBuffer (e : SyncSender) : Text :=
  match e.sn with
  | some sn => if sn = [] then e.deviceImei else sn
  | none => e.deviceImei

/-- The tree that `send_contact_sync_data` prints and publishes. -/
def sendContactSyncData (e : SyncSender) (b : Book) : Option Json :=
  if e.connected = false then none
  else
    match b.contacts, e.timestamp, e.serial with
    | some _, some timestamp, some serial =>
        some (contactSyncTree timestamp serial (imeiBuffer e) (b.texts.map contactItem))
    | _, _, _ => none

/-- The length checks of `parse_contact_sync_message`. -/
def Admissible (texts : Text × Text) : Prop :=
  0 < texts.1.length ∧ texts.1.length < 32 ∧ 0 < texts.2.length ∧ texts.2.length < 16

instance (texts : Text × Text) : Decidable (Admissible texts) :=
  inferInstanceAs (Decidable (_ ∧ _ ∧ _ ∧ _))

def contactOfItem (item : Json) : Option ContactT := do
  let item ← item.object?
  let name ← (item.stringItem "name".toList).map content
  let phone ← (item.stringItem "phone".toList).map content
  if Admissible (name, phone) then some (.ofTexts name phone) else none

/-- The serial and the elements of `contacts` of a well-formed message. -/
def contactSyncOf (root : Json) : Option (Text × List Json) := do
  let message ← messageOf root
  let contacts ← (message.body.getObjectItem "contacts".toList).bind Json.items?
  if contacts.length = 0 ∨ 1000 < contacts.length then none else some (message.serial, contacts)

structure SyncWorld where
  tempAllocates : Bool
  book : BookWorld

def contactSyncResponse (serial : Text) : OpResult → List DeviceCommandResponse
  | .returned .ok => [⟨serial, "09".toList, code200, "通讯录同步成功".toList, "9000".toList⟩]
  | .returned _ => [⟨serial, "09".toList, code500, "通讯录同步失败".toList, "9000".toList⟩]
  | .powerLost => []

def parseContactSyncMessage (o : Outside) (w : SyncWorld) (jsonStr : Text) (s : AddressBook) :
    AddressBook × List DeviceCommandResponse :=
  match (o.cJSONParse jsonStr).bind contactSyncOf with
  | none => (s, [])
  | some (serial, items) =>
      if w.tempAllocates = false then (s, [])
      else
        let contacts := items.filterMap contactOfItem
        if contacts = [] then (s, [])
        else
          let (result, s) := contactManagerUpdate w.book contacts s
          (s, contactSyncResponse serial result)

/-- What the device does with its address book: it starts, receives a contact list, or is told a
contact by voice, with what `gengxintongxunlu` then has in its two buffers. -/
inductive DeviceOp
  | start (w : BookWorld)
  | contactSync (w : SyncWorld) (jsonStr : Text)
  | gengxintongxunlu (w : BookWorld) (contactName contactPhone : CString)

def DeviceOp.step (o : Outside) (s : AddressBook) : DeviceOp → AddressBook
  | .start w => { s with book := (contactManagerLoadFromFlash w s.flash .off).2 }
  | .contactSync w jsonStr => (parseContactSyncMessage o w jsonStr s).1
  | .gengxintongxunlu w contactName contactPhone =>
      if contactName.text = [] ∨ contactPhone.text = [] then s
      else (contactManagerAddOrUpdate w contactName contactPhone s).2

/-- A written contact of the device: both texts are terminated and not empty. -/
def ContactT.Filled (c : ContactT) : Prop :=
  c.Terminated ∧ content c.name ≠ [] ∧ content c.phone ≠ []

/-- Whatever is written is filled, and of some contacts one is written. -/
def GoodEntries (xs : List Slot) : Prop :=
  (∀ t ∈ xs, t.written = true → t.contact.Filled) ∧ (xs ≠ [] → ∃ t ∈ xs, t.written = true)

structure DeviceInv (s : AddressBook) : Prop where
  shaped : s.book.Shaped
  book : GoodEntries s.book.entries
  flash : ∀ xs ∈ s.flash.blob, xs ≠ [] ∧ GoodEntries xs

/-- What the device hands to the operations: filled contacts, and texts that are not empty. -/
def BookOp.Fills : BookOp → Prop
  | .update _ contacts => ∀ c ∈ contacts, c.1.Filled
  | .addOrUpdate _ name phone => name.text ≠ [] ∧ phone.text ≠ []
  | _ => True

private theorem ContactT.filled_ofTexts {name phone : Text} (hname : nul ∉ name)
    (hphone : nul ∉ phone) (hname' : name ≠ []) (hphone' : phone ≠ []) :
    (ofTexts name phone).Filled := by
  refine ⟨terminated_ofTexts name phone, ?_, ?_⟩
  · show content (boundedCopy 31 name) ≠ []
    rw [content_boundedCopy hname]
    exact take_ne_nil hname' (by omega)
  · show content (boundedCopy 15 phone) ≠ []
    rw [content_boundedCopy hphone]
    exact take_ne_nil hphone' (by omega)

private theorem ContactT.Filled.setPhone {c : ContactT} (hc : c.Filled) {phone : Text}
    (hphone : nul ∉ phone) (hphone' : phone ≠ []) : (c.setPhone phone).Filled := by
  refine ⟨⟨hc.1.1, boundedCopy_terminated 15 phone⟩, hc.2.1, ?_⟩
  show content (boundedCopy 15 phone) ≠ []
  rw [content_boundedCopy hphone]
  exact take_ne_nil hphone' (by omega)

private theorem filled_defaultContact (c : ContactT) : (defaultContact c).Filled := by
  have hname : content (defaultContact c).name = defaultName := content_append_nul (by decide) _
  have hphone : content (defaultContact c).phone = defaultPhone := content_append_nul (by decide) _
  refine ⟨⟨by simp [defaultContact, strcpyInto], by simp [defaultContact, strcpyInto]⟩, ?_, ?_⟩
  · rw [hname]
    decide
  · rw [hphone]
    decide

private theorem good_default (w : BookWorld) : GoodEntries (defaultBook w).entries := by
  have hentries : (defaultBook w).entries =
      [⟨defaultContact (w.memory 0), true⟩, ⟨w.memory 1, false⟩] := rfl
  rw [hentries]
  constructor
  · intro t ht hwritten
    rcases List.mem_cons.1 ht with rfl | ht
    · exact filled_defaultContact _
    · rw [List.mem_singleton.1 ht] at hwritten
      cases hwritten
  · intro _
    exact ⟨_, List.mem_cons_self, rfl⟩

private theorem good_loaded (w : BookWorld) {count : Nat} {xs : List Slot} (hle : xs.length ≤ count)
    (hne : xs ≠ []) (hxs : GoodEntries xs) : GoodEntries (loadedBook w count xs).entries := by
  have hentries : (loadedBook w count xs).entries =
      xs ++ ((freshSlots w count).drop xs.length).take (count - xs.length) := by
    show (xs ++ (freshSlots w count).drop xs.length).take count = _
    rw [List.take_append, List.take_of_length_le hle]
  rw [hentries]
  constructor
  · intro t ht hwritten
    rcases List.mem_append.1 ht with hold | hfresh
    · exact hxs.1 t hold hwritten
    · have hunwritten := mem_freshSlots (List.mem_of_mem_drop (List.mem_of_mem_take hfresh))
      exact nomatch hunwritten.symm.trans hwritten
  · intro _
    obtain ⟨t, ht, hwritten⟩ := hxs.2 hne
    exact ⟨t, List.mem_append_left _ ht, hwritten⟩

private theorem good_updated {w : BookWorld} {contacts : List { c : ContactT // c.Terminated }}
    {b : Book} (hfilled : ∀ c ∈ contacts, c.1.Filled)
    (h : updatedBook w (contacts.map Subtype.val) = some b) : GoodEntries b.entries := by
  have hall : ∀ t ∈ b.entries, t.written = true ∧ t.contact.Filled := by
    intro t ht
    obtain ⟨c, hc, rfl⟩ := mem_entries_updated h ht
    obtain ⟨c', hc', rfl⟩ := List.mem_map.1 hc
    exact ⟨rfl, hfilled c' hc'⟩
  constructor
  · intro t ht _
    exact (hall t ht).2
  · intro hne
    obtain ⟨t, ht⟩ := List.exists_mem_of_ne_nil _ hne
    exact ⟨t, ht, (hall t ht).1⟩

private theorem written_added {w : BookWorld} {name phone : Text} {b b' : Book} (hb : b.Shaped)
    (h : addedBook w name phone b = some b') (hgood : GoodEntries b.entries) :
    ∃ t ∈ b'.entries, t.written = true := by
  rcases addedBook_cases hb h with ⟨slots, i, hslots, hi, rfl⟩ |
    ⟨slots, rest, hslots, hlength, hroom, hcount, hcontacts⟩
  · have hentries := hb.entries_length
    have hne : b.entries ≠ [] := by
      intro hnil
      rw [hnil] at hentries
      simp at hentries
      omega
    obtain ⟨t, ht, hwritten⟩ := hgood.2 hne
    rw [entries_some hslots] at ht
    obtain ⟨j, hj, rfl⟩ := List.mem_take_iff_getElem.1 ht
    rw [entries_some rfl]
    refine ⟨_, List.mem_take_iff_getElem.2 ⟨j, ?_, rfl⟩, ?_⟩
    · rw [List.length_modify]
      exact hj
    · rw [List.getElem_modify]
      split
      · exact hwritten
      · exact hwritten
  · have hold := hb.length_eq slots hslots
    have hle := hb.count_le
    have hin : b.count < (slots ++ rest).length := by
      rw [List.length_append, hlength]
      exact hroom
    rw [entries_some hcontacts, hcount]
    refine ⟨_, List.mem_take_iff_getElem.2 ⟨b.count, ?_, rfl⟩, ?_⟩
    · rw [List.length_set]
      omega
    · rw [List.getElem_set_self]

private theorem good_added {w : BookWorld} {name phone : CString} {b b' : Book} (hb : b.Shaped)
    (hfills : name.text ≠ [] ∧ phone.text ≠ []) (hgood : GoodEntries b.entries)
    (h : addedBook w name.text phone.text b = some b') : GoodEntries b'.entries := by
  have hname : nul ∉ name.text := nul_notMem_content name.block
  have hphone : nul ∉ phone.text := nul_notMem_content phone.block
  constructor
  · intro t ht hwritten
    rcases mem_entries_added hb h ht with hold | ⟨u, hu, rfl⟩ | rfl
    · exact hgood.1 t hold hwritten
    · exact (hgood.1 u hu hwritten).setPhone hphone hfills.2
    · exact ContactT.filled_ofTexts hname hphone hfills.1 hfills.2
  · intro _
    exact written_added hb h hgood

private theorem good_bookStep {s : AddressBook} (hs : DeviceInv s) {op : BookOp} (hop : op.Fills)
    {b : Book} (h : BookStep s op b) : GoodEntries b.entries := by
  cases h with
  | unchanged => exact hs.book
  | emptied => exact ⟨fun t ht => absurd ht List.not_mem_nil, fun hne => absurd rfl hne⟩
  | defaults w _ => exact good_default w
  | loaded hplan =>
    obtain ⟨-, hblob, -, -, hle⟩ := loadPlan_blob hplan
    obtain ⟨hne, hxs⟩ := hs.flash _ hblob
    exact good_loaded _ hle hne hxs
  | updated _ hupdated => exact good_updated hop hupdated
  | added hadded => exact good_added hs.shaped hop hs.book hadded

private theorem good_saving {s : AddressBook} (hs : DeviceInv s) {op : BookOp} (hop : op.Fills)
    {x : SaveWorld × Book} (h : op.saving s = some x) : GoodEntries x.2.entries := by
  rcases saving_cases h with ⟨w, contacts, rfl, -, hb⟩ | ⟨w, name, phone, rfl, hb⟩ | hsame
  · exact good_updated hop hb
  · exact good_added hs.shaped hop hs.book hb
  · rw [hsame]
    exact hs.book

private theorem deviceInv_bookStep {s : AddressBook} (hs : DeviceInv s) {op : BookOp}
    (hop : op.Fills) :
    DeviceInv (op.step s) := by
  refine ⟨shaped_step hs.shaped op, good_bookStep hs hop (bookStep hs.shaped op), ?_⟩
  rw [flash_step]
  cases hsaving : op.saving s with
  | none => exact hs.flash
  | some x =>
    have hshaped := shaped_saving hs.shaped hsaving
    have hgood := good_saving hs hop hsaving
    simp only [Option.elim_some, contactManagerSaveToFlash_snd]
    cases hreach : saveReach x.1 x.2 with
    | nothing => exact hs.flash
    | countOnly => exact hs.flash
    | both =>
      intro xs hxs
      obtain rfl := Option.some.inj hxs
      exact ⟨entries_of_reach x.1 hshaped (by rw [hreach]; decide), hgood⟩

private theorem contactOfItem_filled {item : Json} {c : ContactT}
    (h : contactOfItem item = some c) :
    c.Filled := by
  simp only [contactOfItem, bind, Option.bind_eq_some_iff, Option.map_eq_some_iff] at h
  obtain ⟨_, -, name, ⟨nameValue, -, rfl⟩, phone, ⟨phoneValue, -, rfl⟩, h⟩ := h
  split at h
  · rename_i hadmissible
    obtain rfl := Option.some.inj h
    apply ContactT.filled_ofTexts (nul_notMem_content nameValue) (nul_notMem_content phoneValue)
    · exact List.length_pos_iff.1 hadmissible.1
    · exact List.length_pos_iff.1 hadmissible.2.2.1
  · cases h

/-- The contacts that a message brings past the checks. -/
def receivedContacts (o : Outside) (jsonStr : Text) : List ContactT :=
  ((o.cJSONParse jsonStr).bind contactSyncOf).elim [] fun x => x.2.filterMap contactOfItem

private theorem filled_of_received {o : Outside} {jsonStr : Text} {c : ContactT}
    (hc : c ∈ receivedContacts o jsonStr) : c.Filled := by
  unfold receivedContacts at hc
  cases hparse : (o.cJSONParse jsonStr).bind contactSyncOf with
  | none =>
    rw [hparse] at hc
    exact absurd hc List.not_mem_nil
  | some x =>
    rw [hparse] at hc
    obtain ⟨item, -, hitem⟩ := List.mem_filterMap.1 hc
    exact contactOfItem_filled hitem

private theorem parseContactSyncMessage_fst (o : Outside) (w : SyncWorld) (jsonStr : Text)
    (s : AddressBook) :
    (parseContactSyncMessage o w jsonStr s).1 =
      if w.tempAllocates = false ∨ receivedContacts o jsonStr = [] then s
      else (contactManagerUpdate w.book (receivedContacts o jsonStr) s).2 := by
  unfold parseContactSyncMessage receivedContacts
  cases (o.cJSONParse jsonStr).bind contactSyncOf with
  | none => simp
  | some x =>
    cases w.tempAllocates with
    | false => simp
    | true =>
      simp only [Bool.true_eq_false, if_false, false_or, Option.elim_some]
      by_cases hempty : x.2.filterMap contactOfItem = []
      · simp only [if_pos hempty]
      · simp only [if_neg hempty]

/-- Each step of the device is no operation on the address book, or one that is handed what the
device hands out. -/
theorem deviceStep_cases (o : Outside) (s : AddressBook) (op : DeviceOp) :
    op.step o s = s ∨ (∃ w, op.step o s = BookOp.step { s with book := .off } (.loadFromFlash w)) ∨
      ∃ bookOp : BookOp, bookOp.Fills ∧ op.step o s = bookOp.step s := by
  cases op with
  | start w => exact .inr (.inl ⟨w, rfl⟩)
  | contactSync w jsonStr =>
    have hstep : DeviceOp.step o s (.contactSync w jsonStr) =
        (parseContactSyncMessage o w jsonStr s).1 := rfl
    rw [hstep, parseContactSyncMessage_fst]
    split
    · exact .inl rfl
    · have hterminated : ∀ c ∈ receivedContacts o jsonStr, c.Terminated := fun c hc =>
        (filled_of_received hc).1
      have hmap : ((receivedContacts o jsonStr).attachWith ContactT.Terminated hterminated).map
          Subtype.val = receivedContacts o jsonStr := List.attachWith_map_subtype_val _
      refine .inr (.inr ⟨.update w.book ((receivedContacts o jsonStr).attachWith
        ContactT.Terminated hterminated), ?_, ?_⟩)
      · intro c hc
        exact filled_of_received ((List.mem_attachWith hterminated c).1 hc)
      · show _ = (contactManagerUpdate w.book (List.map Subtype.val _) s).2
        rw [hmap]
  | gengxintongxunlu w contactName contactPhone =>
    have hstep : DeviceOp.step o s (.gengxintongxunlu w contactName contactPhone) =
        if contactName.text = [] ∨ contactPhone.text = [] then s
        else (contactManagerAddOrUpdate w contactName contactPhone s).2 := rfl
    rw [hstep]
    split
    · exact .inl rfl
    · rename_i hempty
      exact .inr (.inr ⟨.addOrUpdate w contactName contactPhone, not_or.1 hempty, rfl⟩)

private theorem deviceInv_step (o : Outside) {s : AddressBook} (hs : DeviceInv s) (op : DeviceOp) :
    DeviceInv (op.step o s) := by
  have hoff : DeviceInv { s with book := .off } :=
    ⟨shaped_off, ⟨fun t ht => absurd ht List.not_mem_nil, fun hne => absurd rfl hne⟩, hs.flash⟩
  rcases deviceStep_cases o s op with h | ⟨w, h⟩ | ⟨bookOp, hfills, h⟩
  · rw [h]
    exact hs
  · rw [h]
    exact deviceInv_bookStep hoff trivial
  · rw [h]
    exact deviceInv_bookStep hs hfills

theorem deviceInv_run (o : Outside) (ops : List DeviceOp) :
    DeviceInv (run (DeviceOp.step o) .new ops) := by
  have hnew : DeviceInv .new :=
    ⟨shaped_off, ⟨fun t ht => absurd ht List.not_mem_nil, fun hne => absurd rfl hne⟩,
      fun xs hxs => nomatch hxs⟩
  exact run_of_step (I := DeviceInv) (fun _ op hs => deviceInv_step o hs op) hnew ops

private theorem content_length_lt {b : Block} (hb : nul ∈ b) : (content b).length < b.length := by
  obtain ⟨rest, hrest⟩ := block_eq_content hb
  have hlength := congrArg List.length hrest
  rw [List.length_append, List.length_cons] at hlength
  omega

private theorem admissible_of_filled {slots : List Slot} {i : Nat} (hi : i < slots.length)
    (hc : slots[i].contact.Filled) : Admissible (nameAt slots i, phoneAt slots i) := by
  have hname := content_length_lt hc.1.1
  have hphone := content_length_lt hc.1.2
  rw [slots[i].contact.name_length] at hname
  rw [slots[i].contact.phone_length] at hphone
  rw [Admissible, nameAt_eq hi hc.1.1, phoneAt_eq hi hc.1.2]
  exact ⟨List.length_pos_iff.2 hc.2.1, hname, List.length_pos_iff.2 hc.2.2, hphone⟩

private theorem contactOfItem_contactItem {texts : Text × Text} (hname : nul ∉ texts.1)
    (hphone : nul ∉ texts.2) :
    contactOfItem (contactItem texts) =
      if Admissible texts then some (.ofTexts texts.1 texts.2) else none := by
  have hitem : contactOfItem (contactItem texts) =
      if Admissible (content texts.1, content texts.2) then
        some (.ofTexts (content texts.1) (content texts.2)) else none := rfl
  rw [hitem, content_eq_self hname, content_eq_self hphone]

private theorem nul_notMem_texts {b : Book} {texts : Text × Text} (h : texts ∈ b.texts) :
    nul ∉ texts.1 ∧ nul ∉ texts.2 := by
  obtain ⟨i, -, rfl⟩ := List.mem_map.1 h
  exact ⟨nul_notMem_content _, nul_notMem_content _⟩

private theorem receivedContacts_published {o : Outside} {message : Text} {e : SyncSender}
    {b : Book} {tree : Json} (hsend : sendContactSyncData e b = some tree)
    (hparse : o.cJSONParse message = some tree) (hlimit : b.count ≤ 1000) :
    receivedContacts o message =
      (b.texts.filter fun texts => Admissible texts).map fun texts => .ofTexts texts.1 texts.2 := by
  have hitems : (b.texts.map contactItem).filterMap contactOfItem =
      (b.texts.filter fun texts => Admissible texts).map fun texts => .ofTexts texts.1 texts.2 := by
    rw [List.filterMap_map, ← List.filterMap_eq_map, List.filterMap_filter]
    apply List.filterMap_congr
    intro texts htexts
    obtain ⟨hname, hphone⟩ := nul_notMem_texts htexts
    simp only [Function.comp_apply, contactOfItem_contactItem hname hphone, decide_eq_true_eq]
  have hlength : (b.texts.map contactItem).length = b.count := by
    rw [List.length_map, Book.texts, List.length_map, List.length_range]
  unfold sendContactSyncData at hsend
  split at hsend
  · cases hsend
  · split at hsend
    · rename_i timestamp serial _ _ _
      obtain rfl := Option.some.inj hsend
      have hof : contactSyncOf
          (contactSyncTree timestamp serial (imeiBuffer e) (b.texts.map contactItem)) =
          if (b.texts.map contactItem).length = 0 ∨ 1000 < (b.texts.map contactItem).length then none
          else some (serial, b.texts.map contactItem) := rfl
      rw [receivedContacts, hparse, Option.bind_some, hof]
      by_cases hzero : b.count = 0
      · have hnil : b.texts = [] := by rw [Book.texts, hzero]; rfl
        rw [if_pos (.inl (hlength.trans hzero)), hnil]
        rfl
      · rw [if_neg (by omega)]
        exact hitems
    · cases hsend

/-- There is memory for the message and for the new list, and the power stays on. -/
structure SyncWorld.Works (w : SyncWorld) : Prop where
  tempAllocates : w.tempAllocates = true
  allocates : w.book.allocates = true
  powered : ∀ b f, (contactManagerSaveToFlash w.book.save b f).1 ≠ .powerLost

/-- A contact that was never written reads as one the receiver takes. -/
def UnwrittenAdmissible (b : Book) : Prop :=
  ∀ i (hi : i < b.entries.length), b.entries[i].written = false →
    Admissible (nameAt (b.contacts.getD []) i, phoneAt (b.contacts.getD []) i)

private theorem texts_ofTexts {ts : List (Text × Text)}
    (hts : ∀ t ∈ ts, Admissible t ∧ nul ∉ t.1 ∧ nul ∉ t.2) :
    let slots := (ts.map fun t => ContactT.ofTexts t.1 t.2).map fun c => (⟨c, true⟩ : Slot)
    (Book.mk (some slots) ts.length ts.length).texts = ts := by
  intro slots
  have hlength : slots.length = ts.length := by simp [slots]
  apply List.ext_getElem
  · simp [Book.texts]
  · intro i hi hi'
    obtain ⟨hadmissible, hname, hphone⟩ := hts ts[i] (List.getElem_mem hi')
    have hin : i < slots.length := by omega
    have hslot : slots[i].contact = ContactT.ofTexts ts[i].1 ts[i].2 := by simp [slots]
    have hterminated := ContactT.terminated_ofTexts ts[i].1 ts[i].2
    have hreadName : nameAt slots i = ts[i].1 := by
      rw [nameAt_eq hin (by rw [hslot]; exact hterminated.1), hslot]
      show content (boundedCopy 31 ts[i].1) = _
      rw [content_boundedCopy hname, List.take_of_length_le (Nat.le_of_lt_succ hadmissible.2.1)]
    have hreadPhone : phoneAt slots i = ts[i].2 := by
      rw [phoneAt_eq hin (by rw [hslot]; exact hterminated.2), hslot]
      show content (boundedCopy 15 ts[i].2) = _
      rw [content_boundedCopy hphone, List.take_of_length_le (Nat.le_of_lt_succ hadmissible.2.2.2)]
    simp only [Book.texts, List.getElem_map, List.getElem_range, Option.getD_some, hreadName, hreadPhone]

private theorem admissible_of_written {s : AddressBook} (hs : DeviceInv s) {i : Nat}
    (hi : i < s.book.entries.length) (hwritten : s.book.entries[i].written = true) :
    Admissible (nameAt (s.book.contacts.getD []) i, phoneAt (s.book.contacts.getD []) i) := by
  have hfilled := hs.book.1 _ (List.getElem_mem hi) hwritten
  have hslots : i < (s.book.contacts.getD []).length := by
    have hle : s.book.entries.length ≤ (s.book.contacts.getD []).length := List.length_take_le' _ _
    omega
  have hslot : s.book.entries[i] = (s.book.contacts.getD [])[i] := List.getElem_take
  rw [hslot] at hfilled
  exact admissible_of_filled hslots hfilled

private theorem admissible_iff {s : AddressBook} (hs : DeviceInv s) :
    (∀ t ∈ s.book.texts, Admissible t) ↔ UnwrittenAdmissible s.book := by
  have hlength := hs.shaped.entries_length
  constructor
  · intro hall i hi _
    apply hall
    exact List.mem_map.2 ⟨i, List.mem_range.2 (by omega), rfl⟩
  · intro hunwritten t ht
    obtain ⟨i, hi, rfl⟩ := List.mem_map.1 ht
    have hin : i < s.book.entries.length := by
      rw [hlength]
      exact List.mem_range.1 hi
    cases hwritten : s.book.entries[i].written with
    | false => exact hunwritten i hin hwritten
    | true => exact admissible_of_written hs hin hwritten

private theorem exists_admissible {s : AddressBook} (hs : DeviceInv s) (hne : s.book.count ≠ 0) :
    ∃ t ∈ s.book.texts, Admissible t := by
  have hlength := hs.shaped.entries_length
  have hentries : s.book.entries ≠ [] := by
    intro hnil
    rw [hnil] at hlength
    exact hne hlength.symm
  obtain ⟨u, hu, hwritten⟩ := hs.book.2 hentries
  obtain ⟨i, hi, rfl⟩ := List.mem_iff_getElem.1 hu
  exact ⟨_, List.mem_map.2 ⟨i, List.mem_range.2 (by omega), rfl⟩, admissible_of_written hs hi hwritten⟩

private theorem parseContactSyncMessage_texts {o : Outside} {message : Text} {e : SyncSender}
    {s : AddressBook} (hs : DeviceInv s) {tree : Json}
    (hsend : sendContactSyncData e s.book = some tree)
    (hparse : o.cJSONParse message = some tree) (hlimit : s.book.count ≤ 1000)
    {w : SyncWorld} (hw : w.Works) :
    (parseContactSyncMessage o w message s).1.book.texts =
      s.book.texts.filter fun texts => Admissible texts := by
  rw [parseContactSyncMessage_fst, receivedContacts_published hsend hparse hlimit]
  by_cases hzero : s.book.count = 0
  · have hnil : s.book.texts = [] := by rw [Book.texts, hzero]; rfl
    simp [hnil]
  · obtain ⟨t, ht, hadmissible⟩ := exists_admissible hs hzero
    have hkept : t ∈ s.book.texts.filter fun texts => Admissible texts :=
      List.mem_filter.2 ⟨ht, decide_eq_true hadmissible⟩
    have hne : (s.book.texts.filter fun texts => Admissible texts).map
        (fun texts => ContactT.ofTexts texts.1 texts.2) ≠ [] :=
      List.ne_nil_of_mem (List.mem_map.2 ⟨t, hkept, rfl⟩)
    have hread : ∀ texts ∈ s.book.texts.filter fun texts => Admissible texts,
        Admissible texts ∧ nul ∉ texts.1 ∧ nul ∉ texts.2 := by
      intro texts htexts
      have hmem := List.mem_filter.1 htexts
      exact ⟨of_decide_eq_true hmem.2, nul_notMem_texts hmem.1⟩
    have hnot : ¬ (w.tempAllocates = false ∨ (s.book.texts.filter fun texts => Admissible texts).map
        (fun texts => ContactT.ofTexts texts.1 texts.2) = []) := by
      rintro (h | h)
      · exact nomatch hw.tempAllocates.symm.trans h
      · exact hne h
    rw [if_neg hnot, contactManagerUpdate_book hw.allocates hw.powered hne, List.length_map,
      texts_ofTexts hread]

/-- Of a book that the device can come to: receiving its own publication leaves the same list
exactly when every contact that was never written happens to read as an admissible one. -/
theorem contactSync_roundTrip_iff (o : Outside) (print : Json → Text) (ops : List DeviceOp)
    (e : SyncSender) (tree : Json) (w : SyncWorld)
    (hlimit : (run (DeviceOp.step o) .new ops).book.count ≤ 1000)
    (hsend : sendContactSyncData e (run (DeviceOp.step o) .new ops).book = some tree)
    (hprint : o.cJSONParse (print tree) = some tree) (hw : w.Works) :
    (parseContactSyncMessage o w (print tree) (run (DeviceOp.step o) .new ops)).1.book.texts =
        (run (DeviceOp.step o) .new ops).book.texts ↔
      UnwrittenAdmissible (run (DeviceOp.step o) .new ops).book := by
  have hinv := deviceInv_run o ops
  rw [← admissible_iff hinv, parseContactSyncMessage_texts hinv hsend hprint hlimit hw,
    List.filter_eq_self]
  simp only [decide_eq_true_eq]

private theorem texts_defaultBook {w : BookWorld} (hw : (w.memory 1).Terminated) :
    (defaultBook w).texts =
      [(defaultName, defaultPhone), (content (w.memory 1).name, content (w.memory 1).phone)] := by
  have hfirst := (filled_defaultContact (w.memory 0)).1
  have hslots : ((defaultBook w).contacts.getD []).length = 10 := by
    simp [defaultBook, freshSlots]
  have hname : content (defaultContact (w.memory 0)).name = defaultName :=
    content_append_nul (by decide) _
  have hphone : content (defaultContact (w.memory 0)).phone = defaultPhone :=
    content_append_nul (by decide) _
  have hslot₀ : ((defaultBook w).contacts.getD [])[0].contact = defaultContact (w.memory 0) := rfl
  have hslot₁ : ((defaultBook w).contacts.getD [])[1].contact = w.memory 1 := rfl
  have hname₀ : nameAt ((defaultBook w).contacts.getD []) 0 = defaultName := by
    rw [nameAt_eq (by omega) (by rw [hslot₀]; exact hfirst.1), hslot₀, hname]
  have hphone₀ : phoneAt ((defaultBook w).contacts.getD []) 0 = defaultPhone := by
    rw [phoneAt_eq (by omega) (by rw [hslot₀]; exact hfirst.2), hslot₀, hphone]
  have hname₁ : nameAt ((defaultBook w).contacts.getD []) 1 = content (w.memory 1).name := by
    rw [nameAt_eq (by omega) (by rw [hslot₁]; exact hw.1), hslot₁]
  have hphone₁ : phoneAt ((defaultBook w).contacts.getD []) 1 = content (w.memory 1).phone := by
    rw [phoneAt_eq (by omega) (by rw [hslot₁]; exact hw.2), hslot₁]
  show [(nameAt _ 0, phoneAt _ 0), (nameAt _ 1, phoneAt _ 1)] = _
  rw [hname₀, hphone₀, hname₁, hphone₁]

def someSender : SyncSender where
  connected := true
  sn := none
  deviceImei := "3".toList
  timestamp := some "1".toList
  serial := some "2".toList

/-- The published text of the default book, with the texts of its second contact. -/
def defaultMessage (name phone : Text) : Text :=
  utf8 "\x7b\"timeStamp\":\"1\",\"serial\":\"2\",\"imei\":\"3\",\"body\":\x7b\"contacts\":[\x7b\"name\":\"乐语客服\",\"phone\":\"10028\"\x7d,\x7b\"name\":\"" ++
    name ++ utf8 "\",\"phone\":\"" ++ phone ++ utf8 "\"\x7d]\x7d\x7d"

def defaultTree (name phone : Text) : Json :=
  contactSyncTree "1".toList "2".toList "3".toList
    [contactItem (defaultName, defaultPhone), contactItem (name, phone)]

def syncParser (name phone : Text) : Outside :=
  parserOf (defaultMessage name phone) (defaultTree name phone)

def firstStart (name phone : Text) : List DeviceOp :=
  [.start { goodWorld with memory := fun _ => .ofTexts name phone }]

private theorem firstStart_texts (o : Outside) {name phone : Text} (hname : nul ∉ name)
    (hphone : nul ∉ phone) :
    (run (DeviceOp.step o) .new (firstStart name phone)).book.texts =
      [(defaultName, defaultPhone), (name.take 31, phone.take 15)] := by
  have htexts := texts_defaultBook (w := { goodWorld with memory := fun _ => .ofTexts name phone })
    (ContactT.terminated_ofTexts name phone)
  rw [← content_boundedCopy hname, ← content_boundedCopy hphone]
  exact htexts

private theorem firstStart_sends (o : Outside) {name phone : Text} (hname : nul ∉ name)
    (hphone : nul ∉ phone) :
    sendContactSyncData someSender (run (DeviceOp.step o) .new (firstStart name phone)).book =
      some (defaultTree (name.take 31) (phone.take 15)) := by
  have htexts := firstStart_texts o hname hphone
  show some (contactSyncTree _ _ _ (Book.texts _ |>.map contactItem)) = _
  rw [htexts]
  rfl

def goodSync : SyncWorld := ⟨true, goodWorld⟩

private theorem goodSync_works : goodSync.Works := ⟨rfl, rfl, goodSave_powered⟩

/-- In memory where a contact has been, the second default passes for one. -/
theorem contactSync_usedMemory :
    (parseContactSyncMessage (syncParser ['b'] ['2']) goodSync (defaultMessage ['b'] ['2'])
        (run (DeviceOp.step (syncParser ['b'] ['2'])) .new (firstStart ['b'] ['2']))).1.book.texts =
      (run (DeviceOp.step (syncParser ['b'] ['2'])) .new (firstStart ['b'] ['2'])).book.texts := by
  have hcount : (run (DeviceOp.step (syncParser ['b'] ['2'])) .new
      (firstStart ['b'] ['2'])).book.count = 2 := rfl
  apply (contactSync_roundTrip_iff (syncParser ['b'] ['2']) (fun _ => defaultMessage ['b'] ['2'])
    (firstStart ['b'] ['2']) someSender (defaultTree ['b'] ['2']) goodSync (by omega)
    (firstStart_sends _ (by decide) (by decide)) (parserOf_parse _ _) goodSync_works).2
  intro i hi hunwritten
  match i, hi with
  | 0, _ => cases hunwritten
  | 1, _ => decide

/-- In memory that holds zeros, the default book comes back without its second contact. -/
theorem contactSync_zeroMemory :
    sendContactSyncData someSender
        (run (DeviceOp.step (syncParser [] [])) .new (firstStart [] [])).book =
          some (defaultTree [] []) ∧
      (parseContactSyncMessage (syncParser [] []) goodSync (defaultMessage [] [])
        (run (DeviceOp.step (syncParser [] [])) .new (firstStart [] []))).1.book.texts =
          [(defaultName, defaultPhone)] ∧
      (run (DeviceOp.step (syncParser [] [])) .new (firstStart [] [])).book.texts =
          [(defaultName, defaultPhone), ([], [])] := by
  have hnul : nul ∉ ([] : Text) := List.not_mem_nil
  have hsend := firstStart_sends (syncParser [] []) hnul hnul
  have htexts := firstStart_texts (syncParser [] []) hnul hnul
  have hcount : (run (DeviceOp.step (syncParser [] [])) .new (firstStart [] [])).book.count = 2 := rfl
  have hparse : (syncParser [] []).cJSONParse (defaultMessage [] []) = some (defaultTree [] []) :=
    parserOf_parse _ _
  have hafter := parseContactSyncMessage_texts
    (deviceInv_run (syncParser [] []) (firstStart [] [])) hsend hparse (by omega) goodSync_works
  refine ⟨hsend, ?_, htexts⟩
  rw [hafter, htexts]
  decide

end Leyu
