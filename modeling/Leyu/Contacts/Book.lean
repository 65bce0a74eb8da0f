import Leyu.Framework.CountedStore
import Leyu.Framework.CString
import Leyu.Framework.Runs
import Leyu.Platform

/-!
# The address book

`contact_manager.c`: an array of contacts in the PSRAM with its count and capacity, and its copy
in the flash, a count and a blob of contacts. Fresh memory holds whatever it held before. A
character of a text is a byte here.
-/

namespace Leyu

open Framework

/-- A literal of the source, as the bytes of its UTF-8 form. -/
def utf8 (s : String) : Text :=
  s.toList.flatMap fun c => (String.utf8EncodeChar c).map fun b => Char.ofNat b.toNat

/-- `contact_t`: fields of `MAX_NAME_LENGTH` and `MAX_PHONE_LENGTH` bytes. -/
structure ContactT where
  name : Block
  phone : Block
  name_length : name.length = 32
  phone_length : phone.length = 16
  deriving DecidableEq

/-- An element of the array; `written` says that it has been written as a contact since its memory
was allocated. -/
structure Slot where
  contact : ContactT
  written : Bool
  deriving DecidableEq

/-- `g_contacts`, `g_contact_count` and `g_contact_capacity`. -/
structure Book where
  contacts : Option (List Slot)
  count : Nat
  capacity : Nat

/-- The namespace `contact_store`. -/
abbrev ContactFlash := CountedStore Slot

inductive NvsOutcome
  | ok
  | fails
  | powerLost
  deriving DecidableEq, Repr

structure SaveWorld where
  nvsOpen : NvsOutcome
  setCount : NvsOutcome
  setBlob : NvsOutcome
  commit : NvsOutcome

/-- What an operation finds outside: whether there is memory, what fresh memory holds, and how the
NVS calls end. `allocatesDefaults` is for the array of `contact_manager_init`. -/
structure BookWorld where
  allocates : Bool
  allocatesDefaults : Bool
  memory : Nat → ContactT
  nvsOpen : Bool
  getCount : Bool
  getBlob : Bool
  save : SaveWorld

inductive OpResult
  | returned (err : EspErr)
  | powerLost
  deriving DecidableEq

/-- `strcpy` into a field; what is behind the terminator stays. -/
def strcpyInto (src : Text) (field : Block) : Block := src ++ nul :: field.drop (src.length + 1)

private theorem strcpyInto_length {src : Text} {field : Block} (h : src.length < field.length) :
    (strcpyInto src field).length = field.length := by
  simp only [strcpyInto, List.length_append, List.length_cons, List.length_drop]
  omega

/-- `strncpy` with the last byte set to the terminator. -/
def boundedCopy (n : Nat) (src : Text) : Block := strncpy n src ++ [nul]

private theorem boundedCopy_length (n : Nat) (src : Text) : (boundedCopy n src).length = n + 1 := by
  simp only [boundedCopy, List.length_append, strncpy_length, List.length_singleton]

namespace ContactT

def bytes (c : ContactT) : Block := c.name ++ c.phone

def ofTexts (name phone : Text) : ContactT where
  name := boundedCopy 31 name
  phone := boundedCopy 15 phone
  name_length := boundedCopy_length 31 name
  phone_length := boundedCopy_length 15 phone

def setPhone (phone : Text) (c : ContactT) : ContactT :=
  { c with phone := boundedCopy 15 phone, phone_length := boundedCopy_length 15 phone }

def Terminated (c : ContactT) : Prop := nul ∈ c.name ∧ nul ∈ c.phone

instance (c : ContactT) : Decidable c.Terminated :=
  inferInstanceAs (Decidable (nul ∈ c.name ∧ nul ∈ c.phone))

end ContactT

def defaultName : Text := utf8 "乐语客服"

def defaultPhone : Text := "10028".toList

/-- The default contact, copied over what the memory held. -/
def defaultContact (c : ContactT) : ContactT where
  name := strcpyInto defaultName c.name
  phone := strcpyInto defaultPhone c.phone
  name_length := (strcpyInto_length (by rw [c.name_length]; decide)).trans c.name_length
  phone_length := (strcpyInto_length (by rw [c.phone_length]; decide)).trans c.phone_length

def freshSlots (w : BookWorld) (n : Nat) : List Slot :=
  (List.range n).map fun i => ⟨w.memory i, false⟩

def memoryOf (slots : List Slot) : Block := slots.flatMap fun s => s.contact.bytes

/-- What reading the name or the phone of a contact as a string gives: without a terminator it goes
on into what follows in the array. -/
def nameAt (slots : List Slot) (i : Nat) : Text := content (memoryOf (slots.drop i))

def phoneAt (slots : List Slot) (i : Nat) : Text := content ((memoryOf (slots.drop i)).drop 32)

namespace Book

def off : Book := ⟨none, 0, 0⟩

def entries (b : Book) : List Slot := (b.contacts.getD []).take b.count

def find (name : Text) (b : Book) : Option Nat :=
  (List.range b.count).find? fun i => nameAt (b.contacts.getD []) i = name

end Book

def contactManagerDeinit (_ : Book) : Book := .off

/-- The second increment of the count stands behind four contacts that are commented out. -/
def contactManagerInit (w : BookWorld) (b : Book) : OpResult × Book :=
  let b := if b.contacts.isSome then contactManagerDeinit b else b
  if w.allocatesDefaults then
    let contacts := (freshSlots w 10).modify 0 fun s => ⟨defaultContact s.contact, true⟩
    (.returned .ok, { contacts := some contacts, count := 2, capacity := 10 })
  else (.returned .noMem, { b with contacts := none })

/-- `contact_get_phone_by_name`, for a book that is initialised. -/
def contactGetPhoneByName (name : Text) (b : Book) : Option Text :=
  (b.find name).map (phoneAt (b.contacts.getD []))

def contactManagerLoadFromFlash (w : BookWorld) (f : ContactFlash) (b : Book) : OpResult × Book :=
  if w.nvsOpen = false then contactManagerInit w b
  else
    match if w.getCount then f.count else none with
    | none => contactManagerInit w b
    | some count =>
        if count = 0 ∨ 1000 < count then contactManagerInit w b
        else
          let b := if b.contacts.isSome then contactManagerDeinit b else b
          if w.allocates = false then (.returned .noMem, { b with contacts := none })
          else
            match if w.getBlob then f.blob else none with
            | none => contactManagerInit w .off
            | some blob =>
                -- `nvs_get_blob` refuses a blob that is larger than the array.
                if count < blob.length then contactManagerInit w .off
                else
                  let contacts := blob ++ (freshSlots w count).drop blob.length
                  (.returned .ok, { contacts := some contacts, count := count, capacity := count })

def contactManagerSaveToFlash (w : SaveWorld) (b : Book) (f : ContactFlash) :
    OpResult × ContactFlash :=
  if b.contacts.isNone ∨ b.count = 0 then (.returned .invalidState, f)
  else
    match w.nvsOpen with
    | .powerLost => (.powerLost, f)
    | .fails => (.returned .fail, f)
    | .ok =>
        match w.setCount with
        | .powerLost => (.powerLost, f)
        | .fails => (.returned .fail, f)
        | .ok =>
            let f := f.writeCount b.count
            match w.setBlob with
            | .powerLost => (.powerLost, f)
            | .fails => (.returned .fail, f)
            | .ok =>
                let f := f.writeBlob b.entries
                match w.commit with
                | .powerLost => (.powerLost, f)
                | .fails => (.returned .fail, f)
                | .ok => (.returned .ok, f)

/-- The book as `contact_manager_update` leaves it before the save, if it gets that far. -/
def updatedBook (w : BookWorld) (contacts : List ContactT) : Option Book :=
  if w.allocates then
    some ⟨some (contacts.map fun c => ⟨c, true⟩), contacts.length, contacts.length⟩
  else none

/-- The room for one more contact, if there is or can be any: the array and its capacity. -/
def grown (w : BookWorld) (slots : List Slot) (b : Book) : Option (List Slot × Nat) :=
  if b.count < b.capacity then some (slots, b.capacity)
  else if w.allocates then some (slots ++ freshSlots w 10, b.capacity + 10)
  else none

/-- The book as `contact_manager_add_or_update` leaves it before the save, if it gets that far. -/
def addedBook (w : BookWorld) (name phone : Text) (b : Book) : Option Book :=
  b.contacts.bind fun slots =>
    match b.find name with
    | some i =>
        let slots := slots.modify i fun s => { s with contact := s.contact.setPhone phone }
        some { b with contacts := some slots }
    | none =>
        (grown w slots b).map fun x =>
          let slots := x.1.set b.count ⟨.ofTexts name phone, true⟩
          { contacts := some slots, count := b.count + 1, capacity := x.2 }

structure AddressBook where
  book : Book
  flash : ContactFlash

def AddressBook.new : AddressBook := ⟨.off, ⟨none, none⟩⟩

/-- The save at the end of an operation; with the power the RAM is gone. -/
def finishWithSave (w : SaveWorld) (b : Book) (f : ContactFlash) : OpResult × AddressBook :=
  let (result, flash) := contactManagerSaveToFlash w b f
  (result, ⟨if result = .powerLost then .off else b, flash⟩)

def contactManagerUpdate (w : BookWorld) (contacts : List ContactT) (s : AddressBook) :
    OpResult × AddressBook :=
  if contacts = [] then (.returned .invalidArg, s)
  else
    match updatedBook w contacts with
    | none => (.returned .noMem, { s with book := .off })
    | some b => finishWithSave w.save b s.flash

def contactManagerAddOrUpdate (w : BookWorld) (name phone : CString) (s : AddressBook) :
    OpResult × AddressBook :=
  if s.book.contacts.isNone then (.returned .invalidState, s)
  else
    match addedBook w name.text phone.text s.book with
    | none => (.returned .noMem, s)
    | some b => finishWithSave w.save b s.flash

/-- The operations on the address book, and a restart. What is handed to `contact_manager_update`
is terminated. -/
inductive BookOp
  | init (w : BookWorld)
  | loadFromFlash (w : BookWorld)
  | update (w : BookWorld) (contacts : List { c : ContactT // c.Terminated })
  | addOrUpdate (w : BookWorld) (name phone : CString)
  | saveToFlash (w : SaveWorld)
  | deinit
  | restart

namespace BookOp

def perform (op : BookOp) (s : AddressBook) : OpResult × AddressBook :=
  match op with
  | init w =>
      let (result, book) := contactManagerInit w s.book
      (result, { s with book })
  | loadFromFlash w =>
      let (result, book) := contactManagerLoadFromFlash w s.flash s.book
      (result, { s with book })
  | update w contacts => contactManagerUpdate w (contacts.map Subtype.val) s
  | addOrUpdate w name phone => contactManagerAddOrUpdate w name phone s
  | saveToFlash w => finishWithSave w s.book s.flash
  | deinit => (.returned .ok, { s with book := contactManagerDeinit s.book })
  | restart => (.powerLost, { s with book := .off })

def step (s : AddressBook) (op : BookOp) : AddressBook := (op.perform s).2

/-- The book that the operation tries to save, if it comes to a save. -/
def saving (s : AddressBook) : BookOp → Option (SaveWorld × Book)
  | update w contacts =>
      if contacts = [] then none
      else (updatedBook w (contacts.map Subtype.val)).map fun b => (w.save, b)
  | addOrUpdate w name phone => (addedBook w name.text phone.text s.book).map fun b => (w.save, b)
  | saveToFlash w => some (w, s.book)
  | _ => none

end BookOp

/-- Which way `contact_manager_load_from_flash` takes: the defaults, no memory for the list, or a
blob for an array of the stored count. -/
inductive LoadPlan
  | defaults
  | noMemory
  | blob (count : Nat) (xs : List Slot)

def loadPlan (w : BookWorld) (f : ContactFlash) : LoadPlan :=
  match if w.nvsOpen && w.getCount then f.count else none with
  | none => .defaults
  | some count =>
      if count = 0 ∨ 1000 < count then .defaults
      else if w.allocates = false then .noMemory
      else
        match if w.getBlob then f.blob else none with
        | none => .defaults
        | some xs => if count < xs.length then .defaults else .blob count xs

def defaultBook (w : BookWorld) : Book where
  contacts := some ((freshSlots w 10).modify 0 fun s => ⟨defaultContact s.contact, true⟩)
  count := 2
  capacity := 10

def loadedBook (w : BookWorld) (count : Nat) (xs : List Slot) : Book where
  contacts := some (xs ++ (freshSlots w count).drop xs.length)
  count := count
  capacity := count

theorem content_boundedCopy {src : Text} (hsrc : nul ∉ src) (n : Nat) :
    content (boundedCopy n src) = src.take n :=
  content_strncpy hsrc n

theorem memoryOf_drop {slots : List Slot} {i : Nat} (hi : i < slots.length) :
    memoryOf (slots.drop i) =
      slots[i].contact.name ++ (slots[i].contact.phone ++ memoryOf (slots.drop (i + 1))) := by
  rw [List.drop_eq_getElem_cons hi, memoryOf, List.flatMap_cons, ContactT.bytes, List.append_assoc]
  rfl

theorem nameAt_eq {slots : List Slot} {i : Nat} (hi : i < slots.length)
    (hname : nul ∈ slots[i].contact.name) : nameAt slots i = content slots[i].contact.name := by
  rw [nameAt, memoryOf_drop hi]
  exact content_append_of_mem hname _

theorem phoneAt_eq {slots : List Slot} {i : Nat} (hi : i < slots.length)
    (hphone : nul ∈ slots[i].contact.phone) : phoneAt slots i = content slots[i].contact.phone := by
  have hdrop : ∀ rest, (slots[i].contact.name ++ rest).drop 32 = rest := by
    intro rest
    exact List.drop_left' slots[i].contact.name_length
  rw [phoneAt, memoryOf_drop hi, hdrop]
  exact content_append_of_mem hphone _

theorem entries_some {b : Book} {slots : List Slot} (h : b.contacts = some slots) :
    b.entries = slots.take b.count := by
  rw [Book.entries, h, Option.getD_some]

theorem freshSlots_length (w : BookWorld) (n : Nat) : (freshSlots w n).length = n := by
  simp [freshSlots]

theorem mem_freshSlots {w : BookWorld} {n : Nat} {s : Slot} (h : s ∈ freshSlots w n) :
    s.written = false := by
  obtain ⟨i, -, rfl⟩ := List.mem_map.1 h
  rfl

theorem contactManagerInit_eq (w : BookWorld) {b : Book} (hb : b.contacts = none → b = .off) :
    contactManagerInit w b =
      if w.allocatesDefaults then (.returned .ok, defaultBook w) else (.returned .noMem, .off) := by
  have hoff : (if b.contacts.isSome then contactManagerDeinit b else b) = .off := by
    cases h : b.contacts with
    | none => simpa using hb h
    | some slots => rfl
  rw [contactManagerInit, hoff]
  rfl

theorem contactManagerLoadFromFlash_eq (w : BookWorld) (f : ContactFlash) {b : Book}
    (hb : b.contacts = none → b = .off) :
    contactManagerLoadFromFlash w f b =
      match loadPlan w f with
      | .defaults =>
          if w.allocatesDefaults then (.returned .ok, defaultBook w) else (.returned .noMem, .off)
      | .noMemory => (.returned .noMem, .off)
      | .blob count xs => (.returned .ok, loadedBook w count xs) := by
  have hinit := contactManagerInit_eq w hb
  have hinitOff := contactManagerInit_eq w (b := .off) fun _ => rfl
  have hdeinit : (if b.contacts.isSome then contactManagerDeinit b else b) = .off := by
    cases h : b.contacts with
    | none => simpa using hb h
    | some slots => rfl
  unfold contactManagerLoadFromFlash loadPlan
  rw [hinit, hinitOff, hdeinit]
  cases w.nvsOpen with
  | false => rfl
  | true =>
    simp only [Bool.true_and, Bool.true_eq_false, if_false]
    split
    · rfl
    · rename_i count hcount
      by_cases hrange : count = 0 ∨ 1000 < count
      · simp only [if_pos hrange]
      · simp only [if_neg hrange]
        cases w.allocates with
        | false => rfl
        | true =>
          simp only [Bool.true_eq_false, if_false]
          split
          · rfl
          · rename_i xs hblob
            by_cases hlong : count < xs.length
            · simp only [if_pos hlong]
            · simp only [if_neg hlong]
              rfl

theorem flash_step (s : AddressBook) (op : BookOp) :
    (op.step s).flash =
      (op.saving s).elim s.flash fun x => (contactManagerSaveToFlash x.1 x.2 s.flash).2 := by
  cases op with
  | update w contacts =>
    simp only [BookOp.step, BookOp.perform, BookOp.saving, contactManagerUpdate, List.map_eq_nil_iff]
    by_cases hempty : contacts = []
    · simp only [if_pos hempty, Option.elim_none]
    · simp only [if_neg hempty]
      cases updatedBook w (contacts.map Subtype.val) <;> rfl
  | addOrUpdate w name phone =>
    cases hcontacts : s.book.contacts with
    | none =>
      simp [BookOp.step, BookOp.perform, BookOp.saving, contactManagerAddOrUpdate, hcontacts, addedBook]
    | some slots =>
      cases hbook : addedBook w name.text phone.text s.book <;>
        simp [BookOp.step, BookOp.perform, BookOp.saving, contactManagerAddOrUpdate, hcontacts, hbook,
          finishWithSave]
  | _ => rfl

inductive SaveReach
  | nothing
  | countOnly
  | both
  deriving DecidableEq

def saveReach (w : SaveWorld) (b : Book) : SaveReach :=
  if b.contacts.isNone ∨ b.count = 0 then .nothing
  else if w.nvsOpen = .ok ∧ w.setCount = .ok then
    if w.setBlob = .ok then .both else .countOnly
  else .nothing

theorem contactManagerSaveToFlash_snd (w : SaveWorld) (b : Book) (f : ContactFlash) :
    (contactManagerSaveToFlash w b f).2 =
      match saveReach w b with
      | .nothing => f
      | .countOnly => f.writeCount b.count
      | .both => (f.writeCount b.count).writeBlob b.entries := by
  unfold contactManagerSaveToFlash saveReach
  by_cases hempty : b.contacts.isNone ∨ b.count = 0
  · simp only [if_pos hempty]
  · simp only [if_neg hempty]
    cases w.nvsOpen <;> cases w.setCount <;> cases w.setBlob <;> cases w.commit <;> rfl

theorem saveReach_of_ok {w : SaveWorld} {b : Book} {f : ContactFlash}
    (h : (contactManagerSaveToFlash w b f).1 = .returned .ok) : saveReach w b = .both := by
  unfold contactManagerSaveToFlash at h
  unfold saveReach
  by_cases hempty : b.contacts.isNone ∨ b.count = 0
  · rw [if_pos hempty] at h
    exact absurd (OpResult.returned.inj h) (by decide)
  · rw [if_neg hempty] at h ⊢
    cases hopen : w.nvsOpen <;> cases hcount : w.setCount <;> cases hblob : w.setBlob <;>
      simp_all

end Leyu
