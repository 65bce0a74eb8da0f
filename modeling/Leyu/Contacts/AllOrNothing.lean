import Leyu.Contacts.Texts

/-!
# Failed updates of the address book

`contact_manager_update` and `contact_manager_add_or_update` change the contacts in memory before
the steps that can fail, the first one by giving its array back.
-/

namespace Leyu

open Framework

/-- `contact_manager_get_all`, with the texts that its caller reads. -/
def contactManagerGetAll (b : Book) : Option (List (Text × Text)) := b.contacts.map fun _ => b.texts

structure SameContacts (before after : Book) : Prop where
  getAll : contactManagerGetAll after = contactManagerGetAll before
  lookup : ∀ name, contactGetPhoneByName name after = contactGetPhoneByName name before

/-- A change of the contacts that returns an error has not changed them. -/
def AllOrNothing (s : AddressBook) (op : BookOp) : Prop :=
  match op with
  | .update _ _ | .addOrUpdate _ _ _ =>
      ∀ err, (op.perform s).1 = .returned err → err ≠ .ok → SameContacts s.book (op.step s).book
  | _ => True

/-- The first call of a save that does not succeed returns an error. -/
def SaveWorld.Fails (w : SaveWorld) : Prop :=
  [w.nvsOpen, w.setCount, w.setBlob, w.commit].find? (· ≠ .ok) = some .fails

instance (w : SaveWorld) : Decidable w.Fails := by
  unfold SaveWorld.Fails; infer_instance

def ContactT.texts (c : ContactT) : Text × Text := (content c.name, content c.phone)

/-- Nothing is lost by a failure: none comes after the change, or the change is to what is there
already. -/
def NothingToLose (s : AddressBook) : BookOp → Prop
  | .update w contacts =>
      contacts = [] ∨ (w.allocates = false ∧ s.book.contacts = none) ∨
        (w.allocates = true ∧ (¬ w.save.Fails ∨
          contactManagerGetAll s.book = some (contacts.map fun c => c.val.texts)))
  | .addOrUpdate w name phone =>
      s.book.contacts = none ∨ ¬ w.save.Fails ∨
        contactGetPhoneByName name.text s.book = some (phone.text.take 15) ∨
        (contactGetPhoneByName name.text s.book = none ∧ s.book.capacity ≤ s.book.count ∧
          w.allocates = false)
  | _ => True

private theorem SameContacts.refl (b : Book) : SameContacts b b := ⟨rfl, fun _ => rfl⟩

private theorem sameContacts_iff {before after : Book} (hbefore : before.Shaped)
    (hafter : after.Shaped) :
    SameContacts before after ↔ contactManagerGetAll after = contactManagerGetAll before := by
  refine ⟨SameContacts.getAll, fun h => ⟨h, ?_⟩⟩
  have htexts : after.texts = before.texts := by
    unfold contactManagerGetAll at h
    cases hb : before.contacts with
    | none =>
      rw [hb, Option.map_none, Option.map_eq_none_iff] at h
      rw [hbefore.off_of_null hb, hafter.off_of_null h]
    | some slots =>
      obtain ⟨slots', -, hsame⟩ := Option.map_eq_some_iff.1 (h.trans (by rw [hb, Option.map_some]))
      exact hsame
  intro name
  rw [Book.lookup_eq_mapOf, Book.lookup_eq_mapOf, htexts]

private theorem save_error_iff {w : SaveWorld} {b : Book} (hb : ¬ (b.contacts.isNone ∨ b.count = 0))
    (f : ContactFlash) :
    (∃ err, (contactManagerSaveToFlash w b f).1 = .returned err ∧ err ≠ .ok) ↔ w.Fails := by
  unfold contactManagerSaveToFlash SaveWorld.Fails
  rw [if_neg hb]
  cases w.nvsOpen <;> cases w.setCount <;> cases w.setBlob <;> cases w.commit <;> simp

/-- An operation that ends with a save keeps the contacts exactly when the save does not fail or
the contacts are the same. -/
theorem finishWithSave_keeps_iff {w : SaveWorld} {before b : Book} (hbefore : before.Shaped)
    (hb : b.Shaped) (hcount : 0 < b.count) (f : ContactFlash) :
    (∀ err, (finishWithSave w b f).1 = .returned err → err ≠ .ok →
        SameContacts before (finishWithSave w b f).2.book) ↔
      ¬ w.Fails ∨ contactManagerGetAll b = contactManagerGetAll before := by
  have hsaved : ¬ (b.contacts.isNone ∨ b.count = 0) := by
    rintro (hnone | hzero)
    · rw [hb.off_of_null (Option.isNone_iff_eq_none.1 hnone)] at hcount
      exact absurd hcount (Nat.lt_irrefl 0)
    · omega
  have hbook : ∀ err, (finishWithSave w b f).1 = .returned err → (finishWithSave w b f).2.book = b := by
    intro err herr
    have hresult : (contactManagerSaveToFlash w b f).1 = .returned err := herr
    have hpower : (contactManagerSaveToFlash w b f).1 ≠ .powerLost := by
      rw [hresult]
      intro h
      cases h
    exact if_neg hpower
  rw [← save_error_iff hsaved f, ← sameContacts_iff hbefore hb]
  constructor
  · intro h
    by_cases herror : ∃ err, (contactManagerSaveToFlash w b f).1 = .returned err ∧ err ≠ .ok
    · obtain ⟨err, herr, hne⟩ := herror
      have hsame := h err herr hne
      rw [hbook err herr] at hsame
      exact .inr hsame
    · exact .inl herror
  · rintro (hnever | hsame) err herr hne
    · exact absurd ⟨err, herr, hne⟩ hnever
    · rw [hbook err herr]
      exact hsame

private theorem texts_updated (contacts : List { c : ContactT // c.Terminated }) :
    (Book.mk (some ((contacts.map Subtype.val).map fun c => (⟨c, true⟩ : Slot)))
      (contacts.map Subtype.val).length (contacts.map Subtype.val).length).texts =
        contacts.map fun c => c.val.texts := by
  apply List.ext_getElem
  · simp [Book.texts]
  · intro i hi hi'
    rw [List.length_map] at hi'
    have hslots : i < ((contacts.map Subtype.val).map fun c => (⟨c, true⟩ : Slot)).length := by
      simpa using hi'
    have hslot : ((contacts.map Subtype.val).map fun c => (⟨c, true⟩ : Slot))[i].contact =
        contacts[i].val := by simp
    obtain ⟨hname, hphone⟩ := contacts[i].2
    simp only [Book.texts, List.getElem_map, List.getElem_range, Option.getD_some, ContactT.texts]
    rw [nameAt_eq hslots (by rw [hslot]; exact hname), phoneAt_eq hslots (by rw [hslot]; exact hphone),
      hslot]

private theorem update_allOrNothing_iff {s : AddressBook} (hs : s.book.Shaped) (w : BookWorld)
    (contacts : List { c : ContactT // c.Terminated }) :
    AllOrNothing s (.update w contacts) ↔ NothingToLose s (.update w contacts) := by
  have hperform : BookOp.perform (.update w contacts) s =
      contactManagerUpdate w (contacts.map Subtype.val) s := rfl
  unfold AllOrNothing NothingToLose
  simp only [BookOp.step, hperform]
  unfold contactManagerUpdate
  by_cases hempty : contacts = []
  · rw [if_pos (List.map_eq_nil_iff.2 hempty)]
    exact iff_of_true (fun _ _ _ => .refl _) (.inl hempty)
  · have hne : contacts.map Subtype.val ≠ [] := fun hnil => hempty (List.map_eq_nil_iff.1 hnil)
    rw [if_neg hne]
    cases hallocates : w.allocates with
    | false =>
      have hnone : updatedBook w (contacts.map Subtype.val) = none := by
        rw [updatedBook, hallocates]
        rfl
      simp only [hnone, hempty, false_or, true_and, Bool.false_eq_true, false_and, or_false]
      constructor
      · intro h
        have hall := (h .noMem rfl (by decide)).getAll
        exact Option.map_eq_none_iff.1 hall.symm
      · intro hnull err _ _
        rw [hs.off_of_null hnull]
        exact .refl _
    | true =>
      have hbook : updatedBook w (contacts.map Subtype.val) =
          some ⟨some ((contacts.map Subtype.val).map fun c => ⟨c, true⟩),
            (contacts.map Subtype.val).length, (contacts.map Subtype.val).length⟩ := if_pos hallocates
      have hpos : 0 < (contacts.map Subtype.val).length := List.length_pos_iff.2 hne
      simp only [hbook, hempty, false_or, Bool.true_eq_false, false_and, true_and]
      rw [finishWithSave_keeps_iff hs (shaped_updated hne hbook) hpos]
      apply or_congr Iff.rfl
      rw [← texts_updated contacts]
      exact eq_comm

theorem addedBook_found (w : BookWorld) (phone : Text) {b : Book} {slots : List Slot} {name : Text}
    {i : Nat} (hslots : b.contacts = some slots) (hfind : b.find name = some i) :
    addedBook w name phone b =
      some { b with contacts := some (slots.modify i (Slot.withPhone phone)) } := by
  unfold addedBook
  rw [hslots, Option.bind_some, hfind]
  rfl

theorem texts_withPhone_iff {b : Book} {slots : List Slot} {phone : Text} {i : Nat}
    (hslots : b.contacts = some slots) (hi : i < b.count) (hlength : i < slots.length)
    (hphone : nul ∉ phone) :
    ({ b with contacts := some (slots.modify i (Slot.withPhone phone)) } : Book).texts = b.texts ↔
      phoneAt slots i = phone.take 15 := by
  obtain ⟨front, s, back, rfl, rfl⟩ := exists_split hlength
  have hget : b.contacts.getD [] = front ++ s :: back := by rw [hslots, Option.getD_some]
  rw [modify_withPhone]
  constructor
  · intro htexts
    have hnew := Book.texts_getElem?
      { b with contacts := some (front ++ s.withPhone phone :: back) } (i := front.length) hi
    rw [htexts, b.texts_getElem? hi, hget] at hnew
    have hphones := (Prod.mk.inj (Option.some.inj hnew)).2
    exact hphones.trans (phoneAt_withPhone hphone front s back)
  · intro hsame
    have hreads : ∀ j < b.count,
        nameAt (front ++ s.withPhone phone :: back) j = nameAt (b.contacts.getD []) j ∧
          phoneAt (front ++ s.withPhone phone :: back) j = phoneAt (b.contacts.getD []) j := by
      intro j _
      rw [hget]
      exact reads_withPhone_same hphone hsame j
    exact Book.texts_congr (b := b) rfl hreads

theorem addedBook_new {w : BookWorld} {b b' : Book} {name phone : Text}
    (hfind : b.find name = none) (hadded : addedBook w name phone b = some b') :
    b'.count = b.count + 1 ∧ ¬ (b.capacity ≤ b.count ∧ w.allocates = false) := by
  unfold addedBook at hadded
  obtain ⟨slots, -, hadded⟩ := Option.bind_eq_some_iff.1 hadded
  rw [hfind] at hadded
  obtain ⟨x, hgrown, rfl⟩ := Option.map_eq_some_iff.1 hadded
  refine ⟨rfl, ?_⟩
  rintro ⟨hfull, hallocates⟩
  have hroom : ¬ b.count < b.capacity := by omega
  simp only [grown, hroom, hallocates, if_false, Bool.false_eq_true] at hgrown
  cases hgrown

private theorem addedBook_none {w : BookWorld} {name phone : Text} {b : Book} {slots : List Slot}
    (hslots : b.contacts = some slots) (hfind : b.find name = none)
    (hadded : addedBook w name phone b = none) :
    b.capacity ≤ b.count ∧ w.allocates = false := by
  unfold addedBook at hadded
  rw [hslots, Option.bind_some, hfind] at hadded
  have hgrown := Option.map_eq_none_iff.1 hadded
  unfold grown at hgrown
  split at hgrown
  · cases hgrown
  · rename_i hfull
    split at hgrown
    · cases hgrown
    · rename_i hallocates
      exact ⟨by omega, by simpa using hallocates⟩

private theorem getAll_ne_of_count {b b' : Book} {slots : List Slot}
    (hslots : b.contacts = some slots) (hcount : b'.count ≠ b.count) :
    contactManagerGetAll b' ≠ contactManagerGetAll b := by
  unfold contactManagerGetAll
  rw [hslots, Option.map_some]
  intro hsame
  obtain ⟨slots', -, htexts⟩ := Option.map_eq_some_iff.1 hsame
  have hlengths := congrArg List.length htexts
  rw [Book.texts_length, Book.texts_length] at hlengths
  exact hcount hlengths

private theorem addOrUpdate_allOrNothing_iff {s : AddressBook} (hs : s.book.Shaped) (w : BookWorld)
    (name phone : CString) :
    AllOrNothing s (.addOrUpdate w name phone) ↔ NothingToLose s (.addOrUpdate w name phone) := by
  have hperform : BookOp.perform (.addOrUpdate w name phone) s =
      contactManagerAddOrUpdate w name phone s := rfl
  have hphone : nul ∉ phone.text := nul_notMem_content phone.block
  unfold AllOrNothing NothingToLose
  simp only [BookOp.step, hperform]
  unfold contactManagerAddOrUpdate
  cases hslots : s.book.contacts with
  | none =>
    simp only [Option.isNone_none, if_true, true_or, iff_true]
    exact fun _ _ _ => .refl _
  | some slots =>
    have hlength := hs.length_eq slots hslots
    have hle := hs.count_le
    simp only [Option.isNone_some, Bool.false_eq_true, if_false, reduceCtorEq, false_or]
    have hlookup : contactGetPhoneByName name.text s.book =
        (s.book.find name.text).map (phoneAt slots) := by
      unfold contactGetPhoneByName
      rw [hslots, Option.getD_some]
    cases hfind : s.book.find name.text with
    | some i =>
      obtain ⟨hi, -, -⟩ := Book.find_some hfind
      have hadded := addedBook_found w phone.text hslots hfind
      have hshaped := shaped_added hs hadded
      have hpos : 0 < s.book.count := by omega
      simp only [hadded]
      rw [finishWithSave_keeps_iff hs hshaped hpos, hlookup, hfind]
      have htexts := texts_withPhone_iff hslots hi (by omega) hphone
      simp only [contactManagerGetAll, hslots, Option.map_some, Option.some.injEq, htexts,
        reduceCtorEq, false_and, or_false]
    | none =>
      rw [hlookup, hfind]
      cases hadded : addedBook w name.text phone.text s.book with
      | none =>
        simp only [Option.map_none, true_and]
        exact iff_of_true (fun _ _ _ => .refl _) (.inr (.inr (addedBook_none hslots hfind hadded)))
      | some b =>
        have hshaped := shaped_added hs hadded
        have hmore := addedBook_new hfind hadded
        have hpos : 0 < b.count := by omega
        have hall := getAll_ne_of_count hslots (by omega : b.count ≠ s.book.count)
        simp only []
        rw [finishWithSave_keeps_iff hs hshaped hpos]
        simp only [hall, hmore.2, Option.map_none, reduceCtorEq, and_false, or_false]

private theorem allOrNothing_iff {s : AddressBook} (hs : s.book.Shaped) (op : BookOp) :
    AllOrNothing s op ↔ NothingToLose s op := by
  cases op with
  | update w contacts => exact update_allOrNothing_iff hs w contacts
  | addOrUpdate w name phone => exact addOrUpdate_allOrNothing_iff hs w name phone
  | _ => exact Iff.rfl

/-- In every run each failed change of the contacts has changed nothing exactly when no change
fails with something to lose. -/
theorem allOrNothing_run_iff (ops : List BookOp) :
    AllSteps BookOp.step AllOrNothing .new ops ↔ AllSteps BookOp.step NothingToLose .new ops := by
  apply allSteps_congr (I := fun s : AddressBook => s.book.Shaped) _ _ shaped_off ops
  · exact fun s op hs hok => ⟨(allOrNothing_iff hs op).mpr hok, shaped_step hs op⟩
  · exact fun s op hs hgood => (allOrNothing_iff hs op).mp hgood

def noMemory : BookWorld := { goodWorld with allocates := false }

/-- A synchronisation that finds no memory, after a list of one contact. -/
def starvedUpdate : List BookOp :=
  [.update goodWorld [contactOf "a".toList "1".toList],
    .update noMemory [contactOf "b".toList "2".toList]]

/-- The update fails for want of memory, and the old list is gone. -/
theorem starvedUpdate_lost :
    ¬ AllSteps BookOp.step AllOrNothing .new starvedUpdate ∧
      contactManagerGetAll (run BookOp.step .new starvedUpdate).book = none := by
  refine ⟨?_, rfl⟩
  rintro ⟨-, hsecond, -⟩
  have hsame := (hsecond .noMem rfl (by decide)).getAll
  cases hsame

end Leyu
