import Leyu.Contacts.AllOrNothing

/-!
# The address book as a finite map

A successful `contact_manager_add_or_update` is an update of the map from names to phones. The
search compares the whole name, but a new contact keeps 31 bytes of it only, so this holds for the
names that fit their field.
-/

namespace Leyu

open Framework

def bookMap (b : Book) (name : Text) : Option Text := contactGetPhoneByName name b

/-- The operation updates the map at the name and nowhere else, and the next one with that name
adds no contact. -/
structure UpdatesMap (w : BookWorld) (name phone : CString) (s : AddressBook) : Prop where
  lookup : bookMap (contactManagerAddOrUpdate w name phone s).2.book =
    Function.update (bookMap s.book) name.text (some (phone.text.take 15))
  again : ∀ (w' : BookWorld) (phone' : CString),
    (contactManagerAddOrUpdate w' name phone' (contactManagerAddOrUpdate w name phone s).2).2.book.count ≤
      (contactManagerAddOrUpdate w name phone s).2.book.count

/-- The last phone of the list is terminated, so that no text goes on behind the list. -/
def EndsInList (b : Book) : Prop := ∀ c ∈ b.entries.getLast?, nul ∈ c.contact.phone

instance (b : Book) : Decidable (EndsInList b) :=
  inferInstanceAs (Decidable (∀ c ∈ b.entries.getLast?, nul ∈ c.contact.phone))

private theorem bookMap_eq (b : Book) : bookMap b = mapOf b.texts := funext b.lookup_eq_mapOf

private theorem isSome_find (b : Book) (name : Text) :
    (b.find name).isSome = (bookMap b name).isSome := by
  unfold bookMap contactGetPhoneByName
  rw [Option.isSome_map]

private theorem count_of_found {w : BookWorld} {name phone : CString} {s : AddressBook}
    (hfound : (bookMap s.book name.text).isSome) :
    (contactManagerAddOrUpdate w name phone s).2.book.count ≤ s.book.count := by
  rw [← isSome_find] at hfound
  obtain ⟨i, hfind⟩ := Option.isSome_iff_exists.1 hfound
  unfold contactManagerAddOrUpdate
  cases hslots : s.book.contacts with
  | none => exact Nat.le_refl _
  | some slots =>
    simp only [Option.isNone_some, Bool.false_eq_true, if_false,
      addedBook_found w phone.text hslots hfind]
    rcases finishWithSave_book w.save
      { s.book with contacts := some (slots.modify i (Slot.withPhone phone.text)) } s.flash with
      hkept | hoff
    · rw [hkept]
    · rw [hoff]
      exact Nat.zero_le _

private theorem book_of_ok {w : BookWorld} {name phone : CString} {s : AddressBook}
    (hok : (contactManagerAddOrUpdate w name phone s).1 = .returned .ok) :
    addedBook w name.text phone.text s.book =
      some (contactManagerAddOrUpdate w name phone s).2.book := by
  unfold contactManagerAddOrUpdate at hok ⊢
  by_cases hnull : s.book.contacts.isNone = true
  · rw [if_pos hnull] at hok
    exact absurd (OpResult.returned.inj hok) (by decide)
  · rw [if_neg hnull] at hok ⊢
    cases hadded : addedBook w name.text phone.text s.book with
    | none =>
      rw [hadded] at hok
      exact absurd (OpResult.returned.inj hok) (by decide)
    | some b =>
      rw [hadded] at hok
      have hresult : (contactManagerSaveToFlash w.save b s.flash).1 = .returned .ok := hok
      have hpower : (contactManagerSaveToFlash w.save b s.flash).1 ≠ .powerLost := by
        rw [hresult]
        intro h
        cases h
      exact congrArg some (if_neg hpower).symm

section Found

variable {b b' : Book} {name phone : Text} {i : Nat} {slots : List Slot}

private theorem bookMap_found_short (hslots : b.contacts = some slots)
    (hfind : b.find name = some i) (hlength : i < slots.length) (hphone : nul ∉ phone)
    (hshort : name.length < 32)
    (hb' : b' = { b with contacts := some (slots.modify i (Slot.withPhone phone)) }) :
    bookMap b' = Function.update (bookMap b) name (some (phone.take 15)) := by
  obtain ⟨hi, hname, hfirst⟩ := Book.find_some hfind
  have hget : b.contacts.getD [] = slots := by rw [hslots, Option.getD_some]
  rw [hget] at hname hfirst
  have hterminated : nul ∈ slots[i].contact.name := by
    rw [← nameAt_long_iff hlength, hname]
    exact hshort
  obtain ⟨front, s, back, rfl, rfl⟩ := exists_split hlength
  rw [List.getElem_append_right (Nat.le_refl _)] at hterminated
  simp only [Nat.sub_self, List.getElem_cons_zero] at hterminated
  rw [modify_withPhone] at hb'
  subst hb'
  have htexts : Book.texts { b with contacts := some (front ++ s.withPhone phone :: back) } =
      b.texts.set front.length (name, phone.take 15) := by
    have hnew (j : Nat) (hj : j < b.count) :=
      Book.texts_getElem? { b with contacts := some (front ++ s.withPhone phone :: back) } hj
    apply List.ext_getElem?
    intro j
    by_cases hj : j < b.count
    · rw [hnew j hj]
      by_cases heq : j = front.length
      · rw [heq, List.getElem?_set_self (by rw [Book.texts_length]; exact hi)]
        simp only [Option.getD_some]
        rw [nameAt_withPhone_short hterminated, hname, phoneAt_withPhone hphone]
      · rw [List.getElem?_set_ne (Ne.symm heq), b.texts_getElem? hj, hget]
        have hreads := reads_replaced front back
          (nameAt_withPhone_short hterminated phone) heq
        simp only [Option.getD_some, hreads]
    · rw [List.getElem?_eq_none, List.getElem?_eq_none]
      · rw [List.length_set, Book.texts_length]
        omega
      · rw [Book.texts_length]
        show b.count ≤ j
        omega
  rw [bookMap_eq, bookMap_eq, htexts]
  have hentry : b.texts[front.length]? =
      some (name, phoneAt (front ++ s :: back) front.length) := by
    rw [b.texts_getElem? hi, hget, hname]
  apply mapOf_set _ hentry
  intro j hj p hp
  rw [b.texts_getElem? (by omega), hget] at hp
  rw [← Option.some.inj hp]
  exact hfirst j hj

/-- Where the name is longer than its field, the lookup finds the phone it found before, if
anything: it is the end of the name. -/
theorem bookMap_long {name : Text} (hb : b.Shaped) (hlong : 32 ≤ name.length) {p : Text}
    (hp : bookMap b name = some p) : p = name.drop 32 := by
  unfold bookMap contactGetPhoneByName at hp
  obtain ⟨i, hfind, rfl⟩ := Option.map_eq_some_iff.1 hp
  obtain ⟨hi, hname, -⟩ := Book.find_some hfind
  have hin : i < (b.contacts.getD []).length := by
    have hle := hb.count_le
    cases hslots : b.contacts with
    | none =>
      rw [hb.off_of_null hslots] at hi
      exact absurd hi (Nat.not_lt_zero i)
    | some slots =>
      have hlength := hb.length_eq slots hslots
      rw [Option.getD_some]
      omega
  rw [← hname] at hlong ⊢
  exact phoneAt_of_long hin hlong

private theorem lookup_found_iff {w : BookWorld} (hb : b.Shaped) (hphone : nul ∉ phone)
    (hfind : b.find name = some i) (hadded : addedBook w name phone b = some b') :
    bookMap b' = Function.update (bookMap b) name (some (phone.take 15)) ↔
      name.length < 32 ∨ bookMap b name = some (phone.take 15) := by
  obtain ⟨slots, hslots⟩ : ∃ slots, b.contacts = some slots := by
    obtain ⟨slots, hslots, -⟩ := Option.bind_eq_some_iff.1 hadded
    exact ⟨slots, hslots⟩
  have hshaped' := shaped_added hb hadded
  have hlength := hb.length_eq slots hslots
  have hle := hb.count_le
  obtain ⟨hi, -, -⟩ := Book.find_some hfind
  have hold : bookMap b name = some (phoneAt slots i) := by
    unfold bookMap contactGetPhoneByName
    rw [hfind, hslots, Option.getD_some]
    rfl
  have hb' : b' = { b with contacts := some (slots.modify i (Slot.withPhone phone)) } := by
    rw [addedBook_found w phone hslots hfind] at hadded
    exact (Option.some.inj hadded).symm
  by_cases hsame : phoneAt slots i = phone.take 15
  · have htexts := (texts_withPhone_iff hslots hi (by omega) hphone).2 hsame
    refine iff_of_true ?_ (.inr (by rw [hold, hsame]))
    rw [bookMap_eq, hb', htexts, ← bookMap_eq, ← hsame, ← hold, Function.update_eq_self]
  · rcases Nat.lt_or_ge name.length 32 with hshort | hlong
    · exact iff_of_true (bookMap_found_short hslots hfind (by omega) hphone hshort hb') (.inl hshort)
    · refine iff_of_false ?_ ?_
      · intro h
        have hnew : bookMap b' name = some (phone.take 15) := by rw [h, Function.update_self]
        apply hsame
        rw [bookMap_long hb hlong hold, bookMap_long hshaped' hlong hnew]
      · rintro (hshort | hphones)
        · omega
        · exact hsame (Option.some.inj (hold.symm.trans hphones))

end Found

section NotFound

variable {w : BookWorld} {b b' : Book} {name phone : Text}

private theorem texts_added (hb : b.Shaped) (hend : EndsInList b) (hname : nul ∉ name)
    (hphone : nul ∉ phone) (hfind : b.find name = none)
    (hadded : addedBook w name phone b = some b') :
    b'.texts = b.texts ++ [(name.take 31, phone.take 15)] := by
  have hle := hb.count_le
  have hnew := (addedBook_new hfind hadded).1
  rcases addedBook_cases hb hadded with
    ⟨slots, i, hslots, hi, rfl⟩ | ⟨slots, rest, hslots, hroom, hless, hcount, hcontacts⟩
  · exact absurd hnew (Nat.ne_of_lt (Nat.lt_succ_self b.count))
  · have hlength := hb.length_eq slots hslots
    have hfront : (slots.take b.count).length = b.count := by
      rw [List.length_take]
      omega
    have hset : (slots ++ rest).set b.count ⟨.ofTexts name phone, true⟩ =
        slots.take b.count ++ ⟨.ofTexts name phone, true⟩ :: (slots ++ rest).drop (b.count + 1) := by
      have hin : b.count < (slots ++ rest).length := by
        rw [List.length_append]
        omega
      rw [List.set_eq_take_append_cons_drop, if_pos hin, List.take_append_of_le_length (by omega)]
    have hlast : ∀ c ∈ (slots.take b.count).getLast?, nul ∈ c.contact.phone := by
      rw [← entries_some hslots]
      exact hend
    have hget : b.contacts.getD [] = slots := by rw [hslots, Option.getD_some]
    have hget' : b'.contacts.getD [] = slots.take b.count ++
        ⟨.ofTexts name phone, true⟩ :: (slots ++ rest).drop (b.count + 1) := by
      rw [hcontacts, Option.getD_some, hset]
    apply List.ext_getElem?
    intro j
    rcases Nat.lt_trichotomy j b.count with hj | rfl | hj
    · have hreads := reads_ended hlast (slots.drop b.count)
        (⟨.ofTexts name phone, true⟩ :: (slots ++ rest).drop (b.count + 1)) (by rwa [hfront])
      rw [List.take_append_drop] at hreads
      rw [List.getElem?_append_left (by rwa [Book.texts_length]), b.texts_getElem? hj,
        b'.texts_getElem? (by omega), hget, hget', hreads.1, hreads.2]
    · have hself := nameAt_self (slots.take b.count) ⟨.ofTexts name phone, true⟩
        ((slots ++ rest).drop (b.count + 1))
      have hselfPhone := phoneAt_self (slots.take b.count) ⟨.ofTexts name phone, true⟩
        ((slots ++ rest).drop (b.count + 1))
      rw [hfront] at hself hselfPhone
      rw [List.getElem?_append_right (by rw [Book.texts_length]), Book.texts_length, Nat.sub_self,
        b'.texts_getElem? (by omega), hget', hself, hselfPhone]
      have hnameText : content (boundedCopy 31 name ++ (boundedCopy 15 phone ++
          memoryOf ((slots ++ rest).drop (b.count + 1)))) = name.take 31 := by
        rw [content_append_of_mem (boundedCopy_terminated 31 name), content_boundedCopy hname]
      have hphoneText : content (boundedCopy 15 phone ++
          memoryOf ((slots ++ rest).drop (b.count + 1))) = phone.take 15 := by
        rw [content_append_of_mem (boundedCopy_terminated 15 phone), content_boundedCopy hphone]
      exact congrArg some (Prod.ext hnameText hphoneText)
    · rw [List.getElem?_eq_none, List.getElem?_eq_none]
      · rw [List.length_append, Book.texts_length]
        exact hj
      · rw [Book.texts_length]
        omega

private theorem lookup_new_iff (hb : b.Shaped) (hend : EndsInList b) (hname : nul ∉ name)
    (hphone : nul ∉ phone) (hfind : b.find name = none)
    (hadded : addedBook w name phone b = some b') :
    bookMap b' = Function.update (bookMap b) name (some (phone.take 15)) ↔
      name.length < 32 ∨ bookMap b name = some (phone.take 15) := by
  have hnone : bookMap b name = none := by
    unfold bookMap contactGetPhoneByName
    rw [hfind]
    rfl
  have htexts := texts_added hb hend hname hphone hfind hadded
  rcases Nat.lt_or_ge name.length 32 with hshort | hlong
  · have htake : name.take 31 = name := List.take_of_length_le (by omega)
    refine iff_of_true ?_ (.inl hshort)
    rw [bookMap_eq, htexts, htake, bookMap_eq]
    apply mapOf_insert
    rw [← bookMap_eq]
    exact hnone
  · have hne : name ≠ name.take 31 := by
      intro heq
      have hlengths := congrArg List.length heq
      rw [List.length_take] at hlengths
      omega
    refine iff_of_false ?_ ?_
    · intro h
      have hfound : bookMap b' name = some (phone.take 15) := by rw [h, Function.update_self]
      rw [bookMap_eq, htexts, mapOf_append_of_ne _ _ hne, ← bookMap_eq, hnone] at hfound
      cases hfound
    · rintro (hshort | hphones)
      · omega
      · rw [hnone] at hphones
        cases hphones

end NotFound

private theorem updatesMap_iff_lookup (w : BookWorld) (name phone : CString) (s : AddressBook) :
    UpdatesMap w name phone s ↔ bookMap (contactManagerAddOrUpdate w name phone s).2.book =
      Function.update (bookMap s.book) name.text (some (phone.text.take 15)) := by
  refine ⟨UpdatesMap.lookup, fun h => ⟨h, fun w' phone' => count_of_found ?_⟩⟩
  rw [h, Function.update_self]
  rfl

/-- Over every reachable book: an operation that succeeds updates the map, if the name is found or
no text leaves the list, exactly when the name fits its field or has this phone already. -/
theorem updatesMap_iff (ops : List BookOp) (w : BookWorld) (name phone : CString)
    (hok : (contactManagerAddOrUpdate w name phone (run BookOp.step .new ops)).1 = .returned .ok)
    (hlist : (bookMap (run BookOp.step .new ops).book name.text).isSome ∨
      EndsInList (run BookOp.step .new ops).book) :
    UpdatesMap w name phone (run BookOp.step .new ops) ↔ name.text.length < 32 ∨
      bookMap (run BookOp.step .new ops).book name.text = some (phone.text.take 15) := by
  have hs := shaped_run ops
  generalize run BookOp.step .new ops = s at hok hlist hs ⊢
  have hadded := book_of_ok hok
  have hphone : nul ∉ phone.text := nul_notMem_content phone.block
  have hname : nul ∉ name.text := nul_notMem_content name.block
  rw [updatesMap_iff_lookup]
  cases hfind : s.book.find name.text with
  | some i => exact lookup_found_iff hs hphone hfind hadded
  | none =>
    have hend : EndsInList s.book := by
      rcases hlist with hfound | hend
      · rw [← isSome_find, hfind] at hfound
        cases hfound
      · exact hend
    exact lookup_new_iff hs hend hname hphone hfind hadded

def oneContact : List BookOp := [.update goodWorld [contactOf "a".toList "1".toList]]

theorem updatesMap_second :
    UpdatesMap goodWorld (.ofText "b".toList) (.ofText "2".toList)
      (run BookOp.step .new oneContact) :=
  (updatesMap_iff oneContact goodWorld (.ofText "b".toList) (.ofText "2".toList) rfl
    (.inr (by decide))).2 (.inl (by decide))

/-- A name of 32 bytes, as a contact is given by voice. -/
def longName : CString := .ofText (List.replicate 32 'x')

/-- The contact is added successfully, is not found, and is added again. -/
theorem longName_notFound :
    (contactManagerAddOrUpdate goodWorld longName (.ofText "2".toList)
        (run BookOp.step .new oneContact)).1 = .returned .ok ∧
      ¬ UpdatesMap goodWorld longName (.ofText "2".toList) (run BookOp.step .new oneContact) ∧
      (run BookOp.step .new (oneContact ++
        List.replicate 3 (.addOrUpdate goodWorld longName (.ofText "2".toList)))).book.count = 4 := by
  refine ⟨rfl, ?_, by decide⟩
  intro h
  have hagain := h.again goodWorld (.ofText "2".toList)
  exact absurd hagain (by decide)

end Leyu
