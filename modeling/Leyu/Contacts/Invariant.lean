import Leyu.Contacts.Book

/-!
# The representation of the address book

Pointer, count and capacity fit each other after every operation, whatever fails. That the
counted contacts are all written does not survive the defaults, which count one contact too many,
nor a blob shorter than the stored count.
-/

namespace Leyu

open Framework

/-- Pointer, count and capacity fit each other and the array. -/
structure Book.Shaped (b : Book) : Prop where
  count_le : b.count ≤ b.capacity
  null_iff : b.contacts = none ↔ b.capacity = 0
  length_eq : ∀ slots ∈ b.contacts, slots.length = b.capacity

def Slot.Valid (s : Slot) : Prop := s.written = true ∧ s.contact.Terminated

structure Book.Represents (b : Book) : Prop where
  shaped : b.Shaped
  valid : ∀ s ∈ b.entries, s.Valid

/-- The operation leaves contacts below the count that were never written: the defaults find
memory, or a blob is shorter than its count. -/
def LeavesUnwritten (s : AddressBook) : BookOp → Prop
  | .init w => w.allocatesDefaults = true
  | .loadFromFlash w =>
      match loadPlan w s.flash with
      | .defaults => w.allocatesDefaults = true
      | .noMemory => False
      | .blob count xs => xs.length ≠ count
  | _ => False

theorem boundedCopy_terminated (n : Nat) (src : Text) : nul ∈ boundedCopy n src := by
  simp [boundedCopy]

theorem ContactT.terminated_ofTexts (name phone : Text) : (ofTexts name phone).Terminated :=
  ⟨boundedCopy_terminated 31 name, boundedCopy_terminated 15 phone⟩

theorem Book.Shaped.off_of_null {b : Book} (hb : b.Shaped) (h : b.contacts = none) : b = .off := by
  have hcapacity := hb.null_iff.1 h
  have hcount : b.count = 0 := by
    have hle := hb.count_le
    omega
  cases b
  simp_all [Book.off]

theorem Book.Shaped.entries_length {b : Book} (hb : b.Shaped) : b.entries.length = b.count := by
  have hle := hb.count_le
  cases h : b.contacts with
  | none => rw [hb.off_of_null h]; rfl
  | some slots =>
    have hlength := hb.length_eq slots h
    rw [entries_some h, List.length_take]
    omega

theorem shaped_off : Book.off.Shaped := ⟨Nat.le_refl 0, by simp [Book.off], by simp [Book.off]⟩

private theorem shaped_default (w : BookWorld) : (defaultBook w).Shaped := by
  refine ⟨?_, by simp [defaultBook], ?_⟩
  · show 2 ≤ 10
    omega
  · intro slots hslots
    obtain rfl := Option.some.inj hslots
    rw [List.length_modify, freshSlots_length]
    rfl

theorem loadPlan_blob {w : BookWorld} {f : ContactFlash} {count : Nat} {xs : List Slot}
    (h : loadPlan w f = .blob count xs) :
    f.count = some count ∧ f.blob = some xs ∧ 0 < count ∧ count ≤ 1000 ∧ xs.length ≤ count := by
  unfold loadPlan at h
  split at h
  · cases h
  · rename_i stored hstored
    split at h
    · cases h
    · rename_i hrange
      split at h
      · cases h
      · split at h
        · cases h
        · rename_i blob hblob
          split at h
          · cases h
          · rename_i hlong
            obtain ⟨rfl, rfl⟩ := LoadPlan.blob.inj h
            have hcount : f.count = some stored := by
              split at hstored
              · exact hstored
              · cases hstored
            have hblob' : f.blob = some blob := by
              split at hblob
              · exact hblob
              · cases hblob
            exact ⟨hcount, hblob', by omega, by omega, by omega⟩

private theorem shaped_loaded (w : BookWorld) {count : Nat} {xs : List Slot} (hpos : 0 < count)
    (hle : xs.length ≤ count) : (loadedBook w count xs).Shaped := by
  refine ⟨Nat.le_refl count, ?_, ?_⟩
  · have hne : count ≠ 0 := by omega
    simp [loadedBook, hne]
  · intro slots hslots
    obtain rfl := Option.some.inj hslots
    rw [List.length_append, List.length_drop, freshSlots_length]
    show xs.length + (count - xs.length) = count
    omega

private theorem updatedBook_eq_some {w : BookWorld} {contacts : List ContactT} {b : Book}
    (h : updatedBook w contacts = some b) :
    b = ⟨some (contacts.map fun c => ⟨c, true⟩), contacts.length, contacts.length⟩ := by
  unfold updatedBook at h
  split at h
  · exact (Option.some.inj h).symm
  · cases h

theorem shaped_updated {w : BookWorld} {contacts : List ContactT} {b : Book}
    (hne : contacts ≠ []) (h : updatedBook w contacts = some b) : b.Shaped := by
  rw [updatedBook_eq_some h]
  refine ⟨Nat.le_refl _, by simp [hne], ?_⟩
  intro slots hslots
  obtain rfl := Option.some.inj hslots
  exact List.length_map ..

theorem addedBook_cases {w : BookWorld} {name phone : Text} {b b' : Book} (hb : b.Shaped)
    (h : addedBook w name phone b = some b') :
    (∃ slots i, b.contacts = some slots ∧ i < b.count ∧
      b' = { b with contacts := some (slots.modify i fun s =>
        { s with contact := s.contact.setPhone phone }) }) ∨
    (∃ slots rest, b.contacts = some slots ∧ slots.length + rest.length = b'.capacity ∧
      b.count < b'.capacity ∧ b'.count = b.count + 1 ∧
      b'.contacts = some ((slots ++ rest).set b.count ⟨.ofTexts name phone, true⟩)) := by
  unfold addedBook at h
  obtain ⟨slots, hslots, h⟩ := Option.bind_eq_some_iff.1 h
  have hlength := hb.length_eq slots hslots
  have hle := hb.count_le
  split at h
  · rename_i i hfind
    have hi : i < b.count := List.mem_range.1 (List.mem_of_find?_eq_some hfind)
    exact .inl ⟨slots, i, hslots, hi, (Option.some.inj h).symm⟩
  · obtain ⟨⟨room, capacity⟩, hgrown, hb'⟩ := Option.map_eq_some_iff.1 h
    subst hb'
    unfold grown at hgrown
    split at hgrown
    · rename_i hroom
      obtain ⟨rfl, rfl⟩ := Prod.mk.inj (Option.some.inj hgrown)
      exact .inr ⟨slots, [], hslots, by simpa using hlength, hroom, rfl, by simp⟩
    · rename_i hfull
      split at hgrown
      · obtain ⟨rfl, rfl⟩ := Prod.mk.inj (Option.some.inj hgrown)
        refine .inr ⟨slots, freshSlots w 10, hslots, ?_, ?_, rfl, rfl⟩
        · rw [freshSlots_length, hlength]
        · show b.count < b.capacity + 10
          omega
      · cases hgrown

theorem shaped_added {w : BookWorld} {name phone : Text} {b b' : Book} (hb : b.Shaped)
    (h : addedBook w name phone b = some b') : b'.Shaped := by
  rcases addedBook_cases hb h with
    ⟨slots, i, hslots, -, rfl⟩ | ⟨slots, rest, -, hlength, hroom, hcount, hcontacts⟩
  · have hlength := hb.length_eq slots hslots
    have hpos : b.capacity ≠ 0 := by
      intro hzero
      exact nomatch (hb.null_iff.2 hzero).symm.trans hslots
    refine ⟨hb.count_le, by simp [hpos], ?_⟩
    intro slots' hslots'
    obtain rfl := Option.some.inj hslots'
    exact (List.length_modify ..).trans hlength
  · refine ⟨by omega, ?_, ?_⟩
    · rw [hcontacts]
      have hpos : b'.capacity ≠ 0 := by omega
      simp [hpos]
    · intro slots' hslots'
      rw [hcontacts] at hslots'
      obtain rfl := Option.some.inj hslots'
      rw [List.length_set, List.length_append, hlength]

theorem mem_entries_added {w : BookWorld} {name phone : Text} {b b' : Book} (hb : b.Shaped)
    (h : addedBook w name phone b = some b') {s : Slot} (hs : s ∈ b'.entries) :
    s ∈ b.entries ∨ (∃ t ∈ b.entries, s = { t with contact := t.contact.setPhone phone }) ∨
      s = ⟨.ofTexts name phone, true⟩ := by
  rcases addedBook_cases hb h with ⟨slots, i, hslots, -, rfl⟩ |
    ⟨slots, rest, hslots, -, -, hcount, hcontacts⟩
  · rw [entries_some rfl] at hs
    obtain ⟨j, hj, rfl⟩ := List.mem_iff_getElem.1 hs
    rw [List.length_take, List.length_modify] at hj
    have hold : slots[j] ∈ b.entries := by
      rw [entries_some hslots]
      exact List.mem_take_iff_getElem.2 ⟨j, by omega, rfl⟩
    rw [List.getElem_take, List.getElem_modify]
    split
    · exact .inr (.inl ⟨slots[j], hold, rfl⟩)
    · exact .inl hold
  · rw [entries_some hcontacts, hcount] at hs
    obtain ⟨j, hj, rfl⟩ := List.mem_iff_getElem.1 hs
    rw [List.length_take, List.length_set, List.length_append] at hj
    rw [List.getElem_take, List.getElem_set]
    have hle := hb.count_le
    have hlength := hb.length_eq slots hslots
    by_cases hnew : b.count = j
    · rw [if_pos hnew]
      exact .inr (.inr rfl)
    · rw [if_neg hnew, List.getElem_append_left (by omega)]
      left
      rw [entries_some hslots]
      exact List.mem_take_iff_getElem.2 ⟨j, by omega, rfl⟩

theorem mem_entries_updated {w : BookWorld} {contacts : List ContactT} {b : Book}
    (h : updatedBook w contacts = some b) {s : Slot} (hs : s ∈ b.entries) :
    ∃ c ∈ contacts, s = ⟨c, true⟩ := by
  rw [updatedBook_eq_some h, entries_some rfl] at hs
  obtain ⟨c, hc, rfl⟩ := List.mem_map.1 (List.mem_of_mem_take hs)
  exact ⟨c, hc, rfl⟩

theorem entries_loaded (w : BookWorld) {count : Nat} {xs : List Slot} (hlength : xs.length = count) :
    (loadedBook w count xs).entries = xs := by
  have hrest : (freshSlots w count).drop xs.length = [] := by
    apply List.drop_eq_nil_of_le
    rw [freshSlots_length]
    omega
  rw [entries_some rfl, hrest, List.append_nil]
  exact List.take_of_length_le (Nat.le_of_eq hlength)

private theorem loaded_unwritten (w : BookWorld) {count : Nat} {xs : List Slot}
    (hlength : xs.length < count) :
    ∃ s ∈ (loadedBook w count xs).entries, s.written = false := by
  have hlast : xs.length < (freshSlots w count).length := by rwa [freshSlots_length]
  refine ⟨(freshSlots w count)[xs.length], ?_, mem_freshSlots (List.getElem_mem hlast)⟩
  rw [entries_some rfl]
  apply List.mem_take_iff_getElem.2
  have hin : xs.length < (xs ++ (freshSlots w count).drop xs.length).length := by
    rw [List.length_append, List.length_drop]
    omega
  refine ⟨xs.length, by show xs.length < min count _; omega, ?_⟩
  rw [List.getElem_append_right (Nat.le_refl _)]
  simp

private theorem default_unwritten (w : BookWorld) :
    ∃ s ∈ (defaultBook w).entries, s.written = false := by
  refine ⟨⟨w.memory 1, false⟩, ?_, rfl⟩
  rw [entries_some rfl]
  exact List.mem_of_mem_drop (i := 1) (List.mem_singleton_self _)

inductive BookStep (s : AddressBook) : BookOp → Book → Prop
  | unchanged (op : BookOp) : BookStep s op s.book
  | emptied (op : BookOp) : BookStep s op .off
  | defaults {op : BookOp} (w : BookWorld) (h : LeavesUnwritten s op) : BookStep s op (defaultBook w)
  | loaded {w : BookWorld} {count : Nat} {xs : List Slot} (h : loadPlan w s.flash = .blob count xs) :
      BookStep s (.loadFromFlash w) (loadedBook w count xs)
  | updated {w : BookWorld} {contacts : List { c : ContactT // c.Terminated }} {b : Book}
      (hne : contacts ≠ []) (h : updatedBook w (contacts.map Subtype.val) = some b) :
      BookStep s (.update w contacts) b
  | added {w : BookWorld} {name phone : CString} {b : Book}
      (h : addedBook w name.text phone.text s.book = some b) :
      BookStep s (.addOrUpdate w name phone) b

theorem finishWithSave_book (w : SaveWorld) (b : Book) (f : ContactFlash) :
    (finishWithSave w b f).2.book = b ∨ (finishWithSave w b f).2.book = .off := by
  show (if _ = OpResult.powerLost then Book.off else b) = b ∨ _ = Book.off
  by_cases hpower : (contactManagerSaveToFlash w b f).1 = .powerLost
  · exact .inr (if_pos hpower)
  · exact .inl (if_neg hpower)

theorem contactManagerUpdate_book {w : BookWorld} (hallocates : w.allocates = true)
    (hpower : ∀ b f, (contactManagerSaveToFlash w.save b f).1 ≠ .powerLost)
    {contacts : List ContactT} (hne : contacts ≠ []) (s : AddressBook) :
    (contactManagerUpdate w contacts s).2.book =
      ⟨some (contacts.map fun c => ⟨c, true⟩), contacts.length, contacts.length⟩ := by
  rw [contactManagerUpdate, if_neg hne, updatedBook, if_pos hallocates]
  exact if_neg (hpower _ s.flash)

theorem bookStep {s : AddressBook} (hs : s.book.Shaped) (op : BookOp) :
    BookStep s op (op.step s).book := by
  cases op with
  | init w =>
    have hbook : (BookOp.step s (.init w)).book = (contactManagerInit w s.book).2 := rfl
    rw [hbook, contactManagerInit_eq w hs.off_of_null]
    by_cases hdefaults : w.allocatesDefaults = true
    · rw [if_pos hdefaults]
      exact .defaults w hdefaults
    · rw [if_neg hdefaults]
      exact .emptied _
  | loadFromFlash w =>
    have hbook : (BookOp.step s (.loadFromFlash w)).book =
        (contactManagerLoadFromFlash w s.flash s.book).2 := rfl
    rw [hbook, contactManagerLoadFromFlash_eq w s.flash hs.off_of_null]
    cases hplan : loadPlan w s.flash with
    | defaults =>
      by_cases hdefaults : w.allocatesDefaults = true
      · simp only [if_pos hdefaults]
        exact .defaults w (by simpa only [LeavesUnwritten, hplan] using hdefaults)
      · simp only [if_neg hdefaults]
        exact .emptied _
    | noMemory => exact .emptied _
    | blob count xs => exact .loaded hplan
  | update w contacts =>
    have hbook : BookOp.step s (.update w contacts) =
        (contactManagerUpdate w (contacts.map Subtype.val) s).2 := rfl
    rw [hbook, contactManagerUpdate]
    by_cases hempty : contacts.map Subtype.val = []
    · rw [if_pos hempty]
      exact .unchanged _
    · rw [if_neg hempty]
      have hne : contacts ≠ [] := fun hnil => hempty (List.map_eq_nil_iff.2 hnil)
      cases hupdated : updatedBook w (contacts.map Subtype.val) with
      | none => exact .emptied _
      | some b =>
        rcases finishWithSave_book w.save b s.flash with h | h
        · simp only [h]
          exact .updated hne hupdated
        · simp only [h]
          exact .emptied _
  | addOrUpdate w name phone =>
    have hbook : BookOp.step s (.addOrUpdate w name phone) =
        (contactManagerAddOrUpdate w name phone s).2 := rfl
    rw [hbook, contactManagerAddOrUpdate]
    by_cases hnull : s.book.contacts.isNone = true
    · rw [if_pos hnull]
      exact .unchanged _
    · rw [if_neg hnull]
      cases hadded : addedBook w name.text phone.text s.book with
      | none => exact .unchanged _
      | some b =>
        rcases finishWithSave_book w.save b s.flash with h | h
        · simp only [h]
          exact .added hadded
        · simp only [h]
          exact .emptied _
  | saveToFlash w =>
    have hbook : BookOp.step s (.saveToFlash w) = (finishWithSave w s.book s.flash).2 := rfl
    rw [hbook]
    rcases finishWithSave_book w s.book s.flash with h | h
    · rw [h]
      exact .unchanged _
    · rw [h]
      exact .emptied _
  | deinit => exact .emptied _
  | restart => exact .emptied _

private theorem BookStep.shaped {s : AddressBook} {op : BookOp} {b : Book} (h : BookStep s op b)
    (hs : s.book.Shaped) : b.Shaped := by
  cases h with
  | unchanged => exact hs
  | emptied => exact shaped_off
  | defaults w _ => exact shaped_default w
  | loaded hplan =>
    obtain ⟨-, -, hpos, -, hle⟩ := loadPlan_blob hplan
    exact shaped_loaded _ hpos hle
  | updated hne hupdated =>
    exact shaped_updated (fun hnil => hne (List.map_eq_nil_iff.1 hnil)) hupdated
  | added hadded => exact shaped_added hs hadded

theorem shaped_step {s : AddressBook} (hs : s.book.Shaped) (op : BookOp) :
    (op.step s).book.Shaped :=
  (bookStep hs op).shaped hs

/-- Pointer, count and capacity fit after every run, whatever failed in it. -/
theorem shaped_run (ops : List BookOp) : (run BookOp.step .new ops).book.Shaped :=
  run_of_step (I := fun s : AddressBook => s.book.Shaped) (fun _ op hs => shaped_step hs op)
    shaped_off ops

def FlashValid (f : ContactFlash) : Prop := ∀ xs ∈ f.blob, ∀ s ∈ xs, s.Valid

private theorem flashValid_save (w : SaveWorld) {b : Book} {f : ContactFlash} (hf : FlashValid f)
    (hb : ∀ s ∈ b.entries, s.Valid) : FlashValid (contactManagerSaveToFlash w b f).2 := by
  rw [contactManagerSaveToFlash_snd]
  cases saveReach w b with
  | nothing => exact hf
  | countOnly => exact hf
  | both =>
    intro xs hxs
    obtain rfl := Option.some.inj hxs
    exact hb

private theorem valid_updated {w : BookWorld} {contacts : List { c : ContactT // c.Terminated }}
    {b : Book} (h : updatedBook w (contacts.map Subtype.val) = some b) :
    ∀ s ∈ b.entries, s.Valid := by
  intro s hs
  obtain ⟨c, hc, rfl⟩ := mem_entries_updated h hs
  obtain ⟨c', -, rfl⟩ := List.mem_map.1 hc
  exact ⟨rfl, c'.2⟩

private theorem valid_added {w : BookWorld} {name phone : Text} {b b' : Book} (hb : b.Represents)
    (h : addedBook w name phone b = some b') : ∀ s ∈ b'.entries, s.Valid := by
  intro s hs
  rcases mem_entries_added hb.shaped h hs with hold | ⟨t, ht, rfl⟩ | rfl
  · exact hb.valid s hold
  · have hvalid := hb.valid t ht
    exact ⟨hvalid.1, hvalid.2.1, boundedCopy_terminated 15 phone⟩
  · exact ⟨rfl, ContactT.terminated_ofTexts name phone⟩

theorem saving_cases {s : AddressBook} {op : BookOp} {x : SaveWorld × Book}
    (h : op.saving s = some x) :
    (∃ w contacts, op = .update w contacts ∧ contacts ≠ [] ∧
        updatedBook w (contacts.map Subtype.val) = some x.2) ∨
      (∃ w name phone, op = .addOrUpdate w name phone ∧
        addedBook w name.text phone.text s.book = some x.2) ∨
      x.2 = s.book := by
  cases op with
  | update w contacts =>
    simp only [BookOp.saving] at h
    split at h
    · cases h
    next hne =>
      obtain ⟨b, hb, rfl⟩ := Option.map_eq_some_iff.1 h
      exact .inl ⟨w, contacts, rfl, hne, hb⟩
  | addOrUpdate w name phone =>
    obtain ⟨b, hb, rfl⟩ := Option.map_eq_some_iff.1 h
    exact .inr (.inl ⟨w, name, phone, rfl, hb⟩)
  | saveToFlash w =>
    obtain rfl := Option.some.inj h
    exact .inr (.inr rfl)
  | _ => cases h

private theorem valid_saving {s : AddressBook} (hs : s.book.Represents) {op : BookOp}
    {x : SaveWorld × Book} (h : op.saving s = some x) : ∀ t ∈ x.2.entries, t.Valid := by
  rcases saving_cases h with ⟨w, contacts, rfl, -, hb⟩ | ⟨w, name, phone, rfl, hb⟩ | hsame
  · exact valid_updated hb
  · exact valid_added hs hb
  · rw [hsame]
    exact hs.valid

private theorem flashValid_step {s : AddressBook} (hs : s.book.Represents) (hf : FlashValid s.flash)
    (op : BookOp) : FlashValid (op.step s).flash := by
  rw [flash_step]
  cases hsaving : op.saving s with
  | none => exact hf
  | some x => exact flashValid_save x.1 hf (valid_saving hs hsaving)

private theorem represents_step {s : AddressBook} (hs : s.book.Represents) (hf : FlashValid s.flash)
    {op : BookOp} (hop : ¬ LeavesUnwritten s op) : (op.step s).book.Represents := by
  refine ⟨shaped_step hs.shaped op, ?_⟩
  have hstep := bookStep hs.shaped op
  generalize (op.step s).book = b at hstep
  cases hstep with
  | unchanged => exact hs.valid
  | emptied => exact fun s hs => nomatch hs
  | defaults w h => exact absurd h hop
  | loaded hplan =>
    rename_i w count xs
    have hlength : xs.length = count := by
      simpa only [LeavesUnwritten, hplan, not_not] using hop
    rw [entries_loaded w hlength]
    exact hf xs (loadPlan_blob hplan).2.1
  | updated hne hupdated => exact valid_updated hupdated
  | added hadded => exact valid_added hs hadded

private theorem not_represents_step {s : AddressBook} (hs : s.book.Represents) {op : BookOp}
    (hop : LeavesUnwritten s op) : ¬ (op.step s).book.Represents := by
  have hnone : ∀ b : Book, (∃ t ∈ b.entries, t.written = false) → ¬ b.Represents := by
    intro b hb hrep
    obtain ⟨t, ht, hwritten⟩ := hb
    exact nomatch (hrep.valid t ht).1.symm.trans hwritten
  cases op with
  | init w =>
    have hdefaults : w.allocatesDefaults = true := hop
    have hbook : (BookOp.step s (.init w)).book = defaultBook w := by
      show (contactManagerInit w s.book).2 = _
      rw [contactManagerInit_eq w hs.shaped.off_of_null, if_pos hdefaults]
    rw [hbook]
    exact hnone _ (default_unwritten w)
  | loadFromFlash w =>
    have hbook : (BookOp.step s (.loadFromFlash w)).book =
        (contactManagerLoadFromFlash w s.flash s.book).2 := rfl
    rw [hbook, contactManagerLoadFromFlash_eq w s.flash hs.shaped.off_of_null]
    cases hplan : loadPlan w s.flash with
    | defaults =>
      have hdefaults : w.allocatesDefaults = true := by
        simpa only [LeavesUnwritten, hplan] using hop
      simp only [if_pos hdefaults]
      exact hnone _ (default_unwritten w)
    | noMemory => exact absurd hop (by simp [LeavesUnwritten, hplan])
    | blob count xs =>
      have hne : xs.length ≠ count := by simpa only [LeavesUnwritten, hplan] using hop
      have hle := (loadPlan_blob hplan).2.2.2.2
      exact hnone _ (loaded_unwritten w (by omega))
  | _ => exact hop.elim

/-- The representation invariant holds throughout a run exactly when no operation of the run leaves
unwritten contacts below the count. -/
theorem represents_run_iff (ops : List BookOp) :
    AllStates BookOp.step (fun s => s.book.Represents) .new ops ↔
      AllSteps BookOp.step (fun s op => ¬ LeavesUnwritten s op) .new ops := by
  have hnew : AddressBook.new.book.Represents := ⟨shaped_off, fun s hs => nomatch hs⟩
  have hflash : FlashValid AddressBook.new.flash := fun xs hxs => nomatch hxs
  rw [allStates_iff]
  simp only [hnew, true_and]
  apply allSteps_congr (I := fun s => s.book.Represents ∧ FlashValid s.flash) _ _ ⟨hnew, hflash⟩ ops
  · intro s op hs hop
    have hnext := represents_step hs.1 hs.2 hop
    exact ⟨hnext, hnext, flashValid_step hs.1 hs.2 op⟩
  · intro s op hs hgood hop
    exact not_represents_step hs.1 hop hgood

/-- Memory that holds zeros, and NVS calls that succeed. -/
def zeroContact : ContactT :=
  ⟨List.replicate 32 nul, List.replicate 16 nul, List.length_replicate, List.length_replicate⟩

def goodSave : SaveWorld := ⟨.ok, .ok, .ok, .ok⟩

def goodWorld : BookWorld := ⟨true, true, fun _ => zeroContact, true, true, true, goodSave⟩

/-- The very first start: nothing is stored, and the defaults are taken. -/
theorem firstStart_unwritten :
    ¬ AllStates BookOp.step (fun s => s.book.Represents) .new [.loadFromFlash goodWorld] := by
  intro h
  have hlast := h.last
  have hwritten := (hlast.valid ⟨zeroContact, false⟩ (by decide)).1
  cases hwritten

end Leyu
