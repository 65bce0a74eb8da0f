import Leyu.Contacts.Invariant

/-!
# Saving and loading the address book

The count and the contacts are two records of the flash, written one after the other. What a later
load makes of them is what a reader of the two records makes of them; it refuses more than 1000
contacts, which the writer does not.
-/

namespace Leyu

open Framework

structure BookWorld.Reads (w : BookWorld) : Prop where
  allocates : w.allocates = true
  allocatesDefaults : w.allocatesDefaults = true
  nvsOpen : w.nvsOpen = true
  getCount : w.getCount = true
  getBlob : w.getBlob = true

def loadedEntries (w : BookWorld) (f : ContactFlash) : List Slot :=
  (contactManagerLoadFromFlash w f .off).2.entries

/-- A later load restores this list, whatever the memory held. -/
def Restores (f : ContactFlash) (xs : List Slot) : Prop :=
  ∀ w : BookWorld, w.Reads → loadedEntries w f = xs

/-- A save has left the new list or the one stored before it; the defaults come only where no list
is stored. -/
def SaveIntact (before : ContactFlash) (new : List Slot) (after : ContactFlash) : Prop :=
  Restores after new ∨ (∃ xs, Restores before xs ∧ Restores after xs) ∨ after.blob = none

/-- The save gets neither as far as the count alone, with a stored list of another length, nor all
the way with more contacts than a load takes. -/
def SaveFits (f : ContactFlash) (w : SaveWorld) (b : Book) : Prop :=
  match saveReach w b with
  | .nothing => True
  | .countOnly => ∀ xs ∈ f.blob, xs.length = b.count
  | .both => b.count ≤ 1000

/-- The blob a load that can read everything takes, with the stored count. -/
def storedPlan (f : ContactFlash) : Option (Nat × List Slot) :=
  match f.count, f.blob with
  | some n, some xs => if n = 0 ∨ 1000 < n ∨ n < xs.length then none else some (n, xs)
  | _, _ => none

private theorem loadPlan_reads {w : BookWorld} (hw : w.Reads) (f : ContactFlash) :
    loadPlan w f = (storedPlan f).elim .defaults fun x => .blob x.1 x.2 := by
  simp only [loadPlan, storedPlan, hw.nvsOpen, hw.getCount, hw.getBlob, hw.allocates, Bool.and_self,
    if_true, Bool.true_eq_false, if_false]
  cases f.count with
  | none => rfl
  | some n =>
    cases f.blob with
    | none => simp
    | some xs =>
      by_cases hrange : n = 0 ∨ 1000 < n
      · have hbad : n = 0 ∨ 1000 < n ∨ n < xs.length := hrange.imp_right .inl
        simp only [if_pos hrange, if_pos hbad, Option.elim_none]
      · by_cases hlong : n < xs.length
        · simp only [if_neg hrange, hlong, or_true, if_true, Option.elim_none]
        · have hgood : ¬ (n = 0 ∨ 1000 < n ∨ n < xs.length) := by omega
          simp only [if_neg hrange, if_neg hlong, if_neg hgood, Option.elim_some]

private theorem restore_storedPlan (f : ContactFlash) :
    restore 1000 f =
      (storedPlan f).elim .defaults fun x => if x.2.length < x.1 then .mixture else .list x.2 := by
  simp only [restore, storedPlan]
  cases f.count with
  | none => rfl
  | some n =>
    cases f.blob with
    | none => rfl
    | some xs =>
      by_cases hbad : n = 0 ∨ 1000 < n ∨ n < xs.length
      · simp only [if_pos hbad, Option.elim_none]
      · simp only [if_neg hbad, Option.elim_some]

private theorem storedPlan_le {f : ContactFlash} {n : Nat} {xs : List Slot}
    (h : storedPlan f = some (n, xs)) : xs.length ≤ n := by
  unfold storedPlan at h
  split at h
  · split at h
    · cases h
    · obtain ⟨rfl, rfl⟩ := Prod.mk.inj (Option.some.inj h)
      omega
  · cases h

private theorem loadedEntries_eq (w : BookWorld) (f : ContactFlash) :
    loadedEntries w f =
      match loadPlan w f with
      | .defaults => if w.allocatesDefaults then (defaultBook w).entries else []
      | .noMemory => []
      | .blob count xs => (loadedBook w count xs).entries := by
  rw [loadedEntries, contactManagerLoadFromFlash_eq w f fun _ => rfl]
  cases loadPlan w f with
  | defaults => cases w.allocatesDefaults <;> rfl
  | noMemory => rfl
  | blob count xs => rfl

private theorem defaultBook_second (w : BookWorld) :
    (defaultBook w).entries[1]? = some ⟨w.memory 1, false⟩ := rfl

private theorem loadedBook_next (w : BookWorld) {count : Nat} {xs : List Slot}
    (hshort : xs.length < count) :
    (loadedBook w count xs).entries[xs.length]? = some ⟨w.memory xs.length, false⟩ := by
  have hentries : (loadedBook w count xs).entries =
      (xs ++ (freshSlots w count).drop xs.length).take count := rfl
  rw [hentries, List.getElem?_take_of_lt hshort, List.getElem?_append_right (Nat.le_refl _),
    Nat.sub_self, List.getElem?_drop]
  simp [freshSlots, hshort]

theorem load_cases (f : ContactFlash) :
    (∃ xs, restore 1000 f = .list xs ∧ Restores f xs) ∨
      (∀ xs, restore 1000 f ≠ .list xs) ∧ ∃ i, ∀ w : BookWorld, w.Reads →
        (loadedEntries w f)[i]? = some (⟨w.memory i, false⟩ : Slot) := by
  have hrestore := restore_storedPlan f
  cases hplan : storedPlan f with
  | none =>
    rw [hplan] at hrestore
    right
    refine ⟨by simp [hrestore], 1, ?_⟩
    intro w hw
    rw [loadedEntries_eq, loadPlan_reads hw, hplan]
    simp only [Option.elim_none, hw.allocatesDefaults, if_true]
    exact defaultBook_second w
  | some x =>
    have hle := storedPlan_le hplan
    rw [hplan, Option.elim_some] at hrestore
    have hloaded : ∀ w : BookWorld, w.Reads → loadedEntries w f = (loadedBook w x.1 x.2).entries := by
      intro w hw
      rw [loadedEntries_eq, loadPlan_reads hw, hplan, Option.elim_some]
    by_cases hshort : x.2.length < x.1
    · rw [if_pos hshort] at hrestore
      right
      refine ⟨by simp [hrestore], x.2.length, ?_⟩
      intro w hw
      rw [hloaded w hw]
      exact loadedBook_next w hshort
    · rw [if_neg hshort] at hrestore
      left
      refine ⟨x.2, hrestore, ?_⟩
      intro w hw
      rw [hloaded w hw]
      exact entries_loaded w (by omega)

/-- Memory that holds one byte everywhere, and calls that all succeed. -/
def constantWorld (c : Char) : BookWorld :=
  { goodWorld with
    memory := fun _ =>
      ⟨List.replicate 32 c, List.replicate 16 c, List.length_replicate, List.length_replicate⟩ }

private theorem constantWorld_reads (c : Char) :
    (constantWorld c).Reads := ⟨rfl, rfl, rfl, rfl, rfl⟩

private theorem restores_iff (f : ContactFlash) (xs : List Slot) :
    Restores f xs ↔ restore 1000 f = .list xs := by
  rcases load_cases f with ⟨ys, hrestore, hys⟩ | ⟨hnone, i, hmemory⟩
  · rw [hrestore]
    constructor
    · intro hxs
      have hsame : ys = xs := by
        rw [← hys goodWorld (constantWorld_reads nul), hxs goodWorld (constantWorld_reads nul)]
      rw [hsame]
    · intro h
      rw [← Restored.list.inj h]
      exact hys
  · constructor
    · intro hxs
      have hzero := hmemory (constantWorld '0') (constantWorld_reads '0')
      have hone := hmemory (constantWorld '1') (constantWorld_reads '1')
      rw [hxs _ (constantWorld_reads '0')] at hzero
      rw [hxs _ (constantWorld_reads '1')] at hone
      exact absurd (hzero.symm.trans hone) (by simp [constantWorld])
    · intro h
      exact absurd h (hnone xs)

private theorem saveIntact_iff (before : ContactFlash) (new : List Slot) (after : ContactFlash) :
    SaveIntact before new after ↔ Intact 1000 before new after := by
  simp only [SaveIntact, Intact, restores_iff]
  constructor
  · intro h
    rcases h with h | h | h
    · exact .inl h
    · exact .inr (.inl h)
    · exact .inr (.inr ⟨h, restore_of_blob_none h⟩)
  · intro h
    rcases h with h | h | h
    · exact .inl h
    · exact .inr (.inl h)
    · exact .inr (.inr h.1)

theorem entries_of_reach (w : SaveWorld) {b : Book} (hb : b.Shaped)
    (h : saveReach w b ≠ .nothing) : b.entries ≠ [] := by
  intro hnil
  apply h
  have hcount : b.count = 0 := by rw [← hb.entries_length, hnil]; rfl
  rw [saveReach, if_pos (.inr hcount)]

private theorem save_intact_iff {f : ContactFlash} (hf : f.Clean 1000) (w : SaveWorld) {b : Book}
    (hb : b.Shaped) :
    SaveIntact f b.entries (contactManagerSaveToFlash w b f).2 ↔ SaveFits f w b := by
  rw [saveIntact_iff, contactManagerSaveToFlash_snd, SaveFits, ← hb.entries_length]
  cases hreach : saveReach w b with
  | nothing => exact iff_of_true (intact_of_unchanged hf _) trivial
  | countOnly => exact intact_writeCount_iff hf
  | both => exact intact_both_iff (entries_of_reach w hb (by simp [hreach]))

private theorem clean_save {f : ContactFlash} (hf : f.Clean 1000) {w : SaveWorld} {b : Book}
    (hb : b.Shaped) (h : SaveFits f w b) : (contactManagerSaveToFlash w b f).2.Clean 1000 := by
  rw [contactManagerSaveToFlash_snd]
  rw [SaveFits, ← hb.entries_length] at h
  rw [← hb.entries_length]
  cases hreach : saveReach w b with
  | nothing => exact hf
  | countOnly =>
    rw [hreach] at h
    exact clean_writeCount hf h
  | both =>
    rw [hreach] at h
    exact clean_both (entries_of_reach w hb (by simp [hreach])) h

theorem shaped_saving {s : AddressBook} (hs : s.book.Shaped) {op : BookOp} {x : SaveWorld × Book}
    (h : op.saving s = some x) : x.2.Shaped := by
  rcases saving_cases h with ⟨w, contacts, rfl, hne, hb⟩ | ⟨w, name, phone, rfl, hb⟩ | hsame
  · exact shaped_updated (fun hnil => hne (List.map_eq_nil_iff.1 hnil)) hb
  · exact shaped_added hs hb
  · rw [hsame]
    exact hs

/-- Over every run of the address book, with power losses and failures anywhere, every save is
intact exactly as long as every save fits. -/
theorem saveIntact_run_iff (ops : List BookOp) :
    AllSteps BookOp.step
        (fun s op => ∀ x ∈ op.saving s, SaveIntact s.flash x.2.entries (op.step s).flash) .new ops ↔
      AllSteps BookOp.step (fun s op => ∀ x ∈ op.saving s, SaveFits s.flash x.1 x.2) .new ops := by
  have hclean : AddressBook.new.flash.Clean 1000 := fun xs hxs => nomatch hxs
  have hiff : ∀ s : AddressBook, s.book.Shaped → s.flash.Clean 1000 → ∀ op : BookOp, ∀ x ∈ op.saving s,
      (SaveIntact s.flash x.2.entries (op.step s).flash ↔ SaveFits s.flash x.1 x.2) := by
    intro s hshaped hclean op x hx
    have hsaving : op.saving s = some x := hx
    rw [flash_step, hsaving]
    exact save_intact_iff hclean x.1 (shaped_saving hshaped hsaving)
  apply allSteps_congr (I := fun s => s.book.Shaped ∧ s.flash.Clean 1000) _ _ ⟨shaped_off, hclean⟩ ops
  · intro s op hs hfits
    have hintact : ∀ x ∈ op.saving s, SaveIntact s.flash x.2.entries (op.step s).flash :=
      fun x hx => (hiff s hs.1 hs.2 op x hx).2 (hfits x hx)
    have hnext : (op.step s).flash.Clean 1000 := by
      rw [flash_step]
      cases hsaving : op.saving s with
      | none => exact hs.2
      | some x => exact clean_save hs.2 (shaped_saving hs.1 hsaving) (hfits x hsaving)
    exact ⟨hintact, shaped_step hs.1 op, hnext⟩
  · intro s op hs hintact x hx
    exact (hiff s hs.1 hs.2 op x hx).1 (hintact x hx)

def contactOf (name phone : Text) : { c : ContactT // c.Terminated } :=
  ⟨.ofTexts name phone, ContactT.terminated_ofTexts name phone⟩

def tornWorld : BookWorld :=
  { goodWorld with save := { goodSave with setBlob := .powerLost } }

/-- One contact is saved, and the power is lost while two others are to replace it. -/
def tornUpdates : List BookOp :=
  [.update goodWorld [contactOf "a".toList "1".toList],
    .update tornWorld [contactOf "b".toList "2".toList, contactOf "c".toList "3".toList]]

/-- A later load counts two contacts, the old one and whatever the memory holds. -/
theorem tornUpdates_mixed :
    ¬ AllSteps BookOp.step
        (fun s op => ∀ x ∈ op.saving s, SaveIntact s.flash x.2.entries (op.step s).flash) .new
        tornUpdates ∧
      loadedEntries goodWorld (run BookOp.step .new tornUpdates).flash =
        [⟨.ofTexts "a".toList "1".toList, true⟩, ⟨zeroContact, false⟩] := by
  refine ⟨?_, rfl⟩
  intro h
  have hsecond := h.2.1 _ rfl
  rw [saveIntact_iff] at hsecond
  rcases hsecond with hnew | ⟨xs, -, hold⟩ | hnone
  · cases hnew
  · cases hold
  · exact nomatch hnone.1

private theorem loadedEntries_beyond {b : Book} (hbeyond : 1000 < b.count) {w : SaveWorld}
    {f : ContactFlash} (hsave : (contactManagerSaveToFlash w b f).1 = .returned .ok)
    {w' : BookWorld} (hreads : w'.Reads) :
    loadedEntries w' (contactManagerSaveToFlash w b f).2 = (defaultBook w').entries := by
  have hplan : storedPlan ((f.writeCount b.count).writeBlob b.entries) = none := by
    have hbad : b.count = 0 ∨ 1000 < b.count ∨ b.count < b.entries.length := .inr (.inl hbeyond)
    exact if_pos hbad
  rw [contactManagerSaveToFlash_snd, saveReach_of_ok hsave, loadedEntries_eq,
    loadPlan_reads hreads, hplan]
  simp only [Option.elim_none, hreads.allocatesDefaults, if_true]

/-- Of every book a run leaves: after a successful save, a load after a restart restores exactly the
same contacts just when there are at most 1000. -/
theorem loadUndoesSave_iff (ops : List BookOp) (w : SaveWorld) (w' : BookWorld)
    (hsave : (contactManagerSaveToFlash w (run BookOp.step .new ops).book
      (run BookOp.step .new ops).flash).1 = .returned .ok) (hreads : w'.Reads) :
    loadedEntries w' (contactManagerSaveToFlash w (run BookOp.step .new ops).book
        (run BookOp.step .new ops).flash).2 = (run BookOp.step .new ops).book.entries ↔
      (run BookOp.step .new ops).book.count ≤ 1000 := by
  have hshaped := shaped_run ops
  generalize run BookOp.step .new ops = s at hsave hshaped ⊢
  have hlength := hshaped.entries_length
  constructor
  · intro hload
    by_contra hbeyond
    rw [loadedEntries_beyond (by omega) hsave hreads] at hload
    have htwo : s.book.entries.length = 2 := congrArg List.length hload.symm
    omega
  · intro hlimit
    have hreach := saveReach_of_ok hsave
    have hne := entries_of_reach w hshaped (by rw [hreach]; decide)
    have hrestore : restore 1000 (contactManagerSaveToFlash w s.book s.flash).2 =
        .list s.book.entries := by
      rw [contactManagerSaveToFlash_snd, hreach]
      apply (restore_both_iff 1000 hne _ rfl).2 (by omega)
      show some s.book.count = some s.book.entries.length
      rw [hlength]
    exact (restores_iff _ _).2 hrestore w' hreads

theorem loadUndoesSave_one :
    loadedEntries goodWorld
        (contactManagerSaveToFlash goodSave
          (run BookOp.step .new [.update goodWorld [contactOf "a".toList "1".toList]]).book
          (run BookOp.step .new [.update goodWorld [contactOf "a".toList "1".toList]]).flash).2 =
      (run BookOp.step .new [.update goodWorld [contactOf "a".toList "1".toList]]).book.entries :=
  (loadUndoesSave_iff [.update goodWorld [contactOf "a".toList "1".toList]] goodSave goodWorld rfl
    (constantWorld_reads nul)).2 (by decide)

/-- A synchronised list of `n` contacts, and one more by voice. -/
def oneMore (n : Nat) : List BookOp :=
  [.update goodWorld (List.replicate n (contactOf "a".toList "1".toList)),
    .addOrUpdate goodWorld (.ofText "b".toList) (.ofText "2".toList)]

private theorem goodSave_returns {b : Book} (hne : b.contacts.isSome = true) (hcount : b.count ≠ 0)
    (f : ContactFlash) : (contactManagerSaveToFlash goodSave b f).1 = .returned .ok := by
  have hsome : ¬ (b.contacts.isNone = true ∨ b.count = 0) := by
    rintro (hnone | hzero)
    · rw [Option.isNone_iff_eq_none.1 hnone] at hne
      cases hne
    · exact hcount hzero
  rw [contactManagerSaveToFlash, if_neg hsome]
  rfl

theorem goodSave_powered (b : Book) (f : ContactFlash) :
    (contactManagerSaveToFlash goodSave b f).1 ≠ .powerLost := by
  unfold contactManagerSaveToFlash
  split
  · exact OpResult.noConfusion
  · exact OpResult.noConfusion

private theorem update_book {contacts : List { c : ContactT // c.Terminated }} (hne : contacts ≠ [])
    (s : AddressBook) :
    (BookOp.step s (.update goodWorld contacts)).book =
      ⟨some ((contacts.map Subtype.val).map fun c => ⟨c, true⟩), contacts.length, contacts.length⟩ := by
  have hmap : contacts.map Subtype.val ≠ [] := fun hnil => hne (List.map_eq_nil_iff.1 hnil)
  have hbook := contactManagerUpdate_book (w := goodWorld) rfl goodSave_powered hmap s
  rw [List.length_map] at hbook
  exact hbook

private theorem add_book_count {s : AddressBook} (hnull : s.book.contacts.isSome = true)
    (name phone : CString) (hfind : s.book.find name.text = none) :
    (BookOp.step s (.addOrUpdate goodWorld name phone)).book.count = s.book.count + 1 := by
  obtain ⟨slots, hslots⟩ := Option.isSome_iff_exists.1 hnull
  have hnot : ¬ s.book.contacts.isNone = true := by simp [hslots]
  show (contactManagerAddOrUpdate goodWorld name phone s).2.book.count = _
  rw [contactManagerAddOrUpdate, if_neg hnot]
  cases hadded : addedBook goodWorld name.text phone.text s.book with
  | none =>
    simp only [addedBook, hslots, hfind, Option.bind_some, Option.map_eq_none_iff, grown] at hadded
    split at hadded
    · cases hadded
    · cases hadded
  | some b =>
    simp only [addedBook, hslots, hfind, Option.bind_some] at hadded
    obtain ⟨x, -, rfl⟩ := Option.map_eq_some_iff.1 hadded
    have hkept : ∀ b, (finishWithSave goodSave b s.flash).2.book = b := fun b =>
      if_neg (goodSave_powered b s.flash)
    exact congrArg Book.count (hkept _)

private theorem find_replicate {c : { c : ContactT // c.Terminated }} {name : Text} (n : Nat)
    (hname : content c.1.name ≠ name) :
    (Book.mk (some (((List.replicate n c).map Subtype.val).map fun c => ⟨c, true⟩)) n n).find name =
      none := by
  rw [Book.find, List.find?_eq_none]
  intro i hi hmatch
  have hin : i < (((List.replicate n c).map Subtype.val).map fun c => (⟨c, true⟩ : Slot)).length := by
    simpa using hi
  have hslot : (((List.replicate n c).map Subtype.val).map fun c => (⟨c, true⟩ : Slot))[i] =
      ⟨c.1, true⟩ := by simp
  have hread := nameAt_eq hin (by rw [hslot]; exact c.2.1)
  rw [hslot] at hread
  exact hname (hread.symm.trans (of_decide_eq_true hmatch))

private theorem oneMore_count {n : Nat} (hn : n ≠ 0) :
    (run BookOp.step .new (oneMore n)).book.count = n + 1 := by
  have hne : List.replicate n (contactOf "a".toList "1".toList) ≠ [] := by
    intro hnil
    exact hn (by simpa using congrArg List.length hnil)
  have hupdated := update_book hne .new
  rw [List.length_replicate] at hupdated
  have hname : content (contactOf "a".toList "1".toList).1.name ≠ (CString.ofText "b".toList).text := by
    decide
  have hfind := find_replicate n hname
  rw [← hupdated] at hfind
  have hcount := add_book_count (by rw [hupdated]; rfl) (.ofText "b".toList) (.ofText "2".toList) hfind
  rw [hupdated] at hcount
  exact hcount

/-- The save succeeds, and the next start has the two defaults instead of the 1001 contacts. -/
theorem oneMore_lost :
    (contactManagerSaveToFlash goodSave (run BookOp.step .new (oneMore 1000)).book
        (run BookOp.step .new (oneMore 1000)).flash).1 = .returned .ok ∧
      loadedEntries goodWorld (contactManagerSaveToFlash goodSave
        (run BookOp.step .new (oneMore 1000)).book (run BookOp.step .new (oneMore 1000)).flash).2 =
          (defaultBook goodWorld).entries ∧
      (defaultBook goodWorld).entries ≠ (run BookOp.step .new (oneMore 1000)).book.entries := by
  have hshaped := shaped_run (oneMore 1000)
  have hcount := oneMore_count (n := 1000) (by omega)
  generalize run BookOp.step .new (oneMore 1000) = s at hshaped hcount ⊢
  have hsome : s.book.contacts.isSome = true := by
    rw [Option.isSome_iff_ne_none]
    intro hnone
    rw [hshaped.off_of_null hnone] at hcount
    cases hcount
  have hsave := goodSave_returns hsome (by omega) s.flash
  refine ⟨hsave, loadedEntries_beyond (by omega) hsave (constantWorld_reads nul), ?_⟩
  intro hsame
  have hlength := congrArg List.length hsame
  rw [hshaped.entries_length, hcount] at hlength
  have htwo : (defaultBook goodWorld).entries.length = 2 := rfl
  omega

end Leyu
