import Leyu.Contacts.Sync
import Leyu.Framework.AssocList

/-!
# Reading the address book

What the readers of the address book make of the array. A text that is not terminated in its field
goes on into the contacts behind it, so changing one contact can change the texts of those in front
of it; the lemmas say when it does not.
-/

namespace Leyu

open Framework

private theorem content_append_congr (a : Block) {x y : Block} (h : content x = content y) :
    content (a ++ x) = content (a ++ y) := by
  induction a with
  | nil => exact h
  | cons c a ih => rw [List.cons_append, List.cons_append, content_cons, content_cons, ih]

private theorem memoryOf_append (front back : List Slot) :
    memoryOf (front ++ back) = memoryOf front ++ memoryOf back := List.flatMap_append

private theorem bytes_length (c : ContactT) : c.bytes.length = 48 := by
  rw [ContactT.bytes, List.length_append, c.name_length, c.phone_length]

private theorem memoryOf_length (slots : List Slot) :
    (memoryOf slots).length = 48 * slots.length := by
  induction slots with
  | nil => rfl
  | cons s slots ih =>
    have hcons : memoryOf (s :: slots) = s.contact.bytes ++ memoryOf slots := rfl
    rw [hcons, List.length_append, ih, bytes_length, List.length_cons]
    omega

private theorem reads_front {front x y : List Slot}
    (h : content (memoryOf x) = content (memoryOf y)) {j : Nat} (hj : j < front.length) :
    nameAt (front ++ x) j = nameAt (front ++ y) j ∧
      phoneAt (front ++ x) j = phoneAt (front ++ y) j := by
  have hlong : 32 ≤ (memoryOf (front.drop j)).length := by
    rw [memoryOf_length, List.length_drop]
    omega
  unfold nameAt phoneAt
  rw [List.drop_append_of_le_length hj.le, List.drop_append_of_le_length hj.le, memoryOf_append,
    memoryOf_append, List.drop_append_of_le_length hlong, List.drop_append_of_le_length hlong]
  exact ⟨content_append_congr _ h, content_append_congr _ h⟩

theorem reads_ended {front : List Slot} (hend : ∀ s ∈ front.getLast?, nul ∈ s.contact.phone)
    (x y : List Slot) {j : Nat} (hj : j < front.length) :
    nameAt (front ++ x) j = nameAt (front ++ y) j ∧
      phoneAt (front ++ x) j = phoneAt (front ++ y) j := by
  obtain ⟨before, last, rfl⟩ : ∃ before last, front = before ++ [last] := by
    obtain rfl | ⟨before, last, rfl⟩ := front.eq_nil_or_concat'
    · exact absurd hj (Nat.not_lt_zero j)
    · exact ⟨before, last, rfl⟩
  have hphone : nul ∈ last.contact.phone := hend last (by simp)
  have hmemory : ∀ z, content (memoryOf (last :: z)) = content (last.contact.name ++ last.contact.phone) := by
    intro z
    have hcons : memoryOf (last :: z) = last.contact.bytes ++ memoryOf z := rfl
    rw [hcons]
    exact content_append_of_mem (List.mem_append_right _ hphone) _
  have hsame : content (memoryOf (last :: x)) = content (memoryOf (last :: y)) := by
    rw [hmemory, hmemory]
  rw [List.append_assoc, List.append_assoc]
  rcases Nat.lt_or_ge j before.length with hbefore | hlast
  · exact reads_front hsame hbefore
  · have heq : j = before.length := by
      rw [List.length_append, List.length_singleton] at hj
      omega
    have hphoneOf : ∀ z, content ((memoryOf (last :: z)).drop 32) = content last.contact.phone := by
      intro z
      have hcons : memoryOf (last :: z) =
          last.contact.name ++ (last.contact.phone ++ memoryOf z) := List.append_assoc ..
      rw [hcons, List.drop_left' last.contact.name_length]
      exact content_append_of_mem hphone _
    unfold nameAt phoneAt
    rw [heq, List.drop_left, List.drop_left]
    exact ⟨hsame, (hphoneOf x).trans (hphoneOf y).symm⟩

private theorem reads_back (front : List Slot) (s s' : Slot) (back : List Slot) {j : Nat}
    (hj : front.length < j) :
    nameAt (front ++ s :: back) j = nameAt (front ++ s' :: back) j ∧
      phoneAt (front ++ s :: back) j = phoneAt (front ++ s' :: back) j := by
  have hdrop : ∀ t, (front ++ t :: back).drop j = back.drop (j - front.length - 1) := by
    intro t
    obtain ⟨k, rfl⟩ : ∃ k, j = front.length + (k + 1) := ⟨j - front.length - 1, by omega⟩
    rw [List.drop_length_add_append, List.drop_succ_cons]
    congr 1
    omega
  unfold nameAt phoneAt
  rw [hdrop, hdrop]
  exact ⟨rfl, rfl⟩

theorem nameAt_self (front : List Slot) (s : Slot) (back : List Slot) :
    nameAt (front ++ s :: back) front.length =
      content (s.contact.name ++ (s.contact.phone ++ memoryOf back)) := by
  rw [nameAt, List.drop_left]
  exact congrArg content (List.append_assoc ..)

theorem phoneAt_self (front : List Slot) (s : Slot) (back : List Slot) :
    phoneAt (front ++ s :: back) front.length = content (s.contact.phone ++ memoryOf back) := by
  have hmemory : memoryOf (s :: back) = s.contact.name ++ (s.contact.phone ++ memoryOf back) :=
    List.append_assoc ..
  rw [phoneAt, List.drop_left, hmemory, List.drop_left' s.contact.name_length]

theorem nameAt_long_iff {slots : List Slot} {i : Nat} (hi : i < slots.length) :
    (nameAt slots i).length < 32 ↔ nul ∈ slots[i].contact.name := by
  constructor
  · intro hshort
    by_contra hno
    have hname : content slots[i].contact.name = slots[i].contact.name := content_eq_self hno
    rw [nameAt, memoryOf_drop hi] at hshort
    have hprefix : slots[i].contact.name <+:
        content (slots[i].contact.name ++ (slots[i].contact.phone ++ memoryOf (slots.drop (i + 1)))) := by
      rw [content, List.takeWhile_append_of_pos]
      · exact List.prefix_append _ _
      · intro c hc
        have hne : c ≠ nul := fun h => hno (h ▸ hc)
        simpa using hne
    have hlength := hprefix.length_le
    rw [slots[i].contact.name_length] at hlength
    omega
  · intro hname
    rw [nameAt_eq hi hname]
    obtain ⟨rest, hrest⟩ := block_eq_content hname
    have hlength := congrArg List.length hrest
    rw [slots[i].contact.name_length, List.length_append, List.length_cons] at hlength
    omega

theorem phoneAt_of_long {slots : List Slot} {i : Nat} (hi : i < slots.length)
    (hlong : 32 ≤ (nameAt slots i).length) : phoneAt slots i = (nameAt slots i).drop 32 := by
  have hno : nul ∉ slots[i].contact.name := by
    intro hname
    have hshort := (nameAt_long_iff hi).mpr hname
    omega
  have hpos : ∀ c ∈ slots[i].contact.name, decide (c ≠ nul) = true := by
    intro c hc
    have hne : c ≠ nul := fun h => hno (h ▸ hc)
    simpa using hne
  rw [phoneAt, nameAt, memoryOf_drop hi, List.drop_left' slots[i].contact.name_length]
  unfold content
  rw [List.takeWhile_append_of_pos hpos, List.drop_left' slots[i].contact.name_length]

namespace Book

theorem texts_length (b : Book) : b.texts.length = b.count := by
  rw [texts, List.length_map, List.length_range]

theorem texts_getElem? (b : Book) {i : Nat} (hi : i < b.count) :
    b.texts[i]? = some (nameAt (b.contacts.getD []) i, phoneAt (b.contacts.getD []) i) := by
  rw [texts, List.getElem?_map, List.getElem?_range hi]
  rfl

/-- A lookup is one in the list of the texts. -/
theorem lookup_eq_mapOf (b : Book) (name : Text) :
    contactGetPhoneByName name b = mapOf b.texts name := map_find?_eq_mapOf _ _ name _

theorem texts_congr {b b' : Book} (hcount : b'.count = b.count)
    (hreads : ∀ j < b.count, nameAt (b'.contacts.getD []) j = nameAt (b.contacts.getD []) j ∧
      phoneAt (b'.contacts.getD []) j = phoneAt (b.contacts.getD []) j) : b'.texts = b.texts := by
  rw [texts, texts, hcount]
  apply List.map_congr_left
  intro j hj
  obtain ⟨hname, hphone⟩ := hreads j (List.mem_range.1 hj)
  rw [hname, hphone]

theorem find_some {b : Book} {name : Text} {i : Nat} (h : b.find name = some i) :
    i < b.count ∧ nameAt (b.contacts.getD []) i = name ∧
      ∀ j < i, nameAt (b.contacts.getD []) j ≠ name := by
  rw [find, List.find?_range_eq_some] at h
  obtain ⟨hname, hi, hfirst⟩ := h
  refine ⟨List.mem_range.1 hi, by simpa using hname, ?_⟩
  intro j hj
  simpa using hfirst j hj

end Book

section SetPhone

variable {front back : List Slot} {s : Slot} {phone : Text}

def Slot.withPhone (phone : Text) (s : Slot) : Slot := { s with contact := s.contact.setPhone phone }

theorem exists_split {slots : List Slot} {i : Nat} (hi : i < slots.length) :
    ∃ front s back, slots = front ++ s :: back ∧ front.length = i := by
  refine ⟨slots.take i, slots[i], slots.drop (i + 1), ?_, ?_⟩
  · rw [List.getElem_cons_drop, List.take_append_drop]
  · rw [List.length_take]
    omega

theorem modify_withPhone (front : List Slot) (s : Slot) (back : List Slot) (phone : Text) :
    (front ++ s :: back).modify front.length (Slot.withPhone phone) =
      front ++ s.withPhone phone :: back := by
  have hi : front.length < (front ++ s :: back).length := by simp
  rw [List.modify_eq_take_cons_drop hi]
  simp

theorem phoneAt_withPhone (hphone : nul ∉ phone) (front : List Slot) (s : Slot)
    (back : List Slot) :
    phoneAt (front ++ s.withPhone phone :: back) front.length = phone.take 15 := by
  rw [phoneAt_self]
  show content (boundedCopy 15 phone ++ memoryOf back) = _
  rw [content_append_of_mem (boundedCopy_terminated 15 phone), content_boundedCopy hphone]

theorem reads_replaced (front back : List Slot) {s s' : Slot}
    (hname : nameAt (front ++ s' :: back) front.length = nameAt (front ++ s :: back) front.length)
    {j : Nat} (hj : j ≠ front.length) :
    nameAt (front ++ s' :: back) j = nameAt (front ++ s :: back) j ∧
      phoneAt (front ++ s' :: back) j = phoneAt (front ++ s :: back) j := by
  rcases Nat.lt_or_gt_of_ne hj with hbefore | hbehind
  · apply reads_front _ hbefore
    simpa only [nameAt, List.drop_left] using hname
  · exact reads_back front s' s back hbehind

theorem reads_withPhone_same (hphone : nul ∉ phone)
    (hsame : phoneAt (front ++ s :: back) front.length = phone.take 15) (j : Nat) :
    nameAt (front ++ s.withPhone phone :: back) j = nameAt (front ++ s :: back) j ∧
      phoneAt (front ++ s.withPhone phone :: back) j = phoneAt (front ++ s :: back) j := by
  have hphones := (phoneAt_withPhone hphone front s back).trans hsame.symm
  have hname : nameAt (front ++ s.withPhone phone :: back) front.length =
      nameAt (front ++ s :: back) front.length := by
    rw [nameAt_self, nameAt_self]
    rw [phoneAt_self, phoneAt_self] at hphones
    exact content_append_congr _ hphones
  by_cases hj : j = front.length
  · rw [hj]
    exact ⟨hname, hphones⟩
  · exact reads_replaced front back hname hj

theorem nameAt_withPhone_short (hname : nul ∈ s.contact.name) (phone : Text) :
    nameAt (front ++ s.withPhone phone :: back) front.length =
      nameAt (front ++ s :: back) front.length := by
  rw [nameAt_self, nameAt_self]
  exact (content_append_of_mem hname _).trans (content_append_of_mem hname _).symm

end SetPhone

end Leyu
