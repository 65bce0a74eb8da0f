import Mathlib.Data.List.Basic

/-!
# A list kept in two records

A list is stored as two records, first its length and then its entries, each written atomically.
The reader takes the length from the one and the entries from the other, and refuses lengths
beyond a limit. The rules say for each place at which a save can end what the reader makes of it.
-/

namespace Leyu.Framework

variable {α : Type*}

structure CountedStore (α : Type*) where
  count : Option Nat
  blob : Option (List α)

/-- What a reader makes of the two records: a list, its own defaults, or a list of the stored
length in which the entries that are not stored are arbitrary. -/
inductive Restored (α : Type*)
  | list (xs : List α)
  | mixture
  | defaults

/-- More entries than the length announces are refused. -/
def restore (limit : Nat) (s : CountedStore α) : Restored α :=
  match s.count, s.blob with
  | some n, some xs =>
      if n = 0 ∨ limit < n ∨ n < xs.length then .defaults
      else if xs.length < n then .mixture
      else .list xs
  | _, _ => .defaults

def CountedStore.writeCount (n : Nat) (s : CountedStore α) : CountedStore α :=
  { s with count := some n }

def CountedStore.writeBlob (xs : List α) (s : CountedStore α) : CountedStore α :=
  { s with blob := some xs }

/-- No list was ever stored, or the two records fit each other and the limit. -/
def CountedStore.Clean (limit : Nat) (s : CountedStore α) : Prop :=
  ∀ xs ∈ s.blob, s.count = some xs.length ∧ xs ≠ [] ∧ xs.length ≤ limit

/-- An attempt to store `new` has left the new list or the one from before, and the defaults only
where no list is stored. -/
def Intact (limit : Nat) (before : CountedStore α) (new : List α) (after : CountedStore α) : Prop :=
  restore limit after = .list new ∨
    (∃ xs, restore limit before = .list xs ∧ restore limit after = .list xs) ∨
    (after.blob = none ∧ restore limit after = .defaults)

variable {limit : Nat} {s : CountedStore α}

theorem restore_of_blob_none (h : s.blob = none) : restore limit s = .defaults := by
  cases hcount : s.count <;> simp [restore, hcount, h]

theorem restore_eq (limit : Nat) {n : Nat} {xs : List α} (hcount : s.count = some n)
    (hblob : s.blob = some xs) :
    restore limit s =
      if n = 0 ∨ limit < n ∨ n < xs.length then .defaults
      else if xs.length < n then .mixture
      else .list xs := by
  simp only [restore, hcount, hblob]

theorem restore_clean (hs : s.Clean limit) {xs : List α} (hblob : s.blob = some xs) :
    restore limit s = .list xs := by
  obtain ⟨hcount, hne, hlimit⟩ := hs xs hblob
  have hpos : 0 < xs.length := List.length_pos_iff.mpr hne
  rw [restore_eq limit hcount hblob, if_neg (by omega), if_neg (by omega)]

theorem restore_both_iff (limit : Nat) {new : List α} (hnew : new ≠ [])
    (hcount : s.count = some new.length) (hblob : s.blob = some new) :
    restore limit s = .list new ↔ new.length ≤ limit := by
  have hpos : 0 < new.length := List.length_pos_iff.mpr hnew
  rw [restore_eq limit hcount hblob]
  by_cases hlimit : new.length ≤ limit
  · rw [if_neg (by omega), if_neg (by omega)]
    exact iff_of_true rfl hlimit
  · rw [if_pos (by omega)]
    exact iff_of_false (by simp) hlimit

theorem restore_defaults_of_beyond {limit : Nat} {new : List α} (hcount : s.count = some new.length)
    (hblob : s.blob = some new) (hlimit : limit < new.length) : restore limit s = .defaults := by
  rw [restore_eq limit hcount hblob, if_pos (by omega)]

theorem intact_of_unchanged (hs : s.Clean limit) (new : List α) : Intact limit s new s := by
  cases hblob : s.blob with
  | none => exact .inr (.inr ⟨hblob, restore_of_blob_none hblob⟩)
  | some xs =>
    have hlist := restore_clean hs hblob
    exact .inr (.inl ⟨xs, hlist, hlist⟩)

theorem intact_writeCount_iff (hs : s.Clean limit) {new : List α} :
    Intact limit s new (s.writeCount new.length) ↔
      ∀ xs ∈ s.blob, xs.length = new.length := by
  have hblob' : (s.writeCount new.length).blob = s.blob := rfl
  cases hblob : s.blob with
  | none =>
    rw [hblob] at hblob'
    have hdefaults : restore limit (s.writeCount new.length) = .defaults :=
      restore_of_blob_none hblob'
    exact iff_of_true (.inr (.inr ⟨hblob', hdefaults⟩)) (fun xs hxs => nomatch hxs)
  | some xs =>
    rw [hblob] at hblob'
    obtain ⟨-, hne, hlimit⟩ := hs xs hblob
    have hpos : 0 < xs.length := List.length_pos_iff.mpr hne
    have hrestore := restore_eq limit (s := s.writeCount new.length) rfl hblob'
    constructor
    · intro hintact ys hys
      obtain rfl : xs = ys := Option.some.inj hys
      have hlist : ∃ zs, restore limit (s.writeCount new.length) = .list zs := by
        rcases hintact with h | ⟨zs, -, h⟩ | ⟨h, -⟩
        · exact ⟨new, h⟩
        · exact ⟨zs, h⟩
        · exact nomatch hblob'.symm.trans h
      obtain ⟨zs, hzs⟩ := hlist
      rw [hrestore] at hzs
      split at hzs
      · cases hzs
      · split at hzs
        · cases hzs
        · omega
    · intro hsame
      have hlength : xs.length = new.length := hsame xs rfl
      have hlist : restore limit (s.writeCount new.length) = .list xs := by
        rw [hrestore, if_neg (by omega), if_neg (by omega)]
      exact .inr (.inl ⟨xs, restore_clean hs hblob, hlist⟩)

theorem intact_both_iff {new : List α} (hnew : new ≠ []) :
    Intact limit s new ((s.writeCount new.length).writeBlob new) ↔ new.length ≤ limit := by
  have hboth := restore_both_iff limit
    (s := (s.writeCount new.length).writeBlob new) hnew rfl rfl
  constructor
  · intro hintact
    rcases hintact with h | ⟨xs, -, h⟩ | ⟨h, -⟩
    · exact hboth.1 h
    · by_contra hbeyond
      have hdefaults := restore_defaults_of_beyond
        (s := (s.writeCount new.length).writeBlob new) rfl rfl (Nat.lt_of_not_le hbeyond)
      exact nomatch hdefaults.symm.trans h
    · cases h
  · intro hlimit
    exact .inl (hboth.2 hlimit)

theorem clean_writeCount (hs : s.Clean limit) {n : Nat} (h : ∀ xs ∈ s.blob, xs.length = n) :
    (s.writeCount n).Clean limit := by
  intro xs hxs
  obtain ⟨-, hne, hlimit⟩ := hs xs hxs
  have hcount : (s.writeCount n).count = some xs.length := by
    rw [h xs hxs]
    rfl
  exact ⟨hcount, hne, hlimit⟩

theorem clean_both {new : List α} (hnew : new ≠ []) (hlimit : new.length ≤ limit) :
    ((s.writeCount new.length).writeBlob new).Clean limit := by
  intro xs hxs
  obtain rfl : new = xs := Option.some.inj hxs
  exact ⟨rfl, hnew, hlimit⟩

end Leyu.Framework
