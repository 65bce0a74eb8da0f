import Leyu.Framework.AssocList
import Leyu.Framework.CString
import Leyu.Framework.Runs
import Leyu.Platform

/-!
# User properties

The table of `mqtt5_client_set_user_property`: up to ten keys, each with its value. The test for
room comes before the search for the key, and a value is freed before the new one is there.
-/

namespace Leyu

open Framework

def maxUserProperties : Nat := 10

/-- `user_properties` up to `user_property_count`; a value can be the null pointer. -/
structure PropertyTable where
  rows : List (Text × Option Text)
  bounded : rows.length ≤ maxUserProperties

namespace PropertyTable

def keys (t : PropertyTable) : List Text := t.rows.map Prod.fst

def set (t : PropertyTable) (i : Nat) (row : Text × Option Text) : PropertyTable where
  rows := t.rows.set i row
  bounded := by rw [List.length_set]; exact t.bounded

def push (t : PropertyTable) (row : Text × Option Text) (h : t.rows.length < maxUserProperties) :
    PropertyTable where
  rows := t.rows ++ [row]
  bounded := by rw [List.length_append]; exact h

end PropertyTable

/-- A call with its arguments, and how `strdup` of the key and of the value would end. -/
structure PropertyCall where
  key : Option Text
  value : Option Text
  keyCopied : Bool
  valueCopied : Bool

def mqtt5ClientSetUserProperty (c : PropertyCall) (t : PropertyTable) : EspErr × PropertyTable :=
  match c.key, c.value with
  | some key, some value =>
      if hroom : maxUserProperties ≤ t.rows.length then (.noMem, t)
      else
        match t.rows.findIdx? fun row => row.1 = key with
        | some i =>
            -- The old value has been freed.
            if c.valueCopied then (.ok, t.set i (key, some value))
            else (.noMem, t.set i (key, none))
        | none =>
            if c.keyCopied = false then (.noMem, t)
            else if c.valueCopied = false then (.noMem, t)
            else (.ok, t.push (key, some value) (Nat.not_le.1 hroom))
  | _, _ => (.invalidArg, t)

/-- The table, and what the calls that returned `ESP_OK` have set last. -/
structure PropertyHistory where
  table : PropertyTable
  lastSet : Text → Option Text

namespace PropertyHistory

def start : PropertyHistory := ⟨⟨[], Nat.zero_le _⟩, fun _ => none⟩

def step (h : PropertyHistory) (c : PropertyCall) : PropertyHistory :=
  let r := mqtt5ClientSetUserProperty c h.table
  { table := r.2
    lastSet :=
      match c.key, c.value with
      | some key, some value =>
          if r.1 = .ok then Function.update h.lastSet key (some value) else h.lastSet
      | _, _ => h.lastSet }

/-- The table holds each key once, with the value that was set last. -/
structure Holds (h : PropertyHistory) : Prop where
  once : h.table.keys.Nodup
  last : ∀ key, mapOf h.table.rows key = (h.lastSet key).map some

/-- No copy that the call needs fails: of a key that is there, only the value is copied. -/
def HasMemory (h : PropertyHistory) (c : PropertyCall) : Prop :=
  c.valueCopied = true ∧ ∀ key, c.key = some key → key ∉ h.table.keys → c.keyCopied = true

/-- What is said about one call: with memory, an existing key is set and only a new key in a full
table is refused; without, the table stays; and the table is the map of what was set last. -/
structure KeepsMap (h : PropertyHistory) (c : PropertyCall) : Prop where
  sets : h.HasMemory c → ∀ key value, c.key = some key → c.value = some value →
    key ∈ h.table.keys → (mqtt5ClientSetUserProperty c h.table).1 = .ok
  refuses : h.HasMemory c → (mqtt5ClientSetUserProperty c h.table).1 = .noMem →
    h.table.rows.length = maxUserProperties ∧ ∀ key, c.key = some key → key ∉ h.table.keys
  keeps : ¬ h.HasMemory c → (mqtt5ClientSetUserProperty c h.table).2 = h.table
  holds : (h.step c).Holds

/-- A key that is there is set with room in the table and memory for its value, or with neither. -/
def UpdateFits (h : PropertyHistory) (c : PropertyCall) : Prop :=
  ∀ key value, c.key = some key → c.value = some value → key ∈ h.table.keys →
    (c.valueCopied = true ↔ h.table.rows.length < maxUserProperties)

end PropertyHistory

theorem setUserProperty_cases {c : PropertyCall} {key value : Text} (hkey : c.key = some key)
    (hvalue : c.value = some value) (t : PropertyTable) :
    (t.rows.length = maxUserProperties ∧ mqtt5ClientSetUserProperty c t = (.noMem, t)) ∨
    (∃ i old, t.rows.length < maxUserProperties ∧ t.rows[i]? = some (key, old) ∧
      (∀ j < i, ∀ row ∈ t.rows[j]?, row.1 ≠ key) ∧
      mqtt5ClientSetUserProperty c t =
        if c.valueCopied then (.ok, t.set i (key, some value)) else (.noMem, t.set i (key, none))) ∨
    (∃ hroom : t.rows.length < maxUserProperties, key ∉ t.keys ∧
      mqtt5ClientSetUserProperty c t =
        if c.keyCopied = true ∧ c.valueCopied = true then (.ok, t.push (key, some value) hroom)
        else (.noMem, t)) := by
  simp only [mqtt5ClientSetUserProperty, hkey, hvalue]
  by_cases hfull : maxUserProperties ≤ t.rows.length
  · exact .inl ⟨Nat.le_antisymm t.bounded hfull, dif_pos hfull⟩
  · have hroom := Nat.not_le.1 hfull
    simp only [dif_neg hfull]
    cases hfind : t.rows.findIdx? fun row => row.1 = key with
    | some i =>
      obtain ⟨hi, hrow, hfirst⟩ := List.findIdx?_eq_some_iff_getElem.1 hfind
      refine .inr (.inl ⟨i, t.rows[i].2, hroom, ?_, ?_, rfl⟩)
      · rw [List.getElem?_eq_getElem hi, ← of_decide_eq_true hrow]
      · intro j hj row hmem
        obtain ⟨_, rfl⟩ := List.getElem?_eq_some_iff.1 hmem
        simpa using hfirst j hj
    | none =>
      refine .inr (.inr ⟨hroom, ?_, ?_⟩)
      · intro hmem
        obtain ⟨row, hrow, rfl⟩ := List.mem_map.1 hmem
        simpa using List.findIdx?_eq_none_iff.1 hfind row hrow
      · cases c.keyCopied <;> cases c.valueCopied <;> rfl

namespace PropertyHistory

variable {h : PropertyHistory} {c : PropertyCall}

private theorem holds_start : start.Holds := ⟨List.nodup_nil, fun _ => rfl⟩

private theorem step_of_refused {err : EspErr} (herr : err ≠ .ok)
    (hcall : mqtt5ClientSetUserProperty c h.table = (err, h.table)) : h.step c = h := by
  unfold step
  rw [hcall]
  dsimp only
  split
  · rw [if_neg herr]
  · rfl

private theorem step_of_ok {t : PropertyTable} {key value : Text} (hkey : c.key = some key)
    (hvalue : c.value = some value) (hcall : mqtt5ClientSetUserProperty c h.table = (.ok, t)) :
    h.step c = ⟨t, Function.update h.lastSet key (some value)⟩ := by
  unfold step
  simp only [hcall, hkey, hvalue, if_true]

private theorem keys_set {t : PropertyTable} {i : Nat} {key : Text} {old : Option Text}
    (hrow : t.rows[i]? = some (key, old)) (value : Option Text) :
    (t.set i (key, value)).keys = t.keys := by
  show (t.rows.set i (key, value)).map Prod.fst = t.rows.map Prod.fst
  have hkey : (t.rows.map Prod.fst)[i]? = some key := by rw [List.getElem?_map, hrow]; rfl
  obtain ⟨hi, rfl⟩ := List.getElem?_eq_some_iff.1 hkey
  rw [List.map_set]
  exact List.set_getElem_self hi

private theorem Holds.update (hh : h.Holds) {t : PropertyTable} {key : Text} (value : Text)
    (hkeys : t.keys.Nodup)
    (hrows : mapOf t.rows = Function.update (mapOf h.table.rows) key (some (some value))) :
    Holds ⟨t, Function.update h.lastSet key (some value)⟩ := by
  refine ⟨hkeys, fun other => ?_⟩
  show mapOf t.rows other = (Function.update h.lastSet key (some value) other).map some
  rw [hrows]
  by_cases hother : other = key
  · rw [hother, Function.update_self, Function.update_self]
    rfl
  · rw [Function.update_of_ne hother, Function.update_of_ne hother]
    exact hh.last other

private theorem mem_keys_of_row {t : PropertyTable} {i : Nat} {key : Text} {old : Option Text}
    (hrow : t.rows[i]? = some (key, old)) : key ∈ t.keys :=
  List.mem_map.2 ⟨(key, old), List.mem_of_getElem? hrow, rfl⟩

private theorem Holds.set (hh : h.Holds) {i : Nat} {key : Text} {old : Option Text} (value : Text)
    (hrow : h.table.rows[i]? = some (key, old))
    (hfirst : ∀ j < i, ∀ row ∈ h.table.rows[j]?, row.1 ≠ key) :
    Holds ⟨h.table.set i (key, some value), Function.update h.lastSet key (some value)⟩ := by
  apply hh.update value
  · rw [keys_set hrow]
    exact hh.once
  · exact mapOf_set _ hrow hfirst

private theorem Holds.push (hh : h.Holds) {key : Text} (value : Text) (hnew : key ∉ h.table.keys)
    (hroom : h.table.rows.length < maxUserProperties) :
    Holds ⟨h.table.push (key, some value) hroom, Function.update h.lastSet key (some value)⟩ := by
  apply hh.update value
  · show ((h.table.rows ++ [(key, some value)]).map Prod.fst).Nodup
    rw [List.map_append]
    refine List.nodup_append.2 ⟨hh.once, by simp, ?_⟩
    rintro other hother _ hkey rfl
    obtain rfl := List.mem_singleton.1 hkey
    exact hnew hother
  · exact mapOf_insert _ (mapOf_eq_none hnew)

private theorem keepsMap_of_noMem (hh : h.Holds) {key : Text} (hkey : c.key = some key)
    (hcall : mqtt5ClientSetUserProperty c h.table = (.noMem, h.table))
    (hfull : h.HasMemory c → h.table.rows.length = maxUserProperties ∧ key ∉ h.table.keys) :
    h.KeepsMap c := by
  constructor
  · intro hmemory other _ hother _ hmem
    obtain rfl := Option.some.inj (hkey.symm.trans hother)
    exact absurd hmem (hfull hmemory).2
  · intro hmemory _
    constructor
    · exact (hfull hmemory).1
    · intro other hother
      obtain rfl := Option.some.inj (hkey.symm.trans hother)
      exact (hfull hmemory).2
  · intro _
    rw [hcall]
  · rw [step_of_refused (by decide) hcall]
    exact hh

private theorem keepsMap_of_ok {t : PropertyTable} {key value : Text} (hkey : c.key = some key)
    (hvalue : c.value = some value) (hcall : mqtt5ClientSetUserProperty c h.table = (.ok, t))
    (hmemory : h.HasMemory c) (hh : Holds ⟨t, Function.update h.lastSet key (some value)⟩) :
    h.KeepsMap c := by
  constructor
  · intro _ _ _ _ _ _
    rw [hcall]
  · intro _ hrefused
    rw [hcall] at hrefused
    cases hrefused
  · exact fun hnone => absurd hmemory hnone
  · rw [step_of_ok hkey hvalue hcall]
    exact hh

private theorem keepsMap_of_null (hh : h.Holds) (hnull : c.key = none ∨ c.value = none) :
    h.KeepsMap c := by
  have hcall : mqtt5ClientSetUserProperty c h.table = (.invalidArg, h.table) := by
    unfold mqtt5ClientSetUserProperty
    split
    · next hkey hvalue => simp [hkey, hvalue] at hnull
    · rfl
  constructor
  · intro _ _ _ hkey hvalue _
    simp [hkey, hvalue] at hnull
  · intro _ hrefused
    rw [hcall] at hrefused
    cases hrefused
  · intro _
    rw [hcall]
  · rw [step_of_refused (by decide) hcall]
    exact hh

private theorem keepsMap_of_fits (hh : h.Holds) (hok : h.UpdateFits c) : h.KeepsMap c := by
  cases hkey : c.key with
  | none => exact keepsMap_of_null hh (.inl hkey)
  | some key =>
    cases hvalue : c.value with
    | none => exact keepsMap_of_null hh (.inr hvalue)
    | some value =>
      have hok := hok key value hkey hvalue
      rcases setUserProperty_cases hkey hvalue h.table with
        ⟨hfull, hcall⟩ | ⟨i, old, hroom, hrow, hfirst, hcall⟩ | ⟨hroom, hnew, hcall⟩
      · refine keepsMap_of_noMem hh hkey hcall fun hmemory => ⟨hfull, fun hmem => ?_⟩
        exact Nat.lt_irrefl _ (hfull ▸ (hok hmem).1 hmemory.1)
      · have hmem := mem_keys_of_row hrow
        have hcopied := (hok hmem).2 hroom
        rw [if_pos hcopied] at hcall
        refine keepsMap_of_ok hkey hvalue hcall ⟨hcopied, fun other hother hnew => ?_⟩
          (hh.set value hrow hfirst)
        obtain rfl := Option.some.inj (hkey.symm.trans hother)
        exact absurd hmem hnew
      · by_cases hcopied : c.keyCopied = true ∧ c.valueCopied = true
        · rw [if_pos hcopied] at hcall
          exact keepsMap_of_ok hkey hvalue hcall ⟨hcopied.2, fun _ _ _ => hcopied.1⟩
            (hh.push value hnew hroom)
        · rw [if_neg hcopied] at hcall
          refine keepsMap_of_noMem hh hkey hcall fun hmemory => ?_
          exact absurd ⟨hmemory.2 key hkey hnew, hmemory.1⟩ hcopied

private theorem fits_of_keepsMap (hh : h.Holds) (hgood : h.KeepsMap c) : h.UpdateFits c := by
  intro key value hkey hvalue hmem
  rcases setUserProperty_cases hkey hvalue h.table with
    ⟨hfull, hcall⟩ | ⟨i, old, hroom, hrow, hfirst, hcall⟩ | ⟨hroom, hnew, hcall⟩
  · rw [hfull]
    refine iff_of_false (fun hcopied => ?_) (Nat.lt_irrefl _)
    have hset := hgood.sets ⟨hcopied, fun key' hkey' hnew => ?_⟩ key value hkey hvalue hmem
    · rw [hcall] at hset
      cases hset
    · obtain rfl := Option.some.inj (hkey.symm.trans hkey')
      exact absurd hmem hnew
  · refine iff_of_true ?_ hroom
    by_contra hcopied
    -- The value that was set last has been freed.
    have hkeeps := hgood.keeps fun hmemory => hcopied hmemory.1
    rw [hcall, if_neg hcopied] at hkeeps
    have hfreed := mapOf_set none hrow hfirst
    have hrows : h.table.rows.set i (key, none) = h.table.rows :=
      congrArg PropertyTable.rows hkeeps
    rw [hrows] at hfreed
    have hlast := hh.last key
    rw [hfreed, Function.update_self] at hlast
    cases hset : h.lastSet key with
    | none =>
      rw [hset] at hlast
      cases hlast
    | some value' =>
      rw [hset] at hlast
      cases hlast
  · exact absurd hmem hnew

end PropertyHistory

/-- The table is the map of what was set last throughout a sequence of calls, and every call does
what is said about it, exactly when every update fits. -/
theorem userProperties_iff (calls : List PropertyCall) :
    AllSteps PropertyHistory.step PropertyHistory.KeepsMap .start calls ↔
      AllSteps PropertyHistory.step PropertyHistory.UpdateFits .start calls := by
  refine allSteps_congr (I := PropertyHistory.Holds) ?_ ?_ PropertyHistory.holds_start calls
  · intro h c hh hok
    have hgood := PropertyHistory.keepsMap_of_fits hh hok
    exact ⟨hgood, hgood.holds⟩
  · intro h c hh hgood
    exact PropertyHistory.fits_of_keepsMap hh hgood

def setKey (key : Char) : PropertyCall := ⟨some [key], some ['1'], true, true⟩

def tenKeys : List PropertyCall := ['a', 'b', 'c', 'd', 'e', 'f', 'g', 'h', 'i', 'j'].map setKey

/-- Ten keys are set, and then the first one again. -/
theorem eleventhCall_refused :
    (mqtt5ClientSetUserProperty (setKey 'a')
        (run PropertyHistory.step .start tenKeys).table).1 = .noMem ∧
      ['a'] ∈ (run PropertyHistory.step .start tenKeys).table.keys ∧
      ¬ AllSteps PropertyHistory.step PropertyHistory.KeepsMap .start
        (tenKeys ++ [setKey 'a']) := by
  have hrefused : (mqtt5ClientSetUserProperty (setKey 'a')
      (run PropertyHistory.step .start tenKeys).table).1 = .noMem := by decide
  have hmem : ['a'] ∈ (run PropertyHistory.step .start tenKeys).table.keys := by decide
  refine ⟨hrefused, hmem, fun h => ?_⟩
  have hlast := ((allSteps_append _ _ _ _).1 h).2.1
  have hset := hlast.sets ⟨rfl, fun _ _ _ => rfl⟩ ['a'] ['1'] rfl rfl hmem
  exact nomatch hset.symm.trans hrefused

end Leyu
