import Leyu.Mqtt.Device

/-!
# The numbers of the keys

`parse_key_bind_message` writes three numbers into the flash, one after the other, and when all
three writes succeed it reloads the numbers in the PSRAM and answers 200. What the reload finds is
not looked at, and a write that fails is not undone for the writes before it.
-/

namespace Leyu

open Framework

/-- The keys of the namespace `key_bind`, also the rows of `g_phone_numbers`. -/
inductive KeySlot
  | key1
  | key2
  | key3
  deriving DecidableEq, Repr

abbrev KeyFlash := KeySlot → Option Text

/-- What `nvs_flash_init` answers: one of the two errors that ask for an erase counts as
`needsErase`. -/
inductive FlashInit
  | ok
  | needsErase
  | fails
  deriving DecidableEq, Repr

structure WriteWorld where
  flashInit : FlashInit
  erase : Bool
  reinit : Bool
  nvsOpen : Bool
  setStr : Bool
  commit : Bool

structure ReloadWorld where
  spiram : Bool
  internal : Bool
  reads : KeySlot → Bool

structure BindWorld where
  write : KeySlot → WriteWorld
  reload : ReloadWorld

/-- The numbers in the flash and in the PSRAM; `none` is the null pointer. -/
structure KeyStore where
  flash : KeyFlash
  phoneNumbers : Option (KeySlot → Text)

/-- `send_device_command_response` without a command result. -/
structure BindResponse where
  oriSerial : Text
  busi : Text
  code : Text
  msg : Text
  deriving DecidableEq

/-- The start of `write_key_to_nvs`; an erase takes the whole partition. -/
def nvsFlashInit (w : WriteWorld) (f : KeyFlash) : EspErr × KeyFlash :=
  match w.flashInit with
  | .ok => (.ok, f)
  | .fails => (.fail, f)
  | .needsErase => if w.erase then (if w.reinit then .ok else .fail, fun _ => none) else (.fail, f)

def writeKeyToNvs (w : WriteWorld) (key : KeySlot) (value : Text) (f : KeyFlash) :
    EspErr × KeyFlash :=
  let (err, f) := nvsFlashInit w f
  if err ≠ .ok then (err, f)
  else if w.nvsOpen = false then (.fail, f)
  else if w.setStr = false then (.fail, f)
  else (if w.commit then .ok else .fail, Function.update f key (some value))

/-- `read_key_from_nvs` into a cleared row of 64 bytes: what is in the row afterwards. -/
def readKeyFromNvs (reads : Bool) (f : KeyFlash) (key : KeySlot) : Text :=
  if reads then ((f key).filter fun value => decide (value.length < 64)).getD [] else []

def initPhoneNumbersFromFlash (w : ReloadWorld) (f : KeyFlash) :
    EspErr × Option (KeySlot → Text) :=
  if w.spiram || w.internal then (.ok, some fun key => readKeyFromNvs (w.reads key) f key)
  else (.noMem, none)

def getPhoneNumberByKey (s : KeyStore) (key : KeySlot) : Option Text :=
  s.phoneNumbers.bind fun numbers => if numbers key = [] then none else some (numbers key)

/-- The three string fields of a key-bind message, as C strings. -/
def keysOf (root : Json) : Option (KeySlot → Text) := do
  let key1 ← (root.stringItem "key1".toList).map content
  let key2 ← (root.stringItem "key2".toList).map content
  let key3 ← (root.stringItem "key3".toList).map content
  some fun
    | .key1 => key1
    | .key2 => key2
    | .key3 => key3

def bindSaved : BindResponse :=
  ⟨"key_bind".toList, "key_bind".toList, code200, "设备绑定信息保存成功".toList⟩

def bindFailed : BindResponse :=
  ⟨"key_bind".toList, "key_bind".toList, code500, "设备绑定信息保存失败".toList⟩

def bindKeys (w : BindWorld) (keys : KeySlot → Text) (s : KeyStore) : KeyStore × BindResponse :=
  let (ret1, f) := writeKeyToNvs (w.write .key1) .key1 (keys .key1) s.flash
  let (ret2, f) := writeKeyToNvs (w.write .key2) .key2 (keys .key2) f
  let (ret3, f) := writeKeyToNvs (w.write .key3) .key3 (keys .key3) f
  if ret1 = .ok ∧ ret2 = .ok ∧ ret3 = .ok then
    (⟨f, (initPhoneNumbersFromFlash w.reload f).2⟩, bindSaved)
  else (⟨f, s.phoneNumbers⟩, bindFailed)

def parseKeyBindMessage (o : Outside) (w : BindWorld) (jsonStr : Text) (s : KeyStore) :
    KeyStore × Option BindResponse :=
  match (o.cJSONParse jsonStr).bind keysOf with
  | none => (s, none)
  | some keys => ((bindKeys w keys s).1, some (bindKeys w keys s).2)

/-- After a 200 the numbers are the ones of the message, after a 500 the ones from before, in the
flash as in the PSRAM. -/
def Truthful (keys : KeySlot → Text) (before : KeyStore) (result : KeyStore × Option BindResponse) :
    Prop :=
  (∀ answer ∈ result.2, answer.code = code200 →
    ∀ key, getPhoneNumberByKey result.1 key = if keys key = [] then none else some (keys key)) ∧
  (∀ answer ∈ result.2, answer.code = code500 → result.1 = before)

namespace WriteWorld

def erases (w : WriteWorld) : Bool := decide (w.flashInit = .needsErase) && w.erase

def ready (w : WriteWorld) : Bool := decide (w.flashInit = .ok) || (w.erases && w.reinit)

def stores (w : WriteWorld) : Bool := w.ready && w.nvsOpen && w.setStr

def succeeds (w : WriteWorld) : Bool := w.stores && w.commit

end WriteWorld

namespace BindWorld

def erasesAfter (w : BindWorld) : KeySlot → Bool
  | .key1 => (w.write .key2).erases || (w.write .key3).erases
  | .key2 => (w.write .key3).erases
  | .key3 => false

def erasesAny (w : BindWorld) : Bool := (w.write .key1).erases || w.erasesAfter .key1

def allSucceed (w : BindWorld) : Bool :=
  (w.write .key1).succeeds && (w.write .key2).succeeds && (w.write .key3).succeeds

def keeps (w : BindWorld) (key : KeySlot) : Bool := (w.write key).stores && !w.erasesAfter key

def reloads (w : BindWorld) (key : KeySlot) : Bool :=
  (w.reload.spiram || w.reload.internal) && w.reload.reads key

end BindWorld

/-- With three successful writes, each number is empty, or fits its row and is neither erased by a
later write nor missed by the reload; with a failed one, no write has changed anything. -/
def BindFits (w : BindWorld) (keys : KeySlot → Text) (s : KeyStore) : Prop :=
  if w.allSucceed then
    ∀ key, keys key = [] ∨
      (keys key).length < 64 ∧ w.erasesAfter key = false ∧ w.reloads key = true
  else
    ∀ key, if w.keeps key then s.flash key = some (keys key)
      else w.erasesAny = true → s.flash key = none

private theorem nvsFlashInit_eq (w : WriteWorld) (f : KeyFlash) :
    ((nvsFlashInit w f).1 = .ok ↔ w.ready = true) ∧
      (nvsFlashInit w f).2 = if w.erases then fun _ => none else f := by
  unfold nvsFlashInit WriteWorld.ready WriteWorld.erases
  cases w.flashInit with
  | ok => simp
  | fails => simp
  | needsErase => cases w.erase <;> cases w.reinit <;> simp

private theorem writeKeyToNvs_eq (w : WriteWorld) (key : KeySlot) (value : Text) (f : KeyFlash) :
    ((writeKeyToNvs w key value f).1 = .ok ↔ w.succeeds = true) ∧
      ∀ other, (writeKeyToNvs w key value f).2 other =
        if w.stores = true ∧ other = key then some value
        else if w.erases then none else f other := by
  have hinit := nvsFlashInit_eq w f
  unfold writeKeyToNvs WriteWorld.succeeds WriteWorld.stores
  simp only [hinit.2]
  by_cases hready : w.ready = true
  · have hok : (nvsFlashInit w f).1 = .ok := hinit.1.2 hready
    rw [hok, hready]
    cases w.nvsOpen with
    | false => cases w.erases <;> simp
    | true =>
      cases w.setStr with
      | false => cases w.erases <;> simp
      | true =>
        constructor
        · cases w.commit <;> simp
        · intro other
          by_cases hother : other = key <;> cases w.erases <;> simp [hother]
  · have herr : (nvsFlashInit w f).1 ≠ .ok := fun h => hready (hinit.1.1 h)
    rw [if_pos herr]
    cases w.erases <;> simp [hready, herr]

def boundFlash (w : BindWorld) (keys : KeySlot → Text) (f : KeyFlash) : KeyFlash :=
  let f := (writeKeyToNvs (w.write .key1) .key1 (keys .key1) f).2
  let f := (writeKeyToNvs (w.write .key2) .key2 (keys .key2) f).2
  (writeKeyToNvs (w.write .key3) .key3 (keys .key3) f).2

private theorem bindKeys_eq (w : BindWorld) (keys : KeySlot → Text) (s : KeyStore) :
    bindKeys w keys s =
      if w.allSucceed then
        (⟨boundFlash w keys s.flash,
          (initPhoneNumbersFromFlash w.reload (boundFlash w keys s.flash)).2⟩, bindSaved)
      else (⟨boundFlash w keys s.flash, s.phoneNumbers⟩, bindFailed) := by
  have h₁ := fun f => (writeKeyToNvs_eq (w.write .key1) .key1 (keys .key1) f).1
  have h₂ := fun f => (writeKeyToNvs_eq (w.write .key2) .key2 (keys .key2) f).1
  have h₃ := fun f => (writeKeyToNvs_eq (w.write .key3) .key3 (keys .key3) f).1
  simp only [bindKeys, boundFlash, h₁, h₂, h₃, BindWorld.allSucceed, Bool.and_eq_true, and_assoc]

private theorem boundFlash_eq (w : BindWorld) (keys : KeySlot → Text) (f : KeyFlash)
    (key : KeySlot) :
    boundFlash w keys f key =
      if w.keeps key then some (keys key) else if w.erasesAny then none else f key := by
  have h₁ := (writeKeyToNvs_eq (w.write .key1) .key1 (keys .key1) f).2
  have h₂ := fun f => (writeKeyToNvs_eq (w.write .key2) .key2 (keys .key2) f).2
  have h₃ := fun f => (writeKeyToNvs_eq (w.write .key3) .key3 (keys .key3) f).2
  simp only [boundFlash, h₁, h₂, h₃, BindWorld.keeps, BindWorld.erasesAny, BindWorld.erasesAfter]
  by_cases he₁ : (w.write .key1).erases = true <;> by_cases he₂ : (w.write .key2).erases = true <;>
    by_cases he₃ : (w.write .key3).erases = true
  all_goals
    cases key with
    | key1 => by_cases hs : (w.write .key1).stores = true <;> simp [hs, he₁, he₂, he₃]
    | key2 => by_cases hs : (w.write .key2).stores = true <;> simp [hs, he₁, he₂, he₃]
    | key3 => by_cases hs : (w.write .key3).stores = true <;> simp [hs, he₁, he₂, he₃]

private theorem getPhoneNumberByKey_reloaded (w : BindWorld) (f : KeyFlash) (key : KeySlot) :
    getPhoneNumberByKey ⟨f, (initPhoneNumbersFromFlash w.reload f).2⟩ key =
      if w.reloads key then (f key).filter fun value => decide (value.length < 64 ∧ value ≠ [])
      else none := by
  unfold getPhoneNumberByKey initPhoneNumbersFromFlash BindWorld.reloads
  cases w.reload.spiram || w.reload.internal with
  | false => rfl
  | true =>
    show (if readKeyFromNvs (w.reload.reads key) f key = [] then none
      else some (readKeyFromNvs (w.reload.reads key) f key)) = _
    unfold readKeyFromNvs
    cases w.reload.reads key with
    | false => rfl
    | true =>
      cases f key with
      | none => rfl
      | some value =>
        by_cases hshort : value.length < 64
        · by_cases hempty : value = [] <;> simp [Option.filter_some, hshort, hempty]
        · simp [Option.filter_some, hshort]

/-- After three successful writes, a key is bound to its number exactly when the number is empty or
comes back from the reload. -/
theorem getPhoneNumberByKey_bound {w : BindWorld} (hall : w.allSucceed = true)
    (keys : KeySlot → Text) (f : KeyFlash) (key : KeySlot) :
    getPhoneNumberByKey
        ⟨boundFlash w keys f, (initPhoneNumbersFromFlash w.reload (boundFlash w keys f)).2⟩ key =
          (if keys key = [] then none else some (keys key)) ↔
      keys key = [] ∨
        (keys key).length < 64 ∧ w.erasesAfter key = false ∧ w.reloads key = true := by
  have hstores : (w.write key).stores = true := by
    simp only [BindWorld.allSucceed, WriteWorld.succeeds, Bool.and_eq_true] at hall
    cases key with
    | key1 => exact hall.1.1.1
    | key2 => exact hall.1.2.1
    | key3 => exact hall.2.1
  have hflash : boundFlash w keys f key = if w.erasesAfter key then none else some (keys key) := by
    rw [boundFlash_eq]
    cases herased : w.erasesAfter key with
    | false => simp [BindWorld.keeps, hstores, herased]
    | true =>
      have hany : w.erasesAny = true := by
        cases key with
        | key1 => simp [BindWorld.erasesAny, herased]
        | key2 =>
          have hthird : (w.write .key3).erases = true := herased
          simp [BindWorld.erasesAny, BindWorld.erasesAfter, hthird]
        | key3 => cases herased
      simp [BindWorld.keeps, herased, hany]
  rw [getPhoneNumberByKey_reloaded, hflash]
  by_cases hempty : keys key = []
  · cases w.reloads key <;> cases w.erasesAfter key <;> simp [Option.filter_some, hempty]
  · cases w.reloads key <;> cases w.erasesAfter key <;> simp [Option.filter_some, hempty]

/-- The answer is truthful exactly when the message fits: its numbers come back after three
successful writes, or no write has changed anything. -/
theorem keyBind_truthful_iff (o : Outside) (w : BindWorld) (jsonStr : Text) (s : KeyStore)
    (keys : KeySlot → Text) (hkeys : (o.cJSONParse jsonStr).bind keysOf = some keys) :
    Truthful keys s (parseKeyBindMessage o w jsonStr s) ↔ BindFits w keys s := by
  have hcodes : code200 ≠ code500 := by decide
  have hresult : parseKeyBindMessage o w jsonStr s =
      ((bindKeys w keys s).1, some (bindKeys w keys s).2) := by
    simp only [parseKeyBindMessage, hkeys]
  rw [hresult, bindKeys_eq]
  unfold Truthful BindFits
  cases hall : w.allSucceed with
  | true =>
    have hbound := getPhoneNumberByKey_bound hall keys s.flash
    simp only [if_true]
    constructor
    · intro h key
      exact (hbound key).1 (h.1 bindSaved rfl rfl key)
    · intro h
      refine ⟨fun answer _ _ key => (hbound key).2 (h key), ?_⟩
      intro answer hanswer hcode
      obtain rfl := Option.some.inj hanswer
      exact absurd hcode hcodes
  | false =>
    have hflash := boundFlash_eq w keys s.flash
    simp only [Bool.false_eq_true, if_false]
    constructor
    · intro h key
      have hsame : boundFlash w keys s.flash key = s.flash key := by
        have hstore := h.2 bindFailed rfl rfl
        exact congrFun (congrArg KeyStore.flash hstore) key
      rw [hflash] at hsame
      by_cases hkeeps : w.keeps key = true
      · rw [if_pos hkeeps] at hsame ⊢
        exact hsame.symm
      · rw [if_neg hkeeps] at hsame ⊢
        intro hany
        rw [if_pos hany] at hsame
        exact hsame.symm
    · intro h
      constructor
      · intro answer hanswer hcode
        obtain rfl := Option.some.inj hanswer
        exact absurd hcode.symm hcodes
      · intro answer _ _
        have hsame : boundFlash w keys s.flash = s.flash := by
          funext key
          have hkey := h key
          rw [hflash]
          by_cases hkeeps : w.keeps key = true
          · rw [if_pos hkeeps] at hkey ⊢
            exact hkey.symm
          · rw [if_neg hkeeps] at hkey ⊢
            by_cases hany : w.erasesAny = true
            · rw [if_pos hany]
              exact (hkey hany).symm
            · rw [if_neg hany]
        rw [hsame]

def bindMessage : Text :=
  "\x7b\"key1\":\"110\",\"key2\":\"119\",\"key3\":\"120\"\x7d".toList

def bindTree : Json :=
  .object [("key1".toList, .string "110".toList), ("key2".toList, .string "119".toList),
    ("key3".toList, .string "120".toList)]

def bindNumbers : KeySlot → Text
  | .key1 => "110".toList
  | .key2 => "119".toList
  | .key3 => "120".toList

def unboundStore : KeyStore := ⟨fun _ => none, some fun _ => []⟩

def goodWrite : WriteWorld := ⟨.ok, true, true, true, true, true⟩

def goodBind : BindWorld := ⟨fun _ => goodWrite, ⟨true, true, fun _ => true⟩⟩

private theorem bindMessage_keys :
    ((parserOf bindMessage bindTree).cJSONParse bindMessage).bind keysOf = some bindNumbers := by
  rw [parserOf_parse]
  apply congrArg some
  funext key
  cases key <;> rfl

theorem keyBind_truthful_goodBind :
    Truthful bindNumbers unboundStore
      (parseKeyBindMessage (parserOf bindMessage bindTree) goodBind bindMessage unboundStore) := by
  apply (keyBind_truthful_iff (parserOf bindMessage bindTree) goodBind bindMessage unboundStore
    bindNumbers bindMessage_keys).2
  intro key
  cases key <;> decide

def halfBind : BindWorld :=
  { goodBind with
    write := fun key => if key = .key2 then { goodWrite with setStr := false } else goodWrite }

/-- The answer is 500, and the first number has changed in the flash. -/
theorem halfBind_untruthful :
    ¬ Truthful bindNumbers unboundStore
        (parseKeyBindMessage (parserOf bindMessage bindTree) halfBind bindMessage unboundStore) ∧
      (bindKeys halfBind bindNumbers unboundStore).2 = bindFailed ∧
      (bindKeys halfBind bindNumbers unboundStore).1.flash .key1 = some "110".toList := by
  have hanswer : (bindKeys halfBind bindNumbers unboundStore).2 = bindFailed := rfl
  have hchanged : (bindKeys halfBind bindNumbers unboundStore).1.flash .key1 = some "110".toList :=
    rfl
  refine ⟨?_, hanswer, hchanged⟩
  intro h
  have hresult : parseKeyBindMessage (parserOf bindMessage bindTree) halfBind bindMessage
      unboundStore =
        ((bindKeys halfBind bindNumbers unboundStore).1,
          some (bindKeys halfBind bindNumbers unboundStore).2) := by
    simp only [parseKeyBindMessage, bindMessage_keys]
  rw [hresult] at h
  have hsame := h.2 _ rfl (congrArg BindResponse.code hanswer)
  rw [hsame] at hchanged
  cases hchanged

end Leyu
