import Leyu.Led.Xgb1815

/-!
# The colours that a frame shows

Decoding the pulses of a frame gives the colours of its letters, scaled by `level / 5`. The items
of a letter that the encoder does not know are never written.
-/

namespace Leyu

open Framework

/-- The bit that a chip reads from a pulse. -/
def decodeBit : Option RmtItem → Option Bool
  | none => none
  | some item =>
      if item.level0 = 1 ∧ item.level1 = 0 then
        if item.duration0 = xgb1815T0hTicks ∧ item.duration1 = xgb1815T0lTicks then some false
        else if item.duration0 = xgb1815T1hTicks ∧ item.duration1 = xgb1815T1lTicks then some true
        else none
      else none

/-- A byte, its most significant bit first. -/
def decodeByte (items : RmtItems) : Option Nat :=
  (items.mapM decodeBit).map fun bits => (BitVec.ofBoolListBE bits).toNat

structure LedLight where
  red : Nat
  green : Nat
  blue : Nat
  deriving DecidableEq, Repr

def decodeLed (items : RmtItems) : Option LedLight := do
  let green ← decodeByte (items.take 8)
  let red ← decodeByte ((items.drop 8).take 8)
  let blue ← decodeByte ((items.drop 16).take 8)
  pure ⟨red, green, blue⟩

def ledItems (frame : RmtItems) (ledIndex : Nat) : RmtItems := (frame.drop (ledIndex * 24)).take 24

/-- A colour scaled by `level / 5`. -/
def scaledLight (colour : LedColour) (level : UInt8) : LedLight :=
  ⟨colour.red.toNat * level.toNat / 5, colour.green.toNat * level.toNat / 5,
    colour.blue.toNat * level.toNat / 5⟩

/-- The frame of an array of letters shows the colours that the letters stand for. -/
structure FrameShows (colourArray : List Char) (level : UInt8) (frame : RmtItems) : Prop where
  decoded : ∀ ledIndex letter colour, colourArray[ledIndex]? = some letter →
    colorData letter = some colour →
    decodeLed (ledItems frame ledIndex) = some (scaledLight colour level)
  reset : frame.drop (colourArray.length * 24) = [some resetItem]
  defined : none ∉ frame
  uniform : ∀ letter colour, colorData letter = some colour →
    colourArray = List.replicate colourArray.length letter →
    frame = xgb1815SetColourChange colour colourArray.length level

/-- The letters of the nine colours. -/
def ledLetters : List Char := ['0', 'W', 'R', 'G', 'B', 'Y', 'C', 'P', 'O']

private theorem colorData_isSome {letter : Char} :
    (colorData letter).isSome ↔ letter ∈ ledLetters := by
  simp only [ledLetters, List.mem_cons, List.not_mem_nil, or_false]
  unfold colorData
  split <;> simp_all

/-! ## Decoding -/

private theorem decodeBit_bitItem (bitValue : Bool) :
    decodeBit (some (bitItem bitValue)) = some bitValue := by
  cases bitValue <;> rfl

private theorem mapM_decodeBit (bits : List Bool) :
    (bits.map fun bitValue => some (bitItem bitValue)).mapM decodeBit = some bits := by
  induction bits with
  | nil => rfl
  | cons bitValue bits ih => simp [List.mapM_cons, decodeBit_bitItem, ih]

private theorem toNat_ofBoolListBE (value : UInt8) :
    (BitVec.ofBoolListBE (List.ofFn fun bit : Fin 8 => value.toNat.testBit (7 - bit))).toNat =
      value.toNat := by
  refine Nat.eq_of_testBit_eq fun i => ?_
  rw [BitVec.testBit_toNat, BitVec.getLsbD_ofBoolListBE, List.length_ofFn]
  by_cases hi : i < 8
  · have hback : 7 - (7 - i) = i := by omega
    have hfront : 7 - i < 8 := by omega
    rw [List.getD_eq_getElem?_getD, List.getElem?_ofFn, dif_pos hfront, Option.getD_some,
      decide_eq_true hi, Bool.true_and]
    exact congrArg value.toNat.testBit hback
  · have hsmall : value.toNat < 2 ^ i :=
      lt_of_lt_of_le value.toNat_lt (Nat.pow_le_pow_right (by decide) (by omega))
    rw [Nat.testBit_lt_two_pow hsmall, decide_eq_false hi, Bool.false_and]

private theorem decodeByte_byteItems (value : UInt8) :
    decodeByte (byteItems value) = some value.toNat := by
  have hbits : byteItems value =
      (List.ofFn fun bit : Fin 8 => value.toNat.testBit (7 - bit)).map
        fun bitValue => some (bitItem bitValue) := by
    rw [List.map_ofFn]
    rfl
  rw [decodeByte, hbits, mapM_decodeBit, Option.map_some, toNat_ofBoolListBE]

private theorem decodeLed_rgbItems (green red blue : UInt8) :
    decodeLed (rgbItems #v[green, red, blue]) =
      some ⟨red.toNat, green.toNat, blue.toNat⟩ := by
  have hgreen : (rgbItems #v[green, red, blue]).take 8 = byteItems green := rfl
  have hred : ((rgbItems #v[green, red, blue]).drop 8).take 8 = byteItems red := rfl
  have hblue : ((rgbItems #v[green, red, blue]).drop 16).take 8 = byteItems blue := rfl
  rw [decodeLed, hgreen, hred, hblue]
  simp only [decodeByte_byteItems]
  rfl

private theorem scaled_toNat {value level : UInt8} (hlevel : level ≤ 5) :
    (UInt8.ofNat (value.toNat * level.toNat / 5)).toNat = value.toNat * level.toNat / 5 := by
  have hvalue : value.toNat ≤ 255 := Nat.le_of_lt_succ value.toNat_lt
  have hscaled : value.toNat * level.toNat ≤ 255 * 5 := Nat.mul_le_mul hvalue hlevel
  rw [UInt8.toNat_ofNat']
  exact Nat.mod_eq_of_lt (by omega)

private theorem decodeLed_rgbData {level : UInt8} (colour : LedColour) (hlevel : level ≤ 5) :
    decodeLed (rgbItems (rgbData colour level)) = some (scaledLight colour level) := by
  rw [rgbData, decodeLed_rgbItems, scaledLight]
  simp only [scaled_toNat hlevel]

private theorem none_notMem_byteItems (value : UInt8) : none ∉ byteItems value := by
  simp [byteItems]

theorem none_notMem_rgbItems (rgbData : Vector UInt8 3) : none ∉ rgbItems rgbData := by
  simp [rgbItems, none_notMem_byteItems]

private theorem none_notMem_letterItems {level : UInt8} {letter : Char} :
    none ∉ letterItems level letter ↔ letter ∈ ledLetters := by
  rw [← colorData_isSome, letterItems]
  cases colorData letter with
  | none => simp
  | some colour => simp [none_notMem_rgbItems]

/-! ## The frame of an array -/

section

variable {colourArray : List Char} {level : UInt8}

private theorem ledItems_array {ledIndex : Nat} {letter : Char}
    (h : colourArray[ledIndex]? = some letter) :
    ledItems (xgb1815SetColourArray colourArray level) ledIndex = letterItems level letter := by
  obtain ⟨hi, rfl⟩ := List.getElem?_eq_some_iff.mp h
  have hwidth : ∀ block ∈ colourArray.map (letterItems level), block.length = 24 := by
    intro block hblock
    obtain ⟨c, -, rfl⟩ := List.mem_map.mp hblock
    exact length_letterItems level c
  rw [ledItems, xgb1815SetColourArray_eq,
    take_drop_flatten hwidth [some resetItem] (by rwa [List.length_map]), List.getElem_map]

private theorem reset_array :
    (xgb1815SetColourArray colourArray level).drop (colourArray.length * 24) =
      [some resetItem] := by
  have hlength : (colourArray.map (letterItems level)).flatten.length =
      colourArray.length * 24 := by
    rw [← List.ofFn_getElem_eq_map]
    exact length_flatten_ofFn fun _ => length_letterItems level _
  rw [xgb1815SetColourArray_eq, ← hlength, List.drop_left]

theorem defined_array :
    none ∉ xgb1815SetColourArray colourArray level ↔
      ∀ letter ∈ colourArray, letter ∈ ledLetters := by
  rw [xgb1815SetColourArray_eq, List.mem_append, List.mem_flatten]
  simp only [List.mem_singleton, reduceCtorEq, or_false, List.mem_map]
  constructor
  · intro h letter hletter
    have hitems : none ∉ letterItems level letter :=
      fun hnone => h ⟨letterItems level letter, ⟨letter, hletter, rfl⟩, hnone⟩
    exact none_notMem_letterItems.mp hitems
  · rintro h ⟨_, ⟨letter, hletter, rfl⟩, hnone⟩
    exact none_notMem_letterItems.mpr (h letter hletter) hnone

private theorem uniform_array {letter : Char} {colour : LedColour}
    (hcolour : colorData letter = some colour) (length : Nat) :
    xgb1815SetColourArray (List.replicate length letter) level =
      xgb1815SetColourChange colour length level := by
  rw [xgb1815SetColourArray_eq, xgb1815SetColourChange_eq, List.map_replicate, letterItems, hcolour]

end

/-- At a level of at most 5 a frame shows its colours exactly when its letters are all known. -/
theorem frameShows_iff (colourArray : List Char) (level : UInt8) (hlevel : level ≤ 5) :
    FrameShows colourArray level (xgb1815SetColourArray colourArray level) ↔
      ∀ letter ∈ colourArray, letter ∈ ledLetters := by
  constructor
  · intro h
    exact defined_array.mp h.defined
  · intro h
    refine ⟨?_, reset_array, defined_array.mpr h, ?_⟩
    · intro ledIndex letter colour hletter hcolour
      rw [ledItems_array hletter, letterItems, hcolour]
      exact decodeLed_rgbData colour hlevel
    · intro letter colour hcolour hsame
      rw [← uniform_array hcolour, ← hsame]

theorem allColours_shown :
    FrameShows ledLetters 3 (xgb1815SetColourArray ledLetters 3) :=
  (frameShows_iff ledLetters 3 (by decide)).mpr fun _ h => h

/-- The letter of a colour that the strip has not got. -/
theorem unknownLetter_undefined :
    ¬ FrameShows ['R', 'x', 'G'] 5 (xgb1815SetColourArray ['R', 'x', 'G'] 5) := by
  intro h
  have hx := defined_array.mp h.defined 'x' (by decide)
  exact absurd hx (by decide)

end Leyu
