import Leyu.Framework.Region

/-!
# The frames of the LED strip

A chip of the strip takes 24 pulses, the bytes green, red and blue with the most significant bit
first; a long low level ends the frame. Two encoders build the pulses of a whole strip: one from
an array of colour letters, one from a single colour.
-/

namespace Leyu

open Framework

/-- `rmt_item32_t` -/
structure RmtItem where
  duration0 : BitVec 15
  level0 : BitVec 1
  duration1 : BitVec 15
  level1 : BitVec 1
  deriving DecidableEq, Repr

/-- The items on the stack of an encoder; an item that nothing has been written to is `none`. -/
abbrev RmtItems := List (Option RmtItem)

def xgb1815T0hTicks : BitVec 15 := 3
def xgb1815T0lTicks : BitVec 15 := 6
def xgb1815T1hTicks : BitVec 15 := 6
def xgb1815T1lTicks : BitVec 15 := 3
def xgb1815ResetTicks : BitVec 15 := 800

abbrev LedColour := Vector UInt8 3

def LedColour.red (colour : LedColour) : UInt8 := colour[0]
def LedColour.green (colour : LedColour) : UInt8 := colour[1]
def LedColour.blue (colour : LedColour) : UInt8 := colour[2]

def offLed : LedColour := #v[0, 0, 0]
def whiteLed : LedColour := #v[255, 255, 255]
def redLed : LedColour := #v[255, 0, 0]
def greenLed : LedColour := #v[0, 255, 0]
def blueLed : LedColour := #v[0, 0, 255]
def yellowLed : LedColour := #v[255, 255, 0]
def cyanLed : LedColour := #v[0, 255, 255]
def purpleLed : LedColour := #v[255, 0, 255]
def orangeLed : LedColour := #v[255, 165, 0]

/-- The `switch` of `xgb_1815_set_colour_array`. -/
def colorData : Char → Option LedColour
  | '0' => some offLed
  | 'W' => some whiteLed
  | 'R' => some redLed
  | 'G' => some greenLed
  | 'B' => some blueLed
  | 'Y' => some yellowLed
  | 'C' => some cyanLed
  | 'P' => some purpleLed
  | 'O' => some orangeLed
  | _ => none

/-- `rgb_data`: green, red, blue. The product is an `int`, and a byte of the quotient is kept. -/
def rgbData (colour : LedColour) (level : UInt8) : Vector UInt8 3 :=
  #v[UInt8.ofNat (colour.green.toNat * level.toNat / 5),
    UInt8.ofNat (colour.red.toNat * level.toNat / 5),
    UInt8.ofNat (colour.blue.toNat * level.toNat / 5)]

def bitItem (bitValue : Bool) : RmtItem :=
  if bitValue then ⟨xgb1815T1hTicks, 1, xgb1815T1lTicks, 0⟩
  else ⟨xgb1815T0hTicks, 1, xgb1815T0lTicks, 0⟩

def resetItem : RmtItem := ⟨xgb1815ResetTicks, 0, 0, 0⟩

/-- The loops over the bytes and the bits, which the two encoders share word for word. -/
def writeRgbData (ledIndex : Nat) (rgbData : Vector UInt8 3) (items : RmtItems) : RmtItems :=
  Nat.fold 3 (fun byte _ items =>
    Nat.fold 8 (fun bit _ items =>
      let itemIndex := ledIndex * 24 + byte * 8 + bit
      let bitValue := (rgbData[byte].toNat >>> (7 - bit)) &&& 1 != 0
      items.set itemIndex (some (bitItem bitValue))) items) items

/-- `xgb_1815_set_colour_array`, on the first `length` letters of its array: what is handed to
`rmt_write_items`. The items fit into memory, so that no index overflows an `int`. -/
def xgb1815SetColourArray (colourArray : List Char) (level : UInt8) : RmtItems :=
  let length := colourArray.length
  let items : RmtItems := List.replicate (length * 24 + 1) none
  let items := length.fold (fun ledIndex _ items =>
    match colorData colourArray[ledIndex] with
    | none => items  -- `continue`: the items of this LED are left as the stack has them
    | some colour => writeRgbData ledIndex (rgbData colour level) items) items
  items.set (length * 24) (some resetItem)

def xgb1815SetColourChange (colour : LedColour) (length : Nat) (level : UInt8) : RmtItems :=
  let items : RmtItems := List.replicate (length * 24 + 1) none
  let rgbData := rgbData colour level
  let items := length.fold (fun ledIndex _ items => writeRgbData ledIndex rgbData items) items
  items.set (length * 24) (some resetItem)

/-! ## The frames as regions -/

def byteItems (value : UInt8) : RmtItems :=
  List.ofFn fun bit : Fin 8 => some (bitItem (value.toNat.testBit (7 - bit)))

def rgbItems (rgbData : Vector UInt8 3) : RmtItems :=
  (List.ofFn fun byte : Fin 3 => byteItems rgbData[byte]).flatten

@[simp] theorem length_byteItems (value : UInt8) : (byteItems value).length = 8 :=
  List.length_ofFn

@[simp] theorem length_rgbItems (rgbData : Vector UInt8 3) : (rgbItems rgbData).length = 24 :=
  length_flatten_ofFn fun _ => length_byteItems _

private theorem bitItem_shift (value bit : Nat) :
    ((value >>> (7 - bit)) &&& 1 != 0) = value.testBit (7 - bit) := by
  rw [Nat.testBit, Nat.and_comm]

private theorem writeRgbData_overwrites (ledIndex : Nat) (rgbData : Vector UInt8 3) :
    Overwrites (writeRgbData ledIndex rgbData) (ledIndex * 24) (List.replicate 24 none)
      (rgbItems rgbData) := by
  have hbyte (byte : Fin 3) : Overwrites (fun items => Nat.fold 8 (fun bit _ items =>
        items.set (ledIndex * 24 + byte * 8 + bit)
          (some (bitItem ((rgbData[byte].toNat >>> (7 - bit)) &&& 1 != 0)))) items)
      (ledIndex * 24 + byte * 8) (List.replicate 8 none) (byteItems rgbData[byte]) := by
    simp only [bitItem_shift]
    exact Overwrites.fill (ledIndex * 24 + byte * 8) (fun _ => none)
      fun bit : Fin 8 => some (bitItem (rgbData[byte].toNat.testBit (7 - bit)))
  exact Overwrites.loop _ (ledIndex * 24) 8 (fun _ => List.replicate 8 none)
    (fun byte => byteItems rgbData[byte]) (fun _ => rfl) (fun _ => length_byteItems _) hbyte

private theorem frame_eq (length : Nat) (pass : (i : Nat) → i < length → RmtItems → RmtItems)
    (block : Fin length → RmtItems) (hblock : ∀ i, (block i).length = 24)
    (hpass : ∀ i : Fin length,
      Overwrites (pass i i.isLt) (i * 24) (List.replicate 24 none) (block i)) :
    (length.fold pass (List.replicate (length * 24 + 1) none)).set (length * 24) (some resetItem) =
      (List.ofFn block).flatten ++ [some resetItem] := by
  have hloop := Overwrites.loop pass 0 24 (fun _ => List.replicate 24 none) block (by simp) hblock
    (by simpa using hpass)
  have hstack : List.replicate (length * 24 + 1) (none : Option RmtItem) =
      (List.ofFn fun _ : Fin length => List.replicate 24 none).flatten ++ [none] := by
    rw [List.ofFn_const, List.flatten_replicate_replicate, List.replicate_succ']
  have hreset := length_flatten_ofFn hblock
  rw [hstack, hloop.apply_append, ← hreset, List.set_append_right _ _ le_rfl, Nat.sub_self]
  rfl

/-- The items of the LED of a letter: an unknown letter leaves what is on the stack. -/
def letterItems (level : UInt8) (letter : Char) : RmtItems :=
  match colorData letter with
  | none => List.replicate 24 none
  | some colour => rgbItems (rgbData colour level)

@[simp] theorem length_letterItems (level : UInt8) (letter : Char) :
    (letterItems level letter).length = 24 := by
  rw [letterItems]
  split
  · exact List.length_replicate
  · exact length_rgbItems _

theorem xgb1815SetColourArray_eq (colourArray : List Char) (level : UInt8) :
    xgb1815SetColourArray colourArray level =
      (colourArray.map (letterItems level)).flatten ++ [some resetItem] := by
  rw [← List.ofFn_getElem_eq_map]
  refine frame_eq _ _ _ (fun _ => length_letterItems _ _) fun i => ?_
  rw [letterItems]
  cases colorData colourArray[i.val] with
  | none => exact Overwrites.skip _ _
  | some colour => exact writeRgbData_overwrites i _

theorem xgb1815SetColourChange_eq (colour : LedColour) (length : Nat) (level : UInt8) :
    xgb1815SetColourChange colour length level =
      (List.replicate length (rgbItems (rgbData colour level))).flatten ++ [some resetItem] := by
  rw [← List.ofFn_const]
  exact frame_eq length _ _ (fun _ => length_rgbItems _) fun i => writeRgbData_overwrites i _

end Leyu
