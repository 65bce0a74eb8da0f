import Leyu.Framework.Cells
import Leyu.Framework.LittleEndian
import Leyu.Framework.Stream
import Mathlib.Algebra.Ring.Nat

/-!
# The report of the connection

What the application knows of the connection is copied field by field for the task that sends it,
written to one buffer as items with a type and a length, and sent in notifications. The phone reads
the items off the notifications put together.
-/

namespace Leyu

open Framework

/-- `esp_blufi_extra_info_t`: a field is there when its flag is set, a text when its pointer is. -/
structure BlufiExtraInfo where
  staBssid : Option { bssid : Bytes // bssid.length = 6 }
  staSsid : Option Bytes
  staPasswd : Option Bytes
  softapSsid : Option Bytes
  softapPasswd : Option Bytes
  softapAuthmode : Option UInt8
  softapMaxConnNum : Option UInt8
  softapChannel : Option UInt8
  staMaxConnRetry : Option UInt8
  staConnEndReason : Option UInt8
  staConnRssi : Option UInt8
  deriving DecidableEq

/-- Which allocations succeed. -/
structure BlufiReportHeap where
  info : Bool
  staSsid : Bool
  staPasswd : Bool
  softapSsid : Bool
  softapPasswd : Bool
  data : Bool

/-- A field of the report: `BLUFI_TYPE_DATA_SUBTYPE_…` and its value. -/
abbrev BlufiItem := UInt8 × Bytes

def BlufiItem.bytes (item : BlufiItem) : Bytes := item.1 :: UInt8.ofNat item.2.length :: item.2

def reportItem (subtype : UInt8) (value : Option Bytes) : List BlufiItem :=
  value.toList.map fun v => (subtype, v)

/-- The bytes of a field, its type and its length included. -/
def itemLen (value : Option Bytes) : Nat := (value.map fun v => v.length + 2).getD 0

namespace BlufiExtraInfo

/-- `osi_calloc` -/
def none : BlufiExtraInfo :=
  ⟨.none, .none, .none, .none, .none, .none, .none, .none, .none, .none, .none⟩

def bssid (info : BlufiExtraInfo) : Option Bytes := info.staBssid.map Subtype.val

/-- The fields that are no texts, behind the texts. -/
def numbers (info : BlufiExtraInfo) : List BlufiItem :=
  reportItem 0x07 (info.softapAuthmode.map ([·])) ++
  reportItem 0x06 (info.softapMaxConnNum.map ([·])) ++
  reportItem 0x08 (info.softapChannel.map ([·])) ++
  reportItem 0x14 (info.staMaxConnRetry.map ([·])) ++
  reportItem 0x15 (info.staConnEndReason.map ([·])) ++
  reportItem 0x16 (info.staConnRssi.map ([·]))

/-- The fields in the order in which they are written. -/
def items (info : BlufiExtraInfo) : List BlufiItem :=
  reportItem 0x01 info.bssid ++ reportItem 0x02 info.staSsid ++ reportItem 0x03 info.staPasswd ++
  reportItem 0x04 info.softapSsid ++ reportItem 0x05 info.softapPasswd ++ info.numbers

/-- `extra_info_len` of the fields that are no texts. -/
def numbersLen (info : BlufiExtraInfo) : Nat :=
  itemLen (info.softapAuthmode.map ([·])) + itemLen (info.softapMaxConnNum.map ([·])) +
  itemLen (info.softapChannel.map ([·])) + itemLen (info.staMaxConnRetry.map ([·])) +
  itemLen (info.staConnEndReason.map ([·])) + itemLen (info.staConnRssi.map ([·]))

/-- `btc_blufi_call_deep_copy` of a report, with `extra_info_len`. It ends at the first text for
which there is no memory. -/
def copy (heap : BlufiReportHeap) (src : BlufiExtraInfo) : BlufiExtraInfo × Nat :=
  let dst := { none with staBssid := src.staBssid }
  let len := itemLen src.bssid
  if src.staSsid.isSome && !heap.staSsid then (dst, len)
  else
    let dst := { dst with staSsid := src.staSsid }
    let len := len + itemLen src.staSsid
    if src.staPasswd.isSome && !heap.staPasswd then (dst, len)
    else
      let dst := { dst with staPasswd := src.staPasswd }
      let len := len + itemLen src.staPasswd
      if src.softapSsid.isSome && !heap.softapSsid then (dst, len)
      else
        let dst := { dst with softapSsid := src.softapSsid }
        let len := len + itemLen src.softapSsid
        if src.softapPasswd.isSome && !heap.softapPasswd then (dst, len)
        else (src, len + itemLen src.softapPasswd + src.numbersLen)

end BlufiExtraInfo

/-- `extra_info` and `extra_info_len` as the sending task gets them. -/
def deepCopyReport (heap : BlufiReportHeap) (info : Option BlufiExtraInfo) :
    Option BlufiExtraInfo × Nat :=
  match info with
  | none => (none, 0)
  | some src =>
      if heap.info then
        let copied := src.copy heap
        (some copied.1, copied.2)
      else (none, 0)

/-- The loop of `btc_blufi_send_encap`, for the given number of fragments. -/
def sendFragments (mtuSize : Nat) : Nat → Bytes → List Bytes
  | 0, _ => []
  | n + 1, data => data.take mtuSize :: sendFragments mtuSize n (data.drop mtuSize)

/-- `mtu_size` -/
def blufiMtuSize (fragSize : UInt16) : Nat := if 0 < fragSize.toNat then fragSize.toNat else 20

/-- `btc_blufi_send_encap`: the notifications, without a header. -/
def sendEncap (isConnected : Bool) (fragSize : UInt16) (data : Bytes) : List Bytes :=
  if isConnected = false then []
  else if data = [] then []
  else if data.length ≤ blufiMtuSize fragSize then [data]
  else
    sendFragments (blufiMtuSize fragSize)
      ((data.length + blufiMtuSize fragSize - 1) / blufiMtuSize fragSize) data

/-- What a report begins with. -/
structure BlufiStatus where
  opmode : UInt8
  staConnState : UInt8
  softapConnNum : UInt8

def BlufiStatus.bytes (status : BlufiStatus) : Bytes :=
  [status.opmode, status.staConnState, status.softapConnNum]

/-- `btc_blufi_wifi_conn_report`. There is no result where it would write behind its buffer or send
bytes it has not written. -/
def wifiConnReport (memory isConnected : Bool) (fragSize : UInt16) (status : BlufiStatus)
    (info : Option BlufiExtraInfo) (infoLen : Nat) : Option (List Bytes) :=
  if memory then do
    let fields := match info with
      | none => []
      | some info => info.items.flatMap BlufiItem.bytes
    let data ← (Cells.malloc (infoLen + 3)).write 0 (status.bytes ++ fields)
    let data ← Cells.text data
    return sendEncap isConnected fragSize data
  else some []

/-- `esp_blufi_send_wifi_conn_report`, on both sides of the message. -/
def sendWifiConnReport (heap : BlufiReportHeap) (isConnected : Bool) (fragSize : UInt16)
    (status : BlufiStatus) (info : Option BlufiExtraInfo) : Option (List Bytes) :=
  let copied := deepCopyReport heap info
  wifiConnReport heap.data isConnected fragSize status copied.1 copied.2

/-- The items of a report, one behind the other. -/
def nextItem : Bytes → Option (BlufiItem × Bytes)
  | subtype :: len :: rest =>
      if rest.length < len.toNat then none
      else some ((subtype, rest.take len.toNat), rest.drop len.toNat)
  | _ => none

def blufiItems : Splitter UInt8 BlufiItem where
  next := nextItem
  shorter := by
    intro xs item rest h
    rcases xs with _ | ⟨subtype, _ | ⟨len, xs⟩⟩
    · cases h
    · cases h
    · simp only [nextItem] at h
      split at h
      · cases h
      · obtain ⟨rfl, rfl⟩ := Prod.mk.inj (Option.some.inj h)
        simp only [List.length_drop, List.length_cons]
        omega
  extend := by
    intro xs item rest h more
    rcases xs with _ | ⟨subtype, _ | ⟨len, xs⟩⟩
    · cases h
    · cases h
    · simp only [nextItem, List.cons_append] at h ⊢
      split at h
      · cases h
      · next hlen =>
        obtain ⟨rfl, rfl⟩ := Prod.mk.inj (Option.some.inj h)
        have hle := Nat.le_of_not_lt hlen
        rw [if_neg (by rw [List.length_append]; omega), List.take_append_of_le_length hle,
          List.drop_append_of_le_length hle]

private theorem next_item {item : BlufiItem} (h : item.2.length ≤ 255) (more : Bytes) :
    blufiItems.next (item.bytes ++ more) = some (item, more) := by
  have hlen : (UInt8.ofNat item.2.length).toNat = item.2.length :=
    UInt8.toNat_ofNat_of_lt' (Nat.lt_succ_of_le h)
  have hroom : ¬ (item.2 ++ more).length < item.2.length := by
    rw [List.length_append]
    omega
  simp [blufiItems, nextItem, BlufiItem.bytes, hlen]

private theorem length_of_next (xs : Bytes) (item : BlufiItem) (rest : Bytes)
    (h : blufiItems.next xs = some (item, rest)) : item.2.length ≤ 255 := by
  rcases xs with _ | ⟨subtype, _ | ⟨len, xs⟩⟩
  · cases h
  · cases h
  · simp only [blufiItems, nextItem] at h
    split at h
    · cases h
    · obtain ⟨rfl, -⟩ := Prod.mk.inj (Option.some.inj h)
      exact Nat.le_trans (List.length_take_le _ _) (Nat.le_of_lt_succ len.toNat_lt)

private theorem drain_items {items : List BlufiItem} :
    blufiItems.drain (items.flatMap BlufiItem.bytes) = (items, []) ↔
      ∀ item ∈ items, item.2.length ≤ 255 := by
  constructor
  · intro h item hitem
    apply Splitter.forall_drain length_of_next (items.flatMap BlufiItem.bytes)
    rwa [h]
  · intro h
    induction items with
    | nil =>
      have hempty : blufiItems.next [] = none := rfl
      exact Splitter.drain_of_none hempty
    | cons item items ih =>
      have hnext := next_item (h item List.mem_cons_self) (items.flatMap BlufiItem.bytes)
      have hrest := ih fun item' hitem' => h item' (List.mem_cons_of_mem item hitem')
      rw [List.flatMap_cons, Splitter.drain_of_some hnext, hrest]

def itemsLen (items : List BlufiItem) : Nat := (items.map fun item => item.2.length + 2).sum

private theorem itemsLen_append (items items' : List BlufiItem) :
    itemsLen (items ++ items') = itemsLen items + itemsLen items' := by
  simp [itemsLen]

private theorem itemsLen_reportItem (subtype : UInt8) (value : Option Bytes) :
    itemsLen (reportItem subtype value) = itemLen value := by
  cases value with
  | none => rfl
  | some v => simp [itemsLen, reportItem, itemLen]

private theorem length_items (items : List BlufiItem) :
    (items.flatMap BlufiItem.bytes).length = itemsLen items := by
  induction items with
  | nil => rfl
  | cons item items ih =>
    rw [List.flatMap_cons, List.length_append, ih]
    simp [BlufiItem.bytes, itemsLen]

namespace BlufiExtraInfo

private theorem itemsLen_numbers (info : BlufiExtraInfo) :
    itemsLen info.numbers = info.numbersLen := by
  simp only [numbers, itemsLen_append, itemsLen_reportItem, numbersLen]

private theorem copy_spec (heap : BlufiReportHeap) (src : BlufiExtraInfo) :
    (src.copy heap).1.items <+: src.items ∧
      itemsLen (src.copy heap).1.items = (src.copy heap).2 := by
  have hnone : ∀ subtype, reportItem subtype Option.none = [] := fun _ => rfl
  simp only [copy]
  split
  · simp [items, numbers, bssid, none, hnone, itemsLen_reportItem]
  · split
    · simp [items, numbers, bssid, none, hnone, itemsLen_append, itemsLen_reportItem]
    · split
      · simp [items, numbers, bssid, none, hnone, itemsLen_append, itemsLen_reportItem,
          Nat.add_assoc]
      · split
        · simp [items, numbers, bssid, none, hnone, itemsLen_append, itemsLen_reportItem,
            Nat.add_assoc]
        · refine ⟨List.prefix_refl _, ?_⟩
          simp only [items, itemsLen_append, itemsLen_reportItem, itemsLen_numbers]

/-- There is memory for every text of the report. -/
def Room (heap : BlufiReportHeap) (src : BlufiExtraInfo) : Prop :=
  (src.staSsid.isSome → heap.staSsid) ∧ (src.staPasswd.isSome → heap.staPasswd) ∧
    (src.softapSsid.isSome → heap.softapSsid) ∧ (src.softapPasswd.isSome → heap.softapPasswd)

private theorem copy_of_room {heap : BlufiReportHeap} {src : BlufiExtraInfo} (h : src.Room heap) :
    (src.copy heap).1 = src := by
  obtain ⟨hssid, hpasswd, hsoftapSsid, hsoftapPasswd⟩ := h
  have hroom : ∀ {value : Option Bytes} {memory : Bool}, (value.isSome → memory) →
      ¬ (value.isSome && !memory) = true := by
    intro value memory himp hlack
    obtain ⟨hsome, hmemory⟩ := Bool.and_eq_true_iff.mp hlack
    rw [himp hsome] at hmemory
    cases hmemory
  simp only [copy]
  rw [if_neg (hroom hssid), if_neg (hroom hpasswd), if_neg (hroom hsoftapSsid),
    if_neg (hroom hsoftapPasswd)]

end BlufiExtraInfo

private theorem blufiMtuSize_pos (fragSize : UInt16) : 0 < blufiMtuSize fragSize := by
  unfold blufiMtuSize
  split
  · assumption
  · decide

private theorem flatten_sendFragments {mtuSize n : Nat} {data : Bytes}
    (h : data.length ≤ n * mtuSize) :
    (sendFragments mtuSize n data).flatten = data := by
  induction n generalizing data with
  | zero =>
    rw [Nat.zero_mul, Nat.le_zero, List.length_eq_zero_iff] at h
    rw [h]
    rfl
  | succ n ih =>
    have hrest : (data.drop mtuSize).length ≤ n * mtuSize := by
      rw [List.length_drop]
      rw [Nat.succ_mul] at h
      omega
    rw [sendFragments, List.flatten_cons, ih hrest, List.take_append_drop]

private theorem length_sendFragments {mtuSize n : Nat} {data notification : Bytes}
    (h : notification ∈ sendFragments mtuSize n data) : notification.length ≤ mtuSize := by
  induction n generalizing data with
  | zero => exact absurd h List.not_mem_nil
  | succ n ih =>
    rcases List.mem_cons.mp h with rfl | h
    · exact List.length_take_le _ _
    · exact ih h

private theorem sendEncap_spec (fragSize : UInt16) (data : Bytes) :
    (sendEncap true fragSize data).flatten = data ∧
      ∀ notification ∈ sendEncap true fragSize data,
        notification.length ≤ blufiMtuSize fragSize := by
  have hpos := blufiMtuSize_pos fragSize
  rw [sendEncap, if_neg (by decide)]
  split
  · next hempty => simp [hempty]
  · split
    · next hshort => simpa using hshort
    · have hall : data.length ≤
          (data.length + blufiMtuSize fragSize - 1) / blufiMtuSize fragSize *
            blufiMtuSize fragSize := by
        have hdiv := Nat.div_add_mod (data.length + blufiMtuSize fragSize - 1) (blufiMtuSize fragSize)
        have hmod := Nat.mod_lt (data.length + blufiMtuSize fragSize - 1) hpos
        rw [Nat.mul_comm]
        omega
      exact ⟨flatten_sendFragments hall, fun _ => length_sendFragments⟩

private theorem wifiConnReport_eq (isConnected : Bool) (fragSize : UInt16) (status : BlufiStatus)
    (info : Option BlufiExtraInfo) (fields : List BlufiItem)
    (hfields : fields = info.elim [] BlufiExtraInfo.items) :
    wifiConnReport true isConnected fragSize status info (itemsLen fields) =
      some (sendEncap isConnected fragSize (status.bytes ++ fields.flatMap BlufiItem.bytes)) := by
  have hlen : itemsLen fields + 3 = (status.bytes ++ fields.flatMap BlufiItem.bytes).length := by
    rw [List.length_append, length_items, Nat.add_comm]
    rfl
  cases info with
  | none =>
    subst hfields
    rfl
  | some info =>
    subst hfields
    rw [Option.elim_some] at hlen ⊢
    rw [wifiConnReport, if_pos rfl, hlen]
    dsimp only
    rw [Cells.write_malloc]
    simp only [Option.bind_eq_bind, Option.bind_some, Cells.text_map_some]
    rfl

/-- The items that the sending task gets to see. -/
def copiedItems (heap : BlufiReportHeap) (info : Option BlufiExtraInfo) : List BlufiItem :=
  (deepCopyReport heap info).1.elim [] BlufiExtraInfo.items

private theorem copiedItems_spec (heap : BlufiReportHeap) (info : Option BlufiExtraInfo) :
    copiedItems heap info <+: info.elim [] BlufiExtraInfo.items ∧
      itemsLen (copiedItems heap info) = (deepCopyReport heap info).2 ∧
      ((∀ src, info = some src → heap.info = true ∧ src.Room heap) →
        copiedItems heap info = info.elim [] BlufiExtraInfo.items) := by
  cases info with
  | none => exact ⟨List.prefix_refl _, rfl, fun _ => rfl⟩
  | some src =>
    unfold copiedItems deepCopyReport
    dsimp only
    split
    · obtain ⟨hfront, hlen⟩ := src.copy_spec heap
      refine ⟨hfront, hlen, ?_⟩
      intro hroom
      rw [Option.elim_some, Option.elim_some, BlufiExtraInfo.copy_of_room (hroom src rfl).2]
    · next hinfo =>
      refine ⟨List.nil_prefix, rfl, ?_⟩
      intro hroom
      exact absurd (hroom src rfl).1 hinfo

/-- The notifications of a report, put together, are the status and the bytes of the fields that
could be copied: the first ones, and all of them when there is memory. Nothing is written behind
the buffer and nothing is sent that was not written. The phone reads these fields off exactly when
the length of each fits into a byte. -/
theorem report_received {heap : BlufiReportHeap} (hdata : heap.data = true) (fragSize : UInt16)
    (status : BlufiStatus) (info : Option BlufiExtraInfo) :
    ∃ notifications done fields,
      sendWifiConnReport heap true fragSize status info = some notifications ∧
      (∀ notification ∈ notifications, notification.length ≤ blufiMtuSize fragSize) ∧
      notifications.flatten = status.bytes ++ fields ∧
      done <+: info.elim [] BlufiExtraInfo.items ∧
      ((∀ src, info = some src → heap.info = true ∧ src.Room heap) →
        done = info.elim [] BlufiExtraInfo.items) ∧
      (blufiItems.drain fields = (done, []) ↔ ∀ item ∈ done, item.2.length ≤ 255) := by
  obtain ⟨hfront, hlen, hroom⟩ := copiedItems_spec heap info
  obtain ⟨hflatten, hfit⟩ :=
    sendEncap_spec fragSize (status.bytes ++ (copiedItems heap info).flatMap BlufiItem.bytes)
  refine ⟨_, copiedItems heap info, _, ?_, hfit, hflatten, hfront, hroom, drain_items⟩
  have hsend := wifiConnReport_eq true fragSize status (deepCopyReport heap info).1
    (copiedItems heap info) rfl
  rw [sendWifiConnReport, hdata, ← hlen]
  exact hsend

/-- A report with an address, a name and a signal strength, in notifications of twelve bytes. -/
theorem report_received_named :
    let info : BlufiExtraInfo :=
      { BlufiExtraInfo.none with
        staBssid := some ⟨[1, 2, 3, 4, 5, 6], rfl⟩
        staSsid := some [0x4C, 0x65, 0x79, 0x75]
        staConnRssi := some 0xC8 }
    let heap : BlufiReportHeap := ⟨true, true, true, true, true, true⟩
    ∃ notifications done fields,
      sendWifiConnReport heap true 12 ⟨1, 0, 0⟩ (some info) = some notifications ∧
      (∀ notification ∈ notifications, notification.length ≤ blufiMtuSize 12) ∧
      notifications.flatten = BlufiStatus.bytes ⟨1, 0, 0⟩ ++ fields ∧
      done <+: (some info).elim [] BlufiExtraInfo.items ∧
      ((∀ src, some info = some src → heap.info = true ∧ src.Room heap) →
        done = (some info).elim [] BlufiExtraInfo.items) ∧
      (blufiItems.drain fields = (done, []) ↔ ∀ item ∈ done, item.2.length ≤ 255) :=
  report_received rfl 12 ⟨1, 0, 0⟩ (some _)

end Leyu
