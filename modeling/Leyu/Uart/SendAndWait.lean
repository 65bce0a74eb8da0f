import Leyu.Uart.CommandQueue

/-!
# Sending and waiting

`uart_send_and_wait` collects the blocks of the response queue in the caller's buffer. An iteration
of its loop that the timeout lets pass finds a block or none. The test for room subtracts from a
`size_t`: in a buffer of length 0 there is always room.
-/

namespace Leyu

open Framework

/-- A block of the response queue, up to its terminator. -/
structure RxBlock where
  text : Text
  short : text.length < uartCommBufSize

/-- What has been collected, and the indices of `response` that have been written. A text that has
left the buffer is followed no further. -/
structure Collected where
  response : Text
  responseOffset : UInt32
  responseReceived : Bool
  writes : List Nat

/-- What a call finds: arguments that are not null, the mutex, and whether the whole command could
be written. -/
structure SendWorld where
  arguments : Bool
  uartMutex : Bool
  taken : Bool
  written : Bool

def SendWorld.sends (w : SendWorld) : Bool := w.arguments && w.uartMutex && w.taken && w.written

namespace Collected

def start (writes : List Nat) : Collected := ⟨[], 0, false, writes⟩

/-- The copy of a block, if there is room for it. -/
def receive (responseLen : UInt32) (rx : Text) (c : Collected) : Option Collected :=
  let responseOffset := c.responseOffset + rx.length.toUInt32
  if responseOffset < responseLen - 1 then
    some {
      response := c.response ++ rx
      responseOffset := responseOffset
      responseReceived := true
      writes := c.writes ++ List.range' c.responseOffset.toNat rx.length ++ [responseOffset.toNat] }
  else none

def poll (responseLen : UInt32) (c : Collected) : Option RxBlock → Option Collected
  | none => some c
  | some rx => c.receive responseLen rx.text

end Collected

/-- The loop of `uart_send_and_wait`, over what its iterations find in the queue. -/
def waitLoop (responseLen : UInt32) : List (Option RxBlock) → Collected → Collected
  | [], c => c
  | poll :: polls, c =>
      match c.poll responseLen poll with
      | none => c
      | some c =>
          if c.responseReceived = true ∧ HasCode c.response then c
          else waitLoop responseLen polls c

def uartSendAndWait (w : SendWorld) (responseLen : UInt32) (polls : List (Option RxBlock)) :
    EspErr × Collected :=
  if w.arguments = false then (.invalidArg, .start [])
  else if w.uartMutex = false then (.invalidState, .start [])
  else if w.taken = false then (.timeout, .start [])
  else if w.written = false then (.fail, .start [])
  else
    -- `memset` clears the whole buffer.
    let c := waitLoop responseLen polls (.start (List.range responseLen.toNat))
    (if c.responseReceived then .ok else .timeout, c)

def StaysInside (w : SendWorld) (responseLen : UInt32) (polls : List (Option RxBlock)) : Prop :=
  ∀ i ∈ (uartSendAndWait w responseLen polls).2.writes, i < responseLen.toNat

def blocksOf (polls : List (Option RxBlock)) : List Text :=
  polls.filterMap fun poll => poll.map RxBlock.text

/-- The blocks reach the end of the address space, counted from a text that is there already, before
the loop has been left: those in front fit and hold no result code. -/
def Overruns (responseLen : Nat) (text : Text) (blocks : List Text) : Prop :=
  ∃ front block rest, blocks = front ++ block :: rest ∧
    (∀ begun, begun <+: front → begun ≠ [] →
      (text ++ begun.flatten).length < responseLen - 1 ∧ ¬ HasCode (text ++ begun.flatten)) ∧
    2 ^ 32 ≤ (text ++ front.flatten ++ block).length

section

variable {responseLen : UInt32}

private theorem toNat_advance (offset : UInt32) {n : Nat} (hn : n < uartCommBufSize) :
    (offset + n.toUInt32).toNat = (offset.toNat + n) % 2 ^ 32 := by
  have hsmall : n < 2 ^ 32 := Nat.lt_trans hn (by decide)
  rw [UInt32.toNat_add, Nat.toUInt32, UInt32.toNat_ofNat', Nat.mod_eq_of_lt hsmall]

private theorem toNat_pred (h : responseLen ≠ 0) :
    (responseLen - 1).toNat = responseLen.toNat - 1 := by
  have hpos : responseLen.toNat ≠ 0 := fun h₀ => h (UInt32.toNat_inj.1 h₀)
  have hlt := responseLen.toNat_lt
  rw [UInt32.toNat_sub, UInt32.toNat_one]
  omega

private theorem not_overruns_nil (responseLen : Nat) (text : Text) :
    ¬ Overruns responseLen text [] := by
  intro hoverruns
  obtain ⟨front, block, rest, hblocks, -⟩ := hoverruns
  cases front <;> cases hblocks

private theorem overruns_cons (responseLen : Nat) (text block : Text) (blocks : List Text) :
    Overruns responseLen text (block :: blocks) ↔
      2 ^ 32 ≤ (text ++ block).length ∨
        (text ++ block).length < responseLen - 1 ∧ ¬ HasCode (text ++ block) ∧
          Overruns responseLen (text ++ block) blocks := by
  constructor
  · intro hoverruns
    obtain ⟨front, last, rest, hblocks, hfront, hover⟩ := hoverruns
    cases front with
    | nil =>
      obtain ⟨rfl, -⟩ := List.cons.inj hblocks
      left
      simpa using hover
    | cons first front =>
      obtain ⟨rfl, hrest⟩ := List.cons.inj hblocks
      have hfirst := hfront [block] (by simp) (by simp)
      rw [List.flatten_singleton] at hfirst
      refine .inr ⟨hfirst.1, hfirst.2, front, last, rest, hrest, ?_, by simpa using hover⟩
      intro begun hbegun _
      have h := hfront (block :: begun) (List.cons_prefix_cons.2 ⟨rfl, hbegun⟩) (by simp)
      rwa [List.flatten_cons, ← List.append_assoc] at h
  · rintro (hover | ⟨hshort, hcode, front, last, rest, hrest, hfront, hover⟩)
    · exact ⟨[], block, blocks, rfl, by simp, by simpa using hover⟩
    · refine ⟨block :: front, last, rest, by rw [hrest]; rfl, ?_, by simpa using hover⟩
      intro begun hbegun hne
      obtain ⟨first, begun, rfl⟩ := List.exists_cons_of_ne_nil hne
      obtain ⟨rfl, htail⟩ := List.cons_prefix_cons.1 hbegun
      rw [List.flatten_cons, ← List.append_assoc]
      by_cases hnil : begun = []
      · subst hnil
        rw [List.flatten_nil, List.append_nil]
        exact ⟨hshort, hcode⟩
      · exact hfront begun htail hnil

private theorem not_overruns {responseLen : Nat} (hlen : responseLen + uartCommBufSize ≤ 2 ^ 32)
    {blocks : List Text} (hshort : ∀ block ∈ blocks, block.length < uartCommBufSize) :
    ¬ Overruns responseLen [] blocks := by
  intro hoverruns
  obtain ⟨front, block, rest, hblocks, hfront, hover⟩ := hoverruns
  have hblock := hshort block (by simp [hblocks])
  rw [List.length_append, List.nil_append] at hover
  have hsmall : uartCommBufSize < 2 ^ 32 := by decide
  by_cases hnil : front = []
  · subst hnil
    rw [List.flatten_nil, List.length_nil] at hover
    omega
  · have hfits := (hfront front (List.prefix_refl front) hnil).1
    rw [List.nil_append] at hfits
    omega

private theorem mem_writes_receive {i : Nat} {c c' : Collected} {rx : Text}
    (h : c.receive responseLen rx = some c') (hi : i ∈ c.writes) : i ∈ c'.writes := by
  unfold Collected.receive at h
  dsimp only at h
  split at h
  · obtain rfl := Option.some.inj h
    simp [hi]
  · cases h

private theorem mem_writes_waitLoop {i : Nat} (polls : List (Option RxBlock)) {c : Collected}
    (hi : i ∈ c.writes) : i ∈ (waitLoop responseLen polls c).writes := by
  induction polls generalizing c with
  | nil => exact hi
  | cons poll polls ih =>
    rw [waitLoop]
    cases hpoll : c.poll responseLen poll with
    | none => exact hi
    | some c' =>
      have hi' : i ∈ c'.writes := by
        cases poll with
        | none => exact (Option.some.inj hpoll) ▸ hi
        | some rx => exact mem_writes_receive hpoll hi
      dsimp only
      split
      · exact hi'
      · exact ih hi'

private theorem receive_zero (rx : RxBlock) (writes : List Nat) :
    ∃ c, (Collected.start writes).receive 0 rx.text = some c ∧ rx.text.length ∈ c.writes := by
  have hlen : ((0 : UInt32) + rx.text.length.toUInt32).toNat = rx.text.length := by
    rw [toNat_advance 0 rx.short, UInt32.toNat_zero, Nat.zero_add]
    exact Nat.mod_eq_of_lt (Nat.lt_trans rx.short (by decide))
  have hroom : (0 : UInt32) + rx.text.length.toUInt32 < 0 - 1 := by
    rw [UInt32.lt_iff_toNat_lt, hlen]
    exact Nat.lt_trans rx.short (by decide)
  refine ⟨_, if_pos hroom, ?_⟩
  dsimp only [Collected.start]
  rw [hlen]
  simp

private theorem waitLoop_zero (polls : List (Option RxBlock)) :
    (waitLoop 0 polls (.start [])).writes = [] ↔ blocksOf polls = [] := by
  induction polls with
  | nil => exact iff_of_true rfl rfl
  | cons poll polls ih =>
    cases poll with
    | none => exact ih
    | some rx =>
      obtain ⟨c, hreceive, hmem⟩ := receive_zero rx []
      refine iff_of_false (List.ne_nil_of_mem (a := rx.text.length) ?_) (by simp [blocksOf])
      have hpoll : (Collected.start []).poll 0 (some rx) = some c := hreceive
      rw [waitLoop, hpoll]
      dsimp only
      split
      · exact hmem
      · exact mem_writes_waitLoop polls hmem

theorem receive_eq (hne : responseLen ≠ 0) (rx : RxBlock) {c : Collected}
    (hoffset : c.responseOffset.toNat = c.response.length)
    (hsum : c.response.length + rx.text.length < 2 ^ 32) :
    ∃ responseOffset : UInt32, responseOffset.toNat = (c.response ++ rx.text).length ∧
      c.poll responseLen (some rx) =
        if (c.response ++ rx.text).length < responseLen.toNat - 1 then
          some {
            response := c.response ++ rx.text
            responseOffset := responseOffset
            responseReceived := true
            writes := c.writes ++ List.range' c.response.length rx.text.length ++
              [(c.response ++ rx.text).length] }
        else none := by
  have hnext : (c.responseOffset + rx.text.length.toUInt32).toNat =
      (c.response ++ rx.text).length := by
    rw [toNat_advance c.responseOffset rx.short, hoffset, Nat.mod_eq_of_lt hsum, List.length_append]
  have hroom : c.responseOffset + rx.text.length.toUInt32 < responseLen - 1 ↔
      (c.response ++ rx.text).length < responseLen.toNat - 1 := by
    rw [UInt32.lt_iff_toNat_lt, hnext, toNat_pred hne]
  refine ⟨_, hnext, ?_⟩
  simp only [Collected.poll, Collected.receive, hroom, hoffset, hnext]

private theorem receive_overrun (hne : responseLen ≠ 0) (rx : RxBlock) {c : Collected}
    (hoffset : c.responseOffset.toNat = c.response.length)
    (hfits : c.response = [] ∨ c.response.length < responseLen.toNat - 1)
    (hover : 2 ^ 32 ≤ (c.response ++ rx.text).length) :
    ∃ c', c.poll responseLen (some rx) = some c' ∧ ∃ i ∈ c'.writes, responseLen.toNat ≤ i := by
  rw [List.length_append] at hover
  have hlen := responseLen.toNat_lt
  have hrx := rx.short
  have hbuf : uartCommBufSize < 2 ^ 32 := by decide
  have hlong : c.response.length < responseLen.toNat - 1 := by
    rcases hfits with hnil | hfits
    · rw [hnil, List.length_nil] at hover
      omega
    · exact hfits
  have hroom : c.responseOffset + rx.text.length.toUInt32 < responseLen - 1 := by
    rw [UInt32.lt_iff_toNat_lt, toNat_advance _ rx.short, toNat_pred hne, hoffset]
    omega
  refine ⟨_, if_pos hroom, c.response.length + rx.text.length - 1, ?_, by omega⟩
  simp only [List.mem_append, List.mem_range'_1, hoffset]
  left
  right
  omega

private theorem inside_of_short {writes : List Nat} {response rx : Text} {len : Nat}
    (hinside : ∀ i ∈ writes, i < len) (hshort : (response ++ rx).length < len - 1) :
    ∀ i ∈ writes ++ List.range' response.length rx.length ++ [(response ++ rx).length],
      i < len := by
  intro i hi
  rw [List.length_append] at hshort
  simp only [List.mem_append, List.mem_range'_1, List.mem_singleton, List.length_append] at hi
  rcases hi with (hi | hi) | hi
  · exact hinside i hi
  · omega
  · omega

theorem waitLoop_none (polls : List (Option RxBlock)) {c : Collected}
    (hcode : ¬ (c.responseReceived = true ∧ HasCode c.response)) :
    waitLoop responseLen (none :: polls) c = waitLoop responseLen polls c := by
  have hpoll : c.poll responseLen none = some c := rfl
  rw [waitLoop, hpoll]
  exact if_neg hcode

/-- The loop from a text on that fits and holds no result code. -/
theorem waitLoop_inside_iff (hne : responseLen ≠ 0) (polls : List (Option RxBlock))
    {c : Collected} (hoffset : c.responseOffset.toNat = c.response.length)
    (hfits : c.response = [] ∨ c.response.length < responseLen.toNat - 1)
    (hcode : ¬ (c.responseReceived = true ∧ HasCode c.response))
    (hinside : ∀ i ∈ c.writes, i < responseLen.toNat) :
    (∀ i ∈ (waitLoop responseLen polls c).writes, i < responseLen.toNat) ↔
      ¬ Overruns responseLen.toNat c.response (blocksOf polls) := by
  induction polls generalizing c with
  | nil => exact iff_of_true hinside (not_overruns_nil _ _)
  | cons poll polls ih =>
    cases poll with
    | none =>
      rw [waitLoop_none polls hcode]
      exact ih hoffset hfits hcode hinside
    | some rx =>
      have hblocks : blocksOf (some rx :: polls) = rx.text :: blocksOf polls := rfl
      rw [hblocks, overruns_cons, waitLoop]
      by_cases hover : 2 ^ 32 ≤ (c.response ++ rx.text).length
      · refine iff_of_false (fun h => ?_) (not_not.2 (.inl hover))
        obtain ⟨c', hreceive, i, hmem, hout⟩ := receive_overrun hne rx hoffset hfits hover
        rw [hreceive] at h
        have hin : i < responseLen.toNat := by
          apply h
          dsimp only
          split
          · exact hmem
          · exact mem_writes_waitLoop polls hmem
        exact absurd hin (Nat.not_lt.2 hout)
      · obtain ⟨offset, hoffset', hreceive⟩ := receive_eq hne rx hoffset (by
          rw [List.length_append] at hover
          omega)
        rw [hreceive]
        by_cases hshort : (c.response ++ rx.text).length < responseLen.toNat - 1
        · rw [if_pos hshort]
          have hinside' := inside_of_short hinside hshort
          dsimp only
          by_cases hdone : HasCode (c.response ++ rx.text)
          · rw [if_pos ⟨rfl, hdone⟩]
            refine iff_of_true hinside' ?_
            rintro (h | ⟨-, h, -⟩)
            · exact hover h
            · exact h hdone
          · rw [if_neg fun h => hdone h.2,
              ih hoffset' (.inr hshort) (fun h => hdone h.2) hinside']
            exact not_congr ⟨fun h => .inr ⟨hshort, hdone, h⟩, fun h => (h.resolve_left hover).2.2⟩
        · rw [if_neg hshort]
          refine iff_of_true hinside ?_
          rintro (h | ⟨h, -⟩)
          · exact hover h
          · exact hshort h

end

theorem uartSendAndWait_ready {w : SendWorld} (hw : w.sends = true) (responseLen : UInt32)
    (polls : List (Option RxBlock)) :
    uartSendAndWait w responseLen polls =
      let c := waitLoop responseLen polls (.start (List.range responseLen.toNat))
      (if c.responseReceived then .ok else .timeout, c) := by
  simp only [SendWorld.sends, Bool.and_eq_true] at hw
  simp [uartSendAndWait, hw]

private theorem uartSendAndWait_unready {w : SendWorld} (hw : w.sends = false)
    (responseLen : UInt32) (polls : List (Option RxBlock)) :
    (uartSendAndWait w responseLen polls).2 = .start [] := by
  unfold uartSendAndWait
  unfold SendWorld.sends at hw
  cases harguments : w.arguments with
  | false => rfl
  | true =>
    cases hmutex : w.uartMutex with
    | false => rfl
    | true =>
      cases htaken : w.taken with
      | false => rfl
      | true =>
        cases hwritten : w.written with
        | false => rfl
        | true => simp [harguments, hmutex, htaken, hwritten] at hw

/-- The call stays inside the buffer exactly when it ends before its loop, or neither of its two
sums wraps: the buffer is not empty or no block comes, and the blocks do not reach the end of the
address space. -/
theorem staysInside_iff (w : SendWorld) (responseLen : UInt32) (polls : List (Option RxBlock)) :
    StaysInside w responseLen polls ↔
      (w.sends = true →
        (responseLen = 0 → blocksOf polls = []) ∧
          ¬ Overruns responseLen.toNat [] (blocksOf polls)) := by
  unfold StaysInside
  cases hw : w.sends with
  | false =>
    rw [uartSendAndWait_unready hw]
    exact iff_of_true (fun i hi => nomatch hi) nofun
  | true =>
    rw [uartSendAndWait_ready hw]
    simp only [forall_const]
    by_cases hzero : responseLen = 0
    · subst hzero
      have hempty : (∀ i ∈ (waitLoop 0 polls (.start [])).writes, i < (0 : UInt32).toNat) ↔
          blocksOf polls = [] := by
        rw [← waitLoop_zero polls, List.eq_nil_iff_forall_not_mem]
        exact forall₂_congr fun i _ => iff_of_false (Nat.not_lt_zero i) id
      refine hempty.trans ⟨fun h => ⟨fun _ => h, ?_⟩, fun h => h.1 rfl⟩
      rw [h]
      exact not_overruns_nil _ _
    · have hstart := waitLoop_inside_iff hzero polls
        (c := .start (List.range responseLen.toNat)) rfl (.inl rfl)
        (fun h => Bool.false_ne_true h.1) fun i hi => List.mem_range.1 hi
      exact hstart.trans ⟨fun h => ⟨fun h₀ => absurd h₀ hzero, h⟩, fun h => h.2⟩

/-- Where the buffer and the array of the function both have a place in the address space, only the
length 0 is left. -/
theorem staysInside_of_fits {w : SendWorld} (hw : w.sends = true) {responseLen : UInt32}
    (hfits : responseLen.toNat + uartCommBufSize ≤ 2 ^ 32) (polls : List (Option RxBlock)) :
    StaysInside w responseLen polls ↔ (responseLen = 0 → blocksOf polls = []) := by
  have hshort : ∀ block ∈ blocksOf polls, block.length < uartCommBufSize := by
    intro block hblock
    obtain ⟨poll, -, hpoll⟩ := List.mem_filterMap.1 hblock
    obtain ⟨rx, -, rfl⟩ := Option.map_eq_some_iff.1 hpoll
    exact rx.short
  rw [staysInside_iff]
  exact ⟨fun h => (h hw).1, fun h _ => ⟨h, not_overruns hfits hshort⟩⟩

def okBlock : RxBlock := ⟨resultOk, by decide⟩

/-- A buffer of length 0 is written three times. -/
theorem emptyBuffer_written :
    (uartSendAndWait ⟨true, true, true, true⟩ 0 [some okBlock]).2.writes = [0, 1, 2] ∧
      ¬ StaysInside ⟨true, true, true, true⟩ 0 [some okBlock] := by
  have hwrites : (uartSendAndWait ⟨true, true, true, true⟩ 0 [some okBlock]).2.writes =
      [0, 1, 2] := by decide
  refine ⟨hwrites, fun h => ?_⟩
  have hfirst := h 0 (by rw [hwrites]; simp)
  exact absurd hfirst (by decide)

end Leyu
