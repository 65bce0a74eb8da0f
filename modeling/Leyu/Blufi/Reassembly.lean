import Leyu.Blufi.Receive
import Leyu.Framework.Grouping

/-!
# Messages from frames

Whatever the phone sends and in whatever order, a message that is handed over is the text of
frames of its own, all of one connection and in the order of their arrival, and is as long as the
first of them has announced.
-/

namespace Leyu

open Framework

/-- A frame that has passed the checks of its length, its cipher and its checksum. -/
structure BlufiFrame where
  hdr : BlufiHdr
  data : Bytes

namespace BlufiFrame

def of? (cbs : BlufiCallbacks) (packet : Bytes) : Option BlufiFrame :=
  match BlufiPacket.ofBytes packet with
  | .framed hdr => (cbs.openData hdr).toOption.map (.mk hdr)
  | _ => none

def payload (f : BlufiFrame) : Bytes :=
  if f.hdr.isFrag then (f.data.take f.hdr.dataLen.toNat).drop 2
  else f.data.take f.hdr.dataLen.toNat

end BlufiFrame

/-- A frame and the connection it came over. -/
abbrev Received := Nat × BlufiFrame

def texts (frames : List Received) : Bytes := frames.flatMap (·.2.payload)

@[simp] theorem texts_nil : texts [] = [] := rfl

@[simp] theorem texts_append (frames frames' : List Received) :
    texts (frames ++ frames') = texts frames ++ texts frames' := List.flatMap_append

@[simp] theorem texts_singleton (r : Received) : texts [r] = r.2.payload := by simp [texts]

/-- The frames of a run, the connections counted from `conn` on. -/
def receivedFrom : Nat → List BlufiOp → List Received
  | _, [] => []
  | conn, .connect :: ops => receivedFrom conn ops
  | conn, .disconnect :: ops => receivedFrom (conn + 1) ops
  | conn, .receive cbs _ packet :: ops =>
      ((BlufiFrame.of? cbs packet).toList.map fun f => (conn, f)) ++ receivedFrom conn ops

/-- The message of a group: fragments of one connection and a frame that is not one behind them.
The first fragment announces the length. -/
def Carries (group : List Received) (message : UInt8 × Bytes) : Prop :=
  ∃ front last, group = front ++ [last] ∧
    (∀ r ∈ front, r.1 = last.1 ∧ r.2.hdr.isFrag = true) ∧ last.2.hdr.isFrag = false ∧
    message = (last.2.hdr.type, texts group) ∧
    ∀ first ∈ front.head?, (le16? first.2.data).map UInt16.toNat = some (texts group).length

def messages (effects : List BlufiEffect) : List (UInt8 × Bytes) :=
  effects.filterMap fun
    | .handle type data => some (type, data)
    | _ => none

@[simp] theorem messages_nil : messages [] = [] := rfl

@[simp] theorem messages_append (effects effects' : List BlufiEffect) :
    messages (effects ++ effects') = messages effects ++ messages effects' :=
  List.filterMap_append

@[simp] theorem messages_handle (type : UInt8) (data : Bytes) (effects : List BlufiEffect) :
    messages (.handle type data :: effects) = (type, data) :: messages effects := rfl

@[simp] theorem messages_post (event : BlufiEvent) (effects : List BlufiEffect) :
    messages (.post event :: effects) = messages effects := rfl

@[simp] theorem messages_malloc (site : BlufiSite) (effects : List BlufiEffect) :
    messages (.malloc site :: effects) = messages effects := rfl

@[simp] theorem messages_free (site : BlufiSite) (effects : List BlufiEffect) :
    messages (.free site :: effects) = messages effects := rfl

@[simp] theorem messages_sendAck (seq : UInt8) (effects : List BlufiEffect) :
    messages (.sendAck seq :: effects) = messages effects := rfl

namespace BlufiEnv

/-- The front of the buffer is filled with the text, and the offset stands behind it. -/
def Holding (env : BlufiEnv) (text : Bytes) : Prop :=
  env.offset.toNat = text.length ∧
    match env.aggrBuf with
    | none => text = []
    | some buf => buf.length = env.totalLen.toNat ∧ Cells.Holds buf text

theorem holding_of_closed {env : BlufiEnv} (hoffset : env.offset = 0) (hbuf : env.aggrBuf = none) :
    env.Holding [] := by simp [Holding, hoffset, hbuf]

theorem Holding.offset_eq_zero {env : BlufiEnv} {text : Bytes} (h : env.Holding text) :
    env.offset = 0 ↔ text = [] := by
  rw [← List.length_eq_zero_iff, ← h.1, ← UInt16.toNat_inj]
  rfl

theorem Holding.isSome {env : BlufiEnv} {text : Bytes} (h : env.Holding text)
    (hoffset : env.offset ≠ 0) : ∃ buf, env.aggrBuf = some buf ∧
      buf.length = env.totalLen.toNat ∧ Cells.Holds buf text := by
  obtain ⟨hlen, hbuf⟩ := h
  cases haggr : env.aggrBuf with
  | none =>
    rw [haggr] at hbuf
    rw [hbuf, List.length_nil] at hlen
    exact absurd (UInt16.toNat_inj.mp hlen) hoffset
  | some buf =>
    rw [haggr] at hbuf
    exact ⟨buf, rfl, hbuf⟩

private theorem toNat_offset_add {offset : UInt16} {dataLen : UInt8} (htwo : 2 ≤ dataLen.toNat)
    (total : UInt16) (hfits : offset.toNat + (dataLen.toNat - 2) ≤ total.toNat) :
    (offset + (dataLen.toUInt16 - 2)).toNat = offset.toNat + (dataLen.toNat - 2) := by
  have hbound := total.toNat_lt
  have hsub : (dataLen.toUInt16 - 2).toNat = dataLen.toNat - 2 := by
    rw [UInt16.toNat_sub_of_le]
    · simp
    · rw [UInt16.le_iff_toNat_le]
      simpa using htwo
  rw [UInt16.toNat_add, hsub, Nat.mod_eq_of_lt (by omega)]

/-- What a fragment does to an open buffer: it does not fit, it has not even the two bytes it
should have, or it is copied. -/
theorem copyFragment_spec {env : BlufiEnv} {text data : Bytes} {dataLen : UInt8} {buf : Cells UInt8}
    (h : env.Holding text) (hbuf : env.aggrBuf = some buf) (hdata : dataLen.toNat ≤ data.length) :
    (env.totalLen.toNat + 2 < env.offset.toNat + dataLen.toNat ∧
        env.copyFragment dataLen data = env.reportError .dataFormat) ∨
      (dataLen.toNat < 2 ∧ env.copyFragment dataLen data = env.violation) ∨
      (2 ≤ dataLen.toNat ∧ env.offset.toNat + dataLen.toNat ≤ env.totalLen.toNat + 2 ∧
        ∃ buf', env.copyFragment dataLen data =
            ⟨{ env with aggrBuf := some buf', offset := env.offset + (dataLen.toUInt16 - 2) }, [],
              false⟩ ∧
          { env with
            aggrBuf := some buf'
            offset := env.offset + (dataLen.toUInt16 - 2) }.Holding
              (text ++ (data.take dataLen.toNat).drop 2)) := by
  obtain ⟨hlen, hholds⟩ := h
  simp only [hbuf] at hholds
  obtain ⟨hsize, hholds⟩ := hholds
  simp only [copyFragment, hbuf]
  by_cases hfits : (env.offset.toNat : Int) + dataLen.toNat - 2 ≤ env.totalLen.toNat
  · rw [if_pos hfits]
    by_cases htwo : 2 ≤ dataLen.toNat
    · have hcontent : slice data 2 ((dataLen.toNat : Int) - 2) =
          some ((data.take dataLen.toNat).drop 2) := slice_sub htwo hdata
      have hcontentLen : ((data.take dataLen.toNat).drop 2).length = dataLen.toNat - 2 := by
        rw [List.length_drop, List.length_take, Nat.min_eq_left hdata]
      obtain ⟨buf', hwrite, hholds', hlen'⟩ :=
        hholds.write ((data.take dataLen.toNat).drop 2) (by omega)
      simp only [hcontent, hlen, hwrite]
      refine .inr (.inr ⟨htwo, by omega, buf', rfl, ?_, ?_⟩)
      · rw [toNat_offset_add htwo env.totalLen (by omega), List.length_append,
          hcontentLen, hlen]
      · exact ⟨hlen'.trans hsize, hholds'⟩
    · have hneg : slice data 2 ((dataLen.toNat : Int) - 2) = none :=
        slice_of_neg data 2 (by omega)
      rw [hneg]
      exact .inr (.inl ⟨by omega, rfl⟩)
  · rw [if_neg hfits]
    exact .inl ⟨by omega, rfl⟩

theorem fragment_stale {env : BlufiEnv} (hoffset : env.offset = 0) (hbuf : env.aggrBuf.isSome)
    (heap : BlufiHeap) (dataLen : UInt8) (data : Bytes) :
    env.fragment heap dataLen data = env.reportError .msgState := by
  rw [fragment, if_pos hoffset, if_pos hbuf]

theorem fragment_runt {env : BlufiEnv} (hoffset : env.offset = 0) (hbuf : env.aggrBuf = none)
    (heap : BlufiHeap) (dataLen : UInt8) {data : Bytes} (hdata : le16? data = none) :
    env.fragment heap dataLen data = env.violation := by
  simp [fragment, hoffset, hbuf, hdata]

theorem fragment_noMem {env : BlufiEnv} (hoffset : env.offset = 0) (hbuf : env.aggrBuf = none)
    {heap : BlufiHeap} (hheap : heap.aggrBuf = false) (dataLen : UInt8) {data : Bytes}
    {totalLen : UInt16} (hdata : le16? data = some totalLen) :
    env.fragment heap dataLen data =
      { env with totalLen := totalLen }.reportError .dhMalloc := by
  simp [fragment, hoffset, hbuf, hdata, hheap]

/-- The environment with a fresh buffer for a message of that length. -/
def opened (env : BlufiEnv) (totalLen : UInt16) : BlufiEnv :=
  { env with totalLen := totalLen, aggrBuf := some (Cells.malloc totalLen.toNat) }

@[simp] theorem opened_recvSeq (env : BlufiEnv) (totalLen : UInt16) :
    (env.opened totalLen).recvSeq = env.recvSeq := rfl

theorem fragment_first (env : BlufiEnv) (hoffset : env.offset = 0) (hbuf : env.aggrBuf = none)
    {heap : BlufiHeap} (hheap : heap.aggrBuf = true) (dataLen : UInt8) {data : Bytes}
    {totalLen : UInt16} (hdata : le16? data = some totalLen) :
    env.fragment heap dataLen data =
      { (env.opened totalLen).copyFragment dataLen data with
        effects := .malloc .aggrBuf :: ((env.opened totalLen).copyFragment dataLen data).effects } := by
  simp [fragment, hoffset, hbuf, hdata, hheap, opened]

theorem fragment_next (env : BlufiEnv) (hoffset : env.offset ≠ 0) (heap : BlufiHeap)
    (dataLen : UInt8) (data : Bytes) :
    env.fragment heap dataLen data = env.copyFragment dataLen data := by
  rw [fragment, if_neg hoffset]

theorem opened_holding (env : BlufiEnv) (hoffset : env.offset = 0) (totalLen : UInt16) :
    (env.opened totalLen).Holding [] := by
  refine ⟨?_, ?_, Cells.holds_nil _⟩
  · simp [opened, hoffset]
  · simp [opened]

theorem complete_single (env : BlufiEnv) (hoffset : env.offset = 0) (type dataLen : UInt8)
    (data : Bytes) : env.complete type dataLen data =
      ⟨env, [.handle type (data.take dataLen.toNat)], false⟩ := by
  rw [complete, if_pos hoffset]

theorem complete_badLength {env : BlufiEnv} (hoffset : env.offset ≠ 0) {buf : Cells UInt8}
    (hbuf : env.aggrBuf = some buf) (type : UInt8) {dataLen : UInt8} (data : Bytes)
    (hlen : env.offset.toNat + dataLen.toNat ≠ env.totalLen.toNat) :
    env.complete type dataLen data = env.reportError .dataFormat := by
  simp [complete, hoffset, hbuf, hlen]

theorem complete_last {env : BlufiEnv} {text data : Bytes} {type dataLen : UInt8}
    (h : env.Holding text) (hoffset : env.offset ≠ 0) (hdata : dataLen.toNat ≤ data.length)
    (hlen : env.offset.toNat + dataLen.toNat = env.totalLen.toNat) :
    env.complete type dataLen data =
      ⟨{ env with offset := 0, aggrBuf := none },
        [.handle type (text ++ data.take dataLen.toNat), .free .aggrBuf], false⟩ := by
  obtain ⟨buf, hbuf, hsize, hholds⟩ := h.isSome hoffset
  have hlast : (data.take dataLen.toNat).length = dataLen.toNat := by
    rw [List.length_take, Nat.min_eq_left hdata]
  have htext := h.1
  obtain ⟨buf', hwrite, hholds', hsize'⟩ := hholds.write (data.take dataLen.toNat) (by omega)
  have hfull : buf'.text = some (text ++ data.take dataLen.toNat) := by
    refine hholds'.text ?_
    rw [hsize', hsize, List.length_append, hlast]
    omega
  rw [complete, if_neg hoffset, hbuf]
  simp only [htext, hwrite, hfull]
  rw [if_neg]
  omega

/-- The frames whose payloads stand in the buffer. -/
structure Pending (conn : Nat) (frames : List Received) (env : BlufiEnv) : Prop where
  holding : env.Holding (texts frames)
  fragments : ∀ r ∈ frames, r.1 = conn ∧ r.2.hdr.isFrag = true
  announced : ∀ first ∈ frames.head?, le16? first.2.data = some env.totalLen
  isOpen : frames ≠ [] → env.aggrBuf.isSome

theorem pending_nil (conn : Nat) {env : BlufiEnv} (h : env.Holding []) : Pending conn [] env :=
  ⟨h, by simp, by simp, fun hne => absurd rfl hne⟩

private theorem Pending.eq_nil {conn : Nat} {frames : List Received} {env : BlufiEnv}
    (h : Pending conn frames env) (hbuf : env.aggrBuf = none) : frames = [] := by
  by_contra hne
  have hopen := h.isOpen hne
  rw [hbuf] at hopen
  cases hopen

theorem Pending.header {conn : Nat} {frames : List Received} {env : BlufiEnv}
    (h : Pending conn frames env) (isConnected : Bool) (seq : UInt8) :
    Pending conn frames { env with isConnected := isConnected, recvSeq := seq } :=
  ⟨h.holding, h.fragments, h.announced, h.isOpen⟩

theorem Pending.copyFragment {conn : Nat} {frames : List Received} {env : BlufiEnv} {f : BlufiFrame}
    (h : Pending conn frames env) (hfrag : f.hdr.isFrag = true)
    (hdata : f.hdr.dataLen.toNat ≤ f.data.length) (hopen : env.aggrBuf.isSome)
    (hann : frames = [] → le16? f.data = some env.totalLen) :
    let out := env.copyFragment f.hdr.dataLen f.data
    messages out.effects = [] ∧
      (out.faulted = true ∨ Pending conn frames out.env ∨
        Pending conn (frames ++ [(conn, f)]) out.env) := by
  obtain ⟨buf, hbuf⟩ := Option.isSome_iff_exists.mp hopen
  rcases copyFragment_spec h.holding hbuf hdata with
    ⟨-, hout⟩ | ⟨-, hout⟩ | ⟨-, -, buf', hout, hholding⟩
  · rw [hout]
    exact ⟨rfl, .inr (.inl h)⟩
  · rw [hout]
    exact ⟨rfl, .inl rfl⟩
  · rw [hout]
    refine ⟨rfl, .inr (.inr ⟨?_, ?_, ?_, fun _ => rfl⟩)⟩
    · rw [texts_append, texts_singleton, BlufiFrame.payload, if_pos hfrag]
      exact hholding
    · intro r hr
      rcases List.mem_append.mp hr with hr | hr
      · exact h.fragments r hr
      · obtain rfl := List.mem_singleton.mp hr
        exact ⟨rfl, hfrag⟩
    · intro first hfirst
      cases frames with
      | nil =>
        obtain rfl : (conn, f) = first := by simpa using hfirst
        exact hann rfl
      | cons r rs => exact h.announced first (by simpa using hfirst)

private theorem Pending.fragment {conn : Nat} {frames : List Received} {env : BlufiEnv}
    {f : BlufiFrame} (h : Pending conn frames env) (heap : BlufiHeap)
    (hfrag : f.hdr.isFrag = true) (hdata : f.hdr.dataLen.toNat ≤ f.data.length) :
    let out := env.fragment heap f.hdr.dataLen f.data
    messages out.effects = [] ∧
      (out.faulted = true ∨ Pending conn frames out.env ∨
        Pending conn (frames ++ [(conn, f)]) out.env) := by
  by_cases hoffset : env.offset = 0
  · by_cases hopen : env.aggrBuf.isSome
    · rw [fragment_stale hoffset hopen]
      exact ⟨rfl, .inr (.inl h)⟩
    · have hclosed : env.aggrBuf = none := by simpa using hopen
      obtain rfl := h.eq_nil hclosed
      cases htotal : le16? f.data with
      | none =>
        rw [fragment_runt hoffset hclosed heap _ htotal]
        exact ⟨rfl, .inl rfl⟩
      | some totalLen =>
        cases hheap : heap.aggrBuf with
        | true =>
          rw [fragment_first env hoffset hclosed hheap _ htotal]
          have hfresh := pending_nil conn (opened_holding env hoffset totalLen)
          exact hfresh.copyFragment hfrag hdata rfl fun _ => htotal
        | false =>
          rw [fragment_noMem hoffset hclosed hheap _ htotal]
          exact ⟨rfl, .inr (.inl (pending_nil _ (holding_of_closed hoffset hclosed)))⟩
  · rw [fragment_next env hoffset]
    obtain ⟨buf, hbuf, -⟩ := h.holding.isSome hoffset
    refine h.copyFragment hfrag hdata (by simp [hbuf]) fun hnil => ?_
    rw [hnil] at h
    exact absurd (h.holding.offset_eq_zero.mpr rfl) hoffset

/-- A frame that is not a fragment is handed over alone or behind the pending ones, or it is
refused and leaves everything as it is. -/
theorem Pending.complete {conn : Nat} {frames : List Received} {env : BlufiEnv} {f : BlufiFrame}
    (h : Pending conn frames env) (hfrag : f.hdr.isFrag = false)
    (hdata : f.hdr.dataLen.toNat ≤ f.data.length) :
    let out := env.complete f.hdr.type f.hdr.dataLen f.data
    out.faulted = false ∧
      ((messages out.effects = [] ∧ out.env = env) ∨
        ∃ group message, messages out.effects = [message] ∧ Pending conn [] out.env ∧
          (group = [] ∨ group = frames) ∧ Carries (group ++ [(conn, f)]) message) := by
  have hpayload : f.payload = f.data.take f.hdr.dataLen.toNat := by
    rw [BlufiFrame.payload, hfrag]
    rfl
  by_cases hoffset : env.offset = 0
  · rw [complete_single env hoffset]
    refine ⟨rfl, .inr ⟨[], _, rfl, pending_nil _ ?_, .inl rfl, [], (conn, f), rfl, ?_⟩⟩
    · have hnil := h.holding.offset_eq_zero.mp hoffset
      rw [← hnil]
      exact h.holding
    · simp [hfrag, hpayload]
  · by_cases htotal : env.offset.toNat + f.hdr.dataLen.toNat = env.totalLen.toNat
    · rw [complete_last h.holding hoffset hdata htotal]
      refine ⟨rfl, .inr ⟨frames, _, rfl, pending_nil _ ?_, .inr rfl, frames, (conn, f), rfl, ?_⟩⟩
      · exact holding_of_closed rfl rfl
      · have hfull : (texts (frames ++ [(conn, f)])).length = env.totalLen.toNat := by
          have hlen := h.holding.1
          rw [texts_append, texts_singleton, hpayload, List.length_append, List.length_take,
            Nat.min_eq_left hdata]
          omega
        refine ⟨h.fragments, hfrag, ?_, ?_⟩
        · rw [texts_append, texts_singleton, hpayload]
        · intro first hfirst
          rw [h.announced first hfirst, hfull]
          rfl
    · obtain ⟨buf, hbuf, -⟩ := h.holding.isSome hoffset
      rw [complete_badLength hoffset hbuf _ _ htotal]
      exact ⟨rfl, .inl ⟨rfl, rfl⟩⟩

end BlufiEnv

namespace BlufiLink

open BlufiEnv

variable {cJSONParse : Bytes → Option StringItems}

/-- What has been handed over comes from groups of the frames received so far, and the buffer
holds the frames behind the last group. -/
def Assembled (conn : Nat) (received : List Received) (s : BlufiLink) : Prop :=
  ∃ frames, Grouped Carries received (messages s.effects) frames ∧
    (s.faulted = true ∨ Pending conn frames s.env)

private theorem jsonRequest_messages (heap : BlufiHeap) (item : StringItems) :
    messages (jsonRequest heap item) = [] := by
  simp only [jsonRequest]
  split
  · rfl
  · split
    · simp only [messages_append]
      split <;> split <;> rfl
    · rfl

private theorem jsonEffects_messages (heap : BlufiHeap) (packet : Bytes) :
    messages (jsonEffects cJSONParse heap packet) = [] := by
  simp only [jsonEffects]
  split
  · cases cJSONParse (packet.takeWhile (· ≠ 0)) with
    | none => rfl
    | some item => simp [jsonRequest_messages]
  · rfl

private theorem of?_eq_ofBytes {cbs : BlufiCallbacks} {packet : Bytes} {hdr : BlufiHdr}
    (hpacket : BlufiPacket.ofBytes packet = .framed hdr) :
    BlufiFrame.of? cbs packet = (cbs.openData hdr).toOption.map (.mk hdr) := by
  rw [BlufiFrame.of?, hpacket]

theorem of?_eq_some {cbs : BlufiCallbacks} {packet : Bytes} {f : BlufiFrame}
    (h : BlufiFrame.of? cbs packet = some f) :
    ∃ hdr, BlufiPacket.ofBytes packet = .framed hdr ∧ hdr = f.hdr := by
  simp only [BlufiFrame.of?] at h
  split at h
  · next hdr hpacket =>
    obtain ⟨data, -, rfl⟩ := Option.map_eq_some_iff.mp h
    exact ⟨hdr, hpacket, rfl⟩
  · cases h

private theorem ofBytes_framed {packet : Bytes} {hdr : BlufiHdr}
    (hpacket : BlufiPacket.ofBytes packet = .framed hdr) :
    hdr.data.length = hdr.targetDataLen := by
  simp only [BlufiPacket.ofBytes] at hpacket
  split at hpacket
  · cases hpacket
  · split at hpacket
    · cases hpacket
    · split at hpacket
      · cases hpacket
      · next hlen =>
        obtain rfl := BlufiPacket.framed.inj hpacket
        exact not_not.mp hlen

private theorem dataLen_le {cbs : BlufiCallbacks} {packet data : Bytes} {hdr : BlufiHdr}
    (hpacket : BlufiPacket.ofBytes packet = .framed hdr) (hopen : cbs.openData hdr = .ok data) :
    hdr.dataLen.toNat ≤ data.length := by
  rw [BlufiCallbacks.length_openData hopen, ofBytes_framed hpacket, BlufiHdr.targetDataLen]
  split <;> omega

/-- A packet that is no frame, or one with another number, changes nothing but the effects, and
hands nothing over. -/
theorem recvHandler_refused (cJSONParse : Bytes → Option StringItems) (cbs : BlufiCallbacks)
    (heap : BlufiHeap) {env : BlufiEnv} {packet : Bytes}
    (h : ∀ hdr, BlufiPacket.ofBytes packet = .framed hdr → hdr.seq ≠ env.recvSeq) :
    ∃ effects, env.recvHandler cJSONParse cbs heap packet = ⟨env, effects, false⟩ ∧
      messages effects = [] := by
  simp only [recvHandler]
  cases hpacket : BlufiPacket.ofBytes packet with
  | short => exact ⟨_, rfl, rfl⟩
  | json => exact ⟨_, rfl, jsonEffects_messages heap packet⟩
  | badLength => exact ⟨_, rfl, rfl⟩
  | framed hdr =>
    simp only
    rw [if_pos (h hdr hpacket)]
    exact ⟨_, rfl, rfl⟩

private theorem recvHandler_accepted {cbs : BlufiCallbacks} {heap : BlufiHeap} {env : BlufiEnv}
    {packet : Bytes} {hdr : BlufiHdr} (hpacket : BlufiPacket.ofBytes packet = .framed hdr)
    (hseq : hdr.seq = env.recvSeq) : env.recvHandler cJSONParse cbs heap packet =
      env.counted.acceptFrame cbs heap hdr := by
  simp only [recvHandler, hpacket]
  rw [if_neg (not_not.mpr hseq)]

private theorem messages_ack (hdr : BlufiHdr) :
    messages (if hdr.isReqAck then [.sendAck hdr.seq] else []) = [] := by
  split <;> rfl

/-- What can become of a packet: it is refused, it cannot be opened, or it is a frame that is
copied or handed over. -/
theorem recvHandler_cases (cJSONParse : Bytes → Option StringItems) (cbs : BlufiCallbacks)
    (heap : BlufiHeap) (env : BlufiEnv) (packet : Bytes) :
    ((∀ hdr, BlufiPacket.ofBytes packet = .framed hdr → hdr.seq ≠ env.recvSeq) ∧
      ∃ effects, env.recvHandler cJSONParse cbs heap packet = ⟨env, effects, false⟩ ∧
        messages effects = []) ∨
    (BlufiFrame.of? cbs packet = none ∧
      ∃ e, env.recvHandler cJSONParse cbs heap packet = env.counted.reportError e) ∨
    ∃ f ack, BlufiFrame.of? cbs packet = some f ∧ f.hdr.seq = env.recvSeq ∧
      f.hdr.dataLen.toNat ≤ f.data.length ∧ messages ack = [] ∧
      let out := if f.hdr.isFrag then env.counted.fragment heap f.hdr.dataLen f.data
        else env.counted.complete f.hdr.type f.hdr.dataLen f.data
      env.recvHandler cJSONParse cbs heap packet = ⟨out.env, ack ++ out.effects, out.faulted⟩ := by
  by_cases hrefused : ∀ hdr, BlufiPacket.ofBytes packet = .framed hdr → hdr.seq ≠ env.recvSeq
  · exact .inl ⟨hrefused, recvHandler_refused cJSONParse cbs heap hrefused⟩
  · push Not at hrefused
    obtain ⟨hdr, hpacket, hseq⟩ := hrefused
    rw [recvHandler_accepted hpacket hseq, acceptFrame, of?_eq_ofBytes hpacket]
    cases hopen : cbs.openData hdr with
    | error e => exact .inr (.inl ⟨rfl, e, rfl⟩)
    | ok data =>
      exact .inr (.inr ⟨⟨hdr, data⟩, _, rfl, hseq, dataLen_le hpacket hopen, messages_ack hdr, rfl⟩)

private theorem Assembled.frame {conn : Nat} {received frames : List Received}
    {effects ack : List BlufiEffect} {env : BlufiEnv}
    (hgrouped : Grouped Carries received (messages effects) frames)
    (hpending : Pending conn frames env) (heap : BlufiHeap) {f : BlufiFrame}
    (hdata : f.hdr.dataLen.toNat ≤ f.data.length) (hack : messages ack = []) :
    let out := if f.hdr.isFrag then env.fragment heap f.hdr.dataLen f.data
      else env.complete f.hdr.type f.hdr.dataLen f.data
    Assembled conn (received ++ [(conn, f)])
      ⟨out.env, effects ++ (ack ++ out.effects), out.faulted⟩ := by
  simp only [Assembled, messages_append, hack, List.nil_append]
  cases hfrag : f.hdr.isFrag with
  | true =>
    obtain ⟨hmessages, hcases⟩ := hpending.fragment heap hfrag hdata
    simp only [if_true, hmessages, List.append_nil]
    rcases hcases with hfault | hkept | hcopied
    · exact ⟨frames, hgrouped.skip _, .inl hfault⟩
    · exact ⟨frames, hgrouped.skip _, .inr hkept⟩
    · exact ⟨_, hgrouped.collect _, .inr hcopied⟩
  | false =>
    obtain ⟨-, hcases⟩ := hpending.complete hfrag hdata
    simp only [Bool.false_eq_true, if_false]
    rcases hcases with ⟨hmessages, henv⟩ | ⟨group, message, hmessages, hdone, hgroup, hcarries⟩
    · rw [hmessages, henv, List.append_nil]
      exact ⟨frames, hgrouped.skip _, .inr hpending⟩
    · rw [hmessages]
      refine ⟨[], ?_, .inr hdone⟩
      rcases hgroup with rfl | rfl
      · exact hgrouped.discard.single hcarries
      · exact (hgrouped.collect _).emit hcarries

private theorem Assembled.step {conn : Nat} {received : List Received} {s : BlufiLink}
    (h : Assembled conn received s) (op : BlufiOp) (rest : List BlufiOp) :
    ∃ conn' received', Assembled conn' received' (step cJSONParse s op) ∧
      received' ++ receivedFrom conn' rest = received ++ receivedFrom conn (op :: rest) := by
  obtain ⟨frames, hgrouped, hstate⟩ := h
  by_cases hfault : s.faulted = true
  · have hstep : BlufiLink.step cJSONParse s op = s := if_pos hfault
    rw [hstep]
    cases op with
    | connect => exact ⟨conn, received, ⟨frames, hgrouped, .inl hfault⟩, rfl⟩
    | disconnect => exact ⟨conn + 1, received, ⟨frames, hgrouped, .inl hfault⟩, rfl⟩
    | receive cbs heap packet =>
      exact ⟨conn, _, ⟨frames, hgrouped.skip _, .inl hfault⟩, List.append_assoc ..⟩
  · have hpending := hstate.resolve_left hfault
    have hstep : BlufiLink.step cJSONParse s op = ⟨(outcome cJSONParse s.env op).env,
        s.effects ++ (outcome cJSONParse s.env op).effects,
        (outcome cJSONParse s.env op).faulted⟩ := if_neg hfault
    rw [hstep]
    cases op with
    | connect =>
      refine ⟨conn, received, ⟨frames, ?_, .inr (hpending.header true 0)⟩, rfl⟩
      simpa [outcome, connect] using hgrouped
    | disconnect =>
      refine ⟨conn + 1, received, ⟨[], ?_, .inr (pending_nil _ ?_)⟩, rfl⟩
      · have hnone : messages (outcome cJSONParse s.env .disconnect).effects = [] := by
          simp only [outcome, disconnect]
          split <;> rfl
        rw [messages_append, hnone, List.append_nil]
        exact hgrouped.discard
      · exact holding_of_closed rfl rfl
    | receive cbs heap packet =>
      refine ⟨conn, _, ?_, List.append_assoc ..⟩
      rcases recvHandler_cases cJSONParse cbs heap s.env packet with
        ⟨-, effects, hout, hnone⟩ | ⟨hframe, e, hout⟩ | ⟨f, ack, hframe, -, hdata, hack, hout⟩
      · rw [outcome, hout]
        refine ⟨frames, ?_, .inr hpending⟩
        rw [messages_append, hnone, List.append_nil]
        exact hgrouped.skip _
      · rw [outcome, hout, hframe]
        refine ⟨frames, ?_, .inr (hpending.header _ _)⟩
        simpa [reportError] using hgrouped
      · rw [outcome, hout, hframe]
        exact Assembled.frame hgrouped (hpending.header _ _) heap hdata hack

private theorem Assembled.run {conn : Nat} {received : List Received} {s : BlufiLink}
    (h : Assembled conn received s) (ops : List BlufiOp) :
    ∃ conn', Assembled conn' (received ++ receivedFrom conn ops)
      (run (BlufiLink.step cJSONParse) s ops) := by
  induction ops generalizing conn received s with
  | nil => exact ⟨conn, by simpa [receivedFrom] using h⟩
  | cons op ops ih =>
    obtain ⟨conn', received', hstep, hreceived⟩ := h.step op ops
    obtain ⟨conn'', hrun⟩ := ih hstep
    rw [hreceived] at hrun
    exact ⟨conn'', hrun⟩

/-- In every run the messages handed over come from groups of frames that have nothing in common,
in the order of their arrival. -/
theorem messages_from_groups (cJSONParse : Bytes → Option StringItems) (ops : List BlufiOp) :
    ∃ groups : List (List Received), groups.flatten.Sublist (receivedFrom 0 ops) ∧
      List.Forall₂ Carries groups (messages (run (step cJSONParse) init ops).effects) := by
  have hinit : Assembled 0 [] init := ⟨[], .nil, .inr (pending_nil _ (holding_of_closed rfl rfl))⟩
  obtain ⟨conn, frames, hgrouped, -⟩ := hinit.run ops
  obtain ⟨groups, hsub, hcarries⟩ := hgrouped.discard
  rw [List.append_nil] at hsub
  exact ⟨groups, hsub, hcarries⟩

end BlufiLink

end Leyu
