import Leyu.Uart.SendAndWait

/-!
# The end of a response

The same reads go to the worker of the command queue and to `uart_send_and_wait`. The one looks for
the result code in the last read, the other in what has been collected, and both leave out a read
that would fill their buffers up to the terminator.
-/

namespace Leyu

open Framework

/-- A read that returns in time: the ticks before the test of the loop, what is read, and the ticks
that the read takes. -/
structure TimedRead where
  wait : Nat
  data : Text
  took : Nat

def TimedRead.ops (r : TimedRead) : List UartOp :=
  [.tick r.wait, .loop, .tick r.took, .read r.data]

/-- A read without data is none. -/
def readTexts (reads : List TimedRead) : List Text :=
  (reads.map TimedRead.data).filter fun data => data ≠ []

/-- Every read is in time, and `rest` ticks behind the last one the time is over. -/
def InTime (limit rest : Nat) : Nat → List TimedRead → Prop
  | t, [] => limit ≤ (t + rest) % 2 ^ 32
  | t, r :: reads =>
      (t + r.wait) % 2 ^ 32 < limit ∧ InTime limit rest (t + r.wait + r.took) reads

/-- A response, cut into reads, as the worker and `uart_send_and_wait` receive it. It is shorter
than either buffer. -/
structure Reception where
  reads : List TimedRead
  rest : Nat
  polls : List (Option RxBlock)
  responseLen : UInt32
  noNul : ∀ r ∈ reads, nul ∉ r.data
  sameReads : blocksOf polls = readTexts reads
  fitsTask : (readTexts reads).flatten.length < uartCommBufSize
  fitsCaller : (readTexts reads).flatten.length < responseLen.toNat

/-- The worker takes a command up, writes it, reads and stores. -/
def Reception.ops (r : Reception) : List UartOp :=
  [.receive, .write true] ++ r.reads.flatMap TimedRead.ops ++ [.tick r.rest, .loop] ++ [.store]

def Reception.stored (pdMsToTicks : Nat → Nat) (s : UartComm) (r : Reception) : AtCommandResponse :=
  (run (UartComm.step pdMsToTicks) s r.ops).globalAtResponse

/-- The read `last` completes the first result code of the response. -/
def CompletesCode (front : List Text) (last : Text) : Prop :=
  HasCode (front ++ [last]).flatten ∧ ¬ HasCode front.flatten

/-- The stored response is valid exactly when the whole text holds a result code, it is the text up
to the completion, and `uart_send_and_wait` has the same one. -/
structure Agrees (texts : List Text) (stored : AtCommandResponse) (r : EspErr × Collected) :
    Prop where
  valid : stored.isValid = true ↔ HasCode texts.flatten
  text : ∀ front last rest, texts = front ++ last :: rest → CompletesCode front last →
    stored.response = (front ++ [last]).flatten
  same : stored.isValid = true → r.1 = .ok ∧ r.2.response = stored.response
  incomplete : stored.isValid = false → ¬ HasCode r.2.response

/-- The read that completes the first result code holds one of its own, and with it the text stays
below the two limits. Where it holds none, the one read behind it does, and that one is left out. -/
def CompletionFits (responseLen : Nat) (texts : List Text) : Prop :=
  ∀ front last rest, texts = front ++ last :: rest → CompletesCode front last →
    (front ++ [last]).flatten.length < responseLen - 1 ∧
    if HasCode last then (front ++ [last]).flatten.length < uartCommBufSize - 1
    else ∃ next, rest = [next] ∧ HasCode next ∧ texts.flatten.length = uartCommBufSize - 1

private theorem HasCode.mono {t u : Text} (h : HasCode t) (htu : t <:+: u) : HasCode u := by
  rcases h with h | h
  · exact .inl (h.trans htu)
  · exact .inr (h.trans htu)

private theorem not_hasCode_nil : ¬ HasCode [] := by decide

private theorem HasCode.ne_nil {t : Text} (h : HasCode t) :
    t ≠ [] := fun hnil => not_hasCode_nil (hnil ▸ h)

private theorem HasCode.flatten {t : Text} (h : HasCode t) {texts : List Text} (ht : t ∈ texts) :
    HasCode texts.flatten := by
  exact h.mono (List.infix_of_mem_flatten ht)

private theorem CompletesCode.hasCode {texts front rest : List Text} {last : Text}
    (h : CompletesCode front last) (htexts : texts = front ++ last :: rest) :
    HasCode texts.flatten := by
  have hsplit : texts.flatten = (front ++ [last]).flatten ++ rest.flatten := by simp [htexts]
  rw [hsplit]
  exact h.1.mono (List.prefix_append _ _).isInfix

private theorem exists_completesCode {texts : List Text} (h : HasCode texts.flatten) :
    ∃ front last rest, texts = front ++ last :: rest ∧ CompletesCode front last := by
  induction texts using List.reverseRecOn with
  | nil => exact absurd h not_hasCode_nil
  | append_singleton front last ih =>
    by_cases hfront : HasCode front.flatten
    · obtain ⟨front', last', rest, hsplit, hcompletes⟩ := ih hfront
      exact ⟨front', last', rest ++ [last], by rw [hsplit]; simp, hcompletes⟩
    · exact ⟨front, last, [], rfl, h, hfront⟩

/-- The loop of the worker over the texts that it reads. -/
def collect : Text → List Text → Bool × Text
  | buffer, [] => (false, buffer)
  | buffer, data :: texts =>
      if HasCode data then (true, appendResponse buffer data)
      else collect (appendResponse buffer data) texts

private theorem elapsed_eq {s : UartComm} {start t : Nat} (h : s.now = start + t) :
    s.elapsed start = t % 2 ^ 32 := by
  rw [UartComm.elapsed, h]
  omega

theorem run_reads_storing (pdMsToTicks : Nat → Nat) (reads : List TimedRead) {s : UartComm}
    {cmd : GlobalAtCommand} {received : Bool} {buffer : Text}
    (hs : s.worker = .storing cmd received buffer) :
    (run (UartComm.step pdMsToTicks) s (reads.flatMap TimedRead.ops)).worker =
      .storing cmd received buffer := by
  induction reads generalizing s with
  | nil => exact hs
  | cons r reads ih =>
    rw [List.flatMap_cons, run_append]
    apply ih
    simp [TimedRead.ops, UartComm.step, UartComm.loop, UartComm.read, hs]

private theorem loop_intime (pdMsToTicks : Nat → Nat) {s : UartComm} {cmd : GlobalAtCommand}
    {start t : Nat} {buffer : Text} (hnow : s.now = start + t)
    (hs : s.worker = .waiting cmd start buffer)
    (htime : t % 2 ^ 32 < pdMsToTicks cmd.timeoutMs) :
    s.loop pdMsToTicks = { s with worker := .reading cmd start buffer } := by
  rw [UartComm.loop, hs]
  exact if_pos (elapsed_eq hnow ▸ htime)

private theorem loop_timeout (pdMsToTicks : Nat → Nat) {s : UartComm} {cmd : GlobalAtCommand}
    {start t : Nat} {buffer : Text} (hnow : s.now = start + t)
    (hs : s.worker = .waiting cmd start buffer)
    (htime : pdMsToTicks cmd.timeoutMs ≤ t % 2 ^ 32) :
    s.loop pdMsToTicks = { s with worker := .storing cmd false buffer } := by
  rw [UartComm.loop, hs]
  exact if_neg (Nat.not_lt.2 (elapsed_eq hnow ▸ htime))

theorem run_reads (pdMsToTicks : Nat → Nat) {rest : Nat} {cmd : GlobalAtCommand} {start : Nat}
    (reads : List TimedRead) {t : Nat} (htime : InTime (pdMsToTicks cmd.timeoutMs) rest t reads)
    {s : UartComm} {buffer : Text} (hnow : s.now = start + t)
    (hs : s.worker = .waiting cmd start buffer) :
    let c := collect buffer (reads.map TimedRead.data)
    (run (UartComm.step pdMsToTicks) s
      (reads.flatMap TimedRead.ops ++ [.tick rest, .loop])).worker = .storing cmd c.1 c.2 := by
  induction reads generalizing s buffer t with
  | nil =>
    have hloop := loop_timeout (s := { s with now := s.now + rest }) pdMsToTicks
      (t := t + rest) (by rw [← Nat.add_assoc, ← hnow]) hs htime
    show (({ s with now := s.now + rest } : UartComm).loop pdMsToTicks).worker = _
    rw [hloop]
    rfl
  | cons r reads ih =>
    obtain ⟨hnext, htime⟩ := htime
    have hloop := loop_intime (s := { s with now := s.now + r.wait }) pdMsToTicks
      (t := t + r.wait) (by rw [← Nat.add_assoc, ← hnow]) hs hnext
    -- The state in which the read returns.
    let before : UartComm :=
      { s with now := s.now + r.wait + r.took, worker := .reading cmd start buffer }
    have hrun : run (UartComm.step pdMsToTicks) s r.ops = before.read r.data := by
      show (UartComm.step pdMsToTicks (({ s with now := s.now + r.wait } : UartComm).loop
        pdMsToTicks) (.tick r.took)).read r.data = _
      rw [hloop]
      rfl
    rw [List.flatMap_cons, List.append_assoc, run_append, hrun, List.map_cons]
    by_cases hcode : HasCode r.data
    · have hread : (before.read r.data).worker =
          .storing cmd true (appendResponse buffer r.data) := by
        simp [UartComm.read, before, hcode]
      have hlast := run_reads_storing pdMsToTicks reads hread
      simp only [collect, if_pos hcode]
      rw [run_append]
      simp [UartComm.step, UartComm.loop, hlast]
    · have hread : before.read r.data =
          { before with worker := .waiting cmd start (appendResponse buffer r.data) } := by
        simp [UartComm.read, before, hcode]
      simp only [collect, if_neg hcode]
      refine ih htime ?_ ?_
      · rw [hread]
        show s.now + r.wait + r.took = _
        omega
      · rw [hread]

private theorem collect_filter (buffer : Text) (texts : List Text) :
    collect buffer (texts.filter fun data => data ≠ []) = collect buffer texts := by
  induction texts generalizing buffer with
  | nil => rfl
  | cons data texts ih =>
    by_cases hnil : data = []
    · subst hnil
      have hsame : appendResponse buffer [] = buffer := by
        rw [appendResponse, List.append_nil]
        split <;> rfl
      rw [List.filter_cons_of_neg (by simp), ih, collect, if_neg not_hasCode_nil, hsame]
    · rw [List.filter_cons_of_pos (by simp [hnil])]
      simp only [collect]
      split
      · rfl
      · exact ih _

private theorem appendResponse_length {buffer data : Text}
    (h : buffer.length < uartCommBufSize - 1) :
    (appendResponse buffer data).length < uartCommBufSize - 1 := by
  rw [appendResponse]
  split
  · rwa [List.length_append]
  · exact h

private theorem collect_length {buffer : Text} (h : buffer.length < uartCommBufSize - 1)
    (texts : List Text) : (collect buffer texts).2.length < uartCommBufSize - 1 := by
  induction texts generalizing buffer with
  | nil => exact h
  | cons data texts ih =>
    rw [collect]
    split
    · exact appendResponse_length h
    · exact ih (appendResponse_length h)

/-- What the machine stores is what the loop over the texts has collected. -/
theorem stored_eq (pdMsToTicks : Nat → Nat) {s : UartComm} {cmd : GlobalAtCommand}
    {queue : List GlobalAtCommand} (hidle : s.worker = .idle)
    (hqueue : s.globalAtCommandQueue = cmd :: queue) (hneed : cmd.needResponse = true)
    (r : Reception) (htime : InTime (pdMsToTicks cmd.timeoutMs) r.rest 0 r.reads) :
    let c := collect [] (readTexts r.reads)
    (r.stored pdMsToTicks s).isValid = c.1 ∧
      (c.1 = true → (r.stored pdMsToTicks s).response = c.2) := by
  let waiting : UartComm := { s with
    globalAtCommandQueue := queue
    globalAtResponse := ⟨[], 0, false⟩
    worker := .waiting cmd s.now [] }
  have hstart : run (UartComm.step pdMsToTicks) s [.receive, .write true] = waiting := by
    show (s.receive).write true = waiting
    rw [UartComm.receive, hidle, hqueue]
    simp [UartComm.write, hneed, waiting]
  have hreads : (run (UartComm.step pdMsToTicks) waiting
      (r.reads.flatMap TimedRead.ops ++ [.tick r.rest, .loop])).worker = .storing cmd
        (collect [] (readTexts r.reads)).1 (collect [] (readTexts r.reads)).2 := by
    rw [readTexts, collect_filter]
    exact run_reads pdMsToTicks r.reads htime (Nat.add_zero _).symm rfl
  have hempty : ([] : Text).length < uartCommBufSize - 1 := by decide
  have hlength := collect_length hempty (readTexts r.reads)
  have hstored : r.stored pdMsToTicks s = (UartComm.store (run (UartComm.step pdMsToTicks) waiting
      (r.reads.flatMap TimedRead.ops ++ [.tick r.rest, .loop]))).globalAtResponse := by
    rw [Reception.stored, Reception.ops, run_append, List.append_assoc, run_append, hstart]
    rfl
  rw [hstored, UartComm.store, hreads]
  cases hcollect : collect [] (readTexts r.reads) with
  | mk received buffer =>
    rw [hcollect] at hlength
    cases received with
    | false => exact ⟨rfl, nofun⟩
    | true => exact ⟨rfl, fun _ => List.take_of_length_le (Nat.le_of_lt hlength)⟩

section

variable {texts : List Text}

private theorem collect_fst (buffer : Text) (texts : List Text) :
    (collect buffer texts).1 = true ↔ ∃ data ∈ texts, HasCode data := by
  induction texts generalizing buffer with
  | nil => simp [collect]
  | cons data texts ih =>
    rw [collect]
    by_cases hcode : HasCode data
    · simp [hcode]
    · simp [hcode, ih]

private theorem prefix_appendResponse (buffer data : Text) :
    buffer <+: appendResponse buffer data := by
  rw [appendResponse]
  split
  · exact List.prefix_append buffer data
  · exact List.prefix_refl buffer

private theorem prefix_collect (buffer : Text) (texts : List Text) :
    buffer <+: (collect buffer texts).2 := by
  induction texts generalizing buffer with
  | nil => exact List.prefix_refl buffer
  | cons data texts ih =>
    rw [collect]
    split
    · exact prefix_appendResponse buffer data
    · exact (prefix_appendResponse buffer data).trans (ih _)

private theorem collect_append {buffer : Text} {front : List Text}
    (hfits : (buffer ++ front.flatten).length < uartCommBufSize - 1)
    (hcode : ¬ HasCode front.flatten) (rest : List Text) :
    collect buffer (front ++ rest) = collect (buffer ++ front.flatten) rest := by
  induction front generalizing buffer with
  | nil => rw [List.flatten_nil, List.append_nil, List.nil_append]
  | cons data front ih =>
    have hdata : ¬ HasCode data := fun h => hcode (h.flatten List.mem_cons_self)
    have hfront : ¬ HasCode front.flatten := fun h => hcode (h.mono (by
      rw [List.flatten_cons]
      exact (List.suffix_append _ _).isInfix))
    rw [List.flatten_cons, ← List.append_assoc] at hfits ⊢
    have hroom : buffer.length + data.length < uartCommBufSize - 1 := by
      rw [List.length_append, List.length_append] at hfits
      omega
    rw [List.cons_append, collect, if_neg hdata, appendResponse, if_pos hroom]
    exact ih hfits hfront

/-- A text that stays the same although a read completes a response behind it: the read is the only
one, and there was no room for it. -/
theorem collect_same {buffer : Text} (hne : ∀ data ∈ texts, data ≠ [])
    (hfits : (buffer ++ texts.flatten).length < uartCommBufSize)
    (h : collect buffer texts = (true, buffer)) :
    ∃ next, texts = [next] ∧ HasCode next ∧
      (buffer ++ next).length = uartCommBufSize - 1 := by
  cases texts with
  | nil => cases h
  | cons next texts =>
    rw [List.flatten_cons, List.length_append, List.length_append] at hfits
    have hnext := List.length_pos_iff.2 (hne next List.mem_cons_self)
    have hdropped : appendResponse buffer next = buffer →
        uartCommBufSize - 1 ≤ buffer.length + next.length := by
      intro hsame
      rw [appendResponse] at hsame
      split at hsame
      · have hlen := congrArg List.length hsame
        rw [List.length_append] at hlen
        omega
      · omega
    rw [collect] at h
    by_cases hcode : HasCode next
    · rw [if_pos hcode] at h
      have hfull := hdropped (Prod.mk.inj h).2
      have hrest : texts.flatten.length = 0 := by omega
      cases texts with
      | nil =>
        refine ⟨next, rfl, hcode, ?_⟩
        rw [List.length_append]
        omega
      | cons data texts =>
        have hdata := List.length_pos_iff.2 (hne data (by simp))
        rw [List.flatten_cons, List.length_append] at hrest
        omega
    · rw [if_neg hcode] at h
      have hpre := prefix_collect (appendResponse buffer next) texts
      rw [h] at hpre
      have hfull := hdropped (hpre.eq_of_length_le (prefix_appendResponse buffer next).length_le)
      -- The read that ended the loop comes behind and is not empty.
      obtain ⟨data, hdata, hlast⟩ := (collect_fst _ _).1 (congrArg Prod.fst h)
      have hle := (List.infix_of_mem_flatten hdata).length_le
      have hpos := List.length_pos_iff.2 hlast.ne_nil
      omega

/-- What the loop of `uart_send_and_wait` collects where `room` characters do not fit any more. -/
def gather (room : Nat) : Text → List Text → Text
  | response, [] => response
  | response, rx :: texts =>
      if (response ++ rx).length < room then
        if HasCode (response ++ rx) then response ++ rx else gather room (response ++ rx) texts
      else response

private theorem gather_front (room : Nat) (response : Text) (texts : List Text) :
    gather room response texts <+: response ++ texts.flatten := by
  induction texts generalizing response with
  | nil => rw [List.flatten_nil, List.append_nil]; exact List.prefix_refl _
  | cons rx texts ih =>
    rw [gather, List.flatten_cons, ← List.append_assoc]
    split
    · split
      · exact List.prefix_append _ _
      · exact ih _
    · rw [List.append_assoc]
      exact List.prefix_append _ _

private theorem gather_eq_iff {room : Nat} {front : List Text} {last : Text} (rest : List Text)
    {response : Text} (hnone : ¬ HasCode (response ++ front.flatten))
    (hcode : HasCode (response ++ front.flatten ++ last)) :
    gather room response (front ++ last :: rest) = response ++ front.flatten ++ last ↔
      (response ++ front.flatten ++ last).length < room := by
  induction front generalizing response with
  | nil =>
    rw [List.flatten_nil, List.append_nil] at hnone hcode ⊢
    rw [List.nil_append, gather]
    by_cases hroom : (response ++ last).length < room
    · rw [if_pos hroom, if_pos hcode]
      exact iff_of_true rfl hroom
    · rw [if_neg hroom]
      refine iff_of_false (fun h => hnone ?_) hroom
      rw [h]
      exact hcode
  | cons rx front ih =>
    rw [List.flatten_cons, ← List.append_assoc] at hnone hcode ⊢
    have hrx : ¬ HasCode (response ++ rx) :=
      fun h => hnone (h.mono (List.prefix_append _ _).isInfix)
    rw [List.cons_append, gather]
    by_cases hroom : (response ++ rx).length < room
    · rw [if_pos hroom, if_neg hrx]
      exact ih hnone hcode
    · rw [if_neg hroom]
      refine iff_of_false (fun h => hrx ?_) fun h => hroom ?_
      · have hresponse : HasCode response := by
          rw [h]
          exact hcode
        exact hresponse.mono (List.prefix_append _ _).isInfix
      · rw [List.append_assoc, List.length_append] at h
        omega

private theorem completion_iff (hne : ∀ data ∈ texts, data ≠ [])
    (hfits : texts.flatten.length < uartCommBufSize) (room : Nat) {front : List Text} {last : Text}
    {rest : List Text} (htexts : texts = front ++ last :: rest)
    (hcompletes : CompletesCode front last) :
    collect [] texts = (true, (front ++ [last]).flatten) ∧
        gather room [] texts = (front ++ [last]).flatten ↔
      (front ++ [last]).flatten.length < room ∧
        if HasCode last then (front ++ [last]).flatten.length < uartCommBufSize - 1
        else ∃ next, rest = [next] ∧ HasCode next ∧ texts.flatten.length = uartCommBufSize - 1 := by
  obtain ⟨hcode, hnone⟩ := hcompletes
  have htext : (front ++ [last]).flatten = front.flatten ++ last := by simp
  have hwhole : texts.flatten = front.flatten ++ last ++ rest.flatten := by simp [htexts]
  have hpos : 0 < last.length := List.length_pos_iff.2 (hne last (by simp [htexts]))
  have hlen := congrArg List.length hwhole
  rw [List.length_append, List.length_append] at hlen
  rw [htext] at hcode ⊢
  have hgather : gather room [] texts = front.flatten ++ last ↔
      (front.flatten ++ last).length < room := by
    rw [htexts]
    exact gather_eq_iff rest hnone hcode
  have hcollect : collect [] texts = collect front.flatten (last :: rest) := by
    have hroom : (([] : Text) ++ front.flatten).length < uartCommBufSize - 1 := by
      rw [List.nil_append]
      omega
    rw [htexts]
    exact collect_append hroom hnone (last :: rest)
  have happend : (front.flatten ++ last).length < uartCommBufSize - 1 ↔
      appendResponse front.flatten last = front.flatten ++ last := by
    rw [appendResponse, List.length_append]
    split
    · next hroom => exact iff_of_true hroom rfl
    · next hroom =>
      refine iff_of_false hroom fun h => ?_
      have := congrArg List.length h
      rw [List.length_append] at this
      omega
  rw [hgather, hcollect, collect, and_comm]
  refine and_congr_right fun _ => ?_
  by_cases hlast : HasCode last
  · rw [if_pos hlast, if_pos hlast, happend]
    exact ⟨fun h => (Prod.mk.inj h).2, fun h => by rw [h]⟩
  · rw [if_neg hlast, if_neg hlast]
    constructor
    · intro h
      -- Behind it comes the read that ended the loop, so there was room for this one.
      obtain ⟨data, hdata, hend⟩ := (collect_fst _ _).1 (congrArg Prod.fst h)
      have hle := (List.infix_of_mem_flatten hdata).length_le
      have hdatapos := List.length_pos_iff.2 hend.ne_nil
      rw [happend.1 (by rw [List.length_append]; omega)] at h
      have hnerest : ∀ data ∈ rest, data ≠ [] := fun data hmem => hne data (by simp [htexts, hmem])
      obtain ⟨next, rfl, hnext, hfull⟩ := collect_same hnerest (by rwa [← hwhole]) h
      refine ⟨next, rfl, hnext, ?_⟩
      rw [hwhole, List.flatten_singleton]
      exact hfull
    · intro hone
      obtain ⟨next, rfl, hnext, hfull⟩ := hone
      have hnextpos := List.length_pos_iff.2 hnext.ne_nil
      rw [List.flatten_singleton] at hlen
      have hroom : (front.flatten ++ last).length < uartCommBufSize - 1 := by
        rw [List.length_append]
        omega
      rw [happend.1 hroom, collect, if_pos hnext, appendResponse, if_neg]
      rw [List.length_append]
      omega

private theorem waitLoop_response {responseLen : UInt32} (hne : responseLen ≠ 0)
    (polls : List (Option RxBlock)) {c : Collected}
    (hoffset : c.responseOffset.toNat = c.response.length)
    (hcode : ¬ (c.responseReceived = true ∧ HasCode c.response))
    (hsum : (c.response ++ (blocksOf polls).flatten).length < 2 ^ 32) :
    (waitLoop responseLen polls c).response =
      gather (responseLen.toNat - 1) c.response (blocksOf polls) := by
  induction polls generalizing c with
  | nil => rfl
  | cons poll polls ih =>
    cases poll with
    | none =>
      rw [waitLoop_none polls hcode]
      exact ih hoffset hcode hsum
    | some rx =>
      have hblocks : blocksOf (some rx :: polls) = rx.text :: blocksOf polls := rfl
      rw [hblocks, List.flatten_cons, ← List.append_assoc] at hsum
      obtain ⟨offset, hoffset', hreceive⟩ := receive_eq hne rx hoffset (by
        rw [List.length_append, List.length_append] at hsum
        omega)
      rw [hblocks, gather, waitLoop, hreceive]
      by_cases hshort : (c.response ++ rx.text).length < responseLen.toNat - 1
      · rw [if_pos hshort, if_pos hshort]
        dsimp only
        by_cases hdone : HasCode (c.response ++ rx.text)
        · rw [if_pos ⟨rfl, hdone⟩, if_pos hdone]
        · rw [if_neg fun h => hdone h.2, if_neg hdone]
          exact ih hoffset' (fun h => hdone h.2) hsum
      · rw [if_neg hshort, if_neg hshort]

private theorem received_of_response (responseLen : UInt32) (polls : List (Option RxBlock))
    {c : Collected} (hc : c.response ≠ [] → c.responseReceived = true)
    (h : (waitLoop responseLen polls c).response ≠ []) :
    (waitLoop responseLen polls c).responseReceived = true := by
  induction polls generalizing c with
  | nil => exact hc h
  | cons poll polls ih =>
    rw [waitLoop] at h ⊢
    cases hpoll : c.poll responseLen poll with
    | none =>
      rw [hpoll] at h
      exact hc h
    | some c' =>
      have hc' : c'.response ≠ [] → c'.responseReceived = true := by
        cases poll with
        | none => exact Option.some.inj hpoll ▸ hc
        | some rx =>
          intro _
          simp only [Collected.poll, Collected.receive] at hpoll
          split at hpoll
          · obtain rfl := Option.some.inj hpoll
            rfl
          · cases hpoll
      rw [hpoll] at h
      dsimp only at h ⊢
      split
      · next hdone => exact hdone.1
      · next hmore =>
        rw [if_neg hmore] at h
        exact ih hc' h

end

/-- The worker stores what its loop has collected, and `uart_send_and_wait` has its own: they agree
exactly when both have the text up to the completion. -/
theorem agrees_iff_collected {texts : List Text} {stored : AtCommandResponse}
    {r : EspErr × Collected} {room : Nat} (hvalid : stored.isValid = (collect [] texts).1)
    (htext : (collect [] texts).1 = true → stored.response = (collect [] texts).2)
    (hresponse : r.2.response = gather room [] texts)
    (hok : gather room [] texts ≠ [] → r.1 = .ok) :
    Agrees texts stored r ↔ ∀ front last rest, texts = front ++ last :: rest →
      CompletesCode front last →
        collect [] texts = (true, (front ++ [last]).flatten) ∧
          gather room [] texts = (front ++ [last]).flatten := by
  constructor
  · intro h front last rest htexts hcompletes
    have hstored := h.valid.2 (hcompletes.hasCode htexts)
    have hreceived := hvalid.symm.trans hstored
    have hwhole := h.text front last rest htexts hcompletes
    refine ⟨Prod.ext hreceived ?_, ?_⟩
    · exact (htext hreceived).symm.trans hwhole
    · exact (hresponse.symm.trans (h.same hstored).2).trans hwhole
  · intro h
    by_cases hcode : HasCode texts.flatten
    · obtain ⟨front, last, rest, htexts, hcompletes⟩ := exists_completesCode hcode
      obtain ⟨hcollect, hgather⟩ := h front last rest htexts hcompletes
      have hreceived : (collect [] texts).1 = true := congrArg Prod.fst hcollect
      have hstored : stored.isValid = true := hvalid.trans hreceived
      have hne : gather room [] texts ≠ [] := hgather ▸ hcompletes.1.ne_nil
      refine ⟨iff_of_true hstored hcode, ?_, fun _ => ⟨hok hne, ?_⟩, ?_⟩
      · intro front' last' rest' htexts' hcompletes'
        rw [htext hreceived, (h front' last' rest' htexts' hcompletes').1]
      · rw [htext hreceived, hcollect, hresponse, hgather]
      · intro hinvalid
        exact absurd (hstored.symm.trans hinvalid) (by decide)
    · have hmissed : ¬ (collect [] texts).1 = true := by
        rw [collect_fst]
        intro hread
        obtain ⟨data, hdata, hend⟩ := hread
        exact hcode (hend.flatten hdata)
      have hinvalid : ¬ stored.isValid = true := hvalid ▸ hmissed
      refine ⟨iff_of_false hinvalid hcode, ?_, fun hstored => absurd hstored hinvalid, fun _ => ?_⟩
      · intro front last rest htexts hcompletes
        exact absurd (hcompletes.hasCode htexts) hcode
      · rw [hresponse]
        exact fun hend => hcode (hend.mono (gather_front _ [] _).isInfix)

def waitingCommand : UartComm :=
  { UartComm.init with globalAtCommandQueue := [⟨0, ['A', 'T'], 1000, true⟩] }

/-- The response `OK` in two reads. -/
def splitOk : Reception where
  reads := [⟨1, ['O'], 1⟩, ⟨1, ['K'], 1⟩]
  rest := 1000
  polls := [some ⟨['O'], by decide⟩, some ⟨['K'], by decide⟩]
  responseLen := 256
  noNul := by decide
  sameReads := rfl
  fitsTask := by decide
  fitsCaller := by decide

/-- An answer in three reads, of which the second holds the code. -/
def cutAnswer : Reception where
  reads := [⟨1, "+CSQ: 2".toList, 1⟩, ⟨1, "0,99".toList ++ crlf ++ resultOk, 1⟩, ⟨1, crlf, 1⟩]
  rest := 1000
  polls := [some ⟨"+CSQ: 2".toList, by decide⟩, none,
    some ⟨"0,99".toList ++ crlf ++ resultOk, by decide⟩, some ⟨crlf, by decide⟩]
  responseLen := 256
  noNul := by decide
  sameReads := rfl
  fitsTask := by decide
  fitsCaller := by decide

end Leyu
