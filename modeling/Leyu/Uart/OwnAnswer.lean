import Leyu.Uart.CommandQueue

/-!
# Whose response a caller gets

A give says that some response is there, not whose. A call that gives up leaves its command in the
queue or with the worker, and the give made for it later lets another call through.
-/

namespace Leyu

open Framework

namespace UartComm

/-- A call that returns `ESP_OK` after a wait leaves with the answer to its command. -/
def OwnAnswer (answer : Nat → Text) (s : UartComm) : UartOp → Prop
  | .ret i => ∀ c, s.calls[i]? = some c → c.point = .leaving →
      s.globalAtResponse.isValid = true ∧ s.globalAtResponse.response = answer i
  | _ => True

/-- The worker clears the record when no call is about to return with it. -/
def ClearsUnread (s : UartComm) (whole : Bool) : WorkerPoint → Prop
  | .received cmd => whole = true → cmd.needResponse = true → ∀ c ∈ s.calls, c.point ≠ .leaving
  | _ => True

instance (s : UartComm) (whole : Bool) : (w : WorkerPoint) → Decidable (s.ClearsUnread whole w)
  | .received cmd => inferInstanceAs (Decidable (whole = true → cmd.needResponse = true →
      ∀ c ∈ s.calls, c.point ≠ .leaving))
  | .idle | .waiting _ _ _ | .reading _ _ _ | .storing _ _ _ | .giving _ => .isTrue trivial

/-- When a result code comes in, what was read since the command was written is the answer to it,
and the buffer has room for it. -/
def ReadsAnswer (answer : Nat → Text) (data : Text) : WorkerPoint → Prop
  | .reading cmd _ buffer => HasCode data →
      buffer.length + data.length < uartCommBufSize - 1 ∧ buffer ++ data = answer cmd.call
  | _ => True

instance (answer : Nat → Text) (data : Text) :
    (w : WorkerPoint) → Decidable (ReadsAnswer answer data w)
  | .reading cmd _ buffer => inferInstanceAs (Decidable (HasCode data →
      buffer.length + data.length < uartCommBufSize - 1 ∧ buffer ++ data = answer cmd.call))
  | .idle | .received _ | .waiting _ _ _ | .storing _ _ _ | .giving _ => .isTrue trivial

/-- The worker stores a response when no earlier give waits to be taken and no call is on its way
to the record. -/
def StoresUnread (s : UartComm) : WorkerPoint → Prop
  | .storing _ responseReceived _ => responseReceived = true →
      s.atResponseSem = none ∧ ∀ c ∈ s.calls, c.point ≠ .taken ∧ c.point ≠ .leaving
  | _ => True

instance (s : UartComm) : (w : WorkerPoint) → Decidable (s.StoresUnread w)
  | .storing _ responseReceived _ => inferInstanceAs (Decidable (responseReceived = true →
      s.atResponseSem = none ∧ ∀ c ∈ s.calls, c.point ≠ .taken ∧ c.point ≠ .leaving))
  | .idle | .received _ | .waiting _ _ _ | .reading _ _ _ | .giving _ => .isTrue trivial

/-- A call takes the give that was made for it, and the worker leaves the record alone until that
call has returned. -/
def Undisturbed (answer : Nat → Text) (s : UartComm) : UartOp → Prop
  | .take i => s.atResponseSem = none ∨ s.atResponseSem = some i
  | .write whole => s.ClearsUnread whole s.worker
  | .read data => ReadsAnswer answer data s.worker
  | .store => s.StoresUnread s.worker
  | _ => True

instance (answer : Nat → Text) (s : UartComm) :
    (op : UartOp) → Decidable (s.Undisturbed answer op)
  | .take i => inferInstanceAs (Decidable (s.atResponseSem = none ∨ s.atResponseSem = some i))
  | .write whole => inferInstanceAs (Decidable (s.ClearsUnread whole s.worker))
  | .read data => inferInstanceAs (Decidable (ReadsAnswer answer data s.worker))
  | .store => inferInstanceAs (Decidable (s.StoresUnread s.worker))
  | .tick _ | .call _ _ | .send _ | .sendTimeout _ | .waitTimeout _ | .check _ | .ret _ | .receive
  | .loop | .give => .isTrue trivial

/-- The record, if it is valid, is the answer to the command of call `i`. -/
def Answers (answer : Nat → Text) (s : UartComm) (i : Nat) : Prop :=
  s.globalAtResponse.isValid = true → s.globalAtResponse.response = answer i

def CallKnows (answer : Nat → Text) (s : UartComm) (i : Nat) : CallPoint → Prop
  | .taken => s.Answers answer i
  | .leaving => s.globalAtResponse.isValid = true ∧ s.Answers answer i
  | _ => True

def WorkerKnows (answer : Nat → Text) (s : UartComm) : WorkerPoint → Prop
  | .idle | .received _ => True
  | .waiting _ _ _ | .reading _ _ _ => s.globalAtResponse.isValid = false
  | .storing cmd responseReceived buffer => s.globalAtResponse.isValid = false ∧
      (responseReceived = true → buffer.length < uartCommBufSize - 1 ∧ buffer = answer cmd.call)
  | .giving cmd => s.Answers answer cmd.call

structure Inv (answer : Nat → Text) (s : UartComm) : Prop where
  sem : ∀ i, s.atResponseSem = some i → s.Answers answer i
  calls : ∀ i c, s.calls[i]? = some c → s.CallKnows answer i c.point
  worker : s.WorkerKnows answer s.worker

theorem inv_init (answer : Nat → Text) : init.Inv answer where
  sem := fun i h => by cases h
  calls := fun i c h => by cases h
  worker := trivial

section

variable {answer : Nat → Text} {s : UartComm}

private theorem Inv.move {i : Nat} {c : UartCall} {point : CallPoint} (h : s.Inv answer)
    (hpoint : s.CallKnows answer i point) : (s.move i c point).Inv answer where
  sem := h.sem
  calls := by
    intro j d hd
    by_cases hij : i = j
    · subst hij
      have hset : (s.move i c point).calls = s.calls.set i { c with point := point } := rfl
      rw [hset, List.getElem?_set_self'] at hd
      cases hold : s.calls[i]? with
      | none =>
        rw [hold] at hd
        cases hd
      | some old =>
        rw [hold] at hd
        obtain rfl : { c with point := point } = d := Option.some.inj hd
        exact hpoint
    · have hset : (s.move i c point).calls = s.calls.set i { c with point := point } := rfl
      rw [hset, List.getElem?_set_ne hij] at hd
      exact h.calls j d hd
  worker := h.worker

private theorem Inv.of_record {s' : UartComm} (h : s.Inv answer)
    (hrecord : s'.globalAtResponse = s.globalAtResponse) (hcalls : s'.calls = s.calls)
    (hsem : ∀ i, s'.atResponseSem = some i → s.Answers answer i)
    (hworker : s.WorkerKnows answer s'.worker) : s'.Inv answer := by
  have hanswers : ∀ i, s.Answers answer i → s'.Answers answer i := by
    intro i hi
    rw [Answers, hrecord]
    exact hi
  constructor
  · exact fun i hi => hanswers i (hsem i hi)
  · intro i c hc
    rw [hcalls] at hc
    have hold := h.calls i c hc
    cases hpoint : c.point with
    | sending | waiting | returned => trivial
    | taken =>
      rw [hpoint] at hold
      exact hanswers i hold
    | leaving =>
      rw [hpoint] at hold
      refine ⟨?_, hanswers i hold.2⟩
      rw [hrecord]
      exact hold.1
  · cases hpoint : s'.worker with
    | idle | received => trivial
    | waiting | reading =>
      rw [hpoint] at hworker
      show s'.globalAtResponse.isValid = false
      rw [hrecord]
      exact hworker
    | storing =>
      rw [hpoint] at hworker
      refine ⟨?_, hworker.2⟩
      rw [hrecord]
      exact hworker.1
    | giving =>
      rw [hpoint] at hworker
      exact hanswers _ hworker

private theorem Inv.begin (h : s.Inv answer) (command : Text) (timeoutMs : Nat) :
    (s.begin command timeoutMs).Inv answer where
  sem := h.sem
  calls := by
    intro i c hc
    have happend : (s.begin command timeoutMs).calls[i]? = (s.calls ++ [⟨command, timeoutMs,
      if 256 ≤ command.length then .returned .invalidArg else .sending s.now⟩])[i]? := rfl
    rw [happend] at hc
    rcases Nat.lt_or_ge i s.calls.length with hi | hi
    · rw [List.getElem?_append_left hi] at hc
      exact h.calls i c hc
    · rw [List.getElem?_append_right hi] at hc
      obtain rfl := List.mem_singleton.mp (List.mem_of_getElem? hc)
      show s.CallKnows answer i (if 256 ≤ command.length then _ else _)
      split
      · trivial
      · trivial
  worker := h.worker

private theorem Inv.send (h : s.Inv answer) (i : Nat) (c : UartCall) : (s.send i c).Inv answer := by
  unfold UartComm.send
  split
  · split
    · have hqueue : ({ s with globalAtCommandQueue := s.globalAtCommandQueue ++
          [⟨i, c.command, c.timeoutMs, 0 < c.timeoutMs⟩] } : UartComm).Inv answer :=
        h.of_record rfl rfl h.sem h.worker
      apply hqueue.move
      split
      · trivial
      · trivial
    · exact h
  · exact h

private theorem Inv.sendTimeout (pdMsToTicks : Nat → Nat) (h : s.Inv answer) (i : Nat)
    (c : UartCall) :
    (s.sendTimeout pdMsToTicks i c).Inv answer := by
  unfold UartComm.sendTimeout
  split
  · split
    · exact h.move trivial
    · exact h
  · exact h

/-- The give that is taken was made for the call that takes it. -/
theorem Inv.take (h : s.Inv answer) {i : Nat} (hown : s.atResponseSem = none ∨
    s.atResponseSem = some i) (c : UartCall) : (s.take i c).Inv answer := by
  unfold UartComm.take
  split
  · rename_i hsem
    have hanswers : s.Answers answer i := by
      rcases hown with hnone | hsome
      · rw [hnone] at hsem
        cases hsem
      · exact h.sem i hsome
    have htaken : ({ s with atResponseSem := none } : UartComm).Inv answer :=
      h.of_record rfl rfl (fun j hj => by cases hj) h.worker
    exact htaken.move hanswers
  · exact h

private theorem Inv.waitTimeout (pdMsToTicks : Nat → Nat) (h : s.Inv answer) (i : Nat)
    (c : UartCall) :
    (s.waitTimeout pdMsToTicks i c).Inv answer := by
  unfold UartComm.waitTimeout
  split
  · split
    · exact h.move trivial
    · exact h
  · exact h

private theorem Inv.check (h : s.Inv answer) {i : Nat} {c : UartCall} (hc : s.calls[i]? = some c) :
    (s.check i c).Inv answer := by
  unfold UartComm.check
  split
  · rename_i hpoint
    have hknows := h.calls i c hc
    rw [hpoint] at hknows
    apply h.move
    cases hvalid : s.globalAtResponse.isValid with
    | true => exact ⟨hvalid, hknows⟩
    | false => trivial
  · exact h

private theorem Inv.ret (h : s.Inv answer) (i : Nat) (c : UartCall) : (s.ret i c).Inv answer := by
  unfold UartComm.ret
  split
  · exact h.move trivial
  · exact h

private theorem Inv.receive (h : s.Inv answer) : s.receive.Inv answer := by
  unfold UartComm.receive
  split
  · exact h.of_record rfl rfl h.sem trivial
  · exact h

private theorem Inv.write (h : s.Inv answer) {whole : Bool} (hok : s.ClearsUnread whole s.worker) :
    (s.write whole).Inv answer := by
  unfold UartComm.write
  split
  · rename_i cmd hworker
    rw [hworker] at hok
    split
    · rename_i hneed
      rw [Bool.and_eq_true] at hneed
      have hleaving := hok hneed.1 hneed.2
      constructor
      · intro i _ hvalid
        cases hvalid
      · intro i c hc
        cases hpoint : c.point with
        | sending | waiting | returned => trivial
        | taken =>
          intro hvalid
          cases hvalid
        | leaving => exact absurd hpoint (hleaving c (List.mem_of_getElem? hc))
      · rfl
    · exact h.of_record rfl rfl h.sem trivial
  · exact h

private theorem Inv.loop (pdMsToTicks : Nat → Nat) (h : s.Inv answer) :
    (s.loop pdMsToTicks).Inv answer := by
  unfold UartComm.loop
  split
  · rename_i cmd start buffer hworker
    have hknows := h.worker
    rw [hworker] at hknows
    split
    · exact h.of_record rfl rfl h.sem hknows
    · exact h.of_record rfl rfl h.sem ⟨hknows, fun hreceived => by cases hreceived⟩
  · exact h

private theorem Inv.read (h : s.Inv answer) {data : Text} (hok : ReadsAnswer answer data s.worker) :
    (s.read data).Inv answer := by
  unfold UartComm.read
  split
  · rename_i cmd start buffer hworker
    have hknows := h.worker
    rw [hworker] at hknows hok
    split
    · rename_i hcode
      obtain ⟨hfits, hanswer⟩ := hok hcode
      have happend : appendResponse buffer data = buffer ++ data := by
        rw [appendResponse, if_pos hfits]
      have hstoring : s.WorkerKnows answer
          (.storing cmd true (appendResponse buffer data)) := by
        refine ⟨hknows, fun _ => ?_⟩
        rw [happend, List.length_append]
        exact ⟨hfits, hanswer⟩
      exact h.of_record rfl rfl h.sem hstoring
    · exact h.of_record rfl rfl h.sem hknows
  · exact h

private theorem Inv.store (h : s.Inv answer) (hok : s.StoresUnread s.worker) :
    s.store.Inv answer := by
  unfold UartComm.store
  split
  · rename_i cmd responseReceived buffer hworker
    have hknows := h.worker
    rw [hworker] at hknows hok
    obtain ⟨hinvalid, hbuffer⟩ := hknows
    cases responseReceived with
    | true =>
      obtain ⟨hsem, hcalls⟩ := hok rfl
      obtain ⟨hshort, hanswer⟩ := hbuffer rfl
      have htake : buffer.take 1023 = buffer := List.take_of_length_le (Nat.le_of_lt hshort)
      constructor
      · intro i hi
        have hnone : some i = none := hi.symm.trans hsem
        cases hnone
      · intro i c hc
        obtain ⟨htaken, hleaving⟩ := hcalls c (List.mem_of_getElem? hc)
        cases hpoint : c.point with
        | sending | waiting | returned => trivial
        | taken => exact absurd hpoint htaken
        | leaving => exact absurd hpoint hleaving
      · intro _
        exact htake.trans hanswer
    | false =>
      constructor
      · intro i _ hvalid
        cases hvalid
      · intro i c hc
        have hold := h.calls i c hc
        cases hpoint : c.point with
        | sending | waiting | returned => trivial
        | taken =>
          intro hvalid
          cases hvalid
        | leaving =>
          rw [hpoint] at hold
          have hvalid := hold.1
          rw [hinvalid] at hvalid
          cases hvalid
      · intro hvalid
        cases hvalid
  · exact h

private theorem Inv.give (h : s.Inv answer) : s.give.Inv answer := by
  unfold UartComm.give
  split
  · rename_i cmd hworker
    have hknows := h.worker
    rw [hworker] at hknows
    refine h.of_record rfl rfl ?_ trivial
    intro i hi
    cases hsem : s.atResponseSem with
    | none =>
      have hcall : some cmd.call = some i := by
        simpa [hsem] using hi
      cases hcall
      exact hknows
    | some j =>
      have hkept : some j = some i := by
        simpa [hsem] using hi
      cases hkept
      exact h.sem _ hsem
  · exact h

private theorem Inv.atCall (h : s.Inv answer) {i : Nat} {f : UartComm → Nat → UartCall → UartComm}
    (hf : ∀ c, s.calls[i]? = some c → (f s i c).Inv answer) : (s.atCall i f).Inv answer := by
  unfold UartComm.atCall
  split
  · rename_i c hc
    exact hf c hc
  · exact h

private theorem Inv.step (pdMsToTicks : Nat → Nat) (h : s.Inv answer) {op : UartOp}
    (hok : s.Undisturbed answer op) : (s.step pdMsToTicks op).Inv answer := by
  cases op with
  | tick elapsed => exact h.of_record rfl rfl h.sem h.worker
  | call command timeoutMs => exact h.begin command timeoutMs
  | send i => exact h.atCall fun c _ => h.send i c
  | sendTimeout i => exact h.atCall fun c _ => h.sendTimeout pdMsToTicks i c
  | take i => exact h.atCall fun c _ => h.take hok c
  | waitTimeout i => exact h.atCall fun c _ => h.waitTimeout pdMsToTicks i c
  | check i => exact h.atCall fun c hc => h.check hc
  | ret i => exact h.atCall fun c _ => h.ret i c
  | receive => exact h.receive
  | write whole => exact h.write hok
  | loop => exact h.loop pdMsToTicks
  | read data => exact h.read hok
  | store => exact h.store hok
  | give => exact h.give

private theorem Inv.ownAnswer (h : s.Inv answer) (op : UartOp) : s.OwnAnswer answer op := by
  cases op with
  | ret i =>
    intro c hc hpoint
    have hknows := h.calls i c hc
    rw [hpoint] at hknows
    exact ⟨hknows.1, hknows.2 hknows.1⟩
  | _ => trivial

/-- In every undisturbed run a call that returns `ESP_OK` leaves with its own answer. -/
theorem ownAnswer_run (pdMsToTicks : Nat → Nat) (answer : Nat → Text) (ops : List UartOp)
    (hok : AllSteps (UartComm.step pdMsToTicks) (Undisturbed answer) init ops) :
    AllSteps (UartComm.step pdMsToTicks) (OwnAnswer answer) init ops := by
  apply hok.strengthen (I := Inv answer)
  · intro s op h hop
    exact ⟨h.ownAnswer op, h.step pdMsToTicks hop⟩
  · exact inv_init answer

end

def csqAnswer : Text := "+CSQ: 20,99".toList ++ crlf ++ resultOk ++ crlf

def cgsnAnswer : Text := "860425".toList ++ crlf ++ resultOk ++ crlf

def twoAnswers : Nat → Text
  | 0 => csqAnswer
  | _ => cgsnAnswer

/-- Two calls that overlap: the second is queued while the answer to the first, which comes in two
pieces, is under way, and waits for the same semaphore. -/
def served : List UartOp :=
  [.call "AT+CSQ".toList 1000, .send 0, .receive, .write true, .loop, .read "+CSQ: 20,99".toList,
    .call "AT+CGSN".toList 1000, .send 1, .loop, .read (crlf ++ resultOk ++ crlf), .store, .give,
    .take 0, .check 0, .ret 0, .receive, .write true, .loop, .read cgsnAnswer, .store, .give,
    .take 1, .check 1, .ret 1]

theorem ownAnswer_run_served :
    (run (UartComm.step id) init served).calls.map UartCall.point =
        [.returned .ok, .returned .ok] ∧
      AllSteps (UartComm.step id) (OwnAnswer twoAnswers) init served :=
  ⟨by decide +kernel, ownAnswer_run id twoAnswers served (by decide +kernel)⟩

/-- The first command takes long, and the second call gives up while its command is queued. The
give made for it later is there when the third call comes. -/
def staleGive : List UartOp :=
  [.call "AT+COPS=?".toList 10000, .send 0, .receive, .write true, .loop,
    .call "AT+CSQ".toList 1000, .send 1, .tick 2000, .waitTimeout 1,
    .read (resultOk ++ crlf), .store, .give, .take 0, .check 0, .ret 0,
    .receive, .write true, .loop, .read csqAnswer, .store, .give,
    .call "AT+CGSN".toList 1000, .send 2, .take 2, .check 2]

def staleAnswer : Nat → Text
  | 0 => resultOk ++ crlf
  | 1 => csqAnswer
  | _ => cgsnAnswer

/-- The third call returns with the answer to the second. -/
theorem staleGive_foreignAnswer :
    (run (UartComm.step id) init (staleGive ++ [.ret 2])).calls[2]? =
        some ⟨"AT+CGSN".toList, 1000, .returned .ok⟩ ∧
      (run (UartComm.step id) init staleGive).globalAtResponse.response = csqAnswer ∧
      ¬ AllSteps (UartComm.step id) (OwnAnswer staleAnswer) init (staleGive ++ [.ret 2]) := by
  have hresponse : (run (UartComm.step id) init staleGive).globalAtResponse.response =
      csqAnswer := by decide
  have hcall : (run (UartComm.step id) init staleGive).calls[2]? =
      some ⟨"AT+CGSN".toList, 1000, .leaving⟩ := by decide
  refine ⟨by decide, hresponse, ?_⟩
  intro h
  have hlast := ((allSteps_append _ init staleGive [.ret 2]).mp h).2.1
  have hown := (hlast _ hcall rfl).2
  rw [hresponse] at hown
  exact absurd hown (by decide)

end UartComm

end Leyu
