import Leyu.Platform

/-!
# The AT parser

The receive side of `modem_at_parser.c` and the sending of one command. `κ` is what the line
handler's context points to, `σ` the state the unsolicited handler works on. The modem sends
text: a NUL byte, behind which `strstr` does not look, is not received.
-/

namespace Leyu

open Framework

/-- `modem_at_config_t`, with the checks of `modem_at_parser_create`. -/
structure AtConfig where
  sendBufferLength : Nat
  recvBufferLength : Nat
  sendLarge : 32 < sendBufferLength
  recvLarge : 32 < recvBufferLength

/-- `atparser_t`. The received text is `recv_buffer` up to `received_length`; the context is what
`handle_line_ctx` points to. -/
structure AtParser (κ σ : Type) where
  config : AtConfig
  received : Text
  handleLine : Option (Text → κ → Bool × κ)
  handleLineCtx : κ
  unsolicitedHandler : Option (Text → σ → Bool × σ)
  processing : Bool
  rspBit : Bool
  stoppedBit : Bool

def atConfig : AtConfig := ⟨256, 256, by decide, by decide⟩

/-- The text in the buffer is worth parsing: `len > 4` and it ends with a line end. -/
def EndsLine (t : Text) : Prop := 4 < t.length ∧ crlf <:+ t

instance (t : Text) : Decidable (EndsLine t) := by unfold EndsLine; infer_instance

namespace AtParser

variable {κ σ : Type}

structure Ready (p : AtParser κ σ) : Prop where
  idle : p.processing = false
  started : p.stoppedBit = false
  noRsp : p.rspBit = false

end AtParser

section

variable {κ σ : Type}

/-- `modem_at_parser_create`; the context is set with the first command. -/
def modemAtParserCreate (config : AtConfig) (ctx : κ) : AtParser κ σ where
  config := config
  received := []
  handleLine := none
  handleLineCtx := ctx
  unsolicitedHandler := none
  processing := false
  rspBit := false
  stoppedBit := true

def modemAtStart (p : AtParser κ σ) : AtParser κ σ := { p with stoppedBit := false }

def modemAtRegisterUnsolicitedHandler (handler : Text → σ → Bool × σ) (p : AtParser κ σ) :
    AtParser κ σ := { p with unsolicitedHandler := some handler }

theorem modemAtStart_ready (config : AtConfig) (ctx : κ) :
    (modemAtStart (modemAtParserCreate config ctx : AtParser κ σ)).Ready := ⟨rfl, rfl, rfl⟩

/-- `modem_at_write_response_done`, for the text just written behind the received one;
`strstr(lines, "\r\n") + 2` skips its first line. -/
def modemAtWriteResponseDone (written : Text) (p : AtParser κ σ) (s : σ) :
    EspErr × AtParser κ σ × σ :=
  if p.stoppedBit then (.invalidState, p, s)
  else if p.config.recvBufferLength ≤ written.length + p.received.length then
    (.invalidSize, p, s)
  else
    let p := { p with received := p.received ++ written }
    if EndsLine p.received then
      -- The unsolicited handler is asked only when no command is in flight.
      match p.handleLine with
      | none =>
          let r := match p.unsolicitedHandler with
            | none => (false, s)
            | some handler => handler (skipFirstLine p.received) s
          (if r.1 then .ok else .invalidState, { p with received := [] }, r.2)
      | some handler =>
          let r := handler (skipFirstLine p.received) p.handleLineCtx
          (if r.1 then .ok else .fail,
            { p with handleLineCtx := r.2, rspBit := p.rspBit || r.1 }, s)
    else (.fail, p, s)

/-- `_at_recv_data_cb`: as much of the port's ring buffer as the parser's buffer has room for is
written into it; the rest stays in the ring. -/
def atRecvDataCb (ring : Text) (p : AtParser κ σ) (s : σ) : Text × AtParser κ σ × σ :=
  if ring = [] then (ring, p, s)
  else
    let length := min ring.length (p.config.recvBufferLength - p.received.length)
    (ring.drop length, (modemAtWriteResponseDone (ring.take length) p s).2)

/-- The port of the modem: what its ring buffer still holds, the parser, and what the unsolicited
handler works on. -/
structure Port (κ σ : Type) where
  ring : Text
  parser : AtParser κ σ
  user : σ

def Port.receive (x : Port κ σ) (chunk : Text) : Port κ σ :=
  let r := atRecvDataCb (x.ring ++ chunk) x.parser x.user
  ⟨r.1, r.2.1, r.2.2⟩

/-- The guards of `modem_at_send_command` before anything is sent. -/
def sendCommandGuard (command : Text) (p : AtParser κ σ) : EspErr :=
  if p.processing then .invalidState
  else if p.stoppedBit then .invalidState
  else if command.length < p.config.sendBufferLength - 3 then .ok
  else .invalidArg

def sendCommandStart (handler : Text → κ → Bool × κ) (ctx : κ) (p : AtParser κ σ) : AtParser κ σ :=
  { p with processing := true, handleLine := some handler, handleLineCtx := ctx, received := [] }

/-- The label `err` of `modem_at_send_command`, which every path runs through. -/
def sendCommandEnd (p : AtParser κ σ) : AtParser κ σ :=
  { p with processing := false, handleLine := none, received := [] }

/-- What can happen at the port while a command waits for its response. -/
inductive RxEvent
  | written (text : Text)
  | stop

def RxEvent.step (x : AtParser κ σ × σ) : RxEvent → AtParser κ σ × σ
  | .written text => (modemAtWriteResponseDone text x.1 x.2).2
  | .stop => ({ x.1 with stoppedBit := true }, x.2)

/-- `xEventGroupWaitBits`: events happen until one of the two bits is there or the time is up. -/
def waitBits : List RxEvent → AtParser κ σ × σ → AtParser κ σ × σ
  | [], x => x
  | e :: es, x => if x.1.rspBit || x.1.stoppedBit then x else waitBits es (e.step x)

/-- The result of `modem_at_send_command` from the bits after the wait. -/
def sendCommandResult (sendOk : Bool) (p : AtParser κ σ) : EspErr :=
  if !p.rspBit then .timeout
  else if p.stoppedBit then .notFinished
  else if sendOk then .ok else .fail

/-- `modem_at_send_command`; `sendOk` says whether `send_cmd` succeeds, `events` what happens
until the timeout. -/
def modemAtSendCommand (sendOk : Bool) (events : List RxEvent) (command : Text)
    (handler : Text → κ → Bool × κ) (ctx : κ) (p : AtParser κ σ) (s : σ) :
    EspErr × AtParser κ σ × σ :=
  match sendCommandGuard command p with
  | .ok =>
      let x := waitBits events (sendCommandStart handler ctx p, s)
      (sendCommandResult sendOk x.1, sendCommandEnd { x.1 with rspBit := false }, x.2)
  | e => (e, sendCommandEnd p, s)

end

/-- What the receive buffer of a given length holds after the texts: one that does not fit is
dropped whole. -/
def accumulate (length : Nat) : Text → List Text → Text
  | received, [] => received
  | received, t :: ts =>
      accumulate length
        (if length ≤ t.length + received.length then received else received ++ t) ts

/-- The received text ends a line, and what follows its first line is accepted. -/
def Finished (accept : Text → Prop) (received : Text) : Prop :=
  EndsLine received ∧ accept (skipFirstLine received)

/-- After some of the texts the buffer holds a finished response. -/
def Completes (length : Nat) (accept : Text → Prop) (received : Text) (texts : List Text) : Prop :=
  ∃ front, front <+: texts ∧ Finished accept (accumulate length received front)

private theorem completes_nil (length : Nat) (accept : Text → Prop) (received : Text) :
    Completes length accept received [] ↔ Finished accept received := by
  simp [Completes, accumulate]

private theorem completes_cons (length : Nat) (accept : Text → Prop) (received t : Text)
    (ts : List Text) :
    Completes length accept received (t :: ts) ↔ Finished accept received ∨
      Completes length accept
        (if length ≤ t.length + received.length then received else received ++ t) ts := by
  constructor
  · rintro ⟨front, hfront, hfin⟩
    cases front with
    | nil => exact .inl hfin
    | cons a front =>
      obtain ⟨rfl, hrest⟩ := List.cons_prefix_cons.mp hfront
      exact .inr ⟨front, hrest, hfin⟩
  · rintro (h | ⟨front, hfront, hfin⟩)
    · exact ⟨[], List.nil_prefix, h⟩
    · exact ⟨t :: front, List.cons_prefix_cons.mpr ⟨rfl, hfront⟩, hfin⟩

theorem accumulate_flatten {length : Nat} {received : Text} {texts : List Text}
    (h : received.length + texts.flatten.length < length) :
    accumulate length received texts = received ++ texts.flatten := by
  induction texts generalizing received with
  | nil => simp [accumulate]
  | cons t ts ih =>
    simp only [List.flatten_cons, List.length_append] at h
    have hfit : ¬ length ≤ t.length + received.length := by omega
    have hrest : (received ++ t).length + ts.flatten.length < length := by
      rw [List.length_append]
      omega
    rw [accumulate, if_neg hfit, ih hrest, List.flatten_cons, List.append_assoc]

section

variable {κ σ : Type}

/-- With a line handler installed, a text that fits is appended, and a line end asks the handler
about what follows the first line. -/
theorem modemAtWriteResponseDone_handler {handler : Text → κ → Bool × κ} {p : AtParser κ σ}
    (hrun : p.stoppedBit = false) (hline : p.handleLine = some handler) (t : Text) (s : σ) :
    (modemAtWriteResponseDone t p s).2 =
      if p.config.recvBufferLength ≤ t.length + p.received.length then (p, s)
      else if EndsLine (p.received ++ t) then
        let r := handler (skipFirstLine (p.received ++ t)) p.handleLineCtx
        ({ p with received := p.received ++ t, handleLineCtx := r.2,
                  rspBit := p.rspBit || r.1 }, s)
      else ({ p with received := p.received ++ t }, s) := by
  unfold modemAtWriteResponseDone
  simp only [hrun, hline, Bool.false_eq_true, if_false]
  split
  · rfl
  · split <;> rfl

/-- With no command in progress, a text that fits is appended, and a line end hands what follows
the first line to the unsolicited handler and empties the buffer. -/
theorem modemAtWriteResponseDone_unsolicited {handler : Text → σ → Bool × σ} {p : AtParser κ σ}
    (hrun : p.stoppedBit = false) (hidle : p.handleLine = none)
    (hhandler : p.unsolicitedHandler = some handler) (t : Text) (s : σ) :
    (modemAtWriteResponseDone t p s).2 =
      if p.config.recvBufferLength ≤ t.length + p.received.length then (p, s)
      else if EndsLine (p.received ++ t) then
        ({ p with received := [] }, (handler (skipFirstLine (p.received ++ t)) s).2)
      else ({ p with received := p.received ++ t }, s) := by
  unfold modemAtWriteResponseDone
  simp only [hrun, hidle, hhandler, Bool.false_eq_true, if_false]
  split
  · rfl
  · split <;> rfl

theorem modemAtWriteResponseDone_frame {handler : Text → σ → Bool × σ} {p : AtParser κ σ}
    (hrun : p.stoppedBit = false) (hhandler : p.unsolicitedHandler = some handler) (t : Text)
    (s : σ) :
    (modemAtWriteResponseDone t p s).2.1.stoppedBit = false ∧
      (modemAtWriteResponseDone t p s).2.1.unsolicitedHandler = some handler ∧
      (modemAtWriteResponseDone t p s).2.1.handleLine = p.handleLine := by
  cases hline : p.handleLine with
  | none =>
    rw [modemAtWriteResponseDone_unsolicited hrun hline hhandler]
    split
    · exact ⟨hrun, hhandler, hline⟩
    · split <;> exact ⟨hrun, hhandler, hline⟩
  | some lineHandler =>
    rw [modemAtWriteResponseDone_handler hrun hline]
    split
    · exact ⟨hrun, hhandler, hline⟩
    · split <;> exact ⟨hrun, hhandler, hline⟩

theorem Port.receive_fits {x : Port κ σ} {chunk : Text}
    (hne : x.ring ++ chunk ≠ [])
    (hfit : (x.parser.received ++ (x.ring ++ chunk)).length < x.parser.config.recvBufferLength) :
    x.receive chunk =
      ⟨[], (modemAtWriteResponseDone (x.ring ++ chunk) x.parser x.user).2.1,
        (modemAtWriteResponseDone (x.ring ++ chunk) x.parser x.user).2.2⟩ := by
  rw [List.length_append] at hfit
  have hmin : min (x.ring ++ chunk).length
      (x.parser.config.recvBufferLength - x.parser.received.length) =
        (x.ring ++ chunk).length := by omega
  simp only [Port.receive, atRecvDataCb, hne, if_false, hmin, List.take_length, List.drop_length]

theorem Port.receive_long {x : Port κ σ} {chunk : Text} (hrun : x.parser.stoppedBit = false)
    (hlong : x.parser.config.recvBufferLength ≤
      (x.parser.received ++ (x.ring ++ chunk)).length) :
    ∃ ring, x.receive chunk = { x with ring := ring } := by
  rw [List.length_append] at hlong
  have hfull : x.parser.config.recvBufferLength ≤
      ((x.ring ++ chunk).take (min (x.ring ++ chunk).length
        (x.parser.config.recvBufferLength - x.parser.received.length))).length +
        x.parser.received.length := by
    rw [List.length_take]
    omega
  by_cases hne : x.ring ++ chunk = []
  · exact ⟨[], by simp [Port.receive, atRecvDataCb, hne]⟩
  · refine ⟨(x.receive chunk).ring, ?_⟩
    simp only [Port.receive, atRecvDataCb, hne, if_false, modemAtWriteResponseDone, hrun,
      Bool.false_eq_true, hfull, if_true]

private theorem waitBits_written {handler : Text → κ → Bool × κ} {accept : Text → Prop}
    (haccept : ∀ t c, (handler t c).1 = true ↔ accept t) (texts : List Text) {p : AtParser κ σ}
    (s : σ) (hrun : p.stoppedBit = false) (hrsp : p.rspBit = false)
    (hline : p.handleLine = some handler) (hnot : ¬ Finished accept p.received) :
    ((waitBits (texts.map .written) (p, s)).1.rspBit = true ↔
        Completes p.config.recvBufferLength accept p.received texts) ∧
      (waitBits (texts.map .written) (p, s)).1.stoppedBit = false := by
  induction texts generalizing p s with
  | nil => simp [waitBits, completes_nil, hrsp, hrun, hnot]
  | cons t ts ih =>
    simp only [List.map_cons, waitBits, hrsp, hrun, Bool.or_false, Bool.false_eq_true, if_false,
      RxEvent.step, modemAtWriteResponseDone_handler hrun hline, completes_cons, hnot, false_or]
    by_cases hlong : p.config.recvBufferLength ≤ t.length + p.received.length
    · simp only [hlong, if_true]
      exact ih s hrun hrsp hline hnot
    · simp only [hlong, if_false]
      by_cases hend : EndsLine (p.received ++ t)
      · simp only [hend, if_true]
        cases hacc : (handler (skipFirstLine (p.received ++ t)) p.handleLineCtx).1 with
        | true =>
          have hfin : Finished accept (p.received ++ t) := ⟨hend, (haccept _ _).mp hacc⟩
          have hdone : Completes p.config.recvBufferLength accept (p.received ++ t) ts :=
            ⟨[], List.nil_prefix, hfin⟩
          cases ts with
          | nil => simp [waitBits, hdone]
          | cons u us => simp [waitBits, hdone]
        | false =>
          have hopen : ¬ Finished accept (p.received ++ t) := by
            rintro ⟨-, h⟩
            rw [(haccept _ _).mpr h] at hacc
            exact absurd hacc (by decide)
          exact ih s rfl rfl hline hopen
      · simp only [hend, if_false]
        exact ih s rfl rfl hline (fun h => hend h.1)

/-- A command sent to a ready parser, which then receives the texts, returns `ESP_OK` exactly
when it fits the send buffer, sending succeeds and the texts complete a response. -/
theorem modemAtSendCommand_ok_iff {handler : Text → κ → Bool × κ} {accept : Text → Prop}
    (haccept : ∀ t c, (handler t c).1 = true ↔ accept t) {p : AtParser κ σ} (hp : p.Ready)
    (sendOk : Bool) (texts : List Text) (command : Text) (ctx : κ) (s : σ) :
    (modemAtSendCommand sendOk (texts.map .written) command handler ctx p s).1 = .ok ↔
      command.length < p.config.sendBufferLength - 3 ∧ sendOk = true ∧
        Completes p.config.recvBufferLength accept [] texts := by
  have hguard : sendCommandGuard command p =
      if command.length < p.config.sendBufferLength - 3 then .ok else .invalidArg := by
    simp [sendCommandGuard, hp.idle, hp.started]
  have hempty : ¬ Finished accept [] := fun h => absurd h.1.1 (by simp)
  obtain ⟨hrsp, hrun⟩ := waitBits_written (p := sendCommandStart handler ctx p) haccept texts s
    hp.started hp.noRsp rfl hempty
  unfold modemAtSendCommand
  by_cases hlen : command.length < p.config.sendBufferLength - 3
  · rw [hguard, if_pos hlen]
    simp only [sendCommandResult, hrun, hlen, true_and, Bool.false_eq_true, if_false]
    rw [← show _ ↔ Completes p.config.recvBufferLength accept [] texts from hrsp]
    cases (waitBits (texts.map .written) (sendCommandStart handler ctx p, s)).1.rspBit <;>
      cases sendOk <;> simp
  · rw [hguard, if_neg hlen]
    simp [hlen]

end

end Leyu
