import Leyu.Framework.Runs
import Leyu.Modem.Batches
import Leyu.Modem.CustomCommand

/-!
# The modem link

The phone, the port and the command in flight, step by step: any pieces of the modem's stream
arrive, commands are started and finish, keys are pressed and the timer expires in any order. A
remote hang-up is carried out once the stream has come to a line end, unless a command's line
handler takes its line, the buffer has no room, or the line is not behind the first line end of
what the buffer holds.
-/

namespace Leyu

open Framework

/-- Who waits for the command in flight: a caller that only wants the text (heartbeat, remote
commands, the keys), or the call manager. -/
inductive Client
  | query
  | answer
  | endCall
  deriving DecidableEq

/-- The port with the board its unsolicited handler works on, the command in flight, and two
records of the modem's stream: its unfinished line, and whether a remote hang-up has come since
the stream was last at a line end. -/
structure Link where
  port : Port CommonString Board
  client : Option Client
  line : Text
  hangUp : Bool

abbrev LineHandler := Text → CommonString → Bool × CommonString

/-- The lines, with their ends, that a piece of the stream completes behind an unfinished one, and
the line it leaves unfinished. -/
def completed : Text → Text → List Text × Text
  | line, [] => ([], line)
  | line, c :: piece =>
      if crlf <:+ line ++ [c] then
        let r := completed [] piece
        ((line ++ [c]) :: r.1, r.2)
      else completed (line ++ [c]) piece

inductive LinkStep
  | receive (w : World) (piece : Text)
  | startQuery (command : Text) (handler : LineHandler)
  | startAnswer
  | startEndCall
  | finish (w : World) (sendOk : Bool)
  | dialPrepare
  | hangUpCleanup
  | timerExpiry
  | processEvents (w : World)

namespace Link

def phone (s : Link) : Phone := s.port.user.phone

def takenUp (s : Link) : List Notification := s.port.user.takenUp

def mapPhone (f : Phone → Phone) (s : Link) : Link :=
  { s with port := { s.port with user := { s.port.user with phone := f s.port.user.phone } } }

def boot (config : AtConfig) (w : World) (p : Phone) : Link :=
  ⟨idlePort config ⟨0, []⟩ w p, none, [], false⟩

/-- A command is sent when no other one is in flight; its caller waits otherwise. -/
def startCommand (c : Client) (command : Text) (handler : LineHandler) (s : Link) : Link :=
  if s.client.isSome then s
  else
    match sendCommandGuard command s.port.parser with
    | .ok =>
        mapPhone (·.emit (.atCommand command))
          { s with
            port := { s.port with parser := sendCommandStart handler ⟨1024, []⟩ s.port.parser }
            client := some c }
    | _ => { s with port := { s.port with parser := sendCommandEnd s.port.parser } }

def clientFinish (c : Client) (w : World) (r : EspErr) (p : Phone) : Phone :=
  match c with
  | .query => p
  | .answer => (answerFinish w r p).2
  | .endCall => (endFinish w r p).2

def finishCommand (w : World) (sendOk : Bool) (s : Link) : Link :=
  match s.client with
  | none => s
  | some c =>
      let parser := s.port.parser
      mapPhone (clientFinish c w (sendCommandResult sendOk parser))
        { s with
          port := { s.port with parser := sendCommandEnd { parser with rspBit := false } }
          client := none }

/-- A remote hang-up waits for the piece: it has come before, or the piece completes its line
during a call. -/
def Due (s : Link) (piece : Text) : Prop :=
  s.hangUp = true ∨ ((s.phone.state = .ringing ∨ s.phone.state = .inCall) ∧
    ∃ l ∈ (completed s.line piece).1, Occurs noCarrier l)

instance (s : Link) (piece : Text) : Decidable (s.Due piece) := by unfold Due; infer_instance

def step (s : Link) : LinkStep → Link
  | .receive w piece =>
      let rest := (completed s.line piece).2
      { s with
        port := { s.port with user := { s.port.user with world := w } }.receive piece
        line := rest
        hangUp := decide (s.Due piece ∧ rest ≠ []) }
  | .startQuery command handler => s.startCommand .query command handler
  | .startAnswer =>
      if s.phone.state ≠ .ringing then s
      else (s.mapPhone stopRingtoneTask).startCommand .answer ata handleString
  | .startEndCall =>
      if s.phone.state ≠ .ringing ∧ s.phone.state ≠ .inCall then s
      else (s.mapPhone stopRingtoneTask).startCommand .endCall ath handleString
  | .finish w sendOk => s.finishCommand w sendOk
  | .dialPrepare => s.mapPhone Leyu.dialPrepare
  | .hangUpCleanup => s.mapPhone Leyu.hangUpCleanup
  | .timerExpiry => s.mapPhone Leyu.timerExpiry
  | .processEvents w => s.mapPhone (callManagerProcessEvents w)

/-- The parser runs, has the phone's unsolicited handler, a line handler is installed exactly
while a command is in flight, and no hang-up waits at a line end. -/
structure Inv (s : Link) : Prop where
  started : s.port.parser.stoppedBit = false
  handler : s.port.parser.unsolicitedHandler = some boardHandler
  inFlight : s.port.parser.handleLine.isSome = s.client.isSome
  settled : s.line = [] → s.hangUp = false

/-- What the parser's buffer would hold with the piece. -/
def pending (s : Link) (piece : Text) : Text := s.port.parser.received ++ (s.port.ring ++ piece)

end Link

/-- A remote hang-up is carried out by the piece that brings the stream to a line end: the
clean-up and the end of the call. -/
def CarriesOut (s : Link) : LinkStep → Prop
  | .receive w piece => s.Due piece → (completed s.line piece).2 = [] →
      (s.step (.receive w piece)).takenUp = s.takenUp ++ [.callEnded] ∧
        (s.step (.receive w piece)).phone =
          callManagerHandleCallEnded w (hangUpCleanup s.phone)
  | _ => True

/-- A remote hang-up comes to a line end with no command in flight, with room for it in the
buffer, and behind the first line end there. -/
def Unobstructed (s : Link) : LinkStep → Prop
  | .receive _ piece => s.Due piece → (completed s.line piece).2 = [] →
      s.client = none ∧ (s.pending piece).length < s.port.parser.config.recvBufferLength ∧
        EndsLine (s.pending piece) ∧ Occurs noCarrier (skipFirstLine (s.pending piece))
  | _ => True

namespace Link

variable {s : Link}

private theorem receive_long (h : s.Inv) (w : World) {piece : Text}
    (hlong : s.port.parser.config.recvBufferLength ≤ (s.pending piece).length) :
    ∃ ring, (s.step (.receive w piece)).port =
      ⟨ring, s.port.parser, { s.port.user with world := w }⟩ := by
  obtain ⟨ring, hring⟩ := Port.receive_long
    (x := { s.port with user := { s.port.user with world := w } }) h.started hlong
  exact ⟨ring, by simp only [step, hring]⟩

private theorem receive_fits (w : World) {piece : Text} (hne : s.port.ring ++ piece ≠ [])
    (hfit : (s.pending piece).length < s.port.parser.config.recvBufferLength) :
    (s.step (.receive w piece)).port =
      ⟨[], (modemAtWriteResponseDone (s.port.ring ++ piece) s.port.parser
          { s.port.user with world := w }).2.1,
        (modemAtWriteResponseDone (s.port.ring ++ piece) s.port.parser
          { s.port.user with world := w }).2.2⟩ := by
  simp only [step, Port.receive_fits
    (x := { s.port with user := { s.port.user with world := w } }) hne hfit]

/-- A piece arrives: it is too long for the buffer, or is kept until the buffer ends a line, or
goes to the line handler of the command in flight, or to the unsolicited handler. -/
theorem receive_cases (h : s.Inv) (w : World) {piece : Text} (hne : s.port.ring ++ piece ≠ []) :
    (s.port.parser.config.recvBufferLength ≤ (s.pending piece).length ∧
      (s.step (.receive w piece)).port.user = { s.port.user with world := w }) ∨
    (¬ EndsLine (s.pending piece) ∧
      (s.step (.receive w piece)).port.user = { s.port.user with world := w }) ∨
    (s.client.isSome = true ∧
      (s.step (.receive w piece)).port.user = { s.port.user with world := w }) ∨
    ((s.pending piece).length < s.port.parser.config.recvBufferLength ∧ s.client = none ∧
      EndsLine (s.pending piece) ∧
      (s.step (.receive w piece)).port.user =
        (boardHandler (skipFirstLine (s.pending piece)) { s.port.user with world := w }).2) := by
  have hinFlight := h.inFlight
  by_cases hfit : (s.pending piece).length < s.port.parser.config.recvBufferLength
  · have hroom : ¬ s.port.parser.config.recvBufferLength ≤
        (s.port.ring ++ piece).length + s.port.parser.received.length := by
      rw [pending, List.length_append] at hfit
      omega
    rw [receive_fits w hne hfit]
    cases hl : s.port.parser.handleLine with
    | none =>
      rw [hl] at hinFlight
      have hclient : s.client = none := Option.isSome_eq_false_iff.mp hinFlight.symm
        |> Option.isNone_iff_eq_none.mp
      rw [modemAtWriteResponseDone_unsolicited h.started hl h.handler, if_neg hroom,
        ← Link.pending]
      by_cases hend : EndsLine (s.pending piece)
      · rw [if_pos hend]
        exact .inr (.inr (.inr ⟨hfit, hclient, hend, rfl⟩))
      · rw [if_neg hend]
        exact .inr (.inl ⟨hend, rfl⟩)
    | some handler =>
      rw [hl] at hinFlight
      refine .inr (.inr (.inl ⟨hinFlight.symm, ?_⟩))
      rw [modemAtWriteResponseDone_handler h.started hl, if_neg hroom]
      split <;> rfl
  · have hlong := Nat.le_of_not_lt hfit
    obtain ⟨ring, hport⟩ := receive_long h w hlong
    exact .inl ⟨hlong, by rw [hport]⟩

/-- Receiving leaves the handlers of the parser alone. -/
private theorem receive_handlers (h : s.Inv) (w : World) (piece : Text) :
    let parser := (s.step (.receive w piece)).port.parser
    parser.stoppedBit = false ∧ parser.unsolicitedHandler = some boardHandler ∧
      parser.handleLine = s.port.parser.handleLine := by
  dsimp only
  by_cases hne : s.port.ring ++ piece = []
  · have hparser : (s.step (.receive w piece)).port.parser = s.port.parser := by
      simp [step, Port.receive, atRecvDataCb, hne]
    rw [hparser]
    exact ⟨h.started, h.handler, rfl⟩
  · by_cases hfit : (s.pending piece).length < s.port.parser.config.recvBufferLength
    · rw [receive_fits w hne hfit]
      exact modemAtWriteResponseDone_frame h.started h.handler _ _
    · obtain ⟨ring, hport⟩ := receive_long h w (Nat.le_of_not_lt hfit)
      rw [hport]
      exact ⟨h.started, h.handler, rfl⟩

private theorem Inv.receive (h : s.Inv) (w : World) (piece : Text) :
    (s.step (.receive w piece)).Inv := by
  obtain ⟨hrun, hhandler, hline⟩ := receive_handlers h w piece
  refine ⟨hrun, hhandler, ?_, ?_⟩
  · rw [hline]
    exact h.inFlight
  · intro hrest
    simp only [step] at hrest ⊢
    simp [hrest]

private theorem Inv.mapPhone (h : s.Inv) (f : Phone → Phone) : (s.mapPhone f).Inv :=
  ⟨h.started, h.handler, h.inFlight, h.settled⟩

private theorem Inv.startCommand (h : s.Inv) (c : Client) (command : Text) (handler : LineHandler) :
    (s.startCommand c command handler).Inv := by
  unfold Link.startCommand
  split
  · exact h
  · rename_i hclient
    split
    · exact ⟨h.started, h.handler, rfl, h.settled⟩
    · exact ⟨h.started, h.handler, by simpa [sendCommandEnd] using hclient, h.settled⟩

private theorem Inv.finishCommand (h : s.Inv) (w : World) (sendOk : Bool) :
    (s.finishCommand w sendOk).Inv := by
  unfold Link.finishCommand
  split
  · exact h
  · exact ⟨h.started, h.handler, rfl, h.settled⟩

private theorem Inv.step (h : s.Inv) (l : LinkStep) : (s.step l).Inv := by
  cases l with
  | receive w piece => exact h.receive w piece
  | startQuery command handler => exact h.startCommand .query command handler
  | startAnswer =>
    simp only [Link.step]
    split
    · exact h
    · exact (h.mapPhone _).startCommand .answer ata handleString
  | startEndCall =>
    simp only [Link.step]
    split
    · exact h
    · exact (h.mapPhone _).startCommand .endCall ath handleString
  | finish w sendOk => exact h.finishCommand w sendOk
  | dialPrepare => exact h.mapPhone _
  | hangUpCleanup => exact h.mapPhone _
  | timerExpiry => exact h.mapPhone _
  | processEvents w => exact h.mapPhone _

private theorem boot_inv (config : AtConfig) (w : World) (p : Phone) : (boot config w p).Inv :=
  ⟨rfl, rfl, rfl, fun _ => rfl⟩

end Link

private theorem boardHandler_endsCall {t : Text} {b : Board}
    (h : (boardHandler t b).2.takenUp = b.takenUp ++ [.callEnded]) : Occurs noCarrier t := by
  rw [boardHandler_run] at h
  cases hn : notification t with
  | none =>
    rw [hn] at h
    exact absurd h (by simp)
  | some n =>
    rw [hn] at h
    change (n.run b).takenUp = _ at h
    rcases n.takenUp_run b with hrun | hrun
    · rw [hrun, List.append_cancel_left_eq, List.cons.injEq] at h
      rw [h.1] at hn
      exact (notification_callEnded_iff t).mp hn
    · rw [hrun] at h
      exact absurd h (by simp)

private theorem carriesOut_iff {s : Link} (h : s.Inv) (l : LinkStep) :
    CarriesOut s l ↔ Unobstructed s l := by
  cases l with
  | receive w piece =>
    simp only [CarriesOut, Unobstructed]
    refine imp_congr_right fun hdue => imp_congr_right fun hrest => ?_
    have hlost : ∀ b : Board, b = { s.port.user with world := w } →
        b.takenUp ≠ s.takenUp ++ [.callEnded] := by
      intro b hb hlog
      rw [hb] at hlog
      exact absurd hlog (by simp [Link.takenUp])
    by_cases hne : s.port.ring ++ piece = []
    · -- Nothing arrives at a line end, where no hang-up waits.
      obtain ⟨-, rfl⟩ := List.append_eq_nil_iff.mp hne
      have hline : s.line = [] := hrest
      rcases hdue with hold | ⟨-, l, hl, -⟩
      · exact absurd hold (by simp [h.settled hline])
      · simp [completed] at hl
    · rcases Link.receive_cases h w hne with ⟨hlong, huser⟩ | ⟨hopen, huser⟩ |
          ⟨hclient, huser⟩ | ⟨hfit, hclient, hend, huser⟩
      · refine iff_of_false (fun hout => hlost _ huser hout.1) fun hfree => ?_
        exact absurd hfree.2.1 (Nat.not_lt.mpr hlong)
      · exact iff_of_false (fun hout => hlost _ huser hout.1) fun hfree => hopen hfree.2.2.1
      · refine iff_of_false (fun hout => hlost _ huser hout.1) fun hfree => ?_
        rw [hfree.1] at hclient
        exact absurd hclient (by decide)
      · by_cases hnc : Occurs noCarrier (skipFirstLine (s.pending piece))
        · refine iff_of_true ?_ ⟨hclient, hfit, hend, hnc⟩
          rw [Link.takenUp, Link.phone, huser, boardHandler_run,
            (notification_callEnded_iff _).mpr hnc]
          exact ⟨rfl, rfl⟩
        · refine iff_of_false (fun hout => hnc ?_) fun hfree => hnc hfree.2.2.2
          have hlog := hout.1
          rw [Link.takenUp, huser] at hlog
          exact boardHandler_endsCall hlog
  | _ => exact Iff.rfl

def hangUpDuringQuery : List LinkStep :=
  let w := World.allOk
  let line := fun t : Text => crlf ++ t ++ crlf
  [.receive w (line incomingEntry.text), .startAnswer, .receive w (line resultOk), .finish w true,
    .startQuery "AT+CSQ".toList handleString, .receive w (line noCarrier),
    .receive w (line resultOk), .finish w true]

end Leyu
