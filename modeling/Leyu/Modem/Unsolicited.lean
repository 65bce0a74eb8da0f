import Leyu.Call.ButtonHandler
import Leyu.Framework.Scan

/-!
# Unsolicited responses

What the firmware makes of a text of the modem that no command waits for. The chain of
`strstr` tests decides on one `Notification`, which is then carried out on the phone.
-/

namespace Leyu

open Framework

inductive Notification
  | callEnded
  | outgoing
  | incoming (number : Text)
  deriving DecidableEq, Repr

/-- The part of the format from the status on, with the quoted number. It has no width: a
number of more than 19 characters is written past `number[20]`, and what was written is handed
on. -/
def clccNumber (t : Text) : Option Text := do
  let t ← lit ',' t
  let (_, t) ← scanInt t
  let t ← lit ',' t
  let (_, t) ← scanInt t
  let t ← lit ',' t
  let (_, t) ← scanInt t
  let t ← lit ',' t
  let t ← lit '"' t
  scanUntil '"' t

/-- `sscanf(response, "+CLCC: %*d,%d,%*d,%*d,%*d,\"%[^\"]\",", &dir, number) >= 1`: the format
is matched from the first character of the response. -/
def clccScan (response : Text) : Option (Int × Text) := do
  let t ← lits clccPrefix response
  let (_, t) ← scanInt (skipSpace t)
  let t ← lit ',' t
  let (dir, t) ← scanInt t
  some (dir, (clccNumber t).getD [])

def atHandleUnsolicitedResponse (w : World) (response : Text) (p : Phone) : Bool × Phone :=
  if Occurs noCarrier response then (true, callManagerHandleCallEnded w (hangUpCleanup p))
  else if Occurs ring response then (true, p)
  else if Occurs clccPrefix response then
    match clccScan response with
    | some (dir, number) =>
        if dir = 0 then (true, buttonHandlerSetCallState true p)
        else (true, (callManagerHandleIncomingCall w (.ofText number) p).2)
    | none => (true, p)
  else (false, p)

/-- The call manager refuses an empty number, so such an entry notifies of nothing. -/
def clccNotification (response : Text) : Option Notification := do
  let (dir, number) ← clccScan response
  if dir = 0 then some .outgoing
  else if (CString.ofText number).text = [] then none
  else some (.incoming number)

def notification (response : Text) : Option Notification :=
  if Occurs noCarrier response then some .callEnded
  else if Occurs ring response then none
  else if Occurs clccPrefix response then clccNotification response
  else none

def Notification.apply (w : World) : Notification → Phone → Phone
  | callEnded, p => callManagerHandleCallEnded w (hangUpCleanup p)
  | outgoing, p => buttonHandlerSetCallState true p
  | incoming number, p => (callManagerHandleIncomingCall w (.ofText number) p).2

theorem atHandleUnsolicitedResponse_phone (w : World) (response : Text) (p : Phone) :
    (atHandleUnsolicitedResponse w response p).2 =
      ((notification response).elim p fun n => n.apply w p) := by
  unfold atHandleUnsolicitedResponse notification
  split
  · rfl
  · split
    · rfl
    · split
      · unfold clccNotification
        cases clccScan response with
        | none => rfl
        | some entry =>
          by_cases hd : entry.1 = 0
          · simp [hd, Notification.apply]
          · by_cases hn : (CString.ofText entry.2).text = []
            · simp [hd, hn, callManagerHandleIncomingCall]
            · simp [hd, hn, Notification.apply]
      · rfl

/-- What the unsolicited handler works on: the outside world at that moment, the phone, and what
the phone has taken up. -/
structure Board where
  world : World
  phone : Phone
  takenUp : List Notification

namespace Board

def endCall (b : Board) : Board :=
  { b with
    phone := callManagerHandleCallEnded b.world (hangUpCleanup b.phone)
    takenUp := b.takenUp ++ [.callEnded] }

def markOutgoing (b : Board) : Board :=
  { b with
    phone := buttonHandlerSetCallState true b.phone
    takenUp := b.takenUp ++ [.outgoing] }

/-- The call manager takes up a call with a number while no other one is there. -/
def incomingCall (number : Text) (b : Board) : Board :=
  let takes := (CString.ofText number).text ≠ [] ∧ b.phone.state = .idle
  { b with
    phone := (callManagerHandleIncomingCall b.world (.ofText number) b.phone).2
    takenUp := b.takenUp ++ if takes then [.incoming number] else [] }

end Board

/-- `at_handle_unsolicited_response` on the board. -/
def boardHandler (response : Text) (b : Board) : Bool × Board :=
  if Occurs noCarrier response then (true, b.endCall)
  else if Occurs ring response then (true, b)
  else if Occurs clccPrefix response then
    match clccScan response with
    | some (dir, number) => (true, if dir = 0 then b.markOutgoing else b.incomingCall number)
    | none => (true, b)
  else (false, b)

theorem boardHandler_handles (response : Text) (b : Board) :
    (boardHandler response b).1 = (atHandleUnsolicitedResponse b.world response b.phone).1 ∧
      (boardHandler response b).2.phone =
        (atHandleUnsolicitedResponse b.world response b.phone).2 := by
  unfold boardHandler atHandleUnsolicitedResponse
  split
  · exact ⟨rfl, rfl⟩
  · split
    · exact ⟨rfl, rfl⟩
    · split
      · cases clccScan response with
        | none => exact ⟨rfl, rfl⟩
        | some entry =>
          by_cases hd : entry.1 = 0 <;> simp [hd, Board.markOutgoing, Board.incomingCall]
      · exact ⟨rfl, rfl⟩

def Notification.run (n : Notification) (b : Board) : Board :=
  match n with
  | callEnded => b.endCall
  | outgoing => b.markOutgoing
  | incoming number => b.incomingCall number

theorem Notification.takenUp_run (n : Notification) (b : Board) :
    (n.run b).takenUp = b.takenUp ++ [n] ∨ (n.run b).takenUp = b.takenUp := by
  cases n with
  | callEnded => exact .inl rfl
  | outgoing => exact .inl rfl
  | incoming number =>
    simp only [Notification.run, Board.incomingCall]
    split
    · exact .inl rfl
    · exact .inr (List.append_nil _)

theorem boardHandler_run (response : Text) (b : Board) :
    (boardHandler response b).2 = (notification response).elim b fun n => n.run b := by
  unfold boardHandler notification
  split
  · rfl
  · split
    · rfl
    · split
      · unfold clccNotification
        cases clccScan response with
        | none => rfl
        | some entry =>
          by_cases hd : entry.1 = 0
          · simp [hd, Notification.run]
          · by_cases hn : (CString.ofText entry.2).text = []
            · simp [hd, hn, Board.incomingCall, callManagerHandleIncomingCall]
            · simp [hd, hn, Notification.run]
      · rfl

private theorem notification_incoming {response number : Text}
    (h : notification response = some (.incoming number)) : (CString.ofText number).text ≠ [] := by
  unfold notification clccNotification at h
  split at h
  · simp at h
  · split at h
    · simp at h
    · split at h
      · cases hscan : clccScan response with
        | none => simp [hscan] at h
        | some entry =>
          by_cases hd : entry.1 = 0
          · simp [hscan, hd] at h
          · by_cases hn : (CString.ofText entry.2).text = []
            · simp [hscan, hd, hn] at h
            · have heq : entry.2 = number := by simpa [hscan, hd, hn] using h
              rwa [← heq]
      · simp at h

/-- An idle phone that blocks every caller. -/
def Board.Blocks (b : Board) : Prop :=
  b.phone.state = .idle ∧ ∀ number, b.phone.rules.intercepts number = true

/-- Such a phone takes up everything it is notified of, and stays as it is. -/
theorem Board.Blocks.run {b : Board} (hb : b.Blocks) {response : Text} {n : Notification}
    (h : notification response = some n) :
    (n.run b).Blocks ∧ (n.run b).takenUp = b.takenUp ++ [n] := by
  obtain ⟨hidle, hblocked⟩ := hb
  cases n with
  | callEnded =>
    have hended : callManagerHandleCallEnded b.world (hangUpCleanup b.phone) =
        hangUpCleanup b.phone := by
      simp [callManagerHandleCallEnded, hangUpCleanup, Phone.setGpio47, Phone.setGpio48, hidle]
    refine ⟨?_, rfl⟩
    simp only [Notification.run, Board.endCall, Board.Blocks, hended]
    exact ⟨hidle, hblocked⟩
  | outgoing => exact ⟨⟨hidle, hblocked⟩, rfl⟩
  | incoming number =>
    have hnumber := notification_incoming h
    have htaken : (Notification.run (.incoming number) b).takenUp =
        b.takenUp ++ [.incoming number] := by
      simp [Notification.run, Board.incomingCall, hnumber, hidle]
    refine ⟨?_, htaken⟩
    rcases callManagerHandleIncomingCall_cases b.world (.ofText number) b.phone with
      ⟨hrefused, -⟩ | ⟨-, -, -, hstored⟩ | ⟨-, -, hpasses, -⟩
    · rcases hrefused with h | h
      · exact absurd h hnumber
      · exact absurd hidle h
    · simp only [Notification.run, Board.incomingCall, Board.Blocks, hstored]
      exact ⟨hidle, hblocked⟩
    · rw [hblocked] at hpasses
      exact absurd hpasses (by decide)

private theorem boardHandler_foldl (texts : List Text) (b : Board) :
    texts.foldl (fun b t => (boardHandler t b).2) b =
      (texts.filterMap notification).foldl (fun b n => n.run b) b := by
  induction texts generalizing b with
  | nil => rfl
  | cons t texts ih =>
    rw [List.foldl_cons, ih, boardHandler_run]
    cases hn : notification t <;> simp [hn]

private theorem Board.Blocks.takenUp_foldl (texts : List Text) {b : Board} (hb : b.Blocks) :
    (texts.foldl (fun b t => (boardHandler t b).2) b).takenUp =
      b.takenUp ++ texts.filterMap notification := by
  induction texts generalizing b with
  | nil => simp
  | cons t texts ih =>
    rw [List.foldl_cons, boardHandler_run]
    cases hn : notification t with
    | none => simpa [hn] using ih hb
    | some n =>
      obtain ⟨hblocks, htaken⟩ := hb.run hn
      have htail := ih hblocks
      rw [htaken] at htail
      simpa [hn] using htail

private theorem Board.blocks_init (w : World) : Board.Blocks ⟨w, Phone.init, []⟩ := by
  refine ⟨rfl, fun number => ?_⟩
  rw [RuleTable.intercepts_iff, callManagerCheckIntercept]
  split <;> rfl

/-- Two lists of texts do the same to every phone exactly when they hold the same
notifications. -/
theorem boardHandler_foldl_eq_iff (texts texts' : List Text) :
    (∀ w p, texts.foldl (fun b t => (boardHandler t b).2) ⟨w, p, []⟩ =
        texts'.foldl (fun b t => (boardHandler t b).2) ⟨w, p, []⟩) ↔
      texts.filterMap notification = texts'.filterMap notification := by
  constructor
  · intro h
    have hb := Board.blocks_init .allOk
    have htaken := congrArg Board.takenUp (h .allOk Phone.init)
    rw [hb.takenUp_foldl, hb.takenUp_foldl] at htaken
    exact List.append_cancel_left htaken
  · intro h w p
    rw [boardHandler_foldl, boardHandler_foldl, h]

end Leyu
