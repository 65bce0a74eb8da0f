import Leyu.Blufi.Session

/-!
# The key and the application

The receiver hears of a connection and of its packets at once, the application through its queue.
The application makes the context of the key at the begin of a connection, frees it at the end and
advertises again behind that, and a phone can only connect to a device that advertises. So the
order of the two tasks does not matter to a phone that has been given an answer.
-/

namespace Leyu

open Framework

variable {δ κ : Type}

/-- What of the queue of the application concerns the key. -/
inductive LinkEvent
  | bleConnect
  | bleDisconnect
  deriving DecidableEq, Repr

/-- The receiver and the application. `agreed` is the key of the last answer that the phone of this
connection has been given, `lost` counts the contexts that are overwritten without being freed. -/
structure SecureApp (δ κ : Type) where
  secure : SecureLink δ κ
  connected : Bool
  advertising : Bool
  pending : List LinkEvent
  agreed : Option κ
  lost : Nat

inductive SecureAppOp
  | connect
  | disconnect
  | receive (p : SecurePacket)
  | application (memory : Bool)

namespace SecureApp

variable (cJSONParse : Bytes → Option StringItems) (m : BlufiCrypto δ κ)

/-- `ESP_BLUFI_EVENT_INIT_FINISH` has been handled. -/
def init : SecureApp δ κ := ⟨.init, false, true, [], none, 0⟩

/-- The two branches of `example_event_callback`. -/
def exampleEventCallback (memory : Bool) (s : SecureApp δ κ) : LinkEvent → SecureApp δ κ
  | .bleConnect =>
      { s with
        advertising := false
        secure := s.secure.step cJSONParse m (.securityInit memory)
        lost := if s.secure.security.isSome then s.lost + 1 else s.lost }
  | .bleDisconnect =>
      { s with secure := s.secure.step cJSONParse m .securityDeinit, advertising := true }

/-- A phone connects to a device that advertises, which stops that, and packets come over a
connection. -/
def step (s : SecureApp δ κ) : SecureAppOp → SecureApp δ κ
  | .connect =>
      if s.advertising then
        { s with
          secure := s.secure.step cJSONParse m .connect
          connected := true
          advertising := false
          pending := s.pending ++ [.bleConnect]
          agreed := none }
      else s
  | .disconnect =>
      if s.connected then
        { s with
          secure := s.secure.step cJSONParse m .disconnect
          connected := false
          pending := s.pending ++ [.bleDisconnect]
          agreed := none }
      else s
  | .receive p =>
      if s.connected then
        let secure := s.secure.step cJSONParse m (.receive p)
        { s with
          secure := secure
          agreed := if secure.answers = s.secure.answers then s.agreed else secure.key }
      else s
  | .application memory =>
      match s.pending with
      | [] => s
      | event :: rest => exampleEventCallback cJSONParse m memory { s with pending := rest } event

inductive Phase (s : SecureApp δ κ) : Prop
  | free (hadv : s.advertising = true) (hconn : s.connected = false) (hpending : s.pending = [])
      (hclosed : s.secure.security = none)
  | begun (hadv : s.advertising = false) (hconn : s.connected = true)
      (hpending : s.pending = [.bleConnect]) (hclosed : s.secure.security = none)
  | served (hadv : s.advertising = false) (hconn : s.connected = true) (hpending : s.pending = [])
  | missed (hadv : s.advertising = false) (hconn : s.connected = false)
      (hpending : s.pending = [.bleConnect, .bleDisconnect]) (hclosed : s.secure.security = none)
  | ended (hadv : s.advertising = false) (hconn : s.connected = false)
      (hpending : s.pending = [.bleDisconnect]) (hagreed : s.agreed = none)

structure Inv (s : SecureApp δ κ) : Prop where
  inUse : ∀ k, s.agreed = some k → s.secure.key = some k
  kept : s.lost = 0
  phase : Phase s

variable {cJSONParse : Bytes → Option StringItems} {m : BlufiCrypto δ κ}

private theorem negotiate_closed {w : NegotiateWorld} {s : SecureLink δ κ}
    (hclosed : s.security = none) (datas : List Bytes) :
    (datas.foldl (SecureLink.negotiate m w) s).security = none := by
  induction datas generalizing s with
  | nil => exact hclosed
  | cons data datas ih =>
    apply ih
    rw [SecureLink.negotiate, hclosed]
    rcases data with _ | ⟨type, _ | ⟨b1, _ | ⟨b2, rest⟩⟩⟩ <;> rfl

private theorem receive_closed {s : SecureLink δ κ} (hclosed : s.security = none)
    (p : SecurePacket) :
    (s.receive cJSONParse m p).security = none := by
  rw [SecureLink.receive]
  apply negotiate_closed
  exact hclosed

private theorem agreed_closed {s : SecureApp δ κ} (h : s.Inv) (hclosed : s.secure.security = none) :
    s.agreed = none := by
  cases hagreed : s.agreed with
  | none => rfl
  | some k =>
    have hkey := h.inUse k hagreed
    rw [SecureLink.key, hclosed] at hkey
    cases hkey

private theorem Inv.connect {s : SecureApp δ κ} (h : s.Inv) :
    (s.step cJSONParse m .connect).Inv := by
  rw [step]
  split
  · next hadv =>
    cases h.phase with
    | free _ hconn hpending hclosed =>
      refine ⟨nofun, h.kept, .begun rfl rfl ?_ hclosed⟩
      rw [hpending]
      rfl
    | begun hnot => simp [hadv] at hnot
    | served hnot => simp [hadv] at hnot
    | missed hnot => simp [hadv] at hnot
    | ended hnot => simp [hadv] at hnot
  · exact h

private theorem Inv.disconnect {s : SecureApp δ κ} (h : s.Inv) :
    (s.step cJSONParse m .disconnect).Inv := by
  rw [step]
  split
  · next hconn =>
    cases h.phase with
    | free _ hnot => simp [hconn] at hnot
    | begun hadv _ hpending hclosed =>
      refine ⟨nofun, h.kept, .missed hadv rfl ?_ hclosed⟩
      rw [hpending]
      rfl
    | served hadv _ hpending =>
      refine ⟨nofun, h.kept, .ended hadv rfl ?_ rfl⟩
      rw [hpending]
      rfl
    | missed _ hnot => simp [hconn] at hnot
    | ended _ hnot => simp [hconn] at hnot
  · exact h

private theorem Inv.receive {s : SecureApp δ κ} (h : s.Inv) (p : SecurePacket) :
    (s.step cJSONParse m (.receive p)).Inv := by
  rw [step]
  split
  · next hconn =>
    refine ⟨?_, h.kept, ?_⟩
    · intro k hagreed
      simp only at hagreed ⊢
      split at hagreed
      · next hsame =>
        have hkey : (s.secure.receive cJSONParse m p).key = s.secure.key :=
          SecureLink.key_receive hsame
        exact hkey.trans (h.inUse k hagreed)
      · exact hagreed
    · cases h.phase with
      | free _ hnot => simp [hconn] at hnot
      | begun hadv _ hpending hclosed =>
        exact .begun hadv hconn hpending (receive_closed hclosed p)
      | served hadv _ hpending => exact .served hadv hconn hpending
      | missed _ hnot => simp [hconn] at hnot
      | ended _ hnot => simp [hconn] at hnot
  · exact h

private theorem Inv.application {s : SecureApp δ κ} (h : s.Inv) (memory : Bool) :
    (s.step cJSONParse m (.application memory)).Inv := by
  rw [step]
  cases h.phase with
  | free _ _ hpending =>
    rw [hpending]
    exact h
  | begun hadv hconn hpending hclosed =>
    rw [hpending]
    refine ⟨?_, ?_, .served rfl hconn rfl⟩
    · intro k hagreed
      have hnone := agreed_closed h hclosed
      rw [show s.agreed = some k from hagreed] at hnone
      cases hnone
    · simp [exampleEventCallback, hclosed, h.kept]
  | served _ _ hpending =>
    rw [hpending]
    exact h
  | missed hadv hconn hpending hclosed =>
    have hnone := agreed_closed h hclosed
    rw [hpending]
    refine ⟨?_, ?_, .ended rfl hconn rfl hnone⟩
    · intro k hagreed
      rw [show s.agreed = some k from hagreed] at hnone
      cases hnone
    · simp [exampleEventCallback, hclosed, h.kept]
  | ended hadv hconn hpending hnone =>
    rw [hpending]
    refine ⟨?_, h.kept, .free rfl hconn rfl rfl⟩
    intro k hagreed
    rw [show s.agreed = some k from hagreed] at hnone
    cases hnone

private theorem Inv.step {s : SecureApp δ κ} (h : s.Inv) (op : SecureAppOp) :
    (s.step cJSONParse m op).Inv := by
  cases op with
  | connect => exact h.connect
  | disconnect => exact h.disconnect
  | receive p => exact h.receive p
  | application memory => exact h.application memory

/-- Whatever the order in which the two tasks come to run: the key that the phone of this connection
has been given an answer for is the key in use, and no context is lost. -/
theorem agreed_key_in_use (cJSONParse : Bytes → Option StringItems) (m : BlufiCrypto δ κ)
    (ops : List SecureAppOp) :
    let s := run (step cJSONParse m) init ops
    (∀ k, s.agreed = some k → s.secure.key = some k) ∧ s.lost = 0 := by
  have hinit : (init : SecureApp δ κ).Inv := ⟨nofun, rfl, .free rfl rfl rfl rfl⟩
  have hstep (s : SecureApp δ κ) (op : SecureAppOp) (h : s.Inv) :
      (s.step cJSONParse m op).Inv := h.step op
  have hinv := run_of_step hstep hinit ops
  exact ⟨hinv.inUse, hinv.kept⟩

end SecureApp

end Leyu
