import Leyu.Rndis.Packet

/-!
# Transmitting over RNDIS

`usbh_rndis_transmit` and the port underneath it. The port sends one transfer at a time, and who
writes to it holds `out_mux` meanwhile. The callbacks of the port, and its closing when the device
is gone, run in one task: where that task waits for the mutex, nothing of them happens any more.
-/

namespace Leyu

open Framework RndisDataPacket

inductive RndisErr
  | ok | invalidState | noMem | timeout | invalidSize
  deriving DecidableEq, Repr

inductive UsbStatus
  | completed | noDevice | canceled | failed
  deriving DecidableEq, Repr

/-- The size the transfer has been allocated with; 512 · 3 bytes are asked for. -/
structure CdcOutBuffer where
  size : Nat
  asked : 512 * 3 ≤ size

/-- The sending side of an open port: whether `out_mux` and `out_xfer_free_sem` can be taken. -/
structure CdcOut where
  outMux : Bool
  outXferFree : Bool
  inFlight : Bool
  deriving DecidableEq, Repr

def CdcOut.opened : CdcOut := ⟨true, true, false⟩

/-- `closing`: the task of the port waits for `out_mux`, without end. `submitted` is what the host
has been given to send. -/
structure RndisTx where
  connectStatus : Bool
  port : Option CdcOut
  closing : Bool
  submitted : List Bytes
  deriving DecidableEq, Repr

inductive RndisTxOp
  /-- `heap`: the packet can be allocated; `accepted`: the host takes the transfer. -/
  | transmit (heap accepted : Bool) (fill : RndisFill) (buffer : Bytes)
  | outDone (status : UsbStatus)
  /-- What the device says of its medium. -/
  | status (up : Bool)
  | gone
  | plugged

/-- `hdr->MessageLength` -/
def rndisMessageLength (buffer : Bytes) : Nat := (44 + UInt32.ofNat buffer.length).toNat

namespace CdcOut

/-- `usbh_cdc_write_bytes`, without a ring buffer. The check of the length stands between taking
`out_mux` and giving it back. -/
def writeBytes (buf : CdcOutBuffer) (accepted : Bool) (p : CdcOut) (data : Bytes) (length : Nat) :
    RndisErr × CdcOut × List Bytes :=
  if p.outMux = false then (.timeout, p, [])
  else if buf.size < length then (.invalidSize, { p with outMux := false }, [])
  else if p.outXferFree = false then (.timeout, p, [])
  else (.ok, { p with outXferFree := false, inFlight := accepted },
    if accepted then [data.take length] else [])

/-- `out_xfer_cb` -/
def outXferCb (p : CdcOut) (status : UsbStatus) : CdcOut :=
  if p.inFlight = false then p
  else
    match status with
    | .completed => { p with outXferFree := true, inFlight := false }
    | .noDevice | .canceled | .failed => { p with inFlight := false }

end CdcOut

namespace RndisTx

def init : RndisTx := ⟨false, none, false, []⟩

/-- `usbh_rndis_transmit` -/
def transmit (buf : CdcOutBuffer) (s : RndisTx) (heap accepted : Bool) (fill : RndisFill)
    (buffer : Bytes) : RndisErr × RndisTx :=
  if s.connectStatus = false then (.invalidState, s)
  else
    match s.port with
    | none => (.invalidState, s)
    | some p =>
        if heap = false then (.noMem, s)
        else
          let out := p.writeBytes buf accepted (rndisPacket fill buffer) (rndisMessageLength buffer)
          (out.1, { s with port := some out.2.1, submitted := s.submitted ++ out.2.2 })

/-- `_usbh_rndis_disconn_cb`, and then `usbh_cdc_port_close`. -/
def gone (s : RndisTx) : RndisTx :=
  { s with
    connectStatus := false
    port := none
    closing := s.port.any fun p => !p.outMux }

def step (buf : CdcOutBuffer) (s : RndisTx) : RndisTxOp → RndisTx
  | .transmit heap accepted fill buffer => (s.transmit buf heap accepted fill buffer).2
  | .status up => { s with connectStatus := up }
  | .outDone status =>
      if s.closing then s else { s with port := s.port.map fun p => p.outXferCb status }
  | .gone => if s.closing then s else s.gone
  | .plugged =>
      if s.closing || s.port.isSome then s else { s with port := some .opened }

/-- A frame that the transfer cannot hold is written to the port. -/
def Overlong (buf : CdcOutBuffer) (s : RndisTx) : RndisTxOp → Prop
  | .transmit heap _ _ buffer => s.connectStatus = true ∧ s.port.isSome = true ∧ heap = true ∧
      buf.size < rndisMessageLength buffer
  | _ => False

/-- `out_mux` has been taken for good. -/
def Leaked (s : RndisTx) : Prop :=
  s.closing = true ∧ s.port = none ∨ ∃ p, s.port = some p ∧ p.outMux = false

/-- `out_mux` can be taken by whoever asks for it. -/
def Sound (s : RndisTx) : Prop := s.closing = false ∧ ∀ p, s.port = some p → p.outMux = true

variable {buf : CdcOutBuffer} {s : RndisTx}

private theorem writeBytes_leaked {p : CdcOut} (hmux : p.outMux = false) (accepted : Bool)
    (data : Bytes) (length : Nat) : p.writeBytes buf accepted data length = (.timeout, p, []) := by
  rw [CdcOut.writeBytes, if_pos hmux]

private theorem outMux_writeBytes {p : CdcOut} (hmux : p.outMux = true) (accepted : Bool)
    (data : Bytes) {length : Nat} (hlen : length ≤ buf.size) :
    (p.writeBytes buf accepted data length).2.1.outMux = true := by
  have hpos : ¬ p.outMux = false := by simp [hmux]
  rw [CdcOut.writeBytes, if_neg hpos, if_neg (Nat.not_lt_of_le hlen)]
  split <;> exact hmux

@[simp] theorem outMux_outXferCb (p : CdcOut) (status : UsbStatus) :
    (p.outXferCb status).outMux = p.outMux := by
  unfold CdcOut.outXferCb
  split
  · rfl
  · cases status <;> rfl

private theorem transmit_leaked (h : s.Leaked) (heap accepted : Bool) (fill : RndisFill)
    (buffer : Bytes) :
    (s.transmit buf heap accepted fill buffer).2 = s := by
  rcases h with ⟨-, hport⟩ | ⟨p, hport, hmux⟩
  · rw [transmit, hport]
    split <;> rfl
  · rw [transmit, hport]
    split
    · rfl
    · dsimp only
      split
      · rfl
      · rw [writeBytes_leaked hmux, List.append_nil, ← hport]

private theorem leaked_step (buf : CdcOutBuffer) (h : s.Leaked) (op : RndisTxOp) :
    (s.step buf op).Leaked ∧ (s.step buf op).submitted = s.submitted := by
  cases op with
  | transmit heap accepted fill buffer =>
    rw [step, transmit_leaked h]
    exact ⟨h, rfl⟩
  | status up => exact ⟨h, rfl⟩
  | outDone status =>
    rw [step]
    split
    · exact ⟨h, rfl⟩
    · next hopen =>
      rcases h with ⟨hclosing, -⟩ | ⟨p, hport, hmux⟩
      · exact absurd hclosing hopen
      · refine ⟨.inr ⟨p.outXferCb status, ?_, ?_⟩, rfl⟩
        · rw [hport, Option.map_some]
        · rw [outMux_outXferCb, hmux]
  | gone =>
    rw [step]
    split
    · exact ⟨h, rfl⟩
    · next hopen =>
      rcases h with ⟨hclosing, -⟩ | ⟨p, hport, hmux⟩
      · exact absurd hclosing hopen
      · refine ⟨.inl ⟨?_, rfl⟩, rfl⟩
        simp [RndisTx.gone, hport, hmux]
  | plugged =>
    have hnot : (s.closing || s.port.isSome) = true := by
      rcases h with ⟨hclosing, -⟩ | ⟨p, hport, -⟩
      · rw [hclosing, Bool.true_or]
      · rw [hport, Option.isSome_some, Bool.or_true]
    rw [step, if_pos hnot]
    exact ⟨h, rfl⟩

private theorem sound_step (h : s.Sound) {op : RndisTxOp} (hop : ¬ s.Overlong buf op) :
    (s.step buf op).Sound := by
  obtain ⟨hclosing, hmux⟩ := h
  cases op with
  | transmit heap accepted fill buffer =>
    rw [step, transmit]
    split
    · exact ⟨hclosing, hmux⟩
    · next hstatus =>
      cases hport : s.port with
      | none => exact ⟨hclosing, hmux⟩
      | some p =>
        dsimp only
        split
        · exact ⟨hclosing, hmux⟩
        · next hheap =>
          refine ⟨hclosing, ?_⟩
          intro q hq
          obtain rfl := Option.some.inj hq
          apply outMux_writeBytes (hmux p hport)
          apply Nat.le_of_not_lt
          intro hlong
          refine hop ⟨?_, ?_, ?_, hlong⟩
          · simpa using hstatus
          · rw [hport]
            rfl
          · simpa using hheap
  | status up => exact ⟨hclosing, hmux⟩
  | outDone status =>
    rw [step, if_neg (by rw [hclosing]; decide)]
    refine ⟨hclosing, ?_⟩
    intro q hq
    obtain ⟨p, hp, rfl⟩ := Option.map_eq_some_iff.mp hq
    rw [outMux_outXferCb]
    exact hmux p hp
  | gone =>
    rw [step, hclosing, if_neg (by decide)]
    refine ⟨?_, ?_⟩
    · cases hport : s.port with
      | none => simp [RndisTx.gone, hport]
      | some p => simp [RndisTx.gone, hport, hmux p hport]
    · intro q hq
      cases hq
  | plugged =>
    rw [step]
    split
    · exact ⟨hclosing, hmux⟩
    · refine ⟨hclosing, ?_⟩
      intro q hq
      obtain rfl := Option.some.inj hq
      rfl

private theorem leaked_of_overlong (h : s.Sound) {op : RndisTxOp} (hop : s.Overlong buf op) :
    (s.step buf op).Leaked := by
  cases op with
  | transmit heap accepted fill buffer =>
    obtain ⟨hstatus, hsome, hheap, hlong⟩ := hop
    obtain ⟨p, hport⟩ := Option.isSome_iff_exists.mp hsome
    have hmux := h.2 p hport
    refine .inr ⟨{ p with outMux := false }, ?_, rfl⟩
    simp [step, transmit, hstatus, hport, hheap, CdcOut.writeBytes, hmux, hlong]
  | _ => exact hop.elim

/-- As long as the mutex is free, plugging the device in anew is enough to send again. -/
theorem sends_again (buf : CdcOutBuffer) (h : s.Sound) :
    ∃ ops, (run (step buf) s ops).submitted ≠ s.submitted := by
  let fill : RndisFill := ⟨List.replicate 28 0, rfl⟩
  have hclosed : s.step buf .gone = ⟨false, none, false, s.submitted⟩ := by
    have hclosing : (s.port.any fun p => !p.outMux) = false := by
      cases hport : s.port with
      | none => rfl
      | some p => simp [h.2 p hport]
    rw [step, if_neg (by rw [h.1]; decide), RndisTx.gone, hclosing]
  have hshort : ¬ buf.size < rndisMessageLength [0] := by
    have hlen : rndisMessageLength [0] = 45 := by decide
    have hasked := buf.asked
    omega
  refine ⟨[.gone, .plugged, .status true, .transmit true true fill [0]], ?_⟩
  rw [run_cons, hclosed]
  simp [run, step, transmit, CdcOut.opened, CdcOut.writeBytes, hshort]

/-- From some point of a run on, whatever the device does and however often it is plugged in again,
no frame is sent any more: this is so exactly when a frame longer than the transfer has been
written to the open port. -/
theorem silent_iff_overlong (buf : CdcOutBuffer) (before : List RndisTxOp) :
    (∀ ops, (run (step buf) (run (step buf) init before) ops).submitted =
      (run (step buf) init before).submitted) ↔
    ¬ AllSteps (step buf) (fun s op => ¬ s.Overlong buf op) init before := by
  have hinit : init.Sound := by
    refine ⟨rfl, ?_⟩
    intro p hp
    cases hp
  have hkeep : ∀ (s : RndisTx) op, s.Sound → ¬ s.Overlong buf op → (s.step buf op).Sound :=
    fun s op h hop => sound_step h hop
  have hleak : ∀ (s : RndisTx) op, s.Sound → ¬ ¬ s.Overlong buf op → (s.step buf op).Leaked :=
    fun s op h hop => leaked_of_overlong h (not_not.mp hop)
  have hstuck : ∀ (s : RndisTx) op, s.Leaked → (s.step buf op).Leaked :=
    fun s op h => (leaked_step buf h op).1
  have hcases := allSteps_or_stuck hkeep hleak hstuck hinit before
  constructor
  · intro hsilent hall
    rcases hcases with ⟨-, hsound⟩ | ⟨hnot, -⟩
    · obtain ⟨ops, hsends⟩ := sends_again buf hsound
      exact hsends (hsilent ops)
    · exact hnot hall
  · intro hnot ops
    rcases hcases with ⟨hall, -⟩ | ⟨-, hleaked⟩
    · exact absurd hall hnot
    · refine (run_of_step (I := fun t : RndisTx => t.Leaked ∧
        t.submitted = (run (step buf) init before).submitted) ?_ ⟨hleaked, rfl⟩ ops).2
      rintro t op ⟨ht, hsame⟩
      obtain ⟨hnext, hstep⟩ := leaked_step buf ht op
      exact ⟨hnext, hstep.trans hsame⟩

end RndisTx

end Leyu
