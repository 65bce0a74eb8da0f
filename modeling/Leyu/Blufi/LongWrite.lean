import Leyu.Blufi.Receive
import Leyu.Framework.Pieces

/-!
# Long writes

The phone may prepare a packet piece by piece and then execute it. The pieces are collected in a
buffer of their own, each at the place it names, and only their lengths are counted. What has been
prepared stays when the connection ends.
-/

namespace Leyu

open Framework Piece

/-- `BLUFI_PREPARE_BUF_MAX_SIZE` -/
def blufiPrepareBufMaxSize : Nat := 1024

/-- `prepare_buf` while there is one, and `prepare_len`. -/
structure BlufiPrepared where
  buf : Cells UInt8
  len : Nat

structure BlufiGatt where
  link : BlufiLink
  prepared : Option BlufiPrepared

inductive BlufiGattOp
  | connect
  | disconnect
  | write (cbs : BlufiCallbacks) (heap : BlufiHeap) (value : Bytes)
  /-- A write with `is_prep`. `memory`: the buffer can be allocated. -/
  | prepare (memory : Bool) (offset : Nat) (value : Bytes)
  /-- `BTA_GATTS_EXEC_WRITE_EVT`; the other flag than `GATT_PREP_WRITE_EXEC` gives the pieces up. -/
  | exec (commit : Bool) (cbs : BlufiCallbacks) (heap : BlufiHeap)

namespace BlufiGatt

def init : BlufiGatt := ⟨.init, none⟩

/-- The buffer a piece goes to; none when the piece is refused. -/
def prepareBuf (prepared : Option BlufiPrepared) (memory : Bool) (offset : Nat) (value : Bytes) :
    Option BlufiPrepared :=
  if blufiPrepareBufMaxSize < offset then none
  else if blufiPrepareBufMaxSize < offset + value.length then none
  else
    match prepared with
    | some p => some p
    | none =>
        if offset ≠ 0 then none
        else if memory then some ⟨Cells.malloc blufiPrepareBufMaxSize, 0⟩
        else none

/-- The prepared branch of `BTA_GATTS_WRITE_EVT`. A piece that is refused takes the others with
it. -/
def prepare (s : BlufiGatt) (memory : Bool) (offset : Nat) (value : Bytes) : BlufiGatt :=
  match prepareBuf s.prepared memory offset value with
  | none => { s with prepared := none }
  | some p =>
      match p.buf.write offset value with
      | none => { s with link := { s.link with faulted := true } }
      | some buf => { s with prepared := some ⟨buf, p.len + value.length⟩ }

variable (cJSONParse : Bytes → Option StringItems)

/-- `BTA_GATTS_EXEC_WRITE_EVT` -/
def exec (s : BlufiGatt) (commit : Bool) (cbs : BlufiCallbacks) (heap : BlufiHeap) : BlufiGatt :=
  match s.prepared with
  | none => s
  | some p =>
      if commit then
        match p.buf.readFront p.len with
        | none => ⟨{ s.link with faulted := true }, none⟩
        | some packet => ⟨s.link.step cJSONParse (.receive cbs heap packet), none⟩
      else { s with prepared := none }

def act (s : BlufiGatt) : BlufiGattOp → BlufiGatt
  | .connect => { s with link := s.link.step cJSONParse .connect }
  | .disconnect => { s with link := s.link.step cJSONParse .disconnect }
  | .write cbs heap value => { s with link := s.link.step cJSONParse (.receive cbs heap value) }
  | .prepare memory offset value => s.prepare memory offset value
  | .exec commit cbs heap => s.exec cJSONParse commit cbs heap

/-- Behind a fault nothing more happens. -/
def step (s : BlufiGatt) (op : BlufiGattOp) : BlufiGatt :=
  if s.link.faulted then s else s.act cJSONParse op

end BlufiGatt

abbrev PendingPieces := Option (List (Piece UInt8))

/-- Only the first piece has to start the packet. -/
def PendingPieces.prepare (pending : PendingPieces) (memory : Bool) (offset : Nat)
    (value : Bytes) : PendingPieces :=
  if offset + value.length ≤ blufiPrepareBufMaxSize then
    match pending with
    | some ws => some (ws ++ [(offset, value)])
    | none => if offset = 0 ∧ memory = true then some [(offset, value)] else none
  else none

def PendingPieces.step (pending : PendingPieces) : BlufiGattOp → PendingPieces
  | .prepare memory offset value => pending.prepare memory offset value
  | .exec _ _ _ => none
  | .connect | .disconnect | .write _ _ _ => pending

namespace BlufiGatt

variable (cJSONParse : Bytes → Option StringItems)

/-- The buffer holds the pieces, one written over the other. -/
def Collects (s : BlufiGatt) (pending : PendingPieces) : Prop :=
  match s.prepared, pending with
  | none, none => True
  | some p, some ws => p.len = total ws ∧
      Cells.writeAll (Cells.malloc blufiPrepareBufMaxSize) ws = some p.buf
  | _, _ => False

private theorem collects_idle {s : BlufiGatt} (h : s.prepared = none) : s.Collects none := by
  simp [Collects, h]

private theorem collects_none {s : BlufiGatt} (h : s.Collects none) : s.prepared = none := by
  unfold Collects at h
  cases hp : s.prepared with
  | none => rfl
  | some p =>
    rw [hp] at h
    exact h.elim

private theorem collects_some {s : BlufiGatt} {ws : List (Piece UInt8)} (h : s.Collects (some ws)) :
    ∃ p, s.prepared = some p ∧ p.len = total ws ∧
      Cells.writeAll (Cells.malloc blufiPrepareBufMaxSize) ws = some p.buf := by
  unfold Collects at h
  cases hp : s.prepared with
  | none =>
    rw [hp] at h
    exact h.elim
  | some p =>
    rw [hp] at h
    exact ⟨p, rfl, h⟩

section Accepted

variable {offset : Nat} {value : Bytes}

private theorem prepareBuf_refused (h : ¬ offset + value.length ≤ blufiPrepareBufMaxSize)
    (prepared : Option BlufiPrepared) (memory : Bool) :
    prepareBuf prepared memory offset value = none := by
  unfold prepareBuf
  split
  · rfl
  · rw [if_pos (Nat.lt_of_not_le h)]

private theorem prepareBuf_fits (h : offset + value.length ≤ blufiPrepareBufMaxSize)
    (prepared : Option BlufiPrepared) (memory : Bool) :
    prepareBuf prepared memory offset value =
      match prepared with
      | some p => some p
      | none =>
          if offset = 0 ∧ memory = true then some ⟨Cells.malloc blufiPrepareBufMaxSize, 0⟩
          else none := by
  have hoffset : ¬ blufiPrepareBufMaxSize < offset := by omega
  unfold prepareBuf
  rw [if_neg hoffset, if_neg (Nat.not_lt_of_le h)]
  cases prepared with
  | some p => rfl
  | none => by_cases h0 : offset = 0 <;> cases memory <;> simp [h0]

private theorem collects_piece (link : BlufiLink) {p : BlufiPrepared} {ws : List (Piece UInt8)}
    (hlen : p.len = total ws)
    (hbuf : Cells.writeAll (Cells.malloc blufiPrepareBufMaxSize) ws = some p.buf)
    (hfit : offset + value.length ≤ blufiPrepareBufMaxSize) :
    ∃ buf, p.buf.write offset value = some buf ∧
      (BlufiGatt.mk link (some ⟨buf, p.len + value.length⟩)).Collects
        (some (ws ++ [(offset, value)])) := by
  have hroom : offset + value.length ≤ p.buf.length := by
    rwa [Cells.length_writeAll hbuf, Cells.length_malloc]
  obtain ⟨buf, hwrite⟩ := Option.isSome_iff_exists.mp (Cells.write_isSome.mpr hroom)
  refine ⟨buf, hwrite, ?_, ?_⟩
  · rw [total_append, hlen]
    rfl
  · rw [Cells.writeAll_append, hbuf]
    simp [Cells.writeAll, hwrite]

end Accepted

private theorem collects_prepare {s : BlufiGatt} {pending : PendingPieces} (h : s.Collects pending)
    (memory : Bool) (offset : Nat) (value : Bytes) :
    (s.prepare memory offset value).Collects (pending.prepare memory offset value) ∧
      (s.prepare memory offset value).link = s.link := by
  by_cases hfit : offset + value.length ≤ blufiPrepareBufMaxSize
  · unfold PendingPieces.prepare prepare
    rw [if_pos hfit, prepareBuf_fits hfit]
    cases pending with
    | some ws =>
      obtain ⟨p, hp, hlen, hbuf⟩ := collects_some h
      obtain ⟨buf, hwrite, hcollects⟩ := collects_piece s.link hlen hbuf hfit
      rw [hp]
      dsimp only
      rw [hwrite]
      exact ⟨hcollects, rfl⟩
    | none =>
      rw [collects_none h]
      dsimp only
      by_cases hstart : offset = 0 ∧ memory = true
      · obtain ⟨buf, hwrite, hcollects⟩ :=
          collects_piece s.link (p := ⟨Cells.malloc blufiPrepareBufMaxSize, 0⟩) total_nil.symm rfl hfit
        rw [if_pos hstart, if_pos hstart]
        dsimp only
        rw [hwrite]
        exact ⟨hcollects, rfl⟩
      · rw [if_neg hstart, if_neg hstart]
        exact ⟨trivial, rfl⟩
  · unfold PendingPieces.prepare prepare
    rw [if_neg hfit, prepareBuf_refused hfit]
    exact ⟨trivial, rfl⟩

private theorem collects_step {s : BlufiGatt} {pending : PendingPieces} (h : s.Collects pending)
    (hs : s.link.faulted = false) (op : BlufiGattOp) :
    (s.step cJSONParse op).Collects (pending.step op) := by
  rw [step, if_neg (by rw [hs]; decide)]
  cases op with
  | connect => exact h
  | disconnect => exact h
  | write cbs heap value => exact h
  | prepare memory offset value => exact (collects_prepare h memory offset value).1
  | exec commit cbs heap =>
    rw [act]
    cases pending with
    | none =>
      rw [exec, collects_none h]
      exact h
    | some ws =>
      obtain ⟨p, hp, -, -⟩ := collects_some h
      rw [exec, hp]
      dsimp only
      split
      · split <;> trivial
      · trivial

theorem collects_run {s : BlufiGatt} {pending : PendingPieces} (h : s.Collects pending)
    {ops : List BlufiGattOp} (hend : (run (step cJSONParse) s ops).link.faulted = false) :
    (run (step cJSONParse) s ops).Collects (run PendingPieces.step pending ops) := by
  induction ops generalizing s pending with
  | nil => exact h
  | cons op ops ih =>
    have hs : s.link.faulted = false := by
      by_contra hfault
      have hstay : run (step cJSONParse) s (op :: ops) = s := by
        refine run_of_step (I := fun t => t = s) ?_ rfl _
        rintro t l rfl
        rw [step, if_pos (by simpa using hfault)]
      rw [hstay] at hend
      exact hfault hend
    exact ih (collects_step cJSONParse h hs op) hend

/-- What comes of executing the pieces: the packet they make up is received; where they make up
none, because one overwrites another or a place is left out, bytes are read that were never
written. -/
def Executes (s : BlufiGatt) (pending : PendingPieces) (cbs : BlufiCallbacks) (heap : BlufiHeap)
    (s' : BlufiGatt) : Prop :=
  match pending with
  | none => s' = s
  | some ws =>
      (∀ packet, Fit ws packet →
        s' = ⟨s.link.step cJSONParse (.receive cbs heap packet), none⟩) ∧
      ((∀ packet, ¬ Fit ws packet) → s' = ⟨{ s.link with faulted := true }, none⟩)

private theorem executes_of_collects {s : BlufiGatt} {pending : PendingPieces}
    (h : s.Collects pending) (hs : s.link.faulted = false) (cbs : BlufiCallbacks)
    (heap : BlufiHeap) :
    s.Executes cJSONParse pending cbs heap (s.step cJSONParse (.exec true cbs heap)) := by
  rw [step, if_neg (by rw [hs]; decide), act]
  cases pending with
  | none =>
    rw [exec, collects_none h]
    rfl
  | some ws =>
    obtain ⟨p, hp, hlen, hbuf⟩ := collects_some h
    rw [exec, hp]
    dsimp only
    rw [if_pos rfl, hlen]
    refine ⟨?_, ?_⟩
    · intro packet hfit
      rw [(Cells.readFront_writeAll hbuf).mpr hfit]
    · intro hnone
      cases hread : p.buf.readFront (total ws) with
      | none => rfl
      | some packet => exact absurd ((Cells.readFront_writeAll hbuf).mp hread) (hnone packet)

/-- In every run, executing does what the pending pieces make up. -/
theorem exec_pending (before : List BlufiGattOp) (cbs : BlufiCallbacks) (heap : BlufiHeap) :
    (run (step cJSONParse) init before).link.faulted = true ∨
      (run (step cJSONParse) init before).Executes cJSONParse (run PendingPieces.step none before)
        cbs heap (run (step cJSONParse) init (before ++ [.exec true cbs heap])) := by
  by_cases hs : (run (step cJSONParse) init before).link.faulted = false
  · rw [run_append, run_cons, run_nil]
    have hinit : init.Collects none := trivial
    exact .inr (executes_of_collects cJSONParse (collects_run cJSONParse hinit hs) hs cbs heap)
  · exact .inl (by simpa using hs)

/-- A packet written in order, piece by piece. -/
def longWrite : Nat → List Bytes → List BlufiGattOp
  | _, [] => []
  | offset, v :: vs => .prepare true offset v :: longWrite (offset + v.length) vs

private theorem pending_longWrite (ws : List (Piece UInt8)) {offset : Nat} {vs : List Bytes}
    (hfit : offset + vs.flatten.length ≤ blufiPrepareBufMaxSize) :
    run PendingPieces.step (some ws) (longWrite offset vs) = some (ws ++ inOrder offset vs) := by
  induction vs generalizing ws offset with
  | nil => simp [longWrite, inOrder]
  | cons v vs ih =>
    rw [List.flatten_cons, List.length_append] at hfit
    have hone : PendingPieces.step (some ws) (.prepare true offset v) = some (ws ++ [(offset, v)]) := by
      simp only [PendingPieces.step, PendingPieces.prepare]
      rw [if_pos (by omega)]
    rw [longWrite, run_cons, hone, ih _ (by omega), inOrder]
    simp

private theorem pending_start {vs : List Bytes} (hne : vs ≠ [])
    (hfit : vs.flatten.length ≤ blufiPrepareBufMaxSize) :
    run PendingPieces.step none (longWrite 0 vs) = some (inOrder 0 vs) := by
  cases vs with
  | nil => exact absurd rfl hne
  | cons v vs =>
    rw [List.flatten_cons, List.length_append] at hfit
    have hone : PendingPieces.step none (.prepare true 0 v) = some [(0, v)] := by
      simp only [PendingPieces.step, PendingPieces.prepare]
      rw [if_pos (by omega)]
      rfl
    rw [longWrite, run_cons, hone, pending_longWrite _ (by omega), inOrder]
    rfl

private theorem link_longWrite {s : BlufiGatt} {pending : PendingPieces} (h : s.Collects pending)
    (hs : s.link.faulted = false) (offset : Nat) (vs : List Bytes) :
    (run (step cJSONParse) s (longWrite offset vs)).link = s.link := by
  induction vs generalizing s pending offset with
  | nil => rfl
  | cons v vs ih =>
    have hnext := collects_step cJSONParse h hs (.prepare true offset v)
    have hlink : (s.step cJSONParse (.prepare true offset v)).link = s.link := by
      rw [step, if_neg (by rw [hs]; decide), act]
      exact (collects_prepare h true offset v).2
    rw [longWrite, run_cons, ih hnext (hlink ▸ hs), hlink]

/-- A packet that is prepared piece by piece and executed is received like one that is written at
once. -/
theorem long_write_is_write {s : BlufiGatt} (hidle : s.prepared = none)
    (hs : s.link.faulted = false) {vs : List Bytes} (hne : vs ≠ [])
    (hfit : vs.flatten.length ≤ blufiPrepareBufMaxSize) (cbs : BlufiCallbacks)
    (heap : BlufiHeap) :
    run (step cJSONParse) s (longWrite 0 vs ++ [.exec true cbs heap]) =
      s.step cJSONParse (.write cbs heap vs.flatten) := by
  have hstart := collects_idle hidle
  have hlink := link_longWrite cJSONParse hstart hs 0 vs
  have hmid : (run (step cJSONParse) s (longWrite 0 vs)).link.faulted = false := by rw [hlink, hs]
  have hcollects := collects_run cJSONParse hstart hmid
  rw [pending_start hne hfit] at hcollects
  have hexec := (executes_of_collects cJSONParse hcollects hmid cbs heap).1 vs.flatten (fit_inOrder vs)
  rw [run_append, run_cons, run_nil, hexec, hlink, step, if_neg (by rw [hs]; decide), act, hidle]

/-- A frame of five bytes in two pieces. -/
theorem long_write_is_write_two :
    run (step fun _ => none) init (longWrite 0 [[0x04, 0x00], [0x00, 0x01, 0x07]] ++
        [.exec true .none ⟨true, true, true, true⟩]) =
      init.step (fun _ => none) (.write .none ⟨true, true, true, true⟩
        [0x04, 0x00, 0x00, 0x01, 0x07]) :=
  long_write_is_write (fun _ => none) rfl rfl
    (List.cons_ne_nil _ _) (by decide) .none ⟨true, true, true, true⟩

end BlufiGatt

end Leyu
