import Leyu.Blufi.Faults
import Mathlib.Algebra.Ring.Int.Defs

/-!
# The receiver's heap

The buffer of a message in frames is given back with the message or at the end of the connection,
whatever goes wrong in between. The copies that a packet of JSON makes of the name of the network
and of the password are never given back.
-/

namespace Leyu

open Framework

namespace BlufiEffect

def isMalloc : BlufiEffect → Bool
  | malloc _ => true
  | _ => false

def isFree : BlufiEffect → Bool
  | free _ => true
  | _ => false

end BlufiEffect

/-- The blocks the effects have taken from the heap and not given back. -/
def outstanding (effects : List BlufiEffect) : Int :=
  effects.countP BlufiEffect.isMalloc - effects.countP BlufiEffect.isFree

@[simp] theorem outstanding_append (effects effects' : List BlufiEffect) :
    outstanding (effects ++ effects') = outstanding effects + outstanding effects' := by
  simp only [outstanding, List.countP_append]
  omega

@[simp] theorem outstanding_nil : outstanding [] = 0 := rfl

@[simp] theorem outstanding_malloc (site : BlufiSite) (effects : List BlufiEffect) :
    outstanding (.malloc site :: effects) = outstanding effects + 1 := by
  simp only [outstanding, List.countP_cons, BlufiEffect.isMalloc, BlufiEffect.isFree]
  grind

@[simp] theorem outstanding_free (site : BlufiSite) (effects : List BlufiEffect) :
    outstanding (.free site :: effects) = outstanding effects - 1 := by
  simp only [outstanding, List.countP_cons, BlufiEffect.isMalloc, BlufiEffect.isFree]
  grind

@[simp] theorem outstanding_post (event : BlufiEvent) (effects : List BlufiEffect) :
    outstanding (.post event :: effects) = outstanding effects := rfl

@[simp] theorem outstanding_sendAck (seq : UInt8) (effects : List BlufiEffect) :
    outstanding (.sendAck seq :: effects) = outstanding effects := rfl

@[simp] theorem outstanding_handle (type : UInt8) (data : Bytes) (effects : List BlufiEffect) :
    outstanding (.handle type data :: effects) = outstanding effects := rfl

def openBuffers (env : BlufiEnv) : Int :=
  match env.aggrBuf with
  | none => 0
  | some _ => 1

/-- The copies that a document with a name and a password leaves behind. -/
def credentialCopies (heap : BlufiHeap) (item : StringItems) : Int :=
  if item "getwifilist".toList ≠ some [0x31] ∧ (item "ssid".toList).isSome ∧
      (item "password".toList).isSome then
    (if heap.ssidBuf then 1 else 0) + (if heap.passwdBuf then 1 else 0)
  else 0

/-- What a packet of JSON leaves on the heap. -/
def jsonRetained (cJSONParse : Bytes → Option StringItems) (heap : BlufiHeap) (packet : Bytes) :
    Int :=
  if heap.jsonStr then
    match cJSONParse (packet.takeWhile (· ≠ 0)) with
    | none => 0
    | some item => credentialCopies heap item
  else 0

/-- What an operation leaves on the heap, the open buffer not counted. -/
def retained (cJSONParse : Bytes → Option StringItems) : BlufiOp → Int
  | .receive _ heap packet =>
      match BlufiPacket.ofBytes packet with
      | .json => jsonRetained cJSONParse heap packet
      | _ => 0
  | _ => 0

namespace BlufiEnv

private theorem outstanding_jsonRequest (heap : BlufiHeap) (item : StringItems) :
    outstanding (jsonRequest heap item) = credentialCopies heap item := by
  simp only [jsonRequest, credentialCopies]
  generalize item "getwifilist".toList = list, item "ssid".toList = ssid,
    item "password".toList = passwd
  by_cases hlist : list = some [0x31]
  · simp [hlist]
  · cases ssid with
    | none => simp [hlist]
    | some ssid =>
      cases passwd with
      | none => simp [hlist]
      | some passwd => cases heap.ssidBuf <;> cases heap.passwdBuf <;> simp [hlist]

private theorem outstanding_copyFragment (env : BlufiEnv) (dataLen : UInt8) (data : Bytes) :
    outstanding (env.copyFragment dataLen data).effects = 0 ∧
      openBuffers (env.copyFragment dataLen data).env = openBuffers env := by
  simp only [copyFragment]
  split
  · split
    · next buf hbuf => split <;> simp [violation, openBuffers, hbuf]
    · simp [violation]
  · simp [reportError]

private theorem outstanding_fragment (heap : BlufiHeap) (env : BlufiEnv) (dataLen : UInt8)
    (data : Bytes) :
    outstanding (env.fragment heap dataLen data).effects + openBuffers env =
      openBuffers (env.fragment heap dataLen data).env := by
  simp only [BlufiEnv.fragment]
  split
  · split
    · simp [reportError]
    · next hbuf =>
      have hclosed : openBuffers env = 0 := by
        rw [Option.not_isSome_iff_eq_none] at hbuf
        simp [openBuffers, hbuf]
      split
      · simp [violation]
      · next totalLen _ =>
        split
        · obtain ⟨heffects, henv⟩ := outstanding_copyFragment (env.opened totalLen) dataLen data
          rw [hclosed, Int.add_zero, outstanding_malloc]
          exact (congrArg (· + 1) heffects).trans henv.symm
        · exact Int.zero_add _
  · obtain ⟨heffects, henv⟩ := outstanding_copyFragment env dataLen data
    rw [heffects, henv, Int.zero_add]

private theorem outstanding_complete (env : BlufiEnv) (type dataLen : UInt8) (data : Bytes) :
    outstanding (env.complete type dataLen data).effects + openBuffers env =
      openBuffers (env.complete type dataLen data).env := by
  simp only [BlufiEnv.complete]
  split
  · simp
  · split
    · simp [reportError]
    · next buf hbuf =>
      split
      · simp [reportError]
      · split
        · simp [violation]
        · split <;> simp [violation, openBuffers, hbuf]

private theorem outstanding_jsonEffects (cJSONParse : Bytes → Option StringItems) (heap : BlufiHeap)
    (packet : Bytes) : outstanding (jsonEffects cJSONParse heap packet) =
      jsonRetained cJSONParse heap packet := by
  simp only [jsonEffects, jsonRetained]
  split
  · cases cJSONParse (packet.takeWhile (· ≠ 0)) with
    | none => rfl
    | some item =>
      simp only [List.cons_append, outstanding_malloc, outstanding_append, outstanding_free,
        outstanding_nil, outstanding_jsonRequest]
      omega
  · rfl

end BlufiEnv

namespace BlufiLink

open BlufiEnv

private theorem outstanding_outcome (cJSONParse : Bytes → Option StringItems) (env : BlufiEnv)
    (op : BlufiOp) :
    outstanding (outcome cJSONParse env op).effects + openBuffers env =
      openBuffers (outcome cJSONParse env op).env + retained cJSONParse op := by
  cases op with
  | connect => exact Int.add_comm _ _
  | disconnect =>
    simp only [outcome, disconnect, retained, openBuffers]
    cases env.aggrBuf <;> simp
  | receive cbs heap packet =>
    simp only [outcome, recvHandler, retained]
    cases hpacket : BlufiPacket.ofBytes packet with
    | short => simp [reportError]
    | json => simp [outstanding_jsonEffects, Int.add_comm]
    | badLength => simp [reportError]
    | framed hdr =>
      simp only
      split
      · simp [reportError]
      · simp only [acceptFrame, Int.add_zero]
        split
        · exact Int.zero_add _
        · next data _ =>
          have hack : outstanding (if hdr.isReqAck then [.sendAck hdr.seq] else []) = 0 := by
            split <;> rfl
          have hcounted : openBuffers env.counted = openBuffers env := rfl
          rw [outstanding_append, hack, Int.zero_add, ← hcounted]
          split
          · exact outstanding_fragment heap env.counted hdr.dataLen data
          · exact outstanding_complete env.counted hdr.type hdr.dataLen data

theorem outstanding_run (cJSONParse : Bytes → Option StringItems) {s : BlufiLink}
    {ops : List BlufiOp} (hwork : (run (step cJSONParse) s ops).faulted = false) :
    outstanding (run (step cJSONParse) s ops).effects + openBuffers s.env =
      outstanding s.effects + openBuffers (run (step cJSONParse) s ops).env +
        (ops.map (retained cJSONParse)).sum := by
  induction ops generalizing s with
  | nil => simp
  | cons op ops ih =>
    have hrest := ih (s := step cJSONParse s op) hwork
    have hs : s.faulted = false := by
      by_contra hfault
      rw [run_faulted (by simpa using hfault)] at hwork
      exact hfault hwork
    have hstep : step cJSONParse s op = ⟨(outcome cJSONParse s.env op).env,
        s.effects ++ (outcome cJSONParse s.env op).effects,
        (outcome cJSONParse s.env op).faulted⟩ := if_neg (by simp [hs])
    have hone := outstanding_outcome cJSONParse s.env op
    have hgrown : outstanding (step cJSONParse s op).effects =
        outstanding s.effects + outstanding (outcome cJSONParse s.env op).effects := by
      rw [hstep, outstanding_append]
    have henv : (step cJSONParse s op).env = (outcome cJSONParse s.env op).env := by rw [hstep]
    rw [hgrown, henv] at hrest
    rw [run_cons, List.map_cons, List.sum_cons]
    omega

end BlufiLink

end Leyu
