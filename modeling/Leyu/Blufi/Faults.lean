import Leyu.Blufi.Reassembly
import Leyu.Framework.Outputs

/-!
# Where the receiver goes wrong

The receiver leaves its buffers exactly at a fragment that is shorter than the length in front of
its payload. A first fragment with no payload, or with more than it announces, does no harm by
itself; behind it no message in more than one frame gets through until the phone disconnects.
-/

namespace Leyu

open Framework

/-- A fragment that has not even the two bytes of the length, where the receiver goes on to copy
it. -/
def Runt (env : BlufiEnv) : BlufiOp → Prop
  | .receive cbs heap packet => ∃ f, BlufiFrame.of? cbs packet = some f ∧
      f.hdr.seq = env.recvSeq ∧ f.hdr.isFrag = true ∧ f.hdr.dataLen.toNat < 2 ∧
      (env.offset ≠ 0 ∨ env.aggrBuf = none ∧ (f.data.length < 2 ∨ heap.aggrBuf = true))
  | _ => False

/-- A buffer nothing has been copied to. -/
def Stuck (env : BlufiEnv) : Prop := env.offset = 0 ∧ env.aggrBuf.isSome

/-- The frame the receiver takes from what reaches it. -/
def accepted? (env : BlufiEnv) : BlufiOp → Option BlufiFrame
  | .receive cbs _ packet => (BlufiFrame.of? cbs packet).filter fun f => f.hdr.seq = env.recvSeq
  | _ => none

namespace BlufiEnv

private theorem le16?_eq_none {data : Bytes} : le16? data = none ↔ data.length < 2 := by
  match data with
  | [] => simp [le16?]
  | [_] => simp [le16?]
  | _ :: _ :: _ => simp [le16?]

private theorem fragment_faulted {env : BlufiEnv} {text : Bytes} (h : env.Holding text)
    (heap : BlufiHeap) {dataLen : UInt8} {data : Bytes} (hdata : dataLen.toNat ≤ data.length) :
    (env.fragment heap dataLen data).faulted = true ↔ dataLen.toNat < 2 ∧
      (env.offset ≠ 0 ∨ env.aggrBuf = none ∧ (data.length < 2 ∨ heap.aggrBuf = true)) := by
  by_cases hoffset : env.offset = 0
  · cases hbuf : env.aggrBuf with
    | some buf =>
      rw [fragment_stale hoffset (by simp [hbuf])]
      simp [reportError, hoffset]
    | none =>
      cases htotal : le16? data with
      | none =>
        have hshort := le16?_eq_none.mp htotal
        rw [fragment_runt hoffset hbuf heap dataLen htotal]
        simp only [violation, true_iff]
        exact ⟨by omega, .inr ⟨trivial, .inl hshort⟩⟩
      | some totalLen =>
        have hlong : ¬ data.length < 2 := by
          rw [← le16?_eq_none, htotal]
          simp
        cases hheap : heap.aggrBuf with
        | false =>
          rw [fragment_noMem hoffset hbuf hheap dataLen htotal]
          simp [reportError, hoffset, hlong]
        | true =>
          rw [fragment_first env hoffset hbuf hheap dataLen htotal]
          rcases copyFragment_spec (opened_holding env hoffset totalLen) rfl hdata with
            ⟨hover, hout⟩ | ⟨hrunt, hout⟩ | ⟨htwo, -, buf', hout, -⟩
          · have hzero : (env.opened totalLen).offset.toNat = 0 := by
              simp [opened, hoffset]
            simp only [hout, reportError, Bool.false_eq_true, false_iff]
            omega
          · simp [hout, violation, hrunt]
          · simp only [hout, Bool.false_eq_true, false_iff]
            omega
  · obtain ⟨buf, hbuf, hsize, hholds⟩ := h.isSome hoffset
    rw [fragment_next env hoffset]
    rcases copyFragment_spec h hbuf hdata with
      ⟨hover, hout⟩ | ⟨hrunt, hout⟩ | ⟨htwo, -, buf', hout, -⟩
    · have hroom := hholds.length_le
      have hlen := h.1
      simp only [hout, reportError, Bool.false_eq_true, false_iff]
      omega
    · simp [hout, violation, hrunt, hoffset]
    · simp only [hout, Bool.false_eq_true, false_iff]
      omega

private theorem holding_complete {env : BlufiEnv} {text : Bytes} (h : env.Holding text)
    (type : UInt8) {dataLen : UInt8} {data : Bytes} (hdata : dataLen.toNat ≤ data.length) :
    (env.complete type dataLen data).faulted = false ∧
      ∃ text', (env.complete type dataLen data).env.Holding text' := by
  by_cases hoffset : env.offset = 0
  · rw [complete_single env hoffset]
    exact ⟨rfl, text, h⟩
  · by_cases htotal : env.offset.toNat + dataLen.toNat = env.totalLen.toNat
    · rw [complete_last h hoffset hdata htotal]
      exact ⟨rfl, [], holding_of_closed rfl rfl⟩
    · obtain ⟨buf, hbuf, -⟩ := h.isSome hoffset
      rw [complete_badLength hoffset hbuf _ _ htotal]
      exact ⟨rfl, text, h⟩

private theorem holding_fragment {env : BlufiEnv} {text : Bytes} (h : env.Holding text)
    (heap : BlufiHeap) {dataLen : UInt8} {data : Bytes} (hdata : dataLen.toNat ≤ data.length) :
    ∃ text', (env.fragment heap dataLen data).env.Holding text' := by
  have hcopied {env : BlufiEnv} {text : Bytes} {buf : Cells UInt8} (h : env.Holding text)
      (hbuf : env.aggrBuf = some buf) : ∃ text', (env.copyFragment dataLen data).env.Holding text' := by
    rcases copyFragment_spec h hbuf hdata with
      ⟨-, hout⟩ | ⟨-, hout⟩ | ⟨-, -, buf', hout, hholding⟩
    · exact ⟨text, by rw [hout]; exact h⟩
    · exact ⟨text, by rw [hout]; exact h⟩
    · exact ⟨_, by rw [hout]; exact hholding⟩
  by_cases hoffset : env.offset = 0
  · cases hbuf : env.aggrBuf with
    | some buf =>
      rw [fragment_stale hoffset (by simp [hbuf])]
      exact ⟨text, h⟩
    | none =>
      cases htotal : le16? data with
      | none =>
        rw [fragment_runt hoffset hbuf heap dataLen htotal]
        exact ⟨text, h⟩
      | some totalLen =>
        cases hheap : heap.aggrBuf with
        | false =>
          rw [fragment_noMem hoffset hbuf hheap dataLen htotal]
          exact ⟨[], holding_of_closed hoffset hbuf⟩
        | true =>
          rw [fragment_first env hoffset hbuf hheap dataLen htotal]
          exact hcopied (opened_holding env hoffset totalLen) rfl
  · obtain ⟨buf, hbuf, -⟩ := h.isSome hoffset
    rw [fragment_next env hoffset]
    exact hcopied h hbuf

end BlufiEnv

namespace BlufiLink

open BlufiEnv

/-- Nothing has gone wrong so far. -/
def Sound (s : BlufiLink) : Prop := s.faulted = false ∧ ∃ text, s.env.Holding text

private theorem sound_init : Sound init := ⟨rfl, [], holding_of_closed rfl rfl⟩

private theorem step_sound {s : BlufiLink} (hs : Sound s) (cJSONParse : Bytes → Option StringItems)
    (op : BlufiOp) :
    ((step cJSONParse s op).faulted = true ↔ Runt s.env op) ∧
      ∃ text, (step cJSONParse s op).env.Holding text := by
  obtain ⟨hwork, text, hholding⟩ := hs
  have hstep : step cJSONParse s op = ⟨(outcome cJSONParse s.env op).env,
      s.effects ++ (outcome cJSONParse s.env op).effects, (outcome cJSONParse s.env op).faulted⟩ :=
    if_neg (by simp [hwork])
  rw [hstep]
  cases op with
  | connect => exact ⟨by simp [outcome, connect, Runt], text, hholding⟩
  | disconnect => exact ⟨by simp [outcome, disconnect, Runt], [], holding_of_closed rfl rfl⟩
  | receive cbs heap packet =>
    rcases recvHandler_cases cJSONParse cbs heap s.env packet with
      ⟨hother, effects, hout, -⟩ | ⟨hnone, e, hout⟩ | ⟨f, ack, hframe, hseq, hdata, -, hout⟩
    · simp only [outcome, hout, Bool.false_eq_true, false_iff]
      refine ⟨?_, text, hholding⟩
      rintro ⟨f, hframe, hseq, -⟩
      obtain ⟨hdr, hpacket, rfl⟩ := of?_eq_some hframe
      exact hother _ hpacket hseq
    · simp only [outcome, hout, reportError, Bool.false_eq_true, false_iff]
      refine ⟨?_, text, hholding⟩
      rintro ⟨f, hframe, -⟩
      rw [hnone] at hframe
      cases hframe
    · have hcounted : s.env.counted.Holding text := hholding
      simp only [outcome, hout, Runt, hframe, Option.some.injEq, exists_eq_left', hseq, true_and]
      cases hfrag : f.hdr.isFrag with
      | true =>
        simp only [if_true, true_and]
        exact ⟨fragment_faulted hcounted heap hdata, holding_fragment hcounted heap hdata⟩
      | false =>
        obtain ⟨hfine, hnext⟩ := holding_complete hcounted f.hdr.type hdata
        simp only [Bool.false_eq_true, if_false, hfine, false_and]
        exact ⟨trivial, hnext⟩

theorem run_faulted {cJSONParse : Bytes → Option StringItems} {s : BlufiLink}
    (h : s.faulted = true) (ops : List BlufiOp) : run (step cJSONParse) s ops = s := by
  induction ops with
  | nil => rfl
  | cons op ops ih =>
    have hstep : step cJSONParse s op = s := if_pos h
    rw [run_cons, hstep, ih]

theorem run_working_iff {cJSONParse : Bytes → Option StringItems} {s : BlufiLink} (hs : Sound s)
    (ops : List BlufiOp) : (run (step cJSONParse) s ops).faulted = false ↔
      AllSteps (step cJSONParse) (fun s op => ¬ Runt s.env op) s ops := by
  induction ops generalizing s with
  | nil => simp [hs.1]
  | cons op ops ih =>
    obtain ⟨hfault, hholding⟩ := step_sound hs cJSONParse op
    rw [run_cons, allSteps_cons]
    by_cases hrunt : Runt s.env op
    · have hhalt := hfault.mpr hrunt
      simp [run_faulted hhalt, hhalt, hrunt]
    · have hwork : (step cJSONParse s op).faulted = false := by
        simpa using fun h => hrunt (hfault.mp h)
      rw [ih ⟨hwork, hholding⟩, and_iff_right hrunt]

/-- What a frame that is taken comes to when every message has to be in one frame. -/
def singles (s : BlufiLink) (op : BlufiOp) : List (UInt8 × Bytes) :=
  (accepted? s.env op).toList.filterMap fun f =>
    if f.hdr.isFrag then none else some (f.hdr.type, f.payload)

private theorem step_stuck {s : BlufiLink} (hs : s.faulted = false ∧ Stuck s.env)
    (cJSONParse : Bytes → Option StringItems) {op : BlufiOp} (hop : op ≠ .disconnect) :
    messages (step cJSONParse s op).effects = messages s.effects ++ singles s op ∧
      (step cJSONParse s op).faulted = false ∧ Stuck (step cJSONParse s op).env := by
  obtain ⟨hwork, hoffset, hbuf⟩ := hs
  have hstep : step cJSONParse s op = ⟨(outcome cJSONParse s.env op).env,
      s.effects ++ (outcome cJSONParse s.env op).effects, (outcome cJSONParse s.env op).faulted⟩ :=
    if_neg (by simp [hwork])
  rw [hstep]
  cases op with
  | connect => exact ⟨by simp [outcome, connect, singles, accepted?], rfl, hoffset, hbuf⟩
  | disconnect => exact absurd rfl hop
  | receive cbs heap packet =>
    rcases recvHandler_cases cJSONParse cbs heap s.env packet with
      ⟨hother, effects, hout, hnone⟩ | ⟨hnone, e, hout⟩ | ⟨f, ack, hframe, hseq, -, hack, hout⟩
    · have hrefused : accepted? s.env (.receive cbs heap packet) = none := by
        rw [accepted?, Option.filter_eq_none_iff]
        intro f hframe
        obtain ⟨hdr, hpacket, rfl⟩ := of?_eq_some hframe
        simpa using hother _ hpacket
      simp only [outcome, hout, singles, hrefused]
      exact ⟨by simp [hnone], trivial, hoffset, hbuf⟩
    · have hrefused : accepted? s.env (.receive cbs heap packet) = none := by
        rw [accepted?, hnone]
        rfl
      simp only [outcome, hout, singles, hrefused]
      exact ⟨by simp [reportError], rfl, hoffset, hbuf⟩
    · have htaken : accepted? s.env (.receive cbs heap packet) = some f := by
        simp [accepted?, hframe, hseq]
      simp only [outcome, hout, singles, htaken]
      cases hfrag : f.hdr.isFrag with
      | true =>
        rw [if_pos rfl, fragment_stale (show s.env.counted.offset = 0 from hoffset) hbuf]
        exact ⟨by simp [reportError, hack, hfrag], rfl, hoffset, hbuf⟩
      | false =>
        have hpayload : f.payload = f.data.take f.hdr.dataLen.toNat := by
          rw [BlufiFrame.payload, hfrag]
          rfl
        simp only [Bool.false_eq_true, if_false]
        rw [complete_single s.env.counted hoffset]
        exact ⟨by simp [hack, hfrag, hpayload], rfl, hoffset, hbuf⟩

/-- A first fragment that leaves a buffer behind which nothing is copied to: it has no payload, or
more than it announces. -/
def Spoiling (env : BlufiEnv) (op : BlufiOp) : Prop :=
  ∃ cbs heap packet f total, op = .receive cbs heap packet ∧ heap.aggrBuf = true ∧
    BlufiFrame.of? cbs packet = some f ∧ f.hdr.seq = env.recvSeq ∧ f.hdr.isFrag = true ∧
    le16? f.data = some total ∧
    (f.hdr.dataLen = 2 ∨ 2 ≤ f.hdr.dataLen.toNat ∧ total.toNat + 2 < f.hdr.dataLen.toNat)

private theorem step_spoiling {s : BlufiLink} (hwork : s.faulted = false)
    (hoffset : s.env.offset = 0) (hclosed : s.env.aggrBuf = none)
    (cJSONParse : Bytes → Option StringItems) {op : BlufiOp} (hop : Spoiling s.env op) :
    messages (step cJSONParse s op).effects = messages s.effects ∧
      (step cJSONParse s op).faulted = false ∧ Stuck (step cJSONParse s op).env := by
  obtain ⟨cbs, heap, packet, f, total, rfl, hheap, hframe, hseq, hfrag, htotal, hbad⟩ := hop
  have hstep : step cJSONParse s (.receive cbs heap packet) =
      ⟨(s.env.recvHandler cJSONParse cbs heap packet).env,
        s.effects ++ (s.env.recvHandler cJSONParse cbs heap packet).effects,
        (s.env.recvHandler cJSONParse cbs heap packet).faulted⟩ := if_neg (by simp [hwork])
  rw [hstep]
  rcases recvHandler_cases cJSONParse cbs heap s.env packet with
    ⟨hother, -⟩ | ⟨hnone, -⟩ | ⟨f', ack, hframe', -, hdata, hack, hout⟩
  · obtain ⟨hdr, hpacket, rfl⟩ := of?_eq_some hframe
    exact absurd hseq (hother _ hpacket)
  · rw [hframe] at hnone
    cases hnone
  · obtain rfl := Option.some.inj (hframe.symm.trans hframe')
    simp only [hfrag, if_true] at hout
    rw [hout, fragment_first s.env.counted hoffset hclosed hheap _ htotal]
    have hzero : (s.env.counted.opened total).offset = 0 := hoffset
    rcases copyFragment_spec (opened_holding s.env.counted hoffset total) rfl hdata with
      ⟨-, hcopy⟩ | ⟨hrunt, -⟩ | ⟨htwo, hfits, buf', hcopy, -⟩
    · rw [hcopy]
      exact ⟨by simp [reportError, hack], rfl, hoffset, rfl⟩
    · rcases hbad with hempty | ⟨htwo, -⟩
      · rw [hempty] at hrunt
        exact absurd hrunt (by decide)
      · omega
    · rcases hbad with hempty | ⟨-, hlong⟩
      · rw [hcopy]
        refine ⟨by simp [hack], rfl, ?_, rfl⟩
        rw [hempty, hzero]
        rfl
      · rw [hzero] at hfits
        change 0 + f.hdr.dataLen.toNat ≤ total.toNat + 2 at hfits
        omega

end BlufiLink

end Leyu
