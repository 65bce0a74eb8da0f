import Leyu.Blufi.Reassembly

/-!
# Delivery to the device

A phone that sends message after message, each as fragments that are not empty and a last frame,
while packets that are no frames and frames with other numbers come in between. As long as the
buffer can be allocated, every message is handed over once and in order.
-/

namespace Leyu

open Framework

/-- The frames arrive one after the other, numbered from `seq` on; between them comes what the
receiver refuses. The allocation of the buffer succeeds. -/
inductive Transmits : UInt8 → List Received → List BlufiOp → Prop
  | nil (seq : UInt8) : Transmits seq [] []
  | noise {seq : UInt8} {frames : List Received} {ops : List BlufiOp} (cbs : BlufiCallbacks)
      (heap : BlufiHeap) {packet : Bytes}
      (hother : ∀ hdr, BlufiPacket.ofBytes packet = .framed hdr → hdr.seq ≠ seq)
      (hops : Transmits seq frames ops) : Transmits seq frames (.receive cbs heap packet :: ops)
  | frame {seq : UInt8} {frames : List Received} {ops : List BlufiOp} {cbs : BlufiCallbacks}
      {heap : BlufiHeap} {packet : Bytes} {r : Received}
      (hframe : BlufiFrame.of? cbs packet = some r.2) (hseq : r.2.hdr.seq = seq) (hheap : heap.aggrBuf = true)
      (hops : Transmits (seq + 1) frames ops) :
      Transmits seq (r :: frames) (.receive cbs heap packet :: ops)

theorem Transmits.split {seq : UInt8} {frames frames' : List Received} {ops : List BlufiOp}
    (h : Transmits seq (frames ++ frames') ops) :
    ∃ front back seq', ops = front ++ back ∧ Transmits seq frames front ∧
      Transmits seq' frames' back ∧ seq' = seq + UInt8.ofNat frames.length := by
  generalize hall : frames ++ frames' = all at h
  induction h generalizing frames with
  | nil seq =>
    obtain ⟨rfl, rfl⟩ := List.append_eq_nil_iff.mp hall
    exact ⟨[], [], seq, rfl, .nil seq, .nil seq, by simp⟩
  | noise cbs heap hother hops ih =>
    obtain ⟨front, back, seq', rfl, hfront, hback, hseq'⟩ := ih hall
    exact ⟨_ :: front, back, seq', rfl, .noise cbs heap hother hfront, hback, hseq'⟩
  | @frame seq rest ops cbs heap packet r hframe hseq hheap hops ih =>
    cases frames with
    | nil =>
      obtain rfl : frames' = r :: rest := by simpa using hall
      exact ⟨[], _, seq, rfl, .nil seq, .frame hframe hseq hheap hops, by simp⟩
    | cons r' frames =>
      obtain ⟨rfl, hrest⟩ := List.cons.inj hall
      obtain ⟨front, back, seq', rfl, hfront, hback, hseq'⟩ := ih hrest
      refine ⟨_ :: front, back, seq', rfl, .frame hframe hseq hheap hfront, hback, ?_⟩
      rw [hseq', List.length_cons, Nat.add_comm, UInt8.ofNat_add, UInt8.add_assoc]
      rfl

/-- A fragment of a group, the ones before it included: it belongs to the connection of the last
frame, and the first of them announces the length. -/
theorem Carries.first_of_front {group frames rest : List Received} {r last : Received}
    {message : UInt8 × Bytes} (h : Carries group message)
    (hgroup : group = frames ++ [r] ++ (rest ++ [last])) :
    r.1 = last.1 ∧ r.2.hdr.isFrag = true ∧
      ∀ first ∈ (frames ++ [r]).head?,
        (le16? first.2.data).map UInt16.toNat = some (texts group).length := by
  obtain ⟨front, last', hsplit, hfront, -, -, htotal⟩ := h
  have hends : front ++ [last'] = (frames ++ [r] ++ rest) ++ [last] := by
    rw [← hsplit, hgroup]
    simp only [List.append_assoc]
  obtain ⟨rfl, hlast⟩ := List.append_inj' hends rfl
  obtain rfl := List.singleton_inj.mp hlast
  obtain ⟨hconn, hfrag⟩ := hfront r (by simp)
  refine ⟨hconn, hfrag, fun first hfirst => htotal first ?_⟩
  rw [Option.mem_def] at hfirst ⊢
  rw [List.head?_append, hfirst]
  rfl

/-- Every fragment carries at least one byte behind the length. -/
def Filled (group : List Received) : Prop :=
  ∀ r ∈ group, r.2.hdr.isFrag = true → 2 < r.2.hdr.dataLen.toNat

instance (group : List Received) : Decidable (Filled group) :=
  inferInstanceAs (Decidable (∀ r ∈ group, r.2.hdr.isFrag = true → 2 < r.2.hdr.dataLen.toNat))

namespace BlufiLink

open BlufiEnv

variable {cJSONParse : Bytes → Option StringItems}

/-- In the middle of a message: these messages are done, and these frames stand in the buffer. -/
structure Collecting (conn : Nat) (done : List (UInt8 × Bytes)) (frames : List Received)
    (s : BlufiLink) : Prop where
  working : s.faulted = false
  delivered : messages s.effects = done
  pending : Pending conn frames s.env
  closed : frames = [] → s.env.aggrBuf = none
  started : frames ≠ [] → s.env.offset ≠ 0

private theorem step_receive {s : BlufiLink} (hwork : s.faulted = false) (cbs : BlufiCallbacks)
    (heap : BlufiHeap) (packet : Bytes) :
    step cJSONParse s (.receive cbs heap packet) =
      ⟨(s.env.recvHandler cJSONParse cbs heap packet).env,
        s.effects ++ (s.env.recvHandler cJSONParse cbs heap packet).effects,
        (s.env.recvHandler cJSONParse cbs heap packet).faulted⟩ := by
  rw [BlufiLink.step, if_neg (by simp [hwork])]
  rfl

private theorem step_noise (cJSONParse : Bytes → Option StringItems) {s : BlufiLink}
    (hwork : s.faulted = false) (cbs : BlufiCallbacks) (heap : BlufiHeap) {packet : Bytes}
    (hother : ∀ hdr, BlufiPacket.ofBytes packet = .framed hdr → hdr.seq ≠ s.env.recvSeq) :
    ∃ effects, step cJSONParse s (.receive cbs heap packet) = ⟨s.env, effects, false⟩ ∧
      messages effects = messages s.effects := by
  obtain ⟨effects, hout, hnone⟩ := recvHandler_refused cJSONParse cbs heap hother
  rw [step_receive hwork, hout]
  exact ⟨_, rfl, by rw [messages_append, hnone, List.append_nil]⟩

private theorem Collecting.noise {conn : Nat} {done : List (UInt8 × Bytes)} {frames : List Received}
    {s : BlufiLink} (h : Collecting conn done frames s) {effects : List BlufiEffect}
    (heffects : messages effects = messages s.effects) :
    Collecting conn done frames ⟨s.env, effects, false⟩ :=
  ⟨rfl, heffects.trans h.delivered, h.pending, h.closed, h.started⟩

private theorem step_frame (cJSONParse : Bytes → Option StringItems) {s : BlufiLink}
    (hwork : s.faulted = false) {cbs : BlufiCallbacks} (heap : BlufiHeap) {packet : Bytes}
    {f : BlufiFrame} (hframe : BlufiFrame.of? cbs packet = some f)
    (hseq : f.hdr.seq = s.env.recvSeq) :
    ∃ ack, messages ack = [] ∧ f.hdr.dataLen.toNat ≤ f.data.length ∧
      let out := if f.hdr.isFrag then s.env.counted.fragment heap f.hdr.dataLen f.data
        else s.env.counted.complete f.hdr.type f.hdr.dataLen f.data
      step cJSONParse s (.receive cbs heap packet) =
        ⟨out.env, s.effects ++ (ack ++ out.effects), out.faulted⟩ := by
  rw [step_receive hwork]
  rcases recvHandler_cases cJSONParse cbs heap s.env packet with
    ⟨hother, -⟩ | ⟨hnone, -⟩ | ⟨f', ack, hframe', -, hdata, hack, hout⟩
  · obtain ⟨hdr, hpacket, rfl⟩ := of?_eq_some hframe
    exact absurd hseq (hother _ hpacket)
  · rw [hframe] at hnone
    cases hnone
  · obtain rfl := Option.some.inj (hframe.symm.trans hframe')
    exact ⟨ack, hack, hdata, by rw [hout]⟩

private theorem length_payload {f : BlufiFrame} (hfrag : f.hdr.isFrag = true)
    (hdata : f.hdr.dataLen.toNat ≤ f.data.length) :
    f.payload.length = f.hdr.dataLen.toNat - 2 := by
  rw [BlufiFrame.payload, if_pos hfrag, List.length_drop, List.length_take,
    Nat.min_eq_left hdata]

private theorem Collecting.copied {conn : Nat} {done : List (UInt8 × Bytes)}
    {frames : List Received} {env : BlufiEnv} {effects : List BlufiEffect} {r : Received}
    (heffects : messages effects = done) (hpending : Pending conn frames env)
    (hopen : env.aggrBuf.isSome) (hann : frames = [] → le16? r.2.data = some env.totalLen)
    (hconn : r.1 = conn) (hfrag : r.2.hdr.isFrag = true) (hfilled : 2 < r.2.hdr.dataLen.toNat)
    (hdata : r.2.hdr.dataLen.toNat ≤ r.2.data.length)
    (hroom : (texts (frames ++ [r])).length ≤ env.totalLen.toNat) :
    let out := env.copyFragment r.2.hdr.dataLen r.2.data
    out.env.recvSeq = env.recvSeq ∧
      Collecting conn done (frames ++ [r]) ⟨out.env, effects ++ out.effects, out.faulted⟩ := by
  have hcopy := hpending.copyFragment hfrag hdata hopen hann
  obtain ⟨buf, hbuf⟩ := Option.isSome_iff_exists.mp hopen
  have hlen := hpending.holding.1
  rw [texts_append, texts_singleton, List.length_append, length_payload hfrag hdata] at hroom
  rcases copyFragment_spec hpending.holding hbuf hdata with
    ⟨hlong, -⟩ | ⟨hrunt, -⟩ | ⟨-, -, buf', hout, hholding⟩
  · omega
  · omega
  · rw [hout]
    rw [hout] at hcopy
    have hnext : Pending conn (frames ++ [(conn, r.2)])
        { env with
          aggrBuf := some buf'
          offset := env.offset + (r.2.hdr.dataLen.toUInt16 - 2) } := by
      rcases hcopy with ⟨-, hfault | hkept | hcopied⟩
      · cases hfault
      · have hsame := hkept.holding.1
        have hgrown := hholding.1
        rw [List.length_append, List.length_drop, List.length_take, Nat.min_eq_left hdata]
          at hgrown
        simp only at hsame hgrown
        omega
      · exact hcopied
    obtain ⟨conn', f⟩ := r
    obtain rfl : conn' = conn := hconn
    refine ⟨rfl, rfl, by simpa using heffects, hnext, by simp, fun _ hzero => ?_⟩
    have htext := hnext.holding.offset_eq_zero.mp hzero
    rw [texts_append, texts_singleton] at htext
    have hpayload := length_payload hfrag hdata
    rw [(List.append_eq_nil_iff.mp htext).2, List.length_nil] at hpayload
    simp only at hfilled hpayload
    omega

private theorem Collecting.fragment {conn : Nat} {done : List (UInt8 × Bytes)}
    {frames : List Received} {s : BlufiLink} (h : Collecting conn done frames s)
    {cbs : BlufiCallbacks} {heap : BlufiHeap} (hheap : heap.aggrBuf = true) {packet : Bytes}
    {r : Received} (hframe : BlufiFrame.of? cbs packet = some r.2)
    (hseq : r.2.hdr.seq = s.env.recvSeq) (hconn : r.1 = conn) (hfrag : r.2.hdr.isFrag = true)
    (hfilled : 2 < r.2.hdr.dataLen.toNat) {len : Nat}
    (htotal : ∀ first ∈ (frames ++ [r]).head?, (le16? first.2.data).map UInt16.toNat = some len)
    (hroom : (texts (frames ++ [r])).length ≤ len) :
    let s' := step cJSONParse s (.receive cbs heap packet)
    s'.env.recvSeq = s.env.recvSeq + 1 ∧ Collecting conn done (frames ++ [r]) s' := by
  obtain ⟨ack, hack, hdata, hstep⟩ := step_frame cJSONParse h.working heap hframe hseq
  have hpending : Pending conn frames s.env.counted := h.pending.header _ _
  simp only [hfrag, if_true] at hstep
  simp only [hstep, ← List.append_assoc]
  have heffects : messages (s.effects ++ ack) = done := by
    rw [messages_append, hack, List.append_nil, h.delivered]
  cases frames with
  | nil =>
    have hclosed := h.closed rfl
    have hoffset : s.env.offset = 0 := h.pending.holding.offset_eq_zero.mpr rfl
    obtain ⟨total, hann, rfl⟩ := Option.map_eq_some_iff.mp (htotal r rfl)
    rw [fragment_first s.env.counted hoffset hclosed hheap _ hann]
    have hfresh := pending_nil conn
      (opened_holding s.env.counted hoffset total)
    have hmalloc : messages (s.effects ++ ack ++ [.malloc .aggrBuf]) = done := by
      rw [messages_append, heffects]
      exact List.append_nil done
    have hcopied := Collecting.copied hmalloc hfresh rfl (fun _ => hann) hconn hfrag hfilled hdata
      hroom
    simpa using hcopied
  | cons r' rest =>
    have hoffset := h.started (List.cons_ne_nil r' rest)
    rw [fragment_next s.env.counted hoffset]
    have hann := htotal r' rfl
    rw [h.pending.announced r' rfl] at hann
    obtain rfl : s.env.totalLen.toNat = len := by simpa using hann
    refine Collecting.copied heffects hpending (h.pending.isOpen (List.cons_ne_nil r' rest)) ?_
      hconn hfrag hfilled hdata hroom
    intro hnil
    cases hnil

theorem Collecting.last {conn : Nat} {done : List (UInt8 × Bytes)} {frames : List Received}
    {s : BlufiLink} (h : Collecting conn done frames s) {cbs : BlufiCallbacks} (heap : BlufiHeap)
    {packet : Bytes} {r : Received} (hframe : BlufiFrame.of? cbs packet = some r.2)
    (hseq : r.2.hdr.seq = s.env.recvSeq) {message : UInt8 × Bytes}
    (hcarries : Carries (frames ++ [r]) message) (next : Nat) :
    let s' := step cJSONParse s (.receive cbs heap packet)
    s'.env.recvSeq = s.env.recvSeq + 1 ∧ Collecting next (done ++ [message]) [] s' := by
  obtain ⟨front, last, hgroup, -, hlast, rfl, htotal⟩ := hcarries
  obtain ⟨rfl, hr⟩ := List.append_inj' hgroup rfl
  obtain rfl := List.singleton_inj.mp hr
  obtain ⟨ack, hack, hdata, hstep⟩ := step_frame cJSONParse h.working heap hframe hseq
  simp only [hlast, Bool.false_eq_true, if_false] at hstep
  simp only [hstep]
  have hpending : Pending conn frames s.env.counted := h.pending.header _ _
  have hpayload : r.2.payload = r.2.data.take r.2.hdr.dataLen.toNat := by
    rw [BlufiFrame.payload, hlast]
    rfl
  cases frames with
  | nil =>
    have hoffset : s.env.offset = 0 := h.pending.holding.offset_eq_zero.mpr rfl
    rw [complete_single s.env.counted hoffset]
    refine ⟨rfl, rfl, ?_, pending_nil next hpending.holding, fun _ => h.closed rfl, by simp⟩
    simp [hack, h.delivered, hpayload]
  | cons r' rest =>
    have hoffset := h.started (List.cons_ne_nil r' rest)
    have htotal := htotal r' rfl
    rw [h.pending.announced r' rfl, texts_append, texts_singleton, hpayload] at htotal
    simp only [Option.map_some, Option.some.injEq, List.length_append, List.length_take] at htotal
    rw [complete_last hpending.holding hoffset hdata]
    · refine ⟨rfl, rfl, ?_, pending_nil next (holding_of_closed rfl rfl), fun _ => rfl, by simp⟩
      rw [texts_append, texts_singleton, hpayload]
      simp [hack, h.delivered]
    · rw [hpending.holding.1, ← Nat.min_eq_left hdata]
      exact htotal.symm

theorem Collecting.retag {conn : Nat} {done : List (UInt8 × Bytes)} {s : BlufiLink}
    (h : Collecting conn done [] s) (conn' : Nat) : Collecting conn' done [] s :=
  ⟨h.working, h.delivered, pending_nil conn' h.pending.holding, h.closed, h.started⟩

variable (cJSONParse)

private theorem Collecting.idle {conn : Nat} {done : List (UInt8 × Bytes)} {seq : UInt8}
    {frames : List Received} {s : BlufiLink} {ops : List BlufiOp} (hops : Transmits seq [] ops)
    (hseq : s.env.recvSeq = seq) (h : Collecting conn done frames s) :
    let s' := run (step cJSONParse) s ops
    s'.env.recvSeq = seq ∧ Collecting conn done frames s' := by
  generalize hnone : ([] : List Received) = none at hops
  induction hops generalizing s with
  | nil seq => exact ⟨hseq, h⟩
  | noise cbs heap hother hops ih =>
    obtain ⟨effects, hstep, hmessages⟩ := step_noise cJSONParse h.working cbs heap (hseq ▸ hother)
    rw [run_cons, hstep]
    exact ih hseq (h.noise hmessages) hnone
  | frame => cases hnone

private theorem Collecting.next {conn : Nat} {done : List (UInt8 × Bytes)} {message : UInt8 × Bytes}
    {frames rest : List Received} {r last : Received} {s : BlufiLink}
    (h : Collecting conn done frames s) {cbs : BlufiCallbacks} {heap : BlufiHeap}
    (hheap : heap.aggrBuf = true) {packet : Bytes} (hframe : BlufiFrame.of? cbs packet = some r.2)
    (hseq : r.2.hdr.seq = s.env.recvSeq) (hconn : last.1 = conn)
    (hfilled : r.2.hdr.isFrag = true → 2 < r.2.hdr.dataLen.toNat)
    (hcarries : Carries (frames ++ (r :: rest ++ [last])) message) :
    let s' := step cJSONParse s (.receive cbs heap packet)
    s'.env.recvSeq = s.env.recvSeq + 1 ∧ Collecting conn done (frames ++ [r]) s' ∧
      Carries (frames ++ [r] ++ (rest ++ [last])) message := by
  have hgroup : frames ++ (r :: rest ++ [last]) = frames ++ [r] ++ (rest ++ [last]) := by simp
  obtain ⟨hrconn, hrfrag, htotal⟩ := hcarries.first_of_front hgroup
  have hroom : (texts (frames ++ [r])).length ≤
      (texts (frames ++ (r :: rest ++ [last]))).length := by
    rw [hgroup, texts_append (frames ++ [r])]
    simp
  obtain ⟨hnext, hcollect⟩ := h.fragment hheap hframe hseq (hrconn.trans hconn) hrfrag
    (hfilled hrfrag) htotal hroom
  exact ⟨hnext, hcollect, hgroup ▸ hcarries⟩

theorem Collecting.front {conn : Nat} {done : List (UInt8 × Bytes)} {message : UInt8 × Bytes}
    {seq : UInt8} {frames rest : List Received} {last : Received} {s : BlufiLink}
    {ops : List BlufiOp} (hops : Transmits seq rest ops) (hseq : s.env.recvSeq = seq)
    (h : Collecting conn done frames s) (hconn : last.1 = conn) (hfilled : Filled rest)
    (hcarries : Carries (frames ++ (rest ++ [last])) message) :
    let s' := run (step cJSONParse) s ops
    s'.env.recvSeq = seq + UInt8.ofNat rest.length ∧ Collecting conn done (frames ++ rest) s' := by
  induction hops generalizing s frames with
  | nil seq =>
    rw [List.append_nil]
    exact ⟨by simpa using hseq, h⟩
  | noise cbs heap hother hops ih =>
    obtain ⟨effects, hstep, hmessages⟩ := step_noise cJSONParse h.working cbs heap (hseq ▸ hother)
    rw [run_cons, hstep]
    exact ih hseq (h.noise hmessages) hfilled hcarries
  | @frame seq rest ops cbs heap packet r hframe hrseq hheap hops ih =>
    rw [run_cons]
    obtain ⟨hnext, hcollect, hcarries⟩ := h.next cJSONParse hheap hframe (hrseq.trans hseq.symm)
      hconn (hfilled r List.mem_cons_self) hcarries
    have hrest := ih (hnext.trans (by rw [hseq])) hcollect
      (fun q hq => hfilled q (List.mem_cons_of_mem r hq)) hcarries
    rw [List.length_cons, Nat.add_comm rest.length, UInt8.ofNat_add, ← UInt8.add_assoc,
      List.append_cons frames r rest]
    exact hrest

private theorem Collecting.group {conn : Nat} {done : List (UInt8 × Bytes)}
    {message : UInt8 × Bytes} {seq : UInt8} {frames rest : List Received} {last : Received}
    {s : BlufiLink} {ops : List BlufiOp} (hops : Transmits seq (rest ++ [last]) ops)
    (hseq : s.env.recvSeq = seq) (h : Collecting conn done frames s) (hconn : last.1 = conn)
    (hfilled : Filled (rest ++ [last])) (hcarries : Carries (frames ++ (rest ++ [last])) message)
    (next : Nat) :
    let s' := run (step cJSONParse) s ops
    s'.env.recvSeq = seq + UInt8.ofNat (rest.length + 1) ∧
      Collecting next (done ++ [message]) [] s' := by
  generalize hall : rest ++ [last] = all at hops
  induction hops generalizing s frames rest with
  | nil seq => simp at hall
  | noise cbs heap hother hops ih =>
    obtain ⟨effects, hstep, hmessages⟩ := step_noise cJSONParse h.working cbs heap (hseq ▸ hother)
    rw [run_cons, hstep]
    exact ih hseq (h.noise hmessages) hfilled hcarries hall
  | @frame seq tail ops cbs heap packet r hframe hrseq hheap hops ih =>
    rw [run_cons]
    cases rest with
    | nil =>
      obtain ⟨rfl, rfl⟩ : last = r ∧ [] = tail := by simpa using hall
      obtain ⟨hnext, hlast⟩ := h.last heap hframe (hrseq.trans hseq.symm) hcarries next
      rw [hseq] at hnext
      exact Collecting.idle cJSONParse hops hnext hlast
    | cons r' rest =>
      obtain ⟨rfl, rfl⟩ : r' = r ∧ rest ++ [last] = tail := by simpa using hall
      obtain ⟨hnext, hcollect, hcarries⟩ := h.next cJSONParse hheap hframe (hrseq.trans hseq.symm)
        hconn (hfilled r' (by simp)) hcarries
      have hrest := ih (hnext.trans (by rw [hseq])) hcollect
        (fun q hq => hfilled q (List.mem_cons_of_mem r' hq)) hcarries rfl
      rw [List.length_cons, Nat.add_comm (rest.length + 1), UInt8.ofNat_add, ← UInt8.add_assoc]
      exact hrest

/-- Any number of messages, from an idle receiver on. -/
theorem Collecting.groups {conn : Nat} {done done' : List (UInt8 × Bytes)}
    {groups : List (List Received)} (hcarries : List.Forall₂ Carries groups done')
    (hfilled : ∀ group ∈ groups, Filled group) {seq : UInt8} {s : BlufiLink} {ops : List BlufiOp}
    (hops : Transmits seq groups.flatten ops) (hseq : s.env.recvSeq = seq)
    (h : Collecting conn done [] s) :
    let s' := run (step cJSONParse) s ops
    s'.env.recvSeq = seq + UInt8.ofNat groups.flatten.length ∧
      Collecting conn (done ++ done') [] s' := by
  induction hcarries generalizing done seq s ops with
  | nil =>
    obtain ⟨hnext, hidle⟩ := Collecting.idle cJSONParse hops hseq h
    simp only [List.flatten_nil, List.length_nil, List.append_nil]
    exact ⟨by simpa using hnext, hidle⟩
  | @cons group message groups done' hgroup hrest ih =>
    obtain ⟨front, back, seq', rfl, hfront, hback, rfl⟩ := hops.split
    obtain ⟨rest, last, rfl, -⟩ := id hgroup
    obtain ⟨hnext, hidle⟩ := Collecting.group cJSONParse hfront hseq (h.retag last.1) rfl
      (hfilled _ List.mem_cons_self) hgroup conn
    have hlater := ih (fun g hg => hfilled g (List.mem_cons_of_mem _ hg)) hback
      (hnext.trans (by simp)) hidle
    have hlist : done ++ message :: done' = done ++ [message] ++ done' := by simp
    rw [run_append, List.flatten_cons, List.length_append, UInt8.ofNat_add, ← UInt8.add_assoc, hlist]
    exact hlater

theorem Collecting.of_idle {s : BlufiLink} (hwork : s.faulted = false) (hoffset : s.env.offset = 0)
    (hclosed : s.env.aggrBuf = none) : Collecting 0 (messages s.effects) [] s :=
  ⟨hwork, rfl, pending_nil 0 (holding_of_closed hoffset hclosed), fun _ => hclosed, by simp⟩

/-- An idle receiver hands over exactly the messages that the phone sends, each one once and in
order, and is idle again. -/
theorem messages_delivered (s : BlufiLink) (hwork : s.faulted = false)
    (hoffset : s.env.offset = 0) (hclosed : s.env.aggrBuf = none)
    (groups : List (List Received)) (sent : List (UInt8 × Bytes))
    (hcarries : List.Forall₂ Carries groups sent) (hfilled : ∀ group ∈ groups, Filled group)
    (ops : List BlufiOp) (hops : Transmits s.env.recvSeq groups.flatten ops) :
    let s' := run (step cJSONParse) s ops
    messages s'.effects = messages s.effects ++ sent ∧ s'.faulted = false ∧
      s'.env.offset = 0 ∧ s'.env.aggrBuf = none := by
  have hidle := Collecting.of_idle hwork hoffset hclosed
  obtain ⟨-, hdone⟩ := hidle.groups cJSONParse hcarries hfilled hops rfl
  exact ⟨hdone.delivered, hdone.working, hdone.pending.holding.offset_eq_zero.mpr rfl,
    hdone.closed rfl⟩

/-- The name of a network in two frames, with a JSON text between them. -/
theorem messages_delivered_ssid :
    messages (run (step fun _ => none) init
      [.receive .none ⟨true, true, true, true⟩ [0x09, 0x10, 0, 4, 3, 0, 0x61, 0x62],
        .receive .none ⟨true, true, true, true⟩ [0x7B, 0x22, 0x61, 0x22, 0x7D, 0x0A],
        .receive .none ⟨true, true, true, true⟩ [0x09, 0x00, 1, 1, 0x63]]).effects =
      [(0x09, [0x61, 0x62, 0x63])] := by
  have hfirst : BlufiFrame.of? .none [0x09, 0x10, 0, 4, 3, 0, 0x61, 0x62] =
      some ⟨⟨0x09, 0x10, 0, 4, [3, 0, 0x61, 0x62]⟩, [3, 0, 0x61, 0x62]⟩ := rfl
  have hlast : BlufiFrame.of? .none [0x09, 0x00, 1, 1, 0x63] =
      some ⟨⟨0x09, 0x00, 1, 1, [0x63]⟩, [0x63]⟩ := rfl
  refine (messages_delivered _ init rfl rfl rfl
    [[(0, ⟨⟨0x09, 0x10, 0, 4, [3, 0, 0x61, 0x62]⟩, [3, 0, 0x61, 0x62]⟩),
      (0, ⟨⟨0x09, 0x00, 1, 1, [0x63]⟩, [0x63]⟩)]] _ (.cons ?_ .nil) ?_ _ ?_).1
  · refine ⟨[_], _, rfl, ?_, rfl, rfl, ?_⟩
    · simp [BlufiHdr.isFrag]
    · rintro first ⟨rfl⟩
      rfl
  · decide
  · refine .frame hfirst rfl rfl (.noise _ _ ?_ (.frame hlast rfl rfl (.nil _)))
    intro hdr hpacket
    cases hpacket

end BlufiLink

end Leyu
