import Leyu.Rndis.TaskRules

/-!
# A device that checks the length of its commands

A query goes out four bytes shorter than its header says. With a device that does not take such a
command the handshake never gets past its first message, and no later query brings the link up.
-/

namespace Leyu

open Framework Routine

private theorem length_rndisQueryMsg (data : RndisBuffer) (requestId oid : UInt32)
    {queryLen : UInt32} (hlen : queryLen.toNat ≤ 228) :
    (rndisQueryMsg data requestId oid queryLen).length = 24 + queryLen.toNat := by
  simp only [rndisQueryMsg, List.length_take, List.length_append, List.length_drop, length_le32,
    data.property]
  omega

private theorem messageLength_rndisQueryMsg (data : RndisBuffer) (requestId oid queryLen : UInt32) :
    le32At (rndisQueryMsg data requestId oid queryLen) 4 = queryLen + 28 := by
  have hkept : 4 + 4 ≤ 24 + queryLen.toNat := by omega
  rw [rndisQueryMsg, le32At_take hkept]
  simp only [List.append_assoc]
  rw [← List.append_assoc (le32 4)]
  exact le32At_append (length_le32 4) (queryLen + 28) _

/-- What a device answers that takes a command only if it is as long as its header says. -/
def Strict : (r : RndisControl) → r.Answer → Prop
  | .send message => fun sent => sent = true → message.length = (le32At message 4).toNat
  | .receive _ => fun _ => True
  | .array _ => fun _ => True

private theorem strict_query {data : RndisBuffer} {requestId oid queryLen : UInt32}
    (hlen : queryLen.toNat ≤ 228) :
    ¬ Strict (.send (rndisQueryMsg data requestId oid queryLen)) true := by
  intro hstrict
  have hequal := hstrict rfl
  rw [length_rndisQueryMsg data requestId oid hlen, messageLength_rndisQueryMsg,
    UInt32.toNat_add] at hequal
  have hwide : (28 : UInt32).toNat = 28 := rfl
  rw [hwide] at hequal
  omega

namespace Rndis

/-- The link is down and nothing is on its way that could bring it up. -/
def Dark (s : Rndis) : Prop :=
  s.link = false ∧ s.connectStatus = false ∧ s.events.lineChange = false

private theorem framed_dark : Framed Disturbed Dark := by
  refine ⟨?_, fun _ _ h => h, fun _ _ _ h => h⟩
  rintro s s' (rfl | rfl) h
  · obtain ⟨events, cable⟩ := s
    cases cable <;> simp_all [Dark, callback]
  · exact h

end Rndis

namespace RndisRoutine

open Rndis

abbrev StrictSafe {ε : Type} (post : ε → Rndis → Prop) (p : RndisRoutine ε) (s : Rndis) : Prop :=
  Safe Disturbed (fun _ _ => True) (fun _ => Strict) post p s

private theorem hears_anything : Hears Disturbed (fun _ => Strict) fun _ => True :=
  ⟨fun _ _ _ h => h, fun _ _ _ _ => trivial⟩

private theorem query_refused (oid : UInt32) {queryLen : UInt32} (hlen : queryLen.toNat ≤ 228)
    (info : Bytes) {s : Rndis} (h : s.Dark) :
    StrictSafe (fun result s => result = none ∧ s.Dark) (queryMsgRequest oid queryLen info) s := by
  apply (safe_queryMsgRequest framed_dark hears_anything oid queryLen info h).mono
  rintro result s ⟨hs, hqueried, -⟩
  cases result with
  | none => exact ⟨rfl, hs⟩
  | some result =>
    obtain ⟨⟨data, id, s₀, -, hsent⟩, -⟩ := hqueried
    exact absurd hsent (strict_query hlen)

private theorem connect_refused {s : Rndis} (h : s.Dark) :
    StrictSafe (fun done s => done = false ∧ s.Dark) connect s := by
  have hstable : Stable Disturbed fun s => false = false ∧ s.Dark :=
    fun s s' hs h => ⟨rfl, framed_dark.stable s s' hs h.2⟩
  apply (safe_initMsgRequest framed_dark hears_anything h).seq
  rintro ready s ⟨hs, -⟩
  cases ready with
  | false => exact safe_pure hstable ⟨rfl, hs⟩
  | true =>
    apply (safe_array framed_dark 256 hs).seq
    intro tmpBuffer s hs
    apply (query_refused oidSupportedList (by decide) tmpBuffer.val hs).seq
    rintro list s ⟨rfl, hs⟩
    exact safe_pure hstable ⟨rfl, hs⟩

private theorem getConnectStatus_refused {s : Rndis} (h : s.Dark) :
    StrictSafe (fun _ => Dark) getConnectStatus s := by
  apply (safe_array framed_dark 32 h).seq
  intro data s hs
  apply (query_refused oidMediaConnectStatus (by decide) data.val hs).seq
  rintro result s ⟨rfl, hs⟩
  exact safe_return framed_dark.stable hs

private theorem idle_dark (counters : RndisCounters) {s : Rndis} (h : s.Dark) :
    StrictSafe (fun _ => Dark) (idle counters) s := by
  have hstable := framed_dark.stable
  have hcheck (counters : RndisCounters) : StrictSafe (fun _ => Dark) (checkStatus counters) s := by
    rw [checkStatus]
    split
    · apply (getConnectStatus_refused h).seq
      intro asked s hs
      cases asked <;> exact safe_return hstable hs
    · exact safe_return hstable h
  apply (hcheck _).seq
  intro counters s hs
  apply Safe.seq (M := fun _ => Dark)
  · exact safe_current hstable (fun _ => hstable) (fun _ hs => hs) hs
  · intro rndis s hs
    split
    · exact (safe_keepalive framed_dark hears_anything hs).seq fun _ s hs => safe_return hstable hs
    · exact safe_return hstable hs

private theorem turn_dark (counters : RndisCounters) (events : RndisEvents) {s : Rndis}
    (h : s.Dark) :
    StrictSafe (fun _ => Dark) (turn counters events) s := by
  have hstable := framed_dark.stable
  have hstage (link : Rndis → Bool) (hlink : ∀ s : Rndis, s.Dark → link s = false) {s : Rndis}
      (hs : s.Dark) : StrictSafe (fun _ => Dark) (do stageLink link; return RndisCounters.zero) s := by
    apply Safe.seq (M := fun _ => Dark)
    · exact safe_modify hstable hstable (fun s hs _ => ⟨hlink s hs, hs.2⟩) hs
    · exact fun _ s hs => safe_return hstable hs
  have hbranch {taken : Bool} {routine : RndisRoutine RndisCounters}
      (hroutine : ∀ s, s.Dark → StrictSafe (fun _ => Dark) routine s) (counters : RndisCounters)
      {s : Rndis} (hs : s.Dark) : StrictSafe (fun _ => Dark) (branch taken routine counters) s := by
    cases taken with
    | false => exact safe_return hstable hs
    | true => exact hroutine s hs
  have hconnected (s : Rndis) (hs : s.Dark) :
      StrictSafe (fun _ => Dark) (handleConnected counters) s := by
    apply (connect_refused hs).seq
    rintro connected s ⟨rfl, hs⟩
    exact safe_return hstable hs
  have hdisconnected (s : Rndis) (hs : s.Dark) : StrictSafe (fun _ => Dark) handleDisconnected s := by
    apply Safe.seq (M := fun _ => Dark)
    · exact safe_modify hstable hstable (fun s hs _ => hs) hs
    · exact fun _ s hs => hstage _ (fun _ _ => rfl) hs
  have hline (s : Rndis) (hs : s.Dark) := hstage (fun rndis => rndis.connectStatus)
    (fun s hs => hs.2.1) hs
  apply (hbranch hconnected counters h).seq
  intro counters s hs
  apply (hbranch hdisconnected counters hs).seq
  intro counters s hs
  apply (hbranch hline counters hs).seq
  intro counters s hs
  split
  · exact safe_return hstable hs
  · apply Safe.seq (M := fun _ => Dark)
    · exact safe_current hstable (fun _ => hstable) (fun _ hs => hs) hs
    · intro rndis s hs
      split
      · exact (idle_dark counters hs).seq fun _ s hs => safe_return hstable hs
      · exact safe_return hstable hs

end RndisRoutine

namespace RndisLinkOp

/-- The device, if it is asked, is strict. -/
def Strict : RndisLinkOp → Prop
  | .task device => ∀ r, Leyu.Strict r (device r)
  | _ => True

end RndisLinkOp

namespace RndisLink

open Rndis RndisRoutine

private theorem strict_answer (s : Rndis) {device : (r : RndisControl) → r.Answer}
    (h : ∀ r, Strict r (device r)) (r : RndisControl) : Strict r (s.answer device r) := by
  cases r with
  | receive query => trivial
  | array size => trivial
  | send message =>
    by_cases hgone : s.Gone
    · have hanswer : s.answer device (.send message) = false := if_pos hgone
      rw [hanswer]
      intro hfalse
      cases hfalse
    · have hanswer : s.answer device (.send message) = device (.send message) := if_neg hgone
      rw [hanswer]
      exact h (.send message)

/-- With a device that checks the length of its commands the link is down whenever the task waits,
however often the device is plugged in and whatever it answers to what it takes. -/
theorem strict_never_up (macAddr : Bytes) {ops : List RndisLinkOp} (hops : ∀ op ∈ ops, op.Strict)
    {counters : RndisCounters} (hwait : (run step (init macAddr) ops).task = .waiting counters) :
    (run step (init macAddr) ops).rndis.link = false := by
  have hstep (s : RndisLink) (op : RndisLinkOp)
      (hs : s.Keeps Disturbed (fun _ _ => True) (fun _ => Strict) fun _ => Dark)
      (hop : op.Strict) :
      (s.step op).Keeps Disturbed (fun _ _ => True) (fun _ => Strict) fun _ => Dark := by
    cases op with
    | callback => exact hs.disturb (fun _ => framed_dark.stable) (.inl rfl)
    | stop => exact hs.disturb (fun _ => framed_dark.stable) (.inr rfl)
    | task device =>
      apply hs.taskStep _ (fun _ => rfl) (strict_answer s.rndis hop) trivial
      intro counters _ hdark
      have hwoken : ({ s.rndis with events := .none } : Rndis).Dark := ⟨hdark.1, hdark.2.1, rfl⟩
      apply (turn_dark counters s.rndis.events hwoken).mono
      intro result s hs
      cases result with
      | none => trivial
      | some counters => exact hs
  have hinit : (init macAddr).Keeps Disturbed (fun _ _ => True) (fun _ => Strict) fun _ => Dark :=
    ⟨rfl, rfl, rfl⟩
  have hkeeps := (allStates_of_labels hstep hinit hops).last
  rw [Keeps, hwait] at hkeeps
  exact hkeeps.1

/-- A device that takes the first command and answers it, and refuses the query behind it. -/
theorem strict_never_up_query :
    let device : (r : RndisControl) → r.Answer
      | .send message => decide (message.length = (le32At message 4).toNat)
      | .receive _ => some ⟨List.replicate 256 0, List.length_replicate⟩
      | .array size => ⟨List.replicate size 0, List.length_replicate⟩
    let ops := List.replicate 2 .callback ++ List.replicate 14 (.task device)
    (run step (init [2, 0, 0, 0, 0, 1]) ops).rndis.requestId = 2 ∧
      (run step (init [2, 0, 0, 0, 0, 1]) ops).rndis.link = false := by
  intro device ops
  have hops : ∀ op ∈ ops, op.Strict := by
    intro op hop
    rcases List.mem_append.mp hop with hop | hop
    · rw [List.eq_of_mem_replicate hop]
      trivial
    · rw [List.eq_of_mem_replicate hop]
      rintro (message | query | size)
      · exact of_decide_eq_true
      · trivial
      · trivial
  have hwaits : (run step (init [2, 0, 0, 0, 0, 1]) ops).wakesUp := by decide +kernel
  obtain ⟨counters, hwait⟩ := hwaits
  exact ⟨by decide +kernel, strict_never_up _ hops hwait⟩

end RndisLink

end Leyu
