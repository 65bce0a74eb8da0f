import Leyu.Rndis.Delivery

/-!
# The length that is kept

`last_data_len` is static, and only a frame of that length sets it back. It is carried over to
the next connection, and where it is as large as the ring buffer nothing is ever received again.
-/

namespace Leyu

open Framework RndisDataPacket

namespace RndisRx

/-- What the callback does, pass by pass. -/
theorem recvData_rule {P : RndisRx → Prop}
    (hpass : ∀ s n ring, s.head = .packet n ring → P s →
      (ring.length < n.toNat → P { s with ring := ring, lastDataLen := n }) ∧
      (n.toNat ≤ ring.length → P { s with ring := ring, lastDataLen := 0 } ∧
        P ⟨ring.drop n.toNat, 0, s.received ++ framesOf (ring.take n.toNat)⟩))
    (hflush : ∀ s, s.head = .unknown → P s → P { s with ring := [] })
    (heap : Nat → Bool) {s : RndisRx} (hs : P s) : P (s.recvData heap) := by
  induction hsize : s.ring.length using Nat.strongRecOn generalizing s heap with
  | ind size ih =>
    subst hsize
    cases hhead : s.head with
    | wait => rwa [recvData_wait hhead]
    | unknown =>
      rw [recvData_unknown hhead]
      exact hflush s hhead hs
    | packet n ring =>
      obtain ⟨hshort, hlong⟩ := hpass s n ring hhead hs
      rw [recvData_packet hhead]
      by_cases hn : ring.length < n.toNat
      · rw [if_pos hn]
        exact hshort hn
      · obtain ⟨hfail, hnext⟩ := hlong (Nat.le_of_not_lt hn)
        have hshorter := head_shorter hhead hn
        rw [if_neg hn]
        split
        · apply ih _ ?_ _ hnext rfl
          rwa [List.length_drop]
        · exact hfail

private theorem head_ring_le {s : RndisRx} {n : UInt32} {ring : Bytes}
    (h : s.head = .packet n ring) :
    ring.length ≤ s.ring.length := by
  unfold head at h
  split at h
  · split at h
    · cases h
    · split at h
      · cases h
      · obtain ⟨rfl, rfl⟩ := RndisHead.packet.inj h
        rw [List.length_drop]
        exact Nat.sub_le _ _
  · obtain ⟨rfl, rfl⟩ := RndisHead.packet.inj h
    exact Nat.le_refl _

private theorem length_ring_recvData (heap : Nat → Bool) (s : RndisRx) :
    (s.recvData heap).ring.length ≤ s.ring.length := by
  apply recvData_rule (P := fun t => t.ring.length ≤ s.ring.length) ?_ ?_ heap (Nat.le_refl _)
  · intro t n ring hhead ht
    have hle := Nat.le_trans (head_ring_le hhead) ht
    refine ⟨fun _ => hle, fun _ => ⟨hle, ?_⟩⟩
    rw [List.length_drop]
    exact Nat.le_trans (Nat.sub_le _ _) hle
  · intro t _ _
    exact Nat.zero_le _

private theorem received_prefix_recvData (heap : Nat → Bool) (s : RndisRx) :
    s.received <+: (s.recvData heap).received := by
  apply recvData_rule (P := fun t => s.received <+: t.received) ?_ ?_ heap (List.prefix_refl _)
  · intro t n ring _ ht
    exact ⟨fun _ => ht, fun _ => ⟨ht, ht.trans (List.prefix_append _ _)⟩⟩
  · intro t _ ht
    exact ht

private theorem push_received (s : RndisRx) (bytes : Bytes) :
    (s.push bytes).received = s.received := by
  unfold push
  split <;> rfl

private theorem push_lastDataLen (s : RndisRx) (bytes : Bytes) :
    (s.push bytes).lastDataLen = s.lastDataLen := by
  unfold push
  split <;> rfl

private theorem length_ring_push {s : RndisRx} (hs : s.ring.length < rndisRingSize)
    (bytes : Bytes) :
    (s.push bytes).ring.length < rndisRingSize := by
  unfold push
  split
  · exact hs
  · next hfit =>
    rw [List.length_append]
    omega

private theorem length_ring_step {s : RndisRx} (hs : s.ring.length < rndisRingSize) (op : RndisOp) :
    (s.step op).ring.length < rndisRingSize := by
  cases op with
  | transfer heap bytes =>
    exact Nat.lt_of_le_of_lt (length_ring_recvData heap _) (length_ring_push hs bytes)
  | reopen => exact Nat.zero_lt_succ _

private theorem received_prefix_step (s : RndisRx) (op : RndisOp) :
    s.received <+: (s.step op).received := by
  cases op with
  | transfer heap bytes =>
    have h := received_prefix_recvData heap (s.push bytes)
    rwa [push_received] at h
  | reopen => exact List.prefix_refl _

theorem received_prefix_run (s : RndisRx) (ops : List RndisOp) :
    s.received <+: (run step s ops).received := by
  refine run_of_step (I := fun t : RndisRx => s.received <+: t.received) ?_ (List.prefix_refl _) ops
  intro t op ht
  exact ht.trans (received_prefix_step t op)

private theorem recvData_pending {s : RndisRx} (hlast : s.lastDataLen ≠ 0)
    (hshort : s.ring.length < s.lastDataLen.toNat) (heap : Nat → Bool) : s.recvData heap = s := by
  have hhead : s.head = .packet s.lastDataLen s.ring := by rw [head, if_neg hlast]
  rw [recvData_packet hhead, if_pos hshort]

private theorem recvData_complete {s : RndisRx} (hlast : s.lastDataLen ≠ 0)
    (hlong : s.lastDataLen.toNat ≤ s.ring.length) {heap : Nat → Bool} (hheap : heap 0 = true) :
    s.received ++ [s.ring.take s.lastDataLen.toNat] <+: (s.recvData heap).received := by
  have hhead : s.head = .packet s.lastDataLen s.ring := by rw [head, if_neg hlast]
  have hpos : s.lastDataLen.toNat ≠ 0 := fun h0 => hlast (UInt32.toNat_inj.mp h0)
  have hne : s.ring.take s.lastDataLen.toNat ≠ [] := by
    intro h0
    have hlen := congrArg List.length h0
    rw [List.length_take, List.length_nil] at hlen
    omega
  rw [recvData_packet hhead, if_neg (Nat.not_lt_of_le hlong), if_pos hheap, framesOf, if_neg hne]
  exact received_prefix_recvData (fun k => heap (k + 1))
    ⟨s.ring.drop s.lastDataLen.toNat, 0, s.received ++ [s.ring.take s.lastDataLen.toNat]⟩

private theorem transfer_pending {s : RndisRx} (hlast : s.lastDataLen ≠ 0) {bytes : Bytes}
    (hfit : s.ring.length + bytes.length < rndisRingSize)
    (hshort : s.ring.length + bytes.length < s.lastDataLen.toNat) (heap : Nat → Bool) :
    s.step (.transfer heap bytes) = { s with ring := s.ring ++ bytes } := by
  rw [step, push, if_neg (Nat.not_le_of_lt hfit)]
  apply recvData_pending (s := { s with ring := s.ring ++ bytes }) hlast
  rwa [List.length_append]

private theorem transfer_complete {s : RndisRx} (hlast : s.lastDataLen ≠ 0) {bytes : Bytes}
    (hfit : s.ring.length + bytes.length < rndisRingSize)
    (hlong : s.lastDataLen.toNat ≤ s.ring.length + bytes.length) (heap : Nat → Bool)
    (hheap : heap 0 = true) :
    s.received ++ [(s.ring ++ bytes).take s.lastDataLen.toNat] <+:
      (s.step (.transfer heap bytes)).received := by
  rw [step, push, if_neg (Nat.not_le_of_lt hfit)]
  rw [← List.length_append] at hlong
  exact recvData_complete (s := { s with ring := s.ring ++ bytes }) hlast hlong hheap

theorem pending_run {chunks : List Bytes} (hchunks : ∀ c ∈ chunks, c.length ≤ 2048) {s : RndisRx}
    (hlast : s.lastDataLen ≠ 0) (hmax : s.lastDataLen.toNat ≤ 2048)
    (hring : s.ring.length < s.lastDataLen.toNat)
    (hlong : s.lastDataLen.toNat ≤ s.ring.length + chunks.flatten.length) :
    s.received ++ [(s.ring ++ chunks.flatten).take s.lastDataLen.toNat] <+:
      (run step s (chunks.map (.transfer fun _ => true))).received := by
  induction chunks generalizing s with
  | nil =>
    rw [List.flatten_nil, List.length_nil] at hlong
    omega
  | cons c chunks ih =>
    have hc := hchunks c List.mem_cons_self
    have hfit : s.ring.length + c.length < rndisRingSize := by
      rw [rndisRingSize]
      omega
    rw [List.flatten_cons, List.length_append] at hlong
    rw [List.map_cons, run_cons, List.flatten_cons, ← List.append_assoc]
    by_cases hcut : s.ring.length + c.length < s.lastDataLen.toNat
    · rw [transfer_pending hlast hfit hcut]
      apply ih (s := { s with ring := s.ring ++ c }) ?_ hlast hmax
      · rwa [List.length_append]
      · rwa [List.length_append, Nat.add_assoc]
      · intro c' hc'
        exact hchunks c' (List.mem_cons_of_mem c hc')
    · have hle := Nat.le_of_not_lt hcut
      rw [List.take_append_of_le_length (by rwa [List.length_append])]
      exact (transfer_complete hlast hfit hle _ rfl).trans (received_prefix_run _ _)

private theorem next_cut (fill : RndisFill) {frame : Bytes} (hframe : frame.length < 2 ^ 32)
    {k : Nat} (hcut : k < frame.length) :
    rndisFrames.next ((rndisHeader fill (UInt32.ofNat frame.length)).toBytes ++ frame.take k) =
      none := by
  have hshort : (frame.take k).length < frame.length := by
    rw [List.length_take]
    omega
  have hdata : (dataLengthOf ((rndisHeader fill (UInt32.ofNat frame.length)).toBytes ++
      frame.take k)).toNat = frame.length := by
    rw [dataLengthOf_toBytes]
    exact UInt32.toNat_ofNat_of_lt' hframe
  show nextRndisFrame _ = none
  unfold nextRndisFrame
  rw [List.drop_left' (length_toBytes _), hdata, if_pos hshort]
  split
  · rfl
  · split <;> rfl

/-- Where the stream is cut off in the middle of a frame, the length of that frame is kept, and the
frames before it have been handed over. -/
theorem kept_of_cut {sent : List (RndisFill × Bytes)}
    (hsent : ∀ p ∈ sent, p.2 ≠ [] ∧ p.2.length ≤ 2048) {fill : RndisFill} {frame : Bytes}
    (hframe : frame.length ≤ 2048) {k : Nat} (hk : 0 < k) (hcut : k < frame.length)
    {front : List Bytes} (hfront : ∀ c ∈ front, c.length ≤ 2048)
    (hlost : front.flatten = rndisStream sent ++
      ((rndisHeader fill (UInt32.ofNat frame.length)).toBytes ++ frame.take k))
    {s : RndisRx} (hring : s.ring = []) (hlast : s.lastDataLen = 0) :
    (run step s (front.map (.transfer fun _ => true))).lastDataLen = UInt32.ofNat frame.length ∧
      (run step s (front.map (.transfer fun _ => true))).received =
        s.received ++ sent.map Prod.snd := by
  obtain ⟨hs, hsettled⟩ := stands_idle hring hlast
  have hne : frame ≠ [] := by
    rintro rfl
    exact Nat.not_lt_zero k hcut
  have hall : ∀ p ∈ sent ++ [(fill, frame)], p.2 ≠ [] ∧ p.2.length ≤ 2048 := by
    intro p hp
    rcases List.mem_append.mp hp with hp | hp
    · exact hsent p hp
    · obtain rfl := List.mem_singleton.mp hp
      exact ⟨hne, hframe⟩
  have hwhole : [] ++ front.flatten ++ frame.drop k = rndisStream (sent ++ [(fill, frame)]) := by
    rw [hlost]
    simp [rndisStream, rndisPacket]
  obtain ⟨hfeeds, hgone⟩ := feeds_of_front hall hfront hs hsettled hwhole
  have hdrain : rndisFrames.drain front.flatten = (sent.map Prod.snd,
      (rndisHeader fill (UInt32.ofNat frame.length)).toBytes ++ frame.take k) := by
    rw [hlost, rndisStream, Splitter.drain_encoded (next_of_sent hsent), Splitter.drain_of_none
      (next_cut fill (Nat.lt_of_le_of_lt hframe (by decide)) hcut), List.append_nil]
  have hwait : rndisFrames.next [] = none := by decide
  have hrun := received_of_stream hs hwait hfeeds
  rw [bytes_transfers, List.nil_append, hdrain] at hrun
  have hown : ¬ ForeignHead ((rndisHeader fill (UInt32.ofNat frame.length)).toBytes ++
      frame.take k) := fun h => h.2 (messageTypeOf_toBytes _ _)
  obtain ⟨hstands, hlog⟩ := hrun hown
  refine ⟨?_, ?_⟩
  · by_contra hlength
    unfold Stands at hstands
    unfold Settled at hgone
    split at hstands
    · next h0 =>
      rw [if_pos h0, ← hstands] at hgone
      simp only [List.length_append, length_toBytes, List.length_take] at hgone
      omega
    · exact hlength (hstands.2.2.1.symm.trans (dataLengthOf_toBytes _ _))
  · rw [hlog, framesOf_sent fun p hp => (hsent p hp).1]

/-- The device is unplugged in the middle of a frame, however it and the frames before it have been
cut into transfers. The first thing that is handed over after it has been plugged in again are as
many bytes of the new connection as the lost frame had, its headers among them. -/
theorem cut_frame_completed {sent : List (RndisFill × Bytes)}
    (hsent : ∀ p ∈ sent, p.2 ≠ [] ∧ p.2.length ≤ 2048) {fill : RndisFill} {frame : Bytes}
    (hframe : frame.length ≤ 2048) {k : Nat} (hk : 0 < k) (hcut : k < frame.length)
    {front : List Bytes} (hfront : ∀ c ∈ front, c.length ≤ 2048)
    (hlost : front.flatten = rndisStream sent ++
      ((rndisHeader fill (UInt32.ofNat frame.length)).toBytes ++ frame.take k))
    {chunks : List Bytes} (hchunks : ∀ c ∈ chunks, c.length ≤ 2048)
    (hlong : frame.length ≤ chunks.flatten.length)
    {s : RndisRx} (hring : s.ring = []) (hlast : s.lastDataLen = 0) :
    s.received ++ sent.map Prod.snd ++ [chunks.flatten.take frame.length] <+:
      (run step s (front.map (.transfer fun _ => true) ++ .reopen ::
        chunks.map (.transfer fun _ => true))).received := by
  obtain ⟨hkept, hlog⟩ := kept_of_cut hsent hframe hk hcut hfront hlost hring hlast
  rw [run_append, run_cons, ← hlog]
  generalize run step s (front.map (.transfer fun _ => true)) = t at hkept ⊢
  have hcount : t.lastDataLen.toNat = frame.length := by
    rw [hkept]
    exact UInt32.toNat_ofNat_of_lt' (Nat.lt_of_le_of_lt hframe (by decide))
  have hne : t.lastDataLen ≠ 0 := by
    intro h0
    rw [h0] at hcount
    have hzero : (0 : UInt32).toNat = 0 := rfl
    omega
  have hrun := pending_run hchunks (s := t.step .reopen) hne (by show t.lastDataLen.toNat ≤ _; omega)
    (by show 0 < t.lastDataLen.toNat; omega)
    (by show t.lastDataLen.toNat ≤ 0 + _; omega)
  rw [show (t.step .reopen).lastDataLen.toNat = frame.length from hcount] at hrun
  exact hrun

/-- A frame arrives, and two bytes of the next one, of eight. The header of the new connection makes
up what the stack gets for the lost frame. -/
theorem cut_frame_completed_eight :
    let fill : RndisFill := ⟨List.replicate 28 0, rfl⟩
    let lost := rndisPacket fill [9] ++ ((rndisHeader fill 8).toBytes ++ [1, 2])
    let front := [lost.take 50, lost.drop 50]
    let chunks := [rndisPacket fill [0xEE, 0xEE]]
    init.received ++ [[9]] ++ [chunks.flatten.take 8] <+:
      (run step init (front.map (.transfer fun _ => true) ++ .reopen ::
        chunks.map (.transfer fun _ => true))).received :=
  @cut_frame_completed [(⟨List.replicate 28 0, rfl⟩, [9])] (by decide) ⟨List.replicate 28 0, rfl⟩
    [1, 2, 3, 4, 5, 6, 7, 8] (by decide) 2 (by decide) (by decide) _ (by decide) (by decide) _
    (by decide) (by decide) init rfl rfl

/-- No transfer is longer than the buffer it is read to. -/
def ShortTransfers (ops : List RndisOp) : Prop := ∀ op ∈ ops, op.bytes.length ≤ 2048

private theorem silent_step {s : RndisRx} (hring : s.ring.length < rndisRingSize)
    (hlast : rndisRingSize ≤ s.lastDataLen.toNat) (op : RndisOp) :
    (s.step op).received = s.received ∧ (s.step op).lastDataLen = s.lastDataLen := by
  cases op with
  | transfer heap bytes =>
    have hne : (s.push bytes).lastDataLen ≠ 0 := by
      rw [push_lastDataLen]
      intro h0
      rw [h0] at hlast
      exact absurd hlast (by decide)
    have hshort : (s.push bytes).ring.length < (s.push bytes).lastDataLen.toNat := by
      rw [push_lastDataLen]
      exact Nat.lt_of_lt_of_le (length_ring_push hring bytes) hlast
    rw [step, recvData_pending hne hshort]
    exact ⟨push_received s bytes, push_lastDataLen s bytes⟩
  | reopen => exact ⟨rfl, rfl⟩

private theorem two_transfers {s : RndisRx} (hring : s.ring = []) (hlast : s.lastDataLen ≠ 0)
    (hsize : s.lastDataLen.toNat < rndisRingSize) {first second : Bytes}
    (hall : first.length + second.length = s.lastDataLen.toNat)
    (hless : first.length < s.lastDataLen.toNat) :
    s.received ++ [first ++ second] <+:
      (run step s [.transfer (fun _ => true) first, .transfer (fun _ => true) second]).received := by
  have hone : s.step (.transfer (fun _ => true) first) = { s with ring := first } := by
    have hshort : s.ring.length + first.length < s.lastDataLen.toNat := by
      rwa [hring, List.length_nil, Nat.zero_add]
    have hstep := transfer_pending hlast (Nat.lt_trans hshort hsize) hshort fun _ => true
    rwa [hring] at hstep
  have hfit : first.length + second.length < rndisRingSize := hall ▸ hsize
  have htwo := transfer_complete (s := { s with ring := first }) hlast hfit
    (Nat.le_of_eq hall.symm) (fun _ => true) rfl
  have htake : (first ++ second).take s.lastDataLen.toNat = first ++ second := by
    rw [← hall, ← List.length_append, List.take_length]
  rw [htake] at htwo
  rw [run_cons, hone]
  exact htwo

private theorem speaks {s : RndisRx} (hlast : s.lastDataLen.toNat < rndisRingSize) :
    ∃ ops, ShortTransfers ops ∧ (run step s ops).received ≠ s.received := by
  have hlonger : ∀ {t : RndisRx} {xs : Bytes}, s.received ++ [xs] <+: t.received →
      t.received ≠ s.received := by
    intro t xs h heq
    have hlen := h.length_le
    rw [heq, List.length_append] at hlen
    exact absurd hlen (Nat.not_succ_le_self _)
  by_cases h0 : s.lastDataLen = 0
  · let packet := rndisPacket ⟨List.replicate 28 0, rfl⟩ [0]
    have hheap : ∀ k : Nat, (fun _ : Nat => true) k = true := fun _ => rfl
    have hnext : rndisFrames.next packet = some ([0], []) := by decide
    have hdrain : rndisFrames.drain packet = ([[0]], []) := by
      have hempty : rndisFrames.next [] = none := by decide
      rw [Splitter.drain_of_some hnext, Splitter.drain_of_none hempty]
    have hring : (s.step .reopen).ring = [] := rfl
    have hstands : (s.step .reopen).Stands [] := (stands_idle hring h0).1
    have hown : ¬ ForeignHead (rndisFrames.drain ([] ++ packet)).2 := by
      rw [List.nil_append, hdrain]
      exact fun h => absurd h.1 (by decide)
    have hpacket : 0 + packet.length < rndisRingSize := by decide
    have hroom : (s.step .reopen).ring.length + packet.length < rndisRingSize := hpacket
    have hframe := ((hstands.push hroom).recvData hheap hown).2.2
    rw [List.nil_append, hdrain, push_received] at hframe
    refine ⟨[.reopen, .transfer (fun _ => true) packet], ?_, ?_⟩
    · intro op hop
      simp only [List.mem_cons, List.not_mem_nil, or_false] at hop
      rcases hop with rfl | rfl
      · exact Nat.zero_le _
      · decide
    · have hsent : s.received ++ [[0]] =
          (run step s [.reopen, .transfer (fun _ => true) packet]).received := hframe.symm
      exact hlonger ⟨[], (List.append_nil _).trans hsent⟩
  · have hpos : s.lastDataLen.toNat ≠ 0 := fun hz => h0 (UInt32.toNat_inj.mp hz)
    have hsize := hlast
    rw [rndisRingSize] at hsize
    let first : Bytes := List.replicate (s.lastDataLen.toNat / 2) 0
    let second : Bytes := List.replicate (s.lastDataLen.toNat - s.lastDataLen.toNat / 2) 0
    have hfirst : first.length = s.lastDataLen.toNat / 2 := List.length_replicate
    have hsecond : second.length = s.lastDataLen.toNat - s.lastDataLen.toNat / 2 :=
      List.length_replicate
    have hall : first.length + second.length = s.lastDataLen.toNat := by omega
    have hless : first.length < s.lastDataLen.toNat := by omega
    refine ⟨[.reopen, .transfer (fun _ => true) first, .transfer (fun _ => true) second], ?_, ?_⟩
    · intro op hop
      simp only [List.mem_cons, List.not_mem_nil, or_false] at hop
      rcases hop with rfl | rfl | rfl
      · exact Nat.zero_le _
      · rw [RndisOp.bytes, hfirst]
        omega
      · rw [RndisOp.bytes, hsecond]
        omega
    · rw [run_cons]
      exact hlonger (two_transfers (s := s.step .reopen) rfl h0 hlast hall hless)

/-- From some point of a run on, whatever the device sends and however often it is plugged in
again, nothing is received any more: this is so exactly when the length that is kept is not below
the size of the ring buffer. -/
theorem silent_iff (before : List RndisOp) :
    (∀ ops, ShortTransfers ops →
      (run step (run step init before) ops).received = (run step init before).received) ↔
    rndisRingSize ≤ (run step init before).lastDataLen.toNat := by
  have hring : (run step init before).ring.length < rndisRingSize := by
    apply run_of_step (I := fun t : RndisRx => t.ring.length < rndisRingSize)
    · intro t op ht
      exact length_ring_step ht op
    · decide
  constructor
  · intro hsilent
    by_contra hlast
    obtain ⟨ops, hshort, hspeaks⟩ := speaks (Nat.lt_of_not_le hlast)
    exact hspeaks (hsilent ops hshort)
  · intro hlast ops _
    refine (run_of_step (I := fun t : RndisRx => t.ring.length < rndisRingSize ∧
      rndisRingSize ≤ t.lastDataLen.toNat ∧ t.received = (run step init before).received) ?_
      ⟨hring, hlast, rfl⟩ ops).2.2
    rintro t op ⟨htring, htlast, htreceived⟩
    obtain ⟨hreceived, hkept⟩ := silent_step htring htlast op
    exact ⟨length_ring_step htring op, hkept ▸ htlast, hreceived.trans htreceived⟩

end RndisRx

end Leyu
