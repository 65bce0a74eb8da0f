import Leyu.Rndis.Receive

/-!
# Frames from end to end

What `usbh_rndis_transmit` writes, received by the callback: the frames come out as they went in,
wherever the transfers cut them.
-/

namespace Leyu

open Framework RndisDataPacket

def RndisOp.bytes : RndisOp → Bytes
  | .transfer _ bytes => bytes
  | .reopen => []

/-- What is sent, frame by frame, with what the headers are filled with. -/
def rndisStream (sent : List (RndisFill × Bytes)) : Bytes :=
  (sent.map fun p => rndisPacket p.1 p.2).flatten

theorem next_of_sent {sent : List (RndisFill × Bytes)}
    (hsent : ∀ p ∈ sent, p.2 ≠ [] ∧ p.2.length ≤ 2048) :
    ∀ p ∈ sent, ∀ more, rndisFrames.next (rndisPacket p.1 p.2 ++ more) = some (p.2, more) := by
  intro p hp more
  obtain ⟨hne, hlen⟩ := hsent p hp
  exact next_rndisPacket p.1 hne (Nat.lt_of_le_of_lt hlen (by decide)) more

private theorem header_of_front {sent : List (RndisFill × Bytes)} {front more : Bytes}
    (h : front ++ more = rndisStream sent) (hlen : rndisHeadLen ≤ front.length) :
    messageTypeOf front = remoteNdisPacketMsg ∧
      ∃ p ∈ sent, dataLengthOf front = UInt32.ofNat p.2.length := by
  cases sent with
  | nil =>
    obtain ⟨rfl, -⟩ := List.append_eq_nil_iff.mp h
    exact absurd hlen (by decide)
  | cons p sent =>
    rw [← messageTypeOf_append hlen more, ← dataLengthOf_append hlen more, h, rndisStream,
      List.map_cons, List.flatten_cons, rndisPacket, List.append_assoc, messageTypeOf_toBytes,
      dataLengthOf_toBytes]
    exact ⟨rfl, p, List.mem_cons_self, rfl⟩

namespace RndisRx

/-- The transfer fits into the ring buffer, and the callback gets its memory. -/
def Feeds (s : RndisRx) : RndisOp → Prop
  | .transfer heap bytes => (∀ k, heap k = true) ∧ s.ring.length + bytes.length < rndisRingSize
  | .reopen => False

private theorem next_foreign {stream : Bytes} (h : ForeignHead stream) :
    rndisFrames.next stream = none := by
  simp [rndisFrames, nextRndisFrame, h.2]

private theorem foreign_stays (stream more : Bytes) (h : ForeignHead stream) :
    ForeignHead (rndisFrames.drain (stream ++ more)).2 := by
  have happend : ForeignHead (stream ++ more) := by
    refine ⟨?_, ?_⟩
    · rw [List.length_append]
      exact Nat.lt_of_lt_of_le h.1 (Nat.le_add_right _ _)
    · rw [messageTypeOf_append (Nat.le_of_lt h.1)]
      exact h.2
  rwa [Splitter.drain_of_none (next_foreign happend)]

/-- What is handed over depends on the stream alone, not on how the transfers cut it. -/
theorem received_of_stream {s : RndisRx} {stream : Bytes} (hs : s.Stands stream)
    (hwait : rndisFrames.next stream = none) {ops : List RndisOp} (hops : AllSteps step Feeds s ops)
    (hown : ¬ ForeignHead (rndisFrames.drain (stream ++ ops.flatMap RndisOp.bytes)).2) :
    (run step s ops).Stands (rndisFrames.drain (stream ++ ops.flatMap RndisOp.bytes)).2 ∧
      (run step s ops).received = s.received ++
        (rndisFrames.drain (stream ++ ops.flatMap RndisOp.bytes)).1.flatMap framesOf := by
  apply Splitter.feed_run RndisRx.received RndisOp.bytes framesOf ?_ ?_ hs hwait hops hown
  · intro xs more _ hbad
    exact foreign_stays xs more hbad
  · intro t xs op ht hfeeds hfine
    cases op with
    | reopen => exact hfeeds.elim
    | transfer heap bytes =>
      obtain ⟨hheap, hfit⟩ := hfeeds
      obtain ⟨hstands, -, hlog⟩ := (ht.push hfit).recvData hheap hfine
      refine ⟨hstands, ?_⟩
      rw [step, hlog, RndisRx.push, if_neg (Nat.not_le_of_lt hfit)]
      rfl

private theorem Settled.room {s : RndisRx} (hsettled : s.Settled) {stream more : Bytes}
    (hs : s.Stands stream) {sent : List (RndisFill × Bytes)}
    (hsent : ∀ p ∈ sent, p.2 ≠ [] ∧ p.2.length ≤ 2048) (h : stream ++ more = rndisStream sent) :
    s.ring.length < 2048 := by
  by_cases hlast : s.lastDataLen = 0
  · rw [Settled, if_pos hlast] at hsettled
    exact Nat.lt_of_le_of_lt hsettled (by decide)
  · rw [Settled, if_neg hlast] at hsettled
    rw [Stands, if_neg hlast] at hs
    obtain ⟨hlen, -, hdata, -⟩ := hs
    obtain ⟨-, p, hp, hp'⟩ := header_of_front h hlen
    have hshort := (hsent p hp).2
    rw [← hdata, hp', UInt32.toNat_ofNat_of_lt' (Nat.lt_of_le_of_lt hshort (by decide))] at hsettled
    omega

private theorem not_foreign_of_front {sent : List (RndisFill × Bytes)} {front more : Bytes}
    (h : front ++ more = rndisStream sent) : ¬ ForeignHead front := by
  rintro ⟨hlen, htype⟩
  exact htype (header_of_front h (Nat.le_of_lt hlen)).1

/-- Frames of at most 2048 bytes, in transfers of at most 2048 bytes, never overrun the ring
buffer, and the loop goes as far as it can. -/
theorem feeds_of_front {sent : List (RndisFill × Bytes)}
    (hsent : ∀ p ∈ sent, p.2 ≠ [] ∧ p.2.length ≤ 2048) {chunks : List Bytes}
    (hchunks : ∀ c ∈ chunks, c.length ≤ 2048) {s : RndisRx} {stream more : Bytes}
    (hs : s.Stands stream) (hsettled : s.Settled)
    (h : stream ++ chunks.flatten ++ more = rndisStream sent) :
    AllSteps step Feeds s (chunks.map (.transfer fun _ => true)) ∧
      (run step s (chunks.map (.transfer fun _ => true))).Settled := by
  induction chunks generalizing sent s stream with
  | nil => exact ⟨trivial, hsettled⟩
  | cons c chunks ih =>
    have hwhole : (stream ++ c) ++ (chunks.flatten ++ more) = rndisStream sent := by
      rw [← h, List.flatten_cons]
      simp only [List.append_assoc]
    have hroom : s.ring.length < 2048 :=
      hsettled.room hs hsent (by rwa [List.append_assoc] at hwhole)
    have hc := hchunks c List.mem_cons_self
    have hfit : s.ring.length + c.length < rndisRingSize := by
      rw [rndisRingSize]
      omega
    obtain ⟨done, todo, rfl, -, htodo⟩ := Splitter.drain_front (next_of_sent hsent) hwhole
    have hheap : ∀ k : Nat, (fun _ : Nat => true) k = true := fun _ => rfl
    obtain ⟨hstands, hsettled', -⟩ :=
      (hs.push hfit).recvData hheap (not_foreign_of_front htodo)
    have hrest :
        (rndisFrames.drain (stream ++ c)).2 ++ chunks.flatten ++ more = rndisStream todo := by
      rw [List.append_assoc]
      exact htodo
    obtain ⟨hfeeds, hend⟩ := ih (fun p hp => hsent p (List.mem_append_right done hp))
      (fun c' hc' => hchunks c' (List.mem_cons_of_mem c hc')) hstands hsettled' hrest
    exact ⟨⟨⟨hheap, hfit⟩, hfeeds⟩, hend⟩

theorem bytes_transfers (chunks : List Bytes) :
    (chunks.map (RndisOp.transfer fun _ => true)).flatMap RndisOp.bytes = chunks.flatten := by
  rw [List.flatMap_map, List.flatMap_def]
  exact congrArg List.flatten (List.map_id chunks)

theorem framesOf_sent {sent : List (RndisFill × Bytes)} (hsent : ∀ p ∈ sent, p.2 ≠ []) :
    (sent.map Prod.snd).flatMap framesOf = sent.map Prod.snd := by
  induction sent with
  | nil => rfl
  | cons p sent ih =>
    have hp := hsent p List.mem_cons_self
    have hrest := ih fun q hq => hsent q (List.mem_cons_of_mem p hq)
    rw [List.map_cons, List.flatMap_cons, hrest, framesOf, if_neg hp]
    rfl

theorem stands_idle {s : RndisRx} (hring : s.ring = []) (hlast : s.lastDataLen = 0) :
    s.Stands [] ∧ s.Settled := by
  rw [Stands, Settled, if_pos hlast, if_pos hlast, hring]
  exact ⟨rfl, Nat.zero_le _⟩

private theorem idle_of_stands {s : RndisRx} (h : s.Stands []) :
    s.ring = [] ∧ s.lastDataLen = 0 := by
  unfold Stands at h
  split at h
  · next hlast => exact ⟨h.symm, hlast⟩
  · exact absurd h.1 (by decide)

/-- Frames written one behind the other and cut into transfers anywhere arrive as they were, each
once and in order; at no time has anything else been handed over; and afterwards the receiver waits
for a header again. -/
theorem frames_received {sent : List (RndisFill × Bytes)}
    (hsent : ∀ p ∈ sent, p.2 ≠ [] ∧ p.2.length ≤ 2048) {chunks : List Bytes}
    (hchunks : ∀ c ∈ chunks, c.length ≤ 2048) (hcut : chunks.flatten = rndisStream sent)
    {s : RndisRx} (hring : s.ring = []) (hlast : s.lastDataLen = 0) :
    (∀ front, front <+: chunks → ∃ done, done <+: sent ∧
      (run step s (front.map (.transfer fun _ => true))).received =
        s.received ++ done.map Prod.snd) ∧
    (run step s (chunks.map (.transfer fun _ => true))).received =
      s.received ++ sent.map Prod.snd ∧
    (run step s (chunks.map (.transfer fun _ => true))).ring = [] ∧
    (run step s (chunks.map (.transfer fun _ => true))).lastDataLen = 0 := by
  obtain ⟨hs, hsettled⟩ := stands_idle hring hlast
  have hwait : rndisFrames.next [] = none := by decide
  have hnonempty : ∀ p ∈ sent, p.2 ≠ [] := fun p hp => (hsent p hp).1
  have hfront : ∀ front more, front ++ more = chunks → ∃ done todo, sent = done ++ todo ∧
      (rndisFrames.drain front.flatten).2 ++ more.flatten = rndisStream todo ∧
      (run step s (front.map (.transfer fun _ => true))).Stands
        (rndisFrames.drain front.flatten).2 ∧
      (run step s (front.map (.transfer fun _ => true))).received =
        s.received ++ done.map Prod.snd := by
    rintro front more rfl
    rw [List.flatten_append] at hcut
    have hshort : ∀ c ∈ front, c.length ≤ 2048 := fun c hc =>
      hchunks c (List.mem_append_left more hc)
    have hfeeds := (feeds_of_front hsent hshort hs hsettled hcut).1
    obtain ⟨done, todo, rfl, hdone, htodo⟩ := Splitter.drain_front (next_of_sent hsent) hcut
    have hrun := received_of_stream hs hwait hfeeds
    rw [bytes_transfers, List.nil_append] at hrun
    obtain ⟨hstands, hlog⟩ := hrun (not_foreign_of_front htodo)
    refine ⟨done, todo, rfl, htodo, hstands, ?_⟩
    rw [hlog, hdone, framesOf_sent fun p hp => hnonempty p (List.mem_append_left todo hp)]
  refine ⟨?_, ?_⟩
  · rintro front ⟨more, hmore⟩
    obtain ⟨done, todo, hsplit, -, -, hlog⟩ := hfront front more hmore
    exact ⟨done, ⟨todo, hsplit.symm⟩, hlog⟩
  · obtain ⟨done, todo, rfl, hrest, hstands, hlog⟩ := hfront chunks [] (List.append_nil chunks)
    rw [List.flatten_nil, List.append_nil] at hrest
    have hend := Splitter.next_drain (S := rndisFrames) chunks.flatten
    cases todo with
    | nil =>
      rw [hrest] at hstands
      rw [List.append_nil]
      exact ⟨hlog, idle_of_stands hstands⟩
    | cons p todo =>
      have hp := next_of_sent hsent p (by simp) (rndisStream todo)
      rw [hrest, rndisStream, List.map_cons, List.flatten_cons] at hend
      exact absurd (hp.symm.trans hend) (Option.some_ne_none _)

/-- Two frames whose packets are cut in the middle of a header and of a frame. -/
theorem frames_received_two :
    let fill : RndisFill := ⟨List.replicate 28 0xAA, rfl⟩
    let sent : List (RndisFill × Bytes) := [(fill, [1, 2, 3]), (fill, [4])]
    let stream := rndisStream sent
    let chunks := [stream.take 10, (stream.drop 10).take 36, [], (stream.drop 10).drop 36]
    (∀ front, front <+: chunks → ∃ done, done <+: sent ∧
      (run step init (front.map (.transfer fun _ => true))).received =
        init.received ++ done.map Prod.snd) ∧
    (run step init (chunks.map (.transfer fun _ => true))).received =
      init.received ++ sent.map Prod.snd ∧
    (run step init (chunks.map (.transfer fun _ => true))).ring = [] ∧
    (run step init (chunks.map (.transfer fun _ => true))).lastDataLen = 0 :=
  frames_received (by decide) (by decide) (by decide) rfl rfl

end RndisRx

end Leyu
