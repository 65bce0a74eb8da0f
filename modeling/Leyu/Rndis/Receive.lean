import Leyu.Rndis.Packet

/-!
# Receiving over RNDIS

The bytes of every transfer go to the ring buffer of the port, and the callback of the port cuts
frames off it. A transfer that does not fit is dropped. The length of a frame that is still coming
in is kept in a static variable, which outlives the port.
-/

namespace Leyu

open Framework RndisDataPacket

/-- `in_ringbuf` of the open port, `last_data_len`, and what `stack_input` has been given. -/
structure RndisRx where
  ring : Bytes
  lastDataLen : UInt32
  received : List Bytes

/-- What one pass of the loop goes by. -/
inductive RndisHead
  | wait
  | unknown
  | packet (dataLength : UInt32) (ring : Bytes)

inductive RndisOp
  /-- A transfer has completed. `heap` says which of the callback's allocations succeed. -/
  | transfer (heap : Nat → Bool) (bytes : Bytes)
  /-- The device is gone and comes back: the port is closed and opened. -/
  | reopen

/-- `in_ringbuf_size` -/
def rndisRingSize : Nat := 4096

/-- The frames of a read: a read of no bytes fails. -/
def framesOf (data : Bytes) : List Bytes := if data = [] then [] else [data]

namespace RndisRx

def init : RndisRx := ⟨[], 0, []⟩

def head (s : RndisRx) : RndisHead :=
  if s.lastDataLen = 0 then
    if s.ring.length ≤ rndisHeadLen then .wait
    else if messageTypeOf (s.ring.take rndisHeadLen) ≠ remoteNdisPacketMsg then .unknown
    else .packet (dataLengthOf (s.ring.take rndisHeadLen)) (s.ring.drop rndisHeadLen)
  else .packet s.lastDataLen s.ring

theorem head_shorter {s : RndisRx} {n : UInt32} {ring : Bytes} (h : s.head = .packet n ring)
    (hn : ¬ ring.length < n.toNat) : ring.length - n.toNat < s.ring.length := by
  unfold head at h
  split at h
  · split at h
    · cases h
    · next hlen =>
      split at h
      · cases h
      · obtain ⟨rfl, rfl⟩ := RndisHead.packet.inj h
        have hpos : 0 < rndisHeadLen := by decide
        simp only [List.length_drop]
        omega
  · next hlast =>
    obtain ⟨rfl, rfl⟩ := RndisHead.packet.inj h
    have hpos : s.lastDataLen.toNat ≠ 0 := fun h0 => hlast (UInt32.toNat_inj.mp h0)
    omega

/-- `_usbh_rndis_recv_data_cb` -/
def recvData (heap : Nat → Bool) (s : RndisRx) : RndisRx :=
  match h : s.head with
  | .wait => s
  | .unknown => { s with ring := [] }
  | .packet dataLength ring =>
      if hn : ring.length < dataLength.toNat then { s with ring := ring, lastDataLen := dataLength }
      else
        have := head_shorter h hn
        if heap 0 then
          recvData (fun k => heap (k + 1))
            ⟨ring.drop dataLength.toNat, 0, s.received ++ framesOf (ring.take dataLength.toNat)⟩
        else { s with ring := ring, lastDataLen := 0 }
  termination_by s.ring.length

/-- `in_xfer_cb`, up to the callback: what would fill the ring buffer is dropped. -/
def push (s : RndisRx) (bytes : Bytes) : RndisRx :=
  if rndisRingSize ≤ s.ring.length + bytes.length then s else { s with ring := s.ring ++ bytes }

def step (s : RndisRx) : RndisOp → RndisRx
  | .transfer heap bytes => (s.push bytes).recvData heap
  | .reopen => { s with ring := [] }

theorem recvData_wait {s : RndisRx} (h : s.head = .wait) (heap : Nat → Bool) :
    s.recvData heap = s := by
  rw [recvData]
  split
  · rfl
  all_goals
    next heq =>
      rw [h] at heq
      cases heq

theorem recvData_unknown {s : RndisRx} (h : s.head = .unknown) (heap : Nat → Bool) :
    s.recvData heap = { s with ring := [] } := by
  rw [recvData]
  split
  · next heq =>
    rw [h] at heq
    cases heq
  · rfl
  · next heq =>
    rw [h] at heq
    cases heq

theorem recvData_packet {s : RndisRx} {n : UInt32} {ring : Bytes} (h : s.head = .packet n ring)
    (heap : Nat → Bool) :
    s.recvData heap =
      if ring.length < n.toNat then { s with ring := ring, lastDataLen := n }
      else if heap 0 then
        recvData (fun k => heap (k + 1))
          ⟨ring.drop n.toNat, 0, s.received ++ framesOf (ring.take n.toNat)⟩
      else { s with ring := ring, lastDataLen := 0 } := by
  rw [recvData]
  split
  · next heq =>
    rw [h] at heq
    cases heq
  · next heq =>
    rw [h] at heq
    cases heq
  · next n' ring' heq =>
    rw [h] at heq
    obtain ⟨rfl, rfl⟩ := RndisHead.packet.inj heq
    split <;> rfl

/-- The stream the receiver stands in front of. Where the header of a frame has been read already,
it is counted in. -/
def Stands (s : RndisRx) (stream : Bytes) : Prop :=
  if s.lastDataLen = 0 then stream = s.ring
  else rndisHeadLen ≤ stream.length ∧ messageTypeOf stream = remoteNdisPacketMsg ∧
    dataLengthOf stream = s.lastDataLen ∧ stream.drop rndisHeadLen = s.ring

/-- The loop has gone as far as it can. -/
def Settled (s : RndisRx) : Prop :=
  if s.lastDataLen = 0 then s.ring.length ≤ rndisHeadLen
  else s.ring.length < s.lastDataLen.toNat

theorem Stands.push {s : RndisRx} {stream bytes : Bytes} (h : s.Stands stream)
    (hfit : s.ring.length + bytes.length < rndisRingSize) :
    (s.push bytes).Stands (stream ++ bytes) := by
  rw [RndisRx.push, if_neg (Nat.not_le_of_lt hfit)]
  unfold Stands at h ⊢
  split at h
  · next hlast => rw [if_pos hlast, h]
  · next hlast =>
    obtain ⟨hlen, htype, hdata, hring⟩ := h
    rw [if_neg hlast]
    refine ⟨?_, ?_, ?_, ?_⟩
    · rw [List.length_append]
      omega
    · rwa [messageTypeOf_append hlen]
    · rwa [dataLengthOf_append hlen]
    · rw [List.drop_append_of_le_length hlen, hring]

private theorem Stands.head {s : RndisRx} {stream : Bytes} (h : s.Stands stream) :
    (s.head = .wait ∧ s.Settled ∧ stream.length ≤ rndisHeadLen) ∨
      (s.head = .unknown ∧ ForeignHead stream) ∨
      ∃ n, s.head = .packet n (stream.drop rndisHeadLen) ∧ rndisHeadLen ≤ stream.length ∧
        messageTypeOf stream = remoteNdisPacketMsg ∧ dataLengthOf stream = n ∧
        (n = 0 → rndisHeadLen < stream.length) := by
  by_cases hlast : s.lastDataLen = 0
  · rw [Stands, if_pos hlast] at h
    subst h
    by_cases hlen : s.ring.length ≤ rndisHeadLen
    · refine .inl ⟨?_, ?_, hlen⟩
      · rw [RndisRx.head, if_pos hlast, if_pos hlen]
      · rwa [Settled, if_pos hlast]
    · have htake : rndisHeadLen ≤ (s.ring.take rndisHeadLen).length := by
        rw [List.length_take]
        omega
      have htype := messageTypeOf_append htake (s.ring.drop rndisHeadLen)
      have hdata := dataLengthOf_append htake (s.ring.drop rndisHeadLen)
      rw [List.take_append_drop] at htype hdata
      rw [RndisRx.head, if_pos hlast, if_neg hlen, ← htype, ← hdata]
      by_cases hmsg : messageTypeOf s.ring = remoteNdisPacketMsg
      · rw [if_neg (not_not.mpr hmsg)]
        have hlt := Nat.lt_of_not_le hlen
        exact .inr (.inr ⟨_, rfl, Nat.le_of_lt hlt, hmsg, rfl, fun _ => hlt⟩)
      · rw [if_pos hmsg]
        exact .inr (.inl ⟨rfl, Nat.lt_of_not_le hlen, hmsg⟩)
  · rw [Stands, if_neg hlast] at h
    obtain ⟨hlen, htype, hdata, hring⟩ := h
    refine .inr (.inr ⟨s.lastDataLen, ?_, hlen, htype, hdata, fun h0 => absurd h0 hlast⟩)
    rw [RndisRx.head, if_neg hlast, hring]

/-- As long as memory is there and the stream holds packets only, the callback hands over the
frames of the stream and stands in front of what is left. -/
theorem Stands.recvData {s : RndisRx} {stream : Bytes} (h : s.Stands stream) {heap : Nat → Bool}
    (hheap : ∀ k, heap k = true) (hown : ¬ ForeignHead (rndisFrames.drain stream).2) :
    (s.recvData heap).Stands (rndisFrames.drain stream).2 ∧ (s.recvData heap).Settled ∧
      (s.recvData heap).received =
        s.received ++ (rndisFrames.drain stream).1.flatMap framesOf := by
  induction hsize : s.ring.length using Nat.strongRecOn generalizing s stream heap with
  | ind size ih =>
    subst hsize
    rcases h.head with ⟨hhead, hsettled, hlen⟩ | ⟨hhead, hforeign⟩ |
      ⟨n, hhead, hlen, htype, hdata, hzero⟩
    · have hnext : rndisFrames.next stream = none := by
        simp [rndisFrames, nextRndisFrame, hlen]
      rw [recvData_wait hhead, Splitter.drain_of_none hnext]
      exact ⟨h, hsettled, by simp⟩
    · have hnext : rndisFrames.next stream = none := by
        simp [rndisFrames, nextRndisFrame, hforeign.2]
      rw [Splitter.drain_of_none hnext] at hown
      exact absurd hforeign hown
    · rw [recvData_packet hhead]
      by_cases hn : (stream.drop rndisHeadLen).length < n.toNat
      · have hnext : rndisFrames.next stream = none := by
          have hshort : stream.length - rndisHeadLen < n.toNat := by rwa [List.length_drop] at hn
          simp [rndisFrames, nextRndisFrame, hdata, hshort]
        have hne : n ≠ 0 := by
          rintro rfl
          exact absurd hn (Nat.not_lt_zero _)
        rw [if_pos hn, Splitter.drain_of_none hnext]
        refine ⟨?_, ?_, by simp⟩
        · rw [Stands, if_neg hne]
          exact ⟨hlen, htype, hdata, rfl⟩
        · rwa [Settled, if_neg hne]
      · have hfull : rndisHeadLen < stream.length := by
          by_cases h0 : n = 0
          · exact hzero h0
          · have hpos : n.toNat ≠ 0 := fun hz => h0 (UInt32.toNat_inj.mp hz)
            rw [List.length_drop] at hn
            omega
        have hnext : rndisFrames.next stream = some ((stream.drop rndisHeadLen).take n.toNat,
            (stream.drop rndisHeadLen).drop n.toNat) := by
          refine nextRndisFrame_eq_some.mpr ⟨hfull, htype, ?_, ?_⟩
          · exact (List.take_append_drop _ _).symm
          · rw [hdata]
            exact List.length_take_of_le (Nat.le_of_not_lt hn)
        have hshorter := head_shorter hhead hn
        rw [Splitter.drain_of_some hnext] at hown ⊢
        rw [if_neg hn, if_pos (hheap 0)]
        obtain ⟨hstands, hsettled, hlog⟩ :=
          ih ((stream.drop rndisHeadLen).drop n.toNat).length (by rwa [List.length_drop])
            (s := ⟨(stream.drop rndisHeadLen).drop n.toNat, 0,
              s.received ++ framesOf ((stream.drop rndisHeadLen).take n.toNat)⟩)
            (by simp [Stands]) (fun k => hheap (k + 1)) hown rfl
        refine ⟨hstands, hsettled, ?_⟩
        rw [hlog, List.flatMap_cons, List.append_assoc]

end RndisRx

end Leyu
