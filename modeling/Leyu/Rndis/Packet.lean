import Leyu.Framework.LittleEndian
import Leyu.Framework.Stream

/-!
# RNDIS data packets

The eleven words in front of an Ethernet frame, as the transmitter fills them in and as the
receiver reads them, and how a stream of bytes falls apart into packets.
-/

namespace Leyu

open Framework

/-- `REMOTE_NDIS_PACKET_MSG` -/
def remoteNdisPacketMsg : UInt32 := 1

/-- `sizeof(rndis_data_packet_t)` -/
def rndisHeadLen : Nat := 44

/-- `rndis_data_packet_t`. Nobody sets or reads the last seven words. -/
structure RndisDataPacket where
  messageType : UInt32
  messageLength : UInt32
  dataOffset : UInt32
  dataLength : UInt32
  others : Bytes
  length_others : others.length = 28

namespace RndisDataPacket

def toBytes (hdr : RndisDataPacket) : Bytes :=
  le32 hdr.messageType ++ le32 hdr.messageLength ++ le32 hdr.dataOffset ++ le32 hdr.dataLength ++
    hdr.others

@[simp] theorem length_toBytes (hdr : RndisDataPacket) : hdr.toBytes.length = rndisHeadLen := by
  simp [toBytes, hdr.length_others, rndisHeadLen]

/-- `pmsg.MessageType` -/
def messageTypeOf (pmsg : Bytes) : UInt32 := le32At pmsg 0

/-- `pmsg.DataLength` -/
def dataLengthOf (pmsg : Bytes) : UInt32 := le32At pmsg 12

@[simp] theorem messageTypeOf_toBytes (hdr : RndisDataPacket) (rest : Bytes) :
    messageTypeOf (hdr.toBytes ++ rest) = hdr.messageType := by
  have hsplit : hdr.toBytes ++ rest =
      [] ++ le32 hdr.messageType ++ (le32 hdr.messageLength ++ le32 hdr.dataOffset ++
        le32 hdr.dataLength ++ hdr.others ++ rest) := by
    simp [toBytes]
  rw [hsplit]
  exact le32At_append rfl hdr.messageType _

@[simp] theorem dataLengthOf_toBytes (hdr : RndisDataPacket) (rest : Bytes) :
    dataLengthOf (hdr.toBytes ++ rest) = hdr.dataLength := by
  have hsplit : hdr.toBytes ++ rest =
      (le32 hdr.messageType ++ le32 hdr.messageLength ++ le32 hdr.dataOffset) ++
        le32 hdr.dataLength ++ (hdr.others ++ rest) := by
    simp [toBytes]
  rw [hsplit]
  exact le32At_append (by simp) hdr.dataLength _

end RndisDataPacket

open RndisDataPacket

/-- The words of the header that the transmitter leaves as `malloc` returned them. -/
abbrev RndisFill := { fill : Bytes // fill.length = 28 }

/-- The header `usbh_rndis_transmit` puts in front of a frame. -/
def rndisHeader (fill : RndisFill) (buflen : UInt32) : RndisDataPacket where
  messageType := remoteNdisPacketMsg
  messageLength := 44 + buflen
  dataOffset := 44 - 8
  dataLength := buflen
  others := fill.1
  length_others := fill.2

/-- What `usbh_rndis_transmit` writes for a frame. -/
def rndisPacket (fill : RndisFill) (buffer : Bytes) : Bytes :=
  (rndisHeader fill (UInt32.ofNat buffer.length)).toBytes ++ buffer

/-- The packet at the front of a stream: the length of its data alone says where it ends, and
there must be something behind its header. -/
def nextRndisFrame (stream : Bytes) : Option (Bytes × Bytes) :=
  if stream.length ≤ rndisHeadLen then none
  else if messageTypeOf stream ≠ remoteNdisPacketMsg then none
  else if (stream.drop rndisHeadLen).length < (dataLengthOf stream).toNat then none
  else some ((stream.drop rndisHeadLen).take (dataLengthOf stream).toNat,
    (stream.drop rndisHeadLen).drop (dataLengthOf stream).toNat)

/-- The stream goes on with something else than a data packet. -/
def ForeignHead (stream : Bytes) : Prop :=
  rndisHeadLen < stream.length ∧ messageTypeOf stream ≠ remoteNdisPacketMsg

theorem nextRndisFrame_eq_some {stream frame rest : Bytes} :
    nextRndisFrame stream = some (frame, rest) ↔
      rndisHeadLen < stream.length ∧ messageTypeOf stream = remoteNdisPacketMsg ∧
        stream.drop rndisHeadLen = frame ++ rest ∧ frame.length = (dataLengthOf stream).toNat := by
  unfold nextRndisFrame
  constructor
  · intro h
    split at h
    · cases h
    · split at h
      · cases h
      · next hlen htype =>
        split at h
        · cases h
        · next hdata =>
          obtain ⟨rfl, rfl⟩ := Prod.mk.inj (Option.some.inj h)
          refine ⟨Nat.lt_of_not_le hlen, not_not.mp htype, (List.take_append_drop _ _).symm, ?_⟩
          exact List.length_take_of_le (Nat.le_of_not_lt hdata)
  · rintro ⟨hlen, htype, hsplit, hframe⟩
    have hdata : ¬ (stream.drop rndisHeadLen).length < (dataLengthOf stream).toNat := by
      rw [hsplit, List.length_append]
      omega
    rw [if_neg (Nat.not_le_of_lt hlen), if_neg (not_not.mpr htype), if_neg hdata, hsplit, ← hframe,
      List.take_left, List.drop_left]

private theorem le32At_append_right {text : Bytes} {start : Nat} (h : start + 4 ≤ text.length)
    (more : Bytes) : le32At (text ++ more) start = le32At text start := by
  have hstart : start ≤ text.length := by omega
  have hfour : 4 ≤ (text.drop start).length := by
    rw [List.length_drop]
    omega
  rw [le32At, le32At, List.drop_append_of_le_length hstart, List.take_append_of_le_length hfour]

theorem messageTypeOf_append {stream : Bytes} (h : rndisHeadLen ≤ stream.length) (more : Bytes) :
    messageTypeOf (stream ++ more) = messageTypeOf stream :=
  le32At_append_right (Nat.le_trans (by decide) h) more

theorem dataLengthOf_append {stream : Bytes} (h : rndisHeadLen ≤ stream.length) (more : Bytes) :
    dataLengthOf (stream ++ more) = dataLengthOf stream :=
  le32At_append_right (Nat.le_trans (by decide) h) more

/-- The RNDIS stream as a stream of frames. -/
def rndisFrames : Splitter UInt8 Bytes where
  next := nextRndisFrame
  shorter := by
    intro stream frame rest h
    obtain ⟨hlen, -, hsplit, -⟩ := nextRndisFrame_eq_some.mp h
    have hrest : (stream.drop rndisHeadLen).length = frame.length + rest.length := by
      rw [hsplit, List.length_append]
    rw [List.length_drop] at hrest
    have hpos : 0 < rndisHeadLen := by decide
    omega
  extend := by
    intro stream frame rest h more
    obtain ⟨hlen, htype, hsplit, hframe⟩ := nextRndisFrame_eq_some.mp h
    have hle := Nat.le_of_lt hlen
    refine nextRndisFrame_eq_some.mpr ⟨?_, ?_, ?_, ?_⟩
    · rw [List.length_append]
      omega
    · rwa [messageTypeOf_append hle]
    · rw [List.drop_append_of_le_length hle, hsplit, List.append_assoc]
    · rwa [dataLengthOf_append hle]

theorem next_rndisPacket (fill : RndisFill) {buffer : Bytes} (hne : buffer ≠ [])
    (hlen : buffer.length < 2 ^ 32) (more : Bytes) :
    rndisFrames.next (rndisPacket fill buffer ++ more) = some (buffer, more) := by
  have hpos := List.length_pos_iff.mpr hne
  refine nextRndisFrame_eq_some.mpr ⟨?_, ?_, ?_, ?_⟩
  · simp only [rndisPacket, List.length_append, length_toBytes]
    omega
  · rw [rndisPacket, List.append_assoc, messageTypeOf_toBytes]
    rfl
  · rw [rndisPacket, List.append_assoc, List.drop_left' (length_toBytes _)]
  · rw [rndisPacket, List.append_assoc, dataLengthOf_toBytes]
    exact (UInt32.toNat_ofNat_of_lt' hlen).symm

end Leyu
