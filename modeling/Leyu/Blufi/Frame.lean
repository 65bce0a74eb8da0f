import Leyu.Framework.CString
import Leyu.Framework.LittleEndian

/-!
# BLUFI frames

The header the phone puts in front of what it sends, the checks `btc_blufi_recv_handler` makes
before it looks at the payload, and the events it posts to the application.
-/

namespace Leyu

open Framework

/-- `esp_blufi_error_state_t` -/
inductive BlufiError
  | sequence | checksum | decrypt | encrypt | initSecurity | dhMalloc | dhParam | readParam
  | makePublic | dataFormat | calcMd5 | wifiScanFail | msgState
  deriving DecidableEq, Repr

/-- `esp_blufi_cb_event_t`, with what the phone can cause and the parameters that come with it. -/
inductive BlufiEvent
  | setWifiOpmode (opMode : UInt8)
  | bleConnect
  | bleDisconnect
  | reqConnectToAp
  | reqDisconnectFromAp
  | getWifiStatus
  | deauthenticateSta
  | recvStaBssid (bssid : Bytes)
  | recvStaSsid (ssid : Bytes)
  | recvStaPasswd (passwd : Bytes)
  | recvSoftapSsid (ssid : Bytes)
  | recvSoftapPasswd (passwd : Bytes)
  | recvSoftapMaxConnNum (maxConnNum : UInt8)
  | recvSoftapAuthMode (authMode : UInt8)
  | recvSoftapChannel (channel : UInt8)
  | recvUsername (name : Bytes)
  | recvCaCert (cert : Bytes)
  | recvClientCert (cert : Bytes)
  | recvServerCert (cert : Bytes)
  | recvClientPrivKey (pkey : Bytes)
  | recvServerPrivKey (pkey : Bytes)
  | recvSlaveDisconnectBle
  | getWifiList
  | reportError (state : BlufiError)
  | recvCustomData (data : Bytes)
  deriving DecidableEq, Repr

/-- `struct blufi_hdr`; `data` is all that stands behind the header, the checksum included. -/
structure BlufiHdr where
  type : UInt8
  fc : UInt8
  seq : UInt8
  dataLen : UInt8
  data : Bytes
  deriving DecidableEq, Repr

namespace BlufiHdr

def isEnc (hdr : BlufiHdr) : Bool := hdr.fc &&& 0x01 != 0

def isCheck (hdr : BlufiHdr) : Bool := hdr.fc &&& 0x02 != 0

def isReqAck (hdr : BlufiHdr) : Bool := hdr.fc &&& 0x08 != 0

def isFrag (hdr : BlufiHdr) : Bool := hdr.fc &&& 0x10 != 0

/-- `(struct blufi_hdr *)data`, for a packet that is as long as the header. -/
def ofPacket : Bytes → Option BlufiHdr
  | type :: fc :: seq :: dataLen :: data => some ⟨type, fc, seq, dataLen, data⟩
  | _ => none

/-- `target_data_len`, the header left out. -/
def targetDataLen (hdr : BlufiHdr) : Nat :=
  if hdr.isCheck then hdr.dataLen.toNat + 2 else hdr.dataLen.toNat

end BlufiHdr

/-- Two bytes as a number, the low one first; nothing when the bytes end before. -/
def le16? : Bytes → Option UInt16
  | lo :: hi :: _ => some (lo.toUInt16 ||| hi.toUInt16 <<< 8)
  | _ => none

/-- `is_json_data`: the packet ends in a line feed, and a brace stands behind the header. -/
def isJsonData (packet : Bytes) : Bool :=
  packet.getLast? == some 0x0A && (packet.drop 4).any fun c => c == 0x7B || c == 0x7D

/-- A function that works on a buffer in place. -/
structure InPlace where
  run : UInt8 → Bytes → Option Bytes
  length_eq : ∀ iv xs ys, run iv xs = some ys → ys.length = xs.length

/-- `esp_blufi_callbacks_t`, as far as receiving goes; decrypting fails when it returns another
length than it was given. -/
structure BlufiCallbacks where
  decryptFunc : Option InPlace
  checksumFunc : Option (UInt8 → Bytes → UInt16)

namespace BlufiCallbacks

def none : BlufiCallbacks := ⟨Option.none, Option.none⟩

def decrypt (cbs : BlufiCallbacks) (hdr : BlufiHdr) : Except BlufiError Bytes :=
  if hdr.isEnc then
    match cbs.decryptFunc with
    | Option.none => .ok hdr.data
    | some f =>
        match f.run hdr.seq (hdr.data.take hdr.dataLen.toNat) with
        | Option.none => .error .decrypt
        | some plain => .ok (plain ++ hdr.data.drop hdr.dataLen.toNat)
  else .ok hdr.data

def verify (cbs : BlufiCallbacks) (hdr : BlufiHdr) (data : Bytes) : Except BlufiError Bytes :=
  if hdr.isCheck then
    match cbs.checksumFunc with
    | Option.none => .ok data
    | some f =>
        let covered := hdr.seq :: hdr.dataLen :: data.take hdr.dataLen.toNat
        if le16? (data.drop hdr.dataLen.toNat) = some (f hdr.seq covered) then .ok data
        else .error .checksum
  else .ok data

/-- `hdr->data` after the first and the second step of the receiver. -/
def openData (cbs : BlufiCallbacks) (hdr : BlufiHdr) : Except BlufiError Bytes :=
  cbs.decrypt hdr >>= cbs.verify hdr

private theorem verify_eq_ok {cbs : BlufiCallbacks} {hdr : BlufiHdr} {data data' : Bytes}
    (h : cbs.verify hdr data = .ok data') : data' = data := by
  simp only [verify] at h
  split at h
  · split at h
    · exact (Except.ok.inj h).symm
    · split at h
      · exact (Except.ok.inj h).symm
      · cases h
  · exact (Except.ok.inj h).symm

private theorem length_decrypt {cbs : BlufiCallbacks} {hdr : BlufiHdr} {data : Bytes}
    (h : cbs.decrypt hdr = .ok data) : data.length = hdr.data.length := by
  simp only [decrypt] at h
  split at h
  · split at h
    · exact congrArg List.length (Except.ok.inj h).symm
    · split at h
      · cases h
      · next f _ _ plain hrun =>
        have hlen := f.length_eq _ _ _ hrun
        rw [← Except.ok.inj h, List.length_append, hlen, ← List.length_append,
          List.take_append_drop]
  · exact congrArg List.length (Except.ok.inj h).symm

theorem length_openData {cbs : BlufiCallbacks} {hdr : BlufiHdr} {data : Bytes}
    (h : cbs.openData hdr = .ok data) : data.length = hdr.data.length := by
  simp only [openData] at h
  cases hplain : cbs.decrypt hdr with
  | error e =>
    rw [hplain] at h
    cases h
  | ok plain =>
    rw [hplain] at h
    rw [verify_eq_ok h]
    exact length_decrypt hplain

end BlufiCallbacks

/-- What the receiver makes of a packet before it looks at the sequence number. -/
inductive BlufiPacket
  | short
  | json
  | badLength
  | framed (hdr : BlufiHdr)

def BlufiPacket.ofBytes (packet : Bytes) : BlufiPacket :=
  match BlufiHdr.ofPacket packet with
  | none => .short
  | some hdr =>
      if isJsonData packet then .json
      else if hdr.data.length ≠ hdr.targetDataLen then .badLength
      else .framed hdr

end Leyu
