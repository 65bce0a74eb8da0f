import Leyu.Blufi.Frame
import Leyu.Framework.Cells
import Leyu.Framework.Runs

/-!
# Receiving from the phone

`btc_blufi_recv_handler` and what a connection and its end do to `blufi_env`. The handler returns
what it has done in the order in which it did it. Where it leaves a packet or a buffer the machine
stops, and so it does where it would hand over a byte that was never written.
-/

namespace Leyu

open Framework

/-- `tBLUFI_ENV`, as far as receiving goes. -/
structure BlufiEnv where
  isConnected : Bool
  recvSeq : UInt8
  aggrBuf : Option (Cells UInt8)
  totalLen : UInt16
  offset : UInt16

/-- Where the receiver allocates. -/
inductive BlufiSite
  | jsonStr | jsonObj | ssidBuf | passwdBuf | aggrBuf
  deriving DecidableEq, Repr

inductive BlufiEffect
  | malloc (site : BlufiSite)
  | free (site : BlufiSite)
  /-- A message to the application, `btc_transfer_context`. -/
  | post (event : BlufiEvent)
  | sendAck (seq : UInt8)
  /-- The call of `btc_blufi_protocol_handler`. -/
  | handle (type : UInt8) (data : Bytes)
  deriving DecidableEq, Repr

/-- Which allocations of one call succeed. -/
structure BlufiHeap where
  jsonStr : Bool
  ssidBuf : Bool
  passwdBuf : Bool
  aggrBuf : Bool

/-- The string members of a document. -/
abbrev StringItems := Text → Option Bytes

structure BlufiOutcome where
  env : BlufiEnv
  effects : List BlufiEffect
  faulted : Bool

namespace BlufiEnv

def init : BlufiEnv := ⟨false, 0, none, 0, 0⟩

def reportError (env : BlufiEnv) (state : BlufiError) : BlufiOutcome :=
  ⟨env, [.post (.reportError state)], false⟩

/-- An access outside of what is allocated. -/
def violation (env : BlufiEnv) : BlufiOutcome := ⟨env, [], true⟩

/-- `json_obj` as the handler goes through it, up to `cJSON_Delete`. -/
def jsonRequest (heap : BlufiHeap) (item : StringItems) : List BlufiEffect :=
  if item "getwifilist".toList = some [0x31] then [.post .getWifiList]
  else
    match item "ssid".toList, item "password".toList with
    | some ssid, some passwd =>
        -- `msg.sig` and `msg.pid` are set with the name only; a password without it is taken here
        -- for a regular event, though the source posts a message that was not initialised.
        (if heap.ssidBuf then [.malloc .ssidBuf, .post (.recvStaSsid ssid)] else []) ++
        (if heap.passwdBuf then [.malloc .passwdBuf, .post (.recvStaPasswd passwd)] else []) ++
        [.post .reqConnectToAp]
    | _, _ => []

/-- The branch of packets that look like JSON. -/
def jsonEffects (cJSONParse : Bytes → Option StringItems) (heap : BlufiHeap) (packet : Bytes) :
    List BlufiEffect :=
  if heap.jsonStr then
    .malloc .jsonStr ::
      (match cJSONParse (packet.takeWhile (· ≠ 0)) with
        | none => []
        | some item => .malloc .jsonObj :: jsonRequest heap item ++ [.free .jsonObj]) ++
      [.free .jsonStr]
  else []

/-- The copy of a fragment to `aggr_buf`, behind the two bytes of the length that is left. -/
def copyFragment (env : BlufiEnv) (dataLen : UInt8) (data : Bytes) : BlufiOutcome :=
  if (env.offset.toNat : Int) + dataLen.toNat - 2 ≤ env.totalLen.toNat then
    match slice data 2 (dataLen.toNat - 2), env.aggrBuf with
    | some content, some buf =>
        match buf.write env.offset.toNat content with
        | some buf =>
            ⟨{ env with aggrBuf := some buf, offset := env.offset + (dataLen.toUInt16 - 2) }, [],
              false⟩
        | none => env.violation
    | _, _ => env.violation
  else env.reportError .dataFormat

/-- The branch of `BLUFI_FC_IS_FRAG`. -/
def fragment (heap : BlufiHeap) (env : BlufiEnv) (dataLen : UInt8) (data : Bytes) :
    BlufiOutcome :=
  if env.offset = 0 then
    if env.aggrBuf.isSome then env.reportError .msgState
    else
      match le16? data with
      | none => env.violation
      | some totalLen =>
          if heap.aggrBuf then
            let opened :=
              { env with totalLen := totalLen, aggrBuf := some (Cells.malloc totalLen.toNat) }
            let out := opened.copyFragment dataLen data
            { out with effects := .malloc .aggrBuf :: out.effects }
          else { env with totalLen := totalLen }.reportError .dhMalloc
  else env.copyFragment dataLen data

/-- The branch of a frame that is the last one, or the only one. -/
def complete (env : BlufiEnv) (type : UInt8) (dataLen : UInt8) (data : Bytes) : BlufiOutcome :=
  if env.offset = 0 then ⟨env, [.handle type (data.take dataLen.toNat)], false⟩
  else
    match env.aggrBuf with
    | none => env.reportError .dhMalloc
    | some buf =>
        if env.offset.toNat + dataLen.toNat ≠ env.totalLen.toNat then env.reportError .dataFormat
        else
          match buf.write env.offset.toNat (data.take dataLen.toNat) with
          | none => env.violation
          | some buf =>
              match Cells.text buf with
              | none => env.violation
              | some message =>
                  ⟨{ env with offset := 0, aggrBuf := none },
                    [.handle type message, .free .aggrBuf], false⟩

/-- What happens to a frame once its sequence number has been counted. -/
def acceptFrame (cbs : BlufiCallbacks) (heap : BlufiHeap) (env : BlufiEnv) (hdr : BlufiHdr) :
    BlufiOutcome :=
  match cbs.openData hdr with
  | .error e => env.reportError e
  | .ok data =>
      let out :=
        if hdr.isFrag then env.fragment heap hdr.dataLen data
        else env.complete hdr.type hdr.dataLen data
      { out with effects := (if hdr.isReqAck then [.sendAck hdr.seq] else []) ++ out.effects }

/-- `blufi_env.recv_seq++` -/
def counted (env : BlufiEnv) : BlufiEnv := { env with recvSeq := env.recvSeq + 1 }

@[simp] theorem counted_recvSeq (env : BlufiEnv) : env.counted.recvSeq = env.recvSeq + 1 := rfl

/-- `btc_blufi_recv_handler` -/
def recvHandler (cJSONParse : Bytes → Option StringItems) (cbs : BlufiCallbacks)
    (heap : BlufiHeap) (env : BlufiEnv) (packet : Bytes) : BlufiOutcome :=
  match BlufiPacket.ofBytes packet with
  | .short => env.reportError .dataFormat
  | .json => ⟨env, jsonEffects cJSONParse heap packet, false⟩
  | .badLength => env.reportError .dataFormat
  | .framed hdr =>
      if hdr.seq ≠ env.recvSeq then env.reportError .sequence
      else env.counted.acceptFrame cbs heap hdr

/-- `BTA_GATTS_CONNECT_EVT` -/
def connect (env : BlufiEnv) : BlufiOutcome :=
  ⟨{ env with isConnected := true, recvSeq := 0 }, [.post .bleConnect], false⟩

/-- `BTA_GATTS_DISCONNECT_EVT` -/
def disconnect (env : BlufiEnv) : BlufiOutcome :=
  ⟨{ env with isConnected := false, recvSeq := 0, offset := 0, aggrBuf := none },
    (if env.aggrBuf.isSome then [.free .aggrBuf] else []) ++ [.post .bleDisconnect], false⟩

end BlufiEnv

/-- What reaches the receiver. Callbacks and heap answer differently from call to call. -/
inductive BlufiOp
  | connect
  | disconnect
  | receive (cbs : BlufiCallbacks) (heap : BlufiHeap) (packet : Bytes)

/-- The receiver, with all that it has done. Behind a fault nothing more happens. -/
structure BlufiLink where
  env : BlufiEnv
  effects : List BlufiEffect
  faulted : Bool

namespace BlufiLink

def init : BlufiLink := ⟨.init, [], false⟩

def outcome (cJSONParse : Bytes → Option StringItems) (env : BlufiEnv) : BlufiOp → BlufiOutcome
  | .connect => env.connect
  | .disconnect => env.disconnect
  | .receive cbs heap packet => env.recvHandler cJSONParse cbs heap packet

def step (cJSONParse : Bytes → Option StringItems) (s : BlufiLink) (op : BlufiOp) : BlufiLink :=
  if s.faulted then s
  else
    let out := outcome cJSONParse s.env op
    ⟨out.env, s.effects ++ out.effects, out.faulted⟩

end BlufiLink

end Leyu
