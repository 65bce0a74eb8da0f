import Leyu.Blufi.Receive

/-!
# What a message asks for

`btc_blufi_protocol_handler`: the type of a message selects the event that is posted, the reply
that is sent or the call of the negotiation. A handler that reads behind the message has no result.
-/

namespace Leyu

open Framework

inductive ProtocolEffect
  | post (event : BlufiEvent)
  | sendEncap (type : UInt8) (data : Bytes)
  | negotiate (data : Bytes)
  deriving DecidableEq, Repr

/-- `BLUFI_GET_TYPE` -/
def getType (type : UInt8) : UInt8 := type &&& 0x03

/-- `BLUFI_GET_SUBTYPE` -/
def getSubtype (type : UInt8) : UInt8 := (type &&& 0xFC) >>> (2 : UInt8)

/-- `BLUFI_BUILD_TYPE` -/
def buildType (type subtype : UInt8) : UInt8 := (type &&& 0x03) ||| subtype <<< (2 : UInt8)

namespace Protocol

def posts (event : BlufiEvent) : Option (List ProtocolEffect) := some [.post event]

/-- An event that carries `data[0]`. -/
def postsByte (event : UInt8 → BlufiEvent) (data : Bytes) : Option (List ProtocolEffect) :=
  data.head?.map fun b => [.post (event b)]

/-- An event that carries the first `n` bytes. -/
def postsBytes (event : Bytes → BlufiEvent) (n : Nat) (data : Bytes) :
    Option (List ProtocolEffect) :=
  if n ≤ data.length then posts (event (data.take n)) else none

def ctrl (subtype : UInt8) (data : Bytes) : Option (List ProtocolEffect) :=
  match subtype with
  | 0x02 => postsByte .setWifiOpmode data
  | 0x03 => posts .reqConnectToAp
  | 0x04 => posts .reqDisconnectFromAp
  | 0x05 => posts .getWifiStatus
  | 0x06 => posts .deauthenticateSta
  | 0x07 => some [.sendEncap (buildType 0x1 0x10) [0x01, 0x03]]
  | 0x08 => posts .recvSlaveDisconnectBle
  | 0x09 => posts .getWifiList
  -- an acknowledgement, the security mode that stays as it is, and what is unknown
  | _ => some []

def data (subtype : UInt8) (data : Bytes) : Option (List ProtocolEffect) :=
  match subtype with
  | 0x00 => some [.negotiate data]
  | 0x01 => postsBytes .recvStaBssid 6 data
  | 0x02 => posts (.recvStaSsid data)
  | 0x03 => posts (.recvStaPasswd data)
  | 0x04 => posts (.recvSoftapSsid data)
  | 0x05 => posts (.recvSoftapPasswd data)
  | 0x06 => postsByte .recvSoftapMaxConnNum data
  | 0x07 => postsByte .recvSoftapAuthMode data
  | 0x08 => postsByte .recvSoftapChannel data
  | 0x09 => posts (.recvUsername data)
  | 0x0a => posts (.recvCaCert data)
  | 0x0b => posts (.recvClientCert data)
  | 0x0c => posts (.recvServerCert data)
  | 0x0d => posts (.recvClientPrivKey data)
  | 0x0e => posts (.recvServerPrivKey data)
  | 0x13 => posts (.recvCustomData data)
  | _ => some []

end Protocol

/-- `btc_blufi_protocol_handler` -/
def protocolHandler (type : UInt8) (data : Bytes) : Option (List ProtocolEffect) :=
  match getType type with
  | 0x0 => Protocol.ctrl (getSubtype type) data
  | 0x1 => Protocol.data (getSubtype type) data
  | _ => some []

def protocolEvents (message : UInt8 × Bytes) : List BlufiEvent :=
  ((protocolHandler message.1 message.2).getD []).filterMap fun
    | .post event => some event
    | _ => none

/-- The events of the receiver's effects, those of the messages it hands over included. -/
def appEvents (effects : List BlufiEffect) : List BlufiEvent :=
  effects.flatMap fun
    | .post event => [event]
    | .handle type data => protocolEvents (type, data)
    | _ => []

@[simp] theorem appEvents_nil : appEvents [] = [] := rfl

@[simp] theorem appEvents_append (effects effects' : List BlufiEffect) :
    appEvents (effects ++ effects') = appEvents effects ++ appEvents effects' :=
  List.flatMap_append

end Leyu
