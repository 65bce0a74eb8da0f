import Leyu.Framework.LittleEndian
import Leyu.Framework.Routine

/-!
# Control messages of RNDIS

The commands by which the driver asks the device for its properties and sets them, and the
handshake made of them. A command goes out in one control transfer and its response is fetched by
another; the response is read as it stands.
-/

namespace Leyu

open Framework

/-- `uint8_t data[256]` -/
abbrev RndisBuffer := { data : Bytes // data.length = 256 }

/-- The object that has been asked for, and the room there is for what the device says of it. -/
structure RndisQuery where
  oid : UInt32
  room : Nat

/-- What the task of the driver needs from outside. -/
inductive RndisControl
  /-- `CDC_REQ_SEND_ENCAPSULATED_COMMAND` -/
  | send (message : Bytes)
  /-- `CDC_REQ_GET_ENCAPSULATED_RESPONSE`. The request itself does not say which query, if any, it is
  made for. -/
  | receive (query : Option RndisQuery)
  /-- An array on the stack, with what happens to be in it. -/
  | array (size : Nat)

def RndisControl.Answer : RndisControl → Type
  | .send _ => Bool
  | .receive _ => Option RndisBuffer
  | .array size => { data : Bytes // data.length = size }

/-- The bits of the event group. -/
structure RndisEvents where
  connected : Bool
  disconnected : Bool
  lineChange : Bool
  stop : Bool
  deriving DecidableEq, Repr

def RndisEvents.none : RndisEvents := ⟨false, false, false, false⟩

/-- Where the callbacks of the port stand: one that opens it or closes it has more than one step. -/
inductive RndisCable
  | absent | opening | present | leaving
  deriving DecidableEq, Repr

/-- `usbh_rndis_t`, as far as its task is concerned. `link` is what the network has been told. -/
structure Rndis where
  events : RndisEvents
  cable : RndisCable
  cdcPort : Bool
  requestId : UInt32
  maxTransferPkts : UInt32
  maxTransferSize : UInt32
  linkSpeed : Bytes
  connectStatus : Bool
  macAddr : Bytes
  ethMacAddr : Bytes
  link : Bool

abbrev RndisRoutine := Routine Rndis RndisControl.Answer

namespace RndisRoutine

open Routine

def send (message : Bytes) : RndisRoutine Bool := request (RndisControl.send message)

def receive (query : Option RndisQuery) : RndisRoutine (Option RndisBuffer) :=
  request (RndisControl.receive query)

def array (size : Nat) : RndisRoutine { data : Bytes // data.length = size } :=
  request (RndisControl.array size)

/-- `rndis->request_id++` -/
def nextRequestId : RndisRoutine UInt32 := do
  let rndis ← current
  modify fun rndis => { rndis with requestId := rndis.requestId + 1 }
  return rndis.requestId

/-- A retry loop around a command. -/
def sendRetry (message : Bytes) : Nat → RndisRoutine Bool
  | 0 => return false
  | tries + 1 => do
      if ← send message then return true
      else sendRetry message tries

/-- A retry loop around the fetching of a response. -/
def receiveRetry (query : Option RndisQuery) : Nat → RndisRoutine (Option RndisBuffer)
  | 0 => return none
  | tries + 1 => do
      match ← receive query with
      | some resp => return some resp
      | none => receiveRetry query tries

end RndisRoutine

/-- `rndis_initialize_msg_t` -/
def rndisInitializeMsg (requestId : UInt32) : Bytes :=
  le32 2 ++ le32 24 ++ le32 requestId ++ le32 1 ++ le32 0 ++ le32 0x4000

/-- What `usbh_rndis_query_msg_request` sends of `data`: as many bytes as an initialize message has,
and those of the query. -/
def rndisQueryMsg (data : RndisBuffer) (requestId oid queryLen : UInt32) : Bytes :=
  (le32 4 ++ le32 (queryLen + 28) ++ le32 requestId ++ le32 oid ++ le32 queryLen ++ le32 20 ++
    le32 0 ++ data.val.drop 28).take (24 + queryLen.toNat)

/-- `rndis_set_msg_t` and the information behind it. -/
def rndisSetMsg (requestId oid : UInt32) (info : Bytes) : Bytes :=
  le32 5 ++ le32 (UInt32.ofNat info.length + 28) ++ le32 requestId ++ le32 oid ++
    le32 (UInt32.ofNat info.length) ++ le32 20 ++ le32 0 ++ info

/-- `rndis_keepalive_msg_t` -/
def rndisKeepaliveMsg (requestId : UInt32) : Bytes := le32 8 ++ le32 12 ++ le32 requestId

/-- `resp->InformationBufferLength` -/
def informationLength (resp : RndisBuffer) : Nat := (le32At resp.val 16).toNat

/-- What a response says of the object. -/
def information (resp : RndisBuffer) : Bytes := (resp.val.drop 24).take (informationLength resp)

/-- `memcpy(info, resp + 1, resp->InformationBufferLength)` -/
def copyInformation (resp : RndisBuffer) (info : Bytes) : Bytes :=
  information resp ++ info.drop (informationLength resp)

/-- The copy stays inside the response and inside the array. -/
def InformationFits (room : Nat) (resp : RndisBuffer) : Prop :=
  24 + informationLength resp ≤ 256 ∧ informationLength resp ≤ room

instance (room : Nat) (resp : RndisBuffer) : Decidable (InformationFits room resp) :=
  inferInstanceAs (Decidable (_ ∧ _))

/-- `OID_GEN_SUPPORTED_LIST` -/
def oidSupportedList : UInt32 := 0x00010101

/-- `OID_GEN_LINK_SPEED` -/
def oidLinkSpeed : UInt32 := 0x00010107

/-- `OID_GEN_CURRENT_PACKET_FILTER` -/
def oidCurrentPacketFilter : UInt32 := 0x0001010E

/-- `OID_GEN_MEDIA_CONNECT_STATUS` -/
def oidMediaConnectStatus : UInt32 := 0x00010114

/-- `OID_802_3_CURRENT_ADDRESS` -/
def oidCurrentAddress : UInt32 := 0x01010102

/-- `OID_802_3_MULTICAST_LIST` -/
def oidMulticastList : UInt32 := 0x01010103

/-- The objects that the handshake asks for, with the length it gives its query. The others are
`OID_GEN_PHYSICAL_MEDIUM`, `OID_GEN_MAXIMUM_FRAME_SIZE`, `OID_802_3_MAXIMUM_LIST_SIZE`,
`OID_802_3_PERMANENT_ADDRESS` and `OID_GEN_MAXIMUM_TOTAL_SIZE`. -/
def oidQueryLen (oid : UInt32) : Option UInt32 :=
  if oid = 0x00010202 ∨ oid = 0x00010106 ∨ oid = oidLinkSpeed ∨ oid = oidMediaConnectStatus ∨
      oid = 0x01010104 ∨ oid = 0x00010111 then some 4
  else if oid = oidCurrentAddress ∨ oid = 0x01010101 then some 6
  else none

/-- `oid_support_list` -/
def oidsOf (tmpBuffer : Bytes) (dataLen : Nat) : List UInt32 :=
  (List.range (dataLen / 4)).map fun i => le32At tmpBuffer (4 * i)

/-- `NDIS_MEDIA_STATE_CONNECTED == data[0]` -/
def mediaConnected (data : Bytes) : Bool := data.head? = some 0

/-- What `usbh_rndis_connect` keeps of an object. -/
def Rndis.keepObject (oid : UInt32) (data : Bytes) (rndis : Rndis) : Rndis :=
  if oid = oidLinkSpeed then { rndis with linkSpeed := data.take 4 }
  else if oid = oidMediaConnectStatus then { rndis with connectStatus := mediaConnected data }
  else if oid = oidCurrentAddress then { rndis with ethMacAddr := data.take 6 }
  else rndis

namespace RndisRoutine

open Routine

/-- `usbh_rndis_init_msg_request`. Whether the command could be sent is not looked at. -/
def initMsgRequest : RndisRoutine Bool := do
  let id ← nextRequestId
  let _ ← send (rndisInitializeMsg id)
  match ← receive none with
  | none => return false
  | some resp =>
    modify fun rndis => { rndis with
      maxTransferPkts := le32At resp.val 32
      maxTransferSize := le32At resp.val 36 }
    return true

/-- `usbh_rndis_query_msg_request`: the array with the information copied to it and the length. -/
def queryMsgRequest (oid queryLen : UInt32) (info : Bytes) : RndisRoutine (Option (Bytes × Nat)) := do
  let data ← array 256
  let id ← nextRequestId
  if ← sendRetry (rndisQueryMsg data id oid queryLen) 3 then
    match ← receiveRetry (some ⟨oid, info.length⟩) 3 with
    | none => return none
    | some resp =>
      if InformationFits info.length resp then
        return some (copyInformation resp info, informationLength resp)
      else fault
  else return none

/-- `usbh_rndis_set_msg_request`. Whether the command could be sent is not looked at. -/
def setMsgRequest (oid : UInt32) (info : Bytes) : RndisRoutine Bool := do
  let id ← nextRequestId
  let _ ← send (rndisSetMsg id oid info)
  let resp ← receive none
  return resp.isSome

/-- The loop over `oid_support_list`. -/
def queryObjects : List UInt32 → Bytes → RndisRoutine Bool
  | [], _ => return true
  | oid :: oids, data =>
      match oidQueryLen oid with
      | none => queryObjects oids data
      | some queryLen => do
          match ← queryMsgRequest oid queryLen data with
          | none => return false
          | some (data, _) =>
            modify (Rndis.keepObject oid data)
            queryObjects oids data

/-- `usbh_rndis_connect` -/
def connect : RndisRoutine Bool := do
  if ← initMsgRequest then
    let tmpBuffer ← array 256
    match ← queryMsgRequest oidSupportedList 0 tmpBuffer.val with
    | none => return false
    | some (tmpBuffer, dataLen) =>
      let data ← array 32
      if ← queryObjects (oidsOf tmpBuffer dataLen) data.val then
        if ← setMsgRequest oidCurrentPacketFilter (le32 0x0F) then
          let rndis ← current
          setMsgRequest oidMulticastList rndis.macAddr
        else return false
      else return false
  else return false

/-- `usbh_rndis_get_connect_status` -/
def getConnectStatus : RndisRoutine Bool := do
  let data ← array 32
  match ← queryMsgRequest oidMediaConnectStatus 4 data.val with
  | none => return false
  | some (data, _) =>
    let connectStatus := mediaConnected data
    let rndis ← current
    if connectStatus = rndis.connectStatus then return true
    else do
      modify fun rndis => { rndis with connectStatus := connectStatus }
      modify fun rndis => { rndis with events := { rndis.events with lineChange := true } }
      return true

/-- `usbh_rndis_keepalive` -/
def keepalive : RndisRoutine Bool := do
  let id ← nextRequestId
  if ← sendRetry (rndisKeepaliveMsg id) 3 then
    return (← receiveRetry none 3).isSome
  else return false

end RndisRoutine

end Leyu
