import JellyBroker.Packet.Types
import JellyBroker.Utils.Buffer
/-!
# Packet bodies

The fields of each packet and the parser of its body.  A body parser reads from
the buffer behind the fixed header.
-/

namespace JellyBroker.Packet

open JellyBroker.Utils

structure ConnectPacket where
  protocolName : Bytes
  protocolLevel : UInt8 := 0
  cleanSession : Bool := false
  willFlag : Bool := false
  willQos : Nat := 0
  willRetain : Bool := false
  willTopic : Bytes := []
  willMessage : Bytes := []
  username : Bytes := []
  password : Bytes := []
  keepalive : UInt16 := 0
  clientId : Bytes := []
  deriving DecidableEq, Repr

def ConnectPacket.parse : Reader ConnectPacket := do
  let protocolName ← Reader.string
  let protocolLevel ← Reader.byte
  let flags ← Reader.byte
  let willFlag := flags &&& 0x04 ≠ 0
  let keepalive ← Reader.uint16
  let clientId ← Reader.string
  let willTopic ← if willFlag then Reader.string else pure []
  let willMessage ← if willFlag then Reader.string else pure []
  let username ← if flags &&& 0x80 ≠ 0 then Reader.string else pure []
  let password ← if flags &&& 0x40 ≠ 0 then Reader.string else pure []
  return {
    protocolName, protocolLevel
    cleanSession := flags &&& 0x02 ≠ 0
    willFlag
    willQos := ((flags >>> 3) &&& 0x03).toNat
    willRetain := flags &&& 0x20 ≠ 0
    willTopic, willMessage, username, password, keepalive, clientId }

structure PublishPacket where
  topic : Bytes
  payload : Bytes := []
  qos : Nat := 0
  retain : Bool := false
  dup : Bool := false
  packetId : UInt16 := 0
  deriving DecidableEq, Repr

/-- The payload is copied from the read head before `skip` checks the bounds,
so with a length beyond the end of the buffer the copy is followed by the
exception of `skip`. -/
def PublishPacket.parse (hdr : FixedHeader) : Reader PublishPacket := do
  let topic ← Reader.string
  let packetId ← if hdr.qos > 0 then Reader.uint16 else pure 0
  let consumed := 2 + topic.length + if hdr.qos > 0 then 2 else 0
  if hdr.remainingLength < consumed then throw .publishTooSmall
  let payloadLen := hdr.remainingLength - consumed
  let payload := (← get).take payloadLen
  Reader.skip payloadLen
  return { topic, payload, qos := hdr.qos, retain := hdr.retain, dup := hdr.dup, packetId }

structure SubscribePacket.Filter where
  topicFilter : Bytes
  requestedQos : Nat := 0
  deriving DecidableEq, Repr

structure SubscribePacket where
  packetId : UInt16 := 0
  filters : List SubscribePacket.Filter := []
  deriving DecidableEq, Repr

/-- The loop over the filters.  Every turn reads at least three bytes, so a
number of turns above the length of the buffer is never used up. -/
def SubscribePacket.parseFilters : Nat → Reader (List Filter)
  | 0 => pure []
  | turns + 1 => do
      if (← get).isEmpty then return []
      let topicFilter ← Reader.string
      let options ← Reader.byte
      let rest ← parseFilters turns
      return { topicFilter, requestedQos := (options &&& 0x03).toNat } :: rest

def SubscribePacket.parse : Reader SubscribePacket := do
  let packetId ← Reader.uint16
  let filters ← parseFilters ((← get).length + 1)
  return { packetId, filters }

structure UnsubscribePacket where
  packetId : UInt16 := 0
  topicFilters : List Bytes := []
  deriving DecidableEq, Repr

def UnsubscribePacket.parseFilters : Nat → Reader (List Bytes)
  | 0 => pure []
  | turns + 1 => do
      if (← get).isEmpty then return []
      let topicFilter ← Reader.string
      let rest ← parseFilters turns
      return topicFilter :: rest

def UnsubscribePacket.parse : Reader UnsubscribePacket := do
  let packetId ← Reader.uint16
  let topicFilters ← parseFilters ((← get).length + 1)
  return { packetId, topicFilters }

def parsePacketId (tooShort : Exception) : Reader UInt16 := do
  if (← get).length < 2 then throw tooShort
  Reader.uint16

def PubackPacket.parse : Reader UInt16 := parsePacketId .invalidPuback
def PubrecPacket.parse : Reader UInt16 := parsePacketId .invalidPubrec
def PubrelPacket.parse : Reader UInt16 := parsePacketId .invalidPubrel
def PubcompPacket.parse : Reader UInt16 := parsePacketId .invalidPubcomp

end JellyBroker.Packet
