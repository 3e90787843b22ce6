import JellyBroker.Config
/-!
# Packet types and header fields
-/

namespace JellyBroker.Packet

inductive PacketType where
  | connect
  | connack
  | publish
  | puback
  | pubrec
  | pubrel
  | pubcomp
  | subscribe
  | suback
  | unsubscribe
  | unsuback
  | pingreq
  | pingresp
  | disconnect
  deriving DecidableEq, Repr

namespace PacketType

def code : PacketType → UInt8
  | connect => 1
  | connack => 2
  | publish => 3
  | puback => 4
  | pubrec => 5
  | pubrel => 6
  | pubcomp => 7
  | subscribe => 8
  | suback => 9
  | unsubscribe => 10
  | unsuback => 11
  | pingreq => 12
  | pingresp => 13
  | disconnect => 14

/-- The enumerator with a given value.  The values 0 and 15 have none. -/
def ofCode? (value : UInt8) : Option PacketType :=
  [connect, connack, publish, puback, pubrec, pubrel, pubcomp, subscribe, suback,
    unsubscribe, unsuback, pingreq, pingresp, disconnect].find? (·.code = value)

end PacketType

/-- The type is absent when the type nibble names no enumerator. -/
structure FixedHeader where
  type : Option PacketType
  dup : Bool := false
  qos : Nat := 0
  retain : Bool := false
  remainingLength : Nat := 0
  deriving DecidableEq, Repr

inductive ConnackCode where
  | accepted
  | refusedProtocol
  | refusedIdRejected
  | refusedServerUnavail
  | refusedBadUsername
  | refusedNotAuthorized
  deriving DecidableEq, Repr

def ConnackCode.code : ConnackCode → UInt8
  | accepted => 0
  | refusedProtocol => 1
  | refusedIdRejected => 2
  | refusedServerUnavail => 3
  | refusedBadUsername => 4
  | refusedNotAuthorized => 5

/-- A SUBACK return code: the cast of a requested QoS, or `FAILURE`. -/
inductive SubackCode where
  | granted (qos : Nat)
  | failure
  deriving DecidableEq, Repr

def SubackCode.code : SubackCode → UInt8
  | granted qos => UInt8.ofNat qos
  | failure => 0x80

def mqttProtocolLevel : UInt8 := 4

def mqttProtocolName : Bytes := [0x4d, 0x51, 0x54, 0x54]

end JellyBroker.Packet
