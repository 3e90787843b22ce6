import JellyBroker.Packet.Types
import JellyBroker.Utils.Buffer
/-!
# Packets the broker sends

An `OutPacket` is a call of the packet builder; `OutPacket.bytes` is the buffer
that call returns.
-/

namespace JellyBroker.Packet

open JellyBroker.Utils

inductive OutPacket where
  | connack (sessionPresent : Bool) (code : ConnackCode)
  | suback (packetId : UInt16) (codes : List SubackCode)
  | unsuback (packetId : UInt16)
  | publish (topic payload : Bytes) (qos : Nat) (retain dup : Bool) (packetId : UInt16)
  | puback (packetId : UInt16)
  | pubrec (packetId : UInt16)
  | pubrel (packetId : UInt16)
  | pubcomp (packetId : UInt16)
  | pingresp
  deriving DecidableEq, Repr

namespace OutPacket

def wrap (type : PacketType) (flags : UInt8) (body : Bytes) : Bytes :=
  ((type.code <<< 4) ||| (flags &&& 0x0f)) :: writeRemainingLength body.length ++ body

def publishFlags (qos : Nat) (retain dup : Bool) : UInt8 :=
  (if dup then (0x08 : UInt8) else 0) ||| ((UInt8.ofNat qos &&& 0x03) <<< 1) |||
    (if retain then (0x01 : UInt8) else 0)

def bytes : OutPacket → Bytes
  | connack sessionPresent code =>
      wrap .connack 0 [if sessionPresent then 0x01 else 0x00, code.code]
  | suback packetId codes => wrap .suback 0 (writeUint16 packetId ++ codes.map SubackCode.code)
  | unsuback packetId => wrap .unsuback 0 (writeUint16 packetId)
  | publish topic payload qos retain dup packetId =>
      wrap .publish (publishFlags qos retain dup)
        (writeString topic ++ (if qos > 0 then writeUint16 packetId else []) ++ payload)
  | puback packetId => wrap .puback 0 (writeUint16 packetId)
  | pubrec packetId => wrap .pubrec 0 (writeUint16 packetId)
  | pubrel packetId => wrap .pubrel 2 (writeUint16 packetId)
  | pubcomp packetId => wrap .pubcomp 0 (writeUint16 packetId)
  | pingresp => wrap .pingresp 0 []

end OutPacket

end JellyBroker.Packet
