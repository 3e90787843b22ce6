import JellyBroker.Packet.Types
/-!
# The stream parser

Cuts the received byte stream into packets.
-/

namespace JellyBroker.Packet

inductive ParserError where
  | bufferOverflow
  | malformedRemainingLength
  | invalidPacketType (value : UInt8)
  | packetTooLarge (remaining : Nat)
  deriving DecidableEq, Repr

def ParserError.message : ParserError → String
  | bufferOverflow => "Parser buffer overflow"
  | malformedRemainingLength => "Malformed remaining length"
  | invalidPacketType value => "Invalid packet type: " ++ toString value
  | packetTooLarge remaining => "Packet too large: " ++ toString remaining

/-- `error` is the non-empty `error_msg_`, if there is one. -/
structure PacketParser where
  buffer : Bytes := []
  error : Option ParserError := none
  deriving DecidableEq, Repr

/-- What `decode_remaining_length` finds: the value and the position behind the
field, a field that goes on past the buffer, or a field that is too long. -/
inductive LengthField where
  | complete (value headerEnd : Nat)
  | incomplete
  | malformed
  deriving DecidableEq, Repr

namespace PacketParser

def hasError (parser : PacketParser) : Bool := parser.error.isSome

def feed (cfg : Config) (parser : PacketParser) (data : Bytes) : PacketParser :=
  if data.isEmpty then parser
  else if parser.buffer.length + data.length > (cfg.maxParserBufferSize % 2 ^ 64).toNat then
    { parser with error := some .bufferOverflow }
  else { parser with buffer := parser.buffer ++ data }

/-- The loop of `decode_remaining_length` on the bytes from `pos` on. -/
def decodeRemainingLengthFrom (value multiplier count pos : Nat) : Bytes → LengthField
  | [] => .incomplete
  | enc :: rest =>
      let value := (value + (enc &&& 0x7f).toNat * multiplier) % 2 ^ 32
      if enc &&& 0x80 = 0 then .complete value (pos + 1)
      else if count + 1 ≥ 4 ∨ multiplier > 2097152 then .malformed
      else decodeRemainingLengthFrom value (multiplier * 128) (count + 1) (pos + 1) rest

def decodeRemainingLength (buffer : Bytes) : LengthField :=
  decodeRemainingLengthFrom 0 1 0 1 buffer.tail

def typeValue (byte1 : UInt8) : UInt8 := (byte1 >>> 4) &&& 0x0f

def tryExtract (cfg : Config) (parser : PacketParser) : Option Bytes × PacketParser :=
  if parser.hasError then (none, parser)
  else
    match parser.buffer with
    | [] => (none, parser)
    | byte1 :: _ =>
        if typeValue byte1 < 1 ∨ typeValue byte1 > 14 then
          (none, { parser with error := some (.invalidPacketType (typeValue byte1)) })
        else
          match decodeRemainingLength parser.buffer with
          | .malformed => (none, { parser with error := some .malformedRemainingLength })
          | .incomplete => (none, parser)
          | .complete remaining headerEnd =>
              if remaining > (cfg.maxPacketSize % 2 ^ 32).toNat then
                (none, { parser with error := some (.packetTooLarge remaining) })
              else if parser.buffer.length < headerEnd + remaining then (none, parser)
              else
                (some (parser.buffer.take (headerEnd + remaining)),
                  { parser with buffer := parser.buffer.drop (headerEnd + remaining) })

end PacketParser

end JellyBroker.Packet
