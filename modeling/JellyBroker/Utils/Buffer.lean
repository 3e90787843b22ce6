import JellyBroker.Config
/-!
# Buffers

Reading consumes the unread bytes of a buffer and throws on underflow.
Writing appends to it.
-/

namespace JellyBroker

inductive Exception where
  | bufferUnderflow
  | bufferSkipUnderflow
  | incompleteRemainingLength
  | malformedRemainingLength
  | publishTooSmall
  | invalidPuback
  | invalidPubrec
  | invalidPubrel
  | invalidPubcomp
  | authenticator (text : String)
  deriving DecidableEq, Repr

def Exception.what : Exception → String
  | bufferUnderflow => "Buffer underflow"
  | bufferSkipUnderflow => "Buffer skip underflow"
  | incompleteRemainingLength => "Incomplete remaining length"
  | malformedRemainingLength => "Malformed remaining length"
  | publishTooSmall => "Invalid publish packet: remaining_length too small"
  | invalidPuback => "Invalid puback packet"
  | invalidPubrec => "Invalid pubrec packet"
  | invalidPubrel => "Invalid pubrel packet"
  | invalidPubcomp => "Invalid pubcomp packet"
  | authenticator text => text

namespace Utils

/-- A computation that reads from a buffer.  The state is what is still
readable. -/
abbrev Reader := StateT Bytes (Except Exception)

namespace Reader

def bytes (len : Nat) : Reader Bytes := fun buf =>
  if len > buf.length then .error .bufferUnderflow
  else .ok (buf.take len, buf.drop len)

def byte : Reader UInt8 := fun buf =>
  match buf with
  | b :: rest => .ok (b, rest)
  | [] => .error .bufferUnderflow

def uint16 : Reader UInt16 := fun buf =>
  match buf with
  | high :: low :: rest => .ok (high.toUInt16 <<< 8 ||| low.toUInt16, rest)
  | _ => .error .bufferUnderflow

def string : Reader Bytes := do
  let len ← uint16
  bytes len.toNat

def skip (len : Nat) : Reader Unit := fun buf =>
  if len > buf.length then .error .bufferSkipUnderflow else .ok ((), buf.drop len)

/-- The loop of `read_remaining_length`, which throws once it has read a fifth
byte. -/
def remainingLengthFrom (value multiplier count : Nat) : Bytes → Except Exception (Nat × Bytes)
  | [] => .error .incompleteRemainingLength
  | enc :: rest =>
      let value := (value + (enc &&& 0x7f).toNat * multiplier) % 2 ^ 32
      if count + 1 > 4 then .error .malformedRemainingLength
      else if enc &&& 0x80 = 0 then .ok (value, rest)
      else remainingLengthFrom value (multiplier * 128) (count + 1) rest

def remainingLength : Reader Nat := remainingLengthFrom 0 1 0

end Reader

def writeUint16 (v : UInt16) : Bytes := [(v >>> 8).toUInt8, v.toUInt8]

/-- The length field is the size cast to 16 bits. -/
def writeString (s : Bytes) : Bytes := writeUint16 (UInt16.ofNat s.length) ++ s

/-- The loop of `write_remaining_length`.  A 32-bit value has at most five
groups of seven bits. -/
def writeGroups : Nat → Nat → Bytes
  | 0, _ => []
  | groups + 1, v =>
      let enc := UInt8.ofNat (v % 128)
      if v / 128 > 0 then (enc ||| 0x80) :: writeGroups groups (v / 128) else [enc]

def writeRemainingLength (v : Nat) : Bytes := writeGroups 5 (v % 2 ^ 32)

end Utils

end JellyBroker
