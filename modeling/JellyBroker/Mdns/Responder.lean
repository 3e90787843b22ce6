import JellyBroker.Config
/-!
# The mDNS responder

`MdnsResponder` answers multicast DNS queries for the broker's service.  A
datagram is received into the front of `recv_buf_`, which keeps the bytes of
earlier datagrams behind it.  The functions below that take a `data` argument
read the received part of the buffer only.

`decode_name` follows compression pointers by calling itself, so it is modelled
with a bound on the passes of its loop.  The socket is not modelled beyond the
outcome of its calls.
-/

namespace JellyBroker.Mdns

def bufSize : Nat := 1500

/-- A response (`QR`) that is authoritative (`AA`). -/
def dnsFlagResponse : UInt16 := 0x8400

def rrTypeA : UInt16 := 1
def rrTypePtr : UInt16 := 12
def rrTypeTxt : UInt16 := 16
def rrTypeSrv : UInt16 := 33

def rrTypeAny : UInt16 := 255

/-- Class `IN` with the cache-flush bit. -/
def rrClassInFlush : UInt16 := 0x8001

def ttlPtr : UInt32 := 4500
def ttlSrvTxt : UInt32 := 120
def ttlA : UInt32 := 120

def dot : UInt8 := 0x2e

abbrev Endpoint := Nat

/-! ## Names -/

def encodeLabel (label : Bytes) : Bytes := UInt8.ofNat label.length :: label

/-- The loop of `encode_name` on the rest of a name, of which `label` stands
since the last dot. -/
def encodeLabels (label : Bytes) : Bytes → Bytes
  | [] => if label.isEmpty then [] else encodeLabel label
  | c :: rest =>
      if c = dot then encodeLabel label ++ encodeLabels [] rest
      else encodeLabels (label ++ [c]) rest

def encodeName (name : Bytes) : Bytes := encodeLabels [] name ++ [0]

def isPointer (b : UInt8) : Bool := b &&& 0xC0 = 0xC0

def pointerTarget (b low : UInt8) : Nat :=
  (((b &&& 0x3F).toUInt16 <<< 8) ||| low.toUInt16).toNat

def toLower (c : UInt8) : UInt8 :=
  if 0x41 ≤ c ∧ c ≤ 0x5A then c - 0x41 + 0x61 else c

def withDot (name : Bytes) (first : Bool) : Bytes := if first then name else name ++ [dot]

/-- `decode_name` in the middle of its loop.  The name and the offset behind it,
or nothing when `fuel` passes through the loop, those of the recursive calls
included, are not enough. -/
def decodeNameFrom (data : Bytes) : Nat → Bytes → Bool → Nat → Option (Bytes × Nat)
  | 0, _, _, _ => none
  | fuel + 1, name, first, offset =>
      match data[offset]? with
      | none => some (name, offset)
      | some b =>
          if b = 0 then some (name, offset + 1)
          else if isPointer b then
            match data[offset + 1]? with
            | none => some (name, offset)
            | some low =>
                (decodeNameFrom data fuel [] true (pointerTarget b low)).map fun rest =>
                  (withDot name first ++ rest.1, offset + 2)
          else
            let label := (data.drop (offset + 1)).take b.toNat
            let name := withDot name first ++ label.map toLower
            -- a label that the data cut off ends the name
            if label.length < b.toNat then some (name, offset + 1)
            else decodeNameFrom data fuel name false (offset + 1 + b.toNat)

def decodeName (data : Bytes) (fuel offset : Nat) : Option (Bytes × Nat) :=
  decodeNameFrom data fuel [] true offset

/-! ## Questions -/

def readU16 (data : Bytes) (offset : Nat) : UInt16 :=
  ((data.getD offset 0).toUInt16 <<< 8) ||| (data.getD (offset + 1) 0).toUInt16

/-- The loop of `handle_receive` over the labels of a name.  Every pass moves the
offset forward, so the size of the data bounds the passes. -/
def skipNameFrom (data : Bytes) : Nat → Nat → Nat
  | 0, offset => offset
  | passes + 1, offset =>
      match data[offset]? with
      | none => offset
      | some b =>
          if b = 0 then offset + 1
          else if isPointer b then offset + 2
          else skipNameFrom data passes (offset + 1 + b.toNat)

def skipName (data : Bytes) (offset : Nat) : Nat := skipNameFrom data data.length offset

/-- The name, then `QTYPE` and `QCLASS` if both are there. -/
def skipQuestion (data : Bytes) (offset : Nat) : Nat :=
  let offset := skipName data offset
  if offset + 4 ≤ data.length then offset + 4 else offset

def skipQuestions (data : Bytes) : Nat → Nat → Nat
  | 0, offset => offset
  | count + 1, offset =>
      if offset < data.length then skipQuestions data count (skipQuestion data offset)
      else offset

def qdcount (data : Bytes) : Nat := (readU16 data 4).toNat

def qStart : Nat := 12

def qEnd (data : Bytes) : Nat := skipQuestions data (qdcount data) qStart

/-! ## Responses -/

def writeU16 (v : UInt16) : Bytes := [(v >>> 8).toUInt8, (v &&& 0xFF).toUInt8]

def writeU32 (v : UInt32) : Bytes :=
  [(v >>> 24).toUInt8, (v >>> 16).toUInt8, (v >>> 8).toUInt8, (v &&& 0xFF).toUInt8]

/-- A resource record.  Its length field is filled in after the data. -/
def record (name : Bytes) (type : UInt16) (ttl : UInt32) (rdata : Bytes) : Bytes :=
  name ++ writeU16 type ++ writeU16 rrClassInFlush ++ writeU32 ttl ++
    writeU16 (UInt16.ofNat rdata.length) ++ rdata

structure MdnsResponder where
  port : UInt16
  /-- The four bytes of `ip_`, if it is an IPv4 address. -/
  ip : Option Bytes
  node : Bytes
  service : Bytes
  instance_ : Bytes
  recvBuf : Bytes
  running : Bool := false
  /-- A receive operation is pending. -/
  receiving : Bool := false
  recvBuf_length : recvBuf.length = bufSize

namespace MdnsResponder

def localSuffix : Bytes := [0x2e, 0x6c, 0x6f, 0x63, 0x61, 0x6c]

def mqttService : Bytes :=
  [0x5f, 0x6d, 0x71, 0x74, 0x74, 0x2e, 0x5f, 0x74, 0x63, 0x70] ++ localSuffix

def create (port : UInt16) (hostname : Bytes) (ip : Option Bytes) : MdnsResponder where
  port := port
  ip := ip
  node := hostname ++ localSuffix
  service := mqttService
  instance_ := hostname ++ [dot] ++ mqttService
  recvBuf := List.replicate bufSize 0
  recvBuf_length := List.length_replicate

def doReceive (self : MdnsResponder) : MdnsResponder :=
  if self.running then { self with receiving := true } else self

/-- `start`, given whether the socket could be opened, bound and joined to the
multicast group. -/
def start (self : MdnsResponder) (opened bound joined : Bool) : MdnsResponder :=
  if opened && bound && joined then doReceive { self with running := true } else self

def stop (self : MdnsResponder) : MdnsResponder := { self with running := false }

def sendResponse (self : MdnsResponder) (id : UInt16) (question : Bytes) : Bytes :=
  writeU16 id ++ writeU16 dnsFlagResponse ++ writeU16 1 ++ writeU16 1 ++ writeU16 0 ++
    writeU16 3 ++ question ++
    record (encodeName self.service) rrTypePtr ttlPtr (encodeName self.instance_) ++
    record (encodeName self.instance_) rrTypeSrv ttlSrvTxt
      (writeU16 0 ++ writeU16 0 ++ writeU16 self.port ++ encodeName self.node) ++
    record (encodeName self.instance_) rrTypeTxt ttlSrvTxt [0] ++
    -- the length of the address is written as a constant
    (encodeName self.node ++ writeU16 rrTypeA ++ writeU16 rrClassInFlush ++ writeU32 ttlA ++
      writeU16 4 ++ self.ip.getD [127, 0, 0, 1])

def isMatch (self : MdnsResponder) (qname : Bytes) (qtype : UInt16) : Bool :=
  if qname = self.service ∧ qtype = rrTypePtr then true
  else if qname = self.instance_ ∧ (qtype = rrTypeSrv ∨ qtype = rrTypeTxt) then true
  else if qname = self.node ∧ qtype = rrTypeA then true
  else decide (qtype = rrTypeAny)

/-- The first question, parsed again for its name and type, matches. -/
def queryMatches (self : MdnsResponder) (fuel : Nat) (data : Bytes) : Option Bool :=
  (decodeName data fuel qStart).map fun (qname, offset) =>
    self.isMatch qname (if offset + 4 ≤ data.length then readU16 data offset else 0)

inductive Reply where
  | silent
  | response (dest : Endpoint) (packet : Bytes)
  /-- The copied range ends behind `recv_buf_`. -/
  | overread
  deriving DecidableEq

/-- The answer to the `bytes` bytes that were received.  The question is copied
from `recv_buf_` itself. -/
def answer (self : MdnsResponder) (fuel : Nat) (remote : Endpoint) (bytes : Nat) :
    Option Reply :=
  let data := self.recvBuf.take bytes
  if bytes ≥ 12 then
    (self.queryMatches fuel data).map fun isMatch =>
      if !isMatch then .silent
      else if qEnd data ≤ self.recvBuf.length then
        .response remote
          (self.sendResponse (readU16 data 0) ((self.recvBuf.take (qEnd data)).drop qStart))
      else .overread
  else some .silent

/-- The reply and the responder afterwards, or nothing when `decode_name` does not
return. -/
def handleReceive (self : MdnsResponder) (fuel : Nat) (ec : Bool) (remote : Endpoint)
    (bytes : Nat) : Option (Reply × MdnsResponder) :=
  if ec || !self.running then some (.silent, self)
  else (self.answer fuel remote bytes).map fun reply => (reply, self.doReceive)

/-- The buffer after a datagram was received into its front. -/
def fill (self : MdnsResponder) (datagram : Bytes) : MdnsResponder :=
  { self with
    recvBuf := datagram.take bufSize ++ self.recvBuf.drop datagram.length
    receiving := false
    recvBuf_length := by
      have hlength := self.recvBuf_length
      simp only [List.length_append, List.length_take, List.length_drop]
      omega }

def receive (self : MdnsResponder) (fuel : Nat) (remote : Endpoint) (datagram : Bytes) :
    Option (Reply × MdnsResponder) :=
  (self.fill datagram).handleReceive fuel false remote (min datagram.length bufSize)

end MdnsResponder

end JellyBroker.Mdns
