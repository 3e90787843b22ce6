import JellyBroker.Broker.System
import JellyBroker.Packet.BufferPackets
/-!
# From the socket to the handlers

What a session keeps of its input: the buffer that the socket is read into, and the
parser with a buffer of its own.  Along every run of the broker these objects are in
step with the list of bytes that the model of the parser keeps, and what a handler
parses from the extracted buffer is what it parses from the packet's bytes.
-/

namespace JellyBroker

open JellyBroker.Lib JellyBroker.Packet JellyBroker.Utils

variable {α : Type}

/-- `read_buf_` and `parser_`. -/
structure SessionInput where
  readBuf : Buffer := .empty
  parser : ParserObject := .reset

namespace SessionInput

def doRead (input : SessionInput) : SessionInput :=
  { input with readBuf := input.readBuf.clear.ensureWritable readSize }

/-- The socket puts the bytes at the write head, `advance_write` moves it, and the parser
gets as many bytes from the front of the buffer.  More bytes than there is room for do
not arrive. -/
def onRead (cfg : Config) (chunk : Bytes) (input : SessionInput) : SessionInput :=
  let started := input.doRead
  if h : started.readBuf.writePos + chunk.length ≤ started.readBuf.data.length then
    let filled := started.readBuf.fill chunk h
    { readBuf := filled, parser := started.parser.feed cfg (filled.data.take chunk.length) }
  else started

theorem view_onRead (cfg : Config) {chunk : Bytes} (h : chunk.length ≤ readSize)
    (input : SessionInput) :
    (input.onRead cfg chunk).parser.view = input.parser.view.feed cfg chunk := by
  have hroom : input.doRead.readBuf.writePos + chunk.length ≤
      input.doRead.readBuf.data.length := by
    have hlength := Buffer.room_ensureWritable readSize input.readBuf.clear
    change 0 + readSize ≤ input.doRead.readBuf.data.length at hlength
    change 0 + chunk.length ≤ input.doRead.readBuf.data.length
    omega
  have hfront : (input.doRead.readBuf.fill chunk hroom).data.take chunk.length = chunk := by
    have htake := Buffer.take_overwritten chunk input.doRead.readBuf.writePos_le
    change (Buffer.overwritten input.doRead.readBuf.data 0 chunk).take (0 + chunk.length) =
      input.doRead.readBuf.data.take 0 ++ chunk at htake
    rwa [Nat.zero_add, List.take_zero, List.nil_append] at htake
  unfold onRead
  dsimp only
  rw [dif_pos hroom, hfront]
  exact ParserObject.view_feed cfg chunk input.parser

end SessionInput

def noteInput (env : Env α) (n : Runtime α) (e : Event) (_ : Runtime α)
    (inputs : SessionId → SessionInput) : SessionId → SessionInput :=
  match e with
  | .accept _ => Function.update inputs n.sessionCount {}
  | .read sid chunk => Function.update inputs sid ((inputs sid).onRead env.cfg chunk)
  | .turn sid =>
      Function.update inputs sid
        { inputs sid with parser := ((inputs sid).parser.tryExtract env.cfg).2 }
  | _ => inputs

def brokerInputs (env : Env α) : System (Runtime α × (SessionId → SessionInput)) Event :=
  (brokerSystem env).watch (fun _ => {}) (noteInput env)

/-! ## Along a run -/

/-- The parser of each session is the view of its object. -/
def InStep (n : Runtime α) (inputs : SessionId → SessionInput) : Prop :=
  ∀ sid, n.parsers sid = (inputs sid).parser.view

theorem InStep.update {n n' : Runtime α} {inputs : SessionId → SessionInput} (h : InStep n inputs)
    {sid : SessionId} {parser : PacketParser} {input : SessionInput}
    (hparsers : n'.parsers = Function.update n.parsers sid parser)
    (hinput : parser = input.parser.view) : InStep n' (Function.update inputs sid input) := by
  intro other
  rw [hparsers]
  by_cases hother : other = sid
  · rw [hother, Function.update_self, Function.update_self, hinput]
  · rw [Function.update_of_ne hother, Function.update_of_ne hother]
    exact h other

theorem parsers_onReadTurn (env : Env α) (sid : SessionId) (n : Runtime α) :
    (Session.onReadTurn env sid n).parsers =
      Function.update n.parsers sid ((n.parsers sid).tryExtract env.cfg).2 := by
  unfold Session.onReadTurn
  rcases (n.parsers sid).tryExtract env.cfg with ⟨packet, parser⟩
  cases packet with
  | none => rfl
  | some packet => rfl

theorem InStep.step {env : Env α} {n : Runtime α} {inputs : SessionId → SessionInput}
    (h : InStep n inputs) {e : Event} (henabled : n.toBroker.Enabled e) :
    InStep (n.step env e) (noteInput env n e (n.step env e) inputs) := by
  cases e with
  | accept ip => exact h.update rfl rfl
  | read sid chunk =>
      obtain ⟨_, _, _, _, hlength⟩ := henabled
      refine h.update rfl ?_
      rw [h sid, SessionInput.view_onRead env.cfg hlength]
  | turn sid =>
      refine h.update (parsers_onReadTurn env sid n) ?_
      rw [h sid, ← ParserObject.view_tryExtract]
      rfl
  | acceptError => exact h
  | readError sid => exact h
  | writeDone sid => exact h
  | writeError sid => exact h
  | keepaliveTimeout sid => exact h
  | retryQos1 clientId packetId => exact h
  | retryQos2 clientId packetId => exact h
  | destroy sid => exact h
  | clock now => exact h

theorem inStep_reachable {env : Env α} {n : Runtime α} {inputs : SessionId → SessionInput}
    (h : (brokerInputs env).Reachable (n, inputs)) : InStep n inputs := by
  refine h.invariant (P := fun p => InStep p.1 p.2) ?_ fun p e hp => hp.step
  rintro ⟨_, _⟩ ⟨⟨auth, rfl⟩, rfl⟩ sid
  rfl

/-! ## What the handlers parse -/

inductive ParsedPacket where
  | connect (conn : ConnectPacket)
  | publish (pub : PublishPacket)
  | subscribe (sub : SubscribePacket)
  | unsubscribe (unsub : UnsubscribePacket)
  | acknowledgement (packetId : UInt16)
  | other

def parseBody (hdr : FixedHeader) : Reader ParsedPacket :=
  match hdr.type with
  | some .connect => do return .connect (← ConnectPacket.parse)
  | some .publish => do return .publish (← PublishPacket.parse hdr)
  | some .puback => do return .acknowledgement (← PubackPacket.parse)
  | some .pubrec => do return .acknowledgement (← PubrecPacket.parse)
  | some .pubrel => do return .acknowledgement (← PubrelPacket.parse)
  | some .pubcomp => do return .acknowledgement (← PubcompPacket.parse)
  | some .subscribe => do return .subscribe (← SubscribePacket.parse)
  | some .unsubscribe => do return .unsubscribe (← UnsubscribePacket.parse)
  | _ => pure .other

def parseBodyBuffer (hdr : FixedHeader) : Buffer.Use ParsedPacket :=
  match hdr.type with
  | some .connect => do return .connect (← ConnectPacket.parseBuffer)
  | some .publish => do return .publish (← PublishPacket.parseBuffer hdr)
  | some .puback => do return .acknowledgement (← PubackPacket.parseBuffer)
  | some .pubrec => do return .acknowledgement (← PubrecPacket.parseBuffer)
  | some .pubrel => do return .acknowledgement (← PubrelPacket.parseBuffer)
  | some .pubcomp => do return .acknowledgement (← PubcompPacket.parseBuffer)
  | some .subscribe => do return .subscribe (← SubscribePacket.parseBuffer)
  | some .unsubscribe => do return .unsubscribe (← UnsubscribePacket.parseBuffer)
  | _ => pure .other

def decodeHeaderBuffer : Buffer.Use FixedHeader := do
  let byte1 ← Buffer.readByte
  let remainingLength ← Buffer.readRemainingLength
  return {
    type := PacketType.ofCode? (PacketParser.typeValue byte1)
    dup := byte1 &&& 0x08 ≠ 0
    qos := ((byte1 >>> 1) &&& 0x03).toNat
    retain := byte1 &&& 0x01 ≠ 0
    remainingLength }

/-- The header and the body of a packet, as `handle_packet` and the handler read them. -/
def parsePacketBuffer : Buffer.Use (FixedHeader × ParsedPacket) := do
  let hdr ← decodeHeaderBuffer
  return (hdr, ← parseBodyBuffer hdr)

def parsePacket : Reader (FixedHeader × ParsedPacket) := do
  let hdr ← Session.decodeHeader
  return (hdr, ← parseBody hdr)

theorem decodeHeaderBuffer_refines :
    Refines Buffer.view decodeHeaderBuffer Session.decodeHeader := by
  have hheader : @Eq (Reader FixedHeader) Session.decodeHeader (do
      let byte1 ← Reader.byte
      let remainingLength ← Reader.remainingLength
      return {
        type := PacketType.ofCode? (PacketParser.typeValue byte1)
        dup := byte1 &&& 0x08 ≠ 0
        qos := ((byte1 >>> 1) &&& 0x03).toNat
        retain := byte1 &&& 0x01 ≠ 0
        remainingLength }) := by
    funext packet
    cases packet with
    | nil => rfl
    | cons byte1 rest =>
        rw [Session.decodeHeader]
        change _ = (Reader.remainingLength rest).bind _
        cases Reader.remainingLength rest with
        | error e => rfl
        | ok p => rfl
  rw [hheader]
  refine Buffer.readByte_refines.bind fun byte1 => ?_
  exact Buffer.readRemainingLength_refines.bind fun remainingLength => .pure _

theorem parseBodyBuffer_refines (hdr : FixedHeader) :
    Refines Buffer.view (parseBodyBuffer hdr) (parseBody hdr) := by
  have hid (tooShort : Exception) :
      Refines Buffer.view (do return ParsedPacket.acknowledgement (← parsePacketIdBuffer tooShort))
        (do return ParsedPacket.acknowledgement (← parsePacketId tooShort)) :=
    (parsePacketIdBuffer_refines tooShort).bind fun packetId => .pure _
  unfold parseBodyBuffer parseBody
  split
  · exact ConnectPacket.parseBuffer_refines.bind fun conn => .pure _
  · exact (PublishPacket.parseBuffer_refines hdr).bind fun pub => .pure _
  · exact hid .invalidPuback
  · exact hid .invalidPubrec
  · exact hid .invalidPubrel
  · exact hid .invalidPubcomp
  · exact SubscribePacket.parseBuffer_refines.bind fun sub => .pure _
  · exact UnsubscribePacket.parseBuffer_refines.bind fun unsub => .pure _
  · exact .pure _

theorem parsePacketBuffer_refines : Refines Buffer.view parsePacketBuffer parsePacket :=
  decodeHeaderBuffer_refines.bind fun hdr => (parseBodyBuffer_refines hdr).bind fun _ => .pure _

/-- Along every run the parser object of each session holds the bytes of the modelled
parser and its error, and extracts the same packets from them.  Header and body are read
from an extracted buffer as from the bytes of the packet, with the same exceptions, and
the buffers that the builder makes hold the bytes of the packets that are sent. -/
theorem buffer_objects_refine_packets (env : Env α) {n : Runtime α}
    {inputs : SessionId → SessionInput} (h : (brokerInputs env).Reachable (n, inputs)) :
    (∀ sid, n.parsers sid = (inputs sid).parser.view ∧
      (n.parsers sid).tryExtract env.cfg =
        Prod.map (Option.map Buffer.view) ParserObject.view
          ((inputs sid).parser.tryExtract env.cfg)) ∧
    (∀ buffer : Buffer, parsePacket buffer.view =
      (parsePacketBuffer buffer).map (Prod.map id Buffer.view)) ∧
    ∀ packet : OutPacket, (PacketBuilder.build packet).view = packet.bytes := by
  refine ⟨fun sid => ?_, fun buffer => (parsePacketBuffer_refines buffer).symm,
    PacketBuilder.view_build⟩
  have hsid := inStep_reachable h sid
  refine ⟨hsid, ?_⟩
  rw [hsid, ParserObject.view_tryExtract]

def splitPingreq : List Event :=
  [.accept [], .read 0 [0xc0], .turn 0]

def splitState : Runtime Unit × (SessionId → SessionInput) :=
  (brokerInputs defaultEnv).after ({ auth := () }, fun _ => {}) splitPingreq

theorem buffer_objects_refine_packets_split :
    (splitState.2 0).parser.view.buffer = [0xc0] ∧
      splitState.1.parsers 0 = (splitState.2 0).parser.view := by
  have hreachable : (brokerInputs defaultEnv).Reachable (splitState.1, splitState.2) :=
    .of_allowed ⟨⟨(), rfl⟩, rfl⟩
      ⟨⟨rfl, rfl, trivial⟩, ⟨rfl, rfl, by decide +kernel, by decide, by decide⟩,
        ⟨rfl, rfl⟩, trivial⟩
  exact ⟨by decide +kernel, ((buffer_objects_refine_packets defaultEnv hreachable).1 0).1⟩

end JellyBroker
