import JellyBroker.Packet.Builder
import JellyBroker.Packet.Packets
import JellyBroker.Packet.Parser
import JellyBroker.Utils.BufferObject
/-!
# Packets on buffer objects

The packet builder, the stream parser and the parsers of packet bodies on `Buffer`
objects, with the indices and positions of the source.  They refine the versions on lists
of bytes that the rest of the development is about.
-/

namespace JellyBroker.Packet

open JellyBroker.Lib JellyBroker.Utils

/-! ## The packet builder -/

namespace PacketBuilder

def wrap (type : PacketType) (flags : UInt8) (body : Buffer) : Buffer :=
  let packet := (Buffer.empty.writeByte ((type.code <<< 4) ||| (flags &&& 0x0f)))
    |>.writeRemainingLength body.size
  if body.size > 0 then packet.write (body.data.take body.size) else packet

def packetIdBody (packetId : UInt16) : Buffer := Buffer.empty.writeUint16 packetId

def publishBody (topic payload : Bytes) (qos : Nat) (packetId : UInt16) : Buffer :=
  let body := Buffer.empty.writeString topic
  let body := if qos > 0 then body.writeUint16 packetId else body
  if payload.length > 0 then body.write payload else body

def build : OutPacket → Buffer
  | .connack sessionPresent code =>
      wrap .connack 0
        ((Buffer.empty.writeByte (if sessionPresent then 0x01 else 0x00)).writeByte code.code)
  | .suback packetId codes =>
      wrap .suback 0
        (codes.foldl (fun body code => body.writeByte code.code) (packetIdBody packetId))
  | .unsuback packetId => wrap .unsuback 0 (packetIdBody packetId)
  | .publish topic payload qos retain dup packetId =>
      wrap .publish (OutPacket.publishFlags qos retain dup) (publishBody topic payload qos packetId)
  | .puback packetId => wrap .puback 0 (packetIdBody packetId)
  | .pubrec packetId => wrap .pubrec 0 (packetIdBody packetId)
  | .pubrel packetId => wrap .pubrel 2 (packetIdBody packetId)
  | .pubcomp packetId => wrap .pubcomp 0 (packetIdBody packetId)
  | .pingresp => wrap .pingresp 0 .empty

structure Holds (b : Buffer) (bytes : Bytes) : Prop where
  unread : b.readPos = 0
  view : b.view = bytes

theorem holds_empty : Holds .empty [] := ⟨rfl, rfl⟩

theorem Holds.write {b : Buffer} {bytes : Bytes} (h : Holds b bytes) (src : Bytes) :
    Holds (b.write src) (bytes ++ src) :=
  ⟨h.unread, by rw [Buffer.view_write, h.view]⟩

theorem Holds.writeString {b : Buffer} {bytes : Bytes} (h : Holds b bytes) (s : Bytes) :
    Holds (b.writeString s) (bytes ++ Utils.writeString s) :=
  ⟨h.unread, by rw [Buffer.view_writeString, h.view]⟩

theorem Holds.take_data {b : Buffer} {bytes : Bytes} (h : Holds b bytes) :
    b.data.take b.size = bytes := by
  rw [← h.view, Buffer.view, h.unread, List.drop_zero]
  rfl

theorem Holds.size_eq {b : Buffer} {bytes : Bytes} (h : Holds b bytes) :
    b.size = bytes.length := by
  rw [← h.view, Buffer.length_view, Buffer.readable, h.unread, Nat.sub_zero]
  rfl

theorem view_wrap (type : PacketType) (flags : UInt8) {body : Buffer} {bytes : Bytes}
    (h : Holds body bytes) : (wrap type flags body).view = OutPacket.wrap type flags bytes := by
  have hhead (v : Nat) : ((Buffer.empty.writeByte ((type.code <<< 4) ||| (flags &&& 0x0f)))
      |>.writeRemainingLength v).view =
      ((type.code <<< 4) ||| (flags &&& 0x0f)) :: Utils.writeRemainingLength v := by
    rw [Buffer.view_writeRemainingLength, Buffer.writeByte, Buffer.view_write]
    rfl
  unfold wrap OutPacket.wrap
  dsimp only
  rw [h.size_eq]
  split_ifs with hbody
  · rw [Buffer.view_write, hhead, ← h.size_eq, h.take_data]
  · have hnil : bytes = [] := List.eq_nil_of_length_eq_zero (by omega)
    rw [hhead, hnil, List.append_nil]

theorem holds_packetIdBody (packetId : UInt16) :
    Holds (packetIdBody packetId) (Utils.writeUint16 packetId) := holds_empty.write _

theorem Holds.writeCodes {b : Buffer} {bytes : Bytes} (h : Holds b bytes)
    (codes : List SubackCode) :
    Holds (codes.foldl (fun body code => body.writeByte code.code) b)
      (bytes ++ codes.map SubackCode.code) := by
  induction codes generalizing b bytes with
  | nil => rwa [List.map_nil, List.append_nil]
  | cons code rest ih =>
      have hrest := ih (h.write [code.code])
      rwa [List.append_assoc, List.singleton_append] at hrest

theorem holds_publishBody (topic payload : Bytes) (qos : Nat) (packetId : UInt16) :
    Holds (publishBody topic payload qos packetId)
      (Utils.writeString topic ++ (if qos > 0 then Utils.writeUint16 packetId else []) ++
        payload) := by
  have htopic : Holds (Buffer.empty.writeString topic) (Utils.writeString topic) :=
    holds_empty.writeString topic
  have hid : Holds (if qos > 0 then (Buffer.empty.writeString topic).writeUint16 packetId
      else Buffer.empty.writeString topic)
      (Utils.writeString topic ++ if qos > 0 then Utils.writeUint16 packetId else []) := by
    split_ifs
    · exact htopic.write _
    · rwa [List.append_nil]
  unfold publishBody
  dsimp only
  by_cases hpayload : payload.length > 0
  · rw [if_pos hpayload]
    exact hid.write payload
  · have hnil : payload = [] := List.eq_nil_of_length_eq_zero (by omega)
    rw [if_neg hpayload, hnil, List.append_nil]
    exact hid

theorem view_build (packet : OutPacket) : (build packet).view = packet.bytes := by
  cases packet with
  | connack sessionPresent code => exact view_wrap _ _ ((holds_empty.write [_]).write [_])
  | suback packetId codes => exact view_wrap _ _ ((holds_packetIdBody packetId).writeCodes codes)
  | unsuback packetId => exact view_wrap _ _ (holds_packetIdBody packetId)
  | publish topic payload qos retain dup packetId =>
      exact view_wrap _ _ (holds_publishBody topic payload qos packetId)
  | puback packetId => exact view_wrap _ _ (holds_packetIdBody packetId)
  | pubrec packetId => exact view_wrap _ _ (holds_packetIdBody packetId)
  | pubrel packetId => exact view_wrap _ _ (holds_packetIdBody packetId)
  | pubcomp packetId => exact view_wrap _ _ (holds_packetIdBody packetId)
  | pingresp => exact view_wrap _ _ holds_empty

end PacketBuilder

/-! ## Packet bodies -/

def ConnectPacket.parseBuffer : Buffer.Use ConnectPacket := do
  let protocolName ← Buffer.readString
  let protocolLevel ← Buffer.readByte
  let flags ← Buffer.readByte
  let willFlag := flags &&& 0x04 ≠ 0
  let keepalive ← Buffer.readUint16
  let clientId ← Buffer.readString
  let willTopic ← if willFlag then Buffer.readString else pure []
  let willMessage ← if willFlag then Buffer.readString else pure []
  let username ← if flags &&& 0x80 ≠ 0 then Buffer.readString else pure []
  let password ← if flags &&& 0x40 ≠ 0 then Buffer.readString else pure []
  return {
    protocolName, protocolLevel
    cleanSession := flags &&& 0x02 ≠ 0
    willFlag
    willQos := ((flags >>> 3) &&& 0x03).toNat
    willRetain := flags &&& 0x20 ≠ 0
    willTopic, willMessage, username, password, keepalive, clientId }

/-- The copy of the payload starts at the read head and does not look at the write
position. -/
def PublishPacket.parseBuffer (hdr : FixedHeader) : Buffer.Use PublishPacket := do
  let topic ← Buffer.readString
  let packetId ← if hdr.qos > 0 then Buffer.readUint16 else pure 0
  let consumed := 2 + topic.length + if hdr.qos > 0 then 2 else 0
  if hdr.remainingLength < consumed then throw .publishTooSmall
  let payloadLen := hdr.remainingLength - consumed
  let payload := (← get).peek payloadLen
  Buffer.skip payloadLen
  return { topic, payload, qos := hdr.qos, retain := hdr.retain, dup := hdr.dup, packetId }

def SubscribePacket.parseFiltersBuffer : Nat → Buffer.Use (List Filter)
  | 0 => pure []
  | turns + 1 => do
      if (← get).readable = 0 then return []
      let topicFilter ← Buffer.readString
      let options ← Buffer.readByte
      let rest ← parseFiltersBuffer turns
      return { topicFilter, requestedQos := (options &&& 0x03).toNat } :: rest

def SubscribePacket.parseBuffer : Buffer.Use SubscribePacket := do
  let packetId ← Buffer.readUint16
  let filters ← parseFiltersBuffer ((← get).readable + 1)
  return { packetId, filters }

def UnsubscribePacket.parseFiltersBuffer : Nat → Buffer.Use (List Bytes)
  | 0 => pure []
  | turns + 1 => do
      if (← get).readable = 0 then return []
      let topicFilter ← Buffer.readString
      let rest ← parseFiltersBuffer turns
      return topicFilter :: rest

def UnsubscribePacket.parseBuffer : Buffer.Use UnsubscribePacket := do
  let packetId ← Buffer.readUint16
  let topicFilters ← parseFiltersBuffer ((← get).readable + 1)
  return { packetId, topicFilters }

def parsePacketIdBuffer (tooShort : Exception) : Buffer.Use UInt16 := do
  if (← get).readable < 2 then throw tooShort
  Buffer.readUint16

def PubackPacket.parseBuffer : Buffer.Use UInt16 := parsePacketIdBuffer .invalidPuback
def PubrecPacket.parseBuffer : Buffer.Use UInt16 := parsePacketIdBuffer .invalidPubrec
def PubrelPacket.parseBuffer : Buffer.Use UInt16 := parsePacketIdBuffer .invalidPubrel
def PubcompPacket.parseBuffer : Buffer.Use UInt16 := parsePacketIdBuffer .invalidPubcomp

theorem optional_refines {β γ : Type} (condition : Prop) [Decidable condition]
    {field : Buffer.Use β} {field' : Reader β} (h : Refines Buffer.view field field') (default : β)
    {next : β → Buffer.Use γ} {next' : β → Reader γ}
    (hnext : ∀ value, Refines Buffer.view (next value) (next' value)) :
    Refines Buffer.view (if condition then field >>= next else pure default >>= next)
      (if condition then field' >>= next' else pure default >>= next') :=
  .ite (h.bind hnext) ((Refines.pure default).bind hnext)

theorem ConnectPacket.parseBuffer_refines :
    Refines Buffer.view ConnectPacket.parseBuffer ConnectPacket.parse := by
  refine Buffer.readString_refines.bind fun protocolName => ?_
  refine Buffer.readByte_refines.bind fun protocolLevel => ?_
  refine Buffer.readByte_refines.bind fun flags => ?_
  refine Buffer.readUint16_refines.bind fun keepalive => ?_
  refine Buffer.readString_refines.bind fun clientId => ?_
  refine optional_refines _ Buffer.readString_refines [] fun willTopic => ?_
  refine optional_refines _ Buffer.readString_refines [] fun willMessage => ?_
  refine optional_refines _ Buffer.readString_refines [] fun username => ?_
  exact optional_refines _ Buffer.readString_refines [] fun password => .pure _

/-- Where the copy of the payload goes beyond the write position, `skip` throws. -/
theorem peek_skip_refines {β : Type} (len : Nat) (finish : Bytes → β) :
    Refines Buffer.view
      (do let payload := (← get).peek len; Buffer.skip len; return finish payload)
      (do let payload := (← get).take len; Reader.skip len; return finish payload) := by
  apply Refines.get
  intro b
  by_cases h : b.readPos + len ≤ b.writePos
  · rw [Buffer.peek_eq h]
    exact (Buffer.skip_refines len).bind (fun _ => .pure _) b
  · have hview : len > b.view.length := by
      rw [Buffer.length_view, Buffer.readable]
      have := b.readPos_le
      omega
    have hskip : Buffer.skip len b = .error .bufferSkipUnderflow := dif_neg h
    have hskip' : Reader.skip len b.view = .error .bufferSkipUnderflow := if_pos hview
    change ((Buffer.skip len b).bind _).map _ = (Reader.skip len b.view).bind _
    rw [hskip, hskip']
    rfl

theorem PublishPacket.parseBuffer_refines (hdr : FixedHeader) :
    Refines Buffer.view (PublishPacket.parseBuffer hdr) (PublishPacket.parse hdr) := by
  refine Buffer.readString_refines.bind fun topic => ?_
  refine optional_refines (hdr.qos > 0) Buffer.readUint16_refines 0 fun packetId => ?_
  dsimp only
  by_cases hsmall : hdr.remainingLength < 2 + topic.length + if hdr.qos > 0 then 2 else 0
  · rw [if_pos hsmall, if_pos hsmall]
    exact .throw _
  · rw [if_neg hsmall, if_neg hsmall]
    exact peek_skip_refines _ fun payload =>
      ({ topic, payload, qos := hdr.qos, retain := hdr.retain, dup := hdr.dup, packetId } :
        PublishPacket)

theorem readable_eq_zero_iff (b : Buffer) : b.readable = 0 ↔ b.view.isEmpty = true := by
  rw [← Buffer.length_view, List.isEmpty_iff, List.length_eq_zero_iff]

theorem SubscribePacket.parseFiltersBuffer_refines (turns : Nat) :
    Refines Buffer.view (SubscribePacket.parseFiltersBuffer turns)
      (SubscribePacket.parseFilters turns) := by
  induction turns with
  | zero => exact .pure []
  | succ turns ih =>
      rw [parseFiltersBuffer, parseFilters]
      apply Refines.get
      intro b
      by_cases hnone : b.readable = 0
      · rw [if_pos hnone, if_pos ((readable_eq_zero_iff b).mp hnone)]
        rfl
      · rw [if_neg hnone, if_neg fun h => hnone ((readable_eq_zero_iff b).mpr h)]
        refine Buffer.readString_refines.bind (fun topicFilter => ?_) b
        refine Buffer.readByte_refines.bind fun options => ?_
        exact ih.bind fun rest => .pure _

theorem UnsubscribePacket.parseFiltersBuffer_refines (turns : Nat) :
    Refines Buffer.view (UnsubscribePacket.parseFiltersBuffer turns)
      (UnsubscribePacket.parseFilters turns) := by
  induction turns with
  | zero => exact .pure []
  | succ turns ih =>
      rw [parseFiltersBuffer, parseFilters]
      apply Refines.get
      intro b
      by_cases hnone : b.readable = 0
      · rw [if_pos hnone, if_pos ((readable_eq_zero_iff b).mp hnone)]
        rfl
      · rw [if_neg hnone, if_neg fun h => hnone ((readable_eq_zero_iff b).mpr h)]
        refine Buffer.readString_refines.bind (fun topicFilter => ?_) b
        exact ih.bind fun rest => .pure _

theorem SubscribePacket.parseBuffer_refines :
    Refines Buffer.view SubscribePacket.parseBuffer SubscribePacket.parse := by
  refine Buffer.readUint16_refines.bind fun packetId => ?_
  apply Refines.get
  intro b
  rw [Buffer.length_view]
  exact (parseFiltersBuffer_refines (b.readable + 1)).bind (fun filters => .pure _) b

theorem UnsubscribePacket.parseBuffer_refines :
    Refines Buffer.view UnsubscribePacket.parseBuffer UnsubscribePacket.parse := by
  refine Buffer.readUint16_refines.bind fun packetId => ?_
  apply Refines.get
  intro b
  rw [Buffer.length_view]
  exact (parseFiltersBuffer_refines (b.readable + 1)).bind (fun topicFilters => .pure _) b

theorem parsePacketIdBuffer_refines (tooShort : Exception) :
    Refines Buffer.view (parsePacketIdBuffer tooShort) (parsePacketId tooShort) := by
  apply Refines.get
  intro b
  rw [Buffer.length_view]
  by_cases hshort : b.readable < 2
  · rw [if_pos hshort, if_pos hshort]
    rfl
  · rw [if_neg hshort, if_neg hshort]
    exact Buffer.readUint16_refines b

/-! ## The stream parser -/

/-- A `PacketParser` object.  Its buffer is never read from, only replaced. -/
structure ParserObject where
  buffer : Buffer
  error : Option ParserError
  unread : buffer.readPos = 0

namespace ParserObject

def reset : ParserObject := ⟨.empty, none, rfl⟩

def view (p : ParserObject) : PacketParser := { buffer := p.buffer.view, error := p.error }

def feed (cfg : Config) (data : Bytes) (p : ParserObject) : ParserObject :=
  if data.isEmpty then p
  else if p.buffer.size + data.length > (cfg.maxParserBufferSize % 2 ^ 64).toNat then
    { p with error := some .bufferOverflow }
  else { p with buffer := p.buffer.write data, unread := p.unread }

/-- The loop of `decode_remaining_length`, which stops at the end of the buffer at the
latest. -/
def decodeRemainingLengthFrom (buffer : Buffer) : Nat → Nat → Nat → Nat → Nat → LengthField
  | 0, _, _, _, _ => .incomplete
  | turns + 1, value, multiplier, count, pos =>
      if pos < buffer.size then
        let enc := buffer.data.getD pos 0
        let value := (value + (enc &&& 0x7f).toNat * multiplier) % 2 ^ 32
        if enc &&& 0x80 = 0 then .complete value (pos + 1)
        else if count + 1 ≥ 4 ∨ multiplier > 2097152 then .malformed
        else decodeRemainingLengthFrom buffer turns value (multiplier * 128) (count + 1) (pos + 1)
      else .incomplete

def decodeRemainingLength (buffer : Buffer) : LengthField :=
  decodeRemainingLengthFrom buffer buffer.size 0 1 0 1

def tryExtract (cfg : Config) (p : ParserObject) : Option Buffer × ParserObject :=
  if p.error.isSome then (none, p)
  else if p.buffer.readable < 1 then (none, p)
  else
    let typeValue := PacketParser.typeValue (p.buffer.data.getD 0 0)
    if typeValue < 1 ∨ typeValue > 14 then
      (none, { p with error := some (.invalidPacketType typeValue) })
    else
      match decodeRemainingLength p.buffer with
      | .malformed => (none, { p with error := some .malformedRemainingLength })
      | .incomplete => (none, p)
      | .complete remaining headerEnd =>
          if remaining > (cfg.maxPacketSize % 2 ^ 32).toNat then
            (none, { p with error := some (.packetTooLarge remaining) })
          else if p.buffer.size < headerEnd + remaining then (none, p)
          else
            (some (.ofBytes (p.buffer.data.take (headerEnd + remaining))),
              { p with
                buffer := .ofBytes ((p.buffer.data.drop (headerEnd + remaining)).take
                  (p.buffer.size - (headerEnd + remaining)))
                unread := rfl })

theorem view_buffer (p : ParserObject) : p.buffer.view = p.buffer.data.take p.buffer.size := by
  rw [Buffer.view, p.unread, List.drop_zero]
  rfl

theorem length_view (p : ParserObject) : p.buffer.view.length = p.buffer.size := by
  rw [Buffer.length_view, Buffer.readable, p.unread]
  rfl

theorem view_feed (cfg : Config) (data : Bytes) (p : ParserObject) :
    (p.feed cfg data).view = p.view.feed cfg data := by
  unfold feed PacketParser.feed
  have hlength : p.view.buffer.length = p.buffer.size := p.length_view
  rw [hlength]
  split_ifs
  · rfl
  · rfl
  · rw [view, Buffer.view_write]
    rfl

/-- The loop over an index is the loop over the bytes from that index on. -/
theorem decodeRemainingLengthFrom_eq (buffer : Buffer) {turns pos : Nat}
    (hturns : buffer.size ≤ turns + pos) (value multiplier count : Nat) :
    decodeRemainingLengthFrom buffer turns value multiplier count pos =
      PacketParser.decodeRemainingLengthFrom value multiplier count pos
        ((buffer.data.take buffer.size).drop pos) := by
  have hsize : buffer.size ≤ buffer.data.length := buffer.writePos_le
  induction turns generalizing pos value multiplier count with
  | zero =>
      rw [List.drop_of_length_le (by rw [List.length_take]; omega)]
      rfl
  | succ turns ih =>
      rw [decodeRemainingLengthFrom]
      by_cases hpos : pos < buffer.size
      · have hget : (buffer.data.take buffer.size).drop pos =
            buffer.data.getD pos 0 :: (buffer.data.take buffer.size).drop (pos + 1) := by
          rw [List.drop_eq_getElem_cons (by rw [List.length_take]; omega), List.getElem_take,
            List.getD_eq_getElem?_getD, List.getElem?_eq_getElem (by omega), Option.getD_some]
        rw [if_pos hpos, hget, PacketParser.decodeRemainingLengthFrom]
        dsimp only
        rw [ih (by omega)]
      · rw [if_neg hpos, List.drop_of_length_le (by rw [List.length_take]; omega)]
        rfl

theorem decodeRemainingLength_eq (p : ParserObject) :
    decodeRemainingLength p.buffer = PacketParser.decodeRemainingLength p.buffer.view := by
  rw [decodeRemainingLength, decodeRemainingLengthFrom_eq p.buffer (by omega),
    PacketParser.decodeRemainingLength, ← List.drop_one, view_buffer]

theorem split_view (p : ParserObject) {total : Nat} (h : ¬p.buffer.size < total) :
    p.buffer.data.take total = p.buffer.view.take total ∧
      (p.buffer.data.drop total).take (p.buffer.size - total) = p.buffer.view.drop total := by
  rw [view_buffer, List.take_take, Nat.min_eq_left (by omega), List.drop_take]
  exact ⟨rfl, rfl⟩

theorem view_tryExtract (cfg : Config) (p : ParserObject) :
    Prod.map (Option.map Buffer.view) view (p.tryExtract cfg) = p.view.tryExtract cfg := by
  have hlength := p.length_view
  have hread : p.buffer.readable = p.buffer.size := by
    rw [← Buffer.length_view, hlength]
  have herrors : p.view.error = p.error := rfl
  unfold tryExtract PacketParser.tryExtract PacketParser.hasError
  rw [herrors]
  by_cases herror : p.error.isSome = true
  · rw [if_pos herror, if_pos herror]
    rfl
  · rw [if_neg herror, if_neg herror]
    have hbuffer : p.view.buffer = p.buffer.view := rfl
    rw [hbuffer]
    cases hview : p.buffer.view with
    | nil =>
        rw [hview] at hlength
        rw [if_pos (by rw [hread, ← hlength]; exact Nat.one_pos)]
        simp [Prod.map, view, hview]
    | cons byte1 rest =>
        have hfirst : p.buffer.data.getD 0 0 = byte1 := by
          have hdata := p.view_buffer
          rw [hview] at hdata
          cases hbytes : p.buffer.data with
          | nil =>
              rw [hbytes, List.take_nil] at hdata
              cases hdata
          | cons first others =>
              rw [hview] at hlength
              rw [hbytes, ← hlength, List.length_cons, List.take_succ_cons] at hdata
              exact (List.cons.inj hdata).1.symm
        rw [if_neg (by rw [hread, ← hlength, hview, List.length_cons]; omega), hfirst]
        dsimp only
        by_cases htype : PacketParser.typeValue byte1 < 1 ∨ PacketParser.typeValue byte1 > 14
        · rw [if_pos htype, if_pos htype, ← hview]
          rfl
        · rw [if_neg htype, if_neg htype, decodeRemainingLength_eq, ← hview]
          cases PacketParser.decodeRemainingLength p.buffer.view with
          | malformed => rfl
          | incomplete => rfl
          | complete remaining headerEnd =>
              dsimp only
              rw [hlength]
              split_ifs with hlarge hshort
              · rfl
              · rfl
              · obtain ⟨hfront, hback⟩ := p.split_view hshort
                rw [hfront, hback]
                simp [Prod.map, view]

end ParserObject

end JellyBroker.Packet
