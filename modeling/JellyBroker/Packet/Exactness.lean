import JellyBroker.Lib.Codec
import JellyBroker.Packet.Packets
/-!
# Exact parsing

The fields of a packet are formats in the sense of `Lib.Codec`.  From them follows
what the parsers of SUBSCRIBE, UNSUBSCRIBE and CONNECT accept, and what they return.
-/

namespace JellyBroker

open JellyBroker.Lib.Codec JellyBroker.Packet JellyBroker.Utils

/-! ## Fields -/

theorem uint16_writeUint16 (v : UInt16) (more : Bytes) :
    Reader.uint16 (writeUint16 v ++ more) = .ok (v, more) := by
  change Except.ok (_, more) = _
  rw [wordOfBytes]

theorem isCodec_byte : IsCodec Reader.byte (fun b => [b]) (fun _ => True) := by
  apply IsCodec.of_whole
  · intro b _ more
    rfl
  · intro buf b rest hread
    cases buf with
    | nil => cases hread
    | cons b rest =>
        cases hread
        exact ⟨trivial, rfl⟩

theorem isCodec_uint16 : IsCodec Reader.uint16 writeUint16 (fun _ => True) := by
  apply IsCodec.of_whole
  · intro v _ more
    exact uint16_writeUint16 v more
  · intro buf v rest hread
    rcases buf with _ | ⟨high, _ | ⟨low, rest⟩⟩
    · cases hread
    · cases hread
    · cases hread
      refine ⟨trivial, ?_⟩
      rw [writeUint16, highByte_bytesToWord, lowByte_bytesToWord]
      rfl

theorem bytes_append (s more : Bytes) : Reader.bytes s.length (s ++ more) = .ok (s, more) := by
  unfold Reader.bytes
  rw [if_neg (by simp), List.take_left, List.drop_left]

theorem isCodec_string : IsCodec Reader.string writeString (fun s => s.length ≤ 65535) := by
  apply IsCodec.of_whole
  · intro s hs more
    have hlength : (UInt16.ofNat s.length).toNat = s.length :=
      UInt16.toNat_ofNat_of_lt' (Nat.lt_succ_of_le hs)
    rw [writeString, List.append_assoc, Reader.string, bind_of_ok (uint16_writeUint16 _ _),
      hlength, bytes_append]
  · intro buf s rest hread
    obtain ⟨len, mid, hlen, hbytes⟩ := bind_eq_ok hread
    have hbuf : buf = writeUint16 len ++ mid := (isCodec_uint16.sound hlen).2
    unfold Reader.bytes at hbytes
    split_ifs at hbytes with hshort
    have htaken : mid.take len.toNat = s ∧ mid.drop len.toNat = rest :=
      Prod.mk.inj (Except.ok.inj hbytes)
    have hlength : s.length = len.toNat := by
      rw [← htaken.1, List.length_take]
      omega
    have hlt := len.toNat_lt
    refine ⟨by omega, ?_⟩
    rw [hbuf, writeString, hlength, UInt16.ofNat_toNat, List.append_assoc, ← htaken.1,
      ← htaken.2, List.take_append_drop]

theorem string_writeString {s : Bytes} (h : s.length ≤ 65535) (more : Bytes) :
    Reader.string (writeString s ++ more) = .ok (s, more) :=
  isCodec_string.whole h more

/-! ## Lists of filters -/

def filterBytes (filter : Bytes × UInt8) : Bytes := writeString filter.1 ++ [filter.2]

def readFilter : Reader (Bytes × UInt8) := do
  let topicFilter ← Reader.string
  let options ← Reader.byte
  return (topicFilter, options)

def requestedFilter (filter : Bytes × UInt8) : SubscribePacket.Filter :=
  { topicFilter := filter.1, requestedQos := (filter.2 &&& 0x03).toNat }

theorem isCodec_readFilter :
    IsCodec readFilter filterBytes (fun filter => filter.1.length ≤ 65535 ∧ True) :=
  isCodec_string.pair isCodec_byte

theorem filterBytes_ne_nil (filter : Bytes × UInt8) : filterBytes filter ≠ [] := by
  simp [filterBytes]

theorem writeString_ne_nil (s : Bytes) : writeString s ≠ [] := by
  simp [writeString, writeUint16]

theorem readFilter_bind {β : Type} (next : Bytes × UInt8 → Reader β) :
    readFilter >>= next =
      Reader.string >>= fun topicFilter => Reader.byte >>= fun options =>
        next (topicFilter, options) := by
  simp only [readFilter, bind_assoc, pure_bind]

theorem subscribe_parseFilters_eq (turns : Nat) :
    SubscribePacket.parseFilters turns = List.map requestedFilter <$> many readFilter turns := by
  induction turns with
  | zero => rfl
  | succ turns ih =>
      rw [SubscribePacket.parseFilters, many, ih, map_bind]
      refine bind_congr fun buf => ?_
      split_ifs
      · rfl
      · simp only [readFilter_bind, map_bind, map_pure, bind_map_left]
        rfl

theorem unsubscribe_parseFilters_eq (turns : Nat) :
    UnsubscribePacket.parseFilters turns = many Reader.string turns := by
  induction turns with
  | zero => rfl
  | succ turns ih => rw [UnsubscribePacket.parseFilters, many, ih]

/-- The loop over the filters of a SUBSCRIBE stays the same from the length of the
buffer on. -/
theorem subscribe_parseFilters_turns {buf : Bytes} {turns turns' : Nat}
    (hturns : buf.length < turns) (hturns' : buf.length < turns') :
    SubscribePacket.parseFilters turns buf = SubscribePacket.parseFilters turns' buf := by
  have hsame := many_turns isCodec_readFilter (fun filter _ => filterBytes_ne_nil filter)
    hturns hturns'
  rw [subscribe_parseFilters_eq, subscribe_parseFilters_eq, ← bind_pure_comp, ← bind_pure_comp]
  change (many readFilter turns buf >>= _) = (many readFilter turns' buf >>= _)
  rw [hsame]

theorem unsubscribe_parseFilters_turns {buf : Bytes} {turns turns' : Nat}
    (hturns : buf.length < turns) (hturns' : buf.length < turns') :
    UnsubscribePacket.parseFilters turns buf = UnsubscribePacket.parseFilters turns' buf := by
  rw [unsubscribe_parseFilters_eq, unsubscribe_parseFilters_eq]
  exact many_turns isCodec_string (fun s _ => writeString_ne_nil s) hturns hturns'

theorem parseList_eq_ok_iff {β γ : Type} {loop : Nat → Reader (List β)}
    {packet : UInt16 → List β → γ} {body rest : Bytes} {out : γ} :
    (Reader.uint16 >>= fun packetId => get >>= fun buf => loop (buf.length + 1) >>= fun list =>
        pure (packet packetId list)) body = .ok (out, rest) ↔
      ∃ packetId buf list, body = writeUint16 packetId ++ buf ∧
        loop (buf.length + 1) buf = .ok (list, rest) ∧ out = packet packetId list := by
  have hget (buf : Bytes) : (get : Reader Bytes) buf = .ok (buf, buf) := rfl
  constructor
  · intro h
    obtain ⟨packetId, buf, hid, h⟩ := bind_eq_ok h
    rw [bind_of_ok (hget buf)] at h
    obtain ⟨list, rest', hloop, hpure⟩ := bind_eq_ok h
    cases hpure
    exact ⟨packetId, buf, list, (isCodec_uint16.sound hid).2, hloop, rfl⟩
  · rintro ⟨packetId, buf, list, rfl, hloop, rfl⟩
    rw [bind_of_ok (uint16_writeUint16 packetId buf), bind_of_ok (hget buf), bind_of_ok hloop]
    rfl

theorem subscribe_parse_iff {body rest : Bytes} {packet : SubscribePacket} :
    SubscribePacket.parse body = .ok (packet, rest) ↔
      ∃ (packetId : UInt16) (filters : List (Bytes × UInt8)),
        (∀ filter ∈ filters, filter.1.length ≤ 65535) ∧
        body = writeUint16 packetId ++ filters.flatMap filterBytes ∧
        packet = { packetId, filters := filters.map requestedFilter } ∧ rest = [] := by
  have hloop (buf : Bytes) (list : List (Bytes × UInt8)) (rest : Bytes) :
      many readFilter (buf.length + 1) buf = .ok (list, rest) ↔ _ :=
    many_eq_ok_iff isCodec_readFilter (fun filter _ => filterBytes_ne_nil filter)
      (Nat.lt_succ_self _)
  rw [SubscribePacket.parse, parseList_eq_ok_iff]
  simp only [subscribe_parseFilters_eq, map_eq_ok_iff, hloop, and_true]
  constructor
  · rintro ⟨packetId, buf, list, hbody, ⟨filters, ⟨hvalid, hbuf, hrest⟩, rfl⟩, hpacket⟩
    rw [hbuf] at hbody
    exact ⟨packetId, filters, hvalid, hbody, hpacket, hrest⟩
  · rintro ⟨packetId, filters, hvalid, hbody, hpacket, hrest⟩
    exact ⟨packetId, _, _, hbody, ⟨filters, ⟨hvalid, rfl, hrest⟩, rfl⟩, hpacket⟩

theorem unsubscribe_parse_iff {body rest : Bytes} {packet : UnsubscribePacket} :
    UnsubscribePacket.parse body = .ok (packet, rest) ↔
      ∃ (packetId : UInt16) (topicFilters : List Bytes),
        (∀ filter ∈ topicFilters, filter.length ≤ 65535) ∧
        body = writeUint16 packetId ++ topicFilters.flatMap writeString ∧
        packet = { packetId, topicFilters } ∧ rest = [] := by
  have hloop (buf : Bytes) (list : List Bytes) (rest : Bytes) :
      many Reader.string (buf.length + 1) buf = .ok (list, rest) ↔ _ :=
    many_eq_ok_iff isCodec_string (fun s _ => writeString_ne_nil s) (Nat.lt_succ_self _)
  rw [UnsubscribePacket.parse, parseList_eq_ok_iff]
  simp only [unsubscribe_parseFilters_eq, hloop]
  constructor
  · rintro ⟨packetId, buf, list, hbody, ⟨hvalid, hbuf, hrest⟩, hpacket⟩
    rw [hbuf] at hbody
    exact ⟨packetId, list, hvalid, hbody, hpacket, hrest⟩
  · rintro ⟨packetId, list, hvalid, hbody, hpacket, hrest⟩
    exact ⟨packetId, _, list, hbody, ⟨hvalid, rfl, hrest⟩, hpacket⟩

/-! ## CONNECT -/

abbrev ShortString := { s : Bytes // s.length ≤ 65535 }

/-- What the body of a CONNECT encodes.  All of the flags are independent of each
other here, as they are for the parser. -/
structure ConnectBody where
  protocolName : ShortString
  protocolLevel : UInt8
  reserved : Bool
  cleanSession : Bool
  willQos : Fin 4
  willRetain : Bool
  keepalive : UInt16
  clientId : ShortString
  /-- The topic and the message. -/
  will : Option (ShortString × ShortString)
  username : Option ShortString
  password : Option ShortString

def flagBit (flag : Bool) (mask : UInt8) : UInt8 := if flag then mask else 0

/-- The connect flags, from the lowest bit to the highest. -/
def connectFlags (reserved cleanSession willFlag : Bool) (willQos : Fin 4)
    (willRetain passwordFlag usernameFlag : Bool) : UInt8 :=
  flagBit reserved 0x01 ||| flagBit cleanSession 0x02 ||| flagBit willFlag 0x04 |||
    (UInt8.ofNat willQos.val <<< 3) ||| flagBit willRetain 0x20 ||| flagBit passwordFlag 0x40 |||
    flagBit usernameFlag 0x80

structure FlagsRead (flags : UInt8) (cleanSession willFlag : Bool) (willQos : Nat)
    (willRetain passwordFlag usernameFlag : Bool) : Prop where
  cleanSession : decide (flags &&& 0x02 ≠ 0) = cleanSession
  willFlag : decide (flags &&& 0x04 ≠ 0) = willFlag
  willQos : ((flags >>> 3) &&& 0x03).toNat = willQos
  willRetain : decide (flags &&& 0x20 ≠ 0) = willRetain
  passwordFlag : decide (flags &&& 0x40 ≠ 0) = passwordFlag
  usernameFlag : decide (flags &&& 0x80 ≠ 0) = usernameFlag

theorem connectFlags_read (reserved cleanSession willFlag : Bool) (willQos : Fin 4)
    (willRetain passwordFlag usernameFlag : Bool) :
    FlagsRead (connectFlags reserved cleanSession willFlag willQos willRetain passwordFlag
      usernameFlag) cleanSession willFlag willQos willRetain passwordFlag usernameFlag := by
  constructor <;> decide +revert

namespace ConnectBody

variable (body : ConnectBody)

def flags : UInt8 :=
  connectFlags body.reserved body.cleanSession body.will.isSome body.willQos body.willRetain
    body.password.isSome body.username.isSome

def fieldBytes (field : Option ShortString) : Bytes := field.elim [] (writeString ·.val)

/-- The parser leaves an absent string empty. -/
def fieldValue (field : Option ShortString) : Bytes := field.elim [] (·.val)

def bytes : Bytes :=
  writeString body.protocolName ++ [body.protocolLevel, body.flags] ++
    writeUint16 body.keepalive ++ writeString body.clientId ++
    body.will.elim [] (fun will => writeString will.1 ++ writeString will.2) ++
    fieldBytes body.username ++ fieldBytes body.password

def packet : ConnectPacket where
  protocolName := body.protocolName
  protocolLevel := body.protocolLevel
  cleanSession := body.cleanSession
  willFlag := body.will.isSome
  willQos := body.willQos
  willRetain := body.willRetain
  willTopic := fieldValue (body.will.map (·.1))
  willMessage := fieldValue (body.will.map (·.2))
  username := fieldValue body.username
  password := fieldValue body.password
  keepalive := body.keepalive
  clientId := body.clientId

theorem reads_field {c : Prop} [Decidable c] {field : Option ShortString}
    (h : decide c = field.isSome) {β : Type} {next : Bytes → Reader β} {more : Bytes} {value : β}
    (hnext : Reads (next (fieldValue field)) more value) :
    Reads (if c then Reader.string >>= next else pure [] >>= next) (fieldBytes field ++ more)
      value := by
  cases field with
  | none =>
      rw [if_neg (of_decide_eq_false h), pure_bind]
      exact hnext
  | some s =>
      rw [if_pos (of_decide_eq_true h)]
      exact (isCodec_string.reads s.val s.property).bind hnext

theorem bytes_eq : body.bytes =
    writeString body.protocolName ++ ([body.protocolLevel] ++ ([body.flags] ++
      (writeUint16 body.keepalive ++ (writeString body.clientId ++
      (fieldBytes (body.will.map (·.1)) ++ (fieldBytes (body.will.map (·.2)) ++
      (fieldBytes body.username ++ (fieldBytes body.password ++ [])))))))) := by
  unfold bytes
  cases body.will with
  | none => simp [fieldBytes]
  | some will => simp [fieldBytes]

theorem reads_connect : Reads ConnectPacket.parse body.bytes body.packet := by
  have hflags : FlagsRead body.flags _ _ _ _ _ _ :=
    connectFlags_read body.reserved body.cleanSession body.will.isSome body.willQos
      body.willRetain body.password.isSome body.username.isSome
  have hpacket : body.packet =
      { body.packet with
        cleanSession := body.flags &&& 0x02 ≠ 0
        willFlag := body.flags &&& 0x04 ≠ 0
        willQos := ((body.flags >>> 3) &&& 0x03).toNat
        willRetain := body.flags &&& 0x20 ≠ 0 } := by
    rw [hflags.cleanSession, hflags.willFlag, hflags.willQos, hflags.willRetain]
    rfl
  rw [bytes_eq, hpacket]
  unfold ConnectPacket.parse
  apply (isCodec_string.reads _ body.protocolName.property).bind
  apply (isCodec_byte.reads body.protocolLevel trivial).bind
  apply (isCodec_byte.reads body.flags trivial).bind
  apply (isCodec_uint16.reads body.keepalive trivial).bind
  apply (isCodec_string.reads _ body.clientId.property).bind
  have hwill {γ : Type} (part : ShortString × ShortString → γ) :
      decide (body.flags &&& 0x04 ≠ 0) = (body.will.map part).isSome := by
    rw [Option.isSome_map]
    exact hflags.willFlag
  apply reads_field (hwill (·.1))
  apply reads_field (hwill (·.2))
  apply reads_field hflags.usernameFlag
  apply reads_field hflags.passwordFlag
  exact reads_pure _

end ConnectBody

/-- SUBSCRIBE and UNSUBSCRIBE bodies are accepted exactly when they are a packet id
and a list of filters that fills them, and all of it is returned.  The loops have
ended when there have been more turns than bytes.  A CONNECT body gives back what it
encodes, and no part of it is accepted. -/
theorem bodies_parsed_exactly :
    (∀ (body rest : Bytes) (packet : SubscribePacket),
      SubscribePacket.parse body = .ok (packet, rest) ↔
        ∃ (packetId : UInt16) (filters : List (Bytes × UInt8)),
          (∀ filter ∈ filters, filter.1.length ≤ 65535) ∧
          body = writeUint16 packetId ++ filters.flatMap filterBytes ∧
          packet = { packetId, filters := filters.map requestedFilter } ∧ rest = []) ∧
    (∀ (body rest : Bytes) (packet : UnsubscribePacket),
      UnsubscribePacket.parse body = .ok (packet, rest) ↔
        ∃ (packetId : UInt16) (topicFilters : List Bytes),
          (∀ filter ∈ topicFilters, filter.length ≤ 65535) ∧
          body = writeUint16 packetId ++ topicFilters.flatMap writeString ∧
          packet = { packetId, topicFilters } ∧ rest = []) ∧
    (∀ (buf : Bytes) (turns : Nat), buf.length < turns →
      SubscribePacket.parseFilters turns buf =
          SubscribePacket.parseFilters (buf.length + 1) buf ∧
        UnsubscribePacket.parseFilters turns buf =
          UnsubscribePacket.parseFilters (buf.length + 1) buf) ∧
    ∀ body : ConnectBody,
      ConnectPacket.parse body.bytes = .ok (body.packet, []) ∧
        ∀ n < body.bytes.length, Fails ConnectPacket.parse (body.bytes.take n) := by
  refine ⟨fun _ _ _ => subscribe_parse_iff, fun _ _ _ => unsubscribe_parse_iff, ?_, ?_⟩
  · intro buf turns hturns
    have hlength : buf.length < buf.length + 1 := Nat.lt_succ_self _
    exact ⟨subscribe_parseFilters_turns hturns hlength,
      unsubscribe_parseFilters_turns hturns hlength⟩
  · intro body
    have hreads := body.reads_connect
    have hwhole := hreads.whole []
    rw [List.append_nil] at hwhole
    exact ⟨hwhole, hreads.cut⟩

end JellyBroker
