import JellyBroker.Broker.Handlers
import JellyBroker.Packet.Chunking
import JellyBroker.Packet.Exactness
import Mathlib.Tactic
/-!
# Packets that are built and parsed

The packets of the builder come out of a fresh parser as they went in, and the
header decoding of `handle_packet` finds their type, flags and body.  For a
PUBLISH the body parser returns the fields that the builder was given.
-/

namespace JellyBroker

open JellyBroker.Lib.Codec JellyBroker.Packet JellyBroker.Utils

/-! ## Numbers and strings -/

theorem toNat_low_group (v : Nat) : (UInt8.ofNat (v % 128)).toNat = v % 128 := by
  rw [UInt8.toNat_ofNat_of_lt']
  have hlt : v % 128 < 128 := Nat.mod_lt v (by omega)
  exact hlt.trans (by decide)

theorem toNat_continued_group (v : Nat) :
    (UInt8.ofNat (v % 128) ||| 0x80).toNat = v % 128 + 128 := by
  have hlt : v % 128 < 2 ^ 7 := Nat.mod_lt v (by omega)
  have hhigh : (0x80 : UInt8).toNat = 2 ^ 7 * 1 := rfl
  rw [UInt8.toNat_or, toNat_low_group, hhigh, Nat.or_comm, ← Nat.two_pow_add_eq_or_of_lt hlt]
  omega

theorem readLength_writeGroups {count groups v : Nat} (hgroups : count ≤ groups)
    (hv : v < 128 ^ count) (more : Bytes) :
    readLength count (writeGroups groups v ++ more) =
      if count = 0 then .malformed else .complete v (writeGroups groups v).length := by
  induction count generalizing groups v with
  | zero => rfl
  | succ count ih =>
      obtain ⟨groups, rfl⟩ : ∃ g, groups = g + 1 := ⟨groups - 1, by omega⟩
      have hpow : 128 ^ (count + 1) = 128 ^ count * 128 := Nat.pow_succ 128 count
      simp only [Nat.succ_ne_zero, if_false]
      unfold writeGroups
      dsimp only
      split_ifs with hnext
      · have hcount : count ≠ 0 := by
          rintro rfl
          omega
        have hrest : v / 128 < 128 ^ count := by
          rw [hpow] at hv
          exact Nat.div_lt_of_lt_mul (by omega)
        rw [List.cons_append, readLength, toNat_continued_group, if_neg (by omega),
          ih (by omega) hrest, if_neg hcount]
        dsimp only
        have hvalue : v % 128 + 128 - 128 + 128 * (v / 128) = v := by omega
        rw [hvalue, List.length_cons]
      · have hsmall : v % 128 = v := by omega
        rw [List.singleton_append, readLength, toNat_low_group, if_pos (by omega), hsmall]
        rfl

theorem readLength_writeRemainingLength {v : Nat} (hv : v ≤ 268435455) (more : Bytes) :
    readLength 4 (writeRemainingLength v ++ more) =
      .complete v (writeRemainingLength v).length := by
  unfold writeRemainingLength
  have hmod : v % 2 ^ 32 = v := by omega
  rw [hmod, readLength_writeGroups (by omega) (by omega), if_neg (by omega)]

/-- `read_remaining_length` agrees with the parser of the stream on a length
field that is complete. -/
theorem remainingLengthFrom_eq {value count more used : Nat} {bytes : Bytes} (hcount : count ≤ 4)
    (hvalue : value < 128 ^ count)
    (h : readLength (4 - count) bytes = .complete more used) :
    Reader.remainingLengthFrom value (128 ^ count) count bytes =
      .ok (value + 128 ^ count * more, bytes.drop used) := by
  induction bytes generalizing value count more used with
  | nil =>
      cases hleft : 4 - count with
      | zero =>
          rw [hleft] at h
          cases h
      | succ left =>
          rw [hleft] at h
          cases h
  | cons byte rest ih =>
      cases hleft : 4 - count with
      | zero =>
          rw [hleft] at h
          cases h
      | succ left =>
          have hbyte := byte.toNat_lt
          have hpow : 128 ^ (count + 1) = 128 ^ count * 128 := Nat.pow_succ 128 count
          have hfits : 128 ^ (count + 1) ≤ 2 ^ 32 := by
            calc 128 ^ (count + 1) ≤ 128 ^ 4 := Nat.pow_le_pow_right (by omega) (by omega)
              _ ≤ 2 ^ 32 := by norm_num
          have hstep : value + byte.toNat % 128 * 128 ^ count < 128 ^ (count + 1) := by
            have hlow : byte.toNat % 128 * 128 ^ count ≤ 127 * 128 ^ count :=
              Nat.mul_le_mul_right _ (by omega)
            omega
          rw [hleft, readLength] at h
          unfold Reader.remainingLengthFrom
          dsimp only
          rw [low_bits, Nat.mod_eq_of_lt (hstep.trans_le hfits), if_neg (by omega)]
          by_cases hlast : byte.toNat < 128
          · rw [if_pos hlast] at h
            obtain ⟨rfl, rfl⟩ := LengthField.complete.inj h
            rw [if_pos ((continuation_bit byte).mpr hlast), Nat.mod_eq_of_lt hlast,
              Nat.mul_comm (128 ^ count)]
            rfl
          · rw [if_neg hlast] at h
            rw [if_neg fun hzero => hlast ((continuation_bit byte).mp hzero)]
            have hleft' : left = 4 - (count + 1) := by omega
            rw [hleft'] at h
            cases hrest : readLength (4 - (count + 1)) rest with
            | complete more' used' =>
                rw [hrest] at h
                obtain ⟨rfl, rfl⟩ := LengthField.complete.inj h
                rw [← hpow, ih (by omega) hstep hrest]
                have hhigh : byte.toNat % 128 = byte.toNat - 128 := by omega
                rw [hhigh, hpow, List.drop_succ_cons]
                congr 2
                ring
            | incomplete =>
                rw [hrest] at h
                cases h
            | malformed =>
                rw [hrest] at h
                cases h

theorem remainingLength_of_readLength {bytes : Bytes} {remaining used : Nat}
    (h : readLength 4 bytes = .complete remaining used) :
    Reader.remainingLength bytes = .ok (remaining, bytes.drop used) := by
  have heq := @remainingLengthFrom_eq 0 0 remaining used bytes (by omega) (by omega) h
  rw [Nat.pow_zero, Nat.zero_add, Nat.one_mul] at heq
  exact heq

theorem remainingLength_writeRemainingLength {v : Nat} (hv : v ≤ 268435455) (more : Bytes) :
    Reader.remainingLength (writeRemainingLength v ++ more) = .ok (v, more) := by
  rw [remainingLength_of_readLength (readLength_writeRemainingLength hv more), List.drop_left]

/-! ## The fixed header -/

namespace Packet.OutPacket

def type : OutPacket → PacketType
  | connack _ _ => .connack
  | suback _ _ => .suback
  | unsuback _ => .unsuback
  | publish _ _ _ _ _ _ => .publish
  | puback _ => .puback
  | pubrec _ => .pubrec
  | pubrel _ => .pubrel
  | pubcomp _ => .pubcomp
  | pingresp => .pingresp

def flags : OutPacket → UInt8
  | publish _ _ qos retain dup _ => publishFlags qos retain dup
  | pubrel _ => 2
  | _ => 0

def body : OutPacket → Bytes
  | connack sessionPresent code => [if sessionPresent then 0x01 else 0x00, code.code]
  | suback packetId codes => writeUint16 packetId ++ codes.map SubackCode.code
  | publish topic payload qos _ _ packetId =>
      writeString topic ++ (if qos > 0 then writeUint16 packetId else []) ++ payload
  | unsuback packetId | puback packetId | pubrec packetId | pubrel packetId | pubcomp packetId =>
      writeUint16 packetId
  | pingresp => []

theorem bytes_eq_wrap (packet : OutPacket) :
    packet.bytes = wrap packet.type packet.flags packet.body := by
  cases packet <;> rfl

end Packet.OutPacket

def fixedHeader (type : PacketType) (flags : UInt8) (remainingLength : Nat) : FixedHeader :=
  { type := some type
    dup := flags &&& 0x08 ≠ 0
    qos := ((flags >>> 1) &&& 0x03).toNat
    retain := flags &&& 0x01 ≠ 0
    remainingLength }

def firstByte (type : PacketType) (flags : UInt8) : UInt8 :=
  (type.code <<< 4) ||| (flags &&& 0x0f)

theorem lowBits_fields : ∀ flags : UInt8,
    (flags &&& 0x0f) &&& 0x08 = flags &&& 0x08 ∧
      (((flags &&& 0x0f) >>> 1) &&& 0x03).toNat = ((flags >>> 1) &&& 0x03).toNat ∧
      (flags &&& 0x0f) &&& 0x01 = flags &&& 0x01 ∧ (flags &&& 0x0f).toNat < 16 := by
  decide +kernel

theorem firstByte_fields (type : PacketType) (flags : UInt8) :
    PacketParser.typeValue (firstByte type flags) = type.code ∧
      firstByte type flags &&& 0x08 = flags &&& 0x08 ∧
      ((firstByte type flags >>> 1) &&& 0x03).toNat = ((flags >>> 1) &&& 0x03).toNat ∧
      firstByte type flags &&& 0x01 = flags &&& 0x01 := by
  have hall : ∀ i : Fin 16,
      PacketParser.typeValue ((type.code <<< 4) ||| UInt8.ofNat i) = type.code ∧
      ((type.code <<< 4) ||| UInt8.ofNat i) &&& 0x08 = UInt8.ofNat i &&& 0x08 ∧
      ((((type.code <<< 4) ||| UInt8.ofNat i) >>> 1) &&& 0x03).toNat =
        ((UInt8.ofNat i >>> 1) &&& 0x03).toNat ∧
      ((type.code <<< 4) ||| UInt8.ofNat i) &&& 0x01 = UInt8.ofNat i &&& 0x01 := by
    cases type <;> decide +kernel
  obtain ⟨hdup, hqos, hretain, hlow⟩ := lowBits_fields flags
  have hfields := hall ⟨(flags &&& 0x0f).toNat, hlow⟩
  rw [UInt8.ofNat_toNat, hdup, hqos, hretain] at hfields
  exact hfields

theorem ofCode?_code (type : PacketType) : PacketType.ofCode? type.code = some type := by
  cases type <;> decide

theorem decodeHeader_wrap_eq (type : PacketType) (flags : UInt8) (body : Bytes) :
    Session.decodeHeader (OutPacket.wrap type flags body) =
      (Reader.remainingLength (writeRemainingLength body.length ++ body)).map fun read =>
        (fixedHeader type flags read.1, read.2) := by
  obtain ⟨htype, hdup, hqos, hretain⟩ := firstByte_fields type flags
  unfold Session.decodeHeader OutPacket.wrap
  rw [List.cons_append]
  dsimp only
  unfold firstByte at htype hdup hqos hretain
  rw [htype, hdup, hqos, hretain, ofCode?_code]
  cases Reader.remainingLength (writeRemainingLength body.length ++ body) with
  | error e => rfl
  | ok read => rfl

theorem decodeHeader_wrap (type : PacketType) (flags : UInt8) {body : Bytes}
    (hbody : body.length ≤ 268435455) :
    Session.decodeHeader (OutPacket.wrap type flags body) =
      .ok (fixedHeader type flags body.length, body) := by
  rw [decodeHeader_wrap_eq, remainingLength_writeRemainingLength hbody]
  rfl

theorem extract_wrap {cfg : Config} (hmax : cfg.maxPacketSize ≤ 268435455) (type : PacketType)
    (flags : UInt8) {body : Bytes} (hbody : (body.length : Int) ≤ cfg.maxPacketSize)
    (hbuffer : (OutPacket.wrap type flags body).length ≤ PacketParser.bufferLimit cfg) :
    (PacketParser.feed cfg {} (OutPacket.wrap type flags body)).tryExtract cfg =
      (some (OutPacket.wrap type flags body), {}) := by
  have hfeed : PacketParser.feed cfg {} (OutPacket.wrap type flags body) =
      { buffer := OutPacket.wrap type flags body } := by
    apply PacketParser.feed_of_fits
    rw [List.length_nil, Nat.zero_add]
    exact hbuffer
  have hheader : PacketParser.Header cfg (OutPacket.wrap type flags body) body.length
      (1 + (writeRemainingLength body.length).length) := by
    refine ⟨⟨firstByte type flags, _, List.cons_append, ?_⟩, ?_, ?_⟩
    · rw [(firstByte_fields type flags).1]
      cases type <;> decide
    · unfold OutPacket.wrap
      rw [List.cons_append, decodeRemainingLength_eq, readLength_writeRemainingLength (by omega)]
    · unfold PacketParser.packetLimit
      omega
  have hlength : (OutPacket.wrap type flags body).length =
      1 + (writeRemainingLength body.length).length + body.length := by
    simp only [OutPacket.wrap, List.cons_append, List.length_cons, List.length_append]
    omega
  rw [hfeed, PacketParser.Header.tryExtract_eq hheader rfl, if_neg (by rw [hlength]; omega),
    ← hlength, List.take_length, List.drop_length]

/-! ## PUBLISH -/

def readPacketId (hdr : FixedHeader) : Reader UInt16 :=
  if hdr.qos > 0 then Reader.uint16 else pure 0

def consumedBytes (hdr : FixedHeader) (topic : Bytes) : Nat :=
  2 + topic.length + if hdr.qos > 0 then 2 else 0

/-- What `PublishPacket::parse` does behind the topic and the id. -/
def parsePayload (hdr : FixedHeader) (topic : Bytes) (packetId : UInt16) : Reader PublishPacket :=
  fun buf =>
    if hdr.remainingLength < consumedBytes hdr topic then .error .publishTooSmall
    else if hdr.remainingLength - consumedBytes hdr topic > buf.length then
      .error .bufferSkipUnderflow
    else
      .ok ({ topic, payload := buf.take (hdr.remainingLength - consumedBytes hdr topic)
             qos := hdr.qos, retain := hdr.retain, dup := hdr.dup, packetId },
        buf.drop (hdr.remainingLength - consumedBytes hdr topic))

theorem skip_bind_pure {β : Type} (len : Nat) (value : β) (buf : Bytes) :
    (Reader.skip len >>= fun _ => pure value) buf =
      if len > buf.length then .error .bufferSkipUnderflow
      else .ok (value, buf.drop len) := by
  change (Reader.skip len buf >>= _) = _
  unfold Reader.skip
  split_ifs <;> rfl

theorem parse_publish_eq (hdr : FixedHeader) :
    PublishPacket.parse hdr =
      Reader.string >>= fun topic => readPacketId hdr >>= parsePayload hdr topic := by
  unfold PublishPacket.parse readPacketId
  apply bind_congr
  intro topic
  split_ifs with hqos
  · apply bind_congr
    intro packetId
    funext buf
    unfold parsePayload consumedBytes
    rw [← skip_bind_pure]
    simp only [hqos, if_true]
    split_ifs <;> rfl
  · apply bind_congr
    intro packetId
    funext buf
    unfold parsePayload consumedBytes
    rw [← skip_bind_pure]
    simp only [hqos, if_false]
    split_ifs <;> rfl

theorem parse_publish_of_read {hdr : FixedHeader} {body topic rest payload : Bytes}
    {packetId : UInt16} (htopic : Reader.string body = .ok (topic, rest))
    (hid : readPacketId hdr rest = .ok (packetId, payload))
    (hlength : hdr.remainingLength = consumedBytes hdr topic + payload.length) :
    PublishPacket.parse hdr body =
      .ok ({ topic, payload, qos := hdr.qos, retain := hdr.retain, dup := hdr.dup
             packetId }, []) := by
  have hpayload : hdr.remainingLength - consumedBytes hdr topic = payload.length := by omega
  rw [parse_publish_eq, bind_of_ok htopic, bind_of_ok hid, parsePayload, if_neg (by omega),
    hpayload, if_neg (by omega), List.take_length, List.drop_length]

theorem parse_publish {hdr : FixedHeader} {topic payload : Bytes} (packetId : UInt16)
    (htopic : topic.length ≤ 65535)
    (hlength : hdr.remainingLength =
      2 + topic.length + (if hdr.qos > 0 then 2 else 0) + payload.length) :
    PublishPacket.parse hdr
        (writeString topic ++ (if hdr.qos > 0 then writeUint16 packetId else []) ++ payload) =
      .ok ({ topic, payload, qos := hdr.qos, retain := hdr.retain, dup := hdr.dup
             packetId := if hdr.qos > 0 then packetId else 0 }, []) := by
  have hid : readPacketId hdr ((if hdr.qos > 0 then writeUint16 packetId else []) ++ payload) =
      .ok (if hdr.qos > 0 then packetId else 0, payload) := by
    unfold readPacketId
    split_ifs
    · exact uint16_writeUint16 packetId payload
    · rfl
  rw [List.append_assoc]
  exact parse_publish_of_read (string_writeString htopic _) hid hlength

theorem fixedHeader_publish {qos : Nat} (hqos : qos ≤ 2) (retain dup : Bool)
    (remainingLength : Nat) :
    fixedHeader .publish (OutPacket.publishFlags qos retain dup) remainingLength =
      { type := some .publish, dup, qos, retain, remainingLength } := by
  unfold fixedHeader
  interval_cases qos <;> cases retain <;> cases dup <;> rfl

/-- What the builder builds, the parser extracts with nothing left over, and the
header has the type and the flags in front of the body.  From a PUBLISH the body
parser gets back what the builder was given. -/
theorem builder_parser_inverse (cfg : Config) (hmax : cfg.maxPacketSize ≤ 268435455) :
    (∀ (topic payload : Bytes) (qos : Nat) (retain dup : Bool) (packetId : UInt16),
      topic.length ≤ 65535 → qos ≤ 2 → (qos = 0 → packetId = 0) →
      ((2 + topic.length + (if qos > 0 then 2 else 0) + payload.length : Nat) : Int) ≤
        cfg.maxPacketSize →
      let bytes := (OutPacket.publish topic payload qos retain dup packetId).bytes
      bytes.length ≤ PacketParser.bufferLimit cfg →
      (PacketParser.feed cfg {} bytes).tryExtract cfg = (some bytes, {}) ∧
        ∃ hdr body, Session.decodeHeader bytes = .ok (hdr, body) ∧ hdr.type = some .publish ∧
          PublishPacket.parse hdr body =
            .ok ({ topic, payload, qos, retain, dup, packetId }, [])) ∧
    ∀ packet : OutPacket, (packet.body.length : Int) ≤ cfg.maxPacketSize →
      packet.bytes.length ≤ PacketParser.bufferLimit cfg →
      (PacketParser.feed cfg {} packet.bytes).tryExtract cfg = (some packet.bytes, {}) ∧
        Session.decodeHeader packet.bytes =
          .ok (fixedHeader packet.type packet.flags packet.body.length, packet.body) := by
  have hpacket (packet : OutPacket) (hbody : (packet.body.length : Int) ≤ cfg.maxPacketSize)
      (hbuffer : packet.bytes.length ≤ PacketParser.bufferLimit cfg) :
      (PacketParser.feed cfg {} packet.bytes).tryExtract cfg = (some packet.bytes, {}) ∧
        Session.decodeHeader packet.bytes =
          .ok (fixedHeader packet.type packet.flags packet.body.length, packet.body) := by
    rw [packet.bytes_eq_wrap] at hbuffer ⊢
    exact ⟨extract_wrap hmax _ _ hbody hbuffer, decodeHeader_wrap _ _ (by omega)⟩
  refine ⟨?_, hpacket⟩
  intro topic payload qos retain dup packetId htopic hqos hid hsize bytes hbuffer
  have hlength : (OutPacket.publish topic payload qos retain dup packetId).body.length =
      2 + topic.length + (if qos > 0 then 2 else 0) + payload.length := by
    simp only [OutPacket.body, writeString, List.length_append]
    split_ifs
    · rfl
    · rfl
  obtain ⟨hextract, hdecode⟩ := hpacket (.publish topic payload qos retain dup packetId)
    (by rw [hlength]; exact hsize) hbuffer
  refine ⟨hextract, _, _, hdecode, rfl, ?_⟩
  simp only [OutPacket.type, OutPacket.flags, hlength, fixedHeader_publish hqos]
  have hpacketId : (if qos > 0 then packetId else 0) = packetId := by
    split_ifs with hpos
    · rfl
    · exact (hid (by omega)).symm
  have hparse := @parse_publish
    ⟨some .publish, dup, qos, retain, 2 + topic.length + (if qos > 0 then 2 else 0) +
      payload.length⟩ topic payload packetId htopic rfl
  simp only [hpacketId] at hparse
  exact hparse

/-- A message of QoS 1 and a SUBACK with three codes. -/
theorem builder_parser_inverse_sample :
    let bytes := (OutPacket.publish [0x74] [0x6d] 1 true false 7).bytes
    let suback : OutPacket := .suback 1 [.granted 0, .granted 2, .failure]
    (PacketParser.feed {} {} bytes).tryExtract {} = (some bytes, {}) ∧
      (PacketParser.feed {} {} suback.bytes).tryExtract {} = (some suback.bytes, {}) ∧
      Session.decodeHeader suback.bytes = .ok (fixedHeader .suback 0 5, suback.body) := by
  intro bytes suback
  obtain ⟨hpublish, hother⟩ := builder_parser_inverse {} (by decide)
  obtain ⟨hextract, _⟩ := hpublish [0x74] [0x6d] 1 true false 7 (by decide) (by decide) nofun
    (by decide) (by decide)
  obtain ⟨hsuback, hheader⟩ := hother suback (by decide) (by decide)
  exact ⟨hextract, hsuback, hheader⟩

end JellyBroker
