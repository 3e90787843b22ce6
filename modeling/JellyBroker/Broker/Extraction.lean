import JellyBroker.Broker.RoundTrip
/-!
# Parsing an extracted packet

`try_extract` decodes the length field once, and `handle_packet` decodes it again
from the packet that was cut out.  The second decoding cannot fail, and it finds
the number of bytes behind the field.  So a PUBLISH parser that came as far as the
payload has all of it in the buffer and nothing behind it.
-/

namespace JellyBroker

open JellyBroker.Lib.Codec JellyBroker.Packet JellyBroker.Utils

/-! ## The packet that is cut out -/

theorem readLength_take {count value used n : Nat} {bytes : Bytes}
    (h : readLength count bytes = .complete value used) (hn : used ≤ n) :
    readLength count (bytes.take n) = .complete value used := by
  induction count generalizing value used n bytes with
  | zero => cases h
  | succ count ih =>
      cases bytes with
      | nil => cases h
      | cons byte rest =>
          rw [readLength] at h
          split_ifs at h with hlast
          · obtain ⟨rfl, rfl⟩ := LengthField.complete.inj h
            obtain ⟨n, rfl⟩ : ∃ m, n = m + 1 := ⟨n - 1, by omega⟩
            rw [List.take_succ_cons, readLength, if_pos hlast]
          · cases hrest : readLength count rest with
            | malformed =>
                rw [hrest] at h
                cases h
            | incomplete =>
                rw [hrest] at h
                cases h
            | complete value' used' =>
                rw [hrest] at h
                obtain ⟨rfl, rfl⟩ := LengthField.complete.inj h
                obtain ⟨n, rfl⟩ : ∃ m, n = m + 1 := ⟨n - 1, by omega⟩
                rw [List.take_succ_cons, readLength, if_neg hlast, ih hrest (by omega)]

/-- The packet is a first byte, a length field and as many bytes as the field says. -/
theorem shape_of_tryExtract {cfg : Config} {parser parser' : PacketParser} {packet : Bytes}
    (h : parser.tryExtract cfg = (some packet, parser')) :
    ∃ byte1 rest remaining used, packet = byte1 :: rest ∧
      readLength 4 rest = .complete remaining used ∧ rest.length = used + remaining := by
  obtain ⟨herror, remaining, headerEnd, hheader, hall⟩ := PacketParser.header_of_tryExtract h
  rw [hheader.tryExtract_eq herror, if_neg (by omega)] at h
  obtain ⟨hpacket, _⟩ := Prod.mk.inj h
  obtain ⟨byte1, rest, hbuffer, _⟩ := hheader.type
  have hlength := hheader.length
  rw [hbuffer, decodeRemainingLength_eq] at hlength
  rw [hbuffer, List.length_cons] at hall
  cases hread : readLength 4 rest with
  | malformed =>
      rw [hread] at hlength
      cases hlength
  | incomplete =>
      rw [hread] at hlength
      cases hlength
  | complete value used =>
      rw [hread] at hlength
      obtain ⟨rfl, rfl⟩ := LengthField.complete.inj hlength
      have hsize : 1 + used + value = used + value + 1 := by omega
      refine ⟨byte1, rest.take (used + value), value, used, ?_, ?_, ?_⟩
      · rw [← Option.some.inj hpacket, hbuffer, hsize, List.take_succ_cons]
      · exact readLength_take hread (by omega)
      · rw [List.length_take]
        omega

/-! ## The second decoding -/

/-- The products of type `int` that the loop of `read_remaining_length` computes. -/
def lengthProducts (multiplier count : Nat) : Bytes → List Nat
  | [] => []
  | enc :: rest =>
      (enc &&& 0x7f).toNat * multiplier :: multiplier * 128 ::
        if count + 1 > 4 then []
        else if enc &&& 0x80 = 0 then []
        else lengthProducts (multiplier * 128) (count + 1) rest

def headerProducts (packet : Bytes) : List Nat := lengthProducts 1 0 packet.tail

/-- A field of at most four bytes keeps the products below `127 * 128 ^ 3` and
`128 ^ 4`. -/
theorem lengthProducts_lt {count value used product : Nat} {bytes : Bytes} (hcount : count ≤ 4)
    (h : readLength (4 - count) bytes = .complete value used)
    (hproduct : product ∈ lengthProducts (128 ^ count) count bytes) : product < 2 ^ 31 := by
  induction bytes generalizing count value used with
  | nil => cases hproduct
  | cons byte rest ih =>
      cases hleft : 4 - count with
      | zero =>
          rw [hleft] at h
          cases h
      | succ left =>
          have hbyte := byte.toNat_lt
          have hpow : 128 ^ (count + 1) = 128 ^ count * 128 := Nat.pow_succ 128 count
          have hsmall : 128 ^ (count + 1) ≤ 128 ^ 4 :=
            Nat.pow_le_pow_right (by omega) (by omega)
          have hlow : byte.toNat % 128 * 128 ^ count ≤ 127 * 128 ^ count :=
            Nat.mul_le_mul_right _ (by omega)
          rw [lengthProducts, low_bits, List.mem_cons, List.mem_cons, ← hpow] at hproduct
          rcases hproduct with hproduct | hproduct | hproduct
          · omega
          · omega
          · rw [hleft, readLength] at h
            split_ifs at hproduct with hlong hlast
            · cases hproduct
            · cases hproduct
            · rw [continuation_bit] at hlast
              rw [if_neg hlast] at h
              have hleft' : left = 4 - (count + 1) := by omega
              rw [hleft'] at h
              cases hrest : readLength (4 - (count + 1)) rest with
              | complete value' used' => exact ih (by omega) hrest hproduct
              | incomplete =>
                  rw [hrest] at h
                  cases h
              | malformed =>
                  rw [hrest] at h
                  cases h

/-- The header of an extracted packet is decoded, and its length is that of the body. -/
theorem decodeHeader_of_tryExtract {cfg : Config} {parser parser' : PacketParser}
    {packet : Bytes} (h : parser.tryExtract cfg = (some packet, parser')) :
    ∃ hdr body, Session.decodeHeader packet = .ok (hdr, body) ∧
      hdr.remainingLength = body.length := by
  obtain ⟨byte1, rest, remaining, used, hpacket, hread, hlength⟩ := shape_of_tryExtract h
  unfold Session.decodeHeader
  rw [hpacket]
  dsimp only
  rw [remainingLength_of_readLength hread]
  refine ⟨_, _, rfl, ?_⟩
  dsimp only
  rw [List.length_drop]
  omega

/-! ## The payload of a PUBLISH -/

theorem uint16_cases (buf : Bytes) :
    (∃ value rest, Reader.uint16 buf = .ok (value, rest) ∧ buf.length = 2 + rest.length) ∨
      Reader.uint16 buf = .error .bufferUnderflow := by
  cases buf with
  | nil => exact Or.inr rfl
  | cons high buf =>
      cases buf with
      | nil => exact Or.inr rfl
      | cons low rest =>
          refine Or.inl ⟨_, rest, rfl, ?_⟩
          rw [List.length_cons, List.length_cons]
          omega

theorem string_cases (buf : Bytes) :
    (∃ topic rest, Reader.string buf = .ok (topic, rest) ∧
        buf.length = 2 + topic.length + rest.length) ∨
      Reader.string buf = .error .bufferUnderflow := by
  unfold Reader.string
  rcases uint16_cases buf with ⟨len, mid, hlen, hbuf⟩ | herror
  · rw [bind_of_ok hlen]
    unfold Reader.bytes
    split_ifs with hshort
    · exact Or.inr rfl
    · refine Or.inl ⟨_, _, rfl, ?_⟩
      rw [List.length_take, List.length_drop]
      omega
  · exact Or.inr (bind_of_error herror)

theorem readPacketId_cases (hdr : FixedHeader) (buf : Bytes) :
    (∃ packetId rest, readPacketId hdr buf = .ok (packetId, rest) ∧
        buf.length = (if hdr.qos > 0 then 2 else 0) + rest.length) ∨
      readPacketId hdr buf = .error .bufferUnderflow := by
  unfold readPacketId
  split_ifs with hqos
  · exact uint16_cases buf
  · refine Or.inl ⟨0, buf, rfl, ?_⟩
    omega

/-- The length that `PublishPacket::parse` computes for the payload is the number of
bytes behind the topic and the id. -/
theorem payloadLength_eq {hdr : FixedHeader} {body topic rest payload : Bytes}
    {packetId : UInt16} (hlength : hdr.remainingLength = body.length)
    (htopic : Reader.string body = .ok (topic, rest))
    (hid : readPacketId hdr rest = .ok (packetId, payload)) :
    hdr.remainingLength = consumedBytes hdr topic + payload.length := by
  have hbody : body.length = 2 + topic.length + rest.length := by
    rcases string_cases body with ⟨topic', rest', hread, hbody⟩ | herror
    · rw [htopic] at hread
      cases hread
      exact hbody
    · rw [htopic] at herror
      cases herror
  have hrest : rest.length = (if hdr.qos > 0 then 2 else 0) + payload.length := by
    rcases readPacketId_cases hdr rest with ⟨packetId', payload', hread, hrest⟩ | herror
    · rw [hid] at hread
      cases hread
      exact hrest
    · rw [hid] at herror
      cases herror
  unfold consumedBytes
  omega

theorem parse_publish_error {hdr : FixedHeader} {body : Bytes} {e : Exception}
    (hlength : hdr.remainingLength = body.length)
    (h : PublishPacket.parse hdr body = .error e) : e = .bufferUnderflow := by
  rcases string_cases body with ⟨topic, rest, htopic, _⟩ | herror
  · rcases readPacketId_cases hdr rest with ⟨packetId, payload, hid, _⟩ | herror
    · rw [parse_publish_of_read htopic hid (payloadLength_eq hlength htopic hid)] at h
      cases h
    · rw [parse_publish_eq, bind_of_ok htopic, bind_of_error herror] at h
      exact (Except.error.inj h).symm
  · rw [parse_publish_eq, bind_of_error herror] at h
    exact (Except.error.inj h).symm

/-- The header of every extracted packet is decoded without an exception and without
an overflow, and its remaining length is the number of bytes left.  When the topic
and the id of a PUBLISH have been read, the length of the payload is the number of
bytes left, the payload is exactly these bytes, and neither a length that is too
small nor a `skip` past the end is ever thrown. -/
theorem extracted_packet_parses_inside (cfg : Config) (parser parser' : PacketParser)
    (packet : Bytes) (h : parser.tryExtract cfg = (some packet, parser')) :
    ∃ hdr body, Session.decodeHeader packet = .ok (hdr, body) ∧
      (∀ product ∈ headerProducts packet, product < 2 ^ 31) ∧
      hdr.remainingLength = body.length ∧
      (∀ topic rest packetId left, Reader.string body = .ok (topic, rest) →
        readPacketId hdr rest = .ok (packetId, left) →
        consumedBytes hdr topic ≤ hdr.remainingLength ∧
          hdr.remainingLength - consumedBytes hdr topic = left.length ∧
          PublishPacket.parse hdr body =
            .ok ({ topic, payload := left, qos := hdr.qos, retain := hdr.retain
                   dup := hdr.dup, packetId }, [])) ∧
      PublishPacket.parse hdr body ≠ .error .publishTooSmall ∧
      PublishPacket.parse hdr body ≠ .error .bufferSkipUnderflow := by
  obtain ⟨hdr, body, hdecode, hlength⟩ := decodeHeader_of_tryExtract h
  refine ⟨hdr, body, hdecode, ?_, hlength, ?_, ?_, ?_⟩
  · intro product hproduct
    obtain ⟨byte1, rest, remaining, used, hpacket, hread, _⟩ := shape_of_tryExtract h
    rw [headerProducts, hpacket, List.tail_cons] at hproduct
    exact @lengthProducts_lt 0 remaining used product rest (by omega) hread hproduct
  · intro topic rest packetId left htopic hid
    have hpayload := payloadLength_eq hlength htopic hid
    exact ⟨by omega, by omega, parse_publish_of_read htopic hid hpayload⟩
  · intro herror
    cases parse_publish_error hlength herror
  · intro herror
    cases parse_publish_error hlength herror

/-- A PUBLISH of QoS 1 behind a PINGREQ in the buffer. -/
theorem extracted_publish_parses_inside :
    PacketParser.tryExtract {} { buffer := [0x32, 6, 0, 1, 0x74, 0, 7, 0x6d, 0xC0, 0] } =
        (some [0x32, 6, 0, 1, 0x74, 0, 7, 0x6d], { buffer := [0xC0, 0] }) ∧
      ∃ hdr body, Session.decodeHeader [0x32, 6, 0, 1, 0x74, 0, 7, 0x6d] = .ok (hdr, body) ∧
        hdr.remainingLength = body.length := by
  have hextract : PacketParser.tryExtract {}
      { buffer := [0x32, 6, 0, 1, 0x74, 0, 7, 0x6d, 0xC0, 0] } =
        (some [0x32, 6, 0, 1, 0x74, 0, 7, 0x6d], { buffer := [0xC0, 0] }) := by decide +kernel
  obtain ⟨hdr, body, hdecode, _, hlength, _⟩ :=
    extracted_packet_parses_inside {} _ _ _ hextract
  exact ⟨hextract, hdr, body, hdecode, hlength⟩

end JellyBroker
