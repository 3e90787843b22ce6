import JellyBroker.Broker.QosLevels
import JellyBroker.Broker.Extraction
/-!
# Packets the broker sends are well formed

`write_string` casts the length of a topic to 16 bits, and `write_remaining_length`
writes any 32-bit number, so a packet that is too long would be encoded as another
one.  With a valid configuration this never happens: no packet the broker makes is
larger than the one that caused it, so every packet it hands over decodes to the
fields that it was built from.
-/

namespace JellyBroker

open JellyBroker.Lib.Codec JellyBroker.Packet JellyBroker.Topic JellyBroker.Utils

variable {α : Type}

def publishLength (topic payload : Bytes) (qos : Nat) : Nat :=
  2 + topic.length + (if qos > 0 then 2 else 0) + payload.length

structure PublishFits (cfg : Config) (topic payload : Bytes) (qos : Nat) : Prop where
  shortTopic : topic.length ≤ 65535
  twoBits : qos ≤ 3
  size : (publishLength topic payload qos : Int) ≤ cfg.maxPacketSize

theorem length_body_publish (topic payload : Bytes) (qos : Nat) (retain dup : Bool)
    (packetId : UInt16) :
    (OutPacket.publish topic payload qos retain dup packetId).body.length =
      publishLength topic payload qos := by
  unfold publishLength
  simp only [OutPacket.body, writeString, List.length_append]
  split_ifs
  · rfl
  · rfl

/-! ## Packets that come in -/

theorem NextPacket.body_le {env : Env α} {n : Runtime α} {sid : SessionId} {hdr : FixedHeader}
    {body : Bytes} (h : NextPacket env n sid hdr body) :
    hdr.remainingLength = body.length ∧ body.length ≤ PacketParser.packetLimit env.cfg := by
  obtain ⟨packet, parser, hextract, hdecode⟩ := h
  obtain ⟨hdr', body', hdecode', hlength⟩ := decodeHeader_of_tryExtract hextract
  rw [hdecode] at hdecode'
  obtain ⟨rfl, rfl⟩ := Prod.mk.inj (Except.ok.inj hdecode')
  refine ⟨hlength, ?_⟩
  rw [← hlength]
  -- the length field of the packet is the one that `try_extract` compared
  obtain ⟨byte1, rest, remaining, used, hpacket, hread, _⟩ := shape_of_tryExtract hextract
  have hremaining : hdr.remainingLength = remaining := by
    rw [hpacket, Session.decodeHeader] at hdecode
    rw [remainingLength_of_readLength hread] at hdecode
    rw [← (Prod.mk.inj (Except.ok.inj hdecode)).1]
  obtain ⟨herror, remaining', headerEnd, hheader, hall⟩ :=
    PacketParser.header_of_tryExtract hextract
  rw [hheader.tryExtract_eq herror, if_neg (by omega)] at hextract
  have hbuffer : (n.parsers sid).buffer =
      byte1 :: rest ++ (n.parsers sid).buffer.drop (headerEnd + remaining') := by
    rw [← hpacket, ← Option.some.inj (Prod.mk.inj hextract).1, List.take_append_drop]
  have hfield := decodeRemainingLength_eq byte1 rest
  rw [hread] at hfield
  have hcomplete : PacketParser.decodeRemainingLength (byte1 :: rest) ≠ .incomplete := by
    rw [hfield]
    intro h
    cases h
  have hcompare := hheader.length
  rw [hbuffer, PacketParser.decodeRemainingLength_append hcomplete, hfield] at hcompare
  rw [hremaining, (LengthField.complete.inj hcompare).1]
  exact hheader.size

theorem packetLimit_of_valid {cfg : Config} (h : cfg.isValid = true) :
    (PacketParser.packetLimit cfg : Int) = cfg.maxPacketSize ∧
      256 ≤ cfg.maxPacketSize ∧ cfg.maxPacketSize ≤ 268435455 := by
  simp only [Config.isValid, Bool.and_eq_true, Bool.not_eq_true', Bool.or_eq_false_iff,
    decide_eq_false_iff_not, not_lt] at h
  unfold PacketParser.packetLimit
  omega

theorem NextPacket.qos_le {env : Env α} {n : Runtime α} {sid : SessionId} {hdr : FixedHeader}
    {body : Bytes} (h : NextPacket env n sid hdr body) : hdr.qos ≤ 3 := by
  obtain ⟨packet, parser, _, hdecode⟩ := h
  cases packet with
  | nil => cases hdecode
  | cons byte1 rest =>
      rw [Session.decodeHeader] at hdecode
      cases hread : Reader.remainingLength rest with
      | error e =>
          rw [hread] at hdecode
          cases hdecode
      | ok read =>
          rw [hread] at hdecode
          rw [← (Prod.mk.inj (Except.ok.inj hdecode)).1]
          have hmask : ((byte1 >>> 1) &&& 0x03).toNat ≤ 3 := by
            rw [UInt8.toNat_and]
            exact Nat.and_le_right
          exact hmask

theorem Publishes.fits {env : Env α} {n : Runtime α} {sid : SessionId} {pub : PublishPacket}
    (hvalid : env.cfg.isValid = true) (h : Publishes env n sid pub) :
    PublishFits env.cfg pub.topic pub.payload pub.qos := by
  obtain ⟨_, hdr, body, rest, hnext, _, hparse⟩ := h
  obtain ⟨hlength, hbody⟩ := hnext.body_le
  obtain ⟨hlimit, _⟩ := packetLimit_of_valid hvalid
  have hqos := hnext.qos_le
  rcases string_cases body with ⟨topic, behind, htopic, _⟩ | herror
  · rcases readPacketId_cases hdr behind with ⟨packetId, payload, hid, _⟩ | herror
    · have hpayload := payloadLength_eq hlength htopic hid
      rw [parse_publish_of_read htopic hid hpayload] at hparse
      obtain ⟨rfl, _⟩ := Prod.mk.inj (Except.ok.inj hparse)
      refine ⟨(isCodec_string.sound htopic).1, hqos, ?_⟩
      unfold consumedBytes at hpayload
      unfold publishLength
      dsimp only
      omega
    · rw [parse_publish_eq, bind_of_ok htopic, bind_of_error herror] at hparse
      cases hparse
  · rw [parse_publish_eq, bind_of_error herror] at hparse
    cases hparse

/-- A SUBACK is shorter than its SUBSCRIBE. -/
theorem Subscribes.suback_le {env : Env α} {n : Runtime α} {sid : SessionId}
    {sub : SubscribePacket} (hvalid : env.cfg.isValid = true) (h : Subscribes env n sid sub)
    {codes : List SubackCode} (hcodes : codes.length = sub.filters.length) :
    ((OutPacket.suback sub.packetId codes).body.length : Int) ≤ env.cfg.maxPacketSize := by
  obtain ⟨_, hdr, body, rest, hnext, _, hparse⟩ := h
  obtain ⟨_, hbody⟩ := hnext.body_le
  obtain ⟨hlimit, _⟩ := packetLimit_of_valid hvalid
  obtain ⟨packetId, filters, _, heq, rfl, _⟩ := subscribe_parse_iff.mp hparse
  have hne (filter : Bytes × UInt8) (_ : True) : filterBytes filter ≠ [] :=
    filterBytes_ne_nil filter
  have hfilters : filters.length ≤ (filters.flatMap filterBytes).length :=
    length_le_flatMap hne fun _ _ => trivial
  have hlength : (OutPacket.suback packetId codes).body.length = 2 + filters.length := by
    rw [OutPacket.body, List.length_append, List.length_map, hcodes, List.length_map]
    rfl
  have hwhole : body.length = 2 + (filters.flatMap filterBytes).length := by
    rw [heq, List.length_append]
    rfl
  dsimp only
  rw [hlength]
  omega

/-! ## Packets that go out -/

def fitting (cfg : Config) : Content where
  packet _ packet := (packet.body.length : Int) ≤ cfg.maxPacketSize ∧
    ∀ topic payload qos retain dup packetId,
      packet = .publish topic payload qos retain dup packetId →
      PublishFits cfg topic payload qos ∧ (qos = 0 → packetId = 0)
  retained topic msg := PublishFits cfg topic msg.payload msg.qos
  incoming msg := msg.qos = 2 ∧ PublishFits cfg msg.topic msg.payload 2
  outgoing _ topic payload := PublishFits cfg topic payload 2
  entry _ _ := True
  stored _ _ := True

theorem PublishFits.mono {cfg : Config} {topic topic' payload : Bytes} {qos qos' : Nat}
    (h : PublishFits cfg topic payload qos) (htopic : topic'.length ≤ topic.length)
    (hqos : qos' ≤ qos) : PublishFits cfg topic' payload qos' where
  shortTopic := htopic.trans h.shortTopic
  twoBits := hqos.trans h.twoBits
  size := by
    have hsize := h.size
    unfold publishLength at hsize ⊢
    split_ifs at hsize ⊢ <;> omega

theorem PublishFits.packet {cfg : Config} {topic payload : Bytes} {qos : Nat}
    (h : PublishFits cfg topic payload qos) (sid : SessionId) (retain dup : Bool)
    {packetId : UInt16} (hid : qos = 0 → packetId = 0) :
    (fitting cfg).packet sid (.publish topic payload qos retain dup packetId) := by
  constructor
  · rw [length_body_publish]
    exact h.size
  · intro topic' payload' qos' retain' dup' packetId' heq
    obtain ⟨rfl, rfl, rfl, rfl, rfl, rfl⟩ := OutPacket.publish.inj heq
    exact ⟨h, hid⟩

theorem closed_fitting {cfg : Config} (hvalid : cfg.isValid = true) : (fitting cfg).Closed where
  plain sid packet hplain := by
    obtain ⟨_, hmin, _⟩ := packetLimit_of_valid hvalid
    have hshort : packet.body.length ≤ 2 := by
      cases packet with
      | suback => exact hplain.elim
      | publish => exact hplain.elim
      | pingresp => exact Nat.zero_le 2
      | _ => exact le_rfl
    refine ⟨by omega, ?_⟩
    intro topic payload qos retain dup packetId heq
    rw [heq] at hplain
    exact hplain.elim
  replay sid qos filter topic msg _ _ hmsg := PublishFits.packet hmsg sid true false fun _ => rfl
  downgraded entry msg qos _ hmsg hqos _ := by
    have hfits := hmsg.2.mono le_rfl (hqos.trans hmsg.1.le)
    exact hfits.packet entry.session false false fun _ => rfl
  forwarded entry msg _ hmsg _ := hmsg.2
  outgoing sid topic payload dup packetId hmsg := PublishFits.packet hmsg sid false dup nofun

theorem length_withoutSeparator_le (topic : Bytes) :
    (withoutSeparator topic).length ≤ topic.length := by
  unfold withoutSeparator
  split_ifs
  · rw [List.length_dropLast]
    omega
  · exact le_rfl

theorem admits_fitting {cfg : Config} {pub : PublishPacket}
    (h : PublishFits cfg pub.topic pub.payload pub.qos) : (fitting cfg).Admits pub where
  qos0 hqos entry _ := by
    have hfits := h.mono le_rfl (Nat.zero_le _)
    exact hfits.packet entry.session false false fun _ => rfl
  qos1 hqos entry _ packetId := by
    rw [hqos] at h
    exact h.packet entry.session pub.retain false nofun
  qos2 hqos := by
    rw [hqos] at h
    exact ⟨hqos, h⟩
  retained _ := by
    have hqos : (Session.retainedMessage pub).qos ≤ pub.qos := by
      unfold Session.retainedMessage
      split_ifs
      · exact Nat.zero_le _
      · exact le_rfl
    change PublishFits cfg _ (Session.retainedMessage pub).payload _
    rw [Session.payload_retainedMessage]
    exact h.mono (length_withoutSeparator_le pub.topic) hqos

theorem holds_fitting {env : Env α} (hvalid : env.cfg.isValid = true) {n : Runtime α}
    (hn : (brokerSystem env).Reachable n) : (fitting env.cfg).Holds n.toBroker := by
  refine hn.invariant (P := fun n => (fitting env.cfg).Holds n.toBroker) ?_ ?_
  · rintro _ ⟨auth, rfl⟩
    exact Content.Holds.start _ auth
  · intro n e hholds henabled
    apply hholds.step (closed_fitting hvalid)
    rintro sid rfl
    constructor
    · intro pub haccepts
      exact admits_fitting (haccepts.1.fits hvalid)
    · intro filter _
      exact ⟨trivial, fun _ => trivial⟩
    · intro sub hsub codes hcodes
      refine ⟨hsub.suback_le hvalid hcodes.length_eq.symm, ?_⟩
      intro topic payload qos retain dup packetId heq
      cases heq
    · intro conn _ _ sub _
      exact trivial

theorem fixedHeader_publish_le_three {qos : Nat} (hqos : qos ≤ 3) (retain dup : Bool)
    (remainingLength : Nat) :
    fixedHeader .publish (OutPacket.publishFlags qos retain dup) remainingLength =
      { type := some .publish, dup, qos, retain, remainingLength } := by
  unfold fixedHeader
  interval_cases qos <;> cases retain <;> cases dup <;> rfl

/-- Every packet that was handed to a session decodes to its own header and body, and a
PUBLISH to the fields it was built from.  A stream parser that admits packets of the
broker's size and has room for this one extracts it. -/
theorem handed_packets_well_formed (env : Env α) (hvalid : env.cfg.isValid = true)
    {n : Runtime α} (hn : (brokerSystem env).Reachable n) {call : Handed}
    (hcall : call ∈ n.history.handed) :
    Session.decodeHeader call.packet.bytes =
        .ok (fixedHeader call.packet.type call.packet.flags call.packet.body.length,
          call.packet.body) ∧
      (∀ topic payload qos retain dup packetId,
        call.packet = .publish topic payload qos retain dup packetId →
        PublishPacket.parse
            (fixedHeader call.packet.type call.packet.flags call.packet.body.length)
            call.packet.body =
          .ok ({ topic, payload, qos, retain, dup, packetId }, [])) ∧
      ∀ cfg : Config, env.cfg.maxPacketSize ≤ cfg.maxPacketSize →
        cfg.maxPacketSize ≤ 268435455 →
        call.packet.bytes.length ≤ PacketParser.bufferLimit cfg →
        (PacketParser.feed cfg {} call.packet.bytes).tryExtract cfg =
          (some call.packet.bytes, {}) := by
  obtain ⟨hsize, hpublish⟩ := (holds_fitting hvalid hn).handed call hcall
  obtain ⟨_, _, hmax⟩ := packetLimit_of_valid hvalid
  rw [call.packet.bytes_eq_wrap]
  refine ⟨decodeHeader_wrap _ _ (by omega), ?_, ?_⟩
  · intro topic payload qos retain dup packetId heq
    obtain ⟨hfits, hid⟩ := hpublish topic payload qos retain dup packetId heq
    rw [heq, length_body_publish]
    simp only [OutPacket.type, OutPacket.flags, OutPacket.body,
      fixedHeader_publish_le_three hfits.twoBits]
    have hpacketId : (if qos > 0 then packetId else 0) = packetId := by
      split_ifs with hpos
      · rfl
      · exact (hid (by omega)).symm
    have hparse := @parse_publish
      ⟨some .publish, dup, qos, retain, publishLength topic payload qos⟩ topic payload packetId
      hfits.shortTopic rfl
    simp only [hpacketId] at hparse
    exact hparse
  · intro cfg hle hbound hbuffer
    exact extract_wrap hbound _ _ (hsize.trans hle) hbuffer

/-- The retained message with QoS 3 that a client left under the default
configuration. -/
theorem handed_packets_well_formed_sample :
    let packet : OutPacket := .publish [0x74] [0x6d] 3 true false 0
    Session.decodeHeader packet.bytes = .ok (fixedHeader .publish 7 6, packet.body) := by
  intro packet
  have hn : (brokerSystem defaultEnv).Reachable (retainedState 3 6) := by
    refine .of_allowed ⟨(), rfl⟩ ⟨⟨rfl, rfl, trivial⟩, ⟨rfl, rfl, rfl, ?_, ?_⟩, ⟨?_, ?_⟩, ⟨?_, ?_⟩,
      ⟨?_, ?_⟩, ⟨?_, ?_⟩, trivial⟩ <;> decide +kernel
  have hhanded : ⟨0, packet, true⟩ ∈ (retainedState 3 6).history.handed := by decide +kernel
  exact (handed_packets_well_formed defaultEnv (by decide) hn hhanded).1

end JellyBroker
