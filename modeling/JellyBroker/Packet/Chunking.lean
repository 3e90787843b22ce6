import JellyBroker.Lib.Cutter
import JellyBroker.Packet.Framing
/-!
# Framing does not depend on the chunks

The packets of a byte stream as MQTT defines them, without a parser and its
buffer: `cutter` reads one fixed header from the beginning of a stream.  The
parser finds exactly these packets, in whatever chunks the stream arrives.
-/

namespace JellyBroker.Packet

open JellyBroker.Lib

/-! ## The packets of a byte stream -/

/-- The remaining length from at most `count` bytes, least significant first,
and the number of bytes it takes.  All bytes but the last have their highest bit
set. -/
def readLength : Nat → Bytes → LengthField
  | 0, _ => .malformed
  | _ + 1, [] => .incomplete
  | count + 1, byte :: rest =>
      if byte.toNat < 128 then .complete byte.toNat 1
      else
        match readLength count rest with
        | .complete value used => .complete (byte.toNat - 128 + 128 * value) (used + 1)
        | other => other

/-- The first packet of a stream, with at most `limit` bytes behind its fixed
header. -/
def readHead (limit : Int) : Bytes → Head
  | [] => .incomplete
  | byte1 :: rest =>
      if byte1.toNat / 16 = 0 ∨ byte1.toNat / 16 = 15 then .error
      else
        match readLength 4 rest with
        | .malformed => .error
        | .incomplete => .incomplete
        | .complete remaining used =>
            if limit < remaining then .error
            else if rest.length < used + remaining then .incomplete
            else .packet (1 + used + remaining)

theorem readLength_append {count : Nat} {bytes : Bytes}
    (h : readLength count bytes ≠ .incomplete) (more : Bytes) :
    readLength count (bytes ++ more) = readLength count bytes := by
  induction count generalizing bytes with
  | zero => rfl
  | succ count ih =>
      cases bytes with
      | nil => exact absurd rfl h
      | cons byte rest =>
          rw [List.cons_append]
          unfold readLength at h ⊢
          split_ifs at h ⊢ with hlast
          · rfl
          · rw [ih]
            intro hrest
            rw [hrest] at h
            exact h rfl

theorem readHead_packet {limit : Int} {stream : Bytes} {size : Nat}
    (h : readHead limit stream = .packet size) :
    ∃ byte1 rest remaining used, stream = byte1 :: rest ∧
      ¬(byte1.toNat / 16 = 0 ∨ byte1.toNat / 16 = 15) ∧
      readLength 4 rest = .complete remaining used ∧ ¬limit < remaining ∧
      used + remaining ≤ rest.length ∧ size = 1 + used + remaining := by
  cases stream with
  | nil => cases h
  | cons byte1 rest =>
      unfold readHead at h
      dsimp only at h
      split_ifs at h with htype
      cases hlength : readLength 4 rest with
      | malformed =>
          rw [hlength] at h
          cases h
      | incomplete =>
          rw [hlength] at h
          cases h
      | complete remaining used =>
          rw [hlength] at h
          dsimp only at h
          split_ifs at h with hlimit hshort
          have hsize : 1 + used + remaining = size := Head.packet.inj h
          exact ⟨byte1, rest, remaining, used, rfl, htype, hlength, hlimit, by omega, hsize.symm⟩

def cutter (limit : Int) : Cutter UInt8 where
  head := readHead limit
  packet_bounds h := by
    obtain ⟨byte1, rest, remaining, used, hstream, _, _, _, hall, hsize⟩ := readHead_packet h
    rw [hstream, List.length_cons]
    omega
  packet_append h more := by
    obtain ⟨byte1, rest, remaining, used, hstream, htype, hlength, hlimit, hall, hsize⟩ :=
      readHead_packet h
    have hall' : ¬(rest ++ more).length < used + remaining := by
      rw [List.length_append]
      omega
    have hlength' : readLength 4 (rest ++ more) = .complete remaining used := by
      rw [readLength_append _ more, hlength]
      rw [hlength]
      exact nofun
    rw [hstream, hsize, List.cons_append, readHead, if_neg htype, hlength']
    dsimp only
    rw [if_neg hlimit, if_neg hall']
  error_append := by
    intro stream h more
    cases stream with
    | nil => cases h
    | cons byte1 rest =>
        rw [List.cons_append]
        unfold readHead at h ⊢
        dsimp only at h ⊢
        split_ifs at h ⊢ with htype
        · rfl
        cases hlength : readLength 4 rest with
        | incomplete =>
            rw [hlength] at h
            cases h
        | malformed =>
            rw [readLength_append _ more, hlength]
            rw [hlength]
            exact nofun
        | complete remaining used =>
            rw [hlength] at h
            dsimp only at h
            split_ifs at h with hlimit hshort
            rw [readLength_append _ more, hlength]
            · exact if_pos hlimit
            · rw [hlength]
              exact nofun

/-! ## The parser reads the same header -/

theorem low_bits (byte : UInt8) : (byte &&& 0x7f).toNat = byte.toNat % 128 := by
  rw [UInt8.toNat_and]
  exact Nat.and_two_pow_sub_one_eq_mod byte.toNat 7

theorem continuation_bit : ∀ byte : UInt8, byte &&& 0x80 = 0 ↔ byte.toNat < 128 := by
  decide +kernel

theorem typeValue_admitted : ∀ byte : UInt8,
    (PacketParser.typeValue byte < 1 ∨ PacketParser.typeValue byte > 14) ↔
      (byte.toNat / 16 = 0 ∨ byte.toNat / 16 = 15) := by
  decide +kernel

/-- The value read so far is below the multiplier, so that nothing is lost in
32 bits. -/
theorem decodeRemainingLengthFrom_eq {value count : Nat} (pos : Nat) (bytes : Bytes)
    (hcount : count < 4) (hvalue : value < 128 ^ count) :
    PacketParser.decodeRemainingLengthFrom value (128 ^ count) count pos bytes =
      match readLength (4 - count) bytes with
      | .complete more used => .complete (value + 128 ^ count * more) (pos + used)
      | other => other := by
  induction bytes generalizing value count pos with
  | nil =>
      obtain ⟨left, hleft⟩ : ∃ left, 4 - count = left + 1 := ⟨3 - count, by omega⟩
      rw [hleft]
      rfl
  | cons byte rest ih =>
      have hbyte := byte.toNat_lt
      have hpow : 128 ^ count ≤ 128 ^ 3 := Nat.pow_le_pow_right (by omega) (by omega)
      have hsmall : byte.toNat % 128 * 128 ^ count ≤ 127 * 128 ^ count :=
        Nat.mul_le_mul_right _ (by omega)
      obtain ⟨left, hleft⟩ : ∃ left, 4 - count = left + 1 := ⟨3 - count, by omega⟩
      rw [hleft]
      unfold PacketParser.decodeRemainingLengthFrom readLength
      dsimp only
      rw [low_bits, Nat.mod_eq_of_lt (by omega)]
      by_cases hlast : byte.toNat < 128
      · rw [if_pos ((continuation_bit byte).mpr hlast), if_pos hlast, Nat.mod_eq_of_lt hlast,
          Nat.mul_comm]
      · rw [if_neg fun hbit => hlast ((continuation_bit byte).mp hbit), if_neg hlast]
        by_cases hlong : count = 3
        · -- The fourth byte is the last.
          have hzero : left = 0 := by omega
          rw [if_pos (Or.inl (by omega)), hzero]
          rfl
        · have hpow' : 128 ^ count ≤ 128 ^ 2 := Nat.pow_le_pow_right (by omega) (by omega)
          have hgoesOn : ¬(count + 1 ≥ 4 ∨ 128 ^ count > 2097152) := by omega
          have hsucc : 128 ^ count * 128 = 128 ^ (count + 1) := (Nat.pow_succ ..).symm
          have hleft' : left = 4 - (count + 1) := by omega
          have hlow : byte.toNat % 128 = byte.toNat - 128 := by omega
          rw [if_neg hgoesOn, hsucc, ih (pos + 1) (by omega) (by omega), ← hleft', hlow]
          cases readLength left rest with
          | incomplete => rfl
          | malformed => rfl
          | complete more used =>
              have hsum : value + (byte.toNat - 128) * 128 ^ count + 128 ^ (count + 1) * more =
                  value + 128 ^ count * (byte.toNat - 128 + 128 * more) := by
                rw [← hsucc]
                ring
              have hpos : pos + 1 + used = pos + (used + 1) := by omega
              dsimp only
              rw [hsum, hpos]

theorem decodeRemainingLength_eq (byte1 : UInt8) (rest : Bytes) :
    PacketParser.decodeRemainingLength (byte1 :: rest) =
      match readLength 4 rest with
      | .complete remaining used => .complete remaining (1 + used)
      | other => other := by
  have heq := @decodeRemainingLengthFrom_eq 0 0 1 rest (by omega) (by omega)
  rw [Nat.pow_zero] at heq
  rw [PacketParser.decodeRemainingLength, List.tail_cons, heq]
  cases readLength 4 rest <;> simp

theorem tryExtract_eq {cfg : Config}
    (hlimit : (PacketParser.packetLimit cfg : Int) = cfg.maxPacketSize) {parser : PacketParser}
    (herror : parser.error = none) :
    match readHead cfg.maxPacketSize parser.buffer with
    | .packet size => parser.tryExtract cfg =
        (some (parser.buffer.take size), { parser with buffer := parser.buffer.drop size })
    | .error => ∃ e, parser.tryExtract cfg = (none, { parser with error := some e })
    | .incomplete => parser.tryExtract cfg = (none, parser) := by
  unfold PacketParser.tryExtract
  simp only [PacketParser.hasError, herror, Option.isSome_none, Bool.false_eq_true, if_false]
  cases hbuffer : parser.buffer with
  | nil => rfl
  | cons byte1 rest =>
      simp only [typeValue_admitted, readHead]
      by_cases htype : byte1.toNat / 16 = 0 ∨ byte1.toNat / 16 = 15
      · rw [if_pos htype, if_pos htype]
        exact ⟨_, rfl⟩
      rw [if_neg htype, if_neg htype, decodeRemainingLength_eq]
      cases readLength 4 rest with
      | malformed => exact ⟨_, rfl⟩
      | incomplete => rfl
      | complete remaining used =>
          have hsize : remaining > (cfg.maxPacketSize % 2 ^ 32).toNat ↔
              cfg.maxPacketSize < remaining := by
            change remaining > PacketParser.packetLimit cfg ↔ _
            omega
          have hshort : (byte1 :: rest).length < 1 + used + remaining ↔
              rest.length < used + remaining := by
            rw [List.length_cons]
            omega
          simp only [hsize, hshort]
          by_cases hlarge : cfg.maxPacketSize < remaining
          · rw [if_pos hlarge, if_pos hlarge]
            exact ⟨_, rfl⟩
          rw [if_neg hlarge, if_neg hlarge]
          by_cases hpart : rest.length < used + remaining
          · rw [if_pos hpart, if_pos hpart]
          · rw [if_neg hpart, if_neg hpart]

/-! ## Draining the parser -/

/-- `try_extract` is called until it finds nothing: the packets it returned, and
the parser then. -/
inductive Drains (cfg : Config) : PacketParser → List Bytes → PacketParser → Prop
  | stop {parser parser' : PacketParser} (h : parser.tryExtract cfg = (none, parser')) :
      Drains cfg parser [] parser'
  | next {parser parser₁ parser' : PacketParser} {packet : Bytes} {packets : List Bytes}
      (h : parser.tryExtract cfg = (some packet, parser₁))
      (hrest : Drains cfg parser₁ packets parser') :
      Drains cfg parser (packet :: packets) parser'

/-- Every chunk is fed to the parser, which is drained then. -/
inductive Feeds (cfg : Config) : PacketParser → List Bytes → List Bytes → PacketParser → Prop
  | done (parser : PacketParser) : Feeds cfg parser [] [] parser
  | chunk {parser parser₁ parser' : PacketParser} {chunk : Bytes}
      {chunks packets packets' : List Bytes}
      (hdrain : Drains cfg (parser.feed cfg chunk) packets parser₁)
      (hrest : Feeds cfg parser₁ chunks packets' parser') :
      Feeds cfg parser (chunk :: chunks) (packets ++ packets') parser'

theorem Drains.unique {cfg : Config} {parser parser₁ parser₂ : PacketParser}
    {packets₁ packets₂ : List Bytes} (h₁ : Drains cfg parser packets₁ parser₁)
    (h₂ : Drains cfg parser packets₂ parser₂) : packets₁ = packets₂ ∧ parser₁ = parser₂ := by
  induction h₁ generalizing packets₂ with
  | stop h =>
      cases h₂ with
      | stop h' => exact ⟨rfl, (Prod.mk.inj (h.symm.trans h')).2⟩
      | next h' _ => cases h.symm.trans h'
  | next h _ ih =>
      cases h₂ with
      | stop h' => cases h.symm.trans h'
      | next h' hrest' =>
          obtain ⟨hpacket, hparser⟩ := Prod.mk.inj (h.symm.trans h')
          rw [← hparser] at hrest'
          obtain ⟨hpackets, hend⟩ := ih hrest'
          exact ⟨by rw [Option.some.inj hpacket, hpackets], hend⟩

theorem Feeds.unique {cfg : Config} {parser parser₁ parser₂ : PacketParser}
    {chunks packets₁ packets₂ : List Bytes} (h₁ : Feeds cfg parser chunks packets₁ parser₁)
    (h₂ : Feeds cfg parser chunks packets₂ parser₂) :
    packets₁ = packets₂ ∧ parser₁ = parser₂ := by
  induction h₁ generalizing packets₂ with
  | done parser =>
      cases h₂
      exact ⟨rfl, rfl⟩
  | chunk hdrain _ ih =>
      cases h₂ with
      | chunk hdrain' hrest' =>
          obtain ⟨hpackets, hparser⟩ := hdrain.unique hdrain'
          rw [← hparser] at hrest'
          obtain ⟨hpackets', hend⟩ := ih hrest'
          exact ⟨by rw [hpackets, hpackets'], hend⟩

def EndsAs (parser : PacketParser) : Ending UInt8 → Prop
  | .error => parser.hasError = true
  | .residue rest => parser = { buffer := rest }

theorem drains_frames {cfg : Config}
    (hlimit : (PacketParser.packetLimit cfg : Int) = cfg.maxPacketSize) (buffer : Bytes) :
    ∃ parser, Drains cfg { buffer } ((cutter cfg.maxPacketSize).frames buffer).1 parser ∧
      EndsAs parser ((cutter cfg.maxPacketSize).frames buffer).2 := by
  induction buffer using (cutter cfg.maxPacketSize).stream_induction with
  | packet buffer size hhead ih =>
      have hextract := tryExtract_eq hlimit (rfl : ({ buffer } : PacketParser).error = none)
      rw [show readHead cfg.maxPacketSize _ = _ from hhead] at hextract
      obtain ⟨parser, hdrains, hends⟩ := ih
      rw [Cutter.frames_of_packet hhead]
      exact ⟨parser, .next hextract hdrains, hends⟩
  | error buffer hhead =>
      have hextract := tryExtract_eq hlimit (rfl : ({ buffer } : PacketParser).error = none)
      rw [show readHead cfg.maxPacketSize _ = _ from hhead] at hextract
      obtain ⟨e, hextract⟩ := hextract
      rw [Cutter.frames_of_error hhead]
      exact ⟨_, .stop hextract, rfl⟩
  | incomplete buffer hhead =>
      have hextract := tryExtract_eq hlimit (rfl : ({ buffer } : PacketParser).error = none)
      rw [show readHead cfg.maxPacketSize _ = _ from hhead] at hextract
      rw [Cutter.frames_of_incomplete hhead]
      exact ⟨_, .stop hextract, rfl⟩

theorem drains_of_error (cfg : Config) {parser : PacketParser} (h : parser.hasError = true) :
    Drains cfg parser [] parser := by
  apply Drains.stop
  rw [PacketParser.tryExtract, if_pos h]

theorem hasError_feed (cfg : Config) {parser : PacketParser} (h : parser.hasError = true)
    (data : Bytes) : (parser.feed cfg data).hasError = true := by
  unfold PacketParser.feed
  split_ifs
  · exact h
  · rfl
  · exact h

theorem feeds_of_error (cfg : Config) {parser : PacketParser} (h : parser.hasError = true)
    (chunks : List Bytes) :
    ∃ parser', Feeds cfg parser chunks [] parser' ∧ parser'.hasError = true := by
  induction chunks generalizing parser with
  | nil => exact ⟨parser, .done parser, h⟩
  | cons chunk rest ih =>
      have hfed := hasError_feed cfg h chunk
      obtain ⟨parser', hfeeds, herror⟩ := ih hfed
      exact ⟨parser', .chunk (drains_of_error cfg hfed) hfeeds, herror⟩

/-! ## Chunks -/

theorem feed_of_incomplete {cfg : Config}
    (hlimit : (PacketParser.packetLimit cfg : Int) = cfg.maxPacketSize) {rest : Bytes}
    (chunk : Bytes) (hrest : (cutter cfg.maxPacketSize).head rest = .incomplete)
    (hbuffer : PacketParser.packetLimit cfg + 4 + chunk.length ≤ PacketParser.bufferLimit cfg) :
    PacketParser.feed cfg { buffer := rest } chunk = { buffer := rest ++ chunk } := by
  have hextract := tryExtract_eq hlimit (rfl : ({ buffer := rest } : PacketParser).error = none)
  rw [show readHead cfg.maxPacketSize _ = _ from hrest] at hextract
  have hwaiting : PacketParser.Waiting cfg { buffer := rest } := ⟨rfl, hextract⟩
  have hlength := hwaiting.length_le
  apply PacketParser.feed_of_fits
  dsimp only at hlength ⊢
  omega

theorem feeds_frames {cfg : Config} {size : Nat}
    (hlimit : (PacketParser.packetLimit cfg : Int) = cfg.maxPacketSize)
    (hbuffer : PacketParser.packetLimit cfg + 4 + size ≤ PacketParser.bufferLimit cfg)
    {chunks : List Bytes} (hchunks : ∀ chunk ∈ chunks, chunk.length ≤ size) {rest : Bytes}
    (hrest : (cutter cfg.maxPacketSize).head rest = .incomplete) :
    ∃ parser, Feeds cfg { buffer := rest } chunks
        ((cutter cfg.maxPacketSize).frames (rest ++ chunks.flatten)).1 parser ∧
      EndsAs parser ((cutter cfg.maxPacketSize).frames (rest ++ chunks.flatten)).2 := by
  induction chunks generalizing rest with
  | nil =>
      rw [List.flatten_nil, List.append_nil, Cutter.frames_of_incomplete hrest]
      exact ⟨_, .done _, rfl⟩
  | cons chunk chunks ih =>
      have hchunk := hchunks chunk List.mem_cons_self
      have hfeed := feed_of_incomplete hlimit chunk hrest (by omega)
      obtain ⟨parser, hdrains, hends⟩ := drains_frames hlimit (rest ++ chunk)
      rw [← hfeed] at hdrains
      rw [List.flatten_cons, ← List.append_assoc]
      cases hending : ((cutter cfg.maxPacketSize).frames (rest ++ chunk)).2 with
      | error =>
          rw [hending] at hends
          obtain ⟨parser', hfeeds, herror⟩ := feeds_of_error cfg hends chunks
          rw [Cutter.frames_append_of_error hending, hending]
          refine ⟨parser', ?_, herror⟩
          have hall := Feeds.chunk hdrains hfeeds
          rwa [List.append_nil] at hall
      | residue rest' =>
          rw [hending] at hends
          change parser = _ at hends
          rw [hends] at hdrains
          obtain ⟨parser', hfeeds, hends'⟩ :=
            ih (fun other hother => hchunks other (List.mem_cons_of_mem _ hother))
              (Cutter.head_residue hending)
          rw [Cutter.frames_append_of_residue hending]
          exact ⟨parser', .chunk hdrains hfeeds, hends'⟩

/-- Feeding a stream in chunks ends, with the packets of the stream, an error if
the stream ends in one, and else the rest of the stream in the buffer. -/
theorem framing_independent_of_chunks (cfg : Config) (hvalid : cfg.isValid = true)
    (hint : cfg.maxParserBufferSize < 2 ^ 31) (size : Nat)
    (hbuffer : cfg.maxPacketSize + 4 + size ≤ cfg.maxParserBufferSize) (chunks : List Bytes)
    (hchunks : ∀ chunk ∈ chunks, chunk.length ≤ size) :
    ∃ parser, Feeds cfg {} chunks ((cutter cfg.maxPacketSize).frames chunks.flatten).1 parser ∧
      (∀ packets parser', Feeds cfg {} chunks packets parser' →
        packets = ((cutter cfg.maxPacketSize).frames chunks.flatten).1 ∧ parser' = parser) ∧
      (parser.hasError = true ↔
        ((cutter cfg.maxPacketSize).frames chunks.flatten).2 = .error) ∧
      ∀ rest, ((cutter cfg.maxPacketSize).frames chunks.flatten).2 = .residue rest →
        parser.buffer = rest := by
  have hsizes : 256 ≤ cfg.maxPacketSize ∧ cfg.maxPacketSize ≤ 268435455 := by
    simp only [Config.isValid, Bool.and_eq_true, Bool.not_eq_true', Bool.or_eq_false_iff,
      decide_eq_false_iff_not] at hvalid
    omega
  have hlimit : (PacketParser.packetLimit cfg : Int) = cfg.maxPacketSize := by
    unfold PacketParser.packetLimit
    omega
  have hroom : PacketParser.packetLimit cfg + 4 + size ≤ PacketParser.bufferLimit cfg := by
    unfold PacketParser.bufferLimit
    omega
  have hempty : (cutter cfg.maxPacketSize).head [] = .incomplete := rfl
  obtain ⟨parser, hfeeds, hends⟩ := feeds_frames hlimit hroom hchunks hempty
  rw [List.nil_append] at hfeeds hends
  refine ⟨parser, hfeeds, ?_, ?_, ?_⟩
  · intro packets parser' hfeeds'
    exact hfeeds'.unique hfeeds
  · cases hending : ((cutter cfg.maxPacketSize).frames chunks.flatten).2 with
    | error =>
        rw [hending] at hends
        exact ⟨fun _ => rfl, fun _ => hends⟩
    | residue rest =>
        rw [hending] at hends
        change parser = _ at hends
        rw [hends]
        exact ⟨nofun, nofun⟩
  · intro rest hending
    rw [hending] at hends
    change parser = _ at hends
    rw [hends]

/-- A PINGREQ that is cut in its length field, and the first byte of the next
packet. -/
theorem framing_independent_of_chunks_cut_length :
    ∃ parser, Feeds {} {} [[0xc0], [0x00, 0xe0]] [[0xc0, 0x00]] parser ∧
      parser.hasError = false ∧ parser.buffer = [0xe0] := by
  have hframes : (cutter 262144).frames [0xc0, 0x00, 0xe0] =
      ([[0xc0, 0x00]], .residue [0xe0]) := by
    have hfirst : (cutter 262144).head [0xc0, 0x00, 0xe0] = .packet 2 := by decide
    have hsecond : (cutter 262144).head [0xe0] = .incomplete := by decide
    have hrest : (cutter 262144).frames (List.drop 2 [0xc0, 0x00, 0xe0]) =
        ([], .residue [0xe0]) := Cutter.frames_of_incomplete hsecond
    rw [Cutter.frames_of_packet hfirst, hrest]
    rfl
  obtain ⟨parser, hfeeds, _, herror, hrest⟩ := framing_independent_of_chunks {} (by decide)
    (by decide) 2 (by decide) [[0xc0], [0x00, 0xe0]] (by decide)
  change Feeds _ _ _ ((cutter 262144).frames [0xc0, 0x00, 0xe0]).1 _ at hfeeds
  change _ ↔ ((cutter 262144).frames [0xc0, 0x00, 0xe0]).2 = _ at herror
  change ∀ rest, ((cutter 262144).frames [0xc0, 0x00, 0xe0]).2 = _ → _ at hrest
  rw [hframes] at hfeeds herror hrest
  refine ⟨parser, hfeeds, ?_, hrest _ rfl⟩
  rw [← Bool.not_eq_true, herror]
  exact nofun

end JellyBroker.Packet
