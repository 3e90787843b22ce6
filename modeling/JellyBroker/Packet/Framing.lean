import JellyBroker.Packet.Parser
import Mathlib.Tactic
/-!
# Framing

What `try_extract` finds in a buffer does not depend on the bytes that arrive
later, and what it leaves in the buffer is bounded by the size of one packet.
-/

namespace JellyBroker.Packet.PacketParser

def append (parser : PacketParser) (data : Bytes) : PacketParser :=
  { parser with buffer := parser.buffer ++ data }

theorem append_append (parser : PacketParser) (data more : Bytes) :
    (parser.append data).append more = parser.append (data ++ more) := by
  simp [append, List.append_assoc]

/-- The limits of the configuration, as the parser casts them. -/
def packetLimit (cfg : Config) : Nat := (cfg.maxPacketSize % 2 ^ 32).toNat

def bufferLimit (cfg : Config) : Nat := (cfg.maxParserBufferSize % 2 ^ 64).toNat

theorem feed_of_fits {cfg : Config} {parser : PacketParser} {data : Bytes}
    (h : parser.buffer.length + data.length ≤ bufferLimit cfg) :
    parser.feed cfg data = parser.append data := by
  unfold feed
  have hfits : ¬parser.buffer.length + data.length >
      (cfg.maxParserBufferSize % 2 ^ 64).toNat := Nat.not_lt.mpr h
  split_ifs with hempty
  · rw [List.isEmpty_iff.mp hempty]
    simp [append]
  · rfl

/-! ## The length field -/

/-- A length field that ends in the buffer is not changed by later bytes. -/
theorem decodeRemainingLengthFrom_append {value multiplier count pos : Nat} {bytes : Bytes}
    (h : decodeRemainingLengthFrom value multiplier count pos bytes ≠ .incomplete)
    (more : Bytes) :
    decodeRemainingLengthFrom value multiplier count pos (bytes ++ more) =
      decodeRemainingLengthFrom value multiplier count pos bytes := by
  induction bytes generalizing value multiplier count pos with
  | nil => exact absurd rfl h
  | cons enc rest ih =>
      rw [List.cons_append]
      unfold decodeRemainingLengthFrom at h ⊢
      dsimp only at h ⊢
      split_ifs at h ⊢
      · rfl
      · rfl
      · exact ih h

theorem decodeRemainingLength_append {byte1 : UInt8} {rest : Bytes}
    (h : decodeRemainingLength (byte1 :: rest) ≠ .incomplete) (more : Bytes) :
    decodeRemainingLength (byte1 :: rest ++ more) = decodeRemainingLength (byte1 :: rest) :=
  decodeRemainingLengthFrom_append h more

theorem headerEnd_bounds {value multiplier count pos remaining headerEnd : Nat} {bytes : Bytes}
    (hcount : count < 4)
    (h : decodeRemainingLengthFrom value multiplier count pos bytes =
      .complete remaining headerEnd) :
    pos < headerEnd ∧ headerEnd + count ≤ pos + 4 := by
  induction bytes generalizing value multiplier count pos with
  | nil => cases h
  | cons enc rest ih =>
      unfold decodeRemainingLengthFrom at h
      dsimp only at h
      split_ifs at h with hlast hlong
      · have hend : pos + 1 = headerEnd := (LengthField.complete.inj h).2
        omega
      · have hnext := ih (by omega) h
        omega

theorem incomplete_length {value multiplier count pos : Nat} {bytes : Bytes} (hcount : count < 4)
    (h : decodeRemainingLengthFrom value multiplier count pos bytes = .incomplete) :
    bytes.length + count < 4 := by
  induction bytes generalizing value multiplier count pos with
  | nil =>
      rw [List.length_nil]
      omega
  | cons enc rest ih =>
      unfold decodeRemainingLengthFrom at h
      dsimp only at h
      split_ifs at h with hlast hlong
      have hnext := ih (by omega) h
      rw [List.length_cons]
      omega

/-! ## Packets -/

/-- The buffer begins with a fixed header that `try_extract` admits. -/
structure Header (cfg : Config) (buffer : Bytes) (remaining headerEnd : Nat) : Prop where
  type : ∃ byte1 rest, buffer = byte1 :: rest ∧ ¬(typeValue byte1 < 1 ∨ typeValue byte1 > 14)
  length : decodeRemainingLength buffer = .complete remaining headerEnd
  size : remaining ≤ packetLimit cfg

namespace Header

variable {cfg : Config} {buffer : Bytes} {remaining headerEnd : Nat}

theorem headerEnd_le (h : Header cfg buffer remaining headerEnd) :
    1 < headerEnd ∧ headerEnd ≤ 5 := by
  have hbounds := headerEnd_bounds (by omega) h.length
  omega

theorem append (h : Header cfg buffer remaining headerEnd) (more : Bytes) :
    Header cfg (buffer ++ more) remaining headerEnd := by
  obtain ⟨byte1, rest, hbuffer, htype⟩ := h.type
  have hlength := h.length
  rw [hbuffer] at hlength
  refine ⟨⟨byte1, rest ++ more, by rw [hbuffer, List.cons_append], htype⟩, ?_, h.size⟩
  rw [hbuffer, decodeRemainingLength_append (by rw [hlength]; exact nofun), hlength]

theorem tryExtract_eq {parser : PacketParser} (h : Header cfg parser.buffer remaining headerEnd)
    (herror : parser.error = none) :
    parser.tryExtract cfg =
      if parser.buffer.length < headerEnd + remaining then (none, parser)
      else (some (parser.buffer.take (headerEnd + remaining)),
        { parser with buffer := parser.buffer.drop (headerEnd + remaining) }) := by
  obtain ⟨byte1, rest, hbuffer, htype⟩ := h.type
  have hsize : ¬remaining > (cfg.maxPacketSize % 2 ^ 32).toNat := Nat.not_lt.mpr h.size
  have hlength := h.length
  unfold tryExtract
  simp only [hasError, herror, Option.isSome_none, Bool.false_eq_true, if_false]
  rw [hbuffer] at hlength ⊢
  simp only [htype, if_false, hlength, hsize]

end Header

/-- A header whose length field is not in the buffer is at most four bytes
long. -/
theorem incomplete_header_length {byte1 : UInt8} {rest : Bytes}
    (h : decodeRemainingLength (byte1 :: rest) = .incomplete) : (byte1 :: rest).length ≤ 4 := by
  have hrest := incomplete_length (by omega) h
  rw [List.tail_cons] at hrest
  rw [List.length_cons]
  omega

/-- A parser without an error finds a packet, waits with less than a packet of
the largest size in its buffer, or sets its error. -/
theorem tryExtract_cases (cfg : Config) {parser : PacketParser} (herror : parser.error = none) :
    (∃ remaining headerEnd, Header cfg parser.buffer remaining headerEnd ∧
      headerEnd + remaining ≤ parser.buffer.length) ∨
    (parser.tryExtract cfg = (none, parser) ∧ parser.buffer.length ≤ packetLimit cfg + 4) ∨
    ∃ e, parser.tryExtract cfg = (none, { parser with error := some e }) := by
  cases hbuffer : parser.buffer with
  | nil =>
      right; left
      refine ⟨?_, by rw [List.length_nil]; omega⟩
      simp [tryExtract, hasError, herror, hbuffer]
  | cons byte1 rest =>
      by_cases htype : typeValue byte1 < 1 ∨ typeValue byte1 > 14
      · right; right
        refine ⟨.invalidPacketType (typeValue byte1), ?_⟩
        simp only [tryExtract, hasError, herror, hbuffer, Option.isSome_none, Bool.false_eq_true,
          if_false, htype, if_true]
      cases hlength : decodeRemainingLength (byte1 :: rest) with
      | malformed =>
          right; right
          refine ⟨.malformedRemainingLength, ?_⟩
          simp only [tryExtract, hasError, herror, hbuffer, Option.isSome_none,
            Bool.false_eq_true, if_false, htype, hlength]
      | incomplete =>
          right; left
          have hshort := incomplete_header_length hlength
          refine ⟨?_, by omega⟩
          simp only [tryExtract, hasError, herror, hbuffer, Option.isSome_none,
            Bool.false_eq_true, if_false, htype, hlength]
      | complete remaining headerEnd =>
          by_cases hsize : remaining ≤ packetLimit cfg
          · have hheader : Header cfg parser.buffer remaining headerEnd := by
              refine ⟨⟨byte1, rest, hbuffer, htype⟩, ?_, hsize⟩
              rw [hbuffer, hlength]
            by_cases hall : headerEnd + remaining ≤ (byte1 :: rest).length
            · left
              rw [← hbuffer] at hall ⊢
              exact ⟨remaining, headerEnd, hheader, hall⟩
            · right; left
              have hend := hheader.headerEnd_le
              refine ⟨?_, by omega⟩
              rw [hheader.tryExtract_eq herror, if_pos (by rw [hbuffer]; omega)]
          · right; right
            refine ⟨.packetTooLarge remaining, ?_⟩
            have hlarge : remaining > (cfg.maxPacketSize % 2 ^ 32).toNat := Nat.not_le.mp hsize
            simp only [tryExtract, hasError, herror, hbuffer, Option.isSome_none,
              Bool.false_eq_true, if_false, htype, hlength, hlarge, if_true]

theorem header_of_tryExtract {cfg : Config} {parser parser' : PacketParser} {packet : Bytes}
    (h : parser.tryExtract cfg = (some packet, parser')) :
    parser.error = none ∧ ∃ remaining headerEnd,
      Header cfg parser.buffer remaining headerEnd ∧
        headerEnd + remaining ≤ parser.buffer.length := by
  have herror : parser.error = none := by
    cases herror : parser.error with
    | none => rfl
    | some e => simp [tryExtract, hasError, herror] at h
  refine ⟨herror, ?_⟩
  rcases tryExtract_cases cfg herror with hpacket | ⟨hnone, _⟩ | ⟨e, hnone⟩
  · exact hpacket
  · rw [hnone] at h
    cases h
  · rw [hnone] at h
    cases h

/-- Later bytes do not change the next packet. -/
theorem tryExtract_append {cfg : Config} {parser parser' : PacketParser} {packet : Bytes}
    (h : parser.tryExtract cfg = (some packet, parser')) (more : Bytes) :
    (parser.append more).tryExtract cfg = (some packet, parser'.append more) := by
  obtain ⟨herror, remaining, headerEnd, hheader, hall⟩ := header_of_tryExtract h
  rw [hheader.tryExtract_eq herror, if_neg (by omega)] at h
  have hheader' : Header cfg (parser.append more).buffer remaining headerEnd :=
    hheader.append more
  have hall' : ¬(parser.append more).buffer.length < headerEnd + remaining := by
    simp only [append, List.length_append]
    omega
  rw [hheader'.tryExtract_eq herror, if_neg hall']
  obtain ⟨hpacket, hparser⟩ := Prod.mk.inj h
  rw [← hpacket, ← hparser]
  simp only [append, List.take_append_of_le_length hall, List.drop_append_of_le_length hall]

theorem length_of_tryExtract {cfg : Config} {parser parser' : PacketParser} {packet : Bytes}
    (h : parser.tryExtract cfg = (some packet, parser')) :
    parser'.buffer.length < parser.buffer.length ∧ parser'.error = none := by
  obtain ⟨herror, remaining, headerEnd, hheader, hall⟩ := header_of_tryExtract h
  have hend := hheader.headerEnd_le
  rw [hheader.tryExtract_eq herror, if_neg (by omega)] at h
  obtain ⟨_, hparser⟩ := Prod.mk.inj h
  rw [← hparser]
  refine ⟨?_, herror⟩
  simp only [List.length_drop]
  omega

/-- The first byte alone is never a packet. -/
theorem tryExtract_single (cfg : Config) (byte1 : UInt8) :
    (tryExtract cfg { buffer := [byte1] }).1 = none := by
  cases h : (tryExtract cfg { buffer := [byte1] }) with
  | mk result parser' =>
      cases result with
      | none => rfl
      | some packet =>
          obtain ⟨_, remaining, headerEnd, hheader, _⟩ := header_of_tryExtract h
          cases hheader.length

/-! ## Waiting for more bytes -/

/-- Nothing to extract and no error: the parser waits for more bytes. -/
def Waiting (cfg : Config) (parser : PacketParser) : Prop :=
  parser.error = none ∧ parser.tryExtract cfg = (none, parser)

theorem waiting_empty (cfg : Config) : Waiting cfg {} := ⟨rfl, rfl⟩

theorem waiting_of_tryExtract {cfg : Config} {parser parser' : PacketParser}
    (h : parser.tryExtract cfg = (none, parser')) (herror' : parser'.hasError = false) :
    parser' = parser ∧ Waiting cfg parser := by
  have herror : parser.error = none := by
    cases herror : parser.error with
    | none => rfl
    | some e =>
        have hsame : parser.tryExtract cfg = (none, parser) := by
          simp [tryExtract, hasError, herror]
        rw [hsame] at h
        rw [← (Prod.mk.inj h).2, hasError, herror] at herror'
        cases herror'
  rcases tryExtract_cases cfg herror with ⟨_, _, hheader, hall⟩ | ⟨hnone, _⟩ | ⟨e, hnone⟩
  · rw [hheader.tryExtract_eq herror, if_neg (by omega)] at h
    cases h
  · rw [hnone] at h
    exact ⟨(Prod.mk.inj h).2.symm, herror, hnone⟩
  · rw [hnone] at h
    rw [← (Prod.mk.inj h).2] at herror'
    cases herror'

/-- A waiting parser holds less than one packet of the largest size. -/
theorem Waiting.length_le {cfg : Config} {parser : PacketParser} (h : Waiting cfg parser) :
    parser.buffer.length ≤ packetLimit cfg + 4 := by
  obtain ⟨herror, hextract⟩ := h
  rcases tryExtract_cases cfg herror with ⟨_, _, hheader, hall⟩ | ⟨_, hlength⟩ | ⟨e, hnone⟩
  · rw [hheader.tryExtract_eq herror, if_neg (by omega)] at hextract
    cases hextract
  · exact hlength
  · rw [hnone] at hextract
    have hsame := congrArg PacketParser.error (Prod.mk.inj hextract).2
    rw [herror] at hsame
    cases hsame

end JellyBroker.Packet.PacketParser
