import JellyBroker.Lib.Codec
/-!
# DNS messages

The wire format of a DNS message: a header with the number of entries of every
section, and then the sections.  A name is a list of labels that ends in the root
label or in a compression pointer.  A pointer is two bytes and is not followed.

`parseMessage` reads a packet to its end.  It accepts exactly the encodings of the
valid messages, and every packet for one message only.
-/

namespace JellyBroker.Lib.Dns

open JellyBroker.Lib.Codec

abbrev ByteReader := ListReader UInt8 Unit

/-! ## Fields -/

def byte : ByteReader UInt8 := fun buf =>
  match buf with
  | [] => .error ()
  | b :: rest => .ok (b, rest)

def bytes (count : Nat) : ByteReader (List UInt8) := fun buf =>
  if count ≤ buf.length then .ok (buf.take count, buf.drop count) else .error ()

def word : ByteReader UInt16 := do
  let high ← byte
  let low ← byte
  return high.toUInt16 <<< 8 ||| low.toUInt16

def doubleWord : ByteReader UInt32 := do
  let high ← word
  let low ← word
  return UInt32.ofNat (65536 * high.toNat + low.toNat)

def encodeWord (v : UInt16) : List UInt8 := [(v >>> 8).toUInt8, v.toUInt8]

def encodeDoubleWord (v : UInt32) : List UInt8 :=
  encodeWord (UInt16.ofNat (v.toNat / 65536)) ++ encodeWord (UInt16.ofNat v.toNat)

theorem bytes_append (front more : List UInt8) :
    bytes front.length (front ++ more) = .ok (front, more) := by
  unfold bytes
  rw [if_pos (by simp), List.take_left, List.drop_left]

theorem bytes_sound {count : Nat} {buf front rest : List UInt8}
    (h : bytes count buf = .ok (front, rest)) : front.length = count ∧ buf = front ++ rest := by
  unfold bytes at h
  split_ifs at h with hcount
  obtain ⟨hfront, hrest⟩ := Prod.mk.inj (Except.ok.inj h)
  rw [← hfront, ← hrest, List.take_append_drop, List.length_take_of_le hcount]
  exact ⟨rfl, rfl⟩

theorem byte_sound {buf rest : List UInt8} {b : UInt8} (h : byte buf = .ok (b, rest)) :
    buf = b :: rest := by
  cases buf with
  | nil => cases h
  | cons c more =>
      cases h
      rfl

theorem isCodec_word : IsCodec word encodeWord (fun _ => True) := by
  apply IsCodec.of_whole
  · intro v _ more
    change Except.ok ((v >>> 8).toUInt8.toUInt16 <<< 8 ||| v.toUInt8.toUInt16, more) = _
    rw [wordOfBytes]
  · intro buf v rest h
    obtain ⟨high, mid, hhigh, h⟩ := bind_eq_ok h
    obtain ⟨low, rest', hlow, hpure⟩ := bind_eq_ok h
    cases hpure
    refine ⟨trivial, ?_⟩
    rw [byte_sound hhigh, byte_sound hlow, encodeWord, highByte_bytesToWord,
      lowByte_bytesToWord]
    rfl

theorem isCodec_doubleWord : IsCodec doubleWord encodeDoubleWord (fun _ => True) := by
  apply IsCodec.of_whole
  · intro v _ more
    rw [encodeDoubleWord, List.append_assoc, doubleWord, bind_of_ok (isCodec_word.whole trivial _),
      bind_of_ok (isCodec_word.whole trivial _)]
    have hv := v.toNat_lt
    have hvalue : 65536 * (UInt16.ofNat (v.toNat / 65536)).toNat +
        (UInt16.ofNat v.toNat).toNat = v.toNat := by
      rw [UInt16.toNat_ofNat', UInt16.toNat_ofNat']
      omega
    rw [hvalue, UInt32.ofNat_toNat]
    rfl
  · intro buf v rest h
    obtain ⟨high, mid, hhigh, h⟩ := bind_eq_ok h
    obtain ⟨low, rest', hlow, hpure⟩ := bind_eq_ok h
    cases hpure
    have hhigh' := high.toNat_lt
    have hlow' := low.toNat_lt
    have hbound : 65536 * high.toNat + low.toNat < UInt32.size := by
      rw [UInt32.size]
      omega
    have hvalue := UInt32.toNat_ofNat_of_lt' hbound
    have hupper : UInt16.ofNat ((65536 * high.toNat + low.toNat) / 65536) = high := by
      apply UInt16.toNat_inj.mp
      rw [UInt16.toNat_ofNat']
      omega
    have hlower : UInt16.ofNat (65536 * high.toNat + low.toNat) = low := by
      apply UInt16.toNat_inj.mp
      rw [UInt16.toNat_ofNat']
      omega
    refine ⟨trivial, ?_⟩
    rw [encodeDoubleWord, hvalue, hupper, hlower, (isCodec_word.sound hhigh).2,
      (isCodec_word.sound hlow).2, List.append_assoc]

/-! ## Names -/

inductive NameEnd where
  | root
  | pointer (high low : UInt8)
  deriving DecidableEq

structure Name where
  labels : List (List UInt8)
  ending : NameEnd
  deriving DecidableEq

def NameEnd.Valid : NameEnd → Prop
  | .root => True
  | .pointer high _ => 192 ≤ high.toNat

structure Name.Valid (name : Name) : Prop where
  labels : ∀ label ∈ name.labels, 1 ≤ label.length ∧ label.length ≤ 63
  ending : name.ending.Valid

def encodeLabel (label : List UInt8) : List UInt8 := UInt8.ofNat label.length :: label

def NameEnd.encode : NameEnd → List UInt8
  | .root => [0]
  | .pointer high low => [high, low]

def Name.encode (name : Name) : List UInt8 :=
  name.labels.flatMap encodeLabel ++ name.ending.encode

/-- Read a name of fewer than `turns` labels.  The lengths from 64 to 191 are
reserved. -/
def nameFrom : Nat → ByteReader Name
  | 0 => throw ()
  | turns + 1 => do
      let b ← byte
      if b = 0 then return ⟨[], .root⟩
      else if 192 ≤ b.toNat then
        let low ← byte
        return ⟨[], .pointer b low⟩
      else if b.toNat ≤ 63 then
        let label ← bytes b.toNat
        let name ← nameFrom turns
        return ⟨label :: name.labels, name.ending⟩
      else throw ()

/-- Every label takes a byte, so the size of the data bounds their number. -/
def name : ByteReader Name := do
  let buf ← get
  nameFrom buf.length

theorem encode_cons (label : List UInt8) (labels : List (List UInt8)) (ending : NameEnd) :
    (Name.mk (label :: labels) ending).encode =
      UInt8.ofNat label.length :: (label ++ (Name.mk labels ending).encode) := by
  simp [Name.encode, encodeLabel]

theorem length_labels_lt (name : Name) : name.labels.length < name.encode.length := by
  obtain ⟨labels, ending⟩ := name
  induction labels with
  | nil =>
      cases ending with
      | root => exact Nat.zero_lt_one
      | pointer high low => exact Nat.zero_lt_two
  | cons label labels ih =>
      rw [encode_cons, List.length_cons, List.length_cons, List.length_append]
      dsimp only at ih
      omega

theorem toNat_labelLength {label : List UInt8} (h : label.length ≤ 63) :
    (UInt8.ofNat label.length).toNat = label.length :=
  UInt8.toNat_ofNat_of_lt' (Nat.lt_of_le_of_lt h (by decide))

theorem pointer_ne_zero {high : UInt8} (h : 192 ≤ high.toNat) : high ≠ 0 := by
  rintro rfl
  cases h

theorem labelLength_ne_zero {label : List UInt8} (h : 1 ≤ label.length ∧ label.length ≤ 63) :
    UInt8.ofNat label.length ≠ 0 := by
  intro hzero
  have hlength := toNat_labelLength h.2
  rw [hzero] at hlength
  change 0 = label.length at hlength
  omega

theorem nameFrom_encode {name : Name} (h : name.Valid) {turns : Nat}
    (hturns : name.labels.length < turns) (more : List UInt8) :
    nameFrom turns (name.encode ++ more) = .ok (name, more) := by
  obtain ⟨labels, ending⟩ := name
  induction labels generalizing turns with
  | nil =>
      obtain ⟨turns, rfl⟩ : ∃ fewer, turns = fewer + 1 := ⟨turns - 1, by omega⟩
      cases ending with
      | root => rfl
      | pointer high low =>
          have hhigh : 192 ≤ high.toNat := h.ending
          have hbyte : byte ((Name.mk [] (.pointer high low)).encode ++ more) =
              .ok (high, low :: more) := rfl
          rw [nameFrom, bind_of_ok hbyte, if_neg (pointer_ne_zero hhigh), if_pos hhigh]
          rfl
  | cons label labels ih =>
      rw [List.length_cons] at hturns
      obtain ⟨turns, rfl⟩ : ∃ fewer, turns = fewer + 1 := ⟨turns - 1, by omega⟩
      obtain ⟨hlabel, hlabels⟩ := List.forall_mem_cons.mp h.labels
      have hlength := toNat_labelLength hlabel.2
      have hroot := labelLength_ne_zero hlabel
      have hrest := ih ⟨hlabels, h.ending⟩ (Nat.lt_of_succ_lt_succ hturns)
      have hbyte : byte ((Name.mk (label :: labels) ending).encode ++ more) =
          .ok (UInt8.ofNat label.length, label ++ ((Name.mk labels ending).encode ++ more)) := by
        rw [encode_cons, List.cons_append, List.append_assoc]
        rfl
      rw [nameFrom, bind_of_ok hbyte, if_neg hroot, if_neg (by omega), if_pos (by omega), hlength,
        bind_of_ok (bytes_append _ _), bind_of_ok hrest]
      rfl

theorem nameFrom_sound {turns : Nat} {buf rest : List UInt8} {name : Name}
    (h : nameFrom turns buf = .ok (name, rest)) : name.Valid ∧ buf = name.encode ++ rest := by
  induction turns generalizing buf name with
  | zero => cases h
  | succ turns ih =>
      obtain ⟨b, mid, hb, h⟩ := bind_eq_ok h
      rw [byte_sound hb]
      split_ifs at h with hroot hpointer hlabel
      · cases h
        rw [hroot]
        exact ⟨⟨nofun, trivial⟩, rfl⟩
      · obtain ⟨low, rest', hlow, hpure⟩ := bind_eq_ok h
        cases hpure
        rw [byte_sound hlow]
        exact ⟨⟨nofun, hpointer⟩, rfl⟩
      · obtain ⟨label, mid', hbytes, h⟩ := bind_eq_ok h
        obtain ⟨others, rest', hothers, hpure⟩ := bind_eq_ok h
        cases hpure
        obtain ⟨hlength, hmid⟩ := bytes_sound hbytes
        obtain ⟨hvalid, hmid'⟩ := ih hothers
        have hpos : b.toNat ≠ 0 := by
          intro hzero
          exact hroot (UInt8.toNat_inj.mp hzero)
        refine ⟨⟨List.forall_mem_cons.mpr ⟨⟨by omega, by omega⟩, hvalid.labels⟩,
          hvalid.ending⟩, ?_⟩
        rw [encode_cons, hlength, UInt8.ofNat_toNat, hmid, hmid']
        simp
      · cases h

theorem isCodec_name : IsCodec name Name.encode Name.Valid := by
  have hget (buf : List UInt8) : name buf = nameFrom buf.length buf := rfl
  apply IsCodec.of_whole
  · intro value hvalid more
    have hlabels := length_labels_lt value
    rw [hget]
    apply nameFrom_encode hvalid
    rw [List.length_append]
    omega
  · intro buf value rest h
    rw [hget] at h
    exact nameFrom_sound h

/-! ## Questions and records -/

structure Question where
  name : Name
  qtype : UInt16
  qclass : UInt16
  deriving DecidableEq

structure Record where
  name : Name
  type : UInt16
  rclass : UInt16
  ttl : UInt32
  rdata : List UInt8
  deriving DecidableEq

def Question.encode (q : Question) : List UInt8 :=
  q.name.encode ++ (encodeWord q.qtype ++ encodeWord q.qclass)

/-- The length of the data stands in front of them. -/
def Record.encode (r : Record) : List UInt8 :=
  r.name.encode ++ (encodeWord r.type ++ (encodeWord r.rclass ++ (encodeDoubleWord r.ttl ++
    (encodeWord (UInt16.ofNat r.rdata.length) ++ r.rdata))))

def question : ByteReader Question := do
  let name ← name
  let qtype ← word
  let qclass ← word
  return ⟨name, qtype, qclass⟩

def record : ByteReader Record := do
  let name ← name
  let type ← word
  let rclass ← word
  let ttl ← doubleWord
  let rdlength ← word
  let rdata ← bytes rdlength.toNat
  return ⟨name, type, rclass, ttl, rdata⟩

structure Record.Valid (r : Record) : Prop where
  name : r.name.Valid
  rdata : r.rdata.length < 65536

theorem isCodec_question : IsCodec question Question.encode (fun q => q.name.Valid) := by
  apply IsCodec.of_whole
  · intro q hvalid more
    rw [Question.encode, List.append_assoc, List.append_assoc, question,
      bind_of_ok (isCodec_name.whole hvalid _), bind_of_ok (isCodec_word.whole trivial _),
      bind_of_ok (isCodec_word.whole trivial _)]
    rfl
  · intro buf q rest h
    obtain ⟨_, _, hname, h⟩ := bind_eq_ok h
    obtain ⟨_, _, hqtype, h⟩ := bind_eq_ok h
    obtain ⟨_, _, hqclass, hpure⟩ := bind_eq_ok h
    cases hpure
    obtain ⟨hvalid, hbuf⟩ := isCodec_name.sound hname
    refine ⟨hvalid, ?_⟩
    rw [hbuf, (isCodec_word.sound hqtype).2, (isCodec_word.sound hqclass).2, Question.encode,
      List.append_assoc, List.append_assoc]

theorem isCodec_record : IsCodec record Record.encode Record.Valid := by
  apply IsCodec.of_whole
  · intro r hvalid more
    have hlength : (UInt16.ofNat r.rdata.length).toNat = r.rdata.length :=
      UInt16.toNat_ofNat_of_lt' hvalid.rdata
    simp only [Record.encode, List.append_assoc]
    rw [record, bind_of_ok (isCodec_name.whole hvalid.name _),
      bind_of_ok (isCodec_word.whole trivial _), bind_of_ok (isCodec_word.whole trivial _),
      bind_of_ok (isCodec_doubleWord.whole trivial _),
      bind_of_ok (isCodec_word.whole trivial _), hlength, bind_of_ok (bytes_append _ _)]
    rfl
  · intro buf r rest h
    obtain ⟨_, _, hname, h⟩ := bind_eq_ok h
    obtain ⟨_, _, htype, h⟩ := bind_eq_ok h
    obtain ⟨_, _, hclass, h⟩ := bind_eq_ok h
    obtain ⟨_, _, httl, h⟩ := bind_eq_ok h
    obtain ⟨rdlength, _, hrdlength, h⟩ := bind_eq_ok h
    obtain ⟨rdata, _, hrdata, hpure⟩ := bind_eq_ok h
    cases hpure
    obtain ⟨hvalid, hbuf⟩ := isCodec_name.sound hname
    obtain ⟨hlength, hrest⟩ := bytes_sound hrdata
    have hbound := rdlength.toNat_lt
    refine ⟨⟨hvalid, by dsimp only; omega⟩, ?_⟩
    rw [hbuf, (isCodec_word.sound htype).2, (isCodec_word.sound hclass).2,
      (isCodec_doubleWord.sound httl).2, (isCodec_word.sound hrdlength).2, hrest]
    simp only [Record.encode, hlength, UInt16.ofNat_toNat, List.append_assoc]

/-! ## Messages -/

structure Message where
  id : UInt16
  flags : UInt16
  questions : List Question
  answers : List Record
  authority : List Record
  additional : List Record
  deriving DecidableEq

def Message.encode (m : Message) : List UInt8 :=
  encodeWord m.id ++ (encodeWord m.flags ++ (encodeWord (UInt16.ofNat m.questions.length) ++
    (encodeWord (UInt16.ofNat m.answers.length) ++
    (encodeWord (UInt16.ofNat m.authority.length) ++
    (encodeWord (UInt16.ofNat m.additional.length) ++ (m.questions.flatMap Question.encode ++
    (m.answers.flatMap Record.encode ++ (m.authority.flatMap Record.encode ++
    m.additional.flatMap Record.encode))))))))

def message : ByteReader Message := do
  let id ← word
  let flags ← word
  let qdcount ← word
  let ancount ← word
  let nscount ← word
  let arcount ← word
  let questions ← exactly question qdcount.toNat
  let answers ← exactly record ancount.toNat
  let authority ← exactly record nscount.toNat
  let additional ← exactly record arcount.toNat
  return ⟨id, flags, questions, answers, authority, additional⟩

def SectionValid {β : Type} (valid : β → Prop) (entries : List β) : Prop :=
  entries.length < 65536 ∧ ∀ entry ∈ entries, valid entry

structure Message.Valid (m : Message) : Prop where
  questions : SectionValid (fun q : Question => q.name.Valid) m.questions
  answers : SectionValid Record.Valid m.answers
  authority : SectionValid Record.Valid m.authority
  additional : SectionValid Record.Valid m.additional

def parseMessage (packet : List UInt8) : Option Message :=
  match message packet with
  | .ok (m, []) => some m
  | _ => none

theorem exactly_section {β : Type} {read : ByteReader β} {enc : β → List UInt8}
    {valid : β → Prop} (h : IsCodec read enc valid) {entries : List β}
    (hvalid : SectionValid valid entries) (more : List UInt8) :
    exactly read (UInt16.ofNat entries.length).toNat (entries.flatMap enc ++ more) =
      .ok (entries, more) := by
  rw [UInt16.toNat_ofNat_of_lt' hvalid.1]
  exact (isCodec_exactly h entries.length).whole ⟨rfl, hvalid.2⟩ more

theorem section_sound {β : Type} {read : ByteReader β} {enc : β → List UInt8}
    {valid : β → Prop} (h : IsCodec read enc valid) {count : UInt16} {entries : List β}
    {buf rest : List UInt8} (hread : exactly read count.toNat buf = .ok (entries, rest)) :
    SectionValid valid entries ∧ UInt16.ofNat entries.length = count ∧
      buf = entries.flatMap enc ++ rest := by
  obtain ⟨⟨hcount, hvalid⟩, hbuf⟩ := (isCodec_exactly h count.toNat).sound hread
  have hbound := count.toNat_lt
  refine ⟨⟨by omega, hvalid⟩, ?_, hbuf⟩
  rw [hcount, UInt16.ofNat_toNat]

theorem isCodec_message : IsCodec message Message.encode Message.Valid := by
  apply IsCodec.of_whole
  · intro m hvalid more
    simp only [Message.encode, List.append_assoc]
    unfold message
    -- the header
    rw [bind_of_ok (isCodec_word.whole trivial _), bind_of_ok (isCodec_word.whole trivial _),
      bind_of_ok (isCodec_word.whole trivial _), bind_of_ok (isCodec_word.whole trivial _),
      bind_of_ok (isCodec_word.whole trivial _), bind_of_ok (isCodec_word.whole trivial _)]
    rw [bind_of_ok (exactly_section isCodec_question hvalid.questions _),
      bind_of_ok (exactly_section isCodec_record hvalid.answers _),
      bind_of_ok (exactly_section isCodec_record hvalid.authority _),
      bind_of_ok (exactly_section isCodec_record hvalid.additional _)]
    rfl
  · intro buf m rest h
    obtain ⟨_, _, hid, h⟩ := bind_eq_ok h
    obtain ⟨_, _, hflags, h⟩ := bind_eq_ok h
    obtain ⟨_, _, hqdcount, h⟩ := bind_eq_ok h
    obtain ⟨_, _, hancount, h⟩ := bind_eq_ok h
    obtain ⟨_, _, hnscount, h⟩ := bind_eq_ok h
    obtain ⟨_, _, harcount, h⟩ := bind_eq_ok h
    obtain ⟨_, _, hquestions, h⟩ := bind_eq_ok h
    obtain ⟨_, _, hanswers, h⟩ := bind_eq_ok h
    obtain ⟨_, _, hauthority, h⟩ := bind_eq_ok h
    obtain ⟨_, _, hadditional, hpure⟩ := bind_eq_ok h
    cases hpure
    obtain ⟨hquestions', hqd, hbuf⟩ := section_sound isCodec_question hquestions
    obtain ⟨hanswers', han, hbuf'⟩ := section_sound isCodec_record hanswers
    obtain ⟨hauthority', hns, hbuf''⟩ := section_sound isCodec_record hauthority
    obtain ⟨hadditional', har, hbuf'''⟩ := section_sound isCodec_record hadditional
    refine ⟨⟨hquestions', hanswers', hauthority', hadditional'⟩, ?_⟩
    rw [(isCodec_word.sound hid).2, (isCodec_word.sound hflags).2,
      (isCodec_word.sound hqdcount).2, (isCodec_word.sound hancount).2,
      (isCodec_word.sound hnscount).2, (isCodec_word.sound harcount).2, hbuf, hbuf', hbuf'',
      hbuf''']
    simp only [Message.encode, hqd, han, hns, har, List.append_assoc]

/-- A packet parses as a message exactly when it is the encoding of the message. -/
theorem parseMessage_eq_some_iff {packet : List UInt8} {m : Message} :
    parseMessage packet = some m ↔ m.Valid ∧ packet = m.encode := by
  constructor
  · intro h
    unfold parseMessage at h
    split at h
    · next parsed hread =>
        cases h
        obtain ⟨hvalid, hpacket⟩ := isCodec_message.sound hread
        rw [List.append_nil] at hpacket
        exact ⟨hvalid, hpacket⟩
    · cases h
  · rintro ⟨hvalid, rfl⟩
    have hread := isCodec_message.whole hvalid []
    rw [List.append_nil] at hread
    rw [parseMessage, hread]

end JellyBroker.Lib.Dns
