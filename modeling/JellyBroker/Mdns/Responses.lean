import JellyBroker.Lib.Dns
import JellyBroker.Mdns.OwnNames
/-!
# The responses

`send_response` writes the header of a message with one question, one answer and three
additional records.  The question is what `handle_receive` copied from the buffer: all
the bytes that its loop over the announced questions went over.
-/

namespace JellyBroker.Mdns

open JellyBroker.Lib

/-! ## The records of a response -/

theorem encodeWord_eq (v : UInt16) : Dns.encodeWord v = writeU16 v :=
  (writeU16_eq v).symm

theorem writeU32_eq (v : UInt32) : writeU32 v = Dns.encodeDoubleWord v := by
  have hv := v.toNat_lt
  have hbyte (a b : UInt8) (hab : a.toNat = b.toNat) : a = b := UInt8.toNat_inj.mp hab
  have hmask : (v &&& 0xFF).toNat = v.toNat % 256 := by
    rw [UInt32.toNat_and]
    exact Nat.and_two_pow_sub_one_eq_mod v.toNat 8
  unfold writeU32 Dns.encodeDoubleWord Dns.encodeWord
  simp only [List.cons_append, List.nil_append, List.cons.injEq, and_true]
  refine ⟨?_, ?_, ?_, ?_⟩ <;> apply hbyte <;>
    simp only [UInt32.toNat_toUInt8, UInt16.toNat_toUInt8, UInt32.toNat_shiftRight,
      UInt16.toNat_shiftRight, UInt16.toNat_ofNat', UInt32.reduceToNat, UInt16.reduceToNat,
      Nat.reduceMod, Nat.shiftRight_eq_div_pow, Nat.reducePow, hmask] <;> omega

def dnsName (name : Bytes) : Dns.Name := ⟨name.splitOn dot, .root⟩

theorem encode_dnsName {name : Bytes} (h : LabelsFit name) :
    (dnsName name).encode = encodeName name :=
  (encodeName_eq h).symm

theorem valid_dnsName {name : Bytes} (h : LabelsFit name) : (dnsName name).Valid :=
  ⟨h, trivial⟩

theorem length_flatMap_encodeLabel (labels : List Bytes) :
    (wireLabels labels).length = (labels.flatMap (dot :: ·)).length := by
  induction labels with
  | nil => rfl
  | cons label labels ih =>
      rw [wireLabels, List.flatMap_cons, List.length_append, List.flatMap_cons,
        List.length_append, ← ih]
      rfl

theorem length_encodeName {name : Bytes} (h : LabelsFit name) :
    (encodeName name).length = name.length + 2 := by
  have hjoin : [dot].intercalate (name.splitOn dot) = name := List.intercalate_splitOn dot
  rw [encodeName_eq h, List.length_append, length_flatMap_encodeLabel]
  cases hlabels : name.splitOn dot with
  | nil => exact absurd hlabels (List.splitOn_ne_nil dot name)
  | cons label labels =>
      rw [hlabels, intercalate_dot] at hjoin
      have hlength := congrArg List.length hjoin
      rw [List.length_append] at hlength
      rw [List.flatMap_cons, List.length_append, List.length_cons, List.length_singleton]
      omega

def dnsRecord (name : Bytes) (type : UInt16) (ttl : UInt32) (rdata : Bytes) : Dns.Record :=
  { name := dnsName name, type, rclass := rrClassInFlush, ttl, rdata }

theorem encode_dnsRecord {name : Bytes} (h : LabelsFit name) (type : UInt16) (ttl : UInt32)
    (rdata : Bytes) :
    (dnsRecord name type ttl rdata).encode = record (encodeName name) type ttl rdata := by
  simp only [Dns.Record.encode, dnsRecord, record, encode_dnsName h, encodeWord_eq, writeU32_eq,
    List.append_assoc]

namespace MdnsResponder

def ptrRecord (self : MdnsResponder) : Dns.Record :=
  dnsRecord self.service rrTypePtr ttlPtr (encodeName self.instance_)

def srvRecord (self : MdnsResponder) : Dns.Record :=
  dnsRecord self.instance_ rrTypeSrv ttlSrvTxt
    (writeU16 0 ++ writeU16 0 ++ writeU16 self.port ++ encodeName self.node)

def txtRecord (self : MdnsResponder) : Dns.Record :=
  dnsRecord self.instance_ rrTypeTxt ttlSrvTxt [0]

def aRecord (self : MdnsResponder) : Dns.Record :=
  dnsRecord self.node rrTypeA ttlA (self.ip.getD [127, 0, 0, 1])

/-- The message that a response is meant to be: the question, the PTR record as its
answer and the other three records of the broker behind it. -/
def responseMessage (self : MdnsResponder) (id : UInt16) (question : Dns.Question) :
    Dns.Message where
  id := id
  flags := dnsFlagResponse
  questions := [question]
  answers := [self.ptrRecord]
  authority := []
  additional := [self.srvRecord, self.txtRecord, self.aRecord]

theorem sendResponse_inj (self : MdnsResponder) (id : UInt16) {question question' : Bytes}
    (h : self.sendResponse id question = self.sendResponse id question') :
    question = question' := by
  unfold sendResponse at h
  simp only [List.append_assoc, List.append_cancel_left_eq] at h
  exact List.append_cancel_right h

variable {self : MdnsResponder} {hostname : Bytes}

section Records

variable (hip : ∀ address, self.ip = some address → address.length = 4)

include hip

theorem length_address : (self.ip.getD [127, 0, 0, 1]).length = 4 := by
  cases hself : self.ip with
  | none => rfl
  | some address => exact hip address hself

variable (h : self.Advertises hostname) (hfit : LabelsFit hostname)

include h hfit

theorem encode_responseMessage (id : UInt16) (question : Dns.Question) :
    (self.responseMessage id question).encode = self.sendResponse id question.encode := by
  have haddress := length_address hip
  have hrecord : self.aRecord.encode = encodeName self.node ++ writeU16 rrTypeA ++
      writeU16 rrClassInFlush ++ writeU32 ttlA ++ writeU16 4 ++
        self.ip.getD [127, 0, 0, 1] := by
    rw [aRecord, encode_dnsRecord (h.labelsFit_node hfit), record, haddress]
    rfl
  simp only [Dns.Message.encode, responseMessage, List.flatMap_cons, List.flatMap_nil,
    List.length_cons, List.length_nil, ptrRecord, srvRecord, txtRecord, hrecord,
    encode_dnsRecord h.labelsFit_service, encode_dnsRecord (h.labelsFit_instance hfit),
    encodeWord_eq]
  unfold sendResponse
  simp only [List.append_assoc, List.append_nil, List.nil_append]
  rfl

/-- The longest data are those of the PTR record: the name of the instance. -/
theorem valid_responseMessage_iff (id : UInt16) (question : Dns.Question) :
    (self.responseMessage id question).Valid ↔
      question.name.Valid ∧ hostname.length ≤ 65516 := by
  have hinstance : (encodeName self.instance_).length = hostname.length + 19 := by
    rw [length_encodeName (h.labelsFit_instance hfit), h.instance_eq]
    simp [mqttService, localSuffix]
  have hnode : (encodeName self.node).length = hostname.length + 8 := by
    rw [length_encodeName (h.labelsFit_node hfit), h.node_eq]
    simp [localSuffix]
  constructor
  · intro hvalid
    have hquestion := hvalid.questions.2 question (List.mem_singleton.mpr rfl)
    have hptr := (hvalid.answers.2 self.ptrRecord (List.mem_singleton.mpr rfl)).rdata
    change (encodeName self.instance_).length < 65536 at hptr
    exact ⟨hquestion, by omega⟩
  · rintro ⟨hquestion, hshort⟩
    have hptr : self.ptrRecord.Valid := by
      refine ⟨valid_dnsName h.labelsFit_service, ?_⟩
      change (encodeName self.instance_).length < 65536
      omega
    have hsrv : self.srvRecord.Valid := by
      refine ⟨valid_dnsName (h.labelsFit_instance hfit), ?_⟩
      change (writeU16 0 ++ writeU16 0 ++ writeU16 self.port ++
        encodeName self.node).length < 65536
      simp only [List.length_append, writeU16, List.length_cons, List.length_nil]
      omega
    have htxt : self.txtRecord.Valid :=
      ⟨valid_dnsName (h.labelsFit_instance hfit), Nat.one_lt_succ_succ _⟩
    have ha : self.aRecord.Valid := by
      refine ⟨valid_dnsName (h.labelsFit_node hfit), ?_⟩
      change (self.ip.getD [127, 0, 0, 1]).length < 65536
      rw [length_address hip]
      decide
    constructor
    · exact ⟨Nat.one_lt_succ_succ _, List.forall_mem_singleton.mpr hquestion⟩
    · exact ⟨Nat.one_lt_succ_succ _, List.forall_mem_singleton.mpr hptr⟩
    · exact ⟨Nat.zero_lt_succ _, List.forall_mem_nil _⟩
    · have hcount : (self.responseMessage id question).additional.length = 3 := rfl
      refine ⟨by omega, ?_⟩
      intro entry hentry
      simp only [responseMessage, List.mem_cons, List.not_mem_nil, or_false] at hentry
      rcases hentry with rfl | rfl | rfl
      · exact hsrv
      · exact htxt
      · exact ha

/-- A packet is the message it is meant to be exactly when the copied bytes are one
question. -/
theorem parse_sendResponse_iff (id : UInt16) (echoed : Bytes) :
    (∃ question, Dns.parseMessage (self.sendResponse id echoed) =
        some (self.responseMessage id question)) ↔
      (∃ question : Dns.Question, question.name.Valid ∧ echoed = question.encode) ∧
        hostname.length ≤ 65516 := by
  simp only [Dns.parseMessage_eq_some_iff, valid_responseMessage_iff hip h hfit,
    encode_responseMessage hip h hfit]
  constructor
  · rintro ⟨question, ⟨hquestion, hshort⟩, hpacket⟩
    exact ⟨⟨question, hquestion, self.sendResponse_inj id hpacket⟩, hshort⟩
  · rintro ⟨⟨question, hquestion, rfl⟩, hshort⟩
    exact ⟨question, ⟨hquestion, hshort⟩, rfl⟩

end Records

end MdnsResponder

/-! ## The range of the first question -/

theorem isPointer_of_le : ∀ {high : UInt8}, 192 ≤ high.toNat → isPointer high = true := by
  decide +kernel

theorem getElem?_received {buf : Bytes} {size offset : Nat} {b : UInt8} {more : Bytes}
    (hoffset : offset < (buf.take size).length) (hbuf : buf.drop offset = b :: more) :
    (buf.take size)[offset]? = some b := by
  have hhead : (buf.drop offset)[0]? = some b := by
    rw [hbuf]
    rfl
  rw [List.getElem?_drop, Nat.add_zero] at hhead
  rw [List.length_take] at hoffset
  rw [List.getElem?_take_of_lt (by omega), hhead]

theorem drop_received {buf front more : Bytes} {size offset : Nat}
    (hbuf : buf.drop offset = front ++ more)
    (hinside : offset + front.length ≤ (buf.take size).length) :
    (buf.take size).drop offset = front ++ (buf.take size).drop (offset + front.length) := by
  rw [List.length_take] at hinside
  have hfront : front.length ≤ size - offset := by omega
  rw [← List.drop_drop, List.drop_take, hbuf, List.take_append, List.take_of_length_le hfront,
    List.drop_left]

theorem skipNameFrom_ended {data : Bytes} {offset : Nat} (h : data.length ≤ offset)
    (passes : Nat) : skipNameFrom data passes offset = offset := by
  cases passes with
  | zero => rfl
  | succ passes =>
      unfold skipNameFrom
      rw [List.getElem?_eq_none_iff.mpr h]

/-- The loop over the labels of a name in the buffer goes to the end of the name at
most, and it stops before only behind the end of the data. -/
theorem skipNameFrom_name {buf rest : Bytes} (size passes : Nat) {name : Dns.Name}
    (h : name.Valid) {offset : Nat} (hbuf : buf.drop offset = name.encode ++ rest)
    (hpasses : (buf.take size).length ≤ offset + passes) :
    skipNameFrom (buf.take size) passes offset ≤ offset + name.encode.length ∧
      (skipNameFrom (buf.take size) passes offset < offset + name.encode.length →
        (buf.take size).length ≤ skipNameFrom (buf.take size) passes offset) := by
  obtain ⟨labels, ending⟩ := name
  induction labels generalizing offset passes with
  | nil =>
      by_cases hend : (buf.take size).length ≤ offset
      · rw [skipNameFrom_ended hend]
        exact ⟨Nat.le_add_right _ _, fun _ => hend⟩
      obtain ⟨passes, rfl⟩ : ∃ fewer, passes = fewer + 1 := ⟨passes - 1, by omega⟩
      cases ending with
      | root =>
          rw [skipNameFrom, getElem?_received (by omega) hbuf]
          exact ⟨le_refl _, fun hlt => absurd hlt (lt_irrefl _)⟩
      | pointer high low =>
          have hhigh : 192 ≤ high.toNat := h.ending
          rw [skipNameFrom, getElem?_received (by omega) hbuf]
          dsimp only
          rw [if_neg (Dns.pointer_ne_zero hhigh), if_pos (isPointer_of_le hhigh)]
          exact ⟨le_refl _, fun hlt => absurd hlt (lt_irrefl _)⟩
  | cons label labels ih =>
      obtain ⟨hlabel, hlabels⟩ := List.forall_mem_cons.mp h.labels
      rw [Dns.encode_cons] at hbuf ⊢
      rw [List.length_cons, List.length_append]
      by_cases hend : (buf.take size).length ≤ offset
      · rw [skipNameFrom_ended hend]
        exact ⟨Nat.le_add_right _ _, fun _ => hend⟩
      obtain ⟨passes, rfl⟩ : ∃ fewer, passes = fewer + 1 := ⟨passes - 1, by omega⟩
      have hlength := Dns.toNat_labelLength hlabel.2
      have hroot := Dns.labelLength_ne_zero hlabel
      have hpointer : ¬isPointer (UInt8.ofNat label.length) = true := by
        rw [not_isPointer_of_le label.length hlabel.2]
        exact Bool.false_ne_true
      have hnext : buf.drop (offset + 1 + label.length) =
          (Dns.Name.mk labels ending).encode ++ rest := by
        rw [← List.drop_drop, ← List.drop_drop, hbuf, List.cons_append, List.drop_succ_cons,
          List.drop_zero, List.append_assoc, List.drop_left]
      have hfewer : (buf.take size).length ≤ offset + 1 + label.length + passes := by omega
      have hskip := ih passes hfewer ⟨hlabels, h.ending⟩ hnext
      rw [skipNameFrom, getElem?_received (by omega) hbuf]
      dsimp only
      rw [if_neg hroot, if_neg hpointer, hlength]
      omega

theorem decodeNameFrom_offset {data rest : Bytes} {name : Dns.Name} (h : name.Valid) {fuel : Nat}
    {read : Bytes} {first : Bool} {offset : Nat} (hdata : data.drop offset = name.encode ++ rest)
    {decoded : Bytes × Nat} (hdecode : decodeNameFrom data fuel read first offset = some decoded) :
    decoded.2 = offset + name.encode.length := by
  obtain ⟨labels, ending⟩ := name
  induction labels generalizing fuel read first offset with
  | nil =>
      cases fuel with
      | zero => cases hdecode
      | succ fuel =>
          have hbyte (i : Nat) : data[offset + i]? = (ending.encode ++ rest)[i]? := by
            rw [← List.getElem?_drop, hdata]
            rfl
          have hhead := hbyte 0
          have hlow := hbyte 1
          cases ending with
          | root =>
              change data[offset]? = some 0 at hhead
              rw [decodeNameFrom, hhead] at hdecode
              cases hdecode
              rfl
          | pointer high low =>
              have hhigh : 192 ≤ high.toNat := h.ending
              change data[offset]? = some high at hhead
              change data[offset + 1]? = some low at hlow
              rw [decodeNameFrom, hhead] at hdecode
              dsimp only at hdecode
              rw [if_neg (Dns.pointer_ne_zero hhigh), if_pos (isPointer_of_le hhigh),
                hlow] at hdecode
              obtain ⟨target, _, rfl⟩ := Option.map_eq_some_iff.mp hdecode
              rfl
  | cons label labels ih =>
      obtain ⟨hlabel, hlabels⟩ := List.forall_mem_cons.mp h.labels
      have hdata' : data.drop offset =
          encodeLabel label ++ ((Dns.Name.mk labels ending).encode ++ rest) := by
        rw [hdata, Dns.encode_cons, encodeLabel, List.cons_append, List.cons_append,
          List.append_assoc]
      have hnext : data.drop (offset + (encodeLabel label).length) =
          (Dns.Name.mk labels ending).encode ++ rest := by
        rw [← List.drop_drop, hdata', List.drop_left]
      cases fuel with
      | zero => cases hdecode
      | succ fuel =>
          rw [decodeNameFrom_label hdata' hlabel.1 hlabel.2] at hdecode
          have hoffset := ih hdecode ⟨hlabels, h.ending⟩ hnext
          rw [hoffset, Dns.encode_cons, encodeLabel]
          simp only [List.length_cons, List.length_append]
          omega

theorem lt_skipQuestion {data : Bytes} {offset : Nat} (h : offset < data.length) :
    offset < skipQuestion data offset := by
  have hname : offset < skipName data offset := by
    unfold skipName
    obtain ⟨passes, hpasses⟩ : ∃ fewer, data.length = fewer + 1 := ⟨data.length - 1, by omega⟩
    rw [hpasses, skipNameFrom, List.getElem?_eq_getElem h]
    dsimp only
    split_ifs
    · omega
    · omega
    · have hnext := le_skipNameFrom data passes (offset + 1 + data[offset].toNat)
      omega
  unfold skipQuestion
  dsimp only
  split_ifs <;> omega

theorem skipQuestions_ended {data : Bytes} {offset : Nat} (h : data.length ≤ offset)
    (count : Nat) : skipQuestions data count offset = offset := by
  cases count with
  | zero => rfl
  | succ count => rw [skipQuestions, if_neg (by omega)]

theorem lt_skipQuestions {data : Bytes} {offset count : Nat} (h : offset < data.length)
    (hcount : count ≠ 0) : offset < skipQuestions data count offset := by
  obtain ⟨count, rfl⟩ := Nat.exists_eq_succ_of_ne_zero hcount
  rw [skipQuestions, if_pos h]
  exact Nat.lt_of_lt_of_le (lt_skipQuestion h) (le_skipQuestions data count _)

theorem length_question (question : Dns.Question) :
    question.encode.length = question.name.encode.length + 4 := by
  rw [Dns.Question.encode, List.length_append]
  rfl

theorem skipQuestion_question {data more : Bytes} {offset : Nat} {question : Dns.Question}
    (h : question.name.Valid) (hdata : data.drop offset = question.encode ++ more) :
    skipQuestion data offset = offset + question.encode.length := by
  have hlength := congrArg List.length hdata
  rw [List.length_drop, List.length_append, length_question] at hlength
  have hname : data.drop offset = question.name.encode ++
      (Dns.encodeWord question.qtype ++ Dns.encodeWord question.qclass ++ more) := by
    rw [hdata, Dns.Question.encode, List.append_assoc]
  have hskip := skipNameFrom_name data.length data.length h hname
  rw [List.take_length] at hskip
  obtain ⟨hle, hge⟩ := hskip (by omega)
  have hstop : skipName data offset = offset + question.name.encode.length := by
    unfold skipName
    omega
  rw [skipQuestion, hstop, length_question, if_pos (by omega)]
  omega

namespace MdnsResponder

/-- The first question of a datagram lies in the datagram, is followed by nothing that
is announced as a further question, and is announced itself. -/
def AsksOneQuestion (datagram : Bytes) : Prop :=
  ∃ (question : Dns.Question) (more : Bytes), question.name.Valid ∧
    datagram.drop qStart = question.encode ++ more ∧
    (qdcount datagram = 1 ∨ 1 < qdcount datagram ∧ more = [])

/-- A response is sent only where the type of the first question lies in the data. -/
theorem type_inside_of_match {self : MdnsResponder} {fuel : Nat} {data rest : Bytes}
    {name : Dns.Name} (h : name.Valid) (hdata : data.drop qStart = name.encode ++ rest)
    (hmatch : self.queryMatches fuel data = some true) : 4 ≤ rest.length := by
  obtain ⟨decoded, hdecode, hmatch⟩ := Option.map_eq_some_iff.mp hmatch
  have hoffset := decodeNameFrom_offset h hdata hdecode
  have hlength := congrArg List.length hdata
  rw [List.length_drop, List.length_append] at hlength
  by_contra hshort
  have hzero : self.isMatch decoded.1 0 = false := by
    simp [isMatch, rrTypePtr, rrTypeSrv, rrTypeTxt, rrTypeA, rrTypeAny]
  dsimp only at hmatch
  rw [if_neg (by omega), hzero] at hmatch
  cases hmatch

/-- The range ends behind a question exactly when no other question is taken for
announced. -/
theorem qEnd_eq_iff {data more : Bytes} {question : Dns.Question}
    (hvalid : question.name.Valid) (hdata : data.drop qStart = question.encode ++ more) :
    qEnd data = qStart + question.encode.length ↔
      (qdcount data = 1 ∨ 1 < qdcount data ∧ more = []) := by
  have hsize := length_question question
  have hlength := congrArg List.length hdata
  rw [List.length_drop, List.length_append] at hlength
  cases hcount : qdcount data with
  | zero =>
      rw [qEnd, hcount, skipQuestions]
      omega
  | succ count =>
      rw [qEnd, hcount, skipQuestions, if_pos (by omega), skipQuestion_question hvalid hdata]
      constructor
      · intro hrange
        by_cases hzero : count = 0
        · left
          omega
        · right
          refine ⟨by omega, List.length_eq_zero_iff.mp ?_⟩
          by_contra hmore
          have hinside : qStart + question.encode.length < data.length := by omega
          have hlonger := lt_skipQuestions hinside hzero
          omega
      · rintro (hone | ⟨_, hmore⟩)
        · have hzero : count = 0 := by omega
          rw [hzero]
          rfl
        · rw [hmore, List.length_nil] at hlength
          exact skipQuestions_ended (by omega) count

/-- A name that the end of the data cuts off is echoed without its type. -/
theorem qEnd_le_of_cut {buf rest : Bytes} {size : Nat} {name : Dns.Name} (h : name.Valid)
    (hbuf : buf.drop qStart = name.encode ++ rest)
    (hcut : (buf.take size).length < qStart + name.encode.length) :
    qEnd (buf.take size) ≤ qStart + name.encode.length := by
  obtain ⟨hle, hge⟩ := skipNameFrom_name size (buf.take size).length h hbuf (by omega)
  change skipName (buf.take size) qStart ≤ _ at hle
  change skipName (buf.take size) qStart < _ → _ ≤ skipName (buf.take size) qStart at hge
  have hbehind : (buf.take size).length ≤ skipName (buf.take size) qStart := by omega
  have hnotype : skipQuestion (buf.take size) qStart = skipName (buf.take size) qStart := by
    rw [skipQuestion, if_neg (by omega)]
  rw [qEnd]
  cases qdcount (buf.take size) with
  | zero => exact Nat.le_add_right _ _
  | succ count =>
      rw [skipQuestions, hnotype, skipQuestions_ended hbehind]
      split_ifs
      · exact hle
      · exact Nat.le_add_right _ _

variable {self : MdnsResponder} {fuel size : Nat}

theorem echoed_iff (hmatch : self.queryMatches fuel (self.recvBuf.take size) = some true)
    (hend : qEnd (self.recvBuf.take size) ≤ self.recvBuf.length) :
    (∃ question : Dns.Question, question.name.Valid ∧
        (self.recvBuf.take (qEnd (self.recvBuf.take size))).drop qStart = question.encode) ↔
      AsksOneQuestion (self.recvBuf.take size) := by
  constructor
  · rintro ⟨question, hvalid, hechoed⟩
    have hsize := length_question question
    have hstart := qStart_le_qEnd (self.recvBuf.take size)
    have hstop : qEnd (self.recvBuf.take size) = qStart + question.encode.length := by
      rw [← hechoed, List.length_drop, List.length_take_of_le hend]
      omega
    have hbuf : self.recvBuf.drop qStart =
        question.encode ++ self.recvBuf.drop (qEnd (self.recvBuf.take size)) := by
      rw [← hechoed, ← List.drop_append_of_le_length, List.take_append_drop]
      rw [List.length_take_of_le hend]
      exact hstart
    have hname : self.recvBuf.drop qStart = question.name.encode ++
        (Dns.encodeWord question.qtype ++ Dns.encodeWord question.qclass ++
          self.recvBuf.drop (qEnd (self.recvBuf.take size))) := by
      rw [hbuf, Dns.Question.encode, List.append_assoc]
    have hnameInside :
        qStart + question.name.encode.length ≤ (self.recvBuf.take size).length := by
      by_contra hcut
      have hshort := qEnd_le_of_cut hvalid hname (Nat.lt_of_not_le hcut)
      omega
    -- what matched has a type, and so the whole question is there
    have htype := type_inside_of_match hvalid (drop_received hname hnameInside) hmatch
    rw [List.length_drop] at htype
    have hinside : qStart + question.encode.length ≤ (self.recvBuf.take size).length := by
      omega
    have hdata := drop_received hbuf hinside
    exact ⟨question, _, hvalid, hdata, (qEnd_eq_iff hvalid hdata).mp hstop⟩
  · rintro ⟨question, more, hvalid, hdata, hcount⟩
    have hlength := congrArg List.length hdata
    rw [List.length_drop, List.length_append, List.length_take] at hlength
    refine ⟨question, hvalid, ?_⟩
    rw [List.drop_take] at hdata
    rw [(qEnd_eq_iff hvalid (by rw [List.drop_take, hdata])).mpr hcount, List.drop_take,
      Nat.add_sub_cancel_left]
    calc (self.recvBuf.drop qStart).take question.encode.length
        = ((self.recvBuf.drop qStart).take (size - qStart)).take question.encode.length := by
          rw [List.take_take, Nat.min_eq_left (by omega)]
      _ = question.encode := by rw [hdata, List.take_left]

theorem match_of_response {ec : Bool} {remote dest : Endpoint} {packet : Bytes}
    {self' : MdnsResponder}
    (h : self.handleReceive fuel ec remote size = some (.response dest packet, self')) :
    self.queryMatches fuel (self.recvBuf.take size) = some true ∧
      qEnd (self.recvBuf.take size) ≤ self.recvBuf.length ∧
      packet = self.sendResponse (readU16 (self.recvBuf.take size) 0)
        ((self.recvBuf.take (qEnd (self.recvBuf.take size))).drop qStart) := by
  obtain ⟨hmatch, hreply⟩ := match_of_reply h nofun
  by_cases hend : qEnd (self.recvBuf.take size) ≤ self.recvBuf.length
  · rw [if_pos hend] at hreply
    cases hreply
    exact ⟨hmatch, hend, rfl⟩
  · rw [if_neg hend] at hreply
    cases hreply

end MdnsResponder

open MdnsResponder

/-- The packet is a message with these numbers of questions, answers, authority records
and additional records, and nothing else. -/
def HasCounts (packet : Bytes) (qdcount ancount nscount arcount : Nat) : Prop :=
  ∃ message, Dns.parseMessage packet = some message ∧ message.questions.length = qdcount ∧
    message.answers.length = ancount ∧ message.authority.length = nscount ∧
    message.additional.length = arcount

/-- A response is the message of one question and the four records of the broker exactly
when the datagram asks one question and the name of the instance fits into a record.
Then its header states what it holds. -/
theorem response_well_formed_iff (self : MdnsResponder) (hostname : Bytes)
    (h : self.Advertises hostname) (hfit : LabelsFit hostname)
    (hip : ∀ address, self.ip = some address → address.length = 4) (fuel : Nat) (ec : Bool)
    (remote dest : Endpoint) (bytes : Nat) (packet : Bytes) (self' : MdnsResponder)
    (hsent : self.handleReceive fuel ec remote bytes = some (.response dest packet, self')) :
    ((∃ question, Dns.parseMessage packet =
        some (self.responseMessage (readU16 (self.recvBuf.take bytes) 0) question)) ↔
      AsksOneQuestion (self.recvBuf.take bytes) ∧ hostname.length ≤ 65516) ∧
    (AsksOneQuestion (self.recvBuf.take bytes) ∧ hostname.length ≤ 65516 →
      HasCounts packet 1 1 0 3) := by
  obtain ⟨hmatch, hend, hpacket⟩ := match_of_response hsent
  have hiff : (∃ question, Dns.parseMessage packet =
        some (self.responseMessage (readU16 (self.recvBuf.take bytes) 0) question)) ↔
      AsksOneQuestion (self.recvBuf.take bytes) ∧ hostname.length ≤ 65516 := by
    rw [hpacket, parse_sendResponse_iff hip h hfit, echoed_iff hmatch hend]
  refine ⟨hiff, ?_⟩
  intro hasks
  obtain ⟨question, hparse⟩ := hiff.mpr hasks
  exact ⟨_, hparse, rfl, rfl, rfl, rfl⟩

theorem response_well_formed_single :
    AsksOneQuestion ((sampleResponder.fill (queryHeader 1 ++ anyQuestion)).recvBuf.take 17) ∧
    ∃ packet self', (sampleResponder.fill (queryHeader 1 ++ anyQuestion)).handleReceive 1 false 0
        17 = some (.response 0 packet, self') ∧
      (∃ question, Dns.parseMessage packet =
        some ((sampleResponder.fill (queryHeader 1 ++ anyQuestion)).responseMessage
          (readU16 ((sampleResponder.fill (queryHeader 1 ++ anyQuestion)).recvBuf.take 17) 0)
          question)) ∧
      HasCounts packet 1 1 0 3 := by
  have hmatch : sampleResponder.queryMatches 1 (queryHeader 1 ++ anyQuestion) = some true := by
    decide +kernel
  have hsent := receive_of_match rfl (by decide) (by decide) hmatch 0
  rw [if_pos (by decide +kernel)] at hsent
  have hasks : AsksOneQuestion
      ((sampleResponder.fill (queryHeader 1 ++ anyQuestion)).recvBuf.take 17) := by
    refine ⟨⟨⟨[], .root⟩, 255, 1⟩, [], ⟨nofun, trivial⟩, ?_, .inl ?_⟩
    · decide +kernel
    · decide +kernel
  obtain ⟨hiff, hcounts⟩ := response_well_formed_iff
    (sampleResponder.fill (queryHeader 1 ++ anyQuestion)) [0x68] ⟨rfl, rfl, rfl⟩ (by decide)
    nofun 1 false 0 0 17 _ _ hsent
  exact ⟨hasks, _, _, hsent, hiff.mpr ⟨hasks, by decide⟩, hcounts ⟨hasks, by decide⟩⟩

theorem not_hasCounts_of_none {packet : Bytes} (h : Dns.parseMessage packet = none)
    (qdcount ancount nscount arcount : Nat) :
    ¬HasCounts packet qdcount ancount nscount arcount := by
  rintro ⟨message, hparse, _⟩
  rw [h] at hparse
  cases hparse

/-- Two questions are echoed under a header that states one, and a query that announces
no question gets a response without any.  Neither packet is a message. -/
theorem response_two_questions :
    (∃ packet self', sampleResponder.receive 1 0 (queryHeader 2 ++ anyQuestion ++ anyQuestion) =
      some (.response 0 packet, self') ∧ ¬HasCounts packet 1 1 0 3) ∧
    (∃ packet self', sampleResponder.receive 1 0 (queryHeader 0 ++ anyQuestion) =
      some (.response 0 packet, self') ∧ ¬HasCounts packet 1 1 0 3) := by
  constructor
  · rw [receive_of_match rfl (by decide) (by decide) (by decide +kernel),
      if_pos (by decide +kernel)]
    refine ⟨_, _, rfl, not_hasCounts_of_none ?_ 1 1 0 3⟩
    decide +kernel
  · rw [receive_of_match rfl (by decide) (by decide) (by decide +kernel),
      if_pos (by decide +kernel)]
    refine ⟨_, _, rfl, not_hasCounts_of_none ?_ 1 1 0 3⟩
    decide +kernel

-- Surplus questions may happen to read as a record whose data are the rest of them and
-- the PTR record.  The counts are then right, but the answer is not the broker's.
example :
    qEnd (queryHeader 3 ++ (anyQuestion ++ anyQuestion ++ [5, 0, 0, 0, 0, 53] ++ anyQuestion)) =
      33 ∧
    ((Dns.parseMessage (sampleResponder.sendResponse 7
        (anyQuestion ++ anyQuestion ++ [5, 0, 0, 0, 0, 53] ++ anyQuestion))).map
      fun message => (message.answers.length, message.additional.length,
        message.answers.map fun answer => answer.type)) = some (1, 3, [rrTypeAny]) := by
  decide +kernel

end JellyBroker.Mdns
