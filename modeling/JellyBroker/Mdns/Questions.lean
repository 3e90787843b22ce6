import JellyBroker.Mdns.Names
/-!
# The echoed questions

`handle_receive` walks over the questions of a datagram to find the range that it
echoes.  It compares its offset with the end of the datagram before it reads a
byte, but not after it has skipped what the byte announces.  `recv_buf_` holds
older datagrams behind the end.
-/

namespace JellyBroker.Mdns

/-! ## Questions that lie in the data -/

/-- A name at the front of the data, and the data behind it.  The data may end
between two labels. -/
inductive NameLeaves : Bytes → Bytes → Prop
  | ended : NameLeaves [] []
  | root (rest : Bytes) : NameLeaves (0 :: rest) rest
  | pointer {b : UInt8} (hpointer : isPointer b = true) (low : UInt8) (rest : Bytes) :
      NameLeaves (b :: low :: rest) rest
  | label {b : UInt8} (hroot : b ≠ 0) (hpointer : isPointer b = false) {label rest after : Bytes}
      (hlength : label.length = b.toNat) (hrest : NameLeaves rest after) :
      NameLeaves (b :: (label ++ rest)) after

def withoutType (data : Bytes) : Bytes := if 4 ≤ data.length then data.drop 4 else data

/-- At most `count` questions of which no name is cut off by the end of the
data. -/
inductive QuestionsFit : Nat → Bytes → Prop
  | counted (data : Bytes) : QuestionsFit 0 data
  | ended (count : Nat) : QuestionsFit count []
  | question {count : Nat} {data after : Bytes} (hname : NameLeaves data after)
      (hrest : QuestionsFit count (withoutType after)) : QuestionsFit (count + 1) data

theorem drop_eq_cons {data : Bytes} {offset : Nat} {b : UInt8} (h : data[offset]? = some b) :
    data.drop offset = b :: data.drop (offset + 1) := by
  obtain ⟨hlt, hbyte⟩ := List.getElem?_eq_some_iff.mp h
  rw [List.drop_eq_getElem_cons hlt, hbyte]

/-! ## The loops of `handle_receive` -/

theorem le_skipNameFrom (data : Bytes) (passes offset : Nat) :
    offset ≤ skipNameFrom data passes offset := by
  induction passes generalizing offset with
  | zero => exact le_refl offset
  | succ passes ih =>
      unfold skipNameFrom
      cases data[offset]? with
      | none => exact le_refl offset
      | some b =>
          dsimp only
          split_ifs
          · omega
          · omega
          · have hnext := ih (offset + 1 + b.toNat)
            omega

theorem le_skipQuestion (data : Bytes) (offset : Nat) : offset ≤ skipQuestion data offset := by
  have hname := le_skipNameFrom data data.length offset
  unfold skipQuestion skipName
  dsimp only
  split_ifs <;> omega

theorem le_skipQuestions (data : Bytes) (count offset : Nat) :
    offset ≤ skipQuestions data count offset := by
  induction count generalizing offset with
  | zero => exact le_refl offset
  | succ count ih =>
      unfold skipQuestions
      split_ifs
      · exact (le_skipQuestion data offset).trans (ih _)
      · exact le_refl offset

theorem nameLeaves_label {data : Bytes} {b : UInt8} (hroot : b ≠ 0) (hpointer : isPointer b = false)
    {after : Bytes} :
    NameLeaves (b :: data) after ↔
      b.toNat ≤ data.length ∧ NameLeaves (data.drop b.toNat) after := by
  constructor
  · intro h
    cases h with
    | root => exact absurd rfl hroot
    | pointer hpointer' =>
        rw [hpointer] at hpointer'
        cases hpointer'
    | @label _ _ _ label rest _ hlength hrest =>
        rw [← hlength, List.drop_left]
        exact ⟨by simp, hrest⟩
  · rintro ⟨hfits, hrest⟩
    rw [← List.take_append_drop b.toNat data]
    exact .label hroot hpointer (List.length_take_of_le hfits) hrest

theorem nameLeaves_nil {after : Bytes} : NameLeaves [] after ↔ after = [] := by
  constructor
  · intro h
    cases h
    rfl
  · rintro rfl
    exact .ended

theorem nameLeaves_root {data after : Bytes} : NameLeaves (0 :: data) after ↔ data = after := by
  constructor
  · intro h
    cases h with
    | root => rfl
    | pointer hpointer => cases hpointer
    | label hroot => exact absurd rfl hroot
  · rintro rfl
    exact .root data

theorem nameLeaves_pointer {data after : Bytes} {b : UInt8} (hpointer : isPointer b = true) :
    NameLeaves (b :: data) after ↔ 1 ≤ data.length ∧ data.drop 1 = after := by
  constructor
  · intro h
    cases h with
    | root => cases hpointer
    | pointer _ low rest => exact ⟨by simp, rfl⟩
    | label _ hplain =>
        rw [hplain] at hpointer
        cases hpointer
  · rintro ⟨hlength, rfl⟩
    cases data with
    | nil => cases hlength
    | cons low rest => exact .pointer hpointer low rest

/-- The loop over the labels stays in the data exactly when the name does, and
then it stops behind the name. -/
theorem nameLeaves_iff {data after : Bytes} {passes offset : Nat}
    (hpasses : data.length ≤ offset + passes) (hoffset : offset ≤ data.length) :
    NameLeaves (data.drop offset) after ↔
      skipNameFrom data passes offset ≤ data.length ∧
        data.drop (skipNameFrom data passes offset) = after := by
  induction passes generalizing offset with
  | zero =>
      have hend : data.drop offset = [] := List.drop_eq_nil_of_le (by omega)
      rw [skipNameFrom, hend, nameLeaves_nil]
      constructor
      · intro hafter
        exact ⟨hoffset, hafter.symm⟩
      · rintro ⟨_, hafter⟩
        exact hafter.symm
  | succ passes ih =>
      unfold skipNameFrom
      cases hbyte : data[offset]? with
      | none =>
          have hend : data.drop offset = [] :=
            List.drop_eq_nil_of_le (List.getElem?_eq_none_iff.mp hbyte)
          dsimp only
          rw [hend, nameLeaves_nil]
          constructor
          · intro hafter
            exact ⟨hoffset, hafter.symm⟩
          · rintro ⟨_, hafter⟩
            exact hafter.symm
      | some b =>
          have hlt : offset < data.length := (List.getElem?_eq_some_iff.mp hbyte).1
          dsimp only
          rw [drop_eq_cons hbyte]
          split_ifs with hroot hpointer
          · rw [hroot, nameLeaves_root]
            simp only [Nat.succ_le_of_lt hlt, true_and]
          · rw [nameLeaves_pointer hpointer, List.length_drop, List.drop_drop]
            have hlow : 1 ≤ data.length - (offset + 1) ↔ offset + 2 ≤ data.length := by omega
            rw [hlow]
          · rw [nameLeaves_label hroot (Bool.eq_false_iff.mpr hpointer), List.length_drop,
              List.drop_drop]
            by_cases hfits : offset + 1 + b.toNat ≤ data.length
            · have hlabel : b.toNat ≤ data.length - (offset + 1) := by omega
              rw [ih (by omega) hfits]
              simp only [hlabel, true_and]
            · have hbehind := le_skipNameFrom data passes (offset + 1 + b.toNat)
              constructor
              · rintro ⟨hlabel, _⟩
                omega
              · rintro ⟨hinside, _⟩
                omega

theorem withoutType_drop (data : Bytes) (offset : Nat) :
    withoutType (data.drop offset) =
      data.drop (if offset + 4 ≤ data.length then offset + 4 else offset) := by
  unfold withoutType
  rw [List.length_drop]
  by_cases hfits : offset + 4 ≤ data.length
  · rw [if_pos (by omega), if_pos hfits, List.drop_drop]
  · rw [if_neg (by omega), if_neg hfits]

theorem questionsFit_succ {data : Bytes} (hdata : data ≠ []) {count : Nat} :
    QuestionsFit (count + 1) data ↔
      ∃ after, NameLeaves data after ∧ QuestionsFit count (withoutType after) := by
  constructor
  · intro h
    cases h with
    | ended => exact absurd rfl hdata
    | question hname hrest => exact ⟨_, hname, hrest⟩
  · rintro ⟨after, hname, hrest⟩
    exact .question hname hrest

/-- The loop over the questions stays in the data exactly when their names do. -/
theorem skipQuestions_le_iff {data : Bytes} {count offset : Nat} (hoffset : offset ≤ data.length) :
    skipQuestions data count offset ≤ data.length ↔ QuestionsFit count (data.drop offset) := by
  induction count generalizing offset with
  | zero => exact iff_of_true hoffset (.counted _)
  | succ count ih =>
      unfold skipQuestions
      by_cases hend : offset < data.length
      · have hname (after : Bytes) : NameLeaves (data.drop offset) after ↔
            skipName data offset ≤ data.length ∧ data.drop (skipName data offset) = after :=
          nameLeaves_iff (by omega) hoffset
        have hne : data.drop offset ≠ [] := by
          intro hnil
          have hlength := List.drop_eq_nil_iff.mp hnil
          omega
        rw [if_pos hend, questionsFit_succ hne]
        simp only [hname]
        by_cases hinside : skipName data offset ≤ data.length
        · have hnext : skipQuestion data offset ≤ data.length := by
            unfold skipQuestion
            dsimp only
            split_ifs <;> omega
          rw [ih hnext]
          simp only [hinside, true_and, exists_eq_left', withoutType_drop]
          rfl
        · have hbehind := le_skipQuestions data count (skipQuestion data offset)
          have hskip : skipQuestion data offset = skipName data offset := by
            unfold skipQuestion
            dsimp only
            rw [if_neg (by omega)]
          constructor
          · intro hle
            omega
          · rintro ⟨_, ⟨hle, _⟩, _⟩
            exact absurd hle hinside
      · have hnil : data.drop offset = [] := List.drop_eq_nil_of_le (by omega)
        rw [if_neg hend, hnil]
        exact iff_of_true hoffset (.ended _)

/-! ## What is echoed -/

namespace MdnsResponder

/-- The names of the questions that the header announces lie in the datagram. -/
def WellFormed (datagram : Bytes) : Prop :=
  QuestionsFit (qdcount datagram) (datagram.drop qStart)

def EchoesDatagram (self : MdnsResponder) (remote : Endpoint) (datagram : Bytes) : Reply → Prop
  | .silent => True
  | .response dest packet => dest = remote ∧ ∃ stop, qStart ≤ stop ∧ stop ≤ datagram.length ∧
      packet = self.sendResponse (readU16 datagram 0) ((datagram.take stop).drop qStart)
  | .overread => False

theorem qEnd_le_iff {datagram : Bytes} (h : qStart ≤ datagram.length) :
    qEnd datagram ≤ datagram.length ↔ WellFormed datagram :=
  skipQuestions_le_iff h

theorem qStart_le_qEnd (datagram : Bytes) : qStart ≤ qEnd datagram :=
  le_skipQuestions datagram (qdcount datagram) qStart

theorem take_fill (self : MdnsResponder) {datagram : Bytes} (h : datagram.length ≤ bufSize)
    {stop : Nat} (hstop : stop ≤ datagram.length) :
    (self.fill datagram).recvBuf.take stop = datagram.take stop := by
  change (datagram.take bufSize ++ self.recvBuf.drop datagram.length).take stop = _
  rw [List.take_of_length_le h, List.take_append_of_le_length hstop]

theorem length_sendResponse (self : MdnsResponder) (id : UInt16) (question : Bytes) :
    (self.sendResponse id question).length =
      (self.sendResponse id []).length + question.length := by
  unfold sendResponse
  simp only [List.length_append, List.length_nil]
  omega

theorem match_of_reply {self self' : MdnsResponder} {fuel size : Nat} {ec : Bool}
    {remote : Endpoint} {reply : Reply}
    (h : self.handleReceive fuel ec remote size = some (reply, self')) (hreply : reply ≠ .silent) :
    self.queryMatches fuel (self.recvBuf.take size) = some true ∧
      reply = if qEnd (self.recvBuf.take size) ≤ self.recvBuf.length then
          .response remote (self.sendResponse (readU16 (self.recvBuf.take size) 0)
            ((self.recvBuf.take (qEnd (self.recvBuf.take size))).drop qStart))
        else .overread := by
  unfold handleReceive at h
  by_cases hoff : (ec || !self.running) = true
  · rw [if_pos hoff] at h
    cases h
    exact absurd rfl hreply
  · rw [if_neg hoff] at h
    obtain ⟨sent, hanswer, hsent⟩ := Option.map_eq_some_iff.mp h
    cases hsent
    unfold answer at hanswer
    dsimp only at hanswer
    by_cases hmin : size ≥ 12
    · rw [if_pos hmin] at hanswer
      obtain ⟨matched, hmatch, hsent⟩ := Option.map_eq_some_iff.mp hanswer
      cases matched with
      | false => exact absurd hsent.symm hreply
      | true => exact ⟨hmatch, hsent.symm⟩
    · rw [if_neg hmin] at hanswer
      cases hanswer
      exact absurd rfl hreply

/-- A datagram that matches is answered with the range that the loops found, if the
range lies in the buffer. -/
theorem receive_of_match {self : MdnsResponder} {fuel : Nat} {datagram : Bytes}
    (hrunning : self.running = true) (hmin : 12 ≤ datagram.length)
    (hmax : datagram.length ≤ bufSize) (hmatch : self.queryMatches fuel datagram = some true)
    (remote : Endpoint) :
    self.receive fuel remote datagram =
      some (if qEnd datagram ≤ bufSize then
          .response remote (self.sendResponse (readU16 datagram 0)
            (((self.fill datagram).recvBuf.take (qEnd datagram)).drop qStart))
        else .overread, (self.fill datagram).doReceive) := by
  have hdata : (self.fill datagram).recvBuf.take datagram.length = datagram := by
    rw [take_fill self hmax (le_refl _), List.take_length]
  have hrunning' : (self.fill datagram).running = true := hrunning
  have hmatch' : (self.fill datagram).queryMatches fuel datagram = some true := hmatch
  unfold receive handleReceive answer
  rw [Nat.min_eq_left hmax, hdata, hrunning']
  dsimp only
  rw [hmatch', (self.fill datagram).recvBuf_length, if_pos hmin]
  rfl

/-- A running responder gets done with a datagram exactly when the name of its
first question meets no cycle. -/
theorem receive_returns_iff {self : MdnsResponder} (hrunning : self.running = true)
    (remote : Endpoint) {datagram : Bytes} (hmin : 12 ≤ datagram.length)
    (hmax : datagram.length ≤ bufSize) :
    (∃ fuel, (self.receive fuel remote datagram).isSome = true) ↔
      ¬Lib.Walk.MeetsCycle (follow datagram) qStart := by
  have hdata : (self.fill datagram).recvBuf.take datagram.length = datagram := by
    rw [take_fill self hmax (le_refl _), List.take_length]
  have hrunning' : (self.fill datagram).running = true := hrunning
  have hdecode (fuel : Nat) : (self.receive fuel remote datagram).isSome =
      (decodeName datagram fuel qStart).isSome := by
    unfold receive handleReceive answer queryMatches
    rw [Nat.min_eq_left hmax, hdata, hrunning']
    dsimp only
    rw [if_pos hmin]
    simp
  simp only [hdecode]
  exact exists_decodeName_iff datagram qStart

end MdnsResponder

open MdnsResponder

/-- The range of the questions begins behind the header and ends in the datagram
exactly when no name of a question is cut off by the end of the datagram.  Only
then does an answered datagram get its own bytes back and no others. -/
theorem question_range_inside_iff (self : MdnsResponder) (fuel : Nat) (remote : Endpoint)
    (datagram : Bytes) (hmin : 12 ≤ datagram.length) (hmax : datagram.length ≤ bufSize) :
    ((qStart ≤ qEnd datagram ∧ qEnd datagram ≤ datagram.length) ↔ WellFormed datagram) ∧
    (self.running = true → self.queryMatches fuel datagram = some true →
      ∃ reply self', self.receive fuel remote datagram = some (reply, self') ∧
        (self.EchoesDatagram remote datagram reply ↔ WellFormed datagram)) := by
  have hrange : (qStart ≤ qEnd datagram ∧ qEnd datagram ≤ datagram.length) ↔
      WellFormed datagram := by
    rw [← qEnd_le_iff hmin]
    exact and_iff_right (qStart_le_qEnd datagram)
  refine ⟨hrange, fun hrunning hmatch => ?_⟩
  refine ⟨_, _, receive_of_match hrunning hmin hmax hmatch remote, ?_⟩
  rw [← hrange]
  by_cases hbuffer : qEnd datagram ≤ bufSize
  · rw [if_pos hbuffer]
    constructor
    · rintro ⟨_, stop, hstart, hstop, hpacket⟩
      -- a longer range makes a longer packet
      have hlength := congrArg List.length hpacket
      rw [length_sendResponse,
        length_sendResponse _ _ ((datagram.take stop).drop qStart)] at hlength
      have hfill := (self.fill datagram).recvBuf_length
      have hqEnd := qStart_le_qEnd datagram
      simp only [List.length_drop, List.length_take] at hlength
      omega
    · rintro ⟨hstart, hstop⟩
      rw [take_fill self hmax hstop]
      exact ⟨rfl, qEnd datagram, hstart, hstop, rfl⟩
  · rw [if_neg hbuffer]
    constructor
    · intro hfalse
      exact hfalse.elim
    · rintro ⟨_, hstop⟩
      omega

def sampleResponder : MdnsResponder := (MdnsResponder.create 1883 [0x68] none).start true true true

def queryHeader (qdcount : UInt8) : Bytes := [0, 7, 0, 0, 0, qdcount, 0, 0, 0, 0, 0, 0]

def anyQuestion : Bytes := [0, 0, 255, 0, 1]

theorem question_range_inside_single :
    WellFormed (queryHeader 1 ++ anyQuestion) ∧ sampleResponder.running = true ∧
    sampleResponder.queryMatches 1 (queryHeader 1 ++ anyQuestion) = some true ∧
    ∃ reply self', sampleResponder.receive 1 0 (queryHeader 1 ++ anyQuestion) =
        some (reply, self') ∧
      sampleResponder.EchoesDatagram 0 (queryHeader 1 ++ anyQuestion) reply := by
  have hfits : WellFormed (queryHeader 1 ++ anyQuestion) := by
    rw [← qEnd_le_iff (by decide)]
    decide
  have hmatch : sampleResponder.queryMatches 1 (queryHeader 1 ++ anyQuestion) = some true := by
    decide +kernel
  refine ⟨hfits, rfl, hmatch, ?_⟩
  obtain ⟨reply, self', hreceive, hiff⟩ := (question_range_inside_iff sampleResponder 1 0
    (queryHeader 1 ++ anyQuestion) (by decide) (by decide)).2 rfl hmatch
  exact ⟨reply, self', hreceive, hiff.mpr hfits⟩

/-- A second question of one byte, which announces a label of 63 bytes, makes the
responder echo 63 bytes of an older datagram.  A datagram of full size ends in a
label that leads behind the buffer. -/
theorem question_range_outside :
    qEnd (queryHeader 2 ++ anyQuestion ++ [0x3f]) = 81 ∧
    (queryHeader 2 ++ anyQuestion ++ [0x3f]).length = 18 ∧
    (sampleResponder.fill (List.replicate 100 0xAA)).receive 1 0
        (queryHeader 2 ++ anyQuestion ++ [0x3f]) =
      some (.response 0 (sampleResponder.sendResponse 7
          (anyQuestion ++ [0x3f] ++ List.replicate 63 0xAA)),
        ((sampleResponder.fill (List.replicate 100 0xAA)).fill
          (queryHeader 2 ++ anyQuestion ++ [0x3f])).doReceive) ∧
    sampleResponder.receive 1 0 (queryHeader 2 ++ anyQuestion ++ List.replicate 1483 0x3f) =
      some (.overread, (sampleResponder.fill
        (queryHeader 2 ++ anyQuestion ++ List.replicate 1483 0x3f)).doReceive) := by
  refine ⟨by decide +kernel, rfl, ?_, ?_⟩
  · rw [receive_of_match rfl (by decide) (by decide) (by decide +kernel)]
    have hecho : (((sampleResponder.fill (List.replicate 100 0xAA)).fill
          (queryHeader 2 ++ anyQuestion ++ [0x3f])).recvBuf.take
            (qEnd (queryHeader 2 ++ anyQuestion ++ [0x3f]))).drop qStart =
        anyQuestion ++ [0x3f] ++ List.replicate 63 0xAA := by decide +kernel
    rw [if_pos (by decide +kernel), hecho]
    rfl
  · rw [receive_of_match rfl (by decide +kernel) (by decide +kernel) (by decide +kernel),
      if_neg (by decide +kernel)]

end JellyBroker.Mdns
