import JellyBroker.Lib.Dns
import JellyBroker.Mdns.Questions
/-!
# The names of the broker

`encode_name` writes the labels between the dots of a name, and `decode_name` reads
them back in lower case.  The names that a question is compared with keep the letters
of the host name as they are.
-/

namespace JellyBroker.Mdns

open JellyBroker.Lib

/-! ## Encoding -/

def LabelsFit (name : Bytes) : Prop :=
  ∀ label ∈ name.splitOn dot, 1 ≤ label.length ∧ label.length ≤ 63

instance (name : Bytes) : Decidable (LabelsFit name) :=
  inferInstanceAs
    (Decidable (∀ label ∈ name.splitOn dot, 1 ≤ label.length ∧ label.length ≤ 63))

def wireLabels (labels : List Bytes) : Bytes := labels.flatMap encodeLabel

theorem encodeLabels_eq {label rest : Bytes} (hdot : dot ∉ label)
    (hlabels : ∀ part ∈ (label ++ rest).splitOn dot, part ≠ []) :
    encodeLabels label rest = wireLabels ((label ++ rest).splitOn dot) := by
  induction rest generalizing label with
  | nil =>
      rw [List.append_nil, List.splitOn_eq_singleton hdot] at hlabels ⊢
      have hlabel : label ≠ [] := hlabels label (List.mem_singleton.mpr rfl)
      simp [encodeLabels, wireLabels, hlabel]
  | cons c rest ih =>
      unfold encodeLabels
      split_ifs with hc
      · rw [hc, List.splitOn_append_cons_self_of_not_mem hdot] at hlabels ⊢
        have hrest : encodeLabels [] rest = wireLabels (rest.splitOn dot) :=
          ih List.not_mem_nil fun part hpart => hlabels part (List.mem_cons_of_mem _ hpart)
        rw [hrest]
        rfl
      · have hsplit : label ++ c :: rest = label ++ [c] ++ rest := by simp
        rw [hsplit] at hlabels ⊢
        apply ih _ hlabels
        simp only [List.mem_append, List.mem_singleton, not_or]
        exact ⟨hdot, Ne.symm hc⟩

theorem encodeName_eq {name : Bytes} (h : LabelsFit name) :
    encodeName name = wireLabels (name.splitOn dot) ++ [0] := by
  unfold encodeName
  rw [encodeLabels_eq (by simp)]
  · rfl
  · intro part hpart hnil
    have hlength := (h part hpart).1
    rw [hnil] at hlength
    cases hlength

/-! ## Decoding -/

theorem not_isPointer_of_le : ∀ n ≤ 63, isPointer (UInt8.ofNat n) = false := by
  decide

theorem decodeNameFrom_label {data label more : Bytes} {offset : Nat}
    (hdata : data.drop offset = encodeLabel label ++ more) (hmin : 1 ≤ label.length)
    (hmax : label.length ≤ 63) (fuel : Nat) (name : Bytes) (first : Bool) :
    decodeNameFrom data (fuel + 1) name first offset =
      decodeNameFrom data fuel (withDot name first ++ label.map toLower) false
        (offset + (encodeLabel label).length) := by
  have hlength := Dns.toNat_labelLength hmax
  have hbyte : data[offset]? = some (UInt8.ofNat label.length) := by
    have hhead : (data.drop offset)[0]? = some (UInt8.ofNat label.length) := by
      rw [hdata]
      rfl
    rw [List.getElem?_drop] at hhead
    exact hhead
  have hroot := Dns.labelLength_ne_zero ⟨hmin, hmax⟩
  have hlabel : (data.drop (offset + 1)).take label.length = label := by
    rw [← List.drop_drop, hdata]
    change (label ++ more).take label.length = label
    exact List.take_left
  have hpointer : ¬isPointer (UInt8.ofNat label.length) = true := by
    rw [not_isPointer_of_le label.length hmax]
    exact Bool.false_ne_true
  rw [decodeNameFrom, hbyte]
  dsimp only
  rw [if_neg hroot, if_neg hpointer, hlength, hlabel, if_neg (lt_irrefl _), encodeLabel,
    List.length_cons, Nat.add_assoc, Nat.add_comm 1]

def appendLabels (name : Bytes) (first : Bool) : List Bytes → Bytes
  | [] => name
  | label :: labels => appendLabels (withDot name first ++ label.map toLower) false labels

theorem decodeNameFrom_labels {data more : Bytes} {labels : List Bytes} {offset : Nat}
    (hdata : data.drop offset = wireLabels labels ++ 0 :: more)
    (hlabels : ∀ label ∈ labels, 1 ≤ label.length ∧ label.length ≤ 63) {fuel : Nat}
    (hfuel : labels.length < fuel) (name : Bytes) (first : Bool) :
    decodeNameFrom data fuel name first offset =
      some (appendLabels name first labels, offset + (wireLabels labels).length + 1) := by
  induction labels generalizing offset fuel name first with
  | nil =>
      obtain ⟨fuel, rfl⟩ : ∃ more, fuel = more + 1 := ⟨fuel - 1, by omega⟩
      have hbyte : data[offset]? = some 0 := by
        have hhead : (data.drop offset)[0]? = some 0 := by
          rw [hdata]
          rfl
        rw [List.getElem?_drop] at hhead
        exact hhead
      rw [decodeNameFrom, hbyte]
      rfl
  | cons label labels ih =>
      rw [List.length_cons] at hfuel
      obtain ⟨fuel, rfl⟩ : ∃ more, fuel = more + 1 := ⟨fuel - 1, by omega⟩
      have hfirst := hlabels label List.mem_cons_self
      have hdata' : data.drop offset = encodeLabel label ++ (wireLabels labels ++ 0 :: more) := by
        rw [hdata, wireLabels, List.flatMap_cons, List.append_assoc]
        rfl
      have hrest : data.drop (offset + (encodeLabel label).length) =
          wireLabels labels ++ 0 :: more := by
        rw [← List.drop_drop, hdata', List.drop_left]
      rw [decodeNameFrom_label hdata' hfirst.1 hfirst.2,
        ih hrest (fun other hother => hlabels other (List.mem_cons_of_mem _ hother)) (by omega)]
      have hlength : (wireLabels (label :: labels)).length =
          (encodeLabel label).length + (wireLabels labels).length := by
        rw [wireLabels, List.flatMap_cons, List.length_append]
        rfl
      rw [hlength, Nat.add_assoc offset]
      rfl

theorem toLower_dot : toLower dot = dot := rfl

theorem appendLabels_eq (name : Bytes) (labels : List Bytes) :
    appendLabels name false labels = name ++ (labels.flatMap (dot :: ·)).map toLower := by
  induction labels generalizing name with
  | nil => simp [appendLabels]
  | cons label labels ih =>
      rw [appendLabels, ih]
      simp [withDot, toLower_dot]

theorem intercalate_dot (label : Bytes) (labels : List Bytes) :
    [dot].intercalate (label :: labels) = label ++ labels.flatMap (dot :: ·) := by
  induction labels generalizing label with
  | nil => simp
  | cons next labels ih => rw [List.intercalate_cons_cons, ih]; simp

theorem appendLabels_splitOn (name : Bytes) :
    appendLabels [] true (name.splitOn dot) = name.map toLower := by
  have hjoin : [dot].intercalate (name.splitOn dot) = name := List.intercalate_splitOn dot
  cases hlabels : name.splitOn dot with
  | nil => exact absurd hlabels (List.splitOn_ne_nil dot name)
  | cons label labels =>
      rw [hlabels, intercalate_dot] at hjoin
      rw [appendLabels, appendLabels_eq, ← hjoin]
      simp [withDot]

theorem length_splitOn_le (name : Bytes) : (name.splitOn dot).length ≤ name.length + 1 := by
  induction name with
  | nil => simp
  | cons c name ih =>
      rw [List.splitOn_cons_eq_if_modifyHead]
      split_ifs
      · rw [List.length_cons, List.length_cons]
        omega
      · rw [List.length_modifyHead, List.length_cons]
        omega

/-- `decode_name` reads back what `encode_name` wrote, in lower case, and stops right
behind the root label. -/
theorem decodeName_encodeName {name : Bytes} (h : LabelsFit name) (before more : Bytes)
    {fuel : Nat} (hfuel : name.length + 1 < fuel) :
    decodeName (before ++ encodeName name ++ more) fuel before.length =
      some (name.map toLower, before.length + (encodeName name).length) := by
  have hdata : (before ++ encodeName name ++ more).drop before.length =
      wireLabels (name.splitOn dot) ++ 0 :: more := by
    rw [List.append_assoc, List.drop_left, encodeName_eq h, List.append_assoc]
    rfl
  have hcount := length_splitOn_le name
  unfold decodeName
  rw [decodeNameFrom_labels hdata h (by omega), appendLabels_splitOn, encodeName_eq h,
    List.length_append]
  rfl

/-! ## Questions -/

theorem writeU16_eq (v : UInt16) : writeU16 v = [(v >>> 8).toUInt8, v.toUInt8] := by
  have hlow : (v &&& 0xFF).toUInt8 = v.toUInt8 := by
    apply UInt8.toNat_inj.mp
    rw [UInt16.toNat_toUInt8, UInt16.toNat_toUInt8, UInt16.toNat_and]
    change (v.toNat &&& 2 ^ 8 - 1) % 2 ^ 8 = v.toNat % 2 ^ 8
    rw [Nat.and_two_pow_sub_one_eq_mod, Nat.mod_mod]
  rw [writeU16, hlow]

theorem readU16_of_drop {data more : Bytes} {offset : Nat} {v : UInt16}
    (h : data.drop offset = writeU16 v ++ more) : readU16 data offset = v := by
  have hbyte (i : Nat) : data.getD (offset + i) 0 = (writeU16 v ++ more).getD i 0 := by
    rw [← h, List.getD_eq_getElem?_getD, List.getD_eq_getElem?_getD, List.getElem?_drop]
  have hhigh := hbyte 0
  have hlow := hbyte 1
  rw [writeU16_eq] at hhigh hlow
  change data.getD offset 0 = (v >>> 8).toUInt8 at hhigh
  change data.getD (offset + 1) 0 = v.toUInt8 at hlow
  rw [readU16, hhigh, hlow, Codec.wordOfBytes]

abbrev QueryHeader := { header : Bytes // header.length = qStart ∧ qdcount header = 1 }

def query (header : QueryHeader) (name : Bytes) (qtype qclass : UInt16) (more : Bytes) : Bytes :=
  header.val ++ encodeName name ++ (writeU16 qtype ++ (writeU16 qclass ++ more))

namespace MdnsResponder

/-- `handle_receive` finds that the received data match. -/
def Matched (self : MdnsResponder) (data : Bytes) : Prop :=
  ∃ fuel, self.queryMatches fuel data = some true

structure Advertises (responder : MdnsResponder) (hostname : Bytes) : Prop where
  node_eq : responder.node = hostname ++ localSuffix
  service_eq : responder.service = mqttService
  instance_eq : responder.instance_ = hostname ++ [dot] ++ mqttService

theorem queryMatches_query (self : MdnsResponder) {name : Bytes} (h : LabelsFit name)
    (header : QueryHeader) (qtype qclass : UInt16) (more : Bytes) {fuel : Nat}
    (hfuel : name.length + 1 < fuel) :
    self.queryMatches fuel (query header name qtype qclass more) =
      some (self.isMatch (name.map toLower) qtype) := by
  have hdecode := decodeName_encodeName h header.val
    (writeU16 qtype ++ (writeU16 qclass ++ more)) hfuel
  rw [header.property.1] at hdecode
  have hbehind : (query header name qtype qclass more).drop
      (qStart + (encodeName name).length) = writeU16 qtype ++ (writeU16 qclass ++ more) := by
    have hlength : qStart + (encodeName name).length =
        (header.val ++ encodeName name).length := by
      rw [List.length_append, header.property.1]
    rw [hlength, query, List.drop_left]
  have hfits : qStart + (encodeName name).length + 4 ≤
      (query header name qtype qclass more).length := by
    have hlength := congrArg List.length hbehind
    simp only [List.length_drop, List.length_append, writeU16, List.length_cons,
      List.length_nil] at hlength
    omega
  unfold queryMatches
  change (decodeName (query header name qtype qclass more) fuel qStart).map _ = _
  rw [query, hdecode, Option.map_some]
  dsimp only
  rw [← query, if_pos hfits, readU16_of_drop hbehind]

theorem matched_query_iff (self : MdnsResponder) {name : Bytes} (h : LabelsFit name)
    (header : QueryHeader) (qtype qclass : UInt16) (more : Bytes) :
    self.Matched (query header name qtype qclass more) ↔
      self.isMatch (name.map toLower) qtype = true := by
  have hquery := self.queryMatches_query h header qtype qclass more (Nat.lt_succ_self _)
  constructor
  · rintro ⟨fuel, hmatch⟩
    obtain ⟨decoded, hdecode, htrue⟩ := Option.map_eq_some_iff.mp hmatch
    -- More passes give the same name.
    have hmore := decodeName_mono (Nat.le_max_left fuel (name.length + 1 + 1)) hdecode
    have hsame := self.queryMatches_query h header qtype qclass more
      (Nat.lt_of_lt_of_le (Nat.lt_succ_self _) (Nat.le_max_right fuel (name.length + 1 + 1)))
    rw [queryMatches, hmore, Option.map_some, htrue] at hsame
    exact (Option.some.inj hsame).symm
  · intro hmatch
    rw [hmatch] at hquery
    exact ⟨_, hquery⟩

/-! ## The broker's own names -/

theorem isMatch_ptr (self : MdnsResponder) (qname : Bytes) :
    self.isMatch qname rrTypePtr = true ↔ qname = self.service := by
  simp [isMatch, rrTypePtr, rrTypeSrv, rrTypeTxt, rrTypeA, rrTypeAny]

theorem isMatch_srv (self : MdnsResponder) (qname : Bytes) :
    self.isMatch qname rrTypeSrv = true ↔ qname = self.instance_ := by
  simp [isMatch, rrTypePtr, rrTypeSrv, rrTypeTxt, rrTypeA, rrTypeAny]

theorem isMatch_txt (self : MdnsResponder) (qname : Bytes) :
    self.isMatch qname rrTypeTxt = true ↔ qname = self.instance_ := by
  simp [isMatch, rrTypePtr, rrTypeSrv, rrTypeTxt, rrTypeA, rrTypeAny]

theorem isMatch_a (self : MdnsResponder) (qname : Bytes) :
    self.isMatch qname rrTypeA = true ↔ qname = self.node := by
  simp [isMatch, rrTypePtr, rrTypeSrv, rrTypeTxt, rrTypeA, rrTypeAny]

end MdnsResponder

def NoCapital (name : Bytes) : Prop := ∀ c ∈ name, ¬(0x41 ≤ c ∧ c ≤ 0x5A)

instance (name : Bytes) : Decidable (NoCapital name) :=
  List.decidableBAll (fun c => ¬(0x41 ≤ c ∧ c ≤ 0x5A)) name

theorem toLower_eq_self_iff (c : UInt8) : toLower c = c ↔ ¬(0x41 ≤ c ∧ c ≤ 0x5A) := by
  unfold toLower
  split_ifs with hcapital
  · refine iff_of_false ?_ (not_not.mpr hcapital)
    intro heq
    have hnat := congrArg UInt8.toNat heq
    have hlow : 65 ≤ c.toNat := hcapital.1
    have hhigh : c.toNat ≤ 90 := hcapital.2
    rw [UInt8.toNat_add, UInt8.toNat_sub_of_le _ _ hcapital.1] at hnat
    change (c.toNat - 65 + 97) % 256 = c.toNat at hnat
    omega
  · exact iff_of_true rfl hcapital

theorem map_toLower_eq_self_iff (name : Bytes) : name.map toLower = name ↔ NoCapital name := by
  have hid : name.map toLower = name.map id ↔ ∀ c ∈ name, toLower c = id c := List.map_inj_left
  rw [List.map_id] at hid
  rw [hid]
  simp only [id, toLower_eq_self_iff]
  rfl

theorem LabelsFit.append {name suffix : Bytes} (h : LabelsFit name) (h' : LabelsFit suffix) :
    LabelsFit (name ++ dot :: suffix) := by
  intro label hlabel
  rw [List.splitOn_append_cons_self, List.mem_append] at hlabel
  exact hlabel.elim (h label) (h' label)

namespace MdnsResponder

/-- The questions for the names that the responder advertises all match. -/
structure RecognisesOwnNames (responder : MdnsResponder) (header : QueryHeader)
    (qclass : UInt16) (more : Bytes) : Prop where
  srv : responder.Matched (query header responder.instance_ rrTypeSrv qclass more)
  txt : responder.Matched (query header responder.instance_ rrTypeTxt qclass more)
  a : responder.Matched (query header responder.node rrTypeA qclass more)
  ptr : responder.Matched (query header responder.service rrTypePtr qclass more)

variable {self : MdnsResponder} {hostname : Bytes}

theorem advertises_create (port : UInt16) (hostname : Bytes) (ip : Option Bytes) :
    (create port hostname ip).Advertises hostname :=
  ⟨rfl, rfl, rfl⟩

namespace Advertises

variable (h : self.Advertises hostname)

include h

theorem labelsFit_service : LabelsFit self.service := by
  rw [h.service_eq]
  decide

theorem labelsFit_instance (hfit : LabelsFit hostname) : LabelsFit self.instance_ := by
  have hservice : LabelsFit mqttService := by decide
  rw [h.instance_eq, List.append_assoc]
  exact hfit.append hservice

theorem labelsFit_node (hfit : LabelsFit hostname) : LabelsFit self.node := by
  have hlocal : LabelsFit (localSuffix.drop 1) := by decide
  rw [h.node_eq]
  exact hfit.append hlocal

theorem toLower_service : self.service.map toLower = self.service := by
  rw [h.service_eq]
  decide

theorem toLower_instance : self.instance_.map toLower = self.instance_ ↔ NoCapital hostname := by
  have hservice : ([dot] ++ mqttService).map toLower = [dot] ++ mqttService := by decide
  rw [h.instance_eq, List.append_assoc, List.map_append, hservice, List.append_left_inj,
    map_toLower_eq_self_iff]

theorem toLower_node : self.node.map toLower = self.node ↔ NoCapital hostname := by
  have hlocal : localSuffix.map toLower = localSuffix := by decide
  rw [h.node_eq, List.map_append, hlocal, List.append_left_inj, map_toLower_eq_self_iff]

end Advertises

theorem receive_answers_iff (hrunning : self.running = true) (remote : Endpoint)
    {datagram : Bytes} (hmin : 12 ≤ datagram.length) (hmax : datagram.length ≤ bufSize) :
    (∃ fuel reply self', self.receive fuel remote datagram = some (reply, self') ∧
        reply ≠ .silent) ↔ self.Matched datagram := by
  constructor
  · rintro ⟨fuel, reply, self', hreceive, hreply⟩
    refine ⟨fuel, ?_⟩
    have hdata : (self.fill datagram).recvBuf.take datagram.length = datagram := by
      rw [take_fill self hmax (le_refl _), List.take_length]
    have hmatch := (match_of_reply hreceive hreply).1
    rw [Nat.min_eq_left hmax, hdata] at hmatch
    exact hmatch
  · rintro ⟨fuel, hmatch⟩
    refine ⟨fuel, _, _, receive_of_match hrunning hmin hmax hmatch remote, ?_⟩
    split_ifs
    · exact nofun
    · exact nofun

end MdnsResponder

open MdnsResponder

/-- The questions for the advertised names all match exactly when the host name has no
capital letter, and only then does `decode_name` give these names back.  It gives
them back in lower case always.  What matches is what a running responder answers. -/
theorem own_names_recognised_iff (self : MdnsResponder) (hostname : Bytes)
    (h : self.Advertises hostname) (hfit : LabelsFit hostname) (header : QueryHeader)
    (qclass : UInt16) (more : Bytes) :
    ((self.RecognisesOwnNames header qclass more ∧
        ∀ name ∈ [self.instance_, self.node, self.service], ∃ fuel,
          decodeName (header.val ++ encodeName name ++ more) fuel header.val.length =
            some (name, header.val.length + (encodeName name).length)) ↔ NoCapital hostname) ∧
    (∀ name ∈ [self.instance_, self.node, self.service], ∀ fuel > name.length + 1,
      decodeName (header.val ++ encodeName name ++ more) fuel header.val.length =
        some (name.map toLower, header.val.length + (encodeName name).length)) ∧
    (self.running = true → ∀ (remote : Endpoint) (datagram : Bytes),
      12 ≤ datagram.length → datagram.length ≤ bufSize →
      ((∃ fuel reply self', self.receive fuel remote datagram = some (reply, self') ∧
        reply ≠ .silent) ↔ self.Matched datagram)) := by
  have hinstance := h.labelsFit_instance hfit
  have hnode := h.labelsFit_node hfit
  have hservice := h.labelsFit_service
  have hdecode : ∀ name ∈ [self.instance_, self.node, self.service], ∀ fuel > name.length + 1,
      decodeName (header.val ++ encodeName name ++ more) fuel header.val.length =
        some (name.map toLower, header.val.length + (encodeName name).length) := by
    intro name hname fuel hfuel
    apply decodeName_encodeName _ _ _ hfuel
    simp only [List.mem_cons, List.not_mem_nil, or_false] at hname
    rcases hname with rfl | rfl | rfl
    · exact hinstance
    · exact hnode
    · exact hservice
  refine ⟨?_, hdecode, fun hrunning remote datagram hmin hmax =>
    receive_answers_iff hrunning remote hmin hmax⟩
  constructor
  · rintro ⟨hmatched, _⟩
    have hsrv := (matched_query_iff self hinstance header _ qclass more).mp hmatched.srv
    rw [isMatch_srv, h.toLower_instance] at hsrv
    exact hsrv
  · intro hsmall
    have hinstance' := h.toLower_instance.mpr hsmall
    have hnode' := h.toLower_node.mpr hsmall
    constructor
    · constructor
      · rw [matched_query_iff self hinstance, isMatch_srv, hinstance']
      · rw [matched_query_iff self hinstance, isMatch_txt, hinstance']
      · rw [matched_query_iff self hnode, isMatch_a, hnode']
      · rw [matched_query_iff self hservice, isMatch_ptr, h.toLower_service]
    · intro name hname
      have hlower : name.map toLower = name := by
        simp only [List.mem_cons, List.not_mem_nil, or_false] at hname
        rcases hname with rfl | rfl | rfl
        · exact hinstance'
        · exact hnode'
        · exact h.toLower_service
      have hname' := hdecode name hname _ (Nat.lt_succ_self _)
      rw [hlower] at hname'
      exact ⟨_, hname'⟩

theorem own_names_recognised_lower :
    LabelsFit [0x68] ∧ sampleResponder.RecognisesOwnNames ⟨queryHeader 1, by decide⟩ 1 [] := by
  refine ⟨by decide, ?_⟩
  exact ((own_names_recognised_iff sampleResponder [0x68] ⟨rfl, rfl, rfl⟩ (by decide)
    ⟨queryHeader 1, by decide⟩ 1 []).1.mpr (by decide)).1

def capitalResponder : MdnsResponder :=
  (MdnsResponder.create 1883 [0x48] none).start true true true

/-- The host `H` does not answer the question for its own SRV record. -/
theorem own_names_capital :
    LabelsFit [0x48] ∧ capitalResponder.Advertises [0x48] ∧ capitalResponder.running = true ∧
    (capitalResponder.receive 9 0
        (query ⟨queryHeader 1, by decide⟩ capitalResponder.instance_ rrTypeSrv 1 [])).map (·.1) =
      some .silent ∧
    decodeName (encodeName capitalResponder.instance_) 9 0 =
      some (sampleResponder.instance_, (encodeName capitalResponder.instance_).length) ∧
    ¬capitalResponder.Matched
      (query ⟨queryHeader 1, by decide⟩ capitalResponder.instance_ rrTypeSrv 1 []) := by
  refine ⟨by decide, ⟨rfl, rfl, rfl⟩, rfl, by decide +kernel, by decide +kernel, ?_⟩
  rw [matched_query_iff capitalResponder (by decide)]
  decide +kernel

end JellyBroker.Mdns
