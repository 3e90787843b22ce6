import JellyBroker.Broker.Bystander
import JellyBroker.Broker.Extraction
import JellyBroker.Broker.FanOut
import JellyBroker.Topic.RetainedCount
/-!
# Malformed packets

A handler parses the whole body before it acts, and closes its session when the
parser throws.  Nothing of a malformed packet is carried out: what is left behind
are the effects of `close` alone.
-/

namespace JellyBroker

open JellyBroker.Lib.Codec JellyBroker.Packet JellyBroker.Topic JellyBroker.Utils

variable {α : Type}

def Throws {β : Type} (read : Reader β) (buf : Bytes) : Prop := ∃ e, read buf = .error e

/-- The parse function for the packet's type throws on the body. -/
def ParseThrows (hdr : FixedHeader) (body : Bytes) : Prop :=
  match hdr.type with
  | some .connect => Throws ConnectPacket.parse body
  | some .publish => Throws (PublishPacket.parse hdr) body
  | some .puback => Throws PubackPacket.parse body
  | some .pubrec => Throws PubrecPacket.parse body
  | some .pubrel => Throws PubrelPacket.parse body
  | some .pubcomp => Throws PubcompPacket.parse body
  | some .subscribe => Throws SubscribePacket.parse body
  | some .unsubscribe => Throws UnsubscribePacket.parse body
  | _ => False

/-! ## A list of filters that is cut off -/

theorem parse_cutSubscribe (packetId : UInt16) {filters : List (Bytes × UInt8)}
    (hfilters : ∀ filter ∈ filters, filter.1.length ≤ 65535) {last : Bytes × UInt8}
    (hlast : last.1.length ≤ 65535) {cut : Nat} (hpos : 0 < cut)
    (hcut : cut < (filterBytes last).length) :
    Throws SubscribePacket.parse (writeUint16 packetId ++
      (filters.flatMap filterBytes ++ (filterBytes last).take cut)) := by
  have hne : ∀ filter : Bytes × UInt8, filter.1.length ≤ 65535 ∧ True → filterBytes filter ≠ [] :=
    fun filter _ => filterBytes_ne_nil filter
  have hvalid : ∀ filter ∈ filters, filter.1.length ≤ 65535 ∧ True :=
    fun filter hmem => ⟨hfilters filter hmem, trivial⟩
  have htail : (filterBytes last).take cut ≠ [] := by
    rw [← List.length_pos_iff, List.length_take]
    omega
  have hturns : filters.length <
      (filters.flatMap filterBytes ++ (filterBytes last).take cut).length + 1 := by
    have hle := length_le_flatMap hne hvalid
    rw [List.length_append]
    omega
  have hcutOff : Fails readFilter ((filterBytes last).take cut) :=
    (isCodec_readFilter.reads last ⟨hlast, trivial⟩).cut cut hcut
  obtain ⟨e, herror⟩ := many_fails isCodec_readFilter hne hvalid htail hcutOff hturns
  have hget (buf : Bytes) : (get : Reader Bytes) buf = .ok (buf, buf) := rfl
  refine ⟨e, ?_⟩
  rw [SubscribePacket.parse, bind_of_ok (uint16_writeUint16 _ _), bind_of_ok (hget _),
    subscribe_parseFilters_eq, bind_map_left]
  exact bind_of_error herror

/-! ## The handlers -/

theorem handleAck_of_throws {parse : Reader UInt16} {act : UInt16 → Broker α → Broker α}
    {sid : SessionId} {body : Bytes} {b : Broker α}
    (hconn : (b.sessions sid).connected = true) (h : Throws parse body) :
    Session.handleAck parse act sid body b = Session.close false sid b := by
  obtain ⟨e, herror⟩ := h
  simp [Session.handleAck, hconn, herror]

theorem dispatch_of_throws (env : Env α) {sid : SessionId} {hdr : FixedHeader} {body : Bytes}
    {b : Broker α} (hconn : (b.sessions sid).connected = true) (h : ParseThrows hdr body) :
    Session.dispatch env sid hdr body b = (Session.close false sid b, none) := by
  unfold ParseThrows at h
  unfold Session.dispatch
  split at h
  case h_1 htype => simp [htype, Session.handleConnect, hconn]
  case h_2 htype =>
      obtain ⟨e, herror⟩ := h
      simp [htype, Session.handlePublish, hconn, herror]
  case h_3 htype => simp only [htype, Session.handlePuback, handleAck_of_throws hconn h]
  case h_4 htype => simp only [htype, Session.handlePubrec, handleAck_of_throws hconn h]
  case h_5 htype => simp only [htype, Session.handlePubrel, handleAck_of_throws hconn h]
  case h_6 htype => simp only [htype, Session.handlePubcomp, handleAck_of_throws hconn h]
  case h_7 htype =>
      obtain ⟨e, herror⟩ := h
      simp [htype, Session.handleSubscribe, hconn, herror]
  case h_8 htype =>
      obtain ⟨e, herror⟩ := h
      simp [htype, Session.handleUnsubscribe, hconn, herror]
  case h_9 => exact h.elim

/-! ## What `close` changes -/

/-- The tree has lost subscriptions of the session and nothing else. -/
structure LosesOnly (session : SessionId) (tree tree' : TopicTree) : Prop where
  others : ∀ other ≠ session, SameEntries other tree tree'
  own : EntriesWithin session tree' tree
  retained : ∀ path, tree'.root.retainedAt path = tree.root.retainedAt path
  retainedCount : tree'.retainedCount = tree.retainedCount

theorem LosesOnly.refl (session : SessionId) (tree : TopicTree) : LosesOnly session tree tree where
  others other _ := .refl other tree
  own _ := id
  retained _ := rfl
  retainedCount := rfl

theorem LosesOnly.trans {session : SessionId} {tree₁ tree₂ tree₃ : TopicTree}
    (h : LosesOnly session tree₁ tree₂) (h' : LosesOnly session tree₂ tree₃) :
    LosesOnly session tree₁ tree₃ where
  others other hne := (h.others other hne).trans (h'.others other hne)
  own := h'.own.trans h.own
  retained path := (h'.retained path).trans (h.retained path)
  retainedCount := h'.retainedCount.trans h.retainedCount

theorem losesOnly_unsubscribe (tree : TopicTree) (filter : Bytes) (session : SessionId) :
    LosesOnly session tree (tree.unsubscribe filter session) where
  others _ hne := sameEntries_unsubscribe tree filter hne.symm
  own := entriesWithin_unsubscribe tree filter session session
  retained path := by
    unfold TopicTree.unsubscribe
    exact Node.retainedAt_modify_same (Node.changesOwn_withSubscribers _) _ path tree.root
  retainedCount := rfl

theorem losesOnly_dropSubscriptions (sid : SessionId) (b : Broker α) :
    LosesOnly sid b.tree (Session.dropSubscriptions sid b).tree := by
  refine Session.dropSubscriptions_rule (LosesOnly.refl sid) LosesOnly.trans ?_ b
  intro tree filter
  exact losesOnly_unsubscribe tree filter sid

/-- The session has been closed, and nothing else has happened.  No packet was
handed to any session. -/
structure ClosesOnly (sid : SessionId) (b b' : Broker α) : Prop where
  session : b'.sessions sid = { b.sessions sid with connected := false, socketOpen := false }
  others : ∀ other ≠ sid, b'.sessions other = b.sessions other
  tree : LosesOnly sid b.tree b'.tree
  stored : ∀ clientId ≠ (b.sessions sid).clientId,
    b'.subManager.getClientSubs clientId = b.subManager.getClientSubs clientId
  pending : b'.delivery.pending = b.delivery.pending
  outgoing : b'.delivery.outgoing = b.delivery.outgoing
  incoming : ∀ clientId ≠ (b.sessions sid).clientId,
    b'.delivery.incomingQos2.lookup clientId = b.delivery.incomingQos2.lookup clientId
  counters : b'.counters = b.counters
  handed : b'.history.handed = b.history.handed

theorem closesOnly_close {sid : SessionId} {b : Broker α}
    (hconn : (b.sessions sid).connected = true) : ClosesOnly sid b (Session.close false sid b) := by
  obtain ⟨htree, hmanager⟩ := Session.topics_close hconn
  obtain ⟨tree, subManager, hclose⟩ := Session.close_of_connected hconn
  have hdelivery : (Session.close false sid b).delivery =
      Session.clearClientIncoming (b.sessions sid).clientId b.delivery := by rw [hclose]
  constructor
  case session =>
      rw [hclose]
      exact Function.update_self _ _ _
  case others =>
      intro other hne
      exact Session.sessions_close_of_ne hne b
  case tree =>
      rw [htree]
      exact losesOnly_dropSubscriptions sid b
  case stored =>
      intro clientId hne
      rw [hmanager, getClientSubs_dropSubscriptions hne.symm]
  case pending =>
      rw [hdelivery, Session.clearClientIncoming]
      split_ifs <;> rfl
  case outgoing =>
      rw [hdelivery, Session.clearClientIncoming]
      split_ifs <;> rfl
  case incoming =>
      intro clientId hne
      rw [hdelivery, incoming_clearClientIncoming hne.symm]
  case counters => rw [hclose]
  case handed => rw [history_close]

/-- A packet whose body cannot be parsed, at whatever byte, closes its session and
does nothing else. -/
theorem malformed_packet_only_closes (env : Env α) (b : Broker α) (sid : SessionId)
    (hconn : (b.sessions sid).connected = true) (packet : Bytes) (hdr : FixedHeader) (body : Bytes)
    (hdecode : Session.decodeHeader packet = .ok (hdr, body)) (hthrows : ParseThrows hdr body) :
    Session.onPacket env sid packet b =
        Session.close false sid (b.observe (.noteHandled sid packet)) ∧
      ClosesOnly sid b (Session.onPacket env sid packet b) ∧
      ((Session.onPacket env sid packet b).sessions sid).connected = false := by
  have hne : packet ≠ [] := by
    rintro rfl
    cases hdecode
  have hpacket : Session.onPacket env sid packet b =
      Session.close false sid (b.observe (.noteHandled sid packet)) := by
    unfold Session.onPacket Session.handlePacket
    rw [if_neg hne, hdecode]
    dsimp only
    rw [dispatch_of_throws env (by exact hconn) hthrows]
    rfl
  have hcloses : ClosesOnly sid (b.observe (.noteHandled sid packet))
      (Session.close false sid (b.observe (.noteHandled sid packet))) := closesOnly_close hconn
  rw [hpacket]
  refine ⟨rfl, ?_, Session.connected_close sid _⟩
  exact ⟨hcloses.session, hcloses.others, hcloses.tree, hcloses.stored, hcloses.pending,
    hcloses.outgoing, hcloses.incoming, hcloses.counters, hcloses.handed⟩

def cutSubscribeBytes : Bytes :=
  OutPacket.wrap .subscribe 2 (Utils.writeUint16 1 ++
    ([([0x74], 1)].flatMap filterBytes ++ (filterBytes ([0x75], 1)).take 3))

/-- The session that sends it has no subscription to `t` afterwards. -/
theorem cut_subscribe_only_closes :
    let n := (brokerSystem defaultEnv).after { auth := () }
      [.accept [], .read 0 (connectBytes true [0x63] ++ cutSubscribeBytes), .turn 0]
    (n.sessions 0).connected = true ∧
      ClosesOnly 0 n.toBroker (Session.onPacket defaultEnv 0 cutSubscribeBytes n.toBroker) := by
  intro n
  have hconn : (n.sessions 0).connected = true := by decide +kernel
  refine ⟨hconn, ?_⟩
  refine (malformed_packet_only_closes defaultEnv n.toBroker 0 hconn cutSubscribeBytes _ _ rfl
    ?_).2.1
  exact parse_cutSubscribe 1 (by decide) (by decide) (by decide) (by decide)

end JellyBroker
