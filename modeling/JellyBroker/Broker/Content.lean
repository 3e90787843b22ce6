import JellyBroker.Broker.FanOut
import JellyBroker.Broker.Ingest
import JellyBroker.Topic.RetainedListing
/-!
# What the broker stores and hands over

A message passes through several stores on its way: the retained messages of the tree,
the incoming QoS 2 messages, and the two in-flight tables.  The subscriptions that it
meets are in the tree and in the store of the persistent clients.  `Content` says what
each of them may hold and which packets may be handed to a session.  If what the stores
may hold leads to packets that may be handed over, then only an accepted PUBLISH, a
granted filter, the SUBACK of a SUBSCRIBE and the subscriptions that a CONNECT restores
can bring anything new into the broker, whatever the order of the events.
-/

namespace JellyBroker

open JellyBroker.Packet JellyBroker.Qos JellyBroker.Topic

variable {α : Type}

def Packet.OutPacket.Plain : OutPacket → Prop
  | .publish .. | .suback .. => False
  | _ => True

def Packet.SubackCode.Answers (filter : SubscribePacket.Filter) (code : SubackCode) : Prop :=
  code = .granted filter.requestedQos ∨ code = .failure

theorem Session.answers_subscribeTo {env : Env α} {sid : SessionId}
    {filter : SubscribePacket.Filter} {b b' : Broker α} {code : SubackCode}
    (h : Session.subscribeTo env sid filter b = (b', .ok code)) : code.Answers filter := by
  have hturn := subscribeTo_turn env sid filter b
  rw [h] at hturn
  cases hturn with
  | invalid => exact Or.inr rfl
  | refused => exact Or.inr rfl
  | granted => exact Or.inl rfl

theorem Session.payload_retainedMessage (pub : PublishPacket) :
    (Session.retainedMessage pub).payload = pub.payload := by
  unfold Session.retainedMessage
  split_ifs with hempty
  · exact hempty.symm
  · rfl

/-- What the stores may hold, and the packets for each session. -/
structure Content where
  packet : SessionId → OutPacket → Prop
  /-- A retained message, under the topic it is listed with. -/
  retained : Bytes → RetainedMessage → Prop
  incoming : IncomingMessage → Prop
  /-- The topic and the payload of a QoS 2 message on its way to a session. -/
  outgoing : SessionId → Bytes → Bytes → Prop
  /-- A subscriber at a node of the tree. -/
  entry : List Edge → SubscriberEntry → Prop
  /-- A subscription that is stored for a client. -/
  stored : Bytes → Subscription → Prop

namespace Content

def Reaches (C : Content) (entry : SubscriberEntry) (topic : Bytes) : Prop :=
  ∃ path ∈ Node.visitedPaths (split topic), C.entry path entry

/-- Whatever the broker makes of the stored messages is allowed. -/
structure Closed (C : Content) : Prop where
  plain : ∀ sid packet, packet.Plain → C.packet sid packet
  replay : ∀ sid qos filter topic msg, C.entry (TopicTree.filterPath filter) ⟨sid, qos⟩ →
    topicMatches topic filter = true → C.retained topic msg →
    C.packet sid (.publish topic msg.payload msg.qos true false 0)
  downgraded : ∀ entry msg qos, C.Reaches entry msg.topic → C.incoming msg → qos ≤ msg.qos →
    qos < 2 → C.packet entry.session (.publish msg.topic msg.payload qos false false 0)
  forwarded : ∀ entry msg, C.Reaches entry msg.topic → C.incoming msg → 2 ≤ msg.qos →
    C.outgoing entry.session msg.topic msg.payload
  outgoing : ∀ sid topic payload dup packetId, C.outgoing sid topic payload →
    C.packet sid (.publish topic payload 2 false dup packetId)

/-- Whatever the broker makes of an accepted PUBLISH is allowed. -/
structure Admits (C : Content) (pub : PublishPacket) : Prop where
  qos0 : pub.qos = 0 → ∀ entry, C.Reaches entry pub.topic →
    C.packet entry.session (.publish pub.topic pub.payload 0 false false 0)
  qos1 : pub.qos = 1 → ∀ entry, C.Reaches entry pub.topic → ∀ packetId,
    C.packet entry.session (.publish pub.topic pub.payload 1 pub.retain false packetId)
  qos2 : pub.qos = 2 → C.incoming ⟨pub.topic, pub.payload, pub.qos⟩
  retained : pub.retain = true →
    C.retained (withoutSeparator pub.topic) (Session.retainedMessage pub)

structure AdmitsFilter (C : Content) (sid : SessionId) (session : Session)
    (filter : SubscribePacket.Filter) : Prop where
  entry : C.entry (TopicTree.filterPath filter.topicFilter) ⟨sid, filter.requestedQos⟩
  stored : session.cleanSession = false →
    C.stored session.clientId ⟨filter.topicFilter, filter.requestedQos⟩

structure TopicsHold (C : Content) (tree : TopicTree) (subManager : SubscriptionManager) :
    Prop where
  retained : ∀ row ∈ tree.getAllRetained, C.retained row.1 row.2
  entries : ∀ path, ∀ entry ∈ tree.root.subscribersAt path, C.entry path entry
  stored : ∀ clientId, ∀ sub ∈ subManager.getClientSubs clientId, C.stored clientId sub

/-- The broker holds, and has handed over, nothing else. -/
structure Holds (C : Content) (b : Broker α) : Prop where
  topics : C.TopicsHold b.tree b.subManager
  incoming : ∀ clientId packetId msg,
    b.delivery.incoming? clientId packetId = some msg → C.incoming msg
  pending : ∀ clientId packetId msg,
    b.delivery.pending.message? clientId packetId = some msg →
      C.packet msg.session msg.publishPacket
  outgoing : ∀ clientId packetId msg,
    b.delivery.outgoing.message? clientId packetId = some msg →
      C.outgoing msg.session msg.topic msg.payload
  handed : ∀ call ∈ b.history.handed, C.packet call.session call.packet

structure Le (C D : Content) : Prop where
  packet : ∀ sid packet, C.packet sid packet → D.packet sid packet
  retained : ∀ topic msg, C.retained topic msg → D.retained topic msg
  incoming : ∀ msg, C.incoming msg → D.incoming msg
  outgoing : ∀ sid topic payload, C.outgoing sid topic payload → D.outgoing sid topic payload
  entry : ∀ path entry, C.entry path entry → D.entry path entry
  stored : ∀ clientId sub, C.stored clientId sub → D.stored clientId sub

variable {C : Content}

theorem Holds.mono {D : Content} {b : Broker α} (h : C.Holds b) (hle : C.Le D) : D.Holds b where
  topics :=
    { retained := fun row hrow => hle.retained _ _ (h.topics.retained row hrow)
      entries := fun path entry hentry => hle.entry _ _ (h.topics.entries path entry hentry)
      stored := fun clientId sub hsub => hle.stored _ _ (h.topics.stored clientId sub hsub) }
  incoming clientId packetId msg hmsg := hle.incoming _ (h.incoming clientId packetId msg hmsg)
  pending clientId packetId msg hmsg := hle.packet _ _ (h.pending clientId packetId msg hmsg)
  outgoing clientId packetId msg hmsg :=
    hle.outgoing _ _ _ (h.outgoing clientId packetId msg hmsg)
  handed call hcall := hle.packet _ _ (h.handed call hcall)

/-! ## The topics -/

namespace TopicsHold

variable {tree : TopicTree} {subManager : SubscriptionManager}

theorem subscribe (h : C.TopicsHold tree subManager) {filter : Bytes} {entry : SubscriberEntry}
    (hentry : C.entry (TopicTree.filterPath filter) entry) :
    C.TopicsHold (tree.subscribe filter entry) subManager where
  retained row hrow := h.retained row (TopicTree.mem_getAllRetained_subscribe hrow)
  entries path other hother := by
    rw [subscribersAt_subscribe] at hother
    split_ifs at hother with hpath
    · rcases of_mem_addSubscriber hother with hold | hnew
      · exact h.entries path other hold
      · rw [hnew, hpath]
        exact hentry
    · exact h.entries path other hother
  stored := h.stored

theorem unsubscribe (h : C.TopicsHold tree subManager) (filter : Bytes) (session : SessionId) :
    C.TopicsHold (tree.unsubscribe filter session) subManager where
  retained row hrow := h.retained row (TopicTree.mem_getAllRetained_unsubscribe hrow)
  entries path entry hentry := by
    rw [subscribersAt_unsubscribe] at hentry
    split_ifs at hentry
    · exact h.entries path entry (List.mem_filter.mp hentry).1
    · exact h.entries path entry hentry
  stored := h.stored

theorem setRetained (h : C.TopicsHold tree subManager) {cfg : Config} {topic : Bytes}
    (hvalid : isValidTopic cfg topic = true) {msg : RetainedMessage}
    (hmsg : C.retained (withoutSeparator topic) msg) :
    C.TopicsHold (tree.setRetained cfg topic msg).2 subManager where
  retained row hrow := by
    rcases TopicTree.mem_getAllRetained_setRetained_valid hvalid hrow with hold | hnew
    · exact h.retained row hold
    · rw [hnew]
      exact hmsg
  entries path entry hentry := by
    rw [subscribersAt_setRetained] at hentry
    exact h.entries path entry hentry
  stored := h.stored

theorem add (h : C.TopicsHold tree subManager) {clientId filter : Bytes} {qos : Nat}
    (hstored : C.stored clientId ⟨filter, qos⟩) :
    C.TopicsHold tree (subManager.add clientId filter qos) where
  retained := h.retained
  entries := h.entries
  stored other sub hsub := by
    rw [SubscriptionManager.getClientSubs_add] at hsub
    split_ifs at hsub with hother
    · rw [hother]
      rcases SubscriptionManager.mem_addTo hsub with hold | hnew
      · exact h.stored clientId sub hold
      · rw [hnew]
        exact hstored
    · exact h.stored other sub hsub

theorem remove (h : C.TopicsHold tree subManager) (clientId filter : Bytes) :
    C.TopicsHold tree (subManager.remove clientId filter) where
  retained := h.retained
  entries := h.entries
  stored other sub hsub := by
    rw [SubscriptionManager.getClientSubs_remove] at hsub
    split_ifs at hsub with hother
    · rw [hother]
      exact h.stored clientId sub (List.mem_filter.mp hsub).1
    · exact h.stored other sub hsub

theorem removeClient (h : C.TopicsHold tree subManager) (clientId : Bytes) :
    C.TopicsHold tree (subManager.removeClient clientId) where
  retained := h.retained
  entries := h.entries
  stored other sub hsub := by
    rw [SubscriptionManager.getClientSubs_removeClient] at hsub
    split_ifs at hsub
    · cases hsub
    · exact h.stored other sub hsub

end TopicsHold

namespace Holds

/-! ## Handing packets over -/

def view (b : Broker α) : TopicTree × SubscriptionManager × DeliveryEngine × List Handed :=
  (b.tree, b.subManager, b.delivery, b.history.handed)

theorem of_same {b b' : Broker α} (h : C.Holds b) (hsame : view b' = view b) : C.Holds b' := by
  simp only [view, Prod.mk.injEq] at hsame
  obtain ⟨htree, hstored, hdelivery, hhanded⟩ := hsame
  constructor
  · rw [htree, hstored]
    exact h.topics
  · rw [hdelivery]
    exact h.incoming
  · rw [hdelivery]
    exact h.pending
  · rw [hdelivery]
    exact h.outgoing
  · rw [hhanded]
    exact h.handed

variable {b : Broker α}

theorem modifySession (h : C.Holds b) (sid : SessionId) (change : Session → Session) :
    C.Holds (b.modifySession sid change) :=
  h.of_same rfl

theorem setTopics (h : C.Holds b) {tree : TopicTree} {subManager : SubscriptionManager}
    (htopics : C.TopicsHold tree subManager) : C.Holds { b with tree, subManager } :=
  ⟨htopics, h.incoming, h.pending, h.outgoing, h.handed⟩

theorem reaches (h : C.Holds b) {topic : Bytes} {entry : SubscriberEntry}
    (hentry : entry ∈ b.tree.lookup topic) : C.Reaches entry topic := by
  rw [TopicTree.lookup_eq, List.mem_flatMap] at hentry
  obtain ⟨path, hpath, hentry⟩ := hentry
  exact ⟨path, hpath, h.topics.entries path entry hentry⟩

theorem close (h : C.Holds b) (sid : SessionId) : C.Holds (Session.close false sid b) := by
  by_cases hconn : (b.sessions sid).connected = true
  · obtain ⟨htree, hstored⟩ := Session.topics_close hconn
    obtain ⟨tree, subManager, hclose⟩ := Session.close_of_connected hconn
    have hdelivery : (Session.close false sid b).delivery =
        Session.clearClientIncoming (b.sessions sid).clientId b.delivery := by
      rw [hclose]
    have htables : (Session.close false sid b).delivery.pending = b.delivery.pending ∧
        (Session.close false sid b).delivery.outgoing = b.delivery.outgoing := by
      rw [hdelivery]
      unfold Session.clearClientIncoming
      split_ifs <;> exact ⟨rfl, rfl⟩
    constructor
    · rw [htree, hstored]
      unfold Session.dropSubscriptions
      dsimp only
      split_ifs
      · apply TopicsHold.removeClient
        refine List.foldlRecOn (motive := fun tree => C.TopicsHold tree b.subManager) _ _
          h.topics ?_
        intro tree hkept sub _
        exact hkept.unsubscribe sub.topicFilter sid
      · exact h.topics
    · intro clientId packetId msg hmsg
      rw [hdelivery] at hmsg
      exact h.incoming clientId packetId msg (DeliveryEngine.incoming?_clearClientIncoming hmsg)
    · rw [htables.1]
      exact h.pending
    · rw [htables.2]
      exact h.outgoing
    · rw [history_close]
      exact h.handed
  · rw [Session.close_of_idle (by simpa using hconn)]
    exact h

theorem deliver (h : C.Holds b) (env : Env α) {sid : SessionId} {packet : OutPacket}
    (hpacket : C.packet sid packet) : C.Holds (Session.deliver env sid packet b) := by
  have hnoted : C.Holds (b.observe
      (.noteHanded ⟨sid, packet, Session.accepts env.cfg (b.sessions sid)⟩)) := by
    refine ⟨h.topics, h.incoming, h.pending, h.outgoing, ?_⟩
    intro call hcall
    rcases List.mem_append.mp hcall with hold | hnew
    · exact h.handed call hold
    · rw [List.mem_singleton.mp hnew]
      exact hpacket
  unfold Session.deliver
  dsimp only
  split_ifs
  · exact hnoted
  · exact hnoted.close sid
  · exact hnoted.of_same rfl

theorem fanOut (h : C.Holds b) {turn : SubscriberEntry → Broker α → Broker α}
    {entries : List SubscriberEntry}
    (hturn : ∀ entry ∈ entries, ∀ {b}, C.Holds b → C.Holds (turn entry b)) :
    C.Holds (JellyBroker.fanOut turn entries b) := by
  refine List.foldlRecOn _ _ h fun b hkept entry hentry => ?_
  split_ifs
  · exact hturn entry hentry hkept
  · exact hkept

theorem noteUntracked (h : C.Holds b) (env : Env α) (sid : SessionId) (qos : Nat)
    (packetId : UInt16) : C.Holds (JellyBroker.noteUntracked env sid qos packetId b) := by
  unfold JellyBroker.noteUntracked
  split_ifs
  · exact h.of_same rfl
  · exact h

theorem noteAnswer (h : C.Holds b) (env : Env α) (sid : SessionId) (clientId : Bytes)
    (packetId : UInt16) (event : IngestEvent) :
    C.Holds (Session.noteAnswer env sid clientId packetId event b) := by
  unfold Session.noteAnswer
  split_ifs
  · exact h.of_same rfl
  · exact h

/-! ## The in-flight tables -/

/-- A change of the table of `Qos1Handler` that brings in nothing but allowed
packets. -/
theorem setPending (h : C.Holds b) {table : ClientTable PendingMessage}
    (htable : ∀ clientId packetId msg, table.message? clientId packetId = some msg →
      b.delivery.pending.message? clientId packetId = some msg ∨
        C.packet msg.session msg.publishPacket) :
    C.Holds (b.setPending table) := by
  refine ⟨h.topics, h.incoming, ?_, h.outgoing, h.handed⟩
  intro clientId packetId msg hmsg
  rcases htable clientId packetId msg hmsg with hold | hnew
  · exact h.pending clientId packetId msg hold
  · exact hnew

theorem setOutgoing (h : C.Holds b) {table : ClientTable OutgoingMessage}
    (htable : ∀ clientId packetId msg, table.message? clientId packetId = some msg →
      b.delivery.outgoing.message? clientId packetId = some msg ∨
        C.outgoing msg.session msg.topic msg.payload) :
    C.Holds (b.setOutgoing table) := by
  refine ⟨h.topics, h.incoming, h.pending, ?_, h.handed⟩
  intro clientId packetId msg hmsg
  rcases htable clientId packetId msg hmsg with hold | hnew
  · exact h.outgoing clientId packetId msg hold
  · exact hnew

theorem removePending (h : C.Holds b) (clientId : Bytes) (packetId : UInt16) :
    C.Holds (b.setPending (b.delivery.pending.remove clientId packetId)) := by
  apply h.setPending
  intro clientId' packetId' msg hmsg
  rw [ClientTable.message?_remove] at hmsg
  split_ifs at hmsg
  exact Or.inl hmsg

theorem removeOutgoing (h : C.Holds b) (clientId : Bytes) (packetId : UInt16) :
    C.Holds (b.setOutgoing (b.delivery.outgoing.remove clientId packetId)) := by
  apply h.setOutgoing
  intro clientId' packetId' msg hmsg
  rw [ClientTable.message?_remove] at hmsg
  split_ifs at hmsg
  exact Or.inl hmsg

theorem setOutgoingMessage (h : C.Holds b) {clientId : Bytes} {packetId : UInt16}
    {msg : OutgoingMessage} (hmsg : b.delivery.outgoing.message? clientId packetId = some msg)
    (state : OutgoingState) (retryCount : Int) :
    C.Holds (b.setOutgoing (b.delivery.outgoing.setMessage clientId packetId
      { msg with state, retryCount })) := by
  apply h.setOutgoing
  intro clientId' packetId' msg' hmsg'
  rw [ClientTable.message?_setMessage hmsg] at hmsg'
  split_ifs at hmsg'
  · right
    rw [← Option.some.inj hmsg']
    exact h.outgoing clientId packetId msg hmsg
  · exact Or.inl hmsg'

theorem qos1DeliverTo (h : C.Holds b) (env : Env α) {pub : PublishPacket}
    {entry : SubscriberEntry}
    (hpub : ∀ packetId, C.packet entry.session
      (.publish pub.topic pub.payload 1 pub.retain false packetId)) :
    C.Holds (Qos1Handler.deliverTo env pub entry b) := by
  unfold Qos1Handler.deliverTo
  dsimp only
  split_ifs
  · apply h.setPending
    intro clientId packetId msg hmsg
    rw [ClientTable.message?_exhausted] at hmsg
    exact Or.inl hmsg
  · refine Holds.deliver ?_ env (hpub _)
    refine of_same (h.setPending ?_) rfl
    intro clientId packetId msg hmsg
    rw [ClientTable.message?_send] at hmsg
    split_ifs at hmsg
    · right
      rw [← Option.some.inj hmsg]
      exact hpub _
    · exact Or.inl hmsg

/-- A stored message goes out with the granted QoS below 2, or into the table of
`Qos2Handler`. -/
theorem qos2DeliverTo (h : C.Holds b) (hC : C.Closed) (env : Env α) {msg : IncomingMessage}
    (hmsg : C.incoming msg) {entry : SubscriberEntry} (hentry : C.Reaches entry msg.topic) :
    C.Holds (Qos2Handler.deliverTo env
      { topic := msg.topic, payload := msg.payload, qos := msg.qos } entry b) := by
  unfold Qos2Handler.deliverTo
  dsimp only
  split_ifs with hgranted hpid
  · refine (h.noteUntracked env _ _ 0).deliver env ?_
    exact hC.downgraded entry msg _ hentry hmsg (min_le_right _ _) hgranted
  · apply h.setOutgoing
    intro clientId packetId msg' hmsg'
    rw [ClientTable.message?_exhausted] at hmsg'
    exact Or.inl hmsg'
  · have hqos : 2 ≤ msg.qos := (not_lt.mp hgranted).trans (min_le_right _ _)
    have houtgoing := hC.forwarded entry msg hentry hmsg hqos
    refine Holds.deliver ?_ env (hC.outgoing _ _ _ false _ houtgoing)
    refine of_same (h.setOutgoing ?_) rfl
    intro clientId packetId msg' hmsg'
    rw [ClientTable.message?_send] at hmsg'
    split_ifs at hmsg'
    · right
      rw [← Option.some.inj hmsg']
      exact houtgoing
    · exact Or.inl hmsg'

theorem handlePubrec (h : C.Holds b) (hC : C.Closed) (env : Env α) (clientId : Bytes)
    (packetId : UInt16) : C.Holds (Qos2Handler.handlePubrec env clientId packetId b) := by
  apply Qos2Handler.handlePubrec_rule h
  · intro msg hmsg
    exact h.setOutgoingMessage hmsg _ _
  · intro msg marked _ hmarked
    exact hmarked.deliver env (hC.plain _ _ trivial)

theorem handlePubrel (h : C.Holds b) (clientId : Bytes) (packetId : UInt16) :
    C.Holds (Qos2Handler.handlePubrel clientId packetId b) := by
  unfold Qos2Handler.handlePubrel
  split
  · exact h
  · exact (h.removeOutgoing clientId packetId).of_same rfl

theorem qos1RetryMessage (h : C.Holds b) (env : Env α) (clientId : Bytes) (packetId : UInt16) :
    C.Holds (Qos1Handler.retryMessage env clientId packetId b) := by
  apply Qos1Handler.retryMessage_rule h
  · intro msg _ _
    exact (h.removePending clientId packetId).of_same rfl
  · intro msg hmsg
    apply h.setPending
    intro clientId' packetId' msg' hmsg'
    rw [ClientTable.message?_setMessage hmsg] at hmsg'
    split_ifs at hmsg'
    · right
      rw [← Option.some.inj hmsg']
      exact h.pending clientId packetId msg hmsg
    · exact Or.inl hmsg'
  · intro msg counted hmsg hcounted
    exact hcounted.deliver env (h.pending clientId packetId msg hmsg)

theorem qos2RetryMessage (h : C.Holds b) (hC : C.Closed) (env : Env α) (clientId : Bytes)
    (packetId : UInt16) : C.Holds (Qos2Handler.retryMessage env clientId packetId b) := by
  apply Qos2Handler.retryMessage_rule h
  · intro msg _ _
    exact (h.removeOutgoing clientId packetId).of_same rfl
  · intro msg hmsg
    exact h.setOutgoingMessage hmsg _ _
  · intro msg counted hmsg hcounted
    have hpacket : C.packet msg.session (Qos2Handler.retryPacket packetId msg) := by
      unfold Qos2Handler.retryPacket
      split
      · exact hC.outgoing _ _ _ true packetId (h.outgoing clientId packetId msg hmsg)
      · exact hC.plain _ _ trivial
    exact hcounted.deliver env hpacket

/-! ## PUBLISH and PUBREL -/

theorem setIncoming (h : C.Holds b) {store : Lib.Map Bytes (Lib.Map UInt16 IncomingMessage)}
    (hstore : ∀ clientId packetId msg,
      (b.setIncoming store).delivery.incoming? clientId packetId = some msg → C.incoming msg) :
    C.Holds (b.setIncoming store) :=
  ⟨h.topics, hstore, h.pending, h.outgoing, h.handed⟩

theorem receiveQos2 (h : C.Holds b) (hC : C.Closed) (env : Env α) (sid : SessionId)
    {pub : PublishPacket} (hpub : C.incoming ⟨pub.topic, pub.payload, pub.qos⟩) :
    C.Holds (Session.receiveQos2 env sid pub b) := by
  unfold Session.receiveQos2
  dsimp only
  have hpublished : C.Holds (b.observe (.noteIngest (b.sessions sid).clientId pub.packetId
      (.publish ⟨pub.topic, pub.payload, pub.qos⟩))) :=
    h.of_same rfl
  have hanswered := (hpublished.noteAnswer env sid (b.sessions sid).clientId pub.packetId
    .pubrec).deliver env (hC.plain sid (.pubrec pub.packetId) trivial)
  apply hanswered.setIncoming
  intro clientId packetId msg hmsg
  have hstored := DeliveryEngine.incoming?_storeIncomingQos2 (b.sessions sid).clientId pub
    _ clientId packetId |>.symm.trans hmsg
  split_ifs at hstored
  · rw [← Option.some.inj hstored]
    exact hpub
  · exact hanswered.incoming clientId packetId msg hstored

theorem storeRetained (h : C.Holds b) (env : Env α) {pub : PublishPacket}
    (hvalid : isValidTopic env.cfg pub.topic = true) (hpub : C.Admits pub) :
    C.Holds (Session.storeRetained env pub b) := by
  unfold Session.storeRetained
  split_ifs with hretain
  · exact h.setTopics (h.topics.setRetained hvalid (hpub.retained hretain))
  · exact h

theorem acceptPublish (h : C.Holds b) (hC : C.Closed) (env : Env α) (sid : SessionId)
    {pub : PublishPacket} (hvalid : isValidTopic env.cfg pub.topic = true) (hpub : C.Admits pub) :
    C.Holds (Session.acceptPublish env sid pub b) := by
  have hcounted : C.Holds { b with counters.received := b.counters.received + 1 } :=
    h.of_same rfl
  have hstored := hcounted.storeRetained env hvalid hpub
  unfold Session.acceptPublish Session.routePublish
  split
  · rename_i hqos
    simp only [DeliveryEngine.publishFromClient, hqos]
    refine of_same (hstored.fanOut fun entry hentry b hb => ?_) rfl
    exact hb.deliver env (hpub.qos0 hqos entry (hstored.reaches hentry))
  · rename_i hqos
    simp only [DeliveryEngine.publishFromClient, hqos]
    have hanswered := hstored.deliver env (hC.plain sid (.puback pub.packetId) trivial)
    refine of_same (hanswered.fanOut fun entry hentry b hb => ?_) rfl
    exact hb.qos1DeliverTo env (hpub.qos1 hqos entry (hanswered.reaches hentry))
  · rename_i hqos
    exact hstored.receiveQos2 hC env sid (hpub.qos2 hqos)
  · exact hstored

theorem releaseQos2 (h : C.Holds b) (hC : C.Closed) (env : Env α) (sid : SessionId)
    (clientId : Bytes) (packetId : UInt16) :
    C.Holds (Session.releaseQos2 env sid clientId packetId b) := by
  unfold Session.releaseQos2 DeliveryEngine.completeIncomingQos2
  have hnoted : C.Holds (b.observe (.noteIngest clientId packetId .pubrel)) :=
    h.of_same rfl
  generalize b.observe (.noteIngest clientId packetId .pubrel) = noted at hnoted ⊢
  cases hmsg : noted.delivery.incoming? clientId packetId with
  | none => exact hnoted.handlePubrel clientId packetId
  | some msg =>
      have htaken : C.Holds (DeliveryEngine.takeIncoming clientId packetId noted) := by
        have hincoming := DeliveryEngine.incoming?_takeIncoming clientId packetId noted
        obtain ⟨store, htake, _⟩ := takeIncoming_eq clientId packetId noted
        rw [htake] at hincoming ⊢
        apply hnoted.setIncoming
        intro clientId' packetId' msg' hmsg'
        rw [hincoming] at hmsg'
        split_ifs at hmsg'
        exact hnoted.incoming clientId' packetId' msg' hmsg'
      have hforward : C.Holds ((DeliveryEngine.takeIncoming clientId packetId noted).observe
          (.noteIngest clientId packetId (.forward msg))) :=
        htaken.of_same rfl
      have hincoming := hnoted.incoming clientId packetId msg hmsg
      have hforwarded : C.Holds (Qos2Handler.deliver env
          { topic := msg.topic, payload := msg.payload, qos := msg.qos }
          ((DeliveryEngine.takeIncoming clientId packetId noted).observe
            (.noteIngest clientId packetId (.forward msg)))) :=
        hforward.fanOut fun entry hentry b hb =>
          hb.qos2DeliverTo hC env hincoming (hforward.reaches hentry)
      have hcounted : C.Holds (Session.countPublished _) :=
        hforwarded.of_same rfl
      exact (hcounted.noteAnswer env sid clientId packetId .pubcomp).deliver env
        (hC.plain _ _ trivial)

/-! ## CONNECT -/

theorem refuse (h : C.Holds b) (hC : C.Closed) (env : Env α) (sid : SessionId)
    (code : ConnackCode) : C.Holds (Session.refuse env sid code b) :=
  (h.deliver env (hC.plain sid (.connack false code) trivial)).close sid

theorem restoreSubscriptions (h : C.Holds b) {sid : SessionId} {conn : ConnectPacket}
    (hrestore : conn.cleanSession = false → ∀ sub, C.stored conn.clientId sub →
      C.entry (TopicTree.filterPath sub.topicFilter) ⟨sid, sub.qos⟩) :
    C.Holds (Session.restoreSubscriptions sid conn b) := by
  unfold Session.restoreSubscriptions
  split_ifs with hclean
  · exact h.setTopics (h.topics.removeClient conn.clientId)
  · apply h.setTopics
    refine List.foldlRecOn (motive := fun tree => C.TopicsHold tree b.subManager) _ _ h.topics ?_
    intro tree hkept sub hsub
    apply hkept.subscribe
    exact hrestore (by simpa using hclean) sub (h.topics.stored conn.clientId sub hsub)

theorem acceptConnect (h : C.Holds b) (hC : C.Closed) (env : Env α) {sid : SessionId}
    {conn : ConnectPacket}
    (hrestore : conn.cleanSession = false → ∀ sub, C.stored conn.clientId sub →
      C.entry (TopicTree.filterPath sub.topicFilter) ⟨sid, sub.qos⟩) :
    C.Holds (Session.acceptConnect env sid conn b) := by
  have htaken : C.Holds (Session.takeOver sid conn.clientId (Session.forgetFailures sid b)) := by
    by_cases hclear : ∀ old, ¬Displaces (Session.forgetFailures sid b) sid conn.clientId old
    · rw [takeOver_of_clear hclear]
      exact h.of_same rfl
    · simp only [not_forall, not_not] at hclear
      obtain ⟨old, hold⟩ := hclear
      rw [takeOver_of_displaces hold]
      exact h.of_same rfl
  unfold Session.acceptConnect
  dsimp only
  split_ifs
  · exact htaken
  · have hregistered : C.Holds (Session.register env sid conn
        (Session.takeOver sid conn.clientId (Session.forgetFailures sid b))) :=
      htaken.of_same rfl
    have hrestored := hregistered.restoreSubscriptions hrestore
    have hconnack (present : Bool) : C.packet sid (.connack present .accepted) :=
      hC.plain _ _ trivial
    unfold Session.finishConnect
    exact (hrestored.deliver env (hconnack _)).of_same rfl

theorem handleConnect (h : C.Holds b) (hC : C.Closed) (env : Env α) {sid : SessionId}
    {body : Bytes}
    (hrestore : ∀ conn, AcceptableConnect env b sid body conn → conn.cleanSession = false →
      ∀ sub, C.stored conn.clientId sub →
      C.entry (TopicTree.filterPath sub.topicFilter) ⟨sid, sub.qos⟩) :
    C.Holds (Session.handleConnect env sid body b).1 := by
  unfold Session.handleConnect
  by_cases hconn : (b.sessions sid).connected = true
  · rw [if_pos hconn]
    exact h.close sid
  rw [if_neg hconn]
  rcases hparse : ConnectPacket.parse body with e | ⟨conn, rest⟩
  · exact h.close sid
  dsimp only
  split_ifs with hprotocol hidentified
  · exact h.refuse hC env sid _
  · exact h.refuse hC env sid _
  obtain ⟨allowed, failures, bans, hlimit, hunbanned⟩ := checkAuthRateLimit_eq sid b
  have hlimited : C.Holds (b.setAuthTables failures bans) := h.of_same rfl
  rw [hlimit]
  cases allowed with
  | false => exact hlimited.refuse hC env sid _
  | true =>
      have hadmitted : AdmittedConnect b sid body conn := by
        refine ⟨by simpa using hconn, ⟨rest, hparse⟩, by simpa using hprotocol, ?_, hunbanned rfl⟩
        by_contra hid
        simp only [not_or, not_not] at hid
        exact hidentified hid
      dsimp only
      unfold Session.authenticateConnect
      split_ifs with hcredentials
      · rcases hresult : env.auth.authenticate (b.setAuthTables failures bans).auth conn.clientId
          conn.username conn.password with ⟨text | result, auth⟩
        · exact hlimited.of_same rfl
        · have hauth : C.Holds ((b.setAuthTables failures bans).setAuth auth) :=
            hlimited.of_same rfl
          dsimp only
          split_ifs with hsuccess
          · exact hauth.acceptConnect hC env
              (hrestore conn ⟨hadmitted, Or.inr ⟨result, auth, hresult, hsuccess⟩⟩)
          · refine Holds.refuse ?_ hC env sid _
            exact hauth.of_same rfl
      · simp only [ne_eq, not_or, not_not] at hcredentials
        exact hlimited.acceptConnect hC env (hrestore conn ⟨hadmitted, Or.inl hcredentials⟩)

end Holds

end Content

/-! ## SUBSCRIBE -/

/-- The state of the authenticator after the access checks of some filters. -/
def Session.checkedAuth (env : Env α) (username : Bytes) (filters : List SubscribePacket.Filter)
    (auth : α) : α :=
  filters.foldl
    (fun auth filter =>
      if isValidFilter env.cfg filter.topicFilter then
        (env.auth.checkAcl auth username filter.topicFilter .read).2
      else auth) auth

def Session.identity (session : Session) : Bytes × Bytes × Bool :=
  (session.clientId, session.username, session.cleanSession)

namespace Session

def user (sid : SessionId) (b : Broker α) : α × Bytes × Bytes × Bool :=
  (b.auth, (b.sessions sid).identity)

theorem user_modifySession (sid : SessionId) {change : Session → Session}
    (hchange : ∀ s, (change s).identity = s.identity) (target : SessionId) (b : Broker α) :
    user sid (b.modifySession target change) = user sid b := by
  unfold user
  by_cases htarget : sid = target
  · rw [htarget, Broker.sessions_modifySession_self, hchange]
    rfl
  · rw [Broker.sessions_modifySession_of_ne htarget]
    rfl

theorem user_close (sid target : SessionId) (b : Broker α) :
    user sid (close false target b) = user sid b := by
  by_cases hconn : (b.sessions target).connected = true
  · obtain ⟨tree, subManager, hclose⟩ := close_of_connected hconn
    have hchange (s : Session) :
        ({ s with connected := false, socketOpen := false } : Session).identity = s.identity := rfl
    rw [hclose]
    exact user_modifySession sid hchange target b
  · rw [close_of_idle (by simpa using hconn)]

theorem identity_enqueue (packet : OutPacket) (session : Session) :
    (enqueue packet session).identity = session.identity := by
  unfold enqueue doWrite
  dsimp only
  split_ifs <;> rfl

theorem user_deliver (env : Env α) (sid target : SessionId) (packet : OutPacket) (b : Broker α) :
    user sid (deliver env target packet b) = user sid b := by
  unfold deliver
  dsimp only
  split_ifs
  · rfl
  · exact user_close sid target _
  · exact user_modifySession sid (identity_enqueue packet) target _

theorem user_deliverRetained (env : Env α) (sid : SessionId) (filter : Bytes) (b : Broker α) :
    user sid (deliverRetained env sid filter b) = user sid b := by
  refine List.foldlRecOn (motive := fun b' => user sid b' = user sid b) _ _ rfl ?_
  intro b' hsame row _
  unfold deliverRetainedTo noteUntracked
  split_ifs
  · rw [user_deliver]
    exact hsame
  · rw [user_deliver]
    exact hsame
  · exact hsame

/-- The check of a filter changes nothing but the authenticator in this. -/
theorem user_subscribeTo (env : Env α) (sid : SessionId) (filter : SubscribePacket.Filter)
    (b : Broker α) :
    user sid (subscribeTo env sid filter b).1 =
      (checkedAuth env (b.sessions sid).username [filter] b.auth, (b.sessions sid).identity) := by
  unfold subscribeTo checkedAuth
  rw [List.foldl_cons, List.foldl_nil]
  by_cases hvalid : isValidFilter env.cfg filter.topicFilter = true
  · simp only [hvalid, Bool.not_true, Bool.false_eq_true, if_false, if_true]
    rcases env.auth.checkAcl b.auth (b.sessions sid).username filter.topicFilter .read with
      ⟨text | access, auth⟩
    · rfl
    · dsimp only
      split_ifs
      · rfl
      · rfl
      · rw [installFilter_eq, user_deliverRetained]
        rfl
  · simp only [hvalid, Bool.not_false, if_true]
    rfl

end Session

def Publishes (env : Env α) (n : Runtime α) (sid : SessionId) (pub : PublishPacket) : Prop :=
  (n.sessions sid).connected = true ∧ ∃ hdr body rest, NextPacket env n sid hdr body ∧
    hdr.type = some .publish ∧ PublishPacket.parse hdr body = .ok (pub, rest)

/-- The next turn grants the session a filter of its SUBSCRIBE: the filter is valid, and
after the checks of the filters before it the user may read from it. -/
def GrantsFilter (env : Env α) (n : Runtime α) (sid : SessionId)
    (filter : SubscribePacket.Filter) : Prop :=
  ∃ sub before behind access, Subscribes env n sid sub ∧ sub.filters = before ++ filter :: behind ∧
    isValidFilter env.cfg filter.topicFilter = true ∧
    (env.auth.checkAcl (Session.checkedAuth env (n.sessions sid).username before n.auth)
      (n.sessions sid).username filter.topicFilter .read).1 = .ok access ∧ access ≠ .none

/-- The next turn accepts a PUBLISH of the session: its topic is valid, and the user of
the session may write to it. -/
def AcceptsPublish (env : Env α) (n : Runtime α) (sid : SessionId) (pub : PublishPacket) : Prop :=
  Publishes env n sid pub ∧ isValidTopic env.cfg pub.topic = true ∧
    ∃ access, (env.auth.checkAcl n.auth (n.sessions sid).username pub.topic .write).1 = .ok access ∧
      access ≠ .none

theorem AcceptsPublish.onReadTurn_eq {env : Env α} {n : Runtime α} {sid : SessionId}
    {pub : PublishPacket} (h : AcceptsPublish env n sid pub) :
    ∃ packet auth, (Session.onReadTurn env sid n).toBroker = Session.acceptPublish env sid pub
      ((n.toBroker.observe (.noteHandled sid packet)).setAuth auth) := by
  obtain ⟨⟨hconn, hdr, body, rest, hnext, htype, hparse⟩, hvalid, access, hacl, haccess⟩ := h
  obtain ⟨packet, hturn⟩ := onReadTurn_of_next hnext
  rcases hcheck : env.auth.checkAcl n.auth (n.sessions sid).username pub.topic .write with
    ⟨result, auth⟩
  rw [hcheck] at hacl
  dsimp only at hacl
  have hconn' : ((n.toBroker.observe (.noteHandled sid packet)).sessions sid).connected = true :=
    hconn
  have hcheck' : env.auth.checkAcl (n.toBroker.observe (.noteHandled sid packet)).auth
      ((n.toBroker.observe (.noteHandled sid packet)).sessions sid).username pub.topic .write =
        (.ok access, auth) := by
    rw [← hacl]
    exact hcheck
  have hhandled : Session.dispatch env sid hdr body
      (n.toBroker.observe (.noteHandled sid packet)) = (Session.acceptPublish env sid pub
        ((n.toBroker.observe (.noteHandled sid packet)).setAuth auth), none) := by
    simp only [Session.dispatch, htype, Session.handlePublish, hconn', Bool.not_true,
      Bool.false_eq_true, if_false, hparse, hcheck', haccess, hvalid]
  rw [hhandled] at hturn
  exact ⟨packet, auth, hturn⟩

namespace Content

structure AdmitsTurn (C : Content) (env : Env α) (n : Runtime α) (sid : SessionId) : Prop where
  publish : ∀ pub, AcceptsPublish env n sid pub → C.Admits pub
  subscribe : ∀ filter, GrantsFilter env n sid filter → C.AdmitsFilter sid (n.sessions sid) filter
  /-- A SUBACK with a code for every filter. -/
  suback : ∀ sub, Subscribes env n sid sub → ∀ codes,
    List.Forall₂ SubackCode.Answers sub.filters codes → C.packet sid (.suback sub.packetId codes)
  /-- The subscriptions that a CONNECT restores. -/
  connect : ∀ conn, Connects env n sid conn → conn.cleanSession = false →
    ∀ sub, C.stored conn.clientId sub →
    C.entry (TopicTree.filterPath sub.topicFilter) ⟨sid, sub.qos⟩

namespace Holds

variable {C : Content} {b : Broker α}

theorem deliverRetained (h : C.Holds b) (hC : C.Closed) (env : Env α) {sid : SessionId}
    {filter : Bytes} {qos : Nat} (hentry : C.entry (TopicTree.filterPath filter) ⟨sid, qos⟩) :
    C.Holds (Session.deliverRetained env sid filter b) := by
  refine List.foldlRecOn _ _ h fun b' hkept row hrow => ?_
  unfold Session.deliverRetainedTo
  split_ifs with hmatches
  · refine (hkept.noteUntracked env sid _ 0).deliver env ?_
    exact hC.replay sid qos filter row.1 row.2 hentry hmatches (h.topics.retained row hrow)
  · exact hkept

theorem recordSubscription (h : C.Holds b) {sid : SessionId} {filter : SubscribePacket.Filter}
    (hfilter : C.AdmitsFilter sid (b.sessions sid) filter) :
    C.Holds (JellyBroker.recordSubscription sid filter b) := by
  have htopics := h.topics.subscribe hfilter.entry
  refine ⟨?_, h.incoming, h.pending, h.outgoing, h.handed⟩
  unfold JellyBroker.recordSubscription
  dsimp only
  split_ifs with hclean
  · exact htopics
  · exact htopics.add (hfilter.stored (by simpa using hclean))

theorem subscribeTo (h : C.Holds b) (hC : C.Closed) (env : Env α) {sid : SessionId}
    {filter : SubscribePacket.Filter}
    (hgrant : isValidFilter env.cfg filter.topicFilter = true → ∀ access,
      (env.auth.checkAcl b.auth (b.sessions sid).username filter.topicFilter .read).1 =
        .ok access → access ≠ .none → C.AdmitsFilter sid (b.sessions sid) filter) :
    C.Holds (Session.subscribeTo env sid filter b).1 := by
  have hchecked : C.Holds (accessChecked env sid filter b) := h.of_same rfl
  have hturn := subscribeTo_turn env sid filter b
  generalize Session.subscribeTo env sid filter b = turn at hturn ⊢
  cases hturn with
  | invalid => exact h
  | thrown => exact hchecked
  | refused => exact hchecked
  | granted hgrantable =>
      obtain ⟨access, auth, hacl, haccess⟩ := hgrantable.access
      have hfilter := hgrant hgrantable.valid access (congrArg Prod.fst hacl) haccess
      exact (hchecked.recordSubscription hfilter).deliverRetained hC env hfilter.entry

/-- The loop over the filters from some filter on.  The session stays who it was, and
the authenticator has made the checks of the filters before. -/
theorem subscribeAll (h : C.Holds b) (hC : C.Closed) (env : Env α) {sid : SessionId}
    (packetId : UInt16) {filters before : List SubscribePacket.Filter} {codes : List SubackCode}
    {session : Session} {auth : α}
    (huser : Session.user sid b =
      (Session.checkedAuth env session.username before auth, session.identity))
    (hgrant : ∀ front filter behind, before ++ filters = front ++ filter :: behind →
      isValidFilter env.cfg filter.topicFilter = true → ∀ access,
      (env.auth.checkAcl (Session.checkedAuth env session.username front auth) session.username
        filter.topicFilter .read).1 = .ok access → access ≠ .none →
      C.AdmitsFilter sid session filter)
    (hsuback : ∀ answer, List.Forall₂ SubackCode.Answers filters answer →
      C.packet sid (.suback packetId (codes ++ answer))) :
    C.Holds (Session.subscribeAll env sid packetId filters codes b).1 := by
  induction filters generalizing codes before b with
  | nil =>
      have hanswer := hsuback [] .nil
      rw [List.append_nil] at hanswer
      exact h.deliver env hanswer
  | cons filter rest ih =>
      simp only [Session.user, Session.identity, Prod.mk.injEq] at huser
      obtain ⟨hauth, hclient, hname, hclean⟩ := huser
      have hfirst : C.Holds (Session.subscribeTo env sid filter b).1 := by
        apply h.subscribeTo hC env
        intro hvalid access haccess hnone
        rw [hauth, hname] at haccess
        have hfilter := hgrant before filter rest rfl hvalid access haccess hnone
        refine ⟨hfilter.entry, ?_⟩
        rw [hclient, hclean]
        exact hfilter.stored
      have huser := Session.user_subscribeTo env sid filter b
      unfold Session.subscribeAll
      rcases hsubscribe : Session.subscribeTo env sid filter b with ⟨b', e | code⟩
      · rw [hsubscribe] at hfirst
        exact hfirst
      · rw [hsubscribe] at hfirst huser
        have hnext : Session.user sid b' =
            (Session.checkedAuth env session.username (before ++ [filter]) auth,
              session.identity) := by
          rw [huser, hauth, hname]
          simp only [Session.identity, Session.checkedAuth, List.foldl_append, hclient, hname,
            hclean]
        apply ih hfirst hnext
        · intro front other behind heq
          rw [List.append_assoc] at heq
          exact hgrant front other behind heq
        · intro answer hanswer
          rw [List.append_assoc]
          exact hsuback (code :: answer) (.cons (Session.answers_subscribeTo hsubscribe) hanswer)

theorem unsubscribeAll (h : C.Holds b) (sid : SessionId) (filters : List Bytes) :
    C.Holds (filters.foldl (fun b filter => Session.unsubscribeFrom sid filter b) b) := by
  refine List.foldlRecOn _ _ h fun b' hkept filter _ => ?_
  have htopics := hkept.topics.unsubscribe filter sid
  refine ⟨?_, hkept.incoming, hkept.pending, hkept.outgoing, hkept.handed⟩
  unfold Session.unsubscribeFrom
  dsimp only
  split_ifs
  · exact htopics
  · exact htopics.remove _ filter

/-! ## Turns and steps -/

theorem handleAck (h : C.Holds b) {parse : Utils.Reader UInt16}
    {act : UInt16 → Broker α → Broker α} (hact : ∀ packetId, C.Holds (act packetId b))
    (sid : SessionId) (body : Bytes) : C.Holds (Session.handleAck parse act sid body b) := by
  unfold Session.handleAck
  split
  · exact h
  · rcases parse body with e | ⟨packetId, rest⟩
    · exact h.close sid
    · exact hact packetId

theorem handlePublish (h : C.Holds b) (hC : C.Closed) (env : Env α) (sid : SessionId)
    {hdr : FixedHeader} {body : Bytes}
    (hpublish : ∀ pub rest access, (b.sessions sid).connected = true →
      PublishPacket.parse hdr body = .ok (pub, rest) → isValidTopic env.cfg pub.topic = true →
      (env.auth.checkAcl b.auth (b.sessions sid).username pub.topic .write).1 = .ok access →
      access ≠ .none → C.Admits pub) :
    C.Holds (Session.handlePublish env sid hdr body b).1 := by
  unfold Session.handlePublish
  split_ifs with hidle
  · exact h
  have hconn : (b.sessions sid).connected = true := by simpa using hidle
  rcases hparse : PublishPacket.parse hdr body with e | ⟨pub, rest⟩
  · exact h.close sid
  dsimp only
  rcases hacl : env.auth.checkAcl b.auth (b.sessions sid).username pub.topic .write with
    ⟨text | access, auth⟩
  · exact h.of_same rfl
  · have hauth : C.Holds (b.setAuth auth) := h.of_same rfl
    dsimp only
    split_ifs with hnone hinvalid
    · exact hauth.of_same rfl
    · exact hauth.of_same rfl
    · have hvalid : isValidTopic env.cfg pub.topic = true := by simpa using hinvalid
      have hgranted : (env.auth.checkAcl b.auth (b.sessions sid).username pub.topic .write).1 =
          .ok access := by
        rw [hacl]
      exact hauth.acceptPublish hC env sid hvalid
        (hpublish pub rest access hconn hparse hvalid hgranted hnone)

theorem handleSubscribe (h : C.Holds b) (hC : C.Closed) (env : Env α) {sid : SessionId}
    {body : Bytes}
    (hgrant : ∀ sub rest front filter behind access, (b.sessions sid).connected = true →
      SubscribePacket.parse body = .ok (sub, rest) → sub.filters = front ++ filter :: behind →
      isValidFilter env.cfg filter.topicFilter = true →
      (env.auth.checkAcl (Session.checkedAuth env (b.sessions sid).username front b.auth)
        (b.sessions sid).username filter.topicFilter .read).1 = .ok access → access ≠ .none →
      C.AdmitsFilter sid (b.sessions sid) filter)
    (hsuback : ∀ sub rest, (b.sessions sid).connected = true →
      SubscribePacket.parse body = .ok (sub, rest) → ∀ codes,
      List.Forall₂ SubackCode.Answers sub.filters codes →
      C.packet sid (.suback sub.packetId codes)) :
    C.Holds (Session.handleSubscribe env sid body b).1 := by
  unfold Session.handleSubscribe
  split_ifs with hidle
  · exact h
  have hconn : (b.sessions sid).connected = true := by simpa using hidle
  rcases hparse : SubscribePacket.parse body with e | ⟨sub, rest⟩
  · exact h.close sid
  · have huser : Session.user sid b =
        (Session.checkedAuth env (b.sessions sid).username [] b.auth,
          (b.sessions sid).identity) := rfl
    apply h.subscribeAll hC env sub.packetId huser
    · intro front filter behind heq hvalid access
      exact hgrant sub rest front filter behind access hconn hparse heq hvalid
    · intro codes hcodes
      exact hsuback sub rest hconn hparse codes hcodes

theorem handleUnsubscribe (h : C.Holds b) (hC : C.Closed) (env : Env α) (sid : SessionId)
    (body : Bytes) : C.Holds (Session.handleUnsubscribe env sid body b) := by
  unfold Session.handleUnsubscribe
  split
  · exact h
  rcases UnsubscribePacket.parse body with e | ⟨unsub, rest⟩
  · exact h.close sid
  · exact (h.unsubscribeAll sid unsub.topicFilters).deliver env (hC.plain _ _ trivial)

theorem handlePacket {env : Env α} {n : Runtime α} {sid : SessionId} {packet : Bytes}
    {parser : PacketParser} (h : C.Holds n.toBroker) (hC : C.Closed)
    (hadmits : C.AdmitsTurn env n sid)
    (hextract : (n.parsers sid).tryExtract env.cfg = (some packet, parser)) :
    C.Holds (Session.handlePacket env sid packet
      (n.toBroker.observe (.noteHandled sid packet))).1 := by
  have hnoted : C.Holds (n.toBroker.observe (.noteHandled sid packet)) :=
    h.of_same rfl
  unfold Session.handlePacket
  split_ifs
  · exact hnoted
  rcases hdecode : Session.decodeHeader packet with e | ⟨hdr, body⟩
  · exact hnoted
  have hnext : NextPacket env n sid hdr body := ⟨packet, parser, hextract, hdecode⟩
  dsimp only
  unfold Session.dispatch
  split <;> rename_i htype
  · apply hnoted.handleConnect hC env
    intro conn hconn
    exact hadmits.connect conn ⟨body, ⟨hdr, hnext, htype⟩, acceptableConnect_observe.mp hconn⟩
  · apply hnoted.handlePublish hC env sid
    intro pub rest access hconn hparse hvalid hgranted hnone
    exact hadmits.publish pub ⟨⟨hconn, hdr, body, rest, hnext, htype, hparse⟩, hvalid, access,
      hgranted, hnone⟩
  · refine hnoted.handleAck (fun packetId => ?_) sid body
    exact (hnoted.removePending _ packetId).of_same rfl
  · exact hnoted.handleAck (fun packetId => hnoted.handlePubrec hC env _ packetId) sid body
  · exact hnoted.handleAck (fun packetId => hnoted.releaseQos2 hC env sid _ packetId) sid body
  · refine hnoted.handleAck (fun packetId => ?_) sid body
    exact (hnoted.removeOutgoing _ packetId).of_same rfl
  · apply hnoted.handleSubscribe hC env
    · intro sub rest front filter behind access hconn hparse heq hvalid hgranted hnone
      exact hadmits.subscribe filter ⟨sub, front, behind, access,
        ⟨hconn, hdr, body, rest, hnext, htype, hparse⟩, heq, hvalid, hgranted, hnone⟩
    · intro sub rest hconn hparse
      exact hadmits.suback sub ⟨hconn, hdr, body, rest, hnext, htype, hparse⟩
  · exact hnoted.handleUnsubscribe hC env sid body
  · dsimp only
    unfold Session.handlePingreq
    split_ifs
    · exact hnoted
    · exact hnoted.deliver env (hC.plain _ _ trivial)
  · exact (hnoted.modifySession sid _).close sid
  · exact hnoted

theorem turn {env : Env α} {n : Runtime α} {sid : SessionId} (h : C.Holds n.toBroker)
    (hC : C.Closed) (hadmits : C.AdmitsTurn env n sid) :
    C.Holds (n.step env (.turn sid)).toBroker := by
  change C.Holds (Session.onReadTurn env sid n).toBroker
  unfold Session.onReadTurn
  rcases hextract : (n.parsers sid).tryExtract env.cfg with ⟨_ | packet, parser⟩
  · dsimp only
    unfold Session.endRead
    split_ifs
    · exact (h.close sid).of_same rfl
    · exact h.of_same rfl
  · have hhandled := h.handlePacket hC hadmits hextract
    dsimp only
    unfold Session.onPacket
    generalize Session.handlePacket env sid packet _ = result at hhandled ⊢
    obtain ⟨b, _ | e⟩ := result
    · exact hhandled
    · exact (hhandled.close sid).of_same rfl

/-- A step keeps to the content if what its turn brings in does. -/
theorem step {env : Env α} {n : Runtime α} {e : Event} (h : C.Holds n.toBroker) (hC : C.Closed)
    (hadmits : ∀ sid, e = .turn sid → C.AdmitsTurn env n sid) :
    C.Holds (n.step env e).toBroker := by
  cases e with
  | accept ip =>
      change C.Holds (Server.onAccept env.cfg ip n.toBroker)
      unfold Server.onAccept
      dsimp only
      split_ifs
      · exact h
      · exact h.of_same rfl
      · exact h.of_same rfl
  | acceptError => exact h
  | read sid chunk => exact h.of_same rfl
  | turn sid => exact h.turn hC (hadmits sid rfl)
  | readError sid => exact (h.modifySession sid _).close sid
  | writeDone sid => exact h.modifySession sid _
  | writeError sid => exact (h.modifySession sid _).close sid
  | keepaliveTimeout sid => exact (h.modifySession sid _).close sid
  | retryQos1 clientId packetId => exact h.qos1RetryMessage env clientId packetId
  | retryQos2 clientId packetId => exact h.qos2RetryMessage hC env clientId packetId
  | destroy sid => exact h.modifySession sid _
  | clock now => exact h.of_same rfl

theorem start (C : Content) (auth : α) : C.Holds ({ auth } : Runtime α).toBroker where
  topics :=
    { retained := fun row hrow => by cases hrow
      entries := fun path entry hentry => by
        rw [Node.subscribersAt_empty] at hentry
        cases hentry
      stored := fun clientId sub hsub => by cases hsub }
  incoming clientId packetId msg hmsg := by cases hmsg
  pending clientId packetId msg hmsg := by cases hmsg
  outgoing clientId packetId msg hmsg := by cases hmsg
  handed call hcall := by cases hcall

end Holds

end Content

end JellyBroker
