import JellyBroker.Broker.FanOut
import JellyBroker.Broker.Invariant
import JellyBroker.Broker.Tracking
import JellyBroker.Topic.Retained
/-!
# Packet ids in flight

`Qos1Handler` and `Qos2Handler` have an allocator of packet ids each, and MQTT
has one space of ids for both.  Messages that go out without an allocated id
carry the id 0.  The ids in flight to a client are distinct as long as it has
messages of one handler only, and no message without an id.
-/

namespace JellyBroker

open JellyBroker.Lib JellyBroker.Packet JellyBroker.Qos JellyBroker.Topic

variable {α : Type}

def idsInFlight (b : Broker α) (clientId : Bytes) : List UInt16 :=
  (b.history.inFlight.filter fun msg => msg.clientId = clientId).map (·.packetId)

/-- For every client the ids in flight are distinct, and none is 0. -/
def UniqueIds (b : Broker α) : Prop :=
  ∀ clientId, (idsInFlight b clientId).Nodup ∧ 0 ∉ idsInFlight b clientId

/-! ## Steps that keep the ids apart -/

/-- No subscriber of the topic has a message of `Qos2Handler` in flight. -/
def Qos1Apart (b : Broker α) (topic : Bytes) : Prop :=
  ∀ entry ∈ b.tree.lookup topic, (b.sessions entry.session).alive = true →
    NoneFor b.delivery.outgoing (b.sessions entry.session).clientId

/-- The message goes to no connected subscriber at QoS 1, and at QoS 2 to none
that has a message of `Qos1Handler` in flight. -/
def Qos2Apart (b : Broker α) (topic : Bytes) (qos : Nat) : Prop :=
  ∀ entry ∈ b.tree.lookup topic, (b.sessions entry.session).alive = true →
    (min entry.qos qos = 1 → (b.sessions entry.session).connected = false) ∧
      (2 ≤ min entry.qos qos → NoneFor b.delivery.pending (b.sessions entry.session).clientId)

def RetainedApart (b : Broker α) (filter : Bytes) : Prop :=
  ∀ row ∈ b.tree.getAllRetained, topicMatches row.1 filter = true → row.2.qos = 0

structure PacketApart (b : Broker α) (sid : SessionId) (hdr : FixedHeader) (body : Bytes) :
    Prop where
  publish : ∀ pub rest, hdr.type = some .publish →
    PublishPacket.parse hdr body = .ok (pub, rest) → pub.qos = 1 → Qos1Apart b pub.topic
  pubrel : ∀ packetId rest msg, hdr.type = some .pubrel →
    PubrelPacket.parse body = .ok (packetId, rest) →
    b.delivery.incoming? (b.sessions sid).clientId packetId = some msg →
    Qos2Apart b msg.topic msg.qos
  subscribe : ∀ sub rest, hdr.type = some .subscribe →
    SubscribePacket.parse body = .ok (sub, rest) →
    ∀ filter ∈ sub.filters, RetainedApart b filter.topicFilter

/-- The step handles no packet that brings ids in flight together. -/
def IdsApart (env : Env α) (n : Runtime α) (e : Event) : Prop :=
  ∀ sid hdr body, e = .turn sid → NextPacket env n sid hdr body →
    (n.sessions sid).connected = true → PacketApart n.toBroker sid hdr body

/-! ## The invariant -/

def InFlightKept (b : Broker α) : Prop :=
  Separate 1 2 b.delivery.pending b.delivery.outgoing b.history.inFlight

namespace InFlightKept

theorem init (auth : α) : InFlightKept ({ auth } : Broker α) := Separate.empty

variable {b : Broker α} (h : InFlightKept b)

include h

theorem uniqueIds : UniqueIds b := by
  intro clientId
  constructor
  · unfold idsInFlight
    rw [List.nodup_map_iff_inj_on (h.nodup.filter _)]
    intro msg hmsg msg' hmsg' hpid
    rw [List.mem_filter] at hmsg hmsg'
    have hclient : msg.clientId = msg'.clientId := by
      rw [of_decide_eq_true hmsg.2, of_decide_eq_true hmsg'.2]
    exact h.packetId_injective hmsg.1 hmsg'.1 hclient hpid
  · intro hzero
    obtain ⟨msg, hmsg, hpid⟩ := List.mem_map.mp hzero
    exact h.packetId_ne_zero (List.mem_filter.mp hmsg).1 hpid

theorem of_same {b' : Broker α} (hpending : b'.delivery.pending = b.delivery.pending)
    (houtgoing : b'.delivery.outgoing = b.delivery.outgoing)
    (hinFlight : b'.history.inFlight = b.history.inFlight) : InFlightKept b' := by
  unfold InFlightKept
  rw [hpending, houtgoing, hinFlight]
  exact h

theorem settleQos1 (clientId : Bytes) (packetId : UInt16) :
    InFlightKept ((b.setPending (b.delivery.pending.remove clientId packetId)).observe
      (.noteSettled ⟨clientId, 1, packetId⟩)) :=
  h.settle clientId packetId

theorem settleQos2 (clientId : Bytes) (packetId : UInt16) :
    InFlightKept ((b.setOutgoing (b.delivery.outgoing.remove clientId packetId)).observe
      (.noteSettled ⟨clientId, 2, packetId⟩)) :=
  (h.symm.settle clientId packetId).symm

theorem setQos1Message {clientId : Bytes} {packetId : UInt16} {old : PendingMessage}
    (hold : b.delivery.pending.message? clientId packetId = some old) (msg : PendingMessage) :
    InFlightKept (b.setPending (b.delivery.pending.setMessage clientId packetId msg)) :=
  h.setMessage hold msg

theorem setQos2Message {clientId : Bytes} {packetId : UInt16} {old : OutgoingMessage}
    (hold : b.delivery.outgoing.message? clientId packetId = some old) (msg : OutgoingMessage) :
    InFlightKept (b.setOutgoing (b.delivery.outgoing.setMessage clientId packetId msg)) :=
  (h.symm.setMessage hold msg).symm

end InFlightKept

/-! ## What delivering leaves alone -/

structure SameClients (b b' : Broker α) : Prop where
  clientId : ∀ sid, (b'.sessions sid).clientId = (b.sessions sid).clientId
  alive : ∀ sid, (b'.sessions sid).alive = (b.sessions sid).alive
  connected : ∀ sid, (b'.sessions sid).connected = true → (b.sessions sid).connected = true

structure KeepsInFlight (b b' : Broker α) : Prop extends SameClients b b' where
  pending : b'.delivery.pending = b.delivery.pending
  outgoing : b'.delivery.outgoing = b.delivery.outgoing
  inFlight : b'.history.inFlight = b.history.inFlight

theorem SameClients.of_sessions {b b' : Broker α} (h : b'.sessions = b.sessions) :
    SameClients b b' := by
  constructor <;> intro sid <;> rw [h]
  exact id

theorem SameClients.trans {b₁ b₂ b₃ : Broker α} (h : SameClients b₁ b₂) (h' : SameClients b₂ b₃) :
    SameClients b₁ b₃ where
  clientId sid := (h'.clientId sid).trans (h.clientId sid)
  alive sid := (h'.alive sid).trans (h.alive sid)
  connected sid hsid := h.connected sid (h'.connected sid hsid)

theorem sameClients_modifySession (b : Broker α) (sid : SessionId) (change : Session → Session)
    (hclient : ∀ s, (change s).clientId = s.clientId) (halive : ∀ s, (change s).alive = s.alive)
    (hconn : ∀ s, (change s).connected = true → s.connected = true) :
    SameClients b (b.modifySession sid change) := by
  constructor
  · intro other
    by_cases heq : other = sid
    · rw [heq, Broker.sessions_modifySession_self, hclient]
    · rw [Broker.sessions_modifySession_of_ne heq]
  · intro other
    by_cases heq : other = sid
    · rw [heq, Broker.sessions_modifySession_self, halive]
    · rw [Broker.sessions_modifySession_of_ne heq]
  · intro other hother
    by_cases heq : other = sid
    · rw [heq, Broker.sessions_modifySession_self] at hother
      rw [heq]
      exact hconn _ hother
    · rwa [Broker.sessions_modifySession_of_ne heq] at hother

theorem keepsInFlight_frame : Frame (KeepsInFlight (α := α)) where
  refl _ := ⟨.of_sessions rfl, rfl, rfl, rfl⟩
  trans h h' :=
    ⟨h.toSameClients.trans h'.toSameClients, h'.pending.trans h.pending,
      h'.outgoing.trans h.outgoing, h'.inFlight.trans h.inFlight⟩
  misc _ _ _ _ _ _ _ := ⟨.of_sessions rfl, rfl, rfl, rfl⟩
  noteHanded _ _ := ⟨.of_sessions rfl, rfl, rfl, rfl⟩
  plumbing b sid change hplumbing :=
    ⟨sameClients_modifySession b sid change hplumbing.clientId hplumbing.alive
      fun s hs => hplumbing.connected s ▸ hs, rfl, rfl, rfl⟩
  close b sid hconn := by
    obtain ⟨tree, subManager, hclose⟩ := Session.close_of_connected hconn
    have hclients := sameClients_modifySession b sid
      (fun s => { s with connected := false, socketOpen := false }) (fun _ => rfl) (fun _ => rfl)
      (fun _ hs => by cases hs)
    rw [hclose]
    refine ⟨⟨hclients.clientId, hclients.alive, hclients.connected⟩, ?_, ?_, rfl⟩
    · dsimp only [Session.clearClientIncoming]
      split <;> rfl
    · dsimp only [Session.clearClientIncoming]
      split <;> rfl
  disconnect b sid :=
    ⟨sameClients_modifySession b sid (fun s => { s with connected := false }) (fun _ => rfl)
      (fun _ => rfl) (fun _ hs => by cases hs), rfl, rfl, rfl⟩

theorem keepsInFlight_ingest : IngestFree (KeepsInFlight (α := α)) where
  incoming _ _ := ⟨.of_sessions rfl, rfl, rfl, rfl⟩
  noteIngest _ _ _ _ := ⟨.of_sessions rfl, rfl, rfl, rfl⟩

theorem InFlightKept.of_keeps {b b' : Broker α} (h : InFlightKept b) (hkeeps : KeepsInFlight b b') :
    InFlightKept b' :=
  h.of_same hkeeps.pending hkeeps.outgoing hkeeps.inFlight

/-! ## Fan-out -/

theorem qos1DeliverTo_kept {env : Env α} {pub : PublishPacket} {entry : SubscriberEntry}
    {b : Broker α} (h : InFlightKept b)
    (hapart : NoneFor b.delivery.outgoing (b.sessions entry.session).clientId) :
    InFlightKept (Qos1Handler.deliverTo env pub entry b) := by
  unfold Qos1Handler.deliverTo
  dsimp only
  split_ifs with hpid
  · exact h.exhausted _
  · refine InFlightKept.of_keeps ?_ (keepsInFlight_frame.deliver env entry.session _ _)
    exact h.send (by decide) hapart hpid _

theorem qos2DeliverTo_kept {env : Env α} {pub : PublishPacket} {entry : SubscriberEntry}
    {b : Broker α} (h : InFlightKept b)
    (hdowngraded : min entry.qos pub.qos = 1 → (b.sessions entry.session).connected = false)
    (hapart : 2 ≤ min entry.qos pub.qos →
      NoneFor b.delivery.pending (b.sessions entry.session).clientId) :
    InFlightKept (Qos2Handler.deliverTo env pub entry b) := by
  unfold Qos2Handler.deliverTo
  dsimp only
  split_ifs with hgranted hpid
  · have hnote : noteUntracked env entry.session (min entry.qos pub.qos) 0 b = b := by
      unfold noteUntracked
      rw [if_neg]
      rintro ⟨hpos, haccepts⟩
      have hidle := hdowngraded (by omega)
      simp [Session.accepts, hidle] at haccepts
    rw [hnote]
    exact h.of_keeps (keepsInFlight_frame.deliver env entry.session _ _)
  · exact (h.symm.exhausted _).symm
  · refine InFlightKept.of_keeps ?_ (keepsInFlight_frame.deliver env entry.session _ _)
    exact (h.symm.send (by decide) (hapart (by omega)) hpid _).symm

def SameClientsAnd {β : Type} (component : Broker α → β) (b b' : Broker α) : Prop :=
  SameClients b b' ∧ component b' = component b

theorem keepsOutgoing_frame : Frame (SameClientsAnd (α := α) (·.delivery.outgoing)) :=
  keepsInFlight_frame.weaken (fun h => ⟨h.toSameClients, h.outgoing⟩)
    fun h h' => ⟨h.1.trans h'.1, h'.2.trans h.2⟩

theorem keepsOutgoing_pending : PendingFree (SameClientsAnd (α := α) (·.delivery.outgoing)) where
  noteSent _ _ := ⟨.of_sessions rfl, rfl⟩
  noteSettled _ _ := ⟨.of_sessions rfl, rfl⟩
  pending _ _ := ⟨.of_sessions rfl, rfl⟩

theorem keepsPending_frame : Frame (SameClientsAnd (α := α) (·.delivery.pending)) :=
  keepsInFlight_frame.weaken (fun h => ⟨h.toSameClients, h.pending⟩)
    fun h h' => ⟨h.1.trans h'.1, h'.2.trans h.2⟩

theorem keepsPending_outgoing : OutgoingFree (SameClientsAnd (α := α) (·.delivery.pending)) where
  noteSent _ _ := ⟨.of_sessions rfl, rfl⟩
  noteSettled _ _ := ⟨.of_sessions rfl, rfl⟩
  outgoing _ _ := ⟨.of_sessions rfl, rfl⟩

theorem qos1FanOut_kept {env : Env α} {pub : PublishPacket} {entries : List SubscriberEntry}
    {b : Broker α} (h : InFlightKept b)
    (hapart : ∀ entry ∈ entries, (b.sessions entry.session).alive = true →
      NoneFor b.delivery.outgoing (b.sessions entry.session).clientId) :
    InFlightKept (fanOut (Qos1Handler.deliverTo env pub) entries b) := by
  refine fanOut_invariant (P := InFlightKept) (Q := fun entry b =>
    (b.sessions entry.session).alive = true →
      NoneFor b.delivery.outgoing (b.sessions entry.session).clientId) ?_ ?_ h hapart
  · intro entry b halive h hentry
    exact qos1DeliverTo_kept h (hentry halive)
  · intro entry other b hother
    obtain ⟨hclients, houtgoing⟩ :=
      (keepsOutgoing_frame.delivery env).qos1DeliverTo keepsOutgoing_pending pub entry b
    dsimp only at houtgoing
    rw [hclients.alive, hclients.clientId, houtgoing]
    exact hother

theorem qos2FanOut_kept {env : Env α} {pub : PublishPacket} {entries : List SubscriberEntry}
    {b : Broker α} (h : InFlightKept b)
    (hapart : ∀ entry ∈ entries, (b.sessions entry.session).alive = true →
      (min entry.qos pub.qos = 1 → (b.sessions entry.session).connected = false) ∧
        (2 ≤ min entry.qos pub.qos →
          NoneFor b.delivery.pending (b.sessions entry.session).clientId)) :
    InFlightKept (fanOut (Qos2Handler.deliverTo env pub) entries b) := by
  refine fanOut_invariant (P := InFlightKept) (Q := fun entry b =>
    (b.sessions entry.session).alive = true →
      (min entry.qos pub.qos = 1 → (b.sessions entry.session).connected = false) ∧
        (2 ≤ min entry.qos pub.qos →
          NoneFor b.delivery.pending (b.sessions entry.session).clientId)) ?_ ?_ h hapart
  · intro entry b halive h hentry
    exact qos2DeliverTo_kept h (hentry halive).1 (hentry halive).2
  · intro entry other b hother
    obtain ⟨hclients, hpending⟩ :=
      (keepsPending_frame.delivery env).qos2DeliverTo keepsPending_outgoing pub entry b
    dsimp only at hpending
    rw [hclients.alive, hclients.clientId, hpending]
    intro halive
    refine ⟨?_, (hother halive).2⟩
    intro hone
    have hidle := (hother halive).1 hone
    by_contra hconn
    rw [Bool.not_eq_false] at hconn
    rw [hclients.connected other.session hconn] at hidle
    cases hidle

/-! ## Acknowledgements and retries -/

namespace InFlightKept

variable {b : Broker α} (h : InFlightKept b)

include h

theorem retryQos1 (env : Env α) (clientId : Bytes) (packetId : UInt16) :
    InFlightKept (Qos1Handler.retryMessage env clientId packetId b) := by
  apply Qos1Handler.retryMessage_rule h
  · intro msg _ _
    exact h.settleQos1 clientId packetId
  · intro msg hold
    exact h.setQos1Message hold _
  · intro msg counted _ hcounted
    exact hcounted.of_keeps (keepsInFlight_frame.deliver env _ _ _)

theorem retryQos2 (env : Env α) (clientId : Bytes) (packetId : UInt16) :
    InFlightKept (Qos2Handler.retryMessage env clientId packetId b) := by
  apply Qos2Handler.retryMessage_rule h
  · intro msg _ _
    exact h.settleQos2 clientId packetId
  · intro msg hold
    exact h.setQos2Message hold _
  · intro msg counted _ hcounted
    exact hcounted.of_keeps (keepsInFlight_frame.deliver env _ _ _)

theorem pubrec (env : Env α) (clientId : Bytes) (packetId : UInt16) :
    InFlightKept (Qos2Handler.handlePubrec env clientId packetId b) := by
  apply Qos2Handler.handlePubrec_rule h
  · intro msg hold
    exact h.setQos2Message hold _
  · intro msg marked _ hmarked
    exact hmarked.of_keeps (keepsInFlight_frame.deliver env _ _ _)

theorem pubrel (clientId : Bytes) (packetId : UInt16) :
    InFlightKept (Qos2Handler.handlePubrel clientId packetId b) := by
  unfold Qos2Handler.handlePubrel
  split
  · exact h
  · exact h.settleQos2 clientId packetId

end InFlightKept

/-! ## Closing shrinks the tree -/

theorem shrinks_dropSubscriptions (sid : SessionId) (b : Broker α) :
    b.tree.Shrinks (Session.dropSubscriptions sid b).tree := by
  refine Session.dropSubscriptions_rule TopicTree.Shrinks.refl TopicTree.Shrinks.trans ?_ b
  intro tree filter
  exact tree.shrinks_unsubscribe filter sid

theorem shrinks_close (sid : SessionId) (b : Broker α) :
    b.tree.Shrinks (Session.close false sid b).tree := by
  unfold Session.close
  split
  · exact .refl _
  · have hleft := shrinks_dropSubscriptions sid
      (Session.leave sid (b.modifySession sid fun s => { s with connected := false }))
    exact hleft

theorem shrinks_deliver (env : Env α) (sid : SessionId) (packet : OutPacket) (b : Broker α) :
    b.tree.Shrinks (Session.deliver env sid packet b).tree := by
  unfold Session.deliver
  dsimp only
  split_ifs
  · exact .refl _
  · exact shrinks_close sid (b.observe _)
  · exact .refl _

/-! ## Packets -/

theorem acceptPublish_kept {env : Env α} {sid : SessionId} {pub : PublishPacket} {b : Broker α}
    (h : InFlightKept b) (hapart : pub.qos = 1 → Qos1Apart b pub.topic) :
    InFlightKept (Session.acceptPublish env sid pub b) := by
  unfold Session.acceptPublish
  have hstored : KeepsInFlight b (Session.storeRetained env pub
      { b with counters.received := b.counters.received + 1 }) :=
    keepsInFlight_frame.trans (keepsInFlight_frame.setCounters b _)
      (keepsInFlight_frame.storeRetained env pub _)
  have hlookup : (Session.storeRetained env pub
      { b with counters.received := b.counters.received + 1 }).tree.lookup pub.topic =
        b.tree.lookup pub.topic := by
    unfold Session.storeRetained
    split_ifs
    · exact lookup_setRetained env.cfg b.tree pub.topic _ pub.topic
    · rfl
  generalize Session.storeRetained env pub
    { b with counters.received := b.counters.received + 1 } = stored at hstored hlookup ⊢
  have hkept := h.of_keeps hstored
  have hsession := keepsInFlight_frame.session env sid
  unfold Session.routePublish
  split
  · rename_i hqos
    simp only [DeliveryEngine.publishFromClient, hqos]
    refine hkept.of_keeps (hsession.trans ?_ (hsession.countPublished _))
    exact hsession.qos0Deliver pub stored
  · rename_i hqos
    simp only [DeliveryEngine.publishFromClient, hqos]
    have hanswered := hsession.deliverOwn (.puback pub.packetId) stored
    have htree := shrinks_deliver env sid (.puback pub.packetId) stored
    refine InFlightKept.of_keeps ?_ (hsession.countPublished _)
    apply qos1FanOut_kept (hkept.of_keeps hanswered)
    have hclients := hstored.toSameClients.trans hanswered.toSameClients
    intro entry hentry halive
    rw [hclients.alive] at halive
    rw [hclients.clientId, hanswered.outgoing, hstored.outgoing]
    apply hapart hqos entry _ halive
    rw [← hlookup]
    exact htree.lookup hentry
  · exact hkept.of_keeps (hsession.receiveQos2 (keepsInFlight_ingest.of _) pub)
  · exact hkept

theorem releaseQos2_kept {env : Env α} {sid : SessionId} {clientId : Bytes} {packetId : UInt16}
    {b : Broker α} (h : InFlightKept b)
    (hapart : ∀ msg, b.delivery.incoming? clientId packetId = some msg →
      Qos2Apart b msg.topic msg.qos) :
    InFlightKept (Session.releaseQos2 env sid clientId packetId b) := by
  unfold Session.releaseQos2 DeliveryEngine.completeIncomingQos2
  have hnoted : InFlightKept (b.observe (.noteIngest clientId packetId .pubrel)) :=
    h.of_same rfl rfl rfl
  have hapart' : ∀ msg, (b.observe (.noteIngest clientId packetId .pubrel)).delivery.incoming?
      clientId packetId = some msg →
      Qos2Apart (b.observe (.noteIngest clientId packetId .pubrel)) msg.topic msg.qos := hapart
  generalize b.observe (.noteIngest clientId packetId .pubrel) = noted at hnoted hapart' ⊢
  cases hstored : noted.delivery.incoming? clientId packetId with
  | none => exact hnoted.pubrel clientId packetId
  | some msg =>
      dsimp only
      have hsession := keepsInFlight_frame.session env sid
      refine InFlightKept.of_keeps ?_ (hsession.deliverOwn _ _)
      refine InFlightKept.of_keeps ?_ (hsession.noteAnswer (keepsInFlight_ingest.of _) _ _ _)
      refine InFlightKept.of_keeps ?_ (hsession.countPublished _)
      obtain ⟨store, htake, _⟩ := takeIncoming_eq clientId packetId noted
      rw [htake]
      have htaken : InFlightKept ((noted.setIncoming store).observe
          (.noteIngest clientId packetId (.forward msg))) := hnoted.of_same rfl rfl rfl
      exact qos2FanOut_kept htaken (hapart' msg hstored)

/-- Retained messages of QoS 0 need no id. -/
theorem deliverRetained_keeps {env : Env α} {sid : SessionId} {filter : Bytes} {b : Broker α}
    (hapart : RetainedApart b filter) :
    KeepsInFlight b (Session.deliverRetained env sid filter b) ∧
      b.tree.Shrinks (Session.deliverRetained env sid filter b).tree := by
  unfold Session.deliverRetained
  unfold RetainedApart at hapart
  generalize b.tree.getAllRetained = rows at hapart
  induction rows generalizing b with
  | nil => exact ⟨keepsInFlight_frame.refl b, .refl _⟩
  | cons row rest ih =>
      rw [List.foldl_cons]
      have hrest : ∀ row ∈ rest, topicMatches row.1 filter = true → row.2.qos = 0 :=
        fun row hrow => hapart row (List.mem_cons_of_mem _ hrow)
      unfold Session.deliverRetainedTo
      split_ifs with hmatches
      · have hzero : row.2.qos = 0 := hapart row List.mem_cons_self hmatches
        have hnote : noteUntracked env sid row.2.qos 0 b = b := by
          rw [noteUntracked, hzero, if_neg (fun h => absurd h.1 (by decide))]
        rw [hnote]
        obtain ⟨hkeeps, hshrinks⟩ := ih (b := Session.deliver env sid
          (.publish row.1 row.2.payload row.2.qos true false 0) b) hrest
        exact ⟨keepsInFlight_frame.trans (keepsInFlight_frame.deliver env sid _ b) hkeeps,
          (shrinks_deliver env sid _ b).trans hshrinks⟩
      · exact ih hrest

def KeepsRetained (b b' : Broker α) : Prop :=
  KeepsInFlight b b' ∧ ∀ row ∈ b'.tree.getAllRetained, row ∈ b.tree.getAllRetained

theorem KeepsRetained.deliverRetained {env : Env α} {sid : SessionId} {filter : Bytes}
    {b b' : Broker α} (h : KeepsRetained b b') (hapart : RetainedApart b filter) :
    KeepsRetained b (Session.deliverRetained env sid filter b') := by
  have hapart' : RetainedApart b' filter := fun row hrow => hapart row (h.2 row hrow)
  obtain ⟨hkeeps, hshrinks⟩ := deliverRetained_keeps hapart'
  exact ⟨keepsInFlight_frame.trans h.1 hkeeps, fun row hrow => h.2 row (hshrinks.retained hrow)⟩

theorem subscribeTo_keeps {env : Env α} {sid : SessionId} {filter : SubscribePacket.Filter}
    {b : Broker α} (hapart : RetainedApart b filter.topicFilter) :
    KeepsRetained b (Session.subscribeTo env sid filter b).1 := by
  have hchecked : KeepsRetained b (accessChecked env sid filter b) :=
    ⟨keepsInFlight_frame.setAuth b _, fun _ h => h⟩
  have hturn := subscribeTo_turn env sid filter b
  generalize Session.subscribeTo env sid filter b = turn at hturn ⊢
  cases hturn with
  | invalid => exact ⟨keepsInFlight_frame.refl b, fun _ h => h⟩
  | thrown => exact hchecked
  | refused => exact hchecked
  | granted =>
      refine KeepsRetained.deliverRetained ⟨?_, ?_⟩ hapart
      · exact keepsInFlight_frame.misc b _ _ _ _ b.server.authFailures b.server.authBanUntil
      · intro row hrow
        exact TopicTree.mem_getAllRetained_subscribe hrow

theorem subscribeAll_keeps {env : Env α} {sid : SessionId} {packetId : UInt16}
    {filters : List SubscribePacket.Filter} {codes : List SubackCode} {b : Broker α}
    (hapart : ∀ filter ∈ filters, RetainedApart b filter.topicFilter) :
    KeepsInFlight b (Session.subscribeAll env sid packetId filters codes b).1 := by
  induction filters generalizing codes b with
  | nil => exact keepsInFlight_frame.deliver env sid _ b
  | cons filter rest ih =>
      have hturn : KeepsRetained b (Session.subscribeTo env sid filter b).1 :=
        subscribeTo_keeps (hapart filter List.mem_cons_self)
      obtain ⟨hkeeps, hrows⟩ := hturn
      unfold Session.subscribeAll
      rcases hsub : Session.subscribeTo env sid filter b with ⟨b', e | code⟩
      · rw [hsub] at hkeeps
        exact hkeeps
      · rw [hsub] at hkeeps hrows
        refine keepsInFlight_frame.trans hkeeps (ih ?_)
        intro other hother row hrow
        exact hapart other (List.mem_cons_of_mem _ hother) row (hrows row hrow)

/-! ## Steps -/

theorem inFlightKept_frame : Frame fun b b' : Broker α => InFlightKept b → InFlightKept b' :=
  keepsInFlight_frame.weaken (fun hkeeps h => h.of_keeps hkeeps) fun h h' hb => h' (h hb)

theorem inFlightKept_connect (env : Env α) (sid : SessionId) :
    ConnectClosed env sid fun b b' : Broker α => InFlightKept b → InFlightKept b' where
  frame := inFlightKept_frame
  register _ _ _ _ _ h := h.of_same rfl rfl rfl
  block _ _ h := h.of_same rfl rfl rfl

theorem inFlightKept_loop (env : Env α) (sid : SessionId) :
    LoopClosed env sid (fun _ => True) fun b b' : Broker α => InFlightKept b → InFlightKept b' where
  toSessionFrame := inFlightKept_frame.session env sid
  noteHandled _ _ h := h.of_same rfl rfl rfl
  rearm _ _ h := h.of_same rfl rfl rfl
  stopReading _ h := h.of_same rfl rfl rfl

theorem inFlightKept_io (env : Env α) :
    IoClosed env fun b b' : Broker α => InFlightKept b → InFlightKept b' where
  core := inFlightKept_frame.toCoreFrame
  retryQos1 _ clientId packetId h := h.retryQos1 env clientId packetId
  retryQos2 _ clientId packetId h := h.retryQos2 env clientId packetId
  beginRead _ _ _ h := h.of_same rfl rfl rfl
  dropRead _ _ h := h.of_same rfl rfl rfl
  clock _ _ h := h.of_same rfl rfl rfl
  accept b ip h := by
    unfold Server.onAccept
    dsimp only
    split_ifs
    · exact h
    · exact h.of_same rfl rfl rfl
    · exact h.of_same rfl rfl rfl
  destroy _ _ _ _ h := h.of_same rfl rfl rfl

theorem handlePacket_kept {env : Env α} {sid : SessionId} {packet : Bytes} {b : Broker α}
    (hreading : b.reading = some sid) (hblocked : b.blocked = false)
    (hapart : ∀ hdr body, Session.decodeHeader packet = .ok (hdr, body) →
      (b.sessions sid).connected = true → PacketApart b sid hdr body)
    (h : InFlightKept b) : InFlightKept (Session.handlePacket env sid packet b).1 := by
  refine (inFlightKept_frame.session env sid).handlePacket (b := b) ?_ h
  intro hdr body hdecode
  constructor
  · intro _
    exact (inFlightKept_connect env sid).handleConnect body hreading hblocked
  · intro pub rest auth hconn htype hparse _ _ hb
    have hready : InFlightKept (b.setAuth auth) := hb.of_same rfl rfl rfl
    exact acceptPublish_kept hready
      ((hapart hdr body hdecode hconn).publish pub rest htype hparse)
  · intro packetId _ _ _ _ hb
    exact hb.settleQos1 _ packetId
  · intro packetId _ _ _ _ hb
    exact hb.pubrec env _ packetId
  · intro packetId rest hconn htype hparse hb
    exact releaseQos2_kept hb fun msg =>
      (hapart hdr body hdecode hconn).pubrel packetId rest msg htype hparse
  · intro packetId _ _ _ _ hb
    exact hb.settleQos2 _ packetId
  · intro sub rest hconn htype hparse hb
    exact hb.of_keeps (subscribeAll_keeps
      ((hapart hdr body hdecode hconn).subscribe sub rest htype hparse))
  · intro unsub _ _ _ _
    exact inFlightKept_frame.unsubscribeAll sid _ b
  · intro _
    exact inFlightKept_frame.handleDisconnect sid b

theorem step_inFlightKept {env : Env α} {n : Runtime α} {e : Event}
    (henabled : n.toBroker.Enabled e) (hapart : IdsApart env n e) (h : InFlightKept n.toBroker) :
    InFlightKept (n.step env e).toBroker := by
  by_cases hturn : ∃ sid, e = .turn sid
  · obtain ⟨sid, rfl⟩ := hturn
    refine (inFlightKept_loop env sid).onReadTurn henabled.2 ?_ h
    intro packet parser hextract
    refine handlePacket_kept (b := n.toBroker.observe (.noteHandled sid packet)) henabled.2
      henabled.1 ?_
    intro hdr body hdecode hconn
    obtain ⟨hpublish, hpubrel, hsubscribe⟩ :=
      hapart sid hdr body rfl ⟨packet, parser, hextract, hdecode⟩ hconn
    exact ⟨hpublish, hpubrel, hsubscribe⟩
  · exact (inFlightKept_io env).step (fun sid heq => hturn ⟨sid, heq⟩) henabled h

/-- In every state of a run that keeps the ids apart, the ids in flight to a
client are distinct and not 0. -/
theorem packet_ids_unique_while_apart (env : Env α) (n : Runtime α)
    (hn : ((brokerSystem env).restrict (IdsApart env)).Reachable n) : UniqueIds n.toBroker := by
  have hkept : InFlightKept n.toBroker := by
    refine hn.invariant (P := fun n => InFlightKept n.toBroker) ?_ ?_
    · rintro _ ⟨auth, rfl⟩
      exact InFlightKept.init auth
    · intro n e hkept henabled
      exact step_inFlightKept henabled.1 henabled.2 hkept
  exact hkept.uniqueIds

/-- Without retained messages and without messages of QoS 2 the ids are kept
apart. -/
theorem idsApart_of_quiet (env : Env α) {n : Runtime α} (e : Event)
    (hretained : n.tree.getAllRetained = []) (houtgoing : n.delivery.outgoing = ∅)
    (hincoming : n.delivery.incomingQos2 = ∅) : IdsApart env n e := by
  intro sid hdr body _ _ _
  constructor
  · intro pub _ _ _ _ entry _ _ packetId
    rw [houtgoing]
    rfl
  · intro packetId _ msg _ _ hmsg
    rw [DeliveryEngine.incoming?, hincoming] at hmsg
    cases hmsg
  · intro sub _ _ _ filter _ row hrow
    rw [hretained] at hrow
    cases hrow

/-- The message of the client is in flight back to it. -/
theorem packet_ids_unique_loopback :
    let n := (brokerSystem defaultEnv).after { auth := () }
      [.accept [0x69], .read 0 (loopbackBytes 1), .turn 0, .turn 0, .turn 0]
    idsInFlight n.toBroker [0x63] = [1] ∧ UniqueIds n.toBroker := by
  refine ⟨by decide +kernel, packet_ids_unique_while_apart defaultEnv _ ?_⟩
  refine .of_allowed ⟨(), rfl⟩ ⟨⟨⟨rfl, rfl, trivial⟩, ?_⟩, ⟨⟨rfl, rfl, rfl, ?_, ?_⟩, ?_⟩,
    ⟨⟨?_, ?_⟩, ?_⟩, ⟨⟨?_, ?_⟩, ?_⟩, ⟨⟨?_, ?_⟩, ?_⟩, trivial⟩
  all_goals first
    | decide +kernel
    | exact idsApart_of_quiet defaultEnv _ (by decide +kernel) (by decide +kernel)
        (by decide +kernel)

/-- A QoS 1 and a QoS 2 message are in flight to the client under the same
id. -/
theorem packet_ids_collide :
    let events : List Event :=
      [.accept [0x69],
        .read 0 (loopbackBytes 2 ++ (OutPacket.publish [0x74] [0x6e] 2 false false 8).bytes ++
          (OutPacket.pubrel 8).bytes),
        .turn 0, .turn 0, .turn 0, .turn 0, .turn 0]
    (brokerSystem defaultEnv).Reachable
      ((brokerSystem defaultEnv).after { auth := () } events) ∧
    idsInFlight ((brokerSystem defaultEnv).after { auth := () } events).toBroker [0x63] =
      [1, 1] ∧
    ¬UniqueIds ((brokerSystem defaultEnv).after { auth := () } events).toBroker := by
  intro events
  have hids : idsInFlight ((brokerSystem defaultEnv).after { auth := () } events).toBroker [0x63] =
      [1, 1] := by decide +kernel
  refine ⟨?_, hids, ?_⟩
  · refine .of_allowed ⟨(), rfl⟩ ⟨⟨rfl, rfl, trivial⟩, ⟨rfl, rfl, rfl, ?_, ?_⟩, ⟨?_, ?_⟩, ⟨?_, ?_⟩,
      ⟨?_, ?_⟩, ⟨?_, ?_⟩, ⟨?_, ?_⟩, trivial⟩ <;> decide +kernel
  · intro hunique
    have hnodup := (hunique [0x63]).1
    rw [hids] at hnodup
    revert hnodup
    decide

end JellyBroker
