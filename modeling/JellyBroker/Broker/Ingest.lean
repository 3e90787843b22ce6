import JellyBroker.Broker.FanOut
import JellyBroker.Broker.Invariant
/-!
# Incoming QoS 2 messages

`Exchange` is the receiver of QoS 2 messages as MQTT wants it, for one packet id
of one client: a PUBREL is followed by the message, once, and by PUBCOMP.  The
broker keeps its side of the exchange as long as it has the message of the
PUBREL in its store, and `Session::close` empties the store.
-/

namespace JellyBroker

open JellyBroker.Lib JellyBroker.Packet JellyBroker.Qos

variable {α : Type}

/-! ## The receiver -/

inductive Exchange where
  | idle
  | received (msg : IncomingMessage)
  | answered (msg : IncomingMessage)
  /-- PUBREL has come.  The message, if there is one, is to be forwarded, and
  PUBCOMP is to be sent. -/
  | released (msg : Option IncomingMessage)
  | failed
  deriving DecidableEq

namespace Exchange

def advance : Exchange → IngestEvent → Exchange
  | .released (some msg), .forward msg' => if msg' = msg then .released none else .failed
  | .released none, .pubcomp => .idle
  | .released _, _ => .failed
  | .failed, _ => .failed
  | _, .publish msg => .received msg
  | .received msg, .pubrec => .answered msg
  | .idle, .pubrel => .released none
  | .received msg, .pubrel => .released (some msg)
  | .answered msg, .pubrel => .released (some msg)
  | _, _ => .failed

def Settled : Exchange → Prop
  | .idle | .received _ | .answered _ => True
  | .released _ | .failed => False

def Holds (msg : IncomingMessage) (exchange : Exchange) : Prop :=
  exchange = .received msg ∨ exchange = .answered msg

theorem Settled.publish {exchange : Exchange} (h : exchange.Settled) (msg : IncomingMessage) :
    exchange.advance (.publish msg) = .received msg := by
  cases exchange with
  | idle => rfl
  | received old => rfl
  | answered old => rfl
  | released old => cases h
  | failed => cases h

theorem Holds.pubrel {exchange : Exchange} {msg : IncomingMessage} (h : exchange.Holds msg) :
    exchange.advance .pubrel = .released (some msg) := by
  rcases h with rfl | rfl
  · rfl
  · rfl

theorem Holds.settled {exchange : Exchange} {msg : IncomingMessage} (h : exchange.Holds msg) :
    exchange.Settled := by
  rcases h with rfl | rfl
  · trivial
  · trivial

theorem not_settled_pubrel (exchange : Exchange) : ¬(exchange.advance .pubrel).Settled := by
  cases exchange with
  | released msg => cases msg <;> exact id
  | idle => exact id
  | received msg => exact id
  | answered msg => exact id
  | failed => exact id

end Exchange

/-- What the notes say about a packet id of a client. -/
def exchange (b : Broker α) (clientId : Bytes) (packetId : UInt16) : Exchange :=
  ((b.history.ingest.filter fun note => note.1 = clientId ∧ note.2.1 = packetId).map
    (·.2.2)).foldl Exchange.advance .idle

/-- Every PUBREL that a connected session received was answered with PUBCOMP,
after its message was forwarded once. -/
def ExactlyOnce (b : Broker α) : Prop :=
  ∀ clientId packetId, (exchange b clientId packetId).Settled

theorem exchange_noteIngest (b : Broker α) (clientId : Bytes) (packetId : UInt16)
    (event : IngestEvent) (clientId' : Bytes) (packetId' : UInt16) :
    exchange (b.observe (.noteIngest clientId packetId event)) clientId' packetId' =
      if clientId' = clientId ∧ packetId' = packetId then
        (exchange b clientId packetId).advance event
      else exchange b clientId' packetId' := by
  have hnotes : (b.observe (.noteIngest clientId packetId event)).history.ingest =
      b.history.ingest ++ [(clientId, packetId, event)] := rfl
  unfold exchange
  rw [hnotes, List.filter_append, List.map_append, List.foldl_append]
  by_cases hsame : clientId' = clientId ∧ packetId' = packetId
  · obtain ⟨rfl, rfl⟩ := hsame
    simp
  · have hother : ¬(clientId = clientId' ∧ packetId = packetId') :=
      fun h => hsame ⟨h.1.symm, h.2.symm⟩
    simp [hsame, hother]

/-! ## The store -/

namespace DeliveryEngine

theorem incoming?_insert (delivery : DeliveryEngine) (clientId clientId' : Bytes)
    (messages : Map UInt16 IncomingMessage) (packetId : UInt16) :
    incoming? { delivery with incomingQos2 := delivery.incomingQos2.insert clientId messages }
        clientId' packetId =
      if clientId' = clientId then messages.lookup packetId
      else delivery.incoming? clientId' packetId := by
  unfold incoming?
  dsimp only
  rw [Map.lookup_insert_ite]
  split_ifs
  · rfl
  · rfl

theorem incoming?_erase (delivery : DeliveryEngine) (clientId clientId' : Bytes)
    (packetId : UInt16) :
    incoming? { delivery with incomingQos2 := delivery.incomingQos2.erase clientId }
        clientId' packetId =
      if clientId' = clientId then none else delivery.incoming? clientId' packetId := by
  unfold incoming?
  dsimp only
  rw [Map.lookup_erase_ite]
  split_ifs
  · rfl
  · rfl

theorem incoming?_clearClientIncoming {delivery : DeliveryEngine} {clientId clientId' : Bytes}
    {packetId : UInt16} {msg : IncomingMessage}
    (h : (Session.clearClientIncoming clientId delivery).incoming? clientId' packetId = some msg) :
    delivery.incoming? clientId' packetId = some msg := by
  unfold Session.clearClientIncoming at h
  split_ifs at h
  · exact h
  · rw [incoming?_erase] at h
    split_ifs at h
    exact h

theorem incoming?_storeIncomingQos2 (clientId : Bytes) (pub : PublishPacket) (b : Broker α)
    (clientId' : Bytes) (packetId : UInt16) :
    (storeIncomingQos2 clientId pub b).delivery.incoming? clientId' packetId =
      if clientId' = clientId ∧ packetId = pub.packetId then
        some ⟨pub.topic, pub.payload, pub.qos⟩
      else b.delivery.incoming? clientId' packetId := by
  have hstore : (storeIncomingQos2 clientId pub b).delivery.incoming? clientId' packetId =
      if clientId' = clientId then
        (((b.delivery.incomingQos2.lookup clientId).getD ∅).insert pub.packetId
          ⟨pub.topic, pub.payload, pub.qos⟩).lookup packetId
      else b.delivery.incoming? clientId' packetId := incoming?_insert ..
  rw [hstore]
  by_cases hclient : clientId' = clientId
  · subst hclient
    rw [if_pos rfl, Map.lookup_insert_ite]
    by_cases hpid : packetId = pub.packetId
    · rw [if_pos hpid, if_pos ⟨rfl, hpid⟩]
    · rw [if_neg hpid, if_neg fun h => hpid h.2, incoming?]
      cases b.delivery.incomingQos2.lookup clientId' with
      | none => rfl
      | some messages => rfl
  · rw [if_neg hclient, if_neg fun h => hclient h.1]

theorem incoming?_takeIncoming (clientId : Bytes) (packetId : UInt16) (b : Broker α)
    (clientId' : Bytes) (packetId' : UInt16) :
    (takeIncoming clientId packetId b).delivery.incoming? clientId' packetId' =
      if clientId' = clientId ∧ packetId' = packetId then none
      else b.delivery.incoming? clientId' packetId' := by
  unfold takeIncoming
  cases hlookup : b.delivery.incomingQos2.lookup clientId with
  | none =>
      dsimp only
      split_ifs with hboth
      · rw [hboth.1, incoming?, hlookup, Option.bind_none]
      · rfl
  | some messages =>
      dsimp only
      have hleft : ∀ packetId', (messages.erase packetId).lookup packetId' =
          if packetId' = packetId then none else b.delivery.incoming? clientId packetId' := by
        intro packetId'
        rw [Map.lookup_erase_ite, incoming?, hlookup, Option.bind_some]
      by_cases hclient : clientId' = clientId
      · subst hclient
        have htaken : (if clientId' = clientId' ∧ packetId' = packetId then none
            else b.delivery.incoming? clientId' packetId') =
            (messages.erase packetId).lookup packetId' := by
          rw [hleft]
          simp
        rw [htaken]
        split_ifs with hempty
        · have hnone : packetId' ∉ messages.erase packetId := by
            rw [← Finmap.mem_keys, hempty]
            exact Finset.notMem_empty _
          rw [Finmap.lookup_eq_none.mpr hnone]
          exact (incoming?_erase ..).trans (if_pos rfl)
        · exact (incoming?_insert ..).trans (if_pos rfl)
      · have hother : ¬(clientId' = clientId ∧ packetId' = packetId) :=
          fun hboth => hclient hboth.1
        rw [if_neg hother]
        split_ifs
        · exact (incoming?_erase ..).trans (if_neg hclient)
        · exact (incoming?_insert ..).trans (if_neg hclient)

end DeliveryEngine

/-! ## The invariant -/

/-- The exchanges are settled, and the store has only messages that are to be
forwarded at the next PUBREL. -/
structure IngestKept (b : Broker α) : Prop where
  settled : ExactlyOnce b
  stored : ∀ clientId packetId msg, b.delivery.incoming? clientId packetId = some msg →
    (exchange b clientId packetId).Holds msg

theorem IngestKept.init (auth : α) : IngestKept ({ auth } : Broker α) where
  settled _ _ := trivial
  stored _ _ _ h := nomatch h

/-- No note about an exchange, and no message that was not in the store. -/
structure KeepsIngest (b b' : Broker α) : Prop where
  ingest : b'.history.ingest = b.history.ingest
  incoming : ∀ clientId packetId msg, b'.delivery.incoming? clientId packetId = some msg →
    b.delivery.incoming? clientId packetId = some msg

theorem KeepsIngest.exchange {b b' : Broker α} (h : KeepsIngest b b') (clientId : Bytes)
    (packetId : UInt16) : exchange b' clientId packetId = exchange b clientId packetId := by
  unfold JellyBroker.exchange
  rw [h.ingest]

theorem IngestKept.of_keeps {b b' : Broker α} (h : IngestKept b) (hkeeps : KeepsIngest b b') :
    IngestKept b' := by
  constructor
  · intro clientId packetId
    rw [hkeeps.exchange]
    exact h.settled clientId packetId
  · intro clientId packetId msg hmsg
    rw [hkeeps.exchange]
    exact h.stored clientId packetId msg (hkeeps.incoming clientId packetId msg hmsg)

theorem keepsIngest_frame : Frame (KeepsIngest (α := α)) where
  refl _ := ⟨rfl, fun _ _ _ h => h⟩
  trans h h' := by
    constructor
    · rw [h'.ingest, h.ingest]
    · intro clientId packetId msg hmsg
      exact h.incoming clientId packetId msg (h'.incoming clientId packetId msg hmsg)
  misc _ _ _ _ _ _ _ := ⟨rfl, fun _ _ _ h => h⟩
  noteHanded _ _ := ⟨rfl, fun _ _ _ h => h⟩
  plumbing _ _ _ _ := ⟨rfl, fun _ _ _ h => h⟩
  close b sid hconn := by
    obtain ⟨tree, subManager, hclose⟩ := Session.close_of_connected hconn
    rw [hclose]
    exact ⟨rfl, fun _ _ _ h => DeliveryEngine.incoming?_clearClientIncoming h⟩
  disconnect _ _ := ⟨rfl, fun _ _ _ h => h⟩

theorem ingestKept_frame : Frame fun b b' : Broker α => IngestKept b → IngestKept b' :=
  keepsIngest_frame.weaken (fun hkeeps h => h.of_keeps hkeeps) fun h h' hb => h' (h hb)

theorem keepsIngest_tables : TablesFree (KeepsIngest (α := α)) where
  noteSent _ _ := ⟨rfl, fun _ _ _ h => h⟩
  noteSettled _ _ := ⟨rfl, fun _ _ _ h => h⟩
  pending _ _ := ⟨rfl, fun _ _ _ h => h⟩
  outgoing _ _ := ⟨rfl, fun _ _ _ h => h⟩

/-! ## PUBLISH -/

/-- The exchanges after the notes of a PUBLISH and of its answer, if the session
queues one. -/
theorem exchange_noteReceived {b : Broker α} (h : ExactlyOnce b) (env : Env α) (sid : SessionId)
    (clientId : Bytes) (packetId : UInt16) (msg : IncomingMessage) :
    let noted := Session.noteAnswer env sid clientId packetId .pubrec
      (b.observe (.noteIngest clientId packetId (.publish msg)))
    (exchange noted clientId packetId).Holds msg ∧
      ∀ clientId' packetId', ¬(clientId' = clientId ∧ packetId' = packetId) →
        exchange noted clientId' packetId' = exchange b clientId' packetId' := by
  intro noted
  have hpublished : (exchange b clientId packetId).advance (.publish msg) = .received msg :=
    (h clientId packetId).publish msg
  unfold noted Session.noteAnswer
  split_ifs
  · constructor
    · rw [exchange_noteIngest, if_pos ⟨rfl, rfl⟩, exchange_noteIngest, if_pos ⟨rfl, rfl⟩,
        hpublished]
      exact Or.inr rfl
    · intro clientId' packetId' hother
      rw [exchange_noteIngest, if_neg hother, exchange_noteIngest, if_neg hother]
  · constructor
    · rw [exchange_noteIngest, if_pos ⟨rfl, rfl⟩, hpublished]
      exact Or.inl rfl
    · intro clientId' packetId' hother
      rw [exchange_noteIngest, if_neg hother]

theorem delivery_noteAnswer (env : Env α) (sid : SessionId) (clientId : Bytes)
    (packetId : UInt16) (event : IngestEvent) (b : Broker α) :
    (Session.noteAnswer env sid clientId packetId event b).delivery = b.delivery := by
  unfold Session.noteAnswer
  split_ifs
  · rfl
  · rfl

theorem receiveQos2_kept {env : Env α} {sid : SessionId} {pub : PublishPacket} {b : Broker α}
    (h : IngestKept b) : IngestKept (Session.receiveQos2 env sid pub b) := by
  unfold Session.receiveQos2
  dsimp only
  generalize (b.sessions sid).clientId = clientId
  generalize hmsg : (⟨pub.topic, pub.payload, pub.qos⟩ : IncomingMessage) = msg
  obtain ⟨hholds, hothers⟩ :=
    exchange_noteReceived h.settled env sid clientId pub.packetId msg
  have hstore := delivery_noteAnswer env sid clientId pub.packetId .pubrec
    (b.observe (.noteIngest clientId pub.packetId (.publish msg)))
  generalize Session.noteAnswer env sid clientId pub.packetId .pubrec
    (b.observe (.noteIngest clientId pub.packetId (.publish msg))) = noted
    at hholds hothers hstore ⊢
  have hdelivered := keepsIngest_frame.deliver env sid (.pubrec pub.packetId) noted
  generalize Session.deliver env sid (.pubrec pub.packetId) noted = delivered at hdelivered ⊢
  have hexchange : ∀ clientId' packetId',
      exchange (DeliveryEngine.storeIncomingQos2 clientId pub delivered) clientId' packetId' =
        exchange noted clientId' packetId' := hdelivered.exchange
  constructor
  · intro clientId' packetId'
    rw [hexchange]
    by_cases hsame : clientId' = clientId ∧ packetId' = pub.packetId
    · rw [hsame.1, hsame.2]
      exact hholds.settled
    · rw [hothers clientId' packetId' hsame]
      exact h.settled clientId' packetId'
  · intro clientId' packetId' msg' hstored
    rw [hexchange]
    rw [DeliveryEngine.incoming?_storeIncomingQos2, hmsg] at hstored
    split_ifs at hstored with hsame
    · rw [← Option.some.inj hstored, hsame.1, hsame.2]
      exact hholds
    · rw [hothers clientId' packetId' hsame]
      apply h.stored
      have hbefore := hdelivered.incoming clientId' packetId' msg' hstored
      rw [hstore] at hbefore
      exact hbefore

theorem acceptPublish_ingestKept {env : Env α} {sid : SessionId} {pub : PublishPacket}
    {b : Broker α} (h : IngestKept b) : IngestKept (Session.acceptPublish env sid pub b) := by
  apply (ingestKept_frame.session env sid).acceptPublish_of_receive _ _ _ h
  · intro b' _ hb
    exact receiveQos2_kept hb
  · intro b' hb
    have hdelivery := keepsIngest_frame.delivery env
    exact hb.of_keeps (hdelivery.qos1Deliver keepsIngest_tables.toPendingFree pub b')
  · exact ingestKept_frame.storeRetained env pub

/-! ## PUBREL -/

/-- The message of the PUBREL is in the store, and the session has room for the
copies it gets itself and for PUBCOMP. -/
def Releasable (env : Env α) (b : Broker α) (sid : SessionId) (packetId : UInt16) : Prop :=
  ∃ msg, b.delivery.incoming? (b.sessions sid).clientId packetId = some msg ∧
    HasRoom env.cfg (1 + (b.tree.lookup msg.topic).countP (·.session = sid)) (b.sessions sid)

theorem exchange_noteForwarded {b : Broker α} {clientId : Bytes} {packetId : UInt16}
    {msg : IncomingMessage} (h : (exchange b clientId packetId).Holds msg)
    (store : Map Bytes (Map UInt16 IncomingMessage)) (clientId' : Bytes) (packetId' : UInt16) :
    exchange (((b.observe (.noteIngest clientId packetId .pubrel)).setIncoming store).observe
        (.noteIngest clientId packetId (.forward msg))) clientId' packetId' =
      if clientId' = clientId ∧ packetId' = packetId then .released none
      else exchange b clientId' packetId' := by
  have hstore : ∀ clientId' packetId',
      exchange ((b.observe (.noteIngest clientId packetId .pubrel)).setIncoming store)
        clientId' packetId' =
      exchange (b.observe (.noteIngest clientId packetId .pubrel)) clientId' packetId' :=
    fun _ _ => rfl
  rw [exchange_noteIngest, hstore, hstore, exchange_noteIngest, exchange_noteIngest]
  by_cases hsame : clientId' = clientId ∧ packetId' = packetId
  · rw [if_pos hsame, if_pos hsame, if_pos ⟨rfl, rfl⟩, h.pubrel]
    exact if_pos rfl
  · rw [if_neg hsame, if_neg hsame, if_neg hsame]

theorem IngestKept.complete {b b' : Broker α} {clientId : Bytes} {packetId : UInt16}
    (h : IngestKept b)
    (hexchange : ∀ clientId' packetId', exchange b' clientId' packetId' =
      if clientId' = clientId ∧ packetId' = packetId then .released none
      else exchange b clientId' packetId')
    (hincoming : ∀ clientId' packetId' msg, b'.delivery.incoming? clientId' packetId' = some msg →
      ¬(clientId' = clientId ∧ packetId' = packetId) ∧
        b.delivery.incoming? clientId' packetId' = some msg) :
    IngestKept (b'.observe (.noteIngest clientId packetId .pubcomp)) := by
  constructor
  · intro clientId' packetId'
    rw [exchange_noteIngest]
    split_ifs with hsame
    · rw [hexchange, if_pos ⟨rfl, rfl⟩]
      trivial
    · rw [hexchange, if_neg hsame]
      exact h.settled clientId' packetId'
  · intro clientId' packetId' msg hmsg
    obtain ⟨hother, hbefore⟩ := hincoming clientId' packetId' msg hmsg
    rw [exchange_noteIngest, if_neg hother, hexchange, if_neg hother]
    exact h.stored clientId' packetId' msg hbefore

theorem releaseQos2_ingestKept {env : Env α} {sid : SessionId} {packetId : UInt16} {b : Broker α}
    (h : IngestKept b) (hrelease : Releasable env b sid packetId) :
    IngestKept (Session.releaseQos2 env sid (b.sessions sid).clientId packetId b) := by
  obtain ⟨msg, hstored, hroom⟩ := hrelease
  generalize (b.sessions sid).clientId = clientId at hstored ⊢
  have hstored' : (b.observe (.noteIngest clientId packetId .pubrel)).delivery.incoming?
      clientId packetId = some msg := hstored
  obtain ⟨store, htake, _⟩ := takeIncoming_eq clientId packetId
    (b.observe (.noteIngest clientId packetId .pubrel))
  have hexchange := exchange_noteForwarded (h.stored clientId packetId msg hstored) store
  have hincoming : ∀ clientId' packetId',
      (((b.observe (.noteIngest clientId packetId .pubrel)).setIncoming store).observe
        (.noteIngest clientId packetId (.forward msg))).delivery.incoming? clientId' packetId' =
      if clientId' = clientId ∧ packetId' = packetId then none
      else b.delivery.incoming? clientId' packetId' := by
    have htaken := DeliveryEngine.incoming?_takeIncoming clientId packetId
      (b.observe (.noteIngest clientId packetId .pubrel))
    rw [htake] at htaken
    exact htaken
  have hroom' : HasRoom env.cfg 1 ((Qos2Handler.deliver env
      { topic := msg.topic, payload := msg.payload, qos := msg.qos }
      (((b.observe (.noteIngest clientId packetId .pubrel)).setIncoming store).observe
        (.noteIngest clientId packetId (.forward msg)))).sessions sid) := by
    refine HasRoom.fanOut (fun entry b => ?_) hroom
    obtain ⟨pid, hhands⟩ := qos2DeliverTo_handsOver env
      { topic := msg.topic, payload := msg.payload, qos := msg.qos } entry b
    exact ⟨_, _, hhands⟩
  unfold Session.releaseQos2 DeliveryEngine.completeIncomingQos2
  rw [hstored']
  dsimp only
  rw [htake]
  generalize ((b.observe (.noteIngest clientId packetId .pubrel)).setIncoming store).observe
    (.noteIngest clientId packetId (.forward msg)) = forwarded at hexchange hincoming hroom' ⊢
  -- The copies change neither the exchanges nor the store.
  have hcopies := (keepsIngest_frame.delivery env).qos2Deliver keepsIngest_tables.toOutgoingFree
    { topic := msg.topic, payload := msg.payload, qos := msg.qos } forwarded
  generalize Qos2Handler.deliver env
    { topic := msg.topic, payload := msg.payload, qos := msg.qos } forwarded = copied
    at hroom' hcopies ⊢
  have haccepts : Session.accepts env.cfg ((Session.countPublished copied).sessions sid) = true :=
    (accepts_iff_hasRoom _ _).mpr hroom'
  rw [Session.noteAnswer, if_pos haccepts]
  refine IngestKept.of_keeps ?_ (keepsIngest_frame.deliver env sid _ _)
  apply h.complete
  · intro clientId' packetId'
    exact (hcopies.exchange clientId' packetId').trans (hexchange clientId' packetId')
  · intro clientId' packetId' msg' hmsg'
    have hbefore := hcopies.incoming clientId' packetId' msg' hmsg'
    rw [hincoming] at hbefore
    split_ifs at hbefore with hsame
    exact ⟨hsame, hbefore⟩

/-! ## Steps -/

def NextPubrel (env : Env α) (n : Runtime α) (sid : SessionId) (packetId : UInt16) : Prop :=
  (n.sessions sid).connected = true ∧ ∃ hdr body rest, NextPacket env n sid hdr body ∧
    hdr.type = some .pubrel ∧ PubrelPacket.parse body = .ok (packetId, rest)

/-- The step handles no PUBREL that the broker cannot serve. -/
def PubrelsServed (env : Env α) (n : Runtime α) (e : Event) : Prop :=
  ∀ sid packetId, e = .turn sid → NextPubrel env n sid packetId →
    Releasable env n.toBroker sid packetId

theorem ingestKept_connect (env : Env α) (sid : SessionId) :
    ConnectClosed env sid fun b b' : Broker α => IngestKept b → IngestKept b' where
  frame := ingestKept_frame
  register _ _ _ _ _ h := ⟨h.settled, h.stored⟩
  block _ _ h := ⟨h.settled, h.stored⟩

theorem ingestKept_loop (env : Env α) (sid : SessionId) :
    LoopClosed env sid (fun _ => True) fun b b' : Broker α => IngestKept b → IngestKept b' where
  toSessionFrame := ingestKept_frame.session env sid
  noteHandled _ _ h := ⟨h.settled, h.stored⟩
  rearm _ _ h := ⟨h.settled, h.stored⟩
  stopReading _ h := ⟨h.settled, h.stored⟩

theorem ingestKept_io (env : Env α) :
    IoClosed env fun b b' : Broker α => IngestKept b → IngestKept b' where
  core := ingestKept_frame.toCoreFrame
  retryQos1 b clientId packetId h := by
    have hdelivery := keepsIngest_frame.delivery env
    exact h.of_keeps (hdelivery.qos1RetryMessage keepsIngest_tables.toPendingFree _ _ b)
  retryQos2 b clientId packetId h := by
    have hdelivery := keepsIngest_frame.delivery env
    exact h.of_keeps (hdelivery.qos2RetryMessage keepsIngest_tables.toOutgoingFree _ _ b)
  beginRead _ _ _ h := ⟨h.settled, h.stored⟩
  dropRead _ _ h := ⟨h.settled, h.stored⟩
  clock _ _ h := ⟨h.settled, h.stored⟩
  accept b ip h := by
    unfold Server.onAccept
    dsimp only
    split_ifs
    · exact h
    · exact ⟨h.settled, h.stored⟩
    · exact ⟨h.settled, h.stored⟩
  destroy _ _ _ _ h := ⟨h.settled, h.stored⟩

theorem handlePacket_ingestKept {env : Env α} {sid : SessionId} {packet : Bytes} {b : Broker α}
    (hreading : b.reading = some sid) (hblocked : b.blocked = false)
    (hserved : ∀ hdr body packetId rest, Session.decodeHeader packet = .ok (hdr, body) →
      (b.sessions sid).connected = true → hdr.type = some .pubrel →
      PubrelPacket.parse body = .ok (packetId, rest) → Releasable env b sid packetId)
    (h : IngestKept b) : IngestKept (Session.handlePacket env sid packet b).1 := by
  have hkeeps := keepsIngest_frame.session env sid
  refine (ingestKept_frame.session env sid).handlePacket (b := b) ?_ h
  intro hdr body hdecode
  constructor
  · intro _
    exact (ingestKept_connect env sid).handleConnect body hreading hblocked
  · intro pub rest auth _ _ _ _ _ hb
    have hready : IngestKept (b.setAuth auth) := ⟨hb.settled, hb.stored⟩
    exact acceptPublish_ingestKept hready
  · intro packetId _ _ _ _ hb
    exact hb.of_keeps (hkeeps.qos1HandlePuback keepsIngest_tables.toPendingFree _ packetId b)
  · intro packetId _ _ _ _ hb
    exact hb.of_keeps (hkeeps.qos2HandlePubrec keepsIngest_tables.toOutgoingFree
      fun _ _ => trivial)
  · intro packetId rest hconn htype hparse hb
    exact releaseQos2_ingestKept hb (hserved hdr body packetId rest hdecode hconn htype hparse)
  · intro packetId _ _ _ _ hb
    exact hb.of_keeps (hkeeps.qos2HandlePubcomp keepsIngest_tables.toOutgoingFree _ packetId b)
  · intro sub rest _ _ _ hb
    exact hb.of_keeps
      (keepsIngest_frame.subscribeAll keepsIngest_tables.toNotesFree env sid _ _ _ b)
  · intro unsub _ _ _ _
    exact ingestKept_frame.unsubscribeAll sid _ b
  · intro _
    exact ingestKept_frame.handleDisconnect sid b

theorem step_ingestKept {env : Env α} {n : Runtime α} {e : Event}
    (henabled : n.toBroker.Enabled e) (hserved : PubrelsServed env n e)
    (h : IngestKept n.toBroker) : IngestKept (n.step env e).toBroker := by
  by_cases hturn : ∃ sid, e = .turn sid
  · obtain ⟨sid, rfl⟩ := hturn
    refine (ingestKept_loop env sid).onReadTurn henabled.2 ?_ h
    intro packet parser hextract
    refine handlePacket_ingestKept (b := n.toBroker.observe (.noteHandled sid packet)) henabled.2
      henabled.1 ?_
    intro hdr body packetId rest hdecode hconn htype hparse
    exact hserved sid packetId rfl
      ⟨hconn, hdr, body, rest, ⟨packet, parser, hextract, hdecode⟩, htype, hparse⟩
  · exact (ingestKept_io env).step (fun sid heq => hturn ⟨sid, heq⟩) henabled h

/-- A PUBREL without a stored message goes to `Qos2Handler`. -/
theorem turn_of_stray_pubrel {env : Env α} {n : Runtime α} {sid : SessionId} {packetId : UInt16}
    (hnext : NextPubrel env n sid packetId)
    (hgone : n.delivery.incoming? (n.sessions sid).clientId packetId = none) :
    ∃ packet, (n.step env (.turn sid)).toBroker =
      Qos2Handler.handlePubrel (n.sessions sid).clientId packetId
        ((n.toBroker.observe (.noteHandled sid packet)).observe
          (.noteIngest (n.sessions sid).clientId packetId .pubrel)) := by
  obtain ⟨hconn, hdr, body, rest, hpacket, htype, hparse⟩ := hnext
  obtain ⟨packet, hturn⟩ := onReadTurn_of_next hpacket
  refine ⟨packet, ?_⟩
  change n.toBroker.delivery.incoming? (n.toBroker.sessions sid).clientId packetId = none at hgone
  change (Session.onReadTurn env sid n).toBroker = _
  generalize hb : n.toBroker.observe (.noteHandled sid packet) = b at hturn ⊢
  have hsessions : b.sessions = n.sessions := by
    rw [← hb]
    rfl
  have hgone' : (b.observe
      (.noteIngest (b.sessions sid).clientId packetId .pubrel)).delivery.incoming?
        (b.sessions sid).clientId packetId = none := by
    rw [← hb]
    exact hgone
  rw [hturn, Session.dispatch, htype, ← hsessions]
  rw [← hsessions] at hconn
  simp only [Session.handlePubrel, Session.handleAck, hconn, Bool.not_true, Bool.false_eq_true,
    if_false, hparse, Session.releaseQos2, DeliveryEngine.completeIncomingQos2, hgone',
    Session.catchException]

theorem pubrel_unanswered {env : Env α} {n : Runtime α} {sid : SessionId} {packetId : UInt16}
    (hnext : NextPubrel env n sid packetId)
    (hgone : n.delivery.incoming? (n.sessions sid).clientId packetId = none) :
    ¬ExactlyOnce (n.step env (.turn sid)).toBroker := by
  obtain ⟨packet, hstep⟩ := turn_of_stray_pubrel hnext hgone
  have hkeeps := (keepsIngest_frame.delivery env).qos2HandlePubrel keepsIngest_tables.toOutgoingFree
    (n.sessions sid).clientId packetId
    ((n.toBroker.observe (.noteHandled sid packet)).observe
      (.noteIngest (n.sessions sid).clientId packetId .pubrel))
  intro hsettled
  have hpid := hsettled (n.sessions sid).clientId packetId
  rw [hstep, hkeeps.exchange, exchange_noteIngest, if_pos ⟨rfl, rfl⟩] at hpid
  exact Exchange.not_settled_pubrel _ hpid

/-- In every state of a run whose PUBRELs can be served, every PUBREL was
answered after its message was forwarded once; and a PUBREL without a stored
message is not answered. -/
theorem qos2_ingest_exactly_once (env : Env α) (n : Runtime α)
    (hn : ((brokerSystem env).restrict (PubrelsServed env)).Reachable n) :
    ExactlyOnce n.toBroker ∧
      ∀ sid packetId, NextPubrel env n sid packetId →
        n.delivery.incoming? (n.sessions sid).clientId packetId = none →
        ¬ExactlyOnce (n.step env (.turn sid)).toBroker := by
  have hkept : IngestKept n.toBroker := by
    refine hn.invariant (P := fun n => IngestKept n.toBroker) ?_ ?_
    · rintro _ ⟨auth, rfl⟩
      exact IngestKept.init auth
    · intro n e hkept henabled
      exact step_ingestKept henabled.1 henabled.2 hkept
  exact ⟨hkept.settled, fun sid packetId hnext hgone => pubrel_unanswered hnext hgone⟩

def qos2PublishBytes : Bytes :=
  connectBytes false [0x63] ++ (OutPacket.publish [0x74] [0x6d] 2 false false 5).bytes

def qos2Events : List Event :=
  [.accept [0x69], .read 0 (qos2PublishBytes ++ (OutPacket.pubrel 5).bytes), .turn 0, .turn 0]

/-- The undisturbed exchange is forwarded once and completed. -/
theorem qos2_ingest_exactly_once_undisturbed :
    let n := (brokerSystem defaultEnv).after { auth := () } (qos2Events ++ [.turn 0])
    n.history.ingest.map (·.2.2) =
      [.publish ⟨[0x74], [0x6d], 2⟩, .pubrec, .pubrel, .forward ⟨[0x74], [0x6d], 2⟩, .pubcomp] ∧
    ExactlyOnce n.toBroker := by
  have hvacuous : ∀ {n : Runtime Unit} {e : Event}, (∀ sid, e ≠ .turn sid) →
      PubrelsServed defaultEnv n e := fun hturn sid _ heq => absurd heq (hturn sid)
  refine ⟨by decide +kernel, (qos2_ingest_exactly_once defaultEnv _ ?_).1⟩
  refine .of_allowed ⟨(), rfl⟩ ⟨⟨⟨rfl, rfl, trivial⟩, hvacuous nofun⟩,
    ⟨⟨rfl, rfl, rfl, ?_, ?_⟩, hvacuous nofun⟩, ⟨⟨?_, ?_⟩, ?_⟩, ⟨⟨?_, ?_⟩, ?_⟩, ⟨⟨?_, ?_⟩, ?_⟩,
    trivial⟩
  any_goals decide +kernel
  · -- CONNECT
    rintro _ packetId ⟨⟩ ⟨hconn, _⟩
    exact absurd hconn (by decide +kernel)
  · -- PUBLISH
    rintro _ packetId ⟨⟩ ⟨_, hdr, body, rest, hnext, htype, _⟩
    obtain ⟨hhdr, _⟩ := hnext.unique
      ⟨(OutPacket.publish [0x74] [0x6d] 2 false false 5).bytes,
        { buffer := (OutPacket.pubrel 5).bytes }, by decide +kernel, rfl⟩
    rw [hhdr] at htype
    cases htype
  · -- PUBREL
    rintro _ packetId ⟨⟩ ⟨_, hdr, body, rest, hnext, _, hparse⟩
    obtain ⟨_, hbody⟩ := hnext.unique ⟨(OutPacket.pubrel 5).bytes, {}, by decide +kernel, rfl⟩
    rw [hbody] at hparse
    cases hparse
    exact ⟨⟨[0x74], [0x6d], 2⟩, by decide +kernel, by decide +kernel, by decide +kernel⟩

/-- The connection is lost between PUBREC and PUBREL.  The client connects again
and repeats the PUBREL, which is not answered, and the message is lost. -/
theorem qos2_message_lost_with_connection :
    let events : List Event :=
      [.accept [0x69], .read 0 qos2PublishBytes, .turn 0, .turn 0, .turn 0, .readError 0,
        .accept [0x69], .read 1 (connectBytes false [0x63] ++ (OutPacket.pubrel 5).bytes), .turn 1,
        .turn 1]
    let n := (brokerSystem defaultEnv).after { auth := () } events
    (brokerSystem defaultEnv).Reachable n ∧
    n.history.ingest =
      [([0x63], 5, .publish ⟨[0x74], [0x6d], 2⟩), ([0x63], 5, .pubrec), ([0x63], 5, .pubrel)] ∧
    ¬ExactlyOnce n.toBroker := by
  intro events n
  have hexchange : exchange n.toBroker [0x63] 5 = .released (some ⟨[0x74], [0x6d], 2⟩) := by
    decide +kernel
  refine ⟨?_, by decide +kernel, ?_⟩
  · refine .of_allowed ⟨(), rfl⟩ ⟨⟨rfl, rfl, trivial⟩, ⟨rfl, rfl, rfl, ?_, ?_⟩, ⟨?_, ?_⟩, ⟨?_, ?_⟩,
      ⟨?_, ?_⟩, ⟨?_, ?_, ?_⟩, ⟨?_, ?_, trivial⟩, ⟨?_, ?_, ?_, ?_, ?_⟩, ⟨?_, ?_⟩, ⟨?_, ?_⟩,
      trivial⟩ <;> decide +kernel
  · intro hsettled
    have hpid := hsettled [0x63] 5
    rw [hexchange] at hpid
    exact hpid

end JellyBroker
