import JellyBroker.Broker.HandlerCalls
import JellyBroker.Broker.Ingest
/-!
# The two directions of QoS 2

A client has messages of QoS 2 on their way to the broker and messages of QoS 2
on their way from it, each with packet ids of their own.  A PUBREL that belongs
to no message of the first kind goes to `Qos2Handler`, which keeps the second
kind.
-/

namespace JellyBroker

open JellyBroker.Lib JellyBroker.Packet JellyBroker.Qos JellyBroker.Topic

variable {α : Type}

/-! ## Relations between tables of outgoing messages -/

def SameOutgoing (b b' : Broker α) : Prop := b'.delivery.outgoing = b.delivery.outgoing

theorem sameOutgoing_frame : Frame (SameOutgoing (α := α)) where
  refl _ := rfl
  trans h h' := Eq.trans h' h
  misc _ _ _ _ _ _ _ := rfl
  noteHanded _ _ := rfl
  plumbing _ _ _ _ := rfl
  close b sid hconn := by
    obtain ⟨tree, subManager, hclose⟩ := Session.close_of_connected hconn
    rw [hclose]
    dsimp only [SameOutgoing, Session.clearClientIncoming]
    split <;> rfl
  disconnect _ _ := rfl

/-- A relation between the outgoing messages before and after that a turn of the
delivery loop stays inside. -/
structure OutgoingRelation (env : Env α) (R : Broker α → Broker α → Prop) : Prop where
  same : ∀ {b b'}, SameOutgoing b b' → R b b'
  trans : ∀ {b₁ b₂ b₃}, R b₁ b₂ → R b₂ b₃ → R b₁ b₃
  deliverTo : ∀ pub entry b, R b (Qos2Handler.deliverTo env pub entry b)

structure Qos2Cases (env : Env α) (sid : SessionId) (R : Broker α → Broker α → Prop)
    (hdr : FixedHeader) (body : Bytes) (b : Broker α) : Prop where
  pubrec : ∀ packetId rest, (b.sessions sid).connected = true → hdr.type = some .pubrec →
    PubrecPacket.parse body = .ok (packetId, rest) →
    R b (Qos2Handler.handlePubrec env (b.sessions sid).clientId packetId b)
  pubrel : ∀ packetId rest, (b.sessions sid).connected = true → hdr.type = some .pubrel →
    PubrelPacket.parse body = .ok (packetId, rest) →
    b.delivery.incoming? (b.sessions sid).clientId packetId = none →
    R (b.observe (.noteIngest (b.sessions sid).clientId packetId .pubrel))
      (Qos2Handler.handlePubrel (b.sessions sid).clientId packetId
        (b.observe (.noteIngest (b.sessions sid).clientId packetId .pubrel)))
  pubcomp : ∀ packetId rest, (b.sessions sid).connected = true → hdr.type = some .pubcomp →
    PubcompPacket.parse body = .ok (packetId, rest) →
    R b (Qos2Handler.handlePubcomp (b.sessions sid).clientId packetId b)

theorem sameOutgoing_pending : PendingFree (SameOutgoing (α := α)) where
  noteSent _ _ := rfl
  noteSettled _ _ := rfl
  pending _ _ := rfl

namespace OutgoingRelation

variable {env : Env α} {R : Broker α → Broker α → Prop} (h : OutgoingRelation env R)

include h

theorem table : TableRelation R where
  same hsame := h.same hsame.outgoing
  trans := h.trans

theorem deliver (pub : PublishPacket) (b : Broker α) : R b (Qos2Handler.deliver env pub b) :=
  (h.table.frame.delivery env).fanOut (h.deliverTo pub) _ b

theorem cases {sid : SessionId} {hdr : FixedHeader} {body : Bytes} {b : Broker α}
    (hqos2 : Qos2Cases env sid R hdr body b) : TableCases env sid R hdr body b := by
  have hsession := (sameOutgoing_frame (α := α)).session env sid
  constructor
  · intro _ _ pub b'
    exact h.same (hsession.qos1Deliver sameOutgoing_pending pub b')
  · intro packetId _ _ _ _
    exact h.same (hsession.qos1HandlePuback sameOutgoing_pending _ packetId b)
  · exact hqos2.pubrec
  · intro _ _ _ _ _ _ _ pub b'
    exact h.deliver pub b'
  · exact hqos2.pubrel
  · exact hqos2.pubcomp

/-- A step stays in the relation if the packets that end an exchange do, and the
retries. -/
theorem step {n : Runtime α} {e : Event} (henabled : n.toBroker.Enabled e)
    (hcases : ∀ sid hdr body b, e = .turn sid → NextPacket env n sid hdr body →
      b.sessions = n.sessions → b.delivery = n.delivery → Qos2Cases env sid R hdr body b)
    (hretry : ∀ clientId packetId, e = .retryQos2 clientId packetId →
      R n.toBroker (Qos2Handler.retryMessage env clientId packetId n.toBroker)) :
    R n.toBroker (n.step env e).toBroker := by
  refine h.table.step henabled ?_ ?_ hretry
  · intro sid hdr body b hturn hnext hsessions hdelivery
    exact h.cases (hcases sid hdr body b hturn hnext hsessions hdelivery)
  · intro clientId packetId _
    have hdelivery := (sameOutgoing_frame (α := α)).delivery env
    exact h.same (hdelivery.qos1RetryMessage sameOutgoing_pending clientId packetId _)

end OutgoingRelation

/-! ## Messages stay in flight -/

def Grows (b b' : Broker α) : Prop :=
  b.delivery.outgoing.Reserved → b'.delivery.outgoing.Reserved ∧
    ∀ clientId packetId msg, b.delivery.outgoing.message? clientId packetId = some msg →
      b'.delivery.outgoing.message? clientId packetId = some msg

/-- Where a message was in flight there is still one, apart from the ids that
may be gone. -/
def StaysExcept (gone : Bytes → UInt16 → Prop) (b b' : Broker α) : Prop :=
  b.delivery.outgoing.Reserved → b'.delivery.outgoing.Reserved ∧
    ∀ clientId packetId, ¬gone clientId packetId →
      b.delivery.outgoing.message? clientId packetId ≠ none →
      b'.delivery.outgoing.message? clientId packetId ≠ none

theorem Grows.of_same {b b' : Broker α} (h : SameOutgoing b b') : Grows b b' := by
  intro hreserved
  rw [h]
  exact ⟨hreserved, fun _ _ _ hmsg => hmsg⟩

theorem Grows.trans {b₁ b₂ b₃ : Broker α} (h : Grows b₁ b₂) (h' : Grows b₂ b₃) : Grows b₁ b₃ := by
  intro hreserved
  have hfirst := h hreserved
  have hsecond := h' hfirst.1
  refine ⟨hsecond.1, ?_⟩
  intro clientId packetId msg hmsg
  exact hsecond.2 clientId packetId msg (hfirst.2 clientId packetId msg hmsg)

theorem qos2DeliverTo_grows (env : Env α) (pub : PublishPacket) (entry : SubscriberEntry)
    (b : Broker α) : Grows b (Qos2Handler.deliverTo env pub entry b) := by
  have hdeliver (packet : OutPacket) (b' : Broker α) :
      Grows b' (Session.deliver env entry.session packet b') :=
    .of_same (sameOutgoing_frame.deliver env entry.session packet b')
  unfold Qos2Handler.deliverTo
  dsimp only
  split_ifs with hgranted hpid
  · refine Grows.trans (.of_same ?_) (hdeliver _ _)
    unfold noteUntracked
    split_ifs <;> rfl
  · intro hreserved
    refine ⟨hreserved.exhausted _, ?_⟩
    intro clientId packetId msg hmsg
    exact (ClientTable.message?_exhausted _ _ clientId packetId).trans hmsg
  · refine Grows.trans ?_ (hdeliver _ _)
    intro hreserved
    refine ⟨hreserved.send hpid _, ?_⟩
    intro clientId packetId msg hmsg
    exact hreserved.kept_send hpid _ hmsg

theorem grows_relation (env : Env α) : OutgoingRelation env (Grows (α := α)) where
  same := Grows.of_same
  trans := Grows.trans
  deliverTo := qos2DeliverTo_grows env

theorem Grows.staysExcept {b b' : Broker α} (h : Grows b b') (gone : Bytes → UInt16 → Prop) :
    StaysExcept gone b b' := by
  intro hreserved
  refine ⟨(h hreserved).1, ?_⟩
  intro clientId packetId _ hsome
  obtain ⟨msg, hmsg⟩ := Option.ne_none_iff_exists'.mp hsome
  rw [(h hreserved).2 clientId packetId msg hmsg]
  exact nofun

namespace StaysExcept

variable {gone : Bytes → UInt16 → Prop} {b b' : Broker α}

theorem trans {b'' : Broker α} (h : StaysExcept gone b b') (h' : StaysExcept gone b' b'') :
    StaysExcept gone b b'' := by
  intro hreserved
  have hfirst := h hreserved
  have hsecond := h' hfirst.1
  refine ⟨hsecond.1, ?_⟩
  intro clientId packetId hstays hsome
  exact hsecond.2 clientId packetId hstays (hfirst.2 clientId packetId hstays hsome)

theorem relation (env : Env α) (gone : Bytes → UInt16 → Prop) :
    OutgoingRelation env (StaysExcept (α := α) gone) where
  same h := (Grows.of_same h).staysExcept gone
  trans := trans
  deliverTo pub entry b := (qos2DeliverTo_grows env pub entry b).staysExcept gone

theorem remove {clientId : Bytes} {packetId : UInt16}
    (h : b'.delivery.outgoing = b.delivery.outgoing.remove clientId packetId)
    (hgone : gone clientId packetId) : StaysExcept gone b b' := by
  intro hreserved
  rw [h]
  refine ⟨hreserved.remove _ _, ?_⟩
  intro clientId' packetId' hstays hsome
  rw [ClientTable.message?_remove, if_neg]
  · exact hsome
  · rintro ⟨rfl, rfl⟩
    exact hstays hgone

theorem setMessage {clientId : Bytes} {packetId : UInt16} {old : OutgoingMessage}
    (hold : b.delivery.outgoing.message? clientId packetId = some old) (msg : OutgoingMessage) :
    StaysExcept gone b
      (b.setOutgoing (b.delivery.outgoing.setMessage clientId packetId msg)) := by
  intro hreserved
  refine ⟨hreserved.setMessage hold msg, ?_⟩
  intro clientId' packetId' _ hsome
  change (b.delivery.outgoing.setMessage clientId packetId msg).message? clientId' packetId' ≠ none
  rw [ClientTable.message?_setMessage hold]
  split_ifs
  · exact nofun
  · exact hsome

theorem deliver (env : Env α) (sid : SessionId) (packet : OutPacket) (b : Broker α) :
    StaysExcept gone b (Session.deliver env sid packet b) :=
  (relation env gone).same (sameOutgoing_frame.deliver env sid packet b)

theorem handlePubrec (env : Env α) (clientId : Bytes) (packetId : UInt16) (b : Broker α) :
    StaysExcept gone b (Qos2Handler.handlePubrec env clientId packetId b) := by
  apply Qos2Handler.handlePubrec_rule ((relation env gone).same rfl)
  · intro msg hmsg
    exact setMessage hmsg _
  · intro msg marked _ hmarked
    exact hmarked.trans (deliver env _ _ _)

theorem handlePubrel {clientId : Bytes} {packetId : UInt16}
    (hgone : b.delivery.outgoing.message? clientId packetId ≠ none → gone clientId packetId) :
    StaysExcept gone b (Qos2Handler.handlePubrel clientId packetId b) := by
  unfold Qos2Handler.handlePubrel
  cases hmsg : b.delivery.outgoing.message? clientId packetId with
  | none => exact (Grows.of_same rfl).staysExcept gone
  | some msg =>
      apply remove rfl
      apply hgone
      rw [hmsg]
      exact nofun

theorem retryMessage (env : Env α) {clientId : Bytes} {packetId : UInt16}
    (hgone : ∀ msg, b.delivery.outgoing.message? clientId packetId = some msg →
      msg.retryCount ≥ env.cfg.maxRetryCount → gone clientId packetId) :
    StaysExcept gone b (Qos2Handler.retryMessage env clientId packetId b) := by
  apply Qos2Handler.retryMessage_rule ((relation env gone).same rfl)
  · intro msg hmsg hused
    exact remove rfl (hgone msg hmsg hused)
  · intro msg hmsg
    exact setMessage hmsg _
  · intro msg counted _ hcounted
    exact hcounted.trans (deliver env _ _ _)

end StaysExcept

/-! ## How a message leaves the table -/

def EndsByPubcomp (env : Env α) (n : Runtime α) (e : Event) (clientId : Bytes)
    (packetId : UInt16) : Prop :=
  ∃ sid hdr body rest, e = .turn sid ∧ NextPacket env n sid hdr body ∧
    (n.sessions sid).connected = true ∧ (n.sessions sid).clientId = clientId ∧
    hdr.type = some .pubcomp ∧ PubcompPacket.parse body = .ok (packetId, rest)

def EndsByRetry (env : Env α) (n : Runtime α) (e : Event) (clientId : Bytes)
    (packetId : UInt16) : Prop :=
  e = .retryQos2 clientId packetId ∧ ∃ msg,
    n.delivery.outgoing.message? clientId packetId = some msg ∧
    msg.retryCount ≥ env.cfg.maxRetryCount

/-- The step handles a PUBREL of the client under whose id no message is stored
from the client, but one is in flight to it. -/
def StrayPubrel (env : Env α) (n : Runtime α) (e : Event) (clientId : Bytes)
    (packetId : UInt16) : Prop :=
  ∃ sid, e = .turn sid ∧ NextPubrel env n sid packetId ∧ (n.sessions sid).clientId = clientId ∧
    n.delivery.incoming? clientId packetId = none ∧
    n.delivery.outgoing.message? clientId packetId ≠ none

theorem step_staysExcept {env : Env α} {n : Runtime α} {e : Event}
    (henabled : n.toBroker.Enabled e) :
    StaysExcept (fun clientId packetId => EndsByPubcomp env n e clientId packetId ∨
        EndsByRetry env n e clientId packetId ∨ StrayPubrel env n e clientId packetId)
      n.toBroker (n.step env e).toBroker := by
  refine (StaysExcept.relation env _).step henabled ?_ ?_
  · intro sid hdr body b hturn hnext hsessions hdelivery
    constructor
    · intro packetId _ _ _ _
      exact StaysExcept.handlePubrec env _ packetId b
    · intro packetId rest hconn htype hparse hgone
      apply StaysExcept.handlePubrel
      intro hsome
      rw [hsessions] at hconn hgone hsome ⊢
      change (b.delivery.outgoing.message? (n.sessions sid).clientId packetId) ≠ none at hsome
      rw [hdelivery] at hgone hsome
      exact Or.inr (Or.inr ⟨sid, hturn, ⟨hconn, hdr, body, rest, hnext, htype, hparse⟩, rfl, hgone,
        hsome⟩)
    · intro packetId rest hconn htype hparse
      apply StaysExcept.remove rfl
      rw [hsessions] at hconn ⊢
      exact Or.inl ⟨sid, hdr, body, rest, hturn, hnext, hconn, rfl, htype, hparse⟩
  · intro clientId packetId hretry
    apply StaysExcept.retryMessage
    intro msg hmsg hcount
    exact Or.inr (Or.inl ⟨hretry, msg, hmsg, hcount⟩)

/-! ## The directions -/

/-- A PUBLISH or PUBREL of a client leaves the messages in flight to the client
as they are, and a message leaves the table only by a PUBCOMP of its client or
when its retries are used up. -/
structure DirectionsApart (env : Env α) (n : Runtime α) (e : Event) : Prop where
  kept : ∀ sid hdr body, e = .turn sid → NextPacket env n sid hdr body →
    hdr.type = some .publish ∨ hdr.type = some .pubrel →
    ∀ packetId msg, n.delivery.outgoing.message? (n.sessions sid).clientId packetId = some msg →
      (n.step env e).delivery.outgoing.message? (n.sessions sid).clientId packetId = some msg
  leaves : ∀ clientId packetId, n.delivery.outgoing.message? clientId packetId ≠ none →
    (n.step env e).delivery.outgoing.message? clientId packetId = none →
    EndsByPubcomp env n e clientId packetId ∨ EndsByRetry env n e clientId packetId

theorem handlePubrel_of_none {clientId : Bytes} {packetId : UInt16} {b : Broker α}
    (h : b.delivery.outgoing.message? clientId packetId = none) :
    Qos2Handler.handlePubrel clientId packetId b = b := by
  unfold Qos2Handler.handlePubrel
  rw [h]

theorem turn_grows {env : Env α} {n : Runtime α} {sid : SessionId} {hdr : FixedHeader}
    {body : Bytes} (henabled : n.toBroker.Enabled (.turn sid))
    (hnext : NextPacket env n sid hdr body)
    (htype : hdr.type = some .publish ∨ hdr.type = some .pubrel)
    (hstray : ∀ packetId, ¬StrayPubrel env n (.turn sid) (n.sessions sid).clientId packetId) :
    Grows n.toBroker (n.step env (.turn sid)).toBroker := by
  refine (grows_relation env).step henabled ?_ nofun
  rintro _ hdr' body' b ⟨⟩ hnext' hsessions hdelivery
  obtain ⟨rfl, rfl⟩ := hnext.unique hnext'
  constructor
  · intro packetId rest _ htype'
    rw [htype'] at htype
    exact absurd htype (by decide)
  · intro packetId rest hconn htype' hparse hgone
    rw [hsessions, hdelivery] at hgone
    rw [hsessions] at hconn ⊢
    have hnone : b.delivery.outgoing.message? (n.sessions sid).clientId packetId = none := by
      rw [hdelivery]
      by_contra hsome
      exact hstray packetId ⟨sid, rfl, ⟨hconn, hdr, body, rest, hnext, htype', hparse⟩, rfl, hgone,
        hsome⟩
    rw [handlePubrel_of_none
      (b := b.observe (.noteIngest (n.sessions sid).clientId packetId .pubrel)) hnone]
    exact .of_same rfl
  · intro packetId rest _ htype'
    rw [htype'] at htype
    exact absurd htype (by decide)

theorem handlePubrel_removes (clientId : Bytes) (packetId : UInt16) (b : Broker α) :
    (Qos2Handler.handlePubrel clientId packetId b).delivery.outgoing.message? clientId packetId =
      none := by
  unfold Qos2Handler.handlePubrel
  cases hmsg : b.delivery.outgoing.message? clientId packetId with
  | none => exact hmsg
  | some msg =>
      change (b.delivery.outgoing.remove clientId packetId).message? clientId packetId = none
      rw [ClientTable.message?_remove, if_pos ⟨rfl, rfl⟩]

/-- The two directions do not interfere exactly in the steps without a stray
PUBREL. -/
theorem directionsApart_iff (env : Env α) (n : Runtime α) (e : Event)
    (hn : (brokerSystem env).Reachable n) (henabled : n.toBroker.Enabled e) :
    DirectionsApart env n e ↔
      ∀ clientId packetId, ¬StrayPubrel env n e clientId packetId := by
  have hreserved := (tablesReserved_reachable hn).outgoing
  constructor
  · rintro hapart clientId packetId ⟨sid, rfl, hnext, rfl, hgone, hsome⟩
    obtain ⟨packet, hstep⟩ := turn_of_stray_pubrel hnext hgone
    obtain ⟨msg, hmsg⟩ := Option.ne_none_iff_exists'.mp hsome
    obtain ⟨_, hdr, body, _, hpacket, htype, _⟩ := hnext
    have hkept := hapart.kept sid hdr body rfl hpacket (Or.inr htype) packetId msg hmsg
    rw [hstep, handlePubrel_removes] at hkept
    cases hkept
  · intro hstray
    constructor
    · rintro sid hdr body rfl hnext htype packetId msg hmsg
      exact (turn_grows henabled hnext htype (hstray _) hreserved).2 _ packetId msg hmsg
    · intro clientId packetId hsome hnone
      by_contra hends
      rw [not_or] at hends
      refine (step_staysExcept henabled hreserved).2 clientId packetId ?_ hsome hnone
      rintro (hpubcomp | hretry | hpubrel)
      · exact hends.1 hpubcomp
      · exact hends.2 hretry
      · exact hstray clientId packetId hpubrel

/-- A client subscribes to the topic that it sends a message of QoS 2 to.  The
message is under the id 1 in both directions. -/
def echoBytes : Bytes :=
  connectBytes true [0x63] ++ subscribeBytes 1 [0x74] 2 ++
    (OutPacket.publish [0x74] [0x6d] 2 false false 1).bytes ++ (OutPacket.pubrel 1).bytes

def echoEvents : List Event :=
  [.accept [0x69], .read 0 (echoBytes ++ (OutPacket.pubrel 1).bytes), .turn 0, .turn 0, .turn 0]

/-- The PUBREL of the client's own message puts a copy in flight to it. -/
theorem directionsApart_iff_first_pubrel :
    let n := (brokerSystem defaultEnv).after { auth := () } echoEvents
    (n.step defaultEnv (.turn 0)).delivery.outgoing.message? [0x63] 1 ≠ none ∧
      DirectionsApart defaultEnv n (.turn 0) := by
  intro n
  refine ⟨by decide +kernel, (directionsApart_iff defaultEnv n (.turn 0) ?_ ?_).mpr ?_⟩
  · refine .of_allowed ⟨(), rfl⟩ ⟨⟨rfl, rfl, trivial⟩, ⟨rfl, rfl, rfl, ?_, ?_⟩, ⟨?_, ?_⟩, ⟨?_, ?_⟩,
      ⟨?_, ?_⟩, trivial⟩ <;> decide +kernel
  · refine ⟨?_, ?_⟩ <;> decide +kernel
  · rintro clientId packetId ⟨_, ⟨⟩, ⟨_, hdr, body, rest, hnext, _, hparse⟩, rfl, hgone, _⟩
    obtain ⟨_, hbody⟩ := hnext.unique
      ⟨(OutPacket.pubrel 1).bytes, { buffer := (OutPacket.pubrel 1).bytes }, by decide +kernel, rfl⟩
    rw [hbody] at hparse
    cases hparse
    exact absurd hgone (by decide +kernel)

/-- The client repeats its PUBREL, and the copy is no longer in flight. -/
theorem repeated_pubrel_ends_outgoing :
    let n := (brokerSystem defaultEnv).after { auth := () } (echoEvents ++ [.turn 0])
    (brokerSystem defaultEnv).Reachable n ∧ n.toBroker.Enabled (.turn 0) ∧
      ¬DirectionsApart defaultEnv n (.turn 0) := by
  intro n
  refine ⟨?_, ?_, ?_⟩
  · refine .of_allowed ⟨(), rfl⟩ ⟨⟨rfl, rfl, trivial⟩, ⟨rfl, rfl, rfl, ?_, ?_⟩, ⟨?_, ?_⟩, ⟨?_, ?_⟩,
      ⟨?_, ?_⟩, ⟨?_, ?_⟩, trivial⟩ <;> decide +kernel
  · refine ⟨?_, ?_⟩ <;> decide +kernel
  · intro hapart
    have hnext : NextPacket defaultEnv n 0 _ _ :=
      ⟨(OutPacket.pubrel 1).bytes, {}, by decide +kernel, rfl⟩
    have hkept := hapart.kept 0 _ _ rfl hnext (Or.inr rfl) 1
      { session := 0, topic := [0x74], payload := [0x6d] } (by decide +kernel)
    exact absurd hkept (by decide +kernel)

end JellyBroker
