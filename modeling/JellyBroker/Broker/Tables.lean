import JellyBroker.Broker.FanOut
import JellyBroker.Broker.Invariant
/-!
# The in-flight tables

`Qos1Handler` and `Qos2Handler` keep a table each of the messages in flight.
Only a few packets and the retries reach the tables.  A relation between the
tables before and after a step is proved for these, and for nothing else.
-/

namespace JellyBroker

open JellyBroker.Lib JellyBroker.Packet JellyBroker.Qos JellyBroker.Topic

variable {α : Type}

/-! ## Relations between tables -/

structure SameTables (b b' : Broker α) : Prop where
  pending : b'.delivery.pending = b.delivery.pending
  outgoing : b'.delivery.outgoing = b.delivery.outgoing

theorem sameTables_frame : Frame (SameTables (α := α)) where
  refl _ := ⟨rfl, rfl⟩
  trans h h' := ⟨h'.pending.trans h.pending, h'.outgoing.trans h.outgoing⟩
  misc _ _ _ _ _ _ _ := ⟨rfl, rfl⟩
  noteHanded _ _ := ⟨rfl, rfl⟩
  plumbing _ _ _ _ := ⟨rfl, rfl⟩
  close b sid hconn := by
    obtain ⟨tree, subManager, hclose⟩ := Session.close_of_connected hconn
    rw [hclose]
    unfold Session.clearClientIncoming
    constructor <;> dsimp only <;> split_ifs <;> rfl
  disconnect _ _ := ⟨rfl, rfl⟩

/-- A relation between the broker before and after that only the tables matter
to. -/
structure TableRelation (R : Broker α → Broker α → Prop) : Prop where
  same : ∀ {b b'}, SameTables b b' → R b b'
  trans : ∀ {b₁ b₂ b₃}, R b₁ b₂ → R b₂ b₃ → R b₁ b₃

structure TableCases (env : Env α) (sid : SessionId) (R : Broker α → Broker α → Prop)
    (hdr : FixedHeader) (body : Bytes) (b : Broker α) : Prop where
  publish : (b.sessions sid).connected = true → hdr.type = some .publish →
    ∀ pub b', R b' (Qos1Handler.deliver env pub b')
  puback : ∀ packetId rest, (b.sessions sid).connected = true → hdr.type = some .puback →
    PubackPacket.parse body = .ok (packetId, rest) →
    R b (Qos1Handler.handlePuback (b.sessions sid).clientId packetId b)
  pubrec : ∀ packetId rest, (b.sessions sid).connected = true → hdr.type = some .pubrec →
    PubrecPacket.parse body = .ok (packetId, rest) →
    R b (Qos2Handler.handlePubrec env (b.sessions sid).clientId packetId b)
  forward : ∀ packetId rest msg, (b.sessions sid).connected = true → hdr.type = some .pubrel →
    PubrelPacket.parse body = .ok (packetId, rest) →
    b.delivery.incoming? (b.sessions sid).clientId packetId = some msg →
    ∀ pub b', R b' (Qos2Handler.deliver env pub b')
  stray : ∀ packetId rest, (b.sessions sid).connected = true → hdr.type = some .pubrel →
    PubrelPacket.parse body = .ok (packetId, rest) →
    b.delivery.incoming? (b.sessions sid).clientId packetId = none →
    R (b.observe (.noteIngest (b.sessions sid).clientId packetId .pubrel))
      (Qos2Handler.handlePubrel (b.sessions sid).clientId packetId
        (b.observe (.noteIngest (b.sessions sid).clientId packetId .pubrel)))
  pubcomp : ∀ packetId rest, (b.sessions sid).connected = true → hdr.type = some .pubcomp →
    PubcompPacket.parse body = .ok (packetId, rest) →
    R b (Qos2Handler.handlePubcomp (b.sessions sid).clientId packetId b)

/-- A packet stays in a frame if the CONNECT packets do and those that reach a
table. -/
theorem Frame.handlePacket {env : Env α} {R : Broker α → Broker α → Prop} (h : Frame R)
    (hnotes : NotesFree R) (hingest : IngestFree R) {sid : SessionId} {packet : Bytes}
    {b : Broker α}
    (hconnect : ∀ hdr body, Session.decodeHeader packet = .ok (hdr, body) →
      hdr.type = some .connect → R b (Session.handleConnect env sid body b).1)
    (hcases : ∀ hdr body, Session.decodeHeader packet = .ok (hdr, body) →
      TableCases env sid R hdr body b) :
    R b (Session.handlePacket env sid packet b).1 := by
  have hsession := h.session env sid
  apply hsession.handlePacket
  intro hdr body hdecode
  have htables := hcases hdr body hdecode
  constructor
  · exact hconnect hdr body hdecode
  · intro pub _ auth hconn htype _ _ hauth
    refine h.trans hauth (hsession.acceptPublish (hingest.of _) ?_ ?_)
    · exact htables.publish hconn htype pub
    · exact h.storeRetained env pub
  · exact htables.puback
  · exact htables.pubrec
  · intro packetId rest hconn htype hparse
    apply hsession.releaseQos2 (hingest.of _)
    · intro msg b' hstored
      exact htables.forward packetId rest msg hconn htype hparse hstored _ b'
    · exact htables.stray packetId rest hconn htype hparse
  · exact htables.pubcomp
  · intro sub _ _ _ _
    exact h.subscribeAll hnotes env sid _ _ _ b
  · intro unsub _ _ _ _
    exact h.unsubscribeAll sid _ b
  · intro _
    exact h.handleDisconnect sid b

namespace TableRelation

variable {env : Env α} {R : Broker α → Broker α → Prop} (h : TableRelation R)

include h

theorem frame : Frame R := sameTables_frame.weaken h.same h.trans

theorem notes : NotesFree R where
  noteSent _ _ := h.same ⟨rfl, rfl⟩
  noteSettled _ _ := h.same ⟨rfl, rfl⟩

theorem ingest : IngestFree R where
  incoming _ _ := h.same ⟨rfl, rfl⟩
  noteIngest _ _ _ _ := h.same ⟨rfl, rfl⟩

theorem connect (env : Env α) (sid : SessionId) : ConnectClosed env sid R where
  frame := h.frame
  register _ _ _ _ _ := h.same ⟨rfl, rfl⟩
  block _ _ := h.same ⟨rfl, rfl⟩

theorem loop (env : Env α) (sid : SessionId) : LoopClosed env sid (fun _ => True) R where
  toSessionFrame := h.frame.session env sid
  noteHandled _ _ := h.same ⟨rfl, rfl⟩
  rearm _ _ := h.same ⟨rfl, rfl⟩
  stopReading _ := h.same ⟨rfl, rfl⟩

theorem connection (env : Env α) : ConnectionClosed env R where
  core := h.frame.toCoreFrame
  beginRead _ _ _ := h.same ⟨rfl, rfl⟩
  dropRead _ _ := h.same ⟨rfl, rfl⟩
  accept b ip := by
    apply h.same
    unfold Server.onAccept
    dsimp only
    split_ifs <;> exact ⟨rfl, rfl⟩
  destroy _ _ _ _ := h.same ⟨rfl, rfl⟩

theorem handlePacket {sid : SessionId} {packet : Bytes} {b : Broker α}
    (hreading : b.reading = some sid) (hblocked : b.blocked = false)
    (hcases : ∀ hdr body, Session.decodeHeader packet = .ok (hdr, body) →
      TableCases env sid R hdr body b) :
    R b (Session.handlePacket env sid packet b).1 := by
  refine h.frame.handlePacket h.notes h.ingest ?_ hcases
  intro hdr body _ _
  exact (h.connect env sid).handleConnect body hreading hblocked

theorem turn {n : Runtime α} {sid : SessionId} (henabled : n.toBroker.Enabled (.turn sid))
    (hcases : ∀ hdr body b, NextPacket env n sid hdr body → b.sessions = n.sessions →
      b.delivery = n.delivery → TableCases env sid R hdr body b) :
    R n.toBroker (n.step env (.turn sid)).toBroker := by
  refine (h.loop env sid).onReadTurn henabled.2 fun packet parser hextract => ?_
  apply h.handlePacket
  · exact henabled.2
  · exact henabled.1
  · intro hdr body hdecode
    exact hcases hdr body _ ⟨packet, parser, hextract, hdecode⟩ rfl rfl

/-- A step stays in the relation if the packets do that reach a table, and the
retries. -/
theorem step {n : Runtime α} {e : Event} (henabled : n.toBroker.Enabled e)
    (hcases : ∀ sid hdr body b, e = .turn sid → NextPacket env n sid hdr body →
      b.sessions = n.sessions → b.delivery = n.delivery → TableCases env sid R hdr body b)
    (hretry1 : ∀ clientId packetId, e = .retryQos1 clientId packetId →
      R n.toBroker (Qos1Handler.retryMessage env clientId packetId n.toBroker))
    (hretry2 : ∀ clientId packetId, e = .retryQos2 clientId packetId →
      R n.toBroker (Qos2Handler.retryMessage env clientId packetId n.toBroker)) :
    R n.toBroker (n.step env e).toBroker := by
  by_cases hturn : ∃ sid, e = .turn sid
  · obtain ⟨sid, rfl⟩ := hturn
    exact h.turn henabled fun hdr body b => hcases sid hdr body b rfl
  · by_cases htimed : e.Timed
    · cases e with
      | retryQos1 clientId packetId => exact hretry1 clientId packetId rfl
      | retryQos2 clientId packetId => exact hretry2 clientId packetId rfl
      | clock now => exact h.same ⟨rfl, rfl⟩
      | _ => exact absurd htimed not_false
    · exact (h.connection env).step (fun sid heq => hturn ⟨sid, heq⟩) htimed henabled

end TableRelation

end JellyBroker
