import JellyBroker.Broker.Frame
/-!
# Steps and runs of the broker

What a packet and a step of the broker can do: change things inside a frame,
register or block a session, start or end a read, create or destroy a session.
A relation that allows all this holds between the ends of every run, and a
predicate that all this preserves holds in every reachable state.
-/

namespace JellyBroker

open JellyBroker.Lib JellyBroker.Packet

variable {α : Type}

/-! ## Packets -/

structure ConnectClosed (env : Env α) (sid : SessionId) (R : Broker α → Broker α → Prop) :
    Prop where
  frame : Frame R
  register : ∀ b conn, b.reading = some sid → (b.sessions sid).connected = false →
    (∀ old, ¬Displaces b sid conn.clientId old) → R b (Session.register env sid conn b)
  block : ∀ (b : Broker α) old,
    R b { b.modifySession old (fun s => { s with connected := false }) with blocked := true }

theorem ConnectClosed.handleConnect {env : Env α} {sid : SessionId}
    {R : Broker α → Broker α → Prop} (h : ConnectClosed env sid R) {b : Broker α} (body : Bytes)
    (hreading : b.reading = some sid) (hblocked : b.blocked = false) :
    R b (Session.handleConnect env sid body b).1 := by
  have hsession := h.frame.session env sid
  have hauth := h.frame.authFree
  refine hsession.handleConnect hauth ?_
  intro conn auth failures bans hconn
  have hready : R b ((b.setAuthTables failures bans).setAuth auth) :=
    h.frame.trans (hauth.authTables b failures bans) (hauth.auth _ auth)
  refine h.frame.trans hready (hsession.acceptConnect hauth hblocked ?_ ?_)
  · intro hclear
    refine h.frame.trans ?_ (h.frame.restoreSubscriptions sid conn _)
    exact h.register _ conn hreading hconn.first hclear
  · intro old _
    exact h.block _ old

/-- A relation that allows whatever a packet of the session can do. -/
structure PacketClosed (env : Env α) (sid : SessionId) (R : Broker α → Broker α → Prop) : Prop
    extends ConnectClosed env sid R where
  tables : TablesFree R
  ingest : IngestFree R

namespace PacketClosed

variable {env : Env α} {sid : SessionId} {R : Broker α → Broker α → Prop}
  (h : PacketClosed env sid R)

include h

theorem handlePacket {b : Broker α} (packet : Bytes) (hreading : b.reading = some sid)
    (hblocked : b.blocked = false) : R b (Session.handlePacket env sid packet b).1 := by
  have hsession := h.frame.session env sid
  apply hsession.handlePacket
  intro hdr body _
  constructor
  · intro _
    exact h.toConnectClosed.handleConnect body hreading hblocked
  · intro pub _ auth _ _ _ _ hauth
    refine h.frame.trans hauth ?_
    exact h.frame.acceptPublish h.tables.toPendingFree h.ingest env sid pub _
  · intro packetId _ _ _ _
    exact hsession.qos1HandlePuback h.tables.toPendingFree _ packetId b
  · intro packetId _ _ _ _
    exact hsession.qos2HandlePubrec h.tables.toOutgoingFree fun _ _ => trivial
  · intro packetId _ _ _ _
    exact h.frame.releaseQos2 h.ingest h.tables.toOutgoingFree env sid _ packetId b
  · intro packetId _ _ _ _
    exact hsession.qos2HandlePubcomp h.tables.toOutgoingFree _ packetId b
  · intro sub _ _ _ _
    exact h.frame.subscribeAll h.tables.toNotesFree env sid _ _ _ b
  · intro unsub _ _ _ _
    exact h.frame.unsubscribeAll sid _ b
  · intro _
    exact h.frame.handleDisconnect sid b

end PacketClosed

/-! ## Turns -/

/-- A relation that allows what the loop of the session's `on_read` does around
the packets. -/
structure LoopClosed (env : Env α) (sid : SessionId) (who : SessionId → Prop)
    (R : Broker α → Broker α → Prop) : Prop extends SessionFrame env sid who R where
  noteHandled : ∀ b packet, R b (b.observe (.noteHandled sid packet))
  rearm : ∀ b, b.reading = some sid → R b (b.modifySession sid Session.rearm)
  stopReading : ∀ b, R b (b.setReading none)

namespace LoopClosed

variable {env : Env α} {sid : SessionId} {who : SessionId → Prop}
  {R : Broker α → Broker α → Prop} (h : LoopClosed env sid who R)

include h

theorem catchException (result : Broker α × Option Exception) :
    R result.1 (Session.catchException sid result) := by
  obtain ⟨b, _ | e⟩ := result
  · exact h.refl b
  · exact h.trans (h.closeOwn b) (h.stopReading _)

theorem onPacket {b : Broker α} {packet : Bytes}
    (hpacket : R (b.observe (.noteHandled sid packet))
      (Session.handlePacket env sid packet (b.observe (.noteHandled sid packet))).1) :
    R b (Session.onPacket env sid packet b) := by
  refine h.trans (h.noteHandled b packet) ?_
  exact h.trans hpacket (h.catchException _)

theorem endRead {b : Broker α} (parseError : Bool) (hreading : b.reading = some sid) :
    R b (Session.endRead sid parseError b) := by
  unfold Session.endRead
  split
  · exact h.trans (h.closeOwn b) (h.stopReading _)
  · exact h.trans (h.rearm b hreading) (h.stopReading _)

theorem onReadTurn {n : Runtime α} (hreading : n.reading = some sid)
    (hpacket : ∀ packet parser, (n.parsers sid).tryExtract env.cfg = (some packet, parser) →
      R (n.toBroker.observe (.noteHandled sid packet))
        (Session.handlePacket env sid packet
          (n.toBroker.observe (.noteHandled sid packet))).1) :
    R n.toBroker (Session.onReadTurn env sid n).toBroker := by
  unfold Session.onReadTurn
  rcases hextract : (n.parsers sid).tryExtract env.cfg with ⟨_ | packet, parser⟩
  · exact h.endRead parser.hasError hreading
  · exact h.onPacket (hpacket packet parser hextract)

end LoopClosed

structure TurnClosed (env : Env α) (sid : SessionId) (R : Broker α → Broker α → Prop) : Prop
    extends PacketClosed env sid R, LoopClosed env sid (fun _ => True) R

theorem TurnClosed.onReadTurn {env : Env α} {sid : SessionId} {R : Broker α → Broker α → Prop}
    (h : TurnClosed env sid R) {n : Runtime α} (hreading : n.reading = some sid)
    (hblocked : n.blocked = false) :
    R n.toBroker (Session.onReadTurn env sid n).toBroker :=
  h.toLoopClosed.onReadTurn hreading fun packet _ _ =>
    h.toPacketClosed.handlePacket packet hreading hblocked

/-! ## Subscriptions -/

def Subscribes (env : Env α) (n : Runtime α) (sid : SessionId) (sub : SubscribePacket) : Prop :=
  (n.sessions sid).connected = true ∧ ∃ hdr body rest, NextPacket env n sid hdr body ∧
    hdr.type = some .subscribe ∧ SubscribePacket.parse body = .ok (sub, rest)

def Unsubscribes (env : Env α) (n : Runtime α) (sid : SessionId) (unsub : UnsubscribePacket) :
    Prop :=
  (n.sessions sid).connected = true ∧ ∃ hdr body rest, NextPacket env n sid hdr body ∧
    hdr.type = some .unsubscribe ∧ UnsubscribePacket.parse body = .ok (unsub, rest)

/-- The brokers differ in nothing but the tables, the authentication, the counters
and what was noted, and in that a read may have ended. -/
structure Quiet (b b' : Broker α) : Prop where
  sessions : b'.sessions = b.sessions
  tree : b'.tree = b.tree
  subManager : b'.subManager = b.subManager
  activeClients : b'.server.activeClients = b.server.activeClients
  reading : b'.reading = b.reading ∨ b'.reading = none

/-- A relation that allows whatever a turn of the session's `on_read` can do,
apart from its subscriptions. -/
structure TopicTurn (env : Env α) (n : Runtime α) (sid : SessionId)
    (R : Broker α → Broker α → Prop) : Prop extends LoopClosed env sid (fun _ => True) R where
  tables : TablesFree R
  auth : AuthFree R
  ingest : (n.sessions sid).connected = true → IngestOf (n.sessions sid).clientId R
  retained : ∀ pub b, R b (Session.storeRetained env pub b)
  disconnect : ∀ b old, R b (b.modifySession old fun s => { s with connected := false })
  stop : ∀ b : Broker α, R b { b with blocked := true }

/-- A turn stays in such a relation if what it does to the subscriptions does.
The broker that a CONNECT registers the session in differs from the one before
the turn in the authentication tables and in what was noted. -/
theorem TopicTurn.step {env : Env α} {n : Runtime α} {sid : SessionId}
    {R : Broker α → Broker α → Prop} (h : TopicTurn env n sid R)
    (henabled : n.toBroker.Enabled (.turn sid))
    (hconnect : ∀ conn b, Connects env n sid conn → Quiet n.toBroker b →
      b.reading = some sid → (∀ old, ¬Displaces b sid conn.clientId old) →
      R b (Session.restoreSubscriptions sid conn (Session.register env sid conn b)))
    (hsubscribe : ∀ sub, Subscribes env n sid sub → ∀ filter ∈ sub.filters,
      Topic.isValidFilter env.cfg filter.topicFilter = true →
      ∀ b, Session.subscriptionLimitReached env sid b = false →
        R b (recordSubscription sid filter b))
    (hunsubscribe : ∀ unsub, Unsubscribes env n sid unsub → ∀ filter ∈ unsub.topicFilters,
      ∀ b, R b (Session.unsubscribeFrom sid filter b)) :
    R n.toBroker (n.step env (.turn sid)).toBroker := by
  refine h.onReadTurn henabled.2 ?_
  intro packet parser hextract
  apply h.handlePacket
  intro hdr body hdecode
  have hnext : NextPacket env n sid hdr body := ⟨packet, parser, hextract, hdecode⟩
  constructor
  · intro htype
    refine h.handleConnect h.auth ?_
    intro conn auth failures bans hconn
    have hconnects : Connects env n sid conn :=
      ⟨body, ⟨hdr, hnext, htype⟩, acceptableConnect_observe.mp hconn⟩
    apply h.trans (h.auth.authTables _ failures bans)
    apply h.trans (h.auth.auth _ auth)
    have hblocked : (((n.toBroker.observe (.noteHandled sid packet)).setAuthTables failures
      bans).setAuth auth).blocked = false := henabled.1
    refine h.acceptConnect h.auth hblocked ?_ ?_
    · intro hclear
      exact hconnect conn _ hconnects ⟨rfl, rfl, rfl, rfl, Or.inl rfl⟩ henabled.2 hclear
    · intro old _
      exact h.trans (h.disconnect _ old) (h.stop _)
  · intro pub rest auth hconn htype hparse hvalid hset
    refine h.trans hset (h.acceptPublish (h.ingest hconn) ?_ ?_)
    · exact h.qos1Deliver h.tables.toPendingFree pub
    · exact h.retained pub
  · intro packetId _ _ _ _
    exact h.qos1HandlePuback h.tables.toPendingFree _ packetId _
  · intro packetId _ _ _ _
    exact h.qos2HandlePubrec h.tables.toOutgoingFree fun _ _ => trivial
  · intro packetId rest hconn htype hparse
    refine h.releaseQos2 (h.ingest hconn) ?_ ?_
    · intro msg b' _
      exact h.qos2Deliver h.tables.toOutgoingFree _ b'
    · intro _
      exact h.qos2HandlePubrel h.tables.toOutgoingFree _ packetId _
  · intro packetId _ _ _ _
    exact h.qos2HandlePubcomp h.tables.toOutgoingFree _ packetId _
  · intro sub rest hconn htype hparse
    refine h.subscribeAll h.tables.toNotesFree ?_ sub.packetId [] _
    intro filter hfilter b hvalid
    exact hsubscribe sub ⟨hconn, hdr, body, rest, hnext, htype, hparse⟩ filter hfilter hvalid b
  · intro unsub rest hconn htype hparse
    apply h.foldl_of_mem
    exact hunsubscribe unsub ⟨hconn, hdr, body, rest, hnext, htype, hparse⟩
  · intro _
    exact h.trans (h.disconnect _ sid) (h.closeOwn _)

structure TopicView (R : Broker α → Broker α → Prop) : Prop where
  quiet : ∀ {b b'}, Quiet b b' → R b b'
  trans : ∀ {b₁ b₂ b₃}, R b₁ b₂ → R b₂ b₃ → R b₁ b₃
  plumbing : ∀ b sid change, Plumbing change → R b (b.modifySession sid change)
  close : ∀ b sid, (b.sessions sid).connected = true → R b (Session.close false sid b)
  rearm : ∀ b sid, b.reading = some sid → R b (b.modifySession sid Session.rearm)
  disconnect : ∀ b sid, R b (b.modifySession sid fun s => { s with connected := false })
  setRetained : ∀ cfg b topic msg, R b { b with tree := (b.tree.setRetained cfg topic msg).2 }

namespace TopicView

variable {R : Broker α → Broker α → Prop} (h : TopicView R)

include h

theorem core : CoreFrame R where
  refl _ := h.quiet ⟨rfl, rfl, rfl, rfl, Or.inl rfl⟩
  trans := h.trans
  neutral _ _ _ := h.quiet ⟨rfl, rfl, rfl, rfl, Or.inl rfl⟩
  noteHanded _ _ := h.quiet ⟨rfl, rfl, rfl, rfl, Or.inl rfl⟩
  plumbing := h.plumbing
  close := h.close

theorem tables : TablesFree R where
  pending _ _ := h.quiet ⟨rfl, rfl, rfl, rfl, Or.inl rfl⟩
  outgoing _ _ := h.quiet ⟨rfl, rfl, rfl, rfl, Or.inl rfl⟩
  noteSent _ _ := h.quiet ⟨rfl, rfl, rfl, rfl, Or.inl rfl⟩
  noteSettled _ _ := h.quiet ⟨rfl, rfl, rfl, rfl, Or.inl rfl⟩

theorem auth : AuthFree R where
  auth _ _ := h.quiet ⟨rfl, rfl, rfl, rfl, Or.inl rfl⟩
  authTables _ _ _ := h.quiet ⟨rfl, rfl, rfl, rfl, Or.inl rfl⟩

theorem ingest : IngestFree R where
  incoming _ _ := h.quiet ⟨rfl, rfl, rfl, rfl, Or.inl rfl⟩
  noteIngest _ _ _ _ := h.quiet ⟨rfl, rfl, rfl, rfl, Or.inl rfl⟩

theorem loop (env : Env α) (sid : SessionId) : LoopClosed env sid (fun _ => True) R where
  toSessionFrame := h.core.session env sid
  noteHandled _ _ := h.quiet ⟨rfl, rfl, rfl, rfl, Or.inl rfl⟩
  rearm b hreading := h.rearm b sid hreading
  stopReading _ := h.quiet ⟨rfl, rfl, rfl, rfl, Or.inr rfl⟩

theorem turn (env : Env α) (n : Runtime α) (sid : SessionId) : TopicTurn env n sid R where
  toLoopClosed := h.loop env sid
  tables := h.tables
  auth := h.auth
  ingest _ := h.ingest.of _
  retained pub b := by
    unfold Session.storeRetained
    split_ifs
    · exact h.setRetained env.cfg b pub.topic _
    · exact h.core.refl b
  disconnect := h.disconnect
  stop _ := h.quiet ⟨rfl, rfl, rfl, rfl, Or.inl rfl⟩

theorem retries (env : Env α) (b : Broker α) (clientId : Bytes) (packetId : UInt16) :
    R b (Qos1Handler.retryMessage env clientId packetId b) ∧
      R b (Qos2Handler.retryMessage env clientId packetId b) :=
  ⟨(h.core.delivery env).qos1RetryMessage h.tables.toPendingFree clientId packetId b,
    (h.core.delivery env).qos2RetryMessage h.tables.toOutgoingFree clientId packetId b⟩

end TopicView

/-! ## Steps -/

def Event.Timed : Event → Prop
  | .retryQos1 _ _ | .retryQos2 _ _ | .clock _ => True
  | _ => False

structure ConnectionClosed (env : Env α) (R : Broker α → Broker α → Prop) : Prop where
  core : CoreFrame R
  beginRead : ∀ b sid, (b.sessions sid).readPending = true → R b (Session.beginRead sid b)
  dropRead : ∀ b sid, R b (b.modifySession sid fun s => { s with readPending := false })
  accept : ∀ b ip, R b (Server.onAccept env.cfg ip b)
  destroy : ∀ b sid, sid < b.sessionCount → ¬Session.Owned b sid →
    R b (b.modifySession sid Session.destruct)

theorem ConnectionClosed.step {env : Env α} {R : Broker α → Broker α → Prop}
    (h : ConnectionClosed env R) {n : Runtime α} {e : Event} (hturn : ∀ sid, e ≠ .turn sid)
    (htimed : ¬e.Timed) (henabled : n.toBroker.Enabled e) :
    R n.toBroker (n.step env e).toBroker := by
  cases e with
  | accept ip => exact h.accept n.toBroker ip
  | acceptError => exact h.core.refl _
  | read sid chunk => exact h.beginRead n.toBroker sid henabled.2.2.1
  | turn sid => exact absurd rfl (hturn sid)
  | readError sid => exact h.core.trans (h.dropRead _ sid) (h.core.closeAny _ sid)
  | writeDone sid => exact h.core.plumbing _ sid _ plumbing_onWrite
  | writeError sid =>
      refine h.core.trans (h.core.plumbing n.toBroker sid _ ?_) (h.core.closeAny _ sid)
      exact plumbing_of_fields _ _ (fun _ => false) fun _ => rfl
  | keepaliveTimeout sid =>
      refine h.core.trans (h.core.plumbing n.toBroker sid _ ?_) (h.core.closeAny _ sid)
      exact plumbing_of_fields _ (fun _ => some false) _ fun _ => rfl
  | retryQos1 clientId packetId => exact absurd trivial htimed
  | retryQos2 clientId packetId => exact absurd trivial htimed
  | destroy sid => exact h.destroy _ sid henabled.2.2.1 henabled.2.2.2
  | clock now => exact absurd trivial htimed

/-- A relation that allows whatever the events between the turns can do, apart
from moving the clock. -/
structure TimelessClosed (env : Env α) (R : Broker α → Broker α → Prop) : Prop
    extends ConnectionClosed env R where
  retryQos1 : ∀ b clientId packetId, R b (Qos1Handler.retryMessage env clientId packetId b)
  retryQos2 : ∀ b clientId packetId, R b (Qos2Handler.retryMessage env clientId packetId b)

theorem TimelessClosed.step {env : Env α} {R : Broker α → Broker α → Prop}
    (h : TimelessClosed env R) {n : Runtime α} {e : Event} (hturn : ∀ sid, e ≠ .turn sid)
    (hclock : ∀ now, e ≠ .clock now) (henabled : n.toBroker.Enabled e) :
    R n.toBroker (n.step env e).toBroker := by
  by_cases htimed : e.Timed
  · cases e with
    | retryQos1 clientId packetId => exact h.retryQos1 _ clientId packetId
    | retryQos2 clientId packetId => exact h.retryQos2 _ clientId packetId
    | clock now => exact absurd rfl (hclock now)
    | _ => exact absurd htimed not_false
  · exact h.toConnectionClosed.step hturn htimed henabled

structure IoClosed (env : Env α) (R : Broker α → Broker α → Prop) : Prop
    extends TimelessClosed env R where
  clock : ∀ (b : Broker α) now, R b { b with now }

theorem IoClosed.step {env : Env α} {R : Broker α → Broker α → Prop} (h : IoClosed env R)
    {n : Runtime α} {e : Event} (hturn : ∀ sid, e ≠ .turn sid) (henabled : n.toBroker.Enabled e) :
    R n.toBroker (n.step env e).toBroker := by
  by_cases hclock : ∃ now, e = .clock now
  · obtain ⟨now, rfl⟩ := hclock
    exact h.clock _ now
  · exact h.toTimelessClosed.step hturn (fun now heq => hclock ⟨now, heq⟩) henabled

/-- A relation that allows whatever a step can do. -/
structure StepClosed (env : Env α) (R : Broker α → Broker α → Prop) : Prop where
  frame : Frame R
  tables : TablesFree R
  ingest : IngestFree R
  register : ∀ b sid conn, b.reading = some sid → (b.sessions sid).connected = false →
    (∀ old, ¬Displaces b sid conn.clientId old) → R b (Session.register env sid conn b)
  block : ∀ (b : Broker α) old,
    R b { b.modifySession old (fun s => { s with connected := false }) with blocked := true }
  noteHandled : ∀ b sid packet, R b (b.observe (.noteHandled sid packet))
  beginRead : ∀ b sid, (b.sessions sid).readPending = true → R b (Session.beginRead sid b)
  rearm : ∀ b sid, b.reading = some sid → R b (b.modifySession sid Session.rearm)
  stopReading : ∀ b, R b (b.setReading none)
  dropRead : ∀ b sid, R b (b.modifySession sid fun s => { s with readPending := false })
  clock : ∀ (b : Broker α) now, R b { b with now }
  accept : ∀ b ip, R b (Server.onAccept env.cfg ip b)
  destroy : ∀ b sid, sid < b.sessionCount → ¬Session.Owned b sid →
    R b (b.modifySession sid Session.destruct)

namespace StepClosed

variable {env : Env α} {R : Broker α → Broker α → Prop} (h : StepClosed env R)

include h

theorem turn (sid : SessionId) : TurnClosed env sid R where
  toSessionFrame := h.frame.session env sid
  frame := h.frame
  tables := h.tables
  ingest := h.ingest
  register b conn := h.register b sid conn
  block := h.block
  noteHandled b packet := h.noteHandled b sid packet
  rearm b := h.rearm b sid
  stopReading := h.stopReading

theorem io : IoClosed env R where
  core := h.frame.toCoreFrame
  retryQos1 b clientId packetId :=
    (h.frame.delivery env).qos1RetryMessage h.tables.toPendingFree clientId packetId b
  retryQos2 b clientId packetId :=
    (h.frame.delivery env).qos2RetryMessage h.tables.toOutgoingFree clientId packetId b
  beginRead := h.beginRead
  dropRead := h.dropRead
  clock := h.clock
  accept := h.accept
  destroy := h.destroy

theorem step {n : Runtime α} {e : Event} (henabled : n.toBroker.Enabled e) :
    R n.toBroker (n.step env e).toBroker := by
  by_cases hturn : ∃ sid, e = .turn sid
  · obtain ⟨sid, rfl⟩ := hturn
    exact (h.turn sid).onReadTurn henabled.2 henabled.1
  · exact h.io.step (fun sid heq => hturn ⟨sid, heq⟩) henabled

theorem run {n n' : Runtime α} {events : List Event}
    (hrun : (brokerSystem env).Run n events n') : R n.toBroker n'.toBroker := by
  refine hrun.preserves (P := fun t => R n.toBroker t.toBroker) ?_ (h.frame.refl _)
  intro t e ht henabled
  exact h.frame.trans ht (h.step henabled)

end StepClosed

/-! ## Invariants -/

def Inductive (env : Env α) (P : Broker α → Prop) : Prop :=
  StepClosed env fun b b' => P b → P b'

/-- An inductive predicate that holds at the start holds in every reachable
state. -/
theorem Inductive.reachable {env : Env α} {P : Broker α → Prop} (h : Inductive env P)
    (hinit : ∀ auth : α, P { auth }) {n : Runtime α} (hn : (brokerSystem env).Reachable n) :
    P n.toBroker := by
  refine hn.invariant (P := fun n => P n.toBroker) ?_ ?_
  · rintro _ ⟨auth, rfl⟩
    exact hinit auth
  · intro n e hn henabled
    exact StepClosed.step h henabled hn

end JellyBroker
