import JellyBroker.Broker.CleanSession
import JellyBroker.Broker.Directions
import JellyBroker.Broker.InFlight
/-!
# Sessions apart

What a packet handled on one session does to another session that is connected.
A session that stands by keeps its state as long as it is connected, and there
are two ways to close it besides the messages that are routed to it: a CONNECT
closes whatever session is registered under its client id, and a PUBREC is
answered on the session that its message was sent on.
-/

namespace JellyBroker

open JellyBroker.Lib JellyBroker.Packet JellyBroker.Qos JellyBroker.Topic

variable {α : Type}

/-! ## The messages in flight to a client -/

def messagesTo (b : Broker α) (clientId : Bytes) :
    (UInt16 → Option PendingMessage) × (UInt16 → Option OutgoingMessage) :=
  (b.delivery.pending.message? clientId, b.delivery.outgoing.message? clientId)

structure AddsTo (clientId : Bytes) (b b' : Broker α) : Prop where
  pending : ∀ packetId msg, b.delivery.pending.message? clientId packetId = some msg →
    b'.delivery.pending.message? clientId packetId = some msg
  outgoing : ∀ packetId msg, b.delivery.outgoing.message? clientId packetId = some msg →
    b'.delivery.outgoing.message? clientId packetId = some msg

def KeepsMessagesTo (clientId : Bytes) (b b' : Broker α) : Prop :=
  messagesTo b' clientId = messagesTo b clientId

theorem keepsMessagesTo_relation (clientId : Bytes) :
    TableRelation (KeepsMessagesTo (α := α) clientId) where
  same h := by
    unfold KeepsMessagesTo messagesTo
    rw [h.pending, h.outgoing]
  trans h h' := Eq.trans h' h

theorem KeepsMessagesTo.adds {clientId : Bytes} {b b' : Broker α}
    (h : KeepsMessagesTo clientId b b') : AddsTo clientId b b' where
  pending packetId msg hmsg := by
    rw [← hmsg]
    exact congrFun (congrArg Prod.fst h) packetId
  outgoing packetId msg hmsg := by
    rw [← hmsg]
    exact congrFun (congrArg Prod.snd h) packetId

def AddsReserved (clientId : Bytes) (b b' : Broker α) : Prop :=
  TablesReserved b → TablesReserved b' ∧ AddsTo clientId b b'

theorem addsReserved_relation (clientId : Bytes) :
    TableRelation (AddsReserved (α := α) clientId) where
  same h hreserved :=
    ⟨hreserved.of_same h, ((keepsMessagesTo_relation clientId).same h).adds⟩
  trans h h' hreserved := by
    obtain ⟨hreserved₂, hadds⟩ := h hreserved
    obtain ⟨hreserved₃, hadds'⟩ := h' hreserved₂
    refine ⟨hreserved₃, ?_, ?_⟩
    · intro packetId msg hmsg
      exact hadds'.pending packetId msg (hadds.pending packetId msg hmsg)
    · intro packetId msg hmsg
      exact hadds'.outgoing packetId msg (hadds.outgoing packetId msg hmsg)

section Messages

variable {clientId own : Bytes} {b : Broker α}

theorem keepsMessagesTo_setPending {table : ClientTable PendingMessage}
    (h : ∀ packetId, table.message? clientId packetId =
      b.delivery.pending.message? clientId packetId) :
    KeepsMessagesTo clientId b (b.setPending table) :=
  Prod.ext (funext h) rfl

theorem keepsMessagesTo_setOutgoing {table : ClientTable OutgoingMessage}
    (h : ∀ packetId, table.message? clientId packetId =
      b.delivery.outgoing.message? clientId packetId) :
    KeepsMessagesTo clientId b (b.setOutgoing table) :=
  Prod.ext rfl (funext h)

theorem keepsMessagesTo_removeOutgoing (hne : own ≠ clientId) (packetId : UInt16) :
    KeepsMessagesTo clientId b (b.setOutgoing (b.delivery.outgoing.remove own packetId)) := by
  apply keepsMessagesTo_setOutgoing
  intro packetId'
  rw [ClientTable.message?_remove, if_neg fun hboth => hne hboth.1.symm]

theorem keepsMessagesTo_puback (hne : own ≠ clientId) (packetId : UInt16) :
    KeepsMessagesTo clientId b (Qos1Handler.handlePuback own packetId b) := by
  have hremove : KeepsMessagesTo clientId b
      (b.setPending (b.delivery.pending.remove own packetId)) := by
    apply keepsMessagesTo_setPending
    intro packetId'
    rw [ClientTable.message?_remove, if_neg fun hboth => hne hboth.1.symm]
  exact hremove

theorem keepsMessagesTo_pubrec (env : Env α) (hne : own ≠ clientId) (packetId : UInt16) :
    KeepsMessagesTo clientId b (Qos2Handler.handlePubrec env own packetId b) := by
  have hrelation := keepsMessagesTo_relation (α := α) clientId
  apply Qos2Handler.handlePubrec_rule (hrelation.same ⟨rfl, rfl⟩)
  · intro msg hmsg
    apply keepsMessagesTo_setOutgoing
    intro packetId'
    rw [ClientTable.message?_setMessage hmsg, if_neg fun hboth => hne hboth.1.symm]
  · intro msg marked _ hmarked
    exact hrelation.trans hmarked (hrelation.frame.deliver env _ _ _)

theorem keepsMessagesTo_pubrel (hne : own ≠ clientId) (packetId : UInt16) :
    KeepsMessagesTo clientId b (Qos2Handler.handlePubrel own packetId b) := by
  unfold Qos2Handler.handlePubrel
  split
  · rfl
  · exact keepsMessagesTo_removeOutgoing hne packetId

theorem addsReserved_deliver (handler : Handler) (env : Env α) (clientId : Bytes)
    (pub : PublishPacket) (b : Broker α) :
    AddsReserved clientId b (handler.deliver env pub b) := by
  intro hreserved
  have henabled : (HandlerCall.deliver handler pub).Enabled b := trivial
  have hcalls : Calls env b (handler.deliver env pub b) := Calls.one _ henabled
  have hkept (target : Handler) (packetId : UInt16) (msg : target.Message)
      (hmsg : (target.table b).message? clientId packetId = some msg) :
      (target.table (handler.deliver env pub b)).message? clientId packetId = some msg := by
    refine (tableStep_of_call env target henabled).message?_of_not_for (hreserved.table target)
      hmsg ?_
    dsimp only [HandlerCall.tableEvent]
    split_ifs
    · exact TableEvent.not_for_sends clientId packetId
    · exact TableEvent.not_for_idle clientId packetId
  exact ⟨hreserved.of_calls hcalls, hkept .qos1, hkept .qos2⟩

end Messages

/-! ## What a turn does to the messages -/

/-- The packet sends a message to its subscribers: a PUBLISH, or the PUBREL that
completes one. -/
def Routes (env : Env α) (n : Runtime α) (sid : SessionId) : Prop :=
  (n.sessions sid).connected = true ∧ ∃ hdr body, NextPacket env n sid hdr body ∧
    (hdr.type = some .publish ∨ hdr.type = some .pubrel ∧ ∃ packetId rest msg,
      PubrelPacket.parse body = .ok (packetId, rest) ∧
      n.delivery.incoming? (n.sessions sid).clientId packetId = some msg)

theorem tableCases_apart {env : Env α} {sid : SessionId} {hdr : FixedHeader} {body : Bytes}
    {b : Broker α} {clientId : Bytes} {R : Broker α → Broker α → Prop}
    (hapart : (b.sessions sid).connected = true → (b.sessions sid).clientId ≠ clientId)
    (hkeeps : ∀ {b b'}, KeepsMessagesTo clientId b b' → Calls env b b' → R b b')
    (hpublish : (b.sessions sid).connected = true → hdr.type = some .publish →
      ∀ pub b', R b' (Qos1Handler.deliver env pub b'))
    (hforward : ∀ packetId rest msg, (b.sessions sid).connected = true →
      hdr.type = some .pubrel → PubrelPacket.parse body = .ok (packetId, rest) →
      b.delivery.incoming? (b.sessions sid).clientId packetId = some msg →
      ∀ pub b', R b' (Qos2Handler.deliver env pub b')) :
    TableCases env sid R hdr body b := by
  have hcalls := calls_cases env sid hdr body b
  constructor
  · exact hpublish
  · intro packetId rest hconn htype hparse
    exact hkeeps (keepsMessagesTo_puback (hapart hconn) packetId)
      (hcalls.puback packetId rest hconn htype hparse)
  · intro packetId rest hconn htype hparse
    exact hkeeps (keepsMessagesTo_pubrec env (hapart hconn) packetId)
      (hcalls.pubrec packetId rest hconn htype hparse)
  · exact hforward
  · intro packetId rest hconn htype hparse hnone
    exact hkeeps (keepsMessagesTo_pubrel (hapart hconn) packetId)
      (hcalls.stray packetId rest hconn htype hparse hnone)
  · intro packetId rest hconn htype hparse
    exact hkeeps (keepsMessagesTo_removeOutgoing (hapart hconn) packetId)
      (hcalls.pubcomp packetId rest hconn htype hparse)

section Turn

variable {env : Env α} {n : Runtime α} {sid : SessionId} {clientId : Bytes}

theorem turn_adds (henabled : n.toBroker.Enabled (.turn sid))
    (hreserved : TablesReserved n.toBroker)
    (hapart : (n.sessions sid).connected = true → (n.sessions sid).clientId ≠ clientId) :
    AddsTo clientId n.toBroker (n.step env (.turn sid)).toBroker := by
  refine ((addsReserved_relation clientId).turn henabled ?_ hreserved).2
  intro hdr body b _ hsessions _
  apply tableCases_apart
  · rw [hsessions]
    exact hapart
  · intro b b' hkeeps hcalls hb
    exact ⟨hb.of_calls hcalls, hkeeps.adds⟩
  · intro _ _ pub b'
    exact addsReserved_deliver .qos1 env clientId pub b'
  · intro _ _ _ _ _ _ _ pub b'
    exact addsReserved_deliver .qos2 env clientId pub b'

/-- Only a packet that routes a message adds to the messages of another
client. -/
theorem turn_keepsMessagesTo (henabled : n.toBroker.Enabled (.turn sid))
    (hapart : (n.sessions sid).connected = true → (n.sessions sid).clientId ≠ clientId)
    (hroutes : ¬Routes env n sid) :
    KeepsMessagesTo clientId n.toBroker (n.step env (.turn sid)).toBroker := by
  refine (keepsMessagesTo_relation clientId).turn henabled ?_
  intro hdr body b hnext hsessions hdelivery
  apply tableCases_apart
  · rw [hsessions]
    exact hapart
  · intro b b' hkeeps _
    exact hkeeps
  · intro hconn htype
    rw [hsessions] at hconn
    exact absurd ⟨hconn, hdr, body, hnext, Or.inl htype⟩ hroutes
  · intro packetId rest msg hconn htype hparse hstored
    rw [hsessions] at hconn hstored
    rw [hdelivery] at hstored
    exact absurd ⟨hconn, hdr, body, hnext, Or.inr ⟨htype, packetId, rest, msg, hparse, hstored⟩⟩
      hroutes

end Turn

/-! ## The other session -/

/-- The state that the broker keeps for a session is as before. -/
structure Undisturbed (other : SessionId) (b b' : Broker α) : Prop where
  connected : (b'.sessions other).connected = (b.sessions other).connected
  client : (b'.sessions other).clientId = (b.sessions other).clientId
  subscriptions : SameEntries other b.tree b'.tree
  stored : b'.subManager.getClientSubs (b.sessions other).clientId =
    b.subManager.getClientSubs (b.sessions other).clientId
  incoming : b'.delivery.incomingQos2.lookup (b.sessions other).clientId =
    b.delivery.incomingQos2.lookup (b.sessions other).clientId

/-- A session that is still connected is not disturbed. -/
theorem undisturbed_of_endures {other : SessionId} {b b' : Broker α}
    (h : Endures other (b.sessions other).clientId ((b.sessions other).connected = true) b b')
    (hconn : (b'.sessions other).connected = true) : Undisturbed other b b' where
  connected := hconn.trans (h.connected hconn).symm
  client := h.client hconn
  subscriptions := h.entries
  stored := h.stored (h.connected hconn) fun _ => Or.inl hconn
  incoming := h.incoming (h.connected hconn) fun _ => hconn

def callsTo (other : SessionId) (calls : List Handed) : Nat :=
  (calls.filter fun call => call.session = other).length

/-- Among the calls is one for the session that finds its queue full. -/
def Overflowing (cfg : Config) (other : SessionId) (queued : Nat) (calls : List Handed) : Prop :=
  ∃ before packet after, calls = before ++ ⟨other, packet, false⟩ :: after ∧
    cfg.maxWriteQueueSize ≤ ((queued + callsTo other before : Nat) : Int)

/-- A connected session stays connected and queues what is passed to it, unless
its queue overflows with a packet that is routed. -/
def Spares (cfg : Config) (other : SessionId) (routed : Prop) (b b' : Broker α) : Prop :=
  ∃ calls, b'.history.handed = b.history.handed ++ calls ∧
    ((b.sessions other).connected = true →
      (b'.sessions other).connected = true ∧ (b'.sessions other).writeQueue.length =
          (b.sessions other).writeQueue.length + callsTo other calls ∨
        routed ∧ Overflowing cfg other (b.sessions other).writeQueue.length calls)

theorem callsTo_append (other : SessionId) (calls calls' : List Handed) :
    callsTo other (calls ++ calls') = callsTo other calls + callsTo other calls' := by
  unfold callsTo
  rw [List.filter_append, List.length_append]

namespace Spares

variable {cfg : Config} {other : SessionId} {routed : Prop}

theorem trans {b₁ b₂ b₃ : Broker α} (h : Spares cfg other routed b₁ b₂)
    (h' : Spares cfg other routed b₂ b₃) : Spares cfg other routed b₁ b₃ := by
  obtain ⟨calls, hhanded, hfirst⟩ := h
  obtain ⟨calls', hhanded', hsecond⟩ := h'
  refine ⟨calls ++ calls', ?_, ?_⟩
  · rw [hhanded', hhanded, List.append_assoc]
  · intro hconn
    rcases hfirst hconn with ⟨hkept, hqueue⟩ | ⟨hrouted, before, packet, after, hcalls, hfull⟩
    · rcases hsecond hkept with
        ⟨hkept', hqueue'⟩ | ⟨hrouted, before, packet, after, hcalls, hfull⟩
      · left
        refine ⟨hkept', ?_⟩
        rw [callsTo_append]
        omega
      · right
        refine ⟨hrouted, calls ++ before, packet, after, ?_, ?_⟩
        · rw [hcalls, List.append_assoc]
        · rw [callsTo_append]
          omega
    · right
      refine ⟨hrouted, before, packet, after ++ calls', ?_, hfull⟩
      rw [hcalls, List.append_assoc, List.cons_append]

theorem of_same {b b' : Broker α} (hsession : b'.sessions other = b.sessions other)
    (hhanded : b'.history.handed = b.history.handed) : Spares cfg other routed b b' := by
  refine ⟨[], ?_, ?_⟩
  · rw [hhanded, List.append_nil]
  · intro hconn
    left
    rw [hsession]
    exact ⟨hconn, rfl⟩

theorem modifySession (b : Broker α) {x : SessionId} (hne : x ≠ other)
    (change : Session → Session) : Spares cfg other routed b (b.modifySession x change) :=
  of_same (Broker.sessions_modifySession_of_ne hne.symm _ _) rfl

theorem close (b : Broker α) {x : SessionId} (hne : x ≠ other)
    (hconn : (b.sessions x).connected = true) :
    Spares cfg other routed b (Session.close false x b) := by
  apply of_same
  · obtain ⟨tree, subManager, hclose⟩ := Session.close_of_connected hconn
    rw [hclose]
    exact Function.update_of_ne hne.symm _ _
  · rw [history_close]

theorem noteHanded (b : Broker α) {call : Handed} (hne : call.session ≠ other) :
    Spares cfg other routed b (b.observe (.noteHanded call)) := by
  refine ⟨[call], rfl, ?_⟩
  intro hconn
  left
  have hnone : callsTo other [call] = 0 := by
    simp [callsTo, hne]
  rw [hnone]
  exact ⟨hconn, rfl⟩

end Spares

section Deliver

variable {env : Env α} {other : SessionId} {routed : Prop}

theorem Spares.deliver (b : Broker α) {target : SessionId} (hne : target ≠ other)
    (packet : OutPacket) :
    Spares env.cfg other routed b (Session.deliver env target packet b) := by
  have hcall : (⟨target, packet, Session.accepts env.cfg (b.sessions target)⟩ : Handed).session ≠
      other := hne
  unfold Session.deliver
  dsimp only
  refine Spares.trans (Spares.noteHanded b hcall) ?_
  split_ifs with hidle hfull
  · exact .of_same rfl rfl
  · apply Spares.close _ hne
    simpa using hidle
  · exact .modifySession _ hne _

theorem Spares.deliver_accepted (b : Broker α) (packet : OutPacket)
    (hroom : HasRoom env.cfg 1 (b.sessions other)) :
    Spares env.cfg other routed b (Session.deliver env other packet b) := by
  refine ⟨[⟨other, packet, true⟩], ?_, ?_⟩
  · rw [deliver_of_hasRoom hroom]
    rfl
  · intro hconn
    left
    have hone : callsTo other [⟨other, packet, true⟩] = 1 := by
      simp [callsTo]
    rw [deliver_of_hasRoom hroom, hone]
    constructor
    · rw [Broker.sessions_modifySession_self, (plumbing_enqueue packet).connected]
      exact hconn
    · rw [Broker.sessions_modifySession_self, length_enqueue]
      rfl

theorem Spares.deliver_routed (b : Broker α) (packet : OutPacket) (hrouted : routed) :
    Spares env.cfg other routed b (Session.deliver env other packet b) := by
  by_cases hroom : HasRoom env.cfg 1 (b.sessions other)
  · exact Spares.deliver_accepted b packet hroom
  · have hrefused : Session.accepts env.cfg (b.sessions other) = false := by
      rw [← Bool.not_eq_true, accepts_iff_hasRoom]
      exact hroom
    have hhanded := handed_deliver env other packet b
    rw [hrefused] at hhanded
    refine ⟨[⟨other, packet, false⟩], hhanded, ?_⟩
    intro hconn
    right
    refine ⟨hrouted, [], packet, [], rfl, ?_⟩
    by_contra hfull
    apply hroom
    refine ⟨hconn, ?_⟩
    have hnone : callsTo other ([] : List Handed) = 0 := rfl
    rw [hnone] at hfull
    omega

end Deliver

/-! ## The handlers of the session -/

section Handlers

variable {env : Env α} {other sid : SessionId} {routed : Prop}

theorem spares_session (hne : sid ≠ other) {who : SessionId → Prop} (hself : who sid)
    (hwho : ∀ target, who target → routed ∨ target ≠ other) :
    SessionFrame env sid who (Spares (α := α) env.cfg other routed) where
  refl _ := .of_same rfl rfl
  trans := Spares.trans
  deliver target packet b htarget := by
    by_cases heq : target = other
    · rw [heq]
      apply Spares.deliver_routed b packet
      rcases hwho target htarget with hrouted | hapart
      · exact hrouted
      · exact absurd heq hapart
    · exact Spares.deliver b heq packet
  self := hself
  counters _ _ := .of_same rfl rfl
  acl _ _ _ _ := .of_same rfl rfl
  close b hconn := Spares.close b hne hconn
  keepalive b := .modifySession b hne _

theorem spares_tables (cfg : Config) : TablesFree (Spares (α := α) cfg other routed) where
  pending _ _ := .of_same rfl rfl
  outgoing _ _ := .of_same rfl rfl
  noteSent _ _ := .of_same rfl rfl
  noteSettled _ _ := .of_same rfl rfl

theorem spares_auth (cfg : Config) : AuthFree (Spares (α := α) cfg other routed) where
  auth _ _ := .of_same rfl rfl
  authTables _ _ _ := .of_same rfl rfl

theorem spares_ingest (cfg : Config) : IngestFree (Spares (α := α) cfg other routed) where
  incoming _ _ := .of_same rfl rfl
  noteIngest _ _ _ _ := .of_same rfl rfl

theorem spares_loop (hne : sid ≠ other) {who : SessionId → Prop} (hself : who sid)
    (hwho : ∀ target, who target → routed ∨ target ≠ other) :
    LoopClosed env sid who (Spares (α := α) env.cfg other routed) where
  toSessionFrame := spares_session hne hself hwho
  noteHandled _ _ := .of_same rfl rfl
  rearm b _ := .modifySession b hne _
  stopReading _ := .of_same rfl rfl

theorem Spares.storeRetained (pub : PublishPacket) (b : Broker α) :
    Spares env.cfg other routed b (Session.storeRetained env pub b) := by
  unfold Session.storeRetained
  split_ifs
  · exact .of_same rfl rfl
  · exact .of_same rfl rfl

/-- A PUBREC is answered on the session that its message was sent on. -/
theorem Spares.handlePubrec {own : Bytes} {packetId : UInt16} {b : Broker α}
    (hroom : ∀ msg, b.delivery.outgoing.message? own packetId = some msg → msg.session = other →
      (b.sessions other).connected = true → HasRoom env.cfg 1 (b.sessions other)) :
    Spares env.cfg other routed b (Qos2Handler.handlePubrec env own packetId b) := by
  unfold Qos2Handler.handlePubrec
  cases hmsg : b.delivery.outgoing.message? own packetId with
  | none => exact .of_same rfl rfl
  | some msg =>
      dsimp only
      have hset : Spares env.cfg other routed b (b.setOutgoing
          (b.delivery.outgoing.setMessage own packetId
            { msg with state := .pubrecReceived, retryCount := 0 })) := .of_same rfl rfl
      have hsessions : (b.setOutgoing (b.delivery.outgoing.setMessage own packetId
        { msg with state := .pubrecReceived, retryCount := 0 })).sessions = b.sessions := rfl
      generalize b.setOutgoing (b.delivery.outgoing.setMessage own packetId
        { msg with state := .pubrecReceived, retryCount := 0 }) = b' at hset hsessions ⊢
      split_ifs with hconn
      · apply hset.trans
        by_cases heq : msg.session = other
        · rw [heq] at hconn ⊢
          rw [hsessions] at hconn
          apply Spares.deliver_accepted b'
          rw [hsessions]
          exact hroom msg hmsg heq hconn
        · exact Spares.deliver b' heq _
      · exact hset

theorem Spares.acceptConnect (hne : sid ≠ other) {conn : ConnectPacket} {b : Broker α}
    (hblocked : b.blocked = false) (hspared : ¬Displaces b sid conn.clientId other) :
    Spares env.cfg other routed b (Session.acceptConnect env sid conn b) := by
  have hsession : SessionFrame env sid (· ≠ other) (Spares (α := α) env.cfg other routed) :=
    spares_session hne hne fun _ => Or.inr
  refine hsession.acceptConnect (spares_auth env.cfg) hblocked ?_ ?_
  · intro _
    have hrestored : ∀ b : Broker α, Spares env.cfg other routed b
        (Session.restoreSubscriptions sid conn b) := by
      intro b
      unfold Session.restoreSubscriptions
      split_ifs
      · exact .of_same rfl rfl
      · exact .of_same rfl rfl
    refine Spares.trans ?_ (hrestored _)
    exact .of_same (Broker.sessions_modifySession_of_ne hne.symm _ _) rfl
  · intro old hold
    have hother : old ≠ other := by
      intro heq
      rw [heq] at hold
      exact hspared hold
    refine Spares.trans (.modifySession _ hother fun s => { s with connected := false }) ?_
    exact .of_same rfl rfl

end Handlers

/-! ## Turns -/

/-- The next turn handles a PUBREC of the session for a message that was sent on
the other one, whose queue is full. -/
def PubrecOverflows (env : Env α) (n : Runtime α) (sid other : SessionId) : Prop :=
  (n.sessions sid).connected = true ∧ ∃ hdr body packetId rest msg,
    NextPacket env n sid hdr body ∧ hdr.type = some .pubrec ∧
    PubrecPacket.parse body = .ok (packetId, rest) ∧
    n.delivery.outgoing.message? (n.sessions sid).clientId packetId = some msg ∧
    msg.session = other ∧
    env.cfg.maxWriteQueueSize ≤ ((n.sessions other).writeQueue.length : Int)

section Turn

variable {env : Env α} {n : Runtime α} {sid other : SessionId}

theorem spares_cases (hne : sid ≠ other) (henabled : n.toBroker.Enabled (.turn sid))
    (hclear : ∀ conn, Connects env n sid conn → ¬Displaces n.toBroker sid conn.clientId other)
    (hpubrec : ¬PubrecOverflows env n sid other) {packet : Bytes} {hdr : FixedHeader}
    {body : Bytes} (hnext : NextPacket env n sid hdr body) :
    PacketCases env sid (Spares env.cfg other (Routes env n sid)) hdr body
      (n.toBroker.observe (.noteHandled sid packet)) := by
  have hsession : SessionFrame env sid (· ≠ other)
      (Spares (α := α) env.cfg other (Routes env n sid)) := spares_session hne hne fun _ => Or.inr
  have htables : TablesFree (Spares (α := α) env.cfg other (Routes env n sid)) :=
    spares_tables env.cfg
  have hauth : AuthFree (Spares (α := α) env.cfg other (Routes env n sid)) := spares_auth env.cfg
  have hingest : IngestFree (Spares (α := α) env.cfg other (Routes env n sid)) :=
    spares_ingest env.cfg
  have hrouting (hroutes : Routes env n sid) : SessionFrame env sid (fun _ => True)
      (Spares (α := α) env.cfg other (Routes env n sid)) :=
    spares_session hne trivial fun _ _ => Or.inl hroutes
  constructor
  · intro htype
    refine hsession.handleConnect hauth ?_
    intro conn auth failures bans hconn
    have hconnects : Connects env n sid conn :=
      ⟨body, ⟨hdr, hnext, htype⟩, acceptableConnect_observe.mp hconn⟩
    apply hsession.trans (hauth.authTables _ failures bans)
    apply hsession.trans (hauth.auth _ auth)
    exact Spares.acceptConnect hne henabled.1 (hclear conn hconnects)
  · intro pub rest auth hconn htype hparse hvalid hset
    have hroutes : Routes env n sid := ⟨hconn, hdr, body, hnext, Or.inl htype⟩
    refine hset.trans ((hrouting hroutes).acceptPublish (hingest.of _) ?_ ?_)
    · exact (hrouting hroutes).qos1Deliver htables.toPendingFree pub
    · exact Spares.storeRetained pub
  · intro packetId _ _ _ _
    exact hsession.qos1HandlePuback htables.toPendingFree _ packetId _
  · intro packetId rest hconn htype hparse
    apply Spares.handlePubrec
    intro msg hmsg hsession' hother
    refine ⟨hother, ?_⟩
    by_contra hfull
    refine hpubrec ⟨hconn, hdr, body, packetId, rest, msg, hnext, htype, hparse, hmsg, hsession',
      ?_⟩
    change ¬((n.sessions other).writeQueue.length : Int) + 1 ≤ env.cfg.maxWriteQueueSize at hfull
    omega
  · intro packetId rest hconn htype hparse
    refine hsession.releaseQos2 (hingest.of _) ?_ ?_
    · intro msg b' hstored
      have hroutes : Routes env n sid :=
        ⟨hconn, hdr, body, hnext, Or.inr ⟨htype, packetId, rest, msg, hparse, hstored⟩⟩
      exact (hrouting hroutes).qos2Deliver htables.toOutgoingFree _ b'
    · intro _
      exact hsession.qos2HandlePubrel htables.toOutgoingFree _ packetId _
  · intro packetId _ _ _ _
    exact hsession.qos2HandlePubcomp htables.toOutgoingFree _ packetId _
  · intro sub _ _ _ _
    refine hsession.subscribeAll htables.toNotesFree ?_ sub.packetId [] _
    intro filter _ b _ _
    exact .of_same rfl rfl
  · intro unsub _ _ _ _
    apply hsession.foldl
    intro b filter
    exact .of_same rfl rfl
  · intro _
    exact Spares.trans (Spares.modifySession _ hne _) (hsession.closeOwn _)

theorem turn_spares (hne : sid ≠ other) (henabled : n.toBroker.Enabled (.turn sid))
    (hclear : ∀ conn, Connects env n sid conn → ¬Displaces n.toBroker sid conn.clientId other)
    (hpubrec : ¬PubrecOverflows env n sid other) :
    Spares env.cfg other (Routes env n sid) n.toBroker (n.step env (.turn sid)).toBroker := by
  have hloop : LoopClosed env sid (· ≠ other)
      (Spares (α := α) env.cfg other (Routes env n sid)) := spares_loop hne hne fun _ => Or.inr
  refine hloop.onReadTurn henabled.2 ?_
  intro packet parser hextract
  apply hloop.handlePacket
  intro hdr body hdecode
  exact spares_cases hne henabled hclear hpubrec ⟨packet, parser, hextract, hdecode⟩

end Turn

/-! ## Isolation -/

/-- The next turn handles a CONNECT that closes the other session, although it
names no client id or not that of the other session. -/
def Misplaces (env : Env α) (n : Runtime α) (sid other : SessionId) : Prop :=
  ∃ conn, Connects env n sid conn ∧ Displaces n.toBroker sid conn.clientId other ∧
    (conn.clientId = [] ∨ conn.clientId ≠ (n.sessions other).clientId)

/-- What a packet handled on `sid` leaves of the session `other`.  A message that
is routed may be added to the messages in flight and may overflow the queue,
and a CONNECT may take over a client id that is not empty. -/
structure Isolated (env : Env α) (n : Runtime α) (sid other : SessionId) : Prop where
  adds : AddsTo (n.sessions other).clientId n.toBroker (n.step env (.turn sid)).toBroker
  keeps : ¬Routes env n sid →
    KeepsMessagesTo (n.sessions other).clientId n.toBroker (n.step env (.turn sid)).toBroker
  state : Undisturbed other n.toBroker (n.step env (.turn sid)).toBroker ∨
    (Routes env n sid ∧ ∃ calls,
      (n.step env (.turn sid)).history.handed = n.history.handed ++ calls ∧
      Overflowing env.cfg other (n.sessions other).writeQueue.length calls) ∨
    ∃ conn, Connects env n sid conn ∧ conn.clientId = (n.sessions other).clientId ∧
      conn.clientId ≠ []

section Isolation

variable {env : Env α} {n : Runtime α} {sid other : SessionId}

theorem not_isolated_of_misplaces (hother : (n.sessions other).connected = true)
    (h : Misplaces env n sid other) : ¬Isolated env n sid other := by
  obtain ⟨conn, hconnects, hdisplaces, hwrong⟩ := h
  obtain ⟨packet, auth, failures, bans, hturn⟩ := hconnects.onReadTurn_of_displaces hdisplaces
  intro hisolated
  rcases hisolated.state with hkept | ⟨⟨hconn, _⟩, _⟩ | ⟨conn', hconnects', hsame, hnamed⟩
  · have hconn := hkept.connected
    change ((Session.onReadTurn env sid n).toBroker.sessions other).connected = _ at hconn
    rw [hturn, hother] at hconn
    dsimp only at hconn
    rw [Broker.sessions_modifySession_self] at hconn
    cases hconn
  · rw [hconnects.first] at hconn
    cases hconn
  · rw [hconnects.unique hconnects'] at hwrong
    rcases hwrong with hempty | hdiffers
    · exact hnamed hempty
    · exact hdiffers hsame

theorem connected_deliver_of_full {b : Broker α}
    (hfull : env.cfg.maxWriteQueueSize ≤ ((b.sessions other).writeQueue.length : Int))
    (packet : OutPacket) :
    ((Session.deliver env other packet b).sessions other).connected = false := by
  unfold Session.deliver
  dsimp only
  split_ifs with hidle hclose
  · simpa using hidle
  · exact Session.connected_close other _
  · exact absurd hfull hclose

theorem not_isolated_of_pubrecOverflows (hother : (n.sessions other).connected = true)
    (h : PubrecOverflows env n sid other) : ¬Isolated env n sid other := by
  obtain ⟨hconn, hdr, body, packetId, rest, msg, hnext, htype, hparse, hmsg, hsession, hfull⟩ := h
  intro hisolated
  rcases hisolated.state with hkept | ⟨⟨_, hdr', body', hnext', htype'⟩, _⟩ | ⟨conn, hconnects, _⟩
  · obtain ⟨packet, hturn⟩ := onReadTurn_of_next hnext
    have hclosed := hkept.connected
    change ((Session.onReadTurn env sid n).toBroker.sessions other).connected = _ at hclosed
    have hconn' : ((n.toBroker.observe (.noteHandled sid packet)).sessions sid).connected = true :=
      hconn
    have hack : (Session.dispatch env sid hdr body
        (n.toBroker.observe (.noteHandled sid packet))) =
        (Qos2Handler.handlePubrec env (n.sessions sid).clientId packetId
          (n.toBroker.observe (.noteHandled sid packet)), none) := by
      rw [Session.dispatch, htype]
      dsimp only
      rw [Session.handlePubrec, Session.handleAck, hconn', hparse]
      rfl
    have hmsg' : (n.toBroker.observe (.noteHandled sid packet)).delivery.outgoing.message?
        (n.sessions sid).clientId packetId = some msg := hmsg
    have hother' : ∀ table, (((n.toBroker.observe (.noteHandled sid packet)).setOutgoing
        table).sessions msg.session).connected = true := by
      intro table
      rw [hsession]
      exact hother
    rw [hturn, hother, hack, Qos2Handler.handlePubrec, hmsg'] at hclosed
    dsimp only [Session.catchException] at hclosed
    rw [if_pos (hother' _), hsession, connected_deliver_of_full] at hclosed
    · cases hclosed
    · exact hfull
  · rw [← (hnext.unique hnext').1, htype] at htype'
    rcases htype' with heq | ⟨heq, _⟩
    · cases heq
    · cases heq
  · rw [hconnects.first] at hconn
    cases hconn

end Isolation

/-- A packet leaves the other connected sessions alone, unless it is a CONNECT
that closes the session registered under an empty or a former client id, or a
PUBREC whose PUBREL overflows the queue of the session that the message was
sent on. -/
theorem sessions_isolated_iff (env : Env α) (n : Runtime α) (hn : (brokerSystem env).Reachable n)
    (sid other : SessionId) (hne : sid ≠ other) (henabled : n.toBroker.Enabled (.turn sid))
    (hother : (n.sessions other).connected = true) :
    Isolated env n sid other ↔ ¬Misplaces env n sid other ∧ ¬PubrecOverflows env n sid other := by
  have hregistered : Registered n.toBroker :=
    (registered_inductive env).reachable registered_init hn
  have hapart : (n.sessions sid).connected = true →
      (n.sessions sid).clientId ≠ (n.sessions other).clientId := by
    intro hconn hsame
    exact hne (hregistered.unique hconn hother hsame)
  constructor
  · intro hisolated
    constructor
    · intro hmisplaces
      exact not_isolated_of_misplaces hother hmisplaces hisolated
    · intro hpubrec
      exact not_isolated_of_pubrecOverflows hother hpubrec hisolated
  · rintro ⟨hmisplaces, hpubrec⟩
    refine ⟨turn_adds henabled (tablesReserved_reachable hn) hapart,
      turn_keepsMessagesTo henabled hapart, ?_⟩
    by_cases htakes : ∃ conn, Connects env n sid conn ∧
        Displaces n.toBroker sid conn.clientId other
    · obtain ⟨conn, hconnects, hdisplaces⟩ := htakes
      right
      right
      refine ⟨conn, hconnects, ?_, ?_⟩
      · by_contra hdiffers
        exact hmisplaces ⟨conn, hconnects, hdisplaces, Or.inr hdiffers⟩
      · intro hempty
        exact hmisplaces ⟨conn, hconnects, hdisplaces, Or.inl hempty⟩
    · have hclear : ∀ conn, Connects env n sid conn →
          ¬Displaces n.toBroker sid conn.clientId other := by
        intro conn hconnects hdisplaces
        exact htakes ⟨conn, hconnects, hdisplaces⟩
      have hturn : Event.turn sid ≠ .turn other := fun heq => hne (Event.turn.inj heq)
      have hendures := (reachable_standsBy hn henabled hturn).2
      obtain ⟨calls, hhanded, hspares⟩ := turn_spares hne henabled hclear hpubrec
      rcases hspares hother with ⟨hconn, _⟩ | ⟨hroutes, hfull⟩
      · exact Or.inl (undisturbed_of_endures hendures hconn)
      · exact Or.inr (Or.inl ⟨hroutes, calls, hhanded, hfull⟩)

/-- A client subscribes to a topic, and a second one sends a message there. -/
def neighbourEvents : List Event :=
  [.accept [0x69], .read 0 (connectBytes true [0x63] ++ subscribeBytes 1 [0x74] 1), .turn 0,
    .turn 0, .turn 0, .accept [0x6a],
    .read 1 (connectBytes true [0x64] ++ (OutPacket.publish [0x74] [0x6d] 1 false false 7).bytes),
    .turn 1]

/-- The message is added to those in flight to the subscriber, which is left
alone otherwise. -/
theorem sessions_isolated_neighbours :
    let n := (brokerSystem defaultEnv).after { auth := () } neighbourEvents
    (n.step defaultEnv (.turn 1)).delivery.pending.message? [0x63] 1 ≠ none ∧
      Isolated defaultEnv n 1 0 := by
  intro n
  have hnext : NextPacket defaultEnv n 1 _ _ :=
    ⟨(OutPacket.publish [0x74] [0x6d] 1 false false 7).bytes, {}, by decide +kernel, rfl⟩
  have hconn : (n.sessions 1).connected = true := by decide +kernel
  refine ⟨by decide +kernel, (sessions_isolated_iff defaultEnv n ?_ 1 0 (by decide) ?_ ?_).mpr
    ⟨?_, ?_⟩⟩
  · refine .of_allowed ⟨(), rfl⟩ ⟨⟨rfl, rfl, trivial⟩, ⟨rfl, rfl, rfl, ?_, ?_⟩, ⟨?_, ?_⟩, ⟨?_, ?_⟩,
      ⟨?_, ?_⟩, ⟨?_, ?_, trivial⟩, ⟨?_, ?_, ?_, ?_, ?_⟩, ⟨?_, ?_⟩, trivial⟩ <;> decide +kernel
  · constructor <;> decide +kernel
  · decide +kernel
  · rintro ⟨conn, hconnects, _⟩
    rw [hconnects.first] at hconn
    cases hconn
  · rintro ⟨_, hdr, body, packetId, rest, msg, hnext', htype, _⟩
    rw [← (hnext.unique hnext').1] at htype
    cases htype

def unnamedEvents : List Event :=
  [.accept [0x69], .read 0 (connectBytes true []), .turn 0, .turn 0, .accept [0x6a],
    .read 1 (connectBytes true [])]

/-- A client with a message in flight sends a second CONNECT, which closes the
session, and a third one under another name.  It is connected as the second
client on a session whose queue is full when the first one acknowledges its
message on a new session. -/
def renamedEvents : List Event :=
  [.accept [0x69], .read 0 (echoBytes ++ connectBytes true [0x64] ++ connectBytes true [0x64]),
    .turn 0, .turn 0, .turn 0, .turn 0, .turn 0, .turn 0, .turn 0, .accept [0x6a],
    .read 1 (connectBytes true [0x63] ++ (OutPacket.pubrec 1).bytes), .turn 1]

def narrowEnv : Env Unit := { cfg := { maxWriteQueueSize := 6 }, auth := Auth.allowAll }

/-- A CONNECT without a client id closes another session, and so does a
PUBREC. -/
theorem sessions_not_isolated :
    let n := (brokerSystem defaultEnv).after { auth := () } unnamedEvents
    let m := (brokerSystem narrowEnv).after { auth := () } renamedEvents
    ((brokerSystem defaultEnv).Reachable n ∧ n.toBroker.Enabled (.turn 1) ∧
      (n.sessions 0).connected = true ∧ (n.sessions 0).clientId = [] ∧
      ((n.step defaultEnv (.turn 1)).sessions 0).connected = false ∧
      ¬Isolated defaultEnv n 1 0) ∧
    (brokerSystem narrowEnv).Reachable m ∧ m.toBroker.Enabled (.turn 1) ∧
      (m.sessions 0).connected = true ∧ (m.sessions 1).connected = true ∧
      ((m.step narrowEnv (.turn 1)).sessions 0).connected = false ∧
      ¬Isolated narrowEnv m 1 0 := by
  intro n m
  constructor
  · have hother : (n.sessions 0).connected = true := by decide +kernel
    refine ⟨?_, ?_, hother, by decide +kernel, by decide +kernel, ?_⟩
    · refine .of_allowed ⟨(), rfl⟩ ⟨⟨rfl, rfl, trivial⟩, ⟨rfl, rfl, rfl, ?_, ?_⟩, ⟨?_, ?_⟩,
        ⟨?_, ?_⟩, ⟨?_, ?_, trivial⟩, ⟨?_, ?_, ?_, ?_, ?_⟩, trivial⟩ <;> decide +kernel
    · constructor <;> decide +kernel
    · apply not_isolated_of_misplaces hother
      refine ⟨{ protocolName := mqttProtocolName, protocolLevel := mqttProtocolLevel
                cleanSession := true, keepalive := 60 }, ?_, ⟨?_, ?_, ?_, hother⟩, Or.inl rfl⟩
      · refine ⟨(connectBytes true []).drop 2,
          ⟨_, ⟨connectBytes true [], {}, by decide +kernel, rfl⟩, rfl⟩, ⟨?_, ?_, ?_, ?_, ?_⟩, ?_⟩
        · decide +kernel
        · exact ⟨[], by decide +kernel⟩
        · decide
        · exact Or.inr rfl
        · intro banUntil hban
          have hnone : n.server.authBanUntil = ∅ := by decide +kernel
          rw [hnone] at hban
          cases hban
        · exact Or.inl ⟨rfl, rfl⟩
      · decide +kernel
      · decide +kernel
      · decide
  · have hother : (m.sessions 0).connected = true := by decide +kernel
    have hconn : (m.sessions 1).connected = true := by decide +kernel
    refine ⟨?_, ?_, hother, hconn, by decide +kernel, ?_⟩
    · refine .of_allowed ⟨(), rfl⟩ ⟨⟨rfl, rfl, trivial⟩, ⟨rfl, rfl, rfl, ?_, ?_⟩, ⟨?_, ?_⟩,
        ⟨?_, ?_⟩, ⟨?_, ?_⟩, ⟨?_, ?_⟩, ⟨?_, ?_⟩, ⟨?_, ?_⟩, ⟨?_, ?_⟩, ⟨?_, ?_, trivial⟩,
        ⟨?_, ?_, ?_, ?_, ?_⟩,
        ⟨?_, ?_⟩, trivial⟩ <;> decide +kernel
    · constructor <;> decide +kernel
    · apply not_isolated_of_pubrecOverflows hother
      refine ⟨hconn, _, _, 1, [], { session := 0, topic := [0x74], payload := [0x6d] },
        ⟨(OutPacket.pubrec 1).bytes, {}, by decide +kernel, rfl⟩, rfl, ?_, ?_, rfl, ?_⟩
      · decide +kernel
      · decide +kernel
      · decide +kernel

end JellyBroker
