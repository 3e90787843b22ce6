import JellyBroker.Broker.InFlight
import JellyBroker.Broker.Registry
import JellyBroker.Broker.Tables
/-!
# The sessions that retries go to

The in-flight tables are keyed by client id, but a message is kept with the
session it was first sent on, and a retry passes it to that session only.  While
no session serves two clients, the session is the one the client is connected
on, or it is not connected at all.
-/

namespace JellyBroker

open JellyBroker.Lib JellyBroker.Packet JellyBroker.Qos JellyBroker.Topic

variable {α : Type}

def callsSince (b b' : Broker α) : List Handed :=
  b'.history.handed.drop b.history.handed.length

def Event.RetryFor (clientId : Bytes) : Event → Prop
  | .retryQos1 client _ | .retryQos2 client _ => client = clientId
  | _ => False

structure RetriedMessage where
  session : SessionId
  retryCount : Int
  packet : OutPacket
  deriving DecidableEq

def retriedMessage? (b : Broker α) : Event → Option RetriedMessage
  | .retryQos1 clientId packetId =>
      (b.delivery.pending.message? clientId packetId).map fun msg =>
        ⟨msg.session, msg.retryCount, msg.publishPacket⟩
  | .retryQos2 clientId packetId =>
      (b.delivery.outgoing.message? clientId packetId).map fun msg =>
        ⟨msg.session, msg.retryCount, Qos2Handler.retryPacket packetId msg⟩
  | _ => none

/-- The event is a retry of a message that was first sent on the session and has
a retry left. -/
def RetriedOn (cfg : Config) (b : Broker α) (session : SessionId) (e : Event) : Prop :=
  ∃ msg, retriedMessage? b e = some msg ∧ msg.session = session ∧
    msg.retryCount < cfg.maxRetryCount

/-! ## What a retry hands over -/

def retryCalls (cfg : Config) (b : Broker α) : Option RetriedMessage → List Handed
  | none => []
  | some msg =>
      if msg.retryCount < cfg.maxRetryCount ∧ (b.sessions msg.session).connected = true then
        [⟨msg.session, msg.packet, Session.accepts cfg (b.sessions msg.session)⟩]
      else []

/-- A retry takes the message out of flight, or counts the retry and passes the
packet to the session if it is connected. -/
theorem handed_of_retry (env : Env α) (msg : RetriedMessage) {b spent counted : Broker α}
    (hspent : spent.history.handed = b.history.handed) (hcounted : Prepared b counted) :
    (if msg.retryCount ≥ env.cfg.maxRetryCount then spent
      else if (counted.sessions msg.session).connected then
        Session.deliver env msg.session msg.packet counted
      else counted).history.handed =
      b.history.handed ++ retryCalls env.cfg b (some msg) := by
  dsimp only [retryCalls]
  rw [← hcounted.sessions]
  split_ifs with hused hboth hconn hboth hboth
  · omega
  · rw [hspent, List.append_nil]
  · rw [handed_deliver, hcounted.handed]
  · exact absurd ⟨by omega, hconn⟩ hboth
  · exact absurd hboth.2 hconn
  · rw [hcounted.handed, List.append_nil]

theorem handed_retryQos1 (env : Env α) (clientId : Bytes) (packetId : UInt16) (b : Broker α) :
    (Qos1Handler.retryMessage env clientId packetId b).history.handed = b.history.handed ++
      retryCalls env.cfg b (retriedMessage? b (.retryQos1 clientId packetId)) := by
  unfold Qos1Handler.retryMessage
  dsimp only [retriedMessage?]
  cases hmsg : b.delivery.pending.message? clientId packetId with
  | none => exact (List.append_nil _).symm
  | some msg =>
      exact handed_of_retry env ⟨msg.session, msg.retryCount, msg.publishPacket⟩ rfl ⟨rfl, rfl⟩

theorem handed_retryQos2 (env : Env α) (clientId : Bytes) (packetId : UInt16) (b : Broker α) :
    (Qos2Handler.retryMessage env clientId packetId b).history.handed = b.history.handed ++
      retryCalls env.cfg b (retriedMessage? b (.retryQos2 clientId packetId)) := by
  unfold Qos2Handler.retryMessage
  dsimp only [retriedMessage?]
  cases hmsg : b.delivery.outgoing.message? clientId packetId with
  | none => exact (List.append_nil _).symm
  | some msg =>
      exact handed_of_retry env
        ⟨msg.session, msg.retryCount, Qos2Handler.retryPacket packetId msg⟩ rfl ⟨rfl, rfl⟩

theorem callsSince_append {b b' : Broker α} {calls : List Handed}
    (h : b'.history.handed = b.history.handed ++ calls) : callsSince b b' = calls := by
  unfold callsSince
  rw [h]
  exact List.drop_left

theorem callsSince_retry {clientId : Bytes} {e : Event} (he : e.RetryFor clientId) (env : Env α)
    (n : Runtime α) : callsSince n.toBroker (n.step env e).toBroker =
      retryCalls env.cfg n.toBroker (retriedMessage? n.toBroker e) := by
  apply callsSince_append
  cases e with
  | retryQos1 client packetId => exact handed_retryQos1 env client packetId n.toBroker
  | retryQos2 client packetId => exact handed_retryQos2 env client packetId n.toBroker
  | _ => exact absurd he not_false

theorem mem_retryCalls {cfg : Config} {b : Broker α} {e : Event} {call : Handed} :
    call ∈ retryCalls cfg b (retriedMessage? b e) ↔
      ∃ msg, retriedMessage? b e = some msg ∧ msg.retryCount < cfg.maxRetryCount ∧
        (b.sessions msg.session).connected = true ∧
        call = ⟨msg.session, msg.packet, Session.accepts cfg (b.sessions msg.session)⟩ := by
  cases retriedMessage? b e with
  | none => simp [retryCalls]
  | some msg =>
      dsimp only [retryCalls]
      split_ifs with hboth
      · simp [hboth]
      · simp only [List.not_mem_nil, false_iff]
        rintro ⟨msg', hmsg, hleft, hconn, _⟩
        rw [Option.some.inj hmsg] at hboth
        exact hboth ⟨hleft, hconn⟩

/-- All that the retry hands over goes to one session, if the session its
message was first sent on is that session or not connected. -/
theorem retryCalls_only_iff {cfg : Config} {b : Broker α} {e : Event} {sid : SessionId} :
    (∀ call ∈ retryCalls cfg b (retriedMessage? b e), call.session = sid) ↔
      ∀ session, RetriedOn cfg b session e → (b.sessions session).connected = true →
        session = sid := by
  constructor
  · rintro h session ⟨msg, hmsg, rfl, hleft⟩ hconn
    exact h _ (mem_retryCalls.mpr ⟨msg, hmsg, hleft, hconn, rfl⟩)
  · intro h call hcall
    obtain ⟨msg, hmsg, hleft, hconn, rfl⟩ := mem_retryCalls.mp hcall
    exact h msg.session ⟨msg, hmsg, rfl, hleft⟩ hconn

theorem retryCalls_some_iff {cfg : Config} {b : Broker α} {e : Event} {sid : SessionId}
    (hconn : (b.sessions sid).connected = true) :
    (∃ call ∈ retryCalls cfg b (retriedMessage? b e), call.session = sid) ↔
      RetriedOn cfg b sid e := by
  constructor
  · rintro ⟨call, hcall, hsession⟩
    obtain ⟨msg, hmsg, hleft, _, rfl⟩ := mem_retryCalls.mp hcall
    exact ⟨msg, hmsg, hsession, hleft⟩
  · rintro ⟨msg, hmsg, hsession, hleft⟩
    refine ⟨_, mem_retryCalls.mpr ⟨msg, hmsg, hleft, ?_, rfl⟩, hsession⟩
    rw [hsession]
    exact hconn

/-! ## Messages and the clients of their sessions -/

/-- A message in the table is for the client that its session serves, if it
serves one. -/
def AddressedIn {μ : Type} (session : μ → SessionId) (table : ClientTable μ) (b : Broker α) :
    Prop :=
  ∀ clientId packetId msg, table.message? clientId packetId = some msg →
    (b.sessions (session msg)).connected = true → (b.sessions (session msg)).clientId = clientId

namespace AddressedIn

variable {μ : Type} {session : μ → SessionId} {table : ClientTable μ} {b : Broker α}

theorem empty (session : μ → SessionId) (b : Broker α) : AddressedIn session ∅ b := by
  intro clientId packetId msg hmsg
  cases hmsg

variable (h : AddressedIn session table b)

include h

theorem of_connected {b' : Broker α}
    (hsame : ∀ sid, (b'.sessions sid).connected = true → (b.sessions sid).connected = true ∧
      (b'.sessions sid).clientId = (b.sessions sid).clientId) :
    AddressedIn session table b' := by
  intro clientId packetId msg hmsg hconn
  obtain ⟨hbefore, hclient⟩ := hsame _ hconn
  rw [hclient]
  exact h clientId packetId msg hmsg hbefore

theorem send {clientId : Bytes} {msg : μ} (hmsg : (b.sessions (session msg)).clientId = clientId) :
    AddressedIn session (Finmap.insert clientId
      { (allocatePacketId (table.record clientId)).2 with
        messages := (allocatePacketId (table.record clientId)).2.messages.insert
          (allocatePacketId (table.record clientId)).1 msg } table) b := by
  intro clientId' packetId msg' hlookup hconn
  rw [ClientTable.message?_send] at hlookup
  split_ifs at hlookup with hnew
  · rw [← Option.some.inj hlookup, hmsg, hnew.1]
  · exact h clientId' packetId msg' hlookup hconn

theorem exhausted (clientId : Bytes) :
    AddressedIn session
      (Finmap.insert clientId (allocatePacketId (table.record clientId)).2 table) b := by
  intro clientId' packetId msg hlookup hconn
  rw [ClientTable.message?_exhausted] at hlookup
  exact h clientId' packetId msg hlookup hconn

theorem setMessage {clientId : Bytes} {packetId : UInt16} {old msg : μ}
    (hold : table.message? clientId packetId = some old) (hsession : session msg = session old) :
    AddressedIn session (table.setMessage clientId packetId msg) b := by
  intro clientId' packetId' msg' hlookup hconn
  rw [ClientTable.message?_setMessage hold] at hlookup
  split_ifs at hlookup with hboth
  · rw [← Option.some.inj hlookup, hsession] at hconn ⊢
    rw [hboth.1]
    exact h clientId packetId old hold hconn
  · exact h clientId' packetId' msg' hlookup hconn

theorem remove (clientId : Bytes) (packetId : UInt16) :
    AddressedIn session (table.remove clientId packetId) b := by
  intro clientId' packetId' msg hlookup hconn
  rw [ClientTable.message?_remove] at hlookup
  split_ifs at hlookup
  exact h clientId' packetId' msg hlookup hconn

end AddressedIn

structure Addressed (b : Broker α) : Prop where
  pending : AddressedIn PendingMessage.session b.delivery.pending b
  outgoing : AddressedIn OutgoingMessage.session b.delivery.outgoing b

namespace Addressed

theorem of_connected {b b' : Broker α} (h : Addressed b)
    (hsame : ∀ sid, (b'.sessions sid).connected = true → (b.sessions sid).connected = true ∧
      (b'.sessions sid).clientId = (b.sessions sid).clientId)
    (htables : SameTables b b') : Addressed b' where
  pending := by
    rw [htables.pending]
    exact h.pending.of_connected hsame
  outgoing := by
    rw [htables.outgoing]
    exact h.outgoing.of_connected hsame

theorem of_sessions {b b' : Broker α} (h : Addressed b) (hsessions : b'.sessions = b.sessions)
    (htables : SameTables b b') : Addressed b' := by
  refine h.of_connected ?_ htables
  intro sid hconn
  rw [hsessions] at hconn ⊢
  exact ⟨hconn, rfl⟩

theorem modifySession {b : Broker α} (h : Addressed b) (sid : SessionId)
    {change : Session → Session} (hclient : ∀ s, (change s).clientId = s.clientId)
    (hconn : ∀ s, (change s).connected = true → s.connected = true) :
    Addressed (b.modifySession sid change) := by
  refine h.of_connected ?_ ⟨rfl, rfl⟩
  intro other hother
  by_cases heq : other = sid
  · rw [heq, Broker.sessions_modifySession_self] at hother ⊢
    exact ⟨hconn _ hother, hclient _⟩
  · rw [Broker.sessions_modifySession_of_ne heq] at hother ⊢
    exact ⟨hother, rfl⟩

theorem frame : Frame fun b b' : Broker α => Addressed b → Addressed b' :=
  keepsInFlight_frame.weaken
    (fun hkeeps h => h.of_connected (fun sid hconn =>
      ⟨hkeeps.connected sid hconn, hkeeps.clientId sid⟩) ⟨hkeeps.pending, hkeeps.outgoing⟩)
    fun h h' hb => h' (h hb)

theorem notes : NotesFree fun b b' : Broker α => Addressed b → Addressed b' where
  noteSent _ _ h := h.of_sessions rfl ⟨rfl, rfl⟩
  noteSettled _ _ h := h.of_sessions rfl ⟨rfl, rfl⟩

theorem ingest : IngestFree fun b b' : Broker α => Addressed b → Addressed b' where
  incoming _ _ h := h.of_sessions rfl ⟨rfl, rfl⟩
  noteIngest _ _ _ _ h := h.of_sessions rfl ⟨rfl, rfl⟩

theorem loop (env : Env α) (sid : SessionId) :
    LoopClosed env sid (fun _ => True) fun b b' : Broker α => Addressed b → Addressed b' where
  toSessionFrame := frame.session env sid
  noteHandled _ _ h := h.of_sessions rfl ⟨rfl, rfl⟩
  rearm b _ h := by
    apply h.modifySession sid <;> intro s <;> unfold Session.rearm <;> split_ifs
    · rfl
    · rfl
    · exact id
    · exact id
  stopReading _ h := h.of_sessions rfl ⟨rfl, rfl⟩

variable {b : Broker α} (h : Addressed b)

include h

theorem deliver (env : Env α) (sid : SessionId) (packet : OutPacket) :
    Addressed (Session.deliver env sid packet b) :=
  frame.deliver env sid packet b h

theorem qos1DeliverTo (env : Env α) (pub : PublishPacket) (entry : SubscriberEntry) :
    Addressed (Qos1Handler.deliverTo env pub entry b) := by
  unfold Qos1Handler.deliverTo
  dsimp only
  split_ifs
  · exact ⟨h.pending.exhausted _, h.outgoing⟩
  · apply deliver
    exact ⟨h.pending.send rfl, h.outgoing⟩

theorem qos2DeliverTo (env : Env α) (pub : PublishPacket) (entry : SubscriberEntry) :
    Addressed (Qos2Handler.deliverTo env pub entry b) := by
  unfold Qos2Handler.deliverTo
  dsimp only
  split_ifs
  · apply deliver
    exact (frame.delivery env).noteUntracked notes _ _ _ b h
  · exact ⟨h.pending, h.outgoing.exhausted _⟩
  · apply deliver
    exact ⟨h.pending, h.outgoing.send rfl⟩

theorem removePending (clientId : Bytes) (packetId : UInt16) :
    Addressed (b.setPending (b.delivery.pending.remove clientId packetId)) :=
  ⟨h.pending.remove _ _, h.outgoing⟩

theorem removeOutgoing (clientId : Bytes) (packetId : UInt16) :
    Addressed (b.setOutgoing (b.delivery.outgoing.remove clientId packetId)) :=
  ⟨h.pending, h.outgoing.remove _ _⟩

theorem handlePubrec (env : Env α) (clientId : Bytes) (packetId : UInt16) :
    Addressed (Qos2Handler.handlePubrec env clientId packetId b) := by
  apply Qos2Handler.handlePubrec_rule h
  · intro msg hmsg
    exact ⟨h.pending, h.outgoing.setMessage hmsg rfl⟩
  · intro msg marked _ hmarked
    exact hmarked.deliver env _ _

theorem handlePubrel (clientId : Bytes) (packetId : UInt16) :
    Addressed (Qos2Handler.handlePubrel clientId packetId b) := by
  unfold Qos2Handler.handlePubrel
  split
  · exact h
  · exact (h.removeOutgoing clientId packetId).of_sessions rfl ⟨rfl, rfl⟩

theorem qos1RetryMessage (env : Env α) (clientId : Bytes) (packetId : UInt16) :
    Addressed (Qos1Handler.retryMessage env clientId packetId b) := by
  apply Qos1Handler.retryMessage_rule h
  · intro msg _ _
    exact (h.removePending clientId packetId).of_sessions rfl ⟨rfl, rfl⟩
  · intro msg hmsg
    exact ⟨h.pending.setMessage hmsg rfl, h.outgoing⟩
  · intro msg counted _ hcounted
    exact hcounted.deliver env _ _

theorem qos2RetryMessage (env : Env α) (clientId : Bytes) (packetId : UInt16) :
    Addressed (Qos2Handler.retryMessage env clientId packetId b) := by
  apply Qos2Handler.retryMessage_rule h
  · intro msg _ _
    exact (h.removeOutgoing clientId packetId).of_sessions rfl ⟨rfl, rfl⟩
  · intro msg hmsg
    exact ⟨h.pending, h.outgoing.setMessage hmsg rfl⟩
  · intro msg counted _ hcounted
    exact hcounted.deliver env _ _

end Addressed

theorem addressed_cases (env : Env α) (sid : SessionId) (hdr : FixedHeader) (body : Bytes)
    (b : Broker α) :
    TableCases env sid (fun b b' => Addressed b → Addressed b') hdr body b := by
  have hdelivery := (Addressed.frame (α := α)).delivery env
  constructor
  · intro _ _ pub b'
    exact hdelivery.fanOut (fun entry b h => h.qos1DeliverTo env pub entry) _ b'
  · intro packetId _ _ _ _ h
    exact (h.removePending _ packetId).of_sessions rfl ⟨rfl, rfl⟩
  · intro packetId _ _ _ _ h
    exact h.handlePubrec env _ packetId
  · intro _ _ _ _ _ _ _ pub b'
    exact hdelivery.fanOut (fun entry b h => h.qos2DeliverTo env pub entry) _ b'
  · intro packetId _ _ _ _ _ h
    exact h.handlePubrel _ packetId
  · intro packetId _ _ _ _ h
    exact (h.removeOutgoing _ packetId).of_sessions rfl ⟨rfl, rfl⟩

/-! ## Runs -/

/-- The step accepts no CONNECT on a session that messages in flight to another
client were sent on. -/
def Unshared (env : Env α) (n : Runtime α) (e : Event) : Prop :=
  ∀ sid conn, e = .turn sid → Connects env n sid conn →
    (∀ clientId packetId msg, n.delivery.pending.message? clientId packetId = some msg →
      msg.session = sid → clientId = conn.clientId) ∧
    ∀ clientId packetId msg, n.delivery.outgoing.message? clientId packetId = some msg →
      msg.session = sid → clientId = conn.clientId

theorem AddressedIn.register {μ : Type} {session : μ → SessionId} {table : ClientTable μ}
    {b : Broker α} (h : AddressedIn session table b) {env : Env α} {sid : SessionId}
    {conn : ConnectPacket}
    (hown : ∀ clientId packetId msg, table.message? clientId packetId = some msg →
      session msg = sid → clientId = conn.clientId) :
    AddressedIn session table (Session.register env sid conn b) := by
  intro clientId packetId msg hmsg hconn
  unfold Session.register at hconn ⊢
  by_cases heq : session msg = sid
  · rw [heq, Broker.sessions_modifySession_self]
    exact (hown clientId packetId msg hmsg heq).symm
  · rw [Broker.sessions_modifySession_of_ne heq] at hconn ⊢
    exact h clientId packetId msg hmsg hconn

theorem turn_addressed {env : Env α} {n : Runtime α} {sid : SessionId}
    (henabled : n.toBroker.Enabled (.turn sid)) (hunshared : Unshared env n (.turn sid))
    (h : Addressed n.toBroker) : Addressed (n.step env (.turn sid)).toBroker := by
  have hframe := Addressed.frame (α := α)
  refine (Addressed.loop env sid).onReadTurn henabled.2 ?_ h
  intro packet parser hextract
  refine hframe.handlePacket Addressed.notes Addressed.ingest ?_ ?_
  · intro hdr body hdecode htype
    refine (hframe.session env sid).handleConnect hframe.authFree ?_
    intro conn auth failures bans hconn hb
    have hconnects : Connects env n sid conn :=
      ⟨body, ⟨hdr, ⟨packet, parser, hextract, hdecode⟩, htype⟩, acceptableConnect_observe.mp hconn⟩
    obtain ⟨hpending, houtgoing⟩ := hunshared sid conn rfl hconnects
    refine (hframe.session env sid).acceptConnect hframe.authFree henabled.1 ?_ ?_
      (hb.of_sessions rfl ⟨rfl, rfl⟩)
    · intro _ hb'
      apply hframe.restoreSubscriptions
      exact ⟨hb'.pending.register hpending, hb'.outgoing.register houtgoing⟩
    · intro old _ hb'
      exact (hframe.disconnect _ old hb').of_sessions rfl ⟨rfl, rfl⟩
  · intro hdr body _
    exact addressed_cases env sid hdr body _

theorem addressed_io (env : Env α) :
    IoClosed env fun b b' : Broker α => Addressed b → Addressed b' where
  core := Addressed.frame.toCoreFrame
  retryQos1 _ clientId packetId h := h.qos1RetryMessage env clientId packetId
  retryQos2 _ clientId packetId h := h.qos2RetryMessage env clientId packetId
  beginRead b sid _ h := by
    have hdropped : Addressed (b.modifySession sid fun s => { s with readPending := false }) :=
      h.modifySession sid (fun _ => rfl) fun _ => id
    exact hdropped.of_sessions rfl ⟨rfl, rfl⟩
  dropRead b sid h := h.modifySession sid (fun _ => rfl) fun _ => id
  clock _ _ h := h.of_sessions rfl ⟨rfl, rfl⟩
  accept b ip h := by
    refine h.of_connected ?_ ?_
    · intro sid hconn
      rcases Server.sessions_onAccept env.cfg ip b sid with hsame | ⟨_, hnew⟩
      · rw [hsame] at hconn ⊢
        exact ⟨hconn, rfl⟩
      · rw [hnew] at hconn
        cases hconn
    · unfold Server.onAccept
      dsimp only
      split_ifs <;> exact ⟨rfl, rfl⟩
  destroy b sid _ _ h := h.modifySession sid (fun _ => rfl) fun _ hconn => nomatch hconn

theorem addressed_reachable {env : Env α} {n : Runtime α}
    (hn : ((brokerSystem env).restrict (Unshared env)).Reachable n) : Addressed n.toBroker := by
  refine hn.invariant (P := fun n => Addressed n.toBroker) ?_ ?_
  · rintro _ ⟨auth, rfl⟩
    exact ⟨.empty _ _, .empty _ _⟩
  · rintro n e h ⟨henabled, hunshared⟩
    by_cases hturn : ∃ sid, e = .turn sid
    · obtain ⟨sid, rfl⟩ := hturn
      exact turn_addressed henabled hunshared h
    · exact (addressed_io env).step (fun sid heq => hturn ⟨sid, heq⟩) henabled h

theorem Addressed.retried {b : Broker α} (h : Addressed b) {clientId : Bytes} {e : Event}
    (he : e.RetryFor clientId) {cfg : Config} {session : SessionId}
    (hretried : RetriedOn cfg b session e) (hconn : (b.sessions session).connected = true) :
    (b.sessions session).clientId = clientId := by
  obtain ⟨found, hfound, rfl, _⟩ := hretried
  cases e with
  | retryQos1 client packetId =>
      obtain ⟨msg, hmsg, rfl⟩ := Option.map_eq_some_iff.mp hfound
      rw [← he]
      exact h.pending client packetId msg hmsg hconn
  | retryQos2 client packetId =>
      obtain ⟨msg, hmsg, rfl⟩ := Option.map_eq_some_iff.mp hfound
      rw [← he]
      exact h.outgoing client packetId msg hmsg hconn
  | _ => exact absurd he not_false

/-- A retry for a connected client passes its packet to another session exactly
if the session that its message was first sent on is connected and not that of
the client, and to the client's session only if the message was first sent
there.  In a run that never reuses the session of messages in flight for another
client, no retry reaches another session than the client's. -/
theorem retries_follow_client (env : Env α) (n : Runtime α) (sid : SessionId)
    (hconn : (n.sessions sid).connected = true) (e : Event)
    (he : e.RetryFor (n.sessions sid).clientId) :
    ((∀ call ∈ callsSince n.toBroker (n.step env e).toBroker, call.session = sid) ↔
      ∀ session, RetriedOn env.cfg n.toBroker session e →
        (n.sessions session).connected = true → session = sid) ∧
    ((∃ call ∈ callsSince n.toBroker (n.step env e).toBroker, call.session = sid) ↔
      RetriedOn env.cfg n.toBroker sid e) ∧
    (((brokerSystem env).restrict (Unshared env)).Reachable n →
      ∀ call ∈ callsSince n.toBroker (n.step env e).toBroker, call.session = sid) := by
  rw [callsSince_retry he]
  refine ⟨retryCalls_only_iff, retryCalls_some_iff hconn, ?_⟩
  intro hn
  apply retryCalls_only_iff.mpr
  intro session hretried hsession
  have hclient := (addressed_reachable hn).retried he hretried hsession
  have hregistered : Registered n.toBroker :=
    (registered_inductive env).reachable registered_init hn.of_restrict
  exact hregistered.unique hsession hconn hclient

/-! ## Sample runs -/

theorem unshared_of_io {env : Env α} {n : Runtime α} {e : Event} (h : ∀ sid, e ≠ .turn sid) :
    Unshared env n e :=
  fun sid _ he => absurd he (h sid)

theorem unshared_of_connected {env : Env α} {n : Runtime α} {sid : SessionId}
    (h : (n.sessions sid).connected = true) : Unshared env n (.turn sid) := by
  intro sid' conn he hconnects
  rw [← Event.turn.inj he] at hconnects
  rw [hconnects.first] at h
  cases h

theorem unshared_of_end {env : Env α} {n : Runtime α} {sid : SessionId}
    (h : ((n.parsers sid).tryExtract env.cfg).1 = none) : Unshared env n (.turn sid) := by
  rintro sid' conn he ⟨body, ⟨hdr, ⟨packet, parser, hextract, _⟩, _⟩, _⟩
  rw [← Event.turn.inj he] at hextract
  rw [hextract] at h
  cases h

theorem unshared_of_apart {env : Env α} {n : Runtime α} {sid : SessionId}
    (hpending : ∀ clientId packetId msg,
      n.delivery.pending.message? clientId packetId = some msg → msg.session ≠ sid)
    (houtgoing : n.delivery.outgoing = ∅) : Unshared env n (.turn sid) := by
  intro sid' conn he _
  rw [← Event.turn.inj he]
  constructor
  · intro clientId packetId msg hmsg hsession
    exact absurd hsession (hpending clientId packetId msg hmsg)
  · intro clientId packetId msg hmsg
    rw [houtgoing] at hmsg
    cases hmsg

/-- A persistent client subscribes to a topic and sends a message of QoS 1 there,
which is then in flight to it. -/
def inFlightBytes : Bytes :=
  connectBytes false [0x63] ++ subscribeBytes 1 [0x74] 1 ++
    (OutPacket.publish [0x74] [0x6d] 1 false false 7).bytes

/-- The client connects again on a second session.  The bytes that follow its
message on the first session take `turns` turns, and those that follow its
CONNECT on the second one turn less than `turns'`. -/
def movedEvents (more : Bytes) (turns : Nat) (more' : Bytes) (turns' : Nat) : List Event :=
  [Event.accept [0x69], .read 0 (inFlightBytes ++ more), .turn 0, .turn 0, .turn 0] ++
    List.replicate turns (Event.turn 0) ++
    [Event.accept [0x69], .read 1 (connectBytes false [0x63] ++ more'), .turn 1] ++
    List.replicate turns' (Event.turn 1)

def returnedEvents : List Event :=
  movedEvents disconnectBytes 2 (OutPacket.publish [0x74] [0x6d] 1 false false 8).bytes 2

def returnedState (count : Nat) : Runtime Unit :=
  (brokerSystem defaultEnv).after { auth := () } (returnedEvents.take count)

theorem returnedState_reachable :
    ((brokerSystem defaultEnv).restrict (Unshared defaultEnv)).Reachable (returnedState 12) := by
  have hfirst : Unshared defaultEnv (returnedState 2) (.turn 0) := by
    apply unshared_of_apart
    · intro clientId packetId msg hmsg
      cases hmsg
    · rfl
  have hsecond : Unshared defaultEnv (returnedState 9) (.turn 1) := by
    have hpending : (returnedState 9).delivery.pending = Finmap.insert [0x63]
        { messages := Finmap.insert 1 ⟨0, .publish [0x74] [0x6d] 1 false false 1, 0⟩ ∅
          nextPacketId := ⟨2, by decide⟩, inUse := {1} } ∅ := by
      decide +kernel
    apply unshared_of_apart
    · intro clientId packetId msg hmsg
      rw [hpending, ClientTable.message?_insert, Map.lookup_insert_ite] at hmsg
      split_ifs at hmsg
      · rw [← Option.some.inj hmsg]
        decide
      · cases hmsg
      · cases hmsg
    · decide +kernel
  refine .of_allowed ⟨(), rfl⟩ ⟨⟨⟨rfl, rfl, trivial⟩, unshared_of_io nofun⟩,
    ⟨⟨rfl, rfl, rfl, ?_, ?_⟩, unshared_of_io nofun⟩, ⟨⟨?_, ?_⟩, hfirst⟩,
    ⟨⟨?_, ?_⟩, unshared_of_connected ?_⟩, ⟨⟨?_, ?_⟩, unshared_of_connected ?_⟩,
    ⟨⟨?_, ?_⟩, unshared_of_connected ?_⟩, ⟨⟨?_, ?_⟩, unshared_of_end ?_⟩,
    ⟨⟨?_, ?_, trivial⟩, unshared_of_io nofun⟩, ⟨⟨?_, ?_, ?_, ?_, ?_⟩, unshared_of_io nofun⟩,
    ⟨⟨?_, ?_⟩, hsecond⟩, ⟨⟨?_, ?_⟩, unshared_of_connected ?_⟩, ⟨⟨?_, ?_⟩, unshared_of_end ?_⟩,
    trivial⟩ <;> decide +kernel

/-- The message that was first sent on the second session is sent there again. -/
theorem retry_follows_returned_client :
    let n := returnedState 12
    let e : Event := .retryQos1 [0x63] 3
    (n.sessions 1).connected = true ∧ e.RetryFor (n.sessions 1).clientId ∧
      (∃ call ∈ callsSince n.toBroker (n.step defaultEnv e).toBroker, call.session = 1) ∧
      ∀ call ∈ callsSince n.toBroker (n.step defaultEnv e).toBroker, call.session = 1 := by
  intro n e
  have hconn : (n.sessions 1).connected = true := by decide +kernel
  have he : e.RetryFor (n.sessions 1).clientId := by
    change [0x63] = (n.sessions 1).clientId
    decide +kernel
  obtain ⟨_, hsome, honly⟩ := retries_follow_client defaultEnv n 1 hconn e he
  refine ⟨hconn, he, hsome.mpr ?_, honly returnedState_reachable⟩
  refine ⟨⟨1, 0, .publish [0x74] [0x6d] 1 false false 3⟩, ?_, rfl, by decide⟩
  decide +kernel

/-- The first session sends two CONNECT packets for another client: one closes
it, and the other connects it as that client. -/
def takenBytes : Bytes := connectBytes false [0x64] ++ connectBytes false [0x64]

/-- A retry passes a message of the client to the session of another one.  When
the first session is not connected, nothing is sent again, although the client
is connected. -/
theorem retry_reaches_other_client :
    let n := (brokerSystem defaultEnv).after { auth := () } (movedEvents takenBytes 3 [] 1)
    let m := (brokerSystem defaultEnv).after { auth := () } (movedEvents disconnectBytes 2 [] 1)
    ((brokerSystem defaultEnv).Reachable n ∧ n.toBroker.Enabled (.retryQos1 [0x63] 1) ∧
      (n.sessions 1).connected = true ∧ (n.sessions 1).clientId = [0x63] ∧
      (n.sessions 1).cleanSession = false ∧
      (n.sessions 0).clientId = [0x64] ∧
      callsSince n.toBroker (n.step defaultEnv (.retryQos1 [0x63] 1)).toBroker =
        [⟨0, .publish [0x74] [0x6d] 1 false false 1, true⟩]) ∧
    (brokerSystem defaultEnv).Reachable m ∧ m.toBroker.Enabled (.retryQos1 [0x63] 1) ∧
      (m.sessions 1).connected = true ∧ (m.sessions 1).clientId = [0x63] ∧
      (m.sessions 1).cleanSession = false ∧
      m.delivery.pending.message? [0x63] 1 =
        some ⟨0, .publish [0x74] [0x6d] 1 false false 1, 0⟩ ∧
      callsSince m.toBroker (m.step defaultEnv (.retryQos1 [0x63] 1)).toBroker = [] := by
  intro n m
  have hn : (brokerSystem defaultEnv).Reachable n := by
    refine .of_allowed ⟨(), rfl⟩ ⟨⟨rfl, rfl, trivial⟩, ⟨rfl, rfl, rfl, ?_, ?_⟩, ⟨?_, ?_⟩, ⟨?_, ?_⟩,
      ⟨?_, ?_⟩, ⟨?_, ?_⟩, ⟨?_, ?_⟩, ⟨?_, ?_⟩, ⟨?_, ?_, trivial⟩, ⟨?_, ?_, ?_, ?_, ?_⟩, ⟨?_, ?_⟩,
      ⟨?_, ?_⟩, trivial⟩ <;> decide +kernel
  have hm : (brokerSystem defaultEnv).Reachable m := by
    refine .of_allowed ⟨(), rfl⟩ ⟨⟨rfl, rfl, trivial⟩, ⟨rfl, rfl, rfl, ?_, ?_⟩, ⟨?_, ?_⟩, ⟨?_, ?_⟩,
      ⟨?_, ?_⟩, ⟨?_, ?_⟩, ⟨?_, ?_⟩, ⟨?_, ?_, trivial⟩, ⟨?_, ?_, ?_, ?_, ?_⟩, ⟨?_, ?_⟩,
      ⟨?_, ?_⟩, trivial⟩ <;> decide +kernel
  refine ⟨⟨hn, ⟨?_, ?_, trivial⟩, ?_, ?_, ?_, ?_, ?_⟩, hm, ⟨?_, ?_, trivial⟩, ?_, ?_, ?_, ?_,
    ?_⟩ <;> decide +kernel

end JellyBroker
