import JellyBroker.Broker.Connect
import JellyBroker.Broker.Invariant
/-!
# Sessions that are not connected

Every handler but that of CONNECT begins with a check of `connected_`, so the
packets of a session that is not connected change nothing, unless one of them
is a CONNECT that comes to the authentication.  `on_read` goes on with the
packets of the same read after a handler has closed the session, and
`handle_connect` does not ask whether the session has been connected before.
-/

namespace JellyBroker

open JellyBroker.Lib JellyBroker.Packet

variable {α : Type}

/-- The topic tree, the stored subscriptions, the server state and the delivery
engine are as before. -/
structure Untouched (b b' : Broker α) : Prop where
  tree : b'.tree = b.tree
  subManager : b'.subManager = b.subManager
  server : b'.server = b.server
  delivery : b'.delivery = b.delivery

/-! ## One packet -/

section Packet

variable {b : Broker α} {sid : SessionId}

theorem handleDisconnect_of_unconnected (h : (b.sessions sid).connected = false) :
    Session.handleDisconnect sid b = b := by
  have hsession : { b.sessions sid with connected := false } = b.sessions sid := by
    rw [← h]
  have hsame : b.modifySession sid (fun s => { s with connected := false }) = b := by
    simp [Broker.modifySession, hsession]
  unfold Session.handleDisconnect
  rw [hsame]
  exact Session.close_of_idle h

theorem handleAck_of_unconnected (h : (b.sessions sid).connected = false)
    (parse : Utils.Reader UInt16) (act : UInt16 → Broker α → Broker α) (body : Bytes) :
    Session.handleAck parse act sid body b = b := by
  simp [Session.handleAck, h]

theorem dispatch_of_unconnected (env : Env α) (h : (b.sessions sid).connected = false)
    (hdr : FixedHeader) (body : Bytes) :
    hdr.type = some .connect ∨ Session.dispatch env sid hdr body b = (b, none) := by
  unfold Session.dispatch
  split
  · rename_i htype
    exact Or.inl htype
  · right
    simp [Session.handlePublish, h]
  · right
    rw [Session.handlePuback, handleAck_of_unconnected h]
  · right
    rw [Session.handlePubrec, handleAck_of_unconnected h]
  · right
    rw [Session.handlePubrel, handleAck_of_unconnected h]
  · right
    rw [Session.handlePubcomp, handleAck_of_unconnected h]
  · right
    simp [Session.handleSubscribe, h]
  · right
    simp [Session.handleUnsubscribe, h]
  · right
    simp [Session.handlePingreq, h]
  · right
    rw [handleDisconnect_of_unconnected h]
  · exact Or.inr rfl

theorem handlePacket_of_unconnected (env : Env α) (h : (b.sessions sid).connected = false)
    (packet : Bytes) :
    (∃ hdr body, Session.decodeHeader packet = .ok (hdr, body) ∧ hdr.type = some .connect ∧
      Session.handlePacket env sid packet b = Session.handleConnect env sid body b) ∨
    ∃ exception, Session.handlePacket env sid packet b = (b, exception) := by
  unfold Session.handlePacket
  split_ifs
  · exact Or.inr ⟨none, rfl⟩
  · cases hdecode : Session.decodeHeader packet with
    | error e => exact Or.inr ⟨some e, rfl⟩
    | ok decoded =>
        obtain ⟨hdr, body⟩ := decoded
        rcases dispatch_of_unconnected env h hdr body with htype | hdispatch
        · left
          refine ⟨hdr, body, rfl, htype, ?_⟩
          dsimp only
          rw [Session.dispatch, htype]
        · exact Or.inr ⟨none, hdispatch⟩

theorem catchException_of_unconnected (h : (b.sessions sid).connected = false)
    (exception : Option Exception) :
    ∃ reading, Session.catchException sid (b, exception) = b.setReading reading := by
  cases exception with
  | none => exact ⟨b.reading, rfl⟩
  | some e =>
      refine ⟨none, ?_⟩
      rw [Session.catchException, Session.close_of_idle h]

theorem endRead_of_unconnected (h : (b.sessions sid).connected = false) (parseError : Bool) :
    Session.endRead sid parseError b = b.setReading none := by
  have hrearm : b.modifySession sid Session.rearm = b := by
    simp [Broker.modifySession, Session.rearm, h]
  unfold Session.endRead
  split_ifs
  · rw [Session.close_of_idle h]
  · rw [hrearm]

end Packet

/-! ## Turns and runs -/

/-- The step does not handle a CONNECT of the session, while it is not connected,
that comes to the authentication. -/
def NoReconnect (env : Env α) (sid : SessionId) (n : Runtime α) (e : Event) : Prop :=
  e = .turn sid → ∀ body, NextConnect env n sid body →
    ∀ conn, ¬AdmittedConnect n.toBroker sid body conn

/-- The step does not handle a CONNECT of the session that is accepted. -/
def AcceptsNone (env : Env α) (sid : SessionId) (n : Runtime α) (e : Event) : Prop :=
  e = .turn sid → ∀ conn, ¬Connects env n sid conn

theorem NoReconnect.acceptsNone {env : Env α} {sid : SessionId} {n : Runtime α} {e : Event}
    (h : NoReconnect env sid n e) : AcceptsNone env sid n e := by
  rintro he conn ⟨body, hnext, hconn⟩
  exact h he body hnext conn hconn.toAdmittedConnect

/-- A turn of the session handles a CONNECT, or it changes nothing but the
reading session and what was noted. -/
theorem onReadTurn_cases_of_unconnected (env : Env α) {n : Runtime α} {sid : SessionId}
    (h : (n.sessions sid).connected = false) :
    (∃ body, NextConnect env n sid body) ∨ ∃ note reading,
      (Session.onReadTurn env sid n).toBroker = (n.toBroker.observe note).setReading reading := by
  rcases hextract : (n.parsers sid).tryExtract env.cfg with ⟨_ | packet, parser⟩
  · right
    refine ⟨id, none, ?_⟩
    unfold Session.onReadTurn
    rw [hextract]
    exact endRead_of_unconnected h parser.hasError
  · have hidle : ((n.toBroker.observe (.noteHandled sid packet)).sessions sid).connected =
        false := h
    rcases handlePacket_of_unconnected env hidle packet with
      ⟨hdr, body, hdecode, htype, _⟩ | ⟨exception, hpacket⟩
    · exact Or.inl ⟨body, hdr, ⟨packet, parser, hextract, hdecode⟩, htype⟩
    · right
      obtain ⟨reading, hcatch⟩ := catchException_of_unconnected hidle exception
      refine ⟨.noteHandled sid packet, reading, ?_⟩
      rw [← hcatch, ← hpacket]
      unfold Session.onReadTurn
      rw [hextract]
      rfl

theorem onReadTurn_of_unconnected {env : Env α} {n : Runtime α} {sid : SessionId}
    (h : (n.sessions sid).connected = false) (hno : NoReconnect env sid n (.turn sid)) :
    Untouched n.toBroker (Session.onReadTurn env sid n).toBroker := by
  rcases onReadTurn_cases_of_unconnected env h with
    ⟨body, hconnect⟩ | ⟨note, reading, hturn⟩
  · obtain ⟨packet, hturn⟩ := onReadTurn_of_connect hconnect
    have hidle : ((n.toBroker.observe (.noteHandled sid packet)).sessions sid).connected =
        false := h
    have hhandle : ∃ note, Session.handleConnect env sid body
        (n.toBroker.observe (.noteHandled sid packet)) =
          ((n.toBroker.observe (.noteHandled sid packet)).observe note, none) := by
      apply handleConnect_of_not_admitted hidle
      intro conn hadmitted
      exact hno rfl body hconnect conn (admittedConnect_observe.mp hadmitted)
    obtain ⟨note, hhandle⟩ := hhandle
    rw [hturn, hhandle]
    exact ⟨rfl, rfl, rfl, rfl⟩
  · rw [hturn]
    exact ⟨rfl, rfl, rfl, rfl⟩

/-- A turn of a session that is not connected and accepts no CONNECT stays in
every frame. -/
theorem LoopClosed.unconnectedTurn {env : Env α} {n : Runtime α} {sid : SessionId}
    {who : SessionId → Prop} {R : Broker α → Broker α → Prop} (hL : LoopClosed env sid who R)
    (hA : AuthFree R) (hreading : n.reading = some sid) (h : (n.sessions sid).connected = false)
    (hno : ∀ conn, ¬Connects env n sid conn) :
    R n.toBroker (Session.onReadTurn env sid n).toBroker := by
  refine hL.onReadTurn hreading ?_
  intro packet parser hextract
  apply hL.handlePacket
  intro hdr body hdecode
  have hidle : ((n.toBroker.observe (.noteHandled sid packet)).sessions sid).connected = false := h
  constructor
  case connect =>
    intro htype
    refine hL.handleConnect hA ?_
    intro conn auth failures bans hconn
    exact absurd ⟨body, ⟨hdr, ⟨packet, parser, hextract, hdecode⟩, htype⟩,
      acceptableConnect_observe.mp hconn⟩ (hno conn)
  case disconnect =>
    intro _
    rw [handleDisconnect_of_unconnected hidle]
    exact hL.refl _
  case publish =>
    intro pub rest auth hconn
    rw [hidle] at hconn
    cases hconn
  -- The other handlers return at once.
  all_goals
    intro _ _ hconn
    rw [hidle] at hconn
    cases hconn

def StaysUnconnected (sid : SessionId) (b b' : Broker α) : Prop :=
  (b.sessions sid).connected = false → (b'.sessions sid).connected = false

theorem staysUnconnected_modifySession {sid : SessionId} (b : Broker α) (other : SessionId)
    (change : Session → Session)
    (h : other = sid → ∀ s, s.connected = false → (change s).connected = false) :
    StaysUnconnected sid b (b.modifySession other change) := by
  intro hidle
  by_cases heq : sid = other
  · subst heq
    rw [Broker.sessions_modifySession_self]
    exact h rfl _ hidle
  · rw [Broker.sessions_modifySession_of_ne heq]
    exact hidle

theorem staysUnconnected_frame (sid : SessionId) : Frame (StaysUnconnected (α := α) sid) where
  refl _ := id
  trans h h' := fun hidle => h' (h hidle)
  misc _ _ _ _ _ _ _ := id
  noteHanded _ _ := id
  plumbing b other _ hplumbing :=
    staysUnconnected_modifySession b other _ fun _ s hs => (hplumbing.connected s).trans hs
  close b other hconn := by
    obtain ⟨tree, subManager, hclose⟩ := Session.close_of_connected hconn
    rw [hclose]
    exact staysUnconnected_modifySession b other
      (fun s => { s with connected := false, socketOpen := false }) fun _ _ _ => rfl
  disconnect b other := staysUnconnected_modifySession b other _ fun _ _ _ => rfl

theorem staysUnconnected_tables (sid : SessionId) :
    TablesFree (StaysUnconnected (α := α) sid) where
  pending _ _ := id
  outgoing _ _ := id
  noteSent _ _ := id
  noteSettled _ _ := id

theorem staysUnconnected_io (env : Env α) (sid : SessionId) :
    IoClosed env (StaysUnconnected (α := α) sid) where
  core := (staysUnconnected_frame sid).toCoreFrame
  retryQos1 b clientId packetId := by
    have hdelivery := (staysUnconnected_frame (α := α) sid).delivery env
    exact hdelivery.qos1RetryMessage (staysUnconnected_tables sid).toPendingFree clientId packetId b
  retryQos2 b clientId packetId := by
    have hdelivery := (staysUnconnected_frame (α := α) sid).delivery env
    exact hdelivery.qos2RetryMessage (staysUnconnected_tables sid).toOutgoingFree clientId
      packetId b
  beginRead b other _ :=
    staysUnconnected_modifySession b other (fun s => { s with readPending := false })
      fun _ _ hs => hs
  dropRead b other := staysUnconnected_modifySession b other _ fun _ _ hs => hs
  clock _ _ := id
  accept b ip := by
    unfold Server.onAccept
    dsimp only
    split_ifs
    · exact id
    · exact id
    · exact staysUnconnected_modifySession b b.sessionCount
        (fun _ => { remoteIp := ip, readPending := true }) fun _ _ _ => rfl
  destroy b other _ _ := staysUnconnected_modifySession b other _ fun _ _ _ => rfl

theorem staysUnconnected_turn (env : Env α) {sid other : SessionId} (hne : other ≠ sid) :
    TurnClosed env other (StaysUnconnected (α := α) sid) where
  toSessionFrame := (staysUnconnected_frame sid).session env other
  frame := staysUnconnected_frame sid
  tables := staysUnconnected_tables sid
  ingest :=
    { incoming := fun _ _ => id
      noteIngest := fun _ _ _ _ => id }
  register b conn _ _ _ :=
    staysUnconnected_modifySession b other (Session.adopt env.cfg conn)
      fun heq => absurd heq hne
  block b old :=
    staysUnconnected_modifySession b old (fun s => { s with connected := false })
      fun _ _ _ => rfl
  noteHandled _ _ := id
  rearm b _ := staysUnconnected_modifySession b other _ fun heq => absurd heq hne
  stopReading _ := id

theorem staysUnconnected_loop (env : Env α) (sid : SessionId) :
    LoopClosed env sid (fun _ => True) (StaysUnconnected (α := α) sid) where
  toSessionFrame := (staysUnconnected_frame sid).session env sid
  noteHandled _ _ := id
  rearm b _ := by
    refine staysUnconnected_modifySession b sid _ fun _ s hs => ?_
    rw [Session.rearm, hs]
    exact hs
  stopReading _ := id

theorem step_staysUnconnected {env : Env α} {n : Runtime α} {sid : SessionId} {e : Event}
    (h : (n.sessions sid).connected = false) (henabled : n.toBroker.Enabled e)
    (hno : AcceptsNone env sid n e) : ((n.step env e).sessions sid).connected = false := by
  by_cases hturn : ∃ other, e = .turn other
  · obtain ⟨other, rfl⟩ := hturn
    by_cases heq : other = sid
    · subst heq
      exact (staysUnconnected_loop env other).unconnectedTurn
        (staysUnconnected_frame other).authFree henabled.2 h (hno rfl) h
    · exact (staysUnconnected_turn env heq).onReadTurn henabled.2 henabled.1 h
  · exact (staysUnconnected_io env sid).step (fun other heq => hturn ⟨other, heq⟩) henabled h

/-- A session that is not connected stays so along every run that brings it no
CONNECT which comes to the authentication, and its packets change nothing. -/
theorem closed_session_stays_closed (env : Env α) (n : Runtime α) (sid : SessionId)
    (hclosed : (n.sessions sid).connected = false) (events : List Event) (n' : Runtime α)
    (hrun : ((brokerSystem env).restrict (NoReconnect env sid)).Run n events n') :
    (n'.sessions sid).connected = false ∧
      (NoReconnect env sid n' (.turn sid) →
        Untouched n'.toBroker (n'.step env (.turn sid)).toBroker) := by
  have hstays : (n'.sessions sid).connected = false := by
    refine hrun.preserves (P := fun t => (t.sessions sid).connected = false) ?_ hclosed
    intro t e ht henabled
    exact step_staysUnconnected ht henabled.1 henabled.2.acceptsNone
  refine ⟨hstays, ?_⟩
  intro hno
  exact onReadTurn_of_unconnected hstays hno

/-- A client sends CONNECT and DISCONNECT and more bytes in one read; both are
handled. -/
def disconnectEvents (more : Bytes) : List Event :=
  [.accept [0x69], .read 0 (connectBytes true [0x63] ++ disconnectBytes ++ more), .turn 0, .turn 0]

/-- After DISCONNECT a PINGREQ changes nothing. -/
theorem closed_session_ignores_pingreq :
    let n := (brokerSystem defaultEnv).after { auth := () } (disconnectEvents pingreqBytes)
    (n.sessions 0).connected = false ∧
      ((n.step defaultEnv (.turn 0)).sessions 0).connected = false := by
  intro n
  have hclosed : (n.sessions 0).connected = false := by decide +kernel
  have hextract : (n.parsers 0).tryExtract {} = (some pingreqBytes, {}) := by decide +kernel
  have hno : NoReconnect defaultEnv 0 n (.turn 0) := by
    rintro _ body ⟨hdr, ⟨packet, parser, hextract', hdecode⟩, htype⟩ conn _
    have hpacket : pingreqBytes = packet :=
      Option.some.inj (Prod.mk.inj (hextract.symm.trans hextract')).1
    rw [← hpacket] at hdecode
    cases hdecode
    cases htype
  have henabled : n.toBroker.Enabled (.turn 0) := by
    constructor <;> decide +kernel
  have hrun : ((brokerSystem defaultEnv).restrict (NoReconnect defaultEnv 0)).Run n [.turn 0]
      (n.step defaultEnv (.turn 0)) := .snoc .nil ⟨henabled, hno⟩
  exact ⟨hclosed, (closed_session_stays_closed defaultEnv n 0 hclosed [.turn 0] _ hrun).1⟩

/-- A CONNECT after DISCONNECT in the same read connects the session again. -/
theorem connect_after_disconnect_reconnects :
    let events := disconnectEvents (connectBytes true [0x63])
    (brokerSystem defaultEnv).Reachable
      ((brokerSystem defaultEnv).after { auth := () } (events ++ [.turn 0])) ∧
    (((brokerSystem defaultEnv).after { auth := () } (events.take 3)).sessions 0).connected =
      true ∧
    (((brokerSystem defaultEnv).after { auth := () } events).sessions 0).connected = false ∧
    (((brokerSystem defaultEnv).after { auth := () } (events ++ [.turn 0])).sessions 0).connected =
      true := by
  refine ⟨?_, by decide +kernel, by decide +kernel, by decide +kernel⟩
  refine .of_allowed ⟨(), rfl⟩ ⟨⟨rfl, rfl, trivial⟩, ⟨rfl, rfl, rfl, ?_, ?_⟩, ⟨?_, ?_⟩, ⟨?_, ?_⟩,
    ⟨?_, ?_⟩, trivial⟩ <;> decide +kernel

/-! ## Before the first CONNECT -/

/-- A CONNECT that is not accepted changes the authenticator and its tables at
most. -/
theorem handleConnect_of_not_acceptable {env : Env α} {b : Broker α} {sid : SessionId}
    {body : Bytes} (hidle : (b.sessions sid).connected = false)
    (h : ∀ conn, ¬AcceptableConnect env b sid body conn) :
    ∃ failures bans auth note exception, Session.handleConnect env sid body b =
      (((b.setAuthTables failures bans).setAuth auth).observe note, exception) := by
  by_cases hadmitted : ∃ conn, AdmittedConnect b sid body conn
  · obtain ⟨conn, hconn⟩ := hadmitted
    by_cases hcredentials : conn.username ≠ [] ∨ conn.password ≠ []
    · rcases hresult : env.auth.authenticate b.auth conn.clientId conn.username conn.password with
        ⟨text | result, auth⟩
      · obtain ⟨failures, bans, hlimit⟩ := checkAuthRateLimit_of_unbanned hconn.unbanned
        have hresult' : env.auth.authenticate (b.setAuthTables failures bans).auth conn.clientId
            conn.username conn.password = (.error text, auth) := hresult
        refine ⟨failures, bans, auth, id, some (.authenticator text), ?_⟩
        rw [hconn.handleConnect_eq, hlimit]
        unfold Session.authenticateConnect
        rw [if_pos hcredentials, hresult']
        rfl
      · by_cases hsuccess : result.success = true
        · exact absurd ⟨hconn, Or.inr ⟨result, auth, hresult, hsuccess⟩⟩ (h conn)
        · have hrejected : RejectedConnect env b sid body conn result.reason :=
            ⟨hconn, hcredentials, result, auth, hresult, by simpa using hsuccess, rfl⟩
          obtain ⟨failures, bans, auth', hrefuses⟩ := hrejected.handleConnect_refuses
          refine ⟨failures, bans, auth',
            .noteHanded ⟨sid, .connack false result.reason, false⟩, none, ?_⟩
          rw [hrefuses, refuse_of_unconnected (by exact hidle)]
    · simp only [ne_eq, not_or, not_not] at hcredentials
      exact absurd ⟨hconn, Or.inl hcredentials⟩ (h conn)
  · have hhandle : ∃ note, Session.handleConnect env sid body b = (b.observe note, none) := by
      apply handleConnect_of_not_admitted hidle
      intro conn hconn
      exact hadmitted ⟨conn, hconn⟩
    obtain ⟨note, hhandle⟩ := hhandle
    exact ⟨b.server.authFailures, b.server.authBanUntil, b.auth, note, none, hhandle⟩

/-- Nothing has changed but the state of the authentication and the session
itself, which is not connected. -/
structure OnlyAuthentication (sid : SessionId) (b b' : Broker α) : Prop where
  connected : (b'.sessions sid).connected = false
  others : ∀ other ≠ sid, b'.sessions other = b.sessions other
  tree : b'.tree = b.tree
  subManager : b'.subManager = b.subManager
  delivery : b'.delivery = b.delivery
  activeClients : b'.server.activeClients = b.server.activeClients
  connectionsPerIp : b'.server.connectionsPerIp = b.server.connectionsPerIp
  counters : b'.counters = b.counters

theorem OnlyAuthentication.trans {sid : SessionId} {b b' b'' : Broker α}
    (h : OnlyAuthentication sid b b') (h' : OnlyAuthentication sid b' b'') :
    OnlyAuthentication sid b b'' where
  connected := h'.connected
  others other hne := (h'.others other hne).trans (h.others other hne)
  tree := h'.tree.trans h.tree
  subManager := h'.subManager.trans h.subManager
  delivery := h'.delivery.trans h.delivery
  activeClients := h'.activeClients.trans h.activeClients
  connectionsPerIp := h'.connectionsPerIp.trans h.connectionsPerIp
  counters := h'.counters.trans h.counters

theorem OnlyAuthentication.of_sessions {sid : SessionId} {b b' : Broker α}
    (hidle : (b.sessions sid).connected = false) (hsessions : b'.sessions = b.sessions)
    (htree : b'.tree = b.tree) (hmanager : b'.subManager = b.subManager)
    (hdelivery : b'.delivery = b.delivery)
    (hclients : b'.server.activeClients = b.server.activeClients)
    (hips : b'.server.connectionsPerIp = b.server.connectionsPerIp)
    (hcounters : b'.counters = b.counters) : OnlyAuthentication sid b b' where
  connected := by rw [hsessions, hidle]
  others _ _ := by rw [hsessions]
  tree := htree
  subManager := hmanager
  delivery := hdelivery
  activeClients := hclients
  connectionsPerIp := hips
  counters := hcounters

theorem onlyAuthentication_refused {sid : SessionId} {b : Broker α}
    (hidle : (b.sessions sid).connected = false) (handled : History → History)
    (failures bans : Map Bytes Int) (auth : α) (note : History → History)
    (reading : Option SessionId) :
    OnlyAuthentication sid b
      (((((b.observe handled).setAuthTables failures bans).setAuth auth).observe note).setReading
        reading) := by
  have hfields : OnlyAuthentication sid b
      { b with
        server.authFailures := failures
        server.authBanUntil := bans
        auth, reading
        history := note (handled b.history) } := .of_sessions hidle rfl rfl rfl rfl rfl rfl rfl
  exact hfields

theorem onlyAuthentication_modifySession {sid : SessionId} {b : Broker α}
    {change : Session → Session} (hidle : (change (b.sessions sid)).connected = false) :
    OnlyAuthentication sid b (b.modifySession sid change) where
  connected := by
    rw [Broker.sessions_modifySession_self]
    exact hidle
  others _ hne := Broker.sessions_modifySession_of_ne hne _ _
  tree := rfl
  subManager := rfl
  delivery := rfl
  activeClients := rfl
  connectionsPerIp := rfl
  counters := rfl

def Event.Concerns (sid : SessionId) : Event → Prop
  | .read other _ | .turn other | .readError other | .writeDone other | .writeError other
  | .keepaliveTimeout other | .destroy other => other = sid
  | _ => False

theorem turn_onlyAuthentication {env : Env α} {n : Runtime α} {sid : SessionId}
    (h : (n.sessions sid).connected = false) (hno : ∀ conn, ¬Connects env n sid conn) :
    OnlyAuthentication sid n.toBroker (n.step env (.turn sid)).toBroker := by
  change OnlyAuthentication sid n.toBroker (Session.onReadTurn env sid n).toBroker
  rcases onReadTurn_cases_of_unconnected env h with ⟨body, hconnect⟩ | ⟨note, reading, hturn⟩
  · obtain ⟨packet, hturn⟩ := onReadTurn_of_connect hconnect
    have hidle : ((n.toBroker.observe (.noteHandled sid packet)).sessions sid).connected =
        false := h
    obtain ⟨failures, bans, auth, note, exception, hhandle⟩ :=
      handleConnect_of_not_acceptable hidle fun conn hconn =>
        hno conn ⟨body, hconnect, acceptableConnect_observe.mp hconn⟩
    rw [hturn, hhandle]
    have hcatch := catchException_of_unconnected
      (b := ((((n.toBroker.observe (.noteHandled sid packet)).setAuthTables failures bans).setAuth
        auth).observe note)) hidle exception
    obtain ⟨reading, hcatch⟩ := hcatch
    rw [hcatch]
    exact onlyAuthentication_refused h _ failures bans auth note reading
  · rw [hturn]
    exact .of_sessions h rfl rfl rfl rfl rfl rfl rfl

theorem step_onlyAuthentication {env : Env α} {n : Runtime α} {sid : SessionId} {e : Event}
    (h : (n.sessions sid).connected = false) (he : e.Concerns sid) (hno : AcceptsNone env sid n e) :
    OnlyAuthentication sid n.toBroker (n.step env e).toBroker := by
  -- Closing a session that is not connected does nothing.
  have hclosed (change : Session → Session)
      (hidle : (change (n.sessions sid)).connected = false) :
      OnlyAuthentication sid n.toBroker
        (Session.close false sid (n.toBroker.modifySession sid change)) := by
    have hmodified : OnlyAuthentication sid n.toBroker (n.toBroker.modifySession sid change) :=
      onlyAuthentication_modifySession hidle
    rw [Session.close_of_idle hmodified.connected]
    exact hmodified
  cases e with
  | read other chunk =>
      rw [show other = sid from he]
      have hmodified : OnlyAuthentication sid n.toBroker
          (n.toBroker.modifySession sid fun s => { s with readPending := false }) :=
        onlyAuthentication_modifySession h
      exact hmodified.trans (.of_sessions hmodified.connected rfl rfl rfl rfl rfl rfl rfl)
  | turn other =>
      rw [show other = sid from he] at hno ⊢
      exact turn_onlyAuthentication h (hno rfl)
  | readError other =>
      rw [show other = sid from he]
      exact hclosed _ h
  | writeDone other =>
      rw [show other = sid from he]
      apply onlyAuthentication_modifySession
      rw [plumbing_onWrite.connected]
      exact h
  | writeError other =>
      rw [show other = sid from he]
      exact hclosed _ h
  | keepaliveTimeout other =>
      rw [show other = sid from he]
      exact hclosed _ h
  | destroy other =>
      rw [show other = sid from he]
      exact onlyAuthentication_modifySession rfl
  | _ => exact absurd he not_false

/-- A session on which no CONNECT has been accepted, whatever the other sessions
have done: as long as none is accepted, its bytes change nothing but the state of
the authentication. -/
theorem nothing_before_authentication (env : Env α) (sid : SessionId) (n : Runtime α)
    (hn : ((brokerSystem env).restrict (AcceptsNone env sid)).Reachable n) (events : List Event)
    (n' : Runtime α)
    (hrun : ((brokerSystem env).restrict fun t e => e.Concerns sid ∧ AcceptsNone env sid t e).Run
      n events n') :
    OnlyAuthentication sid n.toBroker n'.toBroker := by
  have hidle : (n.sessions sid).connected = false := by
    refine hn.invariant (P := fun t => (t.sessions sid).connected = false) ?_ ?_
    · rintro _ ⟨auth, rfl⟩
      rfl
    · intro t e ht henabled
      exact step_staysUnconnected ht henabled.1 henabled.2
  refine hrun.preserves (P := fun t => OnlyAuthentication sid n.toBroker t.toBroker) ?_ ?_
  · rintro t e ht ⟨_, he, hno⟩
    exact ht.trans (step_onlyAuthentication ht.connected he hno)
  · exact .of_sessions hidle rfl rfl rfl rfl rfl rfl rfl

def strayEvents : List Event :=
  [.read 0 (subscribeBytes 1 [0x74] 1 ++ connectBytes false []), .turn 0, .turn 0, .turn 0]

theorem subscribe_before_authentication :
    let n := (brokerSystem defaultEnv).after { auth := () } [.accept [0x69]]
    OnlyAuthentication 0 n.toBroker ((brokerSystem defaultEnv).after n strayEvents).toBroker := by
  intro n
  have hn : ((brokerSystem defaultEnv).restrict (AcceptsNone defaultEnv 0)).Reachable n := by
    refine .of_allowed ⟨(), rfl⟩ ⟨⟨⟨rfl, rfl, trivial⟩, ?_⟩, trivial⟩
    exact nofun
  have hsubscribe : AcceptsNone defaultEnv 0
      ((brokerSystem defaultEnv).after n (strayEvents.take 1)) (.turn 0) := by
    rintro _ conn ⟨body, ⟨hdr, hnext, htype⟩, _⟩
    have hpacket := hnext.unique
      (.of_extract (subscribeBytes 1 [0x74] 1) (by decide +kernel) rfl)
    rw [hpacket.1] at htype
    cases htype
  have hrefused : AcceptsNone defaultEnv 0
      ((brokerSystem defaultEnv).after n (strayEvents.take 2)) (.turn 0) := by
    rintro _ conn ⟨body, ⟨hdr, hnext, _⟩, hconn⟩
    have hpacket := hnext.unique
      (.of_extract (connectBytes false []) (by decide +kernel) rfl)
    obtain ⟨rest, hparse⟩ := hconn.parses
    rw [hpacket.2] at hparse
    have hparse' : ConnectPacket.parse ((connectBytes false []).drop 2) = .ok
        ({ protocolName := mqttProtocolName, protocolLevel := mqttProtocolLevel, keepalive := 60 },
          []) := by
      decide +kernel
    have hsame := hparse'.symm.trans hparse
    have hidentified := hconn.identified
    rw [← (Prod.mk.inj (Except.ok.inj hsame)).1] at hidentified
    simp at hidentified
  have hend : AcceptsNone defaultEnv 0
      ((brokerSystem defaultEnv).after n (strayEvents.take 3)) (.turn 0) := by
    rintro _ conn ⟨body, ⟨hdr, ⟨packet, parser, hextract, _⟩, _⟩, _⟩
    have hnone : (((brokerSystem defaultEnv).after n (strayEvents.take 3)).parsers 0).tryExtract
        defaultEnv.cfg = (none, {}) := by
      decide +kernel
    rw [hnone] at hextract
    cases hextract
  refine nothing_before_authentication defaultEnv 0 n hn strayEvents _ (.of_allowed ?_)
  refine ⟨⟨⟨rfl, rfl, rfl, ?_, ?_⟩, rfl, nofun⟩, ⟨⟨?_, ?_⟩, rfl, hsubscribe⟩,
    ⟨⟨?_, ?_⟩, rfl, hrefused⟩, ⟨⟨?_, ?_⟩, rfl, hend⟩, trivial⟩ <;> decide +kernel

end JellyBroker
