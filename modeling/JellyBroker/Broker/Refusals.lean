import JellyBroker.Broker.BruteForce
import JellyBroker.Broker.Link
/-!
# Refused connections

`handle_connect` refuses a CONNECT by passing a CONNACK with the reason to
`deliver` and by calling `close`.  Both return at once on a session that is not
connected, which a session that is refused never is: nothing is written to the
client, and its socket stays open until the session object is destroyed.
-/

namespace JellyBroker

open JellyBroker.Lib JellyBroker.Packet

variable {α : Type}

/-- A session as `start` makes it, once its first read is complete. -/
def Session.Fresh (session : Session) : Prop := ∃ ip, session = { remoteIp := ip }

/-- `handle_connect` refuses the CONNECT with the return code. -/
inductive RefusedConnect (env : Env α) (b : Broker α) (sid : SessionId) (body : Bytes)
    (conn : ConnectPacket) (code : ConnackCode) : Prop where
  | check {rest : Bytes} (parses : ConnectPacket.parse body = .ok (conn, rest))
      (away : TurnedAway b sid conn code)
  | credentials (rejected : RejectedConnect env b sid body conn code)

/-- The client of the session is told why: all that is queued for it is one
CONNACK with the return code, and its socket is closed. -/
structure ToldWhy (sid : SessionId) (code : ConnackCode) (b b' : Broker α) : Prop where
  refused : code ≠ .accepted
  answer : queued sid b b' = [.connack false code]
  closed : (b'.sessions sid).socketOpen = false

theorem ToldWhy.queued_ne_nil {sid : SessionId} {code : ConnackCode} {b b' : Broker α}
    (h : ToldWhy sid code b b') : queued sid b b' ≠ [] := by
  rw [h.answer]
  exact List.cons_ne_nil _ _

/-! ## The handler -/

section Handler

variable {env : Env α} {b : Broker α} {sid : SessionId} {body : Bytes} {conn : ConnectPacket}
  {code : ConnackCode}

theorem RefusedConnect.observe (h : RefusedConnect env b sid body conn code)
    (note : History → History) : RefusedConnect env (b.observe note) sid body conn code := by
  cases h with
  | check parses away =>
      refine .check parses ?_
      cases away with
      | protocol wrong => exact .protocol wrong
      | identifier protocol anonymous persistent =>
          exact .identifier protocol anonymous persistent
      | banned protocol identified ban running => exact .banned protocol identified ban running
  | credentials rejected =>
      have hadmitted : AdmittedConnect (b.observe note) sid body conn :=
        admittedConnect_observe.mpr rejected.toAdmittedConnect
      exact .credentials ⟨hadmitted, rejected.credentials, rejected.rejected⟩

theorem RefusedConnect.handleConnect_refuses (h : RefusedConnect env b sid body conn code)
    (hidle : (b.sessions sid).connected = false) :
    ∃ failures bans auth, Session.handleConnect env sid body b =
      (Session.refuse env sid code ((b.setAuthTables failures bans).setAuth auth), none) := by
  cases h with
  | check parses away =>
      refine ⟨b.server.authFailures, b.server.authBanUntil, b.auth, ?_⟩
      exact away.handleConnect_eq hidle parses
  | credentials rejected => exact rejected.handleConnect_refuses

/-- The CONNACK is handed to the session, which does not queue it, and the session
stays as it is. -/
theorem turn_of_refused {n : Runtime α} (hidle : (n.sessions sid).connected = false)
    (hnext : NextConnect env n sid body)
    (hrefused : RefusedConnect env n.toBroker sid body conn code) :
    (n.step env (.turn sid)).history.handed =
        n.history.handed ++ [⟨sid, .connack false code, false⟩] ∧
      (n.step env (.turn sid)).sessions = n.sessions := by
  obtain ⟨packet, hturn⟩ := onReadTurn_of_connect hnext
  have hidle' : ((n.toBroker.observe (.noteHandled sid packet)).sessions sid).connected = false :=
    hidle
  obtain ⟨failures, bans, auth, hhandle⟩ :=
    (hrefused.observe (.noteHandled sid packet)).handleConnect_refuses hidle'
  change (Session.onReadTurn env sid n).history.handed = _ ∧
    (Session.onReadTurn env sid n).sessions = n.sessions
  rw [hturn, hhandle, refuse_of_unconnected (by exact hidle)]
  exact ⟨rfl, rfl⟩

end Handler

/-- A client whose CONNECT is refused is never told: nothing is queued for it, and
its session, socket included, is as it was before. -/
theorem refused_connect_not_told (env : Env α) (n : Runtime α) (sid : SessionId) (body : Bytes)
    (conn : ConnectPacket) (code : ConnackCode) (hfresh : (n.sessions sid).Fresh)
    (hnext : NextConnect env n sid body)
    (hrefused : RefusedConnect env n.toBroker sid body conn code) :
    queued sid n.toBroker (n.step env (.turn sid)).toBroker = [] ∧
      (n.step env (.turn sid)).sessions sid = n.sessions sid ∧
      ¬ToldWhy sid code n.toBroker (n.step env (.turn sid)).toBroker := by
  obtain ⟨ip, hsession⟩ := hfresh
  have hidle : (n.sessions sid).connected = false := by rw [hsession]
  obtain ⟨hhanded, hsessions⟩ := turn_of_refused hidle hnext hrefused
  have hqueued : queued sid n.toBroker (n.step env (.turn sid)).toBroker = [] := by
    unfold queued
    rw [hhanded, List.drop_left]
    simp
  exact ⟨hqueued, by rw [hsessions], fun htold => htold.queued_ne_nil hqueued⟩

/-- A CONNECT without a client id that asks for a persistent session. -/
theorem refused_connect_not_told_anonymous :
    let n := (brokerSystem defaultEnv).after { auth := () }
      [.accept [], .read 0 (connectBytes false [])]
    (n.sessions 0).Fresh ∧
      ¬ToldWhy 0 .refusedIdRejected n.toBroker (n.step defaultEnv (.turn 0)).toBroker := by
  intro n
  have hfresh : (n.sessions 0).Fresh := ⟨[], rfl⟩
  have hnext : NextConnect defaultEnv n 0 ((connectBytes false []).drop 2) :=
    ⟨_, .of_extract (connectBytes false []) (by decide +kernel) rfl, rfl⟩
  have hparse : ∃ conn rest, ConnectPacket.parse ((connectBytes false []).drop 2) =
      .ok (conn, rest) ∧ conn.protocolName = mqttProtocolName ∧
        conn.protocolLevel = mqttProtocolLevel ∧ conn.clientId = [] ∧ conn.cleanSession = false :=
    ⟨_, _, rfl, by decide⟩
  obtain ⟨conn, rest, hparse, hname, hlevel, hid, hclean⟩ := hparse
  have hrefused : RefusedConnect defaultEnv n.toBroker 0 ((connectBytes false []).drop 2) conn
      .refusedIdRejected := .check hparse (.identifier ⟨hname, hlevel⟩ hid hclean)
  exact ⟨hfresh, (refused_connect_not_told defaultEnv n 0 _ conn _ hfresh hnext hrefused).2.2⟩

/-- A client with a wrong password, from its connection to the end of its session:
no packet is ever queued for it. -/
theorem wrong_password_not_told :
    let n := (brokerSystem strictEnv).after { auth := () }
      [.accept [0x69], .read 0 loginBytes]
    let gone := (brokerSystem strictEnv).after { auth := () }
      [.accept [0x69], .read 0 loginBytes, .turn 0, .turn 0, .destroy 0]
    (brokerSystem strictEnv).Reachable gone ∧ (n.sessions 0).Fresh ∧
      (∃ body conn, NextConnect strictEnv n 0 body ∧
        RefusedConnect strictEnv n.toBroker 0 body conn .refusedNotAuthorized) ∧
      ¬ToldWhy 0 .refusedNotAuthorized n.toBroker (n.step strictEnv (.turn 0)).toBroker ∧
      queued 0 n.toBroker gone.toBroker = [] := by
  intro n gone
  have hqueued : queued 0 n.toBroker (n.step strictEnv (.turn 0)).toBroker = [] := by
    decide +kernel
  refine ⟨?_, ⟨[0x69], rfl⟩, ?_, ?_, by decide +kernel⟩
  · refine .of_allowed ⟨(), rfl⟩ ⟨⟨rfl, rfl, trivial⟩, ⟨rfl, rfl, rfl, ?_, ?_⟩, ⟨?_, ?_⟩,
      ⟨?_, ?_⟩, ⟨?_, ?_, ?_, ?_⟩, trivial⟩
    any_goals decide +kernel
    -- Nothing holds a reference to the session.
    rintro (hread | hwrite | htimer | hreading | ⟨_, _, _, hmessage, _⟩ | ⟨_, _, _, hmessage, _⟩)
    · revert hread
      decide +kernel
    · revert hwrite
      decide +kernel
    · exact htimer rfl
    · revert hreading
      decide +kernel
    · cases hmessage
    · cases hmessage
  · have hparse : ∃ conn rest, ConnectPacket.parse (loginBytes.drop 2) = .ok (conn, rest) ∧
        conn.protocolName = mqttProtocolName ∧ conn.protocolLevel = mqttProtocolLevel ∧
        conn.clientId ≠ [] ∧ conn.username ≠ [] :=
      ⟨_, _, rfl, by decide⟩
    obtain ⟨conn, rest, hparse, hname, hlevel, hid, huser⟩ := hparse
    have hadmitted : AdmittedConnect n.toBroker 0 (loginBytes.drop 2) conn :=
      ⟨rfl, ⟨rest, hparse⟩, ⟨hname, hlevel⟩, Or.inl hid, nofun⟩
    refine ⟨loginBytes.drop 2, conn, ?_, .credentials ⟨hadmitted, Or.inl huser, ?_⟩⟩
    · exact ⟨_, .of_extract loginBytes (by decide +kernel) rfl, rfl⟩
    · exact ⟨{}, (), rfl, rfl, rfl⟩
  · exact fun htold => htold.queued_ne_nil hqueued

end JellyBroker
