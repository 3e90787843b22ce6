import JellyBroker.Broker.System
import Mathlib.Tactic
/-!
# CONNECT on a session that is not connected

Which CONNECT packets get as far as the authentication, and which as far as the
registration of the session.
-/

namespace JellyBroker

open JellyBroker.Packet

variable {α : Type}

/-- A CONNECT on a session that is not connected, which passes the checks of
`handle_connect` before the authentication. -/
structure AdmittedConnect (b : Broker α) (sid : SessionId) (body : Bytes)
    (conn : ConnectPacket) : Prop where
  first : (b.sessions sid).connected = false
  parses : ∃ rest, ConnectPacket.parse body = .ok (conn, rest)
  protocol : conn.protocolName = mqttProtocolName ∧ conn.protocolLevel = mqttProtocolLevel
  identified : conn.clientId ≠ [] ∨ conn.cleanSession = true
  unbanned : ∀ banUntil,
    b.server.authBanUntil.lookup (b.sessions sid).remoteIp = some banUntil → banUntil ≤ b.now

/-- An admitted CONNECT without credentials, or with credentials that the
authenticator accepts. -/
structure AcceptableConnect (env : Env α) (b : Broker α) (sid : SessionId) (body : Bytes)
    (conn : ConnectPacket) : Prop extends AdmittedConnect b sid body conn where
  authenticated : conn.username = [] ∧ conn.password = [] ∨
    ∃ result auth, env.auth.authenticate b.auth conn.clientId conn.username conn.password =
      (.ok result, auth) ∧ result.success = true

/-- The check of `handle_connect` before the authentication that a CONNECT fails
first, by the return code of its answer. -/
inductive TurnedAway (b : Broker α) (sid : SessionId) (conn : ConnectPacket) :
    ConnackCode → Prop where
  | protocol (wrong : conn.protocolName ≠ mqttProtocolName ∨
      conn.protocolLevel ≠ mqttProtocolLevel) :
      TurnedAway b sid conn .refusedProtocol
  | identifier (protocol : conn.protocolName = mqttProtocolName ∧
      conn.protocolLevel = mqttProtocolLevel) (anonymous : conn.clientId = [])
      (persistent : conn.cleanSession = false) :
      TurnedAway b sid conn .refusedIdRejected
  | banned (protocol : conn.protocolName = mqttProtocolName ∧
      conn.protocolLevel = mqttProtocolLevel)
      (identified : conn.clientId ≠ [] ∨ conn.cleanSession = true) {banUntil : Int}
      (ban : b.server.authBanUntil.lookup (b.sessions sid).remoteIp = some banUntil)
      (running : b.now < banUntil) :
      TurnedAway b sid conn .refusedServerUnavail

/-- An admitted CONNECT with credentials that the authenticator rejects for the
reason `code`. -/
structure RejectedConnect (env : Env α) (b : Broker α) (sid : SessionId) (body : Bytes)
    (conn : ConnectPacket) (code : ConnackCode) : Prop extends AdmittedConnect b sid body conn where
  credentials : conn.username ≠ [] ∨ conn.password ≠ []
  rejected : ∃ result auth,
    env.auth.authenticate b.auth conn.clientId conn.username conn.password = (.ok result, auth) ∧
      result.success = false ∧ result.reason = code

def NextConnect (env : Env α) (n : Runtime α) (sid : SessionId) (body : Bytes) : Prop :=
  ∃ hdr, NextPacket env n sid hdr body ∧ hdr.type = some .connect

/-- The next turn handles a CONNECT that is accepted. -/
def Connects (env : Env α) (n : Runtime α) (sid : SessionId) (conn : ConnectPacket) : Prop :=
  ∃ body, NextConnect env n sid body ∧ AcceptableConnect env n.toBroker sid body conn

theorem Connects.unique {env : Env α} {n : Runtime α} {sid : SessionId}
    {conn conn' : ConnectPacket} (h : Connects env n sid conn) (h' : Connects env n sid conn') :
    conn = conn' := by
  obtain ⟨body, ⟨hdr, hnext, _⟩, hconn⟩ := h
  obtain ⟨body', ⟨hdr', hnext', _⟩, hconn'⟩ := h'
  obtain ⟨rest, hparse⟩ := hconn.parses
  obtain ⟨rest', hparse'⟩ := hconn'.parses
  rw [(hnext.unique hnext').2, hparse'] at hparse
  exact (Prod.mk.inj (Except.ok.inj hparse)).1.symm

theorem Connects.first {env : Env α} {n : Runtime α} {sid : SessionId} {conn : ConnectPacket}
    (h : Connects env n sid conn) : (n.sessions sid).connected = false := by
  obtain ⟨body, _, hconn⟩ := h
  exact hconn.first

theorem admittedConnect_observe {b : Broker α} {sid : SessionId} {body : Bytes}
    {conn : ConnectPacket} {note : History → History} :
    AdmittedConnect (b.observe note) sid body conn ↔ AdmittedConnect b sid body conn := by
  constructor <;> intro h <;>
    exact ⟨h.first, h.parses, h.protocol, h.identified, h.unbanned⟩

theorem acceptableConnect_observe {env : Env α} {b : Broker α} {sid : SessionId} {body : Bytes}
    {conn : ConnectPacket} {note : History → History} :
    AcceptableConnect env (b.observe note) sid body conn ↔
      AcceptableConnect env b sid body conn := by
  constructor <;> intro h
  · exact ⟨admittedConnect_observe.mp h.toAdmittedConnect, h.authenticated⟩
  · exact ⟨admittedConnect_observe.mpr h.toAdmittedConnect, h.authenticated⟩

theorem checkAuthRateLimit_of_unbanned {b : Broker α} {sid : SessionId}
    (h : ∀ banUntil, b.server.authBanUntil.lookup (b.sessions sid).remoteIp = some banUntil →
      banUntil ≤ b.now) :
    ∃ failures bans, Session.checkAuthRateLimit sid b = (true, b.setAuthTables failures bans) := by
  unfold Session.checkAuthRateLimit
  dsimp only
  cases hban : b.server.authBanUntil.lookup (b.sessions sid).remoteIp with
  | none => exact ⟨b.server.authFailures, b.server.authBanUntil, rfl⟩
  | some banUntil =>
      have hover : ¬b.now < banUntil := by
        have := h banUntil hban
        omega
      simp only [hover, if_false]
      exact ⟨_, _, rfl⟩

section Admitted

variable {env : Env α} {b : Broker α} {sid : SessionId} {body : Bytes} {conn : ConnectPacket}

theorem AdmittedConnect.handleConnect_eq (h : AdmittedConnect b sid body conn) :
    Session.handleConnect env sid body b =
      Session.authenticateConnect env sid conn (Session.checkAuthRateLimit sid b).2 := by
  obtain ⟨rest, hparse⟩ := h.parses
  obtain ⟨failures, bans, hlimit⟩ := checkAuthRateLimit_of_unbanned h.unbanned
  have hprotocol : ¬(conn.protocolName ≠ mqttProtocolName ∨
      conn.protocolLevel ≠ mqttProtocolLevel) := by
    simp [h.protocol]
  have hidentified : ¬(conn.clientId = [] ∧ ¬conn.cleanSession) := by
    rintro ⟨hid, hclean⟩
    rcases h.identified with hid' | hclean'
    · exact hid' hid
    · exact hclean hclean'
  have hfirst : ¬(b.sessions sid).connected = true := by simp [h.first]
  unfold Session.handleConnect
  rw [if_neg hfirst, hparse]
  dsimp only
  rw [if_neg hprotocol, if_neg hidentified, hlimit]

theorem AcceptableConnect.handleConnect_accepts (h : AcceptableConnect env b sid body conn) :
    ∃ auth failures bans, Session.handleConnect env sid body b =
      (Session.acceptConnect env sid conn
        ((b.setAuthTables failures bans).setAuth auth), none) := by
  obtain ⟨failures, bans, hlimit⟩ := checkAuthRateLimit_of_unbanned h.unbanned
  rw [h.toAdmittedConnect.handleConnect_eq, hlimit]
  unfold Session.authenticateConnect
  rcases h.authenticated with ⟨hname, hpassword⟩ | ⟨result, auth, hresult, hsuccess⟩
  · rw [if_neg (by simp [hname, hpassword])]
    exact ⟨b.auth, failures, bans, rfl⟩
  · split_ifs
    · refine ⟨auth, failures, bans, ?_⟩
      have hresult' : env.auth.authenticate (b.setAuthTables failures bans).auth conn.clientId
          conn.username conn.password = (.ok result, auth) := hresult
      rw [hresult']
      simp [hsuccess]
    · exact ⟨b.auth, failures, bans, rfl⟩

/-! ## Refused packets -/

theorem deliver_of_unconnected (h : (b.sessions sid).connected = false) (packet : OutPacket) :
    Session.deliver env sid packet b = b.observe (.noteHanded ⟨sid, packet, false⟩) := by
  simp [Session.deliver, Session.accepts, Broker.observe, h]

/-- On a session that is not connected the refusal is not even sent. -/
theorem refuse_of_unconnected (h : (b.sessions sid).connected = false) (code : ConnackCode) :
    Session.refuse env sid code b =
      b.observe (.noteHanded ⟨sid, .connack false code, false⟩) := by
  unfold Session.refuse
  rw [deliver_of_unconnected h]
  exact Session.close_of_idle h

theorem RejectedConnect.handleConnect_refuses {code : ConnackCode}
    (h : RejectedConnect env b sid body conn code) :
    ∃ failures bans auth, Session.handleConnect env sid body b =
      (Session.refuse env sid code ((b.setAuthTables failures bans).setAuth auth), none) := by
  obtain ⟨failures, bans, hlimit⟩ := checkAuthRateLimit_of_unbanned h.unbanned
  obtain ⟨result, auth, hresult, hfailed, hreason⟩ := h.rejected
  have hresult' : env.auth.authenticate (b.setAuthTables failures bans).auth conn.clientId
      conn.username conn.password = (.ok result, auth) := hresult
  have hrecord : ∃ failures' bans', Session.recordAuthFailure env sid
      ((b.setAuthTables failures bans).setAuth auth) =
        (b.setAuthTables failures' bans').setAuth auth := ⟨_, _, rfl⟩
  obtain ⟨failures', bans', hrecord⟩ := hrecord
  refine ⟨failures', bans', auth, ?_⟩
  rw [h.toAdmittedConnect.handleConnect_eq, hlimit]
  unfold Session.authenticateConnect
  rw [if_pos h.credentials, hresult']
  dsimp only
  rw [if_neg (by simp [hfailed]), hreason, hrecord]

/-- A CONNECT that fails one of the checks is answered and the session closed, as
far as `deliver` and `close` do so. -/
theorem TurnedAway.handleConnect_eq {code : ConnackCode} (h : TurnedAway b sid conn code)
    (hidle : (b.sessions sid).connected = false) {rest : Bytes}
    (hparse : ConnectPacket.parse body = .ok (conn, rest)) :
    Session.handleConnect env sid body b = (Session.refuse env sid code b, none) := by
  have hfirst : ¬(b.sessions sid).connected = true := by simp [hidle]
  unfold Session.handleConnect
  rw [if_neg hfirst, hparse]
  dsimp only
  cases h with
  | protocol hprotocol => rw [if_pos hprotocol]
  | identifier hprotocol hid hclean =>
      have hidentified : conn.clientId = [] ∧ ¬conn.cleanSession = true := by simp [hid, hclean]
      rw [if_neg (by simp [hprotocol]), if_pos hidentified]
  | banned hprotocol hidentified hban hnow =>
      have hanonymous : ¬(conn.clientId = [] ∧ ¬conn.cleanSession = true) := by
        rcases hidentified with hid | hclean
        · simp [hid]
        · simp [hclean]
      have hlimit : Session.checkAuthRateLimit sid b = (false, b) := by
        unfold Session.checkAuthRateLimit
        dsimp only
        rw [hban]
        dsimp only
        rw [if_pos hnow]
      rw [if_neg (by simp [hprotocol]), if_neg hanonymous, hlimit]

/-- A CONNECT that parses fails one of the checks or comes to the
authentication. -/
theorem turnedAway_or_admitted (hidle : (b.sessions sid).connected = false) {rest : Bytes}
    (hparse : ConnectPacket.parse body = .ok (conn, rest)) :
    (∃ code, TurnedAway b sid conn code) ∨ AdmittedConnect b sid body conn := by
  by_cases hprotocol : conn.protocolName = mqttProtocolName ∧
      conn.protocolLevel = mqttProtocolLevel
  · by_cases hidentified : conn.clientId ≠ [] ∨ conn.cleanSession = true
    · by_cases hunbanned : ∀ banUntil,
          b.server.authBanUntil.lookup (b.sessions sid).remoteIp = some banUntil →
            banUntil ≤ b.now
      · exact Or.inr ⟨hidle, ⟨rest, hparse⟩, hprotocol, hidentified, hunbanned⟩
      · left
        simp only [not_forall, not_le] at hunbanned
        obtain ⟨banUntil, hban, hnow⟩ := hunbanned
        exact ⟨_, .banned hprotocol hidentified hban hnow⟩
    · left
      simp only [not_or, not_not, Bool.not_eq_true] at hidentified
      exact ⟨_, .identifier hprotocol hidentified.1 hidentified.2⟩
  · left
    rw [not_and_or] at hprotocol
    exact ⟨_, .protocol hprotocol⟩

/-- A CONNECT that is not admitted leaves the broker as it is. -/
theorem handleConnect_of_not_admitted (hidle : (b.sessions sid).connected = false)
    (h : ∀ conn, ¬AdmittedConnect b sid body conn) :
    ∃ note, Session.handleConnect env sid body b = (b.observe note, none) := by
  rcases hparse : ConnectPacket.parse body with e | ⟨conn, rest⟩
  · refine ⟨id, ?_⟩
    have hfirst : ¬(b.sessions sid).connected = true := by simp [hidle]
    unfold Session.handleConnect
    rw [if_neg hfirst, hparse]
    dsimp only
    rw [Session.close_of_idle hidle]
    rfl
  · rcases turnedAway_or_admitted hidle hparse with ⟨code, haway⟩ | hadmitted
    · rw [haway.handleConnect_eq hidle hparse, refuse_of_unconnected hidle]
      exact ⟨_, rfl⟩
    · exact absurd hadmitted (h conn)

end Admitted

theorem onReadTurn_of_connect {env : Env α} {n : Runtime α} {sid : SessionId} {body : Bytes}
    (h : NextConnect env n sid body) :
    ∃ packet, (Session.onReadTurn env sid n).toBroker =
      Session.catchException sid (Session.handleConnect env sid body
        (n.toBroker.observe (.noteHandled sid packet))) := by
  obtain ⟨hdr, hnext, htype⟩ := h
  obtain ⟨packet, hturn⟩ := onReadTurn_of_next hnext
  refine ⟨packet, ?_⟩
  rw [hturn, Session.dispatch, htype]

theorem Connects.onReadTurn_eq {env : Env α} {n : Runtime α} {sid : SessionId}
    {conn : ConnectPacket} (h : Connects env n sid conn) :
    ∃ packet auth failures bans, (Session.onReadTurn env sid n).toBroker =
      Session.acceptConnect env sid conn
        (((n.toBroker.observe (.noteHandled sid packet)).setAuthTables failures bans).setAuth
          auth) := by
  obtain ⟨body, hnext, hconn⟩ := h
  obtain ⟨packet, hstep⟩ := onReadTurn_of_connect hnext
  have hconn' : AcceptableConnect env (n.toBroker.observe (.noteHandled sid packet)) sid body
      conn := acceptableConnect_observe.mpr hconn
  obtain ⟨auth, failures, bans, hhandle⟩ := hconn'.handleConnect_accepts
  refine ⟨packet, auth, failures, bans, ?_⟩
  rw [hstep, hhandle]
  rfl

end JellyBroker
