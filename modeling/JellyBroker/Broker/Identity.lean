import JellyBroker.Auth.AclCoverage
import JellyBroker.Broker.Bystander
/-!
# The username of a client

With the PostgreSQL backend the password of a CONNECT is looked up by client id,
and the access rules of the session by the username of the CONNECT.  Nothing
relates the two.
-/

namespace JellyBroker

open JellyBroker.Auth JellyBroker.Packet

namespace Auth.PgAuthenticator

/-- A connection of the pool can be used, and the record of the client has the
hash of the password. -/
def Verifies (digest : Bytes → Bytes) (db : AccountDatabase) (pg : PgAuthenticator)
    (clientId password : Bytes) : Prop :=
  (∃ i, (pg.acquire db.toDatabase).1 = .ok (some i)) ∧
    ∃ storedHash salt rest, (db.selectClients clientId).rows = (storedHash, salt) :: rest ∧
      hashPassword digest password salt = storedHash

theorem checkPassword_success_iff {digest : Bytes → Bytes} {password : Bytes}
    {rows : List (Bytes × Bytes)} :
    (checkPassword digest password rows).success = true ↔
      ∃ storedHash salt rest, rows = (storedHash, salt) :: rest ∧
        hashPassword digest password salt = storedHash := by
  cases rows with
  | nil => simp [checkPassword]
  | cons row rest =>
      obtain ⟨storedHash, salt⟩ := row
      by_cases hhash : hashPassword digest password salt = storedHash
      · simp [checkPassword, hhash]
      · simp [checkPassword, hhash, Ne.symm hhash]

theorem authenticate_success_iff {digest : Bytes → Bytes} {db : AccountDatabase}
    {pg : PgAuthenticator} {clientId password : Bytes} (username : Bytes) :
    (∃ result, (pg.authenticate digest db clientId username password).1 = .ok result ∧
        result.success = true) ↔ pg.Verifies digest db clientId password := by
  unfold authenticate Verifies
  rcases hacquire : pg.acquire db.toDatabase with ⟨what | _ | i, pg'⟩
  · simp
  · simp
  · dsimp only
    rw [← checkPassword_success_iff]
    constructor
    · rintro ⟨result, hresult, hsuccess⟩
      rw [Except.ok.inj hresult]
      exact ⟨⟨i, rfl⟩, hsuccess⟩
    · rintro ⟨_, hsuccess⟩
      exact ⟨_, rfl, hsuccess⟩

end Auth.PgAuthenticator

variable {α : Type}

def Authenticates (env : Env α) (b : Broker α) (clientId username password : Bytes) : Prop :=
  ∃ result auth, env.auth.authenticate b.auth clientId username password = (.ok result, auth) ∧
    result.success = true

/-- Among the usernames that are accepted with the client id and the password
there is at most one that is not empty. -/
def UsernameBound (env : Env α) (b : Broker α) (clientId password : Bytes) : Prop :=
  ∀ username username', username ≠ [] → username' ≠ [] →
    Authenticates env b clientId username password →
    Authenticates env b clientId username' password → username = username'

def pgEnv (cfg : Config) (digest : Bytes → Bytes) (world : PgWorld) : Env PgBackend where
  cfg := cfg
  auth := pgBackend digest world

section Backend

variable {cfg : Config} {digest : Bytes → Bytes} {world : PgWorld} {b : Broker PgBackend}
  {clientId password : Bytes}

theorem authenticates_iff {username : Bytes} :
    Authenticates (pgEnv cfg digest world) b clientId username password ↔
      b.auth.pg.Verifies digest (world.db b.auth.calls) clientId password := by
  rw [← PgAuthenticator.authenticate_success_iff username]
  constructor
  · rintro ⟨result, auth, hresult, hsuccess⟩
    exact ⟨result, (Prod.mk.inj hresult).1, hsuccess⟩
  · rintro ⟨result, hresult, hsuccess⟩
    exact ⟨result, _, Prod.ext hresult rfl, hsuccess⟩

theorem usernameBound_iff_not_verifies :
    UsernameBound (pgEnv cfg digest world) b clientId password ↔
      ¬b.auth.pg.Verifies digest (world.db b.auth.calls) clientId password := by
  constructor
  · intro hbound hverifies
    have hequal := hbound [0x61] [0x62] (by decide) (by decide) (authenticates_iff.mpr hverifies)
      (authenticates_iff.mpr hverifies)
    cases hequal
  · intro hnot username username' _ _ haccepted
    exact absurd (authenticates_iff.mp haccepted) hnot

theorem acceptableConnect_iff_verifies {sid : SessionId} {body : Bytes} {conn : ConnectPacket}
    (hadmitted : AdmittedConnect b sid body conn) (hname : conn.username ≠ []) :
    AcceptableConnect (pgEnv cfg digest world) b sid body conn ↔
      b.auth.pg.Verifies digest (world.db b.auth.calls) conn.clientId conn.password := by
  constructor
  · intro h
    rcases h.authenticated with ⟨hempty, _⟩ | haccepted
    · exact absurd hempty hname
    · exact authenticates_iff.mp haccepted
  · intro hverifies
    have haccepted : Authenticates (pgEnv cfg digest world) b conn.clientId conn.username
        conn.password := authenticates_iff.mpr hverifies
    exact ⟨hadmitted, Or.inr haccepted⟩

end Backend

/-- The username is bound to a client id and a password only if they are not
accepted at all: a CONNECT with a username is accepted exactly if the record of
its client id has the hash of its password, and the session then has the
username of the CONNECT, which is the one its access is checked for. -/
theorem username_bound_iff (cfg : Config) (digest : Bytes → Bytes) (world : PgWorld)
    (n : Runtime PgBackend) (sid : SessionId) :
    (∀ clientId password, UsernameBound (pgEnv cfg digest world) n.toBroker clientId password ↔
      ¬n.auth.pg.Verifies digest (world.db n.auth.calls) clientId password) ∧
    (∀ body conn, AdmittedConnect n.toBroker sid body conn → conn.username ≠ [] →
      (AcceptableConnect (pgEnv cfg digest world) n.toBroker sid body conn ↔
        n.auth.pg.Verifies digest (world.db n.auth.calls) conn.clientId conn.password)) ∧
    ∀ conn, Connects (pgEnv cfg digest world) n sid conn → n.toBroker.Enabled (.turn sid) →
      ((n.step (pgEnv cfg digest world) (.turn sid)).sessions sid).connected = true →
      ((n.step (pgEnv cfg digest world) (.turn sid)).sessions sid).username = conn.username := by
  refine ⟨fun _ _ => usernameBound_iff_not_verifies, ?_, ?_⟩
  · intro body conn hadmitted hname
    exact acceptableConnect_iff_verifies hadmitted hname
  · intro conn hconnects henabled hafter
    exact hconnects.username henabled hafter

/-! ## Sample runs -/

structure Auth.ClientRow where
  clientId : Bytes
  passwordHash : Bytes
  salt : Bytes
  enabled : Bool := true

def Auth.AccountDatabase.ofTables (clients : List ClientRow) (acls : List AclRow) :
    AccountDatabase where
  toDatabase := Database.ofTable acls
  selectClients clientId :=
    ⟨(clients.filter fun row => row.clientId = clientId && row.enabled).map fun row =>
      (row.passwordHash, row.salt), true⟩

/-- The client `c` has the password `p`, and the user `a` may write to the topic
`t`. -/
def sampleWorld (digest : Bytes → Bytes) : PgWorld where
  db _ := .ofTables [⟨[0x63], PgAuthenticator.hashPassword digest [0x70] [0x73], [0x73], true⟩]
    [⟨[0x61], [0x74], 2⟩]
  clock _ := 0

def sampleBackend : PgBackend := { pg := .create 1 0 }

theorem sampleWorld_verifies (digest : Bytes → Bytes) :
    sampleBackend.pg.Verifies digest ((sampleWorld digest).db 0) [0x63] [0x70] :=
  ⟨⟨0, rfl⟩, _, [0x73], [], rfl, rfl⟩

def accountBytes (clientId username password : Bytes) : Bytes :=
  OutPacket.wrap .connect 0
    (Utils.writeString mqttProtocolName ++ [mqttProtocolLevel, 0xc2] ++ Utils.writeUint16 60 ++
      Utils.writeString clientId ++ Utils.writeString username ++ Utils.writeString password)

def accountEvents (username : Bytes) : List Event :=
  [.accept [0x69], .read 0 (accountBytes [0x63] username [0x70])]

/-- The client connects as the user `a`. -/
theorem username_of_login :
    let env := pgEnv {} id (sampleWorld id)
    let n := (brokerSystem env).after { auth := sampleBackend } (accountEvents [0x61])
    ((n.step env (.turn 0)).sessions 0).connected = true ∧
      ((n.step env (.turn 0)).sessions 0).username = [0x61] := by
  intro env n
  let conn : ConnectPacket :=
    { protocolName := mqttProtocolName, protocolLevel := mqttProtocolLevel, cleanSession := true
      username := [0x61], password := [0x70], keepalive := 60, clientId := [0x63] }
  obtain ⟨_, haccepted, husername⟩ := username_bound_iff {} id (sampleWorld id) n 0
  have hadmitted : AdmittedConnect n.toBroker 0 ((accountBytes [0x63] [0x61] [0x70]).drop 2)
      conn := by
    refine ⟨?_, ⟨[], ?_⟩, ?_, ?_, ?_⟩
    · decide +kernel
    · decide +kernel
    · decide
    · exact Or.inl (by decide)
    · intro banUntil hban
      have hnone : n.server.authBanUntil = ∅ := by decide +kernel
      rw [hnone] at hban
      cases hban
  have hconnects : Connects env n 0 conn := by
    refine ⟨_, ⟨_, ⟨accountBytes [0x63] [0x61] [0x70], {}, by decide +kernel, rfl⟩, rfl⟩, ?_⟩
    exact (haccepted _ conn hadmitted (by decide)).mpr (sampleWorld_verifies id)
  have henabled : n.toBroker.Enabled (.turn 0) := by
    constructor <;> decide +kernel
  have hafter : ((n.step env (.turn 0)).sessions 0).connected = true := by decide +kernel
  exact ⟨hafter, husername conn hconnects henabled hafter⟩

/-- The client gets the access of the user `a` if it names that user, and none if
it names the user `b`; its password is accepted with either name. -/
theorem username_not_bound :
    (∀ digest : Bytes → Bytes,
      let env := pgEnv {} digest (sampleWorld digest)
      let b : Broker PgBackend := { auth := sampleBackend }
      Authenticates env b [0x63] [0x61] [0x70] ∧ Authenticates env b [0x63] [0x62] [0x70] ∧
        ¬UsernameBound env b [0x63] [0x70]) ∧
    let env := pgEnv {} id (sampleWorld id)
    let state (username : Bytes) := (brokerSystem env).after { auth := sampleBackend }
      (accountEvents username ++ [.turn 0, .turn 0,
        .read 0 (OutPacket.publish [0x74] [0x6d] 0 false false 0).bytes, .turn 0])
    (brokerSystem env).Reachable (state [0x61]) ∧ (state [0x61]).counters.published = 1 ∧
      (brokerSystem env).Reachable (state [0x62]) ∧ (state [0x62]).counters.dropped = 1 := by
  refine ⟨?_, ?_⟩
  · intro digest env b
    have hverifies := sampleWorld_verifies digest
    exact ⟨authenticates_iff.mpr hverifies, authenticates_iff.mpr hverifies, fun hbound =>
      usernameBound_iff_not_verifies.mp hbound hverifies⟩
  · intro env state
    refine ⟨?_, ?_, ?_, ?_⟩
    · refine .of_allowed ⟨_, rfl⟩ ⟨⟨rfl, rfl, trivial⟩, ⟨rfl, rfl, rfl, ?_, ?_⟩, ⟨?_, ?_⟩, ⟨?_, ?_⟩,
        ⟨?_, ?_, ?_, ?_, ?_⟩, ⟨?_, ?_⟩, trivial⟩ <;> decide +kernel
    · decide +kernel
    · refine .of_allowed ⟨_, rfl⟩ ⟨⟨rfl, rfl, trivial⟩, ⟨rfl, rfl, rfl, ?_, ?_⟩, ⟨?_, ?_⟩, ⟨?_, ?_⟩,
        ⟨?_, ?_, ?_, ?_, ?_⟩, ⟨?_, ?_⟩, trivial⟩ <;> decide +kernel
    · decide +kernel

end JellyBroker
