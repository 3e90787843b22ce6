import JellyBroker.Auth.Authenticator
import JellyBroker.Lib.FiniteMap
import JellyBroker.Topic.Filter
/-!
# The PostgreSQL authenticator

The connection pool, the check of a client's password, the ACL cache and the
access check.  The database is the environment: `Database` and
`AccountDatabase` say how it behaves during one call.  The digest of a password
is computed by a library and is a parameter.
-/

namespace JellyBroker.Auth

open JellyBroker.Lib (Map)

structure PooledConnection where
  inUse : Bool := false
  deriving DecidableEq, Repr

/-- The `expiry` of a fresh entry is the epoch of the clock. -/
structure AclCacheEntry where
  rules : List (Bytes × Access) := []
  expiry : Int := 0
  deriving DecidableEq

/-- A transaction: the rows it returned, up to a failing conversion, and
whether it was committed or threw. -/
structure Transaction (ρ : Type) where
  rows : List ρ
  committed : Bool

structure Database where
  /-- Whether the pooled connection at an index is still open. -/
  isOpen : Nat → Bool
  /-- The exception a new connection throws, if it does. -/
  connectError : Option String
  /-- `SELECT topic_filter, access FROM acls WHERE username = $1`. -/
  selectAcls : Bytes → Transaction (Bytes × Int)
  /-- Clock ticks from the cache check to the end of the load. -/
  loadTicks : Nat

structure AccountDatabase extends Database where
  /-- `SELECT password_hash, salt FROM clients WHERE client_id = $1 AND enabled =
  true`. -/
  selectClients : Bytes → Transaction (Bytes × Bytes)

structure PgAuthenticator where
  pool : List PooledConnection
  cacheTtl : Int
  aclCache : Map Bytes AclCacheEntry := ∅

namespace PgAuthenticator

def create (poolSize : Nat) (cacheTtlSeconds : Int) : PgAuthenticator :=
  { pool := List.replicate poolSize {}, cacheTtl := cacheTtlSeconds }

def acquire (db : Database) (pg : PgAuthenticator) :
    Except String (Option Nat) × PgAuthenticator :=
  match pg.pool.findIdx? (fun pc => !pc.inUse) with
  | none => (.ok none, pg)
  | some i =>
      match db.isOpen i, db.connectError with
      | false, some what => (.error what, pg)
      | _, _ => (.ok (some i), { pg with pool := pg.pool.set i { inUse := true } })

def release (i : Nat) (pg : PgAuthenticator) : PgAuthenticator :=
  { pg with pool := pg.pool.modify i fun pc => { pc with inUse := false } }

def hexByte (octet : UInt8) : Bytes :=
  let digit (nibble : UInt8) : UInt8 := if nibble < 10 then 0x30 + nibble else 0x57 + nibble
  [digit (octet >>> 4), digit (octet &&& 0x0f)]

def hashPassword (digest : Bytes → Bytes) (password salt : Bytes) : Bytes :=
  (digest (salt ++ password)).flatMap hexByte

def checkPassword (digest : Bytes → Bytes) (password : Bytes) : List (Bytes × Bytes) → AuthResult
  | [] => {}
  | (storedHash, salt) :: _ =>
      if hashPassword digest password salt = storedHash then
        { success := true, reason := .accepted }
      else {}

/-- The result is set before the transaction is committed, and an exception of
the transaction leaves the connection in use.  The username is not looked at. -/
def authenticate (digest : Bytes → Bytes) (db : AccountDatabase) (pg : PgAuthenticator)
    (clientId _username password : Bytes) : Except String AuthResult × PgAuthenticator :=
  match pg.acquire db.toDatabase with
  | (.error what, pg) => (.error what, pg)
  | (.ok none, pg) => (.ok {}, pg)
  | (.ok (some i), pg) =>
      let txn := db.selectClients clientId
      (.ok (checkPassword digest password txn.rows), if txn.committed then pg.release i else pg)

/-- One second of the steady clock, which counts nanoseconds. -/
def second : Int := 1000000000

def ruleOfRow (row : Bytes × Int) : Bytes × Access :=
  (row.1, ⟨UInt8.ofInt row.2⟩)

def loadAclRules (db : Database) (now : Int) (pg : PgAuthenticator) (username : Bytes) :
    Except String AclCacheEntry × PgAuthenticator :=
  match pg.acquire db with
  | (.error what, pg) => (.error what, pg)
  | (.ok none, pg) => (.ok {}, pg)
  | (.ok (some i), pg) =>
      let txn := db.selectAcls username
      let rules := txn.rows.map ruleOfRow
      if !txn.committed then (.ok { rules }, pg.release i)
      else if pg.cacheTtl > 0 then
        (.ok { rules, expiry := now + db.loadTicks + pg.cacheTtl * second }, pg.release i)
      else (.ok { rules }, pg.release i)

def cached? (now : Int) (pg : PgAuthenticator) (username : Bytes) : Option AclCacheEntry :=
  (pg.aclCache.lookup username).filter fun entry => now < entry.expiry

/-- The rules `check_acl` works with, from the cache or loaded. -/
def currentRules (db : Database) (now : Int) (pg : PgAuthenticator) (username : Bytes) :
    Except String AclCacheEntry × PgAuthenticator :=
  if pg.cacheTtl > 0 then
    match pg.cached? now username with
    | some entry => (.ok entry, pg)
    | none =>
        match pg.loadAclRules db now username with
        | (.error what, pg) => (.error what, pg)
        | (.ok entry, pg) =>
            (.ok entry, { pg with aclCache := pg.aclCache.insert username entry })
  else pg.loadAclRules db now username

def highestAccess (topic : Bytes) (rules : List (Bytes × Access)) : Access :=
  rules.foldl
    (fun result rule =>
      if Topic.topicMatches topic rule.1 && decide (rule.2.level > result.level) then rule.2
      else result)
    .none

def grantedAccess (topic : Bytes) (required : Access) (rules : List (Bytes × Access)) :
    Access :=
  if (highestAccess topic rules).level ≥ required.level then highestAccess topic rules
  else .none

def checkAcl (db : Database) (now : Int) (pg : PgAuthenticator) (username topic : Bytes)
    (required : Access) : Except String Access × PgAuthenticator :=
  match pg.currentRules db now username with
  | (.error what, pg) => (.error what, pg)
  | (.ok entry, pg) => (.ok (grantedAccess topic required entry.rules), pg)

end PgAuthenticator

/-- What the calls of the authenticator find, by their number: the database, and
the time when the cache is looked up. -/
structure PgWorld where
  db : Nat → AccountDatabase
  clock : Nat → Int

structure PgBackend where
  pg : PgAuthenticator
  calls : Nat := 0

def pgBackend (digest : Bytes → Bytes) (world : PgWorld) : Authenticator PgBackend where
  authenticate backend clientId username password :=
    let (result, pg) := backend.pg.authenticate digest (world.db backend.calls) clientId username
      password
    (result, { pg, calls := backend.calls + 1 })
  checkAcl backend username topic required :=
    let (result, pg) := backend.pg.checkAcl (world.db backend.calls).toDatabase
      (world.clock backend.calls) username topic required
    (result, { pg, calls := backend.calls + 1 })

end JellyBroker.Auth
