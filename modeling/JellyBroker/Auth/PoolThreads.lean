import JellyBroker.Auth.PoolUsage
import JellyBroker.Lib.Past
/-!
# The pool under several threads

The handlers of the sessions run on the threads of the broker, so calls of the PostgreSQL
authenticator overlap.  `acquire` and `release` run under the mutex of the pool, but the
transaction between them does not: a call is one step up to `acquire` and one from the
transaction on.  With a cache, `check_acl` keeps the mutex of the cache for the whole call.

No connection is ever used by two threads, and every connection in use is accounted for:
by a thread that uses it, or by an `authenticate` whose transaction threw.
-/

namespace JellyBroker.Auth

open JellyBroker.Lib

inductive PgTask where
  | idle
  | authenticating (connection : Nat) (clientId password : Bytes)
  | loading (connection : Nat) (username topic : Bytes) (required : Access)

def PgTask.connection? : PgTask → Option Nat
  | .idle => none
  | .authenticating connection _ _ | .loading connection _ _ _ => some connection

inductive PgAnswer where
  | authenticate (result : Except String AuthResult)
  | checkAcl (result : Except String Access)

structure PgThreads (τ : Type) where
  pg : PgAuthenticator
  tasks : τ → PgTask := fun _ => .idle
  answers : List (τ × PgAnswer) := []

inductive PgEvent (τ : Type) where
  /-- An idle thread makes a call, up to `acquire`. -/
  | call (thread : τ) (step : PgStep)
  /-- The transaction of the thread and what follows it, at the time it ends. -/
  | finish (thread : τ) (db : AccountDatabase) (now : Int)

namespace PgThreads

variable {τ : Type} [DecidableEq τ]

def answer (thread : τ) (result : PgAnswer) (s : PgThreads τ) : PgThreads τ :=
  { s with answers := s.answers ++ [(thread, result)] }

def setTask (thread : τ) (task : PgTask) (s : PgThreads τ) : PgThreads τ :=
  { s with tasks := Function.update s.tasks thread task }

def beginAuthenticate (thread : τ) (db : AccountDatabase) (clientId password : Bytes)
    (s : PgThreads τ) : PgThreads τ :=
  match s.pg.acquire db.toDatabase with
  | (.error what, pg) => answer thread (.authenticate (.error what)) { s with pg }
  | (.ok none, pg) => answer thread (.authenticate (.ok {})) { s with pg }
  | (.ok (some i), pg) => setTask thread (.authenticating i clientId password) { s with pg }

/-- The end of `check_acl`: the entry goes to the cache, if there is one, and is evaluated. -/
def endCheckAcl (thread : τ) (username topic : Bytes) (required : Access) (entry : AclCacheEntry)
    (s : PgThreads τ) : PgThreads τ :=
  answer thread (.checkAcl (.ok (PgAuthenticator.grantedAccess topic required entry.rules)))
    { s with pg :=
        if s.pg.cacheTtl > 0 then { s.pg with aclCache := s.pg.aclCache.insert username entry }
        else s.pg }

def beginLoad (thread : τ) (db : Database) (username topic : Bytes) (required : Access)
    (s : PgThreads τ) : PgThreads τ :=
  match s.pg.acquire db with
  | (.error what, pg) => answer thread (.checkAcl (.error what)) { s with pg }
  | (.ok none, pg) => endCheckAcl thread username topic required {} { s with pg }
  | (.ok (some i), pg) => setTask thread (.loading i username topic required) { s with pg }

def beginCheckAcl (thread : τ) (db : Database) (now : Int) (username topic : Bytes)
    (required : Access) (s : PgThreads τ) : PgThreads τ :=
  match if s.pg.cacheTtl > 0 then s.pg.cached? now username else none with
  | some entry =>
      answer thread (.checkAcl (.ok (PgAuthenticator.grantedAccess topic required entry.rules))) s
  | none => beginLoad thread db username topic required s

def loadedEntry (cacheTtl now : Int) (txn : Transaction (Bytes × Int)) : AclCacheEntry :=
  if txn.committed && decide (cacheTtl > 0) then
    { rules := txn.rows.map PgAuthenticator.ruleOfRow
      expiry := now + cacheTtl * PgAuthenticator.second }
  else { rules := txn.rows.map PgAuthenticator.ruleOfRow }

def finish (digest : Bytes → Bytes) (thread : τ) (db : AccountDatabase) (now : Int)
    (s : PgThreads τ) : PgThreads τ :=
  match s.tasks thread with
  | .idle => s
  | .authenticating i clientId password =>
      let txn := db.selectClients clientId
      answer thread (.authenticate (.ok (PgAuthenticator.checkPassword digest password txn.rows)))
        (setTask thread .idle { s with pg := if txn.committed then s.pg.release i else s.pg })
  | .loading i username topic required =>
      endCheckAcl thread username topic required
        (loadedEntry s.pg.cacheTtl now (db.selectAcls username))
        (setTask thread .idle { s with pg := s.pg.release i })

def step (digest : Bytes → Bytes) (s : PgThreads τ) : PgEvent τ → PgThreads τ
  | .call thread ⟨db, _, .authenticate clientId _ password⟩ =>
      beginAuthenticate thread db clientId password s
  | .call thread ⟨db, now, .checkAcl username topic required⟩ =>
      beginCheckAcl thread db.toDatabase now username topic required s
  | .finish thread db now => finish digest thread db now s

def CacheLocked (s : PgThreads τ) : Prop :=
  s.pg.cacheTtl > 0 ∧ ∃ thread connection username topic required,
    s.tasks thread = .loading connection username topic required

def Enabled (s : PgThreads τ) : PgEvent τ → Prop
  | .call thread step => s.tasks thread = .idle ∧
      (∀ username topic required, step.call = .checkAcl username topic required → ¬s.CacheLocked)
  | .finish thread _ _ => s.tasks thread ≠ .idle

end PgThreads

def pgThreads (τ : Type) [DecidableEq τ] (digest : Bytes → Bytes) (poolSize : Nat)
    (cacheTtl : Int) : System (PgThreads τ) (PgEvent τ) where
  init s := s = { pg := .create poolSize cacheTtl }
  enabled := PgThreads.Enabled
  step := PgThreads.step digest

/-! ## A call that no other thread interrupts -/

theorem PgAuthenticator.acquire_cases (db : Database) (pg : PgAuthenticator) :
    (∃ i, pg.Usable db i ∧
      pg.acquire db = (.ok (some i), { pg with pool := pg.pool.set i { inUse := true } })) ∨
    pg.acquire db = (.ok none, pg) ∨ ∃ what, pg.acquire db = (.error what, pg) := by
  by_cases husable : ∃ i, pg.Usable db i
  · obtain ⟨i, hi⟩ := husable
    exact Or.inl ⟨i, hi, acquire_of_usable hi⟩
  · exact Or.inr (acquire_of_not_usable fun i hi => husable ⟨i, hi⟩)

def PgStep.answer (digest : Bytes → Bytes) (step : PgStep) (pg : PgAuthenticator) : PgAnswer :=
  match step.call with
  | .authenticate clientId username password =>
      .authenticate (pg.authenticate digest step.db clientId username password).1
  | .checkAcl username topic required =>
      .checkAcl (pg.checkAcl step.db.toDatabase step.now username topic required).1

namespace PgThreads

variable {τ : Type} [DecidableEq τ]

theorem setTask_setTask {s : PgThreads τ} {thread : τ} (hidle : s.tasks thread = .idle)
    (task : PgTask) (pg pg' : PgAuthenticator) :
    setTask thread .idle { setTask thread task { s with pg } with pg := pg' } =
      { s with pg := pg' } := by
  unfold setTask
  dsimp only
  rw [Function.update_idem, ← hidle, Function.update_eq_self]

theorem finish_idle (digest : Bytes → Bytes) {s : PgThreads τ} {thread : τ}
    (hidle : s.tasks thread = .idle) (db : AccountDatabase) (now : Int) :
    finish digest thread db now s = s := by
  unfold finish
  rw [hidle]

theorem authenticate_alone (digest : Bytes → Bytes) {s : PgThreads τ} {thread : τ}
    (hidle : s.tasks thread = .idle) (db : AccountDatabase) (now : Int)
    (clientId username password : Bytes) :
    finish digest thread db now (beginAuthenticate thread db clientId password s) =
      answer thread (.authenticate (s.pg.authenticate digest db clientId username password).1)
        { s with pg := (s.pg.authenticate digest db clientId username password).2 } := by
  unfold beginAuthenticate PgAuthenticator.authenticate
  rcases PgAuthenticator.acquire_cases db.toDatabase s.pg with
    ⟨i, hi, hsome⟩ | hnone | ⟨what, herror⟩
  · rw [hsome]
    dsimp only
    unfold finish
    rw [show (setTask thread _ _ : PgThreads τ).tasks thread = _ from Function.update_self ..]
    dsimp only
    rw [setTask_setTask hidle]
    rfl
  · rw [hnone]
    apply finish_idle
    exact hidle
  · rw [herror]
    apply finish_idle
    exact hidle

theorem load_alone (digest : Bytes → Bytes) {s : PgThreads τ} {thread : τ}
    (hidle : s.tasks thread = .idle) (db : AccountDatabase) (now : Int)
    (username topic : Bytes) (required : Access) :
    finish digest thread db (now + db.loadTicks)
        (beginLoad thread db.toDatabase username topic required s) =
      match s.pg.loadAclRules db.toDatabase now username with
      | (.error what, pg) => answer thread (.checkAcl (.error what)) { s with pg }
      | (.ok entry, pg) => endCheckAcl thread username topic required entry { s with pg } := by
  unfold beginLoad PgAuthenticator.loadAclRules
  rcases PgAuthenticator.acquire_cases db.toDatabase s.pg with
    ⟨i, hi, hsome⟩ | hnone | ⟨what, herror⟩
  · rw [hsome]
    dsimp only
    unfold finish
    rw [show (setTask thread _ _ : PgThreads τ).tasks thread = _ from Function.update_self ..]
    dsimp only
    rw [setTask_setTask hidle]
    unfold loadedEntry
    cases (db.selectAcls username).committed with
    | false => rfl
    | true =>
        by_cases hcache : s.pg.cacheTtl > 0
        · simp [setTask, hcache]
        · simp [setTask, hcache]
  · rw [hnone]
    apply finish_idle
    exact hidle
  · rw [herror]
    apply finish_idle
    exact hidle

theorem checkAcl_alone (digest : Bytes → Bytes) {s : PgThreads τ} {thread : τ}
    (hidle : s.tasks thread = .idle) (db : AccountDatabase) (now : Int)
    (username topic : Bytes) (required : Access) :
    finish digest thread db (now + db.loadTicks)
        (beginCheckAcl thread db.toDatabase now username topic required s) =
      answer thread (.checkAcl (s.pg.checkAcl db.toDatabase now username topic required).1)
        { s with pg := (s.pg.checkAcl db.toDatabase now username topic required).2 } := by
  have hload := load_alone digest hidle db now username topic required
  have hkept := PgAuthenticator.loadAclRules_snd db.toDatabase now s.pg username
  unfold beginCheckAcl PgAuthenticator.checkAcl PgAuthenticator.currentRules
  generalize s.pg.loadAclRules db.toDatabase now username = loaded at hload hkept ⊢
  by_cases hcache : s.pg.cacheTtl > 0
  · rw [if_pos hcache, if_pos hcache]
    cases s.pg.cached? now username with
    | some entry =>
        apply finish_idle
        exact hidle
    | none =>
        dsimp only
        rw [hload]
        obtain ⟨what | entry, pg⟩ := loaded
        · rfl
        · obtain rfl : pg = s.pg := hkept
          unfold endCheckAcl
          dsimp only
          rw [if_pos hcache]
  · rw [if_neg hcache, if_neg hcache]
    dsimp only
    rw [hload]
    obtain ⟨what | entry, pg⟩ := loaded
    · rfl
    · obtain rfl : pg = s.pg := hkept
      unfold endCheckAcl
      dsimp only
      rw [if_neg hcache]

/-- A call that ends before any other thread moves does what the call does on its own: the
same pool and cache, and the same answer. -/
theorem step_alone (digest : Bytes → Bytes) {s : PgThreads τ} {thread : τ}
    (hidle : s.tasks thread = .idle) (call : PgStep) :
    step digest (step digest s (.call thread call))
        (.finish thread call.db (call.now + call.db.loadTicks)) =
      answer thread (call.answer digest s.pg) { s with pg := call.run digest s.pg } := by
  obtain ⟨db, now, ⟨clientId, username, password⟩ | ⟨username, topic, required⟩⟩ := call
  · exact authenticate_alone digest hidle db _ clientId username password
  · exact checkAcl_alone digest hidle db now username topic required

end PgThreads

/-! ## The free connections -/

namespace PgAuthenticator

variable {pg : PgAuthenticator} {i : Nat}

theorem pool_release (i : Nat) (pg : PgAuthenticator) :
    (pg.release i).pool = pg.pool.set i { inUse := false } := by
  unfold release
  apply List.ext_getElem
  · simp
  · intro j hj hj'
    by_cases hij : i = j
    · subst hij
      simp
    · simp [hij]

theorem freeConnections_release (h : pg.pool[i]? = some { inUse := true }) :
    (pg.release i).freeConnections = pg.freeConnections + 1 := by
  obtain ⟨hi, hused⟩ := List.getElem?_eq_some_iff.mp h
  unfold freeConnections
  rw [pool_release, List.countP_set hi, hused]
  simp

theorem freeConnections_eq_zero_iff :
    pg.freeConnections = 0 ↔ pg.pool.findIdx? (fun pc => !pc.inUse) = none := by
  unfold freeConnections
  rw [List.countP_eq_zero, List.findIdx?_eq_none_iff]
  simp only [Bool.not_eq_true]

theorem acquire_of_no_free (h : pg.freeConnections = 0) (db : Database) :
    pg.acquire db = (.ok none, pg) := by
  unfold acquire
  rw [freeConnections_eq_zero_iff.mp h]

theorem acquire_none_iff (db : Database) :
    (pg.acquire db).1 = .ok none ↔ pg.freeConnections = 0 := by
  refine ⟨?_, fun h => congrArg Prod.fst (acquire_of_no_free h db)⟩
  intro hacquire
  rw [freeConnections_eq_zero_iff]
  cases hfind : pg.pool.findIdx? (fun pc => !pc.inUse) with
  | none => rfl
  | some i =>
      unfold acquire at hacquire
      rw [hfind] at hacquire
      dsimp only at hacquire
      split at hacquire <;> cases hacquire

end PgAuthenticator

/-! ## What a step does to the pool -/

namespace PgThreads

variable {τ : Type}

def connections (s : PgThreads τ) (thread : τ) : Option Nat := (s.tasks thread).connection?

def loses (s : PgThreads τ) : PgEvent τ → Bool
  | .call _ _ => false
  | .finish thread db _ =>
      match s.tasks thread with
      | .authenticating _ clientId _ => !(db.selectClients clientId).committed
      | _ => false

def lost (past : List (PgThreads τ × PgEvent τ)) : Nat :=
  past.countP fun step => step.1.loses step.2

theorem lost_append (past : List (PgThreads τ × PgEvent τ)) (s : PgThreads τ) (e : PgEvent τ) :
    lost (past ++ [(s, e)]) = lost past + (s.loses e).toNat := by
  unfold lost
  rw [List.countP_append, List.countP_singleton]
  cases s.loses e <;> rfl

theorem connections_of_task {s : PgThreads τ} {thread : τ} {task : PgTask}
    (h : s.tasks thread = task) : s.connections thread = task.connection? :=
  congrArg PgTask.connection? h

theorem pool_endCheckAcl (thread : τ) (username topic : Bytes) (required : Access)
    (entry : AclCacheEntry) (s : PgThreads τ) :
    (endCheckAcl thread username topic required entry s).pg.pool = s.pg.pool := by
  unfold endCheckAcl answer
  dsimp only
  split_ifs <;> rfl

variable [DecidableEq τ]

/-- A step and the pool: the step may lose a connection. -/
inductive PoolMove (s s' : PgThreads τ) : Bool → Prop
  | keeps (pool : s'.pg.pool = s.pg.pool) (connections : s'.connections = s.connections) :
      PoolMove s s' false
  | takes {thread : τ} {db : Database} {i : Nat} (usable : s.pg.Usable db i)
      (idle : s.connections thread = none)
      (pool : s'.pg.pool = s.pg.pool.set i { inUse := true })
      (connections : s'.connections = Function.update s.connections thread (some i)) :
      PoolMove s s' false
  | returns {thread : τ} {i : Nat} (uses : s.connections thread = some i)
      (pool : s'.pg.pool = (s.pg.release i).pool)
      (connections : s'.connections = Function.update s.connections thread none) :
      PoolMove s s' false
  | loses {thread : τ} {i : Nat} (uses : s.connections thread = some i)
      (pool : s'.pg.pool = s.pg.pool)
      (connections : s'.connections = Function.update s.connections thread none) :
      PoolMove s s' true

theorem connections_update {s s' : PgThreads τ} {thread : τ} (task : PgTask)
    (htasks : s'.tasks = Function.update s.tasks thread task) :
    s'.connections = Function.update s.connections thread task.connection? := by
  funext thread'
  unfold connections
  rw [htasks]
  exact Function.apply_update (fun _ => PgTask.connection?) s.tasks thread task thread'

theorem poolMove_beginAuthenticate {s : PgThreads τ} {thread : τ}
    (hidle : s.tasks thread = .idle) (db : AccountDatabase) (clientId password : Bytes) :
    PoolMove s (beginAuthenticate thread db clientId password s) false := by
  unfold beginAuthenticate
  rcases PgAuthenticator.acquire_cases db.toDatabase s.pg with
    ⟨i, hi, hsome⟩ | hnone | ⟨what, herror⟩
  · rw [hsome]
    exact .takes hi (connections_of_task hidle) rfl
      (connections_update (.authenticating i clientId password) rfl)
  · rw [hnone]
    exact .keeps rfl rfl
  · rw [herror]
    exact .keeps rfl rfl

theorem beginAuthenticate_refused {s : PgThreads τ} (h : s.pg.freeConnections = 0)
    {thread : τ} (db : AccountDatabase) (clientId password : Bytes) :
    beginAuthenticate thread db clientId password s =
      s.answer thread (.authenticate (.ok {})) := by
  unfold beginAuthenticate
  rw [PgAuthenticator.acquire_of_no_free h]

theorem poolMove_beginLoad {s : PgThreads τ} {thread : τ} (hidle : s.tasks thread = .idle)
    (db : Database) (username topic : Bytes) (required : Access) :
    PoolMove s (beginLoad thread db username topic required s) false := by
  unfold beginLoad
  rcases PgAuthenticator.acquire_cases db s.pg with ⟨i, hi, hsome⟩ | hnone | ⟨what, herror⟩
  · rw [hsome]
    exact .takes hi (connections_of_task hidle) rfl
      (connections_update (.loading i username topic required) rfl)
  · rw [hnone]
    exact .keeps (pool_endCheckAcl ..) rfl
  · rw [herror]
    exact .keeps rfl rfl

theorem poolMove_beginCheckAcl {s : PgThreads τ} {thread : τ} (hidle : s.tasks thread = .idle)
    (db : Database) (now : Int) (username topic : Bytes) (required : Access) :
    PoolMove s (beginCheckAcl thread db now username topic required s) false := by
  unfold beginCheckAcl
  split
  · exact .keeps rfl rfl
  · exact poolMove_beginLoad hidle db username topic required

theorem poolMove_finish (digest : Bytes → Bytes) (thread : τ) (db : AccountDatabase) (now : Int)
    (s : PgThreads τ) :
    PoolMove s (finish digest thread db now s) (s.loses (.finish thread db now)) := by
  unfold finish loses
  cases htask : s.tasks thread with
  | idle =>
      dsimp only
      rw [htask]
      exact .keeps rfl rfl
  | authenticating i clientId password =>
      have huses : s.connections thread = some i := connections_of_task htask
      dsimp only
      rw [htask]
      dsimp only
      cases (db.selectClients clientId).committed with
      | true => exact .returns huses rfl (connections_update .idle rfl)
      | false => exact .loses huses rfl (connections_update .idle rfl)
  | loading i username topic required =>
      have huses : s.connections thread = some i := connections_of_task htask
      dsimp only
      rw [htask]
      exact .returns huses (pool_endCheckAcl ..) (connections_update .idle rfl)

theorem poolMove_step (digest : Bytes → Bytes) {s : PgThreads τ} {e : PgEvent τ}
    (henabled : s.Enabled e) : PoolMove s (step digest s e) (s.loses e) := by
  cases e with
  | call thread call =>
      obtain ⟨db, now, ⟨clientId, username, password⟩ | ⟨username, topic, required⟩⟩ := call
      · exact poolMove_beginAuthenticate henabled.1 db clientId password
      · exact poolMove_beginCheckAcl henabled.1 db.toDatabase now username topic required
  | finish thread db now => exact poolMove_finish digest thread db now s

end PgThreads

/-! ## The balance of the pool -/

namespace PgThreads

variable {τ : Type} [Fintype τ]

def busy (connections : τ → Option Nat) : Finset τ :=
  Finset.univ.filter fun thread => (connections thread).isSome

/-- Two threads never use one connection, a connection that a thread uses is marked, and
every connection is free, used by a thread or lost. -/
structure Balanced (poolSize lost : Nat) (s : PgThreads τ) : Prop where
  exclusive : ∀ thread thread' i, s.connections thread = some i →
    s.connections thread' = some i → thread = thread'
  marked : ∀ thread i, s.connections thread = some i → s.pg.pool[i]? = some { inUse := true }
  balance : s.pg.freeConnections + (busy s.connections).card + lost = poolSize

theorem balanced_create (poolSize : Nat) (cacheTtl : Int) :
    ({ pg := .create poolSize cacheTtl } : PgThreads τ).Balanced poolSize 0 := by
  refine ⟨?_, ?_, ?_⟩
  · intro thread thread' i huses
    cases huses
  · intro thread i huses
    cases huses
  · simp [PgAuthenticator.freeConnections, PgAuthenticator.create, List.countP_replicate, busy,
      connections, PgTask.connection?]

variable [DecidableEq τ]

theorem card_busy_take {connections : τ → Option Nat} {thread : τ}
    (hidle : connections thread = none) (i : Nat) :
    (busy (Function.update connections thread (some i))).card = (busy connections).card + 1 := by
  have hbusy : busy (Function.update connections thread (some i)) =
      insert thread (busy connections) := by
    ext thread'
    by_cases heq : thread' = thread
    · simp [busy, heq]
    · simp [busy, heq]
  rw [hbusy, Finset.card_insert_of_notMem]
  simp [busy, hidle]

theorem card_busy_give {connections : τ → Option Nat} {thread : τ} {i : Nat}
    (huses : connections thread = some i) :
    (busy (Function.update connections thread none)).card + 1 = (busy connections).card := by
  have hbusy : busy (Function.update connections thread none) =
      (busy connections).erase thread := by
    ext thread'
    by_cases heq : thread' = thread
    · simp [busy, heq]
    · simp [busy, heq]
  rw [hbusy, Finset.card_erase_add_one]
  simp [busy, huses]

/-- The two first parts after a thread is done with its connection, when the pool marks
the connections it marked before except perhaps this one. -/
theorem Balanced.give {poolSize lost : Nat} {s s' : PgThreads τ} {thread : τ} {i : Nat}
    (h : s.Balanced poolSize lost) (huses : s.connections thread = some i)
    (hconnections : s'.connections = Function.update s.connections thread none)
    (hpool : ∀ j, j ≠ i → s'.pg.pool[j]? = s.pg.pool[j]?) :
    (∀ thread₁ thread₂ j, s'.connections thread₁ = some j → s'.connections thread₂ = some j →
      thread₁ = thread₂) ∧
    ∀ thread' j, s'.connections thread' = some j → s'.pg.pool[j]? = some { inUse := true } := by
  have hold : ∀ thread' j, s'.connections thread' = some j →
      thread' ≠ thread ∧ s.connections thread' = some j := by
    intro thread' j huses'
    rw [hconnections] at huses'
    by_cases heq : thread' = thread
    · subst heq
      simp at huses'
    · rw [Function.update_of_ne heq] at huses'
      exact ⟨heq, huses'⟩
  refine ⟨?_, ?_⟩
  · intro thread₁ thread₂ j h₁ h₂
    exact h.exclusive thread₁ thread₂ j (hold _ _ h₁).2 (hold _ _ h₂).2
  · intro thread' j huses'
    obtain ⟨hne, hbefore⟩ := hold thread' j huses'
    rw [hpool j]
    · exact h.marked thread' j hbefore
    · rintro rfl
      exact hne (h.exclusive thread' thread j hbefore huses)

theorem Balanced.take {poolSize lost : Nat} {s s' : PgThreads τ} {thread : τ} {db : Database}
    {i : Nat} (h : s.Balanced poolSize lost) (husable : s.pg.Usable db i)
    (hidle : s.connections thread = none)
    (hpool : s'.pg.pool = s.pg.pool.set i { inUse := true })
    (hconnections : s'.connections = Function.update s.connections thread (some i)) :
    s'.Balanced poolSize lost := by
  obtain ⟨hi, hfree⟩ := PgAuthenticator.free_of_usable husable
  -- The connection was free, so no thread used it.
  have hunused : ∀ thread', s.connections thread' ≠ some i := by
    intro thread' huses
    have hmarked := h.marked thread' i huses
    rw [List.getElem?_eq_getElem hi, hfree] at hmarked
    cases hmarked
  have hcases : ∀ thread' j, s'.connections thread' = some j →
      thread' = thread ∧ j = i ∨ thread' ≠ thread ∧ j ≠ i ∧ s.connections thread' = some j := by
    intro thread' j huses
    rw [hconnections] at huses
    by_cases heq : thread' = thread
    · subst heq
      rw [Function.update_self] at huses
      exact Or.inl ⟨rfl, (Option.some.inj huses).symm⟩
    · rw [Function.update_of_ne heq] at huses
      refine Or.inr ⟨heq, ?_, huses⟩
      rintro rfl
      exact hunused thread' huses
  refine ⟨?_, ?_, ?_⟩
  · intro thread₁ thread₂ j h₁ h₂
    rcases hcases thread₁ j h₁ with ⟨rfl, rfl⟩ | ⟨_, hne, hold₁⟩
    · rcases hcases thread₂ j h₂ with ⟨rfl, _⟩ | ⟨_, hne, _⟩
      · rfl
      · exact absurd rfl hne
    · rcases hcases thread₂ j h₂ with ⟨_, rfl⟩ | ⟨_, _, hold₂⟩
      · exact absurd rfl hne
      · exact h.exclusive thread₁ thread₂ j hold₁ hold₂
  · intro thread' j huses
    rw [hpool]
    rcases hcases thread' j huses with ⟨_, rfl⟩ | ⟨_, hne, hold⟩
    · rw [List.getElem?_set_self hi]
    · rw [List.getElem?_set_ne hne.symm]
      exact h.marked thread' j hold
  · have htaken : s'.pg.freeConnections + 1 = s.pg.freeConnections := by
      rw [← PgAuthenticator.freeConnections_acquired husable]
      unfold PgAuthenticator.freeConnections
      rw [hpool]
    have hbalance := h.balance
    rw [hconnections, card_busy_take hidle]
    omega

theorem Balanced.move {poolSize lost : Nat} {s s' : PgThreads τ} {loses : Bool}
    (h : s.Balanced poolSize lost) (hmove : PoolMove s s' loses) :
    s'.Balanced poolSize (lost + loses.toNat) := by
  have hbalance := h.balance
  cases hmove with
  | keeps hpool hconnections =>
      refine ⟨?_, ?_, ?_⟩
      · rw [hconnections]
        exact h.exclusive
      · rw [hconnections, hpool]
        exact h.marked
      · unfold PgAuthenticator.freeConnections
        rw [hconnections, hpool]
        exact hbalance
  | takes husable hidle hpool hconnections => exact h.take husable hidle hpool hconnections
  | @returns thread i huses hpool hconnections =>
      obtain ⟨hexclusive, hmarked⟩ := h.give huses hconnections (by
        intro j hne
        rw [hpool, PgAuthenticator.pool_release, List.getElem?_set_ne hne.symm])
      refine ⟨hexclusive, hmarked, ?_⟩
      have hfreed := PgAuthenticator.freeConnections_release (h.marked thread i huses)
      have hgiven := card_busy_give huses
      unfold PgAuthenticator.freeConnections at hfreed hbalance ⊢
      rw [hpool, hconnections, hfreed]
      simp only [Bool.toNat_false]
      omega
  | @loses thread i huses hpool hconnections =>
      obtain ⟨hexclusive, hmarked⟩ := h.give huses hconnections (by
        intro j _
        rw [hpool])
      refine ⟨hexclusive, hmarked, ?_⟩
      have hgiven := card_busy_give huses
      unfold PgAuthenticator.freeConnections at hbalance ⊢
      rw [hpool, hconnections]
      simp only [Bool.toNat_true]
      omega

theorem balanced_of_reachable {digest : Bytes → Bytes} {poolSize : Nat} {cacheTtl : Int}
    {s : PgThreads τ} {past : List (PgThreads τ × PgEvent τ)}
    (h : (pgThreads τ digest poolSize cacheTtl).recorded.Reachable (s, past)) :
    s.Balanced poolSize (lost past) := by
  refine h.of_past (P := fun past s => s.Balanced poolSize (lost past)) ?_ ?_
  · rintro s rfl
    exact balanced_create poolSize cacheTtl
  · intro past s e _ hbalanced henabled
    rw [lost_append]
    exact hbalanced.move (poolMove_step digest henabled)

end PgThreads

/-- Two threads never use one connection.  Every connection of the pool is free, used by a
thread or lost by an `authenticate` whose transaction threw, so a call finds none exactly when
those used and those lost are the whole pool.  When all are lost, every later `authenticate`
is refused without a look at the database. -/
theorem connections_accounted_for {τ : Type} [DecidableEq τ] [Fintype τ]
    {digest : Bytes → Bytes} {poolSize : Nat} {cacheTtl : Int} {s : PgThreads τ}
    {past : List (PgThreads τ × PgEvent τ)}
    (h : (pgThreads τ digest poolSize cacheTtl).recorded.Reachable (s, past)) :
    (∀ thread thread' i, s.connections thread = some i → s.connections thread' = some i →
      thread = thread') ∧
    s.pg.freeConnections + (PgThreads.busy s.connections).card + PgThreads.lost past =
      poolSize ∧
    (∀ db, (s.pg.acquire db).1 = .ok none ↔
      (PgThreads.busy s.connections).card + PgThreads.lost past = poolSize) ∧
    (PgThreads.lost past = poolSize →
      ∀ es s', (pgThreads τ digest poolSize cacheTtl).Run s es s' →
        ∀ thread db now clientId username password,
          s'.step digest (.call thread ⟨db, now, .authenticate clientId username password⟩) =
            s'.answer thread (.authenticate (.ok {}))) := by
  have hbalanced := PgThreads.balanced_of_reachable h
  have hbalance := hbalanced.balance
  refine ⟨hbalanced.exclusive, hbalance, ?_, ?_⟩
  · intro db
    rw [PgAuthenticator.acquire_none_iff]
    omega
  · intro hall es s' hrun thread db now clientId username password
    obtain ⟨later, hlater⟩ := h.run_recorded hrun
    have hbalance' := (PgThreads.balanced_of_reachable hlater).balance
    have hlost : PgThreads.lost (past ++ later) = PgThreads.lost past + PgThreads.lost later :=
      List.countP_append
    have hnone : s'.pg.freeConnections = 0 := by omega
    exact PgThreads.beginAuthenticate_refused hnone db clientId password

def losingEvents : List (PgEvent Bool) :=
  [.call false ⟨emptyDatabase false, 0, .authenticate [0x63] [0x75] [0x70]⟩,
    .finish false (emptyDatabase false) 0]

theorem connections_accounted_for_lost :
    let t := (pgThreads Bool id 1 0).recorded.after ({ pg := .create 1 0 }, []) losingEvents
    PgThreads.lost t.2 = 1 ∧
    ∀ es s', (pgThreads Bool id 1 0).Run t.1 es s' →
      ∀ thread db now clientId username password,
        s'.step id (.call thread ⟨db, now, .authenticate clientId username password⟩) =
          s'.answer thread (.authenticate (.ok {})) := by
  intro t
  have hreachable : (pgThreads Bool id 1 0).recorded.Reachable t := by
    have hinit : (pgThreads Bool id 1 0).recorded.init ({ pg := .create 1 0 }, []) := ⟨rfl, rfl⟩
    refine .of_allowed hinit ⟨⟨rfl, ?_⟩, ?_, trivial⟩
    · intro username topic required hcall
      cases hcall
    · intro hidle
      cases hidle
  exact ⟨rfl, (connections_accounted_for hreachable).2.2.2 rfl⟩

end JellyBroker.Auth
