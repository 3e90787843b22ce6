import JellyBroker.Auth.PoolUsage
import JellyBroker.Lib.Transition
/-!
# The age of cached rules

`check_acl` keeps what it has loaded for a user, also after a failed load, whose entry
has expired from the start.  A run of calls is observed together with the loads it
has made, so that a cached entry can be traced back to its load.
-/

namespace JellyBroker.Auth

open JellyBroker.Lib

namespace PgAuthenticator

/-- The call has to load the rules: there is no cache, or no valid entry in it. -/
def needsLoad (now : Int) (pg : PgAuthenticator) (username : Bytes) : Bool :=
  decide (pg.cacheTtl ≤ 0) || (pg.cached? now username).isNone

/-- A load gets a connection, and its transaction is committed. -/
def loadSucceeds (db : Database) (pg : PgAuthenticator) (username : Bytes) : Bool :=
  match (pg.acquire db).1 with
  | .ok (some _) => (db.selectAcls username).committed
  | _ => false

end PgAuthenticator

/-- A call of `check_acl`: the database and the time that it finds when it looks into
the cache, and the pool, which it shares with other calls. -/
structure AclCall where
  db : Database
  pool : List PooledConnection
  now : Int
  username : Bytes
  topic : Bytes
  required : Access

structure AclLoad where
  username : Bytes
  /-- The time at its end. -/
  finished : Int
  succeeded : Bool
  rules : List (Bytes × Access)

namespace AclCall

def found (call : AclCall) (pg : PgAuthenticator) : PgAuthenticator := { pg with pool := call.pool }

def loads (call : AclCall) (pg : PgAuthenticator) : Bool :=
  (call.found pg).needsLoad call.now call.username

def rules (call : AclCall) (pg : PgAuthenticator) : Except String AclCacheEntry :=
  ((call.found pg).currentRules call.db call.now call.username).1

def load? (call : AclCall) (pg : PgAuthenticator) : Option AclLoad :=
  match call.loads pg, call.rules pg with
  | true, .ok entry =>
      some {
        username := call.username
        finished := call.now + call.db.loadTicks
        succeeded := (call.found pg).loadSucceeds call.db call.username
        rules := entry.rules }
  | _, _ => none

/-- The time from which the next call can look into the cache.  The mutex of the cache
is held to the end of a load. -/
def released (call : AclCall) (pg : PgAuthenticator) : Int :=
  if 0 < pg.cacheTtl ∧ call.loads pg = true then call.now + call.db.loadTicks else call.now

end AclCall

structure CacheState where
  pg : PgAuthenticator
  clock : Int

/-- Calls at times that do not decrease, after the epoch of the clock. -/
def aclCalls (cacheTtl : Int) : System CacheState AclCall where
  init s := s.pg.cacheTtl = cacheTtl ∧ s.pg.aclCache = ∅ ∧ 0 ≤ s.clock
  enabled s call := s.clock ≤ call.now
  step s call :=
    { pg := ((call.found s.pg).checkAcl call.db call.now call.username call.topic
        call.required).2
      clock := call.released s.pg }

def aclHistory (cacheTtl : Int) : System (CacheState × List AclLoad) AclCall :=
  (aclCalls cacheTtl).watch [] fun s call _ history => (call.load? s.pg).toList ++ history

instance (cacheTtl : Int) (p : CacheState × List AclLoad) (call : AclCall) :
    Decidable ((aclHistory cacheTtl).enabled p call) :=
  inferInstanceAs (Decidable (p.1.clock ≤ call.now))

def lastLoad (username : Bytes) (history : List AclLoad) : Option AclLoad :=
  history.find? (·.username = username)

/-! ## One call -/

namespace PgAuthenticator

variable {db : Database} {now : Int} {pg : PgAuthenticator} {username : Bytes}

theorem expiry_loadAclRules {entry : AclCacheEntry} (httl : 0 < pg.cacheTtl)
    (h : (pg.loadAclRules db now username).1 = .ok entry) :
    entry.expiry = if pg.loadSucceeds db username then
      now + db.loadTicks + pg.cacheTtl * second else 0 := by
  unfold loadAclRules at h
  unfold loadSucceeds
  by_cases husable : ∃ i, pg.Usable db i
  · obtain ⟨i, hi⟩ := husable
    rw [acquire_of_usable hi] at h ⊢
    dsimp only at h ⊢
    cases hcommitted : (db.selectAcls username).committed with
    | false =>
        rw [hcommitted] at h
        cases h
        rfl
    | true =>
        rw [hcommitted, if_neg (by decide), if_pos httl] at h
        cases h
        rfl
  · rcases acquire_of_not_usable (fun i hi => husable ⟨i, hi⟩) with hnone | ⟨what, herror⟩
    · rw [hnone] at h ⊢
      cases h
      rfl
    · rw [herror] at h
      cases h

theorem currentRules_of_not_needsLoad (db : Database) (h : pg.needsLoad now username = false) :
    ∃ entry, pg.cached? now username = some entry ∧
      pg.currentRules db now username = (.ok entry, pg) := by
  unfold needsLoad at h
  rw [Bool.or_eq_false_iff] at h
  have httl : pg.cacheTtl > 0 := not_le.mp (of_decide_eq_false h.1)
  unfold currentRules
  rw [if_pos httl]
  cases hcached : pg.cached? now username with
  | none =>
      rw [hcached] at h
      cases h.2
  | some entry => exact ⟨entry, rfl, rfl⟩

def afterLoad (pg : PgAuthenticator) (username : Bytes) :
    Except String AclCacheEntry → PgAuthenticator
  | .ok entry =>
      if 0 < pg.cacheTtl then { pg with aclCache := pg.aclCache.insert username entry } else pg
  | .error _ => pg

theorem currentRules_of_needsLoad (db : Database) (h : pg.needsLoad now username = true) :
    pg.currentRules db now username =
      ((pg.loadAclRules db now username).1,
        pg.afterLoad username (pg.loadAclRules db now username).1) := by
  have hsame := loadAclRules_snd db now pg username
  unfold needsLoad at h
  unfold currentRules
  generalize pg.loadAclRules db now username = loaded at hsame
  obtain ⟨answer, pg'⟩ := loaded
  change pg' = pg at hsame
  subst hsame
  by_cases httl : pg'.cacheTtl > 0
  · have hcached : pg'.cached? now username = none := by
      rw [decide_eq_false (not_le.mpr httl), Bool.false_or, Option.isNone_iff_eq_none] at h
      exact h
    rw [if_pos httl, hcached]
    cases answer with
    | error what => rfl
    | ok entry =>
        dsimp only [afterLoad]
        rw [if_pos httl]
  · rw [if_neg httl]
    cases answer with
    | error what => rfl
    | ok entry =>
        dsimp only [afterLoad]
        rw [if_neg httl]

theorem checkAcl_snd (db : Database) (now : Int) (pg : PgAuthenticator) (username topic : Bytes)
    (required : Access) :
    (pg.checkAcl db now username topic required).2 = (pg.currentRules db now username).2 := by
  unfold checkAcl
  generalize pg.currentRules db now username = current
  obtain ⟨_ | _, _⟩ := current <;> rfl

end PgAuthenticator

namespace AclCall

variable {call : AclCall} {pg : PgAuthenticator}

def leaves (call : AclCall) (pg : PgAuthenticator) : PgAuthenticator :=
  ((call.found pg).checkAcl call.db call.now call.username call.topic call.required).2

theorem hit (h : call.loads pg = false) :
    ∃ entry, pg.cached? call.now call.username = some entry ∧ call.rules pg = .ok entry ∧
      call.leaves pg = call.found pg ∧ call.load? pg = none := by
  obtain ⟨entry, hcached, hcurrent⟩ := PgAuthenticator.currentRules_of_not_needsLoad call.db h
  refine ⟨entry, hcached, ?_, ?_, ?_⟩
  · rw [rules, hcurrent]
  · rw [leaves, PgAuthenticator.checkAcl_snd, hcurrent]
  · rw [load?, h]

theorem miss (h : call.loads pg = true) :
    call.rules pg = ((call.found pg).loadAclRules call.db call.now call.username).1 ∧
      call.leaves pg = (call.found pg).afterLoad call.username (call.rules pg) := by
  have hcurrent := PgAuthenticator.currentRules_of_needsLoad call.db h
  have hrules : call.rules pg =
      ((call.found pg).loadAclRules call.db call.now call.username).1 := by
    rw [rules, hcurrent]
  refine ⟨hrules, ?_⟩
  rw [leaves, PgAuthenticator.checkAcl_snd, hcurrent, ← hrules]

theorem load?_of_ok (h : call.loads pg = true) {entry : AclCacheEntry}
    (hrules : call.rules pg = .ok entry) :
    ∃ load, call.load? pg = some load ∧ load.username = call.username ∧
      load.finished = call.now + call.db.loadTicks ∧
      load.succeeded = (call.found pg).loadSucceeds call.db call.username ∧
      load.rules = entry.rules := by
  rw [load?, h, hrules]
  exact ⟨_, rfl, rfl, rfl, rfl, rfl⟩

theorem load?_of_error {what : String} (hrules : call.rules pg = .error what) :
    call.load? pg = none := by
  rw [load?, hrules]
  cases call.loads pg <;> rfl

theorem answer_of_rules {entry : AclCacheEntry} (h : call.rules pg = .ok entry) :
    ((call.found pg).checkAcl call.db call.now call.username call.topic call.required).1 =
      .ok (PgAuthenticator.grantedAccess call.topic call.required entry.rules) := by
  unfold rules at h
  unfold PgAuthenticator.checkAcl
  generalize (call.found pg).currentRules call.db call.now call.username = current at h ⊢
  obtain ⟨answer, pg'⟩ := current
  subst h
  rfl

theorem now_le_released (call : AclCall) (pg : PgAuthenticator) : call.now ≤ call.released pg := by
  unfold released
  split_ifs <;> omega

end AclCall

/-! ## Runs -/

/-- Every entry of the cache is the latest load of its user, and has an expiry only if
that load succeeded. -/
structure CacheSound (cacheTtl : Int) (s : CacheState) (history : List AclLoad) : Prop where
  ttl : s.pg.cacheTtl = cacheTtl
  off : cacheTtl ≤ 0 → s.pg.aclCache = ∅
  clock : 0 ≤ s.clock
  entry : ∀ username entry, s.pg.aclCache.lookup username = some entry →
    ∃ load, lastLoad username history = some load ∧ load.rules = entry.rules ∧
      load.finished ≤ s.clock ∧
      entry.expiry =
        if load.succeeded then load.finished + cacheTtl * PgAuthenticator.second else 0

namespace CacheSound

variable {cacheTtl : Int} {s : CacheState} {history : List AclLoad} {call : AclCall}

theorem start (h : (aclCalls cacheTtl).init s) : CacheSound cacheTtl s [] where
  ttl := h.1
  off _ := h.2.1
  clock := h.2.2
  entry username entry hlookup := by
    rw [h.2.1] at hlookup
    cases hlookup

theorem later (h : CacheSound cacheTtl s history) {clock : Int} (hclock : s.clock ≤ clock)
    (pool : List PooledConnection) :
    CacheSound cacheTtl { pg := { s.pg with pool := pool }, clock := clock } history where
  ttl := h.ttl
  off := h.off
  clock := h.clock.trans hclock
  entry username entry hlookup := by
    obtain ⟨load, hlast, hrules, hfinished, hexpiry⟩ := h.entry username entry hlookup
    exact ⟨load, hlast, hrules, hfinished.trans hclock, hexpiry⟩

theorem loaded (h : CacheSound cacheTtl s history) (httl : 0 < cacheTtl) {clock : Int}
    (hclock : s.clock ≤ clock) (pool : List PooledConnection) {load : AclLoad}
    {entry : AclCacheEntry} (hrules : load.rules = entry.rules) (hfinished : load.finished ≤ clock)
    (hexpiry : entry.expiry =
      if load.succeeded then load.finished + cacheTtl * PgAuthenticator.second else 0) :
    CacheSound cacheTtl
      { pg := { s.pg with
          pool := pool, aclCache := s.pg.aclCache.insert load.username entry }
        clock := clock } (load :: history) where
  ttl := h.ttl
  off hoff := absurd hoff (not_le.mpr httl)
  clock := h.clock.trans hclock
  entry username entry' hlookup := by
    change Finmap.lookup username (Finmap.insert load.username entry s.pg.aclCache) =
      some entry' at hlookup
    rw [Map.lookup_insert_ite] at hlookup
    split_ifs at hlookup with hsame
    · cases hlookup
      refine ⟨load, ?_, hrules, hfinished, hexpiry⟩
      rw [lastLoad, List.find?_cons_of_pos (by simpa using hsame.symm)]
    · obtain ⟨load', hlast, hrules', hfinished', hexpiry'⟩ := h.entry username entry' hlookup
      refine ⟨load', ?_, hrules', hfinished'.trans hclock, hexpiry'⟩
      rw [lastLoad, List.find?_cons_of_neg (by simpa using Ne.symm hsame)]
      exact hlast

theorem step (h : CacheSound cacheTtl s history) (hnow : s.clock ≤ call.now) :
    CacheSound cacheTtl ((aclCalls cacheTtl).step s call)
      ((call.load? s.pg).toList ++ history) := by
  have hclock : s.clock ≤ call.released s.pg := hnow.trans (call.now_le_released s.pg)
  change CacheSound cacheTtl { pg := call.leaves s.pg, clock := call.released s.pg } _
  cases hloads : call.loads s.pg with
  | false =>
      obtain ⟨entry, _, _, hleaves, hnone⟩ := AclCall.hit hloads
      rw [hleaves, hnone]
      exact h.later hclock call.pool
  | true =>
      obtain ⟨hrules, hleaves⟩ := AclCall.miss hloads
      rw [hleaves]
      cases hanswer : call.rules s.pg with
      | error what =>
          rw [AclCall.load?_of_error hanswer]
          exact h.later hclock call.pool
      | ok entry =>
          obtain ⟨load, hload, husername, hfinished, hsucceeded, hentry⟩ :=
            AclCall.load?_of_ok hloads hanswer
          have httlEq : (call.found s.pg).cacheTtl = cacheTtl := h.ttl
          rw [hload, PgAuthenticator.afterLoad]
          split_ifs with httl
          · have hexpiry := PgAuthenticator.expiry_loadAclRules httl (hrules.symm.trans hanswer)
            rw [← hsucceeded, ← hfinished, httlEq] at hexpiry
            rw [httlEq] at httl
            rw [← husername]
            apply h.loaded httl hclock call.pool hentry _ hexpiry
            have hpos : 0 < s.pg.cacheTtl := h.ttl ▸ httl
            rw [hfinished, AclCall.released, if_pos ⟨hpos, hloads⟩]
          · rw [httlEq] at httl
            have hempty : s.pg.aclCache = ∅ := h.off (not_lt.mp httl)
            refine ⟨h.ttl, fun _ => hempty, h.clock.trans hclock, ?_⟩
            intro username entry' hlookup
            change s.pg.aclCache.lookup username = some entry' at hlookup
            rw [hempty] at hlookup
            cases hlookup

theorem of_reachable {p : CacheState × List AclLoad} (h : (aclHistory cacheTtl).Reachable p) :
    CacheSound cacheTtl p.1 p.2 := by
  refine h.invariant (P := fun p => CacheSound cacheTtl p.1 p.2) ?_ ?_
  · intro p hinit
    rw [hinit.2]
    exact start hinit.1
  · intro p call hsound henabled
    exact hsound.step henabled

theorem fresh (h : CacheSound cacheTtl s history) {now : Int} (hnow : s.clock ≤ now)
    {username : Bytes} {entry : AclCacheEntry} (hcached : s.pg.cached? now username = some entry) :
    ∃ load, lastLoad username history = some load ∧ load.succeeded = true ∧
      load.rules = entry.rules ∧ load.finished ≤ now ∧
      now < load.finished + cacheTtl * PgAuthenticator.second := by
  obtain ⟨hlookup, hvalid⟩ := Option.filter_eq_some_iff.mp hcached
  have hexpiry : now < entry.expiry := of_decide_eq_true hvalid
  obtain ⟨load, hlast, hrules, hfinished, hentry⟩ := h.entry username entry hlookup
  have hclock := h.clock
  cases hsucceeded : load.succeeded with
  | false =>
      -- The epoch is not in the future.
      rw [hentry, hsucceeded] at hexpiry
      change now < 0 at hexpiry
      omega
  | true =>
      rw [hentry, hsucceeded] at hexpiry
      exact ⟨load, hlast, hsucceeded, hrules, hfinished.trans hnow, hexpiry⟩

end CacheSound

/-- Whatever calls have been made, the rules that the next call works with are loaded in
that call, or they are those of the latest load for the same user, which succeeded and
ended at most `cache_ttl` seconds ago.  After a failed load, and without a cache, the
next call loads. -/
theorem acl_cache_bounded (cacheTtl : Int) (p : CacheState × List AclLoad)
    (h : (aclHistory cacheTtl).Reachable p) (call : AclCall)
    (hnow : (aclHistory cacheTtl).enabled p call) :
    (∀ entry, call.rules p.1.pg = .ok entry →
      ((call.found p.1.pg).checkAcl call.db call.now call.username call.topic call.required).1 =
          .ok (PgAuthenticator.grantedAccess call.topic call.required entry.rules) ∧
        (call.loads p.1.pg = true ∧
            ((call.found p.1.pg).loadAclRules call.db call.now call.username).1 = .ok entry ∨
          ∃ load, lastLoad call.username p.2 = some load ∧ load.succeeded = true ∧
            load.rules = entry.rules ∧ load.finished ≤ call.now ∧
            call.now < load.finished + cacheTtl * PgAuthenticator.second)) ∧
    (∀ load, lastLoad call.username p.2 = some load → load.succeeded = false →
      call.loads p.1.pg = true) ∧
    (cacheTtl = 0 → call.loads p.1.pg = true) := by
  have hsound := CacheSound.of_reachable h
  refine ⟨?_, ?_, ?_⟩
  · intro entry hrules
    refine ⟨AclCall.answer_of_rules hrules, ?_⟩
    cases hloads : call.loads p.1.pg with
    | true => exact Or.inl ⟨rfl, (AclCall.miss hloads).1.symm.trans hrules⟩
    | false =>
        obtain ⟨entry', hcached, hrules', _⟩ := AclCall.hit hloads
        have hsame : entry' = entry := Except.ok.inj (hrules'.symm.trans hrules)
        rw [hsame] at hcached
        exact Or.inr (hsound.fresh hnow hcached)
  · intro load hlast hfailed
    by_contra hloads
    obtain ⟨entry, hcached, _⟩ := AclCall.hit (Bool.eq_false_iff.mpr hloads)
    obtain ⟨load', hlast', hsucceeded, _⟩ := hsound.fresh hnow hcached
    have hsame : load' = load := Option.some.inj (hlast'.symm.trans hlast)
    rw [hsame, hfailed] at hsucceeded
    cases hsucceeded
  · intro hoff
    have httl : (call.found p.1.pg).cacheTtl ≤ 0 := hsound.ttl.trans_le hoff.le
    unfold AclCall.loads PgAuthenticator.needsLoad
    rw [decide_eq_true httl, Bool.true_or]

def sampleAclCall (now : Int) (committed : Bool) : AclCall where
  db :=
    { isOpen := fun _ => true
      connectError := none
      selectAcls := fun _ => ⟨[([0x61], 1)], committed⟩
      loadTicks := 2 }
  pool := [{}]
  now := now
  username := [0x75]
  topic := [0x61]
  required := .read

def sampleHistory : CacheState × List AclLoad :=
  (aclHistory 10).after (⟨PgAuthenticator.create 1 10, 0⟩, [])
    [sampleAclCall 5 false, sampleAclCall 20 true]

theorem sampleHistory_reachable : (aclHistory 10).Reachable sampleHistory := by
  apply System.Reachable.of_allowed
  · exact ⟨⟨rfl, rfl, le_refl 0⟩, rfl⟩
  · exact ⟨by decide, by decide +kernel, trivial⟩

theorem acl_cache_bounded_hit :
    (sampleAclCall 30 true).loads sampleHistory.1.pg = false ∧
      ∃ load, lastLoad [0x75] sampleHistory.2 = some load ∧ load.succeeded = true ∧
        load.rules = [([0x61], .read)] ∧ load.finished ≤ 30 ∧
        30 < load.finished + 10 * PgAuthenticator.second := by
  have hhit : (sampleAclCall 30 true).loads sampleHistory.1.pg = false := by decide +kernel
  refine ⟨hhit, ?_⟩
  have hentry : (sampleAclCall 30 true).rules sampleHistory.1.pg =
      .ok ⟨[([0x61], .read)], 22 + 10 * PgAuthenticator.second⟩ := by decide +kernel
  obtain ⟨_, ⟨hloads, _⟩ | hload⟩ := (acl_cache_bounded 10 sampleHistory sampleHistory_reachable
    (sampleAclCall 30 true) (by decide +kernel)).1 _ hentry
  · rw [hhit] at hloads
    cases hloads
  · exact hload

end JellyBroker.Auth
