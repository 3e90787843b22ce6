import JellyBroker.Auth.PoolUsage
import JellyBroker.Topic.Coverage
import JellyBroker.Topic.Lookup
/-!
# What a READ grant on a filter covers

`handle_subscribe` asks `check_acl` for READ on the filter string, as if it
were a topic name.  The first half reduces the answers of an authenticator
that serves one rule table to the table.  The second half compares the answer
for a filter with the answers for the topics the filter is sent.
-/

namespace JellyBroker.Auth

open JellyBroker.Topic

structure AclRow where
  username : Bytes
  topicFilter : Bytes
  access : Int

def rulesOf (table : List AclRow) (username : Bytes) : List (Bytes × Access) :=
  ((table.filter (·.username = username)).map fun row => (row.topicFilter, row.access)).map
    PgAuthenticator.ruleOfRow

structure Database.Answers (db : Database) (table : List AclRow) : Prop where
  connects : db.connectError = none
  committed : ∀ username, (db.selectAcls username).committed = true
  rows : ∀ username,
    (db.selectAcls username).rows.map PgAuthenticator.ruleOfRow = rulesOf table username

/-- The states of an authenticator that has only served `check_acl` calls on
one table. -/
inductive Serving (table : List AclRow) : PgAuthenticator → Prop
  | create {poolSize : Nat} (hpool : 0 < poolSize) (cacheTtl : Int) :
      Serving table (.create poolSize cacheTtl)
  | checkAcl {pg : PgAuthenticator} {db : Database} (h : Serving table pg)
      (hdb : db.Answers table) (now : Int) (username topic : Bytes) (required : Access) :
      Serving table (pg.checkAcl db now username topic required).2

/-- Every connection is free, and the cache holds nothing but the table. -/
structure Coherent (table : List AclRow) (pg : PgAuthenticator) : Prop where
  nonempty : pg.pool ≠ []
  free : ∀ pc ∈ pg.pool, pc.inUse = false
  cached : ∀ username entry, pg.aclCache.lookup username = some entry →
    entry.rules = rulesOf table username

def Grants (answer : Except String Access) : Prop :=
  ∃ access, answer = .ok access ∧ access ≠ .none

/-! ## Answers of a serving authenticator -/

theorem usable_of_coherent {table : List AclRow} {pg : PgAuthenticator}
    (h : Coherent table pg) {db : Database} (hdb : db.Answers table) : pg.Usable db 0 := by
  obtain ⟨pc, rest, hpool⟩ := List.exists_cons_of_ne_nil h.nonempty
  have hfree : pc.inUse = false := h.free pc (by rw [hpool]; simp)
  refine ⟨?_, Or.inr hdb.connects⟩
  rw [hpool, List.findIdx?_cons]
  simp [hfree]

theorem loadAclRules_of_coherent {table : List AclRow} {pg : PgAuthenticator}
    (h : Coherent table pg) {db : Database} (hdb : db.Answers table) (now : Int)
    (username : Bytes) :
    ∃ entry, pg.loadAclRules db now username = (.ok entry, pg) ∧
      entry.rules = rulesOf table username := by
  have husable := usable_of_coherent h hdb
  unfold PgAuthenticator.loadAclRules
  rw [PgAuthenticator.acquire_of_usable husable]
  simp only [hdb.committed, hdb.rows, PgAuthenticator.release_acquired husable]
  by_cases httl : pg.cacheTtl > 0
  · refine ⟨⟨rulesOf table username,
      now + db.loadTicks + pg.cacheTtl * PgAuthenticator.second⟩, ?_, rfl⟩
    simp [httl]
  · refine ⟨⟨rulesOf table username, 0⟩, ?_, rfl⟩
    simp [httl]

theorem currentRules_of_coherent {table : List AclRow} {pg : PgAuthenticator}
    (h : Coherent table pg) {db : Database} (hdb : db.Answers table) (now : Int)
    (username : Bytes) :
    ∃ entry, (pg.currentRules db now username).1 = .ok entry ∧
      entry.rules = rulesOf table username ∧
      Coherent table (pg.currentRules db now username).2 := by
  obtain ⟨loaded, hload, hrules⟩ := loadAclRules_of_coherent h hdb now username
  unfold PgAuthenticator.currentRules
  split_ifs with httl
  · cases hcached : pg.cached? now username with
    | some entry =>
        have hlookup : pg.aclCache.lookup username = some entry :=
          (Option.filter_eq_some_iff.mp hcached).1
        exact ⟨entry, rfl, h.cached username entry hlookup, h⟩
    | none =>
        rw [hload]
        refine ⟨loaded, rfl, hrules, h.nonempty, h.free, ?_⟩
        intro other entry hlookup
        rw [Lib.Map.lookup_insert_ite] at hlookup
        split_ifs at hlookup with heq
        · rw [← Option.some.inj hlookup, heq]
          exact hrules
        · exact h.cached other entry hlookup
  · rw [hload]
    exact ⟨loaded, rfl, hrules, h⟩

theorem checkAcl_of_coherent {table : List AclRow} {pg : PgAuthenticator}
    (h : Coherent table pg) {db : Database} (hdb : db.Answers table) (now : Int)
    (username topic : Bytes) (required : Access) :
    (pg.checkAcl db now username topic required).1 =
        .ok (PgAuthenticator.grantedAccess topic required (rulesOf table username)) ∧
      Coherent table (pg.checkAcl db now username topic required).2 := by
  obtain ⟨entry, hanswer, hrules, hcoherent⟩ := currentRules_of_coherent h hdb now username
  unfold PgAuthenticator.checkAcl
  generalize pg.currentRules db now username = current at hanswer hcoherent
  obtain ⟨answer, pg'⟩ := current
  subst hanswer
  rw [← hrules]
  exact ⟨rfl, hcoherent⟩

theorem coherent_create {poolSize : Nat} (hpool : 0 < poolSize) (table : List AclRow)
    (cacheTtl : Int) : Coherent table (.create poolSize cacheTtl) where
  nonempty := by
    simp only [PgAuthenticator.create, ne_eq, List.replicate_eq_nil_iff]
    omega
  free pc hpc := by rw [List.eq_of_mem_replicate hpc]
  cached username entry hlookup := by simp [PgAuthenticator.create] at hlookup

theorem Serving.coherent {table : List AclRow} {pg : PgAuthenticator}
    (h : Serving table pg) : Coherent table pg := by
  induction h with
  | create hpool cacheTtl => exact coherent_create hpool table cacheTtl
  | checkAcl _ hdb now username topic required ih =>
      exact (checkAcl_of_coherent ih hdb now username topic required).2

/-! ## Decisions -/

theorem Access.eq_of_level {access access' : Access} (h : access.level = access'.level) :
    access = access' := by
  cases access
  cases access'
  exact congrArg Access.mk h

theorem le_foldl_highestAccess (level : UInt8) (topic : Bytes) (rules : List (Bytes × Access))
    (result : Access) :
    level ≤ (rules.foldl
        (fun result rule =>
          if topicMatches topic rule.1 && decide (rule.2.level > result.level) then rule.2
          else result) result).level ↔
      level ≤ result.level ∨
        ∃ rule ∈ rules, topicMatches topic rule.1 = true ∧ level ≤ rule.2.level := by
  induction rules generalizing result with
  | nil => simp
  | cons rule rules ih =>
      have hstep : level ≤ (if topicMatches topic rule.1 && decide (rule.2.level > result.level)
            then rule.2 else result).level ↔
          level ≤ result.level ∨ (topicMatches topic rule.1 = true ∧ level ≤ rule.2.level) := by
        by_cases hmatch : topicMatches topic rule.1 = true
        · simp only [hmatch, Bool.true_and, decide_eq_true_eq, true_and]
          split_ifs with hhigher
          · constructor
            · exact Or.inr
            · rintro (hle | hle)
              · exact UInt8.le_trans hle (UInt8.le_of_lt hhigher)
              · exact hle
          · constructor
            · exact Or.inl
            · rintro (hle | hle)
              · exact hle
              · exact UInt8.le_trans hle (UInt8.not_lt.mp hhigher)
        · simp [hmatch]
      rw [List.foldl_cons, ih, hstep]
      simp only [List.mem_cons, exists_eq_or_imp]
      rw [or_assoc]

theorem le_highestAccess_iff (level : UInt8) (topic : Bytes) (rules : List (Bytes × Access)) :
    level ≤ (PgAuthenticator.highestAccess topic rules).level ↔
      level = 0 ∨ ∃ rule ∈ rules, topicMatches topic rule.1 = true ∧ level ≤ rule.2.level := by
  have hfoldl := le_foldl_highestAccess level topic rules .none
  have hzero : level ≤ Access.none.level ↔ level = 0 := UInt8.le_zero_iff
  rw [hzero] at hfoldl
  exact hfoldl

/-- An access is granted by any matching rule of its level or a higher one. -/
theorem grantedAccess_ne_none_iff {required : Access} (hrequired : required ≠ .none)
    (topic : Bytes) (rules : List (Bytes × Access)) :
    PgAuthenticator.grantedAccess topic required rules ≠ .none ↔
      ∃ rule ∈ rules, topicMatches topic rule.1 = true ∧ required.level ≤ rule.2.level := by
  have hlevel : required.level ≠ 0 := by
    intro hzero
    exact hrequired (Access.eq_of_level hzero)
  have hhigh := le_highestAccess_iff required.level topic rules
  simp only [hlevel, false_or] at hhigh
  rw [← hhigh]
  unfold PgAuthenticator.grantedAccess
  split_ifs with hle
  · refine iff_of_true ?_ hle
    intro hnone
    rw [hnone] at hle
    exact hlevel (UInt8.le_zero_iff.mp hle)
  · exact iff_of_false (fun h => h rfl) hle

theorem read_le_iff {access : Access} : Access.read.level ≤ access.level ↔ access ≠ .none := by
  obtain ⟨level⟩ := access
  have hzero : (1 : UInt8) ≤ level ↔ level ≠ 0 := by
    constructor
    · rintro hle rfl
      exact absurd hle (by decide)
    · intro hne
      exact UInt8.not_lt.mp fun hlt => hne (UInt8.lt_one_iff.mp hlt)
  simpa [Access.none, Access.read] using hzero

theorem grants_ok_iff {access : Access} : Grants (.ok access) ↔ access ≠ .none := by
  unfold Grants
  simp only [Except.ok.injEq, exists_eq_left']

theorem grants_checkAcl_read {table : List AclRow} {pg : PgAuthenticator}
    (h : Serving table pg) {db : Database} (hdb : db.Answers table) (now : Int)
    (username topic : Bytes) :
    Grants (pg.checkAcl db now username topic .read).1 ↔
      ∃ rule ∈ rulesOf table username,
        topicMatches topic rule.1 = true ∧ rule.2 ≠ .none := by
  rw [(checkAcl_of_coherent h.coherent hdb now username topic .read).1, grants_ok_iff,
    grantedAccess_ne_none_iff (by decide)]
  simp only [read_le_iff]

/-! ## Coverage -/

theorem matches_of_lookup {cfg : Config} {filter topic : Bytes}
    (hfilter : isValidFilter cfg filter = true) (htopic : isValidTopic cfg topic = true)
    {entry : SubscriberEntry}
    (hroute : (treeAfter cfg [.subscribe filter entry]).lookup topic ≠ []) :
    Matches (split filter) (split topic) := by
  obtain ⟨found, hfound⟩ := List.exists_mem_of_ne_nil _ hroute
  have hcalls : ∀ call ∈ [TreeCall.subscribe filter entry], call.Admissible cfg := by
    simpa [TreeCall.Admissible] using hfilter
  obtain ⟨segments, hsome, hmatch⟩ :=
    (exists_lookup_session_iff (represents_after hcalls) (topicShape_of_valid htopic)
      found.session).mp ⟨found, hfound, rfl⟩
  have hsegments : segments = split filter := by
    by_contra hne
    exact hsome (by
      simp [tableAfter, TreeCall.record, SubscriptionTable.assign, SubscriptionTable.empty, hne])
  rwa [← hsegments]

def Database.ofTable (table : List AclRow) : Database where
  isOpen _ := true
  connectError := none
  selectAcls username :=
    ⟨(table.filter (·.username = username)).map fun row => (row.topicFilter, row.access), true⟩
  loadTicks := 0

theorem Database.ofTable_answers (table : List AclRow) :
    (Database.ofTable table).Answers table :=
  ⟨rfl, fun _ => rfl, fun _ => rfl⟩

def narrowRow (username : Bytes) (stem : List Bytes) : AclRow :=
  { username, topicFilter := joinSegments stem singleWildcard, access := 1 }

theorem rulesOf_narrowRow (username : Bytes) (stem : List Bytes) :
    rulesOf [narrowRow username stem] username =
      [(joinSegments stem singleWildcard, .read)] := by
  simp [rulesOf, narrowRow, PgAuthenticator.ruleOfRow, Access.read]

/-- A READ grant on a filter extends to the topics routed to it, for every rule
table, exactly when the filter has no `#` or its `#` stands for one level: a
rule that ends in `+` accepts the string that ends in `#`, but no topic that is
longer or shorter. -/
theorem read_grant_covers_topic_iff (cfg : Config) (filter topic : Bytes)
    (hfilter : isValidFilter cfg filter = true) (htopic : isValidTopic cfg topic = true)
    (entry : SubscriberEntry)
    (hroute : (treeAfter cfg [.subscribe filter entry]).lookup topic ≠ []) :
    (∀ (table : List AclRow) (pg pg' : PgAuthenticator), Serving table pg →
        Serving table pg' → ∀ (db db' : Database), db.Answers table → db'.Answers table →
        ∀ (now now' : Int) (username : Bytes),
          Grants (pg.checkAcl db now username filter .read).1 →
          Grants (pg'.checkAcl db' now' username topic .read).1) ↔
      (split filter).getLast? ≠ some multiWildcard ∨
        (split topic).length = (split filter).length := by
  have hmatch := matches_of_lookup hfilter htopic hroute
  constructor
  · intro hcovers
    by_contra hnot
    simp only [not_or, not_not] at hnot
    obtain ⟨hlast, hlength⟩ := hnot
    obtain ⟨stem, hstem⟩ := List.getLast?_eq_some_iff.mp hlast
    have hshape : FilterShape (stem ++ [multiWildcard]) := by
      rw [← hstem]
      exact filterShape_of_valid hfilter
    have hsplit : split (joinSegments stem singleWildcard) = stem ++ [singleWildcard] := by
      refine split_joinSegments ?_ (by decide) (by decide)
      intro s hs
      have hmem : s ∈ split filter := by rw [hstem]; simp [hs]
      exact not_mem_of_mem_splitFrom (by simp) hmem
    have hserving : Serving [narrowRow [] stem] (.create 1 0) := .create (by omega) 0
    have hanswers := Database.ofTable_answers [narrowRow [] stem]
    have hgrant := hcovers _ _ _ hserving hserving _ _ hanswers hanswers 0 0 []
    rw [grants_checkAcl_read hserving hanswers, grants_checkAcl_read hserving hanswers,
      rulesOf_narrowRow] at hgrant
    simp only [topicMatches, List.mem_singleton, exists_eq_left, hsplit] at hgrant
    rw [hstem] at hgrant
    have htopicMatch := (hgrant ⟨matchesFrom_single_for_multi stem, by decide⟩).1
    apply hlength
    rw [hstem, matchesFrom_length _ htopicMatch]
    · simp
    · intro s hs
      rcases List.mem_append.mp hs with hs | hs
      · exact ne_multi_of_filterShape hshape s hs
      · rw [List.mem_singleton.mp hs]
        exact singleWildcard_ne_multiWildcard
  · intro hcond table pg pg' hpg hpg' db db' hdb hdb' now now' username hgrant
    have hlength : (split topic).length = (split filter).length := by
      rcases hcond with hlast | hlength
      · exact matches_length hmatch hlast
      · exact hlength
    rw [grants_checkAcl_read hpg hdb] at hgrant
    rw [grants_checkAcl_read hpg' hdb']
    obtain ⟨rule, hmem, hfilterMatch, haccess⟩ := hgrant
    exact ⟨rule, hmem, matchesFrom_of_covered hmatch hlength hfilterMatch, haccess⟩

/-- The filter `a/+` and the topic `a/b`. -/
theorem read_grant_covers_single_level :
    (treeAfter {} [.subscribe [0x61, 0x2f, 0x2b] ⟨0, 0⟩]).lookup [0x61, 0x2f, 0x62] ≠ [] ∧
    ∀ (table : List AclRow) (pg pg' : PgAuthenticator), Serving table pg →
      Serving table pg' → ∀ (db db' : Database), db.Answers table → db'.Answers table →
      ∀ (now now' : Int) (username : Bytes),
        Grants (pg.checkAcl db now username [0x61, 0x2f, 0x2b] .read).1 →
        Grants (pg'.checkAcl db' now' username [0x61, 0x2f, 0x62] .read).1 := by
  have hroute : (treeAfter {} [.subscribe [0x61, 0x2f, 0x2b] ⟨0, 0⟩]).lookup
      [0x61, 0x2f, 0x62] ≠ [] := by decide +kernel
  refine ⟨hroute, ?_⟩
  exact (read_grant_covers_topic_iff {} _ _ (by decide) (by decide) ⟨0, 0⟩ hroute).mpr
    (Or.inr (by decide))

/-- A user with the one rule `+` may subscribe to `#` and is then sent `a/b`,
which the rule does not let the user read. -/
theorem read_grant_misses_deeper_topic :
    isValidFilter {} [0x23] = true ∧ isValidTopic {} [0x61, 0x2f, 0x62] = true ∧
    (treeAfter {} [.subscribe [0x23] ⟨0, 0⟩]).lookup [0x61, 0x2f, 0x62] = [⟨0, 0⟩] ∧
    Serving [⟨[0x75], [0x2b], 1⟩] (.create 1 0) ∧
    (Database.ofTable [⟨[0x75], [0x2b], 1⟩]).Answers [⟨[0x75], [0x2b], 1⟩] ∧
    Grants ((PgAuthenticator.create 1 0).checkAcl (.ofTable [⟨[0x75], [0x2b], 1⟩]) 0 [0x75]
      [0x23] .read).1 ∧
    ¬Grants ((PgAuthenticator.create 1 0).checkAcl (.ofTable [⟨[0x75], [0x2b], 1⟩]) 0 [0x75]
      [0x61, 0x2f, 0x62] .read).1 := by
  have hfilter : ((PgAuthenticator.create 1 0).checkAcl (.ofTable [⟨[0x75], [0x2b], 1⟩]) 0
      [0x75] [0x23] .read).1 = .ok .read := by rfl
  have htopic : ((PgAuthenticator.create 1 0).checkAcl (.ofTable [⟨[0x75], [0x2b], 1⟩]) 0
      [0x75] [0x61, 0x2f, 0x62] .read).1 = .ok .none := by rfl
  refine ⟨by decide, by decide, by decide +kernel, .create (by omega) 0,
    Database.ofTable_answers _, ⟨.read, hfilter, by decide⟩, ?_⟩
  intro hgrant
  obtain ⟨access, hanswer, hne⟩ := hgrant
  rw [htopic] at hanswer
  cases hanswer
  exact hne rfl

end JellyBroker.Auth
