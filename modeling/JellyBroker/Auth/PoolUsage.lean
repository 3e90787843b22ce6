import JellyBroker.Auth.PgAuthenticator
import Mathlib.Tactic
/-!
# The connections of the pool

A call of the PostgreSQL authenticator takes a free connection from the pool and
gives it back, except on one path: `authenticate` returns from its `catch` block
without a `release`.  Nothing else ever frees such a connection.
-/

namespace JellyBroker.Auth

inductive PgCall where
  | authenticate (clientId username password : Bytes)
  | checkAcl (username topic : Bytes) (required : Access)

structure PgStep where
  db : AccountDatabase
  now : Int
  call : PgCall

namespace PgAuthenticator

def inUseFlags (pg : PgAuthenticator) : List Bool := pg.pool.map (·.inUse)

def freeConnections (pg : PgAuthenticator) : Nat := pg.pool.countP fun pc => !pc.inUse

/-- `acquire` finds a free connection that is open or can be opened again. -/
def Usable (db : Database) (pg : PgAuthenticator) (i : Nat) : Prop :=
  pg.pool.findIdx? (fun pc => !pc.inUse) = some i ∧ (db.isOpen i = true ∨ db.connectError = none)

end PgAuthenticator

namespace PgStep

def run (digest : Bytes → Bytes) (step : PgStep) (pg : PgAuthenticator) : PgAuthenticator :=
  match step.call with
  | .authenticate clientId username password =>
      (pg.authenticate digest step.db clientId username password).2
  | .checkAcl username topic required =>
      (pg.checkAcl step.db.toDatabase step.now username topic required).2

/-- An `authenticate` call with a connection whose transaction throws. -/
def Leaks (step : PgStep) (pg : PgAuthenticator) : Prop :=
  ∃ clientId username password, step.call = .authenticate clientId username password ∧
    (∃ i, pg.Usable step.db.toDatabase i) ∧ (step.db.selectClients clientId).committed = false

end PgStep

def EveryCall (digest : Bytes → Bytes) (meets : PgAuthenticator → PgStep → Prop) :
    PgAuthenticator → List PgStep → Prop
  | _, [] => True
  | pg, step :: steps => meets pg step ∧ EveryCall digest meets (step.run digest pg) steps

/-! ## Taking a connection and giving it back -/

namespace PgAuthenticator

variable {db : Database} {pg : PgAuthenticator} {i : Nat}

theorem acquire_of_usable (h : pg.Usable db i) :
    pg.acquire db = (.ok (some i), { pg with pool := pg.pool.set i { inUse := true } }) := by
  obtain ⟨hfind, husable⟩ := h
  unfold acquire
  rw [hfind]
  dsimp only
  rcases husable with hopen | hconnect
  · rw [hopen]
  · rw [hconnect]
    cases db.isOpen i <;> rfl

theorem acquire_of_not_usable (h : ∀ i, ¬pg.Usable db i) :
    pg.acquire db = (.ok none, pg) ∨ ∃ what, pg.acquire db = (.error what, pg) := by
  unfold acquire
  cases hfind : pg.pool.findIdx? (fun pc => !pc.inUse) with
  | none => exact Or.inl rfl
  | some i =>
      right
      have hclosed : db.isOpen i = false := by
        rw [Bool.eq_false_iff]
        exact fun hopen => h i ⟨hfind, Or.inl hopen⟩
      obtain ⟨what, hwhat⟩ : ∃ what, db.connectError = some what := by
        rw [← Option.ne_none_iff_exists']
        exact fun hnone => h i ⟨hfind, Or.inr hnone⟩
      dsimp only
      rw [hclosed, hwhat]
      exact ⟨what, rfl⟩

theorem free_of_usable (h : pg.Usable db i) :
    ∃ hi : i < pg.pool.length, pg.pool[i] = { inUse := false } := by
  obtain ⟨hi, hfree, _⟩ := List.findIdx?_eq_some_iff_getElem.mp h.1
  refine ⟨hi, ?_⟩
  generalize pg.pool[i] = pc at hfree ⊢
  cases pc
  simpa using hfree

/-- The pool is as it was when the connection is given back. -/
theorem release_acquired (h : pg.Usable db i) :
    release i { pg with pool := pg.pool.set i { inUse := true } } = pg := by
  obtain ⟨hi, hfree⟩ := free_of_usable h
  have hpool : (pg.pool.set i { inUse := true }).modify i (fun pc => { pc with inUse := false }) =
      pg.pool := by
    apply List.ext_getElem
    · simp
    · intro j hj hj'
      by_cases hij : i = j
      · subst hij
        simp [hfree]
      · simp [hij]
  unfold release
  rw [hpool]

theorem loadAclRules_snd (db : Database) (now : Int) (pg : PgAuthenticator) (username : Bytes) :
    (pg.loadAclRules db now username).2 = pg := by
  unfold loadAclRules
  by_cases husable : ∃ i, pg.Usable db i
  · obtain ⟨i, hi⟩ := husable
    rw [acquire_of_usable hi]
    dsimp only
    have hrelease := release_acquired hi
    split_ifs <;> exact hrelease
  · rcases acquire_of_not_usable (fun i hi => husable ⟨i, hi⟩) with hnone | ⟨what, herror⟩
    · rw [hnone]
    · rw [herror]

theorem pool_checkAcl (db : Database) (now : Int) (pg : PgAuthenticator) (username topic : Bytes)
    (required : Access) : (pg.checkAcl db now username topic required).2.pool = pg.pool := by
  have hload := loadAclRules_snd db now pg username
  have hrules : (pg.currentRules db now username).2.pool = pg.pool := by
    unfold currentRules
    split_ifs
    · cases pg.cached? now username with
      | some entry => rfl
      | none =>
          generalize pg.loadAclRules db now username = loaded at hload
          obtain ⟨what | entry, pg'⟩ := loaded
          · exact congrArg pool hload
          · have hpool : pg'.pool = pg.pool := congrArg pool hload
            exact hpool
    · exact congrArg pool hload
  unfold checkAcl
  generalize pg.currentRules db now username = current at hrules
  obtain ⟨what | entry, pg'⟩ := current
  · exact hrules
  · exact hrules

theorem authenticate_of_not_usable (digest : Bytes → Bytes) {db : AccountDatabase}
    (h : ∀ i, ¬pg.Usable db.toDatabase i) (clientId username password : Bytes) :
    (pg.authenticate digest db clientId username password).2 = pg := by
  unfold authenticate
  rcases acquire_of_not_usable h with hnone | ⟨what, herror⟩
  · rw [hnone]
  · rw [herror]

theorem authenticate_of_usable (digest : Bytes → Bytes) {db : AccountDatabase}
    (h : pg.Usable db.toDatabase i) (clientId username password : Bytes) :
    (pg.authenticate digest db clientId username password).2 =
      if (db.selectClients clientId).committed = true then pg
      else { pg with pool := pg.pool.set i { inUse := true } } := by
  unfold authenticate
  rw [acquire_of_usable h]
  dsimp only
  rw [release_acquired h]

theorem freeConnections_acquired (h : pg.Usable db i) :
    freeConnections { pg with pool := pg.pool.set i { inUse := true } } + 1 =
      pg.freeConnections := by
  obtain ⟨hi, hfree⟩ := free_of_usable h
  have hpos : 0 < pg.pool.countP fun pc => !pc.inUse := by
    rw [List.countP_pos_iff]
    exact ⟨pg.pool[i], List.getElem_mem hi, by rw [hfree]; rfl⟩
  unfold freeConnections
  dsimp only
  rw [List.countP_set hi, hfree]
  simp only [Bool.not_false, Bool.not_true, if_true, Bool.false_eq_true, if_false]
  omega

theorem freeConnections_eq_count (pg : PgAuthenticator) :
    pg.freeConnections = pg.inUseFlags.count false := by
  unfold freeConnections inUseFlags
  rw [List.count, List.countP_map]
  congr 1
  funext pc
  cases pc with
  | mk inUse => cases inUse <;> rfl

end PgAuthenticator

/-! ## Runs -/

section Runs

variable (digest : Bytes → Bytes)

/-- A call that does not leak leaves the pool, and a call that leaks takes one
connection from it. -/
theorem pool_run_cases (pg : PgAuthenticator) (step : PgStep) :
    (¬step.Leaks pg ∧ (step.run digest pg).pool = pg.pool) ∨
      (step.Leaks pg ∧ (step.run digest pg).freeConnections + 1 = pg.freeConnections) := by
  unfold PgStep.run PgStep.Leaks
  cases hcall : step.call with
  | checkAcl username topic required =>
      left
      refine ⟨?_, PgAuthenticator.pool_checkAcl _ _ _ _ _ _⟩
      rintro ⟨clientId, username', password, heq, _⟩
      cases heq
  | authenticate clientId username password =>
      dsimp only
      by_cases husable : ∃ i, pg.Usable step.db.toDatabase i
      · obtain ⟨i, hi⟩ := husable
        rw [PgAuthenticator.authenticate_of_usable digest hi]
        split_ifs with hcommitted
        · left
          refine ⟨?_, rfl⟩
          rintro ⟨clientId', username', password', heq, _, hthrew⟩
          cases heq
          rw [hcommitted] at hthrew
          cases hthrew
        · right
          exact ⟨⟨clientId, username, password, rfl, ⟨i, hi⟩, Bool.eq_false_iff.mpr hcommitted⟩,
            PgAuthenticator.freeConnections_acquired hi⟩
      · left
        rw [PgAuthenticator.authenticate_of_not_usable digest fun i hi => husable ⟨i, hi⟩]
        refine ⟨?_, rfl⟩
        rintro ⟨_, _, _, _, hsome, _⟩
        exact husable hsome

theorem inUseFlags_run_iff (pg : PgAuthenticator) (step : PgStep) :
    (step.run digest pg).inUseFlags = pg.inUseFlags ↔ ¬step.Leaks pg := by
  rcases pool_run_cases digest pg step with ⟨hnot, hpool⟩ | ⟨hleaks, hfree⟩
  · refine iff_of_true ?_ hnot
    unfold PgAuthenticator.inUseFlags
    rw [hpool]
  · refine iff_of_false ?_ (not_not.mpr hleaks)
    intro hflags
    rw [PgAuthenticator.freeConnections_eq_count, PgAuthenticator.freeConnections_eq_count,
      hflags] at hfree
    omega

theorem freeConnections_run_iff (pg : PgAuthenticator) (step : PgStep) :
    pg.freeConnections ≤ (step.run digest pg).freeConnections ↔ ¬step.Leaks pg := by
  rcases pool_run_cases digest pg step with ⟨hnot, hpool⟩ | ⟨hleaks, hfree⟩
  · refine iff_of_true ?_ hnot
    unfold PgAuthenticator.freeConnections
    rw [hpool]
  · refine iff_of_false ?_ (not_not.mpr hleaks)
    omega

theorem everyCall_congr {meets meets' : PgAuthenticator → PgStep → Prop}
    (h : ∀ pg step, meets pg step ↔ meets' pg step) (pg : PgAuthenticator)
    (steps : List PgStep) :
    EveryCall digest meets pg steps ↔ EveryCall digest meets' pg steps := by
  induction steps generalizing pg with
  | nil => exact Iff.rfl
  | cons step steps ih =>
      unfold EveryCall
      rw [h pg step, ih]

end Runs

/-- In a run every call leaves the flags of the pool as they were, and the number of
free connections never decreases, exactly when no `authenticate` call has a
connection whose transaction throws. -/
theorem connections_kept_iff (digest : Bytes → Bytes) (pg : PgAuthenticator)
    (steps : List PgStep) :
    (EveryCall digest (fun pg step => (step.run digest pg).inUseFlags = pg.inUseFlags) pg steps ↔
      EveryCall digest (fun pg step => ¬step.Leaks pg) pg steps) ∧
    (EveryCall digest
        (fun pg step => pg.freeConnections ≤ (step.run digest pg).freeConnections) pg steps ↔
      EveryCall digest (fun pg step => ¬step.Leaks pg) pg steps) :=
  ⟨everyCall_congr digest (inUseFlags_run_iff digest) pg steps,
    everyCall_congr digest (freeConnections_run_iff digest) pg steps⟩

def emptyDatabase (committed : Bool) : AccountDatabase where
  isOpen _ := true
  connectError := none
  selectAcls _ := ⟨[], committed⟩
  loadTicks := 0
  selectClients _ := ⟨[], committed⟩

/-- A `check_acl` call whose transaction throws gives its connection back. -/
theorem connections_kept_by_checkAcl :
    EveryCall id (fun pg step => (step.run id pg).inUseFlags = pg.inUseFlags)
      (.create 1 0) [⟨emptyDatabase false, 0, .checkAcl [0x75] [0x74] .read⟩] := by
  apply (connections_kept_iff id _ _).1.mpr
  refine ⟨?_, trivial⟩
  rintro ⟨_, _, _, heq, _⟩
  cases heq

/-- One `authenticate` call whose transaction throws takes the only connection, and no
later call gets one. -/
theorem authenticate_leaks_connection :
    (PgAuthenticator.create 1 0).inUseFlags = [false] ∧
    (PgStep.run id ⟨emptyDatabase false, 0, .authenticate [0x63] [0x75] [0x70]⟩
      (.create 1 0)).inUseFlags = [true] ∧
    (PgStep.run id ⟨emptyDatabase false, 0, .authenticate [0x63] [0x75] [0x70]⟩
      (.create 1 0)).freeConnections = 0 ∧
    ∀ db, ((PgStep.run id ⟨emptyDatabase false, 0, .authenticate [0x63] [0x75] [0x70]⟩
      (.create 1 0)).acquire db).1 = .ok none :=
  ⟨rfl, rfl, rfl, fun _ => rfl⟩

end JellyBroker.Auth
