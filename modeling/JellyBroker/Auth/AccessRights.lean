import JellyBroker.Auth.AclCoverage
/-!
# Access levels as rights

The levels of the `acls` table read as sets of rights: READ is the first bit, WRITE
the second, READWRITE both.  `check_acl` takes the levels for an order and compares
the highest one that matches with the required one.
-/

namespace JellyBroker.Auth

open JellyBroker.Topic

/-- The rights of the required access are among those of this one. -/
def Access.Includes (access required : Access) : Prop :=
  access.level &&& required.level = required.level

instance (access required : Access) : Decidable (access.Includes required) :=
  inferInstanceAs (Decidable (access.level &&& required.level = required.level))

/-- The rights of the rules that match a topic, taken together. -/
def unionRights (topic : Bytes) (rules : List (Bytes × Access)) : Access :=
  ⟨rules.foldl
    (fun level rule => if topicMatches topic rule.1 then level ||| rule.2.level else level) 0⟩

def SomeRule (topic : Bytes) (rules : List (Bytes × Access)) (kind : Access → Prop) : Prop :=
  ∃ rule ∈ rules, topicMatches topic rule.1 = true ∧ kind rule.2

def EveryRule (topic : Bytes) (rules : List (Bytes × Access)) (kind : Access → Prop) : Prop :=
  ∀ rule ∈ rules, topicMatches topic rule.1 = true → kind rule.2

/-- `check_acl` works with the rules of the table. -/
def Loads (table : List AclRow) (pg : PgAuthenticator) (db : Database) (now : Int)
    (username : Bytes) : Prop :=
  ∃ entry, (pg.currentRules db now username).1 = .ok entry ∧
    entry.rules = rulesOf table username

/-- The answer of `check_acl` is the one of the union of the rights. -/
def AnswersRights (rules : List (Bytes × Access)) (topic : Bytes) (required : Access)
    (answer : Except String Access) : Prop :=
  Grants answer ↔ (unionRights topic rules).Includes required

theorem loads_of_serving {table : List AclRow} {pg : PgAuthenticator} (h : Serving table pg)
    {db : Database} (hdb : db.Answers table) (now : Int) (username : Bytes) :
    Loads table pg db now username := by
  obtain ⟨entry, hanswer, hrules, _⟩ := currentRules_of_coherent h.coherent hdb now username
  exact ⟨entry, hanswer, hrules⟩

theorem checkAcl_of_loads {table : List AclRow} {pg : PgAuthenticator} {db : Database} {now : Int}
    {username : Bytes} (h : Loads table pg db now username) (topic : Bytes) (required : Access) :
    (pg.checkAcl db now username topic required).1 =
      .ok (PgAuthenticator.grantedAccess topic required (rulesOf table username)) := by
  obtain ⟨entry, hanswer, hrules⟩ := h
  unfold PgAuthenticator.checkAcl
  generalize pg.currentRules db now username = current at hanswer
  obtain ⟨answer, pg'⟩ := current
  subst hanswer
  rw [← hrules]

/-! ## Bits -/

theorem level_bits : ∀ level : UInt8,
    (level &&& 1 = 0 ∨ level &&& 1 = 1) ∧ (level &&& 2 = 0 ∨ level &&& 2 = 2) ∧
      (level &&& 3 = 3 ↔ level &&& 1 = 1 ∧ level &&& 2 = 2) ∧
      (level &&& 1 = 1 → level ≠ 0) ∧ (level &&& 2 = 2 → 2 ≤ level) := by
  decide +kernel

theorem level_below_iff : ∀ level : UInt8,
    (¬3 ≤ level ∧ ¬level &&& 1 = 1 ↔ level = 0 ∨ level = 2) ∧
      (¬3 ≤ level ∧ ¬level &&& 2 = 2 ↔ level < 2) := by
  decide +kernel

theorem and_or_right (a b c : UInt8) : (a ||| b) &&& c = (a &&& c) ||| (b &&& c) := by
  apply UInt8.toNat_inj.mp
  simp only [UInt8.toNat_and, UInt8.toNat_or]
  exact Nat.and_or_distrib_right ..

theorem or_includes_iff {bit : UInt8} (hbit : ∀ level : UInt8, level &&& bit = 0 ∨
    level &&& bit = bit) (a b : UInt8) :
    (a ||| b) &&& bit = bit ↔ a &&& bit = bit ∨ b &&& bit = bit := by
  rw [and_or_right]
  rcases hbit a with ha | ha
  · rw [ha, UInt8.zero_or]
    constructor
    · exact Or.inr
    · rintro (hzero | hb)
      · rcases hbit b with hb | hb
        · rw [hb, hzero]
        · exact hb
      · exact hb
  · rw [ha]
    refine iff_of_true ?_ (Or.inl rfl)
    rcases hbit b with hb | hb
    · rw [hb, UInt8.or_zero]
    · rw [hb, UInt8.or_self]

theorem foldl_rights_iff {bit : UInt8} (hbit : ∀ level : UInt8, level &&& bit = 0 ∨
    level &&& bit = bit) (topic : Bytes) (rules : List (Bytes × Access)) (level : UInt8) :
    rules.foldl
        (fun level rule => if topicMatches topic rule.1 then level ||| rule.2.level else level)
        level &&& bit = bit ↔
      level &&& bit = bit ∨ SomeRule topic rules fun access => access.level &&& bit = bit := by
  unfold SomeRule
  induction rules generalizing level with
  | nil => simp
  | cons rule rules ih =>
      rw [List.foldl_cons, ih]
      simp only [List.mem_cons, exists_eq_or_imp]
      by_cases hmatch : topicMatches topic rule.1 = true
      · simp only [hmatch, if_true, or_includes_iff hbit, true_and, or_assoc]
      · simp [hmatch]

theorem unionRights_read_iff (topic : Bytes) (rules : List (Bytes × Access)) :
    (unionRights topic rules).Includes .read ↔ SomeRule topic rules (·.Includes .read) := by
  have hfoldl := foldl_rights_iff (fun level => (level_bits level).1) topic rules 0
  have hzero : (0 : UInt8) &&& 1 ≠ 1 := by decide
  simp only [hzero, false_or] at hfoldl
  exact hfoldl

theorem unionRights_write_iff (topic : Bytes) (rules : List (Bytes × Access)) :
    (unionRights topic rules).Includes .write ↔ SomeRule topic rules (·.Includes .write) := by
  have hfoldl := foldl_rights_iff (fun level => (level_bits level).2.1) topic rules 0
  have hzero : (0 : UInt8) &&& 2 ≠ 2 := by decide
  simp only [hzero, false_or] at hfoldl
  exact hfoldl

theorem unionRights_readWrite_iff (topic : Bytes) (rules : List (Bytes × Access)) :
    (unionRights topic rules).Includes .readWrite ↔
      SomeRule topic rules (·.Includes .read) ∧ SomeRule topic rules (·.Includes .write) := by
  rw [← unionRights_read_iff, ← unionRights_write_iff]
  exact (level_bits (unionRights topic rules).level).2.2.1

/-! ## Decisions on the matching rules -/

section Decisions

variable {table : List AclRow} {pg : PgAuthenticator} {db : Database} {now : Int}
  {username : Bytes}

theorem grants_checkAcl_iff (h : Loads table pg db now username) {required : Access}
    (hrequired : required ≠ .none) (topic : Bytes) :
    Grants (pg.checkAcl db now username topic required).1 ↔
      SomeRule topic (rulesOf table username) fun access => required.level ≤ access.level := by
  rw [checkAcl_of_loads h, grants_ok_iff, grantedAccess_ne_none_iff hrequired]
  rfl

theorem someRule_mono {topic : Bytes} {rules : List (Bytes × Access)} {kind kind' : Access → Prop}
    (himp : ∀ access, kind access → kind' access) (h : SomeRule topic rules kind) :
    SomeRule topic rules kind' := by
  obtain ⟨rule, hmem, hmatch, hkind⟩ := h
  exact ⟨rule, hmem, hmatch, himp _ hkind⟩

theorem not_someRule_iff {topic : Bytes} {rules : List (Bytes × Access)} {kind : Access → Prop} :
    ¬SomeRule topic rules kind ↔ EveryRule topic rules fun access => ¬kind access := by
  unfold SomeRule EveryRule
  constructor
  · intro h rule hmem hmatch hkind
    exact h ⟨rule, hmem, hmatch, hkind⟩
  · rintro h ⟨rule, hmem, hmatch, hkind⟩
    exact h rule hmem hmatch hkind

/-- Where one kind of access implies another, both are found or only the other one. -/
theorem someRule_iff_iff {topic : Bytes} {rules : List (Bytes × Access)}
    {kind kind' : Access → Prop} (himp : ∀ access, kind' access → kind access) :
    (SomeRule topic rules kind ↔ SomeRule topic rules kind') ↔
      SomeRule topic rules kind' ∨ EveryRule topic rules fun access => ¬kind access := by
  rw [← not_someRule_iff]
  constructor
  · intro hiff
    by_cases hkind : SomeRule topic rules kind
    · exact Or.inl (hiff.mp hkind)
    · exact Or.inr hkind
  · rintro (hkind' | hnone)
    · exact iff_of_true (someRule_mono himp hkind') hkind'
    · exact iff_of_false hnone fun hkind' => hnone (someRule_mono himp hkind')

theorem answersRights_read_iff (h : Loads table pg db now username) (topic : Bytes) :
    AnswersRights (rulesOf table username) topic .read
        (pg.checkAcl db now username topic .read).1 ↔
      SomeRule topic (rulesOf table username) (·.Includes .read) ∨
        EveryRule topic (rulesOf table username) (· = .none) := by
  unfold AnswersRights
  rw [grants_checkAcl_iff h (by decide), unionRights_read_iff, someRule_iff_iff]
  · simp only [read_le_iff, ne_eq, not_not]
  · intro access hread
    rw [read_le_iff]
    rintro rfl
    exact absurd hread (by decide)

theorem answersRights_write_iff (h : Loads table pg db now username) (topic : Bytes) :
    AnswersRights (rulesOf table username) topic .write
        (pg.checkAcl db now username topic .write).1 ↔
      SomeRule topic (rulesOf table username) (·.Includes .write) ∨
        EveryRule topic (rulesOf table username) fun access => access.level < 2 := by
  unfold AnswersRights
  rw [grants_checkAcl_iff h (by decide), unionRights_write_iff, someRule_iff_iff]
  · simp only [UInt8.not_le]
    rfl
  · intro access hwrite
    exact (level_bits access.level).2.2.2.2 hwrite

theorem everyRule_iff_not {topic : Bytes} {rules : List (Bytes × Access)}
    {kind kind' neither : Access → Prop}
    (hneither : ∀ access, ¬kind access ∧ ¬kind' access ↔ neither access) :
    EveryRule topic rules neither ↔
      ¬SomeRule topic rules kind ∧ ¬SomeRule topic rules kind' := by
  rw [not_someRule_iff, not_someRule_iff]
  constructor
  · intro h
    exact ⟨fun rule hmem hmatch => ((hneither rule.2).mpr (h rule hmem hmatch)).1,
      fun rule hmem hmatch => ((hneither rule.2).mpr (h rule hmem hmatch)).2⟩
  · rintro ⟨h, h'⟩ rule hmem hmatch
    exact (hneither rule.2).mp ⟨h rule hmem hmatch, h' rule hmem hmatch⟩

theorem answersRights_readWrite_iff (h : Loads table pg db now username) (topic : Bytes) :
    AnswersRights (rulesOf table username) topic .readWrite
        (pg.checkAcl db now username topic .readWrite).1 ↔
      SomeRule topic (rulesOf table username) (fun access => 3 ≤ access.level) ∧
          SomeRule topic (rulesOf table username) (·.Includes .read) ∧
          SomeRule topic (rulesOf table username) (·.Includes .write) ∨
        EveryRule topic (rulesOf table username) (fun access => access = .none ∨ access = .write) ∨
        EveryRule topic (rulesOf table username) fun access => access.level < 2 := by
  have hread : ∀ access : Access,
      ¬3 ≤ access.level ∧ ¬access.Includes .read ↔ access = .none ∨ access = .write := by
    rintro ⟨level⟩
    rw [Access.none, Access.write, Access.mk.injEq, Access.mk.injEq]
    exact (level_below_iff level).1
  have hwrite : ∀ access : Access,
      ¬3 ≤ access.level ∧ ¬access.Includes .write ↔ access.level < 2 :=
    fun access => (level_below_iff access.level).2
  unfold AnswersRights
  rw [grants_checkAcl_iff h (by decide), unionRights_readWrite_iff, everyRule_iff_not hread,
    everyRule_iff_not hwrite]
  change (SomeRule topic (rulesOf table username) (fun access => 3 ≤ access.level) ↔ _) ↔ _
  tauto

theorem checkAcl_perm {table' : List AclRow} {pg' : PgAuthenticator} {db' : Database} {now' : Int}
    (h : Loads table pg db now username) (h' : Loads table' pg' db' now' username)
    (hperm : table.Perm table') (topic : Bytes) (required : Access) :
    (pg.checkAcl db now username topic required).1 =
      (pg'.checkAcl db' now' username topic required).1 := by
  have hrules : (rulesOf table username).Perm (rulesOf table' username) :=
    ((hperm.filter _).map _).map _
  have hlevel (level : UInt8) :
      level ≤ (PgAuthenticator.highestAccess topic (rulesOf table username)).level ↔
        level ≤ (PgAuthenticator.highestAccess topic (rulesOf table' username)).level := by
    rw [le_highestAccess_iff, le_highestAccess_iff]
    simp only [hrules.mem_iff]
  have hhighest : PgAuthenticator.highestAccess topic (rulesOf table username) =
      PgAuthenticator.highestAccess topic (rulesOf table' username) := by
    apply Access.eq_of_level
    exact UInt8.le_antisymm ((hlevel _).mp (UInt8.le_refl _)) ((hlevel _).mpr (UInt8.le_refl _))
  rw [checkAcl_of_loads h, checkAcl_of_loads h']
  unfold PgAuthenticator.grantedAccess
  rw [hhighest]

end Decisions

/-- The levels of a table act as rights for READ when a rule with READ matches or
nothing but rules without any access, for WRITE when a rule with WRITE matches or
nothing but levels below it, and for READWRITE when a level of 3 or more, a rule with
READ and a rule with WRITE match, or nothing but rules with NONE and WRITE, or nothing
but levels below WRITE.  The order of the rows never matters. -/
theorem levels_act_as_rights_iff (table : List AclRow) (pg : PgAuthenticator) (db : Database)
    (now : Int) (username topic : Bytes) (h : Loads table pg db now username) :
    (AnswersRights (rulesOf table username) topic .read
        (pg.checkAcl db now username topic .read).1 ↔
      SomeRule topic (rulesOf table username) (·.Includes .read) ∨
        EveryRule topic (rulesOf table username) (· = .none)) ∧
    (AnswersRights (rulesOf table username) topic .write
        (pg.checkAcl db now username topic .write).1 ↔
      SomeRule topic (rulesOf table username) (·.Includes .write) ∨
        EveryRule topic (rulesOf table username) fun access => access.level < 2) ∧
    (AnswersRights (rulesOf table username) topic .readWrite
        (pg.checkAcl db now username topic .readWrite).1 ↔
      SomeRule topic (rulesOf table username) (fun access => 3 ≤ access.level) ∧
          SomeRule topic (rulesOf table username) (·.Includes .read) ∧
          SomeRule topic (rulesOf table username) (·.Includes .write) ∨
        EveryRule topic (rulesOf table username) (fun access => access = .none ∨ access = .write) ∨
        EveryRule topic (rulesOf table username) fun access => access.level < 2) ∧
    ∀ (table' : List AclRow) (pg' : PgAuthenticator) (db' : Database) (now' : Int),
      table.Perm table' → Loads table' pg' db' now' username → ∀ required,
        (pg.checkAcl db now username topic required).1 =
          (pg'.checkAcl db' now' username topic required).1 :=
  ⟨answersRights_read_iff h topic, answersRights_write_iff h topic,
    answersRights_readWrite_iff h topic, fun _ _ _ _ hperm h' required =>
      checkAcl_perm h h' hperm topic required⟩

/-- The user `u` with the rule READ on `t`. -/
theorem levels_act_as_rights_sample :
    Loads [⟨[0x75], [0x74], 1⟩] (.create 1 0) (.ofTable [⟨[0x75], [0x74], 1⟩]) 0 [0x75] ∧
    AnswersRights (rulesOf [⟨[0x75], [0x74], 1⟩] [0x75]) [0x74] .read
      ((PgAuthenticator.create 1 0).checkAcl (.ofTable [⟨[0x75], [0x74], 1⟩]) 0 [0x75] [0x74]
        .read).1 := by
  have hloads : Loads [⟨[0x75], [0x74], 1⟩] (.create 1 0) (.ofTable [⟨[0x75], [0x74], 1⟩]) 0
      [0x75] := loads_of_serving (.create (by omega) 0) (Database.ofTable_answers _) 0 [0x75]
  refine ⟨hloads, (levels_act_as_rights_iff _ _ _ 0 [0x75] [0x74] hloads).1.mpr (Or.inl ?_)⟩
  exact ⟨([0x74], .read), by decide, by decide, by decide⟩

/-- A rule with WRITE alone grants READ, and a rule with READ beside a rule with WRITE
does not grant READWRITE. -/
theorem levels_act_as_order :
    Loads [⟨[0x75], [0x74], 2⟩] (.create 1 0) (.ofTable [⟨[0x75], [0x74], 2⟩]) 0 [0x75] ∧
    ((PgAuthenticator.create 1 0).checkAcl (.ofTable [⟨[0x75], [0x74], 2⟩]) 0 [0x75] [0x74]
      .read).1 = .ok .write ∧
    ¬(unionRights [0x74] (rulesOf [⟨[0x75], [0x74], 2⟩] [0x75])).Includes .read ∧
    Loads [⟨[0x75], [0x74], 1⟩, ⟨[0x75], [0x74], 2⟩] (.create 1 0)
      (.ofTable [⟨[0x75], [0x74], 1⟩, ⟨[0x75], [0x74], 2⟩]) 0 [0x75] ∧
    ((PgAuthenticator.create 1 0).checkAcl
      (.ofTable [⟨[0x75], [0x74], 1⟩, ⟨[0x75], [0x74], 2⟩]) 0 [0x75] [0x74] .readWrite).1 =
        .ok .none ∧
    (unionRights [0x74] (rulesOf [⟨[0x75], [0x74], 1⟩, ⟨[0x75], [0x74], 2⟩] [0x75])).Includes
      .readWrite := by
  exact ⟨loads_of_serving (.create (by omega) 0) (Database.ofTable_answers _) 0 [0x75], rfl,
    by decide, loads_of_serving (.create (by omega) 0) (Database.ofTable_answers _) 0 [0x75], rfl,
    by decide⟩

end JellyBroker.Auth
