import JellyBroker.Topic.Filter
/-!
# The grammars of topic names and topic filters

MQTT separates the levels of a topic by `/`, and a `/` at the end opens one more
level.  The segments of `getline` are these levels without an empty one at the
end, and `is_valid_topic` compares each with the wildcards as a whole.  The
strings that the two functions misjudge are the ones that fall into these gaps.
-/

namespace JellyBroker.Topic

def levels (s : Bytes) : List Bytes := s.splitOn levelSeparator

def plus : UInt8 := 0x2b

def hash : UInt8 := 0x23

/-- A topic name: no level is empty, and none contains a wildcard character. -/
def TopicGrammar (s : Bytes) : Prop :=
  s ≠ [] ∧ ∀ level ∈ levels s, level ≠ [] ∧ plus ∉ level ∧ hash ∉ level

/-- The levels of a filter: none is empty, `+` is a level of its own, and `#` is a
level of its own at the end. -/
structure FilterLevels (ls : List Bytes) : Prop where
  nonempty : ∀ level ∈ ls, level ≠ []
  single : ∀ level ∈ ls, plus ∈ level → level = singleWildcard
  multi : ∀ (i : Nat) (level : Bytes), ls[i]? = some level → hash ∈ level →
    level = multiWildcard ∧ i + 1 = ls.length

def FilterGrammar (s : Bytes) : Prop := s ≠ [] ∧ FilterLevels (levels s)

def WithinTopicLimits (cfg : Config) (s : Bytes) : Prop :=
  (s.length : Int) ≤ cfg.maxTopicLength ∧ ((split s).length : Int) ≤ cfg.maxTopicDepth

def PlainLevels (ls : List Bytes) : Prop :=
  ∀ level ∈ ls, level ≠ [] ∧ level ≠ singleWildcard ∧ level ≠ multiWildcard

/-- The strings that `is_valid_topic` judges by the grammar: not `t/` for a string `t`
of plain levels, and not a string of plain levels with a wildcard character in one
of them. -/
def TopicJudged (s : Bytes) : Prop :=
  (∀ t, s = t ++ [levelSeparator] → ¬PlainLevels (levels t)) ∧
    (PlainLevels (levels s) → ∀ level ∈ levels s, plus ∉ level ∧ hash ∉ level)

/-- The strings that `is_valid_filter` judges by the grammar: not `t/` for a filter
`t`. -/
def FilterJudged (s : Bytes) : Prop :=
  ∀ t, s = t ++ [levelSeparator] → ¬FilterGrammar t

/-! ## Segments and levels -/

theorem levels_nil : levels [] = [[]] := rfl

theorem levels_cons (c : UInt8) (s : Bytes) :
    levels (c :: s) =
      if c = levelSeparator then [] :: levels s else (levels s).modifyHead (c :: ·) := by
  unfold levels List.splitOn
  rw [List.splitOnP_cons_eq_if_modifyHead]
  simp only [beq_iff_eq]

theorem exists_levels_eq_cons (s : Bytes) : ∃ level rest, levels s = level :: rest :=
  List.exists_cons_of_ne_nil (List.splitOnP_ne_nil _ _)

theorem levels_concat_separator (t : Bytes) :
    levels (t ++ [levelSeparator]) = levels t ++ [[]] := by
  induction t with
  | nil => rfl
  | cons c t ih =>
      obtain ⟨level, rest, hlevels⟩ := exists_levels_eq_cons t
      rw [List.cons_append, levels_cons, levels_cons, ih, hlevels]
      split_ifs <;> rfl

theorem modifyHead_nil_append (ls : List Bytes) : ls.modifyHead (([] : Bytes) ++ ·) = ls := by
  cases ls <;> rfl

theorem splitFrom_eq_levels {segment s : Bytes} (hne : segment ++ s ≠ [])
    (hlast : s.getLast? ≠ some levelSeparator) :
    splitFrom segment s = (levels s).modifyHead (segment ++ ·) := by
  induction s generalizing segment with
  | nil =>
      rw [List.append_nil] at hne
      simp [splitFrom, levels_nil, hne]
  | cons c rest ih =>
      have hrest : rest.getLast? ≠ some levelSeparator := by
        intro hrest
        apply hlast
        rw [List.getLast?_cons, hrest]
        rfl
      rw [splitFrom, levels_cons]
      split_ifs with hc
      · have hne' : [] ++ rest ≠ [] := by
          rintro hnil
          rw [List.nil_append] at hnil
          rw [hnil, hc] at hlast
          exact hlast rfl
        rw [ih hne' hrest, modifyHead_nil_append, List.modifyHead_cons, List.append_nil]
      · obtain ⟨level, levels', hlevels⟩ := exists_levels_eq_cons rest
        rw [ih (by simp) hrest, hlevels]
        simp

theorem splitFrom_concat_separator (segment t : Bytes) :
    splitFrom segment (t ++ [levelSeparator]) = (levels t).modifyHead (segment ++ ·) := by
  induction t generalizing segment with
  | nil => simp [splitFrom, levels_nil]
  | cons c t ih =>
      rw [List.cons_append, splitFrom, levels_cons]
      split_ifs with hc
      · rw [ih, modifyHead_nil_append, List.modifyHead_cons, List.append_nil]
      · obtain ⟨level, levels', hlevels⟩ := exists_levels_eq_cons t
        rw [ih, hlevels]
        simp

/-- A string that is not empty ends in a separator, behind the levels that are its
segments, or its segments are all its levels. -/
theorem split_cases {s : Bytes} (hne : s ≠ []) :
    (∃ t, s = t ++ [levelSeparator] ∧ split s = levels t) ∨
      (∀ t, s ≠ t ++ [levelSeparator]) ∧ split s = levels s := by
  by_cases hlast : s.getLast? = some levelSeparator
  · left
    obtain ⟨t, ht⟩ := List.getLast?_eq_some_iff.mp hlast
    refine ⟨t, ht, ?_⟩
    rw [ht, split, splitFrom_concat_separator, modifyHead_nil_append]
  · right
    constructor
    · intro t ht
      apply hlast
      rw [ht, List.getLast?_concat]
    · rw [split, splitFrom_eq_levels (by rwa [List.nil_append]) hlast, modifyHead_nil_append]

/-! ## What the two functions accept -/

theorem isValidTopic_iff {cfg : Config} {s : Bytes} (h : WithinTopicLimits cfg s) :
    isValidTopic cfg s = true ↔ s ≠ [] ∧ PlainLevels (split s) := by
  unfold isValidTopic PlainLevels
  rw [if_neg (Int.not_lt.mpr h.1), if_neg (Int.not_lt.mpr h.2)]
  by_cases hs : s = []
  · simp [hs]
  · simp [hs]

theorem filterLevels_cons {level : Bytes} {rest : List Bytes} :
    FilterLevels (level :: rest) ↔
      level ≠ [] ∧ (plus ∈ level → level = singleWildcard) ∧
        (hash ∈ level → level = multiWildcard ∧ rest = []) ∧ FilterLevels rest := by
  constructor
  · intro h
    refine ⟨h.nonempty level List.mem_cons_self, h.single level List.mem_cons_self, ?_, ?_⟩
    · intro hhash
      obtain ⟨hlevel, hlast⟩ := h.multi 0 level rfl hhash
      rw [List.length_cons] at hlast
      exact ⟨hlevel, List.length_eq_zero_iff.mp (by omega)⟩
    · constructor
      · intro level' hmem
        exact h.nonempty level' (List.mem_cons_of_mem _ hmem)
      · intro level' hmem
        exact h.single level' (List.mem_cons_of_mem _ hmem)
      · intro i level' hget hhash
        obtain ⟨hlevel, hlast⟩ := h.multi (i + 1) level' hget hhash
        rw [List.length_cons] at hlast
        exact ⟨hlevel, by omega⟩
  · rintro ⟨hne, hsingle, hmulti, hrest⟩
    constructor
    · intro level' hmem
      rcases List.mem_cons.mp hmem with heq | hmem
      · rwa [heq]
      · exact hrest.nonempty level' hmem
    · intro level' hmem
      rcases List.mem_cons.mp hmem with heq | hmem
      · rwa [heq]
      · exact hrest.single level' hmem
    · intro i level' hget hhash
      cases i with
      | zero =>
          have hlevel : level = level' := Option.some.inj hget
          rw [← hlevel] at hhash ⊢
          obtain ⟨heq, hnil⟩ := hmulti hhash
          rw [hnil]
          exact ⟨heq, rfl⟩
      | succ i =>
          obtain ⟨heq, hlast⟩ := hrest.multi i level' hget hhash
          rw [List.length_cons]
          exact ⟨heq, by omega⟩

theorem filterLevels_nil : FilterLevels [] := by
  constructor <;> simp

theorem filterSegmentsValid_cons {level : Bytes} {rest : List Bytes} :
    filterSegmentsValid (level :: rest) = true ↔
      level ≠ [] ∧ (plus ∈ level → level = singleWildcard) ∧
        (hash ∈ level → level = multiWildcard ∧ rest = []) ∧
        filterSegmentsValid rest = true := by
  rw [filterSegmentsValid.eq_def (level :: rest)]
  dsimp only
  by_cases hmulti : level = multiWildcard
  · have hvalid : rest = [] → filterSegmentsValid rest = true := by
      rintro rfl
      rfl
    simpa [hmulti, multiWildcard, singleWildcard, plus, hash] using hvalid
  · by_cases hplus : plus ∈ level
    · by_cases hsingle : level = singleWildcard
      · simp [hsingle, singleWildcard, multiWildcard, hash]
      · have hcontains : level.contains 0x2b = true := List.contains_iff_mem.mpr hplus
        rw [hcontains]
        simp [hsingle, hplus]
    · have hcontains : level.contains 0x2b = false := by
        rw [Bool.eq_false_iff]
        exact fun h => hplus (List.contains_iff_mem.mp h)
      by_cases hhash : hash ∈ level
      · have hcontains' : level.contains 0x23 = true := List.contains_iff_mem.mpr hhash
        rw [hcontains, hcontains']
        simp [hmulti, hplus, hhash]
      · have hcontains' : level.contains 0x23 = false := by
          rw [Bool.eq_false_iff]
          exact fun h => hhash (List.contains_iff_mem.mp h)
        rw [hcontains, hcontains']
        simp [hmulti, hplus, hhash]

theorem filterSegmentsValid_iff (ls : List Bytes) :
    filterSegmentsValid ls = true ↔ FilterLevels ls := by
  induction ls with
  | nil => exact iff_of_true rfl filterLevels_nil
  | cons level rest ih => rw [filterSegmentsValid_cons, filterLevels_cons, ih]

theorem isValidFilter_iff {cfg : Config} {s : Bytes} (h : WithinTopicLimits cfg s) :
    isValidFilter cfg s = true ↔ s ≠ [] ∧ FilterLevels (split s) := by
  unfold isValidFilter
  rw [if_neg (Int.not_lt.mpr h.1), if_neg (Int.not_lt.mpr h.2), ← filterSegmentsValid_iff]
  by_cases hs : s = []
  · simp [hs]
  · simp [hs]

/-! ## Where they agree with the grammars -/

theorem not_plainLevels_concat (ls : List Bytes) : ¬PlainLevels (ls ++ [[]]) := by
  intro h
  exact (h [] (by simp)).1 rfl

theorem TopicGrammar.plainLevels {s : Bytes} (h : TopicGrammar s) : PlainLevels (levels s) := by
  intro level hmem
  obtain ⟨hne, hplus, hhash⟩ := h.2 level hmem
  refine ⟨hne, ?_, ?_⟩
  · rintro rfl
    exact hplus List.mem_cons_self
  · rintro rfl
    exact hhash List.mem_cons_self

theorem isValidTopic_agrees_iff {cfg : Config} {s : Bytes} (h : WithinTopicLimits cfg s) :
    (isValidTopic cfg s = true ↔ TopicGrammar s) ↔ TopicJudged s := by
  rw [isValidTopic_iff h]
  by_cases hs : s = []
  · have hjudged : TopicJudged s := by
      constructor
      · intro t ht
        rw [hs] at ht
        simp at ht
      · intro hplain
        rw [hs] at hplain
        exact absurd hplain (not_plainLevels_concat [])
    refine iff_of_true ?_ hjudged
    simp [TopicGrammar, hs]
  · simp only [ne_eq, hs, not_false_eq_true, true_and]
    rcases split_cases hs with ⟨t, ht, hsplit⟩ | ⟨hlast, hsplit⟩
    · have hopen : ¬PlainLevels (levels s) := by
        rw [ht, levels_concat_separator]
        exact not_plainLevels_concat (levels t)
      have hgrammar : ¬TopicGrammar s := fun hgrammar => hopen hgrammar.plainLevels
      rw [hsplit, iff_false_right hgrammar]
      constructor
      · intro hplain
        refine ⟨fun t' ht' => ?_, fun hlevels => absurd hlevels hopen⟩
        rw [ht] at ht'
        rwa [← List.append_cancel_right ht']
      · intro hjudged
        exact hjudged.1 t ht
    · rw [hsplit]
      constructor
      · intro hiff
        refine ⟨fun t ht => absurd ht (hlast t), fun hplain level hmem => ?_⟩
        exact ((hiff.mp hplain).2 level hmem).2
      · intro hjudged
        constructor
        · intro hplain
          refine ⟨hs, fun level hmem => ?_⟩
          exact ⟨(hplain level hmem).1, hjudged.2 hplain level hmem⟩
        · exact TopicGrammar.plainLevels

theorem isValidFilter_agrees_iff {cfg : Config} {s : Bytes} (h : WithinTopicLimits cfg s) :
    (isValidFilter cfg s = true ↔ FilterGrammar s) ↔ FilterJudged s := by
  rw [isValidFilter_iff h]
  by_cases hs : s = []
  · have hjudged : FilterJudged s := by
      intro t ht
      rw [hs] at ht
      simp at ht
    refine iff_of_true ?_ hjudged
    simp [FilterGrammar, hs]
  · unfold FilterGrammar
    simp only [ne_eq, hs, not_false_eq_true, true_and]
    rcases split_cases hs with ⟨t, ht, hsplit⟩ | ⟨hlast, hsplit⟩
    · have hopen : ¬FilterLevels (levels s) := by
        rw [ht, levels_concat_separator]
        intro hlevels
        exact hlevels.nonempty [] (by simp) rfl
      have hstem : FilterGrammar t ↔ FilterLevels (levels t) := by
        refine and_iff_right_of_imp fun hlevels hnil => ?_
        rw [hnil] at hlevels
        exact hlevels.nonempty [] (by simp [levels_nil]) rfl
      rw [hsplit, iff_false_right hopen, ← hstem]
      constructor
      · intro hfilter t' ht'
        rw [ht] at ht'
        rwa [← List.append_cancel_right ht']
      · intro hjudged
        exact hjudged t ht
    · rw [hsplit]
      exact iff_of_true Iff.rfl fun t ht => absurd ht (hlast t)

/-- Within the limits of length and depth, the two functions accept the strings of
their grammars, except for the strings that end in a separator behind an accepted
one and, for topics, those with a wildcard character beside other characters. -/
theorem validation_accepts_grammar_iff (cfg : Config) (s : Bytes) (h : WithinTopicLimits cfg s) :
    ((isValidTopic cfg s = true ↔ TopicGrammar s) ↔ TopicJudged s) ∧
      ((isValidFilter cfg s = true ↔ FilterGrammar s) ↔ FilterJudged s) :=
  ⟨isValidTopic_agrees_iff h, isValidFilter_agrees_iff h⟩

/-- The string `a/b`. -/
theorem validation_accepts_grammar_sample :
    WithinTopicLimits {} [0x61, 0x2f, 0x62] ∧
      (isValidTopic {} [0x61, 0x2f, 0x62] = true ↔ TopicGrammar [0x61, 0x2f, 0x62]) ∧
      (isValidFilter {} [0x61, 0x2f, 0x62] = true ↔ FilterGrammar [0x61, 0x2f, 0x62]) := by
  have hlimits : WithinTopicLimits {} [0x61, 0x2f, 0x62] := by
    constructor <;> decide
  have hlast (t : Bytes) : [0x61, 0x2f, 0x62] ≠ t ++ [levelSeparator] := by
    intro ht
    have hlast := congrArg List.getLast? ht
    rw [List.getLast?_concat] at hlast
    exact absurd hlast (by decide)
  have hagrees := validation_accepts_grammar_iff {} [0x61, 0x2f, 0x62] hlimits
  refine ⟨hlimits, hagrees.1.mpr ⟨fun t ht => absurd ht (hlast t), fun _ => ?_⟩,
    hagrees.2.mpr fun t ht => absurd ht (hlast t)⟩
  decide

/-- The topics `a+b` and `a/` and the filter `a/#/` are accepted. -/
theorem validation_accepts_outside_grammar :
    WithinTopicLimits {} [0x61, 0x2b, 0x62] ∧
    isValidTopic {} [0x61, 0x2b, 0x62] = true ∧ ¬TopicGrammar [0x61, 0x2b, 0x62] ∧
    WithinTopicLimits {} [0x61, 0x2f] ∧
    isValidTopic {} [0x61, 0x2f] = true ∧ ¬TopicGrammar [0x61, 0x2f] ∧
    WithinTopicLimits {} [0x61, 0x2f, 0x23, 0x2f] ∧
    isValidFilter {} [0x61, 0x2f, 0x23, 0x2f] = true ∧
    ¬FilterGrammar [0x61, 0x2f, 0x23, 0x2f] := by
  refine ⟨⟨by decide, by decide⟩, by decide, ?_, ⟨by decide, by decide⟩, by decide, ?_,
    ⟨by decide, by decide⟩, by decide, ?_⟩
  · intro h
    exact absurd (h.2 [0x61, 0x2b, 0x62] (by decide)).2.1 (by decide)
  · intro h
    exact (h.2 [] (by decide)).1 rfl
  · intro h
    exact h.2.nonempty [] (by decide) rfl

end JellyBroker.Topic
