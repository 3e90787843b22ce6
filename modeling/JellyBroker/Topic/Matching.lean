import JellyBroker.Topic.Filter
import Mathlib.Tactic
/-!
# MQTT matching

The matching relation between the segments of a filter and the segments of a
topic, independent of either matcher in the code, and its relation to the
two-index loop of `topic::matches`.
-/

namespace JellyBroker.Topic

/-- `+` stands for exactly one segment, a final `#` for any remainder
including the empty one, and every other segment for itself. -/
inductive Matches : List Bytes → List Bytes → Prop
  | nil : Matches [] []
  | multi (topic : List Bytes) : Matches [multiWildcard] topic
  | single {segment : Bytes} {filter topic : List Bytes} :
      Matches filter topic → Matches (singleWildcard :: filter) (segment :: topic)
  | literal {segment : Bytes} {filter topic : List Bytes} :
      segment ≠ singleWildcard → segment ≠ multiWildcard →
      Matches filter topic → Matches (segment :: filter) (segment :: topic)

/-- `#` occurs in the last position only. -/
def FilterShape : List Bytes → Prop
  | [] => True
  | segment :: rest => (segment = multiWildcard → rest = []) ∧ FilterShape rest

def TopicShape (topic : List Bytes) : Prop :=
  ∀ segment ∈ topic, segment ≠ singleWildcard ∧ segment ≠ multiWildcard

theorem singleWildcard_ne_multiWildcard : singleWildcard ≠ multiWildcard := by
  decide

theorem TopicShape.tail {segment : Bytes} {topic : List Bytes}
    (h : TopicShape (segment :: topic)) : TopicShape topic :=
  fun s hs => h s (List.mem_cons_of_mem _ hs)

@[simp] theorem matches_nil_left {topic : List Bytes} :
    Matches [] topic ↔ topic = [] := by
  constructor
  · intro h
    cases h
    rfl
  · rintro rfl
    exact .nil

@[simp] theorem matches_multi_cons {filter topic : List Bytes} :
    Matches (multiWildcard :: filter) topic ↔ filter = [] := by
  constructor
  · intro h
    generalize hf : multiWildcard :: filter = f at h
    cases h with
    | nil => cases hf
    | multi _ => exact (List.cons.inj hf).2
    | single _ => exact absurd (List.cons.inj hf).1.symm singleWildcard_ne_multiWildcard
    | literal _ hm _ => exact absurd (List.cons.inj hf).1.symm hm
  · rintro rfl
    exact .multi topic

@[simp] theorem matches_single_cons {segment : Bytes} {filter topic : List Bytes} :
    Matches (singleWildcard :: filter) (segment :: topic) ↔ Matches filter topic := by
  constructor
  · intro h
    generalize hf : singleWildcard :: filter = f at h
    generalize ht : segment :: topic = t at h
    cases h with
    | nil => cases hf
    | multi _ => exact absurd (List.cons.inj hf).1 singleWildcard_ne_multiWildcard
    | single h => rwa [(List.cons.inj hf).2, (List.cons.inj ht).2]
    | literal hs _ _ => exact absurd (List.cons.inj hf).1.symm hs
  · exact .single

theorem matches_literal_cons {segment segment' : Bytes} {filter topic : List Bytes}
    (hsingle : segment' ≠ singleWildcard) (hmulti : segment' ≠ multiWildcard) :
    Matches (segment' :: filter) (segment :: topic) ↔
      segment = segment' ∧ Matches filter topic := by
  constructor
  · intro h
    generalize hf : segment' :: filter = f at h
    generalize ht : segment :: topic = t at h
    cases h with
    | nil => cases hf
    | multi _ => exact absurd (List.cons.inj hf).1 hmulti
    | single _ => exact absurd (List.cons.inj hf).1 hsingle
    | literal _ _ h =>
        obtain ⟨rfl, rfl⟩ := List.cons.inj hf
        obtain ⟨rfl, rfl⟩ := List.cons.inj ht
        exact ⟨rfl, h⟩
  · rintro ⟨rfl, h⟩
    exact .literal hsingle hmulti h

theorem matches_nil_right {segment : Bytes} {filter : List Bytes} :
    Matches (segment :: filter) [] ↔ segment = multiWildcard ∧ filter = [] := by
  constructor
  · intro h
    cases h with
    | multi _ => exact ⟨rfl, rfl⟩
  · rintro ⟨rfl, rfl⟩
    exact .multi []

/-! ## What the validity checks guarantee -/

theorem filterShape_of_segmentsValid {segments : List Bytes}
    (h : filterSegmentsValid segments = true) : FilterShape segments := by
  induction segments with
  | nil => trivial
  | cons segment rest ih =>
      by_cases hmulti : segment = multiWildcard
      · subst hmulti
        have hrest : rest = [] := by
          simpa [filterSegmentsValid, multiWildcard, singleWildcard] using h
        subst hrest
        exact ⟨fun _ => rfl, trivial⟩
      · refine ⟨fun h' => absurd h' hmulti, ih ?_⟩
        simp only [filterSegmentsValid, hmulti, if_false] at h
        split at h
        · cases h
        · split at h
          · cases h
          · split at h
            · cases h
            · exact h

theorem filterShape_of_valid {cfg : Config} {filter : Bytes}
    (h : isValidFilter cfg filter = true) : FilterShape (split filter) := by
  apply filterShape_of_segmentsValid
  unfold isValidFilter at h
  split_ifs at h
  exact h

theorem topicShape_of_valid {cfg : Config} {topic : Bytes}
    (h : isValidTopic cfg topic = true) : TopicShape (split topic) := by
  unfold isValidTopic at h
  split_ifs at h
  intro segment hmem
  have hseg := List.all_eq_true.mp h segment hmem
  simp at hseg
  exact hseg.2

/-! ## The loop of `topic::matches` -/

/-- A topic that a filter covers only because its final `#` stands for no
segment at all. -/
def HashStandsForNoLevel (filter topic : List Bytes) : Prop :=
  ∃ stem, filter = stem ++ [multiWildcard] ∧ Matches stem topic

theorem hashStandsForNoLevel_cons {segment : Bytes} {filter topic : List Bytes}
    (hmulti : segment ≠ multiWildcard) :
    HashStandsForNoLevel (segment :: filter) topic ↔
      ∃ stem, filter = stem ++ [multiWildcard] ∧ Matches (segment :: stem) topic := by
  constructor
  · rintro ⟨stem, hstem, hm⟩
    cases stem with
    | nil => exact absurd (List.cons.inj hstem).1 hmulti
    | cons s stem =>
        obtain ⟨rfl, rfl⟩ := List.cons.inj hstem
        exact ⟨stem, rfl, hm⟩
  · rintro ⟨stem, rfl, hm⟩
    exact ⟨segment :: stem, rfl, hm⟩

/-- The loop of `topic::matches` decides MQTT matching except that it never
lets a final `#` stand for the empty remainder. -/
theorem matchesFrom_iff {filter topic : List Bytes} (hfilter : FilterShape filter)
    (htopic : TopicShape topic) :
    matchesFrom topic filter = true ↔
      Matches filter topic ∧ ¬HashStandsForNoLevel filter topic := by
  induction filter generalizing topic with
  | nil => cases topic <;> simp [matchesFrom, HashStandsForNoLevel]
  | cons segment rest ih =>
      cases topic with
      | nil =>
          -- the loop ends with a filter segment left over
          have hfalse : matchesFrom [] (segment :: rest) = false := rfl
          rw [hfalse, matches_nil_right]
          constructor
          · intro h
            cases h
          · rintro ⟨⟨rfl, rfl⟩, hnot⟩
            exact absurd ⟨[], rfl, .nil⟩ hnot
      | cons level topic =>
          have htail := ih hfilter.2 htopic.tail
          by_cases hmulti : segment = multiWildcard
          · subst hmulti
            have hrest := hfilter.1 rfl
            subst hrest
            have hno : ¬HashStandsForNoLevel [multiWildcard] (level :: topic) := by
              rintro ⟨stem, hstem, hm⟩
              have hnil : stem = [] := by simpa using congrArg List.length hstem
              subst hnil
              simp at hm
            simp [matchesFrom, hno]
          · rw [hashStandsForNoLevel_cons hmulti]
            by_cases hsingle : segment = singleWildcard
            · subst hsingle
              simp only [matchesFrom, hmulti, if_false, if_true, matches_single_cons]
              exact htail
            · simp only [matchesFrom, hmulti, hsingle, if_false,
                matches_literal_cons hsingle hmulti]
              by_cases hlevel : level = segment
              · simp only [hlevel, ne_eq, not_true_eq_false, if_false, true_and]
                exact htail
              · simp [hlevel]

end JellyBroker.Topic
