import JellyBroker.Topic.Matching
/-!
# Filters matched as if they were topics

`topic::matches` takes the segments of a filter for literal topic segments
when a filter string is passed as the topic.  This module says for which
patterns a match of the filter carries over to the topics it covers.
-/

namespace JellyBroker.Topic

/-! ## Segments and separators -/

theorem not_mem_of_mem_splitFrom {segment path s : Bytes} (hsegment : levelSeparator ∉ segment)
    (h : s ∈ splitFrom segment path) : levelSeparator ∉ s := by
  induction path generalizing segment with
  | nil =>
      unfold splitFrom at h
      split at h
      · simp at h
      · rwa [List.mem_singleton.mp h]
  | cons c rest ih =>
      unfold splitFrom at h
      split at h
      · rcases List.mem_cons.mp h with hs | hs
        · rwa [hs]
        · exact ih (by simp) hs
      · rename_i hc
        refine ih ?_ h
        simp only [List.mem_append, List.mem_singleton, not_or]
        exact ⟨hsegment, fun heq => hc heq.symm⟩

theorem splitFrom_append (segment s rest : Bytes) (hs : levelSeparator ∉ s) :
    splitFrom segment (s ++ levelSeparator :: rest) =
      (segment ++ s) :: splitFrom [] rest := by
  induction s generalizing segment with
  | nil => simp [splitFrom]
  | cons c s ih =>
      simp only [List.mem_cons, not_or] at hs
      have hc : c ≠ levelSeparator := fun heq => hs.1 heq.symm
      simp only [List.cons_append, splitFrom, hc, if_false]
      rw [ih _ hs.2]
      simp

theorem splitFrom_last (segment s : Bytes) (hs : levelSeparator ∉ s) (hne : segment ++ s ≠ []) :
    splitFrom segment s = [segment ++ s] := by
  induction s generalizing segment with
  | nil =>
      have hsegment : segment ≠ [] := by simpa using hne
      simp [splitFrom, hsegment]
  | cons c s ih =>
      simp only [List.mem_cons, not_or] at hs
      have hc : c ≠ levelSeparator := fun heq => hs.1 heq.symm
      simp only [splitFrom, hc, if_false]
      rw [ih _ hs.2 (by simp)]
      simp

def joinSegments (stem : List Bytes) (last : Bytes) : Bytes :=
  stem.flatMap (· ++ [levelSeparator]) ++ last

theorem split_joinSegments {stem : List Bytes} {last : Bytes}
    (hstem : ∀ s ∈ stem, levelSeparator ∉ s) (hlast : levelSeparator ∉ last)
    (hne : last ≠ []) :
    split (joinSegments stem last) = stem ++ [last] := by
  induction stem with
  | nil => simpa [split, joinSegments] using splitFrom_last [] last hlast (by simpa using hne)
  | cons s stem ih =>
      have htail := ih fun s' hs' => hstem s' (List.mem_cons_of_mem _ hs')
      have hhead := hstem s (List.mem_cons_self ..)
      have hjoin : joinSegments (s :: stem) last =
          s ++ levelSeparator :: joinSegments stem last := by
        simp [joinSegments]
      rw [hjoin, split, splitFrom_append _ _ _ hhead]
      simpa [split] using htail

/-! ## Lengths -/

theorem matches_length {filter topic : List Bytes} (h : Matches filter topic)
    (hlast : filter.getLast? ≠ some multiWildcard) : topic.length = filter.length := by
  induction h with
  | nil => rfl
  | multi topic => exact absurd rfl hlast
  | @single segment filter topic _ ih =>
      have htail : filter.getLast? ≠ some multiWildcard := by
        intro heq
        apply hlast
        rw [List.getLast?_cons, heq]
        rfl
      simp [ih htail]
  | @literal segment filter topic _ _ _ ih =>
      have htail : filter.getLast? ≠ some multiWildcard := by
        intro heq
        apply hlast
        rw [List.getLast?_cons, heq]
        rfl
      simp [ih htail]

theorem matchesFrom_length {topic pattern : List Bytes}
    (hpattern : ∀ s ∈ pattern, s ≠ multiWildcard) (h : matchesFrom topic pattern = true) :
    topic.length = pattern.length := by
  induction pattern generalizing topic with
  | nil =>
      cases topic with
      | nil => rfl
      | cons level topic => simp [matchesFrom] at h
  | cons segment pattern ih =>
      have hsegment := hpattern segment (List.mem_cons_self ..)
      have htail := fun s hs => hpattern s (List.mem_cons_of_mem _ hs)
      cases topic with
      | nil => simp [matchesFrom] at h
      | cons level topic =>
          simp only [matchesFrom, hsegment, if_false] at h
          split_ifs at h with hsingle hlevel
          · simp [ih htail h]
          · simp [ih htail h]

/-! ## Coverage -/

/-- A pattern that accepts a filter, read as a topic, accepts every topic of
the same length that the filter covers. -/
theorem matchesFrom_of_covered {filter topic pattern : List Bytes}
    (hcover : Matches filter topic) (hlength : topic.length = filter.length)
    (h : matchesFrom filter pattern = true) : matchesFrom topic pattern = true := by
  induction hcover generalizing pattern with
  | nil => exact h
  | multi topic =>
      -- the only level of the topic stands where the filter has its `#`
      obtain ⟨level, rfl⟩ := List.length_eq_one_iff.mp hlength
      cases pattern with
      | nil => simp [matchesFrom] at h
      | cons segment pattern =>
          simp only [matchesFrom] at h ⊢
          by_cases hmulti : segment = multiWildcard
          · rw [if_pos hmulti]
          · by_cases hsingle : segment = singleWildcard
            · rw [if_neg hmulti, if_pos hsingle] at h ⊢
              exact h
            · rw [if_neg hmulti, if_neg hsingle, if_pos (Ne.symm hmulti)] at h
              cases h
  | single _ ih =>
      simp only [List.length_cons, Nat.add_right_cancel_iff] at hlength
      cases pattern with
      | nil => simp [matchesFrom] at h
      | cons segment pattern =>
          simp only [matchesFrom] at h ⊢
          by_cases hmulti : segment = multiWildcard
          · rw [if_pos hmulti]
          · by_cases hsingle : segment = singleWildcard
            · rw [if_neg hmulti, if_pos hsingle] at h ⊢
              exact ih hlength h
            · rw [if_neg hmulti, if_neg hsingle, if_pos (Ne.symm hsingle)] at h
              cases h
  | literal _ _ _ ih =>
      simp only [List.length_cons, Nat.add_right_cancel_iff] at hlength
      cases pattern with
      | nil => simp [matchesFrom] at h
      | cons segment pattern =>
          simp only [matchesFrom] at h ⊢
          split_ifs at h ⊢ with hmulti hsingle hlevel
          · rfl
          · exact ih hlength h
          · exact ih hlength h

theorem matchesFrom_append_same (stem : List Bytes) {topic pattern : List Bytes}
    (h : matchesFrom topic pattern = true) :
    matchesFrom (stem ++ topic) (stem ++ pattern) = true := by
  induction stem with
  | nil => exact h
  | cons segment stem ih => simp [matchesFrom, ih]

/-- The pattern that has `+` where a filter ends in `#` accepts the filter,
read as a topic, and only topics of the filter's length. -/
theorem matchesFrom_single_for_multi (stem : List Bytes) :
    matchesFrom (stem ++ [multiWildcard]) (stem ++ [singleWildcard]) = true :=
  matchesFrom_append_same stem (by decide)

theorem ne_multi_of_filterShape {stem : List Bytes}
    (h : FilterShape (stem ++ [multiWildcard])) : ∀ s ∈ stem, s ≠ multiWildcard := by
  induction stem with
  | nil => simp
  | cons segment stem ih =>
      intro s hs heq
      rcases List.mem_cons.mp hs with hhead | htail
      · have hnil := h.1 (hhead ▸ heq)
        simp at hnil
      · exact ih h.2 s htail heq

end JellyBroker.Topic
