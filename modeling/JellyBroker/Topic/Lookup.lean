import JellyBroker.Topic.Subscriptions
/-!
# What `lookup` returns

`lookup` answers the MQTT matching query on the subscription table, one entry
per matching pair.  The second half compares it with `topic::matches`, the
matcher that retained delivery and the ACL check use.
-/

namespace JellyBroker.Topic

open Node (visitedPaths)

/-! ## Visited paths and matching -/

/-- `lookup` visits the path of a filter exactly when the filter matches. -/
theorem mem_visitedPaths_iff {segments topic : List Bytes} (hshape : FilterShape segments)
    (htopic : TopicShape topic) :
    segments.map Edge.ofFilterSegment ∈ visitedPaths topic ↔ Matches segments topic := by
  induction topic generalizing segments with
  | nil =>
      cases segments with
      | nil => simp [visitedPaths]
      | cons segment rest =>
          rw [matches_nil_right]
          constructor
          · intro h
            have h' : Edge.ofFilterSegment segment = .multiWild ∧ rest = [] := by
              simpa [visitedPaths] using h
            refine ⟨?_, h'.2⟩
            rw [← segment_ofFilterSegment segment, h'.1]
            rfl
          · rintro ⟨rfl, rfl⟩
            simp [visitedPaths]
  | cons level topic ih =>
      cases segments with
      | nil => simp [visitedPaths]
      | cons segment rest =>
          have htail := ih hshape.2 htopic.tail
          by_cases hmulti : segment = multiWildcard
          · have hrest := hshape.1 hmulti
            subst hmulti
            subst hrest
            simp [visitedPaths]
          · by_cases hsingle : segment = singleWildcard
            · subst hsingle
              simpa [visitedPaths] using htail
            · rw [matches_literal_cons hsingle hmulti]
              have hedge := ofFilterSegment_literal hsingle hmulti
              simp [visitedPaths, hedge, htail, and_comm]

theorem nodup_visitedPaths (topic : List Bytes) : (visitedPaths topic).Nodup := by
  induction topic with
  | nil => simp [visitedPaths]
  | cons level topic ih =>
      have hsingle : ((visitedPaths topic).map (Edge.singleWild :: ·)).Nodup :=
        ih.map (List.cons_injective)
      have hchild : ((visitedPaths topic).map (Edge.child level :: ·)).Nodup :=
        ih.map (List.cons_injective)
      have hrest : ((visitedPaths topic).map (Edge.singleWild :: ·) ++
          (visitedPaths topic).map (Edge.child level :: ·)).Nodup := by
        refine List.nodup_append.mpr ⟨hsingle, hchild, ?_⟩
        simp
      rw [visitedPaths, List.append_assoc]
      refine List.nodup_append.mpr ⟨by simp, hrest, ?_⟩
      intro path hpath path' hpath' heq
      subst heq
      simp only [List.mem_cons, List.not_mem_nil, or_false] at hpath
      rcases hpath with rfl | rfl <;> simp at hpath'

/-! ## One entry per matching pair -/

/-- The rows behind the entries of a `lookup`: filter segments, session and
QoS of each entry, in the order of the entries. -/
def lookupRows (tree : TopicTree) (topic : Bytes) : List (List Bytes × SessionId × Nat) :=
  (visitedPaths (split topic)).flatMap fun path =>
    (tree.root.subscribersAt path).map fun entry =>
      (path.map Edge.segment, entry.session, entry.qos)

theorem lookup_eq_lookupRows (tree : TopicTree) (topic : Bytes) :
    tree.lookup topic =
      (lookupRows tree topic).map fun row => ⟨row.2.1, row.2.2⟩ := by
  rw [TopicTree.lookup_eq, lookupRows, List.map_flatMap]
  congr 1
  funext path
  rw [List.map_map]
  exact (List.map_id _).symm

theorem Represents.path_of_mem {tree : TopicTree} {table : SubscriptionTable}
    (h : Represents tree table) {path : List Edge} {entry : SubscriberEntry}
    (hmem : entry ∈ tree.root.subscribersAt path) :
    path = (path.map Edge.segment).map Edge.ofFilterSegment ∧
      table (path.map Edge.segment) entry.session = some entry.qos := by
  obtain ⟨segments, rfl, htable⟩ := (h.mem_iff path entry).mp hmem
  rw [map_segment_ofFilterSegment]
  exact ⟨rfl, htable⟩

theorem mem_lookupRows_iff {tree : TopicTree} {table : SubscriptionTable}
    (h : Represents tree table) {topic : Bytes} (htopic : TopicShape (split topic))
    (segments : List Bytes) (session : SessionId) (qos : Nat) :
    (segments, session, qos) ∈ lookupRows tree topic ↔
      table segments session = some qos ∧ Matches segments (split topic) := by
  constructor
  · intro hmem
    obtain ⟨path, hvisited, hrow⟩ := List.mem_flatMap.mp hmem
    obtain ⟨entry, hentry, heq⟩ := List.mem_map.mp hrow
    simp only [Prod.mk.injEq] at heq
    obtain ⟨rfl, rfl, rfl⟩ := heq
    obtain ⟨hpath, htable⟩ := h.path_of_mem hentry
    refine ⟨htable, ?_⟩
    have hshape := h.shape _ _ (by rw [htable]; simp)
    rw [← mem_visitedPaths_iff hshape htopic, ← hpath]
    exact hvisited
  · rintro ⟨htable, hmatch⟩
    have hshape := h.shape segments session (by rw [htable]; simp)
    refine List.mem_flatMap.mpr
      ⟨segments.map Edge.ofFilterSegment, (mem_visitedPaths_iff hshape htopic).mpr hmatch, ?_⟩
    refine List.mem_map.mpr ⟨⟨session, qos⟩, ?_, ?_⟩
    · exact (h.mem_iff _ _).mpr ⟨segments, rfl, htable⟩
    · rw [map_segment_ofFilterSegment]

theorem nodup_lookupRows_keys {tree : TopicTree} {table : SubscriptionTable}
    (h : Represents tree table) (topic : Bytes) :
    ((lookupRows tree topic).map fun row => (row.1, row.2.1)).Nodup := by
  rw [lookupRows, List.map_flatMap, List.nodup_flatMap]
  constructor
  · -- within one path the sessions differ
    intro path _
    rw [List.map_map]
    have hmap : (tree.root.subscribersAt path).map
        ((fun row : List Bytes × SessionId × Nat => (row.1, row.2.1)) ∘
          fun entry => (path.map Edge.segment, entry.session, entry.qos)) =
        ((tree.root.subscribersAt path).map (·.session)).map
          (Prod.mk (path.map Edge.segment)) := by
      rw [List.map_map]
      rfl
    rw [hmap]
    exact (h.sessions_nodup path).map (Prod.mk_right_injective _)
  · -- two paths with a common row are the same path
    refine (nodup_visitedPaths _).imp ?_
    intro path path' hne
    rw [Function.onFun, List.disjoint_left]
    intro row hrow hrow'
    simp only [List.map_map, List.mem_map, Function.comp_apply] at hrow hrow'
    obtain ⟨entry, hentry, rfl⟩ := hrow
    obtain ⟨entry', hentry', heq⟩ := hrow'
    have hseg : path'.map Edge.segment = path.map Edge.segment := (Prod.mk.inj heq).1
    apply hne
    rw [(h.path_of_mem hentry).1, (h.path_of_mem hentry').1, hseg]

/-- After any history of calls, `lookup` returns one entry for each subscribed
pair whose filter matches the topic, with the QoS of its latest subscribe, and
no other entry.  Storing a retained message changes no `lookup`. -/
theorem lookup_matching_subscriptions (cfg : Config) (history : List TreeCall)
    (hcalls : ∀ call ∈ history, call.Admissible cfg) (topic : Bytes)
    (htopic : isValidTopic cfg topic = true) :
    (∃ rows : List (List Bytes × SessionId × Nat),
      (rows.map fun row => (row.1, row.2.1)).Nodup ∧
      (∀ segments session qos, (segments, session, qos) ∈ rows ↔
        tableAfter history segments session = some qos ∧
          Matches segments (split topic)) ∧
      ((treeAfter cfg history).lookup topic).Perm
        (rows.map fun row => ⟨row.2.1, row.2.2⟩)) ∧
    ∀ retainedTopic msg, isValidTopic cfg retainedTopic = true →
      (treeAfter cfg (history ++ [.setRetained retainedTopic msg])).lookup topic =
        (treeAfter cfg history).lookup topic := by
  have hrep := represents_after hcalls
  constructor
  · refine ⟨lookupRows (treeAfter cfg history) topic, nodup_lookupRows_keys hrep topic,
      mem_lookupRows_iff hrep (topicShape_of_valid htopic), ?_⟩
    rw [← lookup_eq_lookupRows]
  · intro retainedTopic msg _
    have hlast : treeAfter cfg (history ++ [.setRetained retainedTopic msg]) =
        ((treeAfter cfg history).setRetained cfg retainedTopic msg).2 := by
      simp [treeAfter, TreeCall.run]
    rw [hlast, lookup_setRetained]

/-- A tree with the filters `a/+`, `#` and `a/#`, the last of them removed
again, asked for `a/b`. -/
theorem lookup_matching_subscriptions_sample :
    ((treeAfter {} [.subscribe [0x61, 0x2f, 0x2b] ⟨1, 0⟩, .subscribe [0x23] ⟨1, 1⟩,
        .subscribe [0x61, 0x2f, 0x23] ⟨2, 2⟩,
        .unsubscribe [0x61, 0x2f, 0x23] 2]).lookup [0x61, 0x2f, 0x62] =
      [⟨1, 1⟩, ⟨1, 0⟩]) ∧
    ∃ rows : List (List Bytes × SessionId × Nat),
      (rows.map fun row => (row.1, row.2.1)).Nodup ∧
      (∀ segments session qos, (segments, session, qos) ∈ rows ↔
        tableAfter [.subscribe [0x61, 0x2f, 0x2b] ⟨1, 0⟩, .subscribe [0x23] ⟨1, 1⟩,
          .subscribe [0x61, 0x2f, 0x23] ⟨2, 2⟩, .unsubscribe [0x61, 0x2f, 0x23] 2]
          segments session = some qos ∧ Matches segments (split [0x61, 0x2f, 0x62])) ∧
      ([⟨1, 1⟩, ⟨1, 0⟩] : List SubscriberEntry).Perm
        (rows.map fun row => ⟨row.2.1, row.2.2⟩) := by
  have hlookup : (treeAfter {} [.subscribe [0x61, 0x2f, 0x2b] ⟨1, 0⟩,
      .subscribe [0x23] ⟨1, 1⟩, .subscribe [0x61, 0x2f, 0x23] ⟨2, 2⟩,
      .unsubscribe [0x61, 0x2f, 0x23] 2]).lookup [0x61, 0x2f, 0x62] =
      [⟨1, 1⟩, ⟨1, 0⟩] := by decide +kernel
  refine ⟨hlookup, ?_⟩
  rw [← hlookup]
  refine (lookup_matching_subscriptions {} _ ?_ [0x61, 0x2f, 0x62] (by decide)).1
  simp only [List.mem_cons, List.not_mem_nil, or_false, forall_eq_or_imp, forall_eq,
    TreeCall.Admissible]
  decide

/-! ## Agreement with `topic::matches` -/

theorem exists_lookup_session_iff {tree : TopicTree} {table : SubscriptionTable}
    (h : Represents tree table) {topic : Bytes} (htopic : TopicShape (split topic))
    (session : SessionId) :
    (∃ entry ∈ tree.lookup topic, entry.session = session) ↔
      ∃ segments, table segments session ≠ none ∧ Matches segments (split topic) := by
  rw [lookup_eq_lookupRows]
  constructor
  · rintro ⟨entry, hentry, rfl⟩
    obtain ⟨⟨segments, session, qos⟩, hrow, rfl⟩ := List.mem_map.mp hentry
    obtain ⟨htable, hmatch⟩ := (mem_lookupRows_iff h htopic _ _ _).mp hrow
    exact ⟨segments, by rw [htable]; simp, hmatch⟩
  · rintro ⟨segments, hsome, hmatch⟩
    obtain ⟨qos, htable⟩ := Option.ne_none_iff_exists'.mp hsome
    refine ⟨⟨session, qos⟩, List.mem_map.mpr ⟨(segments, session, qos), ?_, rfl⟩, rfl⟩
    exact (mem_lookupRows_iff h htopic _ _ _).mpr ⟨htable, hmatch⟩

theorem matches_append_multi {stem topic : List Bytes}
    (hshape : FilterShape (stem ++ [multiWildcard])) (h : Matches stem topic) :
    Matches (stem ++ [multiWildcard]) topic := by
  induction h with
  | nil => exact .multi []
  | multi topic => exact absurd (hshape.1 rfl) (by simp)
  | single _ ih => exact .single (ih hshape.2)
  | literal hsingle hmulti _ ih => exact .literal hsingle hmulti (ih hshape.2)

/-- A session with one subscription is found by `lookup` exactly when
`topic::matches` accepts the pair, unless the filter's `#` would have to stand
for no level: there `lookup` finds the session and `topic::matches` refuses. -/
theorem lookup_agrees_with_topicMatches_iff (cfg : Config) (history : List TreeCall)
    (hcalls : ∀ call ∈ history, call.Admissible cfg) (filter topic : Bytes)
    (hfilter : isValidFilter cfg filter = true) (htopic : isValidTopic cfg topic = true)
    (session : SessionId)
    (honly : ∀ segments, tableAfter history segments session ≠ none ↔
      segments = split filter) :
    ((∃ entry ∈ (treeAfter cfg history).lookup topic, entry.session = session) ↔
        topicMatches topic filter = true) ↔
      ¬HashStandsForNoLevel (split filter) (split topic) := by
  have hshape := filterShape_of_valid hfilter
  have htopicShape := topicShape_of_valid htopic
  have hlookup : (∃ entry ∈ (treeAfter cfg history).lookup topic,
      entry.session = session) ↔ Matches (split filter) (split topic) := by
    rw [exists_lookup_session_iff (represents_after hcalls) htopicShape]
    simp only [honly, exists_eq_left]
  rw [hlookup, topicMatches, matchesFrom_iff hshape htopicShape]
  constructor
  · intro hagree hno
    obtain ⟨stem, hstem, hmatch⟩ := hno
    have hmatches : Matches (split filter) (split topic) := by
      rw [hstem] at hshape ⊢
      exact matches_append_multi hshape hmatch
    exact (hagree.mp hmatches).2 ⟨stem, hstem, hmatch⟩
  · intro hno
    exact ⟨fun h => ⟨h, hno⟩, And.left⟩

theorem lookup_agrees_with_topicMatches_sample :
    ((∃ entry ∈ (treeAfter {} [.subscribe [0x61, 0x2f, 0x23] ⟨7, 1⟩]).lookup
          [0x61, 0x2f, 0x62], entry.session = 7) ↔
        topicMatches [0x61, 0x2f, 0x62] [0x61, 0x2f, 0x23] = true) ↔
      ¬HashStandsForNoLevel (split [0x61, 0x2f, 0x23]) (split [0x61, 0x2f, 0x62]) := by
  refine lookup_agrees_with_topicMatches_iff {} _ ?_ _ _ (by decide) (by decide) 7 ?_
  · simp only [List.mem_cons, List.not_mem_nil, or_false, forall_eq, TreeCall.Admissible]
    decide
  · intro segments
    simp [tableAfter, TreeCall.record, SubscriptionTable.assign, SubscriptionTable.empty]

/-- A session subscribed to `a/#` only: a publish to `a` reaches it, but
`topic::matches` does not accept `a` for `a/#`. -/
theorem lookup_disagrees_on_parent_level :
    isValidFilter {} [0x61, 0x2f, 0x23] = true ∧ isValidTopic {} [0x61] = true ∧
    (∀ segments, tableAfter [.subscribe [0x61, 0x2f, 0x23] ⟨7, 1⟩] segments 7 ≠ none ↔
      segments = split [0x61, 0x2f, 0x23]) ∧
    ¬((∃ entry ∈ (treeAfter {} [.subscribe [0x61, 0x2f, 0x23] ⟨7, 1⟩]).lookup [0x61],
          entry.session = 7) ↔
        topicMatches [0x61] [0x61, 0x2f, 0x23] = true) := by
  have hlookup : (treeAfter {} [.subscribe [0x61, 0x2f, 0x23] ⟨7, 1⟩]).lookup [0x61] =
      [⟨7, 1⟩] := by decide +kernel
  refine ⟨by decide, by decide, ?_, ?_⟩
  · intro segments
    simp [tableAfter, TreeCall.record, SubscriptionTable.assign, SubscriptionTable.empty]
  · rw [hlookup]
    decide

end JellyBroker.Topic
