import JellyBroker.Topic.Paths
/-!
# The topic tree as a subscription table

What the tree is for: a table of (filter segments, session) pairs with their
QoS, queried by MQTT matching.  `Represents` ties a tree to such a table, every
mutator keeps the two in step, and `lookup` answers the query.
-/

namespace JellyBroker.Topic

/-- The QoS each (filter segments, session) pair is subscribed with. -/
abbrev SubscriptionTable := List Bytes → SessionId → Option Nat

namespace SubscriptionTable

def empty : SubscriptionTable := fun _ _ => none

def assign (table : SubscriptionTable) (segments : List Bytes) (session : SessionId)
    (qos : Option Nat) : SubscriptionTable :=
  fun segments' session' =>
    if segments' = segments ∧ session' = session then qos else table segments' session'

end SubscriptionTable

inductive TreeCall where
  | subscribe (filter : Bytes) (entry : SubscriberEntry)
  | unsubscribe (filter : Bytes) (session : SessionId)
  | setRetained (topic : Bytes) (msg : RetainedMessage)

namespace TreeCall

/-- Subscribed filters and retained topics were validated by the caller. -/
def Admissible (cfg : Config) : TreeCall → Prop
  | subscribe filter _ => isValidFilter cfg filter = true
  | unsubscribe _ _ => True
  | setRetained topic _ => isValidTopic cfg topic = true

def run (cfg : Config) (tree : TopicTree) : TreeCall → TopicTree
  | subscribe filter entry => tree.subscribe filter entry
  | unsubscribe filter session => tree.unsubscribe filter session
  | setRetained topic msg => (tree.setRetained cfg topic msg).2

def record (table : SubscriptionTable) : TreeCall → SubscriptionTable
  | subscribe filter entry => table.assign (split filter) entry.session (some entry.qos)
  | unsubscribe filter session => table.assign (split filter) session none
  | setRetained _ _ => table

end TreeCall

def treeAfter (cfg : Config) (history : List TreeCall) : TopicTree :=
  history.foldl (TreeCall.run cfg) {}

/-- The pairs subscribed after a history of calls: each with the QoS of its
most recent subscribe, unless it was unsubscribed since. -/
def tableAfter (history : List TreeCall) : SubscriptionTable :=
  history.foldl TreeCall.record SubscriptionTable.empty

/-- The tree holds exactly the pairs of the table, each at its own path and
once. -/
structure Represents (tree : TopicTree) (table : SubscriptionTable) : Prop where
  sessions_nodup : ∀ path, ((tree.root.subscribersAt path).map (·.session)).Nodup
  mem_iff : ∀ path entry, entry ∈ tree.root.subscribersAt path ↔
    ∃ segments, path = segments.map Edge.ofFilterSegment ∧
      table segments entry.session = some entry.qos
  shape : ∀ segments session, table segments session ≠ none → FilterShape segments

/-! ## Edges and segments -/

def Edge.segment : Edge → Bytes
  | .child segment => segment
  | .singleWild => singleWildcard
  | .multiWild => multiWildcard

theorem segment_ofFilterSegment (segment : Bytes) :
    (Edge.ofFilterSegment segment).segment = segment := by
  unfold Edge.ofFilterSegment
  split_ifs with hmulti hsingle
  · exact hmulti.symm
  · exact hsingle.symm
  · rfl

theorem map_segment_ofFilterSegment (segments : List Bytes) :
    (segments.map Edge.ofFilterSegment).map Edge.segment = segments := by
  rw [List.map_map]
  have hid : Edge.segment ∘ Edge.ofFilterSegment = id :=
    funext segment_ofFilterSegment
  rw [hid, List.map_id]

theorem map_ofFilterSegment_inj {segments segments' : List Bytes}
    (h : segments.map Edge.ofFilterSegment = segments'.map Edge.ofFilterSegment) :
    segments = segments' := by
  have h' := congrArg (List.map Edge.segment) h
  rwa [map_segment_ofFilterSegment, map_segment_ofFilterSegment] at h'

@[simp] theorem ofFilterSegment_multi :
    Edge.ofFilterSegment multiWildcard = .multiWild := rfl

@[simp] theorem ofFilterSegment_single :
    Edge.ofFilterSegment singleWildcard = .singleWild := rfl

theorem ofFilterSegment_literal {segment : Bytes} (hsingle : segment ≠ singleWildcard)
    (hmulti : segment ≠ multiWildcard) :
    Edge.ofFilterSegment segment = .child segment := by
  simp [Edge.ofFilterSegment, hsingle, hmulti]

/-! ## The mutators keep the representation -/

theorem sessions_addSubscriber_of_mem {entry : SubscriberEntry}
    {entries : List SubscriberEntry}
    (h : entry.session ∈ entries.map (·.session)) :
    (Node.addSubscriber entry entries).map (·.session) = entries.map (·.session) := by
  induction entries with
  | nil => simp at h
  | cons old rest ih =>
      by_cases hsession : old.session = entry.session
      · simp [Node.addSubscriber, hsession]
      · have hrest : entry.session ∈ rest.map (·.session) := by
          rcases List.mem_cons.mp h with heq | hmem
          · exact absurd heq.symm hsession
          · exact hmem
        simp only [Node.addSubscriber, hsession, if_false, List.map_cons, ih hrest]

theorem addSubscriber_of_not_mem {entry : SubscriberEntry}
    {entries : List SubscriberEntry}
    (h : entry.session ∉ entries.map (·.session)) :
    Node.addSubscriber entry entries = entries ++ [entry] := by
  induction entries with
  | nil => rfl
  | cons old rest ih =>
      simp only [List.map_cons, List.mem_cons, not_or] at h
      have hsession : old.session ≠ entry.session := fun heq => h.1 heq.symm
      simp only [Node.addSubscriber, hsession, if_false, ih h.2, List.cons_append]

theorem sessions_addSubscriber_nodup {entry : SubscriberEntry}
    {entries : List SubscriberEntry} (h : (entries.map (·.session)).Nodup) :
    ((Node.addSubscriber entry entries).map (·.session)).Nodup := by
  by_cases hmem : entry.session ∈ entries.map (·.session)
  · rwa [sessions_addSubscriber_of_mem hmem]
  · rw [addSubscriber_of_not_mem hmem, List.map_append]
    refine List.nodup_append.mpr ⟨h, by simp, ?_⟩
    intro a ha b hb heq
    have hb' : b = entry.session := by simpa using hb
    exact hmem (hb' ▸ heq ▸ ha)

/-- After `subscribe` at a node, the session is there with the new QoS and the
other sessions are there as before. -/
theorem mem_addSubscriber {entry other : SubscriberEntry}
    {entries : List SubscriberEntry} (h : (entries.map (·.session)).Nodup) :
    other ∈ Node.addSubscriber entry entries ↔
      other = entry ∨ (other ∈ entries ∧ other.session ≠ entry.session) := by
  induction entries with
  | nil => simp [Node.addSubscriber]
  | cons old rest ih =>
      simp only [List.map_cons, List.nodup_cons] at h
      by_cases hsession : old.session = entry.session
      · -- the found entry becomes `entry`; no later one has its session
        have hrest : ∀ e ∈ rest, e.session ≠ entry.session := by
          intro e he heq
          exact h.1 (List.mem_map.mpr ⟨e, he, heq.trans hsession.symm⟩)
        simp only [Node.addSubscriber, hsession, if_true, List.mem_cons]
        constructor
        · rintro (rfl | hmem)
          · exact Or.inl rfl
          · exact Or.inr ⟨Or.inr hmem, hrest _ hmem⟩
        · rintro (rfl | ⟨rfl | hmem, hne⟩)
          · exact Or.inl rfl
          · exact absurd hsession hne
          · exact Or.inr hmem
      · simp only [Node.addSubscriber, hsession, if_false, List.mem_cons, ih h.2]
        constructor
        · rintro (rfl | rfl | ⟨hmem, hne⟩)
          · exact Or.inr ⟨Or.inl rfl, hsession⟩
          · exact Or.inl rfl
          · exact Or.inr ⟨Or.inr hmem, hne⟩
        · rintro (rfl | ⟨rfl | hmem, hne⟩)
          · exact Or.inr (Or.inl rfl)
          · exact Or.inl rfl
          · exact Or.inr (Or.inr ⟨hmem, hne⟩)

theorem of_mem_addSubscriber {entry other : SubscriberEntry} {entries : List SubscriberEntry}
    (h : other ∈ Node.addSubscriber entry entries) : other ∈ entries ∨ other = entry := by
  induction entries with
  | nil => exact Or.inr (List.mem_singleton.mp h)
  | cons old rest ih =>
      unfold Node.addSubscriber at h
      split_ifs at h with hsession
      · rcases List.mem_cons.mp h with hnew | hrest
        · right
          rw [hnew, hsession]
        · exact Or.inl (List.mem_cons_of_mem old hrest)
      · rcases List.mem_cons.mp h with hold | hrest
        · left
          rw [hold]
          exact List.mem_cons_self
        · rcases ih hrest with hmem | hnew
          · exact Or.inl (List.mem_cons_of_mem old hmem)
          · exact Or.inr hnew

theorem changes_addSubscriber (entry : SubscriberEntry) :
    Node.ChangesSubscribers
      (fun node => node.withSubscribers (Node.addSubscriber entry node.subscribers))
      (Node.addSubscriber entry) :=
  ⟨fun _ => by simp, fun _ _ => by simp⟩

theorem changes_removeSubscriber (session : SessionId) :
    Node.ChangesSubscribers
      (fun node => node.withSubscribers (Node.removeSubscriber session node.subscribers))
      (Node.removeSubscriber session) :=
  ⟨fun _ => by simp, fun _ _ => by simp⟩

theorem subscribersAt_subscribe (tree : TopicTree) (filter : Bytes)
    (entry : SubscriberEntry) (path : List Edge) :
    (tree.subscribe filter entry).root.subscribersAt path =
      if path = TopicTree.filterPath filter then
        Node.addSubscriber entry (tree.root.subscribersAt path)
      else tree.root.subscribersAt path := by
  have h := Node.subscribersAt_update (changes_addSubscriber entry)
    (TopicTree.filterPath filter) path tree.root
  refine h.trans ?_
  split_ifs with hpath
  · rw [hpath]
  · rfl

theorem subscribersAt_unsubscribe (tree : TopicTree) (filter : Bytes)
    (session : SessionId) (path : List Edge) :
    (tree.unsubscribe filter session).root.subscribersAt path =
      if path = TopicTree.filterPath filter then
        Node.removeSubscriber session (tree.root.subscribersAt path)
      else tree.root.subscribersAt path := by
  have h := Node.subscribersAt_modify (changes_removeSubscriber session) rfl
    (TopicTree.filterPath filter) path tree.root
  refine h.trans ?_
  split_ifs with hpath
  · rw [hpath]
  · rfl

/-- Retained messages live beside the subscribers: storing one, refused or
not, leaves the subscribers of every path as they are. -/
theorem subscribersAt_setRetained (cfg : Config) (tree : TopicTree) (topic : Bytes)
    (msg : RetainedMessage) (path : List Edge) :
    (tree.setRetained cfg topic msg).2.root.subscribersAt path =
      tree.root.subscribersAt path := by
  have hensure : (tree.root.update id (TopicTree.topicPath topic)).subscribersAt path =
      tree.root.subscribersAt path :=
    Node.subscribersAt_update_same ⟨fun _ => rfl, fun _ _ => rfl⟩ _ _ _
  simp only [TopicTree.setRetained]
  split
  · exact hensure
  · rw [Node.subscribersAt_update_same ⟨fun _ => by simp, fun _ _ => by simp⟩]
    exact hensure

theorem lookup_setRetained (cfg : Config) (tree : TopicTree) (retainedTopic : Bytes)
    (msg : RetainedMessage) (topic : Bytes) :
    (tree.setRetained cfg retainedTopic msg).2.lookup topic = tree.lookup topic := by
  rw [TopicTree.lookup_eq, TopicTree.lookup_eq]
  congr 1
  exact funext (subscribersAt_setRetained cfg tree retainedTopic msg)

theorem mem_lookup_unsubscribe {tree : TopicTree} {filter topic : Bytes} {session : SessionId}
    {entry : SubscriberEntry} (h : entry ∈ (tree.unsubscribe filter session).lookup topic) :
    entry ∈ tree.lookup topic := by
  rw [TopicTree.lookup_eq, List.mem_flatMap] at h ⊢
  obtain ⟨path, hpath, hentry⟩ := h
  refine ⟨path, hpath, ?_⟩
  rw [subscribersAt_unsubscribe] at hentry
  split_ifs at hentry
  · exact List.mem_of_mem_filter hentry
  · exact hentry

/-! ## The entries of one session -/

def entryQos (session : SessionId) (tree : TopicTree) (path : List Edge) : List Nat :=
  ((tree.root.subscribersAt path).filter fun entry => entry.session = session).map (·.qos)

def setFirst (qos : Nat) : List Nat → List Nat
  | [] => [qos]
  | _ :: rest => qos :: rest

theorem mem_entryQos {session : SessionId} {tree : TopicTree} {path : List Edge} {qos : Nat} :
    qos ∈ entryQos session tree path ↔ ⟨session, qos⟩ ∈ tree.root.subscribersAt path := by
  unfold entryQos
  rw [List.mem_map]
  constructor
  · rintro ⟨⟨session', qos'⟩, hentry, hqos⟩
    rw [List.mem_filter, decide_eq_true_eq] at hentry
    obtain ⟨hmem, hsession⟩ := hentry
    rw [← hqos, ← hsession]
    exact hmem
  · intro hmem
    refine ⟨⟨session, qos⟩, List.mem_filter.mpr ⟨hmem, ?_⟩, rfl⟩
    exact decide_eq_true rfl

theorem entryQos_ne_nil {session : SessionId} {tree : TopicTree} {path : List Edge} :
    entryQos session tree path ≠ [] ↔
      session ∈ (tree.root.subscribersAt path).map (·.session) := by
  constructor
  · intro hfound
    obtain ⟨qos, hqos⟩ := List.exists_mem_of_ne_nil _ hfound
    exact List.mem_map.mpr ⟨⟨session, qos⟩, mem_entryQos.mp hqos, rfl⟩
  · intro hmem
    obtain ⟨⟨session', qos⟩, hentry, hsession⟩ := List.mem_map.mp hmem
    apply List.ne_nil_of_mem (a := qos)
    rw [mem_entryQos, ← hsession]
    exact hentry

theorem filter_addSubscriber {entry : SubscriberEntry} {session : SessionId}
    (h : entry.session ≠ session) (entries : List SubscriberEntry) :
    (Node.addSubscriber entry entries).filter (fun entry => entry.session = session) =
      entries.filter fun entry => entry.session = session := by
  induction entries with
  | nil => simp [Node.addSubscriber, h]
  | cons old rest ih =>
      unfold Node.addSubscriber
      split_ifs with hsession
      · -- The entry that is replaced is not the other session's.
        have hold : old.session ≠ session := by
          rw [hsession]
          exact h
        simp [hold]
      · rw [List.filter_cons, List.filter_cons, ih]

theorem qos_addSubscriber (session : SessionId) (qos : Nat) (entries : List SubscriberEntry) :
    ((Node.addSubscriber ⟨session, qos⟩ entries).filter
        fun entry => entry.session = session).map (·.qos) =
      setFirst qos ((entries.filter fun entry => entry.session = session).map (·.qos)) := by
  induction entries with
  | nil => simp [Node.addSubscriber, setFirst]
  | cons old rest ih =>
      unfold Node.addSubscriber
      by_cases hsession : old.session = session
      · simp [hsession, setFirst]
      · simp [hsession, ih]

theorem entryQos_subscribe (tree : TopicTree) (filter : Bytes) (session session' : SessionId)
    (qos : Nat) (path : List Edge) :
    entryQos session (tree.subscribe filter ⟨session', qos⟩) path =
      if session' = session ∧ path = TopicTree.filterPath filter then
        setFirst qos (entryQos session tree path)
      else entryQos session tree path := by
  unfold entryQos
  rw [subscribersAt_subscribe]
  by_cases hpath : path = TopicTree.filterPath filter
  · rw [if_pos hpath]
    by_cases hsession : session' = session
    · rw [if_pos ⟨hsession, hpath⟩, hsession, qos_addSubscriber]
    · rw [if_neg fun hboth => hsession hboth.1, filter_addSubscriber hsession]
  · rw [if_neg hpath, if_neg fun hboth => hpath hboth.2]

theorem entryQos_unsubscribe (tree : TopicTree) (filter : Bytes) (session session' : SessionId)
    (path : List Edge) :
    entryQos session (tree.unsubscribe filter session') path =
      if session' = session ∧ path = TopicTree.filterPath filter then []
      else entryQos session tree path := by
  unfold entryQos
  rw [subscribersAt_unsubscribe]
  by_cases hpath : path = TopicTree.filterPath filter
  · rw [if_pos hpath, Node.removeSubscriber, List.filter_filter]
    by_cases hsession : session' = session
    · rw [if_pos ⟨hsession, hpath⟩, hsession]
      simp
    · rw [if_neg fun hboth => hsession hboth.1]
      congr 1
      apply List.filter_congr
      intro entry _
      by_cases hentry : entry.session = session
      · simp [hentry, Ne.symm hsession]
      · simp [hentry]
  · rw [if_neg hpath, if_neg fun hboth => hpath hboth.2]

theorem entryQos_setRetained (cfg : Config) (tree : TopicTree) (topic : Bytes)
    (msg : RetainedMessage) (session : SessionId) (path : List Edge) :
    entryQos session (tree.setRetained cfg topic msg).2 path = entryQos session tree path := by
  unfold entryQos
  rw [subscribersAt_setRetained]

def SameEntries (session : SessionId) (tree tree' : TopicTree) : Prop :=
  ∀ path, entryQos session tree' path = entryQos session tree path

theorem SameEntries.refl (session : SessionId) (tree : TopicTree) :
    SameEntries session tree tree :=
  fun _ => rfl

theorem SameEntries.symm {session : SessionId} {tree tree' : TopicTree}
    (h : SameEntries session tree tree') : SameEntries session tree' tree :=
  fun path => (h path).symm

theorem SameEntries.trans {session : SessionId} {tree₁ tree₂ tree₃ : TopicTree}
    (h : SameEntries session tree₁ tree₂) (h' : SameEntries session tree₂ tree₃) :
    SameEntries session tree₁ tree₃ :=
  fun path => (h' path).trans (h path)

theorem sameEntries_subscribe (tree : TopicTree) (filter : Bytes) {entry : SubscriberEntry}
    {session : SessionId} (h : entry.session ≠ session) :
    SameEntries session tree (tree.subscribe filter entry) := by
  intro path
  rw [entryQos_subscribe, if_neg fun hboth => h hboth.1]

theorem sameEntries_unsubscribe (tree : TopicTree) (filter : Bytes)
    {session session' : SessionId} (h : session ≠ session') :
    SameEntries session' tree (tree.unsubscribe filter session) := by
  intro path
  rw [entryQos_unsubscribe, if_neg fun hboth => h hboth.1]

theorem sameEntries_setRetained (cfg : Config) (tree : TopicTree) (topic : Bytes)
    (msg : RetainedMessage) (session : SessionId) :
    SameEntries session tree (tree.setRetained cfg topic msg).2 :=
  entryQos_setRetained cfg tree topic msg session

/-- Where the first tree has an entry of the session, the second one has one
too. -/
def EntriesWithin (session : SessionId) (tree tree' : TopicTree) : Prop :=
  ∀ path, entryQos session tree path ≠ [] → entryQos session tree' path ≠ []

theorem EntriesWithin.trans {session : SessionId} {tree₁ tree₂ tree₃ : TopicTree}
    (h : EntriesWithin session tree₁ tree₂) (h' : EntriesWithin session tree₂ tree₃) :
    EntriesWithin session tree₁ tree₃ :=
  fun path hfound => h' path (h path hfound)

theorem SameEntries.within {session : SessionId} {tree tree' : TopicTree}
    (h : SameEntries session tree tree') : EntriesWithin session tree tree' := by
  intro path hfound
  rw [h path]
  exact hfound

theorem EntriesWithin.mem_lookup {session : SessionId} {tree tree' : TopicTree}
    (h : EntriesWithin session tree tree') {topic : Bytes}
    (hmem : session ∈ (tree.lookup topic).map (·.session)) :
    session ∈ (tree'.lookup topic).map (·.session) := by
  rw [TopicTree.lookup_eq, List.map_flatMap, List.mem_flatMap] at hmem ⊢
  obtain ⟨path, hpath, hsession⟩ := hmem
  refine ⟨path, hpath, ?_⟩
  rw [← entryQos_ne_nil] at hsession ⊢
  exact h path hsession

theorem entriesWithin_subscribe (tree : TopicTree) (filter : Bytes) (entry : SubscriberEntry)
    (session : SessionId) : EntriesWithin session tree (tree.subscribe filter entry) := by
  intro path hfound
  rw [entryQos_subscribe]
  split_ifs
  · cases hqos : entryQos session tree path with
    | nil => exact absurd hqos hfound
    | cons _ rest => exact List.cons_ne_nil entry.qos rest
  · exact hfound

theorem entriesWithin_unsubscribe (tree : TopicTree) (filter : Bytes)
    (session session' : SessionId) :
    EntriesWithin session' (tree.unsubscribe filter session) tree := by
  intro path hfound
  rw [entryQos_unsubscribe] at hfound
  split_ifs at hfound
  · exact absurd rfl hfound
  · exact hfound

theorem Represents.empty : Represents {} SubscriptionTable.empty where
  sessions_nodup path := by
    rw [show ({} : TopicTree).root = Node.empty from rfl]
    simp
  mem_iff path entry := by
    rw [show ({} : TopicTree).root = Node.empty from rfl]
    simp [SubscriptionTable.empty]
  shape segments session h := absurd rfl h

theorem Represents.subscribe {cfg : Config} {tree : TopicTree}
    {table : SubscriptionTable} (h : Represents tree table) (filter : Bytes)
    (entry : SubscriberEntry) (hvalid : isValidFilter cfg filter = true) :
    Represents (tree.subscribe filter entry)
      (table.assign (split filter) entry.session (some entry.qos)) where
  sessions_nodup path := by
    rw [subscribersAt_subscribe]
    split
    · exact sessions_addSubscriber_nodup (h.sessions_nodup path)
    · exact h.sessions_nodup path
  mem_iff path other := by
    rw [subscribersAt_subscribe]
    by_cases hpath : path = TopicTree.filterPath filter
    · rw [if_pos hpath, mem_addSubscriber (h.sessions_nodup path), h.mem_iff]
      subst hpath
      constructor
      · rintro (rfl | ⟨⟨segments, hsegments, htable⟩, hne⟩)
        · exact ⟨split filter, rfl, by simp [SubscriptionTable.assign]⟩
        · exact ⟨segments, hsegments, by simp [SubscriptionTable.assign, hne, htable]⟩
      · rintro ⟨segments, hsegments, htable⟩
        have hsplit : segments = split filter := (map_ofFilterSegment_inj hsegments).symm
        by_cases hsession : other.session = entry.session
        · left
          have hqos : entry.qos = other.qos := by
            simpa [SubscriptionTable.assign, hsplit, hsession] using htable
          cases other
          cases entry
          simp_all
        · right
          have hold : table segments other.session = some other.qos := by
            simpa [SubscriptionTable.assign, hsession] using htable
          exact ⟨⟨segments, hsegments, hold⟩, hsession⟩
    · rw [if_neg hpath, h.mem_iff]
      refine exists_congr fun segments => and_congr_right fun hsegments => ?_
      have hne : segments ≠ split filter := by
        rintro rfl
        exact hpath hsegments
      simp [SubscriptionTable.assign, hne]
  shape segments session hsome := by
    by_cases hsegments : segments = split filter
    · rw [hsegments]
      exact filterShape_of_valid hvalid
    · exact h.shape segments session (by
        simpa [SubscriptionTable.assign, hsegments] using hsome)

theorem Represents.unsubscribe {tree : TopicTree} {table : SubscriptionTable}
    (h : Represents tree table) (filter : Bytes) (session : SessionId) :
    Represents (tree.unsubscribe filter session)
      (table.assign (split filter) session none) where
  sessions_nodup path := by
    rw [subscribersAt_unsubscribe]
    split
    · exact (h.sessions_nodup path).sublist (List.filter_sublist.map _)
    · exact h.sessions_nodup path
  mem_iff path other := by
    rw [subscribersAt_unsubscribe]
    by_cases hpath : path = TopicTree.filterPath filter
    · rw [if_pos hpath, Node.removeSubscriber, List.mem_filter, h.mem_iff]
      subst hpath
      constructor
      · rintro ⟨⟨segments, hsegments, htable⟩, hne⟩
        have hne' : other.session ≠ session := by simpa using hne
        exact ⟨segments, hsegments, by simp [SubscriptionTable.assign, hne', htable]⟩
      · rintro ⟨segments, hsegments, htable⟩
        have hsplit : segments = split filter := (map_ofFilterSegment_inj hsegments).symm
        by_cases hsession : other.session = session
        · simp [SubscriptionTable.assign, hsplit, hsession] at htable
        · refine ⟨⟨segments, hsegments, ?_⟩, by simpa using hsession⟩
          simpa [SubscriptionTable.assign, hsession] using htable
    · rw [if_neg hpath, h.mem_iff]
      refine exists_congr fun segments => and_congr_right fun hsegments => ?_
      have hne : segments ≠ split filter := by
        rintro rfl
        exact hpath hsegments
      simp [SubscriptionTable.assign, hne]
  shape segments other hsome := by
    refine h.shape segments other fun hnone => hsome ?_
    simp [SubscriptionTable.assign, hnone]

theorem Represents.setRetained {tree : TopicTree} {table : SubscriptionTable}
    (h : Represents tree table) (cfg : Config) (topic : Bytes) (msg : RetainedMessage) :
    Represents (tree.setRetained cfg topic msg).2 table where
  sessions_nodup path := by
    rw [subscribersAt_setRetained]
    exact h.sessions_nodup path
  mem_iff path other := by
    rw [subscribersAt_setRetained]
    exact h.mem_iff path other
  shape := h.shape

theorem Represents.run {cfg : Config} {tree : TopicTree} {table : SubscriptionTable}
    (h : Represents tree table) {call : TreeCall} (hcall : call.Admissible cfg) :
    Represents (call.run cfg tree) (call.record table) := by
  cases call with
  | subscribe filter entry => exact h.subscribe filter entry hcall
  | unsubscribe filter session => exact h.unsubscribe filter session
  | setRetained topic msg => exact h.setRetained cfg topic msg

theorem represents_foldl {cfg : Config} {history : List TreeCall}
    (hcalls : ∀ call ∈ history, call.Admissible cfg) {tree : TopicTree}
    {table : SubscriptionTable} (h : Represents tree table) :
    Represents (history.foldl (TreeCall.run cfg) tree)
      (history.foldl TreeCall.record table) := by
  induction history generalizing tree table with
  | nil => exact h
  | cons call rest ih =>
      exact ih (fun c hc => hcalls c (List.mem_cons_of_mem _ hc))
        (h.run (hcalls call (List.mem_cons_self ..)))

/-- The tree and the table agree after every history. -/
theorem represents_after {cfg : Config} {history : List TreeCall}
    (hcalls : ∀ call ∈ history, call.Admissible cfg) :
    Represents (treeAfter cfg history) (tableAfter history) :=
  represents_foldl hcalls Represents.empty

end JellyBroker.Topic
