import JellyBroker.Topic.Grammar
import JellyBroker.Topic.Retained
import JellyBroker.Topic.RetainedCount
/-!
# The list of all retained messages

`get_all_retained` walks over the tree and puts the topic of each message
together from the segments on the way.  Each node with a message stands in the
list once, with the message of the last accepted `set_retained` on its segments,
be its payload empty or not.
-/

namespace JellyBroker.Topic

namespace Node

/-! ## The rows of the walk -/

mutual

/-- The retained messages below a node in the order of `get_all_retained`, each with
the path to its node. -/
def retainedRows : Node → List (List Edge × RetainedMessage)
  | .mk children single _ _ retained =>
      (retained.map fun msg => ([], msg)).toList ++ retainedRowsChildren children ++
        retainedRowsSingle single

def retainedRowsChildren : List (Bytes × Node) → List (List Edge × RetainedMessage)
  | [] => []
  | (segment, node) :: rest =>
      (retainedRows node).map (fun row => (.child segment :: row.1, row.2)) ++
        retainedRowsChildren rest

def retainedRowsSingle : Option Node → List (List Edge × RetainedMessage)
  | none => []
  | some node => (retainedRows node).map fun row => (.singleWild :: row.1, row.2)

end

mutual

theorem getAllRetained_eq : ∀ (path : Bytes) (node : Node),
    node.getAllRetained path =
      node.retainedRows.map fun row => (topicText path row.1, row.2)
  | path, .mk children single _ _ retained => by
      rw [getAllRetained, retainedRows, List.map_append, List.map_append,
        getAllRetainedChildren_eq path children, getAllRetainedSingle_eq path single]
      congr 2
      cases retained <;> rfl

theorem getAllRetainedChildren_eq : ∀ (path : Bytes) (children : List (Bytes × Node)),
    getAllRetainedChildren path children =
      (retainedRowsChildren children).map fun row => (topicText path row.1, row.2)
  | _, [] => rfl
  | path, (segment, node) :: rest => by
      rw [getAllRetainedChildren, retainedRowsChildren, List.map_append, List.map_map,
        getAllRetained_eq _ node, getAllRetainedChildren_eq path rest]
      rfl

theorem getAllRetainedSingle_eq : ∀ (path : Bytes) (single : Option Node),
    getAllRetainedSingle path single =
      (retainedRowsSingle single).map fun row => (topicText path row.1, row.2)
  | _, none => rfl
  | path, some node => by
      rw [getAllRetainedSingle, retainedRowsSingle, List.map_map, getAllRetained_eq _ node]
      rfl

end

/-! ## Distinct children -/

def Distinct (node : Node) : Prop :=
  ∀ path, ((node.nodeAt path).children.map Prod.fst).Nodup

theorem distinct_empty : empty.Distinct := by
  intro path
  rw [nodeAt_empty]
  exact List.nodup_nil

theorem Distinct.next {node : Node} (h : node.Distinct) (edge : Edge) : (node.next edge).Distinct :=
  fun path => h (edge :: path)

theorem keys_setChild (segment : Bytes) (node : Node) (children : List (Bytes × Node)) :
    (setChild segment node children).map Prod.fst =
      if segment ∈ children.map Prod.fst then children.map Prod.fst
      else children.map Prod.fst ++ [segment] := by
  induction children with
  | nil => rfl
  | cons head rest ih =>
      obtain ⟨key, old⟩ := head
      rw [setChild]
      by_cases hkey : key = segment
      · simp [hkey]
      · rw [if_neg hkey, List.map_cons, ih]
        simp only [List.map_cons, List.mem_cons, Ne.symm hkey, false_or]
        split_ifs <;> rfl

theorem Distinct.set {node target : Node} (h : node.Distinct) (htarget : target.Distinct)
    (edge : Edge) : (node.set edge target).Distinct := by
  intro path
  cases path with
  | nil =>
      have hkeys := h []
      cases node with
      | mk children single multi entries retained =>
          cases edge with
          | child segment =>
              change ((setChild segment target children).map Prod.fst).Nodup
              rw [keys_setChild]
              split_ifs with hmem
              · exact hkeys
              · exact hkeys.append (List.nodup_singleton segment)
                  (List.disjoint_singleton.mpr hmem)
          | singleWild => exact hkeys
          | multiWild => exact hkeys
  | cons edge' path =>
      rw [nodeAt_cons, next_set]
      split_ifs
      · exact htarget path
      · exact h.next edge' path

theorem Distinct.update {change : Node → Node}
    (hchange : ∀ node, node.Distinct → (change node).Distinct) {node : Node} (h : node.Distinct)
    (path : List Edge) : (node.update change path).Distinct := by
  induction path generalizing node with
  | nil => exact hchange node h
  | cons edge path ih => exact h.set (ih (h.next edge)) edge

theorem Distinct.modify {change : Node → Node}
    (hchange : ∀ node, node.Distinct → (change node).Distinct) {node : Node} (h : node.Distinct)
    (path : List Edge) : (node.modify change path).Distinct := by
  induction path generalizing node with
  | nil => exact hchange node h
  | cons edge path ih =>
      rw [Node.modify]
      cases hget : node.get? edge with
      | none => exact h
      | some target =>
          have hnext : node.next edge = target := by simp [Node.next, hget]
          have htarget := h.next edge
          rw [hnext] at htarget
          exact h.set (ih htarget) edge

theorem Distinct.withSubscribers {node : Node} (h : node.Distinct)
    (entries : List SubscriberEntry) : (node.withSubscribers entries).Distinct := by
  intro path
  cases node
  cases path with
  | nil => exact h []
  | cons edge path => exact h (edge :: path)

theorem Distinct.withRetained {node : Node} (h : node.Distinct) (msg : RetainedMessage) :
    (node.withRetained msg).Distinct := by
  intro path
  cases node
  cases path with
  | nil => exact h []
  | cons edge path => exact h (edge :: path)

theorem lookup_of_mem {segment : Bytes} {child : Node} {children : List (Bytes × Node)}
    (hkeys : (children.map Prod.fst).Nodup) (h : (segment, child) ∈ children) :
    children.lookup segment = some child := by
  induction children with
  | nil => cases h
  | cons head rest ih =>
      obtain ⟨key, old⟩ := head
      rw [List.map_cons, List.nodup_cons] at hkeys
      rw [lookup_cons_ite]
      rcases List.mem_cons.mp h with heq | hmem
      · obtain ⟨rfl, rfl⟩ := Prod.mk.inj heq
        rw [if_pos rfl]
      · have hne : segment ≠ key := by
          intro heq
          apply hkeys.1
          rw [← heq]
          exact List.mem_map.mpr ⟨(segment, child), hmem, rfl⟩
        rw [if_neg hne, ih hkeys.2 hmem]

theorem next_of_mem {segment : Bytes} {node child : Node} (h : node.Distinct)
    (hmem : (segment, child) ∈ node.children) : node.next (.child segment) = child := by
  have hlookup : node.children.lookup segment = some child := lookup_of_mem (h []) hmem
  change (node.children.lookup segment).getD empty = child
  rw [hlookup, Option.getD_some]

theorem distinct_of_mem {segment : Bytes} {node child : Node} (h : node.Distinct)
    (hmem : (segment, child) ∈ node.children) : child.Distinct := by
  have hnext := h.next (.child segment)
  rwa [next_of_mem h hmem] at hnext

/-! ## Each message once -/

theorem mem_retainedRowsChildren_iff {children : List (Bytes × Node)}
    {row : List Edge × RetainedMessage} :
    row ∈ retainedRowsChildren children ↔
      ∃ segment child, (segment, child) ∈ children ∧
        ∃ below ∈ child.retainedRows, (.child segment :: below.1, below.2) = row := by
  induction children with
  | nil => simp [retainedRowsChildren]
  | cons head rest ih =>
      obtain ⟨segment, child⟩ := head
      rw [retainedRowsChildren, List.mem_append, ih, List.mem_map]
      constructor
      · rintro (hbelow | ⟨segment', child', hmem, hbelow⟩)
        · exact ⟨segment, child, List.mem_cons_self, hbelow⟩
        · exact ⟨segment', child', List.mem_cons_of_mem _ hmem, hbelow⟩
      · rintro ⟨segment', child', hmem, hbelow⟩
        rcases List.mem_cons.mp hmem with heq | hmem
        · obtain ⟨rfl, rfl⟩ := Prod.mk.inj heq
          exact Or.inl hbelow
        · exact Or.inr ⟨segment', child', hmem, hbelow⟩

theorem mem_retainedRowsSingle_iff {single : Option Node} {row : List Edge × RetainedMessage} :
    row ∈ retainedRowsSingle single ↔
      ∃ child, single = some child ∧
        ∃ below ∈ child.retainedRows, (.singleWild :: below.1, below.2) = row := by
  cases single with
  | none => simp [retainedRowsSingle]
  | some child => simp [retainedRowsSingle]

theorem mem_retainedRows_cases {node : Node} {row : List Edge × RetainedMessage} :
    row ∈ node.retainedRows ↔
      (∃ msg, node.retained = some msg ∧ ([], msg) = row) ∨
      (∃ segment child, (segment, child) ∈ node.children ∧
        ∃ below ∈ child.retainedRows, (.child segment :: below.1, below.2) = row) ∨
      ∃ child, node.singleWild = some child ∧
        ∃ below ∈ child.retainedRows, (.singleWild :: below.1, below.2) = row := by
  cases node with
  | mk children single multi entries retained =>
      rw [retainedRows, List.mem_append, List.mem_append, mem_retainedRowsChildren_iff,
        mem_retainedRowsSingle_iff, or_assoc]
      cases retained <;> simp [Node.retained, Node.children, Node.singleWild, eq_comm]

theorem mem_retainedRows_cons {node : Node} (h : node.Distinct) {edge : Edge}
    {edges : List Edge} {msg : RetainedMessage} :
    (edge :: edges, msg) ∈ node.retainedRows ↔
      edge ≠ .multiWild ∧ (edges, msg) ∈ (node.next edge).retainedRows := by
  rw [mem_retainedRows_cases]
  constructor
  · rintro (⟨msg', _, heq⟩ | ⟨segment, child, hmem, ⟨edges', msg'⟩, hrow, heq⟩ |
      ⟨child, hchild, ⟨edges', msg'⟩, hrow, heq⟩)
    · cases heq
    · cases heq
      rw [next_of_mem h hmem]
      exact ⟨nofun, hrow⟩
    · cases heq
      have hnext : node.next .singleWild = child := by
        change node.singleWild.getD empty = child
        rw [hchild, Option.getD_some]
      rw [hnext]
      exact ⟨nofun, hrow⟩
  · rintro ⟨hedge, hrow⟩
    have hget : ∃ child, node.get? edge = some child ∧ node.next edge = child := by
      cases hget : node.get? edge with
      | none =>
          have hnext : node.next edge = empty := by simp [next, hget]
          rw [hnext] at hrow
          cases hrow
      | some child => exact ⟨child, rfl, by simp [next, hget]⟩
    obtain ⟨child, hget, hnext⟩ := hget
    rw [hnext] at hrow
    cases edge with
    | child segment =>
        exact Or.inr (Or.inl ⟨segment, child, mem_of_lookup hget, (edges, msg), hrow, rfl⟩)
    | singleWild => exact Or.inr (Or.inr ⟨child, hget, (edges, msg), hrow, rfl⟩)
    | multiWild => exact absurd rfl hedge

/-- The rows are the messages of the paths without a `#`. -/
theorem mem_retainedRows_iff {node : Node} (h : node.Distinct) {edges : List Edge}
    {msg : RetainedMessage} :
    (edges, msg) ∈ node.retainedRows ↔
      Edge.multiWild ∉ edges ∧ node.retainedAt edges = some msg := by
  induction edges generalizing node with
  | nil =>
      rw [mem_retainedRows_cases]
      simp [retainedAt]
  | cons edge edges ih =>
      have hat : node.retainedAt (edge :: edges) = (node.next edge).retainedAt edges := rfl
      rw [mem_retainedRows_cons h, ih (h.next edge), hat, List.mem_cons, not_or, and_assoc,
        ne_comm]

theorem nodup_map_cons {rows : List (List Edge × RetainedMessage)} (edge : Edge)
    (h : (rows.map Prod.fst).Nodup) :
    ((rows.map fun row => (edge :: row.1, row.2)).map Prod.fst).Nodup := by
  have hmap : (rows.map fun row => (edge :: row.1, row.2)).map Prod.fst =
      (rows.map Prod.fst).map (edge :: ·) := by
    rw [List.map_map, List.map_map]
    rfl
  rw [hmap]
  exact h.map fun _ _ heq => (List.cons.inj heq).2

theorem mem_fst_rowsChildren {children : List (Bytes × Node)} {edges : List Edge}
    (h : edges ∈ (retainedRowsChildren children).map Prod.fst) :
    ∃ segment ∈ children.map Prod.fst, ∃ below, edges = .child segment :: below := by
  obtain ⟨row, hrow, hedges⟩ := List.mem_map.mp h
  obtain ⟨segment, child, hmem, below, _, heq⟩ := mem_retainedRowsChildren_iff.mp hrow
  refine ⟨segment, List.mem_map.mpr ⟨_, hmem, rfl⟩, below.1, ?_⟩
  rw [← hedges, ← heq]

theorem mem_fst_rowsSingle {single : Option Node} {edges : List Edge}
    (h : edges ∈ (retainedRowsSingle single).map Prod.fst) :
    ∃ below, edges = .singleWild :: below := by
  obtain ⟨row, hrow, hedges⟩ := List.mem_map.mp h
  obtain ⟨child, _, below, _, heq⟩ := mem_retainedRowsSingle_iff.mp hrow
  exact ⟨below.1, by rw [← hedges, ← heq]⟩

mutual

theorem nodup_retainedRows : ∀ node : Node, node.Distinct →
    (node.retainedRows.map Prod.fst).Nodup
  | .mk children single multi entries retained, h => by
      have hchildren : ((retainedRowsChildren children).map Prod.fst).Nodup :=
        nodup_retainedRowsChildren children (h []) fun _ _ hmem => distinct_of_mem h hmem
      have hsingle : ((retainedRowsSingle single).map Prod.fst).Nodup :=
        nodup_retainedRowsSingle single fun child hchild => by
          have hnext := h.next .singleWild
          have heq : (Node.mk children single multi entries retained).next .singleWild =
              child := by
            rw [hchild]
            rfl
          rwa [heq] at hnext
      have hown : ∀ edges ∈ ((retained.map fun msg => (([] : List Edge), msg)).toList).map
          Prod.fst, edges = [] := by
        cases retained <;> simp
      have hownNodup : (((retained.map fun msg => (([] : List Edge), msg)).toList).map
          Prod.fst).Nodup := by
        cases retained <;> simp
      rw [retainedRows, List.map_append, List.map_append, List.nodup_append, List.nodup_append]
      refine ⟨⟨hownNodup, hchildren, ?_⟩, hsingle, ?_⟩
      · intro edges hedges edges' hedges' heq
        obtain ⟨segment, _, below, hbelow⟩ := mem_fst_rowsChildren hedges'
        rw [← heq, hown edges hedges] at hbelow
        cases hbelow
      · intro edges hedges edges' hedges' heq
        obtain ⟨below, hbelow⟩ := mem_fst_rowsSingle hedges'
        rw [← heq] at hbelow
        rcases List.mem_append.mp hedges with hedges | hedges
        · rw [hown edges hedges] at hbelow
          cases hbelow
        · obtain ⟨segment, _, below', hbelow'⟩ := mem_fst_rowsChildren hedges
          rw [hbelow'] at hbelow
          cases hbelow

theorem nodup_retainedRowsChildren : ∀ children : List (Bytes × Node),
    (children.map Prod.fst).Nodup →
    (∀ segment child, (segment, child) ∈ children → child.Distinct) →
    ((retainedRowsChildren children).map Prod.fst).Nodup
  | [], _, _ => List.nodup_nil
  | (segment, node) :: rest, hkeys, hbelow => by
      have hhead := nodup_retainedRows node (hbelow segment node List.mem_cons_self)
      have hrest := nodup_retainedRowsChildren rest (List.nodup_cons.mp hkeys).2
        fun segment' child hmem => hbelow segment' child (List.mem_cons_of_mem _ hmem)
      rw [retainedRowsChildren, List.map_append, List.nodup_append]
      refine ⟨nodup_map_cons _ hhead, hrest, ?_⟩
      intro edges hedges edges' hedges' heq
      obtain ⟨segment', hkey, below, hedges'⟩ := mem_fst_rowsChildren hedges'
      rw [List.map_map] at hedges
      obtain ⟨row, _, hrow⟩ := List.mem_map.mp hedges
      rw [← heq, ← hrow] at hedges'
      have hsegment : segment = segment' := Edge.child.inj (List.cons.inj hedges').1
      rw [← hsegment] at hkey
      exact (List.nodup_cons.mp hkeys).1 hkey

theorem nodup_retainedRowsSingle : ∀ single : Option Node,
    (∀ child, single = some child → child.Distinct) →
    ((retainedRowsSingle single).map Prod.fst).Nodup
  | none, _ => List.nodup_nil
  | some node, hbelow => nodup_map_cons _ (nodup_retainedRows node (hbelow node rfl))

end

end Node

/-! ## The texts of valid topics -/

/-- The topic without the separator at its end. -/
def withoutSeparator (topic : Bytes) : Bytes :=
  if topic.getLast? = some levelSeparator then topic.dropLast else topic

theorem withoutSeparator_of_last {topic : Bytes} (h : topic.getLast? ≠ some levelSeparator) :
    withoutSeparator topic = topic :=
  if_neg h

theorem withoutSeparator_concat (stem : Bytes) :
    withoutSeparator (stem ++ [levelSeparator]) = stem := by
  unfold withoutSeparator
  rw [if_pos List.getLast?_concat, List.dropLast_concat]

theorem eq_of_levels {s level : Bytes} {rest : List Bytes} (h : levels s = level :: rest) :
    s = level ++ rest.flatMap (levelSeparator :: ·) := by
  induction s generalizing level rest with
  | nil =>
      obtain ⟨rfl, rfl⟩ := List.cons.inj h
      rfl
  | cons c s ih =>
      obtain ⟨level', rest', hlevels⟩ := exists_levels_eq_cons s
      have hs := ih hlevels
      rw [levels_cons, hlevels] at h
      split_ifs at h with hc
      · obtain ⟨rfl, rfl⟩ := List.cons.inj h
        rw [hc, List.flatMap_cons, List.nil_append, List.cons_append, ← hs]
      · obtain ⟨rfl, rfl⟩ := List.cons.inj h
        rw [List.cons_append, ← hs]

theorem topicText_of_ne_nil {path : Bytes} (hpath : path ≠ []) (segments : List Bytes) :
    Node.topicText path (segments.map .child) =
      path ++ segments.flatMap (levelSeparator :: ·) := by
  induction segments generalizing path with
  | nil => simp [Node.topicText]
  | cons segment segments ih =>
      have hstep : Node.edgeTopic path (.child segment) = path ++ [levelSeparator] ++ segment := by
        simp [Node.edgeTopic, Node.childTopic, Edge.segment, hpath]
      have hrest : (segments.map Edge.child).foldl Node.edgeTopic
          (path ++ [levelSeparator] ++ segment) = _ := ih (by simp)
      rw [List.map_cons, Node.topicText, List.foldl_cons, hstep, hrest, List.flatMap_cons]
      simp

theorem topicText_levels {s : Bytes} (h : PlainLevels (levels s)) :
    Node.topicText [] ((levels s).map .child) = s := by
  obtain ⟨level, rest, hlevels⟩ := exists_levels_eq_cons s
  have hlevel : level ≠ [] := (h level (by rw [hlevels]; exact List.mem_cons_self)).1
  have hstep : Node.edgeTopic [] (.child level) = level := by
    simp [Node.edgeTopic, Node.childTopic, Edge.segment]
  have hrest := topicText_of_ne_nil hlevel rest
  rw [Node.topicText] at hrest
  rw [hlevels, List.map_cons, Node.topicText, List.foldl_cons, hstep, hrest, ← eq_of_levels hlevels]

theorem plainLevels_split {cfg : Config} {topic : Bytes} (h : isValidTopic cfg topic = true) :
    topic ≠ [] ∧ PlainLevels (split topic) := by
  have hlimits : WithinTopicLimits cfg topic := by
    unfold isValidTopic at h
    split_ifs at h with hempty hlength hdepth
    exact ⟨Int.not_lt.mp hlength, Int.not_lt.mp hdepth⟩
  exact (isValidTopic_iff hlimits).mp h

/-- The segments of a valid topic are the levels of the topic without the separator at
its end, and none is empty. -/
theorem levels_withoutSeparator {cfg : Config} {topic : Bytes}
    (h : isValidTopic cfg topic = true) :
    split topic = levels (withoutSeparator topic) ∧
      PlainLevels (levels (withoutSeparator topic)) := by
  obtain ⟨hne, hplain⟩ := plainLevels_split h
  rcases split_cases hne with ⟨stem, hstem, hsplit⟩ | ⟨hlast, hsplit⟩
  · rw [hstem, withoutSeparator_concat, ← hstem]
    exact ⟨hsplit, hsplit ▸ hplain⟩
  · have hnone : topic.getLast? ≠ some levelSeparator := by
      intro hsome
      obtain ⟨stem, hstem⟩ := List.getLast?_eq_some_iff.mp hsome
      exact hlast stem hstem
    rw [withoutSeparator_of_last hnone]
    exact ⟨hsplit, hsplit ▸ hplain⟩

theorem topicText_topicPath {cfg : Config} {topic : Bytes} (h : isValidTopic cfg topic = true) :
    Node.topicText [] (TopicTree.topicPath topic) = withoutSeparator topic := by
  obtain ⟨hsplit, hplain⟩ := levels_withoutSeparator h
  unfold TopicTree.topicPath
  rw [hsplit, topicText_levels hplain]

theorem withoutSeparator_eq_iff {cfg : Config} {topic topic' : Bytes}
    (h : isValidTopic cfg topic = true) (h' : isValidTopic cfg topic' = true) :
    withoutSeparator topic = withoutSeparator topic' ↔ split topic = split topic' := by
  constructor
  · intro heq
    rw [(levels_withoutSeparator h).1, (levels_withoutSeparator h').1, heq]
  · intro hsplit
    have hpath := TopicTree.topicPath_eq_iff.mpr hsplit
    rw [← topicText_topicPath h, ← topicText_topicPath h', hpath]

theorem withoutSeparator_ne_concat {cfg : Config} {topic : Bytes}
    (h : isValidTopic cfg topic = true) (stem : Bytes) :
    withoutSeparator topic ≠ stem ++ [levelSeparator] := by
  intro heq
  have hplain := (levels_withoutSeparator h).2
  rw [heq, levels_concat_separator] at hplain
  exact not_plainLevels_concat _ hplain

theorem split_withoutSeparator {cfg : Config} {topic : Bytes}
    (h : isValidTopic cfg topic = true) : split (withoutSeparator topic) = split topic := by
  obtain ⟨hsplit, hplain⟩ := levels_withoutSeparator h
  have hne : withoutSeparator topic ≠ [] := by
    intro hnil
    rw [hnil, levels_nil] at hplain
    exact (hplain [] List.mem_cons_self).1 rfl
  rcases split_cases hne with ⟨stem, hstem, _⟩ | ⟨_, hlevels⟩
  · exact absurd hstem (withoutSeparator_ne_concat h stem)
  · rw [hlevels, hsplit]

/-- Storing a message under a valid topic, refused or not, lists nothing new but the
message under the topic without a separator at its end. -/
theorem TopicTree.mem_getAllRetained_setRetained_valid {cfg : Config} {tree : TopicTree}
    {topic : Bytes} (hvalid : isValidTopic cfg topic = true) {msg : RetainedMessage}
    {row : Bytes × RetainedMessage} (h : row ∈ (tree.setRetained cfg topic msg).2.getAllRetained) :
    row ∈ tree.getAllRetained ∨ row = (withoutSeparator topic, msg) := by
  have hcases := mem_getAllRetained_setRetained h
  rwa [topicText_topicPath hvalid] at hcases

/-! ## Accepted calls -/

def TreeCall.accepted (cfg : Config) (tree : TopicTree) :
    TreeCall → Option (Bytes × RetainedMessage)
  | subscribe _ _ => none
  | unsubscribe _ _ => none
  | setRetained topic msg =>
      if (tree.setRetained cfg topic msg).1 then some (topic, msg) else none

def acceptedSets (cfg : Config) : TopicTree → List TreeCall → List (Bytes × RetainedMessage)
  | _, [] => []
  | tree, call :: history =>
      (call.accepted cfg tree).toList ++ acceptedSets cfg (call.run cfg tree) history

def lastSet (kind : Bytes → Bool) (log : List (Bytes × RetainedMessage)) :
    Option (Bytes × RetainedMessage) :=
  log.foldl (fun last row => if kind row.1 then some row else last) none

theorem lastSet_concat (kind : Bytes → Bool) (log : List (Bytes × RetainedMessage))
    (row : Bytes × RetainedMessage) :
    lastSet kind (log ++ [row]) = if kind row.1 then some row else lastSet kind log := by
  unfold lastSet
  rw [List.foldl_append]
  rfl

theorem lastSet_spec {kind : Bytes → Bool} {log : List (Bytes × RetainedMessage)}
    {row : Bytes × RetainedMessage} (h : lastSet kind log = some row) :
    row ∈ log ∧ kind row.1 = true := by
  induction log using List.reverseRecOn with
  | nil => cases h
  | append_singleton log last ih =>
      rw [lastSet_concat] at h
      split_ifs at h with hkind
      · rw [← Option.some.inj h]
        exact ⟨by simp, hkind⟩
      · obtain ⟨hmem, hrow⟩ := ih h
        exact ⟨List.mem_append_left _ hmem, hrow⟩

theorem exists_lastSet (kind : Bytes → Bool) {log : List (Bytes × RetainedMessage)}
    {row : Bytes × RetainedMessage} (hmem : row ∈ log) (hkind : kind row.1 = true) :
    ∃ last, lastSet kind log = some last := by
  induction log using List.reverseRecOn with
  | nil => cases hmem
  | append_singleton log last ih =>
      rw [lastSet_concat]
      split_ifs with hlast
      · exact ⟨last, rfl⟩
      · rcases List.mem_append.mp hmem with hmem | hmem
        · exact ih hmem
        · rw [List.mem_singleton.mp hmem] at hkind
          exact absurd hkind hlast

theorem lastSet_narrow {kind narrow : Bytes → Bool} (hsub : ∀ topic, narrow topic = true →
    kind topic = true) {log : List (Bytes × RetainedMessage)} {row : Bytes × RetainedMessage}
    (h : lastSet kind log = some row) (hrow : narrow row.1 = true) :
    lastSet narrow log = some row := by
  induction log using List.reverseRecOn with
  | nil => cases h
  | append_singleton log last ih =>
      rw [lastSet_concat] at h ⊢
      by_cases hkind : kind last.1 = true
      · rw [if_pos hkind] at h
        rw [Option.some.inj h, if_pos hrow]
      · rw [if_neg hkind] at h
        rw [if_neg fun hnarrow => hkind (hsub _ hnarrow)]
        exact ih h

/-- Each path holds the message of the last call on it. -/
def Logged (tree : TopicTree) (log : List (Bytes × RetainedMessage)) : Prop :=
  ∀ path, tree.root.retainedAt path =
    (lastSet (fun topic => TopicTree.topicPath topic = path) log).map Prod.snd

theorem Logged.run {cfg : Config} {tree : TopicTree} {log : List (Bytes × RetainedMessage)}
    (h : Logged tree log) (call : TreeCall) :
    Logged (call.run cfg tree) (log ++ (call.accepted cfg tree).toList) := by
  intro path
  cases call with
  | subscribe filter entry =>
      rw [TreeCall.accepted, Option.toList_none, List.append_nil, ← h path]
      exact Node.retainedAt_update_same (Node.changesOwn_withSubscribers _) _ _ _
  | unsubscribe filter session =>
      rw [TreeCall.accepted, Option.toList_none, List.append_nil, ← h path]
      exact Node.retainedAt_modify_same (Node.changesOwn_withSubscribers _) _ _ _
  | setRetained topic msg =>
      rw [TreeCall.accepted, TreeCall.run, TopicTree.retainedAt_setRetained]
      by_cases haccepted : (tree.setRetained cfg topic msg).1 = true
      · rw [if_pos haccepted, Option.toList_some, lastSet_concat]
        by_cases hpath : path = TopicTree.topicPath topic
        · simp [haccepted, hpath]
        · simp [hpath, Ne.symm hpath, h path]
      · rw [if_neg haccepted, Option.toList_none, List.append_nil, if_neg fun hand =>
          haccepted hand.1]
        exact h path

theorem Logged.foldl {cfg : Config} {tree : TopicTree} {log : List (Bytes × RetainedMessage)}
    (h : Logged tree log) (history : List TreeCall) :
    Logged (history.foldl (TreeCall.run cfg) tree) (log ++ acceptedSets cfg tree history) := by
  induction history generalizing tree log with
  | nil => rwa [acceptedSets, List.append_nil]
  | cons call history ih =>
      rw [acceptedSets, ← List.append_assoc]
      exact ih (h.run call)

theorem logged_after (cfg : Config) (history : List TreeCall) :
    Logged (treeAfter cfg history) (acceptedSets cfg {} history) := by
  have hempty : Logged {} [] := by
    intro path
    change (Node.empty.nodeAt path).retained = none
    rw [Node.nodeAt_empty]
    rfl
  exact hempty.foldl history

theorem mem_of_accepted {cfg : Config} {tree : TopicTree} {history : List TreeCall} {topic : Bytes}
    {msg : RetainedMessage} (h : (topic, msg) ∈ acceptedSets cfg tree history) :
    TreeCall.setRetained topic msg ∈ history := by
  induction history generalizing tree with
  | nil => cases h
  | cons call history ih =>
      rw [acceptedSets, List.mem_append] at h
      rcases h with hcall | hrest
      · cases call with
        | subscribe filter entry => cases hcall
        | unsubscribe filter session => cases hcall
        | setRetained topic' msg' =>
            rw [TreeCall.accepted] at hcall
            split_ifs at hcall
            · rw [Option.toList_some, List.mem_singleton] at hcall
              cases hcall
              exact List.mem_cons_self
            · cases hcall
      · exact List.mem_cons_of_mem _ (ih hrest)

theorem distinct_run {cfg : Config} {tree : TopicTree} (h : tree.root.Distinct)
    (call : TreeCall) : (call.run cfg tree).root.Distinct := by
  cases call with
  | subscribe filter entry => exact h.update (fun _ hnode => hnode.withSubscribers _) _
  | unsubscribe filter session => exact h.modify (fun _ hnode => hnode.withSubscribers _) _
  | setRetained topic msg =>
      have hensure := h.update (fun _ hnode => hnode) (TopicTree.topicPath topic)
      rcases TopicTree.setRetained_cases cfg tree topic msg with ⟨_, heq⟩ | ⟨_, heq⟩
      · rw [TreeCall.run, heq]
        exact hensure
      · rw [TreeCall.run, heq]
        exact hensure.update (fun _ hnode => hnode.withRetained msg) _

theorem distinct_after (cfg : Config) (history : List TreeCall) :
    (treeAfter cfg history).root.Distinct := by
  refine List.foldlRecOn (motive := fun tree : TopicTree => tree.root.Distinct) history _
    Node.distinct_empty ?_
  intro tree hdistinct call _
  exact distinct_run hdistinct call

/-! ## The list -/

def lastAccepted (log : List (Bytes × RetainedMessage)) (topic : Bytes) :
    Option RetainedMessage :=
  (lastSet (· = topic) log).map Prod.snd

/-- The list holds the topics whose last accepted call had a payload, each once and
with the message of that call. -/
structure ListsLive (tree : TopicTree) (log : List (Bytes × RetainedMessage)) : Prop where
  once : (tree.getAllRetained.map Prod.fst).Nodup
  mem_iff : ∀ topic msg, (topic, msg) ∈ tree.getAllRetained ↔
    lastAccepted log topic = some msg ∧ msg.payload ≠ []

/-- Of the calls for `t` and `t/`, the last one is for `t` and has a payload, and the
last one for `t/`, if there is one, has none. -/
def OneSpelling (log : List (Bytes × RetainedMessage)) : Prop :=
  ∀ topic msg, lastSet (fun topic' => split topic' = split topic) log = some (topic, msg) →
    topic.getLast? ≠ some levelSeparator ∧ msg.payload ≠ [] ∧
      ∀ msg', lastAccepted log (topic ++ [levelSeparator]) = some msg' → msg'.payload = []

theorem row_of_call {cfg : Config} {history : List TreeCall} {topic : Bytes} {msg : RetainedMessage}
    (h : lastSet (fun topic' => split topic' = split topic) (acceptedSets cfg {} history) =
      some (topic, msg)) :
    (TopicTree.topicPath topic, msg) ∈ (treeAfter cfg history).root.retainedRows := by
  rw [Node.mem_retainedRows_iff (distinct_after cfg history)]
  constructor
  · simp [TopicTree.topicPath]
  · rw [logged_after cfg history]
    simp only [TopicTree.topicPath_eq_iff]
    rw [h]
    rfl

theorem lastAccepted_of_lastSet {log : List (Bytes × RetainedMessage)} {topic : Bytes}
    {msg : RetainedMessage}
    (h : lastSet (fun topic' => split topic' = split topic) log = some (topic, msg)) :
    lastAccepted log topic = some msg := by
  unfold lastAccepted
  rw [lastSet_narrow _ h (by simp)]
  · rfl
  · intro topic' htopic'
    rw [of_decide_eq_true htopic']
    exact decide_eq_true rfl

section Listing

variable {cfg : Config} {history : List TreeCall}
  (hvalid : ∀ topic msg, TreeCall.setRetained topic msg ∈ history →
    isValidTopic cfg topic = true)

include hvalid

theorem valid_of_lastSet {kind : Bytes → Bool} {topic : Bytes} {msg : RetainedMessage}
    (h : lastSet kind (acceptedSets cfg {} history) = some (topic, msg)) :
    isValidTopic cfg topic = true :=
  hvalid topic msg (mem_of_accepted (lastSet_spec h).1)

theorem exists_call_of_row {edges : List Edge} {msg : RetainedMessage}
    (h : (edges, msg) ∈ (treeAfter cfg history).root.retainedRows) :
    ∃ topic, isValidTopic cfg topic = true ∧ edges = TopicTree.topicPath topic ∧
      lastSet (fun topic' => split topic' = split topic) (acceptedSets cfg {} history) =
        some (topic, msg) := by
  have hat := ((Node.mem_retainedRows_iff (distinct_after cfg history)).mp h).2
  rw [logged_after cfg history edges] at hat
  obtain ⟨⟨topic, msg'⟩, hlast, hmsg⟩ := Option.map_eq_some_iff.mp hat
  have hedges : TopicTree.topicPath topic = edges := of_decide_eq_true (lastSet_spec hlast).2
  dsimp only at hmsg
  rw [hmsg] at hlast
  refine ⟨topic, valid_of_lastSet hvalid hlast, hedges.symm, ?_⟩
  rw [← hlast]
  congr 1
  funext topic'
  rw [← hedges]
  exact decide_eq_decide.mpr TopicTree.topicPath_eq_iff.symm

/-- What is listed: the last accepted call on each node, without the separator at the
end of its topic. -/
theorem mem_getAllRetained_after {text : Bytes} {msg : RetainedMessage} :
    (text, msg) ∈ (treeAfter cfg history).getAllRetained ↔
      ∃ topic, isValidTopic cfg topic = true ∧ text = withoutSeparator topic ∧
        lastSet (fun topic' => split topic' = split topic) (acceptedSets cfg {} history) =
          some (topic, msg) := by
  unfold TopicTree.getAllRetained
  rw [Node.getAllRetained_eq, List.mem_map]
  constructor
  · rintro ⟨⟨edges, msg'⟩, hrow, heq⟩
    obtain ⟨htext, hmsg⟩ := Prod.mk.inj heq
    dsimp only at htext hmsg
    rw [hmsg] at hrow
    obtain ⟨topic, htopic, hedges, hlast⟩ := exists_call_of_row hvalid hrow
    refine ⟨topic, htopic, ?_, hlast⟩
    rw [← htext, hedges, topicText_topicPath htopic]
  · rintro ⟨topic, htopic, htext, hlast⟩
    refine ⟨_, row_of_call hlast, ?_⟩
    rw [htext, topicText_topicPath htopic]

/-- Two nodes with a message have different topics. -/
theorem getAllRetained_topics_nodup :
    ((treeAfter cfg history).getAllRetained.map Prod.fst).Nodup := by
  have hrows := Node.nodup_retainedRows _ (distinct_after cfg history)
  have htexts : (treeAfter cfg history).getAllRetained.map Prod.fst =
      ((treeAfter cfg history).root.retainedRows.map Prod.fst).map (Node.topicText []) := by
    unfold TopicTree.getAllRetained
    rw [Node.getAllRetained_eq, List.map_map, List.map_map]
    rfl
  rw [htexts]
  refine List.Nodup.map_on ?_ hrows
  intro edges hedges edges' hedges' heq
  obtain ⟨⟨_, msg⟩, hrow, rfl⟩ := List.mem_map.mp hedges
  obtain ⟨⟨_, msg'⟩, hrow', rfl⟩ := List.mem_map.mp hedges'
  obtain ⟨topic, htopic, hpath, _⟩ := exists_call_of_row hvalid hrow
  obtain ⟨topic', htopic', hpath', _⟩ := exists_call_of_row hvalid hrow'
  dsimp only at heq ⊢
  rw [hpath, hpath'] at heq ⊢
  rw [topicText_topicPath htopic, topicText_topicPath htopic',
    withoutSeparator_eq_iff htopic htopic'] at heq
  exact TopicTree.topicPath_eq_iff.mpr heq

theorem listsLive_of_oneSpelling (h : OneSpelling (acceptedSets cfg {} history)) :
    ListsLive (treeAfter cfg history) (acceptedSets cfg {} history) := by
  refine ⟨getAllRetained_topics_nodup hvalid, fun text msg => ?_⟩
  rw [mem_getAllRetained_after hvalid]
  constructor
  · rintro ⟨topic, htopic, htext, hlast⟩
    obtain ⟨hend, hpayload, _⟩ := h topic msg hlast
    rw [htext, withoutSeparator_of_last hend]
    exact ⟨lastAccepted_of_lastSet hlast, hpayload⟩
  · rintro ⟨hlast, hpayload⟩
    obtain ⟨⟨text', msg'⟩, hset, hmsg⟩ := Option.map_eq_some_iff.mp hlast
    obtain ⟨hmem, htext'⟩ := lastSet_spec hset
    have htext : text' = text := of_decide_eq_true htext'
    dsimp only at hmsg
    rw [htext, hmsg] at hset hmem
    obtain ⟨⟨topic, msg''⟩, hnode⟩ :=
      exists_lastSet (fun topic' => split topic' = split text) hmem (decide_eq_true rfl)
    have hsplit : split topic = split text := of_decide_eq_true (lastSet_spec hnode).2
    rw [← hsplit] at hnode
    have htopic := valid_of_lastSet hvalid hnode
    obtain ⟨hend, _, hother⟩ := h topic msg'' hnode
    have hstem : withoutSeparator text = topic := by
      rw [← withoutSeparator_of_last hend,
        withoutSeparator_eq_iff (valid_of_lastSet hvalid hset) htopic]
      exact hsplit.symm
    have hsame : text = topic := by
      by_cases htextEnd : text.getLast? = some levelSeparator
      · obtain ⟨stem, hconcat⟩ := List.getLast?_eq_some_iff.mp htextEnd
        rw [hconcat, withoutSeparator_concat] at hstem
        rw [hconcat, hstem] at hlast
        exact absurd (hother msg hlast) hpayload
      · rwa [withoutSeparator_of_last htextEnd] at hstem
    have hmessage : msg'' = msg := by
      rw [hsame, lastAccepted_of_lastSet hnode] at hlast
      exact Option.some.inj hlast
    rw [hmessage] at hnode
    exact ⟨topic, htopic, by rw [withoutSeparator_of_last hend, hsame], hnode⟩

theorem oneSpelling_of_listsLive
    (h : ListsLive (treeAfter cfg history) (acceptedSets cfg {} history)) :
    OneSpelling (acceptedSets cfg {} history) := by
  intro topic msg hlast
  have htopic := valid_of_lastSet hvalid hlast
  -- no listed topic ends in a separator
  have hopen (stem : Bytes) (msg' : RetainedMessage) :
      (stem ++ [levelSeparator], msg') ∉ (treeAfter cfg history).getAllRetained := by
    intro hmem
    obtain ⟨topic', htopic', htext, _⟩ := (mem_getAllRetained_after hvalid).mp hmem
    exact withoutSeparator_ne_concat htopic' stem htext.symm
  have hlisted := (mem_getAllRetained_after hvalid).mpr ⟨topic, htopic, rfl, hlast⟩
  have hpayload := ((h.mem_iff _ _).mp hlisted).2
  refine ⟨?_, hpayload, ?_⟩
  · intro hend
    obtain ⟨stem, hstem⟩ := List.getLast?_eq_some_iff.mp hend
    apply hopen stem msg
    rw [← hstem]
    exact (h.mem_iff _ _).mpr ⟨lastAccepted_of_lastSet hlast, hpayload⟩
  · intro msg' hlast'
    by_contra hpayload'
    exact hopen topic msg' ((h.mem_iff _ _).mpr ⟨hlast', hpayload'⟩)

end Listing

/-- After every history of calls with valid topics, the list holds exactly the live
messages if and only if no node was last set with an empty payload or under a topic
that ends in a separator, and no topic that ends in a separator is live. -/
theorem getAllRetained_lists_live_iff (cfg : Config) (history : List TreeCall)
    (hvalid : ∀ topic msg, TreeCall.setRetained topic msg ∈ history →
      isValidTopic cfg topic = true) :
    ListsLive (treeAfter cfg history) (acceptedSets cfg {} history) ↔
      OneSpelling (acceptedSets cfg {} history) :=
  ⟨oneSpelling_of_listsLive hvalid, listsLive_of_oneSpelling hvalid⟩

/-- One message on the topic `a`. -/
theorem getAllRetained_lists_live_sample :
    isValidTopic {} [0x61] = true ∧
    ListsLive (treeAfter {} [.setRetained [0x61] ⟨[1], 0⟩])
      (acceptedSets {} {} [.setRetained [0x61] ⟨[1], 0⟩]) := by
  have hlog : acceptedSets {} {} [.setRetained [0x61] ⟨[1], 0⟩] = [([0x61], ⟨[1], 0⟩)] := by
    decide +kernel
  refine ⟨by decide, (getAllRetained_lists_live_iff {} _ ?_).mpr ?_⟩
  · intro topic msg hmem
    obtain ⟨rfl, rfl⟩ := TreeCall.setRetained.inj (List.mem_singleton.mp hmem)
    decide
  · rw [hlog]
    intro topic msg hlast
    have hmem := (lastSet_spec hlast).1
    obtain ⟨rfl, rfl⟩ := Prod.mk.inj (List.mem_singleton.mp hmem)
    refine ⟨by decide, by decide, fun msg' hlast' => ?_⟩
    have hnone : lastAccepted [([0x61], ⟨[1], 0⟩)] ([0x61] ++ [levelSeparator]) = none := by
      decide
    rw [hnone] at hlast'
    cases hlast'

/-- The topic `a` that was cleared is listed, and the topic `a/` is listed as `a`. -/
theorem getAllRetained_lists_cleared :
    isValidTopic {} [0x61] = true ∧ isValidTopic {} [0x61, 0x2f] = true ∧
    (treeAfter {} [.setRetained [0x61] ⟨[1], 0⟩, .setRetained [0x61] ⟨[], 0⟩]).getAllRetained =
      [([0x61], ⟨[], 0⟩)] ∧
    acceptedSets {} {} [.setRetained [0x61] ⟨[1], 0⟩, .setRetained [0x61] ⟨[], 0⟩] =
      [([0x61], ⟨[1], 0⟩), ([0x61], ⟨[], 0⟩)] ∧
    (treeAfter {} [.setRetained [0x61, 0x2f] ⟨[1], 0⟩]).getAllRetained = [([0x61], ⟨[1], 0⟩)] ∧
    acceptedSets {} {} [.setRetained [0x61, 0x2f] ⟨[1], 0⟩] = [([0x61, 0x2f], ⟨[1], 0⟩)] ∧
    ¬ListsLive (treeAfter {} [.setRetained [0x61] ⟨[1], 0⟩, .setRetained [0x61] ⟨[], 0⟩])
      (acceptedSets {} {} [.setRetained [0x61] ⟨[1], 0⟩, .setRetained [0x61] ⟨[], 0⟩]) ∧
    ¬ListsLive (treeAfter {} [.setRetained [0x61, 0x2f] ⟨[1], 0⟩])
      (acceptedSets {} {} [.setRetained [0x61, 0x2f] ⟨[1], 0⟩]) := by
  have hcleared : (treeAfter {} [.setRetained [0x61] ⟨[1], 0⟩,
      .setRetained [0x61] ⟨[], 0⟩]).getAllRetained = [([0x61], ⟨[], 0⟩)] := by decide +kernel
  have hslash : (treeAfter {} [.setRetained [0x61, 0x2f] ⟨[1], 0⟩]).getAllRetained =
      [([0x61], ⟨[1], 0⟩)] := by decide +kernel
  have hlog : acceptedSets {} {} [.setRetained [0x61, 0x2f] ⟨[1], 0⟩] =
      [([0x61, 0x2f], ⟨[1], 0⟩)] := by decide +kernel
  refine ⟨by decide, by decide, hcleared, by decide +kernel, hslash, hlog, ?_, ?_⟩
  · intro h
    have hmem := (h.mem_iff [0x61] ⟨[], 0⟩).mp (by rw [hcleared]; exact List.mem_singleton_self _)
    exact hmem.2 rfl
  · intro h
    have hmem := (h.mem_iff [0x61] ⟨[1], 0⟩).mp (by rw [hslash]; exact List.mem_singleton_self _)
    rw [hlog] at hmem
    exact absurd hmem.1 (by decide)

end JellyBroker.Topic
