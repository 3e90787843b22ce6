import JellyBroker.Topic.Subscriptions
/-!
# The number of retained messages

`retained_count_` counts the nodes that hold a retained message with a payload,
and `set_retained` refuses to add one when the counter is at the limit.  A node
whose message was cleared keeps a message with an empty payload.
-/

namespace JellyBroker.Topic

namespace Node

/-! ## Messages along paths -/

def retainedAt (node : Node) (path : List Edge) : Option RetainedMessage :=
  (node.nodeAt path).retained

theorem bind_find?_retained (node : Node) (path : List Edge) :
    (node.find? path).bind retained = node.retainedAt path := by
  induction path generalizing node with
  | nil => rfl
  | cons edge path ih =>
      unfold find? retainedAt
      rw [nodeAt_cons]
      cases hget : node.get? edge with
      | none =>
          have hnext : node.next edge = empty := by simp [next, hget]
          rw [hnext, nodeAt_empty]
          rfl
      | some target =>
          have hnext : node.next edge = target := by simp [next, hget]
          rw [hnext]
          exact ih target

theorem changesOwn_withSubscribers (f : List SubscriberEntry → List SubscriberEntry) :
    ChangesOwn retained (fun node => node.withSubscribers (f node.subscribers)) id where
  set node edge target := by
    cases node
    cases edge <;> rfl
  own node := by
    cases node
    rfl
  next node edge := next_withSubscribers node _ edge

theorem changesOwn_withRetained (msg : RetainedMessage) :
    ChangesOwn retained (withRetained msg) fun _ => some msg where
  set node edge target := by
    cases node
    cases edge <;> rfl
  own node := by
    cases node
    rfl
  next node edge := next_withRetained node msg edge

theorem changesOwn_id : ChangesOwn retained id id where
  set node edge target := by
    cases node
    cases edge <;> rfl
  own _ := rfl
  next _ _ := rfl

theorem retainedAt_update_same {change : Node → Node} (h : ChangesOwn retained change id)
    (path path' : List Edge) (node : Node) :
    (node.update change path).retainedAt path' = node.retainedAt path' := by
  unfold retainedAt
  rw [own_nodeAt_update h]
  split_ifs with hpath
  · rw [hpath, id]
  · rfl

theorem retainedAt_modify_same {change : Node → Node} (h : ChangesOwn retained change id)
    (path path' : List Edge) (node : Node) :
    (node.modify change path).retainedAt path' = node.retainedAt path' := by
  unfold retainedAt
  rw [own_nodeAt_modify h rfl]
  split_ifs with hpath
  · rw [hpath, id]
  · rfl

/-! ## Counting nodes -/

def live : Option RetainedMessage → Nat
  | none => 0
  | some msg => if msg.payload.isEmpty then 0 else 1

mutual

/-- The number of nodes that hold a message with a payload. -/
def liveCount : Node → Nat
  | .mk children single multi _ retained =>
      live retained + liveCountChildren children + liveCountWild single + liveCountWild multi

def liveCountChildren : List (Bytes × Node) → Nat
  | [] => 0
  | (_, node) :: rest => liveCount node + liveCountChildren rest

def liveCountWild : Option Node → Nat
  | none => 0
  | some node => liveCount node

end

theorem liveCountWild_eq (node : Option Node) :
    liveCountWild node = (node.getD empty).liveCount := by
  cases node <;> rfl

theorem liveCountChildren_setChild (segment : Bytes) (node : Node)
    (children : List (Bytes × Node)) :
    liveCountChildren (setChild segment node children) +
        ((children.lookup segment).getD empty).liveCount =
      liveCountChildren children + node.liveCount := by
  induction children with
  | nil => simp [setChild, liveCountChildren, liveCount, liveCountWild, live, empty]
  | cons head rest ih =>
      obtain ⟨key, old⟩ := head
      rw [setChild, lookup_cons_ite]
      by_cases hkey : key = segment
      · rw [if_pos hkey, if_pos hkey.symm, Option.getD_some]
        simp only [liveCountChildren]
        omega
      · rw [if_neg hkey, if_neg (Ne.symm hkey)]
        simp only [liveCountChildren]
        omega

theorem liveCount_set (node target : Node) (edge : Edge) :
    (node.set edge target).liveCount + (node.next edge).liveCount =
      node.liveCount + target.liveCount := by
  cases node with
  | mk children single multi entries retained =>
      cases edge with
      | child segment =>
          have hchild := liveCountChildren_setChild segment target children
          simp only [set, liveCount, next, get?, Node.children]
          omega
      | singleWild =>
          have hold := liveCountWild_eq single
          simp only [set, liveCount, liveCountWild, next, get?, Node.singleWild]
          omega
      | multiWild =>
          have hold := liveCountWild_eq multi
          simp only [set, liveCount, liveCountWild, next, get?, Node.multiWild]
          omega

/-- A change of the node at the end of a path changes the count by as much as it
changes the count of that node. -/
theorem liveCount_update {change : Node → Node} (gain loss : Option RetainedMessage → Nat)
    (h : ∀ node, (change node).liveCount + loss node.retained =
      node.liveCount + gain node.retained) (path : List Edge) (node : Node) :
    (node.update change path).liveCount + loss (node.retainedAt path) =
      node.liveCount + gain (node.retainedAt path) := by
  induction path generalizing node with
  | nil => exact h node
  | cons edge path ih =>
      have hset := liveCount_set node ((node.next edge).update change path) edge
      have hbelow := ih (node.next edge)
      have hat : node.retainedAt (edge :: path) = (node.next edge).retainedAt path := rfl
      rw [hat]
      change (node.set edge ((node.next edge).update change path)).liveCount + _ = _
      omega

theorem liveCount_update_same {change : Node → Node}
    (h : ∀ node, (change node).liveCount = node.liveCount) (path : List Edge) (node : Node) :
    (node.update change path).liveCount = node.liveCount := by
  have hsame := liveCount_update (fun _ => 0) (fun _ => 0) (fun node => by rw [h node]) path node
  omega

theorem liveCount_modify_same {change : Node → Node}
    (h : ∀ node, (change node).liveCount = node.liveCount) (path : List Edge) (node : Node) :
    (node.modify change path).liveCount = node.liveCount := by
  induction path generalizing node with
  | nil => exact h node
  | cons edge path ih =>
      rw [modify]
      cases hget : node.get? edge with
      | none => rfl
      | some target =>
          have hnext : node.next edge = target := by simp [next, hget]
          have hset := liveCount_set node (target.modify change path) edge
          rw [hnext, ih target] at hset
          dsimp only
          omega

theorem liveCount_withSubscribers (entries : List SubscriberEntry) (node : Node) :
    (node.withSubscribers entries).liveCount = node.liveCount := by
  cases node
  rfl

theorem liveCount_withRetained (msg : RetainedMessage) (node : Node) :
    (node.withRetained msg).liveCount + live node.retained =
      node.liveCount + live (some msg) := by
  cases node
  simp only [withRetained, liveCount, Node.retained]
  omega

end Node

namespace TopicTree

def HoldsNone (tree : TopicTree) (topic : Bytes) : Prop :=
  ∀ old, tree.getRetained topic = some old → old.payload = []

/-- The message has a payload, its topic holds none, and the counter is at the
limit. -/
def Refuses (cfg : Config) (tree : TopicTree) (topic : Bytes) (msg : RetainedMessage) : Prop :=
  msg.payload ≠ [] ∧ tree.HoldsNone topic ∧ cfg.maxRetainedMessages ≤ tree.retainedCount

theorem getRetained_eq (tree : TopicTree) (topic : Bytes) :
    tree.getRetained topic = tree.root.retainedAt (topicPath topic) :=
  Node.bind_find?_retained tree.root (topicPath topic)

theorem live_eq_zero_iff {held : Option RetainedMessage} :
    Node.live held = 0 ↔ ∀ old, held = some old → old.payload = [] := by
  cases held with
  | none => simp [Node.live]
  | some old => simp [Node.live]

theorem live_some_eq_zero_iff {msg : RetainedMessage} :
    Node.live (some msg) = 0 ↔ msg.payload = [] := by
  simp [Node.live]

theorem live_le_one (held : Option RetainedMessage) : Node.live held ≤ 1 := by
  cases held with
  | none => exact Nat.zero_le 1
  | some old =>
      unfold Node.live
      dsimp only
      split_ifs <;> omega

/-- A call is refused and only creates the nodes of its topic, or it stores its
message and counts the difference. -/
theorem setRetained_cases (cfg : Config) (tree : TopicTree) (topic : Bytes)
    (msg : RetainedMessage) :
    (tree.Refuses cfg topic msg ∧ tree.setRetained cfg topic msg =
      (false, { tree with root := tree.root.update id (topicPath topic) })) ∨
    (¬tree.Refuses cfg topic msg ∧ tree.setRetained cfg topic msg =
      (true,
        { root := (tree.root.update id (topicPath topic)).update (Node.withRetained msg)
            (topicPath topic)
          retainedCount := tree.retainedCount + Node.live (some msg) -
            Node.live (tree.getRetained topic) })) := by
  have hheld : ((tree.root.update id (topicPath topic)).find? (topicPath topic)).bind
      Node.retained = tree.getRetained topic := by
    rw [Node.bind_find?_retained, Node.retainedAt_update_same Node.changesOwn_id, getRetained_eq]
  have hwasEmpty : ((tree.getRetained topic).map fun old => old.payload.isEmpty).getD true =
      decide (Node.live (tree.getRetained topic) = 0) := by
    cases tree.getRetained topic with
    | none => rfl
    | some old => cases hold : old.payload <;> simp [Node.live, hold]
  have hnewEmpty : msg.payload.isEmpty = decide (Node.live (some msg) = 0) := by
    cases hmsg : msg.payload <;> simp [Node.live, hmsg]
  have hnew := live_le_one (some msg)
  have hold := live_le_one (tree.getRetained topic)
  have hrefuses : tree.Refuses cfg topic msg ↔ Node.live (some msg) ≠ 0 ∧
      Node.live (tree.getRetained topic) = 0 ∧
      cfg.maxRetainedMessages ≤ tree.retainedCount := by
    rw [Refuses, HoldsNone, live_eq_zero_iff, ne_eq, ne_eq, live_some_eq_zero_iff]
  unfold setRetained
  rw [hrefuses]
  simp only [hheld, hwasEmpty, hnewEmpty]
  by_cases hcond : Node.live (some msg) ≠ 0 ∧ Node.live (tree.getRetained topic) = 0 ∧
      cfg.maxRetainedMessages ≤ tree.retainedCount
  · left
    refine ⟨hcond, ?_⟩
    rw [if_pos]
    simp [hcond.1, hcond.2]
  · right
    refine ⟨hcond, ?_⟩
    rw [if_neg]
    · congr 2
      split_ifs with hcleared hadded
      · simp only [Bool.and_eq_true, decide_eq_true_eq, Bool.not_eq_true',
          decide_eq_false_iff_not] at hcleared
        omega
      · simp only [Bool.and_eq_true, decide_eq_true_eq, Bool.not_eq_true',
          decide_eq_false_iff_not] at hadded
        omega
      · simp only [Bool.and_eq_true, decide_eq_true_eq, Bool.not_eq_true',
          decide_eq_false_iff_not] at hcleared hadded
        omega
    · simp only [Bool.and_eq_true, decide_eq_true_eq, Bool.not_eq_true',
        decide_eq_false_iff_not]
      exact fun h => hcond ⟨h.1.1, h.1.2, h.2⟩

theorem setRetained_fst_iff (cfg : Config) (tree : TopicTree) (topic : Bytes)
    (msg : RetainedMessage) :
    (tree.setRetained cfg topic msg).1 = false ↔ tree.Refuses cfg topic msg := by
  rcases setRetained_cases cfg tree topic msg with ⟨hrefuses, heq⟩ | ⟨haccepts, heq⟩
  · rw [heq]
    exact iff_of_true rfl hrefuses
  · rw [heq]
    exact iff_of_false nofun haccepts

theorem retainedAt_setRetained (cfg : Config) (tree : TopicTree) (topic : Bytes)
    (msg : RetainedMessage) (path : List Edge) :
    (tree.setRetained cfg topic msg).2.root.retainedAt path =
      if (tree.setRetained cfg topic msg).1 = true ∧ path = topicPath topic then some msg
      else tree.root.retainedAt path := by
  rcases setRetained_cases cfg tree topic msg with ⟨_, heq⟩ | ⟨_, heq⟩
  · rw [heq, Node.retainedAt_update_same Node.changesOwn_id]
    simp
  · rw [heq]
    simp only [true_and]
    unfold Node.retainedAt
    rw [Node.own_nodeAt_update (Node.changesOwn_withRetained msg)]
    split_ifs
    · rfl
    · exact Node.retainedAt_update_same Node.changesOwn_id _ _ _

theorem topicPath_eq_iff {topic topic' : Bytes} :
    topicPath topic = topicPath topic' ↔ split topic = split topic' :=
  (List.map_injective_iff.mpr fun _ _ h => Edge.child.inj h).eq_iff

theorem getRetained_setRetained (cfg : Config) (tree : TopicTree) (topic : Bytes)
    (msg : RetainedMessage) (topic' : Bytes) :
    (tree.setRetained cfg topic msg).2.getRetained topic' =
      if (tree.setRetained cfg topic msg).1 = true ∧ split topic' = split topic then some msg
      else tree.getRetained topic' := by
  rw [getRetained_eq, retainedAt_setRetained, getRetained_eq]
  simp only [topicPath_eq_iff]

/-- The counter is the number of nodes with a payload, and it is within the
limit. -/
structure Counted (cfg : Config) (tree : TopicTree) : Prop where
  count : tree.retainedCount = tree.root.liveCount
  limit : tree.retainedCount ≤ cfg.maxRetainedMessages

theorem Counted.subscribe {cfg : Config} {tree : TopicTree} (h : tree.Counted cfg)
    (filter : Bytes) (entry : SubscriberEntry) : (tree.subscribe filter entry).Counted cfg := by
  refine ⟨?_, h.limit⟩
  change tree.retainedCount = (tree.root.update _ _).liveCount
  rw [Node.liveCount_update_same fun node => Node.liveCount_withSubscribers _ node]
  exact h.count

theorem Counted.unsubscribe {cfg : Config} {tree : TopicTree} (h : tree.Counted cfg)
    (filter : Bytes) (session : SessionId) : (tree.unsubscribe filter session).Counted cfg := by
  refine ⟨?_, h.limit⟩
  change tree.retainedCount = (tree.root.modify _ _).liveCount
  rw [Node.liveCount_modify_same fun node => Node.liveCount_withSubscribers _ node]
  exact h.count

theorem Counted.setRetained {cfg : Config} {tree : TopicTree} (h : tree.Counted cfg)
    (topic : Bytes) (msg : RetainedMessage) :
    (tree.setRetained cfg topic msg).2.Counted cfg := by
  have hensure : (tree.root.update id (topicPath topic)).liveCount = tree.root.liveCount :=
    Node.liveCount_update_same (fun _ => rfl) _ _
  have hcount := h.count
  have hlimit := h.limit
  rcases setRetained_cases cfg tree topic msg with ⟨_, heq⟩ | ⟨haccepts, heq⟩
  · rw [heq]
    exact ⟨hcount.trans (by rw [hensure]), hlimit⟩
  · have hstore := Node.liveCount_update (fun _ => Node.live (some msg)) Node.live
      (Node.liveCount_withRetained msg) (topicPath topic)
      (tree.root.update id (topicPath topic))
    rw [Node.retainedAt_update_same Node.changesOwn_id, ← getRetained_eq, hensure] at hstore
    have hnew := live_le_one (some msg)
    have hroom : Node.live (some msg) ≠ 0 → Node.live (tree.getRetained topic) = 0 →
        tree.retainedCount < cfg.maxRetainedMessages := by
      intro hpayload hnone
      by_contra hfull
      apply haccepts
      refine ⟨fun hempty => hpayload (live_some_eq_zero_iff.mpr hempty),
        live_eq_zero_iff.mp hnone, by omega⟩
    rw [heq]
    constructor
    · dsimp only
      omega
    · dsimp only
      omega

theorem Counted.run {cfg : Config} {tree : TopicTree} (h : tree.Counted cfg) (call : TreeCall) :
    (call.run cfg tree).Counted cfg := by
  cases call with
  | subscribe filter entry => exact h.subscribe filter entry
  | unsubscribe filter session => exact h.unsubscribe filter session
  | setRetained topic msg => exact h.setRetained topic msg

theorem Counted.foldl {cfg : Config} {tree : TopicTree} (h : tree.Counted cfg)
    (history : List TreeCall) : (history.foldl (TreeCall.run cfg) tree).Counted cfg := by
  refine List.foldlRecOn history _ h ?_
  intro tree' hcounted call _
  exact hcounted.run call

theorem counted_after {cfg : Config} (hmax : 0 ≤ cfg.maxRetainedMessages)
    (history : List TreeCall) : (treeAfter cfg history).Counted cfg :=
  Counted.foldl ⟨rfl, hmax⟩ history

end TopicTree

/-- After every history of calls the counter is the number of nodes with a payload
and within the limit, the limit refuses a call exactly when it would add one more,
a refused call changes nothing that can be asked for, and an accepted one changes
the message of its own topic. -/
theorem retained_count_exact (cfg : Config) (hmax : 0 ≤ cfg.maxRetainedMessages)
    (history : List TreeCall) :
    (treeAfter cfg history).retainedCount = (treeAfter cfg history).root.liveCount ∧
    0 ≤ (treeAfter cfg history).retainedCount ∧
    (treeAfter cfg history).retainedCount ≤ cfg.maxRetainedMessages ∧
    ∀ (topic : Bytes) (msg : RetainedMessage),
      (((treeAfter cfg history).setRetained cfg topic msg).1 = false ↔
        msg.payload ≠ [] ∧ (treeAfter cfg history).HoldsNone topic ∧
          (treeAfter cfg history).retainedCount = cfg.maxRetainedMessages) ∧
      (((treeAfter cfg history).setRetained cfg topic msg).1 = false →
        ((treeAfter cfg history).setRetained cfg topic msg).2.retainedCount =
            (treeAfter cfg history).retainedCount ∧
          ∀ topic', ((treeAfter cfg history).setRetained cfg topic msg).2.getRetained topic' =
              (treeAfter cfg history).getRetained topic' ∧
            ((treeAfter cfg history).setRetained cfg topic msg).2.lookup topic' =
              (treeAfter cfg history).lookup topic') ∧
      (((treeAfter cfg history).setRetained cfg topic msg).1 = true →
        ∀ topic', split topic' ≠ split topic →
          ((treeAfter cfg history).setRetained cfg topic msg).2.getRetained topic' =
            (treeAfter cfg history).getRetained topic') := by
  have hcounted := TopicTree.counted_after hmax history
  generalize treeAfter cfg history = tree at hcounted ⊢
  have hcount := hcounted.count
  have hlimit := hcounted.limit
  refine ⟨hcount, by omega, hlimit, fun topic msg => ⟨?_, ?_, ?_⟩⟩
  · rw [TopicTree.setRetained_fst_iff, TopicTree.Refuses]
    have hfull : cfg.maxRetainedMessages ≤ tree.retainedCount ↔
        tree.retainedCount = cfg.maxRetainedMessages := by omega
    rw [hfull]
  · intro hrefused
    constructor
    · rcases TopicTree.setRetained_cases cfg tree topic msg with ⟨_, heq⟩ | ⟨_, heq⟩
      · rw [heq]
      · rw [heq] at hrefused
        cases hrefused
    · intro topic'
      rw [TopicTree.getRetained_setRetained, hrefused]
      simp only [Bool.false_eq_true, false_and, if_false, true_and]
      exact lookup_setRetained cfg tree topic msg topic'
  · intro _ topic' hother
    rw [TopicTree.getRetained_setRetained, if_neg fun h => hother h.2]

/-- With room for one message, the topic `b` is refused after `a`. -/
theorem retained_count_at_limit :
    (0 : Int) ≤ ({ maxRetainedMessages := 1 } : Config).maxRetainedMessages ∧
    ((treeAfter { maxRetainedMessages := 1 } [.setRetained [0x61] ⟨[1], 0⟩]).setRetained
      { maxRetainedMessages := 1 } [0x62] ⟨[2], 0⟩).1 = false := by
  have hexact := retained_count_exact { maxRetainedMessages := 1 } (by decide)
    [.setRetained [0x61] ⟨[1], 0⟩]
  refine ⟨by decide, (hexact.2.2.2 [0x62] ⟨[2], 0⟩).1.mpr ⟨by decide, ?_, by decide +kernel⟩⟩
  intro old hold
  have hnone : (treeAfter { maxRetainedMessages := 1 }
      [.setRetained [0x61] ⟨[1], 0⟩]).getRetained [0x62] = none := by decide +kernel
  rw [hnone] at hold
  cases hold

end JellyBroker.Topic
