import JellyBroker.Topic.Subscriptions
/-!
# Retained messages of a tree

Subscribing and unsubscribing create nodes and change subscribers, but they
bring no retained message into the tree.  `setRetained` brings its own message
and no other.
-/

namespace JellyBroker.Topic

namespace Node

/-- The topic text of a child, as `get_all_retained` builds it. -/
def childTopic (path segment : Bytes) : Bytes :=
  if path.isEmpty then segment else path ++ [levelSeparator] ++ segment

theorem mem_getAllRetainedChildren_iff (path : Bytes) (children : List (Bytes × Node))
    (row : Bytes × RetainedMessage) :
    row ∈ getAllRetainedChildren path children ↔
      ∃ segment child, (segment, child) ∈ children ∧
        row ∈ getAllRetained (childTopic path segment) child := by
  induction children with
  | nil => simp [getAllRetainedChildren]
  | cons head rest ih =>
      obtain ⟨segment, child⟩ := head
      rw [getAllRetainedChildren, List.mem_append, ih]
      constructor
      · rintro (hhead | ⟨segment', child', hmem, hrow⟩)
        · exact ⟨segment, child, List.mem_cons_self, hhead⟩
        · exact ⟨segment', child', List.mem_cons_of_mem _ hmem, hrow⟩
      · rintro ⟨segment', child', hmem, hrow⟩
        rcases List.mem_cons.mp hmem with heq | hmem'
        · obtain ⟨rfl, rfl⟩ := Prod.mk.inj heq
          exact Or.inl hrow
        · exact Or.inr ⟨segment', child', hmem', hrow⟩

/-- A retained message stands at the node itself, below a literal child or below
the `+` child. -/
theorem mem_getAllRetained_iff (path : Bytes) (node : Node) (row : Bytes × RetainedMessage) :
    row ∈ node.getAllRetained path ↔
      (∃ msg, node.retained = some msg ∧ row = (path, msg)) ∨
      (∃ segment child, (segment, child) ∈ node.children ∧
        row ∈ getAllRetained (childTopic path segment) child) ∨
      ∃ child, node.singleWild = some child ∧
        row ∈ getAllRetained (childTopic path singleWildcard) child := by
  cases node with
  | mk children single multi entries retained =>
      have hsingle : row ∈ getAllRetainedSingle path single ↔ ∃ child, single = some child ∧
          row ∈ getAllRetained (childTopic path singleWildcard) child := by
        cases single with
        | none => simp [getAllRetainedSingle]
        | some child => simp [getAllRetainedSingle, childTopic]
      have hown : row ∈ (retained.map fun msg => (path, msg)).toList ↔
          ∃ msg, retained = some msg ∧ row = (path, msg) := by
        cases retained with
        | none => simp
        | some msg => simp
      rw [getAllRetained, List.mem_append, List.mem_append, mem_getAllRetainedChildren_iff,
        hsingle, hown, or_assoc]
      rfl

theorem getAllRetained_empty (path : Bytes) : empty.getAllRetained path = [] := rfl

theorem mem_of_lookup {segment : Bytes} {child : Node} {children : List (Bytes × Node)}
    (h : children.lookup segment = some child) : (segment, child) ∈ children := by
  induction children with
  | nil => cases h
  | cons head rest ih =>
      obtain ⟨key, old⟩ := head
      rw [lookup_cons_ite] at h
      split_ifs at h with heq
      · rw [heq, Option.some.inj h]
        exact List.mem_cons_self
      · exact List.mem_cons_of_mem _ (ih h)

theorem mem_setChild {segment segment' : Bytes} {node child : Node}
    {children : List (Bytes × Node)} (h : (segment', child) ∈ setChild segment node children) :
    (segment', child) ∈ children ∨ segment' = segment ∧ child = node := by
  induction children with
  | nil =>
      rw [setChild, List.mem_singleton] at h
      exact Or.inr (Prod.mk.inj h)
  | cons head rest ih =>
      obtain ⟨key, old⟩ := head
      rw [setChild] at h
      split_ifs at h with heq
      · rcases List.mem_cons.mp h with hhead | hrest
        · obtain ⟨hkey, hchild⟩ := Prod.mk.inj hhead
          exact Or.inr ⟨hkey.trans heq, hchild⟩
        · exact Or.inl (List.mem_cons_of_mem _ hrest)
      · rcases List.mem_cons.mp h with hhead | hrest
        · rw [hhead]
          exact Or.inl List.mem_cons_self
        · rcases ih hrest with hmem | hnew
          · exact Or.inl (List.mem_cons_of_mem _ hmem)
          · exact Or.inr hnew

def edgeTopic (path : Bytes) (edge : Edge) : Bytes := childTopic path edge.segment

def topicText (path : Bytes) (edges : List Edge) : Bytes := edges.foldl edgeTopic path

theorem mem_getAllRetained_set {path : Bytes} {node target : Node} {edge : Edge}
    {row : Bytes × RetainedMessage} (h : row ∈ (node.set edge target).getAllRetained path) :
    row ∈ node.getAllRetained path ∨
      edge ≠ .multiWild ∧ row ∈ target.getAllRetained (edgeTopic path edge) := by
  cases node with
  | mk children single multi entries retained =>
      rw [mem_getAllRetained_iff] at h ⊢
      cases edge with
      | child segment =>
          rcases h with hown | ⟨segment', child, hmem, hrow⟩ | hsingle
          · exact Or.inl (Or.inl hown)
          · rcases mem_setChild hmem with hold | ⟨hsegment, hchild⟩
            · exact Or.inl (Or.inr (Or.inl ⟨segment', child, hold, hrow⟩))
            · rw [hsegment, hchild] at hrow
              exact Or.inr ⟨nofun, hrow⟩
          · exact Or.inl (Or.inr (Or.inr hsingle))
      | singleWild =>
          rcases h with hown | hchildren | ⟨child, hchild, hrow⟩
          · exact Or.inl (Or.inl hown)
          · exact Or.inl (Or.inr (Or.inl hchildren))
          · rw [← Option.some.inj hchild] at hrow
            exact Or.inr ⟨nofun, hrow⟩
      | multiWild => exact Or.inl h

theorem mem_getAllRetained_of_get? {path : Bytes} {node target : Node} {edge : Edge}
    {row : Bytes × RetainedMessage} (hget : node.get? edge = some target)
    (hedge : edge ≠ .multiWild) (h : row ∈ target.getAllRetained (edgeTopic path edge)) :
    row ∈ node.getAllRetained path := by
  rw [mem_getAllRetained_iff]
  cases edge with
  | child segment => exact Or.inr (Or.inl ⟨segment, target, mem_of_lookup hget, h⟩)
  | singleWild => exact Or.inr (Or.inr ⟨target, hget, h⟩)
  | multiWild => exact absurd rfl hedge

/-- Changing the node at the end of a path brings no other rows into the listing than the
change brings into a node, and those under the text of that path. -/
theorem mem_getAllRetained_update_cases (new : Bytes → Bytes × RetainedMessage → Prop)
    {change : Node → Node}
    (hchange : ∀ {path node row}, row ∈ (change node).getAllRetained path →
      row ∈ node.getAllRetained path ∨ new path row)
    {edges : List Edge} {path : Bytes} {node : Node} {row : Bytes × RetainedMessage}
    (h : row ∈ (node.update change edges).getAllRetained path) :
    row ∈ node.getAllRetained path ∨ new (topicText path edges) row := by
  induction edges generalizing path node with
  | nil => exact hchange h
  | cons edge edges ih =>
      rw [update] at h
      rcases mem_getAllRetained_set h with hnode | ⟨hedge, htarget⟩
      · exact Or.inl hnode
      · rcases ih htarget with hrow | hnew
        · left
          cases hget : node.get? edge with
          | none =>
              rw [hget, Option.getD_none, getAllRetained_empty] at hrow
              cases hrow
          | some target =>
              rw [hget, Option.getD_some] at hrow
              exact mem_getAllRetained_of_get? hget hedge hrow
        · exact Or.inr hnew

/-! ## Subscribing -/

theorem mem_getAllRetained_withSubscribers {path : Bytes} {node : Node}
    {entries : List SubscriberEntry} {row : Bytes × RetainedMessage}
    (h : row ∈ (node.withSubscribers entries).getAllRetained path) :
    row ∈ node.getAllRetained path := by
  cases node
  exact h

theorem mem_getAllRetained_update {f : List SubscriberEntry → List SubscriberEntry}
    {edges : List Edge} {path : Bytes} {node : Node} {row : Bytes × RetainedMessage}
    (h : row ∈ (node.update (fun n => n.withSubscribers (f n.subscribers)) edges).getAllRetained
      path) : row ∈ node.getAllRetained path := by
  have hcases : row ∈ node.getAllRetained path ∨ False := by
    refine mem_getAllRetained_update_cases (fun _ _ => False) (fun hrow => ?_) h
    exact Or.inl (mem_getAllRetained_withSubscribers hrow)
  rwa [or_false] at hcases

theorem mem_getAllRetained_modify {f : List SubscriberEntry → List SubscriberEntry}
    {edges : List Edge} {path : Bytes} {node : Node} {row : Bytes × RetainedMessage}
    (h : row ∈ (node.modify (fun n => n.withSubscribers (f n.subscribers)) edges).getAllRetained
      path) : row ∈ node.getAllRetained path := by
  induction edges generalizing path node with
  | nil => exact mem_getAllRetained_withSubscribers h
  | cons edge edges ih =>
      rw [modify] at h
      cases hget : node.get? edge with
      | none =>
          rw [hget] at h
          exact h
      | some target =>
          rw [hget] at h
          rcases mem_getAllRetained_set h with hnode | ⟨hedge, htarget⟩
          · exact hnode
          · exact mem_getAllRetained_of_get? hget hedge (ih htarget)

/-! ## Retaining -/

theorem mem_getAllRetained_withRetained {msg : RetainedMessage} {path : Bytes} {node : Node}
    {row : Bytes × RetainedMessage} (h : row ∈ (node.withRetained msg).getAllRetained path) :
    row ∈ node.getAllRetained path ∨ row = (path, msg) := by
  cases node with
  | mk children single multi entries retained =>
      rw [mem_getAllRetained_iff] at h ⊢
      rcases h with ⟨msg', hown, hrow⟩ | hbelow
      · right
        rw [hrow, ← Option.some.inj hown]
      · exact Or.inl (Or.inr hbelow)

end Node

namespace TopicTree

theorem mem_getAllRetained_setRetained {cfg : Config} {tree : TopicTree} {topic : Bytes}
    {msg : RetainedMessage} {row : Bytes × RetainedMessage}
    (h : row ∈ (tree.setRetained cfg topic msg).2.getAllRetained) :
    row ∈ tree.getAllRetained ∨ row = (Node.topicText [] (topicPath topic), msg) := by
  have hensure : ∀ {row}, row ∈ (tree.root.update id (topicPath topic)).getAllRetained [] →
      row ∈ tree.getAllRetained := by
    intro row hrow
    rcases Node.mem_getAllRetained_update_cases (fun _ _ => False) Or.inl hrow with hold | hnew
    · exact hold
    · exact hnew.elim
  simp only [setRetained] at h
  split at h
  · exact Or.inl (hensure h)
  · rcases Node.mem_getAllRetained_update_cases (fun path row => row = (path, msg))
      Node.mem_getAllRetained_withRetained h with hrow | hnew
    · exact Or.inl (hensure hrow)
    · exact Or.inr hnew

theorem mem_getAllRetained_subscribe {tree : TopicTree} {filter : Bytes} {entry : SubscriberEntry}
    {row : Bytes × RetainedMessage} (h : row ∈ (tree.subscribe filter entry).getAllRetained) :
    row ∈ tree.getAllRetained :=
  Node.mem_getAllRetained_update h

theorem mem_getAllRetained_unsubscribe {tree : TopicTree} {filter : Bytes} {session : SessionId}
    {row : Bytes × RetainedMessage} (h : row ∈ (tree.unsubscribe filter session).getAllRetained) :
    row ∈ tree.getAllRetained :=
  Node.mem_getAllRetained_modify h

structure Shrinks (tree tree' : TopicTree) : Prop where
  lookup : ∀ {topic entry}, entry ∈ tree'.lookup topic → entry ∈ tree.lookup topic
  retained : ∀ {row}, row ∈ tree'.getAllRetained → row ∈ tree.getAllRetained

theorem Shrinks.refl (tree : TopicTree) : tree.Shrinks tree := ⟨id, id⟩

theorem Shrinks.trans {tree₁ tree₂ tree₃ : TopicTree} (h : tree₁.Shrinks tree₂)
    (h' : tree₂.Shrinks tree₃) : tree₁.Shrinks tree₃ :=
  ⟨fun hentry => h.lookup (h'.lookup hentry), fun hrow => h.retained (h'.retained hrow)⟩

theorem shrinks_unsubscribe (tree : TopicTree) (filter : Bytes) (session : SessionId) :
    tree.Shrinks (tree.unsubscribe filter session) :=
  ⟨mem_lookup_unsubscribe, mem_getAllRetained_unsubscribe⟩

end TopicTree

end JellyBroker.Topic
