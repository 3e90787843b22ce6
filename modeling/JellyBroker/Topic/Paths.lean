import JellyBroker.Topic.Tree
import JellyBroker.Topic.Matching
import Mathlib.Tactic
/-!
# Subscribers along paths

A tree is read through the subscribers found at each path.  The mutators
change one path each, and `lookup` concatenates the subscribers of the paths
it visits.  Nothing after this module looks inside a node.
-/

namespace JellyBroker.Topic

namespace Node

def next (node : Node) (edge : Edge) : Node := (node.get? edge).getD empty

def subscribersAt : Node → List Edge → List SubscriberEntry
  | node, [] => node.subscribers
  | node, edge :: path => (node.next edge).subscribersAt path

@[simp] theorem subscribersAt_nil (node : Node) :
    node.subscribersAt [] = node.subscribers := rfl

@[simp] theorem subscribersAt_cons (node : Node) (edge : Edge) (path : List Edge) :
    node.subscribersAt (edge :: path) = (node.next edge).subscribersAt path := rfl

@[simp] theorem next_empty (edge : Edge) : empty.next edge = empty := by
  cases edge <;> rfl

@[simp] theorem subscribersAt_empty (path : List Edge) :
    empty.subscribersAt path = [] := by
  induction path with
  | nil => rfl
  | cons edge path ih => simpa using ih

theorem lookup_cons_ite (key segment : Bytes) (node : Node)
    (children : List (Bytes × Node)) :
    ((key, node) :: children).lookup segment =
      if segment = key then some node else children.lookup segment := by
  by_cases h : segment = key
  · subst h
    simp
  · have hbeq : (segment == key) = false := beq_false_of_ne h
    rw [List.lookup_cons, hbeq, if_neg h]

theorem lookup_setChild (segment segment' : Bytes) (node : Node)
    (children : List (Bytes × Node)) :
    (setChild segment node children).lookup segment' =
      if segment' = segment then some node else children.lookup segment' := by
  induction children with
  | nil => rw [setChild, lookup_cons_ite]
  | cons head rest ih =>
      obtain ⟨key, old⟩ := head
      rw [setChild]
      by_cases hkey : key = segment
      · rw [if_pos hkey, lookup_cons_ite, lookup_cons_ite, hkey]
        split <;> rfl
      · rw [if_neg hkey, lookup_cons_ite, lookup_cons_ite, ih]
        by_cases h : segment' = key
        · rw [if_pos h, if_neg (h ▸ hkey), if_pos h]
        · rw [if_neg h, if_neg h]

theorem next_set (node node' : Node) (edge edge' : Edge) :
    (node.set edge node').next edge' =
      if edge' = edge then node' else node.next edge' := by
  cases node with
  | mk children single multi entries retained =>
      cases edge with
      | child segment =>
          cases edge' with
          | child segment' =>
              simp only [next, get?, set, Node.children, lookup_setChild, Edge.child.injEq]
              split <;> rfl
          | singleWild => rfl
          | multiWild => rfl
      | singleWild => cases edge' <;> simp [next, get?, set, Node.children,
          Node.singleWild, Node.multiWild]
      | multiWild => cases edge' <;> simp [next, get?, set, Node.children,
          Node.singleWild, Node.multiWild]

@[simp] theorem subscribers_set (node node' : Node) (edge : Edge) :
    (node.set edge node').subscribers = node.subscribers := by
  cases node
  cases edge <;> rfl

@[simp] theorem subscribers_withSubscribers (node : Node)
    (entries : List SubscriberEntry) :
    (node.withSubscribers entries).subscribers = entries := by
  cases node
  rfl

@[simp] theorem next_withSubscribers (node : Node) (entries : List SubscriberEntry)
    (edge : Edge) : (node.withSubscribers entries).next edge = node.next edge := by
  cases node
  cases edge <;> rfl

@[simp] theorem subscribers_withRetained (node : Node) (msg : RetainedMessage) :
    (node.withRetained msg).subscribers = node.subscribers := by
  cases node
  rfl

@[simp] theorem next_withRetained (node : Node) (msg : RetainedMessage)
    (edge : Edge) : (node.withRetained msg).next edge = node.next edge := by
  cases node
  cases edge <;> rfl

def nodeAt : Node → List Edge → Node
  | node, [] => node
  | node, edge :: path => (node.next edge).nodeAt path

@[simp] theorem nodeAt_nil (node : Node) : node.nodeAt [] = node := rfl

@[simp] theorem nodeAt_cons (node : Node) (edge : Edge) (path : List Edge) :
    node.nodeAt (edge :: path) = (node.next edge).nodeAt path := rfl

@[simp] theorem nodeAt_empty (path : List Edge) : empty.nodeAt path = empty := by
  induction path with
  | nil => rfl
  | cons edge path ih => rw [nodeAt_cons, next_empty, ih]

theorem subscribersAt_eq_nodeAt (node : Node) (path : List Edge) :
    node.subscribersAt path = (node.nodeAt path).subscribers := by
  induction path generalizing node with
  | nil => rfl
  | cons edge path ih => exact ih (node.next edge)

/-! ## The mutators change one path -/

/-- A change of a node that acts by `f` on the part `own`, which is the node's own
and not in its children. -/
structure ChangesOwn {β : Type} (own : Node → β) (change : Node → Node) (f : β → β) : Prop where
  set : ∀ node edge target, own (node.set edge target) = own node
  own : ∀ node, own (change node) = f (own node)
  next : ∀ node edge, (change node).next edge = node.next edge

theorem own_nodeAt_update {β : Type} {own : Node → β} {change : Node → Node} {f : β → β}
    (h : ChangesOwn own change f) (path path' : List Edge) (node : Node) :
    own ((node.update change path).nodeAt path') =
      if path' = path then f (own (node.nodeAt path)) else own (node.nodeAt path') := by
  induction path generalizing node path' with
  | nil =>
      cases path' with
      | nil => simp [update, h.own]
      | cons edge' path' => simp [update, h.next]
  | cons edge path ih =>
      cases path' with
      | nil => simp [update, h.set]
      | cons edge' path' =>
          simp only [update, nodeAt_cons, next_set, List.cons.injEq]
          by_cases hedge : edge' = edge
          · subst hedge
            simp only [if_true, true_and]
            exact ih path' (node.next edge')
          · simp [hedge]

/-- `unsubscribe` stops at a missing node, where there is nothing to change. -/
theorem own_nodeAt_modify {β : Type} {own : Node → β} {change : Node → Node} {f : β → β}
    (h : ChangesOwn own change f) (hempty : f (own empty) = own empty)
    (path path' : List Edge) (node : Node) :
    own ((node.modify change path).nodeAt path') =
      if path' = path then f (own (node.nodeAt path)) else own (node.nodeAt path') := by
  induction path generalizing node path' with
  | nil =>
      cases path' with
      | nil => simp [modify, h.own]
      | cons edge' path' => simp [modify, h.next]
  | cons edge path ih =>
      rw [modify]
      cases hget : node.get? edge with
      | none =>
          have hnext : node.next edge = empty := by simp [next, hget]
          by_cases hpath : path' = edge :: path
          · subst hpath
            simp [hnext, hempty]
          · simp [hpath]
      | some target =>
          have hnext : node.next edge = target := by simp [next, hget]
          cases path' with
          | nil => simp [h.set]
          | cons edge' path' =>
              simp only [nodeAt_cons, next_set, List.cons.injEq]
              by_cases hedge : edge' = edge
              · subst hedge
                simp only [if_true, true_and, hnext]
                exact ih path' target
              · simp [hedge]

structure ChangesSubscribers (change : Node → Node)
    (f : List SubscriberEntry → List SubscriberEntry) : Prop where
  subscribers : ∀ node, (change node).subscribers = f node.subscribers
  next : ∀ node edge, (change node).next edge = node.next edge

theorem ChangesSubscribers.changesOwn {change : Node → Node}
    {f : List SubscriberEntry → List SubscriberEntry} (h : ChangesSubscribers change f) :
    ChangesOwn Node.subscribers change f :=
  ⟨fun node edge target => subscribers_set node target edge, h.subscribers, h.next⟩

theorem subscribersAt_update {change : Node → Node}
    {f : List SubscriberEntry → List SubscriberEntry}
    (hchange : ChangesSubscribers change f) (path path' : List Edge) (node : Node) :
    (node.update change path).subscribersAt path' =
      if path' = path then f (node.subscribersAt path)
      else node.subscribersAt path' := by
  simp only [subscribersAt_eq_nodeAt]
  exact own_nodeAt_update hchange.changesOwn path path' node

theorem subscribersAt_update_same {change : Node → Node}
    (hchange : ChangesSubscribers change id) (path path' : List Edge) (node : Node) :
    (node.update change path).subscribersAt path' = node.subscribersAt path' := by
  rw [subscribersAt_update hchange]
  split_ifs with hpath
  · rw [hpath, id]
  · rfl

theorem subscribersAt_modify {change : Node → Node}
    {f : List SubscriberEntry → List SubscriberEntry}
    (hchange : ChangesSubscribers change f) (hempty : f [] = [])
    (path path' : List Edge) (node : Node) :
    (node.modify change path).subscribersAt path' =
      if path' = path then f (node.subscribersAt path)
      else node.subscribersAt path' := by
  simp only [subscribersAt_eq_nodeAt]
  exact own_nodeAt_modify hchange.changesOwn hempty path path' node

/-! ## The paths `lookup` visits -/

/-- The paths whose subscribers `lookup` collects, in the order it reaches
them.  On the way down it reads a `#` child together with that node's own `#`
child; at the end of the topic it reads the node and its `#` child. -/
def visitedPaths : List Bytes → List (List Edge)
  | [] => [[], [.multiWild]]
  | segment :: rest =>
      [[.multiWild], [.multiWild, .multiWild]] ++
        (visitedPaths rest).map (.singleWild :: ·) ++
        (visitedPaths rest).map (.child segment :: ·)

theorem collectSubscribers_eq (node : Node) :
    node.collectSubscribers =
      node.subscribersAt [] ++ node.subscribersAt [.multiWild] := by
  cases node with
  | mk children single multi entries retained => cases multi <;> rfl

theorem collectMultiWild_eq (node : Node) :
    (node.multiWild.map collectSubscribers).getD [] =
      node.subscribersAt [.multiWild] ++ node.subscribersAt [.multiWild, .multiWild] := by
  cases node with
  | mk children single multi entries retained =>
      cases multi with
      | none => rfl
      | some node => exact collectSubscribers_eq node

/-- The recursive traversal that the stack of `lookup` stands for. -/
def reachedSubscribers (frame : Node × List Bytes) : List SubscriberEntry :=
  (visitedPaths frame.2).flatMap frame.1.subscribersAt

theorem reachedSubscribers_empty (segments : List Bytes) :
    reachedSubscribers (empty, segments) = [] := by
  simp [reachedSubscribers]

theorem flatMap_toList_reached (target : Option Node) (rest : List Bytes) :
    (target.map (·, rest)).toList.flatMap reachedSubscribers =
      reachedSubscribers (target.getD empty, rest) := by
  cases target with
  | none => simp [reachedSubscribers_empty]
  | some node => simp

theorem reachedSubscribers_visit (frame : Node × List Bytes) :
    reachedSubscribers frame =
      (visit frame).1 ++ (visit frame).2.flatMap reachedSubscribers := by
  obtain ⟨node, segments⟩ := frame
  cases segments with
  | nil => simp [reachedSubscribers, visitedPaths, visit, collectSubscribers_eq]
  | cons segment rest =>
      have hsingle : (node.singleWild).getD empty = node.next .singleWild := rfl
      have hchild : (node.children.lookup segment).getD empty =
          node.next (.child segment) := rfl
      simp only [visit, List.flatMap_append, flatMap_toList_reached, hsingle, hchild,
        collectMultiWild_eq]
      simp [reachedSubscribers, visitedPaths, List.flatMap_append, List.flatMap_map]

/-- The bound on the pops still to come for a frame. -/
def frameWeight (frame : Node × List Bytes) : Nat := 2 ^ (frame.2.length + 1) - 1

theorem frameWeight_visit (frame : Node × List Bytes) :
    ((visit frame).2.map frameWeight).sum + 1 ≤ frameWeight frame := by
  obtain ⟨node, segments⟩ := frame
  cases segments with
  | nil => simp [visit, frameWeight]
  | cons segment rest =>
      have hpow : 2 ^ (rest.length + 1 + 1) = 2 * 2 ^ (rest.length + 1) := by ring
      have hpos : 1 ≤ 2 ^ (rest.length + 1) := Nat.one_le_two_pow
      have hone (target : Option Node) :
          ((target.map (·, rest)).toList.map frameWeight).sum ≤
            2 ^ (rest.length + 1) - 1 := by
        cases target <;> simp [frameWeight]
      have hsingle := hone node.singleWild
      have hchild := hone (node.children.lookup segment)
      simp only [visit, List.map_append, List.sum_append, frameWeight, List.length_cons]
      omega

end Node

/-- `lookup` returns the subscribers of the paths it visits, in that order. -/
theorem TopicTree.lookup_eq (tree : TopicTree) (topic : Bytes) :
    tree.lookup topic =
      (Node.visitedPaths (split topic)).flatMap tree.root.subscribersAt := by
  unfold TopicTree.lookup
  rw [Lib.StackWalk.run_eq Node.frameWeight_visit Node.reachedSubscribers_visit]
  · simp [Node.reachedSubscribers]
  · simp [Node.frameWeight]

end JellyBroker.Topic
