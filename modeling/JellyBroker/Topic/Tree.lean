import JellyBroker.Topic.Filter
import JellyBroker.Lib.StackWalk
/-!
# The topic tree

The trie that holds subscriptions and retained messages.  A node owns its
literal children, its `+` child, its `#` child, its subscribers and its
retained message.

A subscriber is a weak reference to a `Session`, which is modelled by the
identity of the session.  `subscribe` and `unsubscribe` are called by a session
for itself, so they compare identities.  Whether the reference can still be
locked is asked where a message is delivered.
-/

namespace JellyBroker.Topic

structure SubscriberEntry where
  session : SessionId
  qos : Nat := 0
  deriving DecidableEq, Repr

structure RetainedMessage where
  payload : Bytes
  qos : Nat := 0
  deriving DecidableEq, Repr

inductive Node : Type where
  | mk (children : List (Bytes × Node)) (singleWild multiWild : Option Node)
      (subscribers : List SubscriberEntry) (retained : Option RetainedMessage)

inductive Edge where
  | child (segment : Bytes)
  | singleWild
  | multiWild
  deriving DecidableEq

/-- The edge that `subscribe` and `unsubscribe` follow for a filter segment. -/
def Edge.ofFilterSegment (segment : Bytes) : Edge :=
  if segment = multiWildcard then .multiWild
  else if segment = singleWildcard then .singleWild
  else .child segment

namespace Node

def empty : Node := .mk [] none none [] none

def children : Node → List (Bytes × Node)
  | .mk children _ _ _ _ => children

def singleWild : Node → Option Node
  | .mk _ singleWild _ _ _ => singleWild

def multiWild : Node → Option Node
  | .mk _ _ multiWild _ _ => multiWild

def subscribers : Node → List SubscriberEntry
  | .mk _ _ _ subscribers _ => subscribers

def retained : Node → Option RetainedMessage
  | .mk _ _ _ _ retained => retained

def withSubscribers (entries : List SubscriberEntry) : Node → Node
  | .mk children single multi _ retained => .mk children single multi entries retained

def withRetained (msg : RetainedMessage) : Node → Node
  | .mk children single multi entries _ => .mk children single multi entries (some msg)

def setChild (segment : Bytes) (node : Node) :
    List (Bytes × Node) → List (Bytes × Node)
  | [] => [(segment, node)]
  | (key, old) :: rest =>
      if key = segment then (key, node) :: rest
      else (key, old) :: setChild segment node rest

def get? (node : Node) : Edge → Option Node
  | .child segment => node.children.lookup segment
  | .singleWild => node.singleWild
  | .multiWild => node.multiWild

def set : Node → Edge → Node → Node
  | .mk children single multi entries retained, .child segment, node =>
      .mk (setChild segment node children) single multi entries retained
  | .mk children _ multi entries retained, .singleWild, node =>
      .mk children (some node) multi entries retained
  | .mk children single _ entries retained, .multiWild, node =>
      .mk children single (some node) entries retained

/-- Walk down a path, creating the missing nodes, and change the node at its
end. -/
def update (change : Node → Node) : List Edge → Node → Node
  | [], node => change node
  | edge :: path, node =>
      node.set edge (update change path ((node.get? edge).getD empty))

/-- Walk down a path and change the node at its end.  A missing node ends the
walk without a change. -/
def modify (change : Node → Node) : List Edge → Node → Node
  | [], node => change node
  | edge :: path, node =>
      match node.get? edge with
      | none => node
      | some next => node.set edge (modify change path next)

def find? : List Edge → Node → Option Node
  | [], node => some node
  | edge :: path, node => (node.get? edge).bind (find? path)

/-- `find_if` on the subscribers with the assignment or insertion after it. -/
def addSubscriber (entry : SubscriberEntry) :
    List SubscriberEntry → List SubscriberEntry
  | [] => [entry]
  | old :: rest =>
      if old.session = entry.session then { old with qos := entry.qos } :: rest
      else old :: addSubscriber entry rest

def removeSubscriber (session : SessionId) (entries : List SubscriberEntry) :
    List SubscriberEntry :=
  entries.filter fun entry => entry.session ≠ session

/-- `collect_subscribers`: a node's own subscribers, then those of its `#`
child. -/
def collectSubscribers (node : Node) : List SubscriberEntry :=
  node.subscribers ++ (node.multiWild.map subscribers).getD []

/-- One pop of the `lookup` loop.  A frame is a node with the segments from
its index on.  The `+` child is pushed last, so it is popped first. -/
def visit : Node × List Bytes → List SubscriberEntry × List (Node × List Bytes)
  | (node, []) => (node.collectSubscribers, [])
  | (node, segment :: rest) =>
      ((node.multiWild.map collectSubscribers).getD [],
        (node.singleWild.map (·, rest)).toList ++
          (node.children.lookup segment |>.map (·, rest)).toList)

mutual

/-- The recursive `get_all_retained`.  It does not descend into `#` nodes. -/
def getAllRetained (path : Bytes) : Node → List (Bytes × RetainedMessage)
  | .mk children single _ _ retained =>
      (retained.map fun msg => (path, msg)).toList ++
        getAllRetainedChildren path children ++
        getAllRetainedSingle path single

def getAllRetainedChildren (path : Bytes) :
    List (Bytes × Node) → List (Bytes × RetainedMessage)
  | [] => []
  | (segment, node) :: rest =>
      getAllRetained
          (if path.isEmpty then segment else path ++ [levelSeparator] ++ segment)
          node ++
        getAllRetainedChildren path rest

def getAllRetainedSingle (path : Bytes) :
    Option Node → List (Bytes × RetainedMessage)
  | none => []
  | some node =>
      getAllRetained
        (if path.isEmpty then singleWildcard
          else path ++ [levelSeparator] ++ singleWildcard)
        node

end

end Node

structure TopicTree where
  root : Node := .empty
  retainedCount : Int := 0

namespace TopicTree

def filterPath (filter : Bytes) : List Edge :=
  (split filter).map Edge.ofFilterSegment

/-- The path of a retained topic: `ensure_node` only follows literal
children. -/
def topicPath (topic : Bytes) : List Edge :=
  (split topic).map Edge.child

def subscribe (tree : TopicTree) (filter : Bytes) (entry : SubscriberEntry) :
    TopicTree :=
  { tree with
    root := tree.root.update
      (fun node => node.withSubscribers (Node.addSubscriber entry node.subscribers))
      (filterPath filter) }

def unsubscribe (tree : TopicTree) (filter : Bytes) (session : SessionId) :
    TopicTree :=
  { tree with
    root := tree.root.modify
      (fun node =>
        node.withSubscribers (Node.removeSubscriber session node.subscribers))
      (filterPath filter) }

/-- A stack that starts with one frame and pushes at most two frames one
segment further on is popped less than `2 ^ (segments + 1)` times. -/
def lookup (tree : TopicTree) (topic : Bytes) : List SubscriberEntry :=
  Lib.StackWalk.run Node.visit (2 ^ ((split topic).length + 1))
    [(tree.root, split topic)] []

/-- Whether the message is stored, and the tree afterwards.  The nodes of the
path are created even when the limit refuses the message. -/
def setRetained (cfg : Config) (tree : TopicTree) (topic : Bytes)
    (msg : RetainedMessage) : Bool × TopicTree :=
  let root := tree.root.update id (topicPath topic)
  let held := (root.find? (topicPath topic)).bind Node.retained
  let wasEmpty := (held.map fun old => old.payload.isEmpty).getD true
  let newEmpty := msg.payload.isEmpty
  if !newEmpty && wasEmpty && decide (tree.retainedCount ≥ cfg.maxRetainedMessages) then
    (false, { tree with root := root })
  else
    (true,
      { root := root.update (Node.withRetained msg) (topicPath topic)
        retainedCount :=
          if newEmpty && !wasEmpty then tree.retainedCount - 1
          else if !newEmpty && wasEmpty then tree.retainedCount + 1
          else tree.retainedCount })

def getRetained (tree : TopicTree) (topic : Bytes) : Option RetainedMessage :=
  (tree.root.find? (topicPath topic)).bind Node.retained

def getAllRetained (tree : TopicTree) : List (Bytes × RetainedMessage) :=
  tree.root.getAllRetained []

end TopicTree

end JellyBroker.Topic
