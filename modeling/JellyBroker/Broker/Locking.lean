import JellyBroker.Lib.Locks
/-!
# Locks of the worker threads

The worker threads of the broker run completion handlers of all sessions at once and
share eight mutexes.  Each function that takes a lock, or calls one that does, is kept
here as its control flow and its lock scopes; conditions are left open, so both branches
of each are possible, and an exception may end any of them.

Whatever the handlers and their interleaving, the workers do not deadlock, with one
exception: `handle_connect` closes the old session of its client id inside its own scope
of the server state, and `close` locks the server state again.
-/

namespace JellyBroker.Locking

open JellyBroker.Lib JellyBroker.Lib.Locks

inductive Mutex where
  | serverState
  | topicTree
  | subManager
  | incoming
  | qos1
  | qos2
  | pool
  | cache
  deriving DecidableEq

abbrev Skeleton := Code Mutex

/-- A `lock_guard` or `unique_lock` whose scope takes no other lock. -/
def locked (mutex : Mutex) : Skeleton := .guard mutex .exclusive .skip

/-- A `shared_lock` whose scope takes no other lock. -/
def reading (mutex : Mutex) : Skeleton := .guard mutex .shared .skip

def maybe (code : Skeleton) : Skeleton := .choose .skip code

def block (codes : List Skeleton) : Skeleton := codes.foldr .seq .skip

def anyOf (codes : List Skeleton) : Skeleton := codes.foldr .choose .skip

/-! ## Stores -/

namespace TopicTree

def subscribe : Skeleton := locked .topicTree
def unsubscribe : Skeleton := locked .topicTree
def lookup : Skeleton := reading .topicTree
def setRetained : Skeleton := locked .topicTree
def getAllRetained : Skeleton := reading .topicTree

end TopicTree

namespace SubscriptionManager

def add : Skeleton := locked .subManager
def remove : Skeleton := locked .subManager
def removeClient : Skeleton := locked .subManager
def getClientSubs : Skeleton := reading .subManager

end SubscriptionManager

namespace PgAuthenticator

def acquire : Skeleton := locked .pool
def release : Skeleton := locked .pool

-- no connection is released where none was free, nor after a failed query
def authenticate : Skeleton := .seq acquire (maybe release)

def loadAclRules : Skeleton := .seq acquire (maybe release)

-- with a cache the rules are loaded inside its scope
def checkAcl : Skeleton :=
  .choose (.guard .cache .exclusive (maybe loadAclRules)) loadAclRules

end PgAuthenticator

def authenticate : Skeleton := maybe PgAuthenticator.authenticate

def checkAcl : Skeleton := maybe PgAuthenticator.checkAcl

/-! ## Sessions and delivery -/

def clearClientIncoming : Skeleton := locked .incoming

def Session.close : Skeleton :=
  maybe (block [locked .serverState,
    maybe (block [clearClientIncoming,
      maybe (block [SubscriptionManager.getClientSubs, .loop TopicTree.unsubscribe,
        SubscriptionManager.removeClient])])])

/-- What `deliver` hands to the strand of its session. -/
def Session.delivered : Skeleton := maybe close

/-- The strand runs it at once if nothing else runs there, and later otherwise. -/
def Session.deliver : Skeleton := maybe delivered

namespace Qos0Handler

def deliver : Skeleton := .seq TopicTree.lookup (.loop (maybe Session.deliver))

end Qos0Handler

namespace Qos1Handler

-- the subscriber's session is handed the packet inside the scope
def deliver : Skeleton :=
  .seq TopicTree.lookup (.loop (maybe (.guard .qos1 .exclusive (maybe Session.deliver))))

def handlePuback : Skeleton := locked .qos1

def retryMessage : Skeleton := .guard .qos1 .exclusive (maybe Session.deliver)

end Qos1Handler

namespace Qos2Handler

def deliver : Skeleton :=
  .seq TopicTree.lookup (.loop (maybe (.choose Session.deliver
    (.guard .qos2 .exclusive (maybe Session.deliver)))))

def handlePubrec : Skeleton := .guard .qos2 .exclusive (maybe Session.deliver)

def handlePubrel : Skeleton := locked .qos2

def handlePubcomp : Skeleton := locked .qos2

def retryMessage : Skeleton := .guard .qos2 .exclusive (maybe Session.deliver)

end Qos2Handler

namespace DeliveryEngine

def publishFromClient : Skeleton :=
  anyOf [Qos0Handler.deliver, Qos1Handler.deliver, Qos2Handler.deliver]

def storeIncomingQos2 : Skeleton := locked .incoming

def completeIncomingQos2 : Skeleton := .seq (locked .incoming) (maybe Qos2Handler.deliver)

end DeliveryEngine

/-! ## Packet handlers -/

namespace Session

def checkAuthRateLimit : Skeleton := locked .serverState

def refuse : Skeleton := .seq deliver close

/-- The part of `handle_connect` behind its checks; `takeover` tells whether the client
id may have an old session that is still connected. -/
def accept (takeover : Bool) : Skeleton :=
  block [.guard .serverState .exclusive (bif takeover then close else .skip),
    .choose (.seq SubscriptionManager.getClientSubs (.loop TopicTree.subscribe))
      SubscriptionManager.removeClient,
    deliver]

def handleConnect (takeover : Bool) : Skeleton :=
  anyOf [close, refuse,
    .seq checkAuthRateLimit (anyOf [refuse,
      block [authenticate, locked .serverState, refuse],
      .seq (maybe authenticate) (accept takeover)])]

def handlePublish : Skeleton :=
  anyOf [close,
    .seq checkAcl (maybe (.seq (maybe TopicTree.setRetained)
      (anyOf [DeliveryEngine.publishFromClient,
        .seq deliver DeliveryEngine.publishFromClient,
        .seq deliver DeliveryEngine.storeIncomingQos2])))]

def subscribeFilter : Skeleton :=
  maybe (.seq checkAcl (maybe (.seq (maybe SubscriptionManager.getClientSubs)
    (maybe (block [TopicTree.subscribe, maybe SubscriptionManager.add, TopicTree.getAllRetained,
      .loop (maybe deliver)])))))

def handleSubscribe : Skeleton := anyOf [close, .seq (.loop subscribeFilter) deliver]

def handleUnsubscribe : Skeleton :=
  anyOf [close,
    .seq (.loop (.seq TopicTree.unsubscribe (maybe SubscriptionManager.remove))) deliver]

def handlePingreq : Skeleton := maybe deliver

def handleDisconnect : Skeleton := close

def handlePuback : Skeleton := maybe (.attempt Qos1Handler.handlePuback close)

def handlePubrec : Skeleton := maybe (.attempt Qos2Handler.handlePubrec close)

def handlePubrel : Skeleton :=
  maybe (.attempt (.seq DeliveryEngine.completeIncomingQos2
    (.choose deliver Qos2Handler.handlePubrel)) close)

def handlePubcomp : Skeleton := maybe (.attempt Qos2Handler.handlePubcomp close)

def handlePacket (takeover : Bool) : Skeleton :=
  anyOf [handleConnect takeover, handlePublish, handlePuback, handlePubrec, handlePubrel,
    handlePubcomp, handleSubscribe, handleUnsubscribe, handlePingreq, handleDisconnect]

-- the last `close` is that of a parse error
def onRead (takeover : Bool) : Skeleton :=
  .choose close (.seq (.attempt (.loop (handlePacket takeover)) close) (maybe close))

end Session

def Server.onAccept : Skeleton := maybe (locked .serverState)

namespace AdminServer

def cmdClients : Skeleton := locked .serverState

def cmdStats : Skeleton := locked .serverState

def cmdClient : Skeleton := .seq (locked .serverState) (maybe SubscriptionManager.getClientSubs)

def handleCommand : Skeleton := anyOf [cmdClients, cmdStats, cmdClient]

end AdminServer

/-! ## Workers -/

inductive Work where
  | handshake
  | read
  | written
  | delivered
  | keepaliveTimeout
  | retryQos1
  | retryQos2
  | accept
  | command

def Work.code (takeover : Bool) : Work → Skeleton
  | .handshake => maybe Session.close
  | .read => Session.onRead takeover
  | .written => maybe Session.close
  | .delivered => Session.delivered
  | .keepaliveTimeout => Session.close
  | .retryQos1 => Qos1Handler.retryMessage
  | .retryQos2 => Qos2Handler.retryMessage
  | .accept => Server.onAccept
  | .command => AdminServer.handleCommand

/-- What a completion handler may do to the mutexes. -/
def Does (takeover : Bool) (ops : List (Op Mutex)) : Prop :=
  ∃ (work : Work) (ended : Bool), (work.code takeover).Trace ended ops

def workers (poolSize : Nat) (takeover : Bool) :
    System (State (Fin poolSize) Mutex) (Event (Fin poolSize) Mutex) :=
  system (Does takeover)

/-- The in-flight tables and the cache are locked around calls that take the other
mutexes, and a takeover closes a session inside a scope of the server state. -/
def rank : Mutex → Nat
  | .qos1 => 0
  | .qos2 => 0
  | .cache => 0
  | .serverState => 1
  | .topicTree => 2
  | .subManager => 2
  | .incoming => 2
  | .pool => 2

theorem rank_le (mutex : Mutex) : rank mutex ≤ 2 := by
  cases mutex <;> decide

theorem ordered_code (work : Work) :
    (work.code false).ordered rank (fun _ => false) 0 [] = true := by
  cases work <;> decide

theorem ordered_code_takeover (work : Work) :
    (work.code true).ordered rank (· == .serverState) 0 [] = true := by
  cases work <;> decide

theorem disciplined_of_does {ops : List (Op Mutex)} (h : Does false ops) :
    Disciplined rank (fun _ => false) [] ops := by
  obtain ⟨work, ended, htrace⟩ := h
  exact .of_trace htrace (ordered_code work)

theorem disciplined_of_does_takeover {ops : List (Op Mutex)} (h : Does true ops) :
    Disciplined rank (· == .serverState) [] ops := by
  obtain ⟨work, ended, htrace⟩ := h
  exact .of_trace htrace (ordered_code_takeover work)

section NoTakeover

variable {poolSize : Nat} {s : State (Fin poolSize) Mutex}

theorem exists_canStep (h : (workers poolSize false).Reachable s) {i : Fin poolSize}
    (hi : (s i).todo ≠ []) :
    ∃ j, Relation.ReflTransGen (Waits s) i j ∧ CanStep s j := by
  have horderly := orderly_reachable (fun _ => disciplined_of_does) h
  obtain ⟨j, hchain, hstep | ⟨_, hexcepted, _⟩⟩ := horderly.progress rank_le hi
  · exact ⟨j, hchain, hstep⟩
  · cases hexcepted

theorem idle_of_no_step (h : (workers poolSize false).Reachable s)
    (hnone : ∀ j, ¬CanStep s j) (i : Fin poolSize) : (s i).todo = [] := by
  by_contra hbusy
  obtain ⟨j, _, hstep⟩ := exists_canStep h hbusy
  exact hnone j hstep

end NoTakeover

/-- As long as no CONNECT finds its client id connected, mutexes are exclusive, every
waiting worker waits in the end for one that can go on, and any schedule finishes the
handlers in hand: it cannot run for more steps than there are lock operations left, and
where no worker can go on all of them are done. -/
theorem workers_never_deadlock {poolSize : Nat} {s : State (Fin poolSize) Mutex}
    (h : (workers poolSize false).Reachable s) :
    Exclusive s ∧
      (∀ i, (s i).todo ≠ [] → ∃ j, Relation.ReflTransGen (Waits s) i j ∧ CanStep s j) ∧
      ∀ es s', (workers poolSize false).Run s es s' → (∀ e ∈ es, ∃ i, e = .step i) →
        es.length ≤ pending s ∧ ((∀ j, ¬CanStep s' j) → ∀ i, (s' i).todo = []) := by
  refine ⟨exclusive_reachable h, fun i => exists_canStep h, ?_⟩
  intro es s' hrun hsteps
  have hlength := pending_run hrun hsteps
  have hreachable : (workers poolSize false).Reachable s' := by
    obtain ⟨s₀, es₀, hinit, hbefore⟩ := h
    exact ⟨s₀, es₀ ++ es, hinit, hbefore.append hrun⟩
  exact ⟨by omega, idle_of_no_step hreachable⟩

def twoRetries : List (Event (Fin 2) Mutex) :=
  [.start 0 [.acquire .qos1 .exclusive, .release .qos1 .exclusive], .step 0,
    .start 1 [.acquire .qos1 .exclusive, .release .qos1 .exclusive]]

theorem does_retry (takeover : Bool) :
    Does takeover [.acquire .qos1 .exclusive, .release .qos1 .exclusive] :=
  ⟨.retryQos1, true, .guard (.left .skip)⟩

theorem twoRetries_reachable :
    (workers 2 false).Reachable ((workers 2 false).after (fun _ => {}) twoRetries) := by
  refine .of_allowed rfl ⟨⟨rfl, does_retry false⟩, ?_, ⟨rfl, does_retry false⟩, trivial⟩
  intro thread mode hheld
  fin_cases thread <;> cases hheld

theorem workers_never_deadlock_two_retries :
    ¬CanStep ((workers 2 false).after (fun _ => {}) twoRetries) 1 ∧
      ∃ j, Relation.ReflTransGen
          (Waits ((workers 2 false).after (fun _ => {}) twoRetries)) 1 j ∧
        CanStep ((workers 2 false).after (fun _ => {}) twoRetries) j := by
  constructor
  · intro hstep
    cases (hstep 0 .exclusive List.mem_cons_self).2
  · exact (workers_never_deadlock twoRetries_reachable).2.1 1 (List.cons_ne_nil _ _)

/-- With takeovers a waiting worker may also wait for one that locks the server state
inside its own scope of it.  That one never goes on, and nobody gets past an acquisition
of the server state any more. -/
theorem takeover_is_only_deadlock {poolSize : Nat} {s : State (Fin poolSize) Mutex}
    (h : (workers poolSize true).Reachable s) :
    (∀ i, (s i).todo ≠ [] → ∃ j, Relation.ReflTransGen (Waits s) i j ∧
      (CanStep s j ∨ Stuck .serverState j s)) ∧
    ∀ j, Stuck .serverState j s → ∀ es s', (workers poolSize true).Run s es s' →
      s' j = s j ∧ ∀ i mode, .acquire .serverState mode ∈ (s i).todo →
        .acquire .serverState mode ∈ (s' i).todo := by
  constructor
  · intro i hi
    have horderly := orderly_reachable (fun _ => disciplined_of_does_takeover) h
    obtain ⟨j, hchain, hstep | ⟨own, hexcepted, hstuck⟩⟩ := horderly.progress rank_le hi
    · exact ⟨j, hchain, Or.inl hstep⟩
    · rw [eq_of_beq hexcepted] at hstuck
      exact ⟨j, hchain, Or.inr hstuck⟩
  · intro j hstuck es s' hrun
    exact hstuck.run hrun

/-- What a CONNECT does that closes the connected session of its client id. -/
def takeoverOps : List (Op Mutex) :=
  [.acquire .serverState .exclusive, .release .serverState .exclusive,
    .acquire .serverState .exclusive, .acquire .serverState .exclusive,
    .release .serverState .exclusive, .release .serverState .exclusive,
    .acquire .subManager .exclusive, .release .subManager .exclusive]

def takeoverAndCommand : List (Event (Fin 2) Mutex) :=
  [.start 0 takeoverOps, .step 0, .step 0, .step 0,
    .start 1 [.acquire .serverState .exclusive, .release .serverState .exclusive]]

theorem does_takeover : Does true takeoverOps := by
  have hlocked (mutex : Mutex) : (locked mutex).Trace true
      [.acquire mutex .exclusive, .release mutex .exclusive] := .guard .skip
  have hclose : Session.close.Trace true
      [.acquire .serverState .exclusive, .release .serverState .exclusive] :=
    .right (.seq (hlocked .serverState) (.seq (.left .skip) .skip))
  have haccept : (Session.accept true).Trace true (takeoverOps.drop 2) :=
    .seq (.guard hclose) (.seq (.right (hlocked .subManager)) (.seq (.left .skip) .skip))
  have hconnect : (Session.handleConnect true).Trace true takeoverOps :=
    .right (.right (.left (.seq (hlocked .serverState)
      (.right (.right (.left (.seq (.left .skip) haccept)))))))
  have hloop : (Code.loop (Session.handlePacket true)).Trace true takeoverOps :=
    .again (.left hconnect) .done
  exact ⟨.read, true, .right (.seq (.attempt hloop) (.left .skip))⟩

theorem does_command (takeover : Bool) :
    Does takeover [.acquire .serverState .exclusive, .release .serverState .exclusive] :=
  ⟨.command, true, .left (.guard .skip)⟩

theorem takeoverAndCommand_reachable :
    (workers 2 true).Reachable ((workers 2 true).after (fun _ => {}) takeoverAndCommand) := by
  refine .of_allowed rfl ⟨⟨rfl, does_takeover⟩, ?_, trivial, ?_, ⟨rfl, does_command true⟩, trivial⟩
  · intro thread mode hheld
    fin_cases thread <;> cases hheld
  · intro thread mode hheld
    fin_cases thread <;> cases hheld

theorem takeover_is_only_deadlock_command :
    Stuck .serverState 0 ((workers 2 true).after (fun _ => {}) takeoverAndCommand) ∧
      ∀ es s', (workers 2 true).Run
          ((workers 2 true).after (fun _ => {}) takeoverAndCommand) es s' →
        .acquire .serverState .exclusive ∈ (s' 1).todo := by
  have hstuck : Stuck .serverState 0
      ((workers 2 true).after (fun _ => {}) takeoverAndCommand) :=
    ⟨List.mem_cons_self, .exclusive, _, rfl⟩
  refine ⟨hstuck, ?_⟩
  intro es s' hrun
  exact ((takeover_is_only_deadlock takeoverAndCommand_reachable).2 0 hstuck es s' hrun).2 1
    .exclusive List.mem_cons_self

end JellyBroker.Locking
