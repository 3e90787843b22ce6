import JellyBroker.Lib.FiniteMap
import JellyBroker.Config
/-!
# Stored subscriptions of persistent clients
-/

namespace JellyBroker

open JellyBroker.Lib (Map)

structure Subscription where
  topicFilter : Bytes
  qos : Nat := 0
  deriving DecidableEq, Repr

abbrev SubscriptionManager := Map Bytes (List Subscription)

namespace SubscriptionManager

/-- `find_if` on the subscriptions with the assignment or insertion after it. -/
def addTo (filter : Bytes) (qos : Nat) : List Subscription → List Subscription
  | [] => [{ topicFilter := filter, qos }]
  | old :: rest =>
      if old.topicFilter = filter then { old with qos } :: rest
      else old :: addTo filter qos rest

def add (subs : SubscriptionManager) (clientId filter : Bytes) (qos : Nat) :
    SubscriptionManager :=
  subs.insert clientId (addTo filter qos ((subs.lookup clientId).getD []))

def remove (subs : SubscriptionManager) (clientId filter : Bytes) : SubscriptionManager :=
  match subs.lookup clientId with
  | none => subs
  | some old =>
      let kept := old.filter fun sub => sub.topicFilter ≠ filter
      if kept.isEmpty then subs.erase clientId else subs.insert clientId kept

def removeClient (subs : SubscriptionManager) (clientId : Bytes) : SubscriptionManager :=
  subs.erase clientId

def getClientSubs (subs : SubscriptionManager) (clientId : Bytes) : List Subscription :=
  (subs.lookup clientId).getD []

/-! ## The subscriptions after each operation -/

theorem mem_addTo {filter : Bytes} {qos : Nat} {subs : List Subscription} {sub : Subscription}
    (h : sub ∈ addTo filter qos subs) : sub ∈ subs ∨ sub = ⟨filter, qos⟩ := by
  induction subs with
  | nil => exact Or.inr (List.mem_singleton.mp h)
  | cons old rest ih =>
      unfold addTo at h
      split_ifs at h with hname
      · rcases List.mem_cons.mp h with hnew | hrest
        · right
          rw [hnew, hname]
        · exact Or.inl (List.mem_cons_of_mem old hrest)
      · rcases List.mem_cons.mp h with hold | hrest
        · left
          rw [hold]
          exact List.mem_cons_self
        · rcases ih hrest with hmem | hnew
          · exact Or.inl (List.mem_cons_of_mem old hmem)
          · exact Or.inr hnew

theorem getClientSubs_add (subs : SubscriptionManager) (clientId filter : Bytes) (qos : Nat)
    (other : Bytes) :
    (subs.add clientId filter qos).getClientSubs other =
      if other = clientId then addTo filter qos (subs.getClientSubs clientId)
      else subs.getClientSubs other := by
  unfold getClientSubs add
  rw [Lib.Map.lookup_insert_ite]
  split_ifs <;> rfl

theorem getClientSubs_remove (subs : SubscriptionManager) (clientId filter other : Bytes) :
    (subs.remove clientId filter).getClientSubs other =
      if other = clientId then
        (subs.getClientSubs clientId).filter fun sub => sub.topicFilter ≠ filter
      else subs.getClientSubs other := by
  unfold getClientSubs remove
  cases hlookup : subs.lookup clientId with
  | none =>
      dsimp only
      split_ifs with heq
      · rw [heq, hlookup]
        rfl
      · rfl
  | some old =>
      dsimp only
      split_ifs with hempty heq heq
      · rw [heq, Lib.Map.lookup_erase_ite, if_pos rfl]
        exact (List.isEmpty_iff.mp hempty).symm
      · rw [Lib.Map.lookup_erase_ite, if_neg heq]
      · rw [heq, Lib.Map.lookup_insert_ite, if_pos rfl]
        rfl
      · rw [Lib.Map.lookup_insert_ite, if_neg heq]

theorem getClientSubs_removeClient (subs : SubscriptionManager) (clientId other : Bytes) :
    (subs.removeClient clientId).getClientSubs other =
      if other = clientId then [] else subs.getClientSubs other := by
  unfold getClientSubs removeClient
  rw [Lib.Map.lookup_erase_ite]
  split_ifs <;> rfl

end SubscriptionManager

end JellyBroker
