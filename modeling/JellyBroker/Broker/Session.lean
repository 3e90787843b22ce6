import JellyBroker.Broker.State
import Mathlib.Tactic
/-!
# Writing to a session and closing it
-/

namespace JellyBroker.Session

open JellyBroker.Lib (Map)
open JellyBroker.Packet

variable {α : Type}

/-- The part of `close` that holds the mutex of the server state: give back the
connection of the session's address, and its entry in `active_clients`. -/
def unregister (sid : SessionId) (session : Session) (server : ServerState) : ServerState :=
  { server with
    connectionsPerIp :=
      match server.connectionsPerIp.lookup session.remoteIp with
      | none => server.connectionsPerIp
      | some count =>
          if count - 1 ≤ 0 then server.connectionsPerIp.erase session.remoteIp
          else server.connectionsPerIp.insert session.remoteIp (count - 1)
    activeClients :=
      if session.clientId ≠ [] ∧ server.activeClients.lookup session.clientId = some sid then
        server.activeClients.erase session.clientId
      else server.activeClients }

def clearClientIncoming (clientId : Bytes) (delivery : DeliveryEngine) : DeliveryEngine :=
  if clientId = [] then delivery
  else { delivery with incomingQos2 := delivery.incomingQos2.erase clientId }

/-- A clean session's subscriptions go with it, as far as the subscription
manager knows them. -/
def dropSubscriptions (sid : SessionId) (b : Broker α) : Broker α :=
  let session := b.sessions sid
  if session.clientId ≠ [] ∧ session.cleanSession then
    { b with
      tree := (b.subManager.getClientSubs session.clientId).foldl
        (fun tree sub => tree.unsubscribe sub.topicFilter sid) b.tree
      subManager := b.subManager.removeClient session.clientId }
  else b

/-- The locked part of `close` and the incoming messages of the client. -/
def leave (sid : SessionId) (b : Broker α) : Broker α :=
  { b with
    server := unregister sid (b.sessions sid) b.server
    delivery := clearClientIncoming (b.sessions sid).clientId b.delivery }

/-- `Session::close`.  `lockHeld` says whether the call chain already holds the
mutex of the server state, which is not recursive. -/
def close (lockHeld : Bool) (sid : SessionId) (b : Broker α) : Broker α :=
  if !(b.sessions sid).connected then b
  else
    let b := b.modifySession sid fun s => { s with connected := false }
    if lockHeld then { b with blocked := true }
    else
      (dropSubscriptions sid (leave sid b)).modifySession sid fun s =>
        { s with socketOpen := false }

def accepts (cfg : Config) (session : Session) : Bool :=
  session.connected && decide ((session.writeQueue.length : Int) < cfg.maxWriteQueueSize)

def doWrite (session : Session) : Session :=
  if session.connected && !session.writeQueue.isEmpty then
    { session with writePending := true }
  else session

/-- `push_back`, and `do_write` if the queue was empty. -/
def enqueue (packet : OutPacket) (session : Session) : Session :=
  let queued := { session with writeQueue := session.writeQueue ++ [packet] }
  if session.writeQueue.isEmpty then doWrite queued else queued

def deliver (env : Env α) (sid : SessionId) (packet : OutPacket) (b : Broker α) : Broker α :=
  let accepted := accepts env.cfg (b.sessions sid)
  let b := b.observe (.noteHanded ⟨sid, packet, accepted⟩)
  if !(b.sessions sid).connected then b
  else if ((b.sessions sid).writeQueue.length : Int) ≥ env.cfg.maxWriteQueueSize then
    close false sid b
  else b.modifySession sid (enqueue packet)

/-! ## What `close` leaves -/

@[simp] theorem close_of_idle {lockHeld : Bool} {sid : SessionId} {b : Broker α}
    (h : (b.sessions sid).connected = false) : close lockHeld sid b = b := by
  simp [close, h]

/-- Closing a connected session: everything but the tree and the stored
subscriptions is determined by the session alone. -/
theorem close_of_connected {sid : SessionId} {b : Broker α}
    (h : (b.sessions sid).connected = true) :
    ∃ tree subManager, close false sid b =
      { b with
        sessions := Function.update b.sessions sid
          { b.sessions sid with connected := false, socketOpen := false }
        server := unregister sid (b.sessions sid) b.server
        delivery := clearClientIncoming (b.sessions sid).clientId b.delivery
        tree, subManager } := by
  refine ⟨(close false sid b).tree, (close false sid b).subManager, ?_⟩
  unfold close dropSubscriptions
  simp only [h, Bool.not_true, Bool.false_eq_true, if_false]
  simp only [leave, Broker.modifySession, Function.update_self]
  split_ifs <;> simp only [Function.update_self, Function.update_idem] <;> rfl

theorem connected_close (sid : SessionId) (b : Broker α) :
    ((close false sid b).sessions sid).connected = false := by
  by_cases hconn : (b.sessions sid).connected = true
  · obtain ⟨tree, subManager, hclose⟩ := close_of_connected hconn
    rw [hclose]
    dsimp only
    rw [Function.update_self]
  · rw [Bool.not_eq_true] at hconn
    rw [close_of_idle hconn, hconn]

theorem sessions_close_of_ne {sid other : SessionId} (h : other ≠ sid) (b : Broker α) :
    (close false sid b).sessions other = b.sessions other := by
  by_cases hconn : (b.sessions sid).connected = true
  · obtain ⟨tree, subManager, hclose⟩ := close_of_connected hconn
    rw [hclose]
    exact Function.update_of_ne h _ _
  · rw [close_of_idle (by simpa using hconn)]

theorem topics_close {sid : SessionId} {b : Broker α} (h : (b.sessions sid).connected = true) :
    (close false sid b).tree = (dropSubscriptions sid b).tree ∧
      (close false sid b).subManager = (dropSubscriptions sid b).subManager := by
  unfold close dropSubscriptions
  simp only [h, Bool.not_true, Bool.false_eq_true, if_false]
  simp only [leave, Broker.modifySession, Function.update_self]
  split_ifs
  · exact ⟨rfl, rfl⟩
  · exact ⟨rfl, rfl⟩

end JellyBroker.Session
