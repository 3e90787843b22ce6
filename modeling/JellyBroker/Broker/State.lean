import JellyBroker.Auth.Authenticator
import JellyBroker.Packet.Builder
import JellyBroker.Packet.Packets
import JellyBroker.Qos.ClientTable
import JellyBroker.Subscription
import JellyBroker.Topic.Tree
/-!
# The state of the broker

Every object the handlers share, as one record.  Handlers run one at a time,
so a handler is a function on this record.
-/

namespace JellyBroker

open JellyBroker.Lib (Map)
open JellyBroker.Packet JellyBroker.Qos JellyBroker.Topic

/-- A `Session` object with the asynchronous operations it has started.  Its
parser is part of `Runtime`. -/
structure Session where
  remoteIp : Bytes := []
  writeQueue : List OutPacket := []
  clientId : Bytes := []
  username : Bytes := []
  cleanSession : Bool := true
  connected : Bool := false
  keepalive : UInt16 := 0
  /-- The keepalive timer, if it was created, and whether it is active. -/
  keepaliveTimer : Option Bool := none
  socketOpen : Bool := true
  /-- An `async_read_some` has been started and has not completed. -/
  readPending : Bool := false
  /-- An `async_write` has been started and has not completed. -/
  writePending : Bool := false
  /-- The object has not been destroyed, so a weak reference can be locked. -/
  alive : Bool := true

structure ServerState where
  activeClients : Map Bytes SessionId := ∅
  authFailures : Map Bytes Int := ∅
  authBanUntil : Map Bytes Int := ∅
  connectionsPerIp : Map Bytes Int := ∅

structure MessageCounters where
  received : Int := 0
  published : Int := 0
  dropped : Int := 0
  subscribed : Int := 0
  deriving DecidableEq

structure PendingMessage where
  session : SessionId
  publishPacket : OutPacket
  retryCount : Int := 0
  deriving DecidableEq

inductive OutgoingState where
  | publishSent
  | pubrecReceived
  deriving DecidableEq

structure OutgoingMessage where
  session : SessionId
  topic : Bytes
  payload : Bytes
  state : OutgoingState := .publishSent
  retryCount : Int := 0
  deriving DecidableEq

structure IncomingMessage where
  topic : Bytes
  payload : Bytes
  qos : Nat
  deriving DecidableEq

structure DeliveryEngine where
  pending : ClientTable PendingMessage := ∅
  outgoing : ClientTable OutgoingMessage := ∅
  incomingQos2 : Map Bytes (Map UInt16 IncomingMessage) := ∅

/-! ## Observations -/

/-- A call of `Session::deliver`, and whether the packet was queued. -/
structure Handed where
  session : SessionId
  packet : OutPacket
  accepted : Bool
  deriving DecidableEq

structure InFlight where
  clientId : Bytes
  qos : Nat
  packetId : UInt16
  deriving DecidableEq

inductive IngestEvent where
  | publish (msg : IncomingMessage)
  | pubrec
  | pubrel
  | forward (msg : IncomingMessage)
  | pubcomp
  deriving DecidableEq

/-- What an observer of the broker notes down.  No handler reads it. -/
structure History where
  /-- The packets passed to `handle_packet`. -/
  handled : List (SessionId × Bytes) := []
  handed : List Handed := []
  /-- The QoS 1 and QoS 2 messages that were sent and neither acknowledged nor
  dropped since. -/
  inFlight : List InFlight := []
  /-- The progress of incoming QoS 2 messages, by client and packet id. -/
  ingest : List (Bytes × UInt16 × IngestEvent) := []

namespace History

def noteHandled (sid : SessionId) (packet : Bytes) (history : History) : History :=
  { history with handled := history.handled ++ [(sid, packet)] }

def noteHanded (call : Handed) (history : History) : History :=
  { history with handed := history.handed ++ [call] }

def noteSent (msg : InFlight) (history : History) : History :=
  { history with inFlight := history.inFlight ++ [msg] }

def noteSettled (msg : InFlight) (history : History) : History :=
  { history with inFlight := history.inFlight.erase msg }

def noteIngest (clientId : Bytes) (packetId : UInt16) (event : IngestEvent)
    (history : History) : History :=
  { history with ingest := history.ingest ++ [(clientId, packetId, event)] }

end History

/-! ## The broker -/

structure Broker (α : Type) where
  sessions : SessionId → Session := fun _ => {}
  /-- The sessions created so far are those below this number. -/
  sessionCount : Nat := 0
  tree : TopicTree := {}
  subManager : SubscriptionManager := ∅
  delivery : DeliveryEngine := {}
  server : ServerState := {}
  counters : MessageCounters := {}
  activeConnections : Int := 0
  auth : α
  /-- The system clock in seconds. -/
  now : Int := 0
  /-- The session whose `on_read` loop is running. -/
  reading : Option SessionId := none
  /-- A handler waits for a mutex that it holds itself. -/
  blocked : Bool := false
  history : History := {}

structure Env (α : Type) where
  cfg : Config := {}
  auth : Auth.Authenticator α

namespace Broker

variable {α : Type}

def modifySession (sid : SessionId) (change : Session → Session) (b : Broker α) : Broker α :=
  { b with sessions := Function.update b.sessions sid (change (b.sessions sid)) }

def observe (note : History → History) (b : Broker α) : Broker α :=
  { b with history := note b.history }

def setAuth (auth : α) (b : Broker α) : Broker α := { b with auth }

def setAuthTables (failures bans : Map Bytes Int) (b : Broker α) : Broker α :=
  { b with server.authFailures := failures, server.authBanUntil := bans }

def setReading (reading : Option SessionId) (b : Broker α) : Broker α := { b with reading }

def setPending (pending : ClientTable PendingMessage) (b : Broker α) : Broker α :=
  { b with delivery.pending := pending }

def setOutgoing (outgoing : ClientTable OutgoingMessage) (b : Broker α) : Broker α :=
  { b with delivery.outgoing := outgoing }

def setIncoming (incoming : Map Bytes (Map UInt16 IncomingMessage)) (b : Broker α) : Broker α :=
  { b with delivery.incomingQos2 := incoming }

@[simp] theorem sessions_modifySession (sid : SessionId) (change : Session → Session)
    (b : Broker α) :
    (b.modifySession sid change).sessions =
      Function.update b.sessions sid (change (b.sessions sid)) := rfl

theorem sessions_modifySession_of_ne {sid other : SessionId} (h : other ≠ sid)
    (change : Session → Session) (b : Broker α) :
    (b.modifySession sid change).sessions other = b.sessions other :=
  Function.update_of_ne h _ _

theorem sessions_modifySession_self (sid : SessionId) (change : Session → Session)
    (b : Broker α) :
    (b.modifySession sid change).sessions sid = change (b.sessions sid) :=
  Function.update_self ..

end Broker

end JellyBroker
