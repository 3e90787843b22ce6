import JellyBroker.Broker.Handlers
import JellyBroker.Lib.Transition
/-!
# The broker as a transition system

The events are the completions that the I/O context hands to the broker, one at
a time.  `on_read` takes one event for the bytes that arrived and one for each
turn of its loop, and nothing else runs until the loop has ended.
-/

namespace JellyBroker

open JellyBroker.Lib JellyBroker.Packet

variable {α : Type}

inductive Event where
  | accept (ip : Bytes)
  | acceptError
  | read (sid : SessionId) (chunk : Bytes)
  | turn (sid : SessionId)
  | readError (sid : SessionId)
  | writeDone (sid : SessionId)
  | writeError (sid : SessionId)
  | keepaliveTimeout (sid : SessionId)
  | retryQos1 (clientId : Bytes) (packetId : UInt16)
  | retryQos2 (clientId : Bytes) (packetId : UInt16)
  | destroy (sid : SessionId)
  | clock (now : Int)

def readSize : Nat := 4096

namespace Server

/-- `on_accept` of a connection that it keeps: a new session, which starts to
read. -/
def startSession (ip : Bytes) (count : Int) (b : Broker α) : Broker α :=
  { b with
    sessions := Function.update b.sessions b.sessionCount { remoteIp := ip, readPending := true }
    sessionCount := b.sessionCount + 1
    activeConnections := b.activeConnections + 1
    server.connectionsPerIp := b.server.connectionsPerIp.insert ip count }

/-- The count of the address is raised before it is compared with the limit,
and lowered again for a connection over the limit. -/
def onAccept (cfg : Config) (ip : Bytes) (b : Broker α) : Broker α :=
  if b.activeConnections ≥ cfg.maxConnections then b
  else
    let count := (b.server.connectionsPerIp.lookup ip).getD 0 + 1
    if count > cfg.maxConnectionsPerIp then
      { b with
        server.connectionsPerIp := b.server.connectionsPerIp.insert ip (count - 1) }
    else startSession ip count b

theorem sessions_onAccept (cfg : Config) (ip : Bytes) (b : Broker α) (sid : SessionId) :
    (onAccept cfg ip b).sessions sid = b.sessions sid ∨
      sid = b.sessionCount ∧
        (onAccept cfg ip b).sessions sid = { remoteIp := ip, readPending := true } := by
  unfold onAccept
  dsimp only
  split_ifs
  · exact Or.inl rfl
  · exact Or.inl rfl
  · by_cases heq : sid = b.sessionCount
    · right
      rw [heq]
      exact ⟨rfl, Function.update_self _ _ _⟩
    · exact Or.inl (Function.update_of_ne heq _ _)

theorem activeClients_onAccept (cfg : Config) (ip : Bytes) (b : Broker α) :
    (onAccept cfg ip b).server.activeClients = b.server.activeClients := by
  unfold onAccept
  dsimp only
  split_ifs <;> rfl

end Server

/-- The broker together with the parser of each session, which only `on_read`
uses: no handler can see it. -/
structure Runtime (α : Type) extends Broker α where
  parsers : SessionId → PacketParser := fun _ => {}

namespace Session

def beginRead (sid : SessionId) (b : Broker α) : Broker α :=
  (b.modifySession sid fun s => { s with readPending := false }).setReading sid

def onRead (env : Env α) (sid : SessionId) (chunk : Bytes) (n : Runtime α) : Runtime α where
  toBroker := beginRead sid n.toBroker
  parsers := Function.update n.parsers sid ((n.parsers sid).feed env.cfg chunk)

/-- The end of `on_read`: another read if the session is connected.  The timer
is reset, which leaves it active if it was. -/
def rearm (session : Session) : Session :=
  if session.connected then { session with readPending := true } else session

/-- An exception of the handler closes the session and ends the loop. -/
def catchException (sid : SessionId) : Broker α × Option Exception → Broker α
  | (b, none) => b
  | (b, some _) => (close false sid b).setReading none

/-- The body of the loop of `on_read`. -/
def onPacket (env : Env α) (sid : SessionId) (packet : Bytes) (b : Broker α) : Broker α :=
  catchException sid (handlePacket env sid packet (b.observe (.noteHandled sid packet)))

/-- What `on_read` does after its loop. -/
def endRead (sid : SessionId) (parseError : Bool) (b : Broker α) : Broker α :=
  if parseError then (close false sid b).setReading none
  else (b.modifySession sid rearm).setReading none

/-- One turn of the loop of `on_read`, or what follows the loop. -/
def onReadTurn (env : Env α) (sid : SessionId) (n : Runtime α) : Runtime α :=
  match (n.parsers sid).tryExtract env.cfg with
  | (some packet, parser) =>
      { toBroker := onPacket env sid packet n.toBroker
        parsers := Function.update n.parsers sid parser }
  | (none, parser) =>
      { toBroker := endRead sid parser.hasError n.toBroker
        parsers := Function.update n.parsers sid parser }

/-- A completed write: the front of the queue has been written, and the next
write starts. -/
def onWrite (session : Session) : Session :=
  doWrite { session with writeQueue := session.writeQueue.tail, writePending := false }

def destruct (session : Session) : Session :=
  { session with connected := false, socketOpen := false, alive := false }

/-- Some operation, timer callback or in-flight message holds a reference to
the session. -/
def Owned (b : Broker α) (sid : SessionId) : Prop :=
  (b.sessions sid).readPending ∨ (b.sessions sid).writePending ∨
    (b.sessions sid).keepaliveTimer ≠ none ∨ b.reading = some sid ∨
    (∃ clientId packetId msg,
      b.delivery.pending.message? clientId packetId = some msg ∧ msg.session = sid) ∨
    ∃ clientId packetId msg,
      b.delivery.outgoing.message? clientId packetId = some msg ∧ msg.session = sid

end Session

def NextPacket (env : Env α) (n : Runtime α) (sid : SessionId) (hdr : FixedHeader)
    (body : Bytes) : Prop :=
  ∃ packet parser, (n.parsers sid).tryExtract env.cfg = (some packet, parser) ∧
    Session.decodeHeader packet = .ok (hdr, body)

theorem NextPacket.of_extract {env : Env α} {n : Runtime α} {sid : SessionId} {body : Bytes}
    {hdr : FixedHeader} (packet : Bytes)
    (hextract : ((n.parsers sid).tryExtract env.cfg).1 = some packet)
    (hdecode : Session.decodeHeader packet = .ok (hdr, body)) : NextPacket env n sid hdr body :=
  ⟨packet, _, Prod.ext hextract rfl, hdecode⟩

theorem NextPacket.unique {env : Env α} {n : Runtime α} {sid : SessionId}
    {hdr hdr' : FixedHeader} {body body' : Bytes} (h : NextPacket env n sid hdr body)
    (h' : NextPacket env n sid hdr' body') : hdr = hdr' ∧ body = body' := by
  obtain ⟨packet, parser, hextract, hdecode⟩ := h
  obtain ⟨packet', parser', hextract', hdecode'⟩ := h'
  have hpacket : packet = packet' :=
    Option.some.inj (Prod.mk.inj (hextract.symm.trans hextract')).1
  rw [hpacket, hdecode'] at hdecode
  exact ⟨(Prod.mk.inj (Except.ok.inj hdecode)).1.symm, (Prod.mk.inj (Except.ok.inj hdecode)).2.symm⟩

theorem onReadTurn_of_next {env : Env α} {n : Runtime α} {sid : SessionId} {hdr : FixedHeader}
    {body : Bytes} (h : NextPacket env n sid hdr body) :
    ∃ packet, (Session.onReadTurn env sid n).toBroker =
      Session.catchException sid (Session.dispatch env sid hdr body
        (n.toBroker.observe (.noteHandled sid packet))) := by
  obtain ⟨packet, parser, hextract, hdecode⟩ := h
  have hne : packet ≠ [] := by
    rintro rfl
    cases hdecode
  refine ⟨packet, ?_⟩
  simp only [Session.onReadTurn, hextract, Session.onPacket, Session.handlePacket, hne, if_false,
    hdecode]

namespace Broker

/-- Handlers run one at a time: while a loop of `on_read` is running, its next
turn is the only event, and a handler that is blocked is never left. -/
def Enabled (b : Broker α) : Event → Prop
  | .turn sid => b.blocked = false ∧ b.reading = some sid
  | event => b.blocked = false ∧ b.reading = none ∧
      match event with
      | .accept _ | .acceptError | .retryQos1 _ _ | .retryQos2 _ _ | .clock _ => True
      | .read sid chunk =>
          (b.sessions sid).readPending ∧ chunk ≠ [] ∧ chunk.length ≤ readSize
      | .turn _ => False
      | .readError sid => (b.sessions sid).readPending
      | .writeDone sid | .writeError sid => (b.sessions sid).writePending
      | .keepaliveTimeout sid => (b.sessions sid).keepaliveTimer = some true
      | .destroy sid => sid < b.sessionCount ∧ ¬Session.Owned b sid

end Broker

/-- A connection that `on_accept` keeps gets the next session number, with a new
parser. -/
def Runtime.step (env : Env α) (n : Runtime α) : Event → Runtime α
  | .accept ip =>
      { toBroker := Server.onAccept env.cfg ip n.toBroker
        parsers := Function.update n.parsers n.sessionCount {} }
  | .acceptError => n
  | .read sid chunk => Session.onRead env sid chunk n
  | .turn sid => Session.onReadTurn env sid n
  | .readError sid =>
      { n with
        toBroker := Session.close false sid
          (n.toBroker.modifySession sid fun s => { s with readPending := false }) }
  | .writeDone sid => { n with toBroker := n.toBroker.modifySession sid Session.onWrite }
  | .writeError sid =>
      { n with
        toBroker := Session.close false sid
          (n.toBroker.modifySession sid fun s => { s with writePending := false }) }
  | .keepaliveTimeout sid =>
      { n with
        toBroker := Session.close false sid
          (n.toBroker.modifySession sid fun s => { s with keepaliveTimer := some false }) }
  | .retryQos1 clientId packetId =>
      { n with toBroker := Qos1Handler.retryMessage env clientId packetId n.toBroker }
  | .retryQos2 clientId packetId =>
      { n with toBroker := Qos2Handler.retryMessage env clientId packetId n.toBroker }
  | .destroy sid => { n with toBroker := n.toBroker.modifySession sid Session.destruct }
  | .clock now => { n with now }

def brokerSystem (env : Env α) : System (Runtime α) Event where
  init n := ∃ auth, n = { auth }
  enabled n := n.toBroker.Enabled
  step := Runtime.step env

/-! ## Sample runs -/

def defaultEnv : Env Unit := { auth := Auth.allowAll }

def connectBytes (cleanSession : Bool) (clientId : Bytes) : Bytes :=
  OutPacket.wrap .connect 0
    (Utils.writeString mqttProtocolName ++
      [mqttProtocolLevel, if cleanSession then 0x02 else 0x00] ++
      Utils.writeUint16 60 ++ Utils.writeString clientId)

def subscribeBytes (packetId : UInt16) (filter : Bytes) (qos : UInt8) : Bytes :=
  OutPacket.wrap .subscribe 2 (Utils.writeUint16 packetId ++ Utils.writeString filter ++ [qos])

def unsubscribeBytes (packetId : UInt16) (filter : Bytes) : Bytes :=
  OutPacket.wrap .unsubscribe 2 (Utils.writeUint16 packetId ++ Utils.writeString filter)

def disconnectBytes : Bytes := OutPacket.wrap .disconnect 0 []

def pingreqBytes : Bytes := OutPacket.wrap .pingreq 0 []

/-- A client that subscribes to the topic `t` with the QoS and sends a message
of QoS 1 there. -/
def loopbackBytes (qos : UInt8) : Bytes :=
  connectBytes true [0x63] ++ subscribeBytes 1 [0x74] qos ++
    (OutPacket.publish [0x74] [0x6d] 1 false false 7).bytes

end JellyBroker
