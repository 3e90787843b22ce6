import JellyBroker.Broker.Delivery
import JellyBroker.Packet.Parser
/-!
# Packet handlers

What a session does with each packet.  A handler returns the broker and the
exception that left it, if one did.
-/

namespace JellyBroker.Session

open JellyBroker.Auth (Access)
open JellyBroker.Packet JellyBroker.Topic JellyBroker.Utils

variable {α : Type}

/-! ## CONNECT -/

/-- Whether the session's address may try to authenticate.  A ban that is over
is forgotten together with its failures. -/
def checkAuthRateLimit (sid : SessionId) (b : Broker α) : Bool × Broker α :=
  let ip := (b.sessions sid).remoteIp
  match b.server.authBanUntil.lookup ip with
  | none => (true, b)
  | some banUntil =>
      if b.now < banUntil then (false, b)
      else
        (true, b.setAuthTables (b.server.authFailures.erase ip) (b.server.authBanUntil.erase ip))

def recordAuthFailure (env : Env α) (sid : SessionId) (b : Broker α) : Broker α :=
  let ip := (b.sessions sid).remoteIp
  let fails := (b.server.authFailures.lookup ip).getD 0 + 1
  b.setAuthTables (b.server.authFailures.insert ip fails)
    (if fails ≥ env.cfg.maxAuthAttempts then
        b.server.authBanUntil.insert ip (b.now + env.cfg.authBanSeconds)
      else b.server.authBanUntil)

def refuse (env : Env α) (sid : SessionId) (code : ConnackCode) (b : Broker α) : Broker α :=
  close false sid (deliver env sid (.connack false code) b)

/-- Close the session that is registered under the client id, if it is another
one.  The mutex of the server state is held. -/
def takeOver (sid : SessionId) (clientId : Bytes) (b : Broker α) : Broker α :=
  match b.server.activeClients.lookup clientId with
  | none => b
  | some old => if (b.sessions old).alive ∧ old ≠ sid then close true old b else b

/-- The keepalive that a CONNECT gets, cast to 16 bits. -/
def grantedKeepalive (cfg : Config) (requested : UInt16) : UInt16 :=
  if requested = 0 ∨ (requested.toNat : Int) > cfg.maxKeepalive then
    UInt16.ofInt cfg.maxKeepalive
  else requested

def adopt (cfg : Config) (conn : ConnectPacket) (session : Session) : Session :=
  { session with
    clientId := conn.clientId
    username := conn.username
    cleanSession := conn.cleanSession
    keepalive := grantedKeepalive cfg conn.keepalive
    connected := true }

/-- Put the stored subscriptions of a persistent client back into the tree, or
forget those of a clean one. -/
def restoreSubscriptions (sid : SessionId) (conn : ConnectPacket) (b : Broker α) : Broker α :=
  if conn.cleanSession then
    { b with subManager := b.subManager.removeClient conn.clientId }
  else
    { b with
      tree := (b.subManager.getClientSubs conn.clientId).foldl
        (fun tree sub => tree.subscribe sub.topicFilter ⟨sid, sub.qos⟩) b.tree }

def startKeepalive (session : Session) : Session :=
  if session.keepalive = 0 then session else { session with keepaliveTimer := some true }

def register (env : Env α) (sid : SessionId) (conn : ConnectPacket) (b : Broker α) : Broker α :=
  { b with server.activeClients := b.server.activeClients.insert conn.clientId sid }.modifySession
    sid (adopt env.cfg conn)

/-- `handle_connect` from the stored subscriptions on. -/
def finishConnect (env : Env α) (sid : SessionId) (conn : ConnectPacket) (b : Broker α) :
    Broker α :=
  let sessionPresent :=
    !conn.cleanSession && !(b.subManager.getClientSubs conn.clientId).isEmpty
  let b := restoreSubscriptions sid conn b
  let b := deliver env sid (.connack sessionPresent .accepted) b
  b.modifySession sid startKeepalive

def forgetFailures (sid : SessionId) (b : Broker α) : Broker α :=
  let ip := (b.sessions sid).remoteIp
  b.setAuthTables (b.server.authFailures.erase ip) (b.server.authBanUntil.erase ip)

/-- `handle_connect` from the registration under the mutex on. -/
def acceptConnect (env : Env α) (sid : SessionId) (conn : ConnectPacket) (b : Broker α) :
    Broker α :=
  let b := takeOver sid conn.clientId (forgetFailures sid b)
  if b.blocked then b else finishConnect env sid conn (register env sid conn b)

/-- `handle_connect` from the credentials on. -/
def authenticateConnect (env : Env α) (sid : SessionId) (conn : ConnectPacket)
    (b : Broker α) : Broker α × Option Exception :=
  if conn.username ≠ [] ∨ conn.password ≠ [] then
    match env.auth.authenticate b.auth conn.clientId conn.username conn.password with
    | (.error text, auth) => (b.setAuth auth, some (.authenticator text))
    | (.ok result, auth) =>
        if result.success then (acceptConnect env sid conn (b.setAuth auth), none)
        else (refuse env sid result.reason (recordAuthFailure env sid (b.setAuth auth)), none)
  else (acceptConnect env sid conn b, none)

def handleConnect (env : Env α) (sid : SessionId) (body : Bytes) (b : Broker α) :
    Broker α × Option Exception :=
  if (b.sessions sid).connected then (close false sid b, none)
  else
    match ConnectPacket.parse body with
    | .error _ => (close false sid b, none)
    | .ok (conn, _) =>
        if conn.protocolName ≠ mqttProtocolName ∨ conn.protocolLevel ≠ mqttProtocolLevel then
          (refuse env sid .refusedProtocol b, none)
        else if conn.clientId = [] ∧ ¬conn.cleanSession then
          (refuse env sid .refusedIdRejected b, none)
        else
          match checkAuthRateLimit sid b with
          | (false, b) => (refuse env sid .refusedServerUnavail b, none)
          | (true, b) => authenticateConnect env sid conn b

/-! ## PUBLISH -/

/-- The message a retained PUBLISH leaves.  An empty payload drops the QoS. -/
def retainedMessage (pub : PublishPacket) : RetainedMessage :=
  if pub.payload = [] then { payload := [] } else { payload := pub.payload, qos := pub.qos }

def storeRetained (env : Env α) (pub : PublishPacket) (b : Broker α) : Broker α :=
  if pub.retain then
    { b with tree := (b.tree.setRetained env.cfg pub.topic (retainedMessage pub)).2 }
  else b

def countPublished (b : Broker α) : Broker α :=
  { b with counters.published := b.counters.published + 1 }

def countDropped (b : Broker α) : Broker α :=
  { b with counters.dropped := b.counters.dropped + 1 }

/-- Note the answer to an incoming QoS 2 packet, if the session will queue it. -/
def noteAnswer (env : Env α) (sid : SessionId) (clientId : Bytes) (packetId : UInt16)
    (event : IngestEvent) (b : Broker α) : Broker α :=
  if accepts env.cfg (b.sessions sid) then b.observe (.noteIngest clientId packetId event)
  else b

def receiveQos2 (env : Env α) (sid : SessionId) (pub : PublishPacket) (b : Broker α) :
    Broker α :=
  let clientId := (b.sessions sid).clientId
  let b := b.observe (.noteIngest clientId pub.packetId
    (.publish ⟨pub.topic, pub.payload, pub.qos⟩))
  let b := noteAnswer env sid clientId pub.packetId .pubrec b
  DeliveryEngine.storeIncomingQos2 clientId pub (deliver env sid (.pubrec pub.packetId) b)

/-- The switch on the QoS.  It has no case for the value 3. -/
def routePublish (env : Env α) (sid : SessionId) (pub : PublishPacket) (b : Broker α) :
    Broker α :=
  match pub.qos with
  | 0 => countPublished (DeliveryEngine.publishFromClient env pub b)
  | 1 =>
      countPublished (DeliveryEngine.publishFromClient env pub
        (deliver env sid (.puback pub.packetId) b))
  | 2 => receiveQos2 env sid pub b
  | _ => b

/-- `handle_publish` once the topic is permitted and valid. -/
def acceptPublish (env : Env α) (sid : SessionId) (pub : PublishPacket) (b : Broker α) :
    Broker α :=
  routePublish env sid pub
    (storeRetained env pub { b with counters.received := b.counters.received + 1 })

def handlePublish (env : Env α) (sid : SessionId) (hdr : FixedHeader) (body : Bytes)
    (b : Broker α) : Broker α × Option Exception :=
  if !(b.sessions sid).connected then (b, none)
  else
    match PublishPacket.parse hdr body with
    | .error _ => (close false sid b, none)
    | .ok (pub, _) =>
        match env.auth.checkAcl b.auth (b.sessions sid).username pub.topic .write with
        | (.error text, auth) => (b.setAuth auth, some (.authenticator text))
        | (.ok access, auth) =>
            if access = .none then (countDropped (b.setAuth auth), none)
            else if !isValidTopic env.cfg pub.topic then (countDropped (b.setAuth auth), none)
            else (acceptPublish env sid pub (b.setAuth auth), none)

/-! ## SUBSCRIBE and UNSUBSCRIBE -/

/-- One turn of the loop over the retained messages.  A message that matches the
new subscription keeps its own QoS, whatever QoS was granted. -/
def deliverRetainedTo (env : Env α) (sid : SessionId) (filter : Bytes) (b : Broker α)
    (row : Bytes × RetainedMessage) : Broker α :=
  if topicMatches row.1 filter then
    deliver env sid (.publish row.1 row.2.payload row.2.qos true false 0)
      (noteUntracked env sid row.2.qos 0 b)
  else b

def deliverRetained (env : Env α) (sid : SessionId) (filter : Bytes) (b : Broker α) :
    Broker α :=
  b.tree.getAllRetained.foldl (deliverRetainedTo env sid filter) b

/-- The limit on stored subscriptions, which only a persistent session has. -/
def subscriptionLimitReached (env : Env α) (sid : SessionId) (b : Broker α) : Bool :=
  !(b.sessions sid).cleanSession &&
    decide (((b.subManager.getClientSubs (b.sessions sid).clientId).length : Int) ≥
      env.cfg.maxSubscriptionsPerClient)

def installFilter (env : Env α) (sid : SessionId) (filter : SubscribePacket.Filter)
    (b : Broker α) : Broker α :=
  let session := b.sessions sid
  let b := { b with
    tree := b.tree.subscribe filter.topicFilter ⟨sid, filter.requestedQos⟩
    subManager :=
      if session.cleanSession then b.subManager
      else b.subManager.add session.clientId filter.topicFilter filter.requestedQos
    counters.subscribed := b.counters.subscribed + 1 }
  deliverRetained env sid filter.topicFilter b

/-- One turn of the loop over the filters: the return code, unless the access
check throws. -/
def subscribeTo (env : Env α) (sid : SessionId) (filter : SubscribePacket.Filter)
    (b : Broker α) : Broker α × Except Exception SubackCode :=
  if !isValidFilter env.cfg filter.topicFilter then (b, .ok .failure)
  else
    match env.auth.checkAcl b.auth (b.sessions sid).username filter.topicFilter .read with
    | (.error text, auth) => (b.setAuth auth, .error (.authenticator text))
    | (.ok access, auth) =>
        if access = .none then (b.setAuth auth, .ok .failure)
        else if subscriptionLimitReached env sid b then (b.setAuth auth, .ok .failure)
        else
          (installFilter env sid filter (b.setAuth auth), .ok (.granted filter.requestedQos))

/-- The loop over the filters and the SUBACK after it. -/
def subscribeAll (env : Env α) (sid : SessionId) (packetId : UInt16) :
    List SubscribePacket.Filter → List SubackCode → Broker α → Broker α × Option Exception
  | [], codes, b => (deliver env sid (.suback packetId codes) b, none)
  | filter :: rest, codes, b =>
      match subscribeTo env sid filter b with
      | (b, .error e) => (b, some e)
      | (b, .ok code) => subscribeAll env sid packetId rest (codes ++ [code]) b

def handleSubscribe (env : Env α) (sid : SessionId) (body : Bytes) (b : Broker α) :
    Broker α × Option Exception :=
  if !(b.sessions sid).connected then (b, none)
  else
    match SubscribePacket.parse body with
    | .error _ => (close false sid b, none)
    | .ok (sub, _) => subscribeAll env sid sub.packetId sub.filters [] b

def unsubscribeFrom (sid : SessionId) (filter : Bytes) (b : Broker α) : Broker α :=
  let session := b.sessions sid
  { b with
    tree := b.tree.unsubscribe filter sid
    subManager :=
      if session.cleanSession then b.subManager
      else b.subManager.remove session.clientId filter }

def handleUnsubscribe (env : Env α) (sid : SessionId) (body : Bytes) (b : Broker α) :
    Broker α :=
  if !(b.sessions sid).connected then b
  else
    match UnsubscribePacket.parse body with
    | .error _ => close false sid b
    | .ok (unsub, _) =>
        deliver env sid (.unsuback unsub.packetId)
          (unsub.topicFilters.foldl (fun b filter => unsubscribeFrom sid filter b) b)

/-! ## The other packets -/

def handlePingreq (env : Env α) (sid : SessionId) (b : Broker α) : Broker α :=
  if !(b.sessions sid).connected then b else deliver env sid .pingresp b

/-- `connected_` is cleared before the call of `close`, which then returns at
once. -/
def handleDisconnect (sid : SessionId) (b : Broker α) : Broker α :=
  close false sid (b.modifySession sid fun s => { s with connected := false })

/-- The four handlers of acknowledgements: nothing unless connected, the packet
id parsed, and `close` when it cannot be. -/
def handleAck (parse : Reader UInt16) (act : UInt16 → Broker α → Broker α) (sid : SessionId)
    (body : Bytes) (b : Broker α) : Broker α :=
  if !(b.sessions sid).connected then b
  else
    match parse body with
    | .error _ => close false sid b
    | .ok (packetId, _) => act packetId b

def handlePuback (sid : SessionId) (body : Bytes) (b : Broker α) : Broker α :=
  handleAck PubackPacket.parse (Qos1Handler.handlePuback (b.sessions sid).clientId) sid body b

def handlePubrec (env : Env α) (sid : SessionId) (body : Bytes) (b : Broker α) : Broker α :=
  handleAck PubrecPacket.parse (Qos2Handler.handlePubrec env (b.sessions sid).clientId) sid
    body b

def handlePubcomp (sid : SessionId) (body : Bytes) (b : Broker α) : Broker α :=
  handleAck PubcompPacket.parse (Qos2Handler.handlePubcomp (b.sessions sid).clientId) sid
    body b

/-- A PUBREL completes the incoming message with its id and is answered with
PUBCOMP.  Without such a message it is not answered. -/
def releaseQos2 (env : Env α) (sid : SessionId) (clientId : Bytes) (packetId : UInt16)
    (b : Broker α) : Broker α :=
  match DeliveryEngine.completeIncomingQos2 env clientId packetId
      (b.observe (.noteIngest clientId packetId .pubrel)) with
  | (true, b) =>
      deliver env sid (.pubcomp packetId)
        (noteAnswer env sid clientId packetId .pubcomp (countPublished b))
  | (false, b) => Qos2Handler.handlePubrel clientId packetId b

def handlePubrel (env : Env α) (sid : SessionId) (body : Bytes) (b : Broker α) : Broker α :=
  handleAck PubrelPacket.parse (releaseQos2 env sid (b.sessions sid).clientId) sid body b

/-! ## Dispatch -/

def decodeHeader (packet : Bytes) : Except Exception (FixedHeader × Bytes) :=
  match packet with
  | [] => .error .bufferUnderflow
  | byte1 :: rest =>
      match Reader.remainingLength rest with
      | .error e => .error e
      | .ok (remainingLength, body) =>
          .ok ({ type := PacketType.ofCode? (PacketParser.typeValue byte1)
                 dup := byte1 &&& 0x08 ≠ 0
                 qos := ((byte1 >>> 1) &&& 0x03).toNat
                 retain := byte1 &&& 0x01 ≠ 0
                 remainingLength }, body)

def dispatch (env : Env α) (sid : SessionId) (hdr : FixedHeader) (body : Bytes)
    (b : Broker α) : Broker α × Option Exception :=
  match hdr.type with
  | some .connect => handleConnect env sid body b
  | some .publish => handlePublish env sid hdr body b
  | some .puback => (handlePuback sid body b, none)
  | some .pubrec => (handlePubrec env sid body b, none)
  | some .pubrel => (handlePubrel env sid body b, none)
  | some .pubcomp => (handlePubcomp sid body b, none)
  | some .subscribe => handleSubscribe env sid body b
  | some .unsubscribe => (handleUnsubscribe env sid body b, none)
  | some .pingreq => (handlePingreq env sid b, none)
  | some .disconnect => (handleDisconnect sid b, none)
  | _ => (b, none)

def handlePacket (env : Env α) (sid : SessionId) (packet : Bytes) (b : Broker α) :
    Broker α × Option Exception :=
  if packet = [] then (b, none)
  else
    match decodeHeader packet with
    | .error e => (b, some e)
    | .ok (hdr, body) => dispatch env sid hdr body b

end JellyBroker.Session
