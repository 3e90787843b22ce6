import JellyBroker.Broker.Session
/-!
# The delivery engine

The fan-out of the three QoS handlers, their acknowledgements and retries, and
the store of incoming QoS 2 messages.
-/

namespace JellyBroker

open JellyBroker.Packet JellyBroker.Qos JellyBroker.Topic

variable {α : Type}

/-- Note a QoS 1 or QoS 2 PUBLISH that goes to a session without an entry in an
in-flight table.  What the session does not queue is dropped at once. -/
def noteUntracked (env : Env α) (sid : SessionId) (qos : Nat) (packetId : UInt16)
    (b : Broker α) : Broker α :=
  if qos > 0 ∧ Session.accepts env.cfg (b.sessions sid) then
    b.observe (.noteSent ⟨(b.sessions sid).clientId, qos, packetId⟩)
  else b

/-- The loop over the entries of a lookup.  An entry whose session is gone is
skipped. -/
def fanOut (turn : SubscriberEntry → Broker α → Broker α) (entries : List SubscriberEntry)
    (b : Broker α) : Broker α :=
  entries.foldl
    (fun b entry => if (b.sessions entry.session).alive then turn entry b else b) b

namespace Qos0Handler

def deliver (env : Env α) (pub : PublishPacket) (b : Broker α) : Broker α :=
  fanOut
    (fun entry => Session.deliver env entry.session
      (.publish pub.topic pub.payload 0 false false 0))
    (b.tree.lookup pub.topic) b

end Qos0Handler

namespace Qos1Handler

/-- One turn of the delivery loop.  It does not look at the QoS of the entry. -/
def deliverTo (env : Env α) (pub : PublishPacket) (entry : SubscriberEntry) (b : Broker α) :
    Broker α :=
  let clientId := (b.sessions entry.session).clientId
  match allocatePacketId (b.delivery.pending.record clientId) with
  | (pid, client) =>
      if pid = 0 then b.setPending (b.delivery.pending.insert clientId client)
      else
        let packet : OutPacket := .publish pub.topic pub.payload 1 pub.retain false pid
        let msg : PendingMessage := { session := entry.session, publishPacket := packet }
        let b := b.setPending (b.delivery.pending.insert clientId
          { client with messages := client.messages.insert pid msg })
        Session.deliver env entry.session packet (b.observe (.noteSent ⟨clientId, 1, pid⟩))

def deliver (env : Env α) (pub : PublishPacket) (b : Broker α) : Broker α :=
  fanOut (deliverTo env pub) (b.tree.lookup pub.topic) b

def handlePuback (clientId : Bytes) (packetId : UInt16) (b : Broker α) : Broker α :=
  (b.setPending (b.delivery.pending.remove clientId packetId)).observe
    (.noteSettled ⟨clientId, 1, packetId⟩)

def retryMessage (env : Env α) (clientId : Bytes) (packetId : UInt16) (b : Broker α) :
    Broker α :=
  match b.delivery.pending.message? clientId packetId with
  | none => b
  | some msg =>
      if msg.retryCount ≥ env.cfg.maxRetryCount then
        (b.setPending (b.delivery.pending.remove clientId packetId)).observe
          (.noteSettled ⟨clientId, 1, packetId⟩)
      else
        let b := b.setPending (b.delivery.pending.setMessage clientId packetId
          { msg with retryCount := msg.retryCount + 1 })
        if (b.sessions msg.session).connected then
          Session.deliver env msg.session msg.publishPacket b
        else b

/-- What a retry can do: nothing without a message, take out a message that was
sent often enough, or count the retry and maybe send the message again. -/
theorem retryMessage_rule {P : Broker α → Prop} {env : Env α} {clientId : Bytes}
    {packetId : UInt16} {b : Broker α} (hnone : P b)
    (hspent : ∀ msg, b.delivery.pending.message? clientId packetId = some msg →
      msg.retryCount ≥ env.cfg.maxRetryCount →
      P ((b.setPending (b.delivery.pending.remove clientId packetId)).observe
        (.noteSettled ⟨clientId, 1, packetId⟩)))
    (hcounted : ∀ msg, b.delivery.pending.message? clientId packetId = some msg →
      P (b.setPending (b.delivery.pending.setMessage clientId packetId
        { msg with retryCount := msg.retryCount + 1 })))
    (hdeliver : ∀ msg counted, b.delivery.pending.message? clientId packetId = some msg →
      P counted → P (Session.deliver env msg.session msg.publishPacket counted)) :
    P (retryMessage env clientId packetId b) := by
  unfold retryMessage
  cases hmsg : b.delivery.pending.message? clientId packetId with
  | none => exact hnone
  | some msg =>
      dsimp only
      split_ifs with hused
      · exact hspent msg hmsg hused
      · exact hdeliver msg _ hmsg (hcounted msg hmsg)
      · exact hcounted msg hmsg

end Qos1Handler

namespace Qos2Handler

def deliverTo (env : Env α) (pub : PublishPacket) (entry : SubscriberEntry) (b : Broker α) :
    Broker α :=
  let grantedQos := min entry.qos pub.qos
  if grantedQos < 2 then
    Session.deliver env entry.session
      (.publish pub.topic pub.payload grantedQos false false 0)
      (noteUntracked env entry.session grantedQos 0 b)
  else
    let clientId := (b.sessions entry.session).clientId
    match allocatePacketId (b.delivery.outgoing.record clientId) with
    | (pid, client) =>
        if pid = 0 then b.setOutgoing (b.delivery.outgoing.insert clientId client)
        else
          let msg : OutgoingMessage :=
            { session := entry.session, topic := pub.topic, payload := pub.payload }
          let b := b.setOutgoing (b.delivery.outgoing.insert clientId
            { client with messages := client.messages.insert pid msg })
          Session.deliver env entry.session
            (.publish pub.topic pub.payload 2 false false pid)
            (b.observe (.noteSent ⟨clientId, 2, pid⟩))

def deliver (env : Env α) (pub : PublishPacket) (b : Broker α) : Broker α :=
  fanOut (deliverTo env pub) (b.tree.lookup pub.topic) b

def handlePubrec (env : Env α) (clientId : Bytes) (packetId : UInt16) (b : Broker α) :
    Broker α :=
  match b.delivery.outgoing.message? clientId packetId with
  | none => b
  | some msg =>
      let b := b.setOutgoing (b.delivery.outgoing.setMessage clientId packetId
        { msg with state := .pubrecReceived, retryCount := 0 })
      if (b.sessions msg.session).connected then
        Session.deliver env msg.session (.pubrel packetId) b
      else b

/-- A PUBREL from the client takes the message that is in flight to the client
under the same id out of flight. -/
def handlePubrel (clientId : Bytes) (packetId : UInt16) (b : Broker α) : Broker α :=
  match b.delivery.outgoing.message? clientId packetId with
  | none => b
  | some _ =>
      (b.setOutgoing (b.delivery.outgoing.remove clientId packetId)).observe
        (.noteSettled ⟨clientId, 2, packetId⟩)

def handlePubcomp (clientId : Bytes) (packetId : UInt16) (b : Broker α) : Broker α :=
  (b.setOutgoing (b.delivery.outgoing.remove clientId packetId)).observe
    (.noteSettled ⟨clientId, 2, packetId⟩)

def retryPacket (packetId : UInt16) (msg : OutgoingMessage) : OutPacket :=
  match msg.state with
  | .publishSent => .publish msg.topic msg.payload 2 false true packetId
  | .pubrecReceived => .pubrel packetId

def retryMessage (env : Env α) (clientId : Bytes) (packetId : UInt16) (b : Broker α) :
    Broker α :=
  match b.delivery.outgoing.message? clientId packetId with
  | none => b
  | some msg =>
      if msg.retryCount ≥ env.cfg.maxRetryCount then
        (b.setOutgoing (b.delivery.outgoing.remove clientId packetId)).observe
          (.noteSettled ⟨clientId, 2, packetId⟩)
      else
        let b := b.setOutgoing (b.delivery.outgoing.setMessage clientId packetId
          { msg with retryCount := msg.retryCount + 1 })
        if (b.sessions msg.session).connected then
          Session.deliver env msg.session (retryPacket packetId msg) b
        else b

/-- What a PUBREC can do: nothing without a message, or mark the message and
maybe answer with PUBREL. -/
theorem handlePubrec_rule {P : Broker α → Prop} {env : Env α} {clientId : Bytes}
    {packetId : UInt16} {b : Broker α} (hnone : P b)
    (hmarked : ∀ msg, b.delivery.outgoing.message? clientId packetId = some msg →
      P (b.setOutgoing (b.delivery.outgoing.setMessage clientId packetId
        { msg with state := .pubrecReceived, retryCount := 0 })))
    (hdeliver : ∀ msg marked, b.delivery.outgoing.message? clientId packetId = some msg →
      P marked → P (Session.deliver env msg.session (.pubrel packetId) marked)) :
    P (handlePubrec env clientId packetId b) := by
  unfold handlePubrec
  cases hmsg : b.delivery.outgoing.message? clientId packetId with
  | none => exact hnone
  | some msg =>
      dsimp only
      split_ifs
      · exact hdeliver msg _ hmsg (hmarked msg hmsg)
      · exact hmarked msg hmsg

theorem retryMessage_rule {P : Broker α → Prop} {env : Env α} {clientId : Bytes}
    {packetId : UInt16} {b : Broker α} (hnone : P b)
    (hspent : ∀ msg, b.delivery.outgoing.message? clientId packetId = some msg →
      msg.retryCount ≥ env.cfg.maxRetryCount →
      P ((b.setOutgoing (b.delivery.outgoing.remove clientId packetId)).observe
        (.noteSettled ⟨clientId, 2, packetId⟩)))
    (hcounted : ∀ msg, b.delivery.outgoing.message? clientId packetId = some msg →
      P (b.setOutgoing (b.delivery.outgoing.setMessage clientId packetId
        { msg with retryCount := msg.retryCount + 1 })))
    (hdeliver : ∀ msg counted, b.delivery.outgoing.message? clientId packetId = some msg →
      P counted → P (Session.deliver env msg.session (retryPacket packetId msg) counted)) :
    P (retryMessage env clientId packetId b) := by
  unfold retryMessage
  cases hmsg : b.delivery.outgoing.message? clientId packetId with
  | none => exact hnone
  | some msg =>
      dsimp only
      split_ifs with hused
      · exact hspent msg hmsg hused
      · exact hdeliver msg _ hmsg (hcounted msg hmsg)
      · exact hcounted msg hmsg

end Qos2Handler

namespace DeliveryEngine

def publishFromClient (env : Env α) (pub : PublishPacket) (b : Broker α) : Broker α :=
  match pub.qos with
  | 0 => Qos0Handler.deliver env pub b
  | 1 => Qos1Handler.deliver env pub b
  | 2 => Qos2Handler.deliver env pub b
  | _ => b

def storeIncomingQos2 (clientId : Bytes) (pub : PublishPacket) (b : Broker α) : Broker α :=
  let messages := (b.delivery.incomingQos2.lookup clientId).getD ∅
  b.setIncoming (b.delivery.incomingQos2.insert clientId
    (messages.insert pub.packetId ⟨pub.topic, pub.payload, pub.qos⟩))

def incoming? (delivery : DeliveryEngine) (clientId : Bytes) (packetId : UInt16) :
    Option IncomingMessage :=
  (delivery.incomingQos2.lookup clientId).bind (·.lookup packetId)

/-- Take a stored message, and the client's store with the last one. -/
def takeIncoming (clientId : Bytes) (packetId : UInt16) (b : Broker α) : Broker α :=
  match b.delivery.incomingQos2.lookup clientId with
  | none => b
  | some messages =>
      let left := messages.erase packetId
      b.setIncoming
        (if left.keys = ∅ then b.delivery.incomingQos2.erase clientId
          else b.delivery.incomingQos2.insert clientId left)

/-- Whether a message was stored under the id.  Its fan-out is that of
`Qos2Handler`, whatever QoS it was stored with. -/
def completeIncomingQos2 (env : Env α) (clientId : Bytes) (packetId : UInt16) (b : Broker α) :
    Bool × Broker α :=
  match b.delivery.incoming? clientId packetId with
  | none => (false, b)
  | some msg =>
      let b := (takeIncoming clientId packetId b).observe
        (.noteIngest clientId packetId (.forward msg))
      (true, Qos2Handler.deliver env
        { topic := msg.topic, payload := msg.payload, qos := msg.qos } b)

end DeliveryEngine

end JellyBroker
