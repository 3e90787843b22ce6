import JellyBroker.Broker.InFlight
import JellyBroker.Broker.System
import JellyBroker.Lib.Handshake
/-!
# A handler and its subscriber

`Qos1Handler` or `Qos2Handler`, with the session of one client and the
subscriber at the other end of its connection.  What the session queues reaches
the subscriber in order, and the subscriber's answers reach the handler in
order.  Every turn of the delivery loop for the session sends a message of its
own.
-/

namespace JellyBroker

open JellyBroker.Lib JellyBroker.Packet JellyBroker.Qos JellyBroker.Topic
open JellyBroker.Lib.Handshake (Answer Channel Phase Step)

variable {α : Type}

inductive Handler where
  | qos1
  | qos2
  deriving DecidableEq

def OutgoingState.phase : OutgoingState → Phase
  | publishSent => .published
  | pubrecReceived => .released

namespace Handler

def qos : Handler → Nat
  | qos1 => 1
  | qos2 => 2

def first : Handler → Phase
  | qos1 => .offered
  | qos2 => .published

def phase (handler : Handler) (b : Broker α) (clientId : Bytes) (packetId : UInt16) :
    Option Phase :=
  match handler with
  | qos1 => (b.delivery.pending.message? clientId packetId).map fun _ => .offered
  | qos2 => (b.delivery.outgoing.message? clientId packetId).map fun msg => msg.state.phase

def deliverTo (handler : Handler) (env : Env α) : PublishPacket → SubscriberEntry → Broker α →
    Broker α :=
  match handler with
  | qos1 => Qos1Handler.deliverTo env
  | qos2 => Qos2Handler.deliverTo env

def retryMessage (handler : Handler) (env : Env α) : Bytes → UInt16 → Broker α → Broker α :=
  match handler with
  | qos1 => Qos1Handler.retryMessage env
  | qos2 => Qos2Handler.retryMessage env

/-- The packet of the subscriber that an answer stands for: PUBREC or PUBCOMP at
QoS 2, and PUBACK at QoS 1, which has no receipt. -/
def acknowledge (handler : Handler) (env : Env α) (clientId : Bytes) (answer : Answer UInt16)
    (b : Broker α) : Broker α :=
  match handler, answer with
  | qos1, .received _ => b
  | qos1, .completed packetId => Qos1Handler.handlePuback clientId packetId b
  | qos2, .received packetId => Qos2Handler.handlePubrec env clientId packetId b
  | qos2, .completed packetId => Qos2Handler.handlePubcomp clientId packetId b

/-- What a packet is to the subscriber, given the message that each id was last
given to.  A copy of a lower QoS than the handler's has no id of its own. -/
def packet? (handler : Handler) (owner : UInt16 → Nat) (number : Nat) :
    OutPacket → Option (Handshake.Packet UInt16)
  | .publish _ _ qos _ _ packetId =>
      if qos = handler.qos then some (handler.first.packet packetId (owner packetId))
      else some (.plain number)
  | .pubrel packetId => some (.release packetId)
  | _ => none

end Handler

structure SessionLink (α : Type) extends Channel UInt16 where
  broker : Broker α

inductive LinkEvent where
  /-- A turn of the delivery loop, with the QoS of the session's subscription. -/
  | deliver (pub : PublishPacket) (qos : Nat)
  | retry (packetId : UInt16)
  /-- The first packet from the subscriber arrives. -/
  | acknowledge
  /-- The first packet to the subscriber arrives. -/
  | receive
  | written

/-- The packets that a session has queued. -/
def queued (sid : SessionId) (b b' : Broker α) : List OutPacket :=
  ((b'.history.handed.drop b.history.handed.length).filter fun call =>
    call.session = sid ∧ call.accepted).map (·.packet)

namespace SessionLink

def clientId (sid : SessionId) (link : SessionLink α) : Bytes := (link.broker.sessions sid).clientId

def phase (handler : Handler) (sid : SessionId) (link : SessionLink α) : UInt16 → Option Phase :=
  handler.phase link.broker (link.clientId sid)

/-- The broker after a step of the handler.  A message is known by the step in
which its id was given to it. -/
def advance (handler : Handler) (sid : SessionId) (b : Broker α) (link : SessionLink α) :
    SessionLink α :=
  let owner packetId :=
    if link.phase handler sid packetId = none ∧
        handler.phase b (link.clientId sid) packetId ≠ none then link.steps
    else link.owner packetId
  { link with
    broker := b
    owner
    steps := link.steps + 1
    down := link.down ++ (queued sid link.broker b).filterMap (handler.packet? owner link.steps) }

def step (env : Env α) (handler : Handler) (sid : SessionId) (link : SessionLink α) :
    LinkEvent → SessionLink α
  | .deliver pub qos =>
      link.advance handler sid (handler.deliverTo env pub ⟨sid, qos⟩ link.broker)
  | .retry packetId =>
      link.advance handler sid (handler.retryMessage env (link.clientId sid) packetId link.broker)
  | .acknowledge =>
      match link.up with
      | [] => link
      | answer :: rest =>
          { link with up := rest }.advance handler sid
            (handler.acknowledge env (link.clientId sid) answer link.broker)
  | .receive => { link with toChannel := link.toChannel.receive }
  | .written => { link with broker := link.broker.modifySession sid Session.onWrite }

end SessionLink

def Handler.Reserved (handler : Handler) (b : Broker α) : Prop :=
  match handler with
  | .qos1 => b.delivery.pending.Reserved
  | .qos2 => b.delivery.outgoing.Reserved

def linkSystem (env : Env α) (handler : Handler) (sid : SessionId) :
    System (SessionLink α) LinkEvent where
  init link := link.toChannel = {} ∧ handler.Reserved link.broker ∧
    ∀ packetId, link.phase handler sid packetId = none
  enabled _ _ := True
  step := SessionLink.step env handler sid

/-! ## The messages of a client -/

section

variable {μ : Type} {table : ClientTable μ} {clientId : Bytes}

theorem messages_send (table : ClientTable μ) (clientId : Bytes) (msg : μ) :
    ClientTable.message?
        (Finmap.insert clientId
          { (allocatePacketId (table.record clientId)).2 with
            messages := (allocatePacketId (table.record clientId)).2.messages.insert
              (allocatePacketId (table.record clientId)).1 msg } table) clientId =
      Function.update (table.message? clientId)
        (allocatePacketId (table.record clientId)).1 (some msg) := by
  ext1 packetId
  rw [ClientTable.message?_send, Function.update_apply]
  simp

theorem messages_exhausted (table : ClientTable μ) (clientId : Bytes) :
    ClientTable.message?
        (Finmap.insert clientId (allocatePacketId (table.record clientId)).2 table) clientId =
      table.message? clientId := by
  ext1 packetId
  exact ClientTable.message?_exhausted table clientId clientId packetId

theorem messages_replaced {packetId : UInt16} {old : μ}
    (h : table.message? clientId packetId = some old) (msg : μ) :
    (table.setMessage clientId packetId msg).message? clientId =
      Function.update (table.message? clientId) packetId (some msg) := by
  ext1 packetId'
  rw [ClientTable.message?_setMessage h, Function.update_apply]
  simp

theorem messages_removed (table : ClientTable μ) (clientId : Bytes) (packetId : UInt16) :
    (table.remove clientId packetId).message? clientId =
      Function.update (table.message? clientId) packetId none := by
  ext1 packetId'
  rw [ClientTable.message?_remove, Function.update_apply]
  simp

/-- The ids of the messages are reserved, and the client's messages are as
described. -/
structure Holds (ok : UInt16 → μ → Prop) (table : ClientTable μ) (clientId : Bytes) : Prop where
  reserved : table.Reserved
  messages : ∀ packetId msg, table.message? clientId packetId = some msg → ok packetId msg

namespace Holds

variable {ok : UInt16 → μ → Prop} (h : Holds ok table clientId)

include h

theorem update {table' : ClientTable μ} {packetId : UInt16} {msg : Option μ}
    (hreserved : table'.Reserved)
    (hmessages : table'.message? clientId =
      Function.update (table.message? clientId) packetId msg)
    (hmsg : ∀ msg', msg = some msg' → ok packetId msg') : Holds ok table' clientId := by
  refine ⟨hreserved, ?_⟩
  intro packetId' msg' hlookup
  rw [hmessages, Function.update_apply] at hlookup
  split_ifs at hlookup with hid
  · rw [hid]
    exact hmsg msg' hlookup
  · exact h.messages packetId' msg' hlookup

theorem send (msg : μ) (hpid : (allocatePacketId (table.record clientId)).1 ≠ 0)
    (hmsg : ok (allocatePacketId (table.record clientId)).1 msg) :
    Holds ok
      (Finmap.insert clientId
        { (allocatePacketId (table.record clientId)).2 with
          messages := (allocatePacketId (table.record clientId)).2.messages.insert
            (allocatePacketId (table.record clientId)).1 msg } table) clientId := by
  refine h.update ?_ (messages_send table clientId msg) ?_
  · exact h.reserved.send hpid msg
  · intro msg' heq
    rw [← Option.some.inj heq]
    exact hmsg

theorem exhausted :
    Holds ok (Finmap.insert clientId (allocatePacketId (table.record clientId)).2 table)
      clientId := by
  refine ⟨h.reserved.exhausted clientId, ?_⟩
  rw [messages_exhausted]
  exact h.messages

theorem setMessage {packetId : UInt16} {old msg : μ}
    (hold : table.message? clientId packetId = some old) (hmsg : ok packetId msg) :
    Holds ok (table.setMessage clientId packetId msg) clientId := by
  refine h.update (h.reserved.setMessage hold msg) (messages_replaced hold msg) ?_
  intro msg' heq
  rw [← Option.some.inj heq]
  exact hmsg

theorem remove (packetId : UInt16) : Holds ok (table.remove clientId packetId) clientId :=
  h.update (h.reserved.remove clientId packetId) (messages_removed table clientId packetId) nofun

end Holds

end

/-! ## Steps of the handlers -/

def Handler.Stored (handler : Handler) (sid : SessionId) (b : Broker α) : Prop :=
  match handler with
  | .qos1 =>
      Holds (fun packetId msg => msg.session = sid ∧ ∃ topic payload retain,
          msg.publishPacket = .publish topic payload 1 retain false packetId)
        b.delivery.pending (b.sessions sid).clientId
  | .qos2 =>
      Holds (fun _ msg => msg.session = sid) b.delivery.outgoing (b.sessions sid).clientId

theorem queued_of_prepared {b b' : Broker α} (h : Prepared b b') (sid : SessionId) :
    queued sid b b' = [] := by
  unfold queued
  rw [h.handed, List.drop_length]
  rfl

theorem queued_deliver {b b' : Broker α} (h : Prepared b b') (env : Env α) (sid : SessionId)
    (packet : OutPacket) :
    (queued sid b (Session.deliver env sid packet b')).Sublist [packet] := by
  unfold queued
  rw [handed_deliver, h.handed, List.drop_left]
  exact List.filter_sublist.map _

/-- A step of the handler for the client of a session: the messages of the
client after it, and the packet that the session may queue. -/
structure HandlerStep (handler : Handler) (sid : SessionId) (b : Broker α)
    (phase : UInt16 → Option Phase) (packets : List OutPacket) (b' : Broker α) : Prop where
  clientId : (b'.sessions sid).clientId = (b.sessions sid).clientId
  phase : handler.phase b' (b.sessions sid).clientId = phase
  packets : (queued sid b b').Sublist packets
  stored : handler.Stored sid b'

namespace HandlerStep

variable {handler : Handler} {sid : SessionId} {b b' : Broker α}

theorem of_prepared {phase : UInt16 → Option Phase} (h : Prepared b b')
    (hstored : handler.Stored sid b')
    (hphase : handler.phase b' (b.sessions sid).clientId = phase) (packets : List OutPacket) :
    HandlerStep handler sid b phase packets b' where
  clientId := by rw [h.sessions]
  phase := hphase
  packets := by
    rw [queued_of_prepared h]
    exact List.nil_sublist _
  stored := hstored

theorem of_deliver {phase : UInt16 → Option Phase} (h : Prepared b b')
    (hstored : handler.Stored sid b')
    (hphase : handler.phase b' (b.sessions sid).clientId = phase) (env : Env α)
    (packet : OutPacket) :
    HandlerStep handler sid b phase [packet] (Session.deliver env sid packet b') := by
  have hkeeps := keepsInFlight_frame.deliver env sid packet b'
  constructor
  · rw [hkeeps.clientId, h.sessions]
  · rw [← hphase]
    unfold Handler.phase
    rw [hkeeps.pending, hkeeps.outgoing]
  · exact queued_deliver h env sid packet
  · unfold Handler.Stored at hstored ⊢
    rw [hkeeps.pending, hkeeps.outgoing, hkeeps.clientId]
    exact hstored

end HandlerStep

inductive Cause where
  | delivery
  | timer
  | answer (answer : Answer UInt16)

/-- What a step of a handler can do to the messages of a client, and what it
sends. -/
inductive Effect (handler : Handler) (phase : UInt16 → Option Phase) :
    Cause → (UInt16 → Option Phase) → List OutPacket → Prop
  | quiet {cause : Cause} : Effect handler phase cause phase []
  | plain {packet : OutPacket}
      (hpacket : ∀ owner number, handler.packet? owner number packet = some (.plain number)) :
      Effect handler phase .delivery phase [packet]
  | start {packetId : UInt16} {packet : OutPacket} (hfree : phase packetId = none)
      (hpacket : ∀ owner number, handler.packet? owner number packet =
        some (handler.first.packet packetId (owner packetId))) :
      Effect handler phase .delivery (Function.update phase packetId (some handler.first)) [packet]
  | resend {packetId : UInt16} {current : Phase} {packet : OutPacket}
      (hphase : phase packetId = some current)
      (hpacket : ∀ owner number, handler.packet? owner number packet =
        some (current.packet packetId (owner packetId))) :
      Effect handler phase .timer phase [packet]
  | giveUp {packetId : UInt16} :
      Effect handler phase .timer (Function.update phase packetId none) []
  | release {packetId : UInt16} (hphase : phase packetId ≠ none) :
      Effect handler phase (.answer (.received packetId))
        (Function.update phase packetId (some .released)) [.pubrel packetId]
  | complete {packetId : UInt16} :
      Effect handler phase (.answer (.completed packetId))
        (Function.update phase packetId none) []

def Acts (handler : Handler) (sid : SessionId) (cause : Cause) (b b' : Broker α) : Prop :=
  ∃ phase packets, Effect handler (handler.phase b (b.sessions sid).clientId) cause phase packets ∧
    HandlerStep handler sid b phase packets b'

namespace Acts

variable {handler : Handler} {sid : SessionId} {cause : Cause} {b b' : Broker α}
  {phase : UInt16 → Option Phase}

theorem of_prepared {packets : List OutPacket} (hstored : handler.Stored sid b')
    (hphase : handler.phase b' (b.sessions sid).clientId = phase)
    (heffect : Effect handler (handler.phase b (b.sessions sid).clientId) cause phase packets)
    (h : Prepared b b') : Acts handler sid cause b b' :=
  ⟨phase, packets, heffect, .of_prepared h hstored hphase packets⟩

theorem of_deliver {packet : OutPacket} (hstored : handler.Stored sid b')
    (hphase : handler.phase b' (b.sessions sid).clientId = phase)
    (heffect : Effect handler (handler.phase b (b.sessions sid).clientId) cause phase [packet])
    (h : Prepared b b') (env : Env α) :
    Acts handler sid cause b (Session.deliver env sid packet b') :=
  ⟨phase, [packet], heffect, .of_deliver h hstored hphase env packet⟩

theorem refl (hstored : handler.Stored sid b) (cause : Cause) : Acts handler sid cause b b :=
  .of_prepared hstored rfl .quiet ⟨rfl, rfl⟩

end Acts

section Qos1

theorem qos1_phase_of_message? {b : Broker α} {clientId : Bytes} {packetId : UInt16}
    {msg : Option PendingMessage}
    (h : b.delivery.pending.message? clientId packetId = msg) :
    Handler.qos1.phase b clientId packetId = msg.map fun _ => .offered := by
  change Option.map _ (b.delivery.pending.message? clientId packetId) = _
  rw [h]

theorem qos1_phase_update {b b' : Broker α} {clientId : Bytes} {packetId : UInt16}
    {msg : Option PendingMessage}
    (h : b'.delivery.pending.message? clientId =
      Function.update (b.delivery.pending.message? clientId) packetId msg) :
    Handler.qos1.phase b' clientId =
      Function.update (Handler.qos1.phase b clientId) packetId (msg.map fun _ => .offered) := by
  change Option.map (fun _ => Phase.offered) ∘ _ = _
  rw [h, Function.comp_update]
  rfl

variable {sid : SessionId} {b : Broker α} (h : Handler.qos1.Stored sid b)

include h

theorem qos1DeliverTo_acts (env : Env α) (pub : PublishPacket) (qos : Nat) :
    Acts .qos1 sid .delivery b (Qos1Handler.deliverTo env pub ⟨sid, qos⟩ b) := by
  unfold Qos1Handler.deliverTo
  dsimp only
  split_ifs with hpid
  · have hphase := congrArg (Option.map (fun _ => Phase.offered) ∘ ·)
      (messages_exhausted b.delivery.pending (b.sessions sid).clientId)
    exact .of_prepared h.exhausted hphase .quiet ⟨rfl, rfl⟩
  · have hfree := qos1_phase_of_message? (h.reserved.allocated_free hpid)
    apply Acts.of_deliver (b := b)
    · exact h.send _ hpid ⟨rfl, _, _, _, rfl⟩
    · exact qos1_phase_update (messages_send _ _ _)
    · exact .start hfree fun _ _ => rfl
    · exact ⟨rfl, rfl⟩

theorem qos1Remove_acts {cause : Cause} {packetId : UInt16}
    (heffect : Effect .qos1 (Handler.qos1.phase b (b.sessions sid).clientId) cause
      (Function.update (Handler.qos1.phase b (b.sessions sid).clientId) packetId none) []) :
    Acts .qos1 sid cause b (Qos1Handler.handlePuback (b.sessions sid).clientId packetId b) := by
  have hremoved := messages_removed b.delivery.pending (b.sessions sid).clientId packetId
  exact .of_prepared (h.remove packetId) (qos1_phase_update hremoved) heffect ⟨rfl, rfl⟩

theorem qos1RetryMessage_acts (env : Env α) (packetId : UInt16) :
    Acts .qos1 sid .timer b
      (Qos1Handler.retryMessage env (b.sessions sid).clientId packetId b) := by
  unfold Qos1Handler.retryMessage
  cases hmsg : b.delivery.pending.message? (b.sessions sid).clientId packetId with
  | none => exact Acts.refl h _
  | some msg =>
      obtain ⟨hsession, topic, payload, retain, hpacket⟩ := h.messages packetId msg hmsg
      subst hsession
      have hphase := qos1_phase_of_message? hmsg
      have hcounted : Handler.qos1.phase (b.setPending (b.delivery.pending.setMessage
          (b.sessions msg.session).clientId packetId
          { msg with retryCount := msg.retryCount + 1 })) (b.sessions msg.session).clientId =
          Handler.qos1.phase b (b.sessions msg.session).clientId := by
        rw [qos1_phase_update (messages_replaced hmsg _)]
        exact Function.update_eq_self_iff.mpr hphase.symm
      have hstored : Handler.qos1.Stored msg.session (b.setPending
          (b.delivery.pending.setMessage (b.sessions msg.session).clientId packetId
            { msg with retryCount := msg.retryCount + 1 })) :=
        h.setMessage hmsg ⟨rfl, topic, payload, retain, hpacket⟩
      dsimp only
      split_ifs
      · exact qos1Remove_acts h .giveUp
      · refine Acts.of_deliver hstored hcounted (.resend hphase ?_) ⟨rfl, rfl⟩ env
        intro owner number
        rw [hpacket]
        rfl
      · exact .of_prepared hstored hcounted .quiet ⟨rfl, rfl⟩

end Qos1

section Qos2

theorem qos2_phase_of_message? {b : Broker α} {clientId : Bytes} {packetId : UInt16}
    {msg : Option OutgoingMessage}
    (h : b.delivery.outgoing.message? clientId packetId = msg) :
    Handler.qos2.phase b clientId packetId = msg.map fun msg => msg.state.phase := by
  change Option.map _ (b.delivery.outgoing.message? clientId packetId) = _
  rw [h]

theorem qos2_phase_update {b b' : Broker α} {clientId : Bytes} {packetId : UInt16}
    {msg : Option OutgoingMessage}
    (h : b'.delivery.outgoing.message? clientId =
      Function.update (b.delivery.outgoing.message? clientId) packetId msg) :
    Handler.qos2.phase b' clientId =
      Function.update (Handler.qos2.phase b clientId) packetId
        (msg.map fun msg => msg.state.phase) := by
  change Option.map (fun msg : OutgoingMessage => msg.state.phase) ∘ _ = _
  rw [h, Function.comp_update]
  rfl

variable {sid : SessionId} {b : Broker α} (h : Handler.qos2.Stored sid b)

include h

theorem qos2DeliverTo_acts (env : Env α) (pub : PublishPacket) (qos : Nat) :
    Acts .qos2 sid .delivery b (Qos2Handler.deliverTo env pub ⟨sid, qos⟩ b) := by
  unfold Qos2Handler.deliverTo
  dsimp only
  split_ifs with hgranted hpid
  · -- A copy of QoS 0 or 1 carries no id.
    have hprepared := prepared_noteUntracked env sid (min qos pub.qos) 0 b
    have hdelivery : (noteUntracked env sid (min qos pub.qos) 0 b).delivery = b.delivery := by
      unfold noteUntracked
      split_ifs <;> rfl
    refine Acts.of_deliver ?_ ?_ (.plain ?_) hprepared env
    · unfold Handler.Stored at h ⊢
      rw [hdelivery, hprepared.sessions]
      exact h
    · unfold Handler.phase
      rw [hdelivery]
    · intro owner number
      have hlower : min qos pub.qos ≠ Handler.qos2.qos := by
        change _ ≠ 2
        omega
      exact if_neg hlower
  · have hphase := congrArg (Option.map (fun msg : OutgoingMessage => msg.state.phase) ∘ ·)
      (messages_exhausted b.delivery.outgoing (b.sessions sid).clientId)
    exact .of_prepared h.exhausted hphase .quiet ⟨rfl, rfl⟩
  · have hfree := qos2_phase_of_message? (h.reserved.allocated_free hpid)
    apply Acts.of_deliver (b := b)
    · exact h.send _ hpid rfl
    · exact qos2_phase_update (messages_send _ _ _)
    · exact .start hfree fun _ _ => rfl
    · exact ⟨rfl, rfl⟩

theorem qos2Remove_acts {cause : Cause} {packetId : UInt16}
    (heffect : Effect .qos2 (Handler.qos2.phase b (b.sessions sid).clientId) cause
      (Function.update (Handler.qos2.phase b (b.sessions sid).clientId) packetId none) []) :
    Acts .qos2 sid cause b (Qos2Handler.handlePubcomp (b.sessions sid).clientId packetId b) := by
  have hremoved := messages_removed b.delivery.outgoing (b.sessions sid).clientId packetId
  exact .of_prepared (h.remove packetId) (qos2_phase_update hremoved) heffect ⟨rfl, rfl⟩

theorem qos2HandlePubrec_acts (env : Env α) (packetId : UInt16) :
    Acts .qos2 sid (.answer (.received packetId)) b
      (Qos2Handler.handlePubrec env (b.sessions sid).clientId packetId b) := by
  unfold Qos2Handler.handlePubrec
  cases hmsg : b.delivery.outgoing.message? (b.sessions sid).clientId packetId with
  | none => exact Acts.refl h _
  | some msg =>
      have hsession := h.messages packetId msg hmsg
      subst hsession
      have hphase : Handler.qos2.phase b (b.sessions msg.session).clientId packetId ≠ none := by
        rw [qos2_phase_of_message? hmsg]
        exact nofun
      have hreleased : Handler.qos2.phase (b.setOutgoing (b.delivery.outgoing.setMessage
          (b.sessions msg.session).clientId packetId
          { msg with state := .pubrecReceived, retryCount := 0 }))
          (b.sessions msg.session).clientId =
          Function.update (Handler.qos2.phase b (b.sessions msg.session).clientId) packetId
            (some .released) := by
        rw [qos2_phase_update (messages_replaced hmsg _)]
        rfl
      have hstored : Handler.qos2.Stored msg.session (b.setOutgoing
          (b.delivery.outgoing.setMessage (b.sessions msg.session).clientId packetId
            { msg with state := .pubrecReceived, retryCount := 0 })) := h.setMessage hmsg rfl
      dsimp only
      split_ifs
      · exact .of_deliver hstored hreleased (.release hphase) ⟨rfl, rfl⟩ env
      · exact .of_prepared hstored hreleased (.release hphase) ⟨rfl, rfl⟩

theorem qos2RetryMessage_acts (env : Env α) (packetId : UInt16) :
    Acts .qos2 sid .timer b
      (Qos2Handler.retryMessage env (b.sessions sid).clientId packetId b) := by
  unfold Qos2Handler.retryMessage
  cases hmsg : b.delivery.outgoing.message? (b.sessions sid).clientId packetId with
  | none => exact Acts.refl h _
  | some msg =>
      have hsession := h.messages packetId msg hmsg
      subst hsession
      have hphase := qos2_phase_of_message? hmsg
      have hcounted : Handler.qos2.phase (b.setOutgoing (b.delivery.outgoing.setMessage
          (b.sessions msg.session).clientId packetId
          { msg with retryCount := msg.retryCount + 1 })) (b.sessions msg.session).clientId =
          Handler.qos2.phase b (b.sessions msg.session).clientId := by
        rw [qos2_phase_update (messages_replaced hmsg _)]
        exact Function.update_eq_self_iff.mpr hphase.symm
      have hstored : Handler.qos2.Stored msg.session (b.setOutgoing
          (b.delivery.outgoing.setMessage (b.sessions msg.session).clientId packetId
            { msg with retryCount := msg.retryCount + 1 })) := h.setMessage hmsg rfl
      dsimp only
      split_ifs
      · exact qos2Remove_acts h .giveUp
      · refine Acts.of_deliver hstored hcounted (.resend hphase ?_) ⟨rfl, rfl⟩ env
        intro owner number
        dsimp only
        unfold Qos2Handler.retryPacket
        cases msg.state with
        | publishSent => rfl
        | pubrecReceived => rfl
      · exact .of_prepared hstored hcounted .quiet ⟨rfl, rfl⟩

end Qos2

namespace Handler

variable {handler : Handler} {sid : SessionId} {b : Broker α}

theorem deliverTo_acts (h : handler.Stored sid b) (env : Env α) (pub : PublishPacket)
    (qos : Nat) : Acts handler sid .delivery b (handler.deliverTo env pub ⟨sid, qos⟩ b) := by
  cases handler with
  | qos1 => exact qos1DeliverTo_acts h env pub qos
  | qos2 => exact qos2DeliverTo_acts h env pub qos

theorem retryMessage_acts (h : handler.Stored sid b) (env : Env α) (packetId : UInt16) :
    Acts handler sid .timer b
      (handler.retryMessage env (b.sessions sid).clientId packetId b) := by
  cases handler with
  | qos1 => exact qos1RetryMessage_acts h env packetId
  | qos2 => exact qos2RetryMessage_acts h env packetId

theorem acknowledge_acts (h : handler.Stored sid b) (env : Env α) (answer : Answer UInt16) :
    Acts handler sid (.answer answer) b
      (handler.acknowledge env (b.sessions sid).clientId answer b) := by
  cases handler with
  | qos1 =>
      cases answer with
      | received packetId => exact Acts.refl h _
      | completed packetId => exact qos1Remove_acts h .complete
  | qos2 =>
      cases answer with
      | received packetId => exact qos2HandlePubrec_acts h env packetId
      | completed packetId => exact qos2Remove_acts h .complete

end Handler

/-! ## The handler as a sender -/

namespace SessionLink

/-- The handler's messages as those of a sender. -/
def abs (handler : Handler) (sid : SessionId) (link : SessionLink α) : Handshake.Link UInt16 where
  toChannel := link.toChannel
  phase := link.phase handler sid

variable {handler : Handler} {sid : SessionId} {link : SessionLink α} {b : Broker α}
  {phase : UInt16 → Option Phase} {packets : List OutPacket}

theorem phase_advance (h : HandlerStep handler sid link.broker phase packets b) :
    (link.advance handler sid b).phase handler sid = phase := by
  change handler.phase b (b.sessions sid).clientId = phase
  rw [h.clientId]
  exact h.phase

theorem abs_advance (h : HandlerStep handler sid link.broker phase packets b)
    {owner : UInt16 → Nat}
    (howner : ∀ packetId, (if link.phase handler sid packetId = none ∧ phase packetId ≠ none
      then link.steps else link.owner packetId) = owner packetId) :
    (link.advance handler sid b).abs handler sid =
      { link.abs handler sid with
        owner, phase
        steps := link.steps + 1
        down := link.down ++
          (queued sid link.broker b).filterMap (handler.packet? owner link.steps) } := by
  have howner' : (link.advance handler sid b).owner = owner := by
    ext1 packetId
    rw [← howner packetId, ← h.phase]
    rfl
  have hdown : (link.advance handler sid b).down = link.down ++
      (queued sid link.broker b).filterMap (handler.packet? owner link.steps) := by
    rw [← howner']
    rfl
  unfold abs
  rw [phase_advance h, ← hdown, ← howner']
  rfl

theorem abs_advance_of_kept (h : HandlerStep handler sid link.broker phase packets b)
    (hkept : ∀ packetId, link.phase handler sid packetId = none → phase packetId = none) :
    (link.advance handler sid b).abs handler sid =
      { link.abs handler sid with
        phase
        steps := link.steps + 1
        down := link.down ++
          (queued sid link.broker b).filterMap (handler.packet? link.owner link.steps) } := by
  apply abs_advance h
  intro packetId
  apply if_neg
  exact fun hnew => hnew.2 (hkept packetId hnew.1)

theorem abs_advance_of_start {packetId : UInt16} (hfree : link.phase handler sid packetId = none)
    (h : HandlerStep handler sid link.broker
      (Function.update (link.phase handler sid) packetId (some handler.first)) packets b) :
    (link.advance handler sid b).abs handler sid =
      { (link.abs handler sid).start handler.first packetId with
        down := link.down ++ (queued sid link.broker b).filterMap
          (handler.packet? (Function.update link.owner packetId link.steps) link.steps) } := by
  apply abs_advance h
  intro other
  by_cases hid : other = packetId
  · rw [hid, Function.update_self, Handshake.Link.owner_start_self]
    exact if_pos ⟨hfree, nofun⟩
  · rw [Function.update_of_ne hid, Handshake.Link.owner_start_of_ne hid]
    exact if_neg fun hnew => hnew.2 hnew.1

theorem run_forget {packetId : UInt16} (h : HandlerStep handler sid link.broker
      (Function.update (link.phase handler sid) packetId none) [] b)
    (fresh : Handshake.Link UInt16 → UInt16 → Prop) :
    Relation.ReflTransGen (Step handler.first fresh) (link.abs handler sid)
      ((link.advance handler sid b).abs handler sid) := by
  rw [abs_advance_of_kept h, List.sublist_nil.mp h.packets, List.filterMap_nil, List.append_nil]
  · exact .tail (.single (.tick _)) (.forget _ packetId)
  · intro other hnone
    rw [Function.update_apply, hnone, ite_self]

/-- A step of the handler is a sequence of the sender's. -/
theorem run_advance {cause : Cause} (h : Acts handler sid cause link.broker b)
    {fresh : Handshake.Link UInt16 → UInt16 → Prop}
    (hanswer : ∀ answer, cause = .answer answer → answer ∈ link.up)
    (hfresh : cause = .delivery → ∀ packetId, link.phase handler sid packetId = none →
      (link.advance handler sid b).phase handler sid packetId ≠ none →
      fresh (link.abs handler sid) packetId) :
    Relation.ReflTransGen (Step handler.first fresh) (link.abs handler sid)
      ((link.advance handler sid b).abs handler sid) := by
  obtain ⟨phase, packets, heffect, hstep⟩ := h
  have hpackets := hstep.packets
  cases heffect with
  | quiet =>
      rw [abs_advance_of_kept hstep fun _ hnone => hnone, List.sublist_nil.mp hpackets,
        List.filterMap_nil, List.append_nil]
      exact .single (.tick _)
  | plain hpacket =>
      rw [abs_advance_of_kept hstep fun _ hnone => hnone]
      rcases List.sublist_singleton.mp hpackets with hqueued | hqueued
      · rw [hqueued, List.filterMap_nil, List.append_nil]
        exact .single (.tick _)
      · rw [hqueued, List.filterMap_cons_some (hpacket _ _), List.filterMap_nil]
        exact .single (.plain _)
  | start hfree hpacket =>
      rename_i packetId packet
      have hpresent : (link.advance handler sid b).phase handler sid packetId ≠ none := by
        rw [phase_advance hstep, Function.update_self]
        exact nofun
      have hstart : Step handler.first fresh (link.abs handler sid) _ :=
        .start _ packetId hfree (hfresh rfl packetId hfree hpresent)
      rw [abs_advance_of_start hfree hstep]
      rcases List.sublist_singleton.mp hpackets with hqueued | hqueued
      · rw [hqueued, List.filterMap_nil, List.append_nil]
        exact .single hstart
      · rw [hqueued, List.filterMap_cons_some (hpacket _ _), List.filterMap_nil]
        exact .tail (.single hstart)
          (.send _ packetId handler.first (Handshake.Link.phase_start_self _ _ _))
  | resend hphase hpacket =>
      rw [abs_advance_of_kept hstep fun _ hnone => hnone]
      rcases List.sublist_singleton.mp hpackets with hqueued | hqueued
      · rw [hqueued, List.filterMap_nil, List.append_nil]
        exact .single (.tick _)
      · rw [hqueued, List.filterMap_cons_some (hpacket _ _), List.filterMap_nil]
        exact .tail (.single (.tick _)) (.send _ _ _ hphase)
  | giveUp => exact run_forget hstep fresh
  | release hphase =>
      rename_i packetId
      have hreceived : Step handler.first fresh (link.abs handler sid) _ :=
        .received _ packetId (hanswer _ rfl) hphase
      rw [abs_advance_of_kept hstep]
      · rcases List.sublist_singleton.mp hpackets with hqueued | hqueued
        · rw [hqueued, List.filterMap_nil, List.append_nil]
          exact .tail (.single hreceived) (.tick _)
        · have hpacket (owner : UInt16 → Nat) (number : Nat) :
              handler.packet? owner number (.pubrel packetId) = some (.release packetId) := rfl
          rw [hqueued, List.filterMap_cons_some (hpacket _ _), List.filterMap_nil]
          exact .tail (.tail (.single hreceived) (.tick _))
            (.send _ packetId .released (Handshake.Link.phase_setPhase_self _ _ _))
      · intro other hnone
        rw [Function.update_of_ne]
        · exact hnone
        · rintro rfl
          exact hphase hnone
  | complete => exact run_forget hstep fresh

theorem stored_advance {cause : Cause} (h : Acts handler sid cause link.broker b) :
    handler.Stored sid (link.advance handler sid b).broker := by
  obtain ⟨phase, packets, _, hstep⟩ := h
  exact hstep.stored

theorem clientId_written (sid : SessionId) (b : Broker α) :
    ((b.modifySession sid Session.onWrite).sessions sid).clientId = (b.sessions sid).clientId := by
  rw [Broker.sessions_modifySession_self, plumbing_onWrite.clientId]

/-- Every step of the connection is a sequence of steps of the sender and the
receiver. -/
theorem run_step (env : Env α) (hstored : handler.Stored sid link.broker)
    (fresh : Handshake.Link UInt16 → UInt16 → Prop) (e : LinkEvent)
    (hfresh : ∀ pub qos, e = .deliver pub qos → ∀ packetId,
      link.phase handler sid packetId = none →
      (link.step env handler sid e).phase handler sid packetId ≠ none →
      fresh (link.abs handler sid) packetId) :
    handler.Stored sid (link.step env handler sid e).broker ∧
      Relation.ReflTransGen (Step handler.first fresh) (link.abs handler sid)
        ((link.step env handler sid e).abs handler sid) := by
  cases e with
  | deliver pub qos =>
      have hacts := Handler.deliverTo_acts hstored env pub qos
      exact ⟨stored_advance hacts, run_advance hacts nofun fun _ => hfresh pub qos rfl⟩
  | retry packetId =>
      have hacts := Handler.retryMessage_acts hstored env packetId
      exact ⟨stored_advance hacts, run_advance hacts nofun nofun⟩
  | acknowledge =>
      unfold step
      cases hup : link.up with
      | nil => exact ⟨hstored, .refl⟩
      | cons answer rest =>
          have hacts := Handler.acknowledge_acts hstored env answer
          have hmem : ∀ answer', Cause.answer answer = .answer answer' → answer' ∈ link.up := by
            rintro answer' ⟨⟩
            rw [hup]
            exact List.mem_cons_self
          have hnext : Step handler.first fresh
              ((link.advance handler sid (handler.acknowledge env (link.clientId sid) answer
                link.broker)).abs handler sid) _ := .next _
          refine ⟨stored_advance hacts, (run_advance hacts hmem nofun).tail ?_⟩
          change Step _ _ _ (Handshake.Link.setUp link.up.tail _) at hnext
          rw [hup] at hnext
          exact hnext
  | receive => exact ⟨hstored, .single (.receive _)⟩
  | written =>
      have hclient := clientId_written sid link.broker
      have habs : (link.step env handler sid .written).abs handler sid = link.abs handler sid := by
        unfold abs SessionLink.phase clientId step
        dsimp only
        rw [hclient]
        rfl
      rw [habs]
      refine ⟨?_, .refl⟩
      unfold Handler.Stored step
      dsimp only
      rw [hclient]
      exact hstored

end SessionLink

/-! ## What every run of the connection keeps -/

section

variable {env : Env α} {handler : Handler} {sid : SessionId} {link : SessionLink α}

theorem linkSystem_init (env : Env α) (h : (linkSystem env handler sid).init link) :
    handler.Stored sid link.broker ∧ link.abs handler sid = {} := by
  obtain ⟨hchannel, hreserved, hnone⟩ := h
  constructor
  · cases handler with
    | qos1 =>
        refine ⟨hreserved, ?_⟩
        intro packetId msg hmsg
        exact absurd ((hnone packetId).symm.trans (qos1_phase_of_message? hmsg)) nofun
    | qos2 =>
        refine ⟨hreserved, ?_⟩
        intro packetId msg hmsg
        exact absurd ((hnone packetId).symm.trans (qos2_phase_of_message? hmsg)) nofun
  · unfold SessionLink.abs
    rw [hchannel, funext hnone]

/-- At QoS 2 a subscriber accepts every message at most once. -/
theorem qos2_accepted_at_most_once (h : (linkSystem env .qos2 sid).Reachable link) :
    link.receiver.accepted.Nodup := by
  have hinv := h.invariant
    (P := fun link => Handler.qos2.Stored sid link.broker ∧ Handshake.Once (link.abs .qos2 sid))
    ?_ ?_
  · exact hinv.2.accepted_nodup
  · intro link hinit
    obtain ⟨hstored, habs⟩ := linkSystem_init env hinit
    rw [habs]
    exact ⟨hstored, .empty⟩
  · intro link e hlink _
    have hfirst : Handler.qos2.first ≠ .offered := nofun
    obtain ⟨hstored, hrun⟩ := SessionLink.run_step env hlink.1 (fun _ _ => True) e
      fun _ _ _ _ _ _ => trivial
    exact ⟨hstored, hlink.2.run hfirst hrun⟩

end

def freshLink : SessionLink Unit where
  broker := ((brokerSystem defaultEnv).after { auth := () }
    [.accept [], .read 0 (connectBytes true [0x63]), .turn 0, .turn 0]).toBroker

theorem freshLink_init (handler : Handler) : (linkSystem defaultEnv handler 0).init freshLink := by
  have hpending : freshLink.broker.delivery.pending = ∅ := by decide +kernel
  have houtgoing : freshLink.broker.delivery.outgoing = ∅ := by decide +kernel
  refine ⟨rfl, ?_, ?_⟩
  · unfold Handler.Reserved
    rw [hpending, houtgoing]
    cases handler with
    | qos1 => exact ClientTable.reserved_empty
    | qos2 => exact ClientTable.reserved_empty
  · intro packetId
    unfold SessionLink.phase Handler.phase
    rw [hpending, houtgoing]
    cases handler with
    | qos1 => rfl
    | qos2 => rfl

theorem freshLink_reachable (handler : Handler) (es : List LinkEvent) :
    (linkSystem defaultEnv handler 0).Reachable
      ((linkSystem defaultEnv handler 0).after freshLink es) := by
  apply System.Reachable.of_allowed (freshLink_init handler)
  exact System.allowed_of_enabled (fun _ _ => trivial) _ _

def sampleMessage (qos : Nat) : PublishPacket := { topic := [0x74], payload := [0x6d], qos }

/-- Two copies of a QoS 2 message are acknowledged, and the next message gets
its id before the second acknowledgement has arrived. -/
def staleQos2Events : List LinkEvent :=
  [.deliver (sampleMessage 2) 2, .retry 1, .receive, .receive, .acknowledge, .receive,
    .acknowledge, .receive, .acknowledge, .deliver (sampleMessage 2) 2]

theorem qos2_accepted_at_most_once_resent :
    ((linkSystem defaultEnv .qos2 0).after freshLink
        (staleQos2Events ++ [.receive])).receiver.accepted = [0, 5] ∧
      ((linkSystem defaultEnv .qos2 0).after freshLink
        (staleQos2Events ++ [.receive])).receiver.accepted.Nodup :=
  ⟨by decide +kernel, qos2_accepted_at_most_once (freshLink_reachable .qos2 _)⟩

/-! ## Acknowledged messages -/

/-- The next packet from the subscriber, if it takes a message out of flight, is
about a message that the subscriber has accepted. -/
def AckReceived (handler : Handler) (sid : SessionId) (link : SessionLink α) : Prop :=
  ∀ packetId rest, link.up = .completed packetId :: rest →
    link.phase handler sid packetId ≠ none → link.owner packetId ∈ link.receiver.accepted

/-- When a message is delivered, the id that it gets is neither on the way nor held by the
subscriber. -/
def SettledDelivery (env : Env α) (handler : Handler) (sid : SessionId) (link : SessionLink α)
    (e : LinkEvent) : Prop :=
  ∀ pub qos, e = .deliver pub qos → ∀ packetId, link.phase handler sid packetId = none →
    (link.step env handler sid e).phase handler sid packetId ≠ none → link.Unused packetId

/-- A message that an acknowledgement takes out of flight was accepted, if no id
is used again while there is still something about it on the way. -/
theorem acknowledged_was_accepted {env : Env α} {handler : Handler} {sid : SessionId}
    {link : SessionLink α}
    (h : ((linkSystem env handler sid).restrict (SettledDelivery env handler sid)).Reachable link) :
    AckReceived handler sid link := by
  have hinv := h.invariant
    (P := fun link => handler.Stored sid link.broker ∧
      Handshake.Faithful (link.abs handler sid)) ?_ ?_
  · intro packetId rest hup hphase
    have hmem : Answer.completed packetId ∈ link.up := by
      rw [hup]
      exact List.mem_cons_self
    exact hinv.2.up _ hmem hphase
  · intro link hinit
    obtain ⟨hstored, habs⟩ := linkSystem_init env hinit
    rw [habs]
    exact ⟨hstored, .empty⟩
  · intro link e hlink henabled
    have hfirst : handler.first ≠ .released := by
      cases handler <;> exact nofun
    obtain ⟨hstored, hrun⟩ := SessionLink.run_step env hlink.1 (fun link id => link.Unused id) e
      henabled.2
    exact ⟨hstored, hlink.2.run hfirst hrun⟩

/-- A QoS 1 message is sent twice, and the next message gets its id before the
second acknowledgement has arrived. -/
def staleQos1Events : List LinkEvent :=
  [.deliver (sampleMessage 1) 1, .retry 1, .receive, .receive, .acknowledge,
    .deliver (sampleMessage 1) 1]

/-- An acknowledgement of another message takes a message out of flight that has
not arrived. -/
theorem stale_acknowledgement_counts :
    (linkSystem defaultEnv .qos1 0).Reachable
        ((linkSystem defaultEnv .qos1 0).after freshLink staleQos1Events) ∧
      ¬AckReceived .qos1 0 ((linkSystem defaultEnv .qos1 0).after freshLink staleQos1Events) ∧
      (linkSystem defaultEnv .qos2 0).Reachable
        ((linkSystem defaultEnv .qos2 0).after freshLink staleQos2Events) ∧
      ¬AckReceived .qos2 0 ((linkSystem defaultEnv .qos2 0).after freshLink staleQos2Events) := by
  refine ⟨freshLink_reachable _ _, ?_, freshLink_reachable _ _, ?_⟩
  · intro hack
    exact absurd (hack 1 [] (by decide +kernel) (by decide +kernel)) (by decide +kernel)
  · intro hack
    exact absurd (hack 1 [] (by decide +kernel) (by decide +kernel)) (by decide +kernel)

theorem settledDelivery_of_empty {env : Env α} {handler : Handler} {sid : SessionId}
    {link : SessionLink α} (hdown : link.down = []) (hup : link.up = [])
    (hheld : link.receiver.held = ∅) (e : LinkEvent) :
    SettledDelivery env handler sid link e := by
  intro pub qos _ packetId _ _
  constructor
  · rw [hdown]
    exact fun _ h => nomatch h
  · rw [hup]
    exact fun _ h => nomatch h
  · rw [hheld]
    exact Finset.notMem_empty _

def inTurnEvents : List LinkEvent :=
  [.deliver (sampleMessage 1) 1, .receive, .acknowledge, .deliver (sampleMessage 1) 1, .receive]

theorem acknowledged_was_accepted_in_turn :
    ((linkSystem defaultEnv .qos1 0).after freshLink inTurnEvents).up = [.completed 1] ∧
      AckReceived .qos1 0 ((linkSystem defaultEnv .qos1 0).after freshLink inTurnEvents) := by
  have hallowed : ((linkSystem defaultEnv .qos1 0).restrict
      (SettledDelivery defaultEnv .qos1 0)).Allowed freshLink inTurnEvents := by
    refine ⟨⟨trivial, ?_⟩, ⟨trivial, nofun⟩, ⟨trivial, nofun⟩, ⟨trivial, ?_⟩, ⟨trivial, nofun⟩,
      trivial⟩
    · apply settledDelivery_of_empty <;> decide +kernel
    · apply settledDelivery_of_empty <;> decide +kernel
  refine ⟨by decide +kernel, ?_⟩
  exact acknowledged_was_accepted (.of_allowed (freshLink_init .qos1) hallowed)

end JellyBroker
