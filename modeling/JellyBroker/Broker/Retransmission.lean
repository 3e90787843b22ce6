import JellyBroker.Broker.FanOut
import JellyBroker.Broker.HandlerCalls
import JellyBroker.Broker.Retries
import JellyBroker.Broker.RoundTrip
/-!
# Retransmissions

What a retry sends again, compared with what was first sent of the message.
`Qos2Handler` builds the PUBLISH anew with the DUP flag, and after a PUBREC it
only repeats the PUBREL.  `Qos1Handler` keeps the packet that it sent first and
sends that packet again, so the DUP flag is never set.
-/

namespace JellyBroker

open JellyBroker.Lib JellyBroker.Packet JellyBroker.Qos JellyBroker.Topic JellyBroker.Utils

variable {α : Type}

/-! ## Decoding -/

def decodePublish (bytes : Bytes) : Option PublishPacket :=
  match Session.decodeHeader bytes with
  | .error _ => none
  | .ok (hdr, body) =>
      if hdr.type = some .publish then (PublishPacket.parse hdr body).toOption.map Prod.fst
      else none

def dupFlag (bytes : Bytes) : Bool :=
  match bytes with
  | [] => false
  | byte1 :: _ => byte1 &&& 0x08 ≠ 0

def markDup (pub : PublishPacket) : PublishPacket := { pub with dup := true }

/-- What was sent again has the DUP flag, and apart from it decodes to what was
sent first. -/
structure MarkedDup (first resent : OutPacket) : Prop where
  same : decodePublish resent.bytes = (decodePublish first.bytes).map markDup
  marked : dupFlag resent.bytes = true

theorem parse_markDup (hdr : FixedHeader) :
    PublishPacket.parse { hdr with dup := true } = markDup <$> PublishPacket.parse hdr := by
  unfold PublishPacket.parse
  by_cases hqos : hdr.qos > 0
  · simp only [hqos, if_true, map_bind]
    congr 1
    funext topic
    congr 1
    funext packetId
    split_ifs
    · rfl
    · simp only [map_bind, map_pure]
      rfl
  · simp only [hqos, if_false, map_bind]
    congr 1
    funext topic
    congr 1
    funext packetId
    split_ifs
    · rfl
    · simp only [map_bind, map_pure]
      rfl

theorem toOption_map_read {β γ : Type} (f : β → γ) (x : Reader β) (buf : Bytes) :
    ((f <$> x) buf).toOption.map Prod.fst = ((x buf).toOption.map Prod.fst).map f := by
  change (x buf >>= fun read => pure (f read.1, read.2)).toOption.map Prod.fst = _
  cases x buf with
  | error e => rfl
  | ok read => rfl

theorem decodePublish_wrap (flags : UInt8) (body : Bytes) :
    decodePublish (OutPacket.wrap .publish flags body) =
      (Reader.remainingLength (writeRemainingLength body.length ++ body)).toOption.bind fun read =>
        (PublishPacket.parse (fixedHeader .publish flags read.1) read.2).toOption.map Prod.fst := by
  unfold decodePublish
  rw [decodeHeader_wrap_eq]
  cases Reader.remainingLength (writeRemainingLength body.length ++ body) with
  | error e => rfl
  | ok read => rfl

theorem markedDup_publish {qos : Nat} (hqos : qos ≤ 2) (topic payload : Bytes) (retain : Bool)
    (packetId : UInt16) :
    MarkedDup (.publish topic payload qos retain false packetId)
      (.publish topic payload qos retain true packetId) where
  same := by
    unfold OutPacket.bytes
    rw [decodePublish_wrap, decodePublish_wrap, Option.map_bind]
    congr 1
    funext read
    have hheader : fixedHeader .publish (OutPacket.publishFlags qos retain true) read.1 =
        { fixedHeader .publish (OutPacket.publishFlags qos retain false) read.1 with
          dup := true } := by
      rw [fixedHeader_publish hqos, fixedHeader_publish hqos]
    rw [hheader, parse_markDup]
    exact toOption_map_read _ _ _
  marked := by
    have hflag := (firstByte_fields .publish (OutPacket.publishFlags qos retain true)).2.1
    change decide (firstByte .publish (OutPacket.publishFlags qos retain true) &&& 0x08 ≠ 0) = true
    rw [hflag]
    interval_cases qos <;> cases retain <;> rfl

theorem not_markedDup_of_unset {qos : Nat} (hqos : qos ≤ 2) (first : OutPacket)
    (topic payload : Bytes) (retain : Bool) (packetId : UInt16) :
    ¬MarkedDup first (.publish topic payload qos retain false packetId) := by
  intro h
  have hmarked :
      decide (firstByte .publish (OutPacket.publishFlags qos retain false) &&& 0x08 ≠ 0) = true :=
    h.marked
  rw [(firstByte_fields _ _).2.1] at hmarked
  interval_cases qos <;> cases retain <;> cases hmarked

/-! ## The messages of the handlers -/

def Packet.OutPacket.publishId? : OutPacket → Option UInt16
  | publish _ _ _ _ _ packetId => some packetId
  | _ => none

namespace Handler

/-- What was first sent of a message. -/
def transmission (packetId : UInt16) : (handler : Handler) → handler.Message → OutPacket
  | qos1, msg => PendingMessage.publishPacket msg
  | qos2, msg =>
      .publish (OutgoingMessage.topic msg) (OutgoingMessage.payload msg) 2 false false packetId

def retryPacket (packetId : UInt16) : (handler : Handler) → handler.Message → OutPacket
  | qos1, msg => PendingMessage.publishPacket msg
  | qos2, msg => Qos2Handler.retryPacket packetId msg

def Released : (handler : Handler) → handler.Message → Prop
  | qos1, _ => False
  | qos2, msg => OutgoingMessage.state msg = .pubrecReceived

structure Follows (handler : Handler) (packetId : UInt16) (msg msg' : handler.Message) : Prop where
  transmission : handler.transmission packetId msg' = handler.transmission packetId msg
  released : handler.Released msg → handler.Released msg'

theorem follows_withRetryCount (handler : Handler) (packetId : UInt16) (count : Int)
    (msg : handler.Message) : handler.Follows packetId msg (Retried.withRetryCount count msg) := by
  cases handler with
  | qos1 => exact ⟨rfl, id⟩
  | qos2 => exact ⟨rfl, id⟩

/-- What was handed over, if it is a PUBLISH with an id, is the first transmission
of the message in flight under that id. -/
def Tracks (handler : Handler) (b : Broker α) (call : Handed) : Prop :=
  ∀ packetId, call.packet.publishId? = some packetId → packetId ≠ 0 →
    ∃ msg, (handler.table b).message? (b.sessions call.session).clientId packetId = some msg ∧
      handler.transmission packetId msg = call.packet

end Handler

/-- New messages were put in flight for all that was handed over. -/
structure TracksCalls (handler : Handler) (b b' : Broker α) : Prop where
  clientId : ∀ sid, (b'.sessions sid).clientId = (b.sessions sid).clientId
  sends : Sends (handler.table b) (handler.table b')
  handed : ∃ calls, b'.history.handed = b.history.handed ++ calls ∧
    ∀ call ∈ calls, handler.Tracks b' call

namespace TracksCalls

variable {handler : Handler}

theorem refl (b : Broker α) : TracksCalls handler b b where
  clientId _ := rfl
  sends := .none
  handed := ⟨[], (List.append_nil _).symm, nofun⟩

theorem trans {b b' b'' : Broker α} (hreserved : (handler.table b).Reserved)
    (h : TracksCalls handler b b') (h' : TracksCalls handler b' b'') :
    TracksCalls handler b b'' where
  clientId sid := (h'.clientId sid).trans (h.clientId sid)
  sends := h.sends.trans h'.sends
  handed := by
    obtain ⟨calls, hhanded, hcalls⟩ := h.handed
    obtain ⟨calls', hhanded', hcalls'⟩ := h'.handed
    refine ⟨calls ++ calls', by rw [hhanded', hhanded, List.append_assoc], ?_⟩
    intro call hcall
    rcases List.mem_append.mp hcall with hfirst | hsecond
    · intro packetId hid hpid
      obtain ⟨msg, hmsg, hpacket⟩ := hcalls call hfirst packetId hid hpid
      refine ⟨msg, ?_, hpacket⟩
      rw [h'.clientId]
      exact h'.sends.message?_of_some (h.sends.reserved hreserved) hmsg
    · exact hcalls' call hsecond

/-- A turn that prepares the broker and hands one packet to the session of the
entry. -/
theorem of_deliver {env : Env α} {sid : SessionId} {packet : OutPacket} {b prepared : Broker α}
    (hsends : Sends (handler.table b) (handler.table prepared))
    (hprepared : Prepared b prepared)
    (htracks : handler.Tracks prepared ⟨sid, packet, Session.accepts env.cfg (b.sessions sid)⟩) :
    TracksCalls handler b (Session.deliver env sid packet prepared) := by
  have hkeeps := keepsInFlight_frame.deliver env sid packet prepared
  have htable : handler.table (Session.deliver env sid packet prepared) = handler.table prepared :=
    handler.table_of_same (sameTables_deliver env sid packet prepared)
  constructor
  · intro other
    rw [hkeeps.clientId, hprepared.sessions]
  · rw [htable]
    exact hsends
  · refine ⟨_, by rw [handed_deliver, hprepared.handed], ?_⟩
    intro call hcall packetId hid hpid
    rw [List.mem_singleton.mp hcall] at hid ⊢
    rw [htable, hkeeps.clientId]
    rw [hprepared.sessions] at hid ⊢
    have hfound := htracks packetId hid hpid
    rwa [hprepared.sessions] at hfound

theorem of_skip {b b' : Broker α} (hsends : Sends (handler.table b) (handler.table b'))
    (h : Prepared b b') : TracksCalls handler b b' where
  clientId sid := by rw [h.sessions]
  sends := hsends
  handed := ⟨[], by rw [h.handed, List.append_nil], nofun⟩

theorem qos1DeliverTo (env : Env α) (pub : PublishPacket) (entry : SubscriberEntry)
    (b : Broker α) : TracksCalls .qos1 b (Qos1Handler.deliverTo env pub entry b) := by
  have hsends : Sends b.delivery.pending (b.delivery.pending.send
      (b.sessions entry.session).clientId (sentQos1 pub entry.session)) :=
    Sends.none.send _ fun _ => rfl
  unfold Qos1Handler.deliverTo
  unfold ClientTable.send at hsends
  dsimp only at hsends ⊢
  split_ifs at hsends ⊢ with hpid
  · exact of_skip hsends ⟨rfl, rfl⟩
  · refine of_deliver hsends ⟨rfl, rfl⟩ ?_
    intro packetId hid _
    cases hid
    exact ⟨_, (ClientTable.message?_send _ _ _ _ _).trans (if_pos ⟨rfl, rfl⟩), rfl⟩

theorem qos2DeliverTo (env : Env α) (pub : PublishPacket) (entry : SubscriberEntry)
    (b : Broker α) : TracksCalls .qos2 b (Qos2Handler.deliverTo env pub entry b) := by
  have hsends : Sends b.delivery.outgoing (b.delivery.outgoing.send
      (b.sessions entry.session).clientId fun _ => sentQos2 pub entry.session) :=
    Sends.none.send _ fun _ => rfl
  have hnoted := sameTables_noteUntracked env entry.session (min entry.qos pub.qos) 0 b
  unfold ClientTable.send at hsends
  unfold Qos2Handler.deliverTo
  dsimp only at hsends ⊢
  by_cases hgranted : min entry.qos pub.qos < 2
  · rw [if_pos hgranted]
    refine of_deliver ?_ (prepared_noteUntracked _ _ _ _ _) ?_
    · rw [Handler.qos2.table_of_same hnoted]
      exact .none
    · intro packetId hid hpid
      exact absurd (Option.some.inj hid).symm hpid
  · rw [if_neg hgranted]
    split_ifs at hsends ⊢ with hpid
    · exact of_skip hsends ⟨rfl, rfl⟩
    · refine of_deliver hsends ⟨rfl, rfl⟩ ?_
      intro packetId hid _
      cases hid
      exact ⟨_, (ClientTable.message?_send _ _ _ _ _).trans (if_pos ⟨rfl, rfl⟩), rfl⟩

theorem deliverTo (handler : Handler) (env : Env α) (pub : PublishPacket) (entry : SubscriberEntry)
    (b : Broker α) : TracksCalls handler b (handler.deliverTo env pub entry b) := by
  cases handler with
  | qos1 => exact qos1DeliverTo env pub entry b
  | qos2 => exact qos2DeliverTo env pub entry b

theorem deliver (handler : Handler) (env : Env α) (pub : PublishPacket) {b : Broker α}
    (hreserved : (handler.table b).Reserved) :
    TracksCalls handler b (handler.deliver env pub b) := by
  have hloop : handler.deliver env pub b =
      fanOut (handler.deliverTo env pub) (b.tree.lookup pub.topic) b := by
    cases handler with
    | qos1 => rfl
    | qos2 => rfl
  rw [hloop]
  generalize b.tree.lookup pub.topic = entries
  clear hloop
  induction entries generalizing b with
  | nil => exact refl b
  | cons entry rest ih =>
      rw [fanOut_cons]
      split_ifs
      · have hturn := deliverTo handler env pub entry b
        exact hturn.trans hreserved (ih (hturn.sends.reserved hreserved))
      · exact ih hreserved

end TracksCalls

/-! ## Later calls -/

theorem eq_acknowledge_of_event {handler : Handler} {call : HandlerCall α} {clientId : Bytes}
    {packetId : UInt16} (h : call.tableEvent handler = .acknowledge clientId packetId) :
    ∃ kind : Acknowledgement, kind.handler = handler ∧
      call = .acknowledge kind clientId packetId := by
  cases call with
  | acknowledge kind clientId' packetId' =>
      dsimp only [HandlerCall.tableEvent] at h
      split_ifs at h with hkind
      cases h
      exact ⟨kind, hkind, rfl⟩
  | deliver handler' pub =>
      dsimp only [HandlerCall.tableEvent] at h
      split_ifs at h
  | retry handler' clientId' packetId' =>
      dsimp only [HandlerCall.tableEvent] at h
      split_ifs at h
  | other b => cases h

theorem message?_handlePubrec (env : Env α) {clientId : Bytes} {packetId : UInt16} {b : Broker α}
    {msg : OutgoingMessage} (hmsg : b.delivery.outgoing.message? clientId packetId = some msg) :
    (Qos2Handler.handlePubrec env clientId packetId b).delivery.outgoing.message? clientId
        packetId = some { msg with state := .pubrecReceived, retryCount := 0 } := by
  rw [(tables_handlePubrec env clientId packetId b).2]
  unfold ClientTable.update
  rw [hmsg]
  exact (ClientTable.message?_setMessage hmsg _ _ _).trans (if_pos ⟨rfl, rfl⟩)

/-- A message that is still in flight after a call is the message from before. -/
theorem follows_of_call (env : Env α) {handler : Handler} {b : Broker α} {call : HandlerCall α}
    {clientId : Bytes} {packetId : UInt16} {msg msg' : handler.Message}
    (hreserved : (handler.table b).Reserved) (henabled : call.Enabled b)
    (hmsg : (handler.table b).message? clientId packetId = some msg)
    (hmsg' : (handler.table (call.step env b)).message? clientId packetId = some msg') :
    handler.Follows packetId msg msg' := by
  have hstep := tableStep_of_call env handler henabled
  by_cases hack : call.tableEvent handler = .acknowledge clientId packetId
  · obtain ⟨kind, rfl, rfl⟩ := eq_acknowledge_of_event hack
    -- all but PUBREC take the message out of flight
    have hremoved {μ : Type} {table : ClientTable μ} {msg : μ}
        (h : (table.remove clientId packetId).message? clientId packetId = some msg) : False := by
      rw [ClientTable.message?_remove, if_pos ⟨rfl, rfl⟩] at h
      cases h
    cases kind with
    | puback => exact (hremoved hmsg').elim
    | pubrec =>
        have hreceived := message?_handlePubrec env hmsg
        cases hreceived.symm.trans hmsg'
        exact ⟨rfl, fun _ => rfl⟩
    | pubrel =>
        change (Qos2Handler.handlePubrel clientId packetId b).delivery.outgoing.message? _ _ = _
          at hmsg'
        rw [(tables_handlePubrel clientId packetId b).2] at hmsg'
        exact (hremoved hmsg').elim
    | pubcomp => exact (hremoved hmsg').elim
  · by_cases htick : call.tableEvent handler = .tick clientId packetId
    · rw [htick] at hstep
      rw [hstep.message?_of_tick hmsg] at hmsg'
      split_ifs at hmsg'
      cases hmsg'
      exact handler.follows_withRetryCount packetId _ msg
    · have hsame := hstep.message?_of_not_for hreserved hmsg (not_or.mpr ⟨hack, htick⟩)
      cases hsame.symm.trans hmsg'
      exact ⟨rfl, id⟩

/-- The call puts no message in flight under the id while the id is free. -/
def KeepsFree (env : Env α) (handler : Handler) (clientId : Bytes) (packetId : UInt16)
    (b : Broker α) (call : HandlerCall α) : Prop :=
  (handler.table b).message? clientId packetId = none →
    (handler.table (call.step env b)).message? clientId packetId = none

theorem keepsFree_of_event (env : Env α) {handler : Handler} {b : Broker α} {call : HandlerCall α}
    (henabled : call.Enabled b) (hevent : call.tableEvent handler ≠ .sends) (clientId : Bytes)
    (packetId : UInt16) : KeepsFree env handler clientId packetId b call := by
  intro hnone
  exact (tableStep_of_call env handler henabled).message?_of_none hevent hnone

section Later

variable {env : Env α} {handler : Handler} {clientId : Bytes} {packetId : UInt16}
  {b b' : Broker α} {calls : List (HandlerCall α)}
  (hreserved : (handler.table b).Reserved)
  (hrun : ((handlerCalls env).restrict (KeepsFree env handler clientId packetId)).Run b calls b')

include hreserved hrun

theorem reserved_of_run : (handler.table b').Reserved := by
  refine hrun.preserves (P := fun b => (handler.table b).Reserved) ?_ hreserved
  intro b call h henabled
  exact (tableStep_of_call env handler henabled.1).reserved h

/-- While the id is not given to another message, what is in flight under it is
the message that was first sent. -/
theorem message_of_run {first : OutPacket}
    (hfirst : ∀ msg, (handler.table b).message? clientId packetId = some msg →
      handler.transmission packetId msg = first)
    {msg : handler.Message} (hmsg : (handler.table b').message? clientId packetId = some msg) :
    handler.transmission packetId msg = first ∧
      (handler = .qos2 → .acknowledge .pubrec clientId packetId ∈ calls →
        handler.Released msg) := by
  induction hrun generalizing msg with
  | nil => exact ⟨hfirst msg hmsg, fun _ hmem => absurd hmem List.not_mem_nil⟩
  | @snoc calls t call hbefore henabled ih =>
      have hreserved' := reserved_of_run hreserved hbefore
      cases hold : (handler.table t).message? clientId packetId with
      | none =>
          have hnone := henabled.2 hold
          cases hnone.symm.trans hmsg
      | some old =>
          obtain ⟨htransmission, hreleased⟩ := ih hold
          have hfollows := follows_of_call env hreserved' henabled.1 hold hmsg
          refine ⟨hfollows.transmission.trans htransmission, ?_⟩
          intro hqos2 hmem
          rcases List.mem_append.mp hmem with hearlier | hlast
          · exact hfollows.released (hreleased hqos2 hearlier)
          · cases List.mem_singleton.mp hlast
            cases hqos2
            cases (message?_handlePubrec env hold).symm.trans hmsg
            rfl

end Later

/-! ## Retries -/

theorem packet_of_retry (env : Env α) {handler : Handler} {clientId : Bytes} {packetId : UInt16}
    {b : Broker α} {resent : Handed}
    (h : resent ∈ callsSince b (handler.retryMessage env clientId packetId b)) :
    ∃ msg, (handler.table b).message? clientId packetId = some msg ∧
      resent.packet = handler.retryPacket packetId msg := by
  cases handler with
  | qos1 =>
      have hcalls := callsSince_append (handed_retryQos1 env clientId packetId b)
      have hresent := hcalls ▸ h
      obtain ⟨retried, hretried, _, _, rfl⟩ := mem_retryCalls.mp hresent
      obtain ⟨msg, hmsg, rfl⟩ := Option.map_eq_some_iff.mp hretried
      exact ⟨msg, hmsg, rfl⟩
  | qos2 =>
      have hcalls := callsSince_append (handed_retryQos2 env clientId packetId b)
      have hresent := hcalls ▸ h
      obtain ⟨retried, hretried, _, _, rfl⟩ := mem_retryCalls.mp hresent
      obtain ⟨msg, hmsg, rfl⟩ := Option.map_eq_some_iff.mp hretried
      exact ⟨msg, hmsg, rfl⟩

/-- What a retry of a message sends, after the message was first sent and some
calls were made.  A PUBLISH is the one that was first sent, with the DUP flag.
After a PUBREC for `Qos2Handler` only the PUBREL is sent. -/
structure Retransmits (handler : Handler) (clientId : Bytes) (packetId : UInt16)
    (calls : List (HandlerCall α)) (first resent : OutPacket) : Prop where
  publish : resent.type = .publish → MarkedDup first resent
  released : handler = .qos2 → .acknowledge .pubrec clientId packetId ∈ calls →
    resent = .pubrel packetId

theorem handsUnmarked_qos1 (env : Env α) (pub : PublishPacket) (b : Broker α) :
    Hands (fun packet => ∃ packetId,
      packet = .publish pub.topic pub.payload 1 pub.retain false packetId) b
      (Qos1Handler.deliver env pub b) := by
  apply Hands.fanOut
  intro b' entry _
  obtain ⟨packetId, hturn⟩ := qos1DeliverTo_handsOver env pub entry b'
  exact hturn.hands ⟨packetId, rfl⟩

theorem retransmits_qos2 {clientId : Bytes} {packetId : UInt16} {calls : List (HandlerCall α)}
    {msg : OutgoingMessage}
    (hreleased : .acknowledge .pubrec clientId packetId ∈ calls → msg.state = .pubrecReceived) :
    Retransmits .qos2 clientId packetId calls (Handler.qos2.transmission packetId msg)
      (Qos2Handler.retryPacket packetId msg) where
  publish htype := by
    unfold Qos2Handler.retryPacket at htype ⊢
    cases hstate : msg.state with
    | publishSent => exact markedDup_publish (Nat.le_refl 2) _ _ _ _
    | pubrecReceived =>
        rw [hstate] at htype
        cases htype
  released _ hmem := by
    unfold Qos2Handler.retryPacket
    rw [hreleased hmem]

/-- Take any PUBLISH that a handler hands over for a message, and any later calls
that do not give its id to another message.  What a retry then sends again is the
same PUBLISH with the DUP flag, and no PUBLISH after a PUBREC, if and only if the
handler is `Qos2Handler`. -/
theorem retransmits_iff_qos2 (env : Env α) (handler : Handler) {b : Broker α}
    (hb : (handlerCalls env).Reachable b) (pub : PublishPacket) {first : Handed}
    {packetId : UInt16} (hfirst : first ∈ callsSince b (handler.deliver env pub b))
    (hid : first.packet.publishId? = some packetId) {calls : List (HandlerCall α)} {b' : Broker α}
    (hrun : ((handlerCalls env).restrict
      (KeepsFree env handler (b.sessions first.session).clientId packetId)).Run
      (handler.deliver env pub b) calls b')
    {resent : Handed} (hresent : resent ∈ callsSince b'
      (handler.retryMessage env (b.sessions first.session).clientId packetId b')) :
    Retransmits handler (b.sessions first.session).clientId packetId calls first.packet
        resent.packet ↔ handler = .qos2 := by
  have hreserved := reserved_of_calls hb handler
  have htracks := TracksCalls.deliver handler env pub hreserved
  have hsent := htracks.sends.reserved hreserved
  obtain ⟨handed, hhanded, hhandedTracks⟩ := htracks.handed
  rw [callsSince_append hhanded] at hfirst
  -- an id of 0 is never in flight, and any other was given to this message
  have hunder (msg) (hmsg : (handler.table (handler.deliver env pub b)).message?
      (b.sessions first.session).clientId packetId = some msg) :
      handler.transmission packetId msg = first.packet := by
    have hpid : packetId ≠ 0 := by
      rw [← ClientTable.message?_record] at hmsg
      exact (hsent.record _ packetId msg hmsg).2
    obtain ⟨sent, hfound, hpacket⟩ := hhandedTracks first hfirst packetId hid hpid
    rw [htracks.clientId] at hfound
    cases hfound.symm.trans hmsg
    exact hpacket
  obtain ⟨msg, hmsg, hpacket⟩ := packet_of_retry env hresent
  obtain ⟨htransmission, hreleased⟩ := message_of_run hsent hrun hunder hmsg
  rw [hpacket]
  cases handler with
  | qos1 =>
      constructor
      · intro h
        obtain ⟨handed', hhanded', hunmarked⟩ := handsUnmarked_qos1 env pub b
        have hsame : handed = handed' := List.append_cancel_left (hhanded.symm.trans hhanded')
        obtain ⟨packetId', hshape⟩ := hunmarked first (hsame ▸ hfirst)
        have hresent' : Handler.qos1.retryPacket packetId msg = first.packet := htransmission
        rw [hresent', hshape] at h
        exact absurd (h.publish rfl) (not_markedDup_of_unset (by decide) _ _ _ _ _)
      · intro h
        cases h
  | qos2 =>
      refine ⟨fun _ => rfl, fun _ => ?_⟩
      rw [← htransmission]
      exact retransmits_qos2 (hreleased rfl)

/-- A message of QoS 2 is sent again with the DUP flag, and after a PUBREC the
PUBREL is sent. -/
theorem retransmits_qos2_sample :
    let b := ((brokerSystem defaultEnv).after { auth := () } (loopbackEvents 2)).toBroker
    let pub := { loopbackMessage with qos := 2 }
    let first : Handed := ⟨0, .publish [0x74] [0x6d] 2 false false 1, true⟩
    let sent := Handler.qos2.deliver defaultEnv pub b
    let calls : List (HandlerCall Unit) := [.retry .qos2 [0x63] 1]
    let calls' : List (HandlerCall Unit) := calls ++ [.acknowledge .pubrec [0x63] 1]
    first ∈ callsSince b sent ∧
      Retransmits .qos2 [0x63] 1 calls first.packet (.publish [0x74] [0x6d] 2 false true 1) ∧
      Retransmits .qos2 [0x63] 1 calls' first.packet (.pubrel 1) := by
  intro b pub first sent calls calls'
  have hn : (brokerSystem defaultEnv).Reachable
      ((brokerSystem defaultEnv).after { auth := () } (loopbackEvents 2)) := by
    refine .of_allowed ⟨(), rfl⟩ ⟨⟨rfl, rfl, trivial⟩, ⟨rfl, rfl, rfl, ?_, ?_⟩, ⟨?_, ?_⟩, ⟨?_, ?_⟩,
      trivial⟩ <;> decide +kernel
  have hfirst : first ∈ callsSince b sent := by decide +kernel
  have hclient : (b.sessions 0).clientId = [0x63] := by decide +kernel
  have hfree (t : Broker Unit) (call : HandlerCall Unit) (henabled : call.Enabled t)
      (hevent : call.tableEvent .qos2 ≠ .sends) :
      KeepsFree defaultEnv .qos2 (b.sessions 0).clientId 1 t call :=
    keepsFree_of_event defaultEnv henabled hevent _ 1
  let after := ((handlerCalls defaultEnv).restrict
    (KeepsFree defaultEnv .qos2 (b.sessions 0).clientId 1)).after sent
  have hretried : ((handlerCalls defaultEnv).restrict
      (KeepsFree defaultEnv .qos2 (b.sessions 0).clientId 1)).Run sent calls (after calls) :=
    .of_allowed ⟨⟨trivial, hfree _ _ trivial (by decide)⟩, trivial⟩
  have hreceived : ((handlerCalls defaultEnv).restrict
      (KeepsFree defaultEnv .qos2 (b.sessions 0).clientId 1)).Run sent calls' (after calls') :=
    .of_allowed ⟨⟨trivial, hfree _ _ trivial (by decide)⟩,
      ⟨trivial, hfree _ _ trivial (by decide)⟩, trivial⟩
  have hpublish : (⟨0, .publish [0x74] [0x6d] 2 false true 1, true⟩ : Handed) ∈
      callsSince (after calls) (Handler.qos2.retryMessage defaultEnv (b.sessions 0).clientId 1
        (after calls)) := by
    decide +kernel
  have hpubrel : (⟨0, .pubrel 1, true⟩ : Handed) ∈
      callsSince (after calls') (Handler.qos2.retryMessage defaultEnv (b.sessions 0).clientId 1
        (after calls')) := by
    decide +kernel
  have hmarked := (retransmits_iff_qos2 defaultEnv .qos2 (calls_reachable hn) pub hfirst rfl
    hretried hpublish).mpr rfl
  have hreleased := (retransmits_iff_qos2 defaultEnv .qos2 (calls_reachable hn) pub hfirst rfl
    hreceived hpubrel).mpr rfl
  rw [← hclient]
  exact ⟨hfirst, hmarked, hreleased⟩

/-- A message of QoS 1 is sent again without the DUP flag. -/
theorem qos1_retransmits_unmarked :
    let n := (brokerSystem defaultEnv).after { auth := () } (loopbackEvents 1 ++ [.turn 0, .turn 0])
    let packet : OutPacket := .publish [0x74] [0x6d] 1 false false 1
    (brokerSystem defaultEnv).Reachable n ∧ n.toBroker.Enabled (.retryQos1 [0x63] 1) ∧
      ⟨0, packet, true⟩ ∈ n.history.handed ∧
      callsSince n.toBroker (n.step defaultEnv (.retryQos1 [0x63] 1)).toBroker =
        [⟨0, packet, true⟩] ∧
      decodePublish packet.bytes =
        some { topic := [0x74], payload := [0x6d], qos := 1, packetId := 1 } ∧
      ¬MarkedDup packet packet := by
  intro n packet
  refine ⟨?_, ?_, ?_, ?_, ?_, ?_⟩
  · refine .of_allowed ⟨(), rfl⟩ ⟨⟨rfl, rfl, trivial⟩, ⟨rfl, rfl, rfl, ?_, ?_⟩, ⟨?_, ?_⟩, ⟨?_, ?_⟩,
      ⟨?_, ?_⟩, ⟨?_, ?_⟩, trivial⟩ <;> decide +kernel
  · refine ⟨?_, ?_, trivial⟩ <;> decide +kernel
  · decide +kernel
  · decide +kernel
  · decide +kernel
  · exact not_markedDup_of_unset (by decide) _ _ _ _ _

end JellyBroker
