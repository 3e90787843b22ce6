import JellyBroker.Broker.Link
import JellyBroker.Broker.Unconnected
/-!
# Requests and their answers

A PUBLISH of QoS 1 or 2, a SUBSCRIBE, an UNSUBSCRIBE and a PINGREQ ask for an
answer.  The session that handles one queues the answer or is closed, unless the
request is a PUBLISH that `handle_publish` drops.
-/

namespace JellyBroker

open JellyBroker.Packet JellyBroker.Topic

variable {α : Type}

def Packet.OutPacket.isAnswer : OutPacket → Bool
  | .puback _ | .pubrec _ | .suback _ _ | .unsuback _ | .pingresp => true
  | _ => false

inductive Request where
  | publish (pub : PublishPacket)
  | subscribe (sub : SubscribePacket)
  | unsubscribe (unsub : UnsubscribePacket)
  | pingreq

namespace Request

def AnsweredBy : Request → OutPacket → Prop
  | publish pub, packet =>
      packet = if pub.qos = 1 then .puback pub.packetId else .pubrec pub.packetId
  | subscribe sub, packet => ∃ codes, packet = .suback sub.packetId codes
  | unsubscribe unsub, packet => packet = .unsuback unsub.packetId
  | pingreq, packet => packet = .pingresp

def Next (env : Env α) (n : Runtime α) (sid : SessionId) : Request → Prop
  | publish pub => (pub.qos = 1 ∨ pub.qos = 2) ∧ ∃ hdr body rest, NextPacket env n sid hdr body ∧
      hdr.type = some .publish ∧ PublishPacket.parse hdr body = .ok (pub, rest)
  | subscribe sub => ∃ hdr body rest, NextPacket env n sid hdr body ∧
      hdr.type = some .subscribe ∧ SubscribePacket.parse body = .ok (sub, rest)
  | unsubscribe unsub => ∃ hdr body rest, NextPacket env n sid hdr body ∧
      hdr.type = some .unsubscribe ∧ UnsubscribePacket.parse body = .ok (unsub, rest)
  | pingreq => ∃ hdr body, NextPacket env n sid hdr body ∧ hdr.type = some .pingreq

end Request

/-- Among what the session queues is exactly one answer, and it answers the
request; or the session is not connected any more. -/
def Settles (sid : SessionId) (request : Request) (b b' : Broker α) : Prop :=
  (∃ packet, request.AnsweredBy packet ∧ (queued sid b b').filter OutPacket.isAnswer = [packet]) ∨
    (b'.sessions sid).connected = false

/-- `handle_publish` drops the message: it is denied, or its topic is not valid. -/
def Drops (env : Env α) (sid : SessionId) (b : Broker α) (pub : PublishPacket) : Prop :=
  ∃ access auth, env.auth.checkAcl b.auth (b.sessions sid).username pub.topic .write =
    (.ok access, auth) ∧ (access = .none ∨ isValidTopic env.cfg pub.topic = false)

/-! ## Handing over an answer -/

abbrev NoAnswer (b b' : Broker α) : Prop :=
  Hands (fun packet => packet.isAnswer = false) b b'

theorem connected_deliver_of_refused {env : Env α} {sid : SessionId} {b : Broker α}
    (h : Session.accepts env.cfg (b.sessions sid) = false) (packet : OutPacket) :
    ((Session.deliver env sid packet b).sessions sid).connected = false := by
  unfold Session.deliver
  dsimp only
  split_ifs with hidle hfull
  · simpa using hidle
  · exact Session.connected_close sid _
  · have haccepts : Session.accepts env.cfg (b.sessions sid) = true := by
      change ¬(!(b.sessions sid).connected) = true at hidle
      change ¬((b.sessions sid).writeQueue.length : Int) ≥ env.cfg.maxWriteQueueSize at hfull
      simp only [Bool.not_eq_true', Bool.not_eq_false] at hidle
      simp only [Session.accepts, hidle, Bool.true_and, decide_eq_true_eq]
      omega
    rw [h] at haccepts
    cases haccepts

theorem filter_isAnswer_of_hands {sid : SessionId} {calls : List Handed}
    (h : ∀ call ∈ calls, call.packet.isAnswer = false) :
    (((calls.filter fun call => call.session = sid ∧ call.accepted).map (·.packet)).filter
      OutPacket.isAnswer) = [] := by
  rw [List.filter_eq_nil_iff]
  intro packet hpacket
  obtain ⟨call, hcall, rfl⟩ := List.mem_map.mp hpacket
  rw [h call (List.mem_filter.mp hcall).1]
  decide

/-- An answer that the session takes between packets that are none is the one that is
queued. -/
theorem answers_of_deliver (env : Env α) {sid : SessionId} {packet : OutPacket}
    {b b₁ b₂ : Broker α} (hanswer : packet.isAnswer = true) (hbefore : NoAnswer b b₁)
    (hafter : NoAnswer (Session.deliver env sid packet b₁) b₂)
    (haccepts : Session.accepts env.cfg (b₁.sessions sid) = true) :
    (queued sid b b₂).filter OutPacket.isAnswer = [packet] := by
  obtain ⟨calls, hhanded, hcalls⟩ := hbefore
  obtain ⟨calls', hhanded', hcalls'⟩ := hafter
  unfold queued
  rw [hhanded', handed_deliver, hhanded, haccepts, List.append_assoc, List.append_assoc,
    List.drop_left, List.filter_append, List.filter_append, List.map_append, List.map_append,
    List.filter_append, List.filter_append, filter_isAnswer_of_hands hcalls,
    filter_isAnswer_of_hands hcalls']
  simp [hanswer]

/-- If the session does not take it, the session is closed. -/
theorem settles_of_deliver (env : Env α) {sid : SessionId} {request : Request}
    {packet : OutPacket} {b b₁ b₂ : Broker α} (hrequest : request.AnsweredBy packet)
    (hanswer : packet.isAnswer = true) (hbefore : NoAnswer b b₁)
    (hafter : NoAnswer (Session.deliver env sid packet b₁) b₂)
    (hstays : StaysUnconnected sid (Session.deliver env sid packet b₁) b₂) :
    Settles sid request b b₂ := by
  by_cases haccepts : Session.accepts env.cfg (b₁.sessions sid) = true
  · exact Or.inl ⟨packet, hrequest, answers_of_deliver env hanswer hbefore hafter haccepts⟩
  · rw [Bool.not_eq_true] at haccepts
    exact Or.inr (hstays (connected_deliver_of_refused haccepts packet))

theorem settles_of_deliver_last (env : Env α) {sid : SessionId} {request : Request}
    {packet : OutPacket} {b b₁ : Broker α} (hrequest : request.AnsweredBy packet)
    (hanswer : packet.isAnswer = true) (hbefore : NoAnswer b b₁) :
    Settles sid request b (Session.deliver env sid packet b₁) :=
  settles_of_deliver env hrequest hanswer hbefore (.of_same rfl) id

/-! ## The handlers -/

theorem noAnswer_qos1Deliver (env : Env α) (pub : PublishPacket) (b : Broker α) :
    NoAnswer b (Qos1Handler.deliver env pub b) := by
  apply Hands.fanOut
  intro b' entry _
  obtain ⟨packetId, hhands⟩ := qos1DeliverTo_handsOver env pub entry b'
  exact hhands.hands rfl

theorem handed_storeRetained (env : Env α) (pub : PublishPacket) (b : Broker α) :
    (Session.storeRetained env pub b).history.handed = b.history.handed := by
  unfold Session.storeRetained
  split_ifs <;> rfl

theorem settles_acceptPublish {env : Env α} {sid : SessionId} {pub : PublishPacket}
    (hqos : pub.qos = 1 ∨ pub.qos = 2) {b b' : Broker α}
    (hsame : b'.history.handed = b.history.handed) :
    Settles sid (.publish pub) b (Session.acceptPublish env sid pub b') := by
  have hstored : NoAnswer b (Session.storeRetained env pub
      { b' with counters.received := b'.counters.received + 1 }) :=
    .of_same ((handed_storeRetained env pub _).trans hsame)
  unfold Session.acceptPublish Session.routePublish
  generalize Session.storeRetained env pub
    { b' with counters.received := b'.counters.received + 1 } = stored at hstored ⊢
  rcases hqos with hone | htwo
  · simp only [hone, DeliveryEngine.publishFromClient]
    have hanswer : (Request.publish pub).AnsweredBy (.puback pub.packetId) := (if_pos hone).symm
    have hframe := staysUnconnected_frame (α := α) sid
    have hafter := noAnswer_qos1Deliver env pub
      (Session.deliver env sid (.puback pub.packetId) stored)
    have hstays := (hframe.delivery env).qos1Deliver (staysUnconnected_tables sid).toPendingFree
      pub (Session.deliver env sid (.puback pub.packetId) stored)
    exact settles_of_deliver env hanswer rfl hstored (hafter.trans (.of_same rfl))
      (hframe.trans hstays id)
  · simp only [htwo]
    unfold Session.receiveQos2
    dsimp only
    have hanswer : (Request.publish pub).AnsweredBy (.pubrec pub.packetId) := by
      change OutPacket.pubrec pub.packetId = if pub.qos = 1 then _ else _
      rw [if_neg]
      omega
    have hnoted (b : Broker α) : NoAnswer b (Session.noteAnswer env sid
        (stored.sessions sid).clientId pub.packetId .pubrec b) := by
      apply Hands.of_same
      unfold Session.noteAnswer
      split_ifs <;> rfl
    have hobserved : NoAnswer b (stored.observe (.noteIngest (stored.sessions sid).clientId
        pub.packetId (.publish ⟨pub.topic, pub.payload, pub.qos⟩))) :=
      hstored.trans (.of_same rfl)
    exact settles_of_deliver env hanswer rfl (hobserved.trans (hnoted _)) (.of_same rfl) id

theorem noAnswer_deliverRetained (env : Env α) (sid : SessionId) (filter : Bytes) (b : Broker α) :
    NoAnswer b (Session.deliverRetained env sid filter b) := by
  apply Hands.foldl
  intro b' row _
  unfold Session.deliverRetainedTo
  split_ifs
  · have hnoted := (prepared_noteUntracked env sid row.2.qos 0 b').handed
    refine Hands.trans (.of_same hnoted) (.deliver env sid ?_ _)
    rfl
  · exact .of_same rfl

theorem noAnswer_subscribeTo (env : Env α) (sid : SessionId) (filter : SubscribePacket.Filter)
    (b : Broker α) : NoAnswer b (Session.subscribeTo env sid filter b).1 := by
  have hturn := subscribeTo_turn env sid filter b
  generalize Session.subscribeTo env sid filter b = turn at hturn ⊢
  cases hturn with
  | invalid => exact .of_same rfl
  | thrown => exact .of_same rfl
  | refused => exact .of_same rfl
  | granted =>
      have hrecord : NoAnswer b (recordSubscription sid filter (accessChecked env sid filter b)) :=
        .of_same rfl
      exact hrecord.trans (noAnswer_deliverRetained env sid filter.topicFilter _)

theorem subscribeAll_cases (env : Env α) (sid : SessionId) (packetId : UInt16)
    (filters : List SubscribePacket.Filter) (codes : List SubackCode) (b : Broker α) :
    (∃ b' e, Session.subscribeAll env sid packetId filters codes b = (b', some e)) ∨
      ∃ b' codes', NoAnswer b b' ∧ Session.subscribeAll env sid packetId filters codes b =
        (Session.deliver env sid (.suback packetId codes') b', none) := by
  induction filters generalizing codes b with
  | nil => exact Or.inr ⟨b, codes, .of_same rfl, rfl⟩
  | cons filter rest ih =>
      have hfirst := noAnswer_subscribeTo env sid filter b
      unfold Session.subscribeAll
      rcases hsubscribe : Session.subscribeTo env sid filter b with ⟨b', e | code⟩
      · exact Or.inl ⟨b', e, rfl⟩
      · rw [hsubscribe] at hfirst
        rcases ih (codes ++ [code]) b' with hthrown | ⟨b'', codes', hrest, hlast⟩
        · exact Or.inl hthrown
        · exact Or.inr ⟨b'', codes', hfirst.trans hrest, hlast⟩

theorem handed_unsubscribeAll (sid : SessionId) (filters : List Bytes) (b : Broker α) :
    (filters.foldl (fun b filter => Session.unsubscribeFrom sid filter b) b).history.handed =
      b.history.handed := by
  induction filters generalizing b with
  | nil => rfl
  | cons filter rest ih => exact ih _

theorem connected_catchException (sid : SessionId) (b : Broker α) (e : Exception) :
    ((Session.catchException sid (b, some e)).sessions sid).connected = false :=
  Session.connected_close sid b

/-! ## Turns -/

section Turn

variable {env : Env α} {n : Runtime α} {sid : SessionId}
  (hconn : (n.sessions sid).connected = true)

include hconn

theorem turn_of_publish {hdr : FixedHeader} {body rest : Bytes} {pub : PublishPacket}
    (hnext : NextPacket env n sid hdr body) (htype : hdr.type = some .publish)
    (hparse : PublishPacket.parse hdr body = .ok (pub, rest)) :
    ∃ packet, (n.step env (.turn sid)).toBroker = Session.catchException sid
      (match env.auth.checkAcl n.auth (n.sessions sid).username pub.topic .write with
      | (.error text, auth) =>
          ((n.toBroker.observe (.noteHandled sid packet)).setAuth auth, some (.authenticator text))
      | (.ok access, auth) =>
          if access = .none then
            (Session.countDropped ((n.toBroker.observe (.noteHandled sid packet)).setAuth auth),
              none)
          else if !isValidTopic env.cfg pub.topic then
            (Session.countDropped ((n.toBroker.observe (.noteHandled sid packet)).setAuth auth),
              none)
          else
            (Session.acceptPublish env sid pub
              ((n.toBroker.observe (.noteHandled sid packet)).setAuth auth), none)) := by
  obtain ⟨packet, hturn⟩ := onReadTurn_of_next hnext
  refine ⟨packet, hturn.trans ?_⟩
  have hconn' : ¬(!((n.toBroker.observe (.noteHandled sid packet)).sessions sid).connected) =
      true := by
    change ¬(!(n.sessions sid).connected) = true
    rw [hconn]
    decide
  simp only [Session.dispatch, htype, Session.handlePublish, if_neg hconn', hparse]
  rfl

theorem not_settles_of_dropped {request : Request} {b : Broker α}
    (hhanded : b.history.handed = n.history.handed)
    (hsession : (b.sessions sid).connected = (n.sessions sid).connected) :
    ¬Settles sid request n.toBroker b := by
  rintro (⟨packet, _, hqueued⟩ | hclosed)
  · unfold queued at hqueued
    rw [hhanded, List.drop_length] at hqueued
    cases hqueued
  · rw [hsession, hconn] at hclosed
    cases hclosed

theorem settles_publish_iff {pub : PublishPacket} (hnext : (Request.publish pub).Next env n sid) :
    Settles sid (.publish pub) n.toBroker (n.step env (.turn sid)).toBroker ↔
      ¬Drops env sid n.toBroker pub := by
  obtain ⟨hqos, hdr, body, rest, hnext, htype, hparse⟩ := hnext
  obtain ⟨packet, hturn⟩ := turn_of_publish hconn hnext htype hparse
  rw [hturn]
  unfold Drops
  rcases env.auth.checkAcl n.auth (n.sessions sid).username pub.topic .write with
    ⟨text | access, auth⟩
  · refine iff_of_true (Or.inr (connected_catchException sid _ _)) ?_
    rintro ⟨access, auth', hacl, _⟩
    cases hacl
  · dsimp only
    split_ifs with hdenied hinvalid
    · refine iff_of_false (not_settles_of_dropped hconn rfl rfl) ?_
      exact not_not.mpr ⟨access, auth, rfl, Or.inl hdenied⟩
    · refine iff_of_false (not_settles_of_dropped hconn rfl rfl) ?_
      exact not_not.mpr ⟨access, auth, rfl, Or.inr (by simpa using hinvalid)⟩
    · refine iff_of_true (settles_acceptPublish hqos rfl) ?_
      rintro ⟨access', auth', hacl, hdropped⟩
      rcases hdropped with hdenied' | hinvalid'
      · rw [← Except.ok.inj (Prod.mk.inj hacl).1] at hdenied'
        exact hdenied hdenied'
      · rw [hinvalid'] at hinvalid
        exact hinvalid rfl

theorem settles_of_dispatch {request : Request} {hdr : FixedHeader} {body : Bytes}
    (hnext : NextPacket env n sid hdr body)
    (h : ∀ noted : Broker α, (noted.sessions sid).connected = true → NoAnswer n.toBroker noted →
      Settles sid request n.toBroker
        (Session.catchException sid (Session.dispatch env sid hdr body noted))) :
    Settles sid request n.toBroker (n.step env (.turn sid)).toBroker := by
  obtain ⟨packet, hturn⟩ := onReadTurn_of_next hnext
  change Settles sid request n.toBroker (Session.onReadTurn env sid n).toBroker
  rw [hturn]
  exact h (n.toBroker.observe (.noteHandled sid packet)) hconn (.of_same rfl)

theorem settles_subscribe {sub : SubscribePacket} (hnext : (Request.subscribe sub).Next env n sid) :
    Settles sid (.subscribe sub) n.toBroker (n.step env (.turn sid)).toBroker := by
  obtain ⟨hdr, body, rest, hnext, htype, hparse⟩ := hnext
  apply settles_of_dispatch hconn hnext
  intro noted hconn' hnoted
  simp only [Session.dispatch, htype, Session.handleSubscribe, hconn', Bool.not_true,
    Bool.false_eq_true, if_false, hparse]
  rcases subscribeAll_cases env sid sub.packetId sub.filters [] noted with
    ⟨b', e, hthrown⟩ | ⟨b', codes, hbefore, hlast⟩
  · rw [hthrown]
    exact Or.inr (connected_catchException sid _ _)
  · rw [hlast]
    exact settles_of_deliver_last env ⟨codes, rfl⟩ rfl (hnoted.trans hbefore)

theorem settles_unsubscribe {unsub : UnsubscribePacket}
    (hnext : (Request.unsubscribe unsub).Next env n sid) :
    Settles sid (.unsubscribe unsub) n.toBroker (n.step env (.turn sid)).toBroker := by
  obtain ⟨hdr, body, rest, hnext, htype, hparse⟩ := hnext
  apply settles_of_dispatch hconn hnext
  intro noted hconn' hnoted
  simp only [Session.dispatch, htype, Session.handleUnsubscribe, hconn', Bool.not_true,
    Bool.false_eq_true, if_false, hparse]
  have hremoved : NoAnswer noted (unsub.topicFilters.foldl
      (fun b filter => Session.unsubscribeFrom sid filter b) noted) :=
    .of_same (handed_unsubscribeAll sid unsub.topicFilters noted)
  exact settles_of_deliver_last env rfl rfl (hnoted.trans hremoved)

theorem settles_pingreq (hnext : Request.pingreq.Next env n sid) :
    Settles sid .pingreq n.toBroker (n.step env (.turn sid)).toBroker := by
  obtain ⟨hdr, body, hnext, htype⟩ := hnext
  apply settles_of_dispatch hconn hnext
  intro noted hconn' hnoted
  simp only [Session.dispatch, htype, Session.handlePingreq, hconn', Bool.not_true,
    Bool.false_eq_true, if_false]
  exact settles_of_deliver_last env rfl rfl hnoted

end Turn

/-- A connected session answers a request with one packet or is closed, exactly
if the request is not a PUBLISH that is dropped. -/
theorem request_answered_iff (env : Env α) (n : Runtime α) (sid : SessionId)
    (hconn : (n.sessions sid).connected = true) (request : Request)
    (hnext : request.Next env n sid) :
    Settles sid request n.toBroker (n.step env (.turn sid)).toBroker ↔
      ∀ pub, request = .publish pub → ¬Drops env sid n.toBroker pub := by
  cases request with
  | publish pub =>
      rw [settles_publish_iff hconn hnext]
      constructor
      · intro hkept pub' heq
        rw [← Request.publish.inj heq]
        exact hkept
      · intro hkept
        exact hkept pub rfl
  | subscribe sub => exact iff_of_true (settles_subscribe hconn hnext) nofun
  | unsubscribe unsub => exact iff_of_true (settles_unsubscribe hconn hnext) nofun
  | pingreq => exact iff_of_true (settles_pingreq hconn hnext) nofun

/-- A message of QoS 1 to a valid topic. -/
theorem loopback_message_answered :
    let n := (brokerSystem defaultEnv).after { auth := () } (loopbackEvents 1)
    Settles 0 (.publish loopbackMessage) n.toBroker (n.step defaultEnv (.turn 0)).toBroker := by
  intro n
  have hnext : (Request.publish loopbackMessage).Next defaultEnv n 0 :=
    ⟨Or.inl rfl, _, _, [], ⟨(OutPacket.publish [0x74] [0x6d] 1 false false 7).bytes, {},
      by decide +kernel, rfl⟩, rfl, rfl⟩
  refine (request_answered_iff defaultEnv n 0 (by decide +kernel) _ hnext).mpr ?_
  rintro pub heq ⟨access, auth, hacl, hdropped⟩
  rw [← Request.publish.inj heq] at hacl hdropped
  rcases hdropped with hdenied | hinvalid
  · rw [← Except.ok.inj (Prod.mk.inj hacl).1] at hdenied
    cases hdenied
  · have hvalid : isValidTopic {} [0x74] = true := by decide +kernel
    rw [show isValidTopic {} [0x74] = false from hinvalid] at hvalid
    cases hvalid

def denyAll : Auth.Authenticator Unit where
  authenticate state _ _ _ := (.ok { success := true, reason := .accepted }, state)
  checkAcl state _ _ _ := (.ok .none, state)

def unansweredEvents (topic : Bytes) (qos : Nat) : List Event :=
  [.accept [0x69], .read 0 (connectBytes true [0x63] ++
    (OutPacket.publish topic [0x6d] qos false false 7).bytes), .turn 0]

/-- A message of QoS 1 to a topic with a wildcard, or one of QoS 2 that is
denied: nothing is queued and the session stays connected. -/
theorem publish_not_answered :
    let n := (brokerSystem defaultEnv).after { auth := () } (unansweredEvents [0x23] 1)
    let env : Env Unit := { auth := denyAll }
    let m := (brokerSystem env).after { auth := () } (unansweredEvents [0x74] 2)
    ((brokerSystem defaultEnv).Reachable n ∧ n.toBroker.Enabled (.turn 0) ∧
      (n.sessions 0).connected = true ∧
      (Request.publish { topic := [0x23], payload := [0x6d], qos := 1, packetId := 7 }).Next
        defaultEnv n 0 ∧
      queued 0 n.toBroker (n.step defaultEnv (.turn 0)).toBroker = [] ∧
      ((n.step defaultEnv (.turn 0)).sessions 0).connected = true) ∧
    (brokerSystem env).Reachable m ∧ m.toBroker.Enabled (.turn 0) ∧
      (m.sessions 0).connected = true ∧
      (Request.publish { topic := [0x74], payload := [0x6d], qos := 2, packetId := 7 }).Next
        env m 0 ∧
      queued 0 m.toBroker (m.step env (.turn 0)).toBroker = [] ∧
      ((m.step env (.turn 0)).sessions 0).connected = true := by
  intro n env m
  refine ⟨⟨?_, ⟨?_, ?_⟩, ?_, ?_, ?_, ?_⟩, ?_, ⟨?_, ?_⟩, ?_, ?_, ?_, ?_⟩
  · refine .of_allowed ⟨(), rfl⟩ ⟨⟨rfl, rfl, trivial⟩, ⟨rfl, rfl, rfl, ?_, ?_⟩, ⟨?_, ?_⟩,
      trivial⟩ <;> decide +kernel
  · decide +kernel
  · decide +kernel
  · decide +kernel
  · exact ⟨Or.inl rfl, _, _, [], ⟨(OutPacket.publish [0x23] [0x6d] 1 false false 7).bytes, {},
      by decide +kernel, rfl⟩, rfl, rfl⟩
  · decide +kernel
  · decide +kernel
  · refine .of_allowed ⟨(), rfl⟩ ⟨⟨rfl, rfl, trivial⟩, ⟨rfl, rfl, rfl, ?_, ?_⟩, ⟨?_, ?_⟩,
      trivial⟩ <;> decide +kernel
  · decide +kernel
  · decide +kernel
  · decide +kernel
  · exact ⟨Or.inr rfl, _, _, [], ⟨(OutPacket.publish [0x74] [0x6d] 2 false false 7).bytes, {},
      by decide +kernel, rfl⟩, rfl, rfl⟩
  · decide +kernel
  · decide +kernel

end JellyBroker
