import JellyBroker.Broker.Frame
import JellyBroker.Qos.InFlight
/-!
# What a fan-out hands to the sessions

Each turn of a loop over subscribers makes an entry in an in-flight table or
not, and passes at most one copy of the message to `Session::deliver`.  The
three handlers and the loop over retained messages are such loops.
-/

namespace JellyBroker

open JellyBroker.Packet JellyBroker.Qos JellyBroker.Topic

variable {α : Type}

/-! ## Delivering -/

theorem history_close (sid : SessionId) (b : Broker α) :
    (Session.close false sid b).history = b.history := by
  by_cases hconn : (b.sessions sid).connected = true
  · obtain ⟨tree, subManager, hclose⟩ := Session.close_of_connected hconn
    rw [hclose]
  · rw [Session.close_of_idle (by simpa using hconn)]

theorem handed_deliver (env : Env α) (sid : SessionId) (packet : OutPacket) (b : Broker α) :
    (Session.deliver env sid packet b).history.handed =
      b.history.handed ++ [⟨sid, packet, Session.accepts env.cfg (b.sessions sid)⟩] := by
  unfold Session.deliver
  dsimp only
  split_ifs
  · rfl
  · rw [history_close]
    rfl
  · rfl

theorem sessions_deliver_of_ne {sid other : SessionId} (h : other ≠ sid) (env : Env α)
    (packet : OutPacket) (b : Broker α) :
    (Session.deliver env sid packet b).sessions other = b.sessions other := by
  unfold Session.deliver
  dsimp only
  split_ifs
  · rfl
  · exact Session.sessions_close_of_ne h _
  · exact Broker.sessions_modifySession_of_ne h _ _

/-- The session is connected and its queue takes `count` more packets. -/
structure HasRoom (cfg : Config) (count : Nat) (session : Session) : Prop where
  connected : session.connected = true
  queue : (session.writeQueue.length : Int) + count ≤ cfg.maxWriteQueueSize

theorem accepts_iff_hasRoom (cfg : Config) (session : Session) :
    Session.accepts cfg session = true ↔ HasRoom cfg 1 session := by
  unfold Session.accepts
  rw [Bool.and_eq_true, decide_eq_true_eq]
  constructor
  · intro h
    refine ⟨h.1, ?_⟩
    omega
  · intro h
    refine ⟨h.connected, ?_⟩
    have := h.queue
    omega

theorem length_enqueue (packet : OutPacket) (session : Session) :
    (Session.enqueue packet session).writeQueue.length = session.writeQueue.length + 1 := by
  unfold Session.enqueue
  dsimp only
  split_ifs
  · rw [doWrite_eq, List.length_append, List.length_singleton]
  · rw [List.length_append, List.length_singleton]

theorem deliver_of_hasRoom {env : Env α} {sid : SessionId} {b : Broker α}
    (h : HasRoom env.cfg 1 (b.sessions sid)) (packet : OutPacket) :
    Session.deliver env sid packet b =
      (b.observe (.noteHanded ⟨sid, packet, true⟩)).modifySession sid
        (Session.enqueue packet) := by
  have hconn := h.connected
  have hqueue := h.queue
  have hopen : ¬((b.sessions sid).writeQueue.length : Int) ≥ env.cfg.maxWriteQueueSize := by omega
  have haccepts := (accepts_iff_hasRoom env.cfg (b.sessions sid)).mpr h
  unfold Session.deliver
  simp only [Broker.observe, hconn, haccepts, Bool.not_true, Bool.false_eq_true, if_false, hopen]

theorem HasRoom.deliver {env : Env α} {sid : SessionId} {b : Broker α} {count : Nat}
    (h : HasRoom env.cfg (count + 1) (b.sessions sid)) (packet : OutPacket) :
    HasRoom env.cfg count ((Session.deliver env sid packet b).sessions sid) := by
  have hqueue := h.queue
  have hone : HasRoom env.cfg 1 (b.sessions sid) := by
    refine ⟨h.connected, ?_⟩
    omega
  rw [deliver_of_hasRoom hone, Broker.sessions_modifySession_self]
  constructor
  · rw [(plumbing_enqueue packet).connected]
    exact h.connected
  · rw [length_enqueue]
    change ((((b.sessions sid).writeQueue.length + 1 : Nat) : Int)) + count ≤ _
    omega

/-! ## Turns -/

structure Prepared (b b' : Broker α) : Prop where
  sessions : b'.sessions = b.sessions
  handed : b'.history.handed = b.history.handed

/-- All that is handed to sessions between the two states satisfies the
predicate. -/
def Hands (P : OutPacket → Prop) (b b' : Broker α) : Prop :=
  ∃ calls, b'.history.handed = b.history.handed ++ calls ∧ ∀ call ∈ calls, P call.packet

namespace Hands

variable {P : OutPacket → Prop}

theorem of_same {b b' : Broker α} (h : b'.history.handed = b.history.handed) : Hands P b b' :=
  ⟨[], by rw [h, List.append_nil], fun _ hcall => nomatch hcall⟩

theorem trans {b b' b'' : Broker α} (h : Hands P b b') (h' : Hands P b' b'') : Hands P b b'' := by
  obtain ⟨calls, hhanded, hcalls⟩ := h
  obtain ⟨calls', hhanded', hcalls'⟩ := h'
  refine ⟨calls ++ calls', ?_, ?_⟩
  · rw [hhanded', hhanded, List.append_assoc]
  · intro call hcall
    rcases List.mem_append.mp hcall with hfirst | hsecond
    · exact hcalls call hfirst
    · exact hcalls' call hsecond

theorem deliver (env : Env α) (sid : SessionId) {packet : OutPacket} (h : P packet)
    (b : Broker α) : Hands P b (Session.deliver env sid packet b) := by
  refine ⟨_, handed_deliver env sid packet b, ?_⟩
  intro call hcall
  rw [List.mem_singleton.mp hcall]
  exact h

theorem foldl {β : Type} {turn : Broker α → β → Broker α} {xs : List β}
    (hturn : ∀ b, ∀ x ∈ xs, Hands P b (turn b x)) (b : Broker α) : Hands P b (xs.foldl turn b) := by
  refine List.foldlRecOn xs turn (.of_same rfl) ?_
  intro b' hkept x hx
  exact hkept.trans (hturn b' x hx)

theorem fanOut {turn : SubscriberEntry → Broker α → Broker α} {entries : List SubscriberEntry}
    (hturn : ∀ b, ∀ entry ∈ entries, Hands P b (turn entry b)) (b : Broker α) :
    Hands P b (JellyBroker.fanOut turn entries b) := by
  apply foldl
  intro b' entry hentry
  split_ifs
  · exact hturn b' entry hentry
  · exact .of_same rfl

end Hands

/-- A turn that prepares the broker and, unless it skips, passes one packet to
the session. -/
def HandsOver (env : Env α) (sid : SessionId) (packet : OutPacket) (skip : Prop)
    (b b' : Broker α) : Prop :=
  ∃ prepared, Prepared b prepared ∧
    (skip ∧ b' = prepared ∨ ¬skip ∧ b' = Session.deliver env sid packet prepared)

namespace HandsOver

variable {env : Env α} {sid : SessionId} {packet : OutPacket} {skip : Prop} {b b' : Broker α}

theorem of_skip (hskip : skip) (h : Prepared b b') : HandsOver env sid packet skip b b' :=
  ⟨b', h, Or.inl ⟨hskip, rfl⟩⟩

theorem of_deliver (hskip : ¬skip) (h : Prepared b b') :
    HandsOver env sid packet skip b (Session.deliver env sid packet b') :=
  ⟨b', h, Or.inr ⟨hskip, rfl⟩⟩

variable (h : HandsOver env sid packet skip b b')

include h

theorem sessions_of_ne {other : SessionId} (hne : other ≠ sid) :
    b'.sessions other = b.sessions other := by
  obtain ⟨prepared, hprepared, ⟨_, heq⟩ | ⟨_, heq⟩⟩ := h
  · rw [heq, hprepared.sessions]
  · rw [heq, sessions_deliver_of_ne hne, hprepared.sessions]

theorem hasRoom {count : Nat} (hroom : HasRoom env.cfg (count + 1) (b.sessions sid)) :
    HasRoom env.cfg count (b'.sessions sid) := by
  obtain ⟨prepared, hprepared, ⟨_, heq⟩ | ⟨_, heq⟩⟩ := h
  · rw [heq, hprepared.sessions]
    have hqueue := hroom.queue
    refine ⟨hroom.connected, ?_⟩
    omega
  · rw [heq]
    rw [← hprepared.sessions] at hroom
    exact hroom.deliver packet

theorem hands {P : OutPacket → Prop} (hpacket : P packet) : Hands P b b' := by
  obtain ⟨prepared, hprepared, ⟨_, heq⟩ | ⟨_, heq⟩⟩ := h
  · exact .of_same (heq ▸ hprepared.handed)
  · rw [heq]
    exact Hands.trans (.of_same hprepared.handed) (.deliver env sid hpacket prepared)

theorem handed_of_skip (hskip : skip) : b'.history.handed = b.history.handed := by
  obtain ⟨prepared, hprepared, ⟨_, heq⟩ | ⟨hnot, _⟩⟩ := h
  · rw [heq, hprepared.handed]
  · exact absurd hskip hnot

theorem handed_of_not_skip (hskip : ¬skip) :
    b'.history.handed =
      b.history.handed ++ [⟨sid, packet, Session.accepts env.cfg (b.sessions sid)⟩] := by
  obtain ⟨prepared, hprepared, ⟨hyes, _⟩ | ⟨_, heq⟩⟩ := h
  · exact absurd hyes hskip
  · rw [heq, handed_deliver, hprepared.sessions, hprepared.handed]

end HandsOver

/-- A turn of `Qos1Handler` sends a copy of QoS 1 with the retain flag of the
message, unless the client has no id left. -/
theorem qos1DeliverTo_handsOver (env : Env α) (pub : PublishPacket) (entry : SubscriberEntry)
    (b : Broker α) :
    ∃ packetId, HandsOver env entry.session
      (.publish pub.topic pub.payload 1 pub.retain false packetId)
      (b.delivery.pending.record (b.sessions entry.session).clientId).Exhausted b
      (Qos1Handler.deliverTo env pub entry b) := by
  rw [← allocatePacketId_eq_zero_iff]
  unfold Qos1Handler.deliverTo
  dsimp only
  split_ifs with hpid
  · exact ⟨0, .of_skip hpid ⟨rfl, rfl⟩⟩
  · exact ⟨_, .of_deliver hpid ⟨rfl, rfl⟩⟩

theorem prepared_noteUntracked (env : Env α) (sid : SessionId) (qos : Nat) (packetId : UInt16)
    (b : Broker α) : Prepared b (noteUntracked env sid qos packetId b) := by
  unfold noteUntracked
  split_ifs
  · exact ⟨rfl, rfl⟩
  · exact ⟨rfl, rfl⟩

/-- A turn of `Qos2Handler` sends a copy of the smaller QoS without a retain
flag, unless it needs an id and the client has none left. -/
theorem qos2DeliverTo_handsOver (env : Env α) (pub : PublishPacket) (entry : SubscriberEntry)
    (b : Broker α) :
    ∃ packetId, HandsOver env entry.session
      (.publish pub.topic pub.payload (min 2 (min entry.qos pub.qos)) false false packetId)
      (2 ≤ min entry.qos pub.qos ∧
        (b.delivery.outgoing.record (b.sessions entry.session).clientId).Exhausted) b
      (Qos2Handler.deliverTo env pub entry b) := by
  rw [← allocatePacketId_eq_zero_iff]
  unfold Qos2Handler.deliverTo
  dsimp only
  split_ifs with hgranted hpid
  · have hqos : min 2 (min entry.qos pub.qos) = min entry.qos pub.qos := by omega
    rw [hqos]
    refine ⟨0, .of_deliver ?_ (prepared_noteUntracked env entry.session _ 0 b)⟩
    omega
  · exact ⟨0, .of_skip ⟨by omega, hpid⟩ ⟨rfl, rfl⟩⟩
  · have hqos : min 2 (min entry.qos pub.qos) = 2 := by omega
    rw [hqos]
    exact ⟨_, .of_deliver (fun h => hpid h.2) ⟨rfl, rfl⟩⟩

/-! ## Loops -/

theorem fanOut_append (turn : SubscriberEntry → Broker α → Broker α)
    (first rest : List SubscriberEntry) (b : Broker α) :
    fanOut turn (first ++ rest) b = fanOut turn rest (fanOut turn first b) := by
  unfold fanOut
  rw [List.foldl_append]

/-- A loop keeps `P` if every turn does, given `Q` for its entry, and no turn
spoils `Q` for the entries to come. -/
theorem fanOut_invariant {turn : SubscriberEntry → Broker α → Broker α} {P : Broker α → Prop}
    {Q : SubscriberEntry → Broker α → Prop}
    (hturn : ∀ entry b, (b.sessions entry.session).alive = true → P b → Q entry b →
      P (turn entry b))
    (hkeeps : ∀ entry other b, Q other b → Q other (turn entry b))
    {entries : List SubscriberEntry} {b : Broker α} (h : P b)
    (hentries : ∀ entry ∈ entries, Q entry b) :
    P (fanOut turn entries b) := by
  induction entries generalizing b with
  | nil => exact h
  | cons entry rest ih =>
      change P (fanOut turn rest (if (b.sessions entry.session).alive then turn entry b else b))
      have hrest : ∀ other ∈ rest, Q other b :=
        fun other hother => hentries other (List.mem_cons_of_mem _ hother)
      split_ifs with halive
      · apply ih (hturn entry b halive h (hentries entry List.mem_cons_self))
        intro other hother
        exact hkeeps entry other b (hrest other hother)
      · exact ih h hrest

/-- A session with room for all its copies has the rest of the room after the
loop. -/
theorem HasRoom.fanOut {env : Env α} {turn : SubscriberEntry → Broker α → Broker α}
    (hturn : ∀ entry b, ∃ packet skip, HandsOver env entry.session packet skip b (turn entry b))
    {sid : SessionId} {count : Nat} {entries : List SubscriberEntry} {b : Broker α}
    (h : HasRoom env.cfg (count + entries.countP (·.session = sid)) (b.sessions sid)) :
    HasRoom env.cfg count ((JellyBroker.fanOut turn entries b).sessions sid) := by
  induction entries generalizing b with
  | nil => exact h
  | cons entry rest ih =>
      rw [List.countP_cons] at h
      have hqueue := h.queue
      change HasRoom env.cfg count ((JellyBroker.fanOut turn rest
        (if (b.sessions entry.session).alive then turn entry b else b)).sessions sid)
      apply ih
      obtain ⟨packet, skip, hhands⟩ := hturn entry b
      by_cases hown : entry.session = sid
      · simp only [hown, decide_true, if_true] at h hqueue
        rw [hown] at hhands ⊢
        split_ifs
        · exact hhands.hasRoom h
        · refine ⟨h.connected, ?_⟩
          omega
      · simp only [hown, decide_false, Bool.false_eq_true, if_false, Nat.add_zero] at h
        split_ifs
        · rw [hhands.sessions_of_ne (Ne.symm hown)]
          exact h
        · exact h

/-! ## One copy for each subscriber -/

/-- The turn of the handler that `publish_from_client` chooses. -/
def deliverCopy (env : Env α) (pub : PublishPacket) (entry : SubscriberEntry) (b : Broker α) :
    Broker α :=
  match pub.qos with
  | 0 => Session.deliver env entry.session (.publish pub.topic pub.payload 0 false false 0) b
  | 1 => Qos1Handler.deliverTo env pub entry b
  | _ => Qos2Handler.deliverTo env pub entry b

theorem publishFromClient_eq_fanOut (env : Env α) {pub : PublishPacket} (hqos : pub.qos ≤ 2)
    (b : Broker α) :
    DeliveryEngine.publishFromClient env pub b =
      fanOut (deliverCopy env pub) (b.tree.lookup pub.topic) b := by
  have hcases : pub.qos = 0 ∨ pub.qos = 1 ∨ pub.qos = 2 := by omega
  rcases hcases with h | h | h
  · simp only [DeliveryEngine.publishFromClient, h, Qos0Handler.deliver]
    congr 1
    funext entry b
    simp only [deliverCopy, h]
  · simp only [DeliveryEngine.publishFromClient, h, Qos1Handler.deliver]
    congr 1
    funext entry b
    simp only [deliverCopy, h]
  · simp only [DeliveryEngine.publishFromClient, h, Qos2Handler.deliver]
    congr 1
    funext entry b
    simp only [deliverCopy, h]

/-- The copy needs a packet id and the subscriber's client has none left. -/
def NoIdLeft (pub : PublishPacket) (entry : SubscriberEntry) (b : Broker α) : Prop :=
  match pub.qos with
  | 0 => False
  | 1 => (b.delivery.pending.record (b.sessions entry.session).clientId).Exhausted
  | _ => 2 ≤ min entry.qos pub.qos ∧
      (b.delivery.outgoing.record (b.sessions entry.session).clientId).Exhausted

/-- The QoS of the copy: `Qos1Handler` does not look at the subscription. -/
def copyQos (pub : PublishPacket) (entry : SubscriberEntry) : Nat :=
  if pub.qos = 1 then 1 else min pub.qos entry.qos

/-- The retain flag of the copy: `Qos1Handler` passes it on. -/
def copyRetain (pub : PublishPacket) : Bool := decide (pub.qos = 1) && pub.retain

theorem deliverCopy_handsOver (env : Env α) {pub : PublishPacket} (hqos : pub.qos ≤ 2)
    (entry : SubscriberEntry) (b : Broker α) :
    ∃ packetId, HandsOver env entry.session
      (.publish pub.topic pub.payload (copyQos pub entry) (copyRetain pub) false packetId)
      (NoIdLeft pub entry b) b (deliverCopy env pub entry b) := by
  have hcases : pub.qos = 0 ∨ pub.qos = 1 ∨ pub.qos = 2 := by omega
  unfold copyQos copyRetain NoIdLeft deliverCopy
  rcases hcases with h | h | h
  · simp only [h]
    exact ⟨0, .of_deliver id ⟨rfl, rfl⟩⟩
  · obtain ⟨packetId, hhands⟩ := qos1DeliverTo_handsOver env pub entry b
    simp only [h]
    exact ⟨packetId, hhands⟩
  · obtain ⟨packetId, hhands⟩ := qos2DeliverTo_handsOver env pub entry b
    have hmin : min 2 (min entry.qos 2) = min 2 entry.qos := by omega
    rw [h, hmin] at hhands
    simp only [h]
    exact ⟨packetId, hhands⟩

/-- The session of the subscriber exists, is connected and has room in its
queue, and a packet id is left for the copy. -/
structure Takes (env : Env α) (pub : PublishPacket) (entry : SubscriberEntry) (b : Broker α) :
    Prop where
  alive : (b.sessions entry.session).alive = true
  accepts : Session.accepts env.cfg (b.sessions entry.session) = true
  idLeft : ¬NoIdLeft pub entry b

/-- A subscriber that can take it gets one copy, with the smaller QoS and
neither flag, and one that cannot gets nothing. -/
structure TurnExact (env : Env α) (pub : PublishPacket) (entry : SubscriberEntry)
    (b b' : Broker α) : Prop where
  taken : Takes env pub entry b → ∃ packetId, b'.history.handed = b.history.handed ++
    [⟨entry.session, .publish pub.topic pub.payload (min pub.qos entry.qos) false false packetId,
      true⟩]
  refused : ¬Takes env pub entry b → ∃ calls, b'.history.handed = b.history.handed ++ calls ∧
    ∀ call ∈ calls, call.session = entry.session ∧ call.accepted = false

/-- The fan-out of the message consists of exact turns, one for each entry of
the lookup. -/
structure FanOutExact (env : Env α) (pub : PublishPacket) (b : Broker α) : Prop where
  loop : DeliveryEngine.publishFromClient env pub b =
    fanOut (deliverCopy env pub) (b.tree.lookup pub.topic) b
  turns : ∀ done entry rest, b.tree.lookup pub.topic = done ++ entry :: rest →
    TurnExact env pub entry (fanOut (deliverCopy env pub) done b)
      (fanOut (deliverCopy env pub) (done ++ [entry]) b)

theorem fanOut_singleton (turn : SubscriberEntry → Broker α → Broker α) (entry : SubscriberEntry)
    (b : Broker α) :
    fanOut turn [entry] b = if (b.sessions entry.session).alive then turn entry b else b := rfl

/-- A turn is exact unless `Qos1Handler` sends a copy to a subscriber of QoS 0,
or one with the retain flag. -/
theorem turnExact_iff (env : Env α) {pub : PublishPacket} (hqos : pub.qos ≤ 2)
    (entry : SubscriberEntry) (b : Broker α) :
    TurnExact env pub entry b (fanOut (deliverCopy env pub) [entry] b) ↔
      (Takes env pub entry b → pub.qos = 1 → 1 ≤ entry.qos ∧ pub.retain = false) := by
  obtain ⟨packetId, hhands⟩ := deliverCopy_handsOver env hqos entry b
  rw [fanOut_singleton]
  have hcopy : Takes env pub entry b →
      (if (b.sessions entry.session).alive then deliverCopy env pub entry b else b).history.handed =
        b.history.handed ++ [⟨entry.session, .publish pub.topic pub.payload (copyQos pub entry)
          (copyRetain pub) false packetId, true⟩] := by
    intro htakes
    rw [if_pos htakes.alive, hhands.handed_of_not_skip htakes.idLeft, htakes.accepts]
  constructor
  · intro hexact htakes hone
    obtain ⟨packetId', hhanded⟩ := hexact.taken htakes
    rw [hcopy htakes] at hhanded
    have hpacket := (Handed.mk.inj (List.singleton_inj.mp (List.append_cancel_left hhanded))).2.1
    obtain ⟨_, _, hcopyQos, hcopyRetain, _, _⟩ := OutPacket.publish.inj hpacket
    rw [copyQos, if_pos hone, hone] at hcopyQos
    constructor
    · omega
    · simpa [copyRetain, hone] using hcopyRetain
  · intro hcondition
    constructor
    · intro htakes
      have hcopyQos : copyQos pub entry = min pub.qos entry.qos := by
        unfold copyQos
        split_ifs with hone
        · have hentry := (hcondition htakes hone).1
          omega
        · rfl
      have hcopyRetain : copyRetain pub = false := by
        unfold copyRetain
        by_cases hone : pub.qos = 1
        · rw [(hcondition htakes hone).2, Bool.and_false]
        · rw [decide_eq_false hone, Bool.false_and]
      rw [hcopy htakes, hcopyQos, hcopyRetain]
      exact ⟨packetId, rfl⟩
    · intro hrefused
      by_cases halive : (b.sessions entry.session).alive = true
      · rw [if_pos halive]
        by_cases hid : NoIdLeft pub entry b
        · refine ⟨[], ?_, nofun⟩
          rw [hhands.handed_of_skip hid, List.append_nil]
        · refine ⟨_, hhands.handed_of_not_skip hid, ?_⟩
          intro call hcall
          rw [List.mem_singleton.mp hcall]
          refine ⟨rfl, ?_⟩
          by_contra haccepts
          exact hrefused ⟨halive, by simpa using haccepts, hid⟩
      · rw [if_neg halive]
        exact ⟨[], (List.append_nil _).symm, nofun⟩

/-! ## Retained messages -/

/-- A retained message that matches a new subscription, if the session takes it,
is sent with the smaller of its own QoS and the granted one. -/
def RetainedExact (env : Env α) (sid : SessionId) (filter : SubscribePacket.Filter)
    (b : Broker α) : Prop :=
  ∀ done row rest, b.tree.getAllRetained = done ++ row :: rest →
    let before := done.foldl (Session.deliverRetainedTo env sid filter.topicFilter) b
    topicMatches row.1 filter.topicFilter = true →
    Session.accepts env.cfg (before.sessions sid) = true →
    ∃ packetId,
      (Session.deliverRetainedTo env sid filter.topicFilter before row).history.handed =
        before.history.handed ++ [⟨sid, .publish row.1 row.2.payload
          (min row.2.qos filter.requestedQos) true false packetId, true⟩]

theorem handed_deliverRetainedTo {env : Env α} {sid : SessionId} {filter : Bytes} {b : Broker α}
    {row : Bytes × RetainedMessage} (hmatches : topicMatches row.1 filter = true) :
    (Session.deliverRetainedTo env sid filter b row).history.handed =
      b.history.handed ++ [⟨sid, .publish row.1 row.2.payload row.2.qos true false 0,
        Session.accepts env.cfg (b.sessions sid)⟩] := by
  have hprepared := prepared_noteUntracked env sid row.2.qos 0 b
  rw [Session.deliverRetainedTo, if_pos hmatches, handed_deliver, hprepared.sessions,
    hprepared.handed]

theorem retainedExact_iff (env : Env α) (sid : SessionId) (filter : SubscribePacket.Filter)
    (b : Broker α) :
    RetainedExact env sid filter b ↔
      ∀ done row rest, b.tree.getAllRetained = done ++ row :: rest →
        topicMatches row.1 filter.topicFilter = true →
        Session.accepts env.cfg ((done.foldl
          (Session.deliverRetainedTo env sid filter.topicFilter) b).sessions sid) = true →
        row.2.qos ≤ filter.requestedQos := by
  constructor
  · intro hexact done row rest hsplit hmatches haccepts
    obtain ⟨packetId, hhanded⟩ := hexact done row rest hsplit hmatches haccepts
    rw [handed_deliverRetainedTo hmatches, haccepts] at hhanded
    have hpacket := (Handed.mk.inj (List.singleton_inj.mp (List.append_cancel_left hhanded))).2.1
    have hcopyQos := (OutPacket.publish.inj hpacket).2.2.1
    omega
  · intro hcondition done row rest hsplit before hmatches haccepts
    have hle := hcondition done row rest hsplit hmatches haccepts
    have hmin : min row.2.qos filter.requestedQos = row.2.qos := by omega
    rw [handed_deliverRetainedTo hmatches, haccepts, hmin]
    exact ⟨0, rfl⟩

/-- The fan-out of a message is exact if and only if the message has not QoS 1,
or has no retain flag and every subscriber that takes a copy has at least QoS 1.
The retained messages for a subscription have the right QoS if and only if none
that is sent has a higher QoS than the subscription. -/
theorem fanOut_exact_iff (env : Env α) (pub : PublishPacket) (hqos : pub.qos ≤ 2)
    (sid : SessionId) (filter : SubscribePacket.Filter) (b : Broker α) :
    (FanOutExact env pub b ↔
      ∀ done entry rest, b.tree.lookup pub.topic = done ++ entry :: rest →
        Takes env pub entry (fanOut (deliverCopy env pub) done b) → pub.qos = 1 →
        1 ≤ entry.qos ∧ pub.retain = false) ∧
    (RetainedExact env sid filter b ↔
      ∀ done row rest, b.tree.getAllRetained = done ++ row :: rest →
        topicMatches row.1 filter.topicFilter = true →
        Session.accepts env.cfg ((done.foldl
          (Session.deliverRetainedTo env sid filter.topicFilter) b).sessions sid) = true →
        row.2.qos ≤ filter.requestedQos) := by
  refine ⟨?_, retainedExact_iff env sid filter b⟩
  constructor
  · intro hexact done entry rest hsplit
    have hturn := hexact.turns done entry rest hsplit
    rw [fanOut_append] at hturn
    exact (turnExact_iff env hqos entry _).mp hturn
  · intro hcondition
    refine ⟨publishFromClient_eq_fanOut env hqos b, ?_⟩
    intro done entry rest hsplit
    rw [fanOut_append]
    exact (turnExact_iff env hqos entry _).mpr (hcondition done entry rest hsplit)

def loopbackEvents (qos : UInt8) : List Event :=
  [.accept [0x69], .read 0 (loopbackBytes qos), .turn 0, .turn 0]

def loopbackMessage : PublishPacket :=
  { topic := [0x74], payload := [0x6d], qos := 1, packetId := 7 }

/-- A message of QoS 1 to a subscriber of QoS 1. -/
theorem fanOut_exact_of_equal_qos :
    let b := ((brokerSystem defaultEnv).after { auth := () } (loopbackEvents 1)).toBroker
    b.tree.lookup [0x74] = [⟨0, 1⟩] ∧ FanOutExact defaultEnv loopbackMessage b ∧
      RetainedExact defaultEnv 0 { topicFilter := [0x74], requestedQos := 1 } b := by
  intro b
  have hlookup : b.tree.lookup [0x74] = [⟨0, 1⟩] := by decide +kernel
  have hretained : b.tree.getAllRetained = [] := by decide +kernel
  obtain ⟨hfanOut, hcopies⟩ := fanOut_exact_iff defaultEnv loopbackMessage (by decide) 0
    { topicFilter := [0x74], requestedQos := 1 } b
  refine ⟨hlookup, hfanOut.mpr ?_, hcopies.mpr ?_⟩
  · intro done entry rest hsplit _ _
    have hmem : entry ∈ b.tree.lookup loopbackMessage.topic := by
      rw [hsplit]
      exact List.mem_append_right _ List.mem_cons_self
    have hlookup' : b.tree.lookup loopbackMessage.topic = [⟨0, 1⟩] := hlookup
    rw [hlookup'] at hmem
    rw [List.mem_singleton.mp hmem]
    exact ⟨Nat.le_refl 1, rfl⟩
  · intro done row rest hsplit
    rw [hretained] at hsplit
    simp at hsplit

/-- A message of QoS 1 to a subscriber of QoS 0 is sent with QoS 1. -/
theorem fanOut_ignores_granted_qos :
    let n := (brokerSystem defaultEnv).after { auth := () } (loopbackEvents 0)
    (brokerSystem defaultEnv).Reachable n ∧
    n.tree.lookup [0x74] = [⟨0, 0⟩] ∧
    (n.step defaultEnv (.turn 0)).history.handed.getLast? =
      some ⟨0, .publish [0x74] [0x6d] 1 false false 1, true⟩ ∧
    ¬FanOutExact defaultEnv loopbackMessage n.toBroker := by
  intro n
  have hlookup : n.tree.lookup [0x74] = [⟨0, 0⟩] := by decide +kernel
  refine ⟨?_, hlookup, by decide +kernel, ?_⟩
  · refine .of_allowed ⟨(), rfl⟩ ⟨⟨rfl, rfl, trivial⟩, ⟨rfl, rfl, rfl, ?_, ?_⟩, ⟨?_, ?_⟩, ⟨?_, ?_⟩,
      trivial⟩ <;> decide +kernel
  · intro hexact
    have hturn := hexact.turns [] ⟨0, 0⟩ [] hlookup
    have htakes : Takes defaultEnv loopbackMessage ⟨0, 0⟩ n.toBroker := by
      refine ⟨by decide +kernel, by decide +kernel, ?_⟩
      intro hexhausted
      have hunused : (n.delivery.pending.record (n.sessions 0).clientId).inUse = ∅ := by
        decide +kernel
      have hused := hexhausted ⟨1, by decide⟩
      rw [hunused] at hused
      exact Finset.notMem_empty _ hused
    have hqos := ((turnExact_iff defaultEnv (by decide) ⟨0, 0⟩ n.toBroker).mp hturn htakes rfl).1
    cases hqos

end JellyBroker
