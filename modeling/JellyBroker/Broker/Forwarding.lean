import JellyBroker.Broker.Lifetime
import JellyBroker.Broker.Provenance
import JellyBroker.Broker.Routing
import JellyBroker.Qos.Consistency
/-!
# Every subscription gets its copy

The way of a message through the broker, from the PUBLISH that is accepted, or the PUBREL
that releases it, to the sessions.  The subscriptions are those that the packets of the
sessions set (`LastAssigned`).  Every one that matches the topic gets exactly one copy,
unless its client has all its packet ids in flight, and nothing else is sent.
-/

namespace JellyBroker

open JellyBroker.Lib JellyBroker.Packet JellyBroker.Qos JellyBroker.Topic

variable {α : Type}

/-- A subscription: its filter segments, session and QoS. -/
abbrev SubscriptionRow := List Bytes × SessionId × Nat

def SubscriptionRow.entry (row : SubscriptionRow) : SubscriberEntry := ⟨row.2.1, row.2.2⟩

def Packet.OutPacket.isPublish : OutPacket → Bool
  | .publish .. => true
  | _ => false

/-- The call passes a copy of the message to the session of the subscription. -/
def IsCopy (pub : PublishPacket) (row : SubscriptionRow) (call : Handed) : Prop :=
  call.session = row.entry.session ∧ ∃ packetId, call.packet =
    .publish pub.topic pub.payload (copyQos pub row.entry) (copyRetain pub) false packetId

/-! ## What grows in a fan-out -/

theorem inUse_insert {μ : Type} {table : ClientTable μ} {clientId : Bytes}
    {client : ClientRecord μ} (h : (table.record clientId).inUse ⊆ client.inUse) (other : Bytes) :
    (table.record other).inUse ⊆
      (ClientTable.record (table.insert clientId client) other).inUse := by
  unfold ClientTable.record at h ⊢
  rw [Map.lookup_insert_ite]
  split_ifs with hother
  · rw [hother]
    exact h
  · exact Finset.Subset.refl _

/-- The sessions are who they were, and ids in use stay in use. -/
structure KeepsIds (b b' : Broker α) : Prop where
  alive : ∀ sid, (b'.sessions sid).alive = (b.sessions sid).alive
  clientId : ∀ sid, (b'.sessions sid).clientId = (b.sessions sid).clientId
  pending : ∀ clientId, (b.delivery.pending.record clientId).inUse ⊆
    (b'.delivery.pending.record clientId).inUse
  outgoing : ∀ clientId, (b.delivery.outgoing.record clientId).inUse ⊆
    (b'.delivery.outgoing.record clientId).inUse

namespace KeepsIds

theorem of_same {b b' : Broker α} (hsessions : b'.sessions = b.sessions)
    (hpending : b'.delivery.pending = b.delivery.pending)
    (houtgoing : b'.delivery.outgoing = b.delivery.outgoing) : KeepsIds b b' := by
  constructor
  · intro sid
    rw [hsessions]
  · intro sid
    rw [hsessions]
  · intro clientId
    rw [hpending]
  · intro clientId
    rw [houtgoing]

theorem trans {b₁ b₂ b₃ : Broker α} (h : KeepsIds b₁ b₂) (h' : KeepsIds b₂ b₃) :
    KeepsIds b₁ b₃ where
  alive sid := (h'.alive sid).trans (h.alive sid)
  clientId sid := (h'.clientId sid).trans (h.clientId sid)
  pending clientId := (h.pending clientId).trans (h'.pending clientId)
  outgoing clientId := (h.outgoing clientId).trans (h'.outgoing clientId)

theorem modifySession (b : Broker α) (sid : SessionId) {change : Session → Session}
    (halive : ∀ s, (change s).alive = s.alive) (hclient : ∀ s, (change s).clientId = s.clientId) :
    KeepsIds b (b.modifySession sid change) := by
  constructor
  · intro other
    by_cases hother : other = sid
    · rw [hother, Broker.sessions_modifySession_self, halive]
    · rw [Broker.sessions_modifySession_of_ne hother]
  · intro other
    by_cases hother : other = sid
    · rw [hother, Broker.sessions_modifySession_self, hclient]
    · rw [Broker.sessions_modifySession_of_ne hother]
  · exact fun _ => Finset.Subset.refl _
  · exact fun _ => Finset.Subset.refl _

theorem close (b : Broker α) (sid : SessionId) : KeepsIds b (Session.close false sid b) := by
  by_cases hconn : (b.sessions sid).connected = true
  · obtain ⟨tree, subManager, hclose⟩ := Session.close_of_connected hconn
    have hleft : KeepsIds b
        (b.modifySession sid fun s => { s with connected := false, socketOpen := false }) :=
      .modifySession b sid (fun _ => rfl) fun _ => rfl
    have htables : (Session.clearClientIncoming (b.sessions sid).clientId b.delivery).pending =
        b.delivery.pending ∧
        (Session.clearClientIncoming (b.sessions sid).clientId b.delivery).outgoing =
          b.delivery.outgoing := by
      unfold Session.clearClientIncoming
      split_ifs
      · exact ⟨rfl, rfl⟩
      · exact ⟨rfl, rfl⟩
    rw [hclose]
    refine ⟨hleft.alive, hleft.clientId, ?_, ?_⟩
    · intro clientId
      rw [htables.1]
    · intro clientId
      rw [htables.2]
  · rw [Session.close_of_idle (by simpa using hconn)]
    exact .of_same rfl rfl rfl

theorem deliver (env : Env α) (sid : SessionId) (packet : OutPacket) (b : Broker α) :
    KeepsIds b (Session.deliver env sid packet b) := by
  have hnoted (call : Handed) : KeepsIds b (b.observe (.noteHanded call)) := .of_same rfl rfl rfl
  unfold Session.deliver
  dsimp only
  split_ifs
  · exact hnoted _
  · exact (hnoted _).trans (.close _ sid)
  · exact (hnoted _).trans (.modifySession _ sid (plumbing_enqueue packet).alive
      (plumbing_enqueue packet).clientId)

theorem setPending {b : Broker α} {clientId : Bytes} {client : ClientRecord PendingMessage}
    (h : (b.delivery.pending.record clientId).inUse ⊆ client.inUse) :
    KeepsIds b (b.setPending (b.delivery.pending.insert clientId client)) :=
  ⟨fun _ => rfl, fun _ => rfl, inUse_insert h, fun _ => Finset.Subset.refl _⟩

theorem setOutgoing {b : Broker α} {clientId : Bytes} {client : ClientRecord OutgoingMessage}
    (h : (b.delivery.outgoing.record clientId).inUse ⊆ client.inUse) :
    KeepsIds b (b.setOutgoing (b.delivery.outgoing.insert clientId client)) :=
  ⟨fun _ => rfl, fun _ => rfl, fun _ => Finset.Subset.refl _, inUse_insert h⟩

theorem sent {b b' : Broker α} (h : KeepsIds b b') (env : Env α) (note : History → History)
    (sid : SessionId) (packet : OutPacket) :
    KeepsIds b (Session.deliver env sid packet (b'.observe note)) := by
  have hnoted : KeepsIds b' (b'.observe note) := .of_same rfl rfl rfl
  exact h.trans (hnoted.trans (.deliver env sid packet _))

theorem deliverCopy (env : Env α) (pub : PublishPacket) (entry : SubscriberEntry) (b : Broker α) :
    KeepsIds b (deliverCopy env pub entry b) := by
  have hallocated {μ : Type} (client : ClientRecord μ) :
      client.inUse ⊆ (allocatePacketId client).2.inUse := by
    rw [inUse_allocatePacketId]
    split_ifs
    · exact Finset.Subset.refl _
    · exact Finset.subset_insert _ _
  unfold JellyBroker.deliverCopy
  split
  · exact .deliver env entry.session _ b
  · unfold Qos1Handler.deliverTo
    dsimp only
    split_ifs
    · exact .setPending (hallocated _)
    · refine KeepsIds.sent (.setPending ?_) env _ _ _
      exact hallocated _
  · unfold Qos2Handler.deliverTo
    dsimp only
    split_ifs
    · refine KeepsIds.trans ?_ (.deliver env _ _ _)
      unfold noteUntracked
      split_ifs
      · exact .of_same rfl rfl rfl
      · exact .of_same rfl rfl rfl
    · exact .setOutgoing (hallocated _)
    · refine KeepsIds.sent (.setOutgoing ?_) env _ _ _
      exact hallocated _

theorem fanOut (env : Env α) (pub : PublishPacket) (entries : List SubscriberEntry)
    (b : Broker α) : KeepsIds b (fanOut (JellyBroker.deliverCopy env pub) entries b) := by
  have hD : DeliveryFrame env (fun _ => True) (KeepsIds (α := α)) := {
    refl := fun _ => .of_same rfl rfl rfl
    trans := .trans
    deliver := fun target packet b _ => .deliver env target packet b }
  exact hD.fanOut (fun entry b => .deliverCopy env pub entry b) entries b

theorem noIdLeft {b b' : Broker α} (h : KeepsIds b b') {pub : PublishPacket}
    {entry : SubscriberEntry} (hnone : NoIdLeft pub entry b) : NoIdLeft pub entry b' := by
  unfold NoIdLeft at hnone ⊢
  split at hnone
  · exact hnone
  · intro id
    rw [h.clientId]
    exact h.pending _ (hnone id)
  · refine ⟨hnone.1, ?_⟩
    intro id
    rw [h.clientId]
    exact h.outgoing _ (hnone.2 id)

end KeepsIds

/-! ## The loop over the subscriptions -/

/-- The fan-out passes one copy for each subscription, in their order, and leaves out only
those whose clients have no id left.  A session with room for all of them queues its
copies. -/
theorem fanOut_copies (env : Env α) {pub : PublishPacket} (hqos : pub.qos ≤ 2)
    (rows : List SubscriptionRow) {b : Broker α}
    (halive : ∀ row ∈ rows, (b.sessions row.entry.session).alive = true) :
    ∃ (taken : List SubscriptionRow) (copies : List Handed), taken.Sublist rows ∧
      (fanOut (deliverCopy env pub) (rows.map SubscriptionRow.entry) b).history.handed =
        b.history.handed ++ copies ∧
      List.Forall₂ (IsCopy pub) taken copies ∧
      (∀ row ∈ rows, row ∉ taken → NoIdLeft pub row.entry
        (fanOut (deliverCopy env pub) (rows.map SubscriptionRow.entry) b)) ∧
      ∀ sid, HasRoom env.cfg rows.length (b.sessions sid) →
        ∀ call ∈ copies, call.session = sid → call.accepted = true := by
  induction rows generalizing b with
  | nil =>
      refine ⟨[], [], List.Sublist.refl _, (List.append_nil _).symm, .nil, ?_, ?_⟩
      · intro row hrow
        cases hrow
      · intro sid _ call hcall
        cases hcall
  | cons row rest ih =>
      have hfirst : (b.sessions row.entry.session).alive = true := halive row List.mem_cons_self
      have hgrows := KeepsIds.deliverCopy env pub row.entry b
      have hloop : fanOut (deliverCopy env pub) ((row :: rest).map SubscriptionRow.entry) b =
          fanOut (deliverCopy env pub) (rest.map SubscriptionRow.entry)
            (deliverCopy env pub row.entry b) := by
        rw [List.map_cons, ← List.singleton_append, fanOut_append, fanOut_singleton, if_pos hfirst]
      have hrest : ∀ other ∈ rest,
          ((deliverCopy env pub row.entry b).sessions other.entry.session).alive = true := by
        intro other hother
        rw [hgrows.alive]
        exact halive other (List.mem_cons_of_mem _ hother)
      obtain ⟨taken, copies, hsub, hhanded, hcopies, hleft, hroom⟩ := ih hrest
      obtain ⟨packetId, hhands⟩ := deliverCopy_handsOver env hqos row.entry b
      have hafter (sid : SessionId) (hroom : HasRoom env.cfg (rest.length + 1) (b.sessions sid)) :
          HasRoom env.cfg rest.length ((deliverCopy env pub row.entry b).sessions sid) := by
        by_cases hsid : sid = row.entry.session
        · rw [hsid] at hroom ⊢
          exact hhands.hasRoom hroom
        · rw [hhands.sessions_of_ne hsid]
          refine ⟨hroom.connected, ?_⟩
          have := hroom.queue
          omega
      rw [hloop]
      by_cases hskip : NoIdLeft pub row.entry b
      · refine ⟨taken, copies, hsub.cons row, ?_, hcopies, ?_, ?_⟩
        · rw [hhanded, hhands.handed_of_skip hskip]
        · intro other hother hnot
          rcases List.mem_cons.mp hother with rfl | hother
          · exact (KeepsIds.fanOut env pub _ _).noIdLeft (hgrows.noIdLeft hskip)
          · exact hleft other hother hnot
        · intro sid hsid
          exact hroom sid (hafter sid hsid)
      · refine ⟨row :: taken, ⟨row.entry.session, .publish pub.topic pub.payload
          (copyQos pub row.entry) (copyRetain pub) false packetId,
          Session.accepts env.cfg (b.sessions row.entry.session)⟩ :: copies, hsub.cons_cons row, ?_,
          .cons ⟨rfl, packetId, rfl⟩ hcopies, ?_, ?_⟩
        · rw [hhanded, hhands.handed_of_not_skip hskip, List.append_assoc, List.singleton_append]
        · intro other hother hnot
          rw [List.mem_cons, not_or] at hnot
          rcases List.mem_cons.mp hother with heq | hother
          · exact absurd heq hnot.1
          · exact hleft other hother hnot.2
        · intro sid hsid call hcall hsession
          rcases List.mem_cons.mp hcall with rfl | hcall
          · -- the first copy finds the room that all of them need
            rw [accepts_iff_hasRoom]
            change row.entry.session = sid at hsession
            rw [hsession]
            refine ⟨hsid.connected, ?_⟩
            have := hsid.queue
            rw [List.length_cons] at this
            omega
          · exact hroom sid (hafter sid hsid) call hcall hsession

/-! ## The sessions behind the subscriptions -/

/-- The sessions that a step of the past left with a timer still have it. -/
theorem keeps_past {env : Env α} (hvalid : env.cfg.isValid = true)
    {t : Runtime α × List (Runtime α × Event)} (h : (brokerSystem env).recorded.Reachable t) :
    ∀ step ∈ t.2, Keeps (step.1.step env step.2).toBroker t.1.toBroker := by
  refine h.of_past (P := fun past n =>
    ∀ step ∈ past, Keeps (step.1.step env step.2).toBroker n.toBroker) ?_ ?_
  · intro n _ step hstep
    cases hstep
  · intro past n e hreach hpast henabled step hstep sid htimer
    have hn := hreach.of_mem_past.1
    rcases List.mem_append.mp hstep with hold | hnew
    · obtain ⟨htimer', halive'⟩ := hpast step hold sid htimer
      obtain ⟨htimer'', halive''⟩ := (timers_step hvalid (missingIdle_reachable hn)
        (timers_reachable hvalid hn) henabled).1 sid htimer'
      exact ⟨htimer'', halive''.trans halive'⟩
    · rw [List.mem_singleton.mp hnew] at htimer ⊢
      exact ⟨htimer, rfl⟩

theorem alive_of_assigns {env : Env α} (hvalid : env.cfg.isValid = true) {n : Runtime α}
    {sid : SessionId} {segments : List Bytes} {value : Option Nat}
    (hn : (brokerSystem env).Reachable n) (henabled : n.toBroker.Enabled (.turn sid))
    (h : Assigns env n sid segments value) :
    ((n.step env (.turn sid)).sessions sid).keepaliveTimer ≠ none ∧
      ((n.step env (.turn sid)).sessions sid).alive = true := by
  have halive : (n.sessions sid).alive = true := by
    by_contra hdead
    rw [Bool.not_eq_true] at hdead
    exact (missingIdle_reachable hn).of_reading henabled.2 (Or.inl hdead)
  have hconnected (hconn : (n.sessions sid).connected = true) :
      ((n.step env (.turn sid)).sessions sid).keepaliveTimer ≠ none ∧
        ((n.step env (.turn sid)).sessions sid).alive = true := by
    have htimers := timers_reachable hvalid hn
    have hkeeps := (timers_step hvalid (missingIdle_reachable hn) htimers henabled).1 sid
      (htimers.timed sid hconn)
    exact ⟨hkeeps.1, hkeeps.2.trans halive⟩
  cases h with
  | @restored conn _ hconnects hclear _ _ =>
      obtain ⟨packet, auth, failures, bans, hturn⟩ := hconnects.onReadTurn_eq
      change (n.step env (.turn sid)).toBroker = _ at hturn
      have hclear' : ∀ old, ¬Displaces (((n.toBroker.observe (.noteHandled sid
          packet)).setAuthTables failures bans).setAuth auth) sid conn.clientId old := hclear
      have hblocked : (((n.toBroker.observe (.noteHandled sid packet)).setAuthTables failures
          bans).setAuth auth).blocked = false := henabled.1
      obtain ⟨session, hsessions, htimer, hsame⟩ := sessions_acceptConnect hvalid hblocked hclear'
      rw [hturn, hsessions, Function.update_self, htimer, hsame]
      exact ⟨Option.some_ne_none _, halive⟩
  | granted hsubscribes _ => exact hconnected hsubscribes.1
  | removed hunsubscribes _ _ => exact hconnected hunsubscribes.1

theorem alive_of_lastAssigned {env : Env α} (hvalid : env.cfg.isValid = true) {n : Runtime α}
    {past : List (Runtime α × Event)} (h : (brokerSystem env).recorded.Reachable (n, past))
    {sid : SessionId} {segments : List Bytes} {value : Option Nat}
    (hlast : LastAssigned env past sid segments value) : (n.sessions sid).alive = true := by
  obtain ⟨m, hmem, hassigns⟩ := hlast
  obtain ⟨hm, henabled⟩ := h.of_mem_past.2 (m, .turn sid) hmem.mem
  obtain ⟨htimer, halive⟩ := alive_of_assigns hvalid hm henabled hassigns
  rw [← halive]
  exact (keeps_past hvalid h (m, .turn sid) hmem.mem sid htimer).2

/-! ## The turns that forward a message -/

def IncomingMessage.forwarded (msg : IncomingMessage) : PublishPacket :=
  { topic := msg.topic, payload := msg.payload, qos := msg.qos }

/-- The next turn of the session forwards the message: it accepts a PUBLISH of QoS 0 or 1,
or a PUBREL for a stored message of QoS 2. -/
inductive Forwards (env : Env α) (n : Runtime α) (sid : SessionId) : PublishPacket → Prop where
  | accepted {pub : PublishPacket} : AcceptsPublish env n sid pub → pub.qos ≤ 1 →
      Forwards env n sid pub
  | released {hdr : FixedHeader} {body rest : Bytes} {packetId : UInt16} {msg : IncomingMessage} :
      (n.sessions sid).connected = true → NextPacket env n sid hdr body →
      hdr.type = some .pubrel → PubrelPacket.parse body = .ok (packetId, rest) →
      n.delivery.incoming? (n.sessions sid).clientId packetId = some msg →
      Forwards env n sid msg.forwarded

abbrev NoPublish (b b' : Broker α) : Prop :=
  Hands (fun packet => packet.isPublish = false) b b'

/-- The broker in which the fan-out of the message starts, after at most one packet that is
not a PUBLISH. -/
structure Begins (cfg : Config) (pub : PublishPacket) (b start : Broker α) : Prop where
  handed : NoPublish b start
  lookup : start.tree.lookup pub.topic = b.tree.lookup pub.topic
  alive : ∀ sid, (start.sessions sid).alive = (b.sessions sid).alive
  room : ∀ sid count, HasRoom cfg (count + 1) (b.sessions sid) →
    HasRoom cfg count (start.sessions sid)

structure Ends (env : Env α) (pub : PublishPacket) (start b' : Broker α) : Prop where
  handed : NoPublish (fanOut (deliverCopy env pub) (start.tree.lookup pub.topic) start) b'
  grows : KeepsIds (fanOut (deliverCopy env pub) (start.tree.lookup pub.topic) start) b'

theorem begins_of_same {cfg : Config} {pub : PublishPacket} {b start : Broker α}
    (hsessions : start.sessions = b.sessions)
    (hhanded : start.history.handed = b.history.handed)
    (hlookup : start.tree.lookup pub.topic = b.tree.lookup pub.topic) :
    Begins cfg pub b start := by
  refine ⟨.of_same hhanded, hlookup, fun sid => by rw [hsessions], ?_⟩
  intro sid count hroom
  rw [hsessions]
  refine ⟨hroom.connected, ?_⟩
  have := hroom.queue
  omega

theorem Begins.deliver {env : Env α} {pub : PublishPacket} {b start : Broker α}
    (hsessions : start.sessions = b.sessions)
    (h : Begins env.cfg pub b start) {sid : SessionId} (htidy : Tidy sid start)
    {packet : OutPacket} (hpacket : packet.isPublish = false) :
    Begins env.cfg pub b (Session.deliver env sid packet start) := by
  have htree : (Session.deliver env sid packet start).tree = start.tree := by
    unfold Session.deliver
    dsimp only
    split_ifs with hidle hfull
    · rfl
    · have hconn : ((start.observe (.noteHanded
          ⟨sid, packet, Session.accepts env.cfg (start.sessions sid)⟩)).sessions sid).connected =
          true := by
        simpa using hidle
      rw [(Session.topics_close hconn).1]
      exact tree_dropSubscriptions (htidy hconn)
    · rfl
  refine ⟨h.handed.trans (.deliver env sid hpacket start), ?_, ?_, ?_⟩
  · rw [htree, h.lookup]
  · intro other
    rw [(KeepsIds.deliver env sid packet start).alive, h.alive]
  · intro other count hroom
    by_cases hother : other = sid
    · rw [hother] at hroom ⊢
      rw [← hsessions] at hroom
      exact hroom.deliver packet
    · rw [sessions_deliver_of_ne hother]
      exact h.room other count hroom

section Turn

variable {env : Env α} {n : Runtime α} {sid : SessionId} {pub : PublishPacket}

variable (env) in
/-- The fan-out of an accepted PUBLISH of QoS 0 or 1.  What it changes in the retained
messages is not seen by the lookup. -/
theorem forwards_route (hqos : pub.qos ≤ 1) {received : Broker α} (htidy : Tidy sid received) :
    ∃ start, Begins env.cfg pub received start ∧
      Ends env pub start (Session.routePublish env sid pub
        (Session.storeRetained env pub received)) := by
  have hstored : (Session.storeRetained env pub received).sessions = received.sessions ∧
      (Session.storeRetained env pub received).subManager = received.subManager ∧
      Begins env.cfg pub received (Session.storeRetained env pub received) := by
    unfold Session.storeRetained
    split_ifs
    · exact ⟨rfl, rfl, begins_of_same rfl rfl (lookup_setRetained _ _ _ _ _)⟩
    · exact ⟨rfl, rfl, begins_of_same rfl rfl rfl⟩
  obtain ⟨hsessions, hmanager, hbegins⟩ := hstored
  have hcases : pub.qos = 0 ∨ pub.qos = 1 := by omega
  rcases hcases with h | h
  · refine ⟨_, hbegins, ?_⟩
    simp only [Session.routePublish, h, publishFromClient_eq_fanOut env (hqos.trans one_le_two)]
    exact ⟨.of_same rfl, .of_same rfl rfl rfl⟩
  · have htidy' : Tidy sid (Session.storeRetained env pub received) := by
      unfold Tidy
      rw [hsessions, hmanager]
      exact htidy
    refine ⟨Session.deliver env sid (.puback pub.packetId) _,
      hbegins.deliver hsessions htidy' rfl, ?_⟩
    simp only [Session.routePublish, h, publishFromClient_eq_fanOut env (hqos.trans one_le_two)]
    exact ⟨.of_same rfl, .of_same rfl rfl rfl⟩

theorem forwards_accepted (h : AcceptsPublish env n sid pub) (hqos : pub.qos ≤ 1)
    (htidy : Tidy sid n.toBroker) :
    ∃ start, Begins env.cfg pub n.toBroker start ∧
      Ends env pub start (n.step env (.turn sid)).toBroker := by
  obtain ⟨packet, auth, hturn⟩ := h.onReadTurn_eq
  change (n.step env (.turn sid)).toBroker = Session.acceptPublish env sid pub _ at hturn
  have htidy' : Tidy sid { (n.toBroker.observe (.noteHandled sid packet)).setAuth auth with
      counters.received := n.counters.received + 1 } := htidy
  obtain ⟨start, hbegins, hends⟩ := forwards_route env hqos htidy'
  refine ⟨start, ⟨hbegins.handed, hbegins.lookup, hbegins.alive, hbegins.room⟩, ?_⟩
  rw [hturn]
  exact hends

variable (env) in
theorem forwards_release {b : Broker α} {clientId : Bytes} {packetId : UInt16}
    {msg : IncomingMessage} (hmsg : b.delivery.incoming? clientId packetId = some msg)
    (hqos : msg.qos = 2) (sid : SessionId) :
    ∃ start, Begins env.cfg msg.forwarded b start ∧
      Ends env msg.forwarded start (Session.releaseQos2 env sid clientId packetId b) := by
  have hmsg' : (b.observe (.noteIngest clientId packetId .pubrel)).delivery.incoming? clientId
      packetId = some msg := hmsg
  obtain ⟨store, htake, _⟩ := takeIncoming_eq clientId packetId
    (b.observe (.noteIngest clientId packetId .pubrel))
  have hfan (start : Broker α) : Qos2Handler.deliver env msg.forwarded start =
      fanOut (deliverCopy env msg.forwarded) (start.tree.lookup msg.forwarded.topic) start := by
    have hforwarded : msg.forwarded.qos = 2 := hqos
    rw [← publishFromClient_eq_fanOut env hforwarded.le]
    simp only [DeliveryEngine.publishFromClient, hforwarded]
  have hcomplete : DeliveryEngine.completeIncomingQos2 env clientId packetId
      (b.observe (.noteIngest clientId packetId .pubrel)) = (true, Qos2Handler.deliver env
        msg.forwarded ((DeliveryEngine.takeIncoming clientId packetId
          (b.observe (.noteIngest clientId packetId .pubrel))).observe
            (.noteIngest clientId packetId (.forward msg)))) := by
    simp only [DeliveryEngine.completeIncomingQos2, hmsg']
    rfl
  refine ⟨(DeliveryEngine.takeIncoming clientId packetId (b.observe (.noteIngest clientId packetId
    .pubrel))).observe (.noteIngest clientId packetId (.forward msg)), ?_, ?_⟩
  · rw [htake]
    exact begins_of_same rfl rfl rfl
  · unfold Session.releaseQos2
    rw [hcomplete, hfan]
    -- the counter, and the PUBCOMP after it
    have hanswered (b : Broker α) :
        NoPublish b (Session.noteAnswer env sid clientId packetId .pubcomp
          (Session.countPublished b)) ∧
        KeepsIds b (Session.noteAnswer env sid clientId packetId .pubcomp
          (Session.countPublished b)) := by
      unfold Session.noteAnswer
      split_ifs
      · exact ⟨.of_same rfl, .of_same rfl rfl rfl⟩
      · exact ⟨.of_same rfl, .of_same rfl rfl rfl⟩
    have hpubcomp : (OutPacket.pubcomp packetId).isPublish = false := rfl
    constructor
    · exact (hanswered _).1.trans (.deliver env sid hpubcomp _)
    · exact (hanswered _).2.trans (.deliver env sid _ _)

theorem forwards_released {hdr : FixedHeader} {body rest : Bytes} {packetId : UInt16}
    {msg : IncomingMessage} (hconn : (n.sessions sid).connected = true)
    (hnext : NextPacket env n sid hdr body) (htype : hdr.type = some .pubrel)
    (hparse : PubrelPacket.parse body = .ok (packetId, rest))
    (hmsg : n.delivery.incoming? (n.sessions sid).clientId packetId = some msg)
    (hqos : msg.qos = 2) :
    ∃ start, Begins env.cfg msg.forwarded n.toBroker start ∧
      Ends env msg.forwarded start (n.step env (.turn sid)).toBroker := by
  obtain ⟨packet, hturn⟩ := onReadTurn_of_next hnext
  change (n.step env (.turn sid)).toBroker = _ at hturn
  have hhandled : Session.dispatch env sid hdr body
      (n.toBroker.observe (.noteHandled sid packet)) = (Session.releaseQos2 env sid
        (n.sessions sid).clientId packetId (n.toBroker.observe (.noteHandled sid packet)),
        none) := by
    have hconn' : ((n.toBroker.observe (.noteHandled sid packet)).sessions sid).connected = true :=
      hconn
    simp only [Session.dispatch, htype, Session.handlePubrel, Session.handleAck, hconn',
      Bool.not_true, Bool.false_eq_true, if_false, hparse]
    rfl
  rw [hhandled] at hturn
  change (n.step env (.turn sid)).toBroker = Session.releaseQos2 env sid _ packetId _ at hturn
  have hmsg' : (n.toBroker.observe (.noteHandled sid packet)).delivery.incoming?
      (n.sessions sid).clientId packetId = some msg := hmsg
  obtain ⟨start, hbegins, hends⟩ := forwards_release env hmsg' hqos sid
  refine ⟨start, ⟨hbegins.handed, hbegins.lookup, hbegins.alive, hbegins.room⟩, ?_⟩
  rw [hturn]
  exact hends

/-- What is forwarded in a run has a topic to look up and a QoS the broker knows. -/
theorem forwards_turn {past : List (Runtime α × Event)}
    (h : (brokerSystem env).recorded.Reachable (n, past)) (hforwards : Forwards env n sid pub) :
    TopicShape (split pub.topic) ∧ pub.qos ≤ 2 ∧
      ∃ start, Begins env.cfg pub n.toBroker start ∧
        Ends env pub start (n.step env (.turn sid)).toBroker := by
  cases hforwards with
  | accepted haccepts hqos =>
      refine ⟨topicShape_of_valid haccepts.2.1, hqos.trans one_le_two, ?_⟩
      exact forwards_accepted haccepts hqos (tidy_reachable h.of_mem_past.1 sid)
  | @released hdr body rest packetId msg hconn hnext htype hparse hmsg =>
      obtain ⟨stored, _, hstored, heq⟩ := (holds_copies_of_past h).incoming _ _ _ hmsg
      have hqos : msg.qos = 2 := by
        rw [heq]
        exact hstored
      refine ⟨(holds_readable h).incoming _ _ _ hmsg, hqos.le, ?_⟩
      exact forwards_released hconn hnext htype hparse hmsg hqos

end Turn

theorem filter_isPublish_eq_nil {calls : List Handed}
    (h : ∀ call ∈ calls, call.packet.isPublish = false) :
    calls.filter (·.packet.isPublish) = [] := by
  rw [List.filter_eq_nil_iff]
  intro call hcall
  rw [h call hcall]
  exact Bool.false_ne_true

theorem isPublish_of_isCopy {pub : PublishPacket} {taken : List SubscriptionRow}
    {copies : List Handed} (h : List.Forall₂ (IsCopy pub) taken copies) :
    copies.filter (·.packet.isPublish) = copies := by
  induction h with
  | nil => rfl
  | cons hcopy _ ih =>
      obtain ⟨_, packetId, hpacket⟩ := hcopy
      rw [List.filter_cons_of_pos (by rw [hpacket]; rfl), ih]

/-- In every run, a turn that forwards a message passes one copy to each subscription whose
filter segments match those of its topic, and no other PUBLISH to anyone.  The subscriptions
are those that the packets of the sessions last set.  A copy has the topic and the payload of
the message and the QoS `copyQos`: 1 for every QoS 1 message, and otherwise the lower of the
two.  A subscription gets no copy only if its client has no packet id left, and a session with
room in its queue for all the copies and an answer loses none. -/
theorem publish_reaches_subscriptions (env : Env α) (hvalid : env.cfg.isValid = true)
    {n : Runtime α} {past : List (Runtime α × Event)}
    (h : (brokerSystem env).recorded.Reachable (n, past)) {sid : SessionId} {pub : PublishPacket}
    (hforwards : Forwards env n sid pub) :
    ∃ (rows taken : List SubscriptionRow) (calls : List Handed),
      (rows.map fun row => (row.1, row.2.1)).Nodup ∧
      (∀ segments session qos, (segments, session, qos) ∈ rows ↔
        LastAssigned env past session segments (some qos) ∧ Matches segments (split pub.topic)) ∧
      taken.Sublist rows ∧
      (n.step env (.turn sid)).history.handed = n.history.handed ++ calls ∧
      List.Forall₂ (IsCopy pub) taken (calls.filter (·.packet.isPublish)) ∧
      (∀ row ∈ rows, row ∉ taken → NoIdLeft pub row.entry (n.step env (.turn sid)).toBroker) ∧
      ∀ session, HasRoom env.cfg (rows.length + 1) (n.sessions session) →
        ∀ call ∈ calls, call.packet.isPublish = true → call.session = session →
          call.accepted = true := by
  obtain ⟨hshape, hqos, start, hbegins, hends⟩ := forwards_turn h hforwards
  have hrep := represents_held h
  have hrows (segments : List Bytes) (session : SessionId) (qos : Nat) :
      (segments, session, qos) ∈ lookupRows n.tree pub.topic ↔
        LastAssigned env past session segments (some qos) ∧
          Matches segments (split pub.topic) := by
    rw [mem_lookupRows_iff hrep hshape, held_iff_lastAssigned h]
  have hlookup : start.tree.lookup pub.topic =
      (lookupRows n.tree pub.topic).map SubscriptionRow.entry :=
    hbegins.lookup.trans (lookup_eq_lookupRows n.tree pub.topic)
  have halive : ∀ row ∈ lookupRows n.tree pub.topic,
      (start.sessions (SubscriptionRow.entry row).session).alive = true := by
    rintro ⟨segments, session, qos⟩ hrow
    rw [hbegins.alive]
    exact alive_of_lastAssigned hvalid h ((hrows segments session qos).mp hrow).1
  obtain ⟨taken, copies, hsub, hhanded, hcopies, hleft, hroom⟩ := fanOut_copies env hqos _ halive
  obtain ⟨before, hbefore, hnone⟩ := hbegins.handed
  obtain ⟨after, hafter, hnone'⟩ := hends.handed
  rw [hlookup, hhanded, hbefore, List.append_assoc, List.append_assoc] at hafter
  have hfilter : (before ++ (copies ++ after)).filter (·.packet.isPublish) = copies := by
    rw [List.filter_append, List.filter_append, filter_isPublish_eq_nil hnone,
      filter_isPublish_eq_nil hnone', List.nil_append, List.append_nil, isPublish_of_isCopy hcopies]
  have hgrows := hends.grows
  rw [hlookup] at hgrows
  refine ⟨lookupRows n.tree pub.topic, taken, before ++ (copies ++ after),
    nodup_lookupRows_keys hrep pub.topic, hrows, hsub, hafter, ?_, ?_, ?_⟩
  · rw [hfilter]
    exact hcopies
  · intro row hrow hnot
    exact hgrows.noIdLeft (hleft row hrow hnot)
  · intro session hsession call hcall hpublish
    have hcopy : call ∈ copies := by
      rw [← hfilter]
      exact List.mem_filter.mpr ⟨hcall, hpublish⟩
    exact hroom session (hbegins.room session _ hsession) call hcopy

/-- A client that subscribes to the topic `t` and sends a message of QoS 2 there, up to its
PUBREL. -/
def releasingEvents : List Event :=
  [.accept [0x69], .read 0 (connectBytes true [0x63] ++ subscribeBytes 1 [0x74] 2 ++
    (OutPacket.publish [0x74] [0x6d] 2 false false 1).bytes ++ (OutPacket.pubrel 1).bytes),
    .turn 0, .turn 0, .turn 0]

/-- The PUBREL brings a copy to the subscription of the client itself. -/
theorem publish_reaches_subscriptions_released :
    let t := (brokerSystem defaultEnv).recorded.after ({ auth := () }, []) releasingEvents
    let pub : PublishPacket := { topic := [0x74], payload := [0x6d], qos := 2 }
    Forwards defaultEnv t.1 0 pub ∧ ∃ segments session qos call,
      LastAssigned defaultEnv t.2 session segments (some qos) ∧
      Matches segments (split pub.topic) ∧ IsCopy pub (segments, session, qos) call ∧
      call ∈ (t.1.step defaultEnv (.turn 0)).history.handed := by
  intro t pub
  have ht : (brokerSystem defaultEnv).recorded.Reachable (t.1, t.2) := by
    refine .of_allowed ⟨⟨(), rfl⟩, rfl⟩ ⟨⟨rfl, rfl, trivial⟩, ⟨rfl, rfl, rfl, ?_, ?_⟩, ⟨?_, ?_⟩,
      ⟨?_, ?_⟩, ⟨?_, ?_⟩, trivial⟩ <;> decide +kernel
  have hforwards : Forwards defaultEnv t.1 0 pub := by
    have hnext : NextPacket defaultEnv t.1 0 _ _ :=
      ⟨(OutPacket.pubrel 1).bytes, {}, by decide +kernel, rfl⟩
    have hmsg : t.1.delivery.incoming? (t.1.sessions 0).clientId 1 =
        some ⟨[0x74], [0x6d], 2⟩ := by
      decide +kernel
    exact .released (by decide +kernel) hnext rfl rfl hmsg
  obtain ⟨rows, taken, calls, _, hrows, hsub, hhanded, hcopies, _, _⟩ :=
    publish_reaches_subscriptions defaultEnv (by decide) ht hforwards
  have hsent : ((t.1.history.handed ++ calls).filter (·.packet.isPublish)).length = 1 := by
    rw [← hhanded]
    decide +kernel
  have hbefore : t.1.history.handed.filter (·.packet.isPublish) = [] := by
    decide +kernel
  rw [List.filter_append, hbefore, List.nil_append] at hsent
  obtain ⟨call, hcall⟩ := List.length_eq_one_iff.mp hsent
  rw [hcall] at hcopies
  cases hcopies with
  | @cons row _ rest _ hcopy _ =>
      obtain ⟨segments, session, qos⟩ := row
      obtain ⟨hlast, hmatches⟩ := (hrows _ _ _).mp (hsub.subset List.mem_cons_self)
      refine ⟨hforwards, segments, session, qos, call, hlast, hmatches, hcopy, ?_⟩
      rw [hhanded]
      apply List.mem_append_right
      exact List.mem_of_mem_filter (hcall ▸ List.mem_cons_self)

end JellyBroker
