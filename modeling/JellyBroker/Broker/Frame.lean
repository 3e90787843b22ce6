import JellyBroker.Broker.Connect
import Mathlib.Tactic
/-!
# What the handlers can change

A handler passes packets to sessions, closes its own session, and changes a few
shared stores.  A relation between the broker before and after that is closed
under these kinds of change is a frame.  Every handler stays inside a frame, so
an invariant is proved by checking it against the kinds of change once, and not
handler by handler.

The frames differ in what they ask for.  `DeliveryFrame` knows `deliver` only,
`SessionFrame` what a packet of one session can do besides the shared stores,
`CoreFrame` the same for all sessions, `TopicFrame` leaves the topics and the
authentication tables open to any change as well, and `Frame` also allows what
DISCONNECT does.
-/

namespace JellyBroker

open JellyBroker.Lib JellyBroker.Packet JellyBroker.Qos JellyBroker.Topic

variable {α : Type}

structure Plumbing (change : Session → Session) : Prop where
  remoteIp : ∀ s, (change s).remoteIp = s.remoteIp
  clientId : ∀ s, (change s).clientId = s.clientId
  username : ∀ s, (change s).username = s.username
  cleanSession : ∀ s, (change s).cleanSession = s.cleanSession
  connected : ∀ s, (change s).connected = s.connected
  socketOpen : ∀ s, (change s).socketOpen = s.socketOpen
  alive : ∀ s, (change s).alive = s.alive
  readPending : ∀ s, (change s).readPending = s.readPending

/-- The relation allows packets to the sessions `who`. -/
structure DeliveryFrame (env : Env α) (who : SessionId → Prop) (R : Broker α → Broker α → Prop) :
    Prop where
  refl : ∀ b, R b b
  trans : ∀ {b₁ b₂ b₃}, R b₁ b₂ → R b₂ b₃ → R b₁ b₃
  deliver : ∀ target packet b, who target → R b (Session.deliver env target packet b)

/-- The relation allows what the handlers of `sid` do outside the shared
stores. -/
structure SessionFrame (env : Env α) (sid : SessionId) (who : SessionId → Prop)
    (R : Broker α → Broker α → Prop) : Prop extends DeliveryFrame env who R where
  self : who sid
  counters : ∀ (b : Broker α) counters, R b { b with counters }
  acl : ∀ b username topic access,
    R b (b.setAuth (env.auth.checkAcl b.auth username topic access).2)
  close : ∀ b, (b.sessions sid).connected = true → R b (Session.close false sid b)
  keepalive : ∀ b, R b (b.modifySession sid Session.startKeepalive)

/-- The relation allows what the handlers of all sessions do outside the shared
stores. -/
structure CoreFrame (R : Broker α → Broker α → Prop) : Prop where
  refl : ∀ b, R b b
  trans : ∀ {b₁ b₂ b₃}, R b₁ b₂ → R b₂ b₃ → R b₁ b₃
  /-- The counters and the authenticator. -/
  neutral : ∀ (b : Broker α) counters auth, R b { b with counters, auth }
  noteHanded : ∀ b call, R b (b.observe (.noteHanded call))
  plumbing : ∀ b sid change, Plumbing change → R b (b.modifySession sid change)
  close : ∀ b sid, (b.sessions sid).connected = true → R b (Session.close false sid b)

structure TopicFrame (R : Broker α → Broker α → Prop) : Prop extends CoreFrame R where
  /-- The topic tree, the stored subscriptions, the counters, the authenticator
  and its failure counts. -/
  misc : ∀ b tree subManager counters auth failures bans,
    R b { b with
      tree, subManager, counters, auth
      server.authFailures := failures
      server.authBanUntil := bans }
  neutral := fun b counters auth =>
    misc b b.tree b.subManager counters auth b.server.authFailures b.server.authBanUntil

/-- The relation also allows a session to leave without being closed. -/
structure Frame (R : Broker α → Broker α → Prop) : Prop extends TopicFrame R where
  disconnect : ∀ b sid, R b (b.modifySession sid fun s => { s with connected := false })

structure NotesFree (R : Broker α → Broker α → Prop) : Prop where
  noteSent : ∀ b msg, R b (b.observe (.noteSent msg))
  noteSettled : ∀ b msg, R b (b.observe (.noteSettled msg))

structure PendingFree (R : Broker α → Broker α → Prop) : Prop extends NotesFree R where
  pending : ∀ b table, R b (b.setPending table)

structure OutgoingFree (R : Broker α → Broker α → Prop) : Prop extends NotesFree R where
  outgoing : ∀ b table, R b (b.setOutgoing table)

structure TablesFree (R : Broker α → Broker α → Prop) : Prop
    extends PendingFree R, OutgoingFree R

structure IngestFree (R : Broker α → Broker α → Prop) : Prop where
  incoming : ∀ b store, R b (b.setIncoming store)
  noteIngest : ∀ b clientId packetId event,
    R b (b.observe (.noteIngest clientId packetId event))

/-- The relation also allows any change of the incoming messages of one
client. -/
structure IngestOf (clientId : Bytes) (R : Broker α → Broker α → Prop) : Prop where
  incoming : ∀ b store, (∀ other ≠ clientId,
    store.lookup other = b.delivery.incomingQos2.lookup other) → R b (b.setIncoming store)
  noteIngest : ∀ b packetId event, R b (b.observe (.noteIngest clientId packetId event))

theorem IngestFree.of {R : Broker α → Broker α → Prop} (h : IngestFree R) (clientId : Bytes) :
    IngestOf clientId R where
  incoming b store _ := h.incoming b store
  noteIngest b packetId event := h.noteIngest b clientId packetId event

/-- The relation also allows any change of the authenticator and its failure
counts. -/
structure AuthFree (R : Broker α → Broker α → Prop) : Prop where
  auth : ∀ b auth, R b (b.setAuth auth)
  authTables : ∀ b failures bans, R b (b.setAuthTables failures bans)

/-! ## Plumbing -/

theorem plumbing_of_fields {change : Session → Session} (writeQueue : Session → List OutPacket)
    (keepaliveTimer : Session → Option Bool) (writePending : Session → Bool)
    (h : ∀ s, change s = { s with
      writeQueue := writeQueue s, keepaliveTimer := keepaliveTimer s
      writePending := writePending s }) :
    Plumbing change := by
  constructor <;> intro s <;> rw [h s]

theorem doWrite_eq (s : Session) :
    Session.doWrite s =
      { s with writePending := s.connected && !s.writeQueue.isEmpty || s.writePending } := by
  unfold Session.doWrite
  split_ifs with h
  · rw [h, Bool.true_or]
  · simp only [Bool.not_eq_true] at h
    rw [h, Bool.false_or]

theorem plumbing_enqueue (packet : OutPacket) : Plumbing (Session.enqueue packet) := by
  refine plumbing_of_fields (fun s => s.writeQueue ++ [packet]) (·.keepaliveTimer)
    (fun s => s.writeQueue.isEmpty && s.connected || s.writePending) ?_
  intro s
  unfold Session.enqueue
  dsimp only
  have hne : (s.writeQueue ++ [packet]).isEmpty = false := by simp
  split_ifs with h
  · rw [doWrite_eq]
    simp only [hne, h, Bool.not_false, Bool.and_true, Bool.true_and]
  · simp only [Bool.not_eq_true] at h
    simp only [h, Bool.false_and, Bool.false_or]

theorem plumbing_onWrite : Plumbing Session.onWrite := by
  refine plumbing_of_fields (fun s => s.writeQueue.tail) (·.keepaliveTimer)
    (fun s => s.connected && !s.writeQueue.tail.isEmpty) ?_
  intro s
  simp [Session.onWrite, doWrite_eq]

theorem plumbing_startKeepalive : Plumbing Session.startKeepalive := by
  refine plumbing_of_fields (·.writeQueue)
    (fun s => if s.keepalive = 0 then s.keepaliveTimer else some true) (·.writePending) ?_
  intro s
  unfold Session.startKeepalive
  split <;> rfl

/-! ## Taking over a client id -/

/-- The session registered under a client id that a CONNECT on `sid` has to
close. -/
def Displaces (b : Broker α) (sid : SessionId) (clientId : Bytes) (old : SessionId) : Prop :=
  b.server.activeClients.lookup clientId = some old ∧ (b.sessions old).alive = true ∧
    old ≠ sid ∧ (b.sessions old).connected = true

theorem takeOver_of_displaces {b : Broker α} {sid old : SessionId} {clientId : Bytes}
    (h : Displaces b sid clientId old) :
    Session.takeOver sid clientId b =
      { b.modifySession old (fun s => { s with connected := false }) with blocked := true } := by
  obtain ⟨hlookup, halive, hne, hconn⟩ := h
  simp [Session.takeOver, hlookup, halive, hne, Session.close, hconn]

theorem takeOver_of_clear {b : Broker α} {sid : SessionId} {clientId : Bytes}
    (h : ∀ old, ¬Displaces b sid clientId old) : Session.takeOver sid clientId b = b := by
  unfold Session.takeOver
  cases hlookup : b.server.activeClients.lookup clientId with
  | none => rfl
  | some old =>
      dsimp only
      split_ifs with hother
      · have hconn : (b.sessions old).connected = false := by
          by_contra hconn
          exact h old ⟨hlookup, hother.1, hother.2, by simpa using hconn⟩
        simp [Session.close, hconn]
      · rfl

/-- A CONNECT that has to close another session waits for the mutex it holds. -/
theorem acceptConnect_of_displaces {b : Broker α} {sid old : SessionId} {conn : ConnectPacket}
    (env : Env α) (h : Displaces b sid conn.clientId old) :
    Session.acceptConnect env sid conn b =
      { (Session.forgetFailures sid b).modifySession old
          (fun s => { s with connected := false }) with blocked := true } := by
  have hforget : Displaces (Session.forgetFailures sid b) sid conn.clientId old := h
  unfold Session.acceptConnect
  dsimp only
  rw [takeOver_of_displaces hforget]
  simp

theorem acceptConnect_of_clear {b : Broker α} {sid : SessionId} {conn : ConnectPacket}
    (env : Env α) (hblocked : b.blocked = false)
    (h : ∀ old, ¬Displaces b sid conn.clientId old) :
    Session.acceptConnect env sid conn b =
      Session.finishConnect env sid conn
        (Session.register env sid conn (Session.forgetFailures sid b)) := by
  have htake : Session.takeOver sid conn.clientId (Session.forgetFailures sid b) =
      Session.forgetFailures sid b := takeOver_of_clear h
  have hclear : (Session.forgetFailures sid b).blocked = false := hblocked
  unfold Session.acceptConnect
  dsimp only
  rw [htake]
  simp [hclear]

/-! ## Loops over the stored subscriptions -/

section Trees

variable {K : TopicTree → TopicTree → Prop} (hrefl : ∀ tree, K tree tree)
  (htrans : ∀ {tree₁ tree₂ tree₃}, K tree₁ tree₂ → K tree₂ tree₃ → K tree₁ tree₃)
  {sid : SessionId}

include hrefl htrans

theorem Session.dropSubscriptions_rule
    (hunsubscribe : ∀ tree filter, K tree (tree.unsubscribe filter sid)) (b : Broker α) :
    K b.tree (Session.dropSubscriptions sid b).tree := by
  unfold Session.dropSubscriptions
  dsimp only
  split_ifs
  · refine List.foldlRecOn _ _ (hrefl b.tree) ?_
    intro tree hkept sub _
    exact htrans hkept (hunsubscribe tree sub.topicFilter)
  · exact hrefl b.tree

theorem Session.restoreSubscriptions_rule {conn : ConnectPacket}
    (hsubscribe : conn.cleanSession = false → ∀ tree (sub : Subscription),
      K tree (tree.subscribe sub.topicFilter ⟨sid, sub.qos⟩)) (b : Broker α) :
    K b.tree (Session.restoreSubscriptions sid conn b).tree := by
  unfold Session.restoreSubscriptions
  split_ifs with hclean
  · exact hrefl b.tree
  · rw [Bool.not_eq_true] at hclean
    refine List.foldlRecOn _ _ (hrefl b.tree) ?_
    intro tree hkept sub _
    exact htrans hkept (hsubscribe hclean tree sub)

end Trees

theorem takeIncoming_eq (clientId : Bytes) (packetId : UInt16) (b : Broker α) :
    ∃ store, DeliveryEngine.takeIncoming clientId packetId b = b.setIncoming store ∧
      ∀ other ≠ clientId, store.lookup other = b.delivery.incomingQos2.lookup other := by
  unfold DeliveryEngine.takeIncoming
  split
  · exact ⟨b.delivery.incomingQos2, rfl, fun _ _ => rfl⟩
  · refine ⟨_, rfl, ?_⟩
    intro other hne
    split_ifs
    · rw [Map.lookup_erase_ite, if_neg hne]
    · rw [Map.lookup_insert_ite, if_neg hne]

/-! ## Delivering -/

namespace DeliveryFrame

section

variable {env : Env α} {who : SessionId → Prop} {R : Broker α → Broker α → Prop}
  (hD : DeliveryFrame env who R)

include hD

theorem foldl_of_mem {β : Type} {turn : Broker α → β → Broker α} {xs : List β}
    (hturn : ∀ x ∈ xs, ∀ b, R b (turn b x)) (b : Broker α) : R b (xs.foldl turn b) := by
  refine List.foldlRecOn xs turn (hD.refl b) ?_
  intro b' hkept x hx
  exact hD.trans hkept (hturn x hx b')

theorem foldl {β : Type} {turn : Broker α → β → Broker α} (hturn : ∀ b x, R b (turn b x))
    (xs : List β) (b : Broker α) : R b (xs.foldl turn b) :=
  hD.foldl_of_mem (fun x _ b => hturn b x) b

theorem fanOut {turn : SubscriberEntry → Broker α → Broker α}
    (hturn : ∀ entry b, R b (turn entry b)) (entries : List SubscriberEntry) (b : Broker α) :
    R b (JellyBroker.fanOut turn entries b) := by
  refine hD.foldl (fun b entry => ?_) entries b
  split
  · exact hturn entry b
  · exact hD.refl b

theorem noteUntracked (hN : NotesFree R) (sid : SessionId) (qos : Nat) (packetId : UInt16)
    (b : Broker α) : R b (JellyBroker.noteUntracked env sid qos packetId b) := by
  unfold JellyBroker.noteUntracked
  split_ifs
  · exact hN.noteSent b _
  · exact hD.refl b

theorem qos1HandlePuback (hP : PendingFree R) (clientId : Bytes) (packetId : UInt16)
    (b : Broker α) : R b (Qos1Handler.handlePuback clientId packetId b) :=
  hD.trans (hP.pending b _) (hP.noteSettled _ _)

theorem qos2HandlePubrec (hO : OutgoingFree R) {clientId : Bytes} {packetId : UInt16}
    {b : Broker α} (hwho : ∀ msg,
      b.delivery.outgoing.message? clientId packetId = some msg → who msg.session) :
    R b (Qos2Handler.handlePubrec env clientId packetId b) := by
  apply Qos2Handler.handlePubrec_rule (hD.refl b)
  · intro msg _
    exact hO.outgoing b _
  · intro msg marked hmsg hmarked
    exact hD.trans hmarked (hD.deliver _ _ _ (hwho msg hmsg))

theorem qos2HandlePubrel (hO : OutgoingFree R) (clientId : Bytes) (packetId : UInt16)
    (b : Broker α) : R b (Qos2Handler.handlePubrel clientId packetId b) := by
  unfold Qos2Handler.handlePubrel
  split
  · exact hD.refl b
  · exact hD.trans (hO.outgoing b _) (hO.noteSettled _ _)

theorem qos2HandlePubcomp (hO : OutgoingFree R) (clientId : Bytes) (packetId : UInt16)
    (b : Broker α) : R b (Qos2Handler.handlePubcomp clientId packetId b) :=
  hD.trans (hO.outgoing b _) (hO.noteSettled _ _)

end

/-! ## Fan-out and retries -/

section

variable {env : Env α} {R : Broker α → Broker α → Prop} (hD : DeliveryFrame env (fun _ => True) R)

include hD

theorem qos0Deliver (pub : PublishPacket) (b : Broker α) :
    R b (Qos0Handler.deliver env pub b) :=
  hD.fanOut (fun entry b => hD.deliver entry.session _ b trivial) _ b

theorem qos1DeliverTo (hP : PendingFree R) (pub : PublishPacket) (entry : SubscriberEntry)
    (b : Broker α) : R b (Qos1Handler.deliverTo env pub entry b) := by
  unfold Qos1Handler.deliverTo
  dsimp only
  split_ifs
  · exact hP.pending b _
  · refine hD.trans ?_ (hD.deliver entry.session _ _ trivial)
    exact hD.trans (hP.pending b _) (hP.noteSent _ _)

theorem qos1Deliver (hP : PendingFree R) (pub : PublishPacket) (b : Broker α) :
    R b (Qos1Handler.deliver env pub b) :=
  hD.fanOut (hD.qos1DeliverTo hP pub) _ b

theorem qos2DeliverTo (hO : OutgoingFree R) (pub : PublishPacket) (entry : SubscriberEntry)
    (b : Broker α) : R b (Qos2Handler.deliverTo env pub entry b) := by
  unfold Qos2Handler.deliverTo
  dsimp only
  split_ifs
  · exact hD.trans (hD.noteUntracked hO.toNotesFree _ _ _ b) (hD.deliver entry.session _ _ trivial)
  · exact hO.outgoing b _
  · refine hD.trans ?_ (hD.deliver entry.session _ _ trivial)
    exact hD.trans (hO.outgoing b _) (hO.noteSent _ _)

theorem qos2Deliver (hO : OutgoingFree R) (pub : PublishPacket) (b : Broker α) :
    R b (Qos2Handler.deliver env pub b) :=
  hD.fanOut (hD.qos2DeliverTo hO pub) _ b

theorem qos1RetryMessage (hP : PendingFree R) (clientId : Bytes) (packetId : UInt16)
    (b : Broker α) : R b (Qos1Handler.retryMessage env clientId packetId b) := by
  apply Qos1Handler.retryMessage_rule (hD.refl b)
  · intro msg _ _
    exact hD.trans (hP.pending b _) (hP.noteSettled _ _)
  · intro msg _
    exact hP.pending b _
  · intro msg counted _ hcounted
    exact hD.trans hcounted (hD.deliver _ _ _ trivial)

theorem qos2RetryMessage (hO : OutgoingFree R) (clientId : Bytes) (packetId : UInt16)
    (b : Broker α) : R b (Qos2Handler.retryMessage env clientId packetId b) := by
  apply Qos2Handler.retryMessage_rule (hD.refl b)
  · intro msg _ _
    exact hD.trans (hO.outgoing b _) (hO.noteSettled _ _)
  · intro msg _
    exact hO.outgoing b _
  · intro msg counted _ hcounted
    exact hD.trans hcounted (hD.deliver _ _ _ trivial)

end

end DeliveryFrame

/-! ## The handlers of a session -/

def recordSubscription (sid : SessionId) (filter : SubscribePacket.Filter) (b : Broker α) :
    Broker α :=
  { b with
    tree := b.tree.subscribe filter.topicFilter ⟨sid, filter.requestedQos⟩
    subManager :=
      if (b.sessions sid).cleanSession then b.subManager
      else b.subManager.add (b.sessions sid).clientId filter.topicFilter filter.requestedQos
    counters.subscribed := b.counters.subscribed + 1 }

theorem installFilter_eq (env : Env α) (sid : SessionId) (filter : SubscribePacket.Filter)
    (b : Broker α) :
    Session.installFilter env sid filter b =
      Session.deliverRetained env sid filter.topicFilter (recordSubscription sid filter b) := rfl

structure Permitted (env : Env α) (b : Broker α) (sid : SessionId)
    (filter : SubscribePacket.Filter) : Prop where
  valid : isValidFilter env.cfg filter.topicFilter = true
  access : ∃ access auth, env.auth.checkAcl b.auth (b.sessions sid).username filter.topicFilter
    .read = (.ok access, auth) ∧ access ≠ .none

structure Grantable (env : Env α) (b : Broker α) (sid : SessionId)
    (filter : SubscribePacket.Filter) : Prop extends Permitted env b sid filter where
  below : Session.subscriptionLimitReached env sid b = false

def AccessThrows (env : Env α) (b : Broker α) (sid : SessionId)
    (filter : SubscribePacket.Filter) : Prop :=
  isValidFilter env.cfg filter.topicFilter = true ∧ ∃ text auth,
    env.auth.checkAcl b.auth (b.sessions sid).username filter.topicFilter .read =
      (.error text, auth)

theorem Permitted.not_throws {env : Env α} {b : Broker α} {sid : SessionId}
    {filter : SubscribePacket.Filter} (h : Permitted env b sid filter) :
    ¬AccessThrows env b sid filter := by
  rintro ⟨_, text, auth, hthrown⟩
  obtain ⟨access, auth', hacl, _⟩ := h.access
  rw [hacl] at hthrown
  cases hthrown

def accessChecked (env : Env α) (sid : SessionId) (filter : SubscribePacket.Filter)
    (b : Broker α) : Broker α :=
  b.setAuth (env.auth.checkAcl b.auth (b.sessions sid).username filter.topicFilter .read).2

/-- What a turn of the loop over the filters of a SUBSCRIBE can do. -/
inductive SubscribeTurn (env : Env α) (b : Broker α) (sid : SessionId)
    (filter : SubscribePacket.Filter) : Broker α × Except Exception SubackCode → Prop where
  | invalid : isValidFilter env.cfg filter.topicFilter = false →
      SubscribeTurn env b sid filter (b, .ok .failure)
  | thrown {e : Exception} : AccessThrows env b sid filter →
      SubscribeTurn env b sid filter (accessChecked env sid filter b, .error e)
  | refused : ¬AccessThrows env b sid filter → ¬Grantable env b sid filter →
      SubscribeTurn env b sid filter (accessChecked env sid filter b, .ok .failure)
  | granted : Grantable env b sid filter → SubscribeTurn env b sid filter
      (Session.deliverRetained env sid filter.topicFilter
        (recordSubscription sid filter (accessChecked env sid filter b)),
        .ok (.granted filter.requestedQos))

theorem subscribeTo_turn (env : Env α) (sid : SessionId) (filter : SubscribePacket.Filter)
    (b : Broker α) : SubscribeTurn env b sid filter (Session.subscribeTo env sid filter b) := by
  unfold Session.subscribeTo
  cases hvalid : isValidFilter env.cfg filter.topicFilter with
  | false => exact .invalid hvalid
  | true =>
      simp only [Bool.not_true, Bool.false_eq_true, if_false]
      rcases hacl : env.auth.checkAcl b.auth (b.sessions sid).username filter.topicFilter .read with
        ⟨text | access, auth⟩
      · have hchecked : b.setAuth auth = accessChecked env sid filter b := by
          rw [accessChecked, hacl]
        dsimp only
        rw [hchecked]
        exact .thrown ⟨hvalid, text, auth, hacl⟩
      · have hchecked : b.setAuth auth = accessChecked env sid filter b := by
          rw [accessChecked, hacl]
        have hthrows : ¬AccessThrows env b sid filter := by
          rintro ⟨_, text, auth', hthrown⟩
          rw [hacl] at hthrown
          cases hthrown
        dsimp only
        rw [hchecked]
        split_ifs with hnone hlimit
        · refine .refused hthrows ?_
          rintro ⟨⟨_, access', auth', hacl', haccess⟩, _⟩
          rw [hacl] at hacl'
          cases hacl'
          exact haccess hnone
        · refine .refused hthrows ?_
          rintro ⟨_, hbelow⟩
          rw [hbelow] at hlimit
          cases hlimit
        · exact .granted ⟨⟨hvalid, access, auth, hacl, hnone⟩, Bool.eq_false_iff.mpr hlimit⟩

/-- The turns of the loop over the filters, each with the broker that it finds, up to an
access check that throws. -/
def Session.subscribeTurns (env : Env α) (sid : SessionId) :
    List SubscribePacket.Filter → Broker α → List (SubscribePacket.Filter × Broker α)
  | [], _ => []
  | filter :: rest, b =>
      (filter, b) :: match Session.subscribeTo env sid filter b with
        | (_, .error _) => []
        | (b, .ok _) => Session.subscribeTurns env sid rest b

theorem Session.subscribeTurns_eq_cons {env : Env α} {sid : SessionId}
    {filters : List SubscribePacket.Filter} {b : Broker α}
    {turn : SubscribePacket.Filter × Broker α} {later : List (SubscribePacket.Filter × Broker α)}
    (h : Session.subscribeTurns env sid filters b = turn :: later) :
    turn.2 = b ∧ ∃ rest, filters = turn.1 :: rest ∧ (later = [] ∨
      ∃ b' code, Session.subscribeTo env sid turn.1 b = (b', .ok code) ∧
        later = Session.subscribeTurns env sid rest b') := by
  cases filters with
  | nil => cases h
  | cons filter rest =>
      unfold Session.subscribeTurns at h
      obtain ⟨rfl, hlater⟩ := List.cons.inj h
      refine ⟨rfl, rest, rfl, ?_⟩
      rcases hsub : Session.subscribeTo env sid filter b with ⟨b', e | code⟩
      · rw [hsub] at hlater
        exact Or.inl hlater.symm
      · rw [hsub] at hlater
        exact Or.inr ⟨b', code, rfl, hlater.symm⟩

/-- What the rate limit leaves, and that an address which may go on is not
banned. -/
theorem checkAuthRateLimit_eq (sid : SessionId) (b : Broker α) :
    ∃ allowed failures bans,
      Session.checkAuthRateLimit sid b = (allowed, b.setAuthTables failures bans) ∧
      (allowed = true → ∀ banUntil,
        b.server.authBanUntil.lookup (b.sessions sid).remoteIp = some banUntil →
          banUntil ≤ b.now) := by
  unfold Session.checkAuthRateLimit
  dsimp only
  cases hban : b.server.authBanUntil.lookup (b.sessions sid).remoteIp with
  | none => exact ⟨true, b.server.authFailures, b.server.authBanUntil, rfl, fun _ _ => nofun⟩
  | some banUntil =>
      dsimp only
      split_ifs with hbanned
      · exact ⟨false, b.server.authFailures, b.server.authBanUntil, rfl, nofun⟩
      · refine ⟨true, _, _, rfl, ?_⟩
        intro _ t ht
        have heq : banUntil = t := Option.some.inj ht
        omega

namespace SessionFrame

section

variable {env : Env α} {sid : SessionId} {who : SessionId → Prop}
  {R : Broker α → Broker α → Prop} (hS : SessionFrame env sid who R)

include hS

theorem closeOwn (b : Broker α) : R b (Session.close false sid b) := by
  by_cases h : (b.sessions sid).connected = true
  · exact hS.close b h
  · rw [Session.close_of_idle (by simpa using h)]
    exact hS.refl b

theorem deliverOwn (packet : OutPacket) (b : Broker α) : R b (Session.deliver env sid packet b) :=
  hS.deliver sid packet b hS.self

theorem refuse (code : ConnackCode) (b : Broker α) : R b (Session.refuse env sid code b) :=
  hS.trans (hS.deliverOwn _ b) (hS.closeOwn _)

theorem countPublished (b : Broker α) : R b (Session.countPublished b) := hS.counters b _

theorem countDropped (b : Broker α) : R b (Session.countDropped b) := hS.counters b _

/-- A PUBLISH is ignored, closes the session, is dropped or throws after the
access check, or is accepted. -/
theorem handlePublish_cases (hdr : FixedHeader) (body : Bytes) (b : Broker α) :
    R b (Session.handlePublish env sid hdr body b).1 ∨
      ∃ pub rest auth, (b.sessions sid).connected = true ∧
        PublishPacket.parse hdr body = .ok (pub, rest) ∧
        isValidTopic env.cfg pub.topic = true ∧ R b (b.setAuth auth) ∧
        Session.handlePublish env sid hdr body b =
          (Session.acceptPublish env sid pub (b.setAuth auth), none) := by
  unfold Session.handlePublish
  by_cases hconn : (b.sessions sid).connected = true
  · simp only [hconn, Bool.not_true, Bool.false_eq_true, if_false]
    rcases hparse : PublishPacket.parse hdr body with e | ⟨pub, rest⟩
    · exact Or.inl (hS.closeOwn b)
    · dsimp only
      have hauth := hS.acl b (b.sessions sid).username pub.topic .write
      revert hauth
      rcases env.auth.checkAcl b.auth (b.sessions sid).username pub.topic .write with
        ⟨text | access, auth⟩
      · exact Or.inl
      · intro hauth
        dsimp only
        by_cases haccess : access = .none
        · left
          rw [if_pos haccess]
          exact hS.trans hauth (hS.countDropped _)
        · rw [if_neg haccess]
          by_cases hvalid : isValidTopic env.cfg pub.topic = true
          · right
            refine ⟨pub, rest, auth, trivial, rfl, hvalid, hauth, ?_⟩
            simp [hvalid]
          · left
            simp only [hvalid, Bool.not_false, if_true]
            exact hS.trans hauth (hS.countDropped _)
  · left
    simp only [hconn, Bool.not_false, if_true]
    exact hS.refl b

theorem deliverRetained (hN : NotesFree R) (filter : Bytes) (b : Broker α) :
    R b (Session.deliverRetained env sid filter b) := by
  refine hS.foldl (fun b row => ?_) _ b
  unfold Session.deliverRetainedTo
  split
  · exact hS.trans (hS.noteUntracked hN sid _ _ b) (hS.deliverOwn _ _)
  · exact hS.refl b

theorem subscribeTo (hN : NotesFree R) {filter : SubscribePacket.Filter}
    (hrecord : ∀ b, isValidFilter env.cfg filter.topicFilter = true →
      Session.subscriptionLimitReached env sid b = false →
      R b (recordSubscription sid filter b)) (b : Broker α) :
    R b (Session.subscribeTo env sid filter b).1 := by
  have hchecked : R b (accessChecked env sid filter b) :=
    hS.acl b (b.sessions sid).username filter.topicFilter .read
  have hturn := subscribeTo_turn env sid filter b
  generalize Session.subscribeTo env sid filter b = turn at hturn ⊢
  cases hturn with
  | invalid => exact hS.refl b
  | thrown => exact hchecked
  | refused => exact hchecked
  | granted hgrantable =>
      refine hS.trans hchecked (hS.trans (hrecord _ hgrantable.valid hgrantable.below) ?_)
      exact hS.deliverRetained hN _ _

theorem subscribeAll (hN : NotesFree R) {filters : List SubscribePacket.Filter}
    (hrecord : ∀ filter ∈ filters, ∀ b, isValidFilter env.cfg filter.topicFilter = true →
      Session.subscriptionLimitReached env sid b = false → R b (recordSubscription sid filter b))
    (packetId : UInt16) (codes : List SubackCode) (b : Broker α) :
    R b (Session.subscribeAll env sid packetId filters codes b).1 := by
  induction filters generalizing codes b with
  | nil => exact hS.deliverOwn _ b
  | cons filter rest ih =>
      have hturn := hS.subscribeTo hN (hrecord filter List.mem_cons_self) b
      unfold Session.subscribeAll
      rcases hsub : Session.subscribeTo env sid filter b with ⟨b', e | code⟩
      · rw [hsub] at hturn
        exact hturn
      · rw [hsub] at hturn
        refine hS.trans hturn (ih (fun other hother => ?_) _ b')
        exact hrecord other (List.mem_cons_of_mem _ hother)

theorem subscribeTurns (hN : NotesFree R) {filters : List SubscribePacket.Filter}
    (hrecord : ∀ filter ∈ filters, ∀ b, isValidFilter env.cfg filter.topicFilter = true →
      Session.subscriptionLimitReached env sid b = false → R b (recordSubscription sid filter b))
    (b : Broker α) : ∀ turn ∈ Session.subscribeTurns env sid filters b, R b turn.2 := by
  induction filters generalizing b with
  | nil => nofun
  | cons filter rest ih =>
      have hturn := hS.subscribeTo hN (hrecord filter List.mem_cons_self) b
      unfold Session.subscribeTurns
      rcases hsub : Session.subscribeTo env sid filter b with ⟨b', e | code⟩
      · intro turn hmem
        rw [List.mem_singleton.mp hmem]
        exact hS.refl b
      · rw [hsub] at hturn
        intro turn hmem
        rcases List.mem_cons.mp hmem with rfl | hlater
        · exact hS.refl b
        · refine hS.trans hturn (ih (fun other hother => ?_) b' turn hlater)
          exact hrecord other (List.mem_cons_of_mem _ hother)

theorem handleSubscribe {body : Bytes} {b : Broker α}
    (hall : ∀ sub rest, (b.sessions sid).connected = true →
      SubscribePacket.parse body = .ok (sub, rest) →
      R b (Session.subscribeAll env sid sub.packetId sub.filters [] b).1) :
    R b (Session.handleSubscribe env sid body b).1 := by
  unfold Session.handleSubscribe
  by_cases hconn : (b.sessions sid).connected = true
  · simp only [hconn, Bool.not_true, Bool.false_eq_true, if_false]
    rcases hparse : SubscribePacket.parse body with e | ⟨sub, rest⟩
    · exact hS.closeOwn b
    · exact hall sub rest hconn hparse
  · simp only [hconn, Bool.not_false, if_true]
    exact hS.refl b

theorem handleUnsubscribe {body : Bytes} {b : Broker α}
    (hall : ∀ unsub rest, (b.sessions sid).connected = true →
      UnsubscribePacket.parse body = .ok (unsub, rest) →
      R b (unsub.topicFilters.foldl (fun b filter => Session.unsubscribeFrom sid filter b) b)) :
    R b (Session.handleUnsubscribe env sid body b) := by
  unfold Session.handleUnsubscribe
  by_cases hconn : (b.sessions sid).connected = true
  · simp only [hconn, Bool.not_true, Bool.false_eq_true, if_false]
    rcases hparse : UnsubscribePacket.parse body with e | ⟨unsub, rest⟩
    · exact hS.closeOwn b
    · exact hS.trans (hall unsub rest hconn hparse) (hS.deliverOwn _ _)
  · simp only [hconn, Bool.not_false, if_true]
    exact hS.refl b

theorem handlePingreq (b : Broker α) : R b (Session.handlePingreq env sid b) := by
  unfold Session.handlePingreq
  split
  · exact hS.refl b
  · exact hS.deliverOwn _ b

theorem handleAck {parse : Utils.Reader UInt16} {act : UInt16 → Broker α → Broker α}
    {body : Bytes} {b : Broker α}
    (hact : ∀ packetId rest, (b.sessions sid).connected = true →
      parse body = .ok (packetId, rest) → R b (act packetId b)) :
    R b (Session.handleAck parse act sid body b) := by
  unfold Session.handleAck
  by_cases hconn : (b.sessions sid).connected = true
  · simp only [hconn, Bool.not_true, Bool.false_eq_true, if_false]
    rcases hparse : parse body with e | ⟨packetId, rest⟩
    · exact hS.closeOwn b
    · exact hact packetId rest hconn hparse
  · simp only [hconn, Bool.not_false, if_true]
    exact hS.refl b

/-! ## CONNECT -/

theorem acceptConnect {conn : ConnectPacket} {b : Broker α} (hA : AuthFree R)
    (hblocked : b.blocked = false)
    (hregister : (∀ old, ¬Displaces b sid conn.clientId old) →
      R (Session.forgetFailures sid b) (Session.restoreSubscriptions sid conn
        (Session.register env sid conn (Session.forgetFailures sid b))))
    (hblock : ∀ old, Displaces b sid conn.clientId old → R (Session.forgetFailures sid b)
      { (Session.forgetFailures sid b).modifySession old
          (fun s => { s with connected := false }) with blocked := true }) :
    R b (Session.acceptConnect env sid conn b) := by
  have hforget : R b (Session.forgetFailures sid b) := hA.authTables b _ _
  by_cases hclear : ∀ old, ¬Displaces b sid conn.clientId old
  · rw [acceptConnect_of_clear env hblocked hclear]
    refine hS.trans hforget (hS.trans ?_ (hS.keepalive _))
    exact hS.trans (hregister hclear) (hS.deliverOwn _ _)
  · simp only [not_forall, not_not] at hclear
    obtain ⟨old, hold⟩ := hclear
    rw [acceptConnect_of_displaces env hold]
    exact hS.trans hforget (hblock old hold)

/-- A CONNECT closes the session, is refused or throws, or it is acceptable. -/
theorem handleConnect (hA : AuthFree R) {body : Bytes} {b : Broker α}
    (haccept : ∀ conn auth failures bans, AcceptableConnect env b sid body conn →
      R b (Session.acceptConnect env sid conn ((b.setAuthTables failures bans).setAuth auth))) :
    R b (Session.handleConnect env sid body b).1 := by
  unfold Session.handleConnect
  by_cases hconn : (b.sessions sid).connected = true
  · rw [if_pos hconn]
    exact hS.closeOwn b
  rw [if_neg hconn]
  rcases hparse : ConnectPacket.parse body with e | ⟨conn, rest⟩
  · exact hS.closeOwn b
  dsimp only
  split_ifs with hprotocol hidentified
  · exact hS.refuse _ b
  · exact hS.refuse _ b
  obtain ⟨allowed, failures, bans, hlimit, hunbanned⟩ := checkAuthRateLimit_eq sid b
  have htables := hA.authTables b failures bans
  rw [hlimit]
  cases allowed with
  | false => exact hS.trans htables (hS.refuse _ _)
  | true =>
      have hadmitted : AdmittedConnect b sid body conn := by
        refine ⟨by simpa using hconn, ⟨rest, hparse⟩, by simpa using hprotocol, ?_, hunbanned rfl⟩
        by_contra hid
        simp only [not_or, not_not] at hid
        exact hidentified hid
      dsimp only
      unfold Session.authenticateConnect
      split_ifs with hcredentials
      · rcases hresult : env.auth.authenticate (b.setAuthTables failures bans).auth conn.clientId
          conn.username conn.password with ⟨text | result, auth⟩
        · exact hS.trans htables (hA.auth _ auth)
        · dsimp only
          split_ifs with hsuccess
          · exact haccept conn auth failures bans
              ⟨hadmitted, Or.inr ⟨result, auth, hresult, hsuccess⟩⟩
          · refine hS.trans (hS.trans htables (hA.auth _ auth)) ?_
            exact hS.trans (hA.authTables _ _ _) (hS.refuse _ _)
      · simp only [ne_eq, not_or, not_not] at hcredentials
        exact haccept conn b.auth failures bans ⟨hadmitted, Or.inl hcredentials⟩

/-! ## Incoming QoS 2 messages -/

theorem noteAnswer {clientId : Bytes} (hI : IngestOf clientId R) (packetId : UInt16)
    (event : IngestEvent) (b : Broker α) :
    R b (Session.noteAnswer env sid clientId packetId event b) := by
  unfold Session.noteAnswer
  split_ifs
  · exact hI.noteIngest b packetId event
  · exact hS.refl b

theorem receiveQos2 {b : Broker α} (hI : IngestOf (b.sessions sid).clientId R)
    (pub : PublishPacket) : R b (Session.receiveQos2 env sid pub b) := by
  unfold Session.receiveQos2
  dsimp only
  refine hS.trans ?_ (hI.incoming _ _ fun other hne => ?_)
  · refine hS.trans ?_ (hS.deliverOwn _ _)
    exact hS.trans (hI.noteIngest b _ _) (hS.noteAnswer hI _ _ _)
  · rw [Map.lookup_insert_ite, if_neg hne]

theorem releaseQos2_of_complete {clientId : Bytes} {packetId : UInt16}
    (hnote : ∀ event b, R b (b.observe (.noteIngest clientId packetId event)))
    (hcomplete : ∀ b, R b (DeliveryEngine.completeIncomingQos2 env clientId packetId b).2)
    (hstray : ∀ b, R b (Qos2Handler.handlePubrel clientId packetId b)) (b : Broker α) :
    R b (Session.releaseQos2 env sid clientId packetId b) := by
  unfold Session.releaseQos2
  have hnoted := hnote .pubrel b
  have hdone := hcomplete (b.observe (.noteIngest clientId packetId .pubrel))
  revert hdone
  rcases DeliveryEngine.completeIncomingQos2 env clientId packetId
    (b.observe (.noteIngest clientId packetId .pubrel)) with ⟨_ | _, done⟩
  · intro hdone
    exact hS.trans hnoted (hS.trans hdone (hstray done))
  · intro hdone
    refine hS.trans (hS.trans hnoted hdone) (hS.trans (hS.countPublished done) ?_)
    refine hS.trans ?_ (hS.deliverOwn _ _)
    unfold Session.noteAnswer
    split_ifs
    · exact hnote .pubcomp _
    · exact hS.refl _

theorem releaseQos2 {clientId : Bytes} (hI : IngestOf clientId R) {packetId : UInt16}
    {b : Broker α}
    (hforward : ∀ msg b', b.delivery.incoming? clientId packetId = some msg →
      R b' (Qos2Handler.deliver env
        { topic := msg.topic, payload := msg.payload, qos := msg.qos } b'))
    (hstray : b.delivery.incoming? clientId packetId = none →
      R (b.observe (.noteIngest clientId packetId .pubrel))
        (Qos2Handler.handlePubrel clientId packetId
          (b.observe (.noteIngest clientId packetId .pubrel)))) :
    R b (Session.releaseQos2 env sid clientId packetId b) := by
  unfold Session.releaseQos2 DeliveryEngine.completeIncomingQos2
  have hnoted := hI.noteIngest b packetId .pubrel
  have hsame : (b.observe (.noteIngest clientId packetId .pubrel)).delivery.incoming? clientId
      packetId = b.delivery.incoming? clientId packetId := rfl
  generalize b.observe (.noteIngest clientId packetId .pubrel) = noted at hnoted hsame hstray ⊢
  rw [hsame]
  cases hstored : b.delivery.incoming? clientId packetId with
  | none => exact hS.trans hnoted (hstray hstored)
  | some msg =>
      dsimp only
      obtain ⟨store, htake, hothers⟩ := takeIncoming_eq clientId packetId noted
      rw [htake]
      have htaken : R b ((noted.setIncoming store).observe
          (.noteIngest clientId packetId (.forward msg))) :=
        hS.trans hnoted (hS.trans (hI.incoming noted store hothers) (hI.noteIngest _ _ _))
      refine hS.trans ?_ (hS.deliverOwn _ _)
      refine hS.trans ?_ (hS.noteAnswer hI _ _ _)
      refine hS.trans ?_ (hS.countPublished _)
      exact hS.trans htaken (hforward msg _ hstored)

end

theorem sessions_storeRetained (env : Env α) (pub : PublishPacket) (b : Broker α) :
    (Session.storeRetained env pub b).sessions = b.sessions := by
  unfold Session.storeRetained
  split_ifs <;> rfl

/-- An accepted PUBLISH.  A message of QoS 2 is not forwarded before its
PUBREL. -/
theorem acceptPublish_of_receive {env : Env α} {sid : SessionId} {R : Broker α → Broker α → Prop}
    (hS : SessionFrame env sid (fun _ => True) R) {pub : PublishPacket} {b : Broker α}
    (hreceive : ∀ b', b'.sessions = b.sessions → R b' (Session.receiveQos2 env sid pub b'))
    (hforward : ∀ b, R b (Qos1Handler.deliver env pub b))
    (hretained : ∀ b, R b (Session.storeRetained env pub b)) :
    R b (Session.acceptPublish env sid pub b) := by
  unfold Session.acceptPublish Session.routePublish
  have hstored : R b (Session.storeRetained env pub
      { b with counters.received := b.counters.received + 1 }) :=
    hS.trans (hS.counters b _) (hretained _)
  have hsessions := sessions_storeRetained env pub
    { b with counters.received := b.counters.received + 1 }
  refine hS.trans hstored ?_
  split
  · rename_i hqos
    simp only [DeliveryEngine.publishFromClient, hqos]
    exact hS.trans (hS.qos0Deliver pub _) (hS.countPublished _)
  · rename_i hqos
    simp only [DeliveryEngine.publishFromClient, hqos]
    refine hS.trans ?_ (hS.countPublished _)
    exact hS.trans (hS.deliverOwn _ _) (hforward _)
  · exact hreceive _ hsessions
  · exact hS.refl _

theorem acceptPublish {env : Env α} {sid : SessionId} {R : Broker α → Broker α → Prop}
    (hS : SessionFrame env sid (fun _ => True) R) {pub : PublishPacket} {b : Broker α}
    (hI : IngestOf (b.sessions sid).clientId R)
    (hforward : ∀ b, R b (Qos1Handler.deliver env pub b))
    (hretained : ∀ b, R b (Session.storeRetained env pub b)) :
    R b (Session.acceptPublish env sid pub b) := by
  apply hS.acceptPublish_of_receive _ hforward hretained
  intro b' hsessions
  apply hS.receiveQos2
  rw [hsessions]
  exact hI

end SessionFrame

/-! ## Dispatch -/

/-- What the packets do that the frame alone does not cover. -/
structure PacketCases (env : Env α) (sid : SessionId) (R : Broker α → Broker α → Prop)
    (hdr : FixedHeader) (body : Bytes) (b : Broker α) : Prop where
  connect : hdr.type = some .connect → R b (Session.handleConnect env sid body b).1
  publish : ∀ pub rest auth, (b.sessions sid).connected = true → hdr.type = some .publish →
    PublishPacket.parse hdr body = .ok (pub, rest) → isValidTopic env.cfg pub.topic = true →
    R b (b.setAuth auth) → R b (Session.acceptPublish env sid pub (b.setAuth auth))
  puback : ∀ packetId rest, (b.sessions sid).connected = true → hdr.type = some .puback →
    PubackPacket.parse body = .ok (packetId, rest) →
    R b (Qos1Handler.handlePuback (b.sessions sid).clientId packetId b)
  pubrec : ∀ packetId rest, (b.sessions sid).connected = true → hdr.type = some .pubrec →
    PubrecPacket.parse body = .ok (packetId, rest) →
    R b (Qos2Handler.handlePubrec env (b.sessions sid).clientId packetId b)
  pubrel : ∀ packetId rest, (b.sessions sid).connected = true → hdr.type = some .pubrel →
    PubrelPacket.parse body = .ok (packetId, rest) →
    R b (Session.releaseQos2 env sid (b.sessions sid).clientId packetId b)
  pubcomp : ∀ packetId rest, (b.sessions sid).connected = true → hdr.type = some .pubcomp →
    PubcompPacket.parse body = .ok (packetId, rest) →
    R b (Qos2Handler.handlePubcomp (b.sessions sid).clientId packetId b)
  subscribe : ∀ sub rest, (b.sessions sid).connected = true → hdr.type = some .subscribe →
    SubscribePacket.parse body = .ok (sub, rest) →
    R b (Session.subscribeAll env sid sub.packetId sub.filters [] b).1
  unsubscribe : ∀ unsub rest, (b.sessions sid).connected = true →
    hdr.type = some .unsubscribe → UnsubscribePacket.parse body = .ok (unsub, rest) →
    R b (unsub.topicFilters.foldl (fun b filter => Session.unsubscribeFrom sid filter b) b)
  disconnect : hdr.type = some .disconnect → R b (Session.handleDisconnect sid b)

namespace SessionFrame

variable {env : Env α} {sid : SessionId} {who : SessionId → Prop}
  {R : Broker α → Broker α → Prop} (hS : SessionFrame env sid who R)

include hS

theorem dispatch {hdr : FixedHeader} {body : Bytes} {b : Broker α}
    (h : PacketCases env sid R hdr body b) : R b (Session.dispatch env sid hdr body b).1 := by
  unfold Session.dispatch
  split <;> rename_i htype
  · exact h.connect htype
  · rcases hS.handlePublish_cases hdr body b with
      hframe | ⟨pub, rest, auth, hconn, hparse, hvalid, hauth, heq⟩
    · exact hframe
    · rw [heq]
      exact h.publish pub rest auth hconn htype hparse hvalid hauth
  · exact hS.handleAck fun packetId rest hconn => h.puback packetId rest hconn htype
  · exact hS.handleAck fun packetId rest hconn => h.pubrec packetId rest hconn htype
  · exact hS.handleAck fun packetId rest hconn => h.pubrel packetId rest hconn htype
  · exact hS.handleAck fun packetId rest hconn => h.pubcomp packetId rest hconn htype
  · exact hS.handleSubscribe fun sub rest hconn => h.subscribe sub rest hconn htype
  · exact hS.handleUnsubscribe fun unsub rest hconn => h.unsubscribe unsub rest hconn htype
  · exact hS.handlePingreq b
  · exact h.disconnect htype
  · exact hS.refl b

theorem handlePacket {packet : Bytes} {b : Broker α}
    (h : ∀ hdr body, Session.decodeHeader packet = .ok (hdr, body) →
      PacketCases env sid R hdr body b) :
    R b (Session.handlePacket env sid packet b).1 := by
  unfold Session.handlePacket
  split
  · exact hS.refl b
  · cases hdecode : Session.decodeHeader packet with
    | error e => exact hS.refl b
    | ok decoded => exact hS.dispatch (h decoded.1 decoded.2 hdecode)

end SessionFrame

/-! ## All sessions -/

namespace CoreFrame

variable {R : Broker α → Broker α → Prop} (hR : CoreFrame R)

include hR

theorem closeAny (b : Broker α) (sid : SessionId) : R b (Session.close false sid b) := by
  by_cases h : (b.sessions sid).connected = true
  · exact hR.close b sid h
  · rw [Session.close_of_idle (by simpa using h)]
    exact hR.refl b

theorem deliver (env : Env α) (sid : SessionId) (packet : OutPacket) (b : Broker α) :
    R b (Session.deliver env sid packet b) := by
  unfold Session.deliver
  refine hR.trans (hR.noteHanded b ⟨sid, packet, Session.accepts env.cfg (b.sessions sid)⟩) ?_
  dsimp only
  split_ifs
  · exact hR.refl _
  · exact hR.closeAny _ sid
  · exact hR.plumbing _ sid _ (plumbing_enqueue packet)

theorem setAuth (b : Broker α) (auth : α) : R b (b.setAuth auth) := hR.neutral b b.counters auth

theorem setCounters (b : Broker α) (counters : MessageCounters) : R b { b with counters } :=
  hR.neutral b counters b.auth

theorem delivery (env : Env α) : DeliveryFrame env (fun _ => True) R where
  refl := hR.refl
  trans := hR.trans
  deliver target packet b _ := hR.deliver env target packet b

theorem session (env : Env α) (sid : SessionId) : SessionFrame env sid (fun _ => True) R where
  toDeliveryFrame := hR.delivery env
  self := trivial
  counters := hR.setCounters
  acl b _ _ _ := hR.setAuth b _
  close b hconn := hR.close b sid hconn
  keepalive b := hR.plumbing b sid _ plumbing_startKeepalive

end CoreFrame

/-! ## Any topics -/

namespace TopicFrame

variable {R : Broker α → Broker α → Prop} (hR : TopicFrame R)

include hR

theorem authFree : AuthFree R where
  auth := hR.setAuth
  authTables b failures bans := hR.misc b b.tree b.subManager b.counters b.auth failures bans

theorem topics (b : Broker α) (tree : TopicTree) (subManager : SubscriptionManager) :
    R b { b with tree, subManager } :=
  hR.misc b tree subManager b.counters b.auth b.server.authFailures b.server.authBanUntil

theorem storeRetained (env : Env α) (pub : PublishPacket) (b : Broker α) :
    R b (Session.storeRetained env pub b) := by
  unfold Session.storeRetained
  split_ifs
  · exact hR.topics b _ b.subManager
  · exact hR.refl b

theorem restoreSubscriptions (sid : SessionId) (conn : ConnectPacket) (b : Broker α) :
    R b (Session.restoreSubscriptions sid conn b) := by
  unfold Session.restoreSubscriptions
  split
  · exact hR.topics b b.tree _
  · exact hR.topics b _ b.subManager

theorem subscribeAll (hN : NotesFree R) (env : Env α) (sid : SessionId) (packetId : UInt16)
    (filters : List SubscribePacket.Filter) (codes : List SubackCode) (b : Broker α) :
    R b (Session.subscribeAll env sid packetId filters codes b).1 := by
  refine (hR.session env sid).subscribeAll hN (fun filter _ b _ _ => ?_) packetId codes b
  exact hR.misc b _ _ _ b.auth b.server.authFailures b.server.authBanUntil

theorem unsubscribeAll (sid : SessionId) (filters : List Bytes) (b : Broker α) :
    R b (filters.foldl (fun b filter => Session.unsubscribeFrom sid filter b) b) := by
  induction filters generalizing b with
  | nil => exact hR.refl b
  | cons filter rest ih => exact hR.trans (hR.topics b _ _) (ih _)

theorem acceptPublish (hP : PendingFree R) (hI : IngestFree R) (env : Env α) (sid : SessionId)
    (pub : PublishPacket) (b : Broker α) : R b (Session.acceptPublish env sid pub b) :=
  (hR.session env sid).acceptPublish (hI.of _) ((hR.session env sid).qos1Deliver hP pub)
    (hR.storeRetained env pub)

theorem releaseQos2 (hI : IngestFree R) (hO : OutgoingFree R) (env : Env α) (sid : SessionId)
    (clientId : Bytes) (packetId : UInt16) (b : Broker α) :
    R b (Session.releaseQos2 env sid clientId packetId b) :=
  (hR.session env sid).releaseQos2 (hI.of clientId)
    (fun _ b' _ => (hR.session env sid).qos2Deliver hO _ b')
    fun _ => (hR.session env sid).qos2HandlePubrel hO clientId packetId _

end TopicFrame

namespace Frame

variable {R : Broker α → Broker α → Prop} (hR : Frame R)

include hR

theorem weaken {S : Broker α → Broker α → Prop} (hle : ∀ {b b'}, R b b' → S b b')
    (htrans : ∀ {b₁ b₂ b₃}, S b₁ b₂ → S b₂ b₃ → S b₁ b₃) : Frame S where
  refl b := hle (hR.refl b)
  trans := htrans
  misc b tree subManager counters auth failures bans :=
    hle (hR.misc b tree subManager counters auth failures bans)
  noteHanded b call := hle (hR.noteHanded b call)
  plumbing b sid change hplumbing := hle (hR.plumbing b sid change hplumbing)
  close b sid hconn := hle (hR.close b sid hconn)
  disconnect b sid := hle (hR.disconnect b sid)

theorem handleDisconnect (sid : SessionId) (b : Broker α) :
    R b (Session.handleDisconnect sid b) :=
  hR.trans (hR.disconnect b sid) (hR.closeAny _ sid)

end Frame

end JellyBroker
