import JellyBroker.Broker.FanOut
import JellyBroker.Broker.Provenance
import JellyBroker.Broker.Routing
import JellyBroker.Topic.RetainedListing
/-!
# A new subscription gets the retained messages

The way of a retained message, from the PUBLISH that stores it to the sessions that
subscribe later.  What the tree retains for a topic is the last PUBLISH that was stored
for it (`LastRetained`), and a SUBSCRIBE brings one copy of each such message that a
granted filter matches, filter by filter, before its SUBACK.
-/

namespace JellyBroker

open JellyBroker.Lib JellyBroker.Packet JellyBroker.Topic

variable {α : Type}

/-! ## What leaves the retained messages alone -/

structure SameRetained (tree tree' : TopicTree) : Prop where
  retained : ∀ path, tree'.root.retainedAt path = tree.root.retainedAt path
  distinct : tree.root.Distinct → tree'.root.Distinct

namespace SameRetained

theorem refl (tree : TopicTree) : SameRetained tree tree := ⟨fun _ => rfl, id⟩

theorem trans {tree₁ tree₂ tree₃ : TopicTree} (h : SameRetained tree₁ tree₂)
    (h' : SameRetained tree₂ tree₃) : SameRetained tree₁ tree₃ :=
  ⟨fun path => (h'.retained path).trans (h.retained path), fun hd => h'.distinct (h.distinct hd)⟩

theorem subscribe (tree : TopicTree) (filter : Bytes) (entry : SubscriberEntry) :
    SameRetained tree (tree.subscribe filter entry) where
  retained path := Node.retainedAt_update_same (Node.changesOwn_withSubscribers _) _ path tree.root
  distinct h := h.update (fun _ hnode => hnode.withSubscribers _) _

theorem unsubscribe (tree : TopicTree) (filter : Bytes) (sid : SessionId) :
    SameRetained tree (tree.unsubscribe filter sid) where
  retained path := Node.retainedAt_modify_same (Node.changesOwn_withSubscribers _) _ path tree.root
  distinct h := h.modify (fun _ hnode => hnode.withSubscribers _) _

end SameRetained

def LeavesRetained (b b' : Broker α) : Prop := SameRetained b.tree b'.tree

namespace LeavesRetained

theorem of_same {b b' : Broker α} (h : b'.tree = b.tree) : LeavesRetained b b' := by
  unfold LeavesRetained
  rw [h]
  exact .refl b.tree

theorem core : CoreFrame (LeavesRetained (α := α)) where
  refl b := .refl b.tree
  trans := SameRetained.trans
  neutral _ _ _ := of_same rfl
  noteHanded _ _ := of_same rfl
  plumbing _ _ _ _ := of_same rfl
  close b sid hconn := by
    unfold LeavesRetained
    rw [(Session.topics_close hconn).1]
    refine Session.dropSubscriptions_rule SameRetained.refl SameRetained.trans ?_ b
    intro tree filter
    exact .unsubscribe tree filter sid

theorem tables : TablesFree (LeavesRetained (α := α)) where
  pending _ _ := of_same rfl
  outgoing _ _ := of_same rfl
  noteSent _ _ := of_same rfl
  noteSettled _ _ := of_same rfl

theorem auth : AuthFree (LeavesRetained (α := α)) where
  auth _ _ := of_same rfl
  authTables _ _ _ := of_same rfl

theorem ingest : IngestFree (LeavesRetained (α := α)) where
  incoming _ _ := of_same rfl
  noteIngest _ _ _ _ := of_same rfl

theorem loop (env : Env α) (sid : SessionId) :
    LoopClosed env sid (fun _ => True) (LeavesRetained (α := α)) where
  toSessionFrame := core.session env sid
  noteHandled _ _ := of_same rfl
  rearm _ _ := of_same rfl
  stopReading _ := of_same rfl

theorem io (env : Env α) : IoClosed env (LeavesRetained (α := α)) where
  core := core
  retryQos1 b clientId packetId :=
    (core.delivery env).qos1RetryMessage tables.toPendingFree clientId packetId b
  retryQos2 b clientId packetId :=
    (core.delivery env).qos2RetryMessage tables.toOutgoingFree clientId packetId b
  beginRead _ _ _ := of_same rfl
  dropRead _ _ := of_same rfl
  clock _ _ := of_same rfl
  accept b ip := by
    apply of_same
    unfold Server.onAccept
    dsimp only
    split_ifs <;> rfl
  destroy _ _ _ _ := of_same rfl

theorem recordSubscription (sid : SessionId) (filter : SubscribePacket.Filter) (b : Broker α) :
    LeavesRetained b (recordSubscription sid filter b) :=
  SameRetained.subscribe b.tree filter.topicFilter ⟨sid, filter.requestedQos⟩

theorem unsubscribeFrom (sid : SessionId) (filter : Bytes) (b : Broker α) :
    LeavesRetained b (Session.unsubscribeFrom sid filter b) :=
  SameRetained.unsubscribe b.tree filter sid

theorem restoreSubscriptions (sid : SessionId) (conn : ConnectPacket) (b : Broker α) :
    LeavesRetained b (Session.restoreSubscriptions sid conn b) := by
  refine Session.restoreSubscriptions_rule SameRetained.refl SameRetained.trans ?_ b
  intro _ tree sub
  exact .subscribe tree sub.topicFilter ⟨sid, sub.qos⟩

theorem routePublish (env : Env α) (sid : SessionId) (pub : PublishPacket) (b : Broker α) :
    LeavesRetained b (Session.routePublish env sid pub b) := by
  have hS := core.session env sid
  unfold Session.routePublish
  split
  · rename_i hqos
    simp only [DeliveryEngine.publishFromClient, hqos]
    exact hS.trans (hS.qos0Deliver pub b) (hS.countPublished _)
  · rename_i hqos
    simp only [DeliveryEngine.publishFromClient, hqos]
    refine hS.trans ?_ (hS.countPublished _)
    exact hS.trans (hS.deliverOwn _ b) (hS.qos1Deliver tables.toPendingFree pub _)
  · exact hS.receiveQos2 (ingest.of _) pub
  · exact hS.refl b

end LeavesRetained

/-! ## What stores a message -/

/-- The next turn of the session stores the PUBLISH as the retained message of its topic:
it is accepted, has the retain flag and does not exceed the limit. -/
def Retains (env : Env α) (n : Runtime α) (sid : SessionId) (pub : PublishPacket) : Prop :=
  AcceptsPublish env n sid pub ∧ pub.retain = true ∧
    ¬n.tree.Refuses env.cfg pub.topic (Session.retainedMessage pub)

/-- The last PUBLISH that was stored for its topic. -/
def LastRetained (env : Env α) (past : List (Runtime α × Event)) (pub : PublishPacket) : Prop :=
  ∃ n sid, LastWith (fun step => ∃ sid pub', step.2 = .turn sid ∧ Retains env step.1 sid pub' ∧
    split pub'.topic = split pub.topic) past (n, .turn sid) ∧ Retains env n sid pub

section Turn

variable {env : Env α} {n : Runtime α} {sid : SessionId} {pub : PublishPacket}

theorem leavesRetained_handlePublish {hdr : FixedHeader} {body : Bytes} {b : Broker α}
    (h : ∀ pub rest access, (b.sessions sid).connected = true →
      PublishPacket.parse hdr body = .ok (pub, rest) → isValidTopic env.cfg pub.topic = true →
      (env.auth.checkAcl b.auth (b.sessions sid).username pub.topic .write).1 = .ok access →
      access = .none) : LeavesRetained b (Session.handlePublish env sid hdr body b).1 := by
  unfold Session.handlePublish
  split_ifs with hconn
  · exact LeavesRetained.core.refl b
  · rw [Bool.not_eq_true', Bool.not_eq_false] at hconn
    rcases hparse : PublishPacket.parse hdr body with e | ⟨pub, rest⟩
    · exact LeavesRetained.core.closeAny b sid
    · have hpub := h pub rest
      dsimp only
      rcases hcheck : env.auth.checkAcl b.auth (b.sessions sid).username pub.topic .write with
        ⟨text | access, auth⟩
      · exact .of_same rfl
      · dsimp only
        split_ifs with haccess hvalid
        · exact .of_same rfl
        · exact .of_same rfl
        · rw [Bool.not_eq_true', Bool.not_eq_false] at hvalid
          refine absurd (hpub access hconn hparse hvalid ?_) haccess
          rw [hcheck]

theorem leavesRetained_turn (henabled : n.toBroker.Enabled (.turn sid))
    (hnone : ∀ pub, ¬AcceptsPublish env n sid pub) :
    LeavesRetained n.toBroker (n.step env (.turn sid)).toBroker := by
  have hS := LeavesRetained.core.session env sid
  refine (LeavesRetained.loop env sid).onReadTurn henabled.2 ?_
  intro packet parser hextract
  unfold Session.handlePacket
  split_ifs
  · exact hS.refl _
  rcases hdecode : Session.decodeHeader packet with e | ⟨hdr, body⟩
  · exact hS.refl _
  have hnext : NextPacket env n sid hdr body := ⟨packet, parser, hextract, hdecode⟩
  dsimp only
  by_cases hpublish : hdr.type = some .publish
  · simp only [Session.dispatch, hpublish]
    apply leavesRetained_handlePublish
    intro pub rest access hconn hparse hvalid hacl
    by_contra haccess
    exact hnone pub ⟨⟨hconn, hdr, body, rest, hnext, hpublish, hparse⟩, hvalid, access, hacl,
      haccess⟩
  · apply hS.dispatch
    constructor
    · intro _
      refine hS.handleConnect LeavesRetained.auth ?_
      intro conn auth failures bans _
      have hblocked : (((n.toBroker.observe (.noteHandled sid packet)).setAuthTables failures
          bans).setAuth auth).blocked = false := henabled.1
      have hready : LeavesRetained (n.toBroker.observe (.noteHandled sid packet))
          (((n.toBroker.observe (.noteHandled sid packet)).setAuthTables failures bans).setAuth
            auth) := .of_same rfl
      refine hS.trans hready (hS.acceptConnect LeavesRetained.auth hblocked ?_ ?_)
      · intro _
        have hregistered (b : Broker α) : LeavesRetained b (Session.register env sid conn b) :=
          .of_same rfl
        exact hS.trans (hregistered _) (.restoreSubscriptions sid conn _)
      · intro old _
        exact .of_same rfl
    · intro pub _ _ _ htype
      exact absurd htype hpublish
    · intro packetId _ _ _ _
      exact hS.qos1HandlePuback LeavesRetained.tables.toPendingFree _ packetId _
    · intro packetId _ _ _ _
      exact hS.qos2HandlePubrec LeavesRetained.tables.toOutgoingFree fun _ _ => trivial
    · intro packetId _ _ _ _
      refine hS.releaseQos2 (LeavesRetained.ingest.of _) ?_ ?_
      · intro msg b _
        exact hS.qos2Deliver LeavesRetained.tables.toOutgoingFree _ b
      · intro _
        exact hS.qos2HandlePubrel LeavesRetained.tables.toOutgoingFree _ packetId _
    · intro packetId _ _ _ _
      exact hS.qos2HandlePubcomp LeavesRetained.tables.toOutgoingFree _ packetId _
    · intro sub _ _ _ _
      refine hS.subscribeAll LeavesRetained.tables.toNotesFree ?_ sub.packetId [] _
      intro filter _ b _ _
      exact .recordSubscription sid filter b
    · intro unsub _ _ _ _
      apply hS.foldl_of_mem
      intro filter _ b
      exact .unsubscribeFrom sid filter b
    · intro _
      have hleft (b : Broker α) : LeavesRetained b
          (b.modifySession sid fun s => { s with connected := false }) := .of_same rfl
      exact hS.trans (hleft _) (hS.closeOwn _)

theorem leavesRetained_acceptsPublish (h : AcceptsPublish env n sid pub) :
    SameRetained (Session.storeRetained env pub n.toBroker).tree
      (n.step env (.turn sid)).tree := by
  obtain ⟨packet, auth, hturn⟩ := h.onReadTurn_eq
  change (n.step env (.turn sid)).toBroker = _ at hturn
  rw [hturn]
  have hstored (received : Broker α) (htree : received.tree = n.tree) :
      (Session.storeRetained env pub received).tree =
        (Session.storeRetained env pub n.toBroker).tree := by
    unfold Session.storeRetained
    split_ifs
    · simp only [htree]
    · exact htree
  rw [← hstored { (n.toBroker.observe (.noteHandled sid packet)).setAuth auth with
    counters.received := n.counters.received + 1 } rfl]
  exact LeavesRetained.routePublish env sid pub _

end Turn

/-! ## What a run retains -/

section Step

variable {env : Env α} {n : Runtime α} {sid : SessionId} {pub : PublishPacket}

theorem retainedAt_of_retains (h : Retains env n sid pub) (path : List Edge) :
    (n.step env (.turn sid)).tree.root.retainedAt path =
      if path = TopicTree.topicPath pub.topic then some (Session.retainedMessage pub)
      else n.tree.root.retainedAt path := by
  obtain ⟨haccepts, hretain, hroom⟩ := h
  have hstored : (n.tree.setRetained env.cfg pub.topic (Session.retainedMessage pub)).1 = true := by
    rw [← Bool.not_eq_false, TopicTree.setRetained_fst_iff]
    exact hroom
  rw [(leavesRetained_acceptsPublish haccepts).retained, Session.storeRetained, if_pos hretain,
    TopicTree.retainedAt_setRetained, hstored]
  simp only [true_and]

theorem retainedAt_of_not_retains (haccepts : AcceptsPublish env n sid pub)
    (h : ¬Retains env n sid pub) (path : List Edge) :
    (n.step env (.turn sid)).tree.root.retainedAt path = n.tree.root.retainedAt path := by
  rw [(leavesRetained_acceptsPublish haccepts).retained, Session.storeRetained]
  split_ifs with hretain
  · have hrefused : (n.tree.setRetained env.cfg pub.topic (Session.retainedMessage pub)).1 =
        false := by
      rw [TopicTree.setRetained_fst_iff]
      by_contra hroom
      exact h ⟨haccepts, hretain, hroom⟩
    rw [TopicTree.retainedAt_setRetained, hrefused]
    simp only [Bool.false_eq_true, false_and, if_false]
  · rfl

end Step

section Run

variable {env : Env α} {n : Runtime α} {past : List (Runtime α × Event)}

/-- What a node retains is the last PUBLISH that was stored there. -/
theorem retainedAt_iff_lastRetained (h : (brokerSystem env).recorded.Reachable (n, past))
    (path : List Edge) (msg : RetainedMessage) :
    n.tree.root.retainedAt path = some msg ↔
      ∃ pub, LastRetained env past pub ∧ path = TopicTree.topicPath pub.topic ∧
        msg = Session.retainedMessage pub := by
  have hlast := h.lastWrite_iff (fun n => n.tree.root.retainedAt path)
    (fun n e value => ∃ sid pub, e = .turn sid ∧ Retains env n sid pub ∧
      path = TopicTree.topicPath pub.topic ∧ value = some (Session.retainedMessage pub)) ?_ ?_ ?_
    (Option.some_ne_none msg)
  · refine hlast.trans ?_
    have hkey {pub : PublishPacket} (hpath : path = TopicTree.topicPath pub.topic)
        (step : Runtime α × Event) (_ : step ∈ past) :
        (∃ value sid pub', step.2 = .turn sid ∧ Retains env step.1 sid pub' ∧
          path = TopicTree.topicPath pub'.topic ∧ value = some (Session.retainedMessage pub')) ↔
        ∃ sid pub', step.2 = .turn sid ∧ Retains env step.1 sid pub' ∧
          split pub'.topic = split pub.topic := by
      simp only [hpath, TopicTree.topicPath_eq_iff, eq_comm (a := split pub.topic)]
      constructor
      · rintro ⟨_, sid, pub', hturn, hretains, hsplit, _⟩
        exact ⟨sid, pub', hturn, hretains, hsplit⟩
      · rintro ⟨sid, pub', hturn, hretains, hsplit⟩
        exact ⟨_, sid, pub', hturn, hretains, hsplit, rfl⟩
    constructor
    · rintro ⟨⟨m, e⟩, hpast, sid, pub, rfl, hretains, hpath, hmsg⟩
      exact ⟨pub, ⟨m, sid, (lastWith_congr (hkey hpath)).mp hpast, hretains⟩, hpath,
        Option.some.inj hmsg⟩
    · rintro ⟨pub, ⟨m, sid, hpast, hretains⟩, hpath, rfl⟩
      exact ⟨(m, .turn sid), (lastWith_congr (hkey hpath)).mpr hpast, sid, pub, rfl, hretains,
        hpath, rfl⟩
  · rintro _ ⟨auth, rfl⟩
    have hempty : ({ auth } : Runtime α).tree.root = Node.empty := rfl
    rw [hempty]
    unfold Node.retainedAt
    rw [Node.nodeAt_empty]
    rfl
  · rintro n e value _ _ ⟨sid, pub, rfl, hretains, hpath, rfl⟩
    exact (retainedAt_of_retains hretains path).trans (if_pos hpath)
  · intro n e _ henabled hnone
    by_cases hturn : ∃ sid, e = .turn sid
    · obtain ⟨sid, rfl⟩ := hturn
      by_cases haccepts : ∃ pub, AcceptsPublish env n sid pub
      · obtain ⟨pub, haccepts⟩ := haccepts
        by_cases hretains : Retains env n sid pub
        · refine (retainedAt_of_retains hretains path).trans (if_neg ?_)
          intro hpath
          exact hnone _ ⟨sid, pub, rfl, hretains, hpath, rfl⟩
        · exact retainedAt_of_not_retains haccepts hretains path
      · exact (leavesRetained_turn henabled (not_exists.mp haccepts)).retained path
    · exact ((LeavesRetained.io env).step (fun sid heq => hturn ⟨sid, heq⟩) henabled).retained path

theorem distinct_reachable (hn : (brokerSystem env).Reachable n) : n.tree.root.Distinct := by
  refine hn.invariant (P := fun n : Runtime α => n.tree.root.Distinct) ?_ ?_
  · rintro _ ⟨auth, rfl⟩
    exact Node.distinct_empty
  · intro n e hdistinct henabled
    by_cases hturn : ∃ sid, e = .turn sid
    · obtain ⟨sid, rfl⟩ := hturn
      by_cases haccepts : ∃ pub, AcceptsPublish env n sid pub
      · obtain ⟨pub, haccepts⟩ := haccepts
        apply (leavesRetained_acceptsPublish haccepts).distinct
        unfold Session.storeRetained
        split_ifs
        · exact distinct_run hdistinct (.setRetained pub.topic (Session.retainedMessage pub))
        · exact hdistinct
      · exact (leavesRetained_turn henabled (not_exists.mp haccepts)).distinct hdistinct
    · exact ((LeavesRetained.io env).step (fun sid heq => hturn ⟨sid, heq⟩) henabled).distinct
        hdistinct

theorem LastRetained.valid {pub : PublishPacket} (h : LastRetained env past pub) :
    isValidTopic env.cfg pub.topic = true := by
  obtain ⟨_, _, _, hretains⟩ := h
  exact hretains.1.2.1

variable {tree : TopicTree}

theorem mem_retainedRows_iff_lastRetained (h : (brokerSystem env).recorded.Reachable (n, past))
    (hsame : SameRetained n.tree tree) {edges : List Edge} {msg : RetainedMessage} :
    (edges, msg) ∈ tree.root.retainedRows ↔
      ∃ pub, LastRetained env past pub ∧ edges = TopicTree.topicPath pub.topic ∧
        msg = Session.retainedMessage pub := by
  rw [Node.mem_retainedRows_iff (hsame.distinct (distinct_reachable h.of_mem_past.1)),
    hsame.retained, retainedAt_iff_lastRetained h]
  constructor
  · exact And.right
  · rintro ⟨pub, hlast, rfl, hmsg⟩
    refine ⟨?_, pub, hlast, rfl, hmsg⟩
    simp [TopicTree.topicPath]

theorem mem_getAllRetained_iff_lastRetained
    (h : (brokerSystem env).recorded.Reachable (n, past)) (hsame : SameRetained n.tree tree)
    {text : Bytes} {msg : RetainedMessage} :
    (text, msg) ∈ tree.getAllRetained ↔
      ∃ pub, LastRetained env past pub ∧ text = withoutSeparator pub.topic ∧
        msg = Session.retainedMessage pub := by
  unfold TopicTree.getAllRetained
  rw [Node.getAllRetained_eq, List.mem_map]
  constructor
  · rintro ⟨⟨edges, _⟩, hrow, heq⟩
    obtain ⟨rfl, rfl⟩ := Prod.mk.inj heq
    obtain ⟨pub, hlast, hedges, hmsg⟩ := (mem_retainedRows_iff_lastRetained h hsame).mp hrow
    refine ⟨pub, hlast, ?_, hmsg⟩
    dsimp only
    rw [hedges, topicText_topicPath hlast.valid]
  · rintro ⟨pub, hlast, rfl, hmsg⟩
    refine ⟨(TopicTree.topicPath pub.topic, msg), ?_, ?_⟩
    · exact (mem_retainedRows_iff_lastRetained h hsame).mpr ⟨pub, hlast, rfl, hmsg⟩
    · rw [topicText_topicPath hlast.valid]

theorem nodup_getAllRetained (h : (brokerSystem env).recorded.Reachable (n, past))
    (hsame : SameRetained n.tree tree) : (tree.getAllRetained.map Prod.fst).Nodup := by
  have hrows := Node.nodup_retainedRows _ (hsame.distinct (distinct_reachable h.of_mem_past.1))
  have htexts : tree.getAllRetained.map Prod.fst =
      (tree.root.retainedRows.map Prod.fst).map (Node.topicText []) := by
    unfold TopicTree.getAllRetained
    rw [Node.getAllRetained_eq, List.map_map, List.map_map]
    rfl
  rw [htexts]
  refine List.Nodup.map_on ?_ hrows
  intro edges hedges edges' hedges' heq
  obtain ⟨⟨_, msg⟩, hrow, rfl⟩ := List.mem_map.mp hedges
  obtain ⟨⟨_, msg'⟩, hrow', rfl⟩ := List.mem_map.mp hedges'
  obtain ⟨pub, hlast, rfl, _⟩ := (mem_retainedRows_iff_lastRetained h hsame).mp hrow
  obtain ⟨pub', hlast', rfl, _⟩ := (mem_retainedRows_iff_lastRetained h hsame).mp hrow'
  rw [topicText_topicPath hlast.valid, topicText_topicPath hlast'.valid,
    withoutSeparator_eq_iff hlast.valid hlast'.valid] at heq
  exact TopicTree.topicPath_eq_iff.mpr heq

end Run

/-! ## The copies for a filter -/

def retainedCopy (pub : PublishPacket) : OutPacket :=
  .publish (withoutSeparator pub.topic) (Session.retainedMessage pub).payload
    (Session.retainedMessage pub).qos true false 0

/-- The packets are the copies for the filter, one of each retained message that it matches.
Unlike a lookup, the match of a retained message never lets `#` stand for no level. -/
structure RetainedBlock (env : Env α) (past : List (Runtime α × Event))
    (filter : SubscribePacket.Filter) (packets : List OutPacket) : Prop where
  once : packets.Nodup
  mem_iff : ∀ packet, packet ∈ packets ↔ ∃ pub, LastRetained env past pub ∧
    Matches (split filter.topicFilter) (split pub.topic) ∧
    ¬HashStandsForNoLevel (split filter.topicFilter) (split pub.topic) ∧
    packet = retainedCopy pub

def retainedCopies (filter : Bytes) (rows : List (Bytes × RetainedMessage)) : List OutPacket :=
  (rows.filter fun row => topicMatches row.1 filter).map fun row =>
    .publish row.1 row.2.payload row.2.qos true false 0

theorem retainedBlock_copies {env : Env α} {n : Runtime α} {past : List (Runtime α × Event)}
    (h : (brokerSystem env).recorded.Reachable (n, past)) {tree : TopicTree}
    (hsame : SameRetained n.tree tree) {filter : SubscribePacket.Filter}
    (hfilter : isValidFilter env.cfg filter.topicFilter = true) :
    RetainedBlock env past filter (retainedCopies filter.topicFilter tree.getAllRetained) := by
  have hmatches {pub : PublishPacket} (hlast : LastRetained env past pub) :
      topicMatches (withoutSeparator pub.topic) filter.topicFilter = true ↔
        Matches (split filter.topicFilter) (split pub.topic) ∧
          ¬HashStandsForNoLevel (split filter.topicFilter) (split pub.topic) := by
    rw [topicMatches, split_withoutSeparator hlast.valid]
    exact matchesFrom_iff (filterShape_of_valid hfilter) (topicShape_of_valid hlast.valid)
  constructor
  · unfold retainedCopies
    have hrows := (nodup_getAllRetained h hsame).of_map
    refine (hrows.filter _).map_on ?_
    rintro ⟨text, payload, qos⟩ _ ⟨text', payload', qos'⟩ _ heq
    obtain ⟨rfl, rfl, rfl, _⟩ := OutPacket.publish.inj heq
    rfl
  · intro packet
    simp only [retainedCopies, List.mem_map, List.mem_filter]
    constructor
    · rintro ⟨⟨text, msg⟩, ⟨hrow, hmatch⟩, rfl⟩
      obtain ⟨pub, hlast, rfl, rfl⟩ := (mem_getAllRetained_iff_lastRetained h hsame).mp hrow
      obtain ⟨hmatch, hlevel⟩ := (hmatches hlast).mp hmatch
      exact ⟨pub, hlast, hmatch, hlevel, rfl⟩
    · rintro ⟨pub, hlast, hmatch, hlevel, rfl⟩
      refine ⟨(withoutSeparator pub.topic, Session.retainedMessage pub), ⟨?_, ?_⟩, rfl⟩
      · exact (mem_getAllRetained_iff_lastRetained h hsame).mpr ⟨pub, hlast, rfl, rfl⟩
      · exact (hmatches hlast).mpr ⟨hmatch, hlevel⟩

/-! ## The turn of a SUBSCRIBE -/

/-- The packets are handed to the session, in this order, and are all accepted if its
queue has room for them. -/
def HandsInOrder (env : Env α) (sid : SessionId) (packets : List OutPacket) (b b' : Broker α) :
    Prop :=
  ∃ calls, b'.history.handed = b.history.handed ++ calls ∧
    calls.map (fun call => (call.session, call.packet)) = packets.map (Prod.mk sid) ∧
    ∀ room, HasRoom env.cfg (room + packets.length) (b.sessions sid) →
      HasRoom env.cfg room (b'.sessions sid) ∧ ∀ call ∈ calls, call.accepted = true

namespace HandsInOrder

variable {env : Env α} {sid : SessionId}

theorem of_same {b b' : Broker α} (hsessions : b'.sessions = b.sessions)
    (hhanded : b'.history.handed = b.history.handed) : HandsInOrder env sid [] b b' := by
  refine ⟨[], by rw [hhanded, List.append_nil], rfl, ?_⟩
  intro room hroom
  rw [hsessions]
  refine ⟨hroom, ?_⟩
  intro call hcall
  cases hcall

theorem trans {packets packets' : List OutPacket} {b₁ b₂ b₃ : Broker α}
    (h : HandsInOrder env sid packets b₁ b₂) (h' : HandsInOrder env sid packets' b₂ b₃) :
    HandsInOrder env sid (packets ++ packets') b₁ b₃ := by
  obtain ⟨calls, hhanded, hcalls, hroom⟩ := h
  obtain ⟨calls', hhanded', hcalls', hroom'⟩ := h'
  refine ⟨calls ++ calls', by rw [hhanded', hhanded, List.append_assoc], ?_, ?_⟩
  · rw [List.map_append, List.map_append, hcalls, hcalls']
  · intro room hall
    have hlength : room + (packets ++ packets').length =
        room + packets'.length + packets.length := by
      rw [List.length_append]
      omega
    rw [hlength] at hall
    obtain ⟨hmiddle, haccepted⟩ := hroom _ hall
    obtain ⟨hend, haccepted'⟩ := hroom' _ hmiddle
    refine ⟨hend, ?_⟩
    intro call hcall
    rcases List.mem_append.mp hcall with hcall | hcall
    · exact haccepted call hcall
    · exact haccepted' call hcall

variable (env sid) in
theorem deliver (packet : OutPacket) (b : Broker α) :
    HandsInOrder env sid [packet] b (Session.deliver env sid packet b) := by
  refine ⟨_, handed_deliver env sid packet b, rfl, ?_⟩
  intro room hroom
  refine ⟨hroom.deliver packet, ?_⟩
  intro call hcall
  rw [List.mem_singleton.mp hcall]
  rw [accepts_iff_hasRoom]
  refine ⟨hroom.connected, ?_⟩
  have := hroom.queue
  rw [List.length_singleton] at this
  omega

variable (env sid) in
theorem deliverRetainedTo (filter : Bytes) (b : Broker α) (row : Bytes × RetainedMessage) :
    HandsInOrder env sid (retainedCopies filter [row]) b
      (Session.deliverRetainedTo env sid filter b row) := by
  unfold Session.deliverRetainedTo retainedCopies
  split_ifs with hmatches
  · have hprepared := prepared_noteUntracked env sid row.2.qos 0 b
    simp only [List.filter_cons, hmatches, if_true, List.filter_nil, List.map_cons, List.map_nil]
    exact (of_same hprepared.sessions hprepared.handed).trans (.deliver env sid _ _)
  · simp only [List.filter_cons, hmatches, Bool.false_eq_true, if_false, List.filter_nil,
      List.map_nil]
    exact of_same rfl rfl

variable (env sid) in
theorem deliverRetained (filter : Bytes) (b : Broker α) :
    HandsInOrder env sid (retainedCopies filter b.tree.getAllRetained) b
      (Session.deliverRetained env sid filter b) := by
  unfold Session.deliverRetained
  generalize b.tree.getAllRetained = rows
  induction rows generalizing b with
  | nil => exact of_same rfl rfl
  | cons row rows ih =>
      have hcopies : retainedCopies filter (row :: rows) =
          retainedCopies filter [row] ++ retainedCopies filter rows := by
        unfold retainedCopies
        rw [← List.map_append, ← List.filter_append, List.singleton_append]
      rw [hcopies, List.foldl_cons]
      exact (deliverRetainedTo env sid filter b row).trans (ih _)

end HandsInOrder

/-! ## The codes of a SUBACK -/

/-- A granted filter is answered with the QoS it asks for, any other one with a failure. -/
structure CodeFor (env : Env α) (sid : SessionId) (turn : SubscribePacket.Filter × Broker α)
    (code : SubackCode) : Prop where
  granted : Grantable env turn.2 sid turn.1 → code = .granted turn.1.requestedQos
  refused : ¬Grantable env turn.2 sid turn.1 → code = .failure

/-- The codes for the filters, or none if an access check throws. -/
inductive FilterCodes (env : Env α) (sid : SessionId) (filters : List SubscribePacket.Filter)
    (b : Broker α) : Option (List SubackCode) → Prop where
  | given {codes : List SubackCode} :
      (Session.subscribeTurns env sid filters b).map Prod.fst = filters →
      (∀ turn ∈ Session.subscribeTurns env sid filters b, ¬AccessThrows env turn.2 sid turn.1) →
      List.Forall₂ (CodeFor env sid) (Session.subscribeTurns env sid filters b) codes →
      FilterCodes env sid filters b (some codes)
  | thrown {filter : SubscribePacket.Filter} {b' : Broker α} :
      (filter, b') ∈ Session.subscribeTurns env sid filters b → AccessThrows env b' sid filter →
      FilterCodes env sid filters b none

theorem FilterCodes.cons {env : Env α} {sid : SessionId} {filter : SubscribePacket.Filter}
    {rest : List SubscribePacket.Filter} {b b' : Broker α} {code : SubackCode}
    {result : Option (List SubackCode)}
    (hturn : Session.subscribeTo env sid filter b = (b', .ok code))
    (hchecked : ¬AccessThrows env b sid filter) (hcode : CodeFor env sid (filter, b) code)
    (h : FilterCodes env sid rest b' result) :
    FilterCodes env sid (filter :: rest) b (result.map (code :: ·)) := by
  have hturns : Session.subscribeTurns env sid (filter :: rest) b =
      (filter, b) :: Session.subscribeTurns env sid rest b' := by
    rw [Session.subscribeTurns, hturn]
  cases h with
  | given hfilters hnone hcodes =>
      refine .given ?_ ?_ ?_
      · rw [hturns, List.map_cons, hfilters]
      · rw [hturns]
        exact List.forall_mem_cons.mpr ⟨hchecked, hnone⟩
      · rw [hturns]
        exact .cons hcode hcodes
  | thrown hmem hthrows =>
      refine .thrown ?_ hthrows
      rw [hturns]
      exact List.mem_cons_of_mem _ hmem

section Subscribe

variable {env : Env α} {n : Runtime α} {past : List (Runtime α × Event)} {sid : SessionId}

variable (env sid) in
theorem leavesRetained_subscribeTo (filter : SubscribePacket.Filter) (b : Broker α) :
    LeavesRetained b (Session.subscribeTo env sid filter b).1 := by
  refine (LeavesRetained.core.session env sid).subscribeTo LeavesRetained.tables.toNotesFree ?_ b
  intro b' _ _
  exact .recordSubscription sid filter b'

theorem handsInOrder_subscribeTo {filter : SubscribePacket.Filter} {b b' : Broker α}
    {result : Except Exception SubackCode}
    (h : Session.subscribeTo env sid filter b = (b', result)) :
    (result = .ok (.granted filter.requestedQos) ∧ Grantable env b sid filter ∧
        ∃ tree, SameRetained b.tree tree ∧
          HandsInOrder env sid (retainedCopies filter.topicFilter tree.getAllRetained) b b') ∨
      HandsInOrder env sid [] b b' ∧
        (result = .ok .failure ∧ ¬AccessThrows env b sid filter ∧ ¬Grantable env b sid filter ∨
          (∃ e, result = .error e) ∧ AccessThrows env b sid filter) := by
  have hturn := subscribeTo_turn env sid filter b
  rw [h] at hturn
  cases hturn with
  | invalid hinvalid =>
      have hno (hvalid : isValidFilter env.cfg filter.topicFilter = true) : False := by
        rw [hinvalid] at hvalid
        cases hvalid
      exact Or.inr ⟨.of_same rfl rfl,
        Or.inl ⟨rfl, fun hthrows => hno hthrows.1, fun hgrant => hno hgrant.valid⟩⟩
  | thrown hthrows => exact Or.inr ⟨.of_same rfl rfl, Or.inr ⟨⟨_, rfl⟩, hthrows⟩⟩
  | refused hthrows hno => exact Or.inr ⟨.of_same rfl rfl, Or.inl ⟨rfl, hthrows, hno⟩⟩
  | granted hgrant =>
      have hrecorded : HandsInOrder env sid [] b
          (recordSubscription sid filter (accessChecked env sid filter b)) := .of_same rfl rfl
      exact Or.inl ⟨rfl, hgrant, _,
        LeavesRetained.recordSubscription sid filter (accessChecked env sid filter b),
        hrecorded.trans (.deliverRetained env sid filter.topicFilter _)⟩

/-- The loop over the filters and the SUBACK after it, where `codes` are those of the turns
before. -/
theorem handsInOrder_subscribeAll (h : (brokerSystem env).recorded.Reachable (n, past))
    (packetId : UInt16) (filters : List SubscribePacket.Filter) (codes : List SubackCode)
    {b : Broker α} (hsame : SameRetained n.tree b.tree) :
    ∃ (blocks : List (List OutPacket)) (result : Option (List SubackCode)),
      List.Forall₂ (RetainedBlock env past) (Session.grantedFilters env sid filters b) blocks ∧
      FilterCodes env sid filters b result ∧
      HandsInOrder env sid (blocks.flatten ++
          (result.map fun rest => OutPacket.suback packetId (codes ++ rest)).toList) b
        (Session.subscribeAll env sid packetId filters codes b).1 := by
  induction filters generalizing codes b with
  | nil =>
      refine ⟨[], some [], .nil, .given rfl nofun .nil, ?_⟩
      rw [Option.map_some, List.append_nil]
      exact .deliver env sid _ b
  | cons filter rest ih =>
      have hkeeps := leavesRetained_subscribeTo env sid filter b
      have hlater (code : SubackCode) (result : Option (List SubackCode)) :
          (result.map fun rest => OutPacket.suback packetId (codes ++ [code] ++ rest)) =
            (result.map (code :: ·)).map fun rest => OutPacket.suback packetId (codes ++ rest) := by
        cases result with
        | none => rfl
        | some rest => simp
      unfold Session.subscribeAll Session.grantedFilters
      rcases hturn : Session.subscribeTo env sid filter b with ⟨b', result⟩
      rw [hturn] at hkeeps
      rcases handsInOrder_subscribeTo hturn with ⟨rfl, hgrant, tree, htree, hsends⟩ |
        ⟨hsends, ⟨rfl, hthrows, hno⟩ | ⟨⟨e, rfl⟩, hthrows⟩⟩
      · obtain ⟨blocks, result, hblocks, hcodes, hrest⟩ :=
          ih (codes ++ [.granted filter.requestedQos]) (hsame.trans hkeeps)
        refine ⟨retainedCopies filter.topicFilter tree.getAllRetained :: blocks, _,
          .cons (retainedBlock_copies h (hsame.trans htree) hgrant.valid) hblocks,
          hcodes.cons hturn hgrant.not_throws ⟨fun _ => rfl, fun hno => absurd hgrant hno⟩, ?_⟩
        rw [← hlater, List.flatten_cons, List.append_assoc]
        exact hsends.trans hrest
      · obtain ⟨blocks, result, hblocks, hcodes, hrest⟩ :=
          ih (codes ++ [.failure]) (hsame.trans hkeeps)
        refine ⟨blocks, _, hblocks,
          hcodes.cons hturn hthrows ⟨fun hgrant => absurd hgrant hno, fun _ => rfl⟩, ?_⟩
        rw [← hlater]
        exact hsends.trans hrest
      · have hfirst : (filter, b) ∈ Session.subscribeTurns env sid (filter :: rest) b :=
          List.mem_cons_self
        exact ⟨[], none, .nil, .thrown hfirst hthrows, hsends⟩

end Subscribe

/-- In every run, a SUBSCRIBE hands its session one copy of each retained message that a
granted filter matches, filter by filter, and then a SUBACK with the code of each filter.
If an access check throws, there is no SUBACK.  The retained messages are the last that were
stored for their topics.  If the queue of the session has room for all this, all of it is
accepted. -/
theorem subscribe_sends_retained (env : Env α) {n : Runtime α} {past : List (Runtime α × Event)}
    (h : (brokerSystem env).recorded.Reachable (n, past)) {sid : SessionId}
    {sub : SubscribePacket} (hsub : Subscribes env n sid sub) :
    ∃ (blocks : List (List OutPacket)) (codes : Option (List SubackCode)) (calls : List Handed),
      List.Forall₂ (RetainedBlock env past)
        (Session.grantedFilters env sid sub.filters (n.handling env sid)) blocks ∧
      FilterCodes env sid sub.filters (n.handling env sid) codes ∧
      (n.step env (.turn sid)).history.handed = n.history.handed ++ calls ∧
      calls.map (fun call => (call.session, call.packet)) =
        (blocks.flatten ++ (codes.map (OutPacket.suback sub.packetId)).toList).map (Prod.mk sid) ∧
      (HasRoom env.cfg calls.length (n.sessions sid) → ∀ call ∈ calls, call.accepted = true) := by
  obtain ⟨hsessions, htree, _⟩ := handling_quiet env n sid
  have hsame : SameRetained n.tree (n.handling env sid).tree := by
    rw [htree]
    exact .refl n.tree
  obtain ⟨blocks, codes, hblocks, hcodes, calls, hhanded, hcalls, hroom⟩ :=
    handsInOrder_subscribeAll h sub.packetId sub.filters [] hsame
  simp only [List.nil_append] at hcalls hroom
  have hbefore : (n.handling env sid).history.handed = n.history.handed := by
    unfold Runtime.handling
    split <;> rfl
  have hafter (result : Broker α × Option Exception) :
      (Session.catchException sid result).history.handed = result.1.history.handed := by
    obtain ⟨b, _ | e⟩ := result
    · rfl
    · change (Session.close false sid b).history.handed = b.history.handed
      rw [history_close]
  have hlength : calls.length =
      (blocks.flatten ++ (codes.map (OutPacket.suback sub.packetId)).toList).length := by
    rw [← List.length_map (fun call : Handed => (call.session, call.packet)), hcalls,
      List.length_map]
  refine ⟨blocks, codes, calls, hblocks, hcodes, ?_, hcalls, ?_⟩
  · rw [step_turn_of_subscribes hsub, hafter, hhanded, hbefore]
  · intro hall
    rw [hsessions, ← hlength] at hroom
    refine (hroom 0 ?_).2
    rw [Nat.zero_add]
    exact hall

def retainingEvents : List Event :=
  [.accept [0x69], .read 0 (connectBytes true [0x63] ++
    (OutPacket.publish [0x74] [0x6d] 1 true false 7).bytes ++ subscribeBytes 1 [0x74] 0),
    .turn 0, .turn 0]

/-- The SUBSCRIBE brings the message that was stored, with its own QoS. -/
theorem subscribe_sends_retained_stored :
    let t := (brokerSystem defaultEnv).recorded.after ({ auth := () }, []) retainingEvents
    ∃ pub, LastRetained defaultEnv t.2 pub ∧ Matches (split [0x74]) (split pub.topic) ∧
      retainedCopy pub = .publish [0x74] [0x6d] 1 true false 0 := by
  intro t
  have ht : (brokerSystem defaultEnv).recorded.Reachable (t.1, t.2) := by
    refine .of_allowed ⟨⟨(), rfl⟩, rfl⟩ ⟨⟨rfl, rfl, trivial⟩, ⟨rfl, rfl, rfl, ?_, ?_⟩, ⟨?_, ?_⟩,
      ⟨?_, ?_⟩, trivial⟩ <;> decide +kernel
  have hsub : Subscribes defaultEnv t.1 0 ⟨1, [⟨[0x74], 0⟩]⟩ := by
    have hnext : NextPacket defaultEnv t.1 0 _ _ :=
      ⟨subscribeBytes 1 [0x74] 0, {}, by decide +kernel, rfl⟩
    exact ⟨by decide +kernel, _, _, _, hnext, rfl, rfl⟩
  obtain ⟨blocks, codes, calls, hblocks, _, hhanded, hcalls, _⟩ :=
    subscribe_sends_retained defaultEnv ht hsub
  have hgranted : Session.grantedFilters defaultEnv 0 [⟨[0x74], 0⟩] (t.1.handling defaultEnv 0) =
      [⟨[0x74], 0⟩] := by
    decide +kernel
  have hsent : (⟨0, .publish [0x74] [0x6d] 1 true false 0, true⟩ : Handed) ∈
      t.1.history.handed ++ calls := by
    rw [← hhanded]
    decide +kernel
  have hnew : (⟨0, .publish [0x74] [0x6d] 1 true false 0, true⟩ : Handed) ∉
      t.1.history.handed := by
    decide +kernel
  have hmem : (0, OutPacket.publish [0x74] [0x6d] 1 true false 0) ∈
      (blocks.flatten ++ (codes.map (OutPacket.suback 1)).toList).map (Prod.mk 0) := by
    rw [← hcalls]
    exact List.mem_map_of_mem ((List.mem_append.mp hsent).resolve_left hnew)
  obtain ⟨packet, hpacket, heq⟩ := List.mem_map.mp hmem
  obtain rfl := (Prod.mk.inj heq).2
  rw [hgranted] at hblocks
  cases hblocks with
  | @cons _ block _ _ hblock hrest =>
      cases hrest
      rcases List.mem_append.mp hpacket with hpacket | hpacket
      · rw [List.flatten_singleton] at hpacket
        obtain ⟨pub, hlast, hmatches, _, hcopy⟩ := (hblock.mem_iff _).mp hpacket
        exact ⟨pub, hlast, hmatches, hcopy.symm⟩
      · obtain ⟨given, _, hsuback⟩ := Option.map_eq_some_iff.mp (Option.mem_toList.mp hpacket)
        cases hsuback

end JellyBroker
