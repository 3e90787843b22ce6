import JellyBroker.Broker.Authorised
import JellyBroker.Broker.StoredSubscriptions
import JellyBroker.Lib.LastWrite
/-!
# Routing follows the packets

For a client the broker is a table of its subscriptions: a SUBSCRIBE sets those that are
granted, an UNSUBSCRIBE removes them, and the CONNECT of a persistent client sets those
stored for it.  The topic tree is such a table.  In every state of every run, what it
holds for a session and a filter is what the last of these packets of the session said
about the filter, and `lookup` finds exactly the subscriptions of the table that match.
No close, timeout, error or packet of another session takes part.
-/

namespace JellyBroker

open JellyBroker.Lib JellyBroker.Packet JellyBroker.Topic

variable {α : Type}

/-! ## What the tree holds for a session -/

/-- The QoS that the tree holds for the session and the filter segments. -/
def held (sid : SessionId) (tree : TopicTree) (segments : List Bytes) : Option Nat :=
  (entryQos sid tree (segments.map Edge.ofFilterSegment)).head?

section Held

variable {sid : SessionId} {tree : TopicTree}

theorem path_eq_iff {segments : List Bytes} {filter : Bytes} :
    segments.map Edge.ofFilterSegment = TopicTree.filterPath filter ↔ split filter = segments := by
  constructor
  · intro h
    exact (map_ofFilterSegment_inj h).symm
  · rintro rfl
    rfl

theorem held_subscribe (sid : SessionId) (tree : TopicTree) (filter : Bytes) (qos : Nat)
    (segments : List Bytes) :
    held sid (tree.subscribe filter ⟨sid, qos⟩) segments =
      if split filter = segments then some qos else held sid tree segments := by
  unfold held
  rw [entryQos_subscribe]
  simp only [true_and, path_eq_iff]
  split_ifs
  · cases entryQos sid tree (segments.map Edge.ofFilterSegment) with
    | nil => rfl
    | cons _ _ => rfl
  · rfl

theorem held_unsubscribe (sid : SessionId) (tree : TopicTree) (filter : Bytes)
    (segments : List Bytes) :
    held sid (tree.unsubscribe filter sid) segments =
      if split filter = segments then none else held sid tree segments := by
  unfold held
  rw [entryQos_unsubscribe]
  simp only [true_and, path_eq_iff]
  split_ifs
  · rfl
  · rfl

theorem held_of_sameEntries {tree' : TopicTree} (h : SameEntries sid tree tree')
    (segments : List Bytes) : held sid tree' segments = held sid tree segments := by
  unfold held
  rw [h]

end Held

/-! ## What a packet sets -/

/-- The filters of a SUBSCRIBE that are granted, up to an access check that throws. -/
def Session.grantedFilters (env : Env α) (sid : SessionId) :
    List SubscribePacket.Filter → Broker α → List SubscribePacket.Filter
  | [], _ => []
  | filter :: rest, b =>
      match Session.subscribeTo env sid filter b with
      | (_, .error _) => []
      | (b, .ok .failure) => Session.grantedFilters env sid rest b
      | (b, .ok (.granted _)) => filter :: Session.grantedFilters env sid rest b

/-- The broker that the handler of the next packet finds. -/
def Runtime.handling (env : Env α) (n : Runtime α) (sid : SessionId) : Broker α :=
  match (n.parsers sid).tryExtract env.cfg with
  | (some packet, _) => n.toBroker.observe (.noteHandled sid packet)
  | (none, _) => n.toBroker

/-- The next turn of the session sets its subscription with the filter segments. -/
inductive Assigns (env : Env α) (n : Runtime α) (sid : SessionId) (segments : List Bytes) :
    Option Nat → Prop where
  | restored {conn : ConnectPacket} {sub : Subscription} : Connects env n sid conn →
      (∀ old, ¬Displaces n.toBroker sid conn.clientId old) → conn.cleanSession = false →
      LastWith (fun sub : Subscription => split sub.topicFilter = segments)
        (n.subManager.getClientSubs conn.clientId) sub →
      Assigns env n sid segments (some sub.qos)
  | granted {sub : SubscribePacket} {filter : SubscribePacket.Filter} : Subscribes env n sid sub →
      LastWith (fun filter : SubscribePacket.Filter => split filter.topicFilter = segments)
        (Session.grantedFilters env sid sub.filters (n.handling env sid)) filter →
      Assigns env n sid segments (some filter.requestedQos)
  | removed {unsub : UnsubscribePacket} {filter : Bytes} : Unsubscribes env n sid unsub →
      filter ∈ unsub.topicFilters → split filter = segments → Assigns env n sid segments none

/-- The last turn of the session that set its subscription with the filter segments. -/
def LastAssigned (env : Env α) (past : List (Runtime α × Event)) (sid : SessionId)
    (segments : List Bytes) (qos : Option Nat) : Prop :=
  ∃ n, LastWith (fun step => ∃ v, step.2 = .turn sid ∧ Assigns env step.1 sid segments v) past
    (n, .turn sid) ∧ Assigns env n sid segments qos

/-! ## The turns of the session -/

section Turn

variable {env : Env α} {n : Runtime α} {sid : SessionId}

theorem leaves_view (sid : SessionId) : TopicView (KeepsTidy (α := α) sid (SameEntries sid)) :=
  keepsTidy_view (sameEntries_relation sid)

theorem step_turn_of_next {hdr : FixedHeader} {body : Bytes}
    (h : NextPacket env n sid hdr body) :
    (n.step env (.turn sid)).toBroker =
      Session.catchException sid (Session.dispatch env sid hdr body (n.handling env sid)) := by
  obtain ⟨packet, parser, hextract, hdecode⟩ := h
  have hne : packet ≠ [] := by
    rintro rfl
    cases hdecode
  change (Session.onReadTurn env sid n).toBroker = _
  simp only [Session.onReadTurn, Runtime.handling, hextract, Session.onPacket,
    Session.handlePacket, hne, if_false, hdecode]

theorem handling_quiet (env : Env α) (n : Runtime α) (sid : SessionId) :
    Quiet n.toBroker (n.handling env sid) := by
  unfold Runtime.handling
  split
  · exact ⟨rfl, rfl, rfl, rfl, Or.inl rfl⟩
  · exact ⟨rfl, rfl, rfl, rfl, Or.inl rfl⟩

variable (env) in
theorem tidy_handling (h : Tidy sid n.toBroker) : Tidy sid (n.handling env sid) := by
  obtain ⟨hsessions, _, hstored, _⟩ := handling_quiet env n sid
  unfold Tidy
  rw [hsessions, hstored]
  exact h

theorem entries_subscribeTo {filter : SubscribePacket.Filter} {b b' : Broker α}
    {result : Except Exception SubackCode}
    (h : Session.subscribeTo env sid filter b = (b', result)) (htidy : Tidy sid b) :
    Tidy sid b' ∧
      (Grantable env b sid filter ∧ result = .ok (.granted filter.requestedQos) ∧
          SameEntries sid (b.tree.subscribe filter.topicFilter ⟨sid, filter.requestedQos⟩)
            b'.tree ∨
        ¬Grantable env b sid filter ∧ (result = .ok .failure ∨ ∃ e, result = .error e) ∧
          SameEntries sid b.tree b'.tree) := by
  have hturn := subscribeTo_turn env sid filter b
  rw [h] at hturn
  cases hturn with
  | invalid hinvalid =>
      refine ⟨htidy, Or.inr ⟨?_, Or.inl rfl, .refl sid b.tree⟩⟩
      intro hgrant
      have hvalid := hgrant.valid
      rw [hinvalid] at hvalid
      cases hvalid
  | thrown hthrows =>
      exact ⟨htidy, Or.inr ⟨fun hgrant => hgrant.not_throws hthrows, Or.inr ⟨_, rfl⟩,
        .refl sid b.tree⟩⟩
  | refused _ hno => exact ⟨htidy, Or.inr ⟨hno, Or.inl rfl, .refl sid b.tree⟩⟩
  | granted hgrant =>
      have hview := leaves_view (α := α) sid
      have hrecorded : Tidy sid
          (recordSubscription sid filter (accessChecked env sid filter b)) :=
        (KeepsTidy.recordSubscription (K := fun _ _ => True) trivial htidy).1
      obtain ⟨htidy', hsame⟩ := (hview.core.session env sid).deliverRetained
        hview.tables.toNotesFree filter.topicFilter _ hrecorded
      exact ⟨htidy', Or.inl ⟨hgrant, rfl, hsame⟩⟩

theorem held_subscribeAll (env : Env α) (sid : SessionId) (packetId : UInt16)
    (filters : List SubscribePacket.Filter) (codes : List SubackCode) {b : Broker α}
    (htidy : Tidy sid b) (segments : List Bytes) :
    Tidy sid (Session.subscribeAll env sid packetId filters codes b).1 ∧
    held sid (Session.subscribeAll env sid packetId filters codes b).1.tree segments =
      (Session.grantedFilters env sid filters b).foldl
        (fun value filter =>
          if split filter.topicFilter = segments then some filter.requestedQos else value)
        (held sid b.tree segments) := by
  induction filters generalizing codes b with
  | nil =>
      obtain ⟨htidy', hsame⟩ := ((leaves_view sid).core.session env sid).deliverOwn
        (.suback packetId codes) b htidy
      exact ⟨htidy', held_of_sameEntries hsame segments⟩
  | cons filter rest ih =>
      unfold Session.subscribeAll Session.grantedFilters
      rcases hturn : Session.subscribeTo env sid filter b with ⟨b', result⟩
      obtain ⟨htidy', hentries⟩ := entries_subscribeTo hturn htidy
      rcases hentries with ⟨_, rfl, hsame⟩ | ⟨_, rfl | ⟨e, rfl⟩, hsame⟩
      · have hheld := held_of_sameEntries hsame segments
        rw [held_subscribe] at hheld
        dsimp only
        rw [List.foldl_cons, ← hheld]
        exact ih _ htidy'
      · dsimp only
        rw [← held_of_sameEntries hsame]
        exact ih _ htidy'
      · exact ⟨htidy', held_of_sameEntries hsame segments⟩

theorem held_catchException (env : Env α) {result : Broker α × Option Exception}
    (htidy : Tidy sid result.1) (segments : List Bytes) :
    held sid (Session.catchException sid result).tree segments =
      held sid result.1.tree segments := by
  have hend := ((leaves_view (α := α) sid).loop env sid).catchException result htidy
  exact held_of_sameEntries hend.2 segments

theorem step_turn_of_subscribes {sub : SubscribePacket} (h : Subscribes env n sid sub) :
    (n.step env (.turn sid)).toBroker = Session.catchException sid
      (Session.subscribeAll env sid sub.packetId sub.filters [] (n.handling env sid)) := by
  obtain ⟨hconn, hdr, body, rest, hnext, htype, hparse⟩ := h
  have hconn' : ((n.handling env sid).sessions sid).connected = true := by
    rwa [(handling_quiet env n sid).sessions]
  have hhandled : Session.dispatch env sid hdr body (n.handling env sid) =
      Session.subscribeAll env sid sub.packetId sub.filters [] (n.handling env sid) := by
    simp only [Session.dispatch, htype, Session.handleSubscribe, hconn', Bool.not_true,
      Bool.false_eq_true, if_false, hparse]
  rw [step_turn_of_next hnext, hhandled]

theorem held_subscribes {sub : SubscribePacket} (h : Subscribes env n sid sub)
    (htidy : Tidy sid n.toBroker) (segments : List Bytes) :
    held sid (n.step env (.turn sid)).tree segments =
      (Session.grantedFilters env sid sub.filters (n.handling env sid)).foldl
        (fun value filter =>
          if split filter.topicFilter = segments then some filter.requestedQos else value)
        (held sid n.tree segments) := by
  obtain ⟨_, htree, _⟩ := handling_quiet env n sid
  obtain ⟨htidy', hheld⟩ := held_subscribeAll env sid sub.packetId sub.filters []
    (tidy_handling env htidy) segments
  rw [step_turn_of_subscribes h, held_catchException env htidy', hheld, htree]

theorem held_unsubscribeAll (filters : List Bytes) {b : Broker α} (htidy : Tidy sid b)
    (segments : List Bytes) :
    Tidy sid (filters.foldl (fun b filter => Session.unsubscribeFrom sid filter b) b) ∧
    held sid (filters.foldl (fun b filter => Session.unsubscribeFrom sid filter b) b).tree
        segments =
      filters.foldl (fun value filter => if split filter = segments then none else value)
        (held sid b.tree segments) := by
  induction filters generalizing b with
  | nil => exact ⟨htidy, rfl⟩
  | cons filter rest ih =>
      have htidy' : Tidy sid (Session.unsubscribeFrom sid filter b) :=
        (KeepsTidy.unsubscribeFrom (K := fun _ _ => True) trivial htidy).1
      have hheld := held_unsubscribe sid b.tree filter segments
      rw [List.foldl_cons, List.foldl_cons, ← hheld]
      exact ih htidy'

theorem held_unsubscribes {unsub : UnsubscribePacket} (h : Unsubscribes env n sid unsub)
    (htidy : Tidy sid n.toBroker) (segments : List Bytes) :
    held sid (n.step env (.turn sid)).tree segments =
      unsub.topicFilters.foldl
        (fun value filter => if split filter = segments then none else value)
        (held sid n.tree segments) := by
  obtain ⟨hconn, hdr, body, rest, hnext, htype, hparse⟩ := h
  obtain ⟨hsessions, htree, _⟩ := handling_quiet env n sid
  have hhandled : Session.dispatch env sid hdr body (n.handling env sid) =
      (Session.deliver env sid (.unsuback unsub.packetId) (unsub.topicFilters.foldl
        (fun b filter => Session.unsubscribeFrom sid filter b) (n.handling env sid)), none) := by
    have hconn' : ((n.handling env sid).sessions sid).connected = true := by rwa [hsessions]
    simp only [Session.dispatch, htype, Session.handleUnsubscribe, hconn', Bool.not_true,
      Bool.false_eq_true, if_false, hparse]
  obtain ⟨htidy', hheld⟩ := held_unsubscribeAll unsub.topicFilters (tidy_handling env htidy)
    segments
  obtain ⟨_, hsame⟩ := ((leaves_view sid).core.session env sid).deliverOwn
    (.unsuback unsub.packetId) _ htidy'
  rw [step_turn_of_next hnext, hhandled]
  change held sid (Session.deliver env sid _ _).tree segments = _
  rw [held_of_sameEntries hsame, hheld, htree]

def restoredTree (sid : SessionId) (conn : ConnectPacket) (b : Broker α) : TopicTree :=
  if conn.cleanSession then b.tree
  else (b.subManager.getClientSubs conn.clientId).foldl
    (fun tree sub => tree.subscribe sub.topicFilter ⟨sid, sub.qos⟩) b.tree

theorem held_acceptConnect {conn : ConnectPacket} {b : Broker α} (hblocked : b.blocked = false)
    (htidy : Tidy sid b) (hclear : ∀ old, ¬Displaces b sid conn.clientId old)
    (segments : List Bytes) :
    held sid (Session.acceptConnect env sid conn b).tree segments =
      held sid (restoredTree sid conn b) segments := by
  have hview := leaves_view (α := α) sid
  have hrestored : Tidy sid (Session.restoreSubscriptions sid conn
      (Session.register env sid conn (Session.forgetFailures sid b))) :=
    (KeepsTidy.connect (K := fun _ _ => True) ⟨fun _ => trivial, fun _ _ => trivial⟩
      (fun _ _ _ => trivial) (Session.forgetFailures sid b) htidy).1
  have htree : (Session.restoreSubscriptions sid conn
      (Session.register env sid conn (Session.forgetFailures sid b))).tree =
      restoredTree sid conn b := by
    unfold Session.restoreSubscriptions restoredTree
    split_ifs
    · rfl
    · rfl
  rw [acceptConnect_of_clear env hblocked hclear, ← htree]
  obtain ⟨htidy', hsame⟩ := (hview.core.session env sid).deliverOwn
    (.connack (!conn.cleanSession && !((Session.register env sid conn
      (Session.forgetFailures sid b)).subManager.getClientSubs conn.clientId).isEmpty) .accepted)
    _ hrestored
  exact held_of_sameEntries hsame segments

theorem held_connects {conn : ConnectPacket} (h : Connects env n sid conn)
    (henabled : n.toBroker.Enabled (.turn sid)) (htidy : Tidy sid n.toBroker)
    (hclear : ∀ old, ¬Displaces n.toBroker sid conn.clientId old) (segments : List Bytes) :
    held sid (n.step env (.turn sid)).tree segments =
      held sid (restoredTree sid conn n.toBroker) segments := by
  obtain ⟨packet, auth, failures, bans, hturn⟩ := h.onReadTurn_eq
  change (n.step env (.turn sid)).toBroker = _ at hturn
  rw [hturn]
  refine held_acceptConnect ?_ ?_ ?_ segments
  · exact henabled.1
  · exact htidy
  · exact hclear

theorem held_displaces {conn : ConnectPacket} (h : Connects env n sid conn) {old : SessionId}
    (hold : Displaces n.toBroker sid conn.clientId old) (segments : List Bytes) :
    held sid (n.step env (.turn sid)).tree segments = held sid n.tree segments := by
  obtain ⟨packet, auth, failures, bans, hturn⟩ := h.onReadTurn_eq
  change (n.step env (.turn sid)).toBroker = _ at hturn
  have hold' : Displaces (((n.toBroker.observe (.noteHandled sid packet)).setAuthTables failures
      bans).setAuth auth) sid conn.clientId old := hold
  rw [hturn, acceptConnect_of_displaces env hold']
  rfl

end Turn

/-! ## Steps -/

section Step

variable {env : Env α} {n : Runtime α} {sid : SessionId} {segments : List Bytes}

theorem held_of_assigns {value : Option Nat} (hn : (brokerSystem env).Reachable n)
    (henabled : n.toBroker.Enabled (.turn sid)) (h : Assigns env n sid segments value) :
    held sid (n.step env (.turn sid)).tree segments = value := by
  have htidy := tidy_reachable hn sid
  cases h with
  | restored hconnects hclear hpersistent hlast =>
      rw [held_connects hconnects henabled htidy hclear]
      unfold restoredTree
      rw [if_neg (by rw [hpersistent]; exact Bool.false_ne_true)]
      refine foldl_of_lastWith (fun tree => held sid tree segments) ?_ hlast ?_ n.tree
      · intro tree sub hother
        rw [held_subscribe, if_neg hother]
      · intro tree
        rw [held_subscribe, if_pos hlast.1]
  | granted hsubscribes hlast =>
      rw [held_subscribes hsubscribes htidy]
      refine foldl_of_lastWith id ?_ hlast ?_ _
      · intro value filter hother
        exact if_neg hother
      · intro value
        exact if_pos hlast.1
  | @removed unsub filter hunsubscribes hmem hsegments =>
      rw [held_unsubscribes hunsubscribes htidy]
      obtain ⟨last, hlast⟩ := exists_lastWith (P := fun filter => split filter = segments)
        ⟨filter, hmem, hsegments⟩
      refine foldl_of_lastWith id ?_ hlast ?_ _
      · intro value filter hother
        exact if_neg hother
      · intro value
        exact if_pos hlast.1

theorem held_of_not_assigns {e : Event} (hn : (brokerSystem env).Reachable n)
    (henabled : n.toBroker.Enabled e)
    (h : e = .turn sid → ∀ value, ¬Assigns env n sid segments value) :
    held sid (n.step env e).tree segments = held sid n.tree segments := by
  have htidy := tidy_reachable hn sid
  by_cases hturn : e = .turn sid
  · subst hturn
    have hnone := h rfl
    by_cases hconnects : ∃ conn, Connects env n sid conn
    · obtain ⟨conn, hconnects⟩ := hconnects
      by_cases hclear : ∀ old, ¬Displaces n.toBroker sid conn.clientId old
      · rw [held_connects hconnects henabled htidy hclear]
        unfold restoredTree
        split_ifs with hclean
        · rfl
        · -- no stored filter has these segments
          rw [Bool.not_eq_true] at hclean
          refine foldl_of_none (fun tree => held sid tree segments)
            (P := fun sub : Subscription => split sub.topicFilter = segments) ?_ ?_ n.tree
          · intro tree sub hother
            rw [held_subscribe, if_neg hother]
          · intro sub hmem hsegments
            obtain ⟨last, hlast⟩ := exists_lastWith (P := fun sub : Subscription =>
              split sub.topicFilter = segments) ⟨sub, hmem, hsegments⟩
            exact hnone _ (.restored hconnects hclear hclean hlast)
      · push Not at hclear
        obtain ⟨old, hold⟩ := hclear
        exact held_displaces hconnects hold segments
    · by_cases hsubscribes : ∃ sub, Subscribes env n sid sub
      · obtain ⟨sub, hsubscribes⟩ := hsubscribes
        rw [held_subscribes hsubscribes htidy]
        refine foldl_of_none id (P := fun filter : SubscribePacket.Filter =>
          split filter.topicFilter = segments) (fun value filter hother => if_neg hother) ?_ _
        intro filter hmem hsegments
        obtain ⟨last, hlast⟩ := exists_lastWith (P := fun filter : SubscribePacket.Filter =>
          split filter.topicFilter = segments) ⟨filter, hmem, hsegments⟩
        exact hnone _ (.granted hsubscribes hlast)
      · by_cases hunsubscribes : ∃ unsub, Unsubscribes env n sid unsub
        · obtain ⟨unsub, hunsubscribes⟩ := hunsubscribes
          rw [held_unsubscribes hunsubscribes htidy]
          refine foldl_of_none id (P := fun filter => split filter = segments)
            (fun value filter hother => if_neg hother) ?_ _
          intro filter hmem hsegments
          exact hnone _ (.removed hunsubscribes hmem hsegments)
        · have hkeeps : KeepsTidy sid (SameEntries sid) n.toBroker
              (n.step env (.turn sid)).toBroker := by
            refine turn_keepsTidy env (sameEntries_relation sid) henabled ?_ ?_ ?_
            · intro conn h
              exact absurd ⟨conn, h⟩ hconnects
            · intro sub h
              exact absurd ⟨sub, h⟩ hsubscribes
            · intro unsub h
              exact absurd ⟨unsub, h⟩ hunsubscribes
          exact held_of_sameEntries (hkeeps htidy).2 segments
  · have hendures := (reachable_standsBy hn henabled hturn).2
    exact held_of_sameEntries hendures.entries segments

end Step

/-! ## Runs -/

section Run

variable {env : Env α} {n : Runtime α} {past : List (Runtime α × Event)}

theorem held_iff_lastAssigned (h : (brokerSystem env).recorded.Reachable (n, past))
    (sid : SessionId) (segments : List Bytes) (qos : Nat) :
    held sid n.tree segments = some qos ↔ LastAssigned env past sid segments (some qos) := by
  have hlast := h.lastWrite_iff (fun n => held sid n.tree segments)
    (fun n e value => e = .turn sid ∧ Assigns env n sid segments value) ?_ ?_ ?_
    (Option.some_ne_none qos)
  · refine hlast.trans ?_
    constructor
    · rintro ⟨⟨m, e⟩, hlast, rfl, hassigns⟩
      exact ⟨m, hlast, hassigns⟩
    · rintro ⟨m, hlast, hassigns⟩
      exact ⟨(m, .turn sid), hlast, rfl, hassigns⟩
  · rintro _ ⟨auth, rfl⟩
    have hempty : ({ auth } : Runtime α).tree.root = Node.empty := rfl
    unfold held entryQos
    rw [hempty, Node.subscribersAt_empty]
    rfl
  · rintro n e value hn henabled ⟨rfl, hassigns⟩
    exact held_of_assigns hn henabled hassigns
  · intro n e hn henabled hnone
    exact held_of_not_assigns hn henabled fun hturn value hassigns =>
      hnone value ⟨hturn, hassigns⟩

/-- No session has two entries at a node. -/
theorem nodup_of_single {entries : List SubscriberEntry}
    (h : ∀ sid, ((entries.filter fun entry => entry.session = sid).map (·.qos)).length ≤ 1) :
    (entries.map (·.session)).Nodup := by
  rw [List.nodup_iff_count_le_one]
  intro sid
  have hsid := h sid
  rw [List.length_map, ← List.countP_eq_length_filter] at hsid
  rw [List.count, List.countP_map]
  exact hsid

theorem represents_held (h : (brokerSystem env).recorded.Reachable (n, past)) :
    Represents n.tree fun segments sid => held sid n.tree segments := by
  have hn : (brokerSystem env).Reachable n := h.of_mem_past.1
  have hentries := (holds_readable h).topics.entries
  refine ⟨fun path => nodup_of_single fun sid => single_reachable hn sid path, ?_, ?_⟩
  · intro path entry
    constructor
    · intro hmem
      obtain ⟨filter, _, hpath, _⟩ := hentries path entry hmem
      refine ⟨split filter.topicFilter, hpath, ?_⟩
      have hqos := mem_entryQos.mpr hmem
      have hsingle := single_reachable hn entry.session path
      unfold held
      rw [show (split filter.topicFilter).map Edge.ofFilterSegment = path from hpath.symm]
      cases hvalues : entryQos entry.session n.tree path with
      | nil =>
          rw [hvalues] at hqos
          cases hqos
      | cons value rest =>
          rw [hvalues, List.length_cons] at hsingle
          have hrest : rest = [] := List.eq_nil_of_length_eq_zero (by omega)
          rw [hvalues, hrest, List.mem_singleton] at hqos
          rw [hqos]
          rfl
    · rintro ⟨segments, rfl, hheld⟩
      exact mem_entryQos.mp (List.mem_of_mem_head? hheld)
  · intro segments sid hheld
    obtain ⟨qos, hqos⟩ := Option.ne_none_iff_exists'.mp hheld
    have hmem := mem_entryQos.mp (List.mem_of_mem_head? hqos)
    obtain ⟨filter, hfilter, hpath, _⟩ := hentries _ _ hmem
    rw [map_ofFilterSegment_inj hpath]
    exact filterShape_of_valid hfilter.valid

end Run

/-- In every state of every run a lookup of a valid topic finds one entry for each
subscription whose filter segments match those of the topic, where `split` makes no segment
after a final separator.  The subscriptions of a session are what its own packets last set:
the granted filters of its SUBSCRIBE packets, without those of its UNSUBSCRIBE packets, and
what was restored when it connected. -/
theorem lookup_follows_packets (env : Env α) {n : Runtime α} {past : List (Runtime α × Event)}
    (h : (brokerSystem env).recorded.Reachable (n, past)) {topic : Bytes}
    (htopic : isValidTopic env.cfg topic = true) :
    ∃ rows : List (List Bytes × SessionId × Nat),
      (rows.map fun row => (row.1, row.2.1)).Nodup ∧
      n.tree.lookup topic = rows.map (fun row => ⟨row.2.1, row.2.2⟩) ∧
      ∀ segments sid qos, (segments, sid, qos) ∈ rows ↔
        LastAssigned env past sid segments (some qos) ∧ Matches segments (split topic) := by
  have hrep := represents_held h
  refine ⟨lookupRows n.tree topic, nodup_lookupRows_keys hrep topic,
    lookup_eq_lookupRows n.tree topic, ?_⟩
  intro segments sid qos
  rw [mem_lookupRows_iff hrep (topicShape_of_valid htopic), held_iff_lastAssigned h]

def subscribingEvents : List Event :=
  [.accept [0x69], .read 0 (connectBytes true [0x63] ++ subscribeBytes 1 [0x74] 1), .turn 0,
    .turn 0]

/-- What the lookup finds was set by a packet of that client. -/
theorem lookup_follows_packets_subscribed :
    let t := (brokerSystem defaultEnv).recorded.after ({ auth := () }, []) subscribingEvents
    ∃ segments, LastAssigned defaultEnv t.2 0 segments (some 1) ∧
      Matches segments (split [0x74]) := by
  intro t
  have ht : (brokerSystem defaultEnv).recorded.Reachable t := by
    refine .of_allowed ⟨⟨(), rfl⟩, rfl⟩ ⟨⟨rfl, rfl, trivial⟩, ⟨rfl, rfl, rfl, ?_, ?_⟩, ⟨?_, ?_⟩,
      ⟨?_, ?_⟩, trivial⟩ <;> decide +kernel
  have hfound : t.1.tree.lookup [0x74] = [⟨0, 1⟩] := by decide +kernel
  have htopic : isValidTopic defaultEnv.cfg [0x74] = true := by decide
  obtain ⟨rows, _, hlookup, hrows⟩ := lookup_follows_packets defaultEnv ht htopic
  have hmem : (⟨0, 1⟩ : SubscriberEntry) ∈ rows.map fun row => ⟨row.2.1, row.2.2⟩ := by
    rw [← hfound.symm.trans hlookup]
    exact List.mem_cons_self
  obtain ⟨⟨segments, sid, qos⟩, hrow, hentry⟩ := List.mem_map.mp hmem
  obtain ⟨rfl, rfl⟩ := SubscriberEntry.mk.inj hentry
  exact ⟨segments, (hrows segments _ _).mp hrow⟩

end JellyBroker
