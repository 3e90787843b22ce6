import JellyBroker.Broker.Bystander
/-!
# Clean sessions

`close` takes the subscriptions of a clean session out of the topic tree that
the subscription manager lists for its client, and the subscription manager
lists none: only persistent sessions store theirs.  DISCONNECT does not even
come that far.  So a clean session leaves every entry behind that it has when
it leaves.
-/

namespace JellyBroker

open JellyBroker.Lib JellyBroker.Packet JellyBroker.Qos JellyBroker.Topic

variable {α : Type}

/-! ## The session's own packets -/

/-- A relation between the trees before and after that allows any change of the
entries of other sessions. -/
structure EntryRelation (sid : SessionId) (K : TopicTree → TopicTree → Prop) : Prop where
  same : ∀ {tree tree'}, SameEntries sid tree tree' → K tree tree'
  trans : ∀ {tree₁ tree₂ tree₃}, K tree₁ tree₂ → K tree₂ tree₃ → K tree₁ tree₃

/-- Nothing is stored for the client of the session if it is connected and
clean. -/
def Tidy (sid : SessionId) (b : Broker α) : Prop :=
  (b.sessions sid).connected = true → (b.sessions sid).cleanSession = true →
    b.subManager.getClientSubs (b.sessions sid).clientId = []

def KeepsTidy (sid : SessionId) (K : TopicTree → TopicTree → Prop) (b b' : Broker α) : Prop :=
  Tidy sid b → Tidy sid b' ∧ K b.tree b'.tree

theorem getClientSubs_close_nil {x : SessionId} {b : Broker α} {clientId : Bytes}
    (hconn : (b.sessions x).connected = true)
    (h : b.subManager.getClientSubs clientId = []) :
    (Session.close false x b).subManager.getClientSubs clientId = [] := by
  rw [(Session.topics_close hconn).2]
  unfold Session.dropSubscriptions
  dsimp only
  split_ifs
  · rw [SubscriptionManager.getClientSubs_removeClient, h]
    split_ifs <;> rfl
  · exact h

namespace KeepsTidy

variable {sid : SessionId} {K : TopicTree → TopicTree → Prop}

theorem of_change {b b' : Broker α}
    (hconn : (b'.sessions sid).connected = true → (b.sessions sid).connected = true)
    (hclean : (b'.sessions sid).cleanSession = (b.sessions sid).cleanSession)
    (hclient : (b'.sessions sid).clientId = (b.sessions sid).clientId)
    (hstored : (b.sessions sid).cleanSession = true →
      b.subManager.getClientSubs (b.sessions sid).clientId = [] →
      b'.subManager.getClientSubs (b.sessions sid).clientId = [])
    (htree : Tidy sid b → K b.tree b'.tree) : KeepsTidy sid K b b' := by
  intro htidy
  refine ⟨?_, htree htidy⟩
  intro hconn' hclean'
  rw [hclean] at hclean'
  rw [hclient]
  exact hstored hclean' (htidy (hconn hconn') hclean')

theorem of_sessions {b b' : Broker α} (hsessions : b'.sessions = b.sessions)
    (hstored : (b.sessions sid).cleanSession = true → b'.subManager = b.subManager)
    (htree : K b.tree b'.tree) : KeepsTidy sid K b b' := by
  refine of_change ?_ ?_ ?_ ?_ fun _ => htree
  · rw [hsessions]
    exact id
  · rw [hsessions]
  · rw [hsessions]
  · intro hclean hnil
    rw [hstored hclean]
    exact hnil

theorem of_same (hK : EntryRelation sid K) {b b' : Broker α} (hsessions : b'.sessions = b.sessions)
    (htree : b'.tree = b.tree) (hstored : b'.subManager = b.subManager) :
    KeepsTidy sid K b b' := by
  refine of_sessions hsessions (fun _ => hstored) ?_
  rw [htree]
  exact hK.same (.refl sid b.tree)

theorem modifySession (hK : EntryRelation sid K) (b : Broker α) (x : SessionId)
    {change : Session → Session} (hconn : ∀ s, (change s).connected = true → s.connected = true)
    (hclean : ∀ s, (change s).cleanSession = s.cleanSession)
    (hclient : ∀ s, (change s).clientId = s.clientId) :
    KeepsTidy sid K b (b.modifySession x change) := by
  by_cases heq : sid = x
  · have hself : (b.modifySession x change).sessions sid = change (b.sessions sid) := by
      rw [heq]
      exact Broker.sessions_modifySession_self x change b
    refine of_change ?_ ?_ ?_ (fun _ => id) fun _ => hK.same (.refl sid b.tree)
    · rw [hself]
      exact hconn _
    · rw [hself, hclean]
    · rw [hself, hclient]
  · have hsame : (b.modifySession x change).sessions sid = b.sessions sid :=
      Broker.sessions_modifySession_of_ne heq change b
    refine of_change ?_ ?_ ?_ (fun _ => id) fun _ => hK.same (.refl sid b.tree)
    · rw [hsame]
      exact id
    · rw [hsame]
    · rw [hsame]

theorem close (hK : EntryRelation sid K) (b : Broker α) (x : SessionId)
    (hconn : (b.sessions x).connected = true) :
    KeepsTidy sid K b (Session.close false x b) := by
  refine of_change connected_of_close (cleanSession_close x b sid) (clientId_close x b sid) ?_ ?_
  · intro _ hnil
    exact getClientSubs_close_nil hconn hnil
  · intro htidy
    apply hK.same
    rw [(Session.topics_close hconn).1]
    by_cases heq : x = sid
    · rw [heq] at hconn ⊢
      rw [tree_dropSubscriptions (htidy hconn)]
      exact .refl sid b.tree
    · exact sameEntries_dropSubscriptions heq b

end KeepsTidy

section Packets

variable {env : Env α} {sid : SessionId} {K : TopicTree → TopicTree → Prop}

theorem keepsTidy_view (hK : EntryRelation sid K) : TopicView (KeepsTidy (α := α) sid K) where
  quiet h := .of_same hK h.sessions h.tree h.subManager
  trans h h' htidy := by
    obtain ⟨htidy₂, htree⟩ := h htidy
    obtain ⟨htidy₃, htree'⟩ := h' htidy₂
    exact ⟨htidy₃, hK.trans htree htree'⟩
  plumbing b x change hplumbing := by
    refine .modifySession hK b x ?_ hplumbing.cleanSession hplumbing.clientId
    intro s hs
    rw [← hplumbing.connected]
    exact hs
  close b x hconn := .close hK b x hconn
  rearm b x _ := by
    refine .modifySession hK b x ?_ ?_ ?_
    · intro s
      unfold Session.rearm
      split
      · exact id
      · exact id
    · intro s
      unfold Session.rearm
      split <;> rfl
    · intro s
      unfold Session.rearm
      split <;> rfl
  disconnect b x := .modifySession hK b x (fun _ hs => by cases hs) (fun _ => rfl) fun _ => rfl
  setRetained cfg b topic msg :=
    .of_sessions rfl (fun _ => rfl) (hK.same (sameEntries_setRetained cfg b.tree topic msg sid))

theorem KeepsTidy.recordSubscription {filter : SubscribePacket.Filter} {b : Broker α}
    (h : K b.tree (b.tree.subscribe filter.topicFilter ⟨sid, filter.requestedQos⟩)) :
    KeepsTidy sid K b (JellyBroker.recordSubscription sid filter b) := by
  refine .of_sessions rfl ?_ h
  intro hclean
  unfold JellyBroker.recordSubscription
  dsimp only
  rw [if_pos hclean]

theorem KeepsTidy.unsubscribeFrom {filter : Bytes} {b : Broker α}
    (h : K b.tree (b.tree.unsubscribe filter sid)) :
    KeepsTidy sid K b (Session.unsubscribeFrom sid filter b) := by
  refine .of_sessions rfl ?_ h
  intro hclean
  unfold Session.unsubscribeFrom
  dsimp only
  rw [if_pos hclean]

/-- The CONNECT of a clean session has what was stored for its client
removed. -/
theorem KeepsTidy.connect (hK : EntryRelation sid K) {conn : ConnectPacket}
    (hrestore : conn.cleanSession = false → ∀ tree (sub : Subscription),
      K tree (tree.subscribe sub.topicFilter ⟨sid, sub.qos⟩)) (b : Broker α) :
    KeepsTidy sid K b
      (Session.restoreSubscriptions sid conn (Session.register env sid conn b)) := by
  have hself : (Session.register env sid conn b).sessions sid =
      Session.adopt env.cfg conn (b.sessions sid) := Broker.sessions_modifySession_self _ _ _
  intro _
  constructor
  · intro _ hclean
    rw [sessions_restoreSubscriptions, hself] at hclean ⊢
    have hclean' : conn.cleanSession = true := hclean
    unfold Session.restoreSubscriptions
    rw [if_pos hclean']
    change ((Session.register env sid conn b).subManager.removeClient
      conn.clientId).getClientSubs conn.clientId = []
    rw [SubscriptionManager.getClientSubs_removeClient, if_pos rfl]
  · exact Session.restoreSubscriptions_rule (fun tree => hK.same (.refl sid tree)) hK.trans hrestore
      (Session.register env sid conn b)

end Packets

/-! ## Turns of the session -/

section Turn

variable {env : Env α} {n : Runtime α} {sid : SessionId} {K : TopicTree → TopicTree → Prop}

variable (env) in
/-- What a turn of the session does to its entries is what the subscribing
packets do to them. -/
theorem turn_keepsTidy (hK : EntryRelation sid K) (henabled : n.toBroker.Enabled (.turn sid))
    (hconnect : ∀ conn, Connects env n sid conn → conn.cleanSession = false →
      ∀ tree (sub : Subscription), K tree (tree.subscribe sub.topicFilter ⟨sid, sub.qos⟩))
    (hsubscribe : ∀ sub, Subscribes env n sid sub → ∀ filter ∈ sub.filters,
      isValidFilter env.cfg filter.topicFilter = true →
      ∀ tree, K tree (tree.subscribe filter.topicFilter ⟨sid, filter.requestedQos⟩))
    (hunsubscribe : ∀ unsub, Unsubscribes env n sid unsub → ∀ filter ∈ unsub.topicFilters,
      ∀ tree, K tree (tree.unsubscribe filter sid)) :
    KeepsTidy sid K n.toBroker (n.step env (.turn sid)).toBroker := by
  apply ((keepsTidy_view hK).turn env n sid).step henabled
  · intro conn b hconnects _ _ _
    exact .connect hK (hconnect conn hconnects) b
  · intro sub hsub filter hfilter hvalid b _
    exact .recordSubscription (hsubscribe sub hsub filter hfilter hvalid b.tree)
  · intro unsub hunsub filter hfilter b
    exact .unsubscribeFrom (hunsubscribe unsub hunsub filter hfilter b.tree)

end Turn

/-! ## Reachable states -/

/-- Every session stands by while others are served. -/
theorem bystander_of_registered {b : Broker α} {sid : SessionId} (hregistered : Registered b)
    (htidy : Tidy sid b) :
    Bystander sid (b.sessions sid).clientId ((b.sessions sid).connected = true) b where
  registered := hregistered
  client _ := rfl
  claims := id
  alone hconn _ hne hs := fun hsame => hne (hregistered.unique hs hconn hsame)
  tidy := htidy

theorem step_standsBy (env : Env α) {n : Runtime α} {e : Event} {sid : SessionId}
    (hregistered : Registered n.toBroker) (htidy : Tidy sid n.toBroker)
    (henabled : n.toBroker.Enabled e) (hturn : e ≠ .turn sid) :
    Bystander sid (n.sessions sid).clientId ((n.sessions sid).connected = true)
        (n.step env e).toBroker ∧
      Endures sid (n.sessions sid).clientId ((n.sessions sid).connected = true) n.toBroker
        (n.step env e).toBroker := by
  apply step_endures env (bystander_of_registered hregistered htidy) henabled hturn
  intro hconn hidle
  rw [hconn] at hidle
  cases hidle

theorem tidy_step {env : Env α} {n : Runtime α} {e : Event} (hregistered : Registered n.toBroker)
    {sid : SessionId} (htidy : Tidy sid n.toBroker) (henabled : n.toBroker.Enabled e) :
    Tidy sid (n.step env e).toBroker := by
  by_cases hturn : e = .turn sid
  · subst hturn
    have hany : EntryRelation sid fun _ _ => True := ⟨fun _ => trivial, fun _ _ => trivial⟩
    have hkeeps : KeepsTidy sid (fun _ _ => True) n.toBroker (n.step env (.turn sid)).toBroker :=
      turn_keepsTidy env hany henabled (fun _ _ _ _ _ => trivial) (fun _ _ _ _ _ _ => trivial)
        fun _ _ _ _ _ => trivial
    exact (hkeeps htidy).1
  · have hafter := (step_standsBy env hregistered htidy henabled hturn).1
    intro hconn hclean
    rw [hafter.client hconn]
    exact hafter.tidy hconn hclean

theorem tidy_reachable {env : Env α} {n : Runtime α} (hn : (brokerSystem env).Reachable n)
    (sid : SessionId) : Tidy sid n.toBroker := by
  have hboth : Registered n.toBroker ∧ ∀ sid, Tidy sid n.toBroker := by
    refine hn.invariant (P := fun n => Registered n.toBroker ∧ ∀ sid, Tidy sid n.toBroker) ?_ ?_
    · rintro _ ⟨auth, rfl⟩
      refine ⟨registered_init auth, ?_⟩
      intro sid hconn
      cases hconn
    · rintro n e ⟨hregistered, htidy⟩ henabled
      refine ⟨(registered_inductive env).step henabled hregistered, ?_⟩
      intro sid
      exact tidy_step hregistered (htidy sid) henabled
  exact hboth.2 sid

theorem reachable_standsBy {env : Env α} {n : Runtime α} (hn : (brokerSystem env).Reachable n)
    {e : Event} {sid : SessionId} (henabled : n.toBroker.Enabled e) (hturn : e ≠ .turn sid) :
    Bystander sid (n.sessions sid).clientId ((n.sessions sid).connected = true)
        (n.step env e).toBroker ∧
      Endures sid (n.sessions sid).clientId ((n.sessions sid).connected = true) n.toBroker
        (n.step env e).toBroker :=
  step_standsBy env ((registered_inductive env).reachable registered_init hn)
    (tidy_reachable hn sid) henabled hturn

/-! ## Sessions that are not connected -/

theorem sameEntries_relation (sid : SessionId) : EntryRelation sid (SameEntries sid) where
  same := id
  trans := SameEntries.trans

theorem unconnected_step {env : Env α} {n : Runtime α} {e : Event} {sid : SessionId}
    (hregistered : Registered n.toBroker) (hidle : (n.sessions sid).connected = false)
    (henabled : n.toBroker.Enabled e) (hno : AcceptsNone env sid n e) :
    ((n.step env e).sessions sid).connected = false ∧
      SameEntries sid n.tree (n.step env e).tree := by
  have htidy : Tidy sid n.toBroker := by
    intro hconn
    rw [hidle] at hconn
    cases hconn
  by_cases hturn : e = .turn sid
  · subst hturn
    have hK := sameEntries_relation sid
    constructor
    · exact (staysUnconnected_loop env sid).unconnectedTurn (staysUnconnected_frame sid).authFree
        henabled.2 hidle (hno rfl) hidle
    · have hview := keepsTidy_view (α := α) hK
      exact ((hview.loop env sid).unconnectedTurn hview.auth henabled.2 hidle (hno rfl) htidy).2
  · have hendures := (step_standsBy env hregistered htidy henabled hturn).2
    refine ⟨?_, hendures.entries⟩
    by_contra hconn
    rw [Bool.not_eq_false] at hconn
    rw [hendures.connected hconn] at hidle
    cases hidle

theorem unconnected_run {env : Env α} {n n' : Runtime α} {sid : SessionId} {events : List Event}
    (hregistered : Registered n.toBroker) (hidle : (n.sessions sid).connected = false)
    (hrun : ((brokerSystem env).restrict (AcceptsNone env sid)).Run n events n') :
    SameEntries sid n.tree n'.tree := by
  have hall : Registered n'.toBroker ∧ (n'.sessions sid).connected = false ∧
      SameEntries sid n.tree n'.tree := by
    refine hrun.preserves (P := fun t => Registered t.toBroker ∧
      (t.sessions sid).connected = false ∧ SameEntries sid n.tree t.tree) ?_
      ⟨hregistered, hidle, .refl sid n.tree⟩
    rintro t e ⟨hregistered', hidle', hsame⟩ ⟨henabled, hno⟩
    obtain ⟨hidle'', hsame'⟩ := unconnected_step hregistered' hidle' henabled hno
    exact ⟨(registered_inductive env).step henabled hregistered', hidle'', hsame.trans hsame'⟩
  exact hall.2.2

/-! ## Leaving -/

def Traceless (tree : TopicTree) (sid : SessionId) : Prop :=
  ∀ topic, sid ∉ (tree.lookup topic).map (·.session)

/-- The step handles a SUBSCRIBE of the session that has a valid filter. -/
def Installs (env : Env α) (sid : SessionId) (n : Runtime α) (e : Event) : Prop :=
  e = .turn sid ∧ ∃ sub, Subscribes env n sid sub ∧
    ∃ filter ∈ sub.filters, isValidFilter env.cfg filter.topicFilter = true

def Uninstalls (env : Env α) (sid : SessionId) (n : Runtime α) (e : Event) : Prop :=
  e = .turn sid ∧ ∃ unsub, Unsubscribes env n sid unsub

section Leaving

variable {env : Env α} {n : Runtime α} {sid : SessionId} {K : TopicTree → TopicTree → Prop}

/-- What the steps of a connected session and of the others do to its
entries. -/
theorem connected_step (hK : EntryRelation sid K) (hn : (brokerSystem env).Reachable n)
    (hconn : (n.sessions sid).connected = true) {e : Event} (henabled : n.toBroker.Enabled e)
    (hsubscribe : Installs env sid n e →
      ∀ tree filter qos, K tree (tree.subscribe filter ⟨sid, qos⟩))
    (hunsubscribe : Uninstalls env sid n e →
      ∀ tree filter, K tree (tree.unsubscribe filter sid)) :
    K n.tree (n.step env e).tree := by
  by_cases hturn : e = .turn sid
  · have hkeeps : KeepsTidy sid K n.toBroker (n.step env (.turn sid)).toBroker := by
      subst hturn
      apply turn_keepsTidy env hK henabled
      · intro conn hconnects
        rw [hconnects.first] at hconn
        cases hconn
      · intro sub hsub filter hfilter hvalid tree
        exact hsubscribe ⟨rfl, sub, hsub, filter, hfilter, hvalid⟩ tree _ _
      · intro unsub hunsub filter _ tree
        exact hunsubscribe ⟨rfl, unsub, hunsub⟩ tree filter
    rw [hturn]
    exact (hkeeps (tidy_reachable hn sid)).2
  · have hendures := (reachable_standsBy hn henabled hturn).2
    exact hK.same hendures.entries

theorem entriesWithin_relation (sid : SessionId) : EntryRelation sid (EntriesWithin sid) where
  same := SameEntries.within
  trans := EntriesWithin.trans

theorem withinEntries_relation (sid : SessionId) :
    EntryRelation sid fun tree tree' => EntriesWithin sid tree' tree where
  same h := h.symm.within
  trans h h' := EntriesWithin.trans h' h

end Leaving

/-- A session that has left is found in no lookup, unless it connects again, if
it was found in none before it left and does not leave in a SUBSCRIBE.  If it
was found in one, it still is, unless it leaves in an UNSUBSCRIBE. -/
theorem session_entries_after_leaving (env : Env α) (n : Runtime α)
    (hn : (brokerSystem env).Reachable n) (sid : SessionId)
    (hconn : (n.sessions sid).connected = true) (e : Event) (henabled : n.toBroker.Enabled e)
    (hleft : ((n.step env e).sessions sid).connected = false) (events : List Event)
    (n' : Runtime α)
    (hrun : ((brokerSystem env).restrict (AcceptsNone env sid)).Run (n.step env e) events n') :
    (Traceless n.tree sid → ¬Installs env sid n e → Traceless n'.tree sid) ∧
      (¬Traceless n.tree sid → ¬Uninstalls env sid n e → ¬Traceless n'.tree sid) := by
  have hregistered : Registered (n.step env e).toBroker :=
    (registered_inductive env).reachable registered_init (hn.step henabled)
  have hlater : SameEntries sid (n.step env e).tree n'.tree :=
    unconnected_run hregistered hleft hrun
  constructor
  · intro hnone hinstalls topic hmem
    have hstep : EntriesWithin sid (n.step env e).tree n.tree := by
      refine connected_step (withinEntries_relation sid) hn hconn henabled ?_ ?_
      · intro h
        exact absurd h hinstalls
      · intro _ tree filter
        exact entriesWithin_unsubscribe tree filter sid sid
    exact hnone topic ((hlater.symm.within.trans hstep).mem_lookup hmem)
  · intro hfound huninstalls hnone
    apply hfound
    intro topic hmem
    have hstep : EntriesWithin sid n.tree (n.step env e).tree := by
      refine connected_step (entriesWithin_relation sid) hn hconn henabled ?_ ?_
      · intro _ tree filter qos
        exact entriesWithin_subscribe tree filter ⟨sid, qos⟩ sid
      · intro h
        exact absurd h huninstalls
    exact hnone topic ((hstep.trans hlater.within).mem_lookup hmem)

theorem traceless_of_empty {tree : TopicTree} (h : tree.root = .empty) (sid : SessionId) :
    Traceless tree sid := by
  intro topic hmem
  rw [TopicTree.lookup_eq, List.map_flatMap, List.mem_flatMap] at hmem
  obtain ⟨path, _, hsession⟩ := hmem
  rw [h, Node.subscribersAt_empty] at hsession
  cases hsession

/-- A client that has not subscribed leaves with DISCONNECT, and nothing is
found of it after another packet either. -/
theorem session_leaves_nothing_unsubscribed :
    let n := (brokerSystem defaultEnv).after { auth := () }
      ((disconnectEvents pingreqBytes).take 3)
    let n' := (n.step defaultEnv (.turn 0)).step defaultEnv (.turn 0)
    (n.sessions 0).connected = true ∧ (n.sessions 0).cleanSession = true ∧
      ((n.step defaultEnv (.turn 0)).sessions 0).connected = false ∧ Traceless n'.tree 0 := by
  intro n n'
  have hconn : (n.sessions 0).connected = true := by decide +kernel
  have hleft : ((n.step defaultEnv (.turn 0)).sessions 0).connected = false := by decide +kernel
  have henabled : n.toBroker.Enabled (.turn 0) := by
    constructor <;> decide +kernel
  have hn : (brokerSystem defaultEnv).Reachable n := by
    refine .of_allowed ⟨(), rfl⟩ ⟨⟨rfl, rfl, trivial⟩, ⟨rfl, rfl, rfl, ?_, ?_⟩, ⟨?_, ?_⟩,
      trivial⟩ <;> decide +kernel
  have hnext : NextPacket defaultEnv n 0 _ _ :=
    ⟨disconnectBytes, { buffer := pingreqBytes }, by decide +kernel, rfl⟩
  have hping : NextPacket defaultEnv (n.step defaultEnv (.turn 0)) 0 _ _ :=
    ⟨pingreqBytes, {}, by decide +kernel, rfl⟩
  have hrun : ((brokerSystem defaultEnv).restrict (AcceptsNone defaultEnv 0)).Run
      (n.step defaultEnv (.turn 0)) [.turn 0] n' := by
    refine .snoc .nil ⟨?_, ?_⟩
    · constructor <;> decide +kernel
    · rintro _ conn ⟨body, ⟨hdr, hnext', htype⟩, _⟩
      rw [← (hping.unique hnext').1] at htype
      cases htype
  refine ⟨hconn, by decide +kernel, hleft, ?_⟩
  apply (session_entries_after_leaving defaultEnv n hn 0 hconn (.turn 0) henabled hleft [.turn 0] n'
    hrun).1
  · exact traceless_of_empty rfl 0
  · rintro ⟨_, sub, ⟨_, hdr, body, rest, hnext', htype, _⟩, _⟩
    rw [← (hnext.unique hnext').1] at htype
    cases htype

/-- A client connects with a clean session, subscribes to a topic, and sends
more bytes in the same read. -/
def abandonedEvents (more : Bytes) : List Event :=
  [.accept [0x69], .read 0 (connectBytes true [0x63] ++ subscribeBytes 1 [0x74] 1 ++ more),
    .turn 0, .turn 0, .turn 0]

/-- The subscription is still found after DISCONNECT, and after a timeout, which
goes through `close`. -/
theorem clean_session_leaves_entry :
    let n := (brokerSystem defaultEnv).after { auth := () } (abandonedEvents disconnectBytes)
    let m := (brokerSystem defaultEnv).after { auth := () }
      (abandonedEvents [] ++ [.keepaliveTimeout 0])
    ((brokerSystem defaultEnv).Reachable n ∧ (n.sessions 0).cleanSession = true ∧
      (n.sessions 0).connected = false ∧ ⟨0, 1⟩ ∈ n.tree.lookup [0x74]) ∧
    (brokerSystem defaultEnv).Reachable m ∧ (m.sessions 0).cleanSession = true ∧
      (m.sessions 0).connected = false ∧ ⟨0, 1⟩ ∈ m.tree.lookup [0x74] := by
  intro n m
  refine ⟨⟨?_, ?_, ?_, ?_⟩, ?_, ?_, ?_, ?_⟩
  · refine .of_allowed ⟨(), rfl⟩ ⟨⟨rfl, rfl, trivial⟩, ⟨rfl, rfl, rfl, ?_, ?_⟩, ⟨?_, ?_⟩, ⟨?_, ?_⟩,
      ⟨?_, ?_⟩, trivial⟩ <;> decide +kernel
  · decide +kernel
  · decide +kernel
  · decide +kernel
  · refine .of_allowed ⟨(), rfl⟩ ⟨⟨rfl, rfl, trivial⟩, ⟨rfl, rfl, rfl, ?_, ?_⟩, ⟨?_, ?_⟩, ⟨?_, ?_⟩,
      ⟨?_, ?_⟩, ⟨?_, ?_, ?_⟩, trivial⟩ <;> decide +kernel
  · decide +kernel
  · decide +kernel
  · decide +kernel

end JellyBroker
