import JellyBroker.Broker.StoredFilters
/-!
# The limit on subscriptions

A client should hold a limited number of filters in the topic tree, and lose only
the subscriptions that go beyond it.  `handle_subscribe` counts what the
subscription manager has stored for the client: nothing for a clean session, and
a filter that the client holds already is refused like any other once the count
is reached.  So the limit binds a client whose packets stay away from it, and for
a persistent one the bound holds in any case.
-/

namespace JellyBroker

open JellyBroker.Lib JellyBroker.Packet JellyBroker.Qos JellyBroker.Topic

variable {α : Type}

/-! ## Counting paths -/

def AtMost (limit : Int) (condition : List Edge → Prop) : Prop :=
  ∀ paths : Finset (List Edge), (∀ path ∈ paths, condition path) → (paths.card : Int) ≤ limit

def AtLeast (limit : Int) (condition : List Edge → Prop) : Prop :=
  ∃ paths : Finset (List Edge), (∀ path ∈ paths, condition path) ∧ limit ≤ (paths.card : Int)

section Counting

variable {limit : Int} {condition : List Edge → Prop} {paths : List (List Edge)}
  (hwithin : ∀ path, condition path → path ∈ paths)

include hwithin

theorem card_le_length {found : Finset (List Edge)} (hfound : ∀ path ∈ found, condition path) :
    found.card ≤ paths.length := by
  refine (Finset.card_le_card ?_).trans (List.toFinset_card_le paths)
  intro path hpath
  exact List.mem_toFinset.mpr (hwithin path (hfound path hpath))

theorem atMost_of_within (hlength : (paths.length : Int) ≤ limit) : AtMost limit condition := by
  intro found hfound
  have hcard := card_le_length hwithin hfound
  omega

theorem not_atLeast_of_within (hlength : (paths.length : Int) < limit) :
    ¬AtLeast limit condition := by
  rintro ⟨found, hfound, hcard⟩
  have hle := card_le_length hwithin hfound
  omega

theorem atLeast_length_iff (hlength : (paths.length : Int) = limit) :
    AtLeast limit condition ↔ (∀ path ∈ paths, condition path) ∧ paths.Nodup := by
  constructor
  · rintro ⟨found, hfound, hcard⟩
    have hsubset : found ⊆ paths.toFinset := fun path hpath =>
      List.mem_toFinset.mpr (hwithin path (hfound path hpath))
    have hle := List.toFinset_card_le paths
    have hall : found = paths.toFinset := Finset.eq_of_subset_of_card_le hsubset (by omega)
    rw [hall] at hfound hcard
    refine ⟨fun path hpath => hfound path (List.mem_toFinset.mpr hpath), ?_⟩
    rw [← Multiset.coe_nodup, ← Multiset.toFinset_card_eq_card_iff_nodup]
    change paths.toFinset.card = paths.length
    omega
  · rintro ⟨hall, hnodup⟩
    refine ⟨paths.toFinset, fun path hpath => hall path (List.mem_toFinset.mp hpath), ?_⟩
    rw [List.toFinset_card_of_nodup hnodup]
    omega

end Counting

/-- Every connected session holds at most `limit` filters. -/
def LimitKept (limit : Int) (b : Broker α) : Prop :=
  ∀ sid, (b.sessions sid).connected = true → AtMost limit (HoldsPath b sid)

/-! ## One filter of a SUBSCRIBE -/

/-- A permitted filter is refused if and only if it is a new one beyond the limit.
One that the session holds gets the new QoS. -/
structure LimitBinds (env : Env α) (b : Broker α) (sid : SessionId)
    (filter : SubscribePacket.Filter) : Prop where
  refused : (Session.subscribeTo env sid filter b).2 = .ok .failure ↔
    ¬HoldsPath b sid (TopicTree.filterPath filter.topicFilter) ∧
      AtLeast env.cfg.maxSubscriptionsPerClient (HoldsPath b sid)
  renewed : HoldsPath b sid (TopicTree.filterPath filter.topicFilter) →
    ∃ auth, Session.subscribeTo env sid filter b =
        (Session.deliverRetained env sid filter.topicFilter
          (recordSubscription sid filter (b.setAuth auth)), .ok (.granted filter.requestedQos)) ∧
      (entryQos sid (recordSubscription sid filter (b.setAuth auth)).tree
        (TopicTree.filterPath filter.topicFilter)).head? = some filter.requestedQos

def storedPaths (b : Broker α) (sid : SessionId) : List (List Edge) :=
  (b.subManager.getClientSubs (b.sessions sid).clientId).map fun sub =>
    TopicTree.filterPath sub.topicFilter

def storedCount (b : Broker α) (sid : SessionId) : Int :=
  ((b.subManager.getClientSubs (b.sessions sid).clientId).length : Int)

/-- The session holds every filter that is stored for its client, and the filters are
stored in one spelling each. -/
structure Intact (b : Broker α) (sid : SessionId) : Prop where
  held : ∀ path ∈ storedPaths b sid, HoldsPath b sid path
  distinct : (storedPaths b sid).Nodup

section Filter

variable {env : Env α} {b : Broker α} {sid : SessionId} {filter : SubscribePacket.Filter}

theorem limitReached_iff (env : Env α) (sid : SessionId) (b : Broker α) :
    Session.subscriptionLimitReached env sid b = true ↔
      (b.sessions sid).cleanSession = false ∧
        env.cfg.maxSubscriptionsPerClient ≤ storedCount b sid := by
  unfold Session.subscriptionLimitReached storedCount
  rw [Bool.and_eq_true, Bool.not_eq_true', decide_eq_true_eq, ge_iff_le]

theorem subscribeTo_of_permitted (h : Permitted env b sid filter) :
    Session.subscribeTo env sid filter b =
      if Session.subscriptionLimitReached env sid b = true then
        (accessChecked env sid filter b, .ok .failure)
      else (Session.deliverRetained env sid filter.topicFilter
        (recordSubscription sid filter (accessChecked env sid filter b)),
          .ok (.granted filter.requestedQos)) := by
  have hturn := subscribeTo_turn env sid filter b
  generalize Session.subscribeTo env sid filter b = turn at hturn ⊢
  cases hturn with
  | invalid hinvalid =>
      have hvalid := h.valid
      rw [hinvalid] at hvalid
      cases hvalid
  | thrown hthrows => exact absurd hthrows h.not_throws
  | refused _ hno =>
      rw [if_pos]
      by_contra hbelow
      exact hno ⟨h, Bool.eq_false_iff.mpr hbelow⟩
  | granted hgrant =>
      rw [if_neg]
      rw [hgrant.below]
      exact Bool.false_ne_true

theorem limitBinds_iff (h : Permitted env b sid filter) :
    LimitBinds env b sid filter ↔ (Session.subscriptionLimitReached env sid b = true ↔
      ¬HoldsPath b sid (TopicTree.filterPath filter.topicFilter) ∧
        AtLeast env.cfg.maxSubscriptionsPerClient (HoldsPath b sid)) := by
  have hturn := subscribeTo_of_permitted h
  have hrefused : (Session.subscribeTo env sid filter b).2 = .ok .failure ↔
      Session.subscriptionLimitReached env sid b = true := by
    rw [hturn]
    split_ifs with hlimit
    · exact ⟨fun _ => hlimit, fun _ => rfl⟩
    · exact ⟨nofun, fun h => absurd h hlimit⟩
  constructor
  · intro hbinds
    exact hrefused.symm.trans hbinds.refused
  · intro hexact
    refine ⟨hrefused.trans hexact, ?_⟩
    intro hheld
    have hlimit : ¬Session.subscriptionLimitReached env sid b = true :=
      fun hlimit => (hexact.mp hlimit).1 hheld
    rw [if_neg hlimit] at hturn
    refine ⟨_, hturn, ?_⟩
    change (entryQos sid (b.tree.subscribe filter.topicFilter ⟨sid, filter.requestedQos⟩)
      (TopicTree.filterPath filter.topicFilter)).head? = _
    rw [entryQos_subscribe, if_pos ⟨rfl, rfl⟩]
    cases entryQos sid b.tree (TopicTree.filterPath filter.topicFilter) with
    | nil => rfl
    | cons old rest => rfl

theorem limitBinds_of_clean (h : Permitted env b sid filter)
    (hclean : (b.sessions sid).cleanSession = true) :
    LimitBinds env b sid filter ↔
      HoldsPath b sid (TopicTree.filterPath filter.topicFilter) ∨
        ¬AtLeast env.cfg.maxSubscriptionsPerClient (HoldsPath b sid) := by
  have hlimit : ¬Session.subscriptionLimitReached env sid b = true := by
    rw [limitReached_iff, hclean]
    exact fun hreached => nomatch hreached.1
  rw [limitBinds_iff h, iff_false_left hlimit, not_and_or, not_not]

/-- A persistent session holds as many filters as are stored only if the two stores
agree. -/
theorem limitBinds_of_persistent (h : Permitted env b sid filter)
    (hpersistent : (b.sessions sid).cleanSession = false)
    (hstored : ∀ path, HoldsPath b sid path → path ∈ storedPaths b sid)
    (hcount : storedCount b sid ≤ env.cfg.maxSubscriptionsPerClient) :
    LimitBinds env b sid filter ↔
      storedCount b sid < env.cfg.maxSubscriptionsPerClient ∨
        ¬HoldsPath b sid (TopicTree.filterPath filter.topicFilter) ∧ Intact b sid := by
  have hlength : ((storedPaths b sid).length : Int) = storedCount b sid := by
    unfold storedPaths storedCount
    rw [List.length_map]
  rw [limitBinds_iff h, limitReached_iff, and_iff_right hpersistent]
  by_cases hbelow : storedCount b sid < env.cfg.maxSubscriptionsPerClient
  · refine iff_of_true (iff_of_false (not_le.mpr hbelow) ?_) (Or.inl hbelow)
    rintro ⟨_, hatLeast⟩
    exact not_atLeast_of_within hstored (hlength.trans_lt hbelow) hatLeast
  · have hfull : storedCount b sid = env.cfg.maxSubscriptionsPerClient := by omega
    rw [iff_true_left (not_lt.mp hbelow), or_iff_right hbelow,
      atLeast_length_iff hstored (hlength.trans hfull)]
    exact and_congr_right' ⟨fun hall => ⟨hall.1, hall.2⟩, fun hall => ⟨hall.held, hall.distinct⟩⟩

end Filter

/-! ## The turns of a SUBSCRIBE -/

/-- The next turn handles a SUBSCRIBE, and its loop comes to the filter in the state `b`,
after the turns `before`. -/
def ComesTo (env : Env α) (n : Runtime α) (sid : SessionId)
    (before : List (SubscribePacket.Filter × Broker α)) (filter : SubscribePacket.Filter)
    (b : Broker α) : Prop :=
  ∃ sub after, Subscribes env n sid sub ∧
    Session.subscribeTurns env sid sub.filters (n.handling env sid) = before ++ (filter, b) :: after

/-- A filter before this one in the packet asks for the path, or the packets before did. -/
def WantedBefore (env : Env α) (past : List (Runtime α × Event)) (sid : SessionId)
    (before : List (SubscribePacket.Filter × Broker α)) (path : List Edge) : Prop :=
  (∃ turn ∈ before, Permitted env turn.2 sid turn.1 ∧
    TopicTree.filterPath turn.1.topicFilter = path) ∨ Wanted env past sid path

/-- A filter before this one in the packet is the filter, or a SUBSCRIBE before named it. -/
def NamedBefore (env : Env α) (past : List (Runtime α × Event)) (clientId : Bytes)
    (before : List (SubscribePacket.Filter × Broker α)) (filter : Bytes) : Prop :=
  SubscribedBy env past clientId filter ∨
    isValidFilter env.cfg filter = true ∧ ∃ turn ∈ before, turn.1.topicFilter = filter

section Turns

variable {env : Env α} {n : Runtime α} {past : List (Runtime α × Event)} {sid : SessionId}
  {before : List (SubscribePacket.Filter × Broker α)} {filter : SubscribePacket.Filter}
  {b : Broker α}

/-- What is stored when the loop comes to a filter, and that the session holds nothing
else. -/
theorem owns_turn_of {names : Bytes → Prop} {spelled : Prop} {clientId : Bytes}
    {filters : List SubscribePacket.Filter} {start : Broker α}
    {after : List (SubscribePacket.Filter × Broker α)}
    (h : Owns sid clientId (Backed names spelled) start)
    (hturns : Session.subscribeTurns env sid filters start = before ++ (filter, b) :: after) :
    Owns sid clientId (Backed (fun name => names name ∨ isValidFilter env.cfg name = true ∧
      ∃ turn ∈ before, turn.1.topicFilter = name) spelled) b := by
  induction before generalizing filters start names with
  | nil =>
      obtain ⟨rfl, _⟩ := Session.subscribeTurns_eq_cons hturns
      exact h.mono fun _ _ hbacked => hbacked.mono (fun _ => Or.inl) id
  | cons turn before ih =>
      obtain ⟨rfl, rest, _, hnone | ⟨next, code, hsub, hlater⟩⟩ :=
        Session.subscribeTurns_eq_cons hturns
      · simp at hnone
      · -- the filter of the turn joins the names
        have hview := Owns.view (α := α) sid clientId (Backed (fun name => names name ∨
          isValidFilter env.cfg name = true ∧ name = turn.1.topicFilter) spelled)
        have hnext := (hview.core.session env sid).subscribeTo hview.tables.toNotesFree
          (fun b' hvalid _ hb => hb.recordSubscription fun _ _ hbacked =>
            hbacked.addTo (Or.inr ⟨hvalid, rfl⟩) _) turn.2
          (h.mono fun _ _ hbacked => hbacked.mono (fun _ => Or.inl) id)
        rw [hsub] at hnext
        refine (ih hnext hlater.symm).mono fun _ _ hbacked => hbacked.mono ?_ id
        rintro name ((hname | ⟨hvalid, rfl⟩) | ⟨hvalid, other, hother, rfl⟩)
        · exact Or.inl hname
        · exact Or.inr ⟨hvalid, turn, List.mem_cons_self, rfl⟩
        · exact Or.inr ⟨hvalid, other, List.mem_cons_of_mem _ hother, rfl⟩

theorem Owns.mem_storedPaths {names : Bytes → Prop} {spelled : Prop} {clientId : Bytes}
    (h : Owns sid clientId (Backed names spelled) b) :
    ∀ path, HoldsPath b sid path → path ∈ storedPaths b sid := by
  intro path hheld
  obtain ⟨sub, hsub, hpath⟩ := h.related.stored path hheld
  rw [← h.client] at hsub
  exact List.mem_map.mpr ⟨sub, hsub, hpath⟩

/-- The names are stored once, and no more of them than the limit allows. -/
structure StoresWithin (limit : Int) (subs : List Subscription) : Prop where
  distinct : DistinctNames subs
  count : (subs.length : Int) ≤ limit

theorem StoresWithin.addTo {limit : Int} {subs : List Subscription} (h : StoresWithin limit subs)
    (hbelow : (subs.length : Int) < limit) (filter : Bytes) (qos : Nat) :
    StoresWithin limit (SubscriptionManager.addTo filter qos subs) where
  distinct := h.distinct.addTo filter qos
  count := by
    have hnames := congrArg List.length (names_addTo filter qos subs)
    rw [List.length_map] at hnames
    split_ifs at hnames
    · rw [List.length_map] at hnames
      omega
    · rw [List.length_append, List.length_map, List.length_singleton] at hnames
      omega

theorem storesWithin_record (h : StoresAll (StoresWithin env.cfg.maxSubscriptionsPerClient) b)
    (hbelow : Session.subscriptionLimitReached env sid b = false) :
    StoresAll (StoresWithin env.cfg.maxSubscriptionsPerClient)
      (recordSubscription sid filter b) := by
  refine h.recordSubscription fun hpersistent => (h _).addTo ?_ _ _
  by_contra hfull
  rw [(limitReached_iff env sid b).mpr ⟨hpersistent, not_lt.mp hfull⟩] at hbelow
  cases hbelow

theorem storesWithin_reachable (hlimit : 0 ≤ env.cfg.maxSubscriptionsPerClient)
    (hn : (brokerSystem env).Reachable n) :
    StoresAll (StoresWithin env.cfg.maxSubscriptionsPerClient) n.toBroker := by
  refine StoresAll.reachable ⟨distinctNames_nil, hlimit⟩ ?_ ?_ hn
  · intro b sid filter hbelow h
    exact storesWithin_record h hbelow
  · intro filter subs h
    refine ⟨h.distinct.filter _, ?_⟩
    have hle := List.length_filter_le (fun sub => decide (sub.topicFilter ≠ filter)) subs
    have hcount := h.count
    omega

theorem storesWithin_turns (h : StoresAll (StoresWithin env.cfg.maxSubscriptionsPerClient) b)
    (filters : List SubscribePacket.Filter) : ∀ turn ∈ Session.subscribeTurns env sid filters b,
    StoresAll (StoresWithin env.cfg.maxSubscriptionsPerClient) turn.2 := by
  intro turn hturn
  have hview := StoresAll.view (α := α) (P := StoresWithin env.cfg.maxSubscriptionsPerClient)
    ⟨distinctNames_nil, (Int.natCast_nonneg _).trans (h []).count⟩
  refine (hview.core.session env sid).subscribeTurns hview.tables.toNotesFree ?_ b turn hturn h
  intro filter _ b' _ hbelow hb
  exact storesWithin_record hb hbelow

theorem ComesTo.mem_turns (h : ComesTo env n sid before filter b) :
    ∃ sub, Subscribes env n sid sub ∧ ∀ turn ∈ before ++ [(filter, b)],
      turn ∈ Session.subscribeTurns env sid sub.filters (n.handling env sid) := by
  obtain ⟨sub, after, hsub, hturns⟩ := h
  refine ⟨sub, hsub, ?_⟩
  intro turn hturn
  rw [hturns, List.append_cons]
  exact List.mem_append_left _ hturn

theorem ComesTo.names (h : ComesTo env n sid before filter b)
    (hpersistent : (n.sessions sid).cleanSession = false)
    {turn : SubscribePacket.Filter × Broker α} (hturn : turn ∈ before ++ [(filter, b)])
    (hvalid : isValidFilter env.cfg turn.1.topicFilter = true) :
    SubscribedBy env (past ++ [(n, .turn sid)]) (n.sessions sid).clientId turn.1.topicFilter := by
  obtain ⟨sub, hsub, hturns⟩ := h.mem_turns
  exact ⟨n, sid, sub, List.mem_append_right _ List.mem_cons_self, rfl, hpersistent, hsub,
    List.mem_map_of_mem (mem_of_mem_subscribeTurns (hturns turn hturn)), hvalid⟩

theorem ComesTo.subscribedBy (h : ComesTo env n sid before filter b)
    (hpersistent : (n.sessions sid).cleanSession = false) {name : Bytes}
    (hname : NamedBefore env past (n.sessions sid).clientId before name) :
    SubscribedBy env (past ++ [(n, .turn sid)]) (n.sessions sid).clientId name := by
  rcases hname with hname | ⟨hvalid, turn, hturn, rfl⟩
  · exact hname.longer _
  · exact h.names hpersistent (List.mem_append_left _ hturn) hvalid

theorem ComesTo.sameClient (h : ComesTo env n sid before filter b) :
    ∀ turn ∈ before ++ [(filter, b)], SameClient sid n.toBroker turn.2 := by
  obtain ⟨sub, _, hturns⟩ := h.mem_turns
  intro turn hturn
  have hview := SameClient.view (α := α) sid
  exact hview.trans (hview.quiet (handling_quiet env n sid))
    (sameClient_turns env sid sub.filters _ turn (hturns turn hturn))

theorem ComesTo.owns (hcomes : ComesTo env n sid before filter b)
    (h : (brokerSystem env).recorded.Reachable (n, past)) (honce : ConnectsOnce env past sid)
    (hpersistent : (n.sessions sid).cleanSession = false) :
    Owns sid (n.sessions sid).clientId
      (Backed (NamedBefore env past (n.sessions sid).clientId before)
        (SpellsOnce env past (n.sessions sid).clientId)) b := by
  obtain ⟨sub, after, hsub, hturns⟩ := hcomes
  have hbacked := backed_of_once h honce hsub.1 hpersistent
  have hstart := (Owns.view sid _ _).quiet (handling_quiet env n sid)
    (.of_connected h.of_mem_past.1 hsub.1 hpersistent hbacked)
  exact owns_turn_of hstart hturns

theorem ComesTo.storesWithin (hcomes : ComesTo env n sid before filter b)
    (hn : (brokerSystem env).Reachable n) (hlimit : 0 ≤ env.cfg.maxSubscriptionsPerClient) :
    StoresAll (StoresWithin env.cfg.maxSubscriptionsPerClient) b := by
  obtain ⟨sub, _, hturns⟩ := hcomes.mem_turns
  have hstart : StoresAll (StoresWithin env.cfg.maxSubscriptionsPerClient) (n.handling env sid) :=
    (storesWithin_reachable hlimit hn).of_same (handling_quiet env n sid).subManager
  refine storesWithin_turns hstart sub.filters (filter, b) (hturns _ ?_)
  exact List.mem_append_right _ List.mem_cons_self

end Turns

/-! ## Runs -/

/-- A clean session keeps the limit exactly if its packets do, and its filters are treated as
they should be exactly if they are wanted already or below the limit. -/
structure BindsClean (env : Env α) (n : Runtime α) (past : List (Runtime α × Event))
    (sid : SessionId) : Prop where
  kept : AtMost env.cfg.maxSubscriptionsPerClient (HoldsPath n.toBroker sid) ↔
    AtMost env.cfg.maxSubscriptionsPerClient (Wanted env past sid)
  binds : ∀ before filter b, ComesTo env n sid before filter b → Permitted env b sid filter →
    (LimitBinds env b sid filter ↔
      WantedBefore env past sid before (TopicTree.filterPath filter.topicFilter) ∨
        ¬AtLeast env.cfg.maxSubscriptionsPerClient (WantedBefore env past sid before))

/-- A persistent session holds stored filters only and keeps the limit.  A filter is treated
as it should be exactly if the limit is not reached, or the filter is a new one and the stored
filters are all held.  They are if the client spells each of its filters in one way.  Then it
suffices that the client has not named the filter before, or has named few filters. -/
structure BindsPersistent (env : Env α) (n : Runtime α) (past : List (Runtime α × Event))
    (sid : SessionId) : Prop where
  stored : ∀ path, HoldsPath n.toBroker sid path → path ∈ storedPaths n.toBroker sid
  count : storedCount n.toBroker sid ≤ env.cfg.maxSubscriptionsPerClient
  kept : AtMost env.cfg.maxSubscriptionsPerClient (HoldsPath n.toBroker sid)
  binds : ∀ before filter b, ComesTo env n sid before filter b → Permitted env b sid filter →
    (LimitBinds env b sid filter ↔ storedCount b sid < env.cfg.maxSubscriptionsPerClient ∨
      ¬HoldsPath b sid (TopicTree.filterPath filter.topicFilter) ∧ Intact b sid)
  intact : SpellsOnce env (past ++ [(n, .turn sid)]) (n.sessions sid).clientId →
    ∀ before filter b, ComesTo env n sid before filter b → Intact b sid
  modest : SpellsOnce env (past ++ [(n, .turn sid)]) (n.sessions sid).clientId →
    ∀ before filter b, ComesTo env n sid before filter b → Permitted env b sid filter →
    (¬NamedBefore env past (n.sessions sid).clientId before filter.topicFilter ∨
      ¬AtLeast env.cfg.maxSubscriptionsPerClient fun path => ∃ name,
        NamedBefore env past (n.sessions sid).clientId before name ∧
          TopicTree.filterPath name = path) →
    LimitBinds env b sid filter

section Runs

variable {env : Env α} {n : Runtime α} {past : List (Runtime α × Event)} {sid : SessionId}

theorem bindsClean (h : (brokerSystem env).recorded.Reachable (n, past))
    (hconn : (n.sessions sid).connected = true) (honce : ConnectsOnce env past sid)
    (hclean : (n.sessions sid).cleanSession = true) : BindsClean env n past sid := by
  have hwanted := holdsPath_iff_wanted h honce hconn hclean
  constructor
  · rw [show HoldsPath n.toBroker sid = Wanted env past sid from
      funext fun path => propext (hwanted path)]
  · intro before filter b hcomes hpermitted
    have hkind : ∀ turn ∈ before ++ [(filter, b)], (turn.2.sessions sid).cleanSession = true :=
      fun turn hturn => (hcomes.sameClient turn hturn).cleanSession.trans hclean
    have hheld (path : List Edge) :
        HoldsPath b sid path ↔ WantedBefore env past sid before path := by
      obtain ⟨sub, after, _, hturns⟩ := hcomes
      have htidy := tidy_handling env (tidy_reachable h.of_mem_past.1 sid)
      have hstart : HoldsPath (n.handling env sid) sid path ↔ Wanted env past sid path := by
        unfold HoldsPath
        rw [(handling_quiet env n sid).tree]
        exact hwanted path
      rw [holdsPath_turn htidy hturns path, hstart]
      refine or_congr_left (exists_congr fun turn => and_congr_right fun hturn => ?_)
      refine and_congr_left fun _ => ⟨Grantable.toPermitted, fun hpermit => ?_⟩
      exact hpermit.grantable (hkind turn (List.mem_append_left _ hturn))
    rw [limitBinds_of_clean hpermitted (hkind _ (List.mem_append_right _ List.mem_cons_self)),
      show HoldsPath b sid = WantedBefore env past sid before from
        funext fun path => propext (hheld path)]

section Persistent

variable (h : (brokerSystem env).recorded.Reachable (n, past)) (honce : ConnectsOnce env past sid)
  (hpersistent : (n.sessions sid).cleanSession = false)

include h honce hpersistent

variable {before : List (SubscribePacket.Filter × Broker α)} {filter : SubscribePacket.Filter}
  {b : Broker α} (hcomes : ComesTo env n sid before filter b)

include hcomes

theorem intact_of_spelled (hlimit : 0 ≤ env.cfg.maxSubscriptionsPerClient)
    (hspelled : SpellsOnce env (past ++ [(n, .turn sid)]) (n.sessions sid).clientId) :
    Intact b sid := by
  have howns := hcomes.owns h honce hpersistent
  have hpaths : storedPaths b sid = ((b.subManager.getClientSubs (n.sessions sid).clientId).map
      (·.topicFilter)).map TopicTree.filterPath := by
    unfold storedPaths
    rw [howns.client, List.map_map]
    rfl
  constructor
  · rw [hpaths]
    intro path hpath
    obtain ⟨_, hname, rfl⟩ := List.mem_map.mp hpath
    obtain ⟨sub, hsub, rfl⟩ := List.mem_map.mp hname
    exact howns.related.held hspelled.before sub hsub
  · rw [hpaths]
    refine List.Nodup.map_on ?_ (hcomes.storesWithin h.of_mem_past.1 hlimit _).distinct
    intro name hname name' hname' hpath
    obtain ⟨sub, hsub, rfl⟩ := List.mem_map.mp hname
    obtain ⟨sub', hsub', rfl⟩ := List.mem_map.mp hname'
    exact hspelled _ _ (hcomes.subscribedBy hpersistent (howns.related.named sub hsub))
      (Or.inl (hcomes.subscribedBy hpersistent (howns.related.named sub' hsub')))
      (split_eq_of_filterPath hpath)

theorem named_of_mem_storedPaths : ∀ path ∈ storedPaths b sid, ∃ name,
    NamedBefore env past (n.sessions sid).clientId before name ∧
      TopicTree.filterPath name = path := by
  intro path hpath
  have howns := hcomes.owns h honce hpersistent
  obtain ⟨sub, hsub, rfl⟩ := List.mem_map.mp hpath
  rw [howns.client] at hsub
  exact ⟨sub.topicFilter, howns.related.named sub hsub, rfl⟩

theorem limitBinds_turn_iff (hlimit : 0 ≤ env.cfg.maxSubscriptionsPerClient)
    (hpermitted : Permitted env b sid filter) :
    LimitBinds env b sid filter ↔ storedCount b sid < env.cfg.maxSubscriptionsPerClient ∨
      ¬HoldsPath b sid (TopicTree.filterPath filter.topicFilter) ∧ Intact b sid := by
  have howns := hcomes.owns h honce hpersistent
  refine limitBinds_of_persistent hpermitted howns.persistent howns.mem_storedPaths ?_
  exact (hcomes.storesWithin h.of_mem_past.1 hlimit _).count

/-- A filter that the client names for the first time is not held, and few named filters are
few stored ones. -/
theorem limitBinds_of_modest (hlimit : 0 ≤ env.cfg.maxSubscriptionsPerClient)
    (hspelled : SpellsOnce env (past ++ [(n, .turn sid)]) (n.sessions sid).clientId)
    (hpermitted : Permitted env b sid filter)
    (hmodest : ¬NamedBefore env past (n.sessions sid).clientId before filter.topicFilter ∨
      ¬AtLeast env.cfg.maxSubscriptionsPerClient fun path => ∃ name,
        NamedBefore env past (n.sessions sid).clientId before name ∧
          TopicTree.filterPath name = path) :
    LimitBinds env b sid filter := by
  have hintact := intact_of_spelled h honce hpersistent hcomes hlimit hspelled
  have hnamed := named_of_mem_storedPaths h honce hpersistent hcomes
  rw [limitBinds_turn_iff h honce hpersistent hcomes hlimit hpermitted]
  rcases hmodest with hnew | hfew
  · refine Or.inr ⟨?_, hintact⟩
    intro hheld
    obtain ⟨name, hname, hpath⟩ :=
      hnamed _ ((hcomes.owns h honce hpersistent).mem_storedPaths _ hheld)
    have hsame := hspelled _ _ (hcomes.subscribedBy hpersistent hname)
      (Or.inl (hcomes.names hpersistent (List.mem_append_right _ List.mem_cons_self)
        hpermitted.valid)) (split_eq_of_filterPath hpath)
    rw [← hsame] at hnew
    exact hnew hname
  · left
    by_contra hfull
    refine hfew ⟨(storedPaths b sid).toFinset, fun path hpath =>
      hnamed path (List.mem_toFinset.mp hpath), ?_⟩
    rw [List.toFinset_card_of_nodup hintact.distinct]
    unfold storedPaths
    rw [List.length_map]
    exact not_lt.mp hfull

end Persistent

theorem bindsPersistent (hlimit : 0 ≤ env.cfg.maxSubscriptionsPerClient)
    (h : (brokerSystem env).recorded.Reachable (n, past))
    (hconn : (n.sessions sid).connected = true) (honce : ConnectsOnce env past sid)
    (hpersistent : (n.sessions sid).cleanSession = false) : BindsPersistent env n past sid := by
  have hn : (brokerSystem env).Reachable n := h.of_mem_past.1
  have hcount := (storesWithin_reachable hlimit hn (n.sessions sid).clientId).count
  have hstored := (Owns.of_connected hn hconn hpersistent
    (backed_of_once h honce hconn hpersistent)).mem_storedPaths
  constructor
  case stored => exact hstored
  case count => exact hcount
  case kept =>
    refine atMost_of_within hstored ?_
    unfold storedPaths
    rw [List.length_map]
    exact hcount
  case binds =>
    intro before filter b hcomes hpermitted
    exact limitBinds_turn_iff h honce hpersistent hcomes hlimit hpermitted
  case intact =>
    intro hspelled before filter b hcomes
    exact intact_of_spelled h honce hpersistent hcomes hlimit hspelled
  case modest =>
    intro hspelled before filter b hcomes hpermitted hmodest
    exact limitBinds_of_modest h honce hpersistent hcomes hlimit hspelled hpermitted hmodest

end Runs

/-- A connected session on which one CONNECT was accepted.  If it is persistent, it holds at
most as many filters as the limit allows.  If it is clean, it does as long as its packets ask
for no more.  The filters of its next SUBSCRIBE are refused as they should be under the
conditions on the packets of the client that `BindsClean` and `BindsPersistent` give. -/
theorem subscription_limit_binds (env : Env α) (hlimit : 0 ≤ env.cfg.maxSubscriptionsPerClient)
    {n : Runtime α} {past : List (Runtime α × Event)}
    (h : (brokerSystem env).recorded.Reachable (n, past)) {sid : SessionId}
    (hconn : (n.sessions sid).connected = true) (honce : ConnectsOnce env past sid) :
    ((n.sessions sid).cleanSession = true → BindsClean env n past sid) ∧
      ((n.sessions sid).cleanSession = false → BindsPersistent env n past sid) :=
  ⟨bindsClean h hconn honce, bindsPersistent hlimit h hconn honce⟩

/-! ## Sample runs -/

def limitedEnv : Env Unit := { cfg := { maxSubscriptionsPerClient := 1 }, auth := Auth.allowAll }

def twoFiltersEvents (cleanSession : Bool) : List Event :=
  [.accept [0x69],
    .read 0 (connectBytes cleanSession [0x63] ++ subscribeBytes 1 [0x74] 1 ++
      subscribeBytes 2 [0x75] 1),
    .turn 0, .turn 0, .turn 0]

def twoFiltersState (cleanSession : Bool) (count : Nat) : Runtime Unit :=
  (brokerSystem limitedEnv).after { auth := () } ((twoFiltersEvents cleanSession).take count)

/-- The persistent client is refused the second filter, as it should be. -/
theorem second_filter_refused :
    let t := (brokerSystem limitedEnv).recorded.after ({ auth := () }, [])
      ((twoFiltersEvents false).take 4)
    HoldsPath t.1.toBroker 0 (TopicTree.filterPath [0x74]) ∧ AtMost 1 (HoldsPath t.1.toBroker 0) ∧
      LimitBinds limitedEnv (t.1.handling limitedEnv 0) 0 ⟨[0x75], 1⟩ := by
  intro t
  have ht : (brokerSystem limitedEnv).recorded.Reachable (t.1, t.2) := by
    refine .of_allowed ⟨⟨(), rfl⟩, rfl⟩ ⟨⟨rfl, rfl, trivial⟩, ⟨rfl, rfl, rfl, ?_, ?_⟩, ⟨?_, ?_⟩,
      ⟨?_, ?_⟩, trivial⟩ <;> decide +kernel
  have hconn : (t.1.sessions 0).connected = true := by decide +kernel
  have honce : ConnectsOnce limitedEnv t.2 0 := by
    have hconnected : ((twoFiltersState false 3).sessions 0).connected = true := by decide +kernel
    refine .concat (.of_none ?_ (twoFiltersState false 2, .turn 0)) ?_
    · intro step hstep heq
      fin_cases hstep <;> cases heq
    · intro _ conn hconnects
      exact Bool.false_ne_true (hconnects.first.symm.trans hconnected)
  have hsub : Subscribes limitedEnv t.1 0 ⟨2, [⟨[0x75], 1⟩]⟩ := by
    have hnext : NextPacket limitedEnv t.1 0 _ _ :=
      .of_extract (subscribeBytes 2 [0x75] 1) (by decide +kernel) rfl
    exact ⟨hconn, _, _, _, hnext, rfl, rfl⟩
  have hbinds := (subscription_limit_binds limitedEnv (by decide) ht hconn honce).2
    (by decide +kernel)
  refine ⟨by decide +kernel, hbinds.kept, ?_⟩
  refine (hbinds.binds [] ⟨[0x75], 1⟩ (t.1.handling limitedEnv 0) ⟨_, _, hsub, rfl⟩
    ⟨rfl, .readWrite, (), rfl, nofun⟩).mpr (Or.inr ⟨by decide +kernel, ?_, ?_⟩)
  · decide +kernel
  · decide +kernel

/-- A clean session gets a second filter beyond a limit of one.  A persistent
session that has reached the limit cannot subscribe again to the filter that it
holds. -/
theorem subscription_limit_fails :
    let clean := twoFiltersState true 5
    let persistent := twoFiltersState false 4
    ((brokerSystem limitedEnv).Reachable clean ∧ (clean.sessions 0).connected = true ∧
      ¬LimitKept 1 clean.toBroker) ∧
    (brokerSystem limitedEnv).Reachable persistent ∧
      Permitted limitedEnv persistent.toBroker 0 { topicFilter := [0x74] } ∧
      HoldsPath persistent.toBroker 0 (TopicTree.filterPath [0x74]) ∧
      (Session.subscribeTo limitedEnv 0 { topicFilter := [0x74] } persistent.toBroker).2 =
        .ok .failure ∧
      ¬LimitBinds limitedEnv persistent.toBroker 0 { topicFilter := [0x74] } := by
  intro clean persistent
  have hclean : (brokerSystem limitedEnv).Reachable clean := by
    refine .of_allowed ⟨(), rfl⟩ ⟨⟨rfl, rfl, trivial⟩, ⟨rfl, rfl, rfl, ?_, ?_⟩, ⟨?_, ?_⟩, ⟨?_, ?_⟩,
      ⟨?_, ?_⟩, trivial⟩ <;> decide +kernel
  have hpersistent : (brokerSystem limitedEnv).Reachable persistent := by
    refine .of_allowed ⟨(), rfl⟩ ⟨⟨rfl, rfl, trivial⟩, ⟨rfl, rfl, rfl, ?_, ?_⟩, ⟨?_, ?_⟩, ⟨?_, ?_⟩,
      trivial⟩ <;> decide +kernel
  have hconn : (clean.sessions 0).connected = true := by decide +kernel
  have hheld : HoldsPath persistent.toBroker 0 (TopicTree.filterPath [0x74]) := by decide +kernel
  have hrefused : (Session.subscribeTo limitedEnv 0 { topicFilter := [0x74] }
      persistent.toBroker).2 = .ok .failure := by
    decide +kernel
  refine ⟨⟨hclean, hconn, ?_⟩, hpersistent, ⟨rfl, .readWrite, (), rfl, nofun⟩, hheld, hrefused, ?_⟩
  · intro hkept
    have hpair : ∀ path ∈ ({TopicTree.filterPath [0x74], TopicTree.filterPath [0x75]} :
        Finset (List Edge)), HoldsPath clean.toBroker 0 path := by
      decide +kernel
    have hcard := hkept 0 hconn _ hpair
    revert hcard
    decide
  · intro hbinds
    exact (hbinds.refused.mp hrefused).1 hheld

end JellyBroker
