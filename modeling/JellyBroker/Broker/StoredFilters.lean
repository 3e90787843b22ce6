import JellyBroker.Broker.Routing
import JellyBroker.Broker.Suback
/-!
# What a session holds

The paths at which the tree has entries of a session, from the packets it has sent.  A
persistent session that connected once holds nothing but filters that are stored for its
client, and all of them if the client spells each filter in one way.  A clean one holds
what its packets last asked for.
-/

namespace JellyBroker

open JellyBroker.Lib JellyBroker.Packet JellyBroker.Topic

variable {α : Type}

/-- The session has an entry at the path of the filter. -/
def HoldsPath (b : Broker α) (sid : SessionId) (path : List Edge) : Prop :=
  entryQos sid b.tree path ≠ []

instance (b : Broker α) (sid : SessionId) (path : List Edge) : Decidable (HoldsPath b sid path) :=
  inferInstanceAs (Decidable (entryQos sid b.tree path ≠ []))

/-! ## Sessions that connect once -/

/-- At most one CONNECT of the session has been accepted. -/
def ConnectsOnce (env : Env α) (past : List (Runtime α × Event)) (sid : SessionId) : Prop :=
  past.Pairwise fun step step' =>
    AcceptsNone env sid step.1 step.2 ∨ AcceptsNone env sid step'.1 step'.2

namespace ConnectsOnce

variable {env : Env α} {past : List (Runtime α × Event)} {sid : SessionId}

theorem before {step : Runtime α × Event} (h : ConnectsOnce env (past ++ [step]) sid) :
    ConnectsOnce env past sid :=
  h.sublist (List.sublist_append_left past [step])

theorem of_none (h : ∀ step ∈ past, AcceptsNone env sid step.1 step.2)
    (last : Runtime α × Event) : ConnectsOnce env (past ++ [last]) sid := by
  refine List.pairwise_append.mpr ⟨?_, List.pairwise_singleton _ _, ?_⟩
  · exact List.pairwise_of_forall_mem_list fun step hstep _ _ => Or.inl (h step hstep)
  · exact fun step hstep _ _ => Or.inl (h step hstep)

theorem concat {n : Runtime α} {e : Event} (h : ConnectsOnce env past sid)
    (hnone : AcceptsNone env sid n e) : ConnectsOnce env (past ++ [(n, e)]) sid := by
  refine List.pairwise_append.mpr ⟨h, List.pairwise_singleton _ _, ?_⟩
  intro step _ last hlast
  rw [List.mem_singleton.mp hlast]
  exact Or.inr hnone

theorem none_before {n : Runtime α} {conn : ConnectPacket}
    (h : ConnectsOnce env (past ++ [(n, .turn sid)]) sid) (hconnects : Connects env n sid conn) :
    ∀ step ∈ past, AcceptsNone env sid step.1 step.2 := by
  intro step hstep
  have hpair := (List.pairwise_append.mp h).2.2 step hstep _ List.mem_cons_self
  refine hpair.resolve_right ?_
  intro hnone
  exact hnone rfl conn hconnects

theorem unique {m m' : Runtime α} {conn conn' : ConnectPacket} (h : ConnectsOnce env past sid)
    (hmem : (m, .turn sid) ∈ past) (hconnects : Connects env m sid conn)
    (hmem' : (m', .turn sid) ∈ past) (hconnects' : Connects env m' sid conn') : conn = conn' := by
  have hsymm : Std.Symm fun step step' : Runtime α × Event =>
      AcceptsNone env sid step.1 step.2 ∨ AcceptsNone env sid step'.1 step'.2 :=
    ⟨fun _ _ => Or.symm⟩
  have hsame : (m, Event.turn sid) = (m', .turn sid) := by
    by_contra hne
    rcases h.forall hmem hmem' hne with hnone | hnone
    · exact hnone rfl conn hconnects
    · exact hnone rfl conn' hconnects'
  obtain ⟨rfl, _⟩ := Prod.mk.inj hsame
  exact hconnects.unique hconnects'

end ConnectsOnce

section Past

variable {env : Env α} {n : Runtime α} {past : List (Runtime α × Event)} {sid : SessionId}

theorem holdsNone_of_none (h : (brokerSystem env).recorded.Reachable (n, past))
    (hnone : ∀ step ∈ past, AcceptsNone env sid step.1 step.2) :
    (n.sessions sid).connected = false ∧ ∀ path, entryQos sid n.tree path = [] := by
  refine h.of_past (P := fun past n => (∀ step ∈ past, AcceptsNone env sid step.1 step.2) →
    (n.sessions sid).connected = false ∧ ∀ path, entryQos sid n.tree path = []) ?_ ?_ hnone
  · rintro _ ⟨auth, rfl⟩ _
    refine ⟨rfl, ?_⟩
    intro path
    have hempty : ({ auth } : Runtime α).tree.root = Node.empty := rfl
    unfold entryQos
    rw [hempty, Node.subscribersAt_empty]
    rfl
  · intro past n e hn hbefore henabled hnone
    obtain ⟨hidle, hentries⟩ := hbefore fun step hstep => hnone step (List.mem_append_left _ hstep)
    have hregistered := (registered_inductive env).reachable registered_init hn.of_mem_past.1
    have hlast := hnone (n, e) (List.mem_append_right _ List.mem_cons_self)
    obtain ⟨hidle', hsame⟩ := unconnected_step hregistered hidle henabled hlast
    refine ⟨hidle', ?_⟩
    intro path
    exact (hsame path).trans (hentries path)

theorem exists_connect (h : (brokerSystem env).recorded.Reachable (n, past))
    (hconn : (n.sessions sid).connected = true) :
    ∃ m conn, (m, .turn sid) ∈ past ∧ Connects env m sid conn ∧
      (n.sessions sid).clientId = conn.clientId ∧
      (n.sessions sid).cleanSession = conn.cleanSession := by
  refine h.of_past (P := fun past n => (n.sessions sid).connected = true →
    ∃ m conn, (m, .turn sid) ∈ past ∧ Connects env m sid conn ∧
      (n.sessions sid).clientId = conn.clientId ∧
      (n.sessions sid).cleanSession = conn.cleanSession) ?_ ?_ hconn
  · rintro _ ⟨auth, rfl⟩ hconn
    cases hconn
  · intro past n e hpast hbefore henabled hconn'
    have hn := hpast.of_mem_past.1
    by_cases hconn : (n.sessions sid).connected = true
    · obtain ⟨m, conn, hmem, hconnects, hclient, hclean⟩ := hbefore hconn
      have hsame := sameClient_step hn henabled hconn hconn'
      exact ⟨m, conn, List.mem_append_left _ hmem, hconnects, hsame.clientId.trans hclient,
        hsame.cleanSession.trans hclean⟩
    · obtain ⟨rfl, conn, hconnects⟩ := connects_of_connected hn henabled hconn hconn'
      exact ⟨n, conn, List.mem_append_right _ List.mem_cons_self, hconnects,
        hconnects.clientId henabled hconn', hconnects.cleanSession henabled hconn'⟩

/-- A session that connects once stays a clean or a persistent one. -/
theorem cleanSession_of_once (h : (brokerSystem env).recorded.Reachable (n, past))
    (honce : ConnectsOnce env past sid) (hconn : (n.sessions sid).connected = true)
    {m : Runtime α} {e : Event} (hmem : (m, e) ∈ past)
    (hbefore : (m.sessions sid).connected = true) :
    (m.sessions sid).cleanSession = (n.sessions sid).cleanSession := by
  obtain ⟨before, after, hpast⟩ := List.append_of_mem hmem
  obtain ⟨_, conn, hfirst, hconnects, _, hclean⟩ := exists_connect h hconn
  obtain ⟨_, conn', hfirst', hconnects', _, hclean'⟩ := exists_connect (h.of_before hpast) hbefore
  have hfirst'' := List.mem_append_left ((m, e) :: after) hfirst'
  rw [← hpast] at hfirst''
  rw [hclean, hclean', honce.unique hfirst hconnects hfirst'' hconnects']

end Past

/-! ## Persistent sessions -/

/-- A SUBSCRIBE of a persistent session of the client has named the valid filter. -/
def SubscribedBy (env : Env α) (past : List (Runtime α × Event)) (clientId filter : Bytes) :
    Prop :=
  ∃ m s sub, (m, .turn s) ∈ past ∧ (m.sessions s).clientId = clientId ∧
    (m.sessions s).cleanSession = false ∧ Subscribes env m s sub ∧
    filter ∈ sub.filters.map (·.topicFilter) ∧ isValidFilter env.cfg filter = true

def UnsubscribedBy (env : Env α) (past : List (Runtime α × Event)) (clientId filter : Bytes) :
    Prop :=
  ∃ m s unsub, (m, .turn s) ∈ past ∧ (m.sessions s).clientId = clientId ∧
    (m.sessions s).cleanSession = false ∧ Unsubscribes env m s unsub ∧
    filter ∈ unsub.topicFilters

/-- The packets of the client's persistent sessions have named no filter in two ways. -/
def SpellsOnce (env : Env α) (past : List (Runtime α × Event)) (clientId : Bytes) : Prop :=
  ∀ filter filter', SubscribedBy env past clientId filter →
    SubscribedBy env past clientId filter' ∨ UnsubscribedBy env past clientId filter' →
    split filter = split filter' → filter = filter'

section Spelling

variable {env : Env α} {past : List (Runtime α × Event)} {clientId filter : Bytes}

theorem SubscribedBy.longer (h : SubscribedBy env past clientId filter)
    (more : List (Runtime α × Event)) : SubscribedBy env (past ++ more) clientId filter := by
  obtain ⟨m, s, sub, hmem, hrest⟩ := h
  exact ⟨m, s, sub, List.mem_append_left _ hmem, hrest⟩

theorem SpellsOnce.before {more : List (Runtime α × Event)}
    (h : SpellsOnce env (past ++ more) clientId) : SpellsOnce env past clientId := by
  intro filter filter' hfilter hfilter'
  refine h filter filter' (hfilter.longer more) ?_
  rcases hfilter' with hsub | ⟨m, s, unsub, hmem, hrest⟩
  · exact Or.inl (hsub.longer more)
  · exact Or.inr ⟨m, s, unsub, List.mem_append_left _ hmem, hrest⟩

theorem StoredFor.subscribedBy {qos : Nat} (h : StoredFor env past clientId ⟨filter, qos⟩) :
    SubscribedBy env past clientId filter := by
  obtain ⟨m, s, hmem, hgrants, hclient, hclean⟩ := h
  have hvalid := hgrants.valid
  obtain ⟨sub, before, behind, _, hsubscribes, hfilters, _⟩ := hgrants
  refine ⟨m, s, sub, hmem, hclient, hclean, hsubscribes, ?_, hvalid⟩
  rw [hfilters, List.map_append, List.map_cons]
  exact List.mem_append_right _ List.mem_cons_self

end Spelling

theorem setFirst_ne_nil (qos : Nat) (values : List Nat) : setFirst qos values ≠ [] := by
  cases values with
  | nil => exact List.cons_ne_nil _ _
  | cons _ _ => exact List.cons_ne_nil _ _

/-- Entries are at the paths of stored filters only.  If the filters are spelled in one way,
each stored one has an entry. -/
structure Backed (names : Bytes → Prop) (spelled : Prop) (entries : List Edge → List Nat)
    (subs : List Subscription) : Prop where
  stored : ∀ path, entries path ≠ [] →
    ∃ sub ∈ subs, TopicTree.filterPath sub.topicFilter = path
  named : ∀ sub ∈ subs, names sub.topicFilter
  held : spelled → ∀ sub ∈ subs, entries (TopicTree.filterPath sub.topicFilter) ≠ []

namespace Backed

variable {names : Bytes → Prop} {spelled : Prop} {entries : List Edge → List Nat}
  {subs : List Subscription}

theorem mono {names' : Bytes → Prop} {spelled' : Prop} (h : Backed names spelled entries subs)
    (hnames : ∀ name, names name → names' name) (hspelled : spelled' → spelled) :
    Backed names' spelled' entries subs where
  stored := h.stored
  named sub hsub := hnames _ (h.named sub hsub)
  held hspelled' := h.held (hspelled hspelled')

theorem addTo (h : Backed names spelled entries subs) {filter : Bytes} (hname : names filter)
    (qos : Nat) :
    Backed names spelled (fun path => if path = TopicTree.filterPath filter then
      setFirst qos (entries path) else entries path)
      (SubscriptionManager.addTo filter qos subs) where
  stored path hpath := by
    by_cases heq : path = TopicTree.filterPath filter
    · have hnew : filter ∈ (SubscriptionManager.addTo filter qos subs).map (·.topicFilter) :=
        mem_names_addTo.mpr (Or.inr rfl)
      obtain ⟨sub, hsub, hname⟩ := List.mem_map.mp hnew
      exact ⟨sub, hsub, by rw [hname, heq]⟩
    · rw [if_neg heq] at hpath
      obtain ⟨sub, hsub, hsame⟩ := h.stored path hpath
      have hold : sub.topicFilter ∈ subs.map (·.topicFilter) := List.mem_map_of_mem hsub
      obtain ⟨sub', hsub', hname'⟩ := List.mem_map.mp (mem_names_addTo.mpr (Or.inl hold))
      exact ⟨sub', hsub', by rw [hname', hsame]⟩
  named sub hsub := by
    rcases SubscriptionManager.mem_addTo hsub with hold | rfl
    · exact h.named sub hold
    · exact hname
  held hspelled sub hsub := by
    by_cases heq : TopicTree.filterPath sub.topicFilter = TopicTree.filterPath filter
    · rw [if_pos heq]
      exact setFirst_ne_nil qos _
    · rw [if_neg heq]
      rcases SubscriptionManager.mem_addTo hsub with hold | rfl
      · exact h.held hspelled sub hold
      · exact absurd rfl heq

theorem filter (h : Backed names spelled entries subs) {filter : Bytes}
    (hspells : spelled → SpelledAs filter subs) :
    Backed names spelled
      (fun path => if path = TopicTree.filterPath filter then [] else entries path)
      (subs.filter fun sub => sub.topicFilter ≠ filter) where
  stored path hpath := by
    by_cases heq : path = TopicTree.filterPath filter
    · rw [if_pos heq] at hpath
      exact absurd rfl hpath
    · rw [if_neg heq] at hpath
      obtain ⟨sub, hsub, hsame⟩ := h.stored path hpath
      refine ⟨sub, List.mem_filter.mpr ⟨hsub, decide_eq_true ?_⟩, hsame⟩
      rintro rfl
      exact heq hsame.symm
  named sub hsub := h.named sub (List.mem_of_mem_filter hsub)
  held hspelled sub hsub := by
    obtain ⟨hold, hother⟩ := List.mem_filter.mp hsub
    have hne : TopicTree.filterPath sub.topicFilter ≠ TopicTree.filterPath filter :=
      fun heq => of_decide_eq_true hother (hspells hspelled sub hold heq)
    rw [if_neg hne]
    exact h.held hspelled sub hold

theorem restored {sid : SessionId} {tree : TopicTree}
    (hentries : ∀ path, entryQos sid tree path = []) (hnamed : ∀ sub ∈ subs, names sub.topicFilter)
    (spelled : Prop) :
    Backed names spelled (entryQos sid (subs.foldl
      (fun tree sub => tree.subscribe sub.topicFilter ⟨sid, sub.qos⟩) tree)) subs := by
  have hiff (path : List Edge) : entryQos sid (subs.foldl
        (fun tree sub => tree.subscribe sub.topicFilter ⟨sid, sub.qos⟩) tree) path ≠ [] ↔
      storedQos subs path ≠ [] := by
    rw [entryQos_restored, hentries]
    cases hqos : storedQos subs path with
    | nil => exact Iff.rfl
    | cons qos rest =>
        refine iff_of_true ?_ (List.cons_ne_nil _ _)
        rw [List.foldl_cons]
        refine List.foldlRecOn (motive := (· ≠ [])) rest _ (setFirst_ne_nil qos _) ?_
        intro values _ qos' _
        exact setFirst_ne_nil qos' values
  refine ⟨?_, hnamed, ?_⟩
  · intro path hpath
    obtain ⟨qos, hqos⟩ := List.exists_mem_of_ne_nil _ ((hiff path).mp hpath)
    obtain ⟨filter, hfilter, hsub⟩ := mem_storedQos.mp hqos
    exact ⟨⟨filter, qos⟩, hsub, hfilter⟩
  · intro _ sub hsub
    rw [hiff]
    exact List.ne_nil_of_mem (mem_storedQos.mpr ⟨sub.topicFilter, rfl, hsub⟩)

end Backed

/-- The stored filters are among those that packets of the client have named. -/
def BackedBy (env : Env α) (past : List (Runtime α × Event)) (clientId : Bytes) :
    (List Edge → List Nat) → List Subscription → Prop :=
  Backed (SubscribedBy env past clientId) (SpellsOnce env past clientId)

theorem BackedBy.longer {env : Env α} {past : List (Runtime α × Event)} {clientId : Bytes}
    {entries : List Edge → List Nat} {subs : List Subscription}
    (h : BackedBy env past clientId entries subs) (more : List (Runtime α × Event)) :
    BackedBy env (past ++ more) clientId entries subs :=
  Backed.mono h (fun _ hname => hname.longer more) SpellsOnce.before

section Persistent

variable {env : Env α} {n : Runtime α} {past : List (Runtime α × Event)} {sid : SessionId}

theorem owns_turn {clientId : Bytes} (h : Owns sid clientId (BackedBy env past clientId) n.toBroker)
    (henabled : n.toBroker.Enabled (.turn sid)) (hconn : (n.sessions sid).connected = true) :
    Owns sid clientId (BackedBy env (past ++ [(n, .turn sid)]) clientId)
      (n.step env (.turn sid)).toBroker := by
  have hlast : (n, Event.turn sid) ∈ past ++ [(n, .turn sid)] :=
    List.mem_append_right _ List.mem_cons_self
  refine ((Owns.view sid clientId _).turn env n sid).step henabled ?_ ?_ ?_
    (h.mono fun _ _ hbacked => hbacked.longer _)
  · intro conn b hconnects
    rw [hconnects.first] at hconn
    cases hconn
  · intro sub hsub filter hfilter hvalid b _ hb
    refine hb.recordSubscription fun _ _ hbacked => hbacked.addTo ?_ _
    exact ⟨n, sid, sub, hlast, h.client, h.persistent, hsub, List.mem_map_of_mem hfilter, hvalid⟩
  · intro unsub hunsub filter hfilter b hb
    refine hb.unsubscribeFrom fun _ _ hbacked => hbacked.filter ?_
    intro hspelled stored hstored hpath
    refine hspelled _ _ (hbacked.named stored hstored) (Or.inr ?_) (split_eq_of_filterPath hpath)
    exact ⟨n, sid, unsub, hlast, h.client, h.persistent, hunsub, hfilter⟩

theorem backed_step {e : Event} (h : (brokerSystem env).recorded.Reachable (n, past))
    (henabled : n.toBroker.Enabled e)
    (hbefore : ConnectsOnce env past sid → (n.sessions sid).connected = true →
      (n.sessions sid).cleanSession = false →
      BackedBy env past (n.sessions sid).clientId (entryQos sid n.tree)
        (n.subManager.getClientSubs (n.sessions sid).clientId))
    (honce : ConnectsOnce env (past ++ [(n, e)]) sid)
    (hconn' : ((n.step env e).sessions sid).connected = true)
    (hpersistent : ((n.step env e).sessions sid).cleanSession = false) :
    BackedBy env (past ++ [(n, e)]) ((n.step env e).sessions sid).clientId
      (entryQos sid (n.step env e).tree)
      ((n.step env e).subManager.getClientSubs ((n.step env e).sessions sid).clientId) := by
  have hn : (brokerSystem env).Reachable n := h.of_mem_past.1
  by_cases hconn : (n.sessions sid).connected = true
  · have hsame := sameClient_step hn henabled hconn hconn'
    rw [hsame.cleanSession] at hpersistent
    have hbacked := hbefore honce.before hconn hpersistent
    rw [hsame.clientId]
    by_cases hturn : e = .turn sid
    · subst hturn
      exact (owns_turn (.of_connected hn hconn hpersistent hbacked) henabled hconn).related
    · have hendures := (reachable_standsBy hn henabled hturn).2
      have hentries : entryQos sid (n.step env e).tree = entryQos sid n.tree :=
        funext hendures.entries
      rw [hentries, hendures.stored hconn fun _ => Or.inl hconn']
      exact hbacked.longer _
  · obtain ⟨rfl, conn, hconnects⟩ := connects_of_connected hn henabled hconn hconn'
    -- the session is new, and gets what is stored
    have hfresh := (holdsNone_of_none h (honce.none_before hconnects)).2
    rw [hconnects.cleanSession henabled hconn'] at hpersistent
    rw [hconnects.clientId henabled hconn']
    obtain ⟨htree, hstored⟩ := hconnects.topics henabled hconn' hpersistent
    rw [htree, hstored]
    refine .restored hfresh ?_ _
    intro sub hsub
    have hfor := (holds_readable h).topics.stored _ sub hsub
    exact (StoredFor.subscribedBy hfor).longer _

/-- What a persistent session that connected once holds is stored for its client. -/
theorem backed_of_once (h : (brokerSystem env).recorded.Reachable (n, past))
    (honce : ConnectsOnce env past sid) (hconn : (n.sessions sid).connected = true)
    (hpersistent : (n.sessions sid).cleanSession = false) :
    BackedBy env past (n.sessions sid).clientId (entryQos sid n.tree)
      (n.subManager.getClientSubs (n.sessions sid).clientId) := by
  refine h.of_past (P := fun past n => ConnectsOnce env past sid →
    (n.sessions sid).connected = true → (n.sessions sid).cleanSession = false →
    BackedBy env past (n.sessions sid).clientId (entryQos sid n.tree)
      (n.subManager.getClientSubs (n.sessions sid).clientId)) ?_ ?_ honce hconn hpersistent
  · rintro _ ⟨auth, rfl⟩ _ hconn
    cases hconn
  · intro past n e hpast hbefore henabled
    exact backed_step hpast henabled hbefore

end Persistent

/-! ## The loop over the filters -/

section Loop

variable {env : Env α} {sid : SessionId} {filters : List SubscribePacket.Filter} {b : Broker α}

theorem subscribeTo_granted_iff {filter : SubscribePacket.Filter} {qos : Nat} :
    (Session.subscribeTo env sid filter b).2 = .ok (.granted qos) ↔
      Grantable env b sid filter ∧ qos = filter.requestedQos := by
  have hturn := subscribeTo_turn env sid filter b
  generalize Session.subscribeTo env sid filter b = turn at hturn ⊢
  cases hturn with
  | invalid hinvalid =>
      refine ⟨nofun, ?_⟩
      rintro ⟨hgrant, _⟩
      have hvalid := hgrant.valid
      rw [hinvalid] at hvalid
      cases hvalid
  | thrown hthrows => exact ⟨nofun, fun h => absurd hthrows h.1.not_throws⟩
  | refused _ hno => exact ⟨nofun, fun h => absurd h.1 hno⟩
  | granted hgrant =>
      constructor
      · rintro ⟨⟩
        exact ⟨hgrant, rfl⟩
      · rintro ⟨_, rfl⟩
        rfl

theorem mem_of_mem_subscribeTurns {turn : SubscribePacket.Filter × Broker α}
    (h : turn ∈ Session.subscribeTurns env sid filters b) : turn.1 ∈ filters := by
  induction filters generalizing b with
  | nil => cases h
  | cons first rest ih =>
      unfold Session.subscribeTurns at h
      rcases List.mem_cons.mp h with rfl | hlater
      · exact List.mem_cons_self
      · split at hlater
        · cases hlater
        · exact List.mem_cons_of_mem _ (ih hlater)

theorem mem_grantedFilters_iff {filter : SubscribePacket.Filter} :
    filter ∈ Session.grantedFilters env sid filters b ↔
      ∃ b', (filter, b') ∈ Session.subscribeTurns env sid filters b ∧
        Grantable env b' sid filter := by
  induction filters generalizing b with
  | nil => simp [Session.grantedFilters, Session.subscribeTurns]
  | cons first rest ih =>
      have hmem (later : List (SubscribePacket.Filter × Broker α)) :
          (∃ b', (filter, b') ∈ (first, b) :: later ∧ Grantable env b' sid filter) ↔
            filter = first ∧ Grantable env b sid first ∨
              ∃ b', (filter, b') ∈ later ∧ Grantable env b' sid filter := by
        constructor
        · rintro ⟨b', hturn, hgrant⟩
          rcases List.mem_cons.mp hturn with heq | hlater
          · obtain ⟨rfl, rfl⟩ := Prod.mk.inj heq
            exact Or.inl ⟨rfl, hgrant⟩
          · exact Or.inr ⟨b', hlater, hgrant⟩
        · rintro (⟨rfl, hgrant⟩ | ⟨b', hlater, hgrant⟩)
          · exact ⟨b, List.mem_cons_self, hgrant⟩
          · exact ⟨b', List.mem_cons_of_mem _ hlater, hgrant⟩
      have hgranted (hgrant : Grantable env b sid first) :
          (Session.subscribeTo env sid first b).2 = .ok (.granted first.requestedQos) :=
        subscribeTo_granted_iff.mpr ⟨hgrant, rfl⟩
      unfold Session.grantedFilters Session.subscribeTurns
      rw [hmem]
      rcases hsub : Session.subscribeTo env sid first b with ⟨b', e | code⟩
      · rw [hsub] at hgranted
        simpa using fun _ hgrant => nomatch hgranted hgrant
      · rw [hsub] at hgranted
        cases code with
        | failure =>
            rw [ih]
            refine ⟨Or.inr, ?_⟩
            rintro (⟨_, hgrant⟩ | hlater)
            · cases hgranted hgrant
            · exact hlater
        | granted qos =>
            have hgrant : Grantable env b sid first :=
              (subscribeTo_granted_iff.mp (congrArg Prod.snd hsub)).1
            rw [List.mem_cons, ih, and_iff_left hgrant]

theorem holdsPath_turn {filter : SubscribePacket.Filter} {b' : Broker α}
    {before after : List (SubscribePacket.Filter × Broker α)} (htidy : Tidy sid b)
    (h : Session.subscribeTurns env sid filters b = before ++ (filter, b') :: after)
    (path : List Edge) :
    HoldsPath b' sid path ↔ (∃ turn ∈ before, Grantable env turn.2 sid turn.1 ∧
      TopicTree.filterPath turn.1.topicFilter = path) ∨ HoldsPath b sid path := by
  induction before generalizing filters b with
  | nil =>
      obtain ⟨rfl, _⟩ := Session.subscribeTurns_eq_cons h
      simp
  | cons turn before ih =>
      obtain ⟨rfl, rest, _, hnone | ⟨next, code, hsub, hlater⟩⟩ := Session.subscribeTurns_eq_cons h
      · simp at hnone
      · obtain ⟨htidy', hentries⟩ := entries_subscribeTo hsub htidy
        have hnext : HoldsPath next sid path ↔ Grantable env turn.2 sid turn.1 ∧
            TopicTree.filterPath turn.1.topicFilter = path ∨ HoldsPath turn.2 sid path := by
          unfold HoldsPath
          rcases hentries with ⟨hgrant, _, hsame⟩ | ⟨hno, _, hsame⟩
          · rw [hsame path, entryQos_subscribe, and_iff_right hgrant]
            split_ifs with hpath
            · refine iff_of_true (setFirst_ne_nil _ _) (Or.inl hpath.2.symm)
            · refine ⟨Or.inr, ?_⟩
              rintro (heq | hheld)
              · exact absurd ⟨rfl, heq.symm⟩ hpath
              · exact hheld
          · rw [hsame path]
            refine ⟨Or.inr, ?_⟩
            rintro (⟨hgrant, _⟩ | hheld)
            · exact absurd hgrant hno
            · exact hheld
        rw [ih htidy' hlater.symm, hnext, List.exists_mem_cons_iff, or_assoc, or_left_comm]

variable (env sid filters b) in
theorem sameClient_turns : ∀ turn ∈ Session.subscribeTurns env sid filters b,
    SameClient sid b turn.2 := by
  have hview := SameClient.view (α := α) sid
  refine (hview.core.session env sid).subscribeTurns hview.tables.toNotesFree ?_ b
  intro filter _ b' _ _
  exact ⟨rfl, rfl⟩

theorem Permitted.grantable {filter : SubscribePacket.Filter} (h : Permitted env b sid filter)
    (hclean : (b.sessions sid).cleanSession = true) : Grantable env b sid filter := by
  refine ⟨h, ?_⟩
  unfold Session.subscriptionLimitReached
  rw [hclean]
  rfl

end Loop

/-! ## Clean sessions -/

/-- What the next packet of the session says about the path: `true` for a SUBSCRIBE with a
permitted filter, `false` for an UNSUBSCRIBE. -/
inductive Asks (env : Env α) (n : Runtime α) (sid : SessionId) (path : List Edge) :
    Bool → Prop where
  | subscribe {sub : SubscribePacket} {filter : SubscribePacket.Filter} {b : Broker α} :
      Subscribes env n sid sub →
      (filter, b) ∈ Session.subscribeTurns env sid sub.filters (n.handling env sid) →
      Permitted env b sid filter → TopicTree.filterPath filter.topicFilter = path →
      Asks env n sid path true
  | unsubscribe {unsub : UnsubscribePacket} {filter : Bytes} : Unsubscribes env n sid unsub →
      filter ∈ unsub.topicFilters → TopicTree.filterPath filter = path → Asks env n sid path false

/-- The last packet of the session about the path was a SUBSCRIBE. -/
def Wanted (env : Env α) (past : List (Runtime α × Event)) (sid : SessionId) (path : List Edge) :
    Prop :=
  ∃ n, LastWith (fun step => step.2 = .turn sid ∧ ∃ wanted, Asks env step.1 sid path wanted) past
    (n, .turn sid) ∧ Asks env n sid path true

section Clean

variable {env : Env α} {n : Runtime α} {past : List (Runtime α × Event)} {sid : SessionId}

theorem Asks.path_eq {path : List Edge} {wanted : Bool} (h : Asks env n sid path wanted) :
    ∃ segments : List Bytes, path = segments.map Edge.ofFilterSegment := by
  cases h with
  | subscribe _ _ _ hpath => exact ⟨_, hpath.symm⟩
  | unsubscribe _ _ hpath => exact ⟨_, hpath.symm⟩

theorem assigns_iff_asks
    (hclean : (n.sessions sid).connected = true → (n.sessions sid).cleanSession = true)
    (hconnect : ∀ conn, Connects env n sid conn → conn.cleanSession = true)
    {segments : List Bytes} {wanted : Bool} :
    (∃ value, Assigns env n sid segments value ∧ value.isSome = wanted) ↔
      Asks env n sid (segments.map Edge.ofFilterSegment) wanted := by
  constructor
  · rintro ⟨_, hassigns, rfl⟩
    cases hassigns with
    | restored hconnects _ hpersistent _ =>
        rw [hconnect _ hconnects] at hpersistent
        cases hpersistent
    | granted hsubscribes hlast =>
        obtain ⟨b, hturn, hgrant⟩ := mem_grantedFilters_iff.mp hlast.mem
        exact .subscribe hsubscribes hturn hgrant.toPermitted (path_eq_iff.mpr hlast.1).symm
    | removed hunsubscribes hmem hsegments =>
        exact .unsubscribe hunsubscribes hmem (path_eq_iff.mpr hsegments).symm
  · intro hasks
    cases hasks with
    | @subscribe sub filter b hsubscribes hturn hpermitted hpath =>
        have hsame := sameClient_turns env sid sub.filters (n.handling env sid) _ hturn
        have hgrant : Grantable env b sid filter := by
          apply hpermitted.grantable
          rw [hsame.cleanSession, (handling_quiet env n sid).sessions]
          exact hclean hsubscribes.1
        obtain ⟨last, hlast⟩ := exists_lastWith (P := fun filter : SubscribePacket.Filter =>
          split filter.topicFilter = segments)
          ⟨filter, mem_grantedFilters_iff.mpr ⟨b, hturn, hgrant⟩, path_eq_iff.mp hpath.symm⟩
        exact ⟨_, .granted hsubscribes hlast, rfl⟩
    | unsubscribe hunsubscribes hmem hpath =>
        exact ⟨_, .removed hunsubscribes hmem (path_eq_iff.mp hpath.symm), rfl⟩

/-- A clean session that connected once holds what its packets last asked for. -/
theorem holdsPath_iff_wanted (h : (brokerSystem env).recorded.Reachable (n, past))
    (honce : ConnectsOnce env past sid) (hconn : (n.sessions sid).connected = true)
    (hclean : (n.sessions sid).cleanSession = true) (path : List Edge) :
    HoldsPath n.toBroker sid path ↔ Wanted env past sid path := by
  have hiff {m : Runtime α} (hmem : (m, .turn sid) ∈ past) {segments : List Bytes}
      {wanted : Bool} : (∃ value, Assigns env m sid segments value ∧ value.isSome = wanted) ↔
        Asks env m sid (segments.map Edge.ofFilterSegment) wanted := by
    apply assigns_iff_asks
    · intro hbefore
      rw [cleanSession_of_once h honce hconn hmem hbefore, hclean]
    · intro conn hconnects
      obtain ⟨_, conn', hmem', hconnects', _, hclean'⟩ := exists_connect h hconn
      rw [honce.unique hmem hconnects hmem' hconnects', ← hclean', hclean]
  have hlast {segments : List Bytes} {m : Runtime α} :
      LastWith (fun step => ∃ value, step.2 = .turn sid ∧
        Assigns env step.1 sid segments value) past (m, .turn sid) ↔
      LastWith (fun step => step.2 = .turn sid ∧
        ∃ wanted, Asks env step.1 sid (segments.map Edge.ofFilterSegment) wanted) past
          (m, .turn sid) := by
    apply lastWith_congr
    rintro ⟨m', e⟩ hmem
    constructor
    · rintro ⟨value, rfl, hassigns⟩
      exact ⟨rfl, _, (hiff hmem).mp ⟨value, hassigns, rfl⟩⟩
    · rintro ⟨rfl, wanted, hasks⟩
      obtain ⟨value, hassigns, _⟩ := (hiff hmem).mpr hasks
      exact ⟨value, rfl, hassigns⟩
  have hrep := represents_held h
  constructor
  · intro hheld
    obtain ⟨qos, hqos⟩ := List.exists_mem_of_ne_nil _ hheld
    obtain ⟨segments, rfl, hsome⟩ := (hrep.mem_iff path ⟨sid, qos⟩).mp (mem_entryQos.mp hqos)
    obtain ⟨m, hpast, hassigns⟩ := (held_iff_lastAssigned h sid segments qos).mp hsome
    exact ⟨m, hlast.mp hpast, (hiff hpast.mem).mp ⟨_, hassigns, rfl⟩⟩
  · rintro ⟨m, hpast, hasks⟩
    obtain ⟨segments, rfl⟩ := hasks.path_eq
    obtain ⟨value, hassigns, hsome⟩ := (hiff hpast.mem).mpr hasks
    obtain ⟨qos, rfl⟩ := Option.isSome_iff_exists.mp hsome
    have hheld := (held_iff_lastAssigned h sid segments qos).mpr ⟨m, hlast.mpr hpast, hassigns⟩
    exact List.ne_nil_of_mem (List.mem_of_mem_head? hheld)

end Clean

end JellyBroker
