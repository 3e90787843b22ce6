import JellyBroker.Broker.Accounting
import JellyBroker.Broker.CleanSession
/-!
# Stored subscriptions and the topic tree

The subscriptions of a persistent client are kept twice: by filter string in the
subscription manager, and by node in the topic tree.  The two agree as long as
the client spells each filter in one way.  A final separator makes no segment,
so every filter has a second spelling, and the tree does not tell the two
apart.
-/

namespace JellyBroker

open JellyBroker.Lib JellyBroker.Packet JellyBroker.Qos JellyBroker.Topic

variable {α : Type}

/-! ## Both stores at a node -/

def storedQos (subs : List Subscription) (path : List Edge) : List Nat :=
  (subs.filter fun sub => TopicTree.filterPath sub.topicFilter = path).map (·.qos)

/-- No two stored subscriptions lead to the same node. -/
def Sparse (subs : List Subscription) : Prop := ∀ path, (storedQos subs path).length ≤ 1

theorem mem_storedQos {subs : List Subscription} {path : List Edge} {qos : Nat} :
    qos ∈ storedQos subs path ↔
      ∃ filter, TopicTree.filterPath filter = path ∧ ⟨filter, qos⟩ ∈ subs := by
  unfold storedQos
  rw [List.mem_map]
  constructor
  · rintro ⟨⟨filter, qos'⟩, hsub, hqos⟩
    rw [List.mem_filter, decide_eq_true_eq] at hsub
    rw [← hqos]
    exact ⟨filter, hsub.2, hsub.1⟩
  · rintro ⟨filter, hpath, hsub⟩
    refine ⟨⟨filter, qos⟩, List.mem_filter.mpr ⟨hsub, ?_⟩, rfl⟩
    exact decide_eq_true hpath

def SpelledAs (filter : Bytes) (subs : List Subscription) : Prop :=
  ∀ sub ∈ subs, TopicTree.filterPath sub.topicFilter = TopicTree.filterPath filter →
    sub.topicFilter = filter

/-- Storing a subscription does to the node of its filter what `subscribe`
does. -/
theorem storedQos_addTo {filter : Bytes} {subs : List Subscription} (h : SpelledAs filter subs)
    (qos : Nat) (path : List Edge) :
    storedQos (SubscriptionManager.addTo filter qos subs) path =
      if path = TopicTree.filterPath filter then setFirst qos (storedQos subs path)
      else storedQos subs path := by
  unfold storedQos
  induction subs with
  | nil =>
      by_cases hpath : path = TopicTree.filterPath filter
      · simp [SubscriptionManager.addTo, hpath, setFirst]
      · simp [SubscriptionManager.addTo, hpath, Ne.symm hpath]
  | cons old rest ih =>
      have hrest : SpelledAs filter rest := fun sub hsub => h sub (List.mem_cons_of_mem _ hsub)
      have hold := h old List.mem_cons_self
      unfold SubscriptionManager.addTo
      by_cases hname : old.topicFilter = filter
      · rw [if_pos hname]
        by_cases hpath : path = TopicTree.filterPath filter
        · simp [hname, hpath, setFirst]
        · simp [hname, hpath, Ne.symm hpath]
      · rw [if_neg hname, List.filter_cons, List.filter_cons]
        by_cases hpath : TopicTree.filterPath old.topicFilter = path
        · have hother : path ≠ TopicTree.filterPath filter := by
            intro heq
            exact hname (hold (hpath.trans heq))
          have ih' := ih hrest
          rw [if_neg hother] at ih' ⊢
          simp [hpath, ih']
        · simp only [hpath, decide_false, Bool.false_eq_true, if_false]
          exact ih hrest

/-- Removing a subscription does to the node of its filter what `unsubscribe`
does. -/
theorem storedQos_filter {filter : Bytes} {subs : List Subscription} (h : SpelledAs filter subs)
    (path : List Edge) :
    storedQos (subs.filter fun sub => sub.topicFilter ≠ filter) path =
      if path = TopicTree.filterPath filter then [] else storedQos subs path := by
  unfold storedQos
  rw [List.filter_filter]
  by_cases hpath : path = TopicTree.filterPath filter
  · rw [if_pos hpath, List.map_eq_nil_iff, List.filter_eq_nil_iff]
    intro sub hsub hboth
    simp only [ne_eq, Bool.and_eq_true, decide_eq_true_eq] at hboth
    exact hboth.2 (h sub hsub (hboth.1.trans hpath))
  · rw [if_neg hpath]
    congr 1
    apply List.filter_congr
    intro sub _
    by_cases hsub : TopicTree.filterPath sub.topicFilter = path
    · have hname : sub.topicFilter ≠ filter := by
        intro heq
        rw [heq] at hsub
        exact hpath hsub.symm
      simp [hsub, hname]
    · simp [hsub]

theorem length_setFirst_le {qos : Nat} {values : List Nat} (h : values.length ≤ 1) :
    (setFirst qos values).length ≤ 1 := by
  cases values with
  | nil => exact Nat.le_refl 1
  | cons _ rest => exact h

/-- What the loop of CONNECT over the stored subscriptions leaves at a node. -/
theorem entryQos_restored (sid : SessionId) (subs : List Subscription) (tree : TopicTree)
    (path : List Edge) :
    entryQos sid (subs.foldl (fun tree sub => tree.subscribe sub.topicFilter ⟨sid, sub.qos⟩) tree)
        path =
      (storedQos subs path).foldl (fun values qos => setFirst qos values)
        (entryQos sid tree path) := by
  induction subs generalizing tree with
  | nil => rfl
  | cons sub rest ih =>
      rw [List.foldl_cons, ih, entryQos_subscribe]
      unfold storedQos
      rw [List.filter_cons]
      by_cases hpath : path = TopicTree.filterPath sub.topicFilter
      · simp [hpath]
      · simp [hpath, Ne.symm hpath]

/-- A session that is subscribed nowhere else has exactly the stored
subscriptions after the loop. -/
theorem entryQos_restored_eq {sid : SessionId} {subs : List Subscription} {tree : TopicTree}
    {path : List Edge} (hstored : (storedQos subs path).length ≤ 1)
    (hsingle : (entryQos sid tree path).length ≤ 1)
    (hwithin : entryQos sid tree path ≠ [] → storedQos subs path ≠ []) :
    entryQos sid (subs.foldl (fun tree sub => tree.subscribe sub.topicFilter ⟨sid, sub.qos⟩) tree)
        path = storedQos subs path := by
  rw [entryQos_restored]
  generalize entryQos sid tree path = values at hsingle hwithin ⊢
  cases hqos : storedQos subs path with
  | nil =>
      by_contra hfound
      exact hwithin hfound hqos
  | cons qos rest =>
      rw [hqos, List.length_cons] at hstored
      have hrest : rest = [] := List.eq_nil_of_length_eq_zero (by omega)
      rw [hrest, List.foldl_cons, List.foldl_nil]
      cases values with
      | nil => rfl
      | cons value values =>
          rw [List.length_cons] at hsingle
          have hvalues : values = [] := List.eq_nil_of_length_eq_zero (by omega)
          rw [hvalues]
          rfl

/-! ## The stored subscriptions of all clients -/

def StoresAll (P : List Subscription → Prop) (b : Broker α) : Prop :=
  ∀ clientId, P (b.subManager.getClientSubs clientId)

namespace StoresAll

variable {P : List Subscription → Prop} {b b' : Broker α}

theorem of_same (h : StoresAll P b) (hstored : b'.subManager = b.subManager) : StoresAll P b' := by
  intro clientId
  rw [hstored]
  exact h clientId

theorem removeClient (hnil : P []) (h : StoresAll P b) {clientId : Bytes}
    (hstored : b'.subManager = b.subManager.removeClient clientId) : StoresAll P b' := by
  intro other
  rw [hstored, SubscriptionManager.getClientSubs_removeClient]
  split_ifs
  · exact hnil
  · exact h other

theorem close (hnil : P []) (h : StoresAll P b) {x : SessionId}
    (hconn : (b.sessions x).connected = true) : StoresAll P (Session.close false x b) := by
  have hstored := (Session.topics_close hconn).2
  unfold Session.dropSubscriptions at hstored
  dsimp only at hstored
  split_ifs at hstored
  · exact h.removeClient hnil hstored
  · exact h.of_same hstored

theorem restoreSubscriptions (hnil : P []) (h : StoresAll P b) (x : SessionId)
    (conn : ConnectPacket) : StoresAll P (Session.restoreSubscriptions x conn b) := by
  unfold Session.restoreSubscriptions
  split_ifs
  · exact h.removeClient hnil rfl
  · exact h.of_same rfl

theorem recordSubscription (h : StoresAll P b) {sid : SessionId} {filter : SubscribePacket.Filter}
    (hadd : (b.sessions sid).cleanSession = false →
      P (SubscriptionManager.addTo filter.topicFilter filter.requestedQos
        (b.subManager.getClientSubs (b.sessions sid).clientId))) :
    StoresAll P (JellyBroker.recordSubscription sid filter b) := by
  intro clientId
  unfold JellyBroker.recordSubscription
  dsimp only
  split_ifs with hclean
  · exact h clientId
  · rw [SubscriptionManager.getClientSubs_add]
    split_ifs
    · exact hadd (Bool.eq_false_iff.mpr hclean)
    · exact h clientId

theorem unsubscribeFrom (h : StoresAll P b) (sid : SessionId) {filter : Bytes}
    (hremove : ∀ subs, P subs → P (subs.filter fun sub => sub.topicFilter ≠ filter)) :
    StoresAll P (Session.unsubscribeFrom sid filter b) := by
  intro clientId
  unfold Session.unsubscribeFrom
  dsimp only
  split_ifs
  · exact h clientId
  · rw [SubscriptionManager.getClientSubs_remove]
    split_ifs
    · exact hremove _ (h _)
    · exact h clientId

theorem view (hnil : P []) :
    TopicView fun b b' : Broker α => StoresAll P b → StoresAll P b' where
  quiet h hb := hb.of_same h.subManager
  trans h h' hb := h' (h hb)
  plumbing _ _ _ _ hb := hb.of_same rfl
  close _ _ hconn hb := hb.close hnil hconn
  rearm _ _ _ hb := hb.of_same rfl
  disconnect _ _ hb := hb.of_same rfl
  setRetained _ _ _ _ hb := hb.of_same rfl

theorem io (env : Env α) (hnil : P []) :
    IoClosed env fun b b' : Broker α => StoresAll P b → StoresAll P b' where
  core := (view hnil).core
  retryQos1 b clientId packetId := ((view hnil).retries env b clientId packetId).1
  retryQos2 b clientId packetId := ((view hnil).retries env b clientId packetId).2
  beginRead _ _ _ hb := hb.of_same rfl
  dropRead _ _ hb := hb.of_same rfl
  clock _ _ hb := hb.of_same rfl
  accept b ip hb := by
    apply hb.of_same
    unfold Server.onAccept
    dsimp only
    split_ifs <;> rfl
  destroy _ _ _ _ hb := hb.of_same rfl

/-- Nothing but the filters of a SUBSCRIBE and an UNSUBSCRIBE can break the property. -/
theorem reachable {env : Env α} {n : Runtime α} (hnil : P [])
    (hrecord : ∀ (b : Broker α) sid filter, Session.subscriptionLimitReached env sid b = false →
      StoresAll P b → StoresAll P (JellyBroker.recordSubscription sid filter b))
    (hremove : ∀ filter subs, P subs → P (subs.filter fun sub => sub.topicFilter ≠ filter))
    (hn : (brokerSystem env).Reachable n) : StoresAll P n.toBroker := by
  refine hn.invariant (P := fun n : Runtime α => StoresAll P n.toBroker) ?_ ?_
  · rintro _ ⟨auth, rfl⟩ clientId
    exact hnil
  · intro n e h henabled
    by_cases hturn : ∃ sid, e = .turn sid
    · obtain ⟨sid, rfl⟩ := hturn
      refine ((view hnil).turn env n sid).step henabled ?_ ?_ ?_ h
      · intro conn b _ _ _ _ hb
        have hregistered : StoresAll P (Session.register env sid conn b) := hb.of_same rfl
        exact hregistered.restoreSubscriptions hnil sid conn
      · intro sub _ filter _ _ b hbelow hb
        exact hrecord b sid filter hbelow hb
      · intro unsub _ filter _ b hb
        exact hb.unsubscribeFrom sid (hremove filter)
    · exact (io env hnil).step (fun sid heq => hturn ⟨sid, heq⟩) henabled h

end StoresAll

def SparseStores (b : Broker α) : Prop :=
  ∀ clientId, Sparse (b.subManager.getClientSubs clientId)

theorem sparse_nil : Sparse [] := fun _ => Nat.zero_le 1

theorem Sparse.addTo {filter : Bytes} {subs : List Subscription} (h : Sparse subs)
    (hspells : SpelledAs filter subs) (qos : Nat) :
    Sparse (SubscriptionManager.addTo filter qos subs) := by
  intro path
  rw [storedQos_addTo hspells]
  split_ifs
  · exact length_setFirst_le (h path)
  · exact h path

theorem Sparse.filter {subs : List Subscription} (h : Sparse subs) (filter : Bytes) :
    Sparse (subs.filter fun sub => sub.topicFilter ≠ filter) := by
  intro path
  have hsublist := (List.filter_sublist (l := subs)
    (p := fun sub => sub.topicFilter ≠ filter)).filter
      fun sub => TopicTree.filterPath sub.topicFilter = path
  have hlength := hsublist.length_le
  have hpath := h path
  unfold storedQos at hpath ⊢
  rw [List.length_map] at hpath ⊢
  omega

/-- The stores stay sparse, and a session that is served as a clean one stays
so. -/
structure SparseTurn (sid : SessionId) (active : Prop) (b : Broker α) : Prop where
  stores : SparseStores b
  clean : active → (b.sessions sid).cleanSession = true

namespace SparseTurn

variable {sid : SessionId} {active : Prop}

theorem of_same {b b' : Broker α} (hsessions : b'.sessions = b.sessions)
    (hstored : b'.subManager = b.subManager) (h : SparseTurn sid active b) :
    SparseTurn sid active b' := by
  refine ⟨StoresAll.of_same h.stores hstored, ?_⟩
  rw [hsessions]
  exact h.clean

theorem modifySession {b : Broker α} {x : SessionId} {change : Session → Session}
    (hclean : ∀ s, (change s).cleanSession = s.cleanSession) (h : SparseTurn sid active b) :
    SparseTurn sid active (b.modifySession x change) := by
  refine ⟨StoresAll.of_same h.stores rfl, ?_⟩
  intro hactive
  by_cases heq : sid = x
  · rw [heq, Broker.sessions_modifySession_self, hclean, ← heq]
    exact h.clean hactive
  · rw [Broker.sessions_modifySession_of_ne heq]
    exact h.clean hactive

theorem view (sid : SessionId) (active : Prop) :
    TopicView fun b b' : Broker α => SparseTurn sid active b → SparseTurn sid active b' where
  quiet h := of_same h.sessions h.subManager
  trans h h' hb := h' (h hb)
  plumbing _ _ _ hplumbing := modifySession hplumbing.cleanSession
  close b x hconn h := by
    refine ⟨StoresAll.close sparse_nil h.stores hconn, ?_⟩
    rw [cleanSession_close]
    exact h.clean
  rearm _ _ _ := by
    apply modifySession
    intro s
    unfold Session.rearm
    split <;> rfl
  disconnect _ _ := modifySession fun _ => rfl
  setRetained _ _ _ _ := of_same rfl rfl

end SparseTurn

theorem turn_sparse (env : Env α) {n : Runtime α} {sid : SessionId}
    (henabled : n.toBroker.Enabled (.turn sid)) (h : SparseStores n.toBroker)
    (hclean : (n.sessions sid).connected = true → (n.sessions sid).cleanSession = true) :
    SparseStores (n.step env (.turn sid)).toBroker := by
  have hview := SparseTurn.view (α := α) sid ((n.sessions sid).connected = true)
  have hafter : SparseTurn sid ((n.sessions sid).connected = true)
      (n.step env (.turn sid)).toBroker := by
    refine (hview.turn env n sid).step henabled ?_ ?_ ?_ ⟨h, hclean⟩
    · intro conn b hconnects _ _ _ hb
      have hregistered : SparseStores (Session.register env sid conn b) :=
        StoresAll.of_same hb.stores rfl
      refine ⟨StoresAll.restoreSubscriptions sparse_nil hregistered sid conn, ?_⟩
      intro hconn
      rw [hconnects.first] at hconn
      cases hconn
    · intro sub hsub filter _ _ b _ hb
      have hstored : (recordSubscription sid filter b).subManager = b.subManager :=
        if_pos (hb.clean hsub.1)
      exact SparseTurn.of_same (b := b) rfl hstored hb
    · intro unsub hunsub filter _ b hb
      have hstored : (Session.unsubscribeFrom sid filter b).subManager = b.subManager :=
        if_pos (hb.clean hunsub.1)
      exact SparseTurn.of_same (b := b) rfl hstored hb
  exact hafter.stores

theorem io_sparse {env : Env α} {n : Runtime α} {e : Event} (henabled : n.toBroker.Enabled e)
    (hturn : ∀ sid, e ≠ .turn sid) (h : SparseStores n.toBroker) :
    SparseStores (n.step env e).toBroker :=
  (StoresAll.io env sparse_nil).step hturn henabled h

/-! ## The session of a persistent client -/

/-- The session is subscribed in the tree as the subscription manager says for
the client, at every node. -/
def MatchesStored (sid : SessionId) (clientId : Bytes) (b : Broker α) : Prop :=
  ∀ path, entryQos sid b.tree path = storedQos (b.subManager.getClientSubs clientId) path

structure SameClient (sid : SessionId) (b b' : Broker α) : Prop where
  clientId : (b'.sessions sid).clientId = (b.sessions sid).clientId
  cleanSession : (b'.sessions sid).cleanSession = (b.sessions sid).cleanSession

theorem SameClient.modifySession {sid x : SessionId} {b : Broker α} {change : Session → Session}
    (hclient : ∀ s, (change s).clientId = s.clientId)
    (hclean : ∀ s, (change s).cleanSession = s.cleanSession) :
    SameClient sid b (b.modifySession x change) := by
  by_cases heq : sid = x
  · rw [heq]
    refine ⟨?_, ?_⟩
    · rw [Broker.sessions_modifySession_self, hclient]
    · rw [Broker.sessions_modifySession_self, hclean]
  · refine ⟨?_, ?_⟩
    · rw [Broker.sessions_modifySession_of_ne heq]
    · rw [Broker.sessions_modifySession_of_ne heq]

theorem SameClient.view (sid : SessionId) : TopicView (SameClient (α := α) sid) where
  quiet h := ⟨by rw [h.sessions], by rw [h.sessions]⟩
  trans h h' := ⟨h'.clientId.trans h.clientId, h'.cleanSession.trans h.cleanSession⟩
  plumbing _ _ _ hplumbing := .modifySession hplumbing.clientId hplumbing.cleanSession
  close b x _ := ⟨clientId_close x b sid, cleanSession_close x b sid⟩
  rearm _ _ _ := by
    refine .modifySession ?_ ?_ <;>
    · intro s
      unfold Session.rearm
      split <;> rfl
  disconnect _ _ := .modifySession (fun _ => rfl) fun _ => rfl
  setRetained _ _ _ _ := ⟨rfl, rfl⟩

theorem connects_of_connected {env : Env α} {n : Runtime α} {e : Event} {sid : SessionId}
    (hn : (brokerSystem env).Reachable n) (henabled : n.toBroker.Enabled e)
    (hidle : ¬(n.sessions sid).connected = true)
    (hconn : ((n.step env e).sessions sid).connected = true) :
    e = .turn sid ∧ ∃ conn, Connects env n sid conn := by
  by_contra hnone
  have hregistered := (registered_inductive env).reachable registered_init hn
  rw [(unconnected_step hregistered (Bool.eq_false_iff.mpr hidle) henabled fun heq conn hconnects =>
    hnone ⟨heq, conn, hconnects⟩).1] at hconn
  cases hconn

theorem sameClient_step {env : Env α} {n : Runtime α} {e : Event} {sid : SessionId}
    (hn : (brokerSystem env).Reachable n) (henabled : n.toBroker.Enabled e)
    (hconn : (n.sessions sid).connected = true)
    (hconn' : ((n.step env e).sessions sid).connected = true) :
    SameClient sid n.toBroker (n.step env e).toBroker := by
  by_cases hturn : e = .turn sid
  · subst hturn
    refine ((SameClient.view sid).turn env n sid).step henabled ?_ ?_ ?_
    · intro conn b hconnects
      rw [hconnects.first] at hconn
      cases hconn
    · intro sub _ filter _ _ b _
      exact ⟨rfl, rfl⟩
    · intro unsub _ filter _ b
      exact ⟨rfl, rfl⟩
  · have hendures := (reachable_standsBy hn henabled hturn).2
    exact ⟨hendures.client hconn', hendures.clean hconn'⟩

/-- The session is served as the only one of a persistent client.  Its entries and the
subscriptions stored for the client are related by `P`. -/
structure Owns (sid : SessionId) (clientId : Bytes)
    (P : (List Edge → List Nat) → List Subscription → Prop) (b : Broker α) : Prop where
  registered : Registered b
  client : (b.sessions sid).clientId = clientId
  persistent : (b.sessions sid).cleanSession = false
  alone : ∀ s ≠ sid, (b.sessions s).connected = true → (b.sessions s).clientId ≠ clientId
  related : P (entryQos sid b.tree) (b.subManager.getClientSubs clientId)

namespace Owns

variable {sid : SessionId} {clientId : Bytes}
  {P : (List Edge → List Nat) → List Subscription → Prop}

theorem of_connected {env : Env α} {n : Runtime α} (hn : (brokerSystem env).Reachable n)
    (hconn : (n.sessions sid).connected = true)
    (hpersistent : (n.sessions sid).cleanSession = false)
    (hrelated : P (entryQos sid n.tree)
      (n.subManager.getClientSubs (n.sessions sid).clientId)) :
    Owns sid (n.sessions sid).clientId P n.toBroker := by
  have hregistered : Registered n.toBroker :=
    (registered_inductive env).reachable registered_init hn
  refine ⟨hregistered, rfl, hpersistent, ?_, hrelated⟩
  intro s hne hs hsame
  exact hne (hregistered.unique hs hconn hsame)

theorem mono {Q : (List Edge → List Nat) → List Subscription → Prop} {b : Broker α}
    (h : Owns sid clientId P b) (hle : ∀ entries subs, P entries subs → Q entries subs) :
    Owns sid clientId Q b :=
  { h with related := hle _ _ h.related }

/-- Changes that connect no session and leave the subscriptions of this one
alone. -/
theorem of_change {b b' : Broker α} (h : Owns sid clientId P b)
    (hregistered : Registered b') (hclient : (b'.sessions sid).clientId = (b.sessions sid).clientId)
    (hclean : (b'.sessions sid).cleanSession = (b.sessions sid).cleanSession)
    (hothers : ∀ s ≠ sid, (b'.sessions s).connected = true → (b.sessions s).connected = true ∧
      (b'.sessions s).clientId = (b.sessions s).clientId)
    (hentries : SameEntries sid b.tree b'.tree)
    (hstored : b'.subManager.getClientSubs clientId = b.subManager.getClientSubs clientId) :
    Owns sid clientId P b' where
  registered := hregistered
  client := hclient.trans h.client
  persistent := hclean.trans h.persistent
  alone s hne hs := by
    obtain ⟨hconn, hid⟩ := hothers s hne hs
    rw [hid]
    exact h.alone s hne hconn
  related := by
    rw [hstored, show entryQos sid b'.tree = entryQos sid b.tree from funext hentries]
    exact h.related

theorem modifySession {b : Broker α} {x : SessionId} {change : Session → Session}
    (hregistered : Registered b → Registered (b.modifySession x change))
    (hconn : ∀ s, (change s).connected = true → s.connected = true)
    (hclean : ∀ s, (change s).cleanSession = s.cleanSession)
    (hclient : ∀ s, (change s).clientId = s.clientId) (h : Owns sid clientId P b) :
    Owns sid clientId P (b.modifySession x change) := by
  have hsame {β : Type} {field : Session → β} (hfield : ∀ s, field (change s) = field s)
      (s : SessionId) : field ((b.modifySession x change).sessions s) = field (b.sessions s) := by
    by_cases heq : s = x
    · rw [heq, Broker.sessions_modifySession_self, hfield]
    · rw [Broker.sessions_modifySession_of_ne heq]
  refine h.of_change (hregistered h.registered) (hsame hclient sid) (hsame hclean sid) ?_
    (.refl sid b.tree) rfl
  intro s _ hs
  refine ⟨?_, hsame hclient s⟩
  by_cases heq : s = x
  · rw [heq] at hs ⊢
    rw [Broker.sessions_modifySession_self] at hs
    exact hconn _ hs
  · rw [Broker.sessions_modifySession_of_ne heq] at hs
    exact hs

/-- A persistent session that is closed keeps its subscriptions, and those of
another session are the subscriptions of another client. -/
theorem close {b : Broker α} (h : Owns sid clientId P b) {x : SessionId}
    (hconn : (b.sessions x).connected = true) : Owns sid clientId P (Session.close false x b) := by
  have htopics := Session.topics_close hconn
  refine h.of_change (h.registered.close hconn) (clientId_close x b sid)
    (cleanSession_close x b sid) ?_ ?_ ?_
  · intro s _ hs
    exact ⟨connected_of_close hs, clientId_close x b s⟩
  · rw [htopics.1]
    by_cases heq : x = sid
    · rw [heq, dropSubscriptions_of_persistent h.persistent]
      exact .refl sid b.tree
    · exact sameEntries_dropSubscriptions heq b
  · rw [htopics.2]
    by_cases heq : x = sid
    · rw [heq, dropSubscriptions_of_persistent h.persistent]
    · exact getClientSubs_dropSubscriptions (h.alone x heq hconn)

theorem view (sid : SessionId) (clientId : Bytes)
    (P : (List Edge → List Nat) → List Subscription → Prop) :
    TopicView fun b b' : Broker α => Owns sid clientId P b → Owns sid clientId P b' where
  quiet hquiet h := by
    refine h.of_change (registered_quiet hquiet h.registered) ?_ ?_ ?_ ?_ ?_
    · rw [hquiet.sessions]
    · rw [hquiet.sessions]
    · intro s _ hs
      rw [hquiet.sessions] at hs ⊢
      exact ⟨hs, rfl⟩
    · rw [hquiet.tree]
      exact .refl sid _
    · rw [hquiet.subManager]
  trans h h' hb := h' (h hb)
  plumbing b x change hplumbing := by
    refine modifySession (registered_frame.plumbing b x change hplumbing) ?_
      hplumbing.cleanSession hplumbing.clientId
    intro s hs
    rw [← hplumbing.connected]
    exact hs
  close b x hconn h := h.close hconn
  rearm b x _ := by
    refine modifySession (fun h => h.rearm x) ?_ ?_ ?_
    · intro s
      unfold Session.rearm
      split
      · exact id
      · exact id
    · intro s
      unfold Session.rearm
      split <;> rfl
    · intro s
      unfold Session.rearm
      split <;> rfl
  disconnect b x := modifySession (registered_frame.disconnect b x) (fun _ hs => by cases hs)
    (fun _ => rfl) fun _ => rfl
  setRetained cfg b topic msg h := by
    refine h.of_change (h.registered.unchanged rfl rfl rfl) rfl rfl ?_ ?_ rfl
    · intro s _ hs
      exact ⟨hs, rfl⟩
    · exact sameEntries_setRetained cfg b.tree topic msg sid

theorem getClientSubs_recordSubscription {b : Broker α} (h : Owns sid clientId P b)
    (filter : SubscribePacket.Filter) (other : Bytes) :
    (JellyBroker.recordSubscription sid filter b).subManager.getClientSubs other =
      if other = clientId then SubscriptionManager.addTo filter.topicFilter
          filter.requestedQos (b.subManager.getClientSubs clientId)
        else b.subManager.getClientSubs other := by
  unfold JellyBroker.recordSubscription
  dsimp only
  rw [h.persistent, h.client]
  exact SubscriptionManager.getClientSubs_add _ _ _ _ other

theorem getClientSubs_unsubscribeFrom {b : Broker α} (h : Owns sid clientId P b)
    (filter other : Bytes) :
    (Session.unsubscribeFrom sid filter b).subManager.getClientSubs other =
      if other = clientId then
          (b.subManager.getClientSubs clientId).filter fun sub => sub.topicFilter ≠ filter
        else b.subManager.getClientSubs other := by
  unfold Session.unsubscribeFrom
  dsimp only
  rw [h.persistent, h.client]
  exact SubscriptionManager.getClientSubs_remove _ _ _ other

theorem recordSubscription {b : Broker α} (h : Owns sid clientId P b)
    {filter : SubscribePacket.Filter}
    (hadd : ∀ entries subs, P entries subs →
      P (fun path => if path = TopicTree.filterPath filter.topicFilter then
          setFirst filter.requestedQos (entries path) else entries path)
        (SubscriptionManager.addTo filter.topicFilter filter.requestedQos subs)) :
    Owns sid clientId P (JellyBroker.recordSubscription sid filter b) := by
  refine ⟨h.registered.unchanged rfl rfl rfl, h.client, h.persistent, h.alone, ?_⟩
  have hentries : entryQos sid (JellyBroker.recordSubscription sid filter b).tree = fun path =>
      if path = TopicTree.filterPath filter.topicFilter then
        setFirst filter.requestedQos (entryQos sid b.tree path) else entryQos sid b.tree path := by
    funext path
    refine (entryQos_subscribe ..).trans ?_
    simp only [true_and]
  rw [hentries, h.getClientSubs_recordSubscription, if_pos rfl]
  exact hadd _ _ h.related

theorem unsubscribeFrom {b : Broker α} (h : Owns sid clientId P b) {filter : Bytes}
    (hremove : ∀ entries subs, P entries subs →
      P (fun path => if path = TopicTree.filterPath filter then [] else entries path)
        (subs.filter fun sub => sub.topicFilter ≠ filter)) :
    Owns sid clientId P (Session.unsubscribeFrom sid filter b) := by
  refine ⟨h.registered.unchanged rfl rfl rfl, h.client, h.persistent, h.alone, ?_⟩
  have hentries : entryQos sid (Session.unsubscribeFrom sid filter b).tree = fun path =>
      if path = TopicTree.filterPath filter then [] else entryQos sid b.tree path := by
    funext path
    refine (entryQos_unsubscribe ..).trans ?_
    simp only [true_and]
  rw [hentries, h.getClientSubs_unsubscribeFrom, if_pos rfl]
  exact hremove _ _ h.related

end Owns

/-- The entries are the stored subscriptions, whose filters are among `names`. -/
structure AsStored (names : List Bytes) (entries : List Edge → List Nat)
    (subs : List Subscription) : Prop where
  named : ∀ sub ∈ subs, sub.topicFilter ∈ names
  same : ∀ path, entries path = storedQos subs path

namespace AsStored

variable {names : List Bytes} {entries : List Edge → List Nat} {subs : List Subscription}

theorem addTo (h : AsStored names entries subs) {filter : Bytes} (hname : filter ∈ names)
    (hspells : SpelledAs filter subs) (qos : Nat) :
    AsStored names (fun path => if path = TopicTree.filterPath filter then
      setFirst qos (entries path) else entries path)
      (SubscriptionManager.addTo filter qos subs) where
  named sub hsub := by
    rcases SubscriptionManager.mem_addTo hsub with hold | hnew
    · exact h.named sub hold
    · rw [hnew]
      exact hname
  same path := by
    rw [storedQos_addTo hspells, h.same path]

theorem filter (h : AsStored names entries subs) {filter : Bytes}
    (hspells : SpelledAs filter subs) :
    AsStored names (fun path => if path = TopicTree.filterPath filter then [] else entries path)
      (subs.filter fun sub => sub.topicFilter ≠ filter) where
  named sub hsub := h.named sub (List.mem_of_mem_filter hsub)
  same path := by
    rw [storedQos_filter hspells, h.same path]

end AsStored

/-- The session is served as the only one of a persistent client, which has
subscriptions stored for filters among `names` only. -/
structure Serves (sid : SessionId) (clientId : Bytes) (names : List Bytes) (b : Broker α) :
    Prop extends Owns sid clientId (AsStored names) b where
  sparse : SparseStores b

namespace Serves

variable {sid : SessionId} {clientId : Bytes} {names : List Bytes}

theorem agrees {b : Broker α} (h : Serves sid clientId names b) : MatchesStored sid clientId b :=
  h.related.same

theorem view (sid : SessionId) (clientId : Bytes) (names : List Bytes) :
    TopicView fun b b' : Broker α =>
      Serves sid clientId names b → Serves sid clientId names b' := by
  have howns := Owns.view (α := α) sid clientId (AsStored names)
  have hstores := StoresAll.view (α := α) sparse_nil
  exact {
    quiet := fun hquiet h => ⟨howns.quiet hquiet h.toOwns, hstores.quiet hquiet h.sparse⟩
    trans := fun h h' hb => h' (h hb)
    plumbing := fun b x change hplumbing h => ⟨howns.plumbing b x change hplumbing h.toOwns,
      hstores.plumbing b x change hplumbing h.sparse⟩
    close := fun b x hconn h => ⟨h.close hconn, hstores.close b x hconn h.sparse⟩
    rearm := fun b x hreading h => ⟨howns.rearm b x hreading h.toOwns,
      hstores.rearm b x hreading h.sparse⟩
    disconnect := fun b x h => ⟨howns.disconnect b x h.toOwns, hstores.disconnect b x h.sparse⟩
    setRetained := fun cfg b topic msg h => ⟨howns.setRetained cfg b topic msg h.toOwns,
      hstores.setRetained cfg b topic msg h.sparse⟩ }

theorem recordSubscription {b : Broker α} (h : Serves sid clientId names b)
    {filter : SubscribePacket.Filter} (hname : filter.topicFilter ∈ names)
    (hspelled : ∀ name ∈ names, TopicTree.filterPath name =
      TopicTree.filterPath filter.topicFilter → name = filter.topicFilter) :
    Serves sid clientId names (JellyBroker.recordSubscription sid filter b) := by
  have hspells {entries : List Edge → List Nat} {subs : List Subscription}
      (hagrees : AsStored names entries subs) : SpelledAs filter.topicFilter subs :=
    fun sub hsub => hspelled _ (hagrees.named sub hsub)
  refine ⟨h.toOwns.recordSubscription fun _ _ hagrees => ?_, ?_⟩
  · exact hagrees.addTo hname (hspells hagrees) filter.requestedQos
  · refine StoresAll.recordSubscription h.sparse fun _ => ?_
    rw [h.client]
    exact (h.sparse clientId).addTo (hspells h.related) filter.requestedQos

theorem unsubscribeFrom {b : Broker α} (h : Serves sid clientId names b) {filter : Bytes}
    (hspelled : ∀ name ∈ names, TopicTree.filterPath name = TopicTree.filterPath filter →
      name = filter) :
    Serves sid clientId names (Session.unsubscribeFrom sid filter b) := by
  refine ⟨h.toOwns.unsubscribeFrom fun _ _ hagrees => ?_, ?_⟩
  · exact hagrees.filter fun sub hsub => hspelled _ (hagrees.named sub hsub)
  · exact StoresAll.unsubscribeFrom h.sparse sid fun _ hsparse => hsparse.filter filter

end Serves

/-! ## Steps -/

theorem single_reachable {env : Env α} {n : Runtime α} (hn : (brokerSystem env).Reachable n)
    (sid : SessionId) (path : List Edge) : (entryQos sid n.tree path).length ≤ 1 := by
  have hrelation (sid : SessionId) : EntryRelation sid fun tree tree' =>
      (∀ path, (entryQos sid tree path).length ≤ 1) →
        ∀ path, (entryQos sid tree' path).length ≤ 1 := by
    constructor
    · intro tree tree' hsame hsingle path
      rw [hsame path]
      exact hsingle path
    · intro tree₁ tree₂ tree₃ h h' hsingle
      exact h' (h hsingle)
  have hsubscribe (sid : SessionId) (tree : TopicTree) (filter : Bytes) (qos : Nat)
      (hsingle : ∀ path, (entryQos sid tree path).length ≤ 1) (path : List Edge) :
      (entryQos sid (tree.subscribe filter ⟨sid, qos⟩) path).length ≤ 1 := by
    rw [entryQos_subscribe]
    split_ifs
    · exact length_setFirst_le (hsingle path)
    · exact hsingle path
  have hboth : (brokerSystem env).Reachable n ∧
      ∀ sid path, (entryQos sid n.tree path).length ≤ 1 := by
    refine hn.invariant (P := fun n => (brokerSystem env).Reachable n ∧
      ∀ sid path, (entryQos sid n.tree path).length ≤ 1) ?_ ?_
    · intro n hinit
      refine ⟨⟨n, [], hinit, .nil⟩, ?_⟩
      obtain ⟨auth, rfl⟩ := hinit
      intro sid path
      unfold entryQos
      have hempty : ({ auth } : Runtime α).tree.root = Node.empty := rfl
      rw [hempty, Node.subscribersAt_empty]
      exact Nat.zero_le 1
    · rintro n e ⟨hn, hsingle⟩ henabled
      refine ⟨hn.step henabled, ?_⟩
      intro sid
      by_cases hturn : e = .turn sid
      · subst hturn
        have hkeeps := turn_keepsTidy env (hrelation sid) henabled
          (fun _ _ _ tree sub => hsubscribe sid tree sub.topicFilter sub.qos)
          (fun _ _ filter _ _ tree => hsubscribe sid tree filter.topicFilter filter.requestedQos)
          fun _ _ filter _ tree hsingle path => by
            rw [entryQos_unsubscribe]
            split_ifs
            · exact Nat.zero_le 1
            · exact hsingle path
        exact (hkeeps (tidy_reachable hn sid)).2 (hsingle sid)
      · intro path
        have hendures := (reachable_standsBy hn henabled hturn).2
        have hsame : entryQos sid (n.step env e).tree path = entryQos sid n.tree path :=
          hendures.entries path
        change (entryQos sid (n.step env e).tree path).length ≤ 1
        rw [hsame]
        exact hsingle sid path
  exact hboth.2 sid path

def storedNames (b : Broker α) (clientId : Bytes) : List Bytes :=
  (b.subManager.getClientSubs clientId).map (·.topicFilter)

/-- Filters that lead to the same node are the same string. -/
def OneSpelling (names : List Bytes) : Prop :=
  ∀ name ∈ names, ∀ name' ∈ names, split name = split name' → name = name'

/-- The step does not let the two stores of a persistent client drift apart: its
SUBSCRIBE and UNSUBSCRIBE spell every filter as the stored one for the same
node, and its CONNECT comes on a session that is subscribed nowhere but at the
nodes of the stored filters. -/
structure Steady (env : Env α) (n : Runtime α) (e : Event) : Prop where
  subscribe : ∀ sid sub, e = .turn sid → Subscribes env n sid sub →
    (n.sessions sid).cleanSession = false →
    OneSpelling (storedNames n.toBroker (n.sessions sid).clientId ++
      (sub.filters.map (·.topicFilter)).filter (isValidFilter env.cfg))
  unsubscribe : ∀ sid unsub, e = .turn sid → Unsubscribes env n sid unsub →
    (n.sessions sid).cleanSession = false →
    ∀ filter ∈ unsub.topicFilters, ∀ name ∈ storedNames n.toBroker (n.sessions sid).clientId,
      split name = split filter → name = filter
  connect : ∀ sid conn, e = .turn sid → Connects env n sid conn → conn.cleanSession = false →
    ∀ path, entryQos sid n.tree path ≠ [] →
      storedQos (n.subManager.getClientSubs conn.clientId) path ≠ []

theorem split_eq_of_filterPath {filter filter' : Bytes}
    (h : TopicTree.filterPath filter = TopicTree.filterPath filter') :
    split filter = split filter' :=
  map_ofFilterSegment_inj h

section Turn

variable {env : Env α} {n : Runtime α} {sid : SessionId}

theorem Subscribes.unique {sub sub' : SubscribePacket} (h : Subscribes env n sid sub)
    (h' : Subscribes env n sid sub') : sub = sub' := by
  obtain ⟨_, hdr, body, rest, hnext, _, hparse⟩ := h
  obtain ⟨_, hdr', body', rest', hnext', _, hparse'⟩ := h'
  rw [(hnext.unique hnext').2, hparse'] at hparse
  exact (Prod.mk.inj (Except.ok.inj hparse)).1.symm

theorem Subscribes.not_unsubscribes {sub : SubscribePacket} {unsub : UnsubscribePacket}
    (h : Subscribes env n sid sub) : ¬Unsubscribes env n sid unsub := by
  obtain ⟨_, hdr, body, rest, hnext, htype, _⟩ := h
  rintro ⟨_, hdr', body', rest', hnext', htype', _⟩
  rw [(hnext.unique hnext').1, htype'] at htype
  cases htype

theorem turn_serves (hn : (brokerSystem env).Reachable n)
    (henabled : n.toBroker.Enabled (.turn sid)) (hsteady : Steady env n (.turn sid))
    (hconn : (n.sessions sid).connected = true)
    (hpersistent : (n.sessions sid).cleanSession = false)
    (hsparse : SparseStores n.toBroker)
    (hagrees : MatchesStored sid (n.sessions sid).clientId n.toBroker) :
    ∃ names, Serves sid (n.sessions sid).clientId names (n.step env (.turn sid)).toBroker := by
  have hserves (names : List Bytes)
      (hnames : ∀ name ∈ storedNames n.toBroker (n.sessions sid).clientId, name ∈ names) :
      Serves sid (n.sessions sid).clientId names n.toBroker := by
    refine ⟨.of_connected hn hconn hpersistent ⟨?_, hagrees⟩, hsparse⟩
    intro sub hsub
    exact hnames _ (List.mem_map_of_mem hsub)
  have hconnect : ∀ conn, ¬Connects env n sid conn := by
    intro conn hconnects
    rw [hconnects.first] at hconn
    cases hconn
  by_cases hsub : ∃ sub, Subscribes env n sid sub
  · obtain ⟨sub, hsub⟩ := hsub
    -- The filters that are stored are the old ones and those of the packet.
    refine ⟨storedNames n.toBroker (n.sessions sid).clientId ++
      (sub.filters.map (·.topicFilter)).filter (isValidFilter env.cfg), ?_⟩
    have hone := hsteady.subscribe sid sub rfl hsub hpersistent
    refine ((Serves.view sid _ _).turn env n sid).step henabled ?_ ?_ ?_
      (hserves _ fun name hname => List.mem_append_left _ hname)
    · intro conn b hconnects
      exact absurd hconnects (hconnect conn)
    · intro sub' hsub' filter hfilter hvalid b _ hb
      rw [← hsub.unique hsub'] at hfilter
      have hname : filter.topicFilter ∈ storedNames n.toBroker (n.sessions sid).clientId ++
          (sub.filters.map (·.topicFilter)).filter (isValidFilter env.cfg) := by
        apply List.mem_append_right
        exact List.mem_filter.mpr ⟨List.mem_map_of_mem hfilter, hvalid⟩
      refine hb.recordSubscription hname ?_
      intro name hmem hpath
      exact hone name hmem _ hname (split_eq_of_filterPath hpath)
    · intro unsub hunsub
      exact absurd hunsub hsub.not_unsubscribes
  · refine ⟨storedNames n.toBroker (n.sessions sid).clientId, ?_⟩
    refine ((Serves.view sid _ _).turn env n sid).step henabled ?_ ?_ ?_
      (hserves _ fun name hname => hname)
    · intro conn b hconnects
      exact absurd hconnects (hconnect conn)
    · intro sub hsub'
      exact absurd ⟨sub, hsub'⟩ hsub
    · intro unsub hunsub filter hfilter b hb
      refine hb.unsubscribeFrom ?_
      intro name hname hpath
      exact hsteady.unsubscribe sid unsub rfl hunsub hpersistent filter hfilter name hname
        (split_eq_of_filterPath hpath)

/-! ## CONNECT -/

variable (env) in
/-- Passing a packet to a persistent session leaves the subscriptions alone. -/
theorem topics_deliver_of_persistent {b : Broker α}
    (h : (b.sessions sid).cleanSession = false) (packet : OutPacket) :
    (Session.deliver env sid packet b).tree = b.tree ∧
      (Session.deliver env sid packet b).subManager = b.subManager := by
  unfold Session.deliver
  dsimp only
  split_ifs with hidle hfull
  · exact ⟨rfl, rfl⟩
  · have hpersistent : ((b.observe (.noteHanded
        ⟨sid, packet, Session.accepts env.cfg (b.sessions sid)⟩)).sessions sid).cleanSession =
        false := h
    have hconn : ((b.observe (.noteHanded
        ⟨sid, packet, Session.accepts env.cfg (b.sessions sid)⟩)).sessions sid).connected =
        true := by
      simpa using hidle
    rw [(Session.topics_close hconn).1, (Session.topics_close hconn).2,
      dropSubscriptions_of_persistent hpersistent]
    exact ⟨rfl, rfl⟩
  · exact ⟨rfl, rfl⟩

variable (env) in
/-- What an accepted CONNECT of a persistent client leaves: the stored
subscriptions, put into the tree. -/
theorem topics_finishConnect {conn : ConnectPacket} (hpersistent : conn.cleanSession = false)
    {b : Broker α} (hclean : (b.sessions sid).cleanSession = false) :
    (Session.finishConnect env sid conn b).tree =
        (b.subManager.getClientSubs conn.clientId).foldl
          (fun tree sub => tree.subscribe sub.topicFilter ⟨sid, sub.qos⟩) b.tree ∧
      (Session.finishConnect env sid conn b).subManager = b.subManager := by
  have hrestore : Session.restoreSubscriptions sid conn b = { b with
      tree := (b.subManager.getClientSubs conn.clientId).foldl
        (fun tree sub => tree.subscribe sub.topicFilter ⟨sid, sub.qos⟩) b.tree } := by
    unfold Session.restoreSubscriptions
    rw [hpersistent]
    rfl
  have hclean' : ((Session.restoreSubscriptions sid conn b).sessions sid).cleanSession = false := by
    rw [sessions_restoreSubscriptions]
    exact hclean
  have htopics := topics_deliver_of_persistent env hclean'
    (.connack (!conn.cleanSession && !(b.subManager.getClientSubs conn.clientId).isEmpty) .accepted)
  constructor
  · refine htopics.1.trans ?_
    rw [hrestore]
  · refine htopics.2.trans ?_
    rw [hrestore]

theorem Connects.topics {conn : ConnectPacket} (h : Connects env n sid conn)
    (henabled : n.toBroker.Enabled (.turn sid))
    (hafter : ((n.step env (.turn sid)).sessions sid).connected = true)
    (hpersistent : conn.cleanSession = false) :
    (n.step env (.turn sid)).tree = (n.subManager.getClientSubs conn.clientId).foldl
        (fun tree sub => tree.subscribe sub.topicFilter ⟨sid, sub.qos⟩) n.tree ∧
      (n.step env (.turn sid)).subManager = n.subManager := by
  obtain ⟨b, _, htree, hstored, hstep⟩ := h.finishes henabled hafter
  have hclean : ((Session.register env sid conn b).sessions sid).cleanSession = false := by
    have hself : (Session.register env sid conn b).sessions sid =
        Session.adopt env.cfg conn (b.sessions sid) := Broker.sessions_modifySession_self _ _ _
    rw [hself]
    exact hpersistent
  obtain ⟨htree', hstored'⟩ := topics_finishConnect env hpersistent hclean
  rw [hstep, htree', hstored', ← htree, ← hstored]
  exact ⟨rfl, rfl⟩

/-- A persistent client that has connected is subscribed as the subscription
manager says. -/
theorem connect_matches {conn : ConnectPacket} (hn : (brokerSystem env).Reachable n)
    (henabled : n.toBroker.Enabled (.turn sid)) (hsteady : Steady env n (.turn sid))
    (hsparse : SparseStores n.toBroker) (hconnects : Connects env n sid conn)
    (hpersistent : conn.cleanSession = false)
    (hafter : ((n.step env (.turn sid)).sessions sid).connected = true) :
    (n.step env (.turn sid)).subManager = n.subManager ∧
      MatchesStored sid conn.clientId (n.step env (.turn sid)).toBroker := by
  obtain ⟨htree, hmanager⟩ := hconnects.topics henabled hafter hpersistent
  refine ⟨hmanager, ?_⟩
  intro path
  rw [hmanager, htree]
  exact entryQos_restored_eq (hsparse conn.clientId path) (single_reachable hn sid path)
    (hsteady.connect sid conn rfl hconnects hpersistent path)

end Turn

/-! ## Runs -/

/-- The stored subscriptions of every client are sparse, and every connected
session of a persistent client is subscribed as they say. -/
structure Concordant (b : Broker α) : Prop where
  sparse : SparseStores b
  agrees : ∀ sid, (b.sessions sid).connected = true → (b.sessions sid).cleanSession = false →
    MatchesStored sid (b.sessions sid).clientId b

section Runs

variable {env : Env α} {n : Runtime α}

theorem sparse_step (hn : (brokerSystem env).Reachable n) (h : Concordant n.toBroker) {e : Event}
    (henabled : n.toBroker.Enabled e) (hsteady : Steady env n e) :
    SparseStores (n.step env e).toBroker := by
  by_cases hread : ∃ sid, e = .turn sid
  · obtain ⟨sid, rfl⟩ := hread
    by_cases hserved : (n.sessions sid).connected = true ∧ (n.sessions sid).cleanSession = false
    · obtain ⟨names, hserves⟩ := turn_serves hn henabled hsteady hserved.1 hserved.2 h.sparse
        (h.agrees sid hserved.1 hserved.2)
      exact hserves.sparse
    · refine turn_sparse env henabled h.sparse ?_
      intro hconn
      by_contra hclean
      exact hserved ⟨hconn, by simpa using hclean⟩
  · exact io_sparse henabled (fun sid heq => hread ⟨sid, heq⟩) h.sparse

/-- The subscriptions of a connected session of a persistent client, after a step
that it may have left in. -/
theorem matches_step (hn : (brokerSystem env).Reachable n) (h : Concordant n.toBroker) {e : Event}
    (henabled : n.toBroker.Enabled e) (hsteady : Steady env n e) {sid : SessionId}
    (hconn : (n.sessions sid).connected = true)
    (hpersistent : (n.sessions sid).cleanSession = false) :
    MatchesStored sid (n.sessions sid).clientId (n.step env e).toBroker ∧
      ∀ s ≠ sid, ((n.step env e).sessions s).connected = true →
        ((n.step env e).sessions s).clientId ≠ (n.sessions sid).clientId := by
  by_cases hturn : e = .turn sid
  · subst hturn
    obtain ⟨names, hserves⟩ := turn_serves hn henabled hsteady hconn hpersistent h.sparse
      (h.agrees sid hconn hpersistent)
    exact ⟨hserves.agrees, hserves.alone⟩
  · obtain ⟨hbystander, hendures⟩ := reachable_standsBy hn henabled hturn
    refine ⟨?_, hbystander.alone hconn⟩
    intro path
    rw [hendures.entries path, hendures.stored hconn fun _ => Or.inr hpersistent]
    exact h.agrees sid hconn hpersistent path

theorem concordant_step (hn : (brokerSystem env).Reachable n) (h : Concordant n.toBroker)
    {e : Event} (henabled : n.toBroker.Enabled e) (hsteady : Steady env n e) :
    Concordant (n.step env e).toBroker := by
  refine ⟨sparse_step hn h henabled hsteady, ?_⟩
  intro sid hconn' hpersistent'
  by_cases hconn : (n.sessions sid).connected = true
  · have hsame := sameClient_step hn henabled hconn hconn'
    rw [hsame.clientId]
    rw [hsame.cleanSession] at hpersistent'
    exact (matches_step hn h henabled hsteady hconn hpersistent').1
  · obtain ⟨rfl, conn, hconnects⟩ := connects_of_connected hn henabled hconn hconn'
    have hclient := hconnects.clientId henabled hconn'
    have hclean := hconnects.cleanSession henabled hconn'
    rw [hclean] at hpersistent'
    rw [hclient]
    exact (connect_matches hn henabled hsteady h.sparse hconnects hpersistent' hconn').2

theorem concordant_reachable (hn : ((brokerSystem env).restrict (Steady env)).Reachable n) :
    Concordant n.toBroker := by
  have hboth : (brokerSystem env).Reachable n ∧ Concordant n.toBroker := by
    refine hn.invariant (P := fun n => (brokerSystem env).Reachable n ∧ Concordant n.toBroker)
      ?_ ?_
    · intro n hinit
      refine ⟨⟨n, [], hinit, .nil⟩, ?_⟩
      obtain ⟨auth, rfl⟩ := hinit
      refine ⟨fun _ => sparse_nil, ?_⟩
      intro sid hconn
      cases hconn
    · rintro n e ⟨hn, h⟩ ⟨henabled, hsteady⟩
      exact ⟨hn.step henabled, concordant_step hn h henabled hsteady⟩
  exact hboth.2

/-! ## Between two connections -/

def AcceptsNoneAs (env : Env α) (clientId : Bytes) (n : Runtime α) (e : Event) : Prop :=
  ∀ sid conn, e = .turn sid → Connects env n sid conn → clientId ≠ conn.clientId

def Absent (clientId : Bytes) (b : Broker α) : Prop :=
  ∀ sid, (b.sessions sid).connected = true → (b.sessions sid).clientId ≠ clientId

/-- Nobody touches what is stored for a client that is not connected. -/
theorem absent_step (hn : (brokerSystem env).Reachable n) {clientId : Bytes}
    (habsent : Absent clientId n.toBroker) {e : Event} (henabled : n.toBroker.Enabled e)
    (hnone : AcceptsNoneAs env clientId n e) :
    Absent clientId (n.step env e).toBroker ∧
      (n.step env e).subManager.getClientSubs clientId =
        n.subManager.getClientSubs clientId := by
  have hstarted := ((startedCounts_inductive env).reachable startedCounts_init hn).started
  -- The session that would be started next stands by.
  have hidle : (n.sessions n.sessionCount).connected = false := by
    by_contra hconn
    exact Nat.lt_irrefl _ (hstarted n.sessionCount (Or.inl (by simpa using hconn)))
  have hnever {p : Prop} (hconn : (n.sessions n.sessionCount).connected = true) : p := by
    rw [hidle] at hconn
    cases hconn
  have hturn : e ≠ .turn n.sessionCount := by
    rintro rfl
    exact Nat.lt_irrefl _ (hstarted n.sessionCount (Or.inr (Or.inr henabled.2)))
  have hbystander : Bystander n.sessionCount clientId True n.toBroker :=
    ⟨(registered_inductive env).reachable registered_init hn, hnever, fun _ => trivial,
      fun _ s _ hs => habsent s hs, hnever⟩
  obtain ⟨hafter, hendures⟩ := step_endures env hbystander henabled hturn fun _ _ => hnone
  constructor
  · intro sid hconn
    by_cases heq : sid = n.sessionCount
    · rw [heq] at hconn
      exact hnever (hendures.connected hconn)
    · exact hafter.alone trivial sid heq hconn
  · exact hendures.stored trivial fun hconn => hnever hconn

theorem absent_run (hn : (brokerSystem env).Reachable n) {clientId : Bytes}
    (habsent : Absent clientId n.toBroker) {m : Runtime α} {events : List Event}
    (hrun : ((brokerSystem env).restrict fun t e =>
      Steady env t e ∧ AcceptsNoneAs env clientId t e).Run n events m) :
    m.subManager.getClientSubs clientId = n.subManager.getClientSubs clientId := by
  have hall : (brokerSystem env).Reachable m ∧ Absent clientId m.toBroker ∧
      m.subManager.getClientSubs clientId = n.subManager.getClientSubs clientId := by
    refine hrun.preserves (P := fun t => (brokerSystem env).Reachable t ∧
      Absent clientId t.toBroker ∧ t.subManager.getClientSubs clientId =
        n.subManager.getClientSubs clientId) ?_ ⟨hn, habsent, rfl⟩
    rintro t e ⟨ht, habsent', hstored⟩ ⟨henabled, _, hnone⟩
    obtain ⟨habsent'', hstored'⟩ := absent_step ht habsent' henabled hnone
    exact ⟨ht.step henabled, habsent'', hstored'.trans hstored⟩
  exact hall.2.2

theorem steady_run (hn : ((brokerSystem env).restrict (Steady env)).Reachable n)
    {clientId : Bytes} {m : Runtime α} {events : List Event}
    (hrun : ((brokerSystem env).restrict fun t e =>
      Steady env t e ∧ AcceptsNoneAs env clientId t e).Run n events m) :
    ((brokerSystem env).restrict (Steady env)).Reachable m := by
  refine hrun.preserves (P := ((brokerSystem env).restrict (Steady env)).Reachable) ?_ hn
  intro t e ht henabled
  exact ht.step ⟨henabled.1, henabled.2.1⟩

end Runs

/-! ## Agreement -/

/-- The filter is another spelling of a stored one. -/
def Respelled (subs : List Subscription) (filter : Bytes) : Prop :=
  ∃ sub ∈ subs, split sub.topicFilter = split filter ∧ sub.topicFilter ≠ filter

/-- The subscription manager lists the filter with the same QoS as the node of
the filter has an entry of the session with. -/
def ListedAsLive (b : Broker α) (sid : SessionId) (filter : Bytes) : Prop :=
  ∀ qos, ⟨filter, qos⟩ ∈ b.subManager.getClientSubs (b.sessions sid).clientId ↔
    ⟨sid, qos⟩ ∈ b.tree.root.subscribersAt (TopicTree.filterPath filter)

theorem not_mem_two {subs : List Subscription} (h : Sparse subs) {sub sub' : Subscription}
    (hsub : sub ∈ subs) (hsub' : sub' ∈ subs)
    (hpath : TopicTree.filterPath sub.topicFilter = TopicTree.filterPath sub'.topicFilter) :
    sub = sub' := by
  have hlength := h (TopicTree.filterPath sub'.topicFilter)
  unfold storedQos at hlength
  rw [List.length_map] at hlength
  have hmem : sub ∈ subs.filter fun s =>
      TopicTree.filterPath s.topicFilter = TopicTree.filterPath sub'.topicFilter :=
    List.mem_filter.mpr ⟨hsub, decide_eq_true hpath⟩
  have hmem' : sub' ∈ subs.filter fun s =>
      TopicTree.filterPath s.topicFilter = TopicTree.filterPath sub'.topicFilter :=
    List.mem_filter.mpr ⟨hsub', decide_eq_true rfl⟩
  generalize (subs.filter fun s => TopicTree.filterPath s.topicFilter =
    TopicTree.filterPath sub'.topicFilter) = found at hlength hmem hmem'
  match found with
  | [] => cases hmem
  | [one] => rw [List.mem_singleton.mp hmem, List.mem_singleton.mp hmem']
  | _ :: _ :: rest =>
      rw [List.length_cons, List.length_cons] at hlength
      omega

theorem listedAsLive_iff {b : Broker α} (h : Concordant b) {sid : SessionId}
    (hconn : (b.sessions sid).connected = true)
    (hpersistent : (b.sessions sid).cleanSession = false) (filter : Bytes) :
    ListedAsLive b sid filter ↔
      ¬Respelled (b.subManager.getClientSubs (b.sessions sid).clientId) filter := by
  have hagrees := h.agrees sid hconn hpersistent
  have hlive (qos : Nat) : ⟨sid, qos⟩ ∈ b.tree.root.subscribersAt (TopicTree.filterPath filter) ↔
      ∃ name, TopicTree.filterPath name = TopicTree.filterPath filter ∧
        ⟨name, qos⟩ ∈ b.subManager.getClientSubs (b.sessions sid).clientId := by
    rw [← mem_entryQos, hagrees, mem_storedQos]
  constructor
  · rintro hlisted ⟨⟨name, qos⟩, hsub, hsplit, hne⟩
    have hpath : TopicTree.filterPath name = TopicTree.filterPath filter := by
      unfold TopicTree.filterPath
      rw [hsplit]
    have hfilter := (hlisted qos).mpr ((hlive qos).mpr ⟨name, hpath, hsub⟩)
    have hsame := not_mem_two (h.sparse _) hsub hfilter hpath
    exact hne (congrArg Subscription.topicFilter hsame)
  · intro hspelled qos
    rw [hlive]
    constructor
    · intro hsub
      exact ⟨filter, rfl, hsub⟩
    · rintro ⟨name, hpath, hsub⟩
      by_cases hname : name = filter
      · rw [← hname]
        exact hsub
      · exact absurd ⟨⟨name, qos⟩, hsub, split_eq_of_filterPath hpath, hname⟩ hspelled

/-- In every state of a run in which persistent clients spell each filter in one
way and connect on sessions that are not subscribed already, the subscription
manager and the tree agree on every filter but the other spellings of those
stored.  A persistent client that leaves and connects again, on the same session
or another, is then subscribed at the nodes it was subscribed at. -/
theorem persistent_subscriptions_agree (env : Env α) (n : Runtime α)
    (hn : ((brokerSystem env).restrict (Steady env)).Reachable n) (sid : SessionId)
    (hconn : (n.sessions sid).connected = true)
    (hpersistent : (n.sessions sid).cleanSession = false) :
    (∀ filter, ListedAsLive n.toBroker sid filter ↔
      ¬Respelled (n.subManager.getClientSubs (n.sessions sid).clientId) filter) ∧
    ∀ e, n.toBroker.Enabled e → Steady env n e →
      ((n.step env e).sessions sid).connected = false →
      ∀ events m, ((brokerSystem env).restrict fun t e => Steady env t e ∧
        AcceptsNoneAs env (n.sessions sid).clientId t e).Run (n.step env e) events m →
      ∀ sid' conn, m.toBroker.Enabled (.turn sid') → Steady env m (.turn sid') →
        Connects env m sid' conn → conn.clientId = (n.sessions sid).clientId →
        conn.cleanSession = false → ((m.step env (.turn sid')).sessions sid').connected = true →
      ∀ path qos, ⟨sid', qos⟩ ∈ (m.step env (.turn sid')).tree.root.subscribersAt path ↔
        ⟨sid, qos⟩ ∈ (n.step env e).tree.root.subscribersAt path := by
  have h := concordant_reachable hn
  have hreach := hn.of_restrict
  refine ⟨listedAsLive_iff h hconn hpersistent, ?_⟩
  intro e henabled hsteady hleft events m hrun sid' conn henabled' hsteady' hconnects hclient
    hpersistent' hafter path qos
  obtain ⟨hbefore, halone⟩ := matches_step hreach h henabled hsteady hconn hpersistent
  have habsent : Absent (n.sessions sid).clientId (n.step env e).toBroker := by
    intro s hs
    by_cases heq : s = sid
    · rw [heq] at hs
      rw [hleft] at hs
      cases hs
    · exact halone s heq hs
  have hstored := absent_run (hreach.step henabled) habsent hrun
  have hm := steady_run (hn.step ⟨henabled, hsteady⟩) hrun
  obtain ⟨hmanager, hmatches⟩ := connect_matches hm.of_restrict henabled' hsteady'
    (concordant_reachable hm).sparse hconnects hpersistent' hafter
  rw [← mem_entryQos, ← mem_entryQos, hmatches path, hbefore path, hmanager, hclient, hstored]
  exact Iff.rfl

/-! ## Sample runs -/

theorem steady_of_io {env : Env α} {n : Runtime α} {e : Event} (h : ∀ sid, e ≠ .turn sid) :
    Steady env n e where
  subscribe sid _ he := absurd he (h sid)
  unsubscribe sid _ he := absurd he (h sid)
  connect sid _ he := absurd he (h sid)

theorem steady_of_fresh {env : Env α} {n : Runtime α} {sid : SessionId}
    (hidle : (n.sessions sid).connected = false)
    (hfresh : (∃ conn, Connects env n sid conn) → ∀ path, entryQos sid n.tree path = []) :
    Steady env n (.turn sid) := by
  constructor
  · intro sid' sub he hsub
    rw [← Event.turn.inj he] at hsub
    have hconn := hsub.1
    rw [hidle] at hconn
    cases hconn
  · intro sid' unsub he hunsub
    rw [← Event.turn.inj he] at hunsub
    have hconn := hunsub.1
    rw [hidle] at hconn
    cases hconn
  · intro sid' conn he hconnects _ path hfound
    rw [← Event.turn.inj he] at hconnects hfound
    exact absurd (hfresh ⟨conn, hconnects⟩ path) hfound

/-- A persistent client connects, subscribes to a topic, and sends DISCONNECT.
It connects again on a second session. -/
def returningEvents : List Event :=
  [.accept [0x69], .read 0 (connectBytes false [0x63] ++ subscribeBytes 1 [0x74] 1 ++
    disconnectBytes), .turn 0, .turn 0, .turn 0, .turn 0, .accept [0x69],
    .read 1 (connectBytes false [0x63]), .turn 1]

def returningState (count : Nat) : Runtime Unit :=
  (brokerSystem defaultEnv).after { auth := () } (returningEvents.take count)

theorem returningState_steady :
    Steady defaultEnv (returningState 2) (.turn 0) ∧
      Steady defaultEnv (returningState 3) (.turn 0) ∧
      Steady defaultEnv (returningState 4) (.turn 0) ∧
      Steady defaultEnv (returningState 5) (.turn 0) ∧
      Steady defaultEnv (returningState 8) (.turn 1) := by
  have hsub : Subscribes defaultEnv (returningState 3) 0 ⟨1, [⟨[0x74], 1⟩]⟩ := by
    refine ⟨by decide +kernel, _, _, [], ⟨subscribeBytes 1 [0x74] 1,
      { buffer := disconnectBytes }, by decide +kernel, rfl⟩, rfl, rfl⟩
  have hdisconnect : NextPacket defaultEnv (returningState 4) 0 _ _ :=
    ⟨disconnectBytes, {}, by decide +kernel, rfl⟩
  have hconn3 : ((returningState 3).sessions 0).connected = true := by decide +kernel
  have hconn4 : ((returningState 4).sessions 0).connected = true := by decide +kernel
  have hempty (sid : SessionId) (path : List Edge) : entryQos sid {} path = [] := by
    unfold entryQos
    have hroot : ({} : TopicTree).root = Node.empty := rfl
    rw [hroot, Node.subscribersAt_empty]
    rfl
  refine ⟨?_, ⟨?_, ?_, ?_⟩, ⟨?_, ?_, ?_⟩, ?_, ?_⟩
  · apply steady_of_fresh (by decide +kernel)
    intro _ path
    exact hempty 0 path
  · intro sid sub he hsub' _
    rw [← Event.turn.inj he] at hsub' ⊢
    rw [← hsub.unique hsub']
    unfold OneSpelling
    decide +kernel
  · intro sid unsub he hunsub
    rw [← Event.turn.inj he] at hunsub
    exact absurd hunsub hsub.not_unsubscribes
  · intro sid conn he hconnects
    rw [← Event.turn.inj he] at hconnects
    rw [hconnects.first] at hconn3
    cases hconn3
  · rintro sid sub he ⟨_, hdr, body, rest, hnext, htype, _⟩
    rw [← Event.turn.inj he] at hnext
    rw [← (hdisconnect.unique hnext).1] at htype
    cases htype
  · rintro sid unsub he ⟨_, hdr, body, rest, hnext, htype, _⟩
    rw [← Event.turn.inj he] at hnext
    rw [← (hdisconnect.unique hnext).1] at htype
    cases htype
  · intro sid conn he hconnects
    rw [← Event.turn.inj he] at hconnects
    rw [hconnects.first] at hconn4
    cases hconn4
  · apply steady_of_fresh (by decide +kernel)
    rintro ⟨conn, body, ⟨hdr, ⟨packet, parser, hextract, _⟩, _⟩, _⟩
    have hnone : (((returningState 5).parsers 0).tryExtract defaultEnv.cfg).1 = none := by
      decide +kernel
    rw [hextract] at hnone
    cases hnone
  · apply steady_of_fresh (by decide +kernel)
    intro _ path
    have htree : (returningState 8).tree = TopicTree.subscribe {} [0x74] ⟨0, 1⟩ := rfl
    have hother : entryQos 1 (TopicTree.subscribe {} [0x74] ⟨0, 1⟩) path = entryQos 1 {} path :=
      sameEntries_subscribe {} [0x74] (by decide) path
    rw [htree, hother]
    exact hempty 1 path

/-- The client is subscribed to the topic on its second session. -/
theorem persistent_client_resubscribed :
    ((returningState 4).sessions 0).connected = true ∧
      ((returningState 5).sessions 0).connected = false ∧
      (⟨1, 1⟩ : SubscriberEntry) ∈ (returningState 9).tree.root.subscribersAt
        (TopicTree.filterPath [0x74]) := by
  obtain ⟨hsteady2, hsteady3, hsteady4, hsteady5, hsteady8⟩ := returningState_steady
  have hconn : ((returningState 4).sessions 0).connected = true := by decide +kernel
  have hleft : ((returningState 5).sessions 0).connected = false := by decide +kernel
  have hn : ((brokerSystem defaultEnv).restrict (Steady defaultEnv)).Reachable
      (returningState 4) := by
    refine .of_allowed ⟨(), rfl⟩ ⟨⟨⟨rfl, rfl, trivial⟩, steady_of_io nofun⟩,
      ⟨⟨rfl, rfl, rfl, ?_, ?_⟩, steady_of_io nofun⟩, ⟨⟨?_, ?_⟩, hsteady2⟩, ⟨⟨?_, ?_⟩, hsteady3⟩,
      trivial⟩ <;> decide +kernel
  have henabled4 : (returningState 4).toBroker.Enabled (.turn 0) := by
    constructor <;> decide +kernel
  have henabled8 : (returningState 8).toBroker.Enabled (.turn 1) := by
    constructor <;> decide +kernel
  have hconnects : Connects defaultEnv (returningState 8) 1
      { protocolName := mqttProtocolName, protocolLevel := mqttProtocolLevel
        clientId := [0x63], cleanSession := false, keepalive := 60 } := by
    refine ⟨(connectBytes false [0x63]).drop 2,
      ⟨_, ⟨connectBytes false [0x63], {}, by decide +kernel, rfl⟩, rfl⟩, ⟨?_, ?_, ?_, ?_, ?_⟩, ?_⟩
    · decide +kernel
    · exact ⟨[], by decide +kernel⟩
    · decide
    · exact Or.inl (by decide)
    · intro banUntil hban
      have hnone : (returningState 8).server.authBanUntil = ∅ := by decide +kernel
      rw [hnone] at hban
      cases hban
    · exact Or.inl ⟨rfl, rfl⟩
  have hnone5 : AcceptsNoneAs defaultEnv [0x63] (returningState 5) (.turn 0) := by
    rintro sid conn he ⟨body, ⟨hdr, ⟨packet, parser, hextract, _⟩, _⟩, _⟩
    rw [← Event.turn.inj he] at hextract
    have hnone : (((returningState 5).parsers 0).tryExtract defaultEnv.cfg).1 = none := by
      decide +kernel
    rw [hextract] at hnone
    cases hnone
  have hrun : ((brokerSystem defaultEnv).restrict fun t e => Steady defaultEnv t e ∧
      AcceptsNoneAs defaultEnv [0x63] t e).Run (returningState 5)
        [.turn 0, .accept [0x69], .read 1 (connectBytes false [0x63])] (returningState 8) := by
    refine .of_allowed ⟨⟨⟨?_, ?_⟩, hsteady5, hnone5⟩,
      ⟨⟨?_, ?_, trivial⟩, steady_of_io nofun, nofun⟩,
      ⟨⟨?_, ?_, ?_, ?_, ?_⟩, steady_of_io nofun, nofun⟩, trivial⟩ <;> decide +kernel
  have hagree := (persistent_subscriptions_agree defaultEnv (returningState 4) hn 0 hconn
    (by decide +kernel)).2 (.turn 0) henabled4 hsteady4 hleft _ (returningState 8) hrun 1 _
    henabled8 hsteady8 hconnects (by decide +kernel) rfl (by decide +kernel)
    (TopicTree.filterPath [0x74]) 1
  refine ⟨hconn, hleft, hagree.mpr ?_⟩
  decide +kernel

/-- A persistent client connects and sends more bytes in the same read, which
hold as many packets. -/
def driftingEvents (more : Bytes) (count : Nat) : List Event :=
  [Event.accept [0x69], .read 0 (connectBytes false [0x63] ++ more), .turn 0] ++
    List.replicate count (Event.turn 0)

/-- A client that has unsubscribed from a filter by its other spelling is still
listed for it, and is subscribed to it again when it has connected again.  One
that has subscribed in both spellings is listed with a QoS that the tree does
not have, and one that connects on a session which served another client is not
listed for what the session is subscribed to. -/
theorem persistent_subscriptions_drift :
    let unsubscribed := driftingEvents
      (subscribeBytes 1 [0x61] 1 ++ unsubscribeBytes 2 [0x61, 0x2f] ++ disconnectBytes) 2
    let n := (brokerSystem defaultEnv).after { auth := () } unsubscribed
    let n' := (brokerSystem defaultEnv).after { auth := () } (unsubscribed ++
      [.turn 0, .turn 0, .accept [0x69], .read 1 (connectBytes false [0x63]), .turn 1])
    let m := (brokerSystem defaultEnv).after { auth := () } (driftingEvents
      (subscribeBytes 1 [0x61] 0 ++ subscribeBytes 2 [0x61, 0x2f] 1) 2)
    let k := (brokerSystem defaultEnv).after { auth := () } (driftingEvents
      (subscribeBytes 1 [0x61] 1 ++ disconnectBytes ++ connectBytes false [0x64]) 3)
    ((brokerSystem defaultEnv).Reachable n' ∧ (n.sessions 0).connected = true ∧
      (n.sessions 0).cleanSession = false ∧ ¬ListedAsLive n.toBroker 0 [0x61] ∧
      n.tree.lookup [0x61] = [] ∧ (n'.sessions 1).clientId = (n.sessions 0).clientId ∧
      n'.tree.lookup [0x61] = [⟨1, 1⟩]) ∧
    ((brokerSystem defaultEnv).Reachable m ∧ (m.sessions 0).connected = true ∧
      (m.sessions 0).cleanSession = false ∧ ¬ListedAsLive m.toBroker 0 [0x61]) ∧
    (brokerSystem defaultEnv).Reachable k ∧ (k.sessions 0).connected = true ∧
      (k.sessions 0).cleanSession = false ∧ (k.sessions 0).clientId = [0x64] ∧
      ¬ListedAsLive k.toBroker 0 [0x61] := by
  intro unsubscribed n n' m k
  refine ⟨⟨?_, ?_, ?_, ?_, ?_, ?_, ?_⟩, ⟨?_, ?_, ?_, ?_⟩, ?_, ?_, ?_, ?_, ?_⟩
  · refine .of_allowed ⟨(), rfl⟩ ⟨⟨rfl, rfl, trivial⟩, ⟨rfl, rfl, rfl, ?_, ?_⟩, ⟨?_, ?_⟩, ⟨?_, ?_⟩,
      ⟨?_, ?_⟩, ⟨?_, ?_⟩, ⟨?_, ?_⟩, ⟨?_, ?_, trivial⟩, ⟨?_, ?_, ?_, ?_, ?_⟩, ⟨?_, ?_⟩,
      trivial⟩ <;> decide +kernel
  · decide +kernel
  · decide +kernel
  · intro h
    have hlisted : (⟨[0x61], 1⟩ : Subscription) ∈ n.subManager.getClientSubs [0x63] := by
      decide +kernel
    have hnot : (⟨0, 1⟩ : SubscriberEntry) ∉ n.tree.root.subscribersAt
        (TopicTree.filterPath [0x61]) := by
      decide +kernel
    exact hnot ((h 1).mp hlisted)
  · decide +kernel
  · decide +kernel
  · decide +kernel
  · refine .of_allowed ⟨(), rfl⟩ ⟨⟨rfl, rfl, trivial⟩, ⟨rfl, rfl, rfl, ?_, ?_⟩, ⟨?_, ?_⟩, ⟨?_, ?_⟩,
      ⟨?_, ?_⟩, trivial⟩ <;> decide +kernel
  · decide +kernel
  · decide +kernel
  · intro h
    have hlisted : (⟨[0x61], 0⟩ : Subscription) ∈ m.subManager.getClientSubs [0x63] := by
      decide +kernel
    have hnot : (⟨0, 0⟩ : SubscriberEntry) ∉ m.tree.root.subscribersAt
        (TopicTree.filterPath [0x61]) := by
      decide +kernel
    exact hnot ((h 0).mp hlisted)
  · refine .of_allowed ⟨(), rfl⟩ ⟨⟨rfl, rfl, trivial⟩, ⟨rfl, rfl, rfl, ?_, ?_⟩, ⟨?_, ?_⟩, ⟨?_, ?_⟩,
      ⟨?_, ?_⟩, ⟨?_, ?_⟩, trivial⟩ <;> decide +kernel
  · decide +kernel
  · decide +kernel
  · decide +kernel
  · intro h
    have hlive : (⟨0, 1⟩ : SubscriberEntry) ∈ k.tree.root.subscribersAt
        (TopicTree.filterPath [0x61]) := by
      decide +kernel
    have hnot : (⟨[0x61], 1⟩ : Subscription) ∉ k.subManager.getClientSubs [0x64] := by
      decide +kernel
    exact hnot ((h 1).mpr hlive)

end JellyBroker
