import JellyBroker.Broker.Registry
import JellyBroker.Broker.Unconnected
import JellyBroker.Topic.Subscriptions
/-!
# Sessions that stand by

What a step leaves of a session that is not the one whose packet it handles.
The stores of the broker are by client id, and the registry keeps the client
ids of connected sessions apart, so they stay as they are while the session is
connected.  Its entries in the topic tree stay in any case: `close` takes them
out for a clean session only, and only those that the subscription manager
lists, and for a clean session it lists none.
-/

namespace JellyBroker

open JellyBroker.Lib JellyBroker.Packet JellyBroker.Qos JellyBroker.Topic

variable {α : Type}

/-! ## Closing -/

theorem field_close {β : Type} {field : Session → β}
    (hfield : ∀ s : Session, field { s with connected := false, socketOpen := false } = field s)
    (x : SessionId) (b : Broker α) (s : SessionId) :
    field ((Session.close false x b).sessions s) = field (b.sessions s) := by
  by_cases hconn : (b.sessions x).connected = true
  · obtain ⟨tree, subManager, hclose⟩ := Session.close_of_connected hconn
    rw [hclose]
    dsimp only
    by_cases heq : s = x
    · rw [heq, Function.update_self, hfield]
    · rw [Function.update_of_ne heq]
  · rw [Bool.not_eq_true] at hconn
    rw [Session.close_of_idle hconn]

theorem clientId_close (x : SessionId) (b : Broker α) (s : SessionId) :
    ((Session.close false x b).sessions s).clientId = (b.sessions s).clientId :=
  field_close (fun _ => rfl) x b s

theorem cleanSession_close (x : SessionId) (b : Broker α) (s : SessionId) :
    ((Session.close false x b).sessions s).cleanSession = (b.sessions s).cleanSession :=
  field_close (fun _ => rfl) x b s

/-- What `deliver` leaves of any session apart from the connection and the
queue. -/
theorem field_deliver {β : Type} {field : Session → β}
    (hclose : ∀ s : Session, field { s with connected := false, socketOpen := false } = field s)
    (hqueue : ∀ packet s, field (Session.enqueue packet s) = field s) (env : Env α)
    (x : SessionId) (packet : OutPacket) (b : Broker α) (s : SessionId) :
    field ((Session.deliver env x packet b).sessions s) = field (b.sessions s) := by
  unfold Session.deliver
  dsimp only
  split_ifs
  · rfl
  · exact field_close hclose x _ s
  · by_cases heq : s = x
    · rw [heq, Broker.sessions_modifySession_self, hqueue]
      rfl
    · rw [Broker.sessions_modifySession_of_ne heq]
      rfl

theorem connected_of_close {x s : SessionId} {b : Broker α}
    (h : ((Session.close false x b).sessions s).connected = true) :
    (b.sessions s).connected = true := by
  by_contra hidle
  rw [Bool.not_eq_true] at hidle
  rw [staysUnconnected_frame s |>.closeAny b x hidle] at h
  cases h

theorem sameEntries_dropSubscriptions {x other : SessionId} (hne : x ≠ other) (b : Broker α) :
    SameEntries other b.tree (Session.dropSubscriptions x b).tree := by
  refine Session.dropSubscriptions_rule (SameEntries.refl other) SameEntries.trans ?_ b
  intro tree filter
  exact sameEntries_unsubscribe tree filter hne

/-- The tree stays as it is if no subscriptions are stored for a clean
session. -/
theorem tree_dropSubscriptions {x : SessionId} {b : Broker α}
    (h : (b.sessions x).cleanSession = true →
      b.subManager.getClientSubs (b.sessions x).clientId = []) :
    (Session.dropSubscriptions x b).tree = b.tree := by
  unfold Session.dropSubscriptions
  dsimp only
  split_ifs with hclean
  · rw [h hclean.2]
    rfl
  · rfl

theorem dropSubscriptions_of_persistent {x : SessionId} {b : Broker α}
    (h : (b.sessions x).cleanSession = false) : Session.dropSubscriptions x b = b := by
  unfold Session.dropSubscriptions
  dsimp only
  rw [if_neg]
  rw [h]
  simp

theorem getClientSubs_dropSubscriptions {x : SessionId} {b : Broker α} {clientId : Bytes}
    (hne : (b.sessions x).clientId ≠ clientId) :
    (Session.dropSubscriptions x b).subManager.getClientSubs clientId =
      b.subManager.getClientSubs clientId := by
  unfold Session.dropSubscriptions
  dsimp only
  split_ifs
  · rw [SubscriptionManager.getClientSubs_removeClient, if_neg hne.symm]
  · rfl

theorem incoming_clearClientIncoming {own clientId : Bytes} (hne : own ≠ clientId)
    (delivery : DeliveryEngine) :
    (Session.clearClientIncoming own delivery).incomingQos2.lookup clientId =
      delivery.incomingQos2.lookup clientId := by
  unfold Session.clearClientIncoming
  split_ifs
  · rfl
  · rw [Map.lookup_erase_ite, if_neg hne.symm]

/-! ## The session that stands by -/

/-- The stored subscriptions and the incoming messages of a client are as
before. -/
structure SameStores (clientId : Bytes) (b b' : Broker α) : Prop where
  stored : b'.subManager.getClientSubs clientId = b.subManager.getClientSubs clientId
  incoming : b'.delivery.incomingQos2.lookup clientId = b.delivery.incomingQos2.lookup clientId

/-- The session `other` is connected as `clientId` if it is connected.  No other
session is, if the client id is reserved. -/
structure Bystander (other : SessionId) (clientId : Bytes) (reserved : Prop) (b : Broker α) :
    Prop where
  registered : Registered b
  client : (b.sessions other).connected = true → (b.sessions other).clientId = clientId
  claims : (b.sessions other).connected = true → reserved
  alone : reserved → ∀ s ≠ other, (b.sessions s).connected = true →
    (b.sessions s).clientId ≠ clientId
  tidy : (b.sessions other).connected = true → (b.sessions other).cleanSession = true →
    b.subManager.getClientSubs clientId = []

/-- What is left of the session and its client.  The subscriptions stored for a
persistent session stay when it is closed. -/
structure Endures (other : SessionId) (clientId : Bytes) (reserved : Prop) (b b' : Broker α) :
    Prop where
  entries : SameEntries other b.tree b'.tree
  connected : (b'.sessions other).connected = true → (b.sessions other).connected = true
  client : (b'.sessions other).connected = true →
    (b'.sessions other).clientId = (b.sessions other).clientId
  clean : (b'.sessions other).connected = true →
    (b'.sessions other).cleanSession = (b.sessions other).cleanSession
  stored : reserved →
    ((b.sessions other).connected = true →
      (b'.sessions other).connected = true ∨ (b.sessions other).cleanSession = false) →
    b'.subManager.getClientSubs clientId = b.subManager.getClientSubs clientId
  incoming : reserved →
    ((b.sessions other).connected = true → (b'.sessions other).connected = true) →
    b'.delivery.incomingQos2.lookup clientId = b.delivery.incomingQos2.lookup clientId

theorem Endures.trans {other : SessionId} {clientId : Bytes} {reserved : Prop}
    {b₁ b₂ b₃ : Broker α} (h : Endures other clientId reserved b₁ b₂)
    (h' : Endures other clientId reserved b₂ b₃) : Endures other clientId reserved b₁ b₃ where
  entries := h.entries.trans h'.entries
  connected hconn := h.connected (h'.connected hconn)
  client hconn := (h'.client hconn).trans (h.client (h'.connected hconn))
  clean hconn := (h'.clean hconn).trans (h.clean (h'.connected hconn))
  stored hreserved hstays := by
    rw [h'.stored hreserved, h.stored hreserved]
    · intro hconn
      rcases hstays hconn with hconn' | hclean
      · exact Or.inl (h'.connected hconn')
      · exact Or.inr hclean
    · intro hconn
      rcases hstays (h.connected hconn) with hconn' | hclean
      · exact Or.inl hconn'
      · right
        rw [h.clean hconn]
        exact hclean
  incoming hreserved hstays := by
    rw [h'.incoming hreserved, h.incoming hreserved]
    · intro hconn
      exact h'.connected (hstays hconn)
    · intro hconn
      exact hstays (h.connected hconn)

/-- The session that stands by, and the one whose packet is handled, which has
another client id if it was connected when the packet came. -/
structure Alongside (other sid : SessionId) (clientId : Bytes) (reserved : Prop)
    (own : Option Bytes) (b : Broker α) : Prop extends Bystander other clientId reserved b where
  own : ∀ id ∈ own, (b.sessions sid).clientId = id ∧ (reserved → id ≠ clientId)

/-- The session `other` stands by in a change that `sid` makes. -/
def Passes (other sid : SessionId) (clientId : Bytes) (reserved : Prop) (own : Option Bytes)
    (b b' : Broker α) : Prop :=
  Alongside other sid clientId reserved own b →
    Alongside other sid clientId reserved own b' ∧ Endures other clientId reserved b b'

namespace Passes

variable {other sid : SessionId} {clientId : Bytes} {reserved : Prop}
  {own : Option Bytes}

theorem trans {b₁ b₂ b₃ : Broker α} (h : Passes other sid clientId reserved own b₁ b₂)
    (h' : Passes other sid clientId reserved own b₂ b₃) :
    Passes other sid clientId reserved own b₁ b₃ := by
  intro halongside
  obtain ⟨halongside₂, hendures⟩ := h halongside
  obtain ⟨halongside₃, hendures'⟩ := h' halongside₂
  exact ⟨halongside₃, hendures.trans hendures'⟩

theorem of_change {b b' : Broker α} (hregistered : Registered b → Registered b')
    (hconn : ∀ s, (b'.sessions s).connected = true → (b.sessions s).connected = true)
    (hclient : ∀ s, (b'.sessions s).connected = true →
      (b'.sessions s).clientId = (b.sessions s).clientId)
    (hclean : (b'.sessions other).connected = true →
      (b'.sessions other).cleanSession = (b.sessions other).cleanSession)
    (hown : own ≠ none → (b'.sessions sid).clientId = (b.sessions sid).clientId)
    (hentries : Alongside other sid clientId reserved own b → SameEntries other b.tree b'.tree)
    (hstored : Alongside other sid clientId reserved own b → reserved →
      ((b.sessions other).connected = true →
        (b'.sessions other).connected = true ∨ (b.sessions other).cleanSession = false) →
      b'.subManager.getClientSubs clientId = b.subManager.getClientSubs clientId)
    (hincoming : Alongside other sid clientId reserved own b → reserved →
      ((b.sessions other).connected = true → (b'.sessions other).connected = true) →
      b'.delivery.incomingQos2.lookup clientId = b.delivery.incomingQos2.lookup clientId) :
    Passes other sid clientId reserved own b b' := by
  intro h
  have hendures : Endures other clientId reserved b b' :=
    ⟨hentries h, hconn other, hclient other, hclean, hstored h, hincoming h⟩
  refine ⟨⟨⟨hregistered h.registered, ?_, ?_, ?_, ?_⟩, ?_⟩, hendures⟩
  · intro hother
    rw [hclient other hother]
    exact h.client (hconn other hother)
  · intro hother
    exact h.claims (hconn other hother)
  · intro hreserved s hne hs
    rw [hclient s hs]
    exact h.alone hreserved s hne (hconn s hs)
  · intro hother hcleans
    have hbefore := hconn other hother
    rw [hclean hother] at hcleans
    rw [hendures.stored (h.claims hbefore) fun _ => Or.inl hother]
    exact h.tidy hbefore hcleans
  · intro id hid
    rw [hown (Option.ne_none_iff_exists'.mpr ⟨id, hid⟩)]
    exact h.own id hid

theorem of_stores {b b' : Broker α} (hregistered : Registered b → Registered b')
    (hsessions : b'.sessions = b.sessions)
    (hentries : SameEntries other b.tree b'.tree)
    (hstores : Alongside other sid clientId reserved own b → reserved → SameStores clientId b b') :
    Passes other sid clientId reserved own b b' := by
  refine of_change hregistered ?_ ?_ ?_ ?_ (fun _ => hentries)
    (fun h hreserved _ => (hstores h hreserved).stored)
    fun h hreserved _ => (hstores h hreserved).incoming
  · intro s hs
    rw [hsessions] at hs
    exact hs
  · intro s _
    rw [hsessions]
  · intro _
    rw [hsessions]
  · intro _
    rw [hsessions]

/-- Changes outside the sessions, the subscriptions and the incoming
messages. -/
theorem of_same {b b' : Broker α} (hregistered : Registered b → Registered b')
    (hsessions : b'.sessions = b.sessions) (htree : b'.tree = b.tree)
    (hstored : b'.subManager = b.subManager)
    (hincoming : b'.delivery.incomingQos2 = b.delivery.incomingQos2) :
    Passes other sid clientId reserved own b b' := by
  refine of_stores hregistered hsessions ?_ ?_
  · rw [htree]
    exact .refl other b.tree
  · intro _ _
    refine ⟨?_, ?_⟩
    · rw [hstored]
    · rw [hincoming]

theorem of_session {b b' : Broker α} {x : SessionId} {change : Session → Session}
    (hregistered : Registered b → Registered b')
    (hsessions : b'.sessions = (b.modifySession x change).sessions) (htree : b'.tree = b.tree)
    (hstored : b'.subManager = b.subManager)
    (hincoming : b'.delivery.incomingQos2 = b.delivery.incomingQos2)
    (hconn : ∀ s, (change s).connected = true → s.connected = true ∧
      (change s).clientId = s.clientId ∧ (change s).cleanSession = s.cleanSession)
    (hown : own ≠ none → ∀ s, (change s).clientId = s.clientId) :
    Passes other sid clientId reserved own b b' := by
  have hafter (s : SessionId) (hs : (b'.sessions s).connected = true) :
      (b.sessions s).connected = true ∧ (b'.sessions s).clientId = (b.sessions s).clientId ∧
        (b'.sessions s).cleanSession = (b.sessions s).cleanSession := by
    rw [hsessions] at hs ⊢
    by_cases heq : s = x
    · rw [heq, Broker.sessions_modifySession_self] at hs ⊢
      exact hconn _ hs
    · rw [Broker.sessions_modifySession_of_ne heq] at hs ⊢
      exact ⟨hs, rfl, rfl⟩
  refine of_change hregistered (fun s hs => (hafter s hs).1) (fun s hs => (hafter s hs).2.1)
    (fun hs => (hafter other hs).2.2) ?_ ?_ ?_ ?_
  · intro hactive
    rw [hsessions]
    by_cases heq : sid = x
    · rw [heq, Broker.sessions_modifySession_self, hown hactive]
    · rw [Broker.sessions_modifySession_of_ne heq]
  · intro _
    rw [htree]
    exact .refl other b.tree
  · intro _ _ _
    rw [hstored]
  · intro _ _ _
    rw [hincoming]

theorem modifySession (b : Broker α) (x : SessionId) {change : Session → Session}
    (hregistered : Registered b → Registered (b.modifySession x change))
    (hconn : ∀ s, (change s).connected = true → s.connected = true)
    (hclient : ∀ s, (change s).clientId = s.clientId)
    (hclean : ∀ s, (change s).cleanSession = s.cleanSession) :
    Passes other sid clientId reserved own b (b.modifySession x change) := by
  refine of_session hregistered rfl rfl rfl rfl ?_ fun _ => hclient
  intro s hs
  exact ⟨hconn s hs, hclient s, hclean s⟩

/-- Closing a session does nothing to a client that another one is connected
as. -/
theorem close (b : Broker α) (x : SessionId) (hconn : (b.sessions x).connected = true) :
    Passes other sid clientId reserved own b (Session.close false x b) := by
  have htopics := Session.topics_close hconn
  apply of_change
  · intro hregistered
    exact hregistered.close hconn
  · intro s
    exact connected_of_close
  · intro s _
    exact clientId_close x b s
  · intro _
    exact cleanSession_close x b other
  · intro _
    exact clientId_close x b sid
  · intro h
    rw [htopics.1]
    by_cases heq : x = other
    · rw [heq] at hconn ⊢
      rw [tree_dropSubscriptions]
      · exact .refl other b.tree
      · intro hclean
        rw [h.client hconn]
        exact h.tidy hconn hclean
    · exact sameEntries_dropSubscriptions heq b
  · intro h hreserved hstays
    rw [htopics.2]
    by_cases heq : x = other
    · rw [heq] at hconn hstays ⊢
      rw [Session.connected_close] at hstays
      rcases hstays hconn with hopen | hpersistent
      · cases hopen
      · rw [dropSubscriptions_of_persistent hpersistent]
    · exact getClientSubs_dropSubscriptions (h.alone hreserved x heq hconn)
  · intro h hreserved hstays
    by_cases heq : x = other
    · rw [heq] at hconn hstays
      rw [Session.connected_close] at hstays
      cases hstays hconn
    · obtain ⟨tree, subManager, hclose⟩ := Session.close_of_connected hconn
      rw [hclose]
      exact incoming_clearClientIncoming (h.alone hreserved x heq hconn) b.delivery

end Passes

theorem passes_core (other sid : SessionId) (clientId : Bytes) (reserved : Prop)
    (own : Option Bytes) :
    CoreFrame (Passes (α := α) other sid clientId reserved own) where
  refl _ := .of_same id rfl rfl rfl rfl
  trans := Passes.trans
  neutral _ _ _ := .of_same (fun h => h.unchanged rfl rfl rfl) rfl rfl rfl rfl
  noteHanded _ _ := .of_same (fun h => h.unchanged rfl rfl rfl) rfl rfl rfl rfl
  plumbing b x change hplumbing := by
    refine .modifySession b x (registered_frame.plumbing b x change hplumbing) ?_
      hplumbing.clientId hplumbing.cleanSession
    intro s hs
    rw [← hplumbing.connected]
    exact hs
  close b x hconn := .close b x hconn

theorem passes_tables (other sid : SessionId) (clientId : Bytes) (reserved : Prop)
    (own : Option Bytes) :
    TablesFree (Passes (α := α) other sid clientId reserved own) where
  pending _ _ := .of_same (fun h => h.unchanged rfl rfl rfl) rfl rfl rfl rfl
  outgoing _ _ := .of_same (fun h => h.unchanged rfl rfl rfl) rfl rfl rfl rfl
  noteSent _ _ := .of_same (fun h => h.unchanged rfl rfl rfl) rfl rfl rfl rfl
  noteSettled _ _ := .of_same (fun h => h.unchanged rfl rfl rfl) rfl rfl rfl rfl

theorem passes_auth (other sid : SessionId) (clientId : Bytes) (reserved : Prop)
    (own : Option Bytes) :
    AuthFree (Passes (α := α) other sid clientId reserved own) where
  auth _ _ := .of_same (fun h => h.unchanged rfl rfl rfl) rfl rfl rfl rfl
  authTables _ _ _ := .of_same (fun h => h.unchanged rfl rfl rfl) rfl rfl rfl rfl

/-! ## The packets of another session -/

section Handlers

variable {env : Env α} {other sid : SessionId} {clientId : Bytes} {reserved : Prop}
  {own : Option Bytes}

theorem Passes.ingest {id : Bytes} (hid : id ∈ own) :
    IngestOf id (Passes (α := α) other sid clientId reserved own) where
  incoming b store hothers := by
    refine .of_stores (fun h => h.unchanged rfl rfl rfl) rfl (.refl other b.tree) ?_
    intro h hreserved
    exact ⟨rfl, hothers clientId ((h.own id hid).2 hreserved).symm⟩
  noteIngest _ _ _ := .of_same (fun h => h.unchanged rfl rfl rfl) rfl rfl rfl rfl

theorem passes_loop : LoopClosed env sid (fun _ => True)
    (Passes other sid clientId reserved own) where
  toSessionFrame := (passes_core other sid clientId reserved own).session env sid
  noteHandled _ _ := .of_same (fun h => h.unchanged rfl rfl rfl) rfl rfl rfl rfl
  rearm b _ := by
    refine .modifySession b sid (fun h => h.rearm sid) ?_ ?_ ?_
    · intro s
      unfold Session.rearm
      split
      · exact id
      · exact id
    · intro s
      unfold Session.rearm
      split <;> rfl
    · intro s
      unfold Session.rearm
      split <;> rfl
  stopReading _ := .of_same (fun h => h.stopReading) rfl rfl rfl rfl

theorem Passes.storeRetained (pub : PublishPacket) (b : Broker α) :
    Passes other sid clientId reserved own b (Session.storeRetained env pub b) := by
  unfold Session.storeRetained
  split_ifs
  · refine .of_stores (fun h => h.unchanged rfl rfl rfl) rfl ?_ (fun _ _ => ⟨rfl, rfl⟩)
    exact sameEntries_setRetained env.cfg b.tree pub.topic _ other
  · exact .of_same id rfl rfl rfl rfl

theorem Passes.recordSubscription (hne : sid ≠ other) {id : Bytes} (hid : id ∈ own)
    (filter : SubscribePacket.Filter) (b : Broker α) :
    Passes other sid clientId reserved own b
      (JellyBroker.recordSubscription sid filter b) := by
  refine .of_stores (fun h => h.unchanged rfl rfl rfl) rfl ?_ ?_
  · exact sameEntries_subscribe b.tree filter.topicFilter hne
  · intro h hreserved
    refine ⟨?_, rfl⟩
    unfold JellyBroker.recordSubscription
    dsimp only
    split_ifs
    · rfl
    · obtain ⟨hsame, hapart⟩ := h.own id hid
      rw [SubscriptionManager.getClientSubs_add, hsame, if_neg (hapart hreserved).symm]

theorem Passes.unsubscribeFrom (hne : sid ≠ other) {id : Bytes} (hid : id ∈ own) (filter : Bytes)
    (b : Broker α) :
    Passes other sid clientId reserved own b (Session.unsubscribeFrom sid filter b) := by
  refine .of_stores (fun h => h.unchanged rfl rfl rfl) rfl ?_ ?_
  · exact sameEntries_unsubscribe b.tree filter hne
  · intro h hreserved
    refine ⟨?_, rfl⟩
    unfold Session.unsubscribeFrom
    dsimp only
    split_ifs
    · rfl
    · obtain ⟨hsame, hapart⟩ := h.own id hid
      rw [SubscriptionManager.getClientSubs_remove, hsame, if_neg (hapart hreserved).symm]

theorem Passes.disconnect (b : Broker α) (x : SessionId) :
    Passes other sid clientId reserved own b
      (b.modifySession x fun s => { s with connected := false }) :=
  .modifySession b x (registered_frame.disconnect b x) (fun _ hs => by cases hs) (fun _ => rfl)
    fun _ => rfl

theorem sessions_restoreSubscriptions (x : SessionId) (conn : ConnectPacket) (b : Broker α) :
    (Session.restoreSubscriptions x conn b).sessions = b.sessions := by
  unfold Session.restoreSubscriptions
  split_ifs <;> rfl

theorem Passes.restoreSubscriptions (hne : sid ≠ other) {conn : ConnectPacket} {b : Broker α}
    (hapart : reserved → clientId ≠ conn.clientId) :
    Passes other sid clientId reserved own b (Session.restoreSubscriptions sid conn b) := by
  have hentries : SameEntries other b.tree (Session.restoreSubscriptions sid conn b).tree := by
    refine Session.restoreSubscriptions_rule (SameEntries.refl other) SameEntries.trans ?_ b
    intro _ tree sub
    exact sameEntries_subscribe tree sub.topicFilter hne
  revert hentries
  unfold Session.restoreSubscriptions
  split_ifs
  · intro hentries
    refine .of_stores (fun h => h.unchanged rfl rfl rfl) rfl hentries ?_
    intro _ hreserved
    refine ⟨?_, rfl⟩
    rw [SubscriptionManager.getClientSubs_removeClient, if_neg (hapart hreserved)]
  · intro hentries
    exact .of_stores (fun h => h.unchanged rfl rfl rfl) rfl hentries fun _ _ => ⟨rfl, rfl⟩

theorem Passes.register (hne : sid ≠ other) (hidle : own = none) {conn : ConnectPacket}
    {b : Broker α} (hreading : b.reading = some sid)
    (hapart : reserved → clientId ≠ conn.clientId)
    (hclear : ∀ old, ¬Displaces b sid conn.clientId old) :
    Passes other sid clientId reserved own b (Session.register env sid conn b) := by
  have hsame (s : SessionId) (hs : s ≠ sid) :
      (Session.register env sid conn b).sessions s = b.sessions s :=
    Broker.sessions_modifySession_of_ne hs _ _
  have hother := hsame other hne.symm
  intro h
  refine ⟨⟨⟨h.registered.register hreading hclear, ?_, ?_, ?_, ?_⟩, ?_⟩,
    ⟨.refl other b.tree, ?_, ?_, ?_, fun _ _ => rfl, fun _ _ => rfl⟩⟩
  · rw [hother]
    exact h.client
  · rw [hother]
    exact h.claims
  · intro hreserved s hs hconn
    by_cases heq : s = sid
    · rw [heq]
      change (Function.update b.sessions sid (Session.adopt env.cfg conn (b.sessions sid))
        sid).clientId ≠ clientId
      rw [Function.update_self]
      exact (hapart hreserved).symm
    · rw [hsame s heq] at hconn ⊢
      exact h.alone hreserved s hs hconn
  · rw [hother]
    exact h.tidy
  · intro id hid
    rw [hidle] at hid
    cases hid
  · rw [hother]
    exact id
  · rw [hother]
    exact fun _ => rfl
  · rw [hother]
    exact fun _ => rfl

/-- A CONNECT registers another client id: a session connected under this one
would have to be closed first. -/
theorem Passes.connect (hne : sid ≠ other) (hidle : own = none) {conn : ConnectPacket}
    {b : Broker α} (hreading : b.reading = some sid)
    (hunused : reserved → (b.sessions other).connected = false → clientId ≠ conn.clientId)
    (hclear : ∀ old, ¬Displaces b sid conn.clientId old) :
    Passes other sid clientId reserved own b
      (Session.restoreSubscriptions sid conn (Session.register env sid conn b)) := by
  intro h
  have hapart : reserved → clientId ≠ conn.clientId := by
    intro hreserved
    by_cases hconn : (b.sessions other).connected = true
    · have hentry := h.registered.client other hconn
      intro hsame
      rw [h.client hconn, hsame] at hentry
      exact hclear other ⟨hentry, h.registered.alive other (Or.inl hconn), hne.symm, hconn⟩
    · exact hunused hreserved (by simpa using hconn)
  have hregister : Passes other sid clientId reserved own b (Session.register env sid conn b) :=
    .register hne hidle hreading hapart hclear
  exact (hregister.trans (.restoreSubscriptions hne hapart)) h

end Handlers

/-! ## Steps -/

def activeId (b : Broker α) (sid : SessionId) : Option Bytes :=
  if (b.sessions sid).connected then some (b.sessions sid).clientId else none

section Steps

variable {env : Env α} {n : Runtime α} {other sid : SessionId} {clientId : Bytes} {reserved : Prop}

theorem passes_turn : TopicTurn env n sid
    (Passes other sid clientId reserved (activeId n.toBroker sid)) where
  toLoopClosed := passes_loop
  tables := passes_tables other sid clientId reserved _
  auth := passes_auth other sid clientId reserved _
  ingest hconn := Passes.ingest (if_pos hconn)
  retained := Passes.storeRetained
  disconnect := Passes.disconnect
  stop _ := .of_same (fun h => h.unchanged rfl rfl rfl) rfl rfl rfl rfl

theorem turn_passes (hne : sid ≠ other) (henabled : n.toBroker.Enabled (.turn sid))
    (hunused : reserved → (n.sessions other).connected = false →
      ∀ conn, Connects env n sid conn → clientId ≠ conn.clientId) :
    Passes other sid clientId reserved (activeId n.toBroker sid) n.toBroker
      (n.step env (.turn sid)).toBroker := by
  have hactive (hconn : (n.sessions sid).connected = true) :
      (n.sessions sid).clientId ∈ activeId n.toBroker sid := if_pos hconn
  apply passes_turn.step henabled
  · intro conn b hconnects hquiet hreading hclear
    have hidle : activeId n.toBroker sid = none := by
      unfold activeId
      rw [hconnects.first]
      rfl
    apply Passes.connect hne hidle hreading _ hclear
    intro hreserved hother
    rw [hquiet.sessions] at hother
    exact hunused hreserved hother conn hconnects
  · intro sub hsub filter _ _ b _
    exact .recordSubscription hne (hactive hsub.1) filter b
  · intro unsub hunsub filter _ b
    exact .unsubscribeFrom hne (hactive hunsub.1) filter b

theorem passes_io (env : Env α) (other : SessionId) (clientId : Bytes) (reserved : Prop) :
    IoClosed env (Passes other other clientId reserved none) where
  core := passes_core other other clientId reserved none
  retryQos1 b id packetId := by
    have hdelivery := (passes_core (α := α) other other clientId reserved none).delivery env
    have htables := passes_tables (α := α) other other clientId reserved none
    exact hdelivery.qos1RetryMessage htables.toPendingFree id packetId b
  retryQos2 b id packetId := by
    have hdelivery := (passes_core (α := α) other other clientId reserved none).delivery env
    have htables := passes_tables (α := α) other other clientId reserved none
    exact hdelivery.qos2RetryMessage htables.toOutgoingFree id packetId b
  beginRead b x hread := by
    have hchange : ∀ s : Session, ({ s with readPending := false } : Session).connected = true →
        s.connected = true ∧ s.clientId = s.clientId ∧ s.cleanSession = s.cleanSession :=
      fun _ hs => ⟨hs, rfl, rfl⟩
    exact .of_session (fun h => h.beginRead hread) rfl rfl rfl rfl hchange fun _ _ => rfl
  dropRead b x := by
    refine .modifySession b x ?_ (fun _ => id) (fun _ => rfl) fun _ => rfl
    intro h
    exact h.modifySession x (fun _ => rfl) (fun _ => id) (fun _ => rfl) fun _ hs => by cases hs
  clock _ _ := .of_same (fun h => h.unchanged rfl rfl rfl) rfl rfl rfl rfl
  accept b ip := by
    have hregistered (h : Registered b) : Registered (Server.onAccept env.cfg ip b) :=
      h.onAccept env.cfg ip
    unfold Server.onAccept at hregistered ⊢
    dsimp only at hregistered ⊢
    split_ifs at hregistered ⊢
    · exact .of_same id rfl rfl rfl rfl
    · exact .of_same hregistered rfl rfl rfl rfl
    · have hfresh : ∀ s : Session, ({ remoteIp := ip, readPending := true } : Session).connected =
          true → s.connected = true ∧ [] = s.clientId ∧ true = s.cleanSession := by
        intro s hs
        cases hs
      exact .of_session hregistered rfl rfl rfl rfl hfresh fun hnone => absurd rfl hnone
  destroy b x _ howned := by
    refine .modifySession b x (fun h => h.destroy howned) ?_ (fun _ => rfl) fun _ => rfl
    intro s hs
    cases hs

variable (env) in
theorem step_endures {e : Event} (h : Bystander other clientId reserved n.toBroker)
    (henabled : n.toBroker.Enabled e) (hturn : e ≠ .turn other)
    (hunused : reserved → (n.sessions other).connected = false →
      ∀ sid conn, e = .turn sid → Connects env n sid conn → clientId ≠ conn.clientId) :
    Bystander other clientId reserved (n.step env e).toBroker ∧
      Endures other clientId reserved n.toBroker (n.step env e).toBroker := by
  by_cases hread : ∃ sid, e = .turn sid
  · obtain ⟨sid, rfl⟩ := hread
    have hne : sid ≠ other := fun heq => hturn (congrArg Event.turn heq)
    have halongside : Alongside other sid clientId reserved (activeId n.toBroker sid)
        n.toBroker := by
      refine ⟨h, ?_⟩
      intro id hid
      unfold activeId at hid
      split_ifs at hid with hconn
      · have heq : (n.sessions sid).clientId = id := Option.some.inj hid
        refine ⟨heq, ?_⟩
        intro hreserved
        rw [← heq]
        exact h.alone hreserved sid hne hconn
      · cases hid
    have hpasses : Passes other sid clientId reserved (activeId n.toBroker sid) n.toBroker
        (n.step env (.turn sid)).toBroker :=
      turn_passes hne henabled fun hreserved hidle conn => hunused hreserved hidle sid conn rfl
    exact ⟨(hpasses halongside).1.toBystander, (hpasses halongside).2⟩
  · have hnone : Alongside other other clientId reserved none n.toBroker := ⟨h, fun _ => nofun⟩
    obtain ⟨halongside, hendures⟩ := (passes_io env other clientId reserved).step
      (fun sid heq => hread ⟨sid, heq⟩) henabled hnone
    exact ⟨halongside.toBystander, hendures⟩

end Steps

/-! ## The session that a CONNECT connects -/

theorem field_finishConnect {β : Type} {field : Session → β}
    (hclose : ∀ s : Session, field { s with connected := false, socketOpen := false } = field s)
    (hplumbing : ∀ change s, Plumbing change → field (change s) = field s) (env : Env α)
    (sid : SessionId) (conn : ConnectPacket) (b : Broker α) :
    field ((Session.finishConnect env sid conn b).sessions sid) = field (b.sessions sid) := by
  unfold Session.finishConnect
  dsimp only
  rw [Broker.sessions_modifySession_self, hplumbing _ _ plumbing_startKeepalive]
  rw [field_deliver hclose fun packet s => hplumbing _ s (plumbing_enqueue packet)]
  rw [sessions_restoreSubscriptions]

section Connect

variable {env : Env α} {n : Runtime α} {sid : SessionId} {conn : ConnectPacket}
  (h : Connects env n sid conn) (henabled : n.toBroker.Enabled (.turn sid))
  (hafter : ((n.step env (.turn sid)).sessions sid).connected = true)

include h henabled hafter

theorem Connects.finishes :
    ∃ b : Broker α, b.sessions = n.sessions ∧ b.tree = n.tree ∧ b.subManager = n.subManager ∧
      (n.step env (.turn sid)).toBroker =
        Session.finishConnect env sid conn (Session.register env sid conn b) := by
  obtain ⟨packet, auth, failures, bans, hturn⟩ := h.onReadTurn_eq
  have hstep : (n.step env (.turn sid)).toBroker = _ := hturn
  refine ⟨Session.forgetFailures sid (((n.toBroker.observe (.noteHandled sid packet)).setAuthTables
    failures bans).setAuth auth), rfl, rfl, rfl, ?_⟩
  have hsessions : (((n.toBroker.observe (.noteHandled sid packet)).setAuthTables failures
    bans).setAuth auth).sessions = n.sessions := rfl
  have hblocked : (((n.toBroker.observe (.noteHandled sid packet)).setAuthTables failures
    bans).setAuth auth).blocked = false := henabled.1
  generalize ((n.toBroker.observe (.noteHandled sid packet)).setAuthTables failures bans).setAuth
    auth = b at hstep hsessions hblocked
  have hclear : ∀ old, ¬Displaces b sid conn.clientId old := by
    intro old hold
    rw [hstep, acceptConnect_of_displaces env hold] at hafter
    dsimp only at hafter
    rw [Broker.sessions_modifySession_of_ne hold.2.2.1.symm] at hafter
    change (b.sessions sid).connected = true at hafter
    rw [hsessions, h.first] at hafter
    cases hafter
  rw [hstep, acceptConnect_of_clear env hblocked hclear]

theorem Connects.field {β : Type} {field : Session → β}
    (hclose : ∀ s : Session, field { s with connected := false, socketOpen := false } = field s)
    (hplumbing : ∀ change s, Plumbing change → field (change s) = field s) :
    field ((n.step env (.turn sid)).sessions sid) =
      field (Session.adopt env.cfg conn (n.sessions sid)) := by
  obtain ⟨b, hsessions, _, _, hstep⟩ := h.finishes henabled hafter
  have hself : (Session.register env sid conn b).sessions sid =
      Session.adopt env.cfg conn (b.sessions sid) := Broker.sessions_modifySession_self _ _ _
  rw [hstep, field_finishConnect hclose hplumbing, hself, hsessions]

theorem Connects.clientId : ((n.step env (.turn sid)).sessions sid).clientId = conn.clientId :=
  h.field henabled hafter (fun _ => rfl) fun _ s hplumbing => hplumbing.clientId s

theorem Connects.username : ((n.step env (.turn sid)).sessions sid).username = conn.username :=
  h.field henabled hafter (fun _ => rfl) fun _ s hplumbing => hplumbing.username s

theorem Connects.cleanSession :
    ((n.step env (.turn sid)).sessions sid).cleanSession = conn.cleanSession :=
  h.field henabled hafter (fun _ => rfl) fun _ s hplumbing => hplumbing.cleanSession s

end Connect

end JellyBroker
