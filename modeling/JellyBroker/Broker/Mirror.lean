import JellyBroker.Broker.Accounting
import JellyBroker.Broker.Registry
import JellyBroker.Broker.Segmentation
import JellyBroker.Broker.Unconnected
/-!
# The registry and the connected sessions

`handle_connect` makes an entry in `active_clients` and only `close` removes
one.  A session can stop being connected without `close`, and `close` does not
look for an empty client id, so the registry has an entry for every connected
session but may have others.
-/

namespace JellyBroker

open JellyBroker.Lib JellyBroker.Packet

variable {α : Type}

/-! ## Connected sessions are read from -/

/-- A read is pending for every connected session but the one whose loop is
running. -/
def Attended (b : Broker α) : Prop :=
  ∀ sid, (b.sessions sid).connected = true →
    (b.sessions sid).readPending = true ∨ b.reading = some sid

theorem readPending_onReadTurn {env : Env α} {n : Runtime α} {sid other : SessionId}
    (hne : other ≠ sid) (hreading : n.reading = some sid) (hblocked : n.blocked = false) :
    ((Session.onReadTurn env sid n).sessions other).readPending =
      (n.sessions other).readPending := by
  unfold Session.onReadTurn
  rcases (n.parsers sid).tryExtract env.cfg with ⟨_ | packet, parser⟩
  · dsimp only
    unfold Session.endRead
    split_ifs
    · exact (keepsReads_frame.closeAny n.toBroker sid).pending other
    · change ((n.toBroker.modifySession sid Session.rearm).sessions other).readPending = _
      rw [Broker.sessions_modifySession_of_ne hne]
  · have hpacket := (keepsReads_packetClosed env sid).handlePacket packet
      (b := n.toBroker.observe (.noteHandled sid packet)) hreading hblocked
    dsimp only [Session.onPacket]
    generalize Session.handlePacket env sid packet _ = result at hpacket ⊢
    obtain ⟨b, _ | e⟩ := result
    · exact hpacket.pending other
    · exact ((keepsReads_frame.closeAny b sid).pending other).trans (hpacket.pending other)

theorem attended_onReadTurn_self {env : Env α} {n : Runtime α} {sid : SessionId}
    (hreading : n.reading = some sid) (hblocked : n.blocked = false)
    (hconn : ((Session.onReadTurn env sid n).sessions sid).connected = true) :
    ((Session.onReadTurn env sid n).sessions sid).readPending = true ∨
      (Session.onReadTurn env sid n).reading = some sid := by
  unfold Session.onReadTurn at hconn ⊢
  generalize (n.parsers sid).tryExtract env.cfg = extracted at hconn ⊢
  obtain ⟨_ | packet, parser⟩ := extracted
  · dsimp only [Session.endRead] at hconn ⊢
    split_ifs at hconn ⊢
    · change ((Session.close false sid n.toBroker).sessions sid).connected = true at hconn
      rw [Session.connected_close] at hconn
      cases hconn
    · left
      change ((n.toBroker.modifySession sid Session.rearm).sessions sid).connected = true at hconn
      change ((n.toBroker.modifySession sid Session.rearm).sessions sid).readPending = true
      rw [Broker.sessions_modifySession_self] at hconn ⊢
      unfold Session.rearm at hconn ⊢
      split_ifs at hconn ⊢ with hstill
      · rfl
      · exact absurd hconn hstill
  · have hpacket := (keepsReads_packetClosed env sid).handlePacket packet
      (b := n.toBroker.observe (.noteHandled sid packet)) hreading hblocked
    dsimp only [Session.onPacket] at hconn ⊢
    generalize Session.handlePacket env sid packet _ = result at hpacket hconn ⊢
    obtain ⟨b, _ | e⟩ := result
    · right
      exact hpacket.reading.trans hreading
    · change ((Session.close false sid b).sessions sid).connected = true at hconn
      rw [Session.connected_close] at hconn
      cases hconn

theorem StaysUnconnected.connected {sid : SessionId} {b b' : Broker α}
    (h : StaysUnconnected sid b b') (hconn : (b'.sessions sid).connected = true) :
    (b.sessions sid).connected = true := by
  by_contra hidle
  rw [Bool.not_eq_true] at hidle
  rw [h hidle] at hconn
  cases hconn

theorem attended_turn {env : Env α} {n : Runtime α} {sid : SessionId}
    (henabled : n.toBroker.Enabled (.turn sid)) (h : Attended n.toBroker) :
    Attended (n.step env (.turn sid)).toBroker := by
  obtain ⟨hblocked, hreading⟩ := henabled
  intro other hconn
  by_cases heq : other = sid
  · rw [heq] at hconn ⊢
    exact attended_onReadTurn_self hreading hblocked hconn
  · have hstays : StaysUnconnected other n.toBroker (n.step env (.turn sid)).toBroker :=
      (staysUnconnected_turn env (Ne.symm heq)).onReadTurn hreading hblocked
    left
    refine (readPending_onReadTurn heq hreading hblocked).trans ?_
    rcases h other (hstays.connected hconn) with hpending | hother
    · exact hpending
    · rw [hreading] at hother
      exact absurd (Option.some.inj hother).symm heq

theorem reading_of_io {b : Broker α} {e : Event} (hturn : ∀ sid, e ≠ .turn sid)
    (henabled : b.Enabled e) : b.reading = none := by
  cases e with
  | turn sid => exact absurd rfl (hturn sid)
  | _ => exact henabled.2.1

/-- Between the turns every connected session waits for a read. -/
theorem attended_io {env : Env α} {n : Runtime α} {e : Event} (hturn : ∀ sid, e ≠ .turn sid)
    (henabled : n.toBroker.Enabled e) (h : Attended n.toBroker) :
    Attended (n.step env e).toBroker := by
  intro other hconn
  have hwas : (n.sessions other).connected = true :=
    ((staysUnconnected_io env other).step hturn henabled).connected hconn
  have hpending : (n.sessions other).readPending = true := by
    rcases h other hwas with hpending | hreading
    · exact hpending
    · rw [reading_of_io hturn henabled] at hreading
      cases hreading
  have hkeeps : KeepsReads n.toBroker (n.step env e).toBroker →
      ((n.step env e).sessions other).readPending = true ∨
        (n.step env e).reading = some other := by
    intro hreads
    left
    rw [hreads.pending]
    exact hpending
  have hcore := keepsReads_frame.toCoreFrame (α := α)
  have htables := (keepsReads_packetClosed env 0).tables
  cases e with
  | accept ip =>
      left
      change ((Server.onAccept env.cfg ip n.toBroker).sessions other).readPending = true
      rcases Server.sessions_onAccept env.cfg ip n.toBroker other with hsame | ⟨_, hnew⟩
      · rw [hsame]
        exact hpending
      · rw [hnew]
  | acceptError => exact hkeeps (hcore.refl _)
  | read sid chunk =>
      by_cases heq : other = sid
      · right
        rw [heq]
        rfl
      · left
        change ((n.toBroker.modifySession sid fun s => { s with readPending := false }).sessions
          other).readPending = true
        rw [Broker.sessions_modifySession_of_ne heq]
        exact hpending
  | turn sid => exact absurd rfl (hturn sid)
  | readError sid =>
      have hne : other ≠ sid := by
        intro heq
        rw [heq] at hconn
        exact absurd (hconn.symm.trans (Session.connected_close sid _)) (by decide)
      left
      refine ((hcore.closeAny _ sid).pending other).trans ?_
      rw [Broker.sessions_modifySession_of_ne hne]
      exact hpending
  | writeDone sid => exact hkeeps (hcore.plumbing _ sid _ plumbing_onWrite)
  | writeError sid =>
      refine hkeeps (hcore.trans (hcore.plumbing _ sid _ ?_) (hcore.closeAny _ sid))
      exact plumbing_of_fields _ _ (fun _ => false) fun _ => rfl
  | keepaliveTimeout sid =>
      refine hkeeps (hcore.trans (hcore.plumbing _ sid _ ?_) (hcore.closeAny _ sid))
      exact plumbing_of_fields _ (fun _ => some false) _ fun _ => rfl
  | retryQos1 clientId packetId =>
      have hdelivery := hcore.delivery env
      exact hkeeps (hdelivery.qos1RetryMessage htables.toPendingFree clientId packetId _)
  | retryQos2 clientId packetId =>
      have hdelivery := hcore.delivery env
      exact hkeeps (hdelivery.qos2RetryMessage htables.toOutgoingFree clientId packetId _)
  | destroy sid =>
      refine hkeeps (keepsReads_modifySession _ sid fun _ => rfl)
  | clock now => exact hkeeps ⟨rfl, fun _ => rfl⟩

theorem attended_step {env : Env α} {n : Runtime α} {e : Event} (henabled : n.toBroker.Enabled e)
    (h : Attended n.toBroker) : Attended (n.step env e).toBroker := by
  by_cases hturn : ∃ sid, e = .turn sid
  · obtain ⟨sid, rfl⟩ := hturn
    exact attended_turn henabled h
  · exact attended_io (fun sid heq => hturn ⟨sid, heq⟩) henabled h

/-! ## Entries of connected sessions -/

/-- Every entry names a connected session of that client id, and no session is
connected under the empty one. -/
structure Mirrors (b : Broker α) : Prop where
  entry : ∀ clientId sid, b.server.activeClients.lookup clientId = some sid →
    (b.sessions sid).connected = true ∧ (b.sessions sid).clientId = clientId
  named : ∀ sid, (b.sessions sid).connected = true → (b.sessions sid).clientId ≠ []

namespace Mirrors

theorem of_same {b b' : Broker α} (h : Mirrors b)
    (hclients : b'.server.activeClients = b.server.activeClients)
    (hconn : ∀ sid, (b'.sessions sid).connected = (b.sessions sid).connected)
    (hclient : ∀ sid, (b'.sessions sid).clientId = (b.sessions sid).clientId) : Mirrors b' where
  entry clientId sid hentry := by
    rw [hconn, hclient]
    rw [hclients] at hentry
    exact h.entry clientId sid hentry
  named sid hsid := by
    rw [hconn] at hsid
    rw [hclient]
    exact h.named sid hsid

theorem unchanged {b b' : Broker α} (h : Mirrors b)
    (hclients : b'.server.activeClients = b.server.activeClients)
    (hsessions : b'.sessions = b.sessions) : Mirrors b' := by
  refine h.of_same hclients ?_ ?_ <;> intro sid <;> rw [hsessions]

theorem modifySession {b : Broker α} (h : Mirrors b) (sid : SessionId)
    {change : Session → Session} (hconn : ∀ s, (change s).connected = s.connected)
    (hclient : ∀ s, (change s).clientId = s.clientId) : Mirrors (b.modifySession sid change) := by
  refine h.of_same rfl ?_ ?_
  · intro other
    by_cases heq : other = sid
    · rw [heq, Broker.sessions_modifySession_self, hconn]
    · rw [Broker.sessions_modifySession_of_ne heq]
  · intro other
    by_cases heq : other = sid
    · rw [heq, Broker.sessions_modifySession_self, hclient]
    · rw [Broker.sessions_modifySession_of_ne heq]

theorem close {b : Broker α} (h : Mirrors b) {sid : SessionId}
    (hconn : (b.sessions sid).connected = true) : Mirrors (Session.close false sid b) := by
  obtain ⟨tree, subManager, hclose⟩ := Session.close_of_connected hconn
  rw [hclose]
  constructor
  · intro clientId other hentry
    dsimp only [Session.unregister] at hentry ⊢
    -- The entry was there before and is not the one that is removed.
    have hbefore : b.server.activeClients.lookup clientId = some other ∧ other ≠ sid := by
      split_ifs at hentry with hown
      · rw [Map.lookup_erase_ite] at hentry
        split_ifs at hentry with hsame
        refine ⟨hentry, ?_⟩
        intro heq
        rw [heq] at hentry
        exact hsame (h.entry clientId sid hentry).2.symm
      · refine ⟨hentry, ?_⟩
        intro heq
        rw [heq] at hentry
        apply hown
        rw [(h.entry clientId sid hentry).2]
        exact ⟨(h.entry clientId sid hentry).2 ▸ h.named sid hconn, hentry⟩
    rw [Function.update_of_ne hbefore.2]
    exact h.entry clientId other hbefore.1
  · intro other hother
    by_cases heq : other = sid
    · subst heq
      simp at hother
    · dsimp only at hother ⊢
      rw [Function.update_of_ne heq] at hother ⊢
      exact h.named other hother

theorem register {env : Env α} {b : Broker α} (h : Mirrors b) {sid : SessionId}
    {conn : ConnectPacket} (hfirst : (b.sessions sid).connected = false)
    (hnamed : conn.clientId ≠ []) : Mirrors (Session.register env sid conn b) := by
  have hself : ((Session.register env sid conn b).sessions sid) =
      Session.adopt env.cfg conn (b.sessions sid) := Broker.sessions_modifySession_self _ _ _
  have hothers : ∀ other ≠ sid, (Session.register env sid conn b).sessions other =
      b.sessions other := fun other hne => Broker.sessions_modifySession_of_ne hne _ _
  constructor
  · intro clientId other hentry
    change (b.server.activeClients.insert conn.clientId sid).lookup clientId = some other at hentry
    rw [Map.lookup_insert_ite] at hentry
    split_ifs at hentry with hsame
    · rw [← Option.some.inj hentry, hself]
      exact ⟨rfl, hsame.symm⟩
    · have hbefore := h.entry clientId other hentry
      have hne : other ≠ sid := by
        intro heq
        rw [heq, hfirst] at hbefore
        exact absurd hbefore.1 (by decide)
      rw [hothers other hne]
      exact hbefore
  · intro other hother
    by_cases heq : other = sid
    · rw [heq, hself]
      exact hnamed
    · rw [hothers other heq] at hother ⊢
      exact h.named other hother

theorem destroy {b : Broker α} (h : Mirrors b) (hattended : Attended b) {sid : SessionId}
    (howned : ¬Session.Owned b sid) : Mirrors (b.modifySession sid Session.destruct) := by
  -- A connected session waits for a read, so it is not the one destroyed.
  have hidle : (b.sessions sid).connected = false := by
    by_contra hconn
    rw [Bool.not_eq_false] at hconn
    apply howned
    rcases hattended sid hconn with hpending | hreading
    · exact Or.inl hpending
    · exact Or.inr (Or.inr (Or.inr (Or.inl hreading)))
  refine h.of_same rfl ?_ ?_
  · intro other
    by_cases heq : other = sid
    · rw [heq, Broker.sessions_modifySession_self, hidle]
      rfl
    · rw [Broker.sessions_modifySession_of_ne heq]
  · intro other
    by_cases heq : other = sid
    · rw [heq, Broker.sessions_modifySession_self]
      rfl
    · rw [Broker.sessions_modifySession_of_ne heq]

theorem onAccept {b : Broker α} (h : Mirrors b) (cfg : Config) (ip : Bytes)
    (hfresh : (b.sessions b.sessionCount).connected = false) :
    Mirrors (Server.onAccept cfg ip b) := by
  constructor
  · intro clientId sid hentry
    rw [Server.activeClients_onAccept] at hentry
    have hbefore := h.entry clientId sid hentry
    rcases Server.sessions_onAccept cfg ip b sid with hsame | ⟨heq, _⟩
    · rw [hsame]
      exact hbefore
    · rw [heq, hfresh] at hbefore
      exact absurd hbefore.1 (by decide)
  · intro sid hconn
    rcases Server.sessions_onAccept cfg ip b sid with hsame | ⟨_, hnew⟩
    · rw [hsame] at hconn ⊢
      exact h.named sid hconn
    · rw [hnew] at hconn
      cases hconn

end Mirrors

theorem mirrors_frame : TopicFrame fun b b' : Broker α => Mirrors b → Mirrors b' where
  refl _ h := h
  trans h h' hb := h' (h hb)
  misc _ _ _ _ _ _ _ h := h.unchanged rfl rfl
  noteHanded _ _ h := h.unchanged rfl rfl
  plumbing _ sid _ hplumbing h := h.modifySession sid hplumbing.connected hplumbing.clientId
  close _ _ hconn h := h.close hconn

theorem mirrors_tables : TablesFree fun b b' : Broker α => Mirrors b → Mirrors b' where
  pending _ _ h := h.unchanged rfl rfl
  outgoing _ _ h := h.unchanged rfl rfl
  noteSent _ _ h := h.unchanged rfl rfl
  noteSettled _ _ h := h.unchanged rfl rfl

theorem mirrors_ingest : IngestFree fun b b' : Broker α => Mirrors b → Mirrors b' where
  incoming _ _ h := h.unchanged rfl rfl
  noteIngest _ _ _ _ h := h.unchanged rfl rfl

/-! ## Turns that keep the registry -/

def Disconnects (env : Env α) (n : Runtime α) (sid : SessionId) : Prop :=
  (n.sessions sid).connected = true ∧
    ∃ hdr body, NextPacket env n sid hdr body ∧ hdr.type = some .disconnect

def InUse (b : Broker α) (sid : SessionId) (clientId : Bytes) : Prop :=
  ∃ old, old ≠ sid ∧ (b.sessions old).connected = true ∧ (b.sessions old).clientId = clientId

/-- The next turn handles a CONNECT for a client id that another session has. -/
def TakesOver (env : Env α) (n : Runtime α) (sid : SessionId) : Prop :=
  ∃ conn, Connects env n sid conn ∧ InUse n.toBroker sid conn.clientId

/-- The step handles no DISCONNECT, no takeover and no CONNECT with an empty
client id. -/
def Orderly (env : Env α) (n : Runtime α) (e : Event) : Prop :=
  ∀ sid, e = .turn sid → ¬Disconnects env n sid ∧ ¬TakesOver env n sid ∧
    ∀ conn, Connects env n sid conn → conn.clientId ≠ []

theorem mirrors_packetCases {env : Env α} {n : Runtime α} {sid : SessionId} {packet : Bytes}
    {parser : PacketParser} (hextract : (n.parsers sid).tryExtract env.cfg = (some packet, parser))
    (hblocked : n.blocked = false) (horderly : Orderly env n (.turn sid)) {hdr : FixedHeader}
    {body : Bytes} (hdecode : Session.decodeHeader packet = .ok (hdr, body)) :
    PacketCases env sid (fun b b' => Mirrors b → Mirrors b') hdr body
      (n.toBroker.observe (.noteHandled sid packet)) := by
  obtain ⟨hstays, hfree, hnamed⟩ := horderly sid rfl
  have hnext : NextPacket env n sid hdr body := ⟨packet, parser, hextract, hdecode⟩
  have hframe := mirrors_frame (α := α)
  have hsession := hframe.session env sid
  constructor
  · intro htype
    refine hsession.handleConnect hframe.authFree ?_
    intro conn auth failures bans hconn h
    have hconnects : Connects env n sid conn :=
      ⟨body, ⟨hdr, hnext, htype⟩, acceptableConnect_observe.mp hconn⟩
    have hready : Mirrors (((n.toBroker.observe (.noteHandled sid packet)).setAuthTables failures
        bans).setAuth auth) := h.unchanged rfl rfl
    refine hsession.acceptConnect hframe.authFree hblocked ?_ ?_ hready
    · intro _ hforget
      refine hframe.restoreSubscriptions sid conn _ ?_
      exact hforget.register hconn.first (hnamed conn hconnects)
    · intro old hold
      have hentry := h.entry conn.clientId old hold.1
      exact absurd ⟨conn, hconnects, old, hold.2.2.1, hentry⟩ hfree
  · intro pub _ auth _ _ _ _ hauth h
    exact hframe.acceptPublish mirrors_tables.toPendingFree mirrors_ingest env sid pub _ (hauth h)
  · intro packetId _ _ _ _
    exact hsession.qos1HandlePuback mirrors_tables.toPendingFree _ packetId _
  · intro packetId _ _ _ _
    exact hsession.qos2HandlePubrec mirrors_tables.toOutgoingFree fun _ _ => trivial
  · intro packetId _ _ _ _
    exact hframe.releaseQos2 mirrors_ingest mirrors_tables.toOutgoingFree env sid _ packetId _
  · intro packetId _ _ _ _
    exact hsession.qos2HandlePubcomp mirrors_tables.toOutgoingFree _ packetId _
  · intro sub _ _ _ _
    exact hframe.subscribeAll mirrors_tables.toNotesFree env sid _ _ _ _
  · intro unsub _ _ _ _
    exact hframe.unsubscribeAll sid _ _
  · intro htype
    have hidle : (n.sessions sid).connected = false := by
      by_contra hconn
      rw [Bool.not_eq_false] at hconn
      exact hstays ⟨hconn, hdr, body, hnext, htype⟩
    have hsame : Session.handleDisconnect sid (n.toBroker.observe (.noteHandled sid packet)) =
        n.toBroker.observe (.noteHandled sid packet) := handleDisconnect_of_unconnected hidle
    rw [hsame]
    exact id

theorem mirrors_turn {env : Env α} {n : Runtime α} {sid : SessionId}
    (henabled : n.toBroker.Enabled (.turn sid)) (horderly : Orderly env n (.turn sid))
    (h : Mirrors n.toBroker) : Mirrors (n.step env (.turn sid)).toBroker := by
  have hloop : LoopClosed env sid (fun _ => True) fun b b' : Broker α => Mirrors b → Mirrors b' :=
    { toSessionFrame := mirrors_frame.session env sid
      noteHandled := fun _ _ h => h.unchanged rfl rfl
      rearm := by
        intro b _ h
        refine h.modifySession sid ?_ ?_ <;> intro s <;> unfold Session.rearm <;> split <;> rfl
      stopReading := fun _ h => h.unchanged rfl rfl }
  refine hloop.onReadTurn henabled.2 ?_ h
  intro packet parser hextract
  apply (mirrors_frame.session env sid).handlePacket
  intro hdr body hdecode
  exact mirrors_packetCases hextract henabled.1 horderly hdecode

theorem mirrors_io {env : Env α} {n : Runtime α} {e : Event} (hturn : ∀ sid, e ≠ .turn sid)
    (henabled : n.toBroker.Enabled e) (hstarted : StartedCounts n.toBroker)
    (hattended : Attended n.toBroker) (h : Mirrors n.toBroker) :
    Mirrors (n.step env e).toBroker := by
  have hcore := mirrors_frame.toCoreFrame (α := α)
  have hdelivery := hcore.delivery env
  cases e with
  | accept ip =>
      refine h.onAccept env.cfg ip ?_
      by_contra hconn
      rw [Bool.not_eq_false] at hconn
      exact absurd (hstarted.started _ (Or.inl hconn)) (lt_irrefl _)
  | acceptError => exact h
  | read sid chunk =>
      have hread : Mirrors
          (n.toBroker.modifySession sid fun s => { s with readPending := false }) :=
        h.modifySession sid (fun _ => rfl) fun _ => rfl
      exact hread.unchanged rfl rfl
  | turn sid => exact absurd rfl (hturn sid)
  | readError sid =>
      exact hcore.closeAny _ sid (h.modifySession sid (fun _ => rfl) fun _ => rfl)
  | writeDone sid => exact hcore.plumbing _ sid _ plumbing_onWrite h
  | writeError sid =>
      exact hcore.closeAny _ sid (h.modifySession sid (fun _ => rfl) fun _ => rfl)
  | keepaliveTimeout sid =>
      exact hcore.closeAny _ sid (h.modifySession sid (fun _ => rfl) fun _ => rfl)
  | retryQos1 clientId packetId =>
      exact hdelivery.qos1RetryMessage mirrors_tables.toPendingFree clientId packetId _ h
  | retryQos2 clientId packetId =>
      exact hdelivery.qos2RetryMessage mirrors_tables.toOutgoingFree clientId packetId _ h
  | destroy sid => exact h.destroy hattended henabled.2.2.2
  | clock now => exact h.unchanged rfl rfl

theorem attended_reachable {env : Env α} {n : Runtime α} (hn : (brokerSystem env).Reachable n) :
    Attended n.toBroker := by
  refine hn.invariant (P := fun n => Attended n.toBroker) ?_ ?_
  · rintro _ ⟨auth, rfl⟩ sid hconn
    cases hconn
  · intro n e h henabled
    exact attended_step henabled h

theorem mirrors_reachable {env : Env α} {n : Runtime α}
    (hn : ((brokerSystem env).restrict (Orderly env)).Reachable n) : Mirrors n.toBroker := by
  have hboth : (brokerSystem env).Reachable n ∧ Mirrors n.toBroker := by
    refine hn.invariant (P := fun n => (brokerSystem env).Reachable n ∧ Mirrors n.toBroker) ?_ ?_
    · rintro _ ⟨auth, rfl⟩
      refine ⟨⟨_, [], ⟨auth, rfl⟩, .nil⟩, ?_, ?_⟩
      · intro clientId sid hentry
        cases hentry
      · intro sid hconn
        cases hconn
    · rintro n e ⟨hn, h⟩ ⟨henabled, horderly⟩
      refine ⟨hn.step henabled, ?_⟩
      by_cases hturn : ∃ sid, e = .turn sid
      · obtain ⟨sid, rfl⟩ := hturn
        exact mirrors_turn henabled horderly h
      · have hstarted : StartedCounts n.toBroker :=
          (startedCounts_inductive env).reachable startedCounts_init hn
        exact mirrors_io (fun sid heq => hturn ⟨sid, heq⟩) henabled hstarted
          (attended_reachable hn) h
  exact hboth.2

/-! ## The registry mirrors the connected sessions -/

/-- An entry of `active_clients` is there exactly for a connected session with
that client id and refers to it, and no two connected sessions share one. -/
structure Mirrored (b : Broker α) : Prop where
  entry : ∀ clientId sid, b.server.activeClients.lookup clientId = some sid ↔
    (b.sessions sid).connected = true ∧ (b.sessions sid).clientId = clientId
  unique : ∀ sid sid', (b.sessions sid).connected = true → (b.sessions sid').connected = true →
    (b.sessions sid).clientId = (b.sessions sid').clientId → sid = sid'

theorem Mirrors.mirrored {b : Broker α} (h : Mirrors b) (hregistered : Registered b) :
    Mirrored b where
  entry clientId sid := by
    refine ⟨h.entry clientId sid, ?_⟩
    rintro ⟨hconn, hclient⟩
    rw [← hclient]
    exact hregistered.client sid hconn
  unique _ _ := hregistered.unique

theorem not_mirrored_of_disconnects {env : Env α} {n : Runtime α} {sid : SessionId}
    (h : Disconnects env n sid) (hregistered : Registered n.toBroker) :
    ¬Mirrored (n.step env (.turn sid)).toBroker := by
  obtain ⟨hconn, hdr, body, hnext, htype⟩ := h
  obtain ⟨packet, hturn⟩ := onReadTurn_of_next hnext
  intro hmirrored
  have hstep : (n.step env (.turn sid)).toBroker =
      (n.toBroker.observe (.noteHandled sid packet)).modifySession sid
        fun s => { s with connected := false } := by
    change (Session.onReadTurn env sid n).toBroker = _
    rw [hturn, Session.dispatch, htype]
    apply Session.close_of_idle
    rw [Broker.sessions_modifySession_self]
  rw [hstep] at hmirrored
  have hentry := (hmirrored.entry (n.sessions sid).clientId sid).mp (hregistered.client sid hconn)
  rw [Broker.sessions_modifySession_self] at hentry
  cases hentry.1

/-- A takeover blocks before the entry is changed. -/
theorem not_mirrored_of_takesOver {env : Env α} {n : Runtime α} {sid : SessionId}
    (h : TakesOver env n sid) (hregistered : Registered n.toBroker) :
    ¬Mirrored (n.step env (.turn sid)).toBroker := by
  obtain ⟨conn, hconnects, old, hne, hold, hclient⟩ := h
  have hdisplaces := hregistered.displaces hne hold
  rw [hclient] at hdisplaces
  obtain ⟨packet, auth, failures, bans, hturn⟩ := hconnects.onReadTurn_of_displaces hdisplaces
  intro hmirrored
  change Mirrored (Session.onReadTurn env sid n).toBroker at hmirrored
  rw [hturn] at hmirrored
  have hentry := ((hmirrored.entry conn.clientId old).mp hdisplaces.1).1
  dsimp only at hentry
  rw [Broker.sessions_modifySession_self] at hentry
  cases hentry

def KeepsUnnamed (b b' : Broker α) : Prop :=
  b'.server.activeClients.lookup [] = b.server.activeClients.lookup []

theorem keepsUnnamed_frame : TopicFrame (KeepsUnnamed (α := α)) where
  refl _ := rfl
  trans h h' := h'.trans h
  misc _ _ _ _ _ _ _ := rfl
  noteHanded _ _ := rfl
  plumbing _ _ _ _ := rfl
  close b sid hconn := by
    obtain ⟨tree, subManager, hclose⟩ := Session.close_of_connected hconn
    rw [hclose]
    dsimp only [KeepsUnnamed, Session.unregister]
    split_ifs with hown
    · rw [Map.lookup_erase_ite, if_neg (Ne.symm hown.1)]
    · rfl

/-- A CONNECT with an empty client id makes an entry that stays when its session
is closed. -/
theorem not_mirrored_of_unnamed {env : Env α} {n : Runtime α} {sid : SessionId}
    {conn : ConnectPacket} (hblocked : n.blocked = false) (h : Connects env n sid conn)
    (hunnamed : conn.clientId = []) (hfree : ¬InUse n.toBroker sid conn.clientId)
    (hmirrors : Mirrors n.toBroker) :
    ¬Mirrored (Session.close false sid (n.step env (.turn sid)).toBroker) := by
  obtain ⟨packet, auth, failures, bans, hturn⟩ := h.onReadTurn_eq
  generalize hb : (((n.toBroker.observe (.noteHandled sid packet)).setAuthTables failures
    bans).setAuth auth) = b at hturn
  have hclear : ∀ old, ¬Displaces b sid conn.clientId old := by
    rw [← hb]
    intro old hold
    exact hfree ⟨old, hold.2.2.1, hmirrors.entry conn.clientId old hold.1⟩
  have hready : b.blocked = false := by
    rw [← hb]
    exact hblocked
  have hframe := keepsUnnamed_frame (α := α)
  have hregister : (Session.register env sid conn
      (Session.forgetFailures sid b)).server.activeClients.lookup [] = some sid := by
    rw [← hunnamed]
    exact Finmap.lookup_insert _
  have hfinish : KeepsUnnamed (Session.register env sid conn (Session.forgetFailures sid b))
      (Session.close false sid (n.step env (.turn sid)).toBroker) := by
    refine hframe.trans ?_ (hframe.closeAny _ sid)
    change KeepsUnnamed _ (Session.onReadTurn env sid n).toBroker
    rw [hturn, acceptConnect_of_clear env hready hclear]
    refine hframe.trans (hframe.restoreSubscriptions sid conn _) ?_
    exact hframe.trans (hframe.deliver env sid _ _)
      (hframe.plumbing _ sid _ plumbing_startKeepalive)
  intro hmirrored
  have hconn := ((hmirrored.entry [] sid).mp (hfinish.trans hregister)).1
  rw [Session.connected_close] at hconn
  cases hconn

/-- In every state of a run without DISCONNECT, takeover and CONNECT with an
empty client id the registry mirrors the connected sessions.  The first
DISCONNECT or takeover ends this, and so does the end of the first session with
an empty client id. -/
theorem registry_mirrors_sessions (env : Env α) (n : Runtime α)
    (hn : ((brokerSystem env).restrict (Orderly env)).Reachable n) :
    Mirrored n.toBroker ∧
      ∀ sid, n.toBroker.Enabled (.turn sid) →
        (Disconnects env n sid ∨ TakesOver env n sid →
          ¬Mirrored (n.step env (.turn sid)).toBroker) ∧
        ∀ conn, Connects env n sid conn → conn.clientId = [] →
          ¬Mirrored (Session.close false sid (n.step env (.turn sid)).toBroker) := by
  have hregistered : Registered n.toBroker :=
    (registered_inductive env).reachable registered_init hn.of_restrict
  have hmirrors : Mirrors n.toBroker := mirrors_reachable hn
  refine ⟨hmirrors.mirrored hregistered, ?_⟩
  intro sid henabled
  constructor
  · rintro (hdisconnects | htakes)
    · exact not_mirrored_of_disconnects hdisconnects hregistered
    · exact not_mirrored_of_takesOver htakes hregistered
  · intro conn hconn hunnamed
    apply not_mirrored_of_unnamed henabled.1 hconn hunnamed ?_ hmirrors
    rintro ⟨old, _, hold, hclient⟩
    exact hmirrors.named old hold (hclient.trans hunnamed)

theorem orderly_first_connect :
    Orderly defaultEnv ((brokerSystem defaultEnv).after { auth := () }
      ((disconnectEvents []).take 2)) (.turn 0) := by
  generalize hn : (brokerSystem defaultEnv).after { auth := () } ((disconnectEvents []).take 2) = n
  have hpacket : NextPacket defaultEnv n 0
      { type := some .connect, dup := false, qos := 0, retain := false, remainingLength := 13 }
      ((connectBytes true [0x63]).drop 2) := by
    rw [← hn]
    exact ⟨connectBytes true [0x63], { buffer := disconnectBytes }, by decide +kernel, rfl⟩
  have hclient : ∀ conn, Connects defaultEnv n 0 conn → conn.clientId = [0x63] := by
    rintro conn ⟨body, ⟨hdr, hnext, _⟩, hconn⟩
    obtain ⟨rest, hparse⟩ := hconn.parses
    rw [(hnext.unique hpacket).2] at hparse
    cases hparse
    rfl
  rintro sid heq
  obtain rfl : 0 = sid := Event.turn.inj heq
  refine ⟨?_, ?_, ?_⟩
  · rintro ⟨hconn, _⟩
    rw [← hn] at hconn
    revert hconn
    decide +kernel
  · rintro ⟨conn, _, old, hne, hold, _⟩
    have hidle : (n.sessions old).connected = false := by
      rw [← hn]
      have hread := Broker.sessions_modifySession_of_ne hne
        (fun s => { s with readPending := false })
        ((brokerSystem defaultEnv).after { auth := () } [.accept [0x69]]).toBroker
      have haccept :
          ((brokerSystem defaultEnv).after { auth := () } [.accept [0x69]]).sessions old = {} :=
        Function.update_of_ne hne _ _
      exact congrArg Session.connected (hread.trans haccept)
    rw [hidle] at hold
    cases hold
  · intro conn hconn
    rw [hclient conn hconn]
    decide

/-- While the client is connected the registry mirrors it, and its DISCONNECT
ends this. -/
theorem registry_mirrors_until_disconnect :
    let n := (brokerSystem defaultEnv).after { auth := () } ((disconnectEvents []).take 3)
    Mirrored n.toBroker ∧ ¬Mirrored (n.step defaultEnv (.turn 0)).toBroker := by
  intro n
  have hreachable : ((brokerSystem defaultEnv).restrict (Orderly defaultEnv)).Reachable n := by
    refine .of_allowed ⟨(), rfl⟩ ⟨⟨⟨rfl, rfl, trivial⟩, ?_⟩, ⟨⟨rfl, rfl, rfl, ?_, ?_⟩, ?_⟩,
      ⟨⟨?_, ?_⟩, orderly_first_connect⟩, trivial⟩
    · intro sid heq
      cases heq
    · decide +kernel
    · decide +kernel
    · intro sid heq
      cases heq
    · decide +kernel
    · decide +kernel
  have hdisconnects : Disconnects defaultEnv n 0 := by
    refine ⟨by decide +kernel, _, [], ⟨disconnectBytes, {}, by decide +kernel, rfl⟩, rfl⟩
  obtain ⟨hmirrored, hends⟩ := registry_mirrors_sessions defaultEnv n hreachable
  refine ⟨hmirrored, (hends 0 ⟨?_, ?_⟩).1 (Or.inl hdisconnects)⟩
  · decide +kernel
  · decide +kernel

/-- After its DISCONNECT the client is still registered. -/
theorem disconnected_client_stays_registered :
    let n := (brokerSystem defaultEnv).after { auth := () } (disconnectEvents [])
    (brokerSystem defaultEnv).Reachable n ∧
      n.server.activeClients.lookup [0x63] = some 0 ∧ (n.sessions 0).connected = false ∧
      ¬Mirrored n.toBroker := by
  intro n
  have hentry : n.server.activeClients.lookup [0x63] = some 0 := by decide +kernel
  have hidle : (n.sessions 0).connected = false := by decide +kernel
  refine ⟨?_, hentry, hidle, ?_⟩
  · refine .of_allowed ⟨(), rfl⟩ ⟨⟨rfl, rfl, trivial⟩, ⟨rfl, rfl, rfl, ?_, ?_⟩, ⟨?_, ?_⟩, ⟨?_, ?_⟩,
      trivial⟩ <;> decide +kernel
  · intro hmirrored
    have hconn := ((hmirrored.entry [0x63] 0).mp hentry).1
    rw [hidle] at hconn
    cases hconn

end JellyBroker
