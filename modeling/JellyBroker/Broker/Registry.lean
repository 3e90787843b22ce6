import JellyBroker.Broker.Connect
import JellyBroker.Broker.Invariant
/-!
# The client registry and client-id takeover

`active_clients` names the connected session of every client id in use.  A
CONNECT for such an id therefore always finds that session, and closes it while
it holds the mutex that `close` takes.
-/

namespace JellyBroker

open JellyBroker.Lib JellyBroker.Packet

variable {α : Type}

/-- A session that reads or is connected still exists, and a connected session
is the one registered under its client id. -/
structure Registered (b : Broker α) : Prop where
  alive : ∀ sid, (b.sessions sid).connected = true ∨ (b.sessions sid).readPending = true ∨
    b.reading = some sid → (b.sessions sid).alive = true
  client : ∀ sid, (b.sessions sid).connected = true →
    b.server.activeClients.lookup (b.sessions sid).clientId = some sid

namespace Registered

theorem of_same {b b' : Broker α} (h : Registered b)
    (hclients : b'.server.activeClients = b.server.activeClients)
    (hclient : ∀ sid, (b'.sessions sid).clientId = (b.sessions sid).clientId)
    (hconn : ∀ sid, (b'.sessions sid).connected = true → (b.sessions sid).connected = true)
    (halive : ∀ sid, (b'.sessions sid).connected = true ∨
      (b'.sessions sid).readPending = true ∨ b'.reading = some sid →
      (b'.sessions sid).alive = true) : Registered b' where
  alive := halive
  client sid hsid := by
    rw [hclients, hclient]
    exact h.client sid (hconn sid hsid)

theorem unchanged {b b' : Broker α} (h : Registered b)
    (hclients : b'.server.activeClients = b.server.activeClients)
    (hsessions : b'.sessions = b.sessions) (hreading : b'.reading = b.reading) :
    Registered b' := by
  refine h.of_same hclients ?_ ?_ ?_
  · intro sid
    rw [hsessions]
  · intro sid
    rw [hsessions]
    exact id
  · intro sid
    rw [hsessions, hreading]
    exact h.alive sid

theorem modifySession {b : Broker α} (h : Registered b) (sid : SessionId)
    {change : Session → Session} (hclient : ∀ s, (change s).clientId = s.clientId)
    (hconn : ∀ s, (change s).connected = true → s.connected = true)
    (halive : ∀ s, (change s).alive = s.alive)
    (hread : ∀ s, (change s).readPending = true → s.readPending = true ∨ s.connected = true) :
    Registered (b.modifySession sid change) := by
  refine h.of_same rfl ?_ ?_ ?_
  · intro other
    by_cases heq : other = sid
    · subst heq
      simp [hclient]
    · simp [heq]
  · intro other
    by_cases heq : other = sid
    · subst heq
      simpa using hconn _
    · simp [heq]
  · intro other
    by_cases heq : other = sid
    · subst heq
      simp only [Broker.sessions_modifySession, Function.update_self, halive]
      intro hother
      apply h.alive
      rcases hother with hother | hother | hother
      · exact Or.inl (hconn _ hother)
      · rcases hread _ hother with hread' | hconn'
        · exact Or.inr (Or.inl hread')
        · exact Or.inl hconn'
      · exact Or.inr (Or.inr hother)
    · simp only [Broker.sessions_modifySession, Function.update_of_ne heq]
      exact h.alive other

theorem close {b : Broker α} (h : Registered b) {sid : SessionId}
    (hconn : (b.sessions sid).connected = true) :
    Registered (Session.close false sid b) := by
  obtain ⟨tree, subManager, hclose⟩ := Session.close_of_connected hconn
  rw [hclose]
  constructor
  · intro other hother
    by_cases heq : other = sid
    · subst heq
      simpa using h.alive other (Or.inl hconn)
    · simp only [Function.update_of_ne heq] at hother ⊢
      exact h.alive other hother
  · intro other hother
    by_cases heq : other = sid
    · subst heq
      simp at hother
    · dsimp only at hother ⊢
      rw [Function.update_of_ne heq] at hother ⊢
      have hclient := h.client other hother
      dsimp only [Session.unregister]
      split_ifs with hown
      · rw [Map.lookup_erase_ite, if_neg]
        · exact hclient
        · intro hsame
          rw [hsame, hown.2] at hclient
          exact heq (Option.some.inj hclient).symm
      · exact hclient

theorem register {env : Env α} {b : Broker α} (h : Registered b) {sid : SessionId}
    {conn : ConnectPacket} (hreading : b.reading = some sid)
    (hclear : ∀ old, ¬Displaces b sid conn.clientId old) :
    Registered (Session.register env sid conn b) where
  alive other hother := by
    by_cases heq : other = sid
    · subst heq
      have halive := h.alive other (Or.inr (Or.inr hreading))
      simpa [Session.register, Session.adopt] using halive
    · simp only [Session.register, Broker.sessions_modifySession,
        Function.update_of_ne heq] at hother ⊢
      exact h.alive other hother
  client other hother := by
    by_cases heq : other = sid
    · subst heq
      have hclient : ((Session.register env other conn b).sessions other).clientId =
          conn.clientId := by
        simp [Session.register, Session.adopt]
      rw [hclient]
      exact Finmap.lookup_insert _
    · have hsame : (Session.register env sid conn b).sessions other = b.sessions other :=
        Broker.sessions_modifySession_of_ne heq _ _
      rw [hsame] at hother ⊢
      have hclient := h.client other hother
      have hne : (b.sessions other).clientId ≠ conn.clientId := by
        intro hsame
        rw [hsame] at hclient
        exact hclear other ⟨hclient, h.alive other (Or.inl hother), heq, hother⟩
      change (b.server.activeClients.insert conn.clientId sid).lookup _ = _
      rw [Map.lookup_insert_ite, if_neg hne]
      exact hclient

theorem beginRead {b : Broker α} (h : Registered b) {sid : SessionId}
    (hread : (b.sessions sid).readPending = true) : Registered (Session.beginRead sid b) := by
  have hbefore : Registered (b.setReading (some sid)) := by
    refine h.of_same rfl (fun _ => rfl) (fun _ => id) ?_
    rintro other (hconn | hother | hreading)
    · exact h.alive other (Or.inl hconn)
    · exact h.alive other (Or.inr (Or.inl hother))
    · have heq : sid = other := Option.some.inj hreading
      exact h.alive other (Or.inr (Or.inl (heq ▸ hread)))
  change Registered ((b.setReading (some sid)).modifySession sid fun s =>
    { s with readPending := false })
  exact hbefore.modifySession sid (fun _ => rfl) (fun _ => id) (fun _ => rfl) fun _ hs => by
    cases hs

theorem stopReading {b : Broker α} (h : Registered b) : Registered (b.setReading none) := by
  refine h.of_same rfl (fun _ => rfl) (fun _ => id) ?_
  rintro other (hconn | hother | hreading)
  · exact h.alive other (Or.inl hconn)
  · exact h.alive other (Or.inr (Or.inl hother))
  · cases hreading

theorem rearm {b : Broker α} (h : Registered b) (sid : SessionId) :
    Registered (b.modifySession sid Session.rearm) := by
  refine h.modifySession sid ?_ ?_ ?_ ?_
  · intro s
    unfold Session.rearm
    split <;> rfl
  · intro s
    unfold Session.rearm
    split <;> exact id
  · intro s
    unfold Session.rearm
    split <;> rfl
  · intro s
    unfold Session.rearm
    split
    · rename_i hconn
      exact fun _ => Or.inr hconn
    · exact Or.inl

theorem onAccept {b : Broker α} (h : Registered b) (cfg : Config) (ip : Bytes) :
    Registered (Server.onAccept cfg ip b) := by
  unfold Server.onAccept
  dsimp only
  split_ifs
  · exact h
  · exact h.unchanged rfl rfl rfl
  · have hsame : ∀ sid ≠ b.sessionCount, (Server.startSession ip
        ((b.server.connectionsPerIp.lookup ip).getD 0 + 1) b).sessions sid = b.sessions sid :=
      fun sid hne => Function.update_of_ne hne _ _
    constructor
    · intro sid hsid
      by_cases heq : sid = b.sessionCount
      · simp [Server.startSession, heq]
      · rw [hsame sid heq] at hsid ⊢
        exact h.alive sid hsid
    · intro sid hsid
      by_cases heq : sid = b.sessionCount
      · simp [Server.startSession, heq] at hsid
      · rw [hsame sid heq] at hsid ⊢
        exact h.client sid hsid

theorem destroy {b : Broker α} (h : Registered b) {sid : SessionId}
    (howned : ¬Session.Owned b sid) : Registered (b.modifySession sid Session.destruct) := by
  unfold Session.Owned at howned
  simp only [not_or] at howned
  constructor
  · intro other hother
    by_cases heq : other = sid
    · subst heq
      rcases hother with hconn | hread | hreading
      · simp [Session.destruct] at hconn
      · exact absurd (by simpa [Session.destruct] using hread) howned.1
      · exact absurd hreading howned.2.2.2.1
    · simp only [Broker.sessions_modifySession, Function.update_of_ne heq] at hother ⊢
      exact h.alive other hother
  · intro other hother
    by_cases heq : other = sid
    · subst heq
      simp [Session.destruct] at hother
    · rw [Broker.sessions_modifySession_of_ne heq] at hother ⊢
      exact h.client other hother

end Registered

/-- No two sessions are connected under the same client id. -/
theorem Registered.unique {b : Broker α} (h : Registered b) {sid sid' : SessionId}
    (hconn : (b.sessions sid).connected = true) (hconn' : (b.sessions sid').connected = true)
    (hsame : (b.sessions sid).clientId = (b.sessions sid').clientId) : sid = sid' := by
  have hentry := h.client sid hconn
  rw [hsame, h.client sid' hconn'] at hentry
  exact (Option.some.inj hentry).symm

theorem registered_frame : Frame fun b b' : Broker α => Registered b → Registered b' where
  refl _ h := h
  trans h h' hb := h' (h hb)
  misc _ _ _ _ _ _ _ h := h.unchanged rfl rfl rfl
  noteHanded _ _ h := h.unchanged rfl rfl rfl
  plumbing _ sid _ hplumbing h :=
    h.modifySession sid hplumbing.clientId (fun s hs => hplumbing.connected s ▸ hs)
      hplumbing.alive fun s hs => Or.inl (hplumbing.readPending s ▸ hs)
  close _ _ hconn h := h.close hconn
  disconnect _ sid h :=
    h.modifySession sid (fun _ => rfl) (fun _ hs => by cases hs) (fun _ => rfl) fun _ => Or.inl

theorem registered_quiet {b b' : Broker α} (hquiet : Quiet b b') (h : Registered b) :
    Registered b' := by
  have hreading : b'.reading = b.reading ∨ b'.reading = none := hquiet.reading
  rcases hreading with hsame | hnone
  · exact h.unchanged hquiet.activeClients hquiet.sessions hsame
  · refine h.of_same hquiet.activeClients ?_ ?_ ?_
    · intro sid
      rw [hquiet.sessions]
    · intro sid
      rw [hquiet.sessions]
      exact id
    · rw [hquiet.sessions, hnone]
      rintro sid (hconn | hread | hreading)
      · exact h.alive sid (Or.inl hconn)
      · exact h.alive sid (Or.inr (Or.inl hread))
      · cases hreading

theorem registered_inductive (env : Env α) : Inductive env (Registered (α := α)) where
  frame := registered_frame
  tables :=
    { pending := fun _ _ h => h.unchanged rfl rfl rfl
      outgoing := fun _ _ h => h.unchanged rfl rfl rfl
      noteSent := fun _ _ h => h.unchanged rfl rfl rfl
      noteSettled := fun _ _ h => h.unchanged rfl rfl rfl }
  ingest :=
    { incoming := fun _ _ h => h.unchanged rfl rfl rfl
      noteIngest := fun _ _ _ _ h => h.unchanged rfl rfl rfl }
  register _ _ _ hreading _ hclear h := h.register hreading hclear
  block b old h := by
    have hidle : Registered (b.modifySession old fun s => { s with connected := false }) :=
      h.modifySession old (fun _ => rfl) (fun _ hs => by cases hs) (fun _ => rfl)
        fun _ => Or.inl
    exact hidle.unchanged rfl rfl rfl
  noteHandled _ _ _ h := h.unchanged rfl rfl rfl
  beginRead _ _ hread h := h.beginRead hread
  rearm _ sid _ h := h.rearm sid
  stopReading _ h := h.stopReading
  dropRead _ sid h :=
    h.modifySession sid (fun _ => rfl) (fun _ => id) (fun _ => rfl) fun _ hs => by cases hs
  clock _ _ h := h.unchanged rfl rfl rfl
  accept _ ip h := h.onAccept env.cfg ip
  destroy _ _ _ howned h := h.destroy howned

theorem registered_init (auth : α) : Registered ({ auth } : Broker α) where
  alive sid h := by simp at h
  client sid h := by simp at h

/-! ## Takeover -/

/-- The CONNECT on `sid` has taken the client id over from the session `old`:
no handler waits for a mutex it holds, and only `sid` is connected. -/
structure TakenOver (b : Broker α) (old sid : SessionId) (clientId : Bytes) : Prop where
  completed : b.blocked = false
  displaced : (b.sessions old).connected = false
  connected : (b.sessions sid).connected = true
  registered : b.server.activeClients.lookup clientId = some sid

/-- A CONNECT that has to close another session blocks before it registers its
own. -/
theorem Connects.onReadTurn_of_displaces {env : Env α} {n : Runtime α} {old sid : SessionId}
    {conn : ConnectPacket} (h : Connects env n sid conn)
    (hdisplaces : Displaces n.toBroker sid conn.clientId old) :
    ∃ packet auth failures bans, (Session.onReadTurn env sid n).toBroker =
      { (((n.toBroker.observe (.noteHandled sid packet)).setAuthTables failures bans).setAuth
          auth).modifySession old (fun s => { s with connected := false }) with
        blocked := true } := by
  obtain ⟨packet, auth, failures, bans, hturn⟩ := h.onReadTurn_eq
  refine ⟨packet, auth, failures.erase (n.sessions sid).remoteIp,
    bans.erase (n.sessions sid).remoteIp, ?_⟩
  have hready : Displaces (((n.toBroker.observe (.noteHandled sid packet)).setAuthTables failures
      bans).setAuth auth) sid conn.clientId old := hdisplaces
  rw [hturn, acceptConnect_of_displaces env hready]
  rfl

theorem Registered.displaces {b : Broker α} (h : Registered b) {old sid : SessionId}
    (hne : old ≠ sid) (hold : (b.sessions old).connected = true) :
    Displaces b sid (b.sessions old).clientId old :=
  ⟨h.client old hold, h.alive old (Or.inl hold), hne, hold⟩

/-- Taking over a client id never completes: the handler of the new CONNECT
waits for the mutex it holds, and the broker handles no event after it. -/
theorem takeover_never_completes (env : Env α) (n : Runtime α)
    (hn : (brokerSystem env).Reachable n) (old sid : SessionId) (hne : sid ≠ old) (body : Bytes)
    (conn : ConnectPacket) (hold : (n.sessions old).connected = true)
    (hclient : (n.sessions old).clientId = conn.clientId)
    (hnext : NextConnect env n sid body) (hconn : AcceptableConnect env n.toBroker sid body conn) :
    ¬TakenOver (n.step env (.turn sid)).toBroker old sid conn.clientId ∧
      (n.step env (.turn sid)).blocked = true ∧
      ∀ event, ¬(n.step env (.turn sid)).toBroker.Enabled event := by
  have hregistered : Registered n.toBroker :=
    (registered_inductive env).reachable registered_init hn
  have hdisplaces := hregistered.displaces hne.symm hold
  rw [hclient] at hdisplaces
  have hconnects : Connects env n sid conn := ⟨body, hnext, hconn⟩
  have hblocked : (n.step env (.turn sid)).blocked = true := by
    obtain ⟨packet, auth, failures, bans, hturn⟩ := hconnects.onReadTurn_of_displaces hdisplaces
    change (Session.onReadTurn env sid n).toBroker.blocked = true
    rw [hturn]
  refine ⟨?_, hblocked, ?_⟩
  · intro htaken
    rw [htaken.completed] at hblocked
    cases hblocked
  · intro event henabled
    have hfree : (n.step env (.turn sid)).blocked = false := by
      cases event <;> exact henabled.1
    rw [hfree] at hblocked
    cases hblocked

/-- A client connects, and while it is connected its CONNECT arrives on a second
connection as well. -/
def reconnectEvents : List Event :=
  [.accept [0x69], .read 0 (connectBytes true [0x63]), .turn 0, .turn 0, .accept [0x6a],
    .read 1 (connectBytes true [0x63])]

theorem reconnectEvents_reachable :
    (brokerSystem defaultEnv).Reachable
      ((brokerSystem defaultEnv).after { auth := () } reconnectEvents) := by
  refine .of_allowed ⟨(), rfl⟩ ⟨⟨rfl, rfl, trivial⟩, ⟨rfl, rfl, rfl, ?_, ?_⟩, ⟨?_, ?_⟩, ⟨?_, ?_⟩,
    ⟨?_, ?_, trivial⟩, ⟨?_, ?_, ?_, ?_, ?_⟩, trivial⟩ <;> decide +kernel

theorem takeover_of_duplicate_connect :
    (brokerSystem defaultEnv).Reachable
      ((brokerSystem defaultEnv).after { auth := () } reconnectEvents) ∧
    ¬TakenOver (((brokerSystem defaultEnv).after { auth := () } reconnectEvents).step defaultEnv
      (.turn 1)).toBroker 0 1 [0x63] := by
  refine ⟨reconnectEvents_reachable, (takeover_never_completes defaultEnv _
    reconnectEvents_reachable 0 1 (by decide) ((connectBytes true [0x63]).drop 2)
    { protocolName := mqttProtocolName, protocolLevel := mqttProtocolLevel, cleanSession := true
      keepalive := 60, clientId := [0x63] } ?_ ?_ ?_ ?_).1⟩
  · decide +kernel
  · decide +kernel
  · exact ⟨_, ⟨connectBytes true [0x63], {}, by decide +kernel, rfl⟩, rfl⟩
  · refine ⟨⟨?_, ?_, ?_, ?_, ?_⟩, ?_⟩
    · decide +kernel
    · exact ⟨[], by decide +kernel⟩
    · decide
    · decide
    · intro banUntil hban
      have hnone :
          ((brokerSystem defaultEnv).after { auth := () } reconnectEvents).server.authBanUntil =
            ∅ := by
        decide +kernel
      rw [hnone] at hban
      cases hban
    · exact Or.inl ⟨rfl, rfl⟩

/-- The second CONNECT leaves the broker blocked, with no session connected. -/
theorem duplicate_connect_blocks :
    (brokerSystem defaultEnv).Reachable
      ((brokerSystem defaultEnv).after { auth := () } (reconnectEvents ++ [.turn 1])) ∧
    ((brokerSystem defaultEnv).after { auth := () } (reconnectEvents ++ [.turn 1])).blocked = true ∧
    ¬TakenOver
      ((brokerSystem defaultEnv).after { auth := () } (reconnectEvents ++ [.turn 1])).toBroker
      0 1 [0x63] := by
  refine ⟨?_, by decide +kernel, ?_⟩
  · have henabled : (brokerSystem defaultEnv).enabled
        ((brokerSystem defaultEnv).after { auth := () } reconnectEvents) (.turn 1) := by
      constructor <;> decide +kernel
    have hstep := reconnectEvents_reachable.step henabled
    rw [Lib.System.after, List.foldl_append]
    exact hstep
  · intro htaken
    have hconn := htaken.connected
    revert hconn
    decide +kernel

end JellyBroker
