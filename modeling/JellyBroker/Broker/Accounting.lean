import JellyBroker.Broker.Invariant
/-!
# Connection accounting

`Server::on_accept` counts connections per address and in total, and refuses
them against these counts.  The total is never lowered, and the count of an
address only in `Session::close` of a connected session, so the counts are
exact until the first session ends.
-/

namespace JellyBroker

open JellyBroker.Lib JellyBroker.Packet

variable {α : Type}

/-- The socket is open and the read loop has not ended. -/
def Served (b : Broker α) (sid : SessionId) : Prop :=
  (b.sessions sid).socketOpen = true ∧
    ((b.sessions sid).readPending = true ∨ b.reading = some sid)

instance (b : Broker α) (sid : SessionId) : Decidable (Served b sid) :=
  inferInstanceAs (Decidable (_ ∧ _))

def servedSessions (b : Broker α) : Finset SessionId :=
  (Finset.range b.sessionCount).filter (Served b)

def servedFrom (b : Broker α) (ip : Bytes) : Finset SessionId :=
  (servedSessions b).filter fun sid => (b.sessions sid).remoteIp = ip

/-- Both counts are those of the sessions being served, and `on_accept` starts
no session exactly when these have reached a limit. -/
structure ConnectionAccounting (cfg : Config) (b : Broker α) : Prop where
  perIp : ∀ ip, (b.server.connectionsPerIp.lookup ip).getD 0 = ((servedFrom b ip).card : Int)
  active : b.activeConnections = ((servedSessions b).card : Int)
  rejects : ∀ ip, (Server.onAccept cfg ip b).sessionCount = b.sessionCount ↔
    ((servedSessions b).card : Int) ≥ cfg.maxConnections ∨
      ((servedFrom b ip).card : Int) ≥ cfg.maxConnectionsPerIp

/-! ## The invariant -/

def startedFrom (b : Broker α) (ip : Bytes) : Finset SessionId :=
  (Finset.range b.sessionCount).filter fun sid => (b.sessions sid).remoteIp = ip

/-- A session that reads or is connected was started, the total counts all
sessions ever started, and the counts per address do so while all sockets are
open. -/
structure StartedCounts (b : Broker α) : Prop where
  started : ∀ sid, (b.sessions sid).connected = true ∨ (b.sessions sid).readPending = true ∨
    b.reading = some sid → sid < b.sessionCount
  active : b.activeConnections = (b.sessionCount : Int)
  perIp : (∀ sid < b.sessionCount, (b.sessions sid).socketOpen = true) →
    ∀ ip, (b.server.connectionsPerIp.lookup ip).getD 0 = ((startedFrom b ip).card : Int)

theorem StartedCounts.of_same {b b' : Broker α} (h : StartedCounts b)
    (hcount : b'.sessionCount = b.sessionCount)
    (hactive : b'.activeConnections = b.activeConnections)
    (hperIp : ∀ ip, (b'.server.connectionsPerIp.lookup ip).getD 0 =
      (b.server.connectionsPerIp.lookup ip).getD 0)
    (hip : ∀ sid, (b'.sessions sid).remoteIp = (b.sessions sid).remoteIp)
    (hopen : ∀ sid, (b'.sessions sid).socketOpen = true → (b.sessions sid).socketOpen = true)
    (hstarted : ∀ sid, (b'.sessions sid).connected = true ∨
      (b'.sessions sid).readPending = true ∨ b'.reading = some sid →
      (b.sessions sid).connected = true ∨ (b.sessions sid).readPending = true ∨
        b.reading = some sid) : StartedCounts b' where
  started sid hsid := by
    rw [hcount]
    exact h.started sid (hstarted sid hsid)
  active := by rw [hactive, hcount, h.active]
  perIp hall ip := by
    have hall' : ∀ sid < b.sessionCount, (b.sessions sid).socketOpen = true := by
      intro sid hsid
      exact hopen sid (hall sid (by rw [hcount]; exact hsid))
    have hstartedFrom : startedFrom b' ip = startedFrom b ip := by
      unfold startedFrom
      simp only [hcount, hip]
    rw [hperIp ip, hstartedFrom, h.perIp hall' ip]

theorem StartedCounts.modifySession {b : Broker α} (h : StartedCounts b) (sid : SessionId)
    {change : Session → Session} (hip : ∀ s, (change s).remoteIp = s.remoteIp)
    (hopen : ∀ s, (change s).socketOpen = true → s.socketOpen = true)
    (hstarted : ∀ s, (change s).connected = true ∨ (change s).readPending = true →
      s.connected = true ∨ s.readPending = true) :
    StartedCounts (b.modifySession sid change) := by
  refine h.of_same rfl rfl (fun _ => rfl) ?_ ?_ ?_
  · intro other
    by_cases hother : other = sid
    · subst hother
      simp [hip]
    · simp [hother]
  · intro other
    by_cases hother : other = sid
    · subst hother
      simpa using hopen _
    · simp [hother]
  · intro other
    by_cases hother : other = sid
    · subst hother
      simp only [Broker.sessions_modifySession, Function.update_self]
      rintro (hconn | hread | hreading)
      · rcases hstarted _ (Or.inl hconn) with hconn' | hread'
        · exact Or.inl hconn'
        · exact Or.inr (Or.inl hread')
      · rcases hstarted _ (Or.inr hread) with hconn' | hread'
        · exact Or.inl hconn'
        · exact Or.inr (Or.inl hread')
      · exact Or.inr (Or.inr hreading)
    · simp only [Broker.sessions_modifySession, Function.update_of_ne hother]
      exact id

/-- Closing shuts the socket of a started session, so the counts per address
need not be right any more. -/
theorem StartedCounts.close {b : Broker α} (h : StartedCounts b) {sid : SessionId}
    (hconn : (b.sessions sid).connected = true) :
    StartedCounts (Session.close false sid b) := by
  obtain ⟨tree, subManager, hclose⟩ := Session.close_of_connected hconn
  rw [hclose]
  refine ⟨?_, h.active, ?_⟩
  · intro other hother
    by_cases heq : other = sid
    · subst heq
      exact h.started other (Or.inl hconn)
    · simp only [Function.update_of_ne heq] at hother
      exact h.started other hother
  · intro hall
    have hshut := hall sid (h.started sid (Or.inl hconn))
    simp at hshut

theorem StartedCounts.unchanged {b b' : Broker α} (h : StartedCounts b)
    (hsessions : b'.sessions = b.sessions) (hreading : b'.reading = b.reading)
    (hcount : b'.sessionCount = b.sessionCount)
    (hactive : b'.activeConnections = b.activeConnections)
    (hperIp : b'.server.connectionsPerIp = b.server.connectionsPerIp) : StartedCounts b' := by
  refine h.of_same hcount hactive (fun ip => by rw [hperIp]) ?_ ?_ ?_
  · intro sid
    rw [hsessions]
  · intro sid
    rw [hsessions]
    exact id
  · intro sid
    rw [hsessions, hreading]
    exact id

theorem startedCounts_frame : Frame fun b b' : Broker α => StartedCounts b → StartedCounts b' where
  refl _ h := h
  trans h h' hb := h' (h hb)
  misc _ _ _ _ _ _ _ h := h.unchanged rfl rfl rfl rfl rfl
  noteHanded _ _ h := h.unchanged rfl rfl rfl rfl rfl
  plumbing b sid change hplumbing h := by
    refine h.modifySession sid hplumbing.remoteIp ?_ ?_
    · intro s
      rw [hplumbing.socketOpen s]
      exact id
    · intro s
      rw [hplumbing.connected s, hplumbing.readPending s]
      exact id
  close _ _ hconn h := h.close hconn
  disconnect _ sid h := h.modifySession sid (fun _ => rfl) (fun _ => id) fun _ hs => by
    rcases hs with hconn | hread
    · cases hconn
    · exact Or.inr hread

theorem startedFrom_startSession (b : Broker α) (ip : Bytes) (count : Int) (ip' : Bytes) :
    (startedFrom (Server.startSession ip count b) ip').card =
      (startedFrom b ip').card + if ip = ip' then 1 else 0 := by
  have hold : (Finset.range b.sessionCount).filter (fun sid =>
      ((Server.startSession ip count b).sessions sid).remoteIp = ip') = startedFrom b ip' := by
    apply Finset.filter_congr
    intro sid hsid
    have hne : sid ≠ b.sessionCount := (Finset.mem_range.mp hsid).ne
    simp [Server.startSession, hne]
  have hnew : ((Server.startSession ip count b).sessions b.sessionCount).remoteIp = ip := by
    simp [Server.startSession]
  have hrange : startedFrom (Server.startSession ip count b) ip' =
      (insert b.sessionCount (Finset.range b.sessionCount)).filter (fun sid =>
        ((Server.startSession ip count b).sessions sid).remoteIp = ip') := by
    rw [← Finset.range_add_one]
    rfl
  rw [hrange, Finset.filter_insert, hnew, hold]
  split_ifs with heq
  · rw [Finset.card_insert_of_notMem]
    simp [startedFrom]
  · rfl

theorem StartedCounts.startSession {b : Broker α} (h : StartedCounts b) (ip : Bytes) :
    StartedCounts (Server.startSession ip
      ((b.server.connectionsPerIp.lookup ip).getD 0 + 1) b) where
  started sid hsid := by
    change sid < b.sessionCount + 1
    by_cases heq : sid = b.sessionCount
    · rw [heq]
      exact Nat.lt_succ_self _
    · simp only [Server.startSession, Function.update_of_ne heq] at hsid
      exact Nat.lt_succ_of_lt (h.started sid hsid)
  active := by
    change b.activeConnections + 1 = ((b.sessionCount + 1 : Nat) : Int)
    rw [h.active]
    omega
  perIp hall ip' := by
    have hopen : ∀ sid < b.sessionCount, (b.sessions sid).socketOpen = true := by
      intro sid hsid
      have hne : sid ≠ b.sessionCount := by omega
      have hlt : sid < b.sessionCount + 1 := by omega
      simpa [Server.startSession, hne] using hall sid hlt
    have hbefore := h.perIp hopen ip'
    rw [startedFrom_startSession]
    change ((b.server.connectionsPerIp.insert ip _).lookup ip').getD 0 = _
    rw [Map.lookup_insert_ite]
    by_cases heq : ip' = ip
    · subst heq
      simp only [if_true, Option.getD_some, hbefore]
      push_cast
      rfl
    · have hne : ip ≠ ip' := fun h => heq h.symm
      simp only [heq, hne, if_false, hbefore, Nat.add_zero]

theorem StartedCounts.onAccept {b : Broker α} (h : StartedCounts b) (cfg : Config)
    (ip : Bytes) : StartedCounts (Server.onAccept cfg ip b) := by
  unfold Server.onAccept
  dsimp only
  split_ifs
  · exact h
  · refine h.of_same rfl rfl ?_ (fun _ => rfl) (fun _ => id) (fun _ => id)
    intro ip'
    rw [Map.lookup_insert_ite]
    split_ifs with heq
    · subst heq
      simp
    · rfl
  · exact h.startSession ip

theorem StartedCounts.register {b : Broker α} (h : StartedCounts b) (env : Env α)
    {sid : SessionId} (conn : ConnectPacket) (hreading : b.reading = some sid) :
    StartedCounts (Session.register env sid conn b) := by
  refine h.of_same rfl rfl (fun _ => rfl) ?_ ?_ ?_
  · intro other
    by_cases heq : other = sid
    · subst heq
      simp [Session.register, Session.adopt]
    · simp [Session.register, heq]
  · intro other
    by_cases heq : other = sid
    · subst heq
      simp [Session.register, Session.adopt]
    · simp [Session.register, heq]
  · intro other hother
    by_cases heq : other = sid
    · subst heq
      exact Or.inr (Or.inr hreading)
    · simp only [Session.register, Broker.sessions_modifySession,
        Function.update_of_ne heq] at hother
      exact hother

theorem StartedCounts.beginRead {b : Broker α} (h : StartedCounts b) {sid : SessionId}
    (hread : (b.sessions sid).readPending = true) :
    StartedCounts (Session.beginRead sid b) := by
  have hbefore : StartedCounts (b.setReading (some sid)) := by
    refine h.of_same rfl rfl (fun _ => rfl) (fun _ => rfl) (fun _ => id) ?_
    rintro other (hconn | hother | hreading)
    · exact Or.inl hconn
    · exact Or.inr (Or.inl hother)
    · have heq : sid = other := Option.some.inj hreading
      exact Or.inr (Or.inl (heq ▸ hread))
  change StartedCounts ((b.setReading (some sid)).modifySession sid fun s =>
    { s with readPending := false })
  refine hbefore.modifySession sid (fun _ => rfl) (fun _ => id) ?_
  rintro s (hconn | hpending)
  · exact Or.inl hconn
  · cases hpending

theorem StartedCounts.stopReading {b : Broker α} (h : StartedCounts b) :
    StartedCounts (b.setReading none) := by
  refine h.of_same rfl rfl (fun _ => rfl) (fun _ => rfl) (fun _ => id) ?_
  rintro other (hconn | hother | hreading)
  · exact Or.inl hconn
  · exact Or.inr (Or.inl hother)
  · cases hreading

theorem startedCounts_inductive (env : Env α) : Inductive env (StartedCounts (α := α)) where
  frame := startedCounts_frame
  tables :=
    { pending := fun _ _ h => h.unchanged rfl rfl rfl rfl rfl
      outgoing := fun _ _ h => h.unchanged rfl rfl rfl rfl rfl
      noteSent := fun _ _ h => h.unchanged rfl rfl rfl rfl rfl
      noteSettled := fun _ _ h => h.unchanged rfl rfl rfl rfl rfl }
  ingest :=
    { incoming := fun _ _ h => h.unchanged rfl rfl rfl rfl rfl
      noteIngest := fun _ _ _ _ h => h.unchanged rfl rfl rfl rfl rfl }
  register _ _ conn hreading _ _ h := h.register env conn hreading
  block b old h := by
    have hidle : StartedCounts (b.modifySession old fun s => { s with connected := false }) := by
      refine h.modifySession old (fun _ => rfl) (fun _ => id) ?_
      rintro s (hconn | hread)
      · cases hconn
      · exact Or.inr hread
    exact hidle.unchanged rfl rfl rfl rfl rfl
  noteHandled _ _ _ h := h.unchanged rfl rfl rfl rfl rfl
  beginRead _ _ hread h := h.beginRead hread
  rearm b sid _ h := by
    refine h.modifySession sid ?_ ?_ ?_
    · intro s
      unfold Session.rearm
      split <;> rfl
    · intro s
      unfold Session.rearm
      split <;> exact id
    · intro s
      unfold Session.rearm
      split
      · rename_i hconn
        exact fun _ => Or.inl hconn
      · exact id
  stopReading _ h := h.stopReading
  dropRead b sid h := by
    refine h.modifySession sid (fun _ => rfl) (fun _ => id) ?_
    rintro s (hconn | hread)
    · exact Or.inl hconn
    · cases hread
  clock _ _ h := h.unchanged rfl rfl rfl rfl rfl
  accept b ip h := h.onAccept env.cfg ip
  destroy b sid _ _ h := by
    refine h.modifySession sid (fun _ => rfl) (fun _ hs => by cases hs) ?_
    rintro s (hconn | hread)
    · cases hconn
    · exact Or.inr hread

theorem startedCounts_init (auth : α) : StartedCounts ({ auth } : Broker α) where
  started sid h := by simp at h
  active := rfl
  perIp _ ip := rfl

/-! ## Exactness -/

theorem onAccept_rejects_iff (cfg : Config) (ip : Bytes) (b : Broker α) :
    (Server.onAccept cfg ip b).sessionCount = b.sessionCount ↔
      b.activeConnections ≥ cfg.maxConnections ∨
        (b.server.connectionsPerIp.lookup ip).getD 0 ≥ cfg.maxConnectionsPerIp := by
  unfold Server.onAccept
  dsimp only
  split_ifs with hactive hperIp
  · simp [hactive]
  · have hge : (b.server.connectionsPerIp.lookup ip).getD 0 ≥ cfg.maxConnectionsPerIp := by
      omega
    simp [hge]
  · have hstarted : (Server.startSession ip
        ((b.server.connectionsPerIp.lookup ip).getD 0 + 1) b).sessionCount =
        b.sessionCount + 1 := rfl
    rw [hstarted]
    constructor
    · intro h
      omega
    · rintro (h | h)
      · exact absurd h hactive
      · omega

/-- In every reachable state the accounting is exact if and only if no session
has ended: one that has stays counted in the total for good. -/
theorem connectionAccounting_iff_all_served (env : Env α) (n : Runtime α)
    (hn : (brokerSystem env).Reachable n) :
    ConnectionAccounting env.cfg n.toBroker ↔
      ∀ sid < n.sessionCount, Served n.toBroker sid := by
  have hcounts : StartedCounts n.toBroker :=
    (startedCounts_inductive env).reachable startedCounts_init hn
  constructor
  · intro hexact
    have hcard : (servedSessions n.toBroker).card = (Finset.range n.sessionCount).card := by
      have hactive := hcounts.active
      rw [hexact.active] at hactive
      rw [Finset.card_range]
      omega
    intro sid hsid
    exact Finset.filter_card_eq hcard sid (Finset.mem_range.mpr hsid)
  · intro hall
    have hserved : servedSessions n.toBroker = Finset.range n.sessionCount := by
      apply Finset.filter_true_of_mem
      intro sid hsid
      exact hall sid (Finset.mem_range.mp hsid)
    have hfrom : ∀ ip, servedFrom n.toBroker ip = startedFrom n.toBroker ip := by
      intro ip
      unfold servedFrom startedFrom
      rw [hserved]
    have hactive : n.activeConnections = ((servedSessions n.toBroker).card : Int) := by
      rw [hserved, Finset.card_range, hcounts.active]
    have hperIp : ∀ ip, (n.server.connectionsPerIp.lookup ip).getD 0 =
        ((servedFrom n.toBroker ip).card : Int) := by
      intro ip
      rw [hfrom, hcounts.perIp fun sid hsid => (hall sid hsid).1]
    refine ⟨hperIp, hactive, ?_⟩
    intro ip
    rw [onAccept_rejects_iff, hactive, hperIp]

/-- One connection has been accepted and is being read. -/
theorem connectionAccounting_after_accept :
    (brokerSystem defaultEnv).Reachable
      ((brokerSystem defaultEnv).after { auth := () } [.accept [0x69]]) ∧
    ConnectionAccounting {}
      ((brokerSystem defaultEnv).after { auth := () } [.accept [0x69]]).toBroker := by
  have hreach : (brokerSystem defaultEnv).Reachable
      ((brokerSystem defaultEnv).after { auth := () } [.accept [0x69]]) :=
    .of_allowed ⟨(), rfl⟩ ⟨⟨rfl, rfl, trivial⟩, trivial⟩
  refine ⟨hreach, (connectionAccounting_iff_all_served defaultEnv _ hreach).mpr ?_⟩
  decide +kernel

/-- A client that sends CONNECT and DISCONNECT is counted for good. -/
theorem connectionAccounting_fails_after_disconnect :
    (brokerSystem defaultEnv).Reachable
      ((brokerSystem defaultEnv).after { auth := () }
        [.accept [0x69], .read 0 (connectBytes true [0x63] ++ disconnectBytes), .turn 0, .turn 0,
          .turn 0]) ∧
    ¬ConnectionAccounting {}
      ((brokerSystem defaultEnv).after { auth := () }
        [.accept [0x69], .read 0 (connectBytes true [0x63] ++ disconnectBytes), .turn 0, .turn 0,
          .turn 0]).toBroker := by
  constructor
  · refine .of_allowed ⟨(), rfl⟩ ⟨⟨rfl, rfl, trivial⟩, ⟨rfl, rfl, rfl, ?_, ?_⟩, ?_⟩
    · decide
    · decide
    · refine ⟨⟨?_, ?_⟩, ⟨?_, ?_⟩, ⟨?_, ?_⟩, trivial⟩ <;> decide +kernel
  · intro hexact
    have hactive := hexact.active
    revert hactive
    decide +kernel

end JellyBroker
