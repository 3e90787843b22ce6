import JellyBroker.Broker.Invariant
import JellyBroker.Broker.WritePath
/-!
# The lifetime of sessions

`start_keepalive` hands the session's own timer a callback that owns the session, and
nothing takes the callback back: `cancel` and the expiry leave it in the timer.  So the
timer keeps the session alive that keeps the timer, and a session that was once connected
is not destroyed, however its connection ends.
-/

namespace JellyBroker

open JellyBroker.Lib JellyBroker.Packet

variable {α : Type}

/-! ## Sessions that do not exist -/

/-- The session was destroyed, or has not been created. -/
def Missing (b : Broker α) (sid : SessionId) : Prop :=
  (b.sessions sid).alive = false ∨ b.sessionCount ≤ sid

def MissingIdle (b : Broker α) : Prop :=
  ∀ sid, Missing b sid → (b.sessions sid).connected = false ∧
    (b.sessions sid).readPending = false ∧ b.reading ≠ some sid

theorem MissingIdle.of_reading {b : Broker α} (h : MissingIdle b) {sid : SessionId}
    (hreading : b.reading = some sid) : ¬Missing b sid :=
  fun hmissing => (h sid hmissing).2.2 hreading

theorem MissingIdle.of_connected {b : Broker α} (h : MissingIdle b) {sid : SessionId}
    (hconn : (b.sessions sid).connected = true) : ¬Missing b sid := by
  intro hmissing
  rw [(h sid hmissing).1] at hconn
  cases hconn

theorem MissingIdle.modifySession {b : Broker α} (h : MissingIdle b) (sid : SessionId)
    {change : Session → Session} (halive : ∀ s, (change s).alive = s.alive)
    (hidle : Missing b sid → (change (b.sessions sid)).connected = false ∧
      (change (b.sessions sid)).readPending = false) :
    MissingIdle (b.modifySession sid change) := by
  intro other hmissing
  have hbefore : Missing b other := by
    rcases hmissing with hdead | hunused
    · left
      by_cases hother : other = sid
      · rwa [hother, Broker.sessions_modifySession_self, halive, ← hother] at hdead
      · rwa [Broker.sessions_modifySession_of_ne hother] at hdead
    · exact Or.inr hunused
  by_cases hother : other = sid
  · rw [hother] at hbefore ⊢
    rw [Broker.sessions_modifySession_self]
    exact ⟨(hidle hbefore).1, (hidle hbefore).2, (h sid hbefore).2.2⟩
  · rw [Broker.sessions_modifySession_of_ne hother]
    exact h other hbefore

theorem missingIdle_frame : Frame fun b b' : Broker α => MissingIdle b → MissingIdle b' where
  refl _ := id
  trans h h' := h' ∘ h
  misc _ _ _ _ _ _ _ h := h
  noteHanded _ _ h := h
  plumbing b sid change hchange h := by
    refine h.modifySession sid hchange.alive fun hmissing => ?_
    rw [hchange.connected, hchange.readPending]
    exact ⟨(h sid hmissing).1, (h sid hmissing).2.1⟩
  close b sid hconn h := by
    obtain ⟨tree, subManager, hclose⟩ := Session.close_of_connected hconn
    have hclosed : MissingIdle
        (b.modifySession sid fun s => { s with connected := false, socketOpen := false }) :=
      h.modifySession sid (fun _ => rfl) fun hmissing => ⟨rfl, (h sid hmissing).2.1⟩
    rw [hclose]
    exact hclosed
  disconnect b sid h := h.modifySession sid (fun _ => rfl) fun hmissing =>
    ⟨rfl, (h sid hmissing).2.1⟩

theorem missingIdle_inductive (env : Env α) : Inductive env (MissingIdle (α := α)) where
  frame := missingIdle_frame
  tables := {
    pending := fun _ _ h => h
    outgoing := fun _ _ h => h
    noteSent := fun _ _ h => h
    noteSettled := fun _ _ h => h }
  ingest := { incoming := fun _ _ h => h, noteIngest := fun _ _ _ _ h => h }
  register b sid conn hreading _ _ h :=
    MissingIdle.modifySession (b := { b with
      server.activeClients := b.server.activeClients.insert conn.clientId sid }) h sid
      (fun _ => rfl) fun hmissing => absurd hmissing (h.of_reading hreading)
  block b old h := missingIdle_frame.disconnect b old h
  noteHandled _ _ _ h := h
  beginRead b sid hpending h := by
    have hread : MissingIdle (b.modifySession sid fun s => { s with readPending := false }) :=
      h.modifySession sid (fun _ => rfl) fun hmissing => ⟨(h sid hmissing).1, rfl⟩
    have hexists : ¬Missing b sid := by
      intro hmissing
      rw [(h sid hmissing).2.1] at hpending
      cases hpending
    intro other hmissing
    obtain ⟨hidle, hnone, _⟩ := hread other hmissing
    refine ⟨hidle, hnone, ?_⟩
    -- the session whose read completes exists
    intro hsid
    obtain rfl : sid = other := Option.some.inj hsid
    refine hexists (hmissing.imp_left fun hdead => ?_)
    change ((b.modifySession sid fun s => { s with readPending := false }).sessions sid).alive =
      false at hdead
    rwa [Broker.sessions_modifySession_self] at hdead
  rearm b sid hreading h := by
    refine h.modifySession sid ?_ fun hmissing => absurd hmissing (h.of_reading hreading)
    intro s
    unfold Session.rearm
    split_ifs <;> rfl
  stopReading b h sid hmissing := by
    obtain ⟨hidle, hnone, _⟩ := h sid hmissing
    refine ⟨hidle, hnone, ?_⟩
    intro hsid
    cases hsid
  dropRead b sid h := h.modifySession sid (fun _ => rfl) fun hmissing => ⟨(h sid hmissing).1, rfl⟩
  clock _ _ h := h
  accept b ip h := by
    unfold Server.onAccept
    dsimp only
    split_ifs
    · exact h
    · exact h
    · intro sid hmissing
      by_cases hsid : sid = b.sessionCount
      · rw [hsid] at hmissing
        rcases hmissing with hdead | hunused
        · rw [show (Server.startSession ip _ b).sessions b.sessionCount =
            { remoteIp := ip, readPending := true } from Function.update_self _ _ _] at hdead
          cases hdead
        · exact absurd hunused (Nat.not_succ_le_self _)
      · have hsame : (Server.startSession ip ((b.server.connectionsPerIp.lookup ip).getD 0 + 1)
            b).sessions sid = b.sessions sid := Function.update_of_ne hsid _ _
        rw [Missing, hsame] at hmissing
        rw [hsame]
        exact h sid (hmissing.imp_right fun hunused => (Nat.le_succ _).trans hunused)
  destroy b sid hcount howned h := by
    intro other hmissing
    by_cases hother : other = sid
    · rw [hother, Broker.sessions_modifySession_self]
      refine ⟨rfl, ?_, fun hreading => howned (Or.inr (Or.inr (Or.inr (Or.inl hreading))))⟩
      change (b.sessions sid).readPending = false
      by_contra hpending
      rw [Bool.not_eq_false] at hpending
      exact howned (Or.inl hpending)
    · rw [Missing, Broker.sessions_modifySession_of_ne hother] at hmissing
      rw [Broker.sessions_modifySession_of_ne hother]
      exact h other hmissing

theorem missingIdle_reachable {env : Env α} {n : Runtime α} (h : (brokerSystem env).Reachable n) :
    MissingIdle n.toBroker := by
  refine (missingIdle_inductive env).reachable ?_ h
  intro auth sid _
  exact ⟨rfl, rfl, Option.some_ne_none sid |>.symm⟩

/-! ## Timers that stay -/

def Timed (b : Broker α) : Prop :=
  ∀ sid, (b.sessions sid).connected = true → (b.sessions sid).keepaliveTimer ≠ none

def Keeps (b b' : Broker α) : Prop :=
  ∀ sid, (b.sessions sid).keepaliveTimer ≠ none →
    (b'.sessions sid).keepaliveTimer ≠ none ∧ (b'.sessions sid).alive = (b.sessions sid).alive

/-- Timers stay, no session without one is connected, and only the session `owner` may get
a new one. -/
structure Lasts (owner : Option SessionId) (b b' : Broker α) : Prop where
  keeps : Keeps b b'
  timed : Timed b → Timed b'
  used : ∀ sid, owner ≠ some sid → (b'.sessions sid).keepaliveTimer ≠ none →
    (b.sessions sid).keepaliveTimer ≠ none
  count : b'.sessionCount = b.sessionCount

variable {owner : Option SessionId}

theorem Lasts.of_sessions {b b' : Broker α} (h : b'.sessions = b.sessions)
    (hcount : b'.sessionCount = b.sessionCount) : Lasts owner b b' where
  keeps sid htimer := by
    rw [h]
    exact ⟨htimer, rfl⟩
  timed htimed sid := by
    rw [h]
    exact htimed sid
  used sid _ htimer := by rwa [h] at htimer
  count := hcount

theorem Lasts.trans {b₁ b₂ b₃ : Broker α} (h : Lasts owner b₁ b₂) (h' : Lasts owner b₂ b₃) :
    Lasts owner b₁ b₃ where
  keeps sid htimer := by
    obtain ⟨htimer₂, halive₂⟩ := h.keeps sid htimer
    obtain ⟨htimer₃, halive₃⟩ := h'.keeps sid htimer₂
    exact ⟨htimer₃, halive₃.trans halive₂⟩
  timed := h'.timed ∘ h.timed
  used sid hne htimer := h.used sid hne (h'.used sid hne htimer)
  count := h'.count.trans h.count

/-- One session changes: it keeps its timer, is not connected without one, and gets a new
one only as the owner. -/
theorem Lasts.of_update {b b' : Broker α} {sid : SessionId} {session : Session}
    (hsessions : b'.sessions = Function.update b.sessions sid session)
    (hcount : b'.sessionCount = b.sessionCount)
    (htimer : (b.sessions sid).keepaliveTimer ≠ none →
      session.keepaliveTimer ≠ none ∧ session.alive = (b.sessions sid).alive)
    (hconnected : session.connected = true →
      (b.sessions sid).connected = true ∨ session.keepaliveTimer ≠ none)
    (hused : owner ≠ some sid → session.keepaliveTimer ≠ none →
      (b.sessions sid).keepaliveTimer ≠ none) : Lasts owner b b' := by
  have hself : b'.sessions sid = session := by rw [hsessions, Function.update_self]
  have hothers (other : SessionId) (hother : other ≠ sid) :
      b'.sessions other = b.sessions other := by
    rw [hsessions, Function.update_of_ne hother]
  refine ⟨?_, ?_, ?_, hcount⟩
  · intro other h
    by_cases hother : other = sid
    · rw [hother] at h ⊢
      rw [hself]
      exact htimer h
    · rw [hothers other hother]
      exact ⟨h, rfl⟩
  · intro htimed other
    by_cases hother : other = sid
    · rw [hother, hself]
      intro hconn
      rcases hconnected hconn with hbefore | hkept
      · exact (htimer (htimed sid hbefore)).1
      · exact hkept
    · rw [hothers other hother]
      exact htimed other
  · intro other hne h
    by_cases hother : other = sid
    · rw [hother] at hne h ⊢
      rw [hself] at h
      exact hused hne h
    · rwa [hothers other hother] at h

theorem Lasts.modifySession (b : Broker α) (sid : SessionId) {change : Session → Session}
    (htimer : ∀ s, (change s).keepaliveTimer = s.keepaliveTimer)
    (halive : ∀ s, (change s).alive = s.alive)
    (hconnected : ∀ s, (change s).connected = true → s.connected = true) :
    Lasts owner b (b.modifySession sid change) := by
  refine .of_update rfl rfl ?_ (fun hconn => Or.inl (hconnected _ hconn)) ?_
  · intro h
    rw [htimer, halive]
    exact ⟨h, rfl⟩
  · intro _ h
    rwa [htimer] at h

theorem lasts_close (b : Broker α) (sid : SessionId) :
    Lasts owner b (Session.close false sid b) := by
  by_cases hconn : (b.sessions sid).connected = true
  · obtain ⟨tree, subManager, hclose⟩ := Session.close_of_connected hconn
    have hsessions : (Session.close false sid b).sessions = Function.update b.sessions sid
        { b.sessions sid with connected := false, socketOpen := false } := by
      rw [hclose]
    have hcount : (Session.close false sid b).sessionCount = b.sessionCount := by
      rw [hclose]
    refine .of_update hsessions hcount (fun h => ⟨h, rfl⟩) ?_ fun _ h => h
    intro h
    cases h
  · rw [Session.close_of_idle (by simpa using hconn)]
    exact .of_sessions rfl rfl

theorem keepaliveTimer_enqueue (packet : OutPacket) (s : Session) :
    (Session.enqueue packet s).keepaliveTimer = s.keepaliveTimer := by
  unfold Session.enqueue
  dsimp only
  split_ifs
  · rw [doWrite_eq]
  · rfl

theorem lasts_deliver (env : Env α) (sid : SessionId) (packet : OutPacket) (b : Broker α) :
    Lasts owner b (Session.deliver env sid packet b) := by
  have hnoted (call : Handed) : Lasts owner b (b.observe (.noteHanded call)) := .of_sessions rfl rfl
  unfold Session.deliver
  dsimp only
  split_ifs
  · exact hnoted _
  · exact (hnoted _).trans (lasts_close _ sid)
  · refine (hnoted _).trans (.modifySession _ sid (keepaliveTimer_enqueue packet)
      (plumbing_enqueue packet).alive fun s hconn => ?_)
    rwa [(plumbing_enqueue packet).connected] at hconn

theorem lasts_startKeepalive (b : Broker α) (sid : SessionId) :
    Lasts (some sid) b (b.modifySession sid Session.startKeepalive) := by
  refine .of_update rfl rfl ?_ ?_ fun hne => absurd rfl hne
  · intro h
    unfold Session.startKeepalive
    split_ifs
    · exact ⟨h, rfl⟩
    · exact ⟨Option.some_ne_none _, rfl⟩
  · intro hconn
    rw [plumbing_startKeepalive.connected] at hconn
    exact Or.inl hconn

theorem lasts_session (env : Env α) (sid : SessionId) :
    SessionFrame env sid (fun _ => True) (Lasts (α := α) (some sid)) where
  refl _ := .of_sessions rfl rfl
  trans := .trans
  deliver target packet b _ := lasts_deliver env target packet b
  self := trivial
  counters _ _ := .of_sessions rfl rfl
  acl _ _ _ _ := .of_sessions rfl rfl
  close b _ := lasts_close b sid
  keepalive b := lasts_startKeepalive b sid

theorem lasts_tables : TablesFree (Lasts (α := α) owner) where
  pending _ _ := .of_sessions rfl rfl
  outgoing _ _ := .of_sessions rfl rfl
  noteSent _ _ := .of_sessions rfl rfl
  noteSettled _ _ := .of_sessions rfl rfl

theorem lasts_ingest : IngestFree (Lasts (α := α) owner) where
  incoming _ _ := .of_sessions rfl rfl
  noteIngest _ _ _ _ := .of_sessions rfl rfl

theorem lasts_auth : AuthFree (Lasts (α := α) owner) where
  auth _ _ := .of_sessions rfl rfl
  authTables _ _ _ := .of_sessions rfl rfl

theorem lasts_disconnect (b : Broker α) (sid : SessionId) :
    Lasts owner b (b.modifySession sid fun s => { s with connected := false }) :=
  .modifySession b sid (fun _ => rfl) (fun _ => rfl) fun _ h => by cases h

theorem lasts_loop (env : Env α) (sid : SessionId) :
    LoopClosed env sid (fun _ => True) (Lasts (α := α) (some sid)) where
  toSessionFrame := lasts_session env sid
  noteHandled _ _ := .of_sessions rfl rfl
  rearm b _ := by
    refine .modifySession b sid ?_ ?_ ?_
    · intro s
      unfold Session.rearm
      split_ifs <;> rfl
    · intro s
      unfold Session.rearm
      split_ifs <;> rfl
    · intro s hconn
      unfold Session.rearm at hconn
      split_ifs at hconn
      · exact hconn
      · exact hconn
  stopReading _ := .of_sessions rfl rfl

/-! ## CONNECT -/

/-- With a valid configuration no CONNECT gets the keepalive 0. -/
theorem grantedKeepalive_ne_zero {cfg : Config} (h : cfg.isValid = true) (requested : UInt16) :
    Session.grantedKeepalive cfg requested ≠ 0 := by
  have hbounds : 10 ≤ cfg.maxKeepalive ∧ cfg.maxKeepalive ≤ 65535 := by
    simp only [Config.isValid, Bool.and_eq_true, Bool.not_eq_true', Bool.or_eq_false_iff,
      decide_eq_false_iff_not] at h
    omega
  unfold Session.grantedKeepalive
  split_ifs with hmax
  · intro hzero
    have hnat := congrArg UInt16.toNat hzero
    rw [UInt16.ofInt, UInt16.toNat_ofNat'] at hnat
    change _ = 0 at hnat
    omega
  · intro hzero
    exact hmax (Or.inl hzero)

theorem sessions_acceptConnect {env : Env α} (hvalid : env.cfg.isValid = true) {sid : SessionId}
    {conn : ConnectPacket} {b : Broker α} (hblocked : b.blocked = false)
    (hclear : ∀ old, ¬Displaces b sid conn.clientId old) :
    ∃ session, (Session.acceptConnect env sid conn b).sessions =
        Function.update b.sessions sid session ∧
      session.keepaliveTimer = some true ∧ session.alive = (b.sessions sid).alive := by
  rw [acceptConnect_of_clear env hblocked hclear]
  -- the sessions after the registration, and what the CONNACK leaves of this one
  have hregistered (other : SessionId) :
      (Session.restoreSubscriptions sid conn (Session.register env sid conn
        (Session.forgetFailures sid b))).sessions other =
      Function.update b.sessions sid (Session.adopt env.cfg conn (b.sessions sid)) other := by
    unfold Session.restoreSubscriptions
    split_ifs <;> rfl
  have hkept (packet : OutPacket) (s : Session) :
      (deliverOwn env.cfg packet s).keepalive = s.keepalive ∧
        (deliverOwn env.cfg packet s).alive = s.alive := by
    unfold deliverOwn Session.enqueue
    dsimp only
    split_ifs
    · exact ⟨rfl, rfl⟩
    · exact ⟨rfl, rfl⟩
    · rw [doWrite_eq]
      exact ⟨rfl, rfl⟩
    · exact ⟨rfl, rfl⟩
  have hsessions (packet : OutPacket) :
      ((Session.deliver env sid packet (Session.restoreSubscriptions sid conn
        (Session.register env sid conn (Session.forgetFailures sid b)))).modifySession sid
        Session.startKeepalive).sessions = Function.update b.sessions sid
          (Session.startKeepalive
            (deliverOwn env.cfg packet (Session.adopt env.cfg conn (b.sessions sid)))) := by
    funext other
    by_cases hother : other = sid
    · rw [hother, Broker.sessions_modifySession_self, sessions_deliver_self, hregistered,
        Function.update_self, Function.update_self]
    · rw [Broker.sessions_modifySession_of_ne hother, sessions_deliver_of_ne hother, hregistered,
        Function.update_of_ne hother, Function.update_of_ne hother]
  have hstarted (packet : OutPacket) : Session.startKeepalive
      (deliverOwn env.cfg packet (Session.adopt env.cfg conn (b.sessions sid))) =
      { deliverOwn env.cfg packet (Session.adopt env.cfg conn (b.sessions sid)) with
        keepaliveTimer := some true } := by
    unfold Session.startKeepalive
    rw [if_neg (by rw [(hkept _ _).1]; exact grantedKeepalive_ne_zero hvalid _)]
  refine ⟨_, hsessions _, ?_, ?_⟩
  · rw [hstarted]
  · rw [hstarted]
    exact (hkept _ _).2

theorem sessionCount_acceptConnect (env : Env α) {sid : SessionId} {conn : ConnectPacket}
    {b : Broker α} (hblocked : b.blocked = false)
    (hclear : ∀ old, ¬Displaces b sid conn.clientId old) :
    (Session.acceptConnect env sid conn b).sessionCount = b.sessionCount := by
  have hdelivered (packet : OutPacket) (b' : Broker α) :
      Lasts (some sid) b' (Session.deliver env sid packet b') := lasts_deliver env sid packet b'
  rw [acceptConnect_of_clear env hblocked hclear]
  refine (hdelivered _ _).count.trans ?_
  unfold Session.restoreSubscriptions
  split_ifs <;> rfl

theorem lasts_acceptConnect {env : Env α} (hvalid : env.cfg.isValid = true) {sid : SessionId}
    {conn : ConnectPacket} {b : Broker α} (hblocked : b.blocked = false) :
    Lasts (some sid) b (Session.acceptConnect env sid conn b) := by
  by_cases hclear : ∀ old, ¬Displaces b sid conn.clientId old
  · obtain ⟨session, hsessions, htimer, halive⟩ :=
      sessions_acceptConnect hvalid hblocked hclear
    refine .of_update hsessions (sessionCount_acceptConnect env hblocked hclear) ?_ ?_ fun hne =>
      absurd rfl hne
    · intro _
      rw [htimer]
      exact ⟨Option.some_ne_none _, halive⟩
    · intro _
      rw [htimer]
      exact Or.inr (Option.some_ne_none _)
  · push Not at hclear
    obtain ⟨old, hold⟩ := hclear
    rw [acceptConnect_of_displaces env hold]
    exact .trans (.of_sessions rfl rfl) (.trans (lasts_disconnect _ old) (.of_sessions rfl rfl))

/-! ## Steps and runs -/

theorem lasts_handlePacket {env : Env α} (hvalid : env.cfg.isValid = true) {sid : SessionId}
    {b : Broker α} (hblocked : b.blocked = false) (packet : Bytes) :
    Lasts (some sid) b (Session.handlePacket env sid packet b).1 := by
  have hS := lasts_session env sid
  apply hS.handlePacket
  intro hdr body _
  constructor
  · intro _
    refine hS.handleConnect lasts_auth ?_
    intro conn auth failures bans _
    have hready : Lasts (some sid) b ((b.setAuthTables failures bans).setAuth auth) :=
      .of_sessions rfl rfl
    exact hready.trans (lasts_acceptConnect hvalid hblocked)
  · intro pub _ auth _ _ _ _ hset
    refine hset.trans (hS.acceptPublish (lasts_ingest.of _) (hS.qos1Deliver
      lasts_tables.toPendingFree pub) fun b => ?_)
    unfold Session.storeRetained
    split_ifs <;> exact .of_sessions rfl rfl
  · intro packetId _ _ _ _
    exact hS.qos1HandlePuback lasts_tables.toPendingFree _ packetId b
  · intro packetId _ _ _ _
    exact hS.qos2HandlePubrec lasts_tables.toOutgoingFree fun _ _ => trivial
  · intro packetId _ _ _ _
    refine hS.releaseQos2 (lasts_ingest.of _) ?_ ?_
    · intro msg b' _
      exact hS.qos2Deliver lasts_tables.toOutgoingFree _ b'
    · intro _
      exact hS.qos2HandlePubrel lasts_tables.toOutgoingFree _ packetId _
  · intro packetId _ _ _ _
    exact hS.qos2HandlePubcomp lasts_tables.toOutgoingFree _ packetId b
  · intro sub _ _ _ _
    exact hS.subscribeAll lasts_tables.toNotesFree (fun _ _ _ _ _ => .of_sessions rfl rfl) _ _ b
  · intro unsub _ _ _ _
    have hturn (b : Broker α) (filter : Bytes) :
        Lasts (some sid) b (Session.unsubscribeFrom sid filter b) := .of_sessions rfl rfl
    exact hS.foldl hturn _ b
  · intro _
    exact (lasts_disconnect b sid).trans (lasts_close _ sid)

/-- Every connected session has a timer, and no session that was not created. -/
structure Timers (b : Broker α) : Prop where
  timed : Timed b
  used : ∀ sid, (b.sessions sid).keepaliveTimer ≠ none → sid < b.sessionCount

theorem Lasts.timers {b b' : Broker α} (h : Lasts owner b b') (hb : Timers b)
    (howner : ∀ sid, owner = some sid → sid < b.sessionCount) : Timers b' := by
  refine ⟨h.timed hb.timed, ?_⟩
  intro sid htimer
  rw [h.count]
  by_cases hsid : owner = some sid
  · exact howner sid hsid
  · exact hb.used sid (h.used sid hsid htimer)

theorem timers_onAccept (cfg : Config) (ip : Bytes) {b : Broker α} (hb : Timers b) :
    Keeps b (Server.onAccept cfg ip b) ∧ Timers (Server.onAccept cfg ip b) := by
  have hcount : b.sessionCount ≤ (Server.onAccept cfg ip b).sessionCount := by
    unfold Server.onAccept
    dsimp only
    split_ifs
    · exact le_rfl
    · exact le_rfl
    · exact Nat.le_succ _
  refine ⟨?_, ?_, ?_⟩
  · intro sid htimer
    rcases Server.sessions_onAccept cfg ip b sid with hsame | ⟨hnew, _⟩
    · rw [hsame]
      exact ⟨htimer, rfl⟩
    · exact absurd (hb.used sid htimer) (by rw [hnew]; exact lt_irrefl _)
  · intro sid hconn
    rcases Server.sessions_onAccept cfg ip b sid with hsame | ⟨_, hnew⟩
    · rw [hsame] at hconn ⊢
      exact hb.timed sid hconn
    · rw [hnew] at hconn
      cases hconn
  · intro sid htimer
    rcases Server.sessions_onAccept cfg ip b sid with hsame | ⟨_, hnew⟩
    · rw [hsame] at htimer
      exact (hb.used sid htimer).trans_le hcount
    · rw [hnew] at htimer
      exact absurd rfl htimer

theorem lasts_turn {env : Env α} (hvalid : env.cfg.isValid = true) {n : Runtime α}
    {sid : SessionId} (henabled : n.toBroker.Enabled (.turn sid)) :
    Lasts (some sid) n.toBroker (n.step env (.turn sid)).toBroker := by
  refine (lasts_loop env sid).onReadTurn henabled.2 ?_
  intro packet _ _
  refine lasts_handlePacket hvalid ?_ packet
  exact henabled.1

theorem lasts_event {env : Env α} {n : Runtime α} {e : Event} (hturn : ∀ sid, e ≠ .turn sid)
    (haccept : ∀ ip, e ≠ .accept ip) (henabled : n.toBroker.Enabled e) :
    Lasts none n.toBroker (n.step env e).toBroker := by
  have hD : DeliveryFrame env (fun _ => True) (Lasts (α := α) none) := {
    refl := fun _ => .of_sessions rfl rfl
    trans := .trans
    deliver := fun target packet b _ => lasts_deliver env target packet b }
  cases e with
  | accept ip => exact absurd rfl (haccept ip)
  | acceptError => exact .of_sessions rfl rfl
  | read sid chunk =>
      have hread : Lasts none n.toBroker
          (n.toBroker.modifySession sid fun s => { s with readPending := false }) :=
        .modifySession _ sid (fun _ => rfl) (fun _ => rfl) fun _ h => h
      exact hread.trans (.of_sessions rfl rfl)
  | turn sid => exact absurd rfl (hturn sid)
  | readError sid =>
      refine .trans (.modifySession _ sid ?_ ?_ ?_) (lasts_close _ sid)
      · exact fun _ => rfl
      · exact fun _ => rfl
      · exact fun _ h => h
  | writeDone sid =>
      refine .modifySession _ sid ?_ plumbing_onWrite.alive fun s h => ?_
      · intro s
        unfold Session.onWrite
        rw [doWrite_eq]
      · rwa [plumbing_onWrite.connected] at h
  | writeError sid =>
      refine .trans (.modifySession _ sid ?_ ?_ ?_) (lasts_close _ sid)
      · exact fun _ => rfl
      · exact fun _ => rfl
      · exact fun _ h => h
  | keepaliveTimeout sid =>
      -- the timer has expired, but its callback stays in it
      have hexpired : Lasts none n.toBroker
          (n.toBroker.modifySession sid fun s => { s with keepaliveTimer := some false }) := by
        refine .of_update rfl rfl ?_ ?_ ?_
        · exact fun _ => ⟨Option.some_ne_none _, rfl⟩
        · exact fun _ => Or.inr (Option.some_ne_none _)
        · intro _ _
          rw [henabled.2.2]
          exact Option.some_ne_none _
      exact hexpired.trans (lasts_close _ sid)
  | retryQos1 clientId packetId =>
      exact hD.qos1RetryMessage lasts_tables.toPendingFree clientId packetId _
  | retryQos2 clientId packetId =>
      exact hD.qos2RetryMessage lasts_tables.toOutgoingFree clientId packetId _
  | destroy sid =>
      -- a session with a timer is owned by the timer's callback
      refine .of_update rfl rfl ?_ ?_ fun _ h => h
      · exact fun htimer => absurd (Or.inr (Or.inr (Or.inl htimer))) henabled.2.2.2
      · intro h
        cases h
  | clock now => exact .of_sessions rfl rfl

theorem timers_step {env : Env α} (hvalid : env.cfg.isValid = true) {n : Runtime α} {e : Event}
    (hidle : MissingIdle n.toBroker) (hn : Timers n.toBroker) (henabled : n.toBroker.Enabled e) :
    Keeps n.toBroker (n.step env e).toBroker ∧ Timers (n.step env e).toBroker := by
  by_cases hturn : ∃ sid, e = .turn sid
  · obtain ⟨sid, rfl⟩ := hturn
    have hlasts := lasts_turn hvalid henabled
    refine ⟨hlasts.keeps, hlasts.timers hn ?_⟩
    intro owner howner
    obtain rfl := Option.some.inj howner
    by_contra hcount
    exact hidle.of_reading henabled.2 (Or.inr (not_lt.mp hcount))
  · by_cases haccept : ∃ ip, e = .accept ip
    · obtain ⟨ip, rfl⟩ := haccept
      exact timers_onAccept env.cfg ip hn
    · have hlasts : Lasts none n.toBroker (n.step env e).toBroker :=
        lasts_event (fun sid h => hturn ⟨sid, h⟩) (fun ip h => haccept ⟨ip, h⟩) henabled
      refine ⟨hlasts.keeps, hlasts.timers hn ?_⟩
      intro owner howner
      cases howner

theorem timers_reachable {env : Env α} (hvalid : env.cfg.isValid = true) {n : Runtime α}
    (h : (brokerSystem env).Reachable n) : Timers n.toBroker := by
  refine (h.invariant (P := fun n => MissingIdle n.toBroker ∧ Timers n.toBroker) ?_ ?_).2
  · rintro _ ⟨auth, rfl⟩
    refine ⟨fun sid _ => ⟨rfl, rfl, (Option.some_ne_none sid).symm⟩, ?_, ?_⟩
    · intro sid hconn
      cases hconn
    · intro sid htimer
      exact absurd rfl htimer
  · intro n e hn henabled
    have hidle := StepClosed.step (missingIdle_inductive env) henabled hn.1
    exact ⟨hidle, (timers_step hvalid hn.1 hn.2 henabled).2⟩

theorem keeps_run {env : Env α} (hvalid : env.cfg.isValid = true) {n n' : Runtime α}
    {events : List Event} (hn : (brokerSystem env).Reachable n)
    (hrun : (brokerSystem env).Run n events n') :
    (brokerSystem env).Reachable n' ∧ Keeps n.toBroker n'.toBroker := by
  refine hrun.preserves (P := fun t => (brokerSystem env).Reachable t ∧
    Keeps n.toBroker t.toBroker) ?_ ⟨hn, fun _ h => ⟨h, rfl⟩⟩
  intro t e ht henabled
  refine ⟨ht.1.step henabled, ?_⟩
  have hkeeps := (timers_step hvalid (missingIdle_reachable ht.1) (timers_reachable hvalid ht.1)
    henabled).1
  intro sid htimer
  obtain ⟨htimer', halive'⟩ := ht.2 sid htimer
  obtain ⟨htimer'', halive''⟩ := hkeeps sid htimer'
  exact ⟨htimer'', halive''.trans halive'⟩

/-- A session that is connected at some time is never destroyed after it, whatever happens
to its connection, and its number stays in use. -/
theorem connected_sessions_never_destroyed {env : Env α} (hvalid : env.cfg.isValid = true)
    {n n' : Runtime α} {events : List Event} {sid : SessionId}
    (hn : (brokerSystem env).Reachable n) (hconnected : (n.sessions sid).connected = true)
    (hrun : (brokerSystem env).Run n events n') :
    (n'.sessions sid).alive = true ∧ sid < n'.sessionCount ∧
      ¬n'.toBroker.Enabled (.destroy sid) := by
  obtain ⟨hn', hkeeps⟩ := keeps_run hvalid hn hrun
  obtain ⟨htimer, halive⟩ := hkeeps sid ((timers_reachable hvalid hn).timed sid hconnected)
  refine ⟨?_, (timers_reachable hvalid hn').used sid htimer, ?_⟩
  · rw [halive]
    by_contra hdead
    rw [Bool.not_eq_true] at hdead
    exact (missingIdle_reachable hn).of_connected hconnected (Or.inl hdead)
  · intro henabled
    exact henabled.2.2.2 (Or.inr (Or.inr (Or.inl htimer)))

def connecting : List Event :=
  [.accept [], .read 0 (connectBytes true [0x63]), .turn 0, .turn 0]

/-- A client that connects, and its session after the DISCONNECT. -/
theorem connected_sessions_never_destroyed_disconnect :
    ∃ n n' : Runtime Unit, (n.sessions 0).connected = true ∧
      (brokerSystem defaultEnv).Run n [.read 0 disconnectBytes, .turn 0, .turn 0] n' ∧
      (n'.sessions 0).connected = false ∧ (n'.sessions 0).readPending = false ∧
      (n'.sessions 0).alive = true ∧ 0 < n'.sessionCount ∧
      ¬n'.toBroker.Enabled (.destroy 0) := by
  have hn : (brokerSystem defaultEnv).Reachable
      ((brokerSystem defaultEnv).after { auth := () } connecting) :=
    .of_allowed ⟨(), rfl⟩ ⟨⟨rfl, rfl, trivial⟩, ⟨rfl, rfl, by decide +kernel⟩,
      ⟨rfl, rfl⟩, ⟨by decide +kernel, by decide +kernel⟩, trivial⟩
  have hconnected : (((brokerSystem defaultEnv).after { auth := () } connecting).sessions
      0).connected = true := by decide +kernel
  have hallowed : (brokerSystem defaultEnv).Allowed
      ((brokerSystem defaultEnv).after { auth := () } connecting)
      [.read 0 disconnectBytes, .turn 0, .turn 0] := by
    refine ⟨⟨?_, ?_, ?_⟩, ⟨?_, ?_⟩, ⟨?_, ?_⟩, trivial⟩ <;> decide +kernel
  have hrun := System.Run.of_allowed hallowed
  refine ⟨_, _, hconnected, hrun, by decide +kernel, by decide +kernel, ?_⟩
  exact connected_sessions_never_destroyed (by decide +kernel) hn hconnected hrun

end JellyBroker
