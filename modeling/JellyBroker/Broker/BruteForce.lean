import JellyBroker.Broker.Invariant
/-!
# Brute-force protection

An observer counts the failed calls of `authenticate` for one address and knows
when the address has to be banned.  The broker's own counts agree with the
observer's, unless a CONNECT without credentials makes the broker forget them.
-/

namespace JellyBroker

open JellyBroker.Auth JellyBroker.Lib JellyBroker.Packet

variable {α : Type}

/-! ## The observer -/

/-- The state of an authenticator together with what its calls of `authenticate`
returned or threw. -/
abbrev Recorded (α : Type) := α × List (Except String AuthResult)

/-- The authenticator with a log of the calls of `authenticate`. -/
def Auth.Authenticator.recording (auth : Authenticator α) : Authenticator (Recorded α) where
  authenticate state clientId username password :=
    let call := auth.authenticate state.1 clientId username password
    (call.1, call.2, state.2 ++ [call.1])
  checkAcl state username topic access :=
    let call := auth.checkAcl state.1 username topic access
    (call.1, call.2, state.2)

def Env.recording (env : Env α) : Env (Recorded α) where
  cfg := env.cfg
  auth := env.auth.recording

/-- What is to be held against an address: the calls of `authenticate` that
failed since the last one that succeeded or the end of the last ban, and the end
of the ban if they were enough for one. -/
structure Guard where
  failures : Nat := 0
  bannedUntil : Option Int := none
  deriving DecidableEq

namespace Guard

def Expired (now : Int) (guard : Guard) : Prop := ∃ t ∈ guard.bannedUntil, t ≤ now

instance (now : Int) (guard : Guard) : Decidable (guard.Expired now) :=
  inferInstanceAs (Decidable (∃ t ∈ guard.bannedUntil, t ≤ now))

def current (now : Int) (guard : Guard) : Guard :=
  if guard.Expired now then {} else guard

def fail (cfg : Config) (now : Int) (guard : Guard) : Guard where
  failures := (guard.current now).failures + 1
  bannedUntil :=
    if ((guard.current now).failures : Int) + 1 = cfg.maxAuthAttempts then
      some (now + cfg.authBanSeconds)
    else (guard.current now).bannedUntil

/-- The observer sees the calls that a step has made, which are one at most.  A
call that throws has neither failed nor succeeded. -/
def see (cfg : Config) (now : Int) (calls : List (Except String AuthResult)) (guard : Guard) :
    Guard :=
  match calls with
  | .ok result :: _ => if result.success then {} else guard.fail cfg now
  | _ => guard

def note (cfg : Config) (ip : Bytes) (n : Runtime (Recorded α)) (e : Event)
    (n' : Runtime (Recorded α)) (guard : Guard) : Guard :=
  match e with
  | .turn sid =>
      if (n.sessions sid).remoteIp = ip then
        guard.see cfg n.now (n'.auth.2.drop n.auth.2.length)
      else guard
  | _ => guard

end Guard

def ClockAdvances (n : Runtime α) (e : Event) : Prop := ∀ now, e = .clock now → n.now ≤ now

/-- The broker with an observer for the address. -/
def guardedSystem (env : Env α) (ip : Bytes) : System (Runtime (Recorded α) × Guard) Event :=
  ((brokerSystem env.recording).restrict ClockAdvances).watch {} (Guard.note env.cfg ip)

/-- A CONNECT from a banned address is refused without a call of `authenticate`,
and no failure is forgotten before the ban is over. -/
structure BruteForceSafe (env : Env α) (ip : Bytes) (n : Runtime (Recorded α)) (guard : Guard) :
    Prop where
  refused : ∀ banUntil sid body, guard.bannedUntil = some banUntil → n.now < banUntil →
    (n.sessions sid).remoteIp = ip → NextConnect env.recording n sid body →
    (n.step env.recording (.turn sid)).auth.2 = n.auth.2 ∧
      ((n.step env.recording (.turn sid)).sessions sid).connected = false
  remembered : ¬guard.Expired n.now →
    (n.server.authFailures.lookup ip).getD 0 = guard.failures

/-- No CONNECT without credentials gets past the rate limit while failures of
its address are counted and have not led to a ban. -/
def CountKept (env : Env α) (ip : Bytes) (n : Runtime α) (e : Event) : Prop :=
  ∀ sid body conn, e = .turn sid → (n.sessions sid).remoteIp = ip →
    NextConnect env n sid body → AdmittedConnect n.toBroker sid body conn →
    conn.username = [] → conn.password = [] →
    (n.server.authFailures.lookup ip).getD 0 = 0 ∨ n.server.authBanUntil.lookup ip ≠ none

/-! ## Packets other than CONNECT -/

structure KeepsTables (b b' : Broker α) : Prop where
  failures : b'.server.authFailures = b.server.authFailures
  bans : b'.server.authBanUntil = b.server.authBanUntil
  now : b'.now = b.now

theorem KeepsTables.trans {b₁ b₂ b₃ : Broker α} (h : KeepsTables b₁ b₂) (h' : KeepsTables b₂ b₃) :
    KeepsTables b₁ b₃ where
  failures := h'.failures.trans h.failures
  bans := h'.bans.trans h.bans
  now := h'.now.trans h.now

theorem keepsTables_core : CoreFrame (KeepsTables (α := α)) where
  refl _ := ⟨rfl, rfl, rfl⟩
  trans h h' := h.trans h'
  neutral _ _ _ := ⟨rfl, rfl, rfl⟩
  noteHanded _ _ := ⟨rfl, rfl, rfl⟩
  plumbing _ _ _ _ := ⟨rfl, rfl, rfl⟩
  close b sid hconn := by
    obtain ⟨tree, subManager, hclose⟩ := Session.close_of_connected hconn
    rw [hclose]
    exact ⟨rfl, rfl, rfl⟩

theorem keepsTables_tables : TablesFree (KeepsTables (α := α)) where
  pending _ _ := ⟨rfl, rfl, rfl⟩
  outgoing _ _ := ⟨rfl, rfl, rfl⟩
  noteSent _ _ := ⟨rfl, rfl, rfl⟩
  noteSettled _ _ := ⟨rfl, rfl, rfl⟩

theorem keepsTables_timeless (env : Env α) : TimelessClosed env (KeepsTables (α := α)) where
  core := keepsTables_core
  retryQos1 b clientId packetId :=
    (keepsTables_core.delivery env).qos1RetryMessage keepsTables_tables.toPendingFree clientId
      packetId b
  retryQos2 b clientId packetId :=
    (keepsTables_core.delivery env).qos2RetryMessage keepsTables_tables.toOutgoingFree clientId
      packetId b
  beginRead _ _ _ := ⟨rfl, rfl, rfl⟩
  dropRead _ _ := ⟨rfl, rfl, rfl⟩
  accept b ip := by
    unfold Server.onAccept
    dsimp only
    split_ifs
    · exact ⟨rfl, rfl, rfl⟩
    · exact ⟨rfl, rfl, rfl⟩
    · exact ⟨rfl, rfl, rfl⟩
  destroy _ _ _ _ := ⟨rfl, rfl, rfl⟩

structure KeepsAttempts (b b' : Broker (Recorded α)) : Prop extends KeepsTables b b' where
  log : b'.auth.2 = b.auth.2

theorem auth_close (sid : SessionId) (b : Broker α) :
    (Session.close false sid b).auth = b.auth := by
  by_cases hconn : (b.sessions sid).connected = true
  · obtain ⟨tree, subManager, hclose⟩ := Session.close_of_connected hconn
    rw [hclose]
  · rw [Session.close_of_idle (by simpa using hconn)]

theorem auth_deliver (env : Env α) (sid : SessionId) (packet : OutPacket) (b : Broker α) :
    (Session.deliver env sid packet b).auth = b.auth := by
  unfold Session.deliver
  dsimp only
  split_ifs
  · rfl
  · exact auth_close sid _
  · rfl

theorem keepsAttempts_session (env : Env α) (sid : SessionId) :
    SessionFrame env.recording sid (fun _ => True) (KeepsAttempts (α := α)) where
  refl _ := ⟨⟨rfl, rfl, rfl⟩, rfl⟩
  trans h h' := ⟨h.toKeepsTables.trans h'.toKeepsTables, h'.log.trans h.log⟩
  deliver target packet b _ :=
    ⟨keepsTables_core.deliver env.recording target packet b,
      congrArg Prod.snd (auth_deliver env.recording target packet b)⟩
  self := trivial
  counters _ _ := ⟨⟨rfl, rfl, rfl⟩, rfl⟩
  acl _ _ _ _ := ⟨⟨rfl, rfl, rfl⟩, rfl⟩
  close b _ := ⟨keepsTables_core.closeAny b sid, congrArg Prod.snd (auth_close sid b)⟩
  keepalive _ := ⟨⟨rfl, rfl, rfl⟩, rfl⟩

theorem keepsAttempts_tables : TablesFree (KeepsAttempts (α := α)) where
  pending _ _ := ⟨⟨rfl, rfl, rfl⟩, rfl⟩
  outgoing _ _ := ⟨⟨rfl, rfl, rfl⟩, rfl⟩
  noteSent _ _ := ⟨⟨rfl, rfl, rfl⟩, rfl⟩
  noteSettled _ _ := ⟨⟨rfl, rfl, rfl⟩, rfl⟩

theorem keepsAttempts_ingest : IngestFree (KeepsAttempts (α := α)) where
  incoming _ _ := ⟨⟨rfl, rfl, rfl⟩, rfl⟩
  noteIngest _ _ _ _ := ⟨⟨rfl, rfl, rfl⟩, rfl⟩

theorem handlePacket_keepsAttempts {env : Env α} {sid : SessionId} {packet : Bytes}
    {b : Broker (Recorded α)}
    (hother : ∀ hdr body, Session.decodeHeader packet = .ok (hdr, body) →
      hdr.type ≠ some .connect) :
    KeepsAttempts b (Session.handlePacket env.recording sid packet b).1 := by
  have hsession := keepsAttempts_session env sid
  have htables := keepsAttempts_tables (α := α)
  apply hsession.handlePacket
  intro hdr body hdecode
  constructor
  · intro htype
    exact absurd htype (hother hdr body hdecode)
  · intro pub _ auth _ _ _ _ hauth
    refine hsession.trans hauth ?_
    refine hsession.acceptPublish (keepsAttempts_ingest.of _)
      (hsession.qos1Deliver htables.toPendingFree pub) (fun b => ?_)
    unfold Session.storeRetained
    split
    · exact ⟨⟨rfl, rfl, rfl⟩, rfl⟩
    · exact hsession.refl b
  · intro packetId _ _ _ _
    exact hsession.qos1HandlePuback htables.toPendingFree _ packetId b
  · intro packetId _ _ _ _
    exact hsession.qos2HandlePubrec htables.toOutgoingFree fun _ _ => trivial
  · intro packetId _ _ _ _
    refine hsession.releaseQos2 (keepsAttempts_ingest.of _) (fun _ b' _ => ?_) fun _ => ?_
    · exact hsession.qos2Deliver htables.toOutgoingFree _ b'
    · exact hsession.qos2HandlePubrel htables.toOutgoingFree _ packetId _
  · intro packetId _ _ _ _
    exact hsession.qos2HandlePubcomp htables.toOutgoingFree _ packetId b
  · intro sub _ _ _ _
    refine hsession.subscribeAll htables.toNotesFree (fun filter _ b _ _ => ?_) _ _ b
    exact ⟨⟨rfl, rfl, rfl⟩, rfl⟩
  · intro unsub _ _ _ _
    refine hsession.foldl (fun b filter => ?_) _ b
    exact ⟨⟨rfl, rfl, rfl⟩, rfl⟩
  · intro _
    have hcleared : KeepsAttempts b (b.modifySession sid fun s => { s with connected := false }) :=
      ⟨⟨rfl, rfl, rfl⟩, rfl⟩
    exact hsession.trans hcleared (hsession.closeOwn _)

theorem keepsAttempts_loop (env : Env α) (sid : SessionId) :
    LoopClosed env.recording sid (fun _ => True) (KeepsAttempts (α := α)) where
  toSessionFrame := keepsAttempts_session env sid
  noteHandled _ _ := ⟨⟨rfl, rfl, rfl⟩, rfl⟩
  rearm _ _ := ⟨⟨rfl, rfl, rfl⟩, rfl⟩
  stopReading _ := ⟨⟨rfl, rfl, rfl⟩, rfl⟩

theorem onReadTurn_keepsAttempts {env : Env α} {n : Runtime (Recorded α)} {sid : SessionId}
    (hreading : n.reading = some sid) (hother : ∀ body, ¬NextConnect env.recording n sid body) :
    KeepsAttempts n.toBroker (Session.onReadTurn env.recording sid n).toBroker := by
  apply (keepsAttempts_loop env sid).onReadTurn hreading
  intro packet parser hextract
  apply handlePacket_keepsAttempts
  intro hdr body hdecode htype
  exact hother body ⟨hdr, ⟨packet, parser, hextract, hdecode⟩, htype⟩

/-! ## CONNECT -/

def attempts (ip : Bytes) (b : Broker α) : Int × Option Int :=
  ((b.server.authFailures.lookup ip).getD 0, b.server.authBanUntil.lookup ip)

/-- The failures that still count once the ban is known to be over. -/
def countedFailures (held : Int × Option Int) : Int := if held.2 = none then held.1 else 0

theorem KeepsTables.attempts {b b' : Broker α} (h : KeepsTables b b') (ip : Bytes) :
    JellyBroker.attempts ip b' = JellyBroker.attempts ip b := by
  unfold JellyBroker.attempts
  rw [h.failures, h.bans]

/-- The rate limit leaves an address that may go on with its counted failures
and without a ban, and other addresses alone. -/
theorem attempts_checkAuthRateLimit {b : Broker α} {sid : SessionId}
    (hunbanned : ∀ banUntil, b.server.authBanUntil.lookup (b.sessions sid).remoteIp =
      some banUntil → banUntil ≤ b.now) (ip : Bytes) :
    attempts ip (Session.checkAuthRateLimit sid b).2 =
      if ip = (b.sessions sid).remoteIp then (countedFailures (attempts ip b), none)
      else attempts ip b := by
  unfold Session.checkAuthRateLimit
  dsimp only
  cases hban : b.server.authBanUntil.lookup (b.sessions sid).remoteIp with
  | none =>
      dsimp only
      split_ifs with hown
      · unfold attempts countedFailures
        rw [hown, hban, if_pos rfl]
      · rfl
  | some banUntil =>
      have hover : ¬b.now < banUntil := by
        have := hunbanned banUntil hban
        omega
      simp only [hover, if_false]
      unfold attempts countedFailures
      dsimp only [Broker.setAuthTables]
      rw [Map.lookup_erase_ite, Map.lookup_erase_ite]
      split_ifs with hown hnone
      · rw [hown, hban] at hnone
        cases hnone
      · rfl
      · rfl

theorem sessions_checkAuthRateLimit (sid : SessionId) (b : Broker α) :
    (Session.checkAuthRateLimit sid b).2.sessions = b.sessions := by
  obtain ⟨_, failures, bans, hlimit, _⟩ := checkAuthRateLimit_eq sid b
  rw [hlimit]
  rfl

theorem auth_checkAuthRateLimit (sid : SessionId) (b : Broker α) :
    (Session.checkAuthRateLimit sid b).2.auth = b.auth := by
  obtain ⟨_, failures, bans, hlimit, _⟩ := checkAuthRateLimit_eq sid b
  rw [hlimit]
  rfl

theorem now_checkAuthRateLimit (sid : SessionId) (b : Broker α) :
    (Session.checkAuthRateLimit sid b).2.now = b.now := by
  obtain ⟨_, failures, bans, hlimit, _⟩ := checkAuthRateLimit_eq sid b
  rw [hlimit]
  rfl

theorem attempts_recordAuthFailure (env : Env α) (sid : SessionId) (b : Broker α) (ip : Bytes) :
    attempts ip (Session.recordAuthFailure env sid b) =
      if ip = (b.sessions sid).remoteIp then
        ((attempts ip b).1 + 1,
          if (attempts ip b).1 + 1 ≥ env.cfg.maxAuthAttempts then
            some (b.now + env.cfg.authBanSeconds)
          else (attempts ip b).2)
      else attempts ip b := by
  unfold attempts Session.recordAuthFailure
  dsimp only [Broker.setAuthTables]
  rw [Map.lookup_insert_ite]
  by_cases hown : ip = (b.sessions sid).remoteIp
  · rw [if_pos hown, if_pos hown, ← hown]
    split_ifs
    · rw [Map.lookup_insert_ite, if_pos rfl]
      rfl
    · rfl
  · rw [if_neg hown, if_neg hown]
    split_ifs
    · rw [Map.lookup_insert_ite, if_neg hown]
    · rfl

theorem attempts_forgetFailures (sid : SessionId) (b : Broker α) (ip : Bytes) :
    attempts ip (Session.forgetFailures sid b) =
      if ip = (b.sessions sid).remoteIp then (0, none) else attempts ip b := by
  unfold attempts Session.forgetFailures
  dsimp only [Broker.setAuthTables]
  rw [Map.lookup_erase_ite, Map.lookup_erase_ite]
  split_ifs
  · rfl
  · rfl

theorem keepsAttempts_takeOver (sid : SessionId) (clientId : Bytes) (b : Broker (Recorded α)) :
    KeepsAttempts b (Session.takeOver sid clientId b) := by
  by_cases hclear : ∀ old, ¬Displaces b sid clientId old
  · rw [takeOver_of_clear hclear]
    exact ⟨⟨rfl, rfl, rfl⟩, rfl⟩
  · simp only [not_forall, not_not] at hclear
    obtain ⟨old, hold⟩ := hclear
    rw [takeOver_of_displaces hold]
    exact ⟨⟨rfl, rfl, rfl⟩, rfl⟩

/-- After the failures are forgotten, an accepted CONNECT changes nothing more. -/
theorem keepsAttempts_acceptConnect (env : Env α) (sid : SessionId) (conn : ConnectPacket)
    (b : Broker (Recorded α)) :
    KeepsAttempts (Session.forgetFailures sid b)
      (Session.acceptConnect env.recording sid conn b) := by
  have hsession := keepsAttempts_session env sid
  have htake := keepsAttempts_takeOver sid conn.clientId (Session.forgetFailures sid b)
  unfold Session.acceptConnect
  dsimp only
  split_ifs
  · exact htake
  · refine hsession.trans htake ?_
    generalize Session.takeOver sid conn.clientId (Session.forgetFailures sid b) = taken
    unfold Session.finishConnect
    have hrestored : KeepsAttempts taken (Session.restoreSubscriptions sid conn
        (Session.register env.recording sid conn taken)) := by
      unfold Session.restoreSubscriptions
      split_ifs
      · exact ⟨⟨rfl, rfl, rfl⟩, rfl⟩
      · exact ⟨⟨rfl, rfl, rfl⟩, rfl⟩
    refine hsession.trans ?_ (hsession.keepalive _)
    exact hsession.trans hrestored (hsession.deliverOwn _ _)

/-- Where a CONNECT leaves the tables and the log: as they are, behind the rate
limit, or behind the call of `authenticate` and what is recorded of it. -/
inductive Attempt (env : Env α) (sid : SessionId) (body : Bytes) (b : Broker α) :
    Broker α → Prop
  | quiet : Attempt env sid body b b
  | anonymous {conn : ConnectPacket} (admitted : AdmittedConnect b sid body conn)
      (credentials : conn.username = [] ∧ conn.password = []) :
      Attempt env sid body b (Session.forgetFailures sid (Session.checkAuthRateLimit sid b).2)
  | threw {conn : ConnectPacket} {text : String} {auth : α}
      (admitted : AdmittedConnect b sid body conn)
      (call : env.auth.authenticate b.auth conn.clientId conn.username conn.password =
        (.error text, auth)) :
      Attempt env sid body b ((Session.checkAuthRateLimit sid b).2.setAuth auth)
  | failed {conn : ConnectPacket} {result : AuthResult} {auth : α}
      (admitted : AdmittedConnect b sid body conn)
      (call : env.auth.authenticate b.auth conn.clientId conn.username conn.password =
        (.ok result, auth)) (failure : result.success = false) :
      Attempt env sid body b
        (Session.recordAuthFailure env sid ((Session.checkAuthRateLimit sid b).2.setAuth auth))
  | succeeded {conn : ConnectPacket} {result : AuthResult} {auth : α}
      (admitted : AdmittedConnect b sid body conn)
      (call : env.auth.authenticate b.auth conn.clientId conn.username conn.password =
        (.ok result, auth)) (success : result.success = true) :
      Attempt env sid body b
        (Session.forgetFailures sid ((Session.checkAuthRateLimit sid b).2.setAuth auth))

theorem handleConnect_attempt (env : Env α) (sid : SessionId) (body : Bytes)
    (b : Broker (Recorded α)) :
    ∃ base, Attempt env.recording sid body b base ∧
      KeepsAttempts base (Session.handleConnect env.recording sid body b).1 := by
  have hsession := keepsAttempts_session env sid
  by_cases hconn : (b.sessions sid).connected = true
  · refine ⟨b, .quiet, ?_⟩
    unfold Session.handleConnect
    rw [if_pos hconn]
    exact hsession.closeOwn b
  have hidle : (b.sessions sid).connected = false := by simpa using hconn
  by_cases hadmitted : ∃ conn, AdmittedConnect b sid body conn
  · obtain ⟨conn, hadmitted⟩ := hadmitted
    rw [hadmitted.handleConnect_eq]
    unfold Session.authenticateConnect
    rw [auth_checkAuthRateLimit]
    split_ifs with hcredentials
    · rcases hcall : env.recording.auth.authenticate b.auth conn.clientId conn.username
        conn.password with ⟨text | result, auth⟩
      · exact ⟨_, .threw hadmitted hcall, hsession.refl _⟩
      · dsimp only
        split_ifs with hsuccess
        · exact ⟨_, .succeeded hadmitted hcall hsuccess, keepsAttempts_acceptConnect env sid conn _⟩
        · refine ⟨_, .failed hadmitted hcall (by simpa using hsuccess), ?_⟩
          exact hsession.refuse _ _
    · simp only [ne_eq, not_or, not_not] at hcredentials
      exact ⟨_, .anonymous hadmitted hcredentials, keepsAttempts_acceptConnect env sid conn _⟩
  · obtain ⟨note, hquiet⟩ : ∃ note, Session.handleConnect env.recording sid body b =
        (b.observe note, none) :=
      handleConnect_of_not_admitted hidle fun conn h => hadmitted ⟨conn, h⟩
    rw [hquiet]
    exact ⟨b, .quiet, ⟨rfl, rfl, rfl⟩, rfl⟩

/-! ## The broker and the observer -/

/-- The broker and the observer hold the same against the address.  Once a ban
is over, the broker may have forgotten it already. -/
def Agrees (cfg : Config) (ip : Bytes) (b : Broker α) (guard : Guard) : Prop :=
  attempts ip b = ((guard.failures : Int), guard.bannedUntil) ∧
      (guard.bannedUntil = none → (guard.failures : Int) < cfg.maxAuthAttempts) ∨
    guard.Expired b.now ∧ attempts ip b = (0, none)

namespace Agrees

variable {cfg : Config} {ip : Bytes} {b b' : Broker α} {guard : Guard}

theorem of_keeps (h : Agrees cfg ip b guard) (hheld : attempts ip b' = attempts ip b)
    (hnow : b.now ≤ b'.now) : Agrees cfg ip b' guard := by
  unfold Agrees
  rw [hheld]
  rcases h with hsame | ⟨⟨t, ht, hover⟩, hnone⟩
  · exact Or.inl hsame
  · exact Or.inr ⟨⟨t, ht, by omega⟩, hnone⟩

/-- For an address that is not banned the observer counts the broker's
failures. -/
theorem current_of_unbanned (hmax : 1 ≤ cfg.maxAuthAttempts) (h : Agrees cfg ip b guard)
    (hunbanned : ∀ banUntil, b.server.authBanUntil.lookup ip = some banUntil →
      banUntil ≤ b.now) :
    ((guard.current b.now).failures : Int) = countedFailures (attempts ip b) ∧
      (guard.current b.now).bannedUntil = none ∧
      ((guard.current b.now).failures : Int) < cfg.maxAuthAttempts := by
  have hzero : (0 : Int) < cfg.maxAuthAttempts := by omega
  unfold Guard.current
  rcases h with ⟨hheld, hfew⟩ | ⟨hexpired, hheld⟩
  · have hban : b.server.authBanUntil.lookup ip = guard.bannedUntil := congrArg Prod.snd hheld
    rw [hheld]
    unfold countedFailures
    cases hguard : guard.bannedUntil with
    | none =>
        have hrunning : ¬guard.Expired b.now := by
          rintro ⟨t, ht, _⟩
          rw [hguard] at ht
          cases ht
        rw [if_neg hrunning, if_pos rfl]
        exact ⟨rfl, hguard, hfew hguard⟩
    | some t =>
        have hexpired : guard.Expired b.now := ⟨t, hguard, hunbanned t (hban.trans hguard)⟩
        rw [if_pos hexpired, if_neg nofun]
        exact ⟨rfl, rfl, hzero⟩
  · rw [if_pos hexpired, hheld]
    exact ⟨rfl, rfl, hzero⟩

/-- Once the ban is known to be over, the broker holds the counted failures. -/
theorem settled (h : Agrees cfg ip b guard)
    (hunbanned : ∀ banUntil, b.server.authBanUntil.lookup ip = some banUntil →
      banUntil ≤ b.now)
    (hheld : attempts ip b' = (countedFailures (attempts ip b), none)) (hnow : b'.now = b.now) :
    Agrees cfg ip b' guard := by
  unfold Agrees
  rw [hheld, hnow]
  rcases h with ⟨hsame, hfew⟩ | ⟨hexpired, hnone⟩
  · have hban : b.server.authBanUntil.lookup ip = guard.bannedUntil := congrArg Prod.snd hsame
    rw [hsame]
    unfold countedFailures
    cases hguard : guard.bannedUntil with
    | none => exact Or.inl ⟨rfl, fun _ => hfew hguard⟩
    | some t => exact Or.inr ⟨⟨t, hguard, hunbanned t (hban.trans hguard)⟩, rfl⟩
  · rw [hnone]
    exact Or.inr ⟨hexpired, rfl⟩

theorem failed {counted now : Int}
    (hcurrent : ((guard.current now).failures : Int) = counted ∧
      (guard.current now).bannedUntil = none ∧
      ((guard.current now).failures : Int) < cfg.maxAuthAttempts)
    (hheld : attempts ip b' = (counted + 1,
      if counted + 1 ≥ cfg.maxAuthAttempts then some (now + cfg.authBanSeconds) else none)) :
    Agrees cfg ip b' (guard.fail cfg now) := by
  obtain ⟨hcount, hnone, hfew⟩ := hcurrent
  left
  rw [hheld]
  unfold Guard.fail
  dsimp only
  rw [hnone, ← hcount]
  push_cast
  by_cases hban : ((guard.current now).failures : Int) + 1 = cfg.maxAuthAttempts
  · rw [if_pos hban, if_pos (by omega)]
    exact ⟨rfl, nofun⟩
  · rw [if_neg hban, if_neg (by omega)]
    refine ⟨rfl, fun _ => ?_⟩
    omega

theorem cleared (hmax : 1 ≤ cfg.maxAuthAttempts) (hheld : attempts ip b = (0, none)) :
    Agrees cfg ip b {} := by
  refine Or.inl ⟨hheld, fun _ => ?_⟩
  change (0 : Int) < cfg.maxAuthAttempts
  omega

end Agrees

theorem Attempt.attempts_of_ne {env : Env α} {sid : SessionId} {body : Bytes} {b base : Broker α}
    (h : Attempt env sid body b base) {ip : Bytes} (hne : ip ≠ (b.sessions sid).remoteIp) :
    attempts ip base = attempts ip b ∧ base.now = b.now := by
  have hchecked : ∀ conn, AdmittedConnect b sid body conn →
      attempts ip (Session.checkAuthRateLimit sid b).2 = attempts ip b := by
    intro conn hadmitted
    rw [attempts_checkAuthRateLimit hadmitted.unbanned, if_neg hne]
  have hsessions := sessions_checkAuthRateLimit sid b
  have hnow := now_checkAuthRateLimit sid b
  cases h with
  | quiet => exact ⟨rfl, rfl⟩
  | anonymous hadmitted _ =>
      rw [attempts_forgetFailures, hsessions, if_neg hne]
      exact ⟨hchecked _ hadmitted, hnow⟩
  | threw hadmitted _ => exact ⟨hchecked _ hadmitted, hnow⟩
  | failed hadmitted _ _ =>
      rw [attempts_recordAuthFailure]
      change (if ip = ((Session.checkAuthRateLimit sid b).2.sessions sid).remoteIp then _ else _) =
        _ ∧ _
      rw [hsessions, if_neg hne]
      exact ⟨hchecked _ hadmitted, hnow⟩
  | succeeded hadmitted _ _ =>
      rw [attempts_forgetFailures]
      change (if ip = ((Session.checkAuthRateLimit sid b).2.sessions sid).remoteIp then _ else _) =
        _ ∧ _
      rw [hsessions, if_neg hne]
      exact ⟨hchecked _ hadmitted, hnow⟩

theorem log_of_call {env : Env α} {state : Recorded α} {clientId username password : Bytes}
    {result : Except String AuthResult} {auth : Recorded α}
    (h : env.recording.auth.authenticate state clientId username password = (result, auth)) :
    auth.2 = state.2 ++ [result] := by
  cases h
  rfl

theorem Agrees.attempt {env : Env α} {sid : SessionId} {body : Bytes}
    {b base : Broker (Recorded α)} {guard : Guard} (hmax : 1 ≤ env.cfg.maxAuthAttempts)
    (h : Agrees env.cfg (b.sessions sid).remoteIp b guard)
    (hattempt : Attempt env.recording sid body b base)
    (hkept : ∀ conn, AdmittedConnect b sid body conn → conn.username = [] →
      conn.password = [] → (attempts (b.sessions sid).remoteIp b).1 = 0 ∨
        (attempts (b.sessions sid).remoteIp b).2 ≠ none) :
    Agrees env.cfg (b.sessions sid).remoteIp base
      (guard.see env.cfg b.now (base.auth.2.drop b.auth.2.length)) := by
  have hsessions : ((Session.checkAuthRateLimit sid b).2.sessions sid).remoteIp =
      (b.sessions sid).remoteIp := by
    rw [sessions_checkAuthRateLimit]
  have hnow := now_checkAuthRateLimit sid b
  have hchecked : ∀ conn, AdmittedConnect b sid body conn →
      attempts (b.sessions sid).remoteIp (Session.checkAuthRateLimit sid b).2 =
        (countedFailures (attempts (b.sessions sid).remoteIp b), none) := by
    intro conn hadmitted
    rw [attempts_checkAuthRateLimit hadmitted.unbanned, if_pos rfl]
  cases hattempt with
  | quiet =>
      rw [List.drop_length]
      exact h
  | anonymous hadmitted hcredentials =>
      have hlog : (Session.forgetFailures sid (Session.checkAuthRateLimit sid b).2).auth =
          b.auth := auth_checkAuthRateLimit sid b
      rw [hlog, List.drop_length]
      refine h.settled hadmitted.unbanned ?_ hnow
      rw [attempts_forgetFailures, if_pos hsessions.symm]
      unfold countedFailures
      split_ifs with hnone
      · rcases hkept _ hadmitted hcredentials.1 hcredentials.2 with hzero | hban
        · rw [hzero]
        · exact absurd hnone hban
      · rfl
  | threw hadmitted hcall =>
      rename_i conn text auth
      have hlog : ((Session.checkAuthRateLimit sid b).2.setAuth auth).auth.2 =
          b.auth.2 ++ [.error text] := log_of_call hcall
      rw [hlog, List.drop_left]
      exact h.settled hadmitted.unbanned (hchecked _ hadmitted) hnow
  | failed hadmitted hcall hfailure =>
      rename_i conn result auth
      have hlog : (Session.recordAuthFailure env.recording sid
          ((Session.checkAuthRateLimit sid b).2.setAuth auth)).auth.2 =
          b.auth.2 ++ [.ok result] := log_of_call hcall
      have hsee : guard.see env.cfg b.now [.ok result] = guard.fail env.cfg b.now := by
        simp [Guard.see, hfailure]
      have hheld : attempts (b.sessions sid).remoteIp
          ((Session.checkAuthRateLimit sid b).2.setAuth auth) =
          (countedFailures (attempts (b.sessions sid).remoteIp b), none) := hchecked _ hadmitted
      have hnow' : ((Session.checkAuthRateLimit sid b).2.setAuth auth).now = b.now := hnow
      rw [hlog, List.drop_left, hsee]
      apply Agrees.failed (h.current_of_unbanned hmax hadmitted.unbanned)
      rw [attempts_recordAuthFailure, if_pos (by exact hsessions.symm), hheld, hnow']
      rfl
  | succeeded hadmitted hcall hsuccess =>
      rename_i conn result auth
      have hlog : (Session.forgetFailures sid
          ((Session.checkAuthRateLimit sid b).2.setAuth auth)).auth.2 =
          b.auth.2 ++ [.ok result] := log_of_call hcall
      have hsee : guard.see env.cfg b.now [.ok result] = {} := by
        simp [Guard.see, hsuccess]
      rw [hlog, List.drop_left, hsee]
      apply Agrees.cleared hmax
      rw [attempts_forgetFailures]
      exact if_pos hsessions.symm

theorem Agrees.connect {env : Env α} {ip : Bytes} {n : Runtime (Recorded α)} {guard : Guard}
    {sid : SessionId} {body : Bytes} (hmax : 1 ≤ env.cfg.maxAuthAttempts)
    (h : Agrees env.cfg ip n.toBroker guard) (hnext : NextConnect env.recording n sid body)
    (hkept : ∀ conn, (n.sessions sid).remoteIp = ip →
      AdmittedConnect n.toBroker sid body conn → conn.username = [] → conn.password = [] →
      (n.server.authFailures.lookup ip).getD 0 = 0 ∨ n.server.authBanUntil.lookup ip ≠ none) :
    Agrees env.cfg ip (n.step env.recording (.turn sid)).toBroker
      (guard.note env.cfg ip n (.turn sid) (n.step env.recording (.turn sid))) := by
  obtain ⟨packet, hstep⟩ := onReadTurn_of_connect hnext
  obtain ⟨base, hattempt, hkeeps⟩ := handleConnect_attempt env sid body
    (n.toBroker.observe (.noteHandled sid packet))
  have hend := (keepsAttempts_loop env sid).catchException
    (Session.handleConnect env.recording sid body (n.toBroker.observe (.noteHandled sid packet)))
  rw [← hstep] at hend
  have hfinal : KeepsAttempts base (n.step env.recording (.turn sid)).toBroker :=
    (keepsAttempts_session env sid).trans hkeeps hend
  unfold Guard.note
  dsimp only
  split_ifs with hown
  · subst hown
    rw [hfinal.log]
    refine Agrees.of_keeps ?_ (hfinal.attempts _) (le_of_eq hfinal.now.symm)
    refine Agrees.attempt (b := n.toBroker.observe (.noteHandled sid packet)) hmax h hattempt ?_
    intro conn hadmitted
    exact hkept conn rfl (admittedConnect_observe.mp hadmitted)
  · obtain ⟨hheld, hnow⟩ := hattempt.attempts_of_ne (Ne.symm hown)
    refine h.of_keeps ((hfinal.attempts ip).trans hheld) (le_of_eq ?_)
    exact (hfinal.now.trans hnow).symm

theorem note_of_same_log (cfg : Config) (ip : Bytes) {n n' : Runtime (Recorded α)} (e : Event)
    (guard : Guard) (h : n'.auth.2 = n.auth.2) : guard.note cfg ip n e n' = guard := by
  unfold Guard.note
  rw [h, List.drop_length]
  split
  · split <;> rfl
  · rfl

theorem step_agrees {env : Env α} {ip : Bytes} {n : Runtime (Recorded α)} {guard : Guard}
    {e : Event} (hmax : 1 ≤ env.cfg.maxAuthAttempts) (henabled : n.toBroker.Enabled e)
    (hclock : ClockAdvances n e) (hkept : CountKept env.recording ip n e)
    (h : Agrees env.cfg ip n.toBroker guard) :
    Agrees env.cfg ip (n.step env.recording e).toBroker
      (guard.note env.cfg ip n e (n.step env.recording e)) := by
  by_cases hturn : ∃ sid, e = .turn sid
  · obtain ⟨sid, rfl⟩ := hturn
    by_cases hconnect : ∃ body, NextConnect env.recording n sid body
    · obtain ⟨body, hnext⟩ := hconnect
      exact h.connect hmax hnext fun conn hown => hkept sid body conn rfl hown hnext
    · have hkeeps := onReadTurn_keepsAttempts henabled.2 (fun body hbody => hconnect ⟨body, hbody⟩)
      have hnote : guard.note env.cfg ip n (.turn sid) (n.step env.recording (.turn sid)) =
          guard := note_of_same_log _ _ _ _ hkeeps.log
      rw [hnote]
      exact h.of_keeps (hkeeps.attempts ip) (le_of_eq hkeeps.now.symm)
  · have hnote : guard.note env.cfg ip n e (n.step env.recording e) = guard := by
      unfold Guard.note
      split
      · exact absurd ⟨_, rfl⟩ hturn
      · rfl
    rw [hnote]
    by_cases htick : ∃ now, e = .clock now
    · obtain ⟨now, rfl⟩ := htick
      exact h.of_keeps rfl (hclock now rfl)
    · have hkeeps := (keepsTables_timeless env.recording).step
        (fun sid heq => hturn ⟨sid, heq⟩) (fun now heq => htick ⟨now, heq⟩) henabled
      exact h.of_keeps (hkeeps.attempts ip) (le_of_eq hkeeps.now.symm)

/-- What the observer sees as a ban is one for the broker. -/
theorem Agrees.banned {cfg : Config} {ip : Bytes} {b : Broker α} {guard : Guard} {banUntil : Int}
    (h : Agrees cfg ip b guard) (hguard : guard.bannedUntil = some banUntil)
    (hnow : b.now < banUntil) : b.server.authBanUntil.lookup ip = some banUntil := by
  rcases h with ⟨hheld, _⟩ | ⟨⟨t, ht, hover⟩, _⟩
  · exact (congrArg Prod.snd hheld).trans hguard
  · have heq : banUntil = t := Option.some.inj (hguard.symm.trans ht)
    omega

theorem Agrees.safe {env : Env α} {ip : Bytes} {n : Runtime (Recorded α)} {guard : Guard}
    (h : Agrees env.cfg ip n.toBroker guard) : BruteForceSafe env ip n guard where
  refused banUntil sid body hguard hnow hown hnext := by
    have hban := h.banned hguard hnow
    obtain ⟨packet, hstep⟩ := onReadTurn_of_connect hnext
    change (Session.onReadTurn env.recording sid n).toBroker.auth.2 = _ ∧
      ((Session.onReadTurn env.recording sid n).toBroker.sessions sid).connected = false
    rw [hstep]
    by_cases hconn : (n.sessions sid).connected = true
    · -- A second CONNECT closes the session before the address is looked at.
      obtain ⟨tree, subManager, hclose⟩ := Session.close_of_connected
        (b := n.toBroker.observe (.noteHandled sid packet)) hconn
      have hhandle : Session.handleConnect env.recording sid body
          (n.toBroker.observe (.noteHandled sid packet)) =
          (Session.close false sid (n.toBroker.observe (.noteHandled sid packet)), none) :=
        if_pos hconn
      rw [hhandle, hclose]
      refine ⟨rfl, ?_⟩
      simp [Session.catchException]
    · have hidle : (n.sessions sid).connected = false := by simpa using hconn
      have hbanned : ∀ conn,
          ¬AdmittedConnect (n.toBroker.observe (.noteHandled sid packet)) sid body conn := by
        intro conn hadmitted
        have hban' : n.server.authBanUntil.lookup (n.sessions sid).remoteIp = some banUntil := by
          rw [hown, hban]
        have hover : banUntil ≤ n.now := hadmitted.unbanned banUntil hban'
        omega
      obtain ⟨note, hquiet⟩ : ∃ note, Session.handleConnect env.recording sid body
          (n.toBroker.observe (.noteHandled sid packet)) =
          ((n.toBroker.observe (.noteHandled sid packet)).observe note, none) :=
        handleConnect_of_not_admitted hidle hbanned
      rw [hquiet]
      exact ⟨rfl, hidle⟩
  remembered hrunning := by
    rcases h with ⟨hheld, _⟩ | ⟨hexpired, _⟩
    · exact congrArg Prod.fst hheld
    · exact absurd hexpired hrunning

/-- A CONNECT without credentials that gets past the rate limit makes the broker
forget the failures it has counted. -/
theorem Agrees.forgets {env : Env α} {ip : Bytes} {n : Runtime (Recorded α)} {guard : Guard}
    {e : Event} (h : Agrees env.cfg ip n.toBroker guard)
    (hforgets : ¬CountKept env.recording ip n e) :
    ¬BruteForceSafe env ip (n.step env.recording e)
      (guard.note env.cfg ip n e (n.step env.recording e)) := by
  unfold CountKept at hforgets
  simp only [not_forall, not_or, not_not] at hforgets
  obtain ⟨sid, body, conn, rfl, hown, hnext, hadmitted, hname, hpassword, hcounted, hnone⟩ :=
    hforgets
  -- The observer still holds the failures, and they have not led to a ban.
  have hguard : (guard.failures : Int) ≠ 0 ∧ guard.bannedUntil = none := by
    rcases h with ⟨hheld, _⟩ | ⟨_, hheld⟩
    · have hfailures : (n.server.authFailures.lookup ip).getD 0 = guard.failures :=
        congrArg Prod.fst hheld
      have hban : n.server.authBanUntil.lookup ip = guard.bannedUntil := congrArg Prod.snd hheld
      rw [← hfailures, ← hban]
      exact ⟨hcounted, hnone⟩
    · exact absurd (congrArg Prod.fst hheld) hcounted
  obtain ⟨packet, hstep⟩ := onReadTurn_of_connect hnext
  generalize hb : n.toBroker.observe (.noteHandled sid packet) = b at hstep
  have hadmitted' : AdmittedConnect b sid body conn := by
    rw [← hb]
    exact admittedConnect_observe.mpr hadmitted
  have haccept : Session.handleConnect env.recording sid body b =
      (Session.acceptConnect env.recording sid conn (Session.checkAuthRateLimit sid b).2,
        none) := by
    rw [hadmitted'.handleConnect_eq, Session.authenticateConnect, if_neg]
    simp [hname, hpassword]
  have hkeeps : KeepsAttempts (Session.forgetFailures sid (Session.checkAuthRateLimit sid b).2)
      (n.step env.recording (.turn sid)).toBroker := by
    change KeepsAttempts _ (Session.onReadTurn env.recording sid n).toBroker
    rw [hstep, haccept]
    exact keepsAttempts_acceptConnect env sid conn _
  have hlog : (n.step env.recording (.turn sid)).auth.2 = n.auth.2 := by
    calc (n.step env.recording (.turn sid)).auth.2
        = (Session.checkAuthRateLimit sid b).2.auth.2 := hkeeps.log
      _ = b.auth.2 := by rw [auth_checkAuthRateLimit]
      _ = n.auth.2 := by rw [← hb]; rfl
  have hforgotten : attempts ip (n.step env.recording (.turn sid)).toBroker = (0, none) := by
    rw [hkeeps.attempts, attempts_forgetFailures, sessions_checkAuthRateLimit, if_pos]
    rw [← hb]
    exact hown.symm
  rw [note_of_same_log _ _ _ _ hlog]
  intro hsafe
  have hrunning : ¬guard.Expired (n.step env.recording (.turn sid)).now := by
    rintro ⟨t, ht, _⟩
    rw [hguard.2] at ht
    cases ht
  have hremembered := hsafe.remembered hrunning
  exact hguard.1 (hremembered.symm.trans (congrArg Prod.fst hforgotten))

/-- In every state of a run whose CONNECTs without credentials never get past
the rate limit while failures are counted, a banned address is refused without
a call of `authenticate`, and failures are remembered until the ban is over.  The
first such CONNECT makes the broker forget. -/
theorem brute_force_guarded (env : Env α) (ip : Bytes) (hmax : 1 ≤ env.cfg.maxAuthAttempts)
    (p : Runtime (Recorded α) × Guard)
    (hp : ((guardedSystem env ip).restrict
      fun p e => CountKept env.recording ip p.1 e).Reachable p) :
    BruteForceSafe env ip p.1 p.2 ∧
      ∀ e, ¬CountKept env.recording ip p.1 e →
        ¬BruteForceSafe env ip ((guardedSystem env ip).step p e).1
          ((guardedSystem env ip).step p e).2 := by
  have hagrees : Agrees env.cfg ip p.1.toBroker p.2 := by
    refine hp.invariant (P := fun p => Agrees env.cfg ip p.1.toBroker p.2) ?_ ?_
    · rintro ⟨n, guard⟩ ⟨⟨auth, rfl⟩, rfl⟩
      exact .cleared hmax rfl
    · intro p e hagrees henabled
      exact step_agrees hmax henabled.1.1 henabled.1.2 henabled.2 hagrees
  exact ⟨hagrees.safe, fun e hforgets => hagrees.forgets hforgets⟩

/-! ## A client that guesses passwords -/

def strictEnv : Env Unit where
  cfg := { maxAuthAttempts := 2 }
  auth :=
    { authenticate := fun state _ _ _ => (.ok {}, state)
      checkAcl := fun state _ _ _ => (.ok .readWrite, state) }

def loginBytes : Bytes :=
  OutPacket.wrap .connect 0
    (Utils.writeString mqttProtocolName ++ [mqttProtocolLevel, 0xc2] ++ Utils.writeUint16 60 ++
      Utils.writeString [0x63] ++ Utils.writeString [0x75] ++ Utils.writeString [0x70])

theorem countKept_of_login {n : Runtime (Recorded Unit)} {sid : SessionId} (more : Bytes)
    (hextract : (n.parsers sid).tryExtract strictEnv.recording.cfg =
      (some loginBytes, { buffer := more })) (ip : Bytes) :
    CountKept strictEnv.recording ip n (.turn sid) := by
  rintro _ body conn ⟨⟩ _ ⟨hdr, hnext, _⟩ hadmitted hname _
  obtain ⟨_, hbody⟩ := hnext.unique ⟨loginBytes, _, hextract, rfl⟩
  obtain ⟨rest, hparse⟩ := hadmitted.parses
  rw [hbody] at hparse
  cases hparse
  cases hname

/-- After two wrong passwords the third is not even looked at. -/
theorem brute_force_guarded_two_logins :
    let p := (guardedSystem strictEnv [0x69]).after ({ auth := ((), []) }, {})
      [.accept [0x69], .read 0 (loginBytes ++ loginBytes ++ loginBytes), .turn 0, .turn 0]
    p.2 = ⟨2, some 60⟩ ∧ BruteForceSafe strictEnv [0x69] p.1 p.2 := by
  refine ⟨by decide +kernel, (brute_force_guarded strictEnv [0x69] (by decide) _ ?_).1⟩
  refine .of_allowed ⟨⟨_, rfl⟩, rfl⟩ ⟨⟨⟨⟨rfl, rfl, trivial⟩, nofun⟩, nofun⟩,
    ⟨⟨⟨rfl, rfl, rfl, ?_, ?_⟩, nofun⟩, nofun⟩, ⟨⟨⟨?_, ?_⟩, nofun⟩, ?_⟩, ⟨⟨⟨?_, ?_⟩, nofun⟩, ?_⟩,
    trivial⟩
  any_goals decide +kernel
  · exact countKept_of_login (loginBytes ++ loginBytes) (by decide +kernel) _
  · exact countKept_of_login loginBytes (by decide +kernel) _

/-- Two wrong passwords with a CONNECT without credentials between them: the
address should be banned, and the next password is looked at all the same. -/
theorem anonymous_connect_resets_count :
    let p := (guardedSystem strictEnv [0x69]).after ({ auth := ((), []) }, {})
      [.accept [0x69], .read 0 (loginBytes ++ connectBytes true [0x63]), .turn 0, .turn 0, .turn 0,
        .accept [0x69], .read 1 (loginBytes ++ loginBytes), .turn 1]
    (guardedSystem strictEnv [0x69]).Reachable p ∧ p.2 = ⟨2, some 60⟩ ∧
    ¬BruteForceSafe strictEnv [0x69] p.1 p.2 := by
  intro p
  have hguard : p.2 = ⟨2, some 60⟩ := by decide +kernel
  refine ⟨?_, hguard, ?_⟩
  · refine .of_allowed ⟨⟨_, rfl⟩, rfl⟩ ⟨⟨⟨rfl, rfl, trivial⟩, nofun⟩,
      ⟨⟨rfl, rfl, rfl, ?_, ?_⟩, nofun⟩, ⟨⟨?_, ?_⟩, nofun⟩, ⟨⟨?_, ?_⟩, nofun⟩, ⟨⟨?_, ?_⟩, nofun⟩,
      ⟨⟨?_, ?_, trivial⟩, nofun⟩, ⟨⟨?_, ?_, ?_, ?_, ?_⟩, nofun⟩, ⟨⟨?_, ?_⟩, nofun⟩, trivial⟩
    all_goals decide +kernel
  · intro hsafe
    have hnext : NextConnect strictEnv.recording p.1 1 (loginBytes.drop 2) :=
      ⟨_, ⟨loginBytes, {}, by decide +kernel, rfl⟩, rfl⟩
    have hrefused := hsafe.refused 60 1 (loginBytes.drop 2) (by rw [hguard]) (by decide +kernel)
      (by decide +kernel) hnext
    have hlog : (p.1.step strictEnv.recording (.turn 1)).auth.2.length ≠ p.1.auth.2.length := by
      decide +kernel
    exact hlog (congrArg List.length hrefused.1)

end JellyBroker
