import JellyBroker.Broker.FanOut
import JellyBroker.Broker.Invariant
/-!
# The write path of a session

The members of `Session` that `deliver`, `do_write` and `close` use, together
with the write operations that were started and have not completed.  Nothing in
the model rules out that there are several: that there is at most one is proved
here.  A session of the broker keeps a flag in their place, and follows the write
path.
-/

namespace JellyBroker

open JellyBroker.Lib JellyBroker.Packet JellyBroker.Qos JellyBroker.Topic

variable {α : Type}

/-! ## The system -/

structure WritePath where
  connected : Bool := false
  writeQueue : List OutPacket := []
  /-- The buffers of the `async_write` operations that have not completed. -/
  outstanding : List OutPacket := []

namespace WritePath

/-- `connected_` is all that `close` changes here. -/
def close (w : WritePath) : WritePath := { w with connected := false }

def doWrite (w : WritePath) : WritePath :=
  match w.writeQueue with
  | [] => w
  | front :: _ => if w.connected then { w with outstanding := w.outstanding ++ [front] } else w

def deliver (cfg : Config) (packet : OutPacket) (w : WritePath) : WritePath :=
  if !w.connected then w
  else if (w.writeQueue.length : Int) ≥ cfg.maxWriteQueueSize then w.close
  else
    let queued := { w with writeQueue := w.writeQueue ++ [packet] }
    if w.writeQueue.isEmpty then queued.doWrite else queued

def accepts (cfg : Config) (w : WritePath) : Bool :=
  w.connected && decide ((w.writeQueue.length : Int) < cfg.maxWriteQueueSize)

def onWrite (packet : OutPacket) (w : WritePath) : WritePath :=
  { w with
    writeQueue := w.writeQueue.tail
    outstanding := w.outstanding.erase packet }.doWrite

def onWriteError (packet : OutPacket) (w : WritePath) : WritePath :=
  { w with outstanding := w.outstanding.erase packet }.close

end WritePath

inductive WriteEvent where
  | deliver (packet : OutPacket)
  | written (packet : OutPacket)
  | failed (packet : OutPacket)
  | close
  /-- CONNECT and DISCONNECT set `connected_`. -/
  | connected (value : Bool)

structure WriteRecord where
  accepted : List OutPacket := []
  written : List OutPacket := []

namespace WriteEvent

def Enabled (w : WritePath) : WriteEvent → Prop
  | written packet | failed packet => packet ∈ w.outstanding
  | _ => True

def step (cfg : Config) (w : WritePath) : WriteEvent → WritePath
  | deliver packet => w.deliver cfg packet
  | written packet => w.onWrite packet
  | failed packet => w.onWriteError packet
  | close => w.close
  | connected value => { w with connected := value }

def note (cfg : Config) (w : WritePath) (record : WriteRecord) : WriteEvent → WriteRecord
  | deliver packet =>
      if w.accepts cfg then { record with accepted := record.accepted ++ [packet] } else record
  | written packet => { record with written := record.written ++ [packet] }
  | _ => record

end WriteEvent

def writePath (cfg : Config) : System WritePath WriteEvent where
  init w := w.writeQueue = [] ∧ w.outstanding = []
  enabled := WriteEvent.Enabled
  step := WriteEvent.step cfg

def recordedWrites (cfg : Config) : System (WritePath × WriteRecord) WriteEvent :=
  (writePath cfg).watch {} fun w event _ record => event.note cfg w record

/-! ## The order of the writes -/

/-- At most one write is outstanding, that of the front of the queue. -/
def OneWrite (w : WritePath) : Prop :=
  w.outstanding = [] ∨ ∃ front rest, w.writeQueue = front :: rest ∧ w.outstanding = [front]

/-- What was queued has been written or is in the queue. -/
structure WritesInOrder (cfg : Config) (w : WritePath) (record : WriteRecord) : Prop where
  oneWrite : OneWrite w
  accepted : record.accepted = record.written ++ w.writeQueue
  bounded : (w.writeQueue.length : Int) ≤ max 0 cfg.maxWriteQueueSize

theorem writeQueue_doWrite (w : WritePath) : w.doWrite.writeQueue = w.writeQueue := by
  unfold WritePath.doWrite
  split
  · rfl
  · split_ifs
    · rfl
    · rfl

theorem OneWrite.doWrite {w : WritePath} (h : w.outstanding = []) : OneWrite w.doWrite := by
  unfold WritePath.doWrite
  cases hqueue : w.writeQueue with
  | nil => exact Or.inl h
  | cons front rest =>
      dsimp only
      split_ifs
      · right
        refine ⟨front, rest, rfl, ?_⟩
        simp only [h, List.nil_append]
      · exact Or.inl h

theorem OneWrite.eq_of_mem {w : WritePath} (h : OneWrite w) {packet : OutPacket}
    (hmem : packet ∈ w.outstanding) :
    ∃ rest, w.writeQueue = packet :: rest ∧ w.outstanding = [packet] := by
  rcases h with hnone | ⟨front, rest, hqueue, hone⟩
  · rw [hnone] at hmem
    cases hmem
  · rw [hone, List.mem_singleton] at hmem
    rw [hmem]
    exact ⟨rest, hqueue, hone⟩

namespace WritesInOrder

variable {cfg : Config} {w : WritePath} {record : WriteRecord} (h : WritesInOrder cfg w record)

include h

theorem deliver (packet : OutPacket) :
    WritesInOrder cfg (w.deliver cfg packet) ((WriteEvent.deliver packet).note cfg w record) := by
  unfold WritePath.deliver WriteEvent.note WritePath.accepts
  by_cases hconn : w.connected = true
  · by_cases hfull : (w.writeQueue.length : Int) ≥ cfg.maxWriteQueueSize
    · have hrefused : ¬(w.writeQueue.length : Int) < cfg.maxWriteQueueSize := by omega
      simp only [hconn, hfull, hrefused, Bool.not_true, Bool.false_eq_true, if_false, if_true,
        decide_false, Bool.and_false]
      exact ⟨h.oneWrite, h.accepted, h.bounded⟩
    · have hroom : (w.writeQueue.length : Int) < cfg.maxWriteQueueSize := by omega
      simp only [hconn, hfull, hroom, Bool.not_true, Bool.false_eq_true, if_false, if_true,
        decide_true, Bool.and_true]
      have hqueue : ∀ queued : WritePath, queued.writeQueue = w.writeQueue ++ [packet] →
          OneWrite queued →
          WritesInOrder cfg queued { record with accepted := record.accepted ++ [packet] } := by
        intro queued heq hone
        refine ⟨hone, ?_, ?_⟩
        · rw [heq, h.accepted, List.append_assoc]
        · rw [heq, List.length_append, List.length_singleton]
          push_cast
          omega
      cases hempty : w.writeQueue with
      | nil =>
          -- the write of this packet is the first one
          have hnone : w.outstanding = [] := by
            rcases h.oneWrite with hnone | ⟨front, rest, hfront, _⟩
            · exact hnone
            · rw [hempty] at hfront
              cases hfront
          apply hqueue
          · rw [List.isEmpty_nil, if_pos rfl, writeQueue_doWrite, hempty]
          · rw [List.isEmpty_nil, if_pos rfl]
            exact OneWrite.doWrite hnone
      | cons front rest =>
          apply hqueue
          · rw [List.isEmpty_cons, if_neg Bool.false_ne_true, hempty]
          · rcases h.oneWrite with hnone | ⟨front', rest', hfront, hone⟩
            · exact Or.inl hnone
            · right
              refine ⟨front', rest' ++ [packet], ?_, hone⟩
              rw [← List.cons_append, ← hfront, hempty]
              rfl
  · simp only [hconn, Bool.not_false, if_true, Bool.false_and, Bool.false_eq_true, if_false]
    exact h

theorem written {packet : OutPacket} (hmem : packet ∈ w.outstanding) :
    WritesInOrder cfg (w.onWrite packet) ((WriteEvent.written packet).note cfg w record) := by
  obtain ⟨rest, hqueue, hone⟩ := h.oneWrite.eq_of_mem hmem
  have hrest : (w.onWrite packet).writeQueue = rest := by
    unfold WritePath.onWrite
    rw [writeQueue_doWrite, hqueue]
    rfl
  have hbounded := h.bounded
  rw [hqueue, List.length_cons] at hbounded
  push_cast at hbounded
  refine ⟨OneWrite.doWrite ?_, ?_, ?_⟩
  · rw [hone, List.erase_cons_head]
  · rw [hrest]
    change record.accepted = (record.written ++ [packet]) ++ rest
    rw [h.accepted, hqueue, List.append_assoc]
    rfl
  · rw [hrest]
    omega

theorem failed {packet : OutPacket} (hmem : packet ∈ w.outstanding) :
    WritesInOrder cfg (w.onWriteError packet) ((WriteEvent.failed packet).note cfg w record) := by
  obtain ⟨rest, hqueue, hone⟩ := h.oneWrite.eq_of_mem hmem
  refine ⟨Or.inl ?_, h.accepted, h.bounded⟩
  change w.outstanding.erase packet = []
  rw [hone, List.erase_cons_head]

theorem event {event : WriteEvent} (henabled : event.Enabled w) :
    WritesInOrder cfg (event.step cfg w) (event.note cfg w record) := by
  cases event with
  | deliver packet => exact h.deliver packet
  | written packet => exact h.written henabled
  | failed packet => exact h.failed henabled
  | close => exact ⟨h.oneWrite, h.accepted, h.bounded⟩
  | connected value => exact ⟨h.oneWrite, h.accepted, h.bounded⟩

end WritesInOrder

theorem writesInOrder_reachable {cfg : Config} {w : WritePath} {record : WriteRecord}
    (h : (recordedWrites cfg).Reachable (w, record)) : WritesInOrder cfg w record := by
  refine h.invariant (P := fun p => WritesInOrder cfg p.1 p.2) ?_ ?_
  · rintro ⟨w, record⟩ ⟨⟨hqueue, hnone⟩, hrecord⟩
    change record = {} at hrecord
    dsimp only at hqueue hnone ⊢
    refine ⟨Or.inl hnone, ?_, ?_⟩
    · rw [hrecord, hqueue]
      rfl
    · rw [hqueue, List.length_nil]
      exact le_max_left _ _
  · intro p event hp henabled
    exact hp.event henabled

/-! ## A session of the broker -/

structure SessionFollows (session : Session) (w : WritePath) : Prop where
  connected : w.connected = session.connected
  writeQueue : w.writeQueue = session.writeQueue
  outstanding : session.writePending = !w.outstanding.isEmpty

def deliverOwn (cfg : Config) (packet : OutPacket) (session : Session) : Session :=
  if !session.connected then session
  else if (session.writeQueue.length : Int) ≥ cfg.maxWriteQueueSize then
    { session with connected := false, socketOpen := false }
  else Session.enqueue packet session

theorem sessions_deliver_self (env : Env α) (sid : SessionId) (packet : OutPacket)
    (b : Broker α) :
    (Session.deliver env sid packet b).sessions sid =
      deliverOwn env.cfg packet (b.sessions sid) := by
  unfold Session.deliver deliverOwn
  dsimp only [Broker.observe]
  split_ifs with hidle
  · rfl
  · rw [Bool.not_eq_true', Bool.not_eq_false] at hidle
    obtain ⟨tree, subManager, hclose⟩ := Session.close_of_connected
      (b := b.observe (.noteHanded ⟨sid, packet, Session.accepts env.cfg (b.sessions sid)⟩)) hidle
    refine (congrArg (fun b => b.sessions sid) hclose).trans ?_
    exact Function.update_self _ _ _
  · exact Function.update_self _ _ _

namespace SessionFollows

variable {session : Session} {w : WritePath} (h : SessionFollows session w)

include h

theorem eq : w = ⟨session.connected, session.writeQueue, w.outstanding⟩ := by
  rw [← h.connected, ← h.writeQueue]

theorem accepts (cfg : Config) : w.accepts cfg = Session.accepts cfg session := by
  unfold WritePath.accepts Session.accepts
  rw [h.connected, h.writeQueue]

theorem doWrite : SessionFollows (Session.doWrite session) w.doWrite := by
  rw [h.eq]
  unfold WritePath.doWrite Session.doWrite
  cases hqueue : session.writeQueue with
  | nil =>
      rw [List.isEmpty_nil, Bool.not_true, Bool.and_false, if_neg Bool.false_ne_true]
      exact ⟨rfl, hqueue.symm, h.outstanding⟩
  | cons front rest =>
      rw [List.isEmpty_cons, Bool.not_false, Bool.and_true]
      dsimp only
      split_ifs
      · exact ⟨rfl, rfl, by simp⟩
      · exact ⟨rfl, hqueue.symm, h.outstanding⟩

theorem deliver (cfg : Config) (packet : OutPacket) :
    SessionFollows (deliverOwn cfg packet session) (w.deliver cfg packet) := by
  have hqueued : SessionFollows { session with writeQueue := session.writeQueue ++ [packet] }
      ⟨session.connected, session.writeQueue ++ [packet], w.outstanding⟩ :=
    ⟨rfl, rfl, h.outstanding⟩
  rw [h.eq]
  unfold deliverOwn WritePath.deliver Session.enqueue
  dsimp only
  split_ifs
  · exact ⟨rfl, rfl, h.outstanding⟩
  · exact ⟨rfl, rfl, h.outstanding⟩
  · exact hqueued.doWrite
  · exact hqueued

theorem onWrite {packet : OutPacket} (hone : w.outstanding = [packet]) :
    SessionFollows (Session.onWrite session) (w.onWrite packet) := by
  have hpopped : SessionFollows
      { session with writeQueue := session.writeQueue.tail, writePending := false }
      ⟨session.connected, session.writeQueue.tail, []⟩ := ⟨rfl, rfl, rfl⟩
  rw [h.eq]
  unfold Session.onWrite WritePath.onWrite
  dsimp only
  rw [hone, List.erase_cons_head]
  exact hpopped.doWrite

end SessionFollows

def acceptedBy (b : Broker α) (sid : SessionId) : List OutPacket :=
  (b.history.handed.filter fun call => call.session = sid ∧ call.accepted = true).map (·.packet)

theorem acceptedBy_deliver (env : Env α) (target : SessionId) (packet : OutPacket) (b : Broker α)
    (sid : SessionId) :
    acceptedBy (Session.deliver env target packet b) sid =
      acceptedBy b sid ++
        if target = sid ∧ Session.accepts env.cfg (b.sessions target) = true then [packet]
        else [] := by
  unfold acceptedBy
  rw [handed_deliver, List.filter_append, List.map_append]
  by_cases h : target = sid ∧ Session.accepts env.cfg (b.sessions target) = true
  · obtain ⟨rfl, haccepts⟩ := h
    simp [haccepts]
  · simp only [List.filter_cons, List.filter_nil, decide_eq_true_eq, h, if_false, List.map_nil]

/-- The session has followed a run of the write path since it had queued the
packets `start`. -/
def OnPath (env : Env α) (start : List OutPacket) (sid : SessionId) (b : Broker α) : Prop :=
  sid < b.sessionCount ∧ ∃ w record, (recordedWrites env.cfg).Reachable (w, record) ∧
    SessionFollows (b.sessions sid) w ∧ acceptedBy b sid = start ++ record.accepted

theorem sessionCount_close (sid : SessionId) (b : Broker α) :
    (Session.close false sid b).sessionCount = b.sessionCount := by
  by_cases hconn : (b.sessions sid).connected = true
  · obtain ⟨tree, subManager, hclose⟩ := Session.close_of_connected hconn
    rw [hclose]
  · rw [Session.close_of_idle (by simpa using hconn)]

theorem sessionCount_deliver (env : Env α) (sid : SessionId) (packet : OutPacket) (b : Broker α) :
    (Session.deliver env sid packet b).sessionCount = b.sessionCount := by
  unfold Session.deliver
  dsimp only
  split_ifs
  · rfl
  · exact sessionCount_close sid _
  · rfl

namespace OnPath

variable {env : Env α} {start : List OutPacket} {sid : SessionId} {b : Broker α}
  (h : OnPath env start sid b)

include h

theorem of_same {b' : Broker α} (hcount : b.sessionCount ≤ b'.sessionCount)
    (hqueue : (b'.sessions sid).writeQueue = (b.sessions sid).writeQueue)
    (hpending : (b'.sessions sid).writePending = (b.sessions sid).writePending)
    (hhanded : b'.history.handed = b.history.handed) : OnPath env start sid b' := by
  obtain ⟨hborn, w, record, hreach, hfollows, haccepted⟩ := h
  have hnext : (recordedWrites env.cfg).Reachable _ :=
    hreach.step (e := .connected (b'.sessions sid).connected) trivial
  refine ⟨lt_of_lt_of_le hborn hcount, _, _, hnext, ⟨rfl, ?_, ?_⟩, ?_⟩
  · exact hfollows.writeQueue.trans hqueue.symm
  · exact hpending.trans hfollows.outstanding
  · unfold acceptedBy at haccepted ⊢
    rw [hhanded]
    exact haccepted

theorem of_same_sessions {b' : Broker α} (hcount : b'.sessionCount = b.sessionCount)
    (hsessions : b'.sessions = b.sessions) (hhanded : b'.history.handed = b.history.handed) :
    OnPath env start sid b' :=
  h.of_same hcount.ge (by rw [hsessions]) (by rw [hsessions]) hhanded

theorem modifySession (target : SessionId) (change : Session → Session)
    (hqueue : ∀ s, (change s).writeQueue = s.writeQueue)
    (hpending : ∀ s, (change s).writePending = s.writePending) :
    OnPath env start sid (b.modifySession target change) := by
  by_cases heq : sid = target
  · refine h.of_same le_rfl ?_ ?_ rfl
    · rw [heq, Broker.sessions_modifySession_self, hqueue]
    · rw [heq, Broker.sessions_modifySession_self, hpending]
  · refine h.of_same le_rfl ?_ ?_ rfl
    · rw [Broker.sessions_modifySession_of_ne heq]
    · rw [Broker.sessions_modifySession_of_ne heq]

theorem close (target : SessionId) : OnPath env start sid (Session.close false target b) := by
  by_cases hconn : (b.sessions target).connected = true
  · obtain ⟨tree, subManager, hclose⟩ := Session.close_of_connected hconn
    rw [hclose]
    have hidle := h.modifySession target
      (fun s => { s with connected := false, socketOpen := false }) (fun _ => rfl) fun _ => rfl
    exact hidle.of_same_sessions rfl rfl rfl
  · rw [Session.close_of_idle (by simpa using hconn)]
    exact h

theorem deliver (target : SessionId) (packet : OutPacket) :
    OnPath env start sid (Session.deliver env target packet b) := by
  have hcount := sessionCount_deliver env target packet b
  have haccepted' := acceptedBy_deliver env target packet b sid
  by_cases heq : target = sid
  · obtain ⟨hborn, w, record, hreach, hfollows, haccepted⟩ := h
    subst heq
    have hnext : (recordedWrites env.cfg).Reachable _ := hreach.step (e := .deliver packet) trivial
    refine ⟨hcount ▸ hborn, _, _, hnext, ?_, ?_⟩
    · rw [sessions_deliver_self]
      exact hfollows.deliver env.cfg packet
    · rw [haccepted', haccepted, ← hfollows.accepts]
      change _ = start ++ (if w.accepts env.cfg then _ else record).accepted
      by_cases haccepts : w.accepts env.cfg = true
      · rw [if_pos ⟨rfl, haccepts⟩, if_pos haccepts, List.append_assoc]
      · rw [if_neg fun h => haccepts h.2, if_neg haccepts, List.append_nil]
  · rw [if_neg fun h => heq h.1, List.append_nil] at haccepted'
    obtain ⟨hborn, w, record, hreach, hfollows, haccepted⟩ := h
    refine ⟨hcount ▸ hborn, w, record, hreach, ?_, haccepted'.trans haccepted⟩
    rw [sessions_deliver_of_ne fun h => heq h.symm]
    exact hfollows

theorem outstanding (hpending : (b.sessions sid).writePending = true) :
    ∃ w record packet, (recordedWrites env.cfg).Reachable (w, record) ∧
      SessionFollows (b.sessions sid) w ∧ acceptedBy b sid = start ++ record.accepted ∧
      w.outstanding = [packet] := by
  obtain ⟨_, w, record, hreach, hfollows, haccepted⟩ := h
  rcases (writesInOrder_reachable hreach).oneWrite with hnone | ⟨packet, rest, _, hone⟩
  · have hfalse := hfollows.outstanding
    rw [hpending, hnone] at hfalse
    cases hfalse
  · exact ⟨w, record, packet, hreach, hfollows, haccepted, hone⟩

theorem writeDone {target : SessionId} (hpending : (b.sessions target).writePending = true) :
    OnPath env start sid (b.modifySession target Session.onWrite) := by
  by_cases heq : sid = target
  · subst heq
    obtain ⟨w, record, packet, hreach, hfollows, haccepted, hone⟩ := h.outstanding hpending
    have hnext : (recordedWrites env.cfg).Reachable _ :=
      hreach.step (e := .written packet) (show packet ∈ w.outstanding by simp [hone])
    refine ⟨h.1, _, _, hnext, ?_, haccepted⟩
    rw [Broker.sessions_modifySession_self]
    exact hfollows.onWrite hone
  · refine h.of_same le_rfl ?_ ?_ rfl
    · rw [Broker.sessions_modifySession_of_ne heq]
    · rw [Broker.sessions_modifySession_of_ne heq]

theorem writeError {target : SessionId} (hpending : (b.sessions target).writePending = true) :
    OnPath env start sid
      (b.modifySession target fun s => { s with writePending := false }) := by
  by_cases heq : sid = target
  · subst heq
    obtain ⟨w, record, packet, hreach, hfollows, haccepted, hone⟩ := h.outstanding hpending
    have hfailed : (recordedWrites env.cfg).Reachable _ :=
      hreach.step (e := .failed packet) (show packet ∈ w.outstanding by simp [hone])
    -- the session is still connected when the handler begins
    have hnext : (recordedWrites env.cfg).Reachable _ :=
      hfailed.step (e := .connected (b.sessions sid).connected) trivial
    refine ⟨h.1, _, _, hnext, ?_, haccepted⟩
    rw [Broker.sessions_modifySession_self]
    refine ⟨rfl, hfollows.writeQueue, ?_⟩
    change false = !(w.outstanding.erase packet).isEmpty
    rw [hone, List.erase_cons_head]
    rfl
  · refine h.of_same le_rfl ?_ ?_ rfl
    · rw [Broker.sessions_modifySession_of_ne heq]
    · rw [Broker.sessions_modifySession_of_ne heq]

end OnPath

/-! ## Runs of the broker -/

theorem onPath_turn (env : Env α) (start : List OutPacket) (sid : SessionId) (n : Runtime α)
    (actor : SessionId) :
    TopicTurn env n actor fun b b' => OnPath env start sid b → OnPath env start sid b' where
  refl _ h := h
  trans h h' hb := h' (h hb)
  deliver target packet _ _ h := h.deliver target packet
  self := trivial
  counters _ _ h := h.of_same_sessions rfl rfl rfl
  acl _ _ _ _ h := h.of_same_sessions rfl rfl rfl
  close _ _ h := h.close actor
  keepalive b h := by
    refine h.modifySession actor _ ?_ ?_
    · intro s
      unfold Session.startKeepalive
      split <;> rfl
    · intro s
      unfold Session.startKeepalive
      split <;> rfl
  noteHandled _ _ h := h.of_same_sessions rfl rfl rfl
  rearm b _ h := by
    refine h.modifySession actor _ ?_ ?_
    · intro s
      unfold Session.rearm
      split <;> rfl
    · intro s
      unfold Session.rearm
      split <;> rfl
  stopReading _ h := h.of_same_sessions rfl rfl rfl
  tables :=
    { pending := fun _ _ h => h.of_same_sessions rfl rfl rfl
      outgoing := fun _ _ h => h.of_same_sessions rfl rfl rfl
      noteSent := fun _ _ h => h.of_same_sessions rfl rfl rfl
      noteSettled := fun _ _ h => h.of_same_sessions rfl rfl rfl }
  auth :=
    { auth := fun _ _ h => h.of_same_sessions rfl rfl rfl
      authTables := fun _ _ _ h => h.of_same_sessions rfl rfl rfl }
  ingest _ :=
    { incoming := fun _ _ _ h => h.of_same_sessions rfl rfl rfl
      noteIngest := fun _ _ _ h => h.of_same_sessions rfl rfl rfl }
  retained pub b h := by
    unfold Session.storeRetained
    split_ifs
    · exact h.of_same_sessions rfl rfl rfl
    · exact h
  disconnect _ old h := h.modifySession old _ (fun _ => rfl) fun _ => rfl
  stop _ h := h.of_same_sessions rfl rfl rfl

theorem OnPath.step {env : Env α} {start : List OutPacket} {sid : SessionId} {n : Runtime α}
    (h : OnPath env start sid n.toBroker) {e : Event} (henabled : n.toBroker.Enabled e) :
    OnPath env start sid (n.step env e).toBroker := by
  have hturn := onPath_turn env start sid n
  cases e with
  | accept ip =>
      change OnPath env start sid (Server.onAccept env.cfg ip n.toBroker)
      unfold Server.onAccept
      dsimp only
      split_ifs
      · exact h
      · exact h.of_same_sessions rfl rfl rfl
      · have hne : sid ≠ n.sessionCount := h.1.ne
        refine h.of_same (Nat.le_succ _) ?_ ?_ rfl
        · exact congrArg Session.writeQueue (Function.update_of_ne hne _ _)
        · exact congrArg Session.writePending (Function.update_of_ne hne _ _)
  | acceptError => exact h
  | read target chunk =>
      have hread := h.modifySession target (fun s => { s with readPending := false })
        (fun _ => rfl) fun _ => rfl
      exact hread.of_same_sessions rfl rfl rfl
  | turn actor =>
      refine (hturn actor).step henabled ?_ ?_ ?_ h
      · intro conn b _ _ _ _ hb
        have hregistered := hb.modifySession actor (Session.adopt env.cfg conn)
          (fun _ => rfl) fun _ => rfl
        unfold Session.restoreSubscriptions
        split_ifs
        · exact hregistered.of_same_sessions rfl rfl rfl
        · exact hregistered.of_same_sessions rfl rfl rfl
      · intro _ _ _ _ _ b _ hb
        exact hb.of_same_sessions rfl rfl rfl
      · intro _ _ _ _ b hb
        exact hb.of_same_sessions rfl rfl rfl
  | readError target =>
      have hread := h.modifySession target (fun s => { s with readPending := false })
        (fun _ => rfl) fun _ => rfl
      exact hread.close target
  | writeDone target => exact h.writeDone henabled.2.2
  | writeError target => exact (h.writeError henabled.2.2).close target
  | keepaliveTimeout target =>
      have htimer := h.modifySession target (fun s => { s with keepaliveTimer := some false })
        (fun _ => rfl) fun _ => rfl
      exact htimer.close target
  | retryQos1 clientId packetId =>
      exact (hturn sid).qos1RetryMessage (hturn sid).tables.toPendingFree clientId packetId _ h
  | retryQos2 clientId packetId =>
      exact (hturn sid).qos2RetryMessage (hturn sid).tables.toOutgoingFree clientId packetId _ h
  | destroy target => exact h.modifySession target Session.destruct (fun _ => rfl) fun _ => rfl
  | clock now => exact h.of_same_sessions rfl rfl rfl

def NothingToWrite (session : Session) : Prop :=
  session.writeQueue = [] ∧ session.writePending = false

theorem onPath_start (env : Env α) {b : Broker α} {sid : SessionId} (hborn : sid < b.sessionCount)
    (hnew : NothingToWrite (b.sessions sid)) : OnPath env (acceptedBy b sid) sid b := by
  let w : WritePath := { connected := (b.sessions sid).connected }
  have hreach : (recordedWrites env.cfg).Reachable (w, {}) :=
    ⟨(w, {}), [], ⟨⟨rfl, rfl⟩, rfl⟩, .nil⟩
  exact ⟨hborn, w, {}, hreach, ⟨rfl, hnew.1.symm, hnew.2⟩, (List.append_nil _).symm⟩

/-- On the write path one write at most is outstanding, that of the front of the
queue.  The packets that were written are those that were queued first, the
others are in the queue, and the queue is bounded.  From the time it has nothing
to write, each session of the broker follows a run of the write path that queues
the same packets. -/
theorem writes_in_order (env : Env α) :
    (∀ w record, (recordedWrites env.cfg).Reachable (w, record) →
      w.outstanding.length ≤ 1 ∧
      (∀ packet ∈ w.outstanding, w.writeQueue.head? = some packet) ∧
      record.written <+: record.accepted ∧
      record.accepted = record.written ++ w.writeQueue ∧
      (w.writeQueue.length : Int) ≤ max 0 env.cfg.maxWriteQueueSize) ∧
    ∀ (n n' : Runtime α) (events : List Event) (sid : SessionId), sid < n.sessionCount →
      NothingToWrite (n.sessions sid) → (brokerSystem env).Run n events n' →
      ∃ w record, (recordedWrites env.cfg).Reachable (w, record) ∧
        SessionFollows (n'.sessions sid) w ∧
        acceptedBy n'.toBroker sid = acceptedBy n.toBroker sid ++ record.accepted := by
  constructor
  · intro w record hreach
    have h := writesInOrder_reachable hreach
    refine ⟨?_, ?_, ⟨w.writeQueue, h.accepted.symm⟩, h.accepted, h.bounded⟩
    · rcases h.oneWrite with hnone | ⟨front, _, _, hone⟩
      · rw [hnone]
        exact Nat.zero_le 1
      · rw [hone, List.length_singleton]
    · intro packet hmem
      obtain ⟨rest, hqueue, _⟩ := h.oneWrite.eq_of_mem hmem
      rw [hqueue, List.head?_cons]
  · intro n n' events sid hborn hnew hrun
    have hpath : OnPath env (acceptedBy n.toBroker sid) sid n'.toBroker :=
      hrun.preserves
        (P := fun n' => OnPath env (acceptedBy n.toBroker sid) sid n'.toBroker)
        (fun _ _ h henabled => h.step henabled) (onPath_start env hborn hnew)
    exact hpath.2

/-- Two packets are queued and the first one is written. -/
theorem writes_in_order_sample :
    let p := (recordedWrites {}).after ({ connected := true }, {})
      [.deliver .pingresp, .deliver (.puback 1), .written .pingresp]
    p.1.outstanding = [.puback 1] ∧ p.1.writeQueue.head? = some (.puback 1) ∧
      p.2.written = [.pingresp] ∧ p.2.written <+: p.2.accepted := by
  intro p
  have hreach : (recordedWrites {}).Reachable p := by
    refine .of_allowed ⟨⟨rfl, rfl⟩, rfl⟩ ⟨trivial, trivial, ?_, trivial⟩
    exact List.mem_singleton_self _
  obtain ⟨_, hfront, hfirst, _⟩ := (writes_in_order defaultEnv).1 p.1 p.2 hreach
  exact ⟨rfl, hfront _ (List.mem_singleton_self _), rfl, hfirst⟩

end JellyBroker
