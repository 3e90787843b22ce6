import JellyBroker.Broker.Unconnected
import JellyBroker.Packet.Framing
/-!
# TCP segmentation

A session reads its client's byte stream in chunks.  As long as it goes on
reading, the cuts between the chunks make no difference.  But `on_read` starts
another read only when the session is connected, so a first read that does not
hold the whole CONNECT is the last one.
-/

namespace JellyBroker

open JellyBroker.Lib JellyBroker.Packet JellyBroker.Packet.PacketParser

variable {α : Type}

namespace Session

def readLoop (env : Env α) (sid : SessionId) : Nat → Runtime α → Runtime α
  | 0, n => n
  | fuel + 1, n =>
      if n.reading = some sid ∧ n.blocked = false then
        readLoop env sid fuel (onReadTurn env sid n)
      else n

/-- The rest of an `on_read`.  Every packet takes bytes out of the buffer. -/
def finishRead (env : Env α) (sid : SessionId) (n : Runtime α) : Runtime α :=
  readLoop env sid ((n.parsers sid).buffer.length + 1) n

def completeRead (env : Env α) (sid : SessionId) (chunk : Bytes) (n : Runtime α) : Runtime α :=
  finishRead env sid (onRead env sid chunk n)

/-- The session reads one chunk after the other, as long as it starts reads. -/
def serve (env : Env α) (sid : SessionId) : List Bytes → Runtime α → Runtime α
  | [], n => n
  | chunk :: rest, n =>
      if (n.sessions sid).readPending = true ∧ n.blocked = false then
        serve env sid rest (completeRead env sid chunk n)
      else n

def ReadsAll (env : Env α) (sid : SessionId) : List Bytes → Runtime α → Prop
  | [], _ => True
  | chunk :: rest, n =>
      ((n.sessions sid).readPending = true ∧ n.blocked = false) ∧
        ReadsAll env sid rest (completeRead env sid chunk n)

end Session

/-- A way to cut a byte stream into reads. -/
def IsCut (stream : Bytes) (chunks : List Bytes) : Prop :=
  chunks.flatten = stream ∧ ∀ chunk ∈ chunks, chunk ≠ [] ∧ chunk.length ≤ readSize

structure Fresh (n : Runtime α) (sid : SessionId) : Prop where
  blocked : n.blocked = false
  reading : n.reading = none
  pending : (n.sessions sid).readPending = true
  connected : (n.sessions sid).connected = false
  parser : n.parsers sid = {}

/-! ## The loop -/

section Loop

variable {env : Env α} {sid : SessionId} {n : Runtime α}

theorem readLoop_of_idle (h : ¬(n.reading = some sid ∧ n.blocked = false)) (fuel : Nat) :
    Session.readLoop env sid fuel n = n := by
  cases fuel with
  | zero => rfl
  | succ fuel => rw [Session.readLoop, if_neg h]

theorem onReadTurn_reading_of_none {parser : PacketParser}
    (h : (n.parsers sid).tryExtract env.cfg = (none, parser)) :
    (Session.onReadTurn env sid n).reading = none := by
  unfold Session.onReadTurn
  rw [h]
  dsimp only [Session.endRead]
  split <;> rfl

theorem onReadTurn_of_packet {packet : Bytes} {parser : PacketParser}
    (h : (n.parsers sid).tryExtract env.cfg = (some packet, parser)) :
    Session.onReadTurn env sid n =
      { toBroker := Session.onPacket env sid packet n.toBroker
        parsers := Function.update n.parsers sid parser } := by
  unfold Session.onReadTurn
  rw [h]

theorem onReadTurn_shortens (h : (Session.onReadTurn env sid n).reading = some sid) :
    ((Session.onReadTurn env sid n).parsers sid).buffer.length <
      (n.parsers sid).buffer.length := by
  rcases hextract : (n.parsers sid).tryExtract env.cfg with ⟨_ | packet, parser⟩
  · rw [onReadTurn_reading_of_none hextract] at h
    cases h
  · rw [onReadTurn_of_packet hextract]
    dsimp only
    rw [Function.update_self]
    exact (length_of_tryExtract hextract).1

/-- More turns than bytes do not matter. -/
theorem readLoop_fuel {fuel fuel' : Nat} (hfuel : (n.parsers sid).buffer.length < fuel)
    (hfuel' : (n.parsers sid).buffer.length < fuel') :
    Session.readLoop env sid fuel n = Session.readLoop env sid fuel' n := by
  induction fuel generalizing fuel' n with
  | zero => omega
  | succ fuel ih =>
      cases fuel' with
      | zero => omega
      | succ fuel' =>
          rw [Session.readLoop, Session.readLoop]
          split_ifs
          · by_cases hnext : (Session.onReadTurn env sid n).reading = some sid
            · have hshorter := onReadTurn_shortens hnext
              apply ih
              · omega
              · omega
            · rw [readLoop_of_idle (fun h => hnext h.1), readLoop_of_idle (fun h => hnext h.1)]
          · rfl

theorem finishRead_of_idle (h : ¬(n.reading = some sid ∧ n.blocked = false)) :
    Session.finishRead env sid n = n :=
  readLoop_of_idle h _

theorem finishRead_of_turn (hreading : n.reading = some sid) (hblocked : n.blocked = false) :
    Session.finishRead env sid n =
      Session.finishRead env sid (Session.onReadTurn env sid n) := by
  unfold Session.finishRead
  rw [Session.readLoop, if_pos ⟨hreading, hblocked⟩]
  by_cases hnext : (Session.onReadTurn env sid n).reading = some sid
  · have hshorter := onReadTurn_shortens hnext
    apply readLoop_fuel
    · omega
    · omega
  · rw [readLoop_of_idle (fun h => hnext h.1), readLoop_of_idle (fun h => hnext h.1)]

theorem finishRead_induction {P : Runtime α → Prop}
    (hidle : ∀ n, ¬(n.reading = some sid ∧ n.blocked = false) → P n)
    (hturn : ∀ n, n.reading = some sid → n.blocked = false →
      P (Session.onReadTurn env sid n) → P n) (n : Runtime α) : P n := by
  induction hlength : (n.parsers sid).buffer.length using Nat.strong_induction_on
    generalizing n with
  | _ length ih =>
      by_cases hloop : n.reading = some sid ∧ n.blocked = false
      · apply hturn n hloop.1 hloop.2
        by_cases hnext : (Session.onReadTurn env sid n).reading = some sid
        · have hshorter := onReadTurn_shortens hnext
          exact ih _ (by omega) _ rfl
        · exact hidle _ fun h => hnext h.1
      · exact hidle n hloop

theorem finishRead_run (env : Env α) (sid : SessionId) (n : Runtime α) :
    ∃ turns, (brokerSystem env).Run n turns (Session.finishRead env sid n) := by
  induction n using finishRead_induction with
  | hidle n hidle =>
      rw [finishRead_of_idle hidle]
      exact ⟨[], .nil⟩
  | hturn n hreading hblocked ih =>
      rw [finishRead_of_turn hreading hblocked]
      obtain ⟨turns, hrun⟩ := ih
      have hfirst : (brokerSystem env).Run n [.turn sid] (Session.onReadTurn env sid n) :=
        .snoc .nil ⟨hblocked, hreading⟩
      exact ⟨[.turn sid] ++ turns, hfirst.append hrun⟩

end Loop

/-! ## What a packet leaves alone -/

structure KeepsReads (b b' : Broker α) : Prop where
  reading : b'.reading = b.reading
  pending : ∀ sid, (b'.sessions sid).readPending = (b.sessions sid).readPending

theorem keepsReads_modifySession (b : Broker α) (sid : SessionId) {change : Session → Session}
    (h : ∀ s, (change s).readPending = s.readPending) :
    KeepsReads b (b.modifySession sid change) := by
  refine ⟨rfl, ?_⟩
  intro other
  by_cases heq : other = sid
  · rw [heq, Broker.sessions_modifySession_self, h]
  · rw [Broker.sessions_modifySession_of_ne heq]

theorem keepsReads_close (b : Broker α) {sid : SessionId}
    (hconn : (b.sessions sid).connected = true) :
    KeepsReads b (Session.close false sid b) := by
  obtain ⟨tree, subManager, hclose⟩ := Session.close_of_connected hconn
  rw [hclose]
  refine ⟨rfl, ?_⟩
  intro other
  by_cases heq : other = sid
  · subst heq
    simp
  · simp [heq]

theorem keepsReads_frame : Frame (KeepsReads (α := α)) where
  refl _ := ⟨rfl, fun _ => rfl⟩
  trans h h' := ⟨h'.reading.trans h.reading, fun sid => (h'.pending sid).trans (h.pending sid)⟩
  misc _ _ _ _ _ _ _ := ⟨rfl, fun _ => rfl⟩
  noteHanded _ _ := ⟨rfl, fun _ => rfl⟩
  plumbing b sid _ hplumbing := keepsReads_modifySession b sid hplumbing.readPending
  close b _ hconn := keepsReads_close b hconn
  disconnect b sid := keepsReads_modifySession b sid fun _ => rfl

theorem keepsReads_packetClosed (env : Env α) (sid : SessionId) :
    PacketClosed env sid (KeepsReads (α := α)) where
  frame := keepsReads_frame
  tables :=
    { pending := fun _ _ => ⟨rfl, fun _ => rfl⟩
      outgoing := fun _ _ => ⟨rfl, fun _ => rfl⟩
      noteSent := fun _ _ => ⟨rfl, fun _ => rfl⟩
      noteSettled := fun _ _ => ⟨rfl, fun _ => rfl⟩ }
  ingest :=
    { incoming := fun _ _ => ⟨rfl, fun _ => rfl⟩
      noteIngest := fun _ _ _ _ => ⟨rfl, fun _ => rfl⟩ }
  register b conn _ _ _ := by
    have hadopt : KeepsReads b (b.modifySession sid (Session.adopt env.cfg conn)) :=
      keepsReads_modifySession b sid fun _ => rfl
    exact ⟨rfl, hadopt.pending⟩
  block b old := by
    have hidle : KeepsReads b (b.modifySession old fun s => { s with connected := false }) :=
      keepsReads_modifySession b old fun _ => rfl
    exact ⟨rfl, hidle.pending⟩

theorem onPacket_reads {env : Env α} {b : Broker α} {sid : SessionId} (packet : Bytes)
    (hreading : b.reading = some sid) (hblocked : b.blocked = false) :
    ((Session.onPacket env sid packet b).sessions sid).readPending =
        (b.sessions sid).readPending ∧
      ((Session.onPacket env sid packet b).reading = some sid ∨
        (Session.onPacket env sid packet b).reading = none) := by
  have hhandled : KeepsReads (b.observe (.noteHandled sid packet))
      (Session.handlePacket env sid packet (b.observe (.noteHandled sid packet))).1 :=
    (keepsReads_packetClosed env sid).handlePacket packet hreading hblocked
  unfold Session.onPacket
  revert hhandled
  rcases Session.handlePacket env sid packet (b.observe (.noteHandled sid packet)) with
    ⟨b', _ | e⟩
  · intro hhandled
    exact ⟨hhandled.pending sid, Or.inl (hhandled.reading.trans hreading)⟩
  · intro hhandled
    have hclosed := keepsReads_frame.closeAny b' sid
    exact ⟨(hclosed.pending sid).trans (hhandled.pending sid), Or.inr rfl⟩

theorem finishRead_reading (env : Env α) {sid : SessionId} (n : Runtime α)
    (h : n.reading = some sid ∨ n.reading = none)
    (hblocked : (Session.finishRead env sid n).blocked = false) :
    (Session.finishRead env sid n).reading = none := by
  induction n using finishRead_induction with
  | hidle n hidle =>
      rw [finishRead_of_idle hidle] at hblocked ⊢
      rcases h with hreading | hnone
      · exact absurd ⟨hreading, hblocked⟩ hidle
      · exact hnone
  | hturn n hreading hfree ih =>
      rw [finishRead_of_turn hreading hfree] at hblocked ⊢
      refine ih ?_ hblocked
      rcases hextract : (n.parsers sid).tryExtract env.cfg with ⟨_ | packet, parser⟩
      · exact Or.inr (onReadTurn_reading_of_none hextract)
      · rw [onReadTurn_of_packet hextract]
        exact (onPacket_reads packet hreading hfree).2

/-! ## Two reads and one -/

def extend (sid : SessionId) (more : Bytes) (n : Runtime α) : Runtime α :=
  { n with parsers := Function.update n.parsers sid ((n.parsers sid).append more) }

def absorb (sid : SessionId) (chunk : Bytes) (n : Runtime α) : Runtime α :=
  extend sid chunk { n with toBroker := Session.beginRead sid n.toBroker }

theorem extend_extend (sid : SessionId) (data more : Bytes) (n : Runtime α) :
    extend sid more (extend sid data n) = extend sid (data ++ more) n := by
  simp [extend, append_append]

theorem onRead_of_fits {env : Env α} {sid : SessionId} {chunk : Bytes} {n : Runtime α}
    (h : (n.parsers sid).buffer.length + chunk.length ≤ bufferLimit env.cfg) :
    Session.onRead env sid chunk n = absorb sid chunk n := by
  simp only [Session.onRead, absorb, extend, feed_of_fits h]

/-- Starting a read and completing it changes nothing inside `on_read`. -/
theorem beginRead_rearm {b : Broker α} {sid : SessionId} (hreading : b.reading = some sid)
    (hpending : (b.sessions sid).readPending = false) :
    Session.beginRead sid ((b.modifySession sid Session.rearm).setReading none) = b := by
  have hsession : { Session.rearm (b.sessions sid) with readPending := false } =
      b.sessions sid := by
    unfold Session.rearm
    split_ifs
    · rw [← hpending]
    · rw [← hpending]
  simp only [Session.beginRead, Broker.setReading, Broker.modifySession, Function.update_self,
    Function.update_idem, hsession, Function.update_eq_self, ← hreading]

theorem onReadTurn_of_rearmed {env : Env α} {sid : SessionId} {n : Runtime α}
    {parser : PacketParser} (hpending : (n.sessions sid).readPending = false)
    (hextract : (n.parsers sid).tryExtract env.cfg = (none, parser))
    (hrearmed : ((Session.onReadTurn env sid n).sessions sid).readPending = true) :
    Waiting env.cfg (n.parsers sid) ∧ Session.onReadTurn env sid n =
      { n with toBroker := (n.toBroker.modifySession sid Session.rearm).setReading none } := by
  unfold Session.onReadTurn at hrearmed ⊢
  rw [hextract] at hrearmed ⊢
  dsimp only at hrearmed ⊢
  cases herror : parser.hasError with
  | true =>
      rw [herror] at hrearmed
      have hclosed := (keepsReads_frame.closeAny n.toBroker sid).pending sid
      have hpending' : ((Session.endRead sid true n.toBroker).sessions sid).readPending = false :=
        hclosed.trans hpending
      rw [hpending'] at hrearmed
      cases hrearmed
  | false =>
      obtain ⟨hparser, hwaiting⟩ := waiting_of_tryExtract hextract herror
      rw [hparser, Function.update_eq_self]
      exact ⟨hwaiting, rfl⟩

/-- Later bytes do not change what a turn does with a packet. -/
theorem onReadTurn_extend {env : Env α} {sid : SessionId} {n : Runtime α} {packet : Bytes}
    {parser : PacketParser}
    (hextract : (n.parsers sid).tryExtract env.cfg = (some packet, parser)) (more : Bytes) :
    Session.onReadTurn env sid (extend sid more n) =
      extend sid more (Session.onReadTurn env sid n) := by
  have hextract' : ((extend sid more n).parsers sid).tryExtract env.cfg =
      (some packet, parser.append more) := by
    simp only [extend, Function.update_self]
    exact tryExtract_append hextract more
  rw [onReadTurn_of_packet hextract', onReadTurn_of_packet hextract]
  simp [extend]

/-- If the loop ends with another read started, then a second read continues it
as if its bytes had come with the first. -/
theorem finishRead_extend {env : Env α} {sid : SessionId} (n : Runtime α)
    (hreading : n.reading = some sid) (hpending : (n.sessions sid).readPending = false)
    (hrearmed : ((Session.finishRead env sid n).sessions sid).readPending = true)
    (hblocked : (Session.finishRead env sid n).blocked = false) :
    (Session.finishRead env sid n).reading = none ∧
      Waiting env.cfg ((Session.finishRead env sid n).parsers sid) ∧
      ∀ more, Session.finishRead env sid (absorb sid more (Session.finishRead env sid n)) =
        Session.finishRead env sid (extend sid more n) := by
  induction n using finishRead_induction with
  | hidle n hidle =>
      rw [finishRead_of_idle hidle, hpending] at hrearmed
      cases hrearmed
  | hturn n _ hfree ih =>
      rw [finishRead_of_turn hreading hfree] at hrearmed hblocked ⊢
      rcases hextract : (n.parsers sid).tryExtract env.cfg with ⟨_ | packet, parser⟩
      · have hended : ¬((Session.onReadTurn env sid n).reading = some sid ∧
            (Session.onReadTurn env sid n).blocked = false) := by
          rw [onReadTurn_reading_of_none hextract]
          exact fun h => nomatch h.1
        rw [finishRead_of_idle hended] at hrearmed ⊢
        obtain ⟨hwaiting, hturn⟩ := onReadTurn_of_rearmed hpending hextract hrearmed
        rw [hturn]
        refine ⟨rfl, hwaiting, ?_⟩
        intro more
        rw [absorb]
        dsimp only
        rw [beginRead_rearm hreading hpending]
      · have hpending' : ((Session.onReadTurn env sid n).sessions sid).readPending = false := by
          rw [onReadTurn_of_packet hextract]
          exact (onPacket_reads packet hreading hfree).1.trans hpending
        by_cases hnext : (Session.onReadTurn env sid n).reading = some sid
        · obtain ⟨hidle, hwaiting, hmore⟩ := ih hnext hpending' hrearmed hblocked
          refine ⟨hidle, hwaiting, ?_⟩
          intro more
          have hreading' : (extend sid more n).reading = some sid := hreading
          rw [hmore more, ← onReadTurn_extend hextract, ← finishRead_of_turn hreading' hfree]
        · rw [finishRead_of_idle fun h => hnext h.1, hpending'] at hrearmed
          cases hrearmed

/-! ## Serving a stream -/

structure Ready (env : Env α) (n : Runtime α) (sid : SessionId) : Prop where
  blocked : n.blocked = false
  reading : n.reading = none
  pending : (n.sessions sid).readPending = true
  parser : Waiting env.cfg (n.parsers sid)

theorem Fresh.ready {n : Runtime α} {sid : SessionId} (h : Fresh n sid) (env : Env α) :
    Ready env n sid :=
  ⟨h.blocked, h.reading, h.pending, h.parser ▸ waiting_empty env.cfg⟩

theorem Ready.completeRead {env : Env α} {n : Runtime α} {sid : SessionId} {chunk : Bytes}
    (h : Ready env n sid) (hlimit : packetLimit env.cfg + 4 + readSize ≤ bufferLimit env.cfg)
    (hsize : chunk.length ≤ readSize) :
    Session.completeRead env sid chunk n =
      Session.finishRead env sid (absorb sid chunk n) := by
  have hwaiting := h.parser.length_le
  unfold Session.completeRead
  rw [onRead_of_fits (by omega)]

theorem serve_of_readsAll {env : Env α} {sid : SessionId}
    (hlimit : packetLimit env.cfg + 4 + readSize ≤ bufferLimit env.cfg) {chunk : Bytes}
    {rest : List Bytes} {n : Runtime α} (hready : Ready env n sid)
    (hsize : ∀ c ∈ chunk :: rest, c.length ≤ readSize)
    (hall : Session.ReadsAll env sid (chunk :: rest) n) :
    Session.serve env sid (chunk :: rest) n =
      Session.finishRead env sid (absorb sid (chunk ++ rest.flatten) n) := by
  have hread := hready.completeRead hlimit (hsize chunk List.mem_cons_self)
  induction rest generalizing chunk n with
  | nil =>
      rw [Session.serve, if_pos hall.1, Session.serve, hread, List.flatten_nil, List.append_nil]
  | cons next rest ih =>
      rw [Session.serve, if_pos hall.1, hread]
      have hall' := hall.2
      rw [hread] at hall'
      have hpending : ((absorb sid chunk n).sessions sid).readPending = false := by
        simp [absorb, extend, Session.beginRead, Broker.setReading]
      obtain ⟨hidle, hwaiting, hmore⟩ :=
        finishRead_extend (absorb sid chunk n) rfl hpending hall'.1.1 hall'.1.2
      have hready' : Ready env (Session.finishRead env sid (absorb sid chunk n)) sid :=
        ⟨hall'.1.2, hidle, hall'.1.1, hwaiting⟩
      have hsize' : ∀ c ∈ next :: rest, c.length ≤ readSize := by
        intro c hc
        exact hsize c (List.mem_cons_of_mem chunk hc)
      have hread' := hready'.completeRead hlimit (hsize' next List.mem_cons_self)
      rw [ih hready' hsize' hall' hread', hmore]
      unfold absorb
      rw [extend_extend]
      simp

theorem serve_run (env : Env α) (sid : SessionId) {chunks : List Bytes} {n : Runtime α}
    (hsize : ∀ chunk ∈ chunks, chunk ≠ [] ∧ chunk.length ≤ readSize)
    (hreading : n.blocked = false → n.reading = none) :
    ∃ events, (brokerSystem env).Run n events (Session.serve env sid chunks n) := by
  induction chunks generalizing n with
  | nil => exact ⟨[], .nil⟩
  | cons chunk rest ih =>
      unfold Session.serve
      split_ifs with hready
      · obtain ⟨hne, hlength⟩ := hsize chunk List.mem_cons_self
        have hfirst : (brokerSystem env).Run n [.read sid chunk] (Session.onRead env sid chunk n) :=
          .snoc .nil ⟨hready.2, hreading hready.2, hready.1, hne, hlength⟩
        obtain ⟨turns, hturns⟩ :=
          finishRead_run env sid (Session.onRead env sid chunk n)
        obtain ⟨events, hevents⟩ := ih (fun c hc => hsize c (List.mem_cons_of_mem chunk hc))
          (finishRead_reading env (Session.onRead env sid chunk n) (Or.inl rfl))
        exact ⟨_, (hfirst.append hturns).append hevents⟩
      · exact ⟨[], .nil⟩

/-! ## Handled packets -/

def KeepsHandled (b b' : Broker α) : Prop := b.history.handled <+: b'.history.handled

theorem keepsHandled_of_eq {b b' : Broker α} (h : b'.history.handled = b.history.handled) :
    KeepsHandled b b' := by
  unfold KeepsHandled
  rw [h]

theorem keepsHandled_frame : Frame (KeepsHandled (α := α)) where
  refl b := keepsHandled_of_eq rfl
  trans h h' := h.trans h'
  misc _ _ _ _ _ _ _ := keepsHandled_of_eq rfl
  noteHanded _ _ := keepsHandled_of_eq rfl
  plumbing _ _ _ _ := keepsHandled_of_eq rfl
  close b sid hconn := by
    obtain ⟨tree, subManager, hclose⟩ := Session.close_of_connected hconn
    rw [hclose]
    exact keepsHandled_of_eq rfl
  disconnect _ _ := keepsHandled_of_eq rfl

theorem keepsHandled_stepClosed (env : Env α) : StepClosed env (KeepsHandled (α := α)) where
  frame := keepsHandled_frame
  tables :=
    { pending := fun _ _ => keepsHandled_of_eq rfl
      outgoing := fun _ _ => keepsHandled_of_eq rfl
      noteSent := fun _ _ => keepsHandled_of_eq rfl
      noteSettled := fun _ _ => keepsHandled_of_eq rfl }
  ingest :=
    { incoming := fun _ _ => keepsHandled_of_eq rfl
      noteIngest := fun _ _ _ _ => keepsHandled_of_eq rfl }
  register _ _ _ _ _ _ := keepsHandled_of_eq rfl
  block _ _ := keepsHandled_of_eq rfl
  noteHandled b sid packet := ⟨[(sid, packet)], rfl⟩
  beginRead _ _ _ := keepsHandled_of_eq rfl
  rearm _ _ _ := keepsHandled_of_eq rfl
  stopReading _ := keepsHandled_of_eq rfl
  dropRead _ _ := keepsHandled_of_eq rfl
  clock _ _ := keepsHandled_of_eq rfl
  accept b ip := by
    unfold Server.onAccept
    dsimp only
    split_ifs
    · exact keepsHandled_of_eq rfl
    · exact keepsHandled_of_eq rfl
    · exact keepsHandled_of_eq rfl
  destroy _ _ _ _ := keepsHandled_of_eq rfl

theorem onPacket_handled {env : Env α} {b : Broker α} {sid : SessionId} (packet : Bytes)
    (hreading : b.reading = some sid) (hblocked : b.blocked = false) :
    b.history.handled ++ [(sid, packet)] <+:
      (Session.onPacket env sid packet b).history.handled := by
  have hclosed : TurnClosed env sid (KeepsHandled (α := α)) :=
    (keepsHandled_stepClosed env).turn sid
  have hhandled := hclosed.toPacketClosed.handlePacket (b := b.observe (.noteHandled sid packet))
    packet hreading hblocked
  exact hclosed.frame.trans hhandled (hclosed.toLoopClosed.catchException _)

/-! ## Segmentation -/

theorem serve_of_stopped {env : Env α} {n : Runtime α} {sid : SessionId}
    (h : (n.sessions sid).readPending = false) (chunks : List Bytes) :
    Session.serve env sid chunks n = n := by
  cases chunks with
  | nil => rfl
  | cons chunk rest => simp [Session.serve, h]

theorem Fresh.serve_cons {env : Env α} {n : Runtime α} {sid : SessionId} {chunk : Bytes}
    (h : Fresh n sid) (hfits : chunk.length ≤ bufferLimit env.cfg) (rest : List Bytes) :
    (absorb sid chunk n).parsers sid = { buffer := chunk } ∧
      Session.completeRead env sid chunk n =
        Session.finishRead env sid (Session.onReadTurn env sid (absorb sid chunk n)) ∧
      Session.serve env sid (chunk :: rest) n =
        Session.serve env sid rest (Session.completeRead env sid chunk n) := by
  refine ⟨?_, ?_, ?_⟩
  · simp [absorb, extend, h.parser, PacketParser.append]
  · have hempty : (n.parsers sid).buffer.length = 0 := by
      rw [h.parser]
      rfl
    unfold Session.completeRead
    rw [onRead_of_fits (by omega)]
    exact finishRead_of_turn rfl h.blocked
  · rw [Session.serve, if_pos ⟨h.pending, h.blocked⟩]

theorem serve_of_no_packet {env : Env α} {n : Runtime α} {sid : SessionId} {chunk : Bytes}
    {rest : List Bytes} {parser : PacketParser} (hfresh : Fresh n sid)
    (hfits : chunk.length ≤ bufferLimit env.cfg)
    (hnone : tryExtract env.cfg { buffer := chunk } = (none, parser)) :
    (Session.serve env sid (chunk :: rest) n).toBroker =
      (Session.beginRead sid n.toBroker).setReading none := by
  obtain ⟨hparser, hread, hserve⟩ := hfresh.serve_cons hfits rest
  rw [← hparser] at hnone
  have hunconnected : ((Session.beginRead sid n.toBroker).sessions sid).connected = false := by
    simpa [Session.beginRead, Broker.setReading] using hfresh.connected
  have hturn : (Session.onReadTurn env sid (absorb sid chunk n)).toBroker =
      (Session.beginRead sid n.toBroker).setReading none := by
    unfold Session.onReadTurn
    rw [hnone]
    exact endRead_of_unconnected hunconnected parser.hasError
  have hended : ¬((Session.onReadTurn env sid (absorb sid chunk n)).reading = some sid ∧
      (Session.onReadTurn env sid (absorb sid chunk n)).blocked = false) := by
    rw [onReadTurn_reading_of_none hnone]
    exact fun h => nomatch h.1
  have hstopped : ((Session.onReadTurn env sid (absorb sid chunk n)).sessions sid).readPending =
      false := by
    rw [hturn]
    simp [Session.beginRead, Broker.setReading]
  rw [hserve, hread, finishRead_of_idle hended, serve_of_stopped hstopped, hturn]

theorem serve_of_packet {env : Env α} {n : Runtime α} {sid : SessionId} {chunk packet : Bytes}
    {rest : List Bytes} {parser : PacketParser} (hfresh : Fresh n sid)
    (hfits : chunk.length ≤ bufferLimit env.cfg)
    (hsize : ∀ c ∈ rest, c ≠ [] ∧ c.length ≤ readSize)
    (hpacket : tryExtract env.cfg { buffer := chunk } = (some packet, parser)) :
    n.history.handled ++ [(sid, packet)] <+:
      (Session.serve env sid (chunk :: rest) n).history.handled := by
  obtain ⟨hparser, hread, hserve⟩ := hfresh.serve_cons hfits rest
  rw [← hparser] at hpacket
  have hfirst : n.history.handled ++ [(sid, packet)] <+:
      (Session.onReadTurn env sid (absorb sid chunk n)).history.handled := by
    rw [onReadTurn_of_packet hpacket]
    exact onPacket_handled (b := (absorb sid chunk n).toBroker) packet rfl hfresh.blocked
  obtain ⟨turns, hturns⟩ :=
    finishRead_run env sid (Session.onReadTurn env sid (absorb sid chunk n))
  have hidle : (Session.completeRead env sid chunk n).blocked = false →
      (Session.completeRead env sid chunk n).reading = none :=
    finishRead_reading env (Session.onRead env sid chunk n) (Or.inl rfl)
  obtain ⟨events, hevents⟩ := serve_run env sid hsize hidle
  rw [hread] at hevents
  rw [hserve, hread]
  exact hfirst.trans ((keepsHandled_stepClosed env).run (hturns.append hevents))

theorem isCut_singletons (stream : Bytes) : IsCut stream (stream.map fun byte => [byte]) := by
  constructor
  · induction stream with
    | nil => rfl
    | cons byte rest ih => rw [List.map_cons, List.flatten_cons, ih, List.singleton_append]
  · intro chunk hchunk
    obtain ⟨byte, _, rfl⟩ := List.mem_map.mp hchunk
    refine ⟨List.cons_ne_nil _ _, ?_⟩
    rw [List.length_singleton]
    decide

theorem isCut_take {stream : Bytes} (hne : stream ≠ []) :
    IsCut stream (stream.take readSize :: (stream.drop readSize).map fun byte => [byte]) := by
  obtain ⟨hflatten, hsize⟩ := isCut_singletons (stream.drop readSize)
  constructor
  · rw [List.flatten_cons, hflatten, List.take_append_drop]
  · intro chunk hchunk
    rcases List.mem_cons.mp hchunk with heq | hrest
    · rw [heq]
      refine ⟨?_, by rw [List.length_take]; omega⟩
      rw [Ne, List.take_eq_nil_iff]
      exact fun h => h.elim (by decide) hne
    · exact hsize chunk hrest

theorem IsCut.first_chunk {stream chunk : Bytes} {rest : List Bytes}
    (h : IsCut stream (chunk :: rest)) : ∃ more, stream.take readSize = chunk ++ more := by
  have hlength := (h.2 chunk List.mem_cons_self).2
  refine ⟨rest.flatten.take (readSize - chunk.length), ?_⟩
  rw [← h.1, List.flatten_cons, List.take_append, List.take_of_length_le hlength]

/-- No packet of the stream is complete in the largest first read. -/
def NoPacketInFirstRead (cfg : Config) (stream : Bytes) : Prop :=
  (tryExtract cfg { buffer := stream.take readSize }).1 = none

instance (cfg : Config) (stream : Bytes) : Decidable (NoPacketInFirstRead cfg stream) :=
  inferInstanceAs (Decidable (_ = _))

theorem IsCut.eq_nil {stream : Bytes} {chunks : List Bytes} (h : IsCut stream chunks)
    (hstream : stream = []) : chunks = [] := by
  cases chunks with
  | nil => rfl
  | cons chunk rest =>
      have hflatten := h.1
      rw [hstream, List.flatten_cons] at hflatten
      exact absurd (List.append_eq_nil_iff.mp hflatten).1 (h.2 chunk List.mem_cons_self).1

theorem IsCut.serve_of_noPacket {env : Env α} {n : Runtime α} {sid : SessionId} {stream : Bytes}
    {chunks : List Bytes} (hlimit : readSize ≤ bufferLimit env.cfg) (hfresh : Fresh n sid)
    (hnone : NoPacketInFirstRead env.cfg stream) (hne : stream ≠ []) (h : IsCut stream chunks) :
    (Session.serve env sid chunks n).toBroker =
      (Session.beginRead sid n.toBroker).setReading none := by
  cases chunks with
  | nil => exact absurd h.1.symm hne
  | cons chunk rest =>
      obtain ⟨more, hmore⟩ := h.first_chunk
      have hlength := (h.2 chunk List.mem_cons_self).2
      rcases hextract : tryExtract env.cfg { buffer := chunk } with ⟨_ | packet, parser⟩
      · exact serve_of_no_packet hfresh (by omega) hextract
      · have hlonger := tryExtract_append hextract more
        rw [NoPacketInFirstRead, hmore] at hnone
        rw [PacketParser.append] at hlonger
        rw [hlonger] at hnone
        cases hnone

theorem serve_singletons {env : Env α} {n : Runtime α} {sid : SessionId} {stream : Bytes}
    (hlimit : readSize ≤ bufferLimit env.cfg) (hfresh : Fresh n sid) :
    (Session.serve env sid (stream.map fun byte => [byte]) n).history.handled =
      n.history.handled := by
  cases stream with
  | nil => rfl
  | cons byte rest =>
      have hnone := tryExtract_single env.cfg byte
      rcases hsingle : tryExtract env.cfg { buffer := [byte] } with ⟨_ | _, parser⟩
      · have hfits : [byte].length ≤ bufferLimit env.cfg :=
          le_trans (by rw [List.length_singleton]; decide) hlimit
        rw [List.map_cons, serve_of_no_packet hfresh hfits hsingle]
        rfl
      · rw [hsingle] at hnone
        cases hnone

/-- A packet in the first read at its largest is missed byte by byte. -/
theorem cuts_differ_of_packet {env : Env α} {n : Runtime α} {sid : SessionId}
    {stream packet : Bytes} {parser : PacketParser} (hlimit : readSize ≤ bufferLimit env.cfg)
    (hfresh : Fresh n sid)
    (hpacket : tryExtract env.cfg { buffer := stream.take readSize } = (some packet, parser)) :
    (Session.serve env sid
        (stream.take readSize :: (stream.drop readSize).map fun byte => [byte]) n).toBroker ≠
      (Session.serve env sid (stream.map fun byte => [byte]) n).toBroker := by
  intro hsame
  have hfits : (stream.take readSize).length ≤ bufferLimit env.cfg := by
    rw [List.length_take]
    omega
  have hlarge := serve_of_packet hfresh hfits (isCut_singletons (stream.drop readSize)).2 hpacket
  rw [hsame, serve_singletons hlimit hfresh] at hlarge
  have hlength := hlarge.length_le
  rw [List.length_append, List.length_singleton] at hlength
  omega

/-- For a fresh session the cuts of its stream make no difference if and only if
no packet is complete in the first read at its largest, that is if nothing is
ever handled.  They make no difference between cuts that are read to the end. -/
theorem segmentation_invisible_iff (env : Env α) (n : Runtime α) (sid : SessionId) (stream : Bytes)
    (hlimit : packetLimit env.cfg + 4 + readSize ≤ bufferLimit env.cfg) (hfresh : Fresh n sid) :
    ((∀ chunks chunks', IsCut stream chunks → IsCut stream chunks' →
        (Session.serve env sid chunks n).toBroker =
          (Session.serve env sid chunks' n).toBroker) ↔
      NoPacketInFirstRead env.cfg stream) ∧
    ∀ chunks chunks', IsCut stream chunks → IsCut stream chunks' →
      Session.ReadsAll env sid chunks n → Session.ReadsAll env sid chunks' n →
      Session.serve env sid chunks n = Session.serve env sid chunks' n := by
  have hread : readSize ≤ bufferLimit env.cfg := by omega
  refine ⟨⟨?_, ?_⟩, ?_⟩
  · intro hsame
    rcases hextract : tryExtract env.cfg { buffer := stream.take readSize } with
      ⟨_ | packet, parser⟩
    · rw [NoPacketInFirstRead, hextract]
    · have hne : stream ≠ [] := by
        rintro rfl
        cases hextract
      have hequal := hsame _ _ (isCut_take hne) (isCut_singletons stream)
      exact absurd hequal (cuts_differ_of_packet hread hfresh hextract)
  · intro hnone chunks chunks' hcut hcut'
    by_cases hne : stream = []
    · rw [hcut.eq_nil hne, hcut'.eq_nil hne]
    · rw [hcut.serve_of_noPacket hread hfresh hnone hne,
        hcut'.serve_of_noPacket hread hfresh hnone hne]
  · intro chunks chunks' hcut hcut' hall hall'
    cases chunks with
    | nil =>
        have hnil : stream = [] := hcut.1.symm
        rw [hcut'.eq_nil hnil]
    | cons chunk rest =>
        cases chunks' with
        | nil =>
            have hnil : stream = [] := hcut'.1.symm
            cases hcut.eq_nil hnil
        | cons chunk' rest' =>
            have hready := hfresh.ready env
            rw [serve_of_readsAll hlimit hready (fun c hc => (hcut.2 c hc).2) hall,
              serve_of_readsAll hlimit hready (fun c hc => (hcut'.2 c hc).2) hall']
            rw [← List.flatten_cons, ← List.flatten_cons, hcut.1, hcut'.1]

def acceptedRuntime : Runtime Unit :=
  (brokerSystem defaultEnv).after { auth := () } [.accept [0x69]]

theorem acceptedRuntime_fresh : Fresh acceptedRuntime 0 :=
  ⟨rfl, rfl, rfl, rfl, rfl⟩

/-- The first bytes of a CONNECT are not handled however they arrive. -/
theorem segmentation_invisible_sample :
    Fresh acceptedRuntime 0 ∧
    ∀ chunks chunks', IsCut [0x10, 0x0d, 0x00] chunks → IsCut [0x10, 0x0d, 0x00] chunks' →
      (Session.serve defaultEnv 0 chunks acceptedRuntime).toBroker =
        (Session.serve defaultEnv 0 chunks' acceptedRuntime).toBroker := by
  refine ⟨acceptedRuntime_fresh, ?_⟩
  exact (segmentation_invisible_iff defaultEnv acceptedRuntime 0 [0x10, 0x0d, 0x00] (by decide)
    acceptedRuntime_fresh).1.mpr (by decide)

/-- A CONNECT is accepted in one read, and not if its last byte comes in a
second one. -/
theorem split_connect_is_lost :
    IsCut (connectBytes true [0x63]) [connectBytes true [0x63]] ∧
    IsCut (connectBytes true [0x63])
      [(connectBytes true [0x63]).dropLast, (connectBytes true [0x63]).drop 14] ∧
    ((Session.serve defaultEnv 0 [connectBytes true [0x63]] acceptedRuntime).sessions 0).connected =
      true ∧
    ((Session.serve defaultEnv 0
      [(connectBytes true [0x63]).dropLast, (connectBytes true [0x63]).drop 14]
      acceptedRuntime).sessions 0).connected = false := by
  refine ⟨⟨by decide, by decide⟩, ⟨by decide, by decide⟩, ?_, ?_⟩
  · decide +kernel
  · decide +kernel

end JellyBroker
