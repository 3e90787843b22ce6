import JellyBroker.Broker.Ingest
/-!
# Calls of the store of incoming messages

The store of incoming QoS 2 messages as a system of its own: calls in any order
and for any clients, between which the rest of the broker changes in any way that
leaves the store alone.  A call lasts as long as it holds the mutex of the store,
so that other calls can come before a completed message has been forwarded.
Every step of the broker is a run of such calls.
-/

namespace JellyBroker

open JellyBroker.Lib JellyBroker.Packet JellyBroker.Qos

variable {α : Type}

/-! ## The system of calls -/

namespace DeliveryEngine

def clearClientIncoming (clientId : Bytes) (b : Broker α) : Broker α :=
  b.setIncoming (b.delivery.incomingQos2.erase clientId)

/-- The part of `complete_incoming_qos2` that holds the mutex: the message is
taken out of the store. -/
def lockedComplete (clientId : Bytes) (packetId : UInt16) (b : Broker α) :
    Option IncomingMessage × Broker α :=
  match b.delivery.incoming? clientId packetId with
  | none => (none, b)
  | some msg =>
      (some msg, (takeIncoming clientId packetId b).observe
        (.noteIngest clientId packetId (.forward msg)))

def forwarded (msg : IncomingMessage) : PublishPacket :=
  { topic := msg.topic, payload := msg.payload, qos := msg.qos }

theorem completeIncomingQos2_of_none {clientId : Bytes} {packetId : UInt16} {b : Broker α}
    (env : Env α) (h : b.delivery.incoming? clientId packetId = none) :
    completeIncomingQos2 env clientId packetId b = (false, b) := by
  unfold completeIncomingQos2
  rw [h]

theorem completeIncomingQos2_of_some {clientId : Bytes} {packetId : UInt16} {b : Broker α}
    {msg : IncomingMessage} (env : Env α)
    (h : b.delivery.incoming? clientId packetId = some msg) :
    completeIncomingQos2 env clientId packetId b =
      (true, Qos2Handler.deliver env (forwarded msg) (lockedComplete clientId packetId b).2) := by
  unfold completeIncomingQos2 lockedComplete
  rw [h]
  rfl

theorem ingest_lockedComplete {clientId : Bytes} {packetId : UInt16} {b : Broker α}
    {msg : IncomingMessage} (h : b.delivery.incoming? clientId packetId = some msg) :
    (lockedComplete clientId packetId b).2.history.ingest =
      b.history.ingest ++ [(clientId, packetId, .forward msg)] := by
  obtain ⟨store, htake, _⟩ := takeIncoming_eq clientId packetId b
  unfold lockedComplete
  rw [h, htake]
  rfl

theorem incoming?_lockedComplete (clientId : Bytes) (packetId : UInt16) (b : Broker α)
    (clientId' : Bytes) (packetId' : UInt16) :
    (lockedComplete clientId packetId b).2.delivery.incoming? clientId' packetId' =
      if clientId' = clientId ∧ packetId' = packetId then none
      else b.delivery.incoming? clientId' packetId' := by
  unfold lockedComplete
  cases hstored : b.delivery.incoming? clientId packetId with
  | none =>
      dsimp only
      split_ifs with hsame
      · rw [hsame.1, hsame.2, hstored]
      · rfl
  | some msg => exact incoming?_takeIncoming clientId packetId b clientId' packetId'

theorem incoming?_clear (clientId : Bytes) (b : Broker α) (clientId' : Bytes)
    (packetId : UInt16) :
    (clearClientIncoming clientId b).delivery.incoming? clientId' packetId =
      if clientId' = clientId then none else b.delivery.incoming? clientId' packetId :=
  incoming?_erase b.delivery clientId clientId' packetId

end DeliveryEngine

inductive IncomingCall (α : Type) where
  | store (clientId : Bytes) (pub : PublishPacket)
  | complete (clientId : Bytes) (packetId : UInt16)
  | clear (clientId : Bytes)
  /-- Anything that leaves the store alone. -/
  | other (b : Broker α)

/-- What a caller sees of a call. -/
inductive StoreRecord where
  | stored (clientId : Bytes) (packetId : UInt16) (msg : IncomingMessage)
  | completed (clientId : Bytes) (packetId : UInt16) (result : Bool)
  | cleared (clientId : Bytes)
  deriving DecidableEq

namespace IncomingCall

def Enabled (b : Broker α) : IncomingCall α → Prop
  | other b' => b'.delivery.incomingQos2 = b.delivery.incomingQos2
  | _ => True

def step (b : Broker α) : IncomingCall α → Broker α
  | store clientId pub => DeliveryEngine.storeIncomingQos2 clientId pub b
  | complete clientId packetId => (DeliveryEngine.lockedComplete clientId packetId b).2
  | clear clientId => DeliveryEngine.clearClientIncoming clientId b
  | other b' => b'

def record (env : Env α) (b : Broker α) : IncomingCall α → List StoreRecord
  | store clientId pub => [.stored clientId pub.packetId ⟨pub.topic, pub.payload, pub.qos⟩]
  | complete clientId packetId =>
      [.completed clientId packetId (DeliveryEngine.completeIncomingQos2 env clientId packetId b).1]
  | clear clientId => [.cleared clientId]
  | other _ => []

def For (clientId : Bytes) (packetId : UInt16) : IncomingCall α → Prop
  | store clientId' pub => clientId = clientId' ∧ packetId = pub.packetId
  | complete clientId' packetId' => clientId = clientId' ∧ packetId = packetId'
  | clear clientId' => clientId = clientId'
  | other _ => False

end IncomingCall

def incomingCalls : System (Broker α) (IncomingCall α) where
  init b := b.delivery.incomingQos2 = ∅
  enabled := IncomingCall.Enabled
  step := IncomingCall.step

def recordedCalls (env : Env α) : System (Broker α × List StoreRecord) (IncomingCall α) :=
  incomingCalls.watch [] fun b call _ log => log ++ call.record env b

theorem incoming?_of_not_for {b : Broker α} {call : IncomingCall α} (henabled : call.Enabled b)
    {clientId : Bytes} {packetId : UInt16} (hfor : ¬call.For clientId packetId) :
    (call.step b).delivery.incoming? clientId packetId =
      b.delivery.incoming? clientId packetId := by
  cases call with
  | store clientId' pub =>
      have hstore := DeliveryEngine.incoming?_storeIncomingQos2 clientId' pub b clientId packetId
      exact hstore.trans (if_neg hfor)
  | complete clientId' packetId' =>
      have htake := DeliveryEngine.incoming?_lockedComplete clientId' packetId' b clientId packetId
      exact htake.trans (if_neg hfor)
  | clear clientId' =>
      have herase := DeliveryEngine.incoming?_clear clientId' b clientId packetId
      exact herase.trans (if_neg hfor)
  | other b' =>
      change b'.delivery.incoming? clientId packetId = _
      unfold DeliveryEngine.incoming?
      rw [henabled]

/-! ## The record -/

/-- The message was stored since the last time that one for the client and the
packet id was completed or cleared. -/
def StoredSince (log : List StoreRecord) (clientId : Bytes) (packetId : UInt16)
    (msg : IncomingMessage) : Prop :=
  ∃ before after, log = before ++ .stored clientId packetId msg :: after ∧
    .cleared clientId ∉ after ∧ .completed clientId packetId true ∉ after

theorem storedSince_append {log : List StoreRecord} {entry : StoreRecord} {clientId : Bytes}
    {packetId : UInt16} {msg : IncomingMessage} :
    StoredSince (log ++ [entry]) clientId packetId msg ↔
      entry = .stored clientId packetId msg ∨ StoredSince log clientId packetId msg ∧
        entry ≠ .cleared clientId ∧ entry ≠ .completed clientId packetId true := by
  constructor
  · rintro ⟨before, after, hlog, hcleared, hcompleted⟩
    rcases after.eq_nil_or_concat with rfl | ⟨after, last, rfl⟩
    · obtain ⟨_, hentry⟩ := List.append_inj' hlog rfl
      exact Or.inl (List.singleton_inj.mp hentry)
    · rw [List.concat_eq_append] at hlog hcleared hcompleted
      rw [← List.cons_append, ← List.append_assoc] at hlog
      obtain ⟨hbefore, hentry⟩ := List.append_inj' hlog rfl
      have hlast : entry = last := List.singleton_inj.mp hentry
      simp only [List.mem_append, List.mem_singleton, not_or, ← hlast] at hcleared hcompleted
      right
      refine ⟨⟨before, after, hbefore, hcleared.1, hcompleted.1⟩, ?_, ?_⟩
      · exact fun h => hcleared.2 h.symm
      · exact fun h => hcompleted.2 h.symm
  · rintro (rfl | ⟨⟨before, after, rfl, hcleared, hcompleted⟩, hclear, hcomplete⟩)
    · exact ⟨log, [], rfl, List.not_mem_nil, List.not_mem_nil⟩
    · refine ⟨before, after ++ [entry], by rw [List.append_assoc, List.cons_append], ?_, ?_⟩
      · simp only [List.mem_append, List.mem_singleton, not_or]
        exact ⟨hcleared, fun h => hclear h.symm⟩
      · simp only [List.mem_append, List.mem_singleton, not_or]
        exact ⟨hcompleted, fun h => hcomplete h.symm⟩

/-- The store has the messages that wait for their completion. -/
structure LogMatches (b : Broker α) (log : List StoreRecord) : Prop where
  stored : ∀ clientId packetId msg, b.delivery.incoming? clientId packetId = some msg →
    StoredSince log clientId packetId msg
  awaited : ∀ clientId packetId msg, StoredSince log clientId packetId msg →
    b.delivery.incoming? clientId packetId ≠ none

namespace LogMatches

variable {b : Broker α} {log : List StoreRecord} (h : LogMatches b log)

include h

theorem store (clientId : Bytes) (pub : PublishPacket) :
    LogMatches (DeliveryEngine.storeIncomingQos2 clientId pub b)
      (log ++ [.stored clientId pub.packetId ⟨pub.topic, pub.payload, pub.qos⟩]) := by
  constructor
  · intro clientId' packetId' msg hmsg
    rw [DeliveryEngine.incoming?_storeIncomingQos2] at hmsg
    rw [storedSince_append]
    split_ifs at hmsg with hsame
    · left
      rw [hsame.1, hsame.2, Option.some.inj hmsg]
    · exact Or.inr ⟨h.stored _ _ _ hmsg, nofun, nofun⟩
  · intro clientId' packetId' msg hsince
    rw [DeliveryEngine.incoming?_storeIncomingQos2]
    split_ifs with hsame
    · exact nofun
    · rcases storedSince_append.mp hsince with hentry | ⟨hbefore, _⟩
      · injection hentry with hclient hpid
        exact absurd ⟨hclient.symm, hpid.symm⟩ hsame
      · exact h.awaited _ _ _ hbefore

theorem complete (env : Env α) (clientId : Bytes) (packetId : UInt16) :
    LogMatches (DeliveryEngine.lockedComplete clientId packetId b).2
      (log ++ [.completed clientId packetId
        (DeliveryEngine.completeIncomingQos2 env clientId packetId b).1]) := by
  constructor
  · intro clientId' packetId' msg hmsg
    rw [DeliveryEngine.incoming?_lockedComplete] at hmsg
    split_ifs at hmsg with hsame
    rw [storedSince_append]
    refine Or.inr ⟨h.stored _ _ _ hmsg, nofun, ?_⟩
    intro hentry
    injection hentry with hclient hpid
    exact hsame ⟨hclient.symm, hpid.symm⟩
  · intro clientId' packetId' msg hsince
    rcases storedSince_append.mp hsince with hentry | ⟨hbefore, _, hfailed⟩
    · cases hentry
    · have hstored := h.awaited _ _ _ hbefore
      rw [DeliveryEngine.incoming?_lockedComplete]
      split_ifs with hsame
      · -- such a call would have succeeded
        obtain ⟨rfl, rfl⟩ := hsame
        obtain ⟨old, hold⟩ := Option.ne_none_iff_exists'.mp hstored
        rw [DeliveryEngine.completeIncomingQos2_of_some env hold] at hfailed
        exact absurd rfl hfailed
      · exact hstored

theorem clear (clientId : Bytes) :
    LogMatches (DeliveryEngine.clearClientIncoming clientId b) (log ++ [.cleared clientId]) := by
  constructor
  · intro clientId' packetId' msg hmsg
    rw [DeliveryEngine.incoming?_clear] at hmsg
    split_ifs at hmsg with hsame
    rw [storedSince_append]
    refine Or.inr ⟨h.stored _ _ _ hmsg, ?_, nofun⟩
    intro hentry
    injection hentry with hclient
    exact hsame hclient.symm
  · intro clientId' packetId' msg hsince
    rw [DeliveryEngine.incoming?_clear]
    rcases storedSince_append.mp hsince with hentry | ⟨hbefore, hother, _⟩
    · cases hentry
    · rw [if_neg fun hsame => hother (by rw [hsame])]
      exact h.awaited _ _ _ hbefore

theorem call (env : Env α) {call : IncomingCall α} (henabled : call.Enabled b) :
    LogMatches (call.step b) (log ++ call.record env b) := by
  cases call with
  | store clientId pub => exact h.store clientId pub
  | complete clientId packetId => exact h.complete env clientId packetId
  | clear clientId => exact h.clear clientId
  | other b' =>
      have hsame (clientId : Bytes) (packetId : UInt16) :
          b'.delivery.incoming? clientId packetId = b.delivery.incoming? clientId packetId :=
        incoming?_of_not_for henabled not_false
      change LogMatches b' (log ++ [])
      rw [List.append_nil]
      constructor
      · intro clientId packetId msg hmsg
        rw [hsame] at hmsg
        exact h.stored _ _ _ hmsg
      · intro clientId packetId msg hsince
        rw [hsame]
        exact h.awaited _ _ _ hsince

end LogMatches

theorem logMatches_reachable {env : Env α} {b : Broker α} {log : List StoreRecord}
    (h : (recordedCalls env).Reachable (b, log)) : LogMatches b log := by
  refine h.invariant (P := fun p => LogMatches p.1 p.2) ?_ ?_
  · rintro ⟨start, log⟩ ⟨hstart, hlog⟩
    change log = [] at hlog
    have hnone (clientId : Bytes) (packetId : UInt16) :
        start.delivery.incoming? clientId packetId = none := by
      unfold DeliveryEngine.incoming?
      rw [show start.delivery.incomingQos2 = ∅ from hstart]
      rfl
    rw [hlog]
    constructor
    · intro clientId packetId msg hmsg
      rw [hnone] at hmsg
      cases hmsg
    · rintro _ _ _ ⟨before, after, hempty, _⟩
      exact absurd hempty.symm (List.append_ne_nil_of_right_ne_nil _ (List.cons_ne_nil _ _))
  · intro p call hp henabled
    exact hp.call env henabled

/-! ## Forwarding -/

def StoreCalls (b b' : Broker α) : Prop :=
  ∃ calls, incomingCalls.Run b calls b'

/-- Sessions are closed, and the store is cleared of their clients' messages
only. -/
structure Closings (b b' : Broker α) : Prop where
  calls : ∃ calls, incomingCalls.Run b calls b' ∧
    ∀ call ∈ calls, (∃ b'', call = .other b'') ∨
      ∃ sid, call = .clear (b.sessions sid).clientId ∧ (b.sessions sid).connected = true ∧
        (b'.sessions sid).connected = false
  clientId : ∀ sid, (b'.sessions sid).clientId = (b.sessions sid).clientId
  connected : ∀ sid, (b'.sessions sid).connected = true → (b.sessions sid).connected = true

namespace Closings

theorem same {b b' : Broker α} (hstore : b'.delivery.incomingQos2 = b.delivery.incomingQos2)
    (hclient : ∀ sid, (b'.sessions sid).clientId = (b.sessions sid).clientId)
    (hconn : ∀ sid, (b'.sessions sid).connected = true → (b.sessions sid).connected = true) :
    Closings b b' where
  calls := by
    refine ⟨[.other b'], .snoc .nil hstore, ?_⟩
    intro call hcall
    rw [List.mem_singleton] at hcall
    exact Or.inl ⟨b', hcall⟩
  clientId := hclient
  connected := hconn

theorem refl (b : Broker α) : Closings b b := same rfl (fun _ => rfl) fun _ h => h

theorem trans {b₁ b₂ b₃ : Broker α} (h : Closings b₁ b₂) (h' : Closings b₂ b₃) :
    Closings b₁ b₃ where
  calls := by
    obtain ⟨calls, hrun, hcalls⟩ := h.calls
    obtain ⟨calls', hrun', hcalls'⟩ := h'.calls
    refine ⟨calls ++ calls', hrun.append hrun', ?_⟩
    intro call hcall
    rcases List.mem_append.mp hcall with hcall | hcall
    · rcases hcalls call hcall with hother | ⟨sid, hclear, hbefore, hafter⟩
      · exact Or.inl hother
      · right
        refine ⟨sid, hclear, hbefore, ?_⟩
        by_contra hconn
        have hback := h'.connected sid (by simpa using hconn)
        rw [hafter] at hback
        cases hback
    · rcases hcalls' call hcall with hother | ⟨sid, hclear, hbefore, hafter⟩
      · exact Or.inl hother
      · right
        rw [h.clientId] at hclear
        exact ⟨sid, hclear, h.connected sid hbefore, hafter⟩
  clientId sid := (h'.clientId sid).trans (h.clientId sid)
  connected sid hconn := h.connected sid (h'.connected sid hconn)

theorem modifySession {change : Session → Session} (hclient : ∀ s, (change s).clientId = s.clientId)
    (hconn : ∀ s, (change s).connected = true → s.connected = true) (sid : SessionId)
    (b : Broker α) : Closings b (b.modifySession sid change) := by
  refine same rfl ?_ ?_
  · intro other
    rw [Broker.sessions_modifySession]
    by_cases heq : other = sid
    · rw [heq, Function.update_self, hclient]
    · rw [Function.update_of_ne heq]
  · intro other h
    rw [Broker.sessions_modifySession] at h
    by_cases heq : other = sid
    · rw [heq, Function.update_self] at h
      rw [heq]
      exact hconn _ h
    · rwa [Function.update_of_ne heq] at h

theorem close {b : Broker α} {sid : SessionId} (hconn : (b.sessions sid).connected = true) :
    Closings b (Session.close false sid b) := by
  obtain ⟨tree, subManager, hclose⟩ := Session.close_of_connected hconn
  have hclosed : ((Session.close false sid b).sessions sid).connected = false :=
    Session.connected_close sid b
  refine ⟨?_, ?_, ?_⟩
  · by_cases hempty : (b.sessions sid).clientId = []
    · have hstore : (Session.close false sid b).delivery.incomingQos2 =
          b.delivery.incomingQos2 := by
        rw [hclose]
        dsimp only [Session.clearClientIncoming]
        rw [if_pos hempty]
      refine ⟨[.other (Session.close false sid b)], .snoc .nil hstore, ?_⟩
      intro call hcall
      rw [List.mem_singleton] at hcall
      exact Or.inl ⟨_, hcall⟩
    · have hstore : (Session.close false sid b).delivery.incomingQos2 =
          b.delivery.incomingQos2.erase (b.sessions sid).clientId := by
        rw [hclose]
        dsimp only [Session.clearClientIncoming]
        rw [if_neg hempty]
      have hcleared : incomingCalls.Run b [.clear (b.sessions sid).clientId]
          (DeliveryEngine.clearClientIncoming (b.sessions sid).clientId b) := .snoc .nil trivial
      refine ⟨[.clear (b.sessions sid).clientId, .other (Session.close false sid b)],
        .snoc hcleared hstore, ?_⟩
      intro call hcall
      simp only [List.mem_cons, List.not_mem_nil, or_false] at hcall
      rcases hcall with hcall | hcall
      · exact Or.inr ⟨sid, hcall, hconn, hclosed⟩
      · exact Or.inl ⟨_, hcall⟩
  · intro other
    by_cases heq : other = sid
    · rw [heq, hclose]
      dsimp only
      rw [Function.update_self]
    · rw [Session.sessions_close_of_ne heq]
  · intro other h
    by_cases heq : other = sid
    · rw [heq]
      exact hconn
    · rwa [Session.sessions_close_of_ne heq] at h

theorem frame : CoreFrame (Closings (α := α)) where
  refl := refl
  trans := trans
  neutral _ _ _ := same rfl (fun _ => rfl) fun _ h => h
  noteHanded _ _ := same rfl (fun _ => rfl) fun _ h => h
  plumbing b sid _ hplumbing :=
    modifySession hplumbing.clientId (fun s h => hplumbing.connected s ▸ h) sid b
  close _ _ := close

theorem outgoing : OutgoingFree (Closings (α := α)) where
  noteSent _ _ := same rfl (fun _ => rfl) fun _ h => h
  noteSettled _ _ := same rfl (fun _ => rfl) fun _ h => h
  outgoing _ _ := same rfl (fun _ => rfl) fun _ h => h

end Closings

theorem StoreCalls.one {b : Broker α} (call : IncomingCall α) (h : call.Enabled b) :
    StoreCalls b (call.step b) :=
  ⟨[call], .snoc .nil h⟩

theorem StoreCalls.same {b b' : Broker α}
    (h : b'.delivery.incomingQos2 = b.delivery.incomingQos2) : StoreCalls b b' :=
  .one (.other b') h

theorem StoreCalls.trans {b₁ b₂ b₃ : Broker α} (h : StoreCalls b₁ b₂) (h' : StoreCalls b₂ b₃) :
    StoreCalls b₁ b₃ := by
  obtain ⟨calls, hrun⟩ := h
  obtain ⟨calls', hrun'⟩ := h'
  exact ⟨calls ++ calls', hrun.append hrun'⟩

theorem Closings.storeCalls {b b' : Broker α} (h : Closings b b') : StoreCalls b b' := by
  obtain ⟨calls, hrun, _⟩ := h.calls
  exact ⟨calls, hrun⟩

theorem storeCalls_frame : Frame (StoreCalls (α := α)) where
  refl _ := .same rfl
  trans := .trans
  misc _ _ _ _ _ _ _ := .same rfl
  noteHanded _ _ := .same rfl
  plumbing _ _ _ _ := .same rfl
  close _ _ hconn := (Closings.close hconn).storeCalls
  disconnect _ _ := .same rfl

theorem storeCalls_tables : TablesFree (StoreCalls (α := α)) where
  noteSent _ _ := .same rfl
  noteSettled _ _ := .same rfl
  pending _ _ := .same rfl
  outgoing _ _ := .same rfl

/-- The whole of `complete_incoming_qos2` is one call and those of the sessions
that the forwarding closes. -/
theorem storeCalls_complete (env : Env α) (clientId : Bytes) (packetId : UInt16) (b : Broker α) :
    StoreCalls b (DeliveryEngine.completeIncomingQos2 env clientId packetId b).2 := by
  cases hstored : b.delivery.incoming? clientId packetId with
  | none =>
      rw [DeliveryEngine.completeIncomingQos2_of_none env hstored]
      exact .same rfl
  | some msg =>
      rw [DeliveryEngine.completeIncomingQos2_of_some env hstored]
      have htaken : StoreCalls b (DeliveryEngine.lockedComplete clientId packetId b).2 :=
        .one (.complete clientId packetId) trivial
      have hclosings := (Closings.frame.delivery env).qos2Deliver Closings.outgoing
        (DeliveryEngine.forwarded msg) (DeliveryEngine.lockedComplete clientId packetId b).2
      exact htaken.trans hclosings.storeCalls

theorem storeCalls_receive (env : Env α) (sid : SessionId) (pub : PublishPacket) (b : Broker α) :
    StoreCalls b (Session.receiveQos2 env sid pub b) := by
  unfold Session.receiveQos2
  dsimp only
  refine .trans ?_ (.one (.store (b.sessions sid).clientId pub) trivial)
  refine .trans (.same ?_) (storeCalls_frame.deliver env sid _ _)
  rw [delivery_noteAnswer]
  rfl

/-! ## Runs of the broker -/

theorem storeCalls_connect (env : Env α) (sid : SessionId) :
    ConnectClosed env sid (StoreCalls (α := α)) where
  frame := storeCalls_frame
  register _ _ _ _ _ := .same rfl
  block _ _ := .same rfl

theorem storeCalls_loop (env : Env α) (sid : SessionId) :
    LoopClosed env sid (fun _ => True) (StoreCalls (α := α)) where
  toSessionFrame := storeCalls_frame.session env sid
  noteHandled _ _ := .same rfl
  rearm _ _ := .same rfl
  stopReading _ := .same rfl

theorem storeCalls_io (env : Env α) : IoClosed env (StoreCalls (α := α)) where
  core := storeCalls_frame.toCoreFrame
  retryQos1 b clientId packetId :=
    (storeCalls_frame.delivery env).qos1RetryMessage storeCalls_tables.toPendingFree _ _ b
  retryQos2 b clientId packetId :=
    (storeCalls_frame.delivery env).qos2RetryMessage storeCalls_tables.toOutgoingFree _ _ b
  beginRead _ _ _ := .same rfl
  dropRead _ _ := .same rfl
  clock _ _ := .same rfl
  accept b ip := by
    apply StoreCalls.same
    unfold Server.onAccept
    dsimp only
    split_ifs <;> rfl
  destroy _ _ _ _ := .same rfl

theorem storeCalls_handlePacket (env : Env α) {sid : SessionId} (packet : Bytes) {b : Broker α}
    (hreading : b.reading = some sid) (hblocked : b.blocked = false) :
    StoreCalls b (Session.handlePacket env sid packet b).1 := by
  have hsession := storeCalls_frame.session env sid (α := α)
  apply hsession.handlePacket
  intro hdr body _
  constructor
  · intro _
    exact (storeCalls_connect env sid).handleConnect body hreading hblocked
  · intro pub _ auth _ _ _ _ hauth
    refine hauth.trans (hsession.acceptPublish_of_receive ?_ ?_ ?_)
    · intro b' _
      exact storeCalls_receive env sid pub b'
    · exact hsession.qos1Deliver storeCalls_tables.toPendingFree pub
    · exact storeCalls_frame.storeRetained env pub
  · intro packetId _ _ _ _
    exact hsession.qos1HandlePuback storeCalls_tables.toPendingFree _ packetId b
  · intro packetId _ _ _ _
    exact hsession.qos2HandlePubrec storeCalls_tables.toOutgoingFree fun _ _ => trivial
  · intro packetId _ _ _ _
    refine hsession.releaseQos2_of_complete (fun _ _ => .same rfl) ?_ ?_ b
    · exact storeCalls_complete env _ packetId
    · exact hsession.qos2HandlePubrel storeCalls_tables.toOutgoingFree _ packetId
  · intro packetId _ _ _ _
    exact hsession.qos2HandlePubcomp storeCalls_tables.toOutgoingFree _ packetId b
  · intro sub _ _ _ _
    exact storeCalls_frame.subscribeAll storeCalls_tables.toNotesFree env sid _ _ _ b
  · intro unsub _ _ _ _
    exact storeCalls_frame.unsubscribeAll sid _ b
  · intro _
    exact storeCalls_frame.handleDisconnect sid b

/-- A step of the broker is a run of calls. -/
theorem storeCalls_of_step (env : Env α) {n : Runtime α} {e : Event}
    (henabled : n.toBroker.Enabled e) : StoreCalls n.toBroker (n.step env e).toBroker := by
  by_cases hturn : ∃ sid, e = .turn sid
  · obtain ⟨sid, rfl⟩ := hturn
    refine (storeCalls_loop env sid).onReadTurn henabled.2 fun packet parser _ => ?_
    exact storeCalls_handlePacket env packet henabled.2 henabled.1
  · exact (storeCalls_io env).step (fun sid heq => hturn ⟨sid, heq⟩) henabled

theorem storeCalls_reachable {env : Env α} {n : Runtime α}
    (hn : (brokerSystem env).Reachable n) : incomingCalls.Reachable n.toBroker := by
  refine hn.invariant (P := fun n => incomingCalls.Reachable n.toBroker) ?_ ?_
  · rintro _ ⟨auth, rfl⟩
    exact ⟨({ auth } : Broker α), [], rfl, .nil⟩
  · rintro n e ⟨start, calls, hstart, hrun⟩ henabled
    obtain ⟨calls', hrun'⟩ := storeCalls_of_step env henabled
    exact ⟨start, calls ++ calls', hstart, hrun.append hrun'⟩

/-- A message waits for its completion in the store if and only if it was stored
since the last completion or clearing.  It is then taken out of the store and
forwarded once.  A completion without such a message does nothing, and no call
changes what the store has for another client or packet id. -/
theorem incoming_forwarded_once (env : Env α) {b : Broker α} {log : List StoreRecord}
    (h : (recordedCalls env).Reachable (b, log)) :
    (∀ clientId packetId,
      let result := DeliveryEngine.completeIncomingQos2 env clientId packetId b
      let taken := (DeliveryEngine.lockedComplete clientId packetId b).2
      (result.1 = true ↔ ∃ msg, StoredSince log clientId packetId msg) ∧
      (∀ msg, StoredSince log clientId packetId msg →
        (∀ msg', StoredSince log clientId packetId msg' → msg' = msg) →
        result.2 = Qos2Handler.deliver env (DeliveryEngine.forwarded msg) taken ∧
          result.2.history.ingest = b.history.ingest ++ [(clientId, packetId, .forward msg)] ∧
          Closings taken result.2) ∧
      (result.1 = false → result.2 = b)) ∧
    ∀ (call : IncomingCall α) clientId packetId, call.Enabled b → ¬call.For clientId packetId →
      (call.step b).delivery.incoming? clientId packetId =
        b.delivery.incoming? clientId packetId := by
  have hlog := logMatches_reachable h
  refine ⟨?_, fun call clientId packetId henabled hfor => incoming?_of_not_for henabled hfor⟩
  intro clientId packetId result taken
  cases hstored : b.delivery.incoming? clientId packetId with
  | none =>
      have hresult : result = (false, b) :=
        DeliveryEngine.completeIncomingQos2_of_none env hstored
      have hnothing (msg : IncomingMessage) : ¬StoredSince log clientId packetId msg :=
        fun hsince => hlog.awaited _ _ _ hsince hstored
      rw [hresult]
      refine ⟨⟨nofun, ?_⟩, ?_, fun _ => rfl⟩
      · rintro ⟨msg, hsince⟩
        exact absurd hsince (hnothing msg)
      · intro msg hsince
        exact absurd hsince (hnothing msg)
  | some msg =>
      have hresult : result =
          (true, Qos2Handler.deliver env (DeliveryEngine.forwarded msg) taken) :=
        DeliveryEngine.completeIncomingQos2_of_some env hstored
      have hsince := hlog.stored _ _ _ hstored
      have hingest : taken.history.ingest =
          b.history.ingest ++ [(clientId, packetId, .forward msg)] :=
        DeliveryEngine.ingest_lockedComplete hstored
      have hkeeps := (keepsIngest_frame.delivery env).qos2Deliver
        keepsIngest_tables.toOutgoingFree (DeliveryEngine.forwarded msg) taken
      have hclosings := (Closings.frame.delivery env).qos2Deliver Closings.outgoing
        (DeliveryEngine.forwarded msg) taken
      rw [hresult]
      refine ⟨⟨fun _ => ⟨msg, hsince⟩, fun _ => rfl⟩, ?_, nofun⟩
      intro msg' _ hsame
      rw [← hsame msg hsince]
      exact ⟨rfl, hkeeps.ingest.trans hingest, hclosings⟩

/-- A message that is stored twice is forwarded once to its subscriber. -/
theorem duplicate_forwarded_once :
    let start := ((brokerSystem defaultEnv).after { auth := () } (loopbackEvents 2)).toBroker
    let pub : PublishPacket := { topic := [0x74], payload := [0x6d], qos := 2, packetId := 5 }
    let p := (recordedCalls defaultEnv).after (start, [])
      [.store [0x64] pub, .store [0x64] pub]
    let result := DeliveryEngine.completeIncomingQos2 defaultEnv [0x64] 5 p.1
    let again := DeliveryEngine.completeIncomingQos2 defaultEnv [0x64] 5 result.2
    result.1 = true ∧
      result.2.history.ingest =
        start.history.ingest ++ [([0x64], 5, .forward ⟨[0x74], [0x6d], 2⟩)] ∧
      result.2.history.handed =
        start.history.handed ++ [⟨0, .publish [0x74] [0x6d] 2 false false 1, true⟩] ∧
      again.1 = false ∧ again.2.history.handed = result.2.history.handed := by
  intro start pub p result again
  have hstart : start.delivery.incomingQos2 = ∅ := by decide +kernel
  have hp : (recordedCalls defaultEnv).Reachable p :=
    .of_allowed ⟨hstart, rfl⟩ ⟨trivial, trivial, trivial⟩
  have hlog : p.2 = List.replicate 2 (.stored [0x64] 5 ⟨[0x74], [0x6d], 2⟩) := rfl
  have hsince : StoredSince p.2 [0x64] 5 ⟨[0x74], [0x6d], 2⟩ :=
    ⟨[.stored [0x64] 5 ⟨[0x74], [0x6d], 2⟩], [], hlog, List.not_mem_nil, List.not_mem_nil⟩
  have hsame : ∀ msg, StoredSince p.2 [0x64] 5 msg → msg = ⟨[0x74], [0x6d], 2⟩ := by
    rintro msg ⟨before, after, hsplit, _⟩
    have hmem : StoreRecord.stored [0x64] 5 msg ∈ p.2 := by
      rw [hsplit]
      exact List.mem_append_right _ List.mem_cons_self
    rw [hlog] at hmem
    injection List.eq_of_mem_replicate hmem
  obtain ⟨hresult, hforward, _⟩ := (incoming_forwarded_once defaultEnv hp).1 [0x64] 5
  obtain ⟨_, hingest, _⟩ := hforward _ hsince hsame
  exact ⟨hresult.mpr ⟨_, hsince⟩, hingest, by decide +kernel, by decide +kernel, by decide +kernel⟩

end JellyBroker
