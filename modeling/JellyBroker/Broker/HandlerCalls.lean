import JellyBroker.Broker.Link
import JellyBroker.Broker.Tables
import JellyBroker.Qos.Consistency
/-!
# Calls of the QoS handlers

`Qos1Handler` and `Qos2Handler` as a system of their own: calls in any order and
for any clients, between which the rest of the broker changes in any way that
leaves the in-flight tables alone.  Every step of the broker is a run of such
calls.
-/

namespace JellyBroker

open JellyBroker.Lib JellyBroker.Packet JellyBroker.Qos JellyBroker.Topic

variable {α : Type}

/-! ## The system of calls -/

instance : Retried PendingMessage where
  retryCount := PendingMessage.retryCount
  withRetryCount count msg := { msg with retryCount := count }
  retryCount_with _ _ := rfl
  with_with _ _ _ := rfl
  with_self _ := rfl

instance : Retried OutgoingMessage where
  retryCount := OutgoingMessage.retryCount
  withRetryCount count msg := { msg with retryCount := count }
  retryCount_with _ _ := rfl
  with_with _ _ _ := rfl
  with_self _ := rfl

namespace Handler

def Message : Handler → Type
  | qos1 => PendingMessage
  | qos2 => OutgoingMessage

instance retried : (handler : Handler) → Retried handler.Message
  | qos1 => inferInstanceAs (Retried PendingMessage)
  | qos2 => inferInstanceAs (Retried OutgoingMessage)

def table : (handler : Handler) → Broker α → ClientTable handler.Message
  | qos1, b => b.delivery.pending
  | qos2, b => b.delivery.outgoing

def deliver (handler : Handler) (env : Env α) : PublishPacket → Broker α → Broker α :=
  match handler with
  | qos1 => Qos1Handler.deliver env
  | qos2 => Qos2Handler.deliver env

theorem table_of_same {b b' : Broker α} (h : SameTables b b') (handler : Handler) :
    handler.table b' = handler.table b := by
  cases handler with
  | qos1 => exact h.pending
  | qos2 => exact h.outgoing

end Handler

inductive Acknowledgement where
  | puback
  | pubrec
  | pubrel
  | pubcomp

namespace Acknowledgement

def handler : Acknowledgement → Handler
  | puback => .qos1
  | pubrec | pubrel | pubcomp => .qos2

def handle (env : Env α) : Acknowledgement → Bytes → UInt16 → Broker α → Broker α
  | puback => Qos1Handler.handlePuback
  | pubrec => Qos2Handler.handlePubrec env
  | pubrel => Qos2Handler.handlePubrel
  | pubcomp => Qos2Handler.handlePubcomp

end Acknowledgement

inductive HandlerCall (α : Type) where
  | deliver (handler : Handler) (pub : PublishPacket)
  | acknowledge (kind : Acknowledgement) (clientId : Bytes) (packetId : UInt16)
  | retry (handler : Handler) (clientId : Bytes) (packetId : UInt16)
  /-- Anything that leaves the tables alone. -/
  | other (b : Broker α)

namespace HandlerCall

def Enabled (b : Broker α) : HandlerCall α → Prop
  | other b' => SameTables b b'
  | _ => True

def step (env : Env α) (b : Broker α) : HandlerCall α → Broker α
  | deliver handler pub => handler.deliver env pub b
  | acknowledge kind clientId packetId => kind.handle env clientId packetId b
  | retry handler clientId packetId => handler.retryMessage env clientId packetId b
  | other b' => b'

def tableEvent (handler : Handler) : HandlerCall α → TableEvent
  | deliver handler' _ => if handler' = handler then .sends else .idle
  | acknowledge kind clientId packetId =>
      if kind.handler = handler then .acknowledge clientId packetId else .idle
  | retry handler' clientId packetId =>
      if handler' = handler then .tick clientId packetId else .idle
  | other _ => .idle

end HandlerCall

def handlerCalls (env : Env α) : System (Broker α) (HandlerCall α) where
  init b := b.delivery.pending = ∅ ∧ b.delivery.outgoing = ∅
  enabled := HandlerCall.Enabled
  step := HandlerCall.step env

/-! ## What a call does with a table -/

def sentQos1 (pub : PublishPacket) (sid : SessionId) (pid : UInt16) : PendingMessage :=
  { session := sid, publishPacket := .publish pub.topic pub.payload 1 pub.retain false pid }

def sentQos2 (pub : PublishPacket) (sid : SessionId) : OutgoingMessage :=
  { session := sid, topic := pub.topic, payload := pub.payload }

theorem sameTables_deliver (env : Env α) (sid : SessionId) (packet : OutPacket) (b : Broker α) :
    SameTables b (Session.deliver env sid packet b) :=
  sameTables_frame.deliver env sid packet b

theorem tables_qos1DeliverTo (env : Env α) (pub : PublishPacket) (entry : SubscriberEntry)
    (b : Broker α) :
    (Qos1Handler.deliverTo env pub entry b).delivery.pending =
        b.delivery.pending.send (b.sessions entry.session).clientId (sentQos1 pub entry.session) ∧
      (Qos1Handler.deliverTo env pub entry b).delivery.outgoing = b.delivery.outgoing := by
  unfold Qos1Handler.deliverTo ClientTable.send
  dsimp only
  split_ifs
  · exact ⟨rfl, rfl⟩
  · rw [(sameTables_deliver env _ _ _).pending, (sameTables_deliver env _ _ _).outgoing]
    exact ⟨rfl, rfl⟩

theorem sameTables_noteUntracked (env : Env α) (sid : SessionId) (qos : Nat) (packetId : UInt16)
    (b : Broker α) : SameTables b (noteUntracked env sid qos packetId b) := by
  unfold noteUntracked
  split_ifs
  · exact ⟨rfl, rfl⟩
  · exact ⟨rfl, rfl⟩

theorem tables_qos2DeliverTo (env : Env α) (pub : PublishPacket) (entry : SubscriberEntry)
    (b : Broker α) :
    (Qos2Handler.deliverTo env pub entry b).delivery.pending = b.delivery.pending ∧
      (Qos2Handler.deliverTo env pub entry b).delivery.outgoing =
        if min entry.qos pub.qos < 2 then b.delivery.outgoing
        else b.delivery.outgoing.send (b.sessions entry.session).clientId
          fun _ => sentQos2 pub entry.session := by
  have hnoted := sameTables_noteUntracked env entry.session (min entry.qos pub.qos) 0 b
  unfold Qos2Handler.deliverTo ClientTable.send
  dsimp only
  split_ifs
  · rw [(sameTables_deliver env _ _ _).pending, (sameTables_deliver env _ _ _).outgoing]
    exact ⟨hnoted.pending, hnoted.outgoing⟩
  · exact ⟨rfl, rfl⟩
  · rw [(sameTables_deliver env _ _ _).pending, (sameTables_deliver env _ _ _).outgoing]
    exact ⟨rfl, rfl⟩

theorem fanOut_cons (turn : SubscriberEntry → Broker α → Broker α) (entry : SubscriberEntry)
    (rest : List SubscriberEntry) (b : Broker α) :
    fanOut turn (entry :: rest) b =
      fanOut turn rest (if (b.sessions entry.session).alive then turn entry b else b) := rfl

theorem tables_qos1Deliver (env : Env α) (pub : PublishPacket) (b : Broker α) :
    Sends b.delivery.pending (Qos1Handler.deliver env pub b).delivery.pending ∧
      (Qos1Handler.deliver env pub b).delivery.outgoing = b.delivery.outgoing := by
  unfold Qos1Handler.deliver
  generalize b.tree.lookup pub.topic = entries
  induction entries generalizing b with
  | nil => exact ⟨.none, rfl⟩
  | cons entry rest ih =>
      rw [fanOut_cons]
      split_ifs
      · obtain ⟨hpending, houtgoing⟩ := tables_qos1DeliverTo env pub entry b
        obtain ⟨hsends, hsame⟩ := ih (Qos1Handler.deliverTo env pub entry b)
        rw [hpending] at hsends
        have hfirst : Sends b.delivery.pending (b.delivery.pending.send
            (b.sessions entry.session).clientId (sentQos1 pub entry.session)) :=
          Sends.none.send _ fun _ => rfl
        exact ⟨hfirst.trans hsends, hsame.trans houtgoing⟩
      · exact ih b

theorem tables_qos2Deliver (env : Env α) (pub : PublishPacket) (b : Broker α) :
    (Qos2Handler.deliver env pub b).delivery.pending = b.delivery.pending ∧
      Sends b.delivery.outgoing (Qos2Handler.deliver env pub b).delivery.outgoing := by
  unfold Qos2Handler.deliver
  generalize b.tree.lookup pub.topic = entries
  induction entries generalizing b with
  | nil => exact ⟨rfl, .none⟩
  | cons entry rest ih =>
      rw [fanOut_cons]
      split_ifs
      · obtain ⟨hpending, houtgoing⟩ := tables_qos2DeliverTo env pub entry b
        obtain ⟨hsame, hsends⟩ := ih (Qos2Handler.deliverTo env pub entry b)
        have hfirst : Sends b.delivery.outgoing
            (Qos2Handler.deliverTo env pub entry b).delivery.outgoing := by
          rw [houtgoing]
          split_ifs
          · exact .none
          · exact Sends.none.send _ fun _ => rfl
        exact ⟨hsame.trans hpending, hfirst.trans hsends⟩
      · exact ih b

theorem tables_handlePubrec (env : Env α) (clientId : Bytes) (packetId : UInt16) (b : Broker α) :
    (Qos2Handler.handlePubrec env clientId packetId b).delivery.pending = b.delivery.pending ∧
      (Qos2Handler.handlePubrec env clientId packetId b).delivery.outgoing =
        b.delivery.outgoing.update
          (fun msg => { msg with state := .pubrecReceived, retryCount := 0 }) clientId
          packetId := by
  unfold Qos2Handler.handlePubrec ClientTable.update
  cases b.delivery.outgoing.message? clientId packetId with
  | none => exact ⟨rfl, rfl⟩
  | some msg =>
      dsimp only
      split_ifs
      · rw [(sameTables_deliver env _ _ _).pending, (sameTables_deliver env _ _ _).outgoing]
        exact ⟨rfl, rfl⟩
      · exact ⟨rfl, rfl⟩

theorem tables_handlePubrel (clientId : Bytes) (packetId : UInt16) (b : Broker α) :
    (Qos2Handler.handlePubrel clientId packetId b).delivery.pending = b.delivery.pending ∧
      (Qos2Handler.handlePubrel clientId packetId b).delivery.outgoing =
        b.delivery.outgoing.remove clientId packetId := by
  unfold Qos2Handler.handlePubrel
  cases hmsg : b.delivery.outgoing.message? clientId packetId with
  | none => exact ⟨rfl, (ClientTable.remove_of_none hmsg).symm⟩
  | some msg => exact ⟨rfl, rfl⟩

theorem sameTables_of_retry (env : Env α) (sid : SessionId) (packet : OutPacket)
    (count limit : Int) (spent counted : Broker α) :
    SameTables (if count ≥ limit then spent else counted)
      (if count ≥ limit then spent
        else if (counted.sessions sid).connected then Session.deliver env sid packet counted
        else counted) := by
  split_ifs
  · exact ⟨rfl, rfl⟩
  · exact sameTables_deliver env sid packet counted
  · exact ⟨rfl, rfl⟩

theorem tables_qos1RetryMessage (env : Env α) (clientId : Bytes) (packetId : UInt16)
    (b : Broker α) :
    (Qos1Handler.retryMessage env clientId packetId b).delivery.pending =
        b.delivery.pending.tick env.cfg.maxRetryCount clientId packetId ∧
      (Qos1Handler.retryMessage env clientId packetId b).delivery.outgoing =
        b.delivery.outgoing := by
  unfold Qos1Handler.retryMessage ClientTable.tick
  cases b.delivery.pending.message? clientId packetId with
  | none => exact ⟨rfl, rfl⟩
  | some msg =>
      dsimp only
      have hsame := sameTables_of_retry env msg.session msg.publishPacket msg.retryCount
        env.cfg.maxRetryCount
      rw [(hsame _ _).pending, (hsame _ _).outgoing]
      change _ = (if msg.retryCount ≥ env.cfg.maxRetryCount then _ else _) ∧ _
      split_ifs
      · exact ⟨rfl, rfl⟩
      · exact ⟨rfl, rfl⟩

theorem tables_qos2RetryMessage (env : Env α) (clientId : Bytes) (packetId : UInt16)
    (b : Broker α) :
    (Qos2Handler.retryMessage env clientId packetId b).delivery.pending = b.delivery.pending ∧
      (Qos2Handler.retryMessage env clientId packetId b).delivery.outgoing =
        b.delivery.outgoing.tick env.cfg.maxRetryCount clientId packetId := by
  unfold Qos2Handler.retryMessage ClientTable.tick
  cases b.delivery.outgoing.message? clientId packetId with
  | none => exact ⟨rfl, rfl⟩
  | some msg =>
      dsimp only
      have hsame := sameTables_of_retry env msg.session (Qos2Handler.retryPacket packetId msg)
        msg.retryCount env.cfg.maxRetryCount
      rw [(hsame _ _).pending, (hsame _ _).outgoing]
      change _ ∧ _ = (if msg.retryCount ≥ env.cfg.maxRetryCount then _ else _)
      split_ifs
      · exact ⟨rfl, rfl⟩
      · exact ⟨rfl, rfl⟩

theorem tableStep_of_tables {limit : Int} {b b' : Broker α} (target : Handler) {event : TableEvent}
    (hstep : TableStep limit (target.table b) event (target.table b'))
    (hother : ∀ handler ≠ target, handler.table b' = handler.table b) (handler : Handler) :
    TableStep limit (handler.table b) (if target = handler then event else .idle)
      (handler.table b') := by
  split_ifs with heq
  · rw [← heq]
    exact hstep
  · exact .of_eq (hother handler fun h => heq h.symm)

theorem tableStep_qos1 {limit : Int} {b b' : Broker α} {event : TableEvent}
    (hstep : TableStep limit b.delivery.pending event b'.delivery.pending)
    (hother : b'.delivery.outgoing = b.delivery.outgoing) (handler : Handler) :
    TableStep limit (handler.table b) (if .qos1 = handler then event else .idle)
      (handler.table b') := by
  refine tableStep_of_tables .qos1 hstep ?_ handler
  intro handler hne
  cases handler with
  | qos1 => exact absurd rfl hne
  | qos2 => exact hother

theorem tableStep_qos2 {limit : Int} {b b' : Broker α} {event : TableEvent}
    (hother : b'.delivery.pending = b.delivery.pending)
    (hstep : TableStep limit b.delivery.outgoing event b'.delivery.outgoing) (handler : Handler) :
    TableStep limit (handler.table b) (if .qos2 = handler then event else .idle)
      (handler.table b') := by
  refine tableStep_of_tables .qos2 hstep ?_ handler
  intro handler hne
  cases handler with
  | qos1 => exact hother
  | qos2 => exact absurd rfl hne

theorem tableStep_of_call (env : Env α) (handler : Handler) {b : Broker α} {call : HandlerCall α}
    (henabled : call.Enabled b) :
    TableStep env.cfg.maxRetryCount (handler.table b) (call.tableEvent handler)
      (handler.table (call.step env b)) := by
  cases call with
  | deliver handler' pub =>
      cases handler' with
      | qos1 =>
          obtain ⟨hsends, hother⟩ := tables_qos1Deliver env pub b
          exact tableStep_qos1 (.sends hsends) hother handler
      | qos2 =>
          obtain ⟨hother, hsends⟩ := tables_qos2Deliver env pub b
          exact tableStep_qos2 hother (.sends hsends) handler
  | acknowledge kind clientId packetId =>
      cases kind with
      | puback =>
          have hother : (Qos1Handler.handlePuback clientId packetId b).delivery.outgoing =
              b.delivery.outgoing := rfl
          refine tableStep_qos1 ?_ hother handler
          exact .remove clientId packetId
      | pubrec =>
          obtain ⟨hother, houtgoing⟩ := tables_handlePubrec env clientId packetId b
          refine tableStep_qos2 hother ?_ handler
          rw [houtgoing]
          exact .update clientId packetId fun _ => rfl
      | pubrel =>
          obtain ⟨hother, houtgoing⟩ := tables_handlePubrel clientId packetId b
          refine tableStep_qos2 hother ?_ handler
          rw [houtgoing]
          exact .remove clientId packetId
      | pubcomp =>
          have hother : (Qos2Handler.handlePubcomp clientId packetId b).delivery.pending =
              b.delivery.pending := rfl
          refine tableStep_qos2 hother ?_ handler
          exact .remove clientId packetId
  | retry handler' clientId packetId =>
      cases handler' with
      | qos1 =>
          obtain ⟨hpending, hother⟩ := tables_qos1RetryMessage env clientId packetId b
          refine tableStep_qos1 ?_ hother handler
          rw [hpending]
          exact .tick clientId packetId
      | qos2 =>
          obtain ⟨hother, houtgoing⟩ := tables_qos2RetryMessage env clientId packetId b
          refine tableStep_qos2 hother ?_ handler
          rw [houtgoing]
          exact .tick clientId packetId
  | other b' => exact .of_eq (handler.table_of_same henabled)

section For

variable {call : HandlerCall α} {handler : Handler} {clientId : Bytes} {packetId : UInt16}
  (h : (call.tableEvent handler).For clientId packetId)

include h

theorem enabled_of_for (b : Broker α) : call.Enabled b := by
  cases call with
  | other b' => exact absurd h (TableEvent.not_for_idle clientId packetId)
  | _ => trivial

theorem idle_of_for {handler' : Handler} (hne : handler' ≠ handler) :
    call.tableEvent handler' = .idle := by
  have hother {target : Handler} {event : TableEvent}
      (h' : (if target = handler then event else .idle).For clientId packetId) :
      (if target = handler' then event else .idle) = TableEvent.idle := by
    by_cases heq : target = handler
    · rw [heq, if_neg hne.symm]
    · rw [if_neg heq] at h'
      exact absurd h' (TableEvent.not_for_idle clientId packetId)
  cases call with
  | deliver target pub => exact hother h
  | acknowledge kind clientId packetId => exact hother h
  | retry target clientId packetId => exact hother h
  | other b => rfl

end For

/-! ## Runs of calls -/

theorem reserved_of_calls {env : Env α} {b : Broker α} (hb : (handlerCalls env).Reachable b)
    (handler : Handler) : (handler.table b).Reserved := by
  refine hb.invariant (P := fun b => (handler.table b).Reserved) ?_ ?_
  · rintro b ⟨hpending, houtgoing⟩
    cases handler with
    | qos1 =>
        change b.delivery.pending.Reserved
        rw [hpending]
        exact ClientTable.reserved_empty
    | qos2 =>
        change b.delivery.outgoing.Reserved
        rw [houtgoing]
        exact ClientTable.reserved_empty
  · intro b call h henabled
    exact (tableStep_of_call env handler henabled).reserved h

def TablesConsistent (limit : Int) (b : Broker α) : Prop :=
  ∀ handler : Handler, (handler.table b).Consistent limit

section Runs

variable {env : Env α} (hlimit : 0 ≤ env.cfg.maxRetryCount)

include hlimit

theorem TablesConsistent.call {b : Broker α} (h : TablesConsistent env.cfg.maxRetryCount b)
    {call : HandlerCall α} (henabled : call.Enabled b) :
    TablesConsistent env.cfg.maxRetryCount (call.step env b) :=
  fun handler => (tableStep_of_call env handler henabled).consistent hlimit (h handler)

theorem TablesConsistent.run {b b' : Broker α} {calls : List (HandlerCall α)}
    (hrun : (handlerCalls env).Run b calls b') (h : TablesConsistent env.cfg.maxRetryCount b) :
    TablesConsistent env.cfg.maxRetryCount b' :=
  hrun.preserves (P := TablesConsistent env.cfg.maxRetryCount)
    (fun _ _ hb henabled => hb.call hlimit henabled) h

theorem tablesConsistent_of_calls {b : Broker α} (hb : (handlerCalls env).Reachable b) :
    TablesConsistent env.cfg.maxRetryCount b := by
  obtain ⟨start, calls, ⟨hpending, houtgoing⟩, hrun⟩ := hb
  refine TablesConsistent.run hlimit hrun ?_
  intro handler
  cases handler with
  | qos1 =>
      change ClientTable.Consistent _ start.delivery.pending
      rw [hpending]
      exact ClientTable.consistent_empty
  | qos2 =>
      change ClientTable.Consistent _ start.delivery.outgoing
      rw [houtgoing]
      exact ClientTable.consistent_empty

def ticks (handler : Handler) (clientId : Bytes) (packetId : UInt16)
    (calls : List (HandlerCall α)) : Nat :=
  calls.countP fun call => call.tableEvent handler = .tick clientId packetId

def Unacknowledged (handler : Handler) (clientId : Bytes) (packetId : UInt16)
    (calls : List (HandlerCall α)) : Prop :=
  ∀ call ∈ calls, call.tableEvent handler ≠ .acknowledge clientId packetId

/-- Without an acknowledgement a message stays in flight until it was retried
`max_retry_count` times, and only the count of its retries changes. -/
theorem message?_of_unacknowledged {handler : Handler} {clientId : Bytes} {packetId : UInt16}
    {msg : handler.Message} {b b' : Broker α} {calls : List (HandlerCall α)}
    (hb : TablesConsistent env.cfg.maxRetryCount b)
    (hmsg : (handler.table b).message? clientId packetId = some msg)
    (hnew : Retried.retryCount msg = 0) (hrun : (handlerCalls env).Run b calls b')
    (hacks : Unacknowledged handler clientId packetId calls)
    (hticks : (ticks handler clientId packetId calls : Int) ≤ env.cfg.maxRetryCount) :
    (handler.table b').message? clientId packetId =
      some (Retried.withRetryCount (ticks handler clientId packetId calls : Int) msg) := by
  induction hrun with
  | nil =>
      rw [hmsg]
      change some msg = some (Retried.withRetryCount 0 msg)
      rw [← hnew, Retried.with_self]
  | @snoc calls t call hbefore henabled ih =>
      have hcons := hb.run hlimit hbefore
      have hstep := tableStep_of_call env handler henabled
      have hacks' : Unacknowledged handler clientId packetId calls :=
        fun c hc => hacks c (List.mem_append_left _ hc)
      have hlast : call.tableEvent handler ≠ .acknowledge clientId packetId :=
        hacks call (List.mem_append_right _ List.mem_cons_self)
      unfold ticks at hticks ⊢
      rw [List.countP_append, List.countP_singleton] at hticks ⊢
      by_cases htick : call.tableEvent handler = .tick clientId packetId
      · -- one more retry, which does not yet exceed the limit
        rw [htick] at hstep hticks ⊢
        simp only [decide_true, if_true] at hticks ⊢
        have hold := ih hacks' (by unfold ticks; omega)
        change (handler.table (call.step env t)).message? clientId packetId = _
        rw [hstep.message?_of_tick hold, Retried.retryCount_with, if_neg (by unfold ticks; omega),
          Retried.with_with]
        push_cast
        rfl
      · simp only [htick, decide_false, Bool.false_eq_true, if_false, Nat.add_zero] at hticks ⊢
        refine hstep.message?_of_not_for (hcons handler).reserved (ih hacks' hticks) ?_
        rintro (hfor | hfor)
        · exact hlast hfor
        · exact htick hfor

/-- The next retry takes the message out of flight. -/
theorem expires_of_unacknowledged {handler : Handler} {clientId : Bytes} {packetId : UInt16}
    {msg : handler.Message} {b b' : Broker α} {calls : List (HandlerCall α)}
    (hb : TablesConsistent env.cfg.maxRetryCount b)
    (hmsg : (handler.table b).message? clientId packetId = some msg)
    (hnew : Retried.retryCount msg = 0) (hrun : (handlerCalls env).Run b calls b')
    (hacks : Unacknowledged handler clientId packetId calls)
    (hticks : (ticks handler clientId packetId calls : Int) = env.cfg.maxRetryCount) :
    let last := HandlerCall.step env b' (.retry handler clientId packetId)
    (handler.table last).message? clientId packetId = none ∧
      packetId ∉ ((handler.table last).record clientId).inUse := by
  intro last
  have henabled : (HandlerCall.retry handler clientId packetId).Enabled b' := trivial
  have hstep := tableStep_of_call env handler henabled
  have hold := message?_of_unacknowledged hlimit hb hmsg hnew hrun hacks hticks.le
  have hevent : (HandlerCall.retry (α := α) handler clientId packetId).tableEvent handler =
      .tick clientId packetId := if_pos rfl
  rw [hevent] at hstep
  have hnone : (handler.table last).message? clientId packetId = none := by
    rw [hstep.message?_of_tick hold, Retried.retryCount_with, if_pos hticks.ge]
  have hcons := (hb.run hlimit hrun).call hlimit henabled
  exact ⟨hnone, (hcons handler).freed hnone⟩

end Runs

/-! ## Runs of the broker -/

def Calls (env : Env α) (b b' : Broker α) : Prop :=
  ∃ calls, (handlerCalls env).Run b calls b'

theorem Calls.one {env : Env α} {b : Broker α} (call : HandlerCall α) (h : call.Enabled b) :
    Calls env b (call.step env b) :=
  ⟨[call], .snoc .nil h⟩

theorem calls_relation (env : Env α) : TableRelation (Calls env) where
  same {_ b'} h := Calls.one (.other b') h
  trans := by
    rintro b₁ b₂ b₃ ⟨calls, hcalls⟩ ⟨calls', hcalls'⟩
    exact ⟨calls ++ calls', hcalls.append hcalls'⟩

theorem calls_cases (env : Env α) (sid : SessionId) (hdr : FixedHeader) (body : Bytes)
    (b : Broker α) : TableCases env sid (Calls env) hdr body b := by
  constructor
  · intro _ _ pub b'
    exact Calls.one (.deliver .qos1 pub) trivial
  · intro packetId _ _ _ _
    exact Calls.one (.acknowledge .puback _ packetId) trivial
  · intro packetId _ _ _ _
    exact Calls.one (.acknowledge .pubrec _ packetId) trivial
  · intro _ _ _ _ _ _ _ pub b'
    exact Calls.one (.deliver .qos2 pub) trivial
  · intro packetId _ _ _ _ _
    exact Calls.one (.acknowledge .pubrel _ packetId) trivial
  · intro packetId _ _ _ _
    exact Calls.one (.acknowledge .pubcomp _ packetId) trivial

/-- A step of the broker is a run of calls. -/
theorem calls_of_step (env : Env α) {n : Runtime α} {e : Event}
    (henabled : n.toBroker.Enabled e) : Calls env n.toBroker (n.step env e).toBroker := by
  apply (calls_relation env).step henabled
  · intro sid hdr body b _ _ _ _
    exact calls_cases env sid hdr body b
  · intro clientId packetId _
    exact Calls.one (.retry .qos1 clientId packetId) trivial
  · intro clientId packetId _
    exact Calls.one (.retry .qos2 clientId packetId) trivial

theorem calls_reachable {env : Env α} {n : Runtime α} (hn : (brokerSystem env).Reachable n) :
    (handlerCalls env).Reachable n.toBroker := by
  refine hn.invariant (P := fun n => (handlerCalls env).Reachable n.toBroker) ?_ ?_
  · rintro _ ⟨auth, rfl⟩
    exact ⟨_, [], ⟨rfl, rfl⟩, .nil⟩
  · rintro n e ⟨start, calls, hstart, hrun⟩ henabled
    obtain ⟨calls', hrun'⟩ := calls_of_step env henabled
    exact ⟨start, calls ++ calls', hstart, hrun.append hrun'⟩

structure TablesReserved (b : Broker α) : Prop where
  pending : b.delivery.pending.Reserved
  outgoing : b.delivery.outgoing.Reserved

namespace TablesReserved

theorem table {b : Broker α} (h : TablesReserved b) (handler : Handler) :
    (handler.table b).Reserved := by
  cases handler with
  | qos1 => exact h.pending
  | qos2 => exact h.outgoing

theorem of_same {b b' : Broker α} (h : TablesReserved b) (hsame : SameTables b b') :
    TablesReserved b' where
  pending := hsame.pending ▸ h.pending
  outgoing := hsame.outgoing ▸ h.outgoing

theorem of_calls {env : Env α} {b b' : Broker α} (h : TablesReserved b) (hcalls : Calls env b b') :
    TablesReserved b' := by
  obtain ⟨calls, hrun⟩ := hcalls
  refine hrun.preserves (P := TablesReserved) ?_ h
  intro t call ht henabled
  have hstep (handler : Handler) : (handler.table (call.step env t)).Reserved :=
    (tableStep_of_call env handler henabled).reserved (ht.table handler)
  exact ⟨hstep .qos1, hstep .qos2⟩

end TablesReserved

theorem tablesReserved_reachable {env : Env α} {n : Runtime α}
    (hn : (brokerSystem env).Reachable n) : TablesReserved n.toBroker :=
  ⟨reserved_of_calls (calls_reachable hn) .qos1, reserved_of_calls (calls_reachable hn) .qos2⟩

/-- In every run of calls the tables are consistent.  An acknowledgement or retry
of one message leaves the others alone.  A message is retried `max_retry_count`
times, and the next retry takes it out of flight, unless it is acknowledged. -/
theorem tables_stay_consistent (env : Env α) (hlimit : 0 ≤ env.cfg.maxRetryCount) {b : Broker α}
    (hb : (handlerCalls env).Reachable b) :
    (∀ handler : Handler, (handler.table b).Consistent env.cfg.maxRetryCount) ∧
    (∀ (call : HandlerCall α) (handler : Handler) clientId packetId,
      (call.tableEvent handler).For clientId packetId →
      (∀ clientId' packetId', ¬(clientId' = clientId ∧ packetId' = packetId) →
        (handler.table (call.step env b)).message? clientId' packetId' =
          (handler.table b).message? clientId' packetId') ∧
      ∀ handler' ≠ handler, ∀ clientId' packetId',
        (handler'.table (call.step env b)).message? clientId' packetId' =
          (handler'.table b).message? clientId' packetId') ∧
    ∀ (call : HandlerCall α) (handler : Handler) clientId packetId msg, call.Enabled b →
      (handler.table b).message? clientId packetId = none →
      (handler.table (call.step env b)).message? clientId packetId = some msg →
      ∀ calls b', (handlerCalls env).Run (call.step env b) calls b' →
        Unacknowledged handler clientId packetId calls →
        ((ticks handler clientId packetId calls : Int) ≤ env.cfg.maxRetryCount →
          (handler.table b').message? clientId packetId =
            some (Retried.withRetryCount (ticks handler clientId packetId calls : Int) msg)) ∧
        ((ticks handler clientId packetId calls : Int) = env.cfg.maxRetryCount →
          let last := HandlerCall.step env b' (.retry handler clientId packetId)
          (handler.table last).message? clientId packetId = none ∧
            packetId ∉ ((handler.table last).record clientId).inUse) := by
  have hcons := tablesConsistent_of_calls hlimit hb
  refine ⟨hcons, ?_, ?_⟩
  · intro call handler clientId packetId hfor
    have henabled : call.Enabled b := enabled_of_for hfor b
    constructor
    · intro clientId' packetId' hne
      exact (tableStep_of_call env handler henabled).message?_of_for hfor hne
    · intro handler' hne clientId' packetId'
      have hstep := tableStep_of_call env handler' henabled
      rw [idle_of_for hfor hne] at hstep
      rw [hstep.eq_of_idle]
  · intro call handler clientId packetId msg henabled hnone hmsg calls b' hrun hacks
    have hnew := (tableStep_of_call env handler henabled).retryCount_of_new hnone hmsg
    have hsent := hcons.call hlimit henabled
    constructor
    · intro hticks
      exact message?_of_unacknowledged hlimit hsent hmsg hnew hrun hacks hticks
    · intro hticks
      exact expires_of_unacknowledged hlimit hsent hmsg hnew hrun hacks hticks

/-- With the default limit a message of QoS 1 is removed by its sixth retry. -/
theorem message_expires :
    let b := ((brokerSystem defaultEnv).after { auth := () } (loopbackEvents 1)).toBroker
    let sent := HandlerCall.step defaultEnv b (.deliver .qos1 loopbackMessage)
    let calls : List (HandlerCall Unit) := List.replicate 5 (.retry .qos1 [0x63] 1)
    let retried := (handlerCalls defaultEnv).after sent calls
    sent.delivery.pending.message? [0x63] 1 = some (sentQos1 loopbackMessage 0 1) ∧
      (Handler.qos1.table retried).message? [0x63] 1 =
        some { sentQos1 loopbackMessage 0 1 with retryCount := 5 } ∧
      (Handler.qos1.table (HandlerCall.step defaultEnv retried
        (.retry .qos1 [0x63] 1))).message? [0x63] 1 = none := by
  intro b sent calls retried
  have hn : (brokerSystem defaultEnv).Reachable
      ((brokerSystem defaultEnv).after { auth := () } (loopbackEvents 1)) := by
    refine .of_allowed ⟨(), rfl⟩ ⟨⟨rfl, rfl, trivial⟩, ⟨rfl, rfl, rfl, ?_, ?_⟩, ⟨?_, ?_⟩, ⟨?_, ?_⟩,
      trivial⟩ <;> decide +kernel
  have hnone : b.delivery.pending.message? [0x63] 1 = none := by decide +kernel
  have hsent : sent.delivery.pending.message? [0x63] 1 = some (sentQos1 loopbackMessage 0 1) := by
    decide +kernel
  have hrun : (handlerCalls defaultEnv).Run sent calls retried :=
    .of_allowed ⟨trivial, trivial, trivial, trivial, trivial, trivial⟩
  have hacks : Unacknowledged .qos1 [0x63] 1 calls := by
    intro call hcall
    rw [List.eq_of_mem_replicate hcall]
    decide
  have hticks : ticks .qos1 [0x63] 1 calls = 5 := rfl
  obtain ⟨_, _, hretries⟩ := tables_stay_consistent defaultEnv (by decide) (calls_reachable hn)
  have hmessage := hretries (.deliver .qos1 loopbackMessage) .qos1 [0x63] 1 _ trivial hnone
    hsent calls retried hrun hacks
  rw [hticks] at hmessage
  exact ⟨hsent, hmessage.1 (by decide), (hmessage.2 rfl).1⟩

end JellyBroker
