import JellyBroker.Qos.InFlight
/-!
# Consistent in-flight tables

A record keeps the messages of a client and, besides them, the set of the ids in
use.  The operations of both handlers on their tables are sending messages,
taking or changing the message that an acknowledgement names, and counting a
retry of a message.  They keep the two structures in step, and none of them
reaches another message.
-/

namespace JellyBroker.Qos

open JellyBroker.Lib (Map)

variable {μ : Type}

/-! ## Operations on tables -/

theorem inUse_allocatePacketId (client : ClientRecord μ) :
    (allocatePacketId client).2.inUse =
      if (allocatePacketId client).1 = 0 then client.inUse
      else insert (allocatePacketId client).1 client.inUse := by
  unfold allocatePacketId
  rcases searchId client.inUse client.nextPacketId 65536 client.nextPacketId with
    ⟨_ | found, next⟩
  · rfl
  · exact (if_neg found.property).symm

namespace ClientTable

variable {table : ClientTable μ}

def update (change : μ → μ) (table : ClientTable μ) (clientId : Bytes) (packetId : UInt16) :
    ClientTable μ :=
  match table.message? clientId packetId with
  | none => table
  | some msg => table.setMessage clientId packetId (change msg)

def send (table : ClientTable μ) (clientId : Bytes) (msg : UInt16 → μ) : ClientTable μ :=
  match allocatePacketId (table.record clientId) with
  | (pid, client) =>
      if pid = 0 then table.insert clientId client
      else table.insert clientId { client with messages := client.messages.insert pid (msg pid) }

theorem remove_of_none {clientId : Bytes} {packetId : UInt16}
    (h : table.message? clientId packetId = none) : table.remove clientId packetId = table := by
  unfold remove
  cases hlookup : table.lookup clientId with
  | none => rfl
  | some client =>
      rw [message?_of_lookup hlookup, Finmap.lookup_eq_none] at h
      exact if_neg h

theorem message?_update_of_ne (change : μ → μ) {clientId clientId' : Bytes}
    {packetId packetId' : UInt16} (hne : ¬(clientId' = clientId ∧ packetId' = packetId)) :
    (table.update change clientId packetId).message? clientId' packetId' =
      table.message? clientId' packetId' := by
  unfold update
  cases hmsg : table.message? clientId packetId with
  | none => rfl
  | some msg => exact (message?_setMessage hmsg _ _ _).trans (if_neg hne)

theorem message?_send_cases {clientId clientId' : Bytes} {msg : UInt16 → μ} {packetId : UInt16}
    {found : μ} (hfound : (table.send clientId msg).message? clientId' packetId = some found) :
    table.message? clientId' packetId = some found ∨ found = msg packetId := by
  unfold send at hfound
  dsimp only at hfound
  split_ifs at hfound
  · rw [message?_exhausted] at hfound
    exact Or.inl hfound
  · rw [message?_send] at hfound
    split_ifs at hfound with hnew
    · right
      rw [hnew.2, Option.some.inj hfound]
    · exact Or.inl hfound

theorem Reserved.of_send (h : table.Reserved) (clientId : Bytes) (msg : UInt16 → μ) :
    Reserved (table.send clientId msg) := by
  unfold ClientTable.send
  dsimp only
  split_ifs with hpid
  · exact h.exhausted clientId
  · exact h.send hpid _

theorem Reserved.message?_send_of_some (h : table.Reserved) {clientId clientId' : Bytes}
    (msg : UInt16 → μ) {packetId : UInt16} {old : μ}
    (hold : table.message? clientId' packetId = some old) :
    (table.send clientId msg).message? clientId' packetId = some old := by
  unfold ClientTable.send
  dsimp only
  split_ifs with hpid
  · rw [message?_exhausted]
    exact hold
  · exact h.kept_send hpid _ hold

end ClientTable

/-! ## Records -/

class Retried (μ : Type) where
  retryCount : μ → Int
  withRetryCount : Int → μ → μ
  retryCount_with : ∀ count msg, retryCount (withRetryCount count msg) = count
  with_with : ∀ count count' msg,
    withRetryCount count (withRetryCount count' msg) = withRetryCount count msg
  with_self : ∀ msg, withRetryCount (retryCount msg) msg = msg

open Retried (retryCount withRetryCount)

variable [Retried μ]

/-- The ids in use are those of the messages, 0 is not among them, and no message
was retried more than `limit` times. -/
structure ClientRecord.Tidy (limit : Int) (client : ClientRecord μ) : Prop where
  inUse : client.inUse = client.messages.keys
  nonzero : 0 ∉ client.inUse
  next : 1 ≤ client.nextPacketId.val.toNat ∧ client.nextPacketId.val.toNat ≤ 65535
  retries : ∀ packetId msg, client.messages.lookup packetId = some msg → retryCount msg ≤ limit

structure ClientRecord.Consistent (limit : Int) (client : ClientRecord μ) : Prop
    extends client.Tidy limit where
  occupied : client.messages.keys.Nonempty

namespace ClientRecord

variable {limit : Int}

theorem tidy_empty : ({} : ClientRecord μ).Tidy limit where
  inUse := rfl
  nonzero := Finset.notMem_empty 0
  next := packetId_toNat _
  retries packetId msg h := by cases h

namespace Tidy

variable {client : ClientRecord μ} (h : client.Tidy limit)

include h

theorem reserved : client.Reserved := by
  intro packetId msg hmsg
  have hused : packetId ∈ client.inUse := by
    rw [h.inUse, Finmap.mem_keys]
    exact Finmap.mem_of_lookup_eq_some hmsg
  refine ⟨hused, ?_⟩
  rintro rfl
  exact h.nonzero hused

theorem setMessage {packetId : UInt16} {msg : μ} (hused : packetId ∈ client.inUse)
    (hmsg : retryCount msg ≤ limit) :
    Consistent limit { client with messages := client.messages.insert packetId msg } where
  inUse := by
    rw [h.inUse] at hused ⊢
    ext other
    rw [Finmap.mem_keys, Finmap.mem_keys, Finmap.mem_insert, ← Finmap.mem_keys]
    constructor
    · exact Or.inr
    · rintro (rfl | hold)
      · exact hused
      · exact hold
  nonzero := h.nonzero
  next := h.next
  retries other msg' hmsg' := by
    rw [Map.lookup_insert_ite] at hmsg'
    split_ifs at hmsg'
    · rw [← Option.some.inj hmsg']
      exact hmsg
    · exact h.retries other msg' hmsg'
  occupied := by
    refine ⟨packetId, ?_⟩
    rw [Finmap.mem_keys, Finmap.mem_insert]
    exact Or.inl rfl

theorem send (hpid : (allocatePacketId client).1 ≠ 0) {msg : μ} (hmsg : retryCount msg ≤ limit) :
    Consistent limit { (allocatePacketId client).2 with
      messages :=
        (allocatePacketId client).2.messages.insert (allocatePacketId client).1 msg } where
  inUse := by
    dsimp only
    rw [inUse_allocatePacketId, if_neg hpid, (allocatePacketId_spec client).1, h.inUse]
    ext other
    rw [Finset.mem_insert, Finmap.mem_keys, Finmap.mem_keys, Finmap.mem_insert]
  nonzero := by
    dsimp only
    rw [inUse_allocatePacketId, if_neg hpid, Finset.mem_insert, not_or]
    exact ⟨hpid.symm, h.nonzero⟩
  next := packetId_toNat _
  retries other msg' hmsg' := by
    rw [Map.lookup_insert_ite, (allocatePacketId_spec client).1] at hmsg'
    split_ifs at hmsg'
    · rw [← Option.some.inj hmsg']
      exact hmsg
    · exact h.retries other msg' hmsg'
  occupied := by
    refine ⟨(allocatePacketId client).1, ?_⟩
    rw [Finmap.mem_keys, Finmap.mem_insert]
    exact Or.inl rfl

theorem exhausted (hpid : (allocatePacketId client).1 = 0) :
    Consistent limit (allocatePacketId client).2 where
  inUse := by rw [inUse_allocatePacketId, if_pos hpid, (allocatePacketId_spec client).1, h.inUse]
  nonzero := by
    rw [inUse_allocatePacketId, if_pos hpid]
    exact h.nonzero
  next := packetId_toNat _
  retries := by
    rw [(allocatePacketId_spec client).1]
    exact h.retries
  occupied := by
    rw [(allocatePacketId_spec client).1, ← h.inUse]
    exact ⟨1, (allocatePacketId_eq_zero_iff client).mp hpid ⟨1, by decide⟩⟩

theorem erase (packetId : UInt16) :
    Tidy limit { client with
      messages := client.messages.erase packetId
      inUse := client.inUse.erase packetId } where
  inUse := by
    dsimp only
    rw [h.inUse]
    ext other
    rw [Finset.mem_erase, Finmap.mem_keys, Finmap.mem_keys, Finmap.mem_erase]
  nonzero hzero := h.nonzero (Finset.mem_of_mem_erase hzero)
  next := h.next
  retries other msg hmsg := by
    rw [Map.lookup_erase_ite] at hmsg
    split_ifs at hmsg
    exact h.retries other msg hmsg

end Tidy

end ClientRecord

/-! ## Tables -/

namespace ClientTable

variable {limit : Int} {table : ClientTable μ}

def Consistent (limit : Int) (table : ClientTable μ) : Prop :=
  ∀ clientId client, table.lookup clientId = some client → client.Consistent limit

/-- Count a retry of a message, or take it out of flight after `limit` retries. -/
def tick (limit : Int) (table : ClientTable μ) (clientId : Bytes) (packetId : UInt16) :
    ClientTable μ :=
  match table.message? clientId packetId with
  | none => table
  | some msg =>
      if retryCount msg ≥ limit then table.remove clientId packetId
      else table.setMessage clientId packetId (withRetryCount (retryCount msg + 1) msg)

theorem consistent_empty : Consistent limit (∅ : ClientTable μ) := by
  intro clientId client h
  cases h

namespace Consistent

variable (h : table.Consistent limit)

include h

theorem record (clientId : Bytes) : (table.record clientId).Tidy limit := by
  unfold ClientTable.record
  cases hlookup : table.lookup clientId with
  | none => exact ClientRecord.tidy_empty
  | some client => exact (h clientId client hlookup).toTidy

theorem reserved : table.Reserved :=
  fun clientId client hlookup => (h clientId client hlookup).toTidy.reserved

theorem freed {clientId : Bytes} {packetId : UInt16}
    (hnone : table.message? clientId packetId = none) :
    packetId ∉ (table.record clientId).inUse := by
  rw [← message?_record, Finmap.lookup_eq_none] at hnone
  rw [(h.record clientId).inUse, Finmap.mem_keys]
  exact hnone

theorem insert {clientId : Bytes} {client : ClientRecord μ} (hclient : client.Consistent limit) :
    Consistent limit (Finmap.insert clientId client table) := by
  intro clientId' client' hlookup
  rw [Map.lookup_insert_ite] at hlookup
  split_ifs at hlookup
  · rw [← Option.some.inj hlookup]
    exact hclient
  · exact h clientId' client' hlookup

theorem setMessage {clientId : Bytes} {packetId : UInt16} {old msg : μ}
    (hold : table.message? clientId packetId = some old) (hmsg : retryCount msg ≤ limit) :
    Consistent limit (table.setMessage clientId packetId msg) := by
  unfold ClientTable.setMessage
  cases hlookup : table.lookup clientId with
  | none => exact h
  | some client =>
      rw [message?_of_lookup hlookup] at hold
      have hclient := (h clientId client hlookup).toTidy
      exact h.insert (hclient.setMessage (hclient.reserved packetId old hold).1 hmsg)

theorem remove (clientId : Bytes) (packetId : UInt16) :
    Consistent limit (table.remove clientId packetId) := by
  unfold ClientTable.remove
  cases hlookup : table.lookup clientId with
  | none => exact h
  | some client =>
      have hclient := (h clientId client hlookup).toTidy.erase packetId
      dsimp only
      split_ifs with hmem hempty
      · intro clientId' client' hlookup'
        rw [Map.lookup_erase_ite] at hlookup'
        split_ifs at hlookup'
        exact h clientId' client' hlookup'
      · exact h.insert ⟨hclient, Finset.nonempty_iff_ne_empty.mpr hempty⟩
      · exact h

theorem update {change : μ → μ} (hchange : ∀ msg, retryCount (change msg) ≤ limit)
    (clientId : Bytes) (packetId : UInt16) :
    Consistent limit (table.update change clientId packetId) := by
  unfold ClientTable.update
  cases hmsg : table.message? clientId packetId with
  | none => exact h
  | some msg => exact h.setMessage hmsg (hchange msg)

theorem tick (clientId : Bytes) (packetId : UInt16) :
    Consistent limit (table.tick limit clientId packetId) := by
  unfold ClientTable.tick
  cases hmsg : table.message? clientId packetId with
  | none => exact h
  | some msg =>
      dsimp only
      split_ifs with hcount
      · exact h.remove clientId packetId
      · apply h.setMessage hmsg
        rw [Retried.retryCount_with]
        omega

theorem send {msg : UInt16 → μ} (hmsg : ∀ pid, retryCount (msg pid) ≤ limit) (clientId : Bytes) :
    Consistent limit (table.send clientId msg) := by
  unfold ClientTable.send
  dsimp only
  split_ifs with hpid
  · exact h.insert ((h.record clientId).exhausted hpid)
  · exact h.insert ((h.record clientId).send hpid (hmsg _))

end Consistent

/-! ## The other messages -/

theorem message?_tick_of_ne {clientId clientId' : Bytes} {packetId packetId' : UInt16}
    (hne : ¬(clientId' = clientId ∧ packetId' = packetId)) :
    (table.tick limit clientId packetId).message? clientId' packetId' =
      table.message? clientId' packetId' := by
  unfold tick
  cases hmsg : table.message? clientId packetId with
  | none => rfl
  | some msg =>
      dsimp only
      split_ifs
      · exact (message?_remove _ _ _ _ _).trans (if_neg hne)
      · exact (message?_setMessage hmsg _ _ _).trans (if_neg hne)

theorem message?_tick {clientId : Bytes} {packetId : UInt16} {msg : μ}
    (hmsg : table.message? clientId packetId = some msg) :
    (table.tick limit clientId packetId).message? clientId packetId =
      if retryCount msg ≥ limit then none
      else some (withRetryCount (retryCount msg + 1) msg) := by
  unfold tick
  rw [hmsg]
  dsimp only
  split_ifs
  · exact (message?_remove _ _ _ _ _).trans (if_pos ⟨rfl, rfl⟩)
  · exact (message?_setMessage hmsg _ _ _).trans (if_pos ⟨rfl, rfl⟩)

end ClientTable

/-! ## Steps -/

inductive TableEvent where
  | idle
  | sends
  | acknowledge (clientId : Bytes) (packetId : UInt16)
  | tick (clientId : Bytes) (packetId : UInt16)
  deriving DecidableEq

def TableEvent.For (clientId : Bytes) (packetId : UInt16) (event : TableEvent) : Prop :=
  event = .acknowledge clientId packetId ∨ event = .tick clientId packetId

theorem TableEvent.not_for_idle (clientId : Bytes) (packetId : UInt16) :
    ¬TableEvent.idle.For clientId packetId := by
  rintro (h | h) <;> cases h

theorem TableEvent.not_for_sends (clientId : Bytes) (packetId : UInt16) :
    ¬TableEvent.sends.For clientId packetId := by
  rintro (h | h) <;> cases h

inductive Sends (table : ClientTable μ) : ClientTable μ → Prop
  | none : Sends table table
  | send {table' : ClientTable μ} {msg : UInt16 → μ} (clientId : Bytes) :
      Sends table table' → (∀ pid, retryCount (msg pid) = 0) →
      Sends table (table'.send clientId msg)

/-- A step of a handler on its table.  An acknowledgement takes the message out of
flight, or it changes the message and starts the count of its retries again. -/
inductive TableStep (limit : Int) (table : ClientTable μ) : TableEvent → ClientTable μ → Prop
  | idle : TableStep limit table .idle table
  | sends {table' : ClientTable μ} : Sends table table' → TableStep limit table .sends table'
  | remove (clientId : Bytes) (packetId : UInt16) :
      TableStep limit table (.acknowledge clientId packetId) (table.remove clientId packetId)
  | update (clientId : Bytes) (packetId : UInt16) {change : μ → μ} :
      (∀ msg, retryCount (change msg) = 0) →
      TableStep limit table (.acknowledge clientId packetId)
        (table.update change clientId packetId)
  | tick (clientId : Bytes) (packetId : UInt16) :
      TableStep limit table (.tick clientId packetId) (table.tick limit clientId packetId)

namespace Sends

variable {limit : Int} {table table' table'' : ClientTable μ}

theorem trans (h : Sends table table') (h' : Sends table' table'') : Sends table table'' := by
  induction h' with
  | none => exact h
  | send clientId _ hmsg ih => exact ih.send clientId hmsg

theorem consistent (h : Sends table table') (hlimit : 0 ≤ limit)
    (htable : table.Consistent limit) : table'.Consistent limit := by
  induction h with
  | none => exact htable
  | send clientId _ hmsg ih =>
      apply ih.send
      intro pid
      rw [hmsg pid]
      exact hlimit

theorem reserved (h : Sends table table') (htable : table.Reserved) : table'.Reserved := by
  induction h with
  | none => exact htable
  | send clientId _ _ ih => exact ih.of_send clientId _

theorem message?_of_some (h : Sends table table') (htable : table.Reserved) {clientId : Bytes}
    {packetId : UInt16} {msg : μ} (hmsg : table.message? clientId packetId = some msg) :
    table'.message? clientId packetId = some msg := by
  induction h with
  | none => exact hmsg
  | send _ hbefore _ ih => exact (hbefore.reserved htable).message?_send_of_some _ ih

theorem retryCount_of_new (h : Sends table table') {clientId : Bytes} {packetId : UInt16} {msg : μ}
    (hnone : table.message? clientId packetId = .none)
    (hmsg : table'.message? clientId packetId = some msg) : retryCount msg = 0 := by
  induction h with
  | none =>
      rw [hnone] at hmsg
      cases hmsg
  | send _ _ hnew ih =>
      rcases ClientTable.message?_send_cases hmsg with hold | heq
      · exact ih hold
      · rw [heq]
        exact hnew packetId

end Sends

namespace TableStep

variable {limit : Int} {table table' : ClientTable μ} {event : TableEvent}

theorem of_eq (h : table' = table) : TableStep limit table .idle table' := by
  rw [h]
  exact .idle

theorem eq_of_idle (h : TableStep limit table .idle table') : table' = table := by
  cases h
  rfl

theorem consistent (h : TableStep limit table event table') (hlimit : 0 ≤ limit)
    (htable : table.Consistent limit) : table'.Consistent limit := by
  cases h with
  | idle => exact htable
  | sends hsends => exact hsends.consistent hlimit htable
  | remove clientId packetId => exact htable.remove clientId packetId
  | update clientId packetId hchange =>
      apply htable.update
      intro msg
      rw [hchange msg]
      exact hlimit
  | tick clientId packetId => exact htable.tick clientId packetId

theorem reserved (h : TableStep limit table event table') (htable : table.Reserved) :
    table'.Reserved := by
  cases h with
  | idle => exact htable
  | sends hsends => exact hsends.reserved htable
  | remove clientId packetId => exact htable.remove clientId packetId
  | update clientId packetId hchange =>
      unfold ClientTable.update
      cases hmsg : table.message? clientId packetId with
      | none => exact htable
      | some msg => exact htable.setMessage hmsg _
  | tick clientId packetId =>
      unfold ClientTable.tick
      cases hmsg : table.message? clientId packetId with
      | none => exact htable
      | some msg =>
          dsimp only
          split_ifs
          · exact htable.remove clientId packetId
          · exact htable.setMessage hmsg _

theorem message?_of_for (h : TableStep limit table event table') {clientId clientId' : Bytes}
    {packetId packetId' : UInt16} (hfor : event.For clientId packetId)
    (hne : ¬(clientId' = clientId ∧ packetId' = packetId)) :
    table'.message? clientId' packetId' = table.message? clientId' packetId' := by
  cases h with
  | idle => exact absurd hfor (TableEvent.not_for_idle clientId packetId)
  | sends hsends => exact absurd hfor (TableEvent.not_for_sends clientId packetId)
  | remove clientId packetId =>
      rcases hfor with hfor | hfor <;> cases hfor
      exact (ClientTable.message?_remove _ _ _ _ _).trans (if_neg hne)
  | update clientId packetId hchange =>
      rcases hfor with hfor | hfor <;> cases hfor
      exact ClientTable.message?_update_of_ne _ hne
  | tick clientId packetId =>
      rcases hfor with hfor | hfor <;> cases hfor
      exact ClientTable.message?_tick_of_ne hne

theorem message?_of_not_for (h : TableStep limit table event table') (htable : table.Reserved)
    {clientId : Bytes} {packetId : UInt16} {msg : μ}
    (hmsg : table.message? clientId packetId = some msg) (hnot : ¬event.For clientId packetId) :
    table'.message? clientId packetId = some msg := by
  cases h with
  | idle => exact hmsg
  | sends hsends => exact hsends.message?_of_some htable hmsg
  | remove clientId' packetId' =>
      rw [ClientTable.message?_remove, if_neg, hmsg]
      rintro ⟨rfl, rfl⟩
      exact hnot (Or.inl rfl)
  | update clientId' packetId' hchange =>
      rw [ClientTable.message?_update_of_ne, hmsg]
      rintro ⟨rfl, rfl⟩
      exact hnot (Or.inl rfl)
  | tick clientId' packetId' =>
      rw [ClientTable.message?_tick_of_ne, hmsg]
      rintro ⟨rfl, rfl⟩
      exact hnot (Or.inr rfl)

theorem message?_of_tick {clientId : Bytes} {packetId : UInt16}
    (h : TableStep limit table (.tick clientId packetId) table') {msg : μ}
    (hmsg : table.message? clientId packetId = some msg) :
    table'.message? clientId packetId =
      if retryCount msg ≥ limit then none
      else some (withRetryCount (retryCount msg + 1) msg) := by
  cases h
  exact ClientTable.message?_tick hmsg

theorem message?_of_none (h : TableStep limit table event table') (hevent : event ≠ .sends)
    {clientId : Bytes} {packetId : UInt16} (hnone : table.message? clientId packetId = none) :
    table'.message? clientId packetId = none := by
  cases h with
  | idle => exact hnone
  | sends hsends => exact absurd rfl hevent
  | remove clientId' packetId' =>
      rw [ClientTable.message?_remove, hnone]
      split_ifs
      · rfl
      · rfl
  | update clientId' packetId' hchange =>
      by_cases hboth : clientId = clientId' ∧ packetId = packetId'
      · obtain ⟨rfl, rfl⟩ := hboth
        unfold ClientTable.update
        rw [hnone]
        exact hnone
      · rw [ClientTable.message?_update_of_ne _ hboth]
        exact hnone
  | tick clientId' packetId' =>
      by_cases hboth : clientId = clientId' ∧ packetId = packetId'
      · obtain ⟨rfl, rfl⟩ := hboth
        unfold ClientTable.tick
        rw [hnone]
        exact hnone
      · rw [ClientTable.message?_tick_of_ne hboth]
        exact hnone

theorem retryCount_of_new (h : TableStep limit table event table') {clientId : Bytes}
    {packetId : UInt16} {msg : μ} (hnone : table.message? clientId packetId = none)
    (hmsg : table'.message? clientId packetId = some msg) : retryCount msg = 0 := by
  by_cases hevent : event = .sends
  · rw [hevent] at h
    cases h with
    | sends hsends => exact hsends.retryCount_of_new hnone hmsg
  · rw [h.message?_of_none hevent hnone] at hmsg
    cases hmsg

end TableStep

end JellyBroker.Qos
