import JellyBroker.Broker.State
import JellyBroker.Qos.InFlight
/-!
# Tables and notes of messages in flight

A handler's table tracks the notes about its messages if every message noted is
in the table.  Two handlers' tables are separate if no client has the same id in
both, and then the ids noted for a client are distinct.
-/

namespace JellyBroker

open JellyBroker.Lib JellyBroker.Qos

def NoneFor {μ : Type} (table : ClientTable μ) (clientId : Bytes) : Prop :=
  ∀ packetId, table.message? clientId packetId = none

/-! ## One table -/

/-- The messages noted with a QoS are in the table of that QoS. -/
structure Tracked {μ : Type} (qos : Nat) (table : ClientTable μ) (inFlight : List InFlight) :
    Prop where
  reserved : table.Reserved
  present : ∀ msg ∈ inFlight, msg.qos = qos → table.message? msg.clientId msg.packetId ≠ none

namespace Tracked

variable {μ : Type} {qos : Nat} {table : ClientTable μ} {inFlight : List InFlight}

theorem empty : Tracked qos (∅ : ClientTable μ) [] :=
  ⟨ClientTable.reserved_empty, fun _ h => nomatch h⟩

theorem send (h : Tracked qos table inFlight) (clientId : Bytes)
    (hpid : (allocatePacketId (table.record clientId)).1 ≠ 0) (msg : μ) :
    Tracked qos
      (Finmap.insert clientId
        { (allocatePacketId (table.record clientId)).2 with
          messages := (allocatePacketId (table.record clientId)).2.messages.insert
            (allocatePacketId (table.record clientId)).1 msg } table)
      (inFlight ++ [⟨clientId, qos, (allocatePacketId (table.record clientId)).1⟩]) := by
  refine ⟨h.reserved.send hpid msg, ?_⟩
  intro sent hsent hqos
  rw [ClientTable.message?_send]
  rcases List.mem_append.mp hsent with hold | hnew
  · split_ifs
    · exact nofun
    · exact h.present sent hold hqos
  · rw [List.mem_singleton.mp hnew, if_pos ⟨rfl, rfl⟩]
    exact nofun

theorem exhausted (h : Tracked qos table inFlight) (clientId : Bytes) :
    Tracked qos
      (Finmap.insert clientId (allocatePacketId (table.record clientId)).2 table) inFlight := by
  refine ⟨h.reserved.exhausted clientId, ?_⟩
  intro sent hsent hqos
  rw [ClientTable.message?_exhausted]
  exact h.present sent hsent hqos

theorem setMessage (h : Tracked qos table inFlight) {clientId : Bytes} {packetId : UInt16}
    {old : μ} (hold : table.message? clientId packetId = some old) (msg : μ) :
    Tracked qos (table.setMessage clientId packetId msg) inFlight := by
  refine ⟨h.reserved.setMessage hold msg, ?_⟩
  intro sent hsent hqos
  rw [ClientTable.message?_setMessage hold]
  split_ifs
  · exact nofun
  · exact h.present sent hsent hqos

theorem settle (h : Tracked qos table inFlight) (hnodup : inFlight.Nodup) (clientId : Bytes)
    (packetId : UInt16) :
    Tracked qos (table.remove clientId packetId)
      (inFlight.erase ⟨clientId, qos, packetId⟩) := by
  refine ⟨h.reserved.remove clientId packetId, ?_⟩
  intro sent hsent hqos
  obtain ⟨hne, hmem⟩ := (hnodup.mem_erase_iff).mp hsent
  rw [ClientTable.message?_remove, if_neg]
  · exact h.present sent hmem hqos
  · rintro ⟨hclient, hpid⟩
    apply hne
    cases sent
    simp_all

theorem other (h : Tracked qos table inFlight) {msg : InFlight} (hqos : msg.qos ≠ qos) :
    Tracked qos table (inFlight ++ [msg]) := by
  refine ⟨h.reserved, ?_⟩
  intro sent hsent hsame
  rcases List.mem_append.mp hsent with hold | hnew
  · exact h.present sent hold hsame
  · rw [List.mem_singleton.mp hnew] at hsame
    exact absurd hsame hqos

theorem erase (h : Tracked qos table inFlight) (msg : InFlight) :
    Tracked qos table (inFlight.erase msg) :=
  ⟨h.reserved, fun sent hsent => h.present sent (List.mem_of_mem_erase hsent)⟩

theorem packetId_ne_zero (h : Tracked qos table inFlight) {msg : InFlight}
    (hmsg : msg ∈ inFlight) (hqos : msg.qos = qos) : msg.packetId ≠ 0 := by
  obtain ⟨stored, hstored⟩ := Option.ne_none_iff_exists'.mp (h.present msg hmsg hqos)
  rw [← ClientTable.message?_record] at hstored
  exact (h.reserved.record msg.clientId _ stored hstored).2

end Tracked

/-! ## Two tables -/

/-- Every message noted is noted once and is in the table of its QoS, and no id
of a client is in both tables. -/
structure Separate {μ ν : Type} (qos qos' : Nat) (table : ClientTable μ) (table' : ClientTable ν)
    (inFlight : List InFlight) : Prop where
  tracked : Tracked qos table inFlight
  tracked' : Tracked qos' table' inFlight
  noted : ∀ msg ∈ inFlight, msg.qos = qos ∨ msg.qos = qos'
  nodup : inFlight.Nodup
  apart : ∀ clientId packetId, table.message? clientId packetId = none ∨
    table'.message? clientId packetId = none

namespace Separate

variable {μ ν : Type} {qos qos' : Nat} {table : ClientTable μ} {table' : ClientTable ν}
  {inFlight : List InFlight}

theorem empty : Separate qos qos' (∅ : ClientTable μ) (∅ : ClientTable ν) [] where
  tracked := Tracked.empty
  tracked' := Tracked.empty
  noted _ h := nomatch h
  nodup := List.nodup_nil
  apart _ _ := Or.inl rfl

variable (h : Separate qos qos' table table' inFlight)

include h

theorem symm : Separate qos' qos table' table inFlight where
  tracked := h.tracked'
  tracked' := h.tracked
  noted msg hmsg := (h.noted msg hmsg).symm
  nodup := h.nodup
  apart clientId packetId := (h.apart clientId packetId).symm

theorem not_both {msg msg' : InFlight} (hmsg : msg ∈ inFlight) (hmsg' : msg' ∈ inFlight)
    (hqos : msg.qos = qos) (hqos' : msg'.qos = qos') (hclient : msg.clientId = msg'.clientId) :
    msg.packetId ≠ msg'.packetId := by
  intro hpid
  have hfirst := h.tracked.present msg hmsg hqos
  have hsecond := h.tracked'.present msg' hmsg' hqos'
  rw [← hclient, ← hpid] at hsecond
  exact absurd (h.apart msg.clientId msg.packetId) (not_or.mpr ⟨hfirst, hsecond⟩)

theorem packetId_injective {msg msg' : InFlight} (hmsg : msg ∈ inFlight)
    (hmsg' : msg' ∈ inFlight) (hclient : msg.clientId = msg'.clientId)
    (hpid : msg.packetId = msg'.packetId) : msg = msg' := by
  have hqos : msg.qos = msg'.qos := by
    rcases h.noted msg hmsg with hfirst | hsecond
    · rcases h.noted msg' hmsg' with hfirst' | hsecond'
      · rw [hfirst, hfirst']
      · exact absurd hpid (h.not_both hmsg hmsg' hfirst hsecond' hclient)
    · rcases h.noted msg' hmsg' with hfirst' | hsecond'
      · exact absurd hpid (h.symm.not_both hmsg hmsg' hsecond hfirst' hclient)
      · rw [hsecond, hsecond']
  cases msg
  cases msg'
  simp_all

theorem packetId_ne_zero {msg : InFlight} (hmsg : msg ∈ inFlight) : msg.packetId ≠ 0 := by
  rcases h.noted msg hmsg with hfirst | hsecond
  · exact h.tracked.packetId_ne_zero hmsg hfirst
  · exact h.tracked'.packetId_ne_zero hmsg hsecond

/-! ## Operations on the first table -/

theorem settle (clientId : Bytes) (packetId : UInt16) :
    Separate qos qos' (table.remove clientId packetId) table'
      (inFlight.erase ⟨clientId, qos, packetId⟩) where
  tracked := h.tracked.settle h.nodup clientId packetId
  tracked' := h.tracked'.erase _
  noted msg hmsg := h.noted msg (List.mem_of_mem_erase hmsg)
  nodup := h.nodup.erase _
  apart clientId' packetId' := by
    rw [ClientTable.message?_remove]
    split_ifs
    · exact Or.inl rfl
    · exact h.apart clientId' packetId'

theorem setMessage {clientId : Bytes} {packetId : UInt16} {old : μ}
    (hold : table.message? clientId packetId = some old) (msg : μ) :
    Separate qos qos' (table.setMessage clientId packetId msg) table' inFlight where
  tracked := h.tracked.setMessage hold msg
  tracked' := h.tracked'
  noted := h.noted
  nodup := h.nodup
  apart clientId' packetId' := by
    rw [ClientTable.message?_setMessage hold]
    split_ifs with hsame
    · have hapart := h.apart clientId packetId
      rw [hold] at hapart
      rw [hsame.1, hsame.2]
      exact Or.inr (hapart.resolve_left nofun)
    · exact h.apart clientId' packetId'

theorem exhausted (clientId : Bytes) :
    Separate qos qos'
      (Finmap.insert clientId (allocatePacketId (table.record clientId)).2 table) table'
      inFlight where
  tracked := h.tracked.exhausted clientId
  tracked' := h.tracked'
  noted := h.noted
  nodup := h.nodup
  apart clientId' packetId := by
    rw [ClientTable.message?_exhausted]
    exact h.apart clientId' packetId

/-- A message under an allocated id, to a client without messages in the other
table. -/
theorem send (hqos : qos ≠ qos') {clientId : Bytes} (hnone : NoneFor table' clientId)
    (hpid : (allocatePacketId (table.record clientId)).1 ≠ 0) (msg : μ) :
    Separate qos qos'
      (Finmap.insert clientId
        { (allocatePacketId (table.record clientId)).2 with
          messages := (allocatePacketId (table.record clientId)).2.messages.insert
            (allocatePacketId (table.record clientId)).1 msg } table) table'
      (inFlight ++ [⟨clientId, qos, (allocatePacketId (table.record clientId)).1⟩]) where
  tracked := h.tracked.send clientId hpid msg
  tracked' := h.tracked'.other hqos
  noted sent hsent := by
    rcases List.mem_append.mp hsent with hold | hnew
    · exact h.noted sent hold
    · rw [List.mem_singleton.mp hnew]
      exact Or.inl rfl
  nodup := by
    refine List.nodup_append.mpr ⟨h.nodup, List.nodup_singleton _, ?_⟩
    intro sent hsent sent' hsent' heq
    rw [List.mem_singleton.mp hsent'] at heq
    rw [heq] at hsent
    exact h.tracked.present _ hsent rfl (h.tracked.reserved.allocated_free hpid)
  apart clientId' packetId := by
    rw [ClientTable.message?_insert]
    split_ifs with hclient
    · rw [hclient]
      exact Or.inr (hnone packetId)
    · exact h.apart clientId' packetId

end Separate

end JellyBroker
