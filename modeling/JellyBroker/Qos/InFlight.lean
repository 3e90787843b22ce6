import JellyBroker.Qos.Allocation
/-!
# In-flight tables keep their ids

The messages a table holds after each of its operations, and that the id of
every message is reserved in its client's record, so that the allocator does
not give it out again.
-/

namespace JellyBroker.Qos

open JellyBroker.Lib

variable {μ : Type}

/-! ## Reserved ids -/

def ClientRecord.Reserved (client : ClientRecord μ) : Prop :=
  ∀ pid msg, client.messages.lookup pid = some msg → pid ∈ client.inUse ∧ pid ≠ 0

theorem ClientRecord.reserved_empty : ({} : ClientRecord μ).Reserved := by
  intro pid msg h
  cases h

theorem ClientRecord.Reserved.send {client : ClientRecord μ} (h : client.Reserved)
    (hpid : (allocatePacketId client).1 ≠ 0) (msg : μ) :
    ClientRecord.Reserved { (allocatePacketId client).2 with
      messages :=
        (allocatePacketId client).2.messages.insert (allocatePacketId client).1 msg } := by
  obtain ⟨hmessages, hsubset, hnew⟩ := allocatePacketId_spec client
  intro pid msg' hlookup
  dsimp only at hlookup ⊢
  rw [Map.lookup_insert_ite] at hlookup
  split_ifs at hlookup with heq
  · rw [heq]
    exact ⟨(hnew hpid).2, hpid⟩
  · rw [hmessages] at hlookup
    exact ⟨hsubset (h pid msg' hlookup).1, (h pid msg' hlookup).2⟩

namespace ClientTable

def Reserved (table : ClientTable μ) : Prop :=
  ∀ clientId client, table.lookup clientId = some client → client.Reserved

theorem reserved_empty : Reserved (∅ : ClientTable μ) := by
  intro clientId client h
  cases h

theorem Reserved.record {table : ClientTable μ} (h : table.Reserved) (clientId : Bytes) :
    (table.record clientId).Reserved := by
  unfold ClientTable.record
  cases hlookup : table.lookup clientId with
  | none => exact ClientRecord.reserved_empty
  | some client => exact h clientId client hlookup

theorem Reserved.insert {table : ClientTable μ} (h : table.Reserved) (clientId : Bytes)
    {client : ClientRecord μ} (hclient : client.Reserved) :
    Reserved (Finmap.insert clientId client table) := by
  intro clientId' client' hlookup
  rw [Map.lookup_insert_ite] at hlookup
  split_ifs at hlookup with heq
  · rw [← Option.some.inj hlookup]
    exact hclient
  · exact h clientId' client' hlookup

/-! ## The messages after each operation -/

theorem message?_of_lookup {table : ClientTable μ} {clientId : Bytes} {client : ClientRecord μ}
    (h : table.lookup clientId = some client) (packetId : UInt16) :
    table.message? clientId packetId = client.messages.lookup packetId := by
  rw [message?, h, Option.bind_some]

theorem message?_record (table : ClientTable μ) (clientId : Bytes) (packetId : UInt16) :
    (table.record clientId).messages.lookup packetId = table.message? clientId packetId := by
  unfold record message?
  cases table.lookup clientId with
  | none => rfl
  | some client => rfl

theorem message?_insert (table : ClientTable μ) (clientId clientId' : Bytes)
    (client : ClientRecord μ) (packetId : UInt16) :
    message? (Finmap.insert clientId client table) clientId' packetId =
      if clientId' = clientId then client.messages.lookup packetId
      else table.message? clientId' packetId := by
  unfold message?
  rw [Map.lookup_insert_ite]
  split_ifs
  · rfl
  · rfl

theorem message?_erase (table : ClientTable μ) (clientId clientId' : Bytes)
    (packetId : UInt16) :
    message? (Finmap.erase clientId table) clientId' packetId =
      if clientId' = clientId then none else table.message? clientId' packetId := by
  unfold message?
  rw [Map.lookup_erase_ite]
  split_ifs
  · rfl
  · rfl

theorem message?_setMessage {table : ClientTable μ} {clientId : Bytes} {packetId : UInt16}
    {old : μ} (h : table.message? clientId packetId = some old) (msg : μ) (clientId' : Bytes)
    (packetId' : UInt16) :
    (table.setMessage clientId packetId msg).message? clientId' packetId' =
      if clientId' = clientId ∧ packetId' = packetId then some msg
      else table.message? clientId' packetId' := by
  unfold setMessage
  cases hlookup : table.lookup clientId with
  | none =>
      rw [message?, hlookup] at h
      cases h
  | some client =>
      dsimp only
      rw [message?_insert]
      by_cases hclient : clientId' = clientId
      · rw [if_pos hclient, hclient, Map.lookup_insert_ite, message?_of_lookup hlookup]
        simp
      · rw [if_neg hclient, if_neg fun hboth => hclient hboth.1]

theorem message?_remove (table : ClientTable μ) (clientId : Bytes) (packetId : UInt16)
    (clientId' : Bytes) (packetId' : UInt16) :
    (table.remove clientId packetId).message? clientId' packetId' =
      if clientId' = clientId ∧ packetId' = packetId then none
      else table.message? clientId' packetId' := by
  unfold remove
  cases hlookup : table.lookup clientId with
  | none =>
      dsimp only
      split_ifs with hboth
      · rw [hboth.1, message?, hlookup, Option.bind_none]
      · rfl
  | some client =>
      dsimp only
      by_cases hclient : clientId' = clientId
      · -- The record without the message, or no record once it is empty.
        subst hclient
        have herased : (if clientId' = clientId' ∧ packetId' = packetId then none
            else table.message? clientId' packetId') =
            (client.messages.erase packetId).lookup packetId' := by
          rw [Map.lookup_erase_ite, message?_of_lookup hlookup]
          simp
        rw [herased]
        split_ifs with hmem hempty
        · rw [message?_erase, if_pos rfl]
          have hnone : packetId' ∉ client.messages.erase packetId := by
            rw [← Finmap.mem_keys, hempty]
            exact Finset.notMem_empty _
          exact (Finmap.lookup_eq_none.mpr hnone).symm
        · rw [message?_insert, if_pos rfl]
        · rw [message?_of_lookup hlookup, Map.lookup_erase_ite]
          split_ifs with heq
          · rw [heq]
            exact Finmap.lookup_eq_none.mpr hmem
          · rfl
      · have hother : ¬(clientId' = clientId ∧ packetId' = packetId) :=
          fun hboth => hclient hboth.1
        rw [if_neg hother]
        split_ifs
        · rw [message?_erase, if_neg hclient]
        · rw [message?_insert, if_neg hclient]
        · rfl

theorem Reserved.setMessage {table : ClientTable μ} (h : table.Reserved) {clientId : Bytes}
    {packetId : UInt16} {old : μ} (hold : table.message? clientId packetId = some old) (msg : μ) :
    Reserved (table.setMessage clientId packetId msg) := by
  unfold ClientTable.setMessage
  cases hlookup : table.lookup clientId with
  | none => exact h
  | some client =>
      rw [message?_of_lookup hlookup] at hold
      apply h.insert
      intro pid msg' hmsg
      dsimp only at hmsg ⊢
      rw [Map.lookup_insert_ite] at hmsg
      split_ifs at hmsg with heq
      · rw [heq]
        exact h clientId client hlookup packetId old hold
      · exact h clientId client hlookup pid msg' hmsg

theorem Reserved.remove {table : ClientTable μ} (h : table.Reserved) (clientId : Bytes)
    (packetId : UInt16) : Reserved (table.remove clientId packetId) := by
  unfold ClientTable.remove
  cases hlookup : table.lookup clientId with
  | none => exact h
  | some client =>
      dsimp only
      split_ifs
      · intro clientId' client' hclient'
        rw [Map.lookup_erase_ite] at hclient'
        split_ifs at hclient'
        exact h clientId' client' hclient'
      · apply h.insert
        intro pid msg hmsg
        dsimp only at hmsg ⊢
        rw [Map.lookup_erase_ite] at hmsg
        split_ifs at hmsg with heq
        obtain ⟨hused, hnonzero⟩ := h clientId client hlookup pid msg hmsg
        exact ⟨Finset.mem_erase.mpr ⟨heq, hused⟩, hnonzero⟩
      · exact h

/-! ## Sending a message -/

theorem message?_send (table : ClientTable μ) (clientId : Bytes) (msg : μ) (clientId' : Bytes)
    (packetId : UInt16) :
    message?
        (Finmap.insert clientId
          { (allocatePacketId (table.record clientId)).2 with
            messages := (allocatePacketId (table.record clientId)).2.messages.insert
              (allocatePacketId (table.record clientId)).1 msg } table) clientId' packetId =
      if clientId' = clientId ∧ packetId = (allocatePacketId (table.record clientId)).1 then
        some msg
      else table.message? clientId' packetId := by
  rw [message?_insert]
  dsimp only
  rw [Map.lookup_insert_ite, (allocatePacketId_spec _).1, message?_record]
  by_cases hclient : clientId' = clientId
  · rw [if_pos hclient, hclient]
    simp
  · rw [if_neg hclient, if_neg fun hboth => hclient hboth.1]

theorem message?_exhausted (table : ClientTable μ) (clientId clientId' : Bytes)
    (packetId : UInt16) :
    message? (Finmap.insert clientId (allocatePacketId (table.record clientId)).2 table) clientId'
        packetId = table.message? clientId' packetId := by
  rw [message?_insert, (allocatePacketId_spec _).1, message?_record]
  split_ifs with hclient
  · rw [hclient]
  · rfl

theorem Reserved.send {table : ClientTable μ} (h : table.Reserved) {clientId : Bytes}
    (hpid : (allocatePacketId (table.record clientId)).1 ≠ 0) (msg : μ) :
    Reserved (Finmap.insert clientId
      { (allocatePacketId (table.record clientId)).2 with
        messages := (allocatePacketId (table.record clientId)).2.messages.insert
          (allocatePacketId (table.record clientId)).1 msg } table) :=
  h.insert clientId ((h.record clientId).send hpid msg)

theorem Reserved.exhausted {table : ClientTable μ} (h : table.Reserved) (clientId : Bytes) :
    Reserved (Finmap.insert clientId (allocatePacketId (table.record clientId)).2 table) := by
  obtain ⟨hmessages, hsubset, _⟩ := allocatePacketId_spec (table.record clientId)
  apply h.insert
  intro pid msg hlookup
  rw [hmessages] at hlookup
  obtain ⟨hused, hnonzero⟩ := h.record clientId pid msg hlookup
  exact ⟨hsubset hused, hnonzero⟩

theorem Reserved.allocated_free {table : ClientTable μ} (h : table.Reserved) {clientId : Bytes}
    (hpid : (allocatePacketId (table.record clientId)).1 ≠ 0) :
    table.message? clientId (allocatePacketId (table.record clientId)).1 = none := by
  cases hmsg : table.message? clientId (allocatePacketId (table.record clientId)).1 with
  | none => rfl
  | some msg =>
      rw [← message?_record] at hmsg
      have hused := (h.record clientId _ msg hmsg).1
      exact absurd hused ((allocatePacketId_spec _).2.2 hpid).1

theorem Reserved.kept_send {table : ClientTable μ} (h : table.Reserved) {clientId : Bytes}
    (hpid : (allocatePacketId (table.record clientId)).1 ≠ 0) (new : μ) {clientId' : Bytes}
    {packetId : UInt16} {msg : μ} (hmsg : table.message? clientId' packetId = some msg) :
    message?
        (Finmap.insert clientId
          { (allocatePacketId (table.record clientId)).2 with
            messages := (allocatePacketId (table.record clientId)).2.messages.insert
              (allocatePacketId (table.record clientId)).1 new } table) clientId' packetId =
      some msg := by
  rw [message?_send, if_neg, hmsg]
  rintro ⟨rfl, rfl⟩
  rw [h.allocated_free hpid] at hmsg
  cases hmsg

end ClientTable

end JellyBroker.Qos
