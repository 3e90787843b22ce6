import JellyBroker.Lib.FiniteMap
import JellyBroker.Config
/-!
# In-flight tables

`Qos1Handler` and `Qos2Handler` keep the same kind of table: per client id the
messages in flight under their packet ids, and an allocator of packet ids.
-/

namespace JellyBroker.Qos

open JellyBroker.Lib (Map)

abbrev PacketId := { id : UInt16 // id ≠ 0 }

/-- `ClientPending` and `ClientOutgoing`. -/
structure ClientRecord (μ : Type) where
  messages : Map UInt16 μ := ∅
  nextPacketId : PacketId := ⟨1, by decide⟩
  inUse : Finset UInt16 := ∅
  deriving DecidableEq

/-- The increment of `next_packet_id`, which skips 0. -/
def nextId (id : PacketId) : PacketId :=
  if h : id.val + 1 = 0 then ⟨1, by decide⟩ else ⟨id.val + 1, h⟩

/-- The loop of `allocate_packet_id`: the id found, if any, and
`next_packet_id` when the loop ends.  It is back at `start` after at most 65535
turns. -/
def searchId (inUse : Finset UInt16) (start : PacketId) :
    Nat → PacketId → Option PacketId × PacketId
  | 0, id => (none, id)
  | turns + 1, id =>
      if id.val ∈ inUse then
        if nextId id = start then (none, nextId id)
        else searchId inUse start turns (nextId id)
      else (some id, id)

/-- The allocated id, 0 when all ids are in use. -/
def allocatePacketId {μ : Type} (client : ClientRecord μ) : UInt16 × ClientRecord μ :=
  match searchId client.inUse client.nextPacketId 65536 client.nextPacketId with
  | (none, next) => (0, { client with nextPacketId := next })
  | (some pid, _) =>
      (pid.val, { client with nextPacketId := nextId pid, inUse := insert pid.val client.inUse })

abbrev ClientTable (μ : Type) := Map Bytes (ClientRecord μ)

namespace ClientTable

variable {μ : Type}

/-- `table[client_id]`, which creates a missing record. -/
def record (table : ClientTable μ) (clientId : Bytes) : ClientRecord μ :=
  (table.lookup clientId).getD {}

def message? (table : ClientTable μ) (clientId : Bytes) (packetId : UInt16) : Option μ :=
  (table.lookup clientId).bind (·.messages.lookup packetId)

def setMessage (table : ClientTable μ) (clientId : Bytes) (packetId : UInt16) (msg : μ) :
    ClientTable μ :=
  match table.lookup clientId with
  | none => table
  | some client =>
      table.insert clientId
        { client with messages := client.messages.insert packetId msg }

/-- Take a message out of flight, and its client's record with the last one. -/
def remove (table : ClientTable μ) (clientId : Bytes) (packetId : UInt16) : ClientTable μ :=
  match table.lookup clientId with
  | none => table
  | some client =>
      if packetId ∈ client.messages then
        let messages := client.messages.erase packetId
        if messages.keys = ∅ then table.erase clientId
        else table.insert clientId { client with messages, inUse := client.inUse.erase packetId }
      else table

end ClientTable

end JellyBroker.Qos
