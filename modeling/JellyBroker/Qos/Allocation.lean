import JellyBroker.Qos.ClientTable
import Mathlib.Tactic
/-!
# Packet id allocation

The allocator walks round the circle of the ids 1 .. 65535, from
`next_packet_id` on, to the first id that is not in use.  The loop of the source
has no counter; `Searches` is its run to the end, and the turns of `searchId`
are never used up.
-/

namespace JellyBroker.Qos

variable {μ : Type}

/-! ## The circle of ids -/

theorem packetId_toNat (id : PacketId) : 1 ≤ id.val.toNat ∧ id.val.toNat ≤ 65535 := by
  have hbound := id.val.toNat_lt
  have hzero : id.val.toNat ≠ 0 := fun h => id.property (UInt16.toNat_inj.mp h)
  omega

theorem nextId_toNat (id : PacketId) : (nextId id).val.toNat = id.val.toNat % 65535 + 1 := by
  have hbound := id.val.toNat_lt
  have hsucc : (id.val + 1).toNat = (id.val.toNat + 1) % 65536 := by
    rw [UInt16.toNat_add]
    rfl
  unfold nextId
  split_ifs with hwrap
  · have hzero : (id.val + 1).toNat = 0 := by
      rw [hwrap]
      rfl
    change 1 = id.val.toNat % 65535 + 1
    omega
  · have hnonzero : (id.val + 1).toNat ≠ 0 := fun h => hwrap (UInt16.toNat_inj.mp h)
    change (id.val + 1).toNat = id.val.toNat % 65535 + 1
    omega

theorem iterate_nextId_toNat (id : PacketId) (k : Nat) :
    (nextId^[k] id).val.toNat = (id.val.toNat - 1 + k) % 65535 + 1 := by
  induction k with
  | zero =>
      have hid := packetId_toNat id
      change id.val.toNat = (id.val.toNat - 1) % 65535 + 1
      omega
  | succ k ih =>
      rw [Function.iterate_succ_apply', nextId_toNat, ih]
      omega

/-- The id that is `k` places after `start` in the circle of 1 .. 65535. -/
def idAfter (start : PacketId) (k : Nat) : UInt16 :=
  UInt16.ofNat ((start.val.toNat - 1 + k) % 65535 + 1)

theorem iterate_nextId_val (start : PacketId) (k : Nat) :
    (nextId^[k] start).val = idAfter start k := by
  rw [idAfter, ← iterate_nextId_toNat, UInt16.ofNat_toNat]

theorem PacketId.ext_toNat {id id' : PacketId} (h : id.val.toNat = id'.val.toNat) : id = id' :=
  Subtype.ext (UInt16.toNat_inj.mp h)

theorem iterate_nextId_ne_self (id : PacketId) {k : Nat} (hpos : 0 < k) (hk : k < 65535) :
    nextId^[k] id ≠ id := by
  intro heq
  have hplace := iterate_nextId_toNat id k
  have hid := packetId_toNat id
  rw [heq] at hplace
  omega

theorem iterate_nextId_round (id : PacketId) : nextId^[65535] id = id := by
  apply PacketId.ext_toNat
  have hid := packetId_toNat id
  rw [iterate_nextId_toNat]
  omega

theorem exists_iterate_nextId (start pid : PacketId) : ∃ k < 65535, nextId^[k] start = pid := by
  have hstart := packetId_toNat start
  have hpid := packetId_toNat pid
  refine ⟨(pid.val.toNat + 65535 - start.val.toNat) % 65535, Nat.mod_lt _ (by decide), ?_⟩
  apply PacketId.ext_toNat
  rw [iterate_nextId_toNat]
  omega

/-! ## The search -/

/-- The `while` loop of `allocate_packet_id`, run to its end in `turns` further
turns from `next_packet_id = id`. -/
inductive Searches (inUse : Finset UInt16) (start : PacketId) :
    Nat → PacketId → Option PacketId × PacketId → Prop
  | found {id : PacketId} (hfree : id.val ∉ inUse) : Searches inUse start 0 id (some id, id)
  | exhausted {id : PacketId} (hused : id.val ∈ inUse) (hround : nextId id = start) :
      Searches inUse start 0 id (none, nextId id)
  | turn {turns : Nat} {id : PacketId} {out : Option PacketId × PacketId}
      (hused : id.val ∈ inUse) (hround : nextId id ≠ start)
      (hrest : Searches inUse start turns (nextId id) out) :
      Searches inUse start (turns + 1) id out

variable {inUse : Finset UInt16} {start id : PacketId}

theorem Searches.searchId_eq {turns : Nat} {out : Option PacketId × PacketId}
    (h : Searches inUse start turns id out) {more : Nat} (hmore : turns < more) :
    searchId inUse start more id = out := by
  induction h generalizing more with
  | found hfree =>
      obtain ⟨more, rfl⟩ := Nat.exists_eq_add_of_lt hmore
      rw [searchId, if_neg hfree]
  | exhausted hused hround =>
      obtain ⟨more, rfl⟩ := Nat.exists_eq_add_of_lt hmore
      rw [searchId, if_pos hused, if_pos hround]
  | turn hused hround hrest ih =>
      obtain ⟨more, rfl⟩ := Nat.exists_eq_add_of_lt hmore
      rw [searchId, if_pos hused, if_neg hround]
      apply ih
      omega

theorem searches_found {left : Nat} (hused : ∀ j < left, (nextId^[j] id).val ∈ inUse)
    (hround : ∀ j, 0 < j → j ≤ left → nextId^[j] id ≠ start)
    (hfree : (nextId^[left] id).val ∉ inUse) :
    Searches inUse start left id (some (nextId^[left] id), nextId^[left] id) := by
  induction left generalizing id with
  | zero => exact .found hfree
  | succ left ih =>
      apply Searches.turn (hused 0 (by omega)) (hround 1 (by omega) (by omega))
      apply ih
      · intro j hj
        exact hused (j + 1) (by omega)
      · intro j hpos hj
        exact hround (j + 1) (by omega) (by omega)
      · exact hfree

theorem searches_exhausted {left : Nat} (hused : ∀ j ≤ left, (nextId^[j] id).val ∈ inUse)
    (hround : ∀ j, 0 < j → j ≤ left → nextId^[j] id ≠ start)
    (hback : nextId^[left + 1] id = start) :
    Searches inUse start left id (none, start) := by
  induction left generalizing id with
  | zero =>
      have hend : Searches inUse start 0 id (none, nextId id) :=
        .exhausted (hused 0 (by omega)) hback
      change nextId id = start at hback
      rw [hback] at hend
      exact hend
  | succ left ih =>
      apply Searches.turn (hused 0 (by omega)) (hround 1 (by omega) (by omega))
      apply ih
      · intro j hj
        exact hused (j + 1) (by omega)
      · intro j hpos hj
        exact hround (j + 1) (by omega) (by omega)
      · exact hback

/-! ## The allocator -/

namespace ClientRecord

variable (client : ClientRecord μ)

def Exhausted : Prop :=
  ∀ pid : PacketId, pid.val ∈ client.inUse

/-- The first free id is `k` places after `next_packet_id`. -/
structure FreeAfter (k : Nat) : Prop where
  lt : k < 65535
  free : (nextId^[k] client.nextPacketId).val ∉ client.inUse
  used : ∀ j < k, (nextId^[j] client.nextPacketId).val ∈ client.inUse

def reserve (pid : PacketId) : ClientRecord μ :=
  { client with nextPacketId := nextId pid, inUse := insert pid.val client.inUse }

theorem exists_freeAfter (h : ¬ client.Exhausted) : ∃ k, client.FreeAfter k := by
  have hsome : ∃ k, (nextId^[k] client.nextPacketId).val ∉ client.inUse := by
    unfold Exhausted at h
    push Not at h
    obtain ⟨pid, hpid⟩ := h
    obtain ⟨k, -, hk⟩ := exists_iterate_nextId client.nextPacketId pid
    exact ⟨k, hk ▸ hpid⟩
  have hround : Nat.find hsome < 65535 := by
    -- The same id is met one round earlier.
    by_contra hlate
    apply Nat.find_min hsome (m := Nat.find hsome - 65535) (by omega)
    have hsplit : Nat.find hsome = Nat.find hsome - 65535 + 65535 := by omega
    have hfree := Nat.find_spec hsome
    rw [hsplit, Function.iterate_add_apply, iterate_nextId_round] at hfree
    exact hfree
  refine ⟨Nat.find hsome, hround, Nat.find_spec hsome, ?_⟩
  intro j hj
  exact not_not.mp (Nat.find_min hsome hj)

variable {client}

theorem FreeAfter.searches {k : Nat} (h : client.FreeAfter k) :
    Searches client.inUse client.nextPacketId k client.nextPacketId
      (some (nextId^[k] client.nextPacketId), nextId^[k] client.nextPacketId) := by
  have hk := h.lt
  apply searches_found h.used _ h.free
  intro j hpos hj
  exact iterate_nextId_ne_self _ hpos (by omega)

theorem Exhausted.searches (h : client.Exhausted) :
    Searches client.inUse client.nextPacketId 65534 client.nextPacketId
      (none, client.nextPacketId) := by
  apply searches_exhausted
  · intro j _
    exact h _
  · intro j hpos hj
    exact iterate_nextId_ne_self _ hpos (by omega)
  · exact iterate_nextId_round _

end ClientRecord

variable {client : ClientRecord μ}

theorem allocatePacketId_of_freeAfter {k : Nat} (h : client.FreeAfter k) :
    allocatePacketId client =
      ((nextId^[k] client.nextPacketId).val, client.reserve (nextId^[k] client.nextPacketId)) := by
  have hk := h.lt
  unfold allocatePacketId
  rw [h.searches.searchId_eq (by omega)]
  rfl

theorem allocatePacketId_of_exhausted (h : client.Exhausted) :
    allocatePacketId client = (0, client) := by
  unfold allocatePacketId
  rw [h.searches.searchId_eq (by decide)]

variable (client)

theorem allocatePacketId_eq_zero_iff : (allocatePacketId client).1 = 0 ↔ client.Exhausted := by
  by_cases hexhausted : client.Exhausted
  · rw [allocatePacketId_of_exhausted hexhausted]
    exact iff_of_true rfl hexhausted
  · obtain ⟨k, hk⟩ := client.exists_freeAfter hexhausted
    rw [allocatePacketId_of_freeAfter hk]
    exact iff_of_false (nextId^[k] client.nextPacketId).property hexhausted

/-- An allocated id is new and gets reserved, and the messages stay. -/
theorem allocatePacketId_spec :
    (allocatePacketId client).2.messages = client.messages ∧
      client.inUse ⊆ (allocatePacketId client).2.inUse ∧
      ((allocatePacketId client).1 ≠ 0 → (allocatePacketId client).1 ∉ client.inUse ∧
        (allocatePacketId client).1 ∈ (allocatePacketId client).2.inUse) := by
  by_cases hexhausted : client.Exhausted
  · rw [allocatePacketId_of_exhausted hexhausted]
    exact ⟨rfl, Finset.Subset.refl _, fun h => absurd rfl h⟩
  · obtain ⟨k, hk⟩ := client.exists_freeAfter hexhausted
    rw [allocatePacketId_of_freeAfter hk]
    exact ⟨rfl, Finset.subset_insert _ _, fun _ => ⟨hk.free, Finset.mem_insert_self _ _⟩⟩

/-- The loop ends within a round; it gives 0 and the record as it was when all
ids are in use, and otherwise the first free id of the circle from
`next_packet_id` on, which it reserves. -/
theorem allocatePacketId_cyclic :
    (∃ turns < 65535, ∃ out,
      Searches client.inUse client.nextPacketId turns client.nextPacketId out ∧
        ∀ more > turns,
          searchId client.inUse client.nextPacketId more client.nextPacketId = out) ∧
      ((allocatePacketId client).1 = 0 ↔ client.Exhausted) ∧
      (client.Exhausted → allocatePacketId client = (0, client)) ∧
      (¬ client.Exhausted → ∃ k < 65535, ∃ next : PacketId,
        idAfter client.nextPacketId k ∉ client.inUse ∧
          (∀ j < k, idAfter client.nextPacketId j ∈ client.inUse) ∧
          next.val = idAfter client.nextPacketId (k + 1) ∧
          allocatePacketId client = (idAfter client.nextPacketId k,
            { client with
              nextPacketId := next
              inUse := insert (idAfter client.nextPacketId k) client.inUse })) ∧
      (allocatePacketId client).2.nextPacketId.val ≠ 0 := by
  refine ⟨?_, allocatePacketId_eq_zero_iff client, allocatePacketId_of_exhausted, ?_,
    (allocatePacketId client).2.nextPacketId.property⟩
  · by_cases hexhausted : client.Exhausted
    · have hends := hexhausted.searches
      exact ⟨65534, by decide, _, hends, fun more hmore => hends.searchId_eq hmore⟩
    · obtain ⟨k, hk⟩ := client.exists_freeAfter hexhausted
      exact ⟨k, hk.lt, _, hk.searches, fun more hmore => hk.searches.searchId_eq hmore⟩
  · intro hexhausted
    obtain ⟨k, hk⟩ := client.exists_freeAfter hexhausted
    have hnext := iterate_nextId_val client.nextPacketId (k + 1)
    rw [Function.iterate_succ_apply'] at hnext
    simp only [← iterate_nextId_val]
    exact ⟨k, hk.lt, _, hk.free, hk.used, hnext.trans (iterate_nextId_val _ _).symm,
      allocatePacketId_of_freeAfter hk⟩

end JellyBroker.Qos
