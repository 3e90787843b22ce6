import JellyBroker.Broker.QosLevels
import JellyBroker.Lib.Past
/-!
# Where the messages come from

The broker invents no message.  Whatever PUBLISH it hands to a session, at the first
transmission, as a retry, when a PUBREL releases it or as a retained message, is a copy
of a PUBLISH that came from a connected session whose user had write access to the
topic when it came.
-/

namespace JellyBroker

open JellyBroker.Packet JellyBroker.Topic

variable {α : Type}

/-- The packets that the broker makes of an accepted PUBLISH. -/
inductive CopyOf (pub : PublishPacket) : OutPacket → Prop
  | qos0 : pub.qos = 0 → CopyOf pub (.publish pub.topic pub.payload 0 false false 0)
  | qos1 (packetId : UInt16) : pub.qos = 1 →
      CopyOf pub (.publish pub.topic pub.payload 1 pub.retain false packetId)
  /-- A QoS 2 message for a subscription of a lower QoS has no packet id. -/
  | downgraded (qos : Nat) : pub.qos = 2 → qos < 2 →
      CopyOf pub (.publish pub.topic pub.payload qos false false 0)
  | qos2 (dup : Bool) (packetId : UInt16) : pub.qos = 2 →
      CopyOf pub (.publish pub.topic pub.payload 2 false dup packetId)
  /-- A retained message keeps the QoS it was stored with. -/
  | replay : pub.retain = true →
      CopyOf pub (.publish (withoutSeparator pub.topic) pub.payload
        (Session.retainedMessage pub).qos true false 0)

def AcceptedIn (env : Env α) (past : List (Runtime α × Event)) (pub : PublishPacket) : Prop :=
  ∃ n sid, (n, .turn sid) ∈ past ∧ AcceptsPublish env n sid pub

/-- Copies of certain messages, and these messages in the stores. -/
def copiesOf (accepted : PublishPacket → Prop) : Content where
  packet _ packet := ∀ topic payload qos retain dup packetId,
    packet = .publish topic payload qos retain dup packetId →
      ∃ pub, accepted pub ∧ CopyOf pub packet
  retained topic msg := ∃ pub, accepted pub ∧ pub.retain = true ∧
    topic = withoutSeparator pub.topic ∧ msg = Session.retainedMessage pub
  incoming msg := ∃ pub, accepted pub ∧ pub.qos = 2 ∧ msg = ⟨pub.topic, pub.payload, pub.qos⟩
  outgoing _ topic payload := ∃ pub, accepted pub ∧ pub.qos = 2 ∧ topic = pub.topic ∧
    payload = pub.payload
  entry _ _ := True
  stored _ _ := True

section Copies

variable {accepted : PublishPacket → Prop}

theorem closed_copiesOf (accepted : PublishPacket → Prop) : (copiesOf accepted).Closed where
  plain sid packet hplain topic payload qos retain dup packetId hpacket := by
    rw [hpacket] at hplain
    exact hplain.elim
  replay sid qos filter topic msg _ _ := by
    rintro ⟨pub, hpub, hretain, rfl, rfl⟩ _ _ _ _ _ _ _
    rw [Session.payload_retainedMessage]
    exact ⟨pub, hpub, .replay hretain⟩
  downgraded entry msg qos _ := by
    rintro ⟨pub, hpub, hqos, rfl⟩ _ hlow _ _ _ _ _ _ _
    exact ⟨pub, hpub, .downgraded qos hqos hlow⟩
  forwarded entry msg _ := by
    rintro ⟨pub, hpub, hqos, rfl⟩ _
    exact ⟨pub, hpub, hqos, rfl, rfl⟩
  outgoing sid topic payload dup packetId := by
    rintro ⟨pub, hpub, hqos, rfl, rfl⟩ _ _ _ _ _ _ _
    exact ⟨pub, hpub, .qos2 dup packetId hqos⟩

theorem admits_copiesOf {pub : PublishPacket} (hpub : accepted pub) :
    (copiesOf accepted).Admits pub where
  qos0 hqos _ _ _ _ _ _ _ _ _ := ⟨pub, hpub, .qos0 hqos⟩
  qos1 hqos _ _ packetId _ _ _ _ _ _ _ := ⟨pub, hpub, .qos1 packetId hqos⟩
  qos2 hqos := ⟨pub, hpub, hqos, rfl⟩
  retained hretain := ⟨pub, hpub, hretain, rfl, rfl⟩

theorem copiesOf_le {accepted' : PublishPacket → Prop}
    (h : ∀ pub, accepted pub → accepted' pub) : (copiesOf accepted).Le (copiesOf accepted') where
  packet sid packet hpacket topic payload qos retain dup packetId heq := by
    obtain ⟨pub, hpub, hcopy⟩ := hpacket topic payload qos retain dup packetId heq
    exact ⟨pub, h pub hpub, hcopy⟩
  retained topic msg := by
    rintro ⟨pub, hpub, hstored⟩
    exact ⟨pub, h pub hpub, hstored⟩
  incoming msg := by
    rintro ⟨pub, hpub, hstored⟩
    exact ⟨pub, h pub hpub, hstored⟩
  outgoing sid topic payload := by
    rintro ⟨pub, hpub, hstored⟩
    exact ⟨pub, h pub hpub, hstored⟩
  entry _ _ h := h
  stored _ _ h := h

end Copies

/-- All that the broker holds comes from the PUBLISH packets it accepted. -/
theorem holds_copies_of_past {env : Env α} {t : Runtime α × List (Runtime α × Event)}
    (h : (brokerSystem env).recorded.Reachable t) :
    (copiesOf (AcceptedIn env t.2)).Holds t.1.toBroker := by
  refine h.of_past (P := fun past n => (copiesOf (AcceptedIn env past)).Holds n.toBroker) ?_ ?_
  · rintro _ ⟨auth, rfl⟩
    exact Content.Holds.start _ auth
  · intro past n e _ hholds henabled
    -- the turn itself belongs to the past that its packets may come from
    have hlonger : (copiesOf (AcceptedIn env past)).Le
        (copiesOf (AcceptedIn env (past ++ [(n, e)]))) := by
      apply copiesOf_le
      rintro pub ⟨m, sid, hmem, haccepts⟩
      exact ⟨m, sid, List.mem_append_left _ hmem, haccepts⟩
    apply (hholds.mono hlonger).step (closed_copiesOf _)
    rintro sid rfl
    constructor
    · intro pub haccepts
      apply admits_copiesOf
      exact ⟨n, sid, List.mem_append_right _ List.mem_cons_self, haccepts⟩
    · intro filter _
      exact ⟨trivial, fun _ => trivial⟩
    · intro sub _ codes _ topic payload qos retain dup packetId hpacket
      cases hpacket
    · intro conn _ _ sub _
      exact trivial

/-- Every PUBLISH that was handed to a session is a copy of one that was accepted
before. -/
theorem handed_publish_originates (env : Env α) {n : Runtime α} {past : List (Runtime α × Event)}
    (h : (brokerSystem env).recorded.Reachable (n, past)) {sid : SessionId} {accepted : Bool}
    {topic payload : Bytes} {qos : Nat} {retain dup : Bool} {packetId : UInt16}
    (hhanded : ⟨sid, .publish topic payload qos retain dup packetId, accepted⟩ ∈ n.history.handed) :
    ∃ m publisher pub, (m, .turn publisher) ∈ past ∧ AcceptsPublish env m publisher pub ∧
      CopyOf pub (.publish topic payload qos retain dup packetId) := by
  have hcontent := (holds_copies_of_past h).handed _ hhanded
  obtain ⟨pub, ⟨m, publisher, hmem, haccepts⟩, hcopy⟩ :=
    hcontent topic payload qos retain dup packetId rfl
  exact ⟨m, publisher, pub, hmem, haccepts, hcopy⟩

/-- The retained message of a sample run with its past. -/
theorem handed_publish_originates_sample :
    let t := (brokerSystem defaultEnv).recorded.after ({ auth := () }, []) (retainedEvents 1)
    ∃ m publisher pub, (m, .turn publisher) ∈ t.2 ∧ AcceptsPublish defaultEnv m publisher pub ∧
      CopyOf pub (.publish [0x74] [0x6d] 1 true false 0) := by
  intro t
  have ht : (brokerSystem defaultEnv).recorded.Reachable t := by
    refine .of_allowed ⟨⟨(), rfl⟩, rfl⟩ ⟨⟨rfl, rfl, trivial⟩, ⟨rfl, rfl, rfl, ?_, ?_⟩, ⟨?_, ?_⟩,
      ⟨?_, ?_⟩, ⟨?_, ?_⟩, ⟨?_, ?_⟩, trivial⟩ <;> decide +kernel
  have hhanded : ⟨0, .publish [0x74] [0x6d] 1 true false 0, true⟩ ∈ t.1.history.handed := by
    decide +kernel
  exact handed_publish_originates defaultEnv ht hhanded

end JellyBroker
