import JellyBroker.Broker.Content
/-!
# Quality of service levels

PUBLISH and SUBSCRIBE carry a QoS of two bits, and neither parser refuses the
value 3.  It enters the broker as the QoS of a subscription or of a retained
message.  As long as no packet brings it in at these two places, every store
and every packet that is handed to a session has a QoS of at most 2.
-/

namespace JellyBroker

open JellyBroker.Packet JellyBroker.Topic

variable {α : Type}

def Packet.SubackCode.QosBounded : SubackCode → Prop
  | .granted qos => qos ≤ 2
  | .failure => True

def Packet.OutPacket.QosBounded : OutPacket → Prop
  | .publish _ _ qos _ _ _ => qos ≤ 2
  | .suback _ codes => ∀ code ∈ codes, code.QosBounded
  | _ => True

/-- A QoS of at most 2 everywhere.  `Qos2Handler` keeps none with its messages. -/
def qosLevels : Content where
  packet _ packet := packet.QosBounded
  retained _ msg := msg.qos ≤ 2
  incoming msg := msg.qos ≤ 2
  outgoing _ _ _ := True
  entry _ entry := entry.qos ≤ 2
  stored _ sub := sub.qos ≤ 2

/-- Every QoS that the broker holds, or has handed to a session, is at most 2. -/
def QosBounded (b : Broker α) : Prop :=
  qosLevels.Holds b

theorem qosLevels_closed : qosLevels.Closed where
  plain sid packet hplain := by
    change packet.QosBounded
    cases packet <;> trivial
  replay _ _ _ _ _ _ _ hretained := hretained
  downgraded _ _ _ _ _ _ hqos := hqos.le
  forwarded _ _ _ _ _ := trivial
  outgoing _ _ _ _ _ _ := le_rfl

/-- A turn that handles no SUBSCRIBE with a requested QoS above 2, and no PUBLISH
with such a QoS that is to be retained. -/
def NoInvalidQos (env : Env α) (n : Runtime α) : Event → Prop
  | .turn sid =>
      (∀ sub, Subscribes env n sid sub → ∀ filter ∈ sub.filters, filter.requestedQos ≤ 2) ∧
      ∀ pub, Publishes env n sid pub → pub.retain = true → pub.payload ≠ [] → pub.qos ≤ 2
  | _ => True

theorem qosLevels_suback {filters : List SubscribePacket.Filter} {codes : List SubackCode}
    (hfilters : ∀ filter ∈ filters, filter.requestedQos ≤ 2)
    (hcodes : List.Forall₂ SubackCode.Answers filters codes) :
    ∀ code ∈ codes, code.QosBounded := by
  induction hcodes with
  | nil => exact nofun
  | @cons filter code filters codes hcode _ ih =>
      obtain ⟨hfilter, hrest⟩ := List.forall_mem_cons.mp hfilters
      refine List.forall_mem_cons.mpr ⟨?_, ih hrest⟩
      rcases hcode with rfl | rfl
      · exact hfilter
      · trivial

theorem qosLevels_publish {pub : PublishPacket}
    (hretained : pub.retain = true → pub.payload ≠ [] → pub.qos ≤ 2) : qosLevels.Admits pub where
  qos0 _ _ _ := Nat.zero_le 2
  qos1 _ _ _ _ := one_le_two
  qos2 hqos := hqos.le
  retained hretain := by
    change (Session.retainedMessage pub).qos ≤ 2
    unfold Session.retainedMessage
    -- An empty payload clears the topic, whatever the QoS of the PUBLISH.
    split_ifs with hempty
    · exact Nat.zero_le 2
    · exact hretained hretain hempty

theorem NoInvalidQos.admitsTurn {env : Env α} {n : Runtime α} {sid : SessionId}
    (h : NoInvalidQos env n (.turn sid)) : qosLevels.AdmitsTurn env n sid where
  publish pub hpub := qosLevels_publish (h.2 pub hpub.1)
  subscribe filter hgrant := by
    obtain ⟨sub, before, behind, _, hsub, hfilters, _⟩ := hgrant
    have hqos : filter.requestedQos ≤ 2 := by
      refine h.1 sub hsub filter ?_
      rw [hfilters]
      exact List.mem_append_right before List.mem_cons_self
    exact ⟨hqos, fun _ => hqos⟩
  suback sub hsub _ hcodes := qosLevels_suback (h.1 sub hsub) hcodes
  connect _ _ _ _ hstored := hstored

/-- In every run whose packets bring in no QoS above 2, the broker holds and
hands over none. -/
theorem qos_levels_bounded (env : Env α) {n : Runtime α}
    (hn : ((brokerSystem env).restrict (NoInvalidQos env)).Reachable n) :
    QosBounded n.toBroker := by
  refine hn.invariant (P := fun n => QosBounded n.toBroker) ?_ ?_
  · rintro _ ⟨auth, rfl⟩
    exact .start qosLevels auth
  · intro n e h henabled
    refine h.step qosLevels_closed ?_
    rintro sid rfl
    exact henabled.2.admitsTurn

/-! ## Sample runs -/

section Samples

variable {env : Env α} {n : Runtime α} {sid : SessionId}

theorem noInvalidQos_of_unconnected (h : (n.sessions sid).connected = false) :
    NoInvalidQos env n (.turn sid) := by
  constructor
  · rintro sub ⟨hconn, _⟩
    rw [h] at hconn
    cases hconn
  · rintro pub ⟨hconn, _⟩
    rw [h] at hconn
    cases hconn

theorem noInvalidQos_of_subscribe {hdr : FixedHeader} {body rest : Bytes} {sub : SubscribePacket}
    (hnext : NextPacket env n sid hdr body) (htype : hdr.type = some .subscribe)
    (hparse : SubscribePacket.parse body = .ok (sub, rest))
    (hfilters : ∀ filter ∈ sub.filters, filter.requestedQos ≤ 2) :
    NoInvalidQos env n (.turn sid) := by
  constructor
  · rintro sub' ⟨_, hdr', body', rest', hnext', _, hparse'⟩
    rw [(hnext'.unique hnext).2, hparse] at hparse'
    rw [← (Prod.mk.inj (Except.ok.inj hparse')).1]
    exact hfilters
  · rintro pub ⟨_, hdr', body', rest', hnext', htype', _⟩
    rw [(hnext'.unique hnext).1, htype] at htype'
    cases htype'

theorem noInvalidQos_of_publish {hdr : FixedHeader} {body rest : Bytes} {pub : PublishPacket}
    (hnext : NextPacket env n sid hdr body) (htype : hdr.type = some .publish)
    (hparse : PublishPacket.parse hdr body = .ok (pub, rest)) (hqos : pub.qos ≤ 2) :
    NoInvalidQos env n (.turn sid) := by
  constructor
  · rintro sub ⟨_, hdr', body', rest', hnext', htype', _⟩
    rw [(hnext'.unique hnext).1, htype] at htype'
    cases htype'
  · rintro pub' ⟨_, hdr', body', rest', hnext', _, hparse'⟩ _ _
    rw [(hnext'.unique hnext).1, (hnext'.unique hnext).2, hparse] at hparse'
    rw [← (Prod.mk.inj (Except.ok.inj hparse')).1]
    exact hqos

end Samples

/-- A persistent client subscribes to a topic, leaves a retained message there
and subscribes again. -/
def retainedEvents (qos : Nat) : List Event :=
  [.accept [0x69],
    .read 0 (connectBytes false [0x63] ++ subscribeBytes 1 [0x74] (UInt8.ofNat qos) ++
      (OutPacket.publish [0x74] [0x6d] qos true false 7).bytes ++
      subscribeBytes 2 [0x74] (UInt8.ofNat qos)),
    .turn 0, .turn 0, .turn 0, .turn 0]

def retainedState (qos count : Nat) : Runtime Unit :=
  (brokerSystem defaultEnv).after { auth := () } ((retainedEvents qos).take count)

/-- With QoS 1 the client gets QoS 1 granted, and the retained message with it. -/
theorem retained_message_bounded :
    QosBounded (retainedState 1 6).toBroker ∧
      ⟨0, .publish [0x74] [0x6d] 1 true false 0, true⟩ ∈ (retainedState 1 6).history.handed := by
  have hconnect : NoInvalidQos defaultEnv (retainedState 1 2) (.turn 0) :=
    noInvalidQos_of_unconnected (by decide +kernel)
  have hfirst : NoInvalidQos defaultEnv (retainedState 1 3) (.turn 0) := by
    have hnext : NextPacket defaultEnv (retainedState 1 3) 0 _ _ :=
      .of_extract (subscribeBytes 1 [0x74] 1) (by decide +kernel) rfl
    exact noInvalidQos_of_subscribe hnext rfl rfl (by decide)
  have hpublish : NoInvalidQos defaultEnv (retainedState 1 4) (.turn 0) := by
    have hnext : NextPacket defaultEnv (retainedState 1 4) 0 _ _ :=
      .of_extract (OutPacket.publish [0x74] [0x6d] 1 true false 7).bytes (by decide +kernel) rfl
    exact noInvalidQos_of_publish hnext rfl rfl (by decide)
  have hsecond : NoInvalidQos defaultEnv (retainedState 1 5) (.turn 0) := by
    have hnext : NextPacket defaultEnv (retainedState 1 5) 0 _ _ :=
      .of_extract (subscribeBytes 2 [0x74] 1) (by decide +kernel) rfl
    exact noInvalidQos_of_subscribe hnext rfl rfl (by decide)
  refine ⟨qos_levels_bounded defaultEnv ?_, by decide +kernel⟩
  refine .of_allowed ⟨(), rfl⟩ ⟨⟨⟨rfl, rfl, trivial⟩, trivial⟩, ⟨⟨rfl, rfl, rfl, ?_, ?_⟩, trivial⟩,
    ⟨⟨?_, ?_⟩, hconnect⟩, ⟨⟨?_, ?_⟩, hfirst⟩, ⟨⟨?_, ?_⟩, hpublish⟩, ⟨⟨?_, ?_⟩, hsecond⟩,
    trivial⟩ <;> decide +kernel

/-- With QoS 3 the value is in the tree, in the stored subscriptions and in the
retained message, and it goes out in a SUBACK and in a PUBLISH. -/
theorem qos_three_enters :
    let n := retainedState 3 6
    (brokerSystem defaultEnv).Reachable n ∧
      n.tree.root.subscribersAt (TopicTree.filterPath [0x74]) = [⟨0, 3⟩] ∧
      n.subManager.getClientSubs [0x63] = [⟨[0x74], 3⟩] ∧
      n.tree.getAllRetained = [([0x74], ⟨[0x6d], 3⟩)] ∧
      ⟨0, .suback 1 [.granted 3], true⟩ ∈ n.history.handed ∧
      ⟨0, .publish [0x74] [0x6d] 3 true false 0, true⟩ ∈ n.history.handed := by
  intro n
  have hn : (brokerSystem defaultEnv).Reachable n := by
    refine .of_allowed ⟨(), rfl⟩ ⟨⟨rfl, rfl, trivial⟩, ⟨rfl, rfl, rfl, ?_, ?_⟩, ⟨?_, ?_⟩, ⟨?_, ?_⟩,
      ⟨?_, ?_⟩, ⟨?_, ?_⟩, trivial⟩ <;> decide +kernel
  refine ⟨hn, ?_, ?_, ?_, ?_, ?_⟩ <;> decide +kernel

end JellyBroker
