import JellyBroker.Broker.QosLevels
import JellyBroker.Lib.Past
import JellyBroker.Topic.Lookup
/-!
# Who gets a message

A session is handed a PUBLISH only for a filter that matches its topic and that was
granted with read access, to the session itself or to a persistent session of the same
client id before it.  The filters that a CONNECT restores are not checked again, so in
the second case the access was that of the user who subscribed.
-/

namespace JellyBroker

open JellyBroker.Packet JellyBroker.Topic

variable {α : Type}

/-- A persistent session of the client was granted the filter. -/
def StoredFor (env : Env α) (past : List (Runtime α × Event)) (clientId : Bytes)
    (filter : SubscribePacket.Filter) : Prop :=
  ∃ n sid, (n, .turn sid) ∈ past ∧ GrantsFilter env n sid filter ∧
    (n.sessions sid).clientId = clientId ∧ (n.sessions sid).cleanSession = false

/-- How a session came by a filter: it was granted, or it had been granted to a persistent
session of the client before the CONNECT that restored it. -/
inductive Subscribed (env : Env α) (past : List (Runtime α × Event)) (sid : SessionId)
    (filter : SubscribePacket.Filter) : Prop where
  | granted {n : Runtime α} : (n, .turn sid) ∈ past → GrantsFilter env n sid filter →
      Subscribed env past sid filter
  | restored {n : Runtime α} {conn : ConnectPacket} {before after : List (Runtime α × Event)} :
      past = before ++ (n, .turn sid) :: after → Connects env n sid conn →
      conn.cleanSession = false → StoredFor env before conn.clientId filter →
      Subscribed env past sid filter

section Past

variable {env : Env α} {past : List (Runtime α × Event)} {sid : SessionId}
  {filter : SubscribePacket.Filter}

theorem GrantsFilter.valid {n : Runtime α} (h : GrantsFilter env n sid filter) :
    isValidFilter env.cfg filter.topicFilter = true := by
  obtain ⟨_, _, _, _, _, _, hvalid, _⟩ := h
  exact hvalid

theorem StoredFor.longer {clientId : Bytes} (h : StoredFor env past clientId filter)
    (more : List (Runtime α × Event)) : StoredFor env (past ++ more) clientId filter := by
  obtain ⟨n, sid, hmem, hgrants⟩ := h
  exact ⟨n, sid, List.mem_append_left _ hmem, hgrants⟩

/-- The turn of a CONNECT grants nothing itself. -/
theorem StoredFor.before_connect {n : Runtime α} {conn : ConnectPacket} {clientId : Bytes}
    (h : StoredFor env (past ++ [(n, .turn sid)]) clientId filter)
    (hconnects : Connects env n sid conn) : StoredFor env past clientId filter := by
  obtain ⟨m, sid', hmem, hgrants, hrest⟩ := h
  rcases List.mem_append.mp hmem with hbefore | hlast
  · exact ⟨m, sid', hbefore, hgrants, hrest⟩
  · obtain ⟨rfl, hturn⟩ := Prod.mk.inj (List.mem_singleton.mp hlast)
    obtain rfl := Event.turn.inj hturn
    obtain ⟨_, _, _, _, hsubscribes, _⟩ := hgrants
    have hconn := hsubscribes.1
    rw [hconnects.first] at hconn
    cases hconn

theorem Subscribed.longer (h : Subscribed env past sid filter)
    (more : List (Runtime α × Event)) : Subscribed env (past ++ more) sid filter := by
  cases h with
  | granted hmem hgrants => exact .granted (List.mem_append_left _ hmem) hgrants
  | @restored n conn before after hpast hconnects hclean hstored =>
      have hlonger : past ++ more = before ++ (n, .turn sid) :: (after ++ more) := by
        rw [hpast, List.append_assoc, List.cons_append]
      exact .restored hlonger hconnects hclean hstored

theorem Subscribed.valid (h : Subscribed env past sid filter) :
    isValidFilter env.cfg filter.topicFilter = true := by
  cases h with
  | granted _ hgrants => exact hgrants.valid
  | restored _ _ _ hstored =>
      obtain ⟨_, _, _, hgrants, _⟩ := hstored
      exact hgrants.valid

end Past

/-- The session came by a filter that matches the topic. -/
def MayRead (env : Env α) (past : List (Runtime α × Event)) (sid : SessionId) (topic : Bytes) :
    Prop :=
  ∃ filter, Subscribed env past sid filter ∧ Matches (split filter.topicFilter) (split topic)

def readable (env : Env α) (past : List (Runtime α × Event)) : Content where
  packet sid packet := ∀ topic payload qos retain dup packetId,
    packet = .publish topic payload qos retain dup packetId → MayRead env past sid topic
  retained topic _ := TopicShape (split topic)
  incoming msg := TopicShape (split msg.topic)
  outgoing sid topic _ := MayRead env past sid topic
  entry path entry := ∃ filter, Subscribed env past entry.session filter ∧
    path = TopicTree.filterPath filter.topicFilter ∧ entry.qos = filter.requestedQos
  stored clientId sub := StoredFor env past clientId ⟨sub.topicFilter, sub.qos⟩

section Readable

variable {env : Env α} {past : List (Runtime α × Event)}

theorem mayRead_of_reaches {entry : SubscriberEntry} {topic : Bytes}
    (hshape : TopicShape (split topic)) (h : (readable env past).Reaches entry topic) :
    MayRead env past entry.session topic := by
  obtain ⟨path, hvisited, filter, hfilter, hpath, _⟩ := h
  rw [hpath, TopicTree.filterPath,
    mem_visitedPaths_iff (filterShape_of_valid hfilter.valid) hshape] at hvisited
  exact ⟨filter, hfilter, hvisited⟩

theorem readable_of_mayRead {sid : SessionId} {topic : Bytes} (h : MayRead env past sid topic)
    (payload : Bytes) (qos : Nat) (retain dup : Bool) (packetId : UInt16) :
    (readable env past).packet sid (.publish topic payload qos retain dup packetId) := by
  intro topic' payload' qos' retain' dup' packetId' heq
  rw [← (OutPacket.publish.inj heq).1]
  exact h

theorem closed_readable (env : Env α) (past : List (Runtime α × Event)) :
    (readable env past).Closed where
  plain sid packet hplain topic payload qos retain dup packetId hpacket := by
    rw [hpacket] at hplain
    exact hplain.elim
  replay sid qos filter topic msg hentry hmatches hshape := by
    obtain ⟨granted, hgranted, hpath, _⟩ := hentry
    have hsame : split filter = split granted.topicFilter :=
      map_ofFilterSegment_inj hpath
    have hfilter := filterShape_of_valid hgranted.valid
    rw [topicMatches, hsame, matchesFrom_iff hfilter hshape] at hmatches
    exact readable_of_mayRead ⟨granted, hgranted, hmatches.1⟩ _ _ _ _ _
  downgraded entry msg qos hentry hshape _ _ :=
    readable_of_mayRead (mayRead_of_reaches hshape hentry) _ _ _ _ _
  forwarded entry msg hentry hshape _ := mayRead_of_reaches hshape hentry
  outgoing sid topic payload dup packetId hread := readable_of_mayRead hread _ _ _ _ _

theorem admits_readable {pub : PublishPacket} (hvalid : isValidTopic env.cfg pub.topic = true) :
    (readable env past).Admits pub where
  qos0 _ entry hentry :=
    readable_of_mayRead (mayRead_of_reaches (topicShape_of_valid hvalid) hentry) _ _ _ _ _
  qos1 _ entry hentry packetId :=
    readable_of_mayRead (mayRead_of_reaches (topicShape_of_valid hvalid) hentry) _ _ _ _ _
  qos2 _ := topicShape_of_valid hvalid
  retained _ := by
    change TopicShape (split (withoutSeparator pub.topic))
    rw [split_withoutSeparator hvalid]
    exact topicShape_of_valid hvalid

theorem readable_le (env : Env α) (past more : List (Runtime α × Event)) :
    (readable env past).Le (readable env (past ++ more)) := by
  have hread {sid : SessionId} {topic : Bytes} (h : MayRead env past sid topic) :
      MayRead env (past ++ more) sid topic := by
    obtain ⟨filter, hfilter, hmatches⟩ := h
    exact ⟨filter, hfilter.longer more, hmatches⟩
  constructor
  · intro sid packet h topic payload qos retain dup packetId heq
    exact hread (h topic payload qos retain dup packetId heq)
  · exact fun topic msg => id
  · exact fun msg => id
  · exact fun sid topic payload => hread
  · rintro path entry ⟨filter, hfilter, hentry⟩
    exact ⟨filter, hfilter.longer more, hentry⟩
  · exact fun clientId sub h => h.longer more

end Readable

theorem holds_readable {env : Env α} {t : Runtime α × List (Runtime α × Event)}
    (h : (brokerSystem env).recorded.Reachable t) : (readable env t.2).Holds t.1.toBroker := by
  refine h.of_past (P := fun past n => (readable env past).Holds n.toBroker) ?_ ?_
  · rintro _ ⟨auth, rfl⟩
    exact Content.Holds.start _ auth
  · intro past n e _ hholds henabled
    apply (hholds.mono (readable_le env past [(n, e)])).step (closed_readable env _)
    rintro sid rfl
    have hlast : (n, .turn sid) ∈ past ++ [(n, .turn sid)] :=
      List.mem_append_right _ List.mem_cons_self
    constructor
    · intro pub haccepts
      exact admits_readable haccepts.2.1
    · intro filter hgrants
      refine ⟨⟨filter, .granted hlast hgrants, rfl, rfl⟩, ?_⟩
      intro hclean
      exact ⟨n, sid, hlast, hgrants, rfl, hclean⟩
    · intro sub _ codes _ topic payload qos retain dup packetId heq
      cases heq
    · intro conn hconnects hclean sub hstored
      exact ⟨_, .restored rfl hconnects hclean (hstored.before_connect hconnects), rfl, rfl⟩

/-- Every PUBLISH that was handed to a session has a topic whose segments are matched by those
of a filter that was granted to the session, or that had been granted to a persistent session
of the same client id before the session connected. -/
theorem handed_publish_authorised (env : Env α) {n : Runtime α}
    {past : List (Runtime α × Event)} (h : (brokerSystem env).recorded.Reachable (n, past))
    {sid : SessionId} {accepted : Bool} {topic payload : Bytes} {qos : Nat} {retain dup : Bool}
    {packetId : UInt16}
    (hhanded : ⟨sid, .publish topic payload qos retain dup packetId, accepted⟩ ∈
      n.history.handed) :
    ∃ filter, Subscribed env past sid filter ∧
      Matches (split filter.topicFilter) (split topic) :=
  (holds_readable h).handed _ hhanded topic payload qos retain dup packetId rfl

/-- The retained message of a sample run. -/
theorem handed_publish_authorised_sample :
    let t := (brokerSystem defaultEnv).recorded.after ({ auth := () }, []) (retainedEvents 1)
    ∃ filter, Subscribed defaultEnv t.2 0 filter ∧
      Matches (split filter.topicFilter) (split [0x74]) := by
  intro t
  have ht : (brokerSystem defaultEnv).recorded.Reachable t := by
    refine .of_allowed ⟨⟨(), rfl⟩, rfl⟩ ⟨⟨rfl, rfl, trivial⟩, ⟨rfl, rfl, rfl, ?_, ?_⟩, ⟨?_, ?_⟩,
      ⟨?_, ?_⟩, ⟨?_, ?_⟩, ⟨?_, ?_⟩, trivial⟩ <;> decide +kernel
  have hhanded : ⟨0, .publish [0x74] [0x6d] 1 true false 0, true⟩ ∈ t.1.history.handed := by
    decide +kernel
  exact handed_publish_authorised defaultEnv ht hhanded

end JellyBroker
