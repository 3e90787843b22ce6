import JellyBroker.Broker.Answers
import JellyBroker.Broker.StoredSubscriptions
import JellyBroker.Packet.Exactness
/-!
# The return codes of a SUBACK

`handle_subscribe` collects one return code per filter and sends them in one SUBACK.
A code says what the turn of the loop for its filter has done to the topic tree and to
the stored subscriptions.  A session that is closed on the way may lose what it was
granted, and gets no SUBACK.
-/

namespace JellyBroker

open JellyBroker.Packet JellyBroker.Topic

variable {α : Type}

def recordedQos (b : Broker α) (clientId filter : Bytes) : List Nat :=
  ((b.subManager.getClientSubs clientId).filter fun sub => sub.topicFilter = filter).map (·.qos)

/-- The broker after the turns of the loop for some filters. -/
def Session.afterFilters (env : Env α) (sid : SessionId) (filters : List SubscribePacket.Filter)
    (b : Broker α) : Broker α :=
  filters.foldl (fun b filter => (Session.subscribeTo env sid filter b).1) b

/-- The return code is true of the turn that gave it. -/
structure Truthful (sid : SessionId) (filter : SubscribePacket.Filter) (code : SubackCode)
    (b b' : Broker α) : Prop where
  refused : code.code = 0x80 → b'.tree = b.tree ∧ b'.subManager = b.subManager
  held : code.code ≠ 0x80 →
    entryQos sid b'.tree (TopicTree.filterPath filter.topicFilter) = [code.code.toNat]
  recorded : code.code ≠ 0x80 → (b'.sessions sid).cleanSession = false →
    recordedQos b' (b'.sessions sid).clientId filter.topicFilter = [code.code.toNat]

/-! ## Names are stored once -/

def DistinctNames (subs : List Subscription) : Prop := (subs.map (·.topicFilter)).Nodup

theorem distinctNames_nil : DistinctNames [] := List.nodup_nil

theorem names_addTo (filter : Bytes) (qos : Nat) (subs : List Subscription) :
    (SubscriptionManager.addTo filter qos subs).map (·.topicFilter) =
      if filter ∈ subs.map (·.topicFilter) then subs.map (·.topicFilter)
      else subs.map (·.topicFilter) ++ [filter] := by
  induction subs with
  | nil => rfl
  | cons old rest ih =>
      unfold SubscriptionManager.addTo
      by_cases hname : old.topicFilter = filter
      · simp [hname]
      · rw [if_neg hname, List.map_cons, List.map_cons, ih]
        simp only [List.mem_cons, Ne.symm hname, false_or]
        split_ifs
        · rfl
        · rfl

theorem mem_names_addTo {filter name : Bytes} {qos : Nat} {subs : List Subscription} :
    name ∈ (SubscriptionManager.addTo filter qos subs).map (·.topicFilter) ↔
      name ∈ subs.map (·.topicFilter) ∨ name = filter := by
  rw [names_addTo]
  split_ifs with hstored
  · refine ⟨Or.inl, ?_⟩
    rintro (hname | rfl)
    · exact hname
    · exact hstored
  · rw [List.mem_append, List.mem_singleton]

theorem DistinctNames.addTo {subs : List Subscription} (h : DistinctNames subs) (filter : Bytes)
    (qos : Nat) : DistinctNames (SubscriptionManager.addTo filter qos subs) := by
  unfold DistinctNames
  rw [names_addTo]
  split_ifs with hname
  · exact h
  · rw [List.nodup_append]
    refine ⟨h, List.nodup_singleton filter, ?_⟩
    intro name hmem other hother heq
    rw [heq, List.mem_singleton.mp hother] at hmem
    exact hname hmem

theorem DistinctNames.filter {subs : List Subscription} (h : DistinctNames subs)
    (keep : Subscription → Bool) : DistinctNames (subs.filter keep) :=
  h.sublist (List.filter_sublist.map _)

theorem filter_addTo {subs : List Subscription} (h : DistinctNames subs) (filter : Bytes)
    (qos : Nat) :
    ((SubscriptionManager.addTo filter qos subs).filter fun sub => sub.topicFilter = filter).map
      (·.qos) = [qos] := by
  induction subs with
  | nil => simp [SubscriptionManager.addTo]
  | cons old rest ih =>
      obtain ⟨hnew, hrest⟩ := List.nodup_cons.mp h
      unfold SubscriptionManager.addTo
      split_ifs with hname
      · have hnone : rest.filter (fun sub => sub.topicFilter = filter) = [] := by
          rw [List.filter_eq_nil_iff]
          intro sub hsub hsame
          rw [decide_eq_true_eq] at hsame
          apply hnew
          change old.topicFilter ∈ _
          rw [hname, ← hsame]
          exact List.mem_map_of_mem hsub
        simp [hname, hnone]
      · simp only [List.filter_cons, hname, decide_false, Bool.false_eq_true, if_false]
        exact ih hrest

theorem distinctNames_reachable {env : Env α} {n : Runtime α}
    (hn : (brokerSystem env).Reachable n) : StoresAll DistinctNames n.toBroker := by
  refine StoresAll.reachable distinctNames_nil ?_ (fun _ _ h => h.filter _) hn
  intro b sid filter _ h
  exact h.recordSubscription fun _ => (h _).addTo _ _

/-! ## One turn of the loop -/

/-- The session is connected only if it was before, and then the subscriptions and who
the session is are as before. -/
structure KeepsTopics (sid : SessionId) (b b' : Broker α) : Prop where
  stays : StaysUnconnected sid b b'
  tree : (b'.sessions sid).connected = true → b'.tree = b.tree
  subManager : (b'.sessions sid).connected = true → b'.subManager = b.subManager
  clientId : (b'.sessions sid).clientId = (b.sessions sid).clientId
  cleanSession : (b'.sessions sid).cleanSession = (b.sessions sid).cleanSession

namespace KeepsTopics

variable {sid : SessionId} {b b' : Broker α}

theorem of_same (hsessions : b'.sessions = b.sessions) (htree : b'.tree = b.tree)
    (hstored : b'.subManager = b.subManager) : KeepsTopics sid b b' where
  stays hidle := by
    rw [hsessions]
    exact hidle
  tree _ := htree
  subManager _ := hstored
  clientId := by rw [hsessions]
  cleanSession := by rw [hsessions]

theorem connected_of (h : KeepsTopics sid b b') (hopen : (b'.sessions sid).connected = true) :
    (b.sessions sid).connected = true := by
  by_contra hidle
  rw [h.stays (Bool.eq_false_iff.mpr hidle)] at hopen
  cases hopen

theorem trans {b'' : Broker α} (h : KeepsTopics sid b b') (h' : KeepsTopics sid b' b'') :
    KeepsTopics sid b b'' where
  stays hidle := h'.stays (h.stays hidle)
  tree hopen := (h'.tree hopen).trans (h.tree (h'.connected_of hopen))
  subManager hopen := (h'.subManager hopen).trans (h.subManager (h'.connected_of hopen))
  clientId := h'.clientId.trans h.clientId
  cleanSession := h'.cleanSession.trans h.cleanSession

theorem modifySession {change : Session → Session} (hplumbing : Plumbing change) (b : Broker α)
    (x : SessionId) : KeepsTopics sid b (b.modifySession x change) where
  stays := staysUnconnected_modifySession b x change fun _ s hs =>
    (hplumbing.connected s).trans hs
  tree _ := rfl
  subManager _ := rfl
  clientId := by
    by_cases heq : sid = x
    · rw [heq, Broker.sessions_modifySession_self, hplumbing.clientId]
    · rw [Broker.sessions_modifySession_of_ne heq]
  cleanSession := by
    by_cases heq : sid = x
    · rw [heq, Broker.sessions_modifySession_self, hplumbing.cleanSession]
    · rw [Broker.sessions_modifySession_of_ne heq]

theorem close (sid : SessionId) (b : Broker α) :
    KeepsTopics sid b (Session.close false sid b) where
  stays _ := Session.connected_close sid b
  tree hopen := by
    rw [Session.connected_close] at hopen
    cases hopen
  subManager hopen := by
    rw [Session.connected_close] at hopen
    cases hopen
  clientId := clientId_close sid b sid
  cleanSession := cleanSession_close sid b sid

theorem deliver (env : Env α) (sid : SessionId) (packet : OutPacket) (b : Broker α) :
    KeepsTopics sid b (Session.deliver env sid packet b) := by
  have hnoted : KeepsTopics sid b (b.observe (.noteHanded
      ⟨sid, packet, Session.accepts env.cfg (b.sessions sid)⟩)) := .of_same rfl rfl rfl
  unfold Session.deliver
  dsimp only
  split_ifs
  · exact hnoted
  · exact hnoted.trans (.close sid _)
  · exact hnoted.trans (.modifySession (plumbing_enqueue packet) _ sid)

theorem frame (env : Env α) (sid : SessionId) :
    SessionFrame env sid (· = sid) (KeepsTopics (α := α) sid) where
  refl _ := .of_same rfl rfl rfl
  trans := trans
  deliver target packet b htarget := by
    rw [htarget]
    exact .deliver env sid packet b
  self := rfl
  counters _ _ := .of_same rfl rfl rfl
  acl _ _ _ _ := .of_same rfl rfl rfl
  close b _ := .close sid b
  keepalive b := .modifySession plumbing_startKeepalive b sid

theorem notes (sid : SessionId) : NotesFree (KeepsTopics (α := α) sid) where
  noteSent _ _ := .of_same rfl rfl rfl
  noteSettled _ _ := .of_same rfl rfl rfl

end KeepsTopics

structure SingleEntries (sid : SessionId) (b : Broker α) : Prop where
  tree : ∀ path, (entryQos sid b.tree path).length ≤ 1
  stores : StoresAll DistinctNames b

theorem code_granted {qos : Nat} (h : qos ≤ 3) :
    (SubackCode.granted qos).code ≠ 0x80 ∧ (SubackCode.granted qos).code.toNat = qos := by
  interval_cases qos
  all_goals decide

section

variable {env : Env α} {sid : SessionId} {filter : SubscribePacket.Filter} {b b' : Broker α}

theorem truthful_failure (htree : b'.tree = b.tree) (hstored : b'.subManager = b.subManager) :
    Truthful sid filter .failure b b' where
  refused _ := ⟨htree, hstored⟩
  held hcode := absurd rfl hcode
  recorded hcode := absurd rfl hcode

theorem SingleEntries.of_same (h : SingleEntries sid b) (htree : b'.tree = b.tree)
    (hstored : b'.subManager = b.subManager) : SingleEntries sid b' where
  tree path := by
    rw [htree]
    exact h.tree path
  stores := h.stores.of_same hstored

theorem SingleEntries.recordSubscription (h : SingleEntries sid b)
    (filter : SubscribePacket.Filter) :
    SingleEntries sid (JellyBroker.recordSubscription sid filter b) where
  tree path := by
    change (entryQos sid (b.tree.subscribe filter.topicFilter ⟨sid, filter.requestedQos⟩)
      path).length ≤ 1
    rw [entryQos_subscribe]
    split_ifs
    · exact length_setFirst_le (h.tree path)
    · exact h.tree path
  stores := h.stores.recordSubscription fun _ => (h.stores _).addTo _ _

theorem setFirst_of_single {qos : Nat} {values : List Nat} (h : values.length ≤ 1) :
    setFirst qos values = [qos] := by
  rcases values with _ | ⟨old, _ | ⟨_, _⟩⟩
  · rfl
  · rfl
  · simp only [List.length_cons] at h
    omega

/-- A filter that is granted, if the session is still connected once it has the
retained messages. -/
theorem truthful_granted (hqos : filter.requestedQos ≤ 3) (hsingle : SingleEntries sid b)
    (hkeeps : KeepsTopics sid (recordSubscription sid filter b) b')
    (hopen : (b'.sessions sid).connected = true) :
    Truthful sid filter (.granted filter.requestedQos) b b' where
  refused hcode := absurd hcode (code_granted hqos).1
  held _ := by
    rw [hkeeps.tree hopen, (code_granted hqos).2]
    change entryQos sid (b.tree.subscribe filter.topicFilter ⟨sid, filter.requestedQos⟩) _ = _
    rw [entryQos_subscribe, if_pos ⟨rfl, rfl⟩]
    exact setFirst_of_single (hsingle.tree _)
  recorded _ hpersistent := by
    have hclean : (b.sessions sid).cleanSession = false :=
      hkeeps.cleanSession.symm.trans hpersistent
    have hid : (b'.sessions sid).clientId = (b.sessions sid).clientId := hkeeps.clientId
    have hstored : (recordSubscription sid filter b).subManager =
        b.subManager.add (b.sessions sid).clientId filter.topicFilter filter.requestedQos := by
      unfold recordSubscription
      dsimp only
      rw [hclean]
      rfl
    unfold recordedQos
    rw [hkeeps.subManager hopen, hstored, hid, SubscriptionManager.getClientSubs_add,
      if_pos rfl, (code_granted hqos).2]
    exact filter_addTo (hsingle.stores _) _ _

/-- Whatever the turn for a filter did, its return code says so. -/
theorem truthful_subscribeTo {code : SubackCode} (hqos : filter.requestedQos ≤ 3)
    (h : Session.subscribeTo env sid filter b = (b', .ok code)) (hsingle : SingleEntries sid b)
    (hopen : (b'.sessions sid).connected = true) :
    Truthful sid filter code b b' ∧ SingleEntries sid b' := by
  have hchecked : SingleEntries sid (accessChecked env sid filter b) := hsingle.of_same rfl rfl
  have hturn := subscribeTo_turn env sid filter b
  rw [h] at hturn
  cases hturn with
  | invalid => exact ⟨truthful_failure rfl rfl, hsingle⟩
  | refused => exact ⟨truthful_failure rfl rfl, hchecked⟩
  | granted =>
      have hkeeps := (KeepsTopics.frame env sid).deliverRetained (KeepsTopics.notes sid)
        filter.topicFilter (recordSubscription sid filter (accessChecked env sid filter b))
      have htruthful := truthful_granted hqos hchecked hkeeps hopen
      have hrecorded := hchecked.recordSubscription filter
      refine ⟨⟨htruthful.refused, htruthful.held, htruthful.recorded⟩, ?_⟩
      exact hrecorded.of_same (hkeeps.tree hopen) (hkeeps.subManager hopen)

end

/-! ## The loop -/

theorem staysUnconnected_subscribeAll (env : Env α) (sid : SessionId) (packetId : UInt16)
    (filters : List SubscribePacket.Filter) (codes : List SubackCode) (b : Broker α) :
    StaysUnconnected sid b (Session.subscribeAll env sid packetId filters codes b).1 := by
  have hframe := (staysUnconnected_frame (α := α) sid).toCoreFrame.session env sid
  exact hframe.subscribeAll (staysUnconnected_tables sid).toNotesFree (fun _ _ _ _ _ => id)
    packetId codes b

theorem truthful_subscribeAll {env : Env α} {sid : SessionId} {packetId : UInt16}
    {filters : List SubscribePacket.Filter} {codes : List SubackCode} {b b' : Broker α}
    (hqos : ∀ filter ∈ filters, filter.requestedQos ≤ 3) (hsingle : SingleEntries sid b)
    (h : Session.subscribeAll env sid packetId filters codes b = (b', none))
    (hopen : (b'.sessions sid).connected = true) :
    ∃ given : List SubackCode, given.length = filters.length ∧
      b' = Session.deliver env sid (.suback packetId (codes ++ given))
        (Session.afterFilters env sid filters b) ∧
      ∀ (i : Nat) filter code, filters[i]? = some filter → given[i]? = some code →
        Truthful sid filter code (Session.afterFilters env sid (filters.take i) b)
          (Session.afterFilters env sid (filters.take (i + 1)) b) := by
  induction filters generalizing codes b with
  | nil =>
      refine ⟨[], rfl, ?_, ?_⟩
      · rw [List.append_nil]
        exact (Prod.mk.inj h).1.symm
      · intro i filter code hfilter
        cases hfilter
  | cons filter rest ih =>
      unfold Session.subscribeAll at h
      rcases hturn : Session.subscribeTo env sid filter b with ⟨b₁, e | code⟩
      · rw [hturn] at h
        cases h
      · rw [hturn] at h
        dsimp only at h
        have hopen₁ : (b₁.sessions sid).connected = true := by
          by_contra hidle
          have hclosed := staysUnconnected_subscribeAll env sid packetId rest (codes ++ [code]) b₁
            (Bool.eq_false_iff.mpr hidle)
          rw [h, hopen] at hclosed
          cases hclosed
        obtain ⟨htruthful, hsingle₁⟩ :=
          truthful_subscribeTo (hqos filter List.mem_cons_self) hturn hsingle hopen₁
        obtain ⟨given, hlength, hlast, hgiven⟩ :=
          ih (fun other hother => hqos other (List.mem_cons_of_mem _ hother)) hsingle₁ h
        have hafter (filters : List SubscribePacket.Filter) :
            Session.afterFilters env sid (filter :: filters) b =
              Session.afterFilters env sid filters b₁ := by
          unfold Session.afterFilters
          rw [List.foldl_cons, hturn]
        refine ⟨code :: given, by rw [List.length_cons, hlength, List.length_cons], ?_, ?_⟩
        · rw [hlast, hafter, List.append_assoc]
          rfl
        · intro i other code' hother hcode
          cases i with
          | zero =>
              cases hother
              cases hcode
              rw [List.take_succ_cons, List.take_zero, hafter]
              exact htruthful
          | succ i =>
              rw [List.take_succ_cons, List.take_succ_cons, hafter, hafter]
              exact hgiven i other code' hother hcode

theorem noAnswer_afterFilters (env : Env α) (sid : SessionId)
    (filters : List SubscribePacket.Filter) (b : Broker α) :
    NoAnswer b (Session.afterFilters env sid filters b) := by
  apply Hands.foldl
  intro b' filter _
  exact noAnswer_subscribeTo env sid filter b'

theorem requestedQos_le {body rest : Bytes} {sub : SubscribePacket}
    (h : SubscribePacket.parse body = .ok (sub, rest)) :
    ∀ filter ∈ sub.filters, filter.requestedQos ≤ 3 := by
  obtain ⟨packetId, filters, _, _, rfl, _⟩ := subscribe_parse_iff.mp h
  intro filter hfilter
  obtain ⟨⟨name, options⟩, _, rfl⟩ := List.mem_map.mp hfilter
  change (options &&& 0x03).toNat ≤ 3
  rw [UInt8.toNat_and]
  exact Nat.and_le_right

/-- A connected session that handles a SUBSCRIBE and is not closed in that turn queues
one SUBACK with one return code per filter.  Each code is true of the turn of the loop
for its filter. -/
theorem suback_truthful (env : Env α) (n : Runtime α) (sid : SessionId)
    (hn : (brokerSystem env).Reachable n) (hconn : (n.sessions sid).connected = true)
    (sub : SubscribePacket) (hnext : (Request.subscribe sub).Next env n sid)
    (hopen : ((n.step env (.turn sid)).sessions sid).connected = true) :
    ∃ (packet : Bytes) (b : Broker α) (codes : List SubackCode),
      b = n.toBroker.observe (.noteHandled sid packet) ∧
      (n.step env (.turn sid)).toBroker = Session.deliver env sid (.suback sub.packetId codes)
        (Session.afterFilters env sid sub.filters b) ∧
      (queued sid n.toBroker (n.step env (.turn sid)).toBroker).filter OutPacket.isAnswer =
        [.suback sub.packetId codes] ∧
      codes.length = sub.filters.length ∧
      ∀ (i : Nat) filter code, sub.filters[i]? = some filter → codes[i]? = some code →
        Truthful sid filter code (Session.afterFilters env sid (sub.filters.take i) b)
          (Session.afterFilters env sid (sub.filters.take (i + 1)) b) := by
  obtain ⟨hdr, body, rest, hnext, htype, hparse⟩ := hnext
  obtain ⟨packet, hturn⟩ := onReadTurn_of_next hnext
  change (n.step env (.turn sid)).toBroker = _ at hturn
  have hsingle : SingleEntries sid (n.toBroker.observe (.noteHandled sid packet)) :=
    ⟨single_reachable hn sid, (distinctNames_reachable hn).of_same rfl⟩
  have hconn' : ((n.toBroker.observe (.noteHandled sid packet)).sessions sid).connected = true :=
    hconn
  have hhandled : Session.dispatch env sid hdr body
      (n.toBroker.observe (.noteHandled sid packet)) =
        Session.subscribeAll env sid sub.packetId sub.filters []
          (n.toBroker.observe (.noteHandled sid packet)) := by
    simp only [Session.dispatch, htype, Session.handleSubscribe, hconn', Bool.not_true,
      Bool.false_eq_true, if_false, hparse]
  rw [hhandled] at hturn
  rcases hloop : Session.subscribeAll env sid sub.packetId sub.filters []
      (n.toBroker.observe (.noteHandled sid packet)) with ⟨b', _ | e⟩
  · rw [hloop] at hturn
    change (n.step env (.turn sid)).toBroker = b' at hturn
    have hopen' : (b'.sessions sid).connected = true := hturn ▸ hopen
    obtain ⟨codes, hlength, hlast, htruthful⟩ :=
      truthful_subscribeAll (requestedQos_le hparse) hsingle hloop hopen'
    rw [List.nil_append] at hlast
    refine ⟨packet, _, codes, rfl, hturn.trans hlast, ?_, hlength, htruthful⟩
    have hnoted : NoAnswer n.toBroker (n.toBroker.observe (.noteHandled sid packet)) :=
      .of_same rfl
    have hbefore := hnoted.trans (noAnswer_afterFilters env sid sub.filters _)
    rw [hturn, hlast]
    refine answers_of_deliver env rfl hbefore (.of_same rfl) ?_
    by_contra hrefused
    have hclosed := connected_deliver_of_refused (Bool.eq_false_iff.mpr hrefused)
      (.suback sub.packetId codes)
    rw [← hlast, hopen'] at hclosed
    cases hclosed
  · rw [hloop] at hturn
    have hclosed := connected_catchException sid b' e
    rw [← hturn] at hclosed
    rw [show ((n.step env (.turn sid)).toBroker.sessions sid).connected = true from hopen]
      at hclosed
    cases hclosed

def repeatedFilters : List (Bytes × UInt8) := [([0x74], 1), ([0x23, 0x61], 0), ([0x74], 2)]

def repeatedState : Runtime Unit :=
  (brokerSystem defaultEnv).after { auth := () }
    [.accept [0x69], .read 0 (connectBytes false [0x63] ++
      OutPacket.wrap .subscribe 2 (Utils.writeUint16 1 ++ repeatedFilters.flatMap filterBytes)),
      .turn 0]

theorem suback_truthful_repeated :
    ∃ codes, (queued 0 repeatedState.toBroker
        (repeatedState.step defaultEnv (.turn 0)).toBroker).filter OutPacket.isAnswer =
          [.suback 1 codes] ∧
      codes = [.granted 1, .failure, .granted 2] := by
  have hreach : (brokerSystem defaultEnv).Reachable repeatedState := by
    refine .of_allowed ⟨(), rfl⟩ ⟨⟨rfl, rfl, trivial⟩, ⟨rfl, rfl, rfl, ?_, ?_⟩, ⟨?_, ?_⟩,
      trivial⟩ <;> decide +kernel
  have hnext : (Request.subscribe ⟨1, repeatedFilters.map requestedFilter⟩).Next defaultEnv
      repeatedState 0 :=
    ⟨_, _, [], .of_extract (OutPacket.wrap .subscribe 2
      (Utils.writeUint16 1 ++ repeatedFilters.flatMap filterBytes)) (by decide +kernel) rfl, rfl,
      rfl⟩
  obtain ⟨_, _, codes, _, _, hqueued, _⟩ := suback_truthful defaultEnv repeatedState 0 hreach
    (by decide +kernel) _ hnext (by decide +kernel)
  refine ⟨codes, hqueued, ?_⟩
  have hcodes : (queued 0 repeatedState.toBroker
      (repeatedState.step defaultEnv (.turn 0)).toBroker).filter OutPacket.isAnswer =
        [.suback 1 [.granted 1, .failure, .granted 2]] := by decide +kernel
  rw [hqueued] at hcodes
  exact (OutPacket.suback.inj (List.cons.inj hcodes).1).2

end JellyBroker
