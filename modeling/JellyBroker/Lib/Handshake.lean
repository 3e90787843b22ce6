import Mathlib.Tactic
/-!
# Acknowledged delivery over FIFO channels

A sender keeps every message under an id until the receiver has acknowledged it
or the sender gives it up, and may send it again at any time.  A free id is used
again for another message.  A message is either offered, which takes one
acknowledgement, or published, which takes two: the receiver holds the id of a
published message, and takes no other message under it, until it is told to
release the id.

A message is known by the sender's step that took it in.  These numbers are not
part of the protocol: they say what was accepted.
-/

namespace JellyBroker.Lib.Handshake

variable {ι : Type}

/-! ## The receiver -/

inductive Packet (ι : Type) where
  /-- A message that is sent once and not acknowledged. -/
  | plain (number : Nat)
  | offer (id : ι) (number : Nat)
  | publish (id : ι) (number : Nat)
  | release (id : ι)
  deriving DecidableEq

inductive Answer (ι : Type) where
  | received (id : ι)
  | completed (id : ι)
  deriving DecidableEq

def Packet.id? : Packet ι → Option ι
  | plain _ => none
  | offer id _ | publish id _ | release id => some id

def Answer.id : Answer ι → ι
  | received id | completed id => id

def Packet.answer : Packet ι → Option (Answer ι)
  | plain _ => none
  | offer id _ => some (.completed id)
  | publish id _ => some (.received id)
  | release id => some (.completed id)

theorem Packet.id?_of_answer {packet : Packet ι} {answer : Answer ι}
    (h : packet.answer = some answer) : packet.id? = some answer.id := by
  cases packet <;> cases h <;> rfl

structure Receiver (ι : Type) where
  held : Finset ι := ∅
  /-- The messages accepted so far. -/
  accepted : List Nat := []

variable [DecidableEq ι]

namespace Receiver

def receive (receiver : Receiver ι) (packet : Packet ι) : Receiver ι :=
  match packet with
  | .plain number | .offer _ number =>
      { receiver with accepted := receiver.accepted ++ [number] }
  | .publish id number =>
      if id ∈ receiver.held then receiver
      else
        { held := insert id receiver.held
          accepted := receiver.accepted ++ [number] }
  | .release id => { receiver with held := receiver.held.erase id }

theorem accepted_prefix_receive (receiver : Receiver ι) (packet : Packet ι) :
    receiver.accepted <+: (receiver.receive packet).accepted := by
  cases packet with
  | plain number => exact List.prefix_append _ _
  | offer id number => exact List.prefix_append _ _
  | publish id number =>
      simp only [receive]
      split_ifs
      · exact List.prefix_refl _
      · exact List.prefix_append _ _
  | release id => exact List.prefix_refl _

theorem id?_of_mem_held {receiver : Receiver ι} {packet : Packet ι} {id : ι}
    (hheld : id ∈ (receiver.receive packet).held) (hold : id ∉ receiver.held) :
    packet.id? = some id := by
  cases packet with
  | plain number => exact absurd hheld hold
  | offer id' number => exact absurd hheld hold
  | publish id' number =>
      simp only [receive] at hheld
      split_ifs at hheld
      · exact absurd hheld hold
      · have heq : id = id' := (Finset.mem_insert.mp hheld).resolve_right hold
        rw [heq]
        rfl
  | release id' => exact absurd (Finset.mem_of_mem_erase hheld) hold

theorem accepted_prefix_foldl (receiver : Receiver ι) (packets : List (Packet ι)) :
    receiver.accepted <+: (packets.foldl receive receiver).accepted := by
  induction packets generalizing receiver with
  | nil => exact List.prefix_refl _
  | cons packet rest ih => exact (receiver.accepted_prefix_receive packet).trans (ih _)

end Receiver

/-! ## The channels -/

/-- The two channels and the receiver, with the message that each id was last
given to. -/
structure Channel (ι : Type) where
  owner : ι → Nat := fun _ => 0
  /-- The steps that the sender has taken. -/
  steps : Nat := 0
  down : List (Packet ι) := []
  up : List (Answer ι) := []
  receiver : Receiver ι := {}

namespace Channel

def receive (channel : Channel ι) : Channel ι :=
  match channel.down with
  | [] => channel
  | packet :: rest =>
      { channel with
        down := rest
        up := channel.up ++ packet.answer.toList
        receiver := channel.receiver.receive packet }

/-- The receiver as it will be when all packets on the way have arrived. -/
def drained (channel : Channel ι) : Receiver ι :=
  channel.down.foldl Receiver.receive channel.receiver

theorem accepted_prefix_drained (channel : Channel ι) :
    channel.receiver.accepted <+: channel.drained.accepted :=
  channel.receiver.accepted_prefix_foldl channel.down

theorem drained_receive (channel : Channel ι) : channel.receive.drained = channel.drained := by
  cases hdown : channel.down with
  | nil => simp only [receive, hdown]
  | cons packet rest => simp only [receive, drained, hdown, List.foldl_cons]

/-- The id occurs neither in the channels nor at the receiver. -/
structure Unused (channel : Channel ι) (id : ι) : Prop where
  down : ∀ packet ∈ channel.down, packet.id? ≠ some id
  up : ∀ answer ∈ channel.up, answer.id ≠ id
  held : id ∉ channel.receiver.held

end Channel

/-! ## The sender -/

inductive Phase where
  | offered
  | published
  | released
  deriving DecidableEq

def Phase.packet (phase : Phase) (id : ι) (number : Nat) : Packet ι :=
  match phase with
  | offered => .offer id number
  | published => .publish id number
  | released => .release id

structure Link (ι : Type) extends Channel ι where
  phase : ι → Option Phase := fun _ => none

namespace Link

def tick (link : Link ι) : Link ι := { link with steps := link.steps + 1 }

def plain (link : Link ι) : Link ι :=
  { link.tick with down := link.down ++ [.plain link.steps] }

def start (first : Phase) (id : ι) (link : Link ι) : Link ι :=
  { link.tick with
    phase := Function.update link.phase id (some first)
    owner := Function.update link.owner id link.steps }

def send (phase : Phase) (id : ι) (link : Link ι) : Link ι :=
  { link with down := link.down ++ [phase.packet id (link.owner id)] }

def setPhase (id : ι) (phase : Option Phase) (link : Link ι) : Link ι :=
  { link with phase := Function.update link.phase id phase }

def setUp (up : List (Answer ι)) (link : Link ι) : Link ι := { link with up }

def receive (link : Link ι) : Link ι := { link with toChannel := link.toChannel.receive }

theorem phase_start_self (first : Phase) (id : ι) (link : Link ι) :
    (link.start first id).phase id = some first := Function.update_self _ _ _

theorem owner_start_self (first : Phase) (id : ι) (link : Link ι) :
    (link.start first id).owner id = link.steps := Function.update_self _ _ _

theorem phase_start_of_ne {id other : ι} (h : other ≠ id) (first : Phase) (link : Link ι) :
    (link.start first id).phase other = link.phase other := Function.update_of_ne h _ _

theorem owner_start_of_ne {id other : ι} (h : other ≠ id) (first : Phase) (link : Link ι) :
    (link.start first id).owner other = link.owner other := Function.update_of_ne h _ _

theorem phase_setPhase_self (id : ι) (phase : Option Phase) (link : Link ι) :
    (link.setPhase id phase).phase id = phase := Function.update_self _ _ _

theorem phase_setPhase_of_ne {id other : ι} (h : other ≠ id) (phase : Option Phase)
    (link : Link ι) : (link.setPhase id phase).phase other = link.phase other :=
  Function.update_of_ne h _ _

theorem present_of_setPhase {id other : ι} {phase : Option Phase} {link : Link ι}
    (hkept : link.phase id = none → phase = none)
    (h : (link.setPhase id phase).phase other ≠ none) : link.phase other ≠ none := by
  by_cases hid : other = id
  · rw [hid, phase_setPhase_self] at h
    rw [hid]
    exact fun hnone => h (hkept hnone)
  · rwa [phase_setPhase_of_ne hid] at h

end Link

/-- What can happen.  `first` is the phase in which a message starts, and
`fresh` a condition on the free id that it gets.  The sender may forget a
message at any time. -/
inductive Step (first : Phase) (fresh : Link ι → ι → Prop) : Link ι → Link ι → Prop
  | tick (link : Link ι) : Step first fresh link link.tick
  | plain (link : Link ι) : Step first fresh link link.plain
  | start (link : Link ι) (id : ι) (hfree : link.phase id = none) (hfresh : fresh link id) :
      Step first fresh link (link.start first id)
  | send (link : Link ι) (id : ι) (phase : Phase) (hphase : link.phase id = some phase) :
      Step first fresh link (link.send phase id)
  | received (link : Link ι) (id : ι) (hup : .received id ∈ link.up)
      (hphase : link.phase id ≠ none) :
      Step first fresh link (link.setPhase id (some .released))
  | forget (link : Link ι) (id : ι) : Step first fresh link (link.setPhase id none)
  | next (link : Link ι) : Step first fresh link (link.setUp link.up.tail)
  | receive (link : Link ι) : Step first fresh link link.receive

/-! ## Published messages are accepted at most once -/

/-- Whatever is on the way, no message will have been accepted twice when it has
arrived, and the id of a message that was accepted and can still be published
again will be held. -/
structure Once (link : Link ι) : Prop where
  nodup : link.drained.accepted.Nodup
  issued : ∀ number ∈ link.drained.accepted, number < link.steps
  owned : ∀ id, link.phase id ≠ none → link.owner id < link.steps
  injective : ∀ id id', link.phase id ≠ none → link.phase id' ≠ none →
    link.owner id = link.owner id' → id = id'
  held : ∀ id, link.phase id = some .published → link.owner id ∈ link.drained.accepted →
    id ∈ link.drained.held
  phases : ∀ id, link.phase id ≠ some .offered

theorem Link.drained_send (phase : Phase) (id : ι) (link : Link ι) :
    (link.send phase id).drained = link.drained.receive (phase.packet id (link.owner id)) := by
  simp only [send, Channel.drained, List.foldl_append, List.foldl_cons, List.foldl_nil]

theorem Link.drained_plain (link : Link ι) :
    link.plain.drained = link.drained.receive (.plain link.steps) := by
  simp only [plain, tick, Channel.drained, List.foldl_append, List.foldl_cons, List.foldl_nil]

namespace Once

theorem empty : Once ({} : Link ι) where
  nodup := List.nodup_nil
  issued _ h := nomatch h
  owned _ h := absurd rfl h
  injective _ _ h := absurd rfl h
  held _ h := nomatch h
  phases _ h := nomatch h

variable {link : Link ι} (h : Once link)

include h

theorem steps_not_mem : link.steps ∉ link.drained.accepted :=
  fun hmem => Nat.lt_irrefl _ (h.issued _ hmem)

theorem tick : Once link.tick where
  nodup := h.nodup
  issued number hnumber := Nat.lt_succ_of_lt (h.issued number hnumber)
  owned id hid := Nat.lt_succ_of_lt (h.owned id hid)
  injective := h.injective
  held := h.held
  phases := h.phases

theorem plain : Once link.plain := by
  have hdrained : link.plain.drained.accepted = link.drained.accepted ++ [link.steps] := by
    rw [Link.drained_plain]
    rfl
  have hheld : link.plain.drained.held = link.drained.held := by
    rw [Link.drained_plain]
    rfl
  constructor
  case nodup =>
    rw [hdrained, ← List.concat_eq_append]
    exact h.nodup.concat h.steps_not_mem
  case issued =>
    intro number hnumber
    rw [hdrained, List.mem_append, List.mem_singleton] at hnumber
    change number < link.steps + 1
    rcases hnumber with hold | hnew
    · exact Nat.lt_succ_of_lt (h.issued number hold)
    · omega
  case owned => exact h.tick.owned
  case injective => exact h.injective
  case held =>
    intro id hid hmem
    change link.phase id = some .published at hid
    have howned : link.owner id < link.steps := by
      apply h.owned
      rw [hid]
      exact nofun
    rw [hdrained, List.mem_append, List.mem_singleton] at hmem
    rw [hheld]
    rcases hmem with hold | hnew
    · exact h.held id hid hold
    · exact absurd hnew howned.ne
  case phases => exact h.phases

theorem start {first : Phase} (hfirst : first ≠ .offered) (id : ι) :
    Once (link.start first id) := by
  have hnew := link.owner_start_self first id
  constructor
  case nodup => exact h.nodup
  case issued => exact h.tick.issued
  case owned =>
    intro other hother
    change _ < link.steps + 1
    by_cases hid : other = id
    · rw [hid, hnew]
      exact Nat.lt_succ_self _
    · rw [Link.phase_start_of_ne hid] at hother
      rw [Link.owner_start_of_ne hid]
      exact Nat.lt_succ_of_lt (h.owned other hother)
  case injective =>
    intro other other' hother hother' heq
    by_cases hid : other = id
    · by_cases hid' : other' = id
      · rw [hid, hid']
      · rw [Link.phase_start_of_ne hid'] at hother'
        rw [hid, hnew, Link.owner_start_of_ne hid'] at heq
        exact absurd heq.symm (h.owned other' hother').ne
    · rw [Link.phase_start_of_ne hid] at hother
      by_cases hid' : other' = id
      · rw [hid', hnew, Link.owner_start_of_ne hid] at heq
        exact absurd heq (h.owned other hother).ne
      · rw [Link.phase_start_of_ne hid'] at hother'
        rw [Link.owner_start_of_ne hid, Link.owner_start_of_ne hid'] at heq
        exact h.injective other other' hother hother' heq
  case held =>
    intro other hother hmem
    by_cases hid : other = id
    · rw [hid, hnew] at hmem
      exact absurd hmem h.steps_not_mem
    · rw [Link.phase_start_of_ne hid] at hother
      rw [Link.owner_start_of_ne hid] at hmem
      exact h.held other hother hmem
  case phases =>
    intro other hother
    by_cases hid : other = id
    · rw [hid, Link.phase_start_self] at hother
      exact hfirst (Option.some.inj hother)
    · rw [Link.phase_start_of_ne hid] at hother
      exact h.phases other hother

theorem publish {id : ι} (hphase : link.phase id = some .published) :
    Once (link.send .published id) := by
  by_cases hheld : id ∈ link.drained.held
  · have hdrained : (link.send .published id).drained = link.drained := by
      rw [Link.drained_send]
      exact if_pos hheld
    constructor
    · rw [hdrained]
      exact h.nodup
    · rw [hdrained]
      exact h.issued
    · exact h.owned
    · exact h.injective
    · rw [hdrained]
      exact h.held
    · exact h.phases
  · have hdrained : (link.send .published id).drained =
        { held := insert id link.drained.held
          accepted := link.drained.accepted ++ [link.owner id] } := by
      rw [Link.drained_send]
      exact if_neg hheld
    have hpresent : link.phase id ≠ none := by
      rw [hphase]
      exact nofun
    constructor
    · rw [hdrained]
      dsimp only
      rw [← List.concat_eq_append]
      exact h.nodup.concat fun hmem => hheld (h.held id hphase hmem)
    · rw [hdrained]
      intro number hnumber
      rcases List.mem_append.mp hnumber with hold | hnew
      · exact h.issued number hold
      · rw [List.mem_singleton.mp hnew]
        exact h.owned id hpresent
    · exact h.owned
    · exact h.injective
    · rw [hdrained]
      intro other hother hmem
      apply Finset.mem_insert.mpr
      rcases List.mem_append.mp hmem with hold | hnew
      · exact Or.inr (h.held other hother hold)
      · left
        change link.phase other = some .published at hother
        have hsome : link.phase other ≠ none := by
          rw [hother]
          exact nofun
        exact h.injective other id hsome hpresent (List.mem_singleton.mp hnew)
    · exact h.phases

theorem release {id : ι} (hphase : link.phase id = some .released) :
    Once (link.send .released id) := by
  have hdrained : (link.send .released id).drained =
      { link.drained with held := link.drained.held.erase id } := by
    rw [Link.drained_send]
    rfl
  constructor
  · rw [hdrained]
    exact h.nodup
  · rw [hdrained]
    exact h.issued
  · exact h.owned
  · exact h.injective
  · rw [hdrained]
    intro other hother hmem
    refine Finset.mem_erase.mpr ⟨?_, h.held other hother hmem⟩
    rintro rfl
    rw [show link.phase other = some .published from hother] at hphase
    cases hphase
  · exact h.phases

theorem send {id : ι} {phase : Phase} (hphase : link.phase id = some phase) :
    Once (link.send phase id) := by
  cases phase with
  | offered => exact absurd hphase (h.phases id)
  | published => exact h.publish hphase
  | released => exact h.release hphase

theorem setPhase {id : ι} {phase : Option Phase} (hpublished : phase ≠ some .published)
    (hoffered : phase ≠ some .offered) (hpresent : link.phase id = none → phase = none) :
    Once (link.setPhase id phase) := by
  have hwas (other : ι) (hsome : (link.setPhase id phase).phase other ≠ none) :
      link.phase other ≠ none := Link.present_of_setPhase hpresent hsome
  constructor
  · exact h.nodup
  · exact h.issued
  · exact fun other hsome => h.owned other (hwas other hsome)
  · exact fun other other' hsome hsome' => h.injective other other' (hwas other hsome)
      (hwas other' hsome')
  · intro other hphase
    by_cases hid : other = id
    · rw [hid, Link.phase_setPhase_self] at hphase
      exact absurd hphase hpublished
    · rw [Link.phase_setPhase_of_ne hid] at hphase
      exact h.held other hphase
  · intro other hphase
    by_cases hid : other = id
    · rw [hid, Link.phase_setPhase_self] at hphase
      exact absurd hphase hoffered
    · rw [Link.phase_setPhase_of_ne hid] at hphase
      exact h.phases other hphase

theorem receive : Once link.receive := by
  have hdrained : link.receive.drained = link.drained := link.toChannel.drained_receive
  have hsteps : link.receive.steps = link.steps := by
    simp only [Link.receive, Channel.receive]
    cases link.down <;> rfl
  have howner : link.receive.owner = link.owner := by
    simp only [Link.receive, Channel.receive]
    cases link.down <;> rfl
  constructor
  · rw [hdrained]
    exact h.nodup
  · rw [hdrained, hsteps]
    exact h.issued
  · rw [howner, hsteps]
    exact h.owned
  · rw [howner]
    exact h.injective
  · rw [howner, hdrained]
    exact h.held
  · exact h.phases

theorem step {first : Phase} (hfirst : first ≠ .offered) {fresh : Link ι → ι → Prop}
    {link' : Link ι} (hstep : Step first fresh link link') : Once link' := by
  cases hstep with
  | tick => exact h.tick
  | plain => exact h.plain
  | start id hfree hfresh => exact h.start hfirst id
  | send id phase hphase => exact h.send hphase
  | received id hup hphase => exact h.setPhase nofun nofun fun hnone => absurd hnone hphase
  | forget id => exact h.setPhase nofun nofun fun _ => rfl
  | next => exact ⟨h.nodup, h.issued, h.owned, h.injective, h.held, h.phases⟩
  | receive => exact h.receive

theorem run {first : Phase} (hfirst : first ≠ .offered) {fresh : Link ι → ι → Prop}
    {link' : Link ι} (hrun : Relation.ReflTransGen (Step first fresh) link link') :
    Once link' := by
  induction hrun with
  | refl => exact h
  | tail _ hstep ih => exact ih.step hfirst hstep

theorem accepted_nodup : link.receiver.accepted.Nodup :=
  h.nodup.sublist link.toChannel.accepted_prefix_drained.sublist

end Once

/-! ## What is acknowledged was accepted -/

/-- Everything in the channels and at the receiver under the id of a message in
the table is about that message. -/
structure Faithful (link : Link ι) : Prop where
  /-- Copies of the message, and the release of its id. -/
  down : ∀ packet ∈ link.down, ∀ id, packet.id? = some id → link.phase id ≠ none →
    link.owner id ∈ link.receiver.accepted ∨
      packet = .offer id (link.owner id) ∨ packet = .publish id (link.owner id)
  up : ∀ answer ∈ link.up, link.phase answer.id ≠ none →
    link.owner answer.id ∈ link.receiver.accepted
  held : ∀ id ∈ link.receiver.held, link.phase id ≠ none →
    link.owner id ∈ link.receiver.accepted
  released : ∀ id, link.phase id = some .released → link.owner id ∈ link.receiver.accepted

namespace Faithful

omit [DecidableEq ι] in
theorem empty : Faithful ({} : Link ι) where
  down _ h := nomatch h
  up _ h := nomatch h
  held _ h := nomatch h
  released _ h := nomatch h

variable {link : Link ι} (h : Faithful link)

include h

omit [DecidableEq ι] in
theorem plain : Faithful link.plain where
  down packet hpacket id hid := by
    rcases List.mem_append.mp hpacket with hold | hnew
    · exact h.down packet hold id hid
    · rw [List.mem_singleton.mp hnew] at hid
      cases hid
  up := h.up
  held := h.held
  released := h.released

theorem start {first : Phase} (hfirst : first ≠ .released) {id : ι} (hunused : link.Unused id) :
    Faithful (link.start first id) := by
  constructor
  · intro packet hpacket other hid
    have hne : other ≠ id := by
      rintro rfl
      exact hunused.down packet hpacket hid
    rw [Link.phase_start_of_ne hne, Link.owner_start_of_ne hne]
    exact h.down packet hpacket other hid
  · intro answer hanswer
    have hne : answer.id ≠ id := hunused.up answer hanswer
    rw [Link.phase_start_of_ne hne, Link.owner_start_of_ne hne]
    exact h.up answer hanswer
  · intro other hheld
    have hne : other ≠ id := by
      rintro rfl
      exact hunused.held hheld
    rw [Link.phase_start_of_ne hne, Link.owner_start_of_ne hne]
    exact h.held other hheld
  · intro other hreleased
    by_cases hid : other = id
    · rw [hid, Link.phase_start_self] at hreleased
      exact absurd (Option.some.inj hreleased) hfirst
    · rw [Link.phase_start_of_ne hid] at hreleased
      rw [Link.owner_start_of_ne hid]
      exact h.released other hreleased

omit [DecidableEq ι] in
theorem send {id : ι} {phase : Phase} (hphase : link.phase id = some phase) :
    Faithful (link.send phase id) where
  down packet hpacket other hid hother := by
    rcases List.mem_append.mp hpacket with hold | hnew
    · exact h.down packet hold other hid hother
    · rw [List.mem_singleton.mp hnew] at hid ⊢
      cases phase with
      | offered =>
          cases hid
          exact Or.inr (Or.inl rfl)
      | published =>
          cases hid
          exact Or.inr (Or.inr rfl)
      | released =>
          cases hid
          exact Or.inl (h.released id hphase)
  up := h.up
  held := h.held
  released := h.released

theorem received {id : ι} (hup : .received id ∈ link.up) (hphase : link.phase id ≠ none) :
    Faithful (link.setPhase id (some .released)) := by
  have hwas (other : ι) (hsome : (link.setPhase id (some .released)).phase other ≠ none) :
      link.phase other ≠ none :=
    Link.present_of_setPhase (fun hnone => absurd hnone hphase) hsome
  constructor
  · exact fun packet hpacket other hid hsome => h.down packet hpacket other hid (hwas other hsome)
  · exact fun answer hanswer hsome => h.up answer hanswer (hwas answer.id hsome)
  · exact fun other hheld hsome => h.held other hheld (hwas other hsome)
  · intro other hreleased
    by_cases hid : other = id
    · rw [hid]
      exact h.up (.received id) hup hphase
    · rw [Link.phase_setPhase_of_ne hid] at hreleased
      exact h.released other hreleased

theorem forget (id : ι) : Faithful (link.setPhase id none) := by
  have hwas (other : ι) (hsome : (link.setPhase id none).phase other ≠ none) :
      link.phase other ≠ none := Link.present_of_setPhase (fun _ => rfl) hsome
  constructor
  · exact fun packet hpacket other hid hsome => h.down packet hpacket other hid (hwas other hsome)
  · exact fun answer hanswer hsome => h.up answer hanswer (hwas answer.id hsome)
  · exact fun other hheld hsome => h.held other hheld (hwas other hsome)
  · intro other hreleased
    by_cases hid : other = id
    · rw [hid, Link.phase_setPhase_self] at hreleased
      cases hreleased
    · rw [Link.phase_setPhase_of_ne hid] at hreleased
      exact h.released other hreleased

theorem accepted_of_receive {packet : Packet ι} {id : ι} (hpacket : packet ∈ link.down)
    (hid : packet.id? = some id) (hphase : link.phase id ≠ none) :
    link.owner id ∈ (link.receiver.receive packet).accepted := by
  have hmono := (link.receiver.accepted_prefix_receive packet).subset
  rcases h.down packet hpacket id hid hphase with haccepted | hoffer | hpublish
  · exact hmono haccepted
  · rw [hoffer]
    exact List.mem_append_right _ (List.mem_singleton_self _)
  · by_cases hheld : id ∈ link.receiver.held
    · exact hmono (h.held id hheld hphase)
    · rw [hpublish]
      simp only [Receiver.receive, if_neg hheld]
      exact List.mem_append_right _ (List.mem_singleton_self _)

theorem receive : Faithful link.receive := by
  cases hdown : link.down with
  | nil =>
      have hsame : link.receive = link := by
        simp only [Link.receive, Channel.receive, hdown]
      rw [hsame]
      exact h
  | cons packet rest =>
      have hmem : packet ∈ link.down := by
        rw [hdown]
        exact List.mem_cons_self
      have hreceive : link.receive = { link with
          down := rest
          up := link.up ++ packet.answer.toList
          receiver := link.receiver.receive packet } := by
        simp only [Link.receive, Channel.receive, hdown]
      have hmono := (link.receiver.accepted_prefix_receive packet).subset
      rw [hreceive]
      constructor
      · intro packet' hpacket' id hid hphase
        have hold : packet' ∈ link.down := by
          rw [hdown]
          exact List.mem_cons_of_mem _ hpacket'
        exact (h.down packet' hold id hid hphase).imp_left fun haccepted => hmono haccepted
      · intro answer hanswer hphase
        rcases List.mem_append.mp hanswer with hold | hnew
        · exact hmono (h.up answer hold hphase)
        · have hid : packet.id? = some answer.id :=
            Packet.id?_of_answer (Option.mem_toList.mp hnew)
          exact h.accepted_of_receive hmem hid hphase
      · intro id hheld hphase
        by_cases hold : id ∈ link.receiver.held
        · exact hmono (h.held id hold hphase)
        · exact h.accepted_of_receive hmem (Receiver.id?_of_mem_held hheld hold) hphase
      · exact fun id hreleased => hmono (h.released id hreleased)

theorem step {first : Phase} (hfirst : first ≠ .released) {link' : Link ι}
    (hstep : Step first (fun link id => link.Unused id) link link') : Faithful link' := by
  cases hstep with
  | tick => exact ⟨h.down, h.up, h.held, h.released⟩
  | plain => exact h.plain
  | start id hfree hunused => exact h.start hfirst hunused
  | send id phase hphase => exact h.send hphase
  | received id hup hphase => exact h.received hup hphase
  | forget id => exact h.forget id
  | next =>
      refine ⟨h.down, ?_, h.held, h.released⟩
      exact fun answer hanswer => h.up answer (List.mem_of_mem_tail hanswer)
  | receive => exact h.receive

theorem run {first : Phase} (hfirst : first ≠ .released) {link' : Link ι}
    (hrun : Relation.ReflTransGen (Step first fun link id => link.Unused id) link link') :
    Faithful link' := by
  induction hrun with
  | refl => exact h
  | tail _ hstep ih => exact ih.step hfirst hstep

end Faithful

end JellyBroker.Lib.Handshake
