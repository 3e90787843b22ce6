import JellyBroker.Lib.Transition
import Mathlib.Tactic
/-!
# Scoped locks and lock order

Code that takes its locks in scopes, run by any number of threads.  `Code` keeps of a
program only its control flow and its scopes; `Trace` is what one execution of it does
to the mutexes, where an exception may end any part of it and closes the scopes it
leaves.  If the mutexes can be ranked so that no scope is opened inside a scope of the
same or a higher rank, then no set of threads is deadlocked: every waiting thread
waits, possibly through others, for one that can go on.  The ranks may except mutexes
that a thread acquires while it holds them: then the chain may also end in a thread
that waits for itself, which stays where it is, and with it every thread that needs the
mutex.
-/

namespace JellyBroker.Lib.Locks

inductive Mode where
  | shared
  | exclusive
  deriving DecidableEq

/-- The mutexes that a thread owns alone, inside a scope of one more. -/
def Mode.owned {μ : Type} : Mode → μ → List μ → List μ
  | .shared, _, own => own
  | .exclusive, mutex, own => mutex :: own

inductive Code (μ : Type) where
  | skip
  | seq (first second : Code μ)
  | choose (left right : Code μ)
  | loop (body : Code μ)
  | guard (mutex : μ) (mode : Mode) (body : Code μ)
  /-- Code with a handler for its exceptions. -/
  | attempt (body handler : Code μ)

inductive Op (μ : Type) where
  | acquire (mutex : μ) (mode : Mode)
  | release (mutex : μ) (mode : Mode)

namespace Code

variable {μ : Type}

/-- The lock operations of one execution, and whether it ended without an exception. -/
inductive Trace : Code μ → Bool → List (Op μ) → Prop where
  | raise {code : Code μ} : Trace code false []
  | skip : Trace .skip true []
  | seq {first second : Code μ} {ended : Bool} {ops ops' : List (Op μ)} :
      Trace first true ops → Trace second ended ops' → Trace (.seq first second) ended (ops ++ ops')
  | seqRaise {first second : Code μ} {ops : List (Op μ)} : Trace first false ops →
      Trace (.seq first second) false ops
  | left {left right : Code μ} {ended : Bool} {ops : List (Op μ)} : Trace left ended ops →
      Trace (.choose left right) ended ops
  | right {left right : Code μ} {ended : Bool} {ops : List (Op μ)} : Trace right ended ops →
      Trace (.choose left right) ended ops
  | done {body : Code μ} : Trace (.loop body) true []
  | again {body : Code μ} {ended : Bool} {ops ops' : List (Op μ)} : Trace body true ops →
      Trace (.loop body) ended ops' → Trace (.loop body) ended (ops ++ ops')
  | loopRaise {body : Code μ} {ops : List (Op μ)} : Trace body false ops →
      Trace (.loop body) false ops
  | guard {mutex : μ} {mode : Mode} {body : Code μ} {ended : Bool} {ops : List (Op μ)} :
      Trace body ended ops → Trace (.guard mutex mode body) ended
        (.acquire mutex mode :: (ops ++ [.release mutex mode]))
  | attempt {body handler : Code μ} {ops : List (Op μ)} : Trace body true ops →
      Trace (.attempt body handler) true ops
  | handle {body handler : Code μ} {ended : Bool} {ops ops' : List (Op μ)} :
      Trace body false ops → Trace handler ended ops' →
      Trace (.attempt body handler) ended (ops ++ ops')

/-- Scopes are opened from low ranks to high ones, and none below the floor; only an
excepted mutex may be acquired by code that owns it. -/
def ordered [BEq μ] (rank : μ → Nat) (excepted : μ → Bool) : Nat → List μ → Code μ → Bool
  | _, _, .skip => true
  | floor, own, .seq first second =>
      first.ordered rank excepted floor own && second.ordered rank excepted floor own
  | floor, own, .choose left right =>
      left.ordered rank excepted floor own && right.ordered rank excepted floor own
  | floor, own, .loop body => body.ordered rank excepted floor own
  | floor, own, .guard mutex mode body =>
      (excepted mutex && own.contains mutex) ||
        (decide (floor ≤ rank mutex) && body.ordered rank excepted (rank mutex + 1)
          (mode.owned mutex own))
  | floor, own, .attempt body handler =>
      body.ordered rank excepted floor own && handler.ordered rank excepted floor own

end Code

structure Thread (μ : Type) where
  held : List (μ × Mode) := []
  todo : List (Op μ) := []

/-- The rest of a trace for a thread with certain mutexes: it acquires above all that it
holds, it releases the latest first, and it ends with none.  Behind the acquisition of
an excepted mutex of its own nothing is asked, since the thread never gets there. -/
def Disciplined {μ : Type} (rank : μ → Nat) (excepted : μ → Bool) :
    List (μ × Mode) → List (Op μ) → Prop
  | held, [] => held = []
  | held, .acquire mutex mode :: rest =>
      (excepted mutex = true ∧ (mutex, .exclusive) ∈ held) ∨
        ((∀ lock ∈ held, rank lock.1 < rank mutex) ∧
          Disciplined rank excepted ((mutex, mode) :: held) rest)
  | held, .release mutex mode :: rest =>
      ∃ below, held = (mutex, mode) :: below ∧ Disciplined rank excepted below rest

section Discipline

variable {μ : Type} [BEq μ] [LawfulBEq μ] {rank : μ → Nat} {excepted : μ → Bool}

theorem Disciplined.append_trace {code : Code μ} {ended : Bool} {ops : List (Op μ)}
    (h : code.Trace ended ops) {floor : Nat} {own : List μ}
    (hordered : code.ordered rank excepted floor own = true) {held : List (μ × Mode)}
    (hheld : ∀ lock ∈ held, rank lock.1 < floor) (hown : ∀ m ∈ own, (m, .exclusive) ∈ held)
    {more : List (Op μ)} (hmore : Disciplined rank excepted held more) :
    Disciplined rank excepted held (ops ++ more) := by
  induction h generalizing floor own held more with
  | raise => exact hmore
  | skip => exact hmore
  | seq _ _ ihfirst ihsecond =>
      rw [Code.ordered, Bool.and_eq_true] at hordered
      rw [List.append_assoc]
      exact ihfirst hordered.1 hheld hown (ihsecond hordered.2 hheld hown hmore)
  | seqRaise _ ih =>
      rw [Code.ordered, Bool.and_eq_true] at hordered
      exact ih hordered.1 hheld hown hmore
  | left _ ih =>
      rw [Code.ordered, Bool.and_eq_true] at hordered
      exact ih hordered.1 hheld hown hmore
  | right _ ih =>
      rw [Code.ordered, Bool.and_eq_true] at hordered
      exact ih hordered.2 hheld hown hmore
  | done => exact hmore
  | again _ _ ihbody ihrest =>
      rw [List.append_assoc]
      exact ihbody hordered hheld hown (ihrest hordered hheld hown hmore)
  | loopRaise _ ih => exact ih hordered hheld hown hmore
  | attempt _ ih =>
      rw [Code.ordered, Bool.and_eq_true] at hordered
      exact ih hordered.1 hheld hown hmore
  | handle _ _ ihbody ihhandler =>
      rw [Code.ordered, Bool.and_eq_true] at hordered
      rw [List.append_assoc]
      exact ihbody hordered.1 hheld hown (ihhandler hordered.2 hheld hown hmore)
  | @guard mutex mode body ended ops _ ih =>
      rw [Code.ordered, Bool.or_eq_true, Bool.and_eq_true, Bool.and_eq_true,
        decide_eq_true_eq] at hordered
      rw [List.cons_append, List.append_assoc]
      rcases hordered with ⟨hexcepted, hmine⟩ | ⟨hfloor, hbody⟩
      · exact Or.inl ⟨hexcepted, hown mutex (List.contains_iff_mem.mp hmine)⟩
      · have hbelow : ∀ lock ∈ held, rank lock.1 < rank mutex :=
          fun lock hlock => (hheld lock hlock).trans_le hfloor
        refine Or.inr ⟨hbelow, ih hbody ?_ ?_ ⟨held, rfl, hmore⟩⟩
        · intro lock hlock
          rcases List.mem_cons.mp hlock with hnew | hold
          · rw [hnew]
            exact Nat.lt_succ_self _
          · exact (hbelow lock hold).trans (Nat.lt_succ_self _)
        · intro m hm
          cases mode with
          | shared => exact List.mem_cons_of_mem _ (hown m hm)
          | exclusive =>
              rcases List.mem_cons.mp hm with hnew | hold
              · rw [hnew]
                exact List.mem_cons_self
              · exact List.mem_cons_of_mem _ (hown m hold)

theorem Disciplined.of_trace {code : Code μ} {ended : Bool} {ops : List (Op μ)}
    (h : code.Trace ended ops) (hordered : code.ordered rank excepted 0 [] = true) :
    Disciplined rank excepted [] ops := by
  have hempty : Disciplined rank excepted [] ([] : List (Op μ)) := rfl
  have happend := Disciplined.append_trace h hordered (List.forall_mem_nil _)
    (List.forall_mem_nil _) hempty
  rwa [List.append_nil] at happend

end Discipline

/-! ## Threads -/

abbrev State (ι μ : Type) := ι → Thread μ

inductive Event (ι μ : Type) where
  /-- An idle thread takes up some work. -/
  | start (thread : ι) (ops : List (Op μ))
  | step (thread : ι)

variable {ι μ : Type}

def Mode.Compatible (mode mode' : Mode) : Prop := mode = .shared ∧ mode' = .shared

def Free (s : State ι μ) (mutex : μ) (mode : Mode) : Prop :=
  ∀ thread mode', (mutex, mode') ∈ (s thread).held → mode.Compatible mode'

def CanStep (s : State ι μ) (thread : ι) : Prop :=
  match (s thread).todo with
  | [] => False
  | .acquire mutex mode :: _ => Free s mutex mode
  | .release _ _ :: _ => True

section Step

variable [DecidableEq ι] [DecidableEq μ]

def Thread.step (thread : Thread μ) : Thread μ :=
  match thread.todo with
  | [] => thread
  | .acquire mutex mode :: rest => { held := (mutex, mode) :: thread.held, todo := rest }
  | .release mutex mode :: rest => { held := thread.held.erase (mutex, mode), todo := rest }

def system (work : List (Op μ) → Prop) : System (State ι μ) (Event ι μ) where
  init s := s = fun _ => {}
  enabled s
    | .start thread ops => (s thread).todo = [] ∧ work ops
    | .step thread => CanStep s thread
  step s
    | .start thread ops => Function.update s thread { (s thread) with todo := ops }
    | .step thread => Function.update s thread (s thread).step

end Step

/-! ## Mutual exclusion -/

def Exclusive (s : State ι μ) : Prop :=
  ∀ i j, i ≠ j → ∀ mutex mode mode', (mutex, mode) ∈ (s i).held → (mutex, mode') ∈ (s j).held →
    mode.Compatible mode'

def Waits (s : State ι μ) (i j : ι) : Prop :=
  ∃ mutex mode mode' rest, (s i).todo = .acquire mutex mode :: rest ∧
    (mutex, mode') ∈ (s j).held ∧ ¬mode.Compatible mode'

theorem canStep_or_waits {s : State ι μ} {i : ι} (h : (s i).todo ≠ []) :
    CanStep s i ∨ ∃ j, Waits s i j := by
  unfold CanStep
  cases htodo : (s i).todo with
  | nil => exact absurd htodo h
  | cons op rest =>
      cases op with
      | release mutex mode => exact Or.inl trivial
      | acquire mutex mode =>
          by_cases hfree : Free s mutex mode
          · exact Or.inl hfree
          · right
            unfold Free at hfree
            push Not at hfree
            obtain ⟨j, mode', hheld, hconflict⟩ := hfree
            exact ⟨j, mutex, mode, mode', rest, htodo, hheld, hconflict⟩

section Runs

variable [DecidableEq ι] [DecidableEq μ] {work : List (Op μ) → Prop}

theorem held_step {thread : Thread μ} {lock : μ × Mode} (h : lock ∈ thread.step.held) :
    lock ∈ thread.held ∨ ∃ rest, thread.todo = .acquire lock.1 lock.2 :: rest := by
  unfold Thread.step at h
  cases htodo : thread.todo with
  | nil =>
      rw [htodo] at h
      exact Or.inl h
  | cons op rest =>
      rw [htodo] at h
      cases op with
      | release mutex mode => exact Or.inl (List.mem_of_mem_erase h)
      | acquire mutex mode =>
          rcases List.mem_cons.mp h with hnew | hold
          · right
            rw [hnew]
            exact ⟨rest, rfl⟩
          · exact Or.inl hold

theorem Exclusive.step {s : State ι μ} (h : Exclusive s) {e : Event ι μ}
    (henabled : (system work).enabled s e) : Exclusive ((system work).step s e) := by
  cases e with
  | start thread ops =>
      have hheld (i : ι) : ((system work).step s (.start thread ops) i).held = (s i).held := by
        change (Function.update s thread { (s thread) with todo := ops } i).held = _
        by_cases hi : i = thread
        · rw [hi, Function.update_self]
        · rw [Function.update_of_ne hi]
      intro i j hne mutex mode mode'
      rw [hheld, hheld]
      exact h i j hne mutex mode mode'
  | step thread =>
      -- a mutex that the thread has just acquired is compatible with all that others hold
      have hmoved (j : ι) (hj : j ≠ thread) {mutex : μ} {mode mode' : Mode}
          (hthread : (mutex, mode) ∈ (s thread).step.held) (hother : (mutex, mode') ∈ (s j).held) :
          mode.Compatible mode' := by
        rcases held_step hthread with hold | ⟨rest, htodo⟩
        · exact h thread j hj.symm mutex mode mode' hold hother
        · have hfree : CanStep s thread := henabled
          unfold CanStep at hfree
          rw [htodo] at hfree
          exact hfree j mode' hother
      intro i j hne mutex mode mode' hi hj
      change (mutex, mode) ∈ (Function.update s thread (s thread).step i).held at hi
      change (mutex, mode') ∈ (Function.update s thread (s thread).step j).held at hj
      by_cases hithread : i = thread
      · have hjthread : j ≠ thread := fun heq => hne (hithread.trans heq.symm)
        rw [hithread, Function.update_self] at hi
        rw [Function.update_of_ne hjthread] at hj
        exact hmoved j hjthread hi hj
      · rw [Function.update_of_ne hithread] at hi
        by_cases hjthread : j = thread
        · rw [hjthread, Function.update_self] at hj
          have hsame := hmoved i hithread hj hi
          exact ⟨hsame.2, hsame.1⟩
        · rw [Function.update_of_ne hjthread] at hj
          exact h i j hne mutex mode mode' hi hj

theorem exclusive_reachable {s : State ι μ} (h : (system work).Reachable s) : Exclusive s := by
  refine h.invariant (P := Exclusive) ?_ fun s e hs => hs.step
  rintro _ rfl i j _ mutex mode mode' hheld
  cases hheld

/-- The thread waits for a mutex that it holds itself, in exclusive mode. -/
def Stuck (mutex : μ) (i : ι) (s : State ι μ) : Prop :=
  (mutex, .exclusive) ∈ (s i).held ∧ ∃ mode rest, (s i).todo = .acquire mutex mode :: rest

/-! ## Ordered work -/

def Orderly (rank : μ → Nat) (excepted : μ → Bool) (s : State ι μ) : Prop :=
  ∀ i, Disciplined rank excepted (s i).held (s i).todo

variable {rank : μ → Nat} {excepted : μ → Bool}

omit [DecidableEq ι] [DecidableEq μ] in
theorem not_canStep_of_excepted {s : State ι μ} {i : ι} {mutex : μ} {mode : Mode}
    {rest : List (Op μ)} (htodo : (s i).todo = .acquire mutex mode :: rest)
    (hheld : (mutex, .exclusive) ∈ (s i).held) : ¬CanStep s i := by
  intro hstep
  unfold CanStep at hstep
  rw [htodo] at hstep
  cases (hstep i .exclusive hheld).2

omit [DecidableEq ι] in
theorem Orderly.thread_step {s : State ι μ} (h : Orderly rank excepted s) {i : ι}
    (hstep : CanStep s i) : Disciplined rank excepted (s i).step.held (s i).step.todo := by
  have hi := h i
  unfold Thread.step
  cases htodo : (s i).todo with
  | nil =>
      unfold CanStep at hstep
      rw [htodo] at hstep
      exact hstep.elim
  | cons op rest =>
      rw [htodo] at hi
      cases op with
      | acquire mutex mode =>
          rcases hi with ⟨_, hown⟩ | ⟨_, hrest⟩
          · exact absurd hstep (not_canStep_of_excepted htodo hown)
          · exact hrest
      | release mutex mode =>
          obtain ⟨below, hheld, hrest⟩ := hi
          dsimp only
          rw [hheld, List.erase_cons_head]
          exact hrest

theorem Orderly.step (hwork : ∀ ops, work ops → Disciplined rank excepted [] ops)
    {s : State ι μ} (h : Orderly rank excepted s) {e : Event ι μ}
    (henabled : (system work).enabled s e) :
    Orderly rank excepted ((system work).step s e) := by
  intro i
  cases e with
  | start thread ops =>
      obtain ⟨hidle, hops⟩ := henabled
      by_cases hi : i = thread
      · have hnone := h thread
        rw [hidle] at hnone
        have hself : (system work).step s (.start thread ops) i = { held := [], todo := ops } := by
          rw [hi, ← show (s thread).held = [] from hnone]
          exact Function.update_self _ _ _
        rw [hself]
        exact hwork ops hops
      · rw [show (system work).step s (.start thread ops) i = s i from Function.update_of_ne hi _ _]
        exact h i
  | step thread =>
      by_cases hi : i = thread
      · rw [hi, show (system work).step s (.step thread) thread = (s thread).step from
          Function.update_self _ _ _]
        exact h.thread_step henabled
      · rw [show (system work).step s (.step thread) i = s i from Function.update_of_ne hi _ _]
        exact h i

theorem orderly_reachable (hwork : ∀ ops, work ops → Disciplined rank excepted [] ops)
    {s : State ι μ} (h : (system work).Reachable s) : Orderly rank excepted s := by
  refine h.invariant (P := Orderly rank excepted) ?_ fun s e hs => hs.step hwork
  rintro _ rfl i
  rfl

omit [DecidableEq ι] [DecidableEq μ] in
/-- A thread that holds a mutex can go on, waits for itself, or waits for a higher rank. -/
theorem Orderly.holder {s : State ι μ} (h : Orderly rank excepted s) {j : ι} {mutex : μ}
    {mode : Mode} (hheld : (mutex, mode) ∈ (s j).held) :
    CanStep s j ∨ (∃ own, excepted own = true ∧ Stuck own j s) ∨
      ∃ mutex' mode' rest, (s j).todo = .acquire mutex' mode' :: rest ∧
        rank mutex < rank mutex' := by
  have hj := h j
  unfold CanStep
  cases htodo : (s j).todo with
  | nil =>
      rw [htodo] at hj
      rw [show (s j).held = [] from hj] at hheld
      cases hheld
  | cons op rest =>
      rw [htodo] at hj
      cases op with
      | release mutex' mode' => exact Or.inl trivial
      | acquire mutex' mode' =>
          right
          rcases hj with ⟨hexcepted, hown⟩ | ⟨habove, _⟩
          · exact Or.inl ⟨mutex', hexcepted, hown, mode', rest, htodo⟩
          · exact Or.inr ⟨mutex', mode', rest, rfl, habove (mutex, mode) hheld⟩

omit [DecidableEq ι] [DecidableEq μ] in
/-- With bounded ranks, every thread with something to do waits in the end for one that
can go on, or for one that waits for itself. -/
theorem Orderly.progress {bound : Nat} (hbound : ∀ mutex, rank mutex ≤ bound)
    {s : State ι μ} (h : Orderly rank excepted s) {i : ι} (hi : (s i).todo ≠ []) :
    ∃ j, Relation.ReflTransGen (Waits s) i j ∧
      (CanStep s j ∨ ∃ own, excepted own = true ∧ Stuck own j s) := by
  -- the rank that a thread waits for grows along the chain
  have hchain : ∀ (room : Nat) (i : ι) (mutex : μ) (mode : Mode) (rest : List (Op μ)),
      (s i).todo = .acquire mutex mode :: rest → bound - rank mutex = room →
      ∃ j, Relation.ReflTransGen (Waits s) i j ∧
        (CanStep s j ∨ ∃ own, excepted own = true ∧ Stuck own j s) := by
    intro room
    induction room using Nat.strong_induction_on with
    | _ room ih =>
        intro i mutex mode rest htodo hroom
        have hbusy : (s i).todo ≠ [] := by
          rw [htodo]
          exact List.cons_ne_nil _ _
        rcases canStep_or_waits hbusy with hstep | ⟨j, hwaits⟩
        · exact ⟨i, .refl, Or.inl hstep⟩
        · obtain ⟨mutex', mode', held, rest', htodo', hheld, _⟩ := id hwaits
          rw [htodo] at htodo'
          obtain ⟨rfl, rfl⟩ := Op.acquire.inj (List.cons.inj htodo').1
          rcases h.holder hheld with hstep | hstuck | ⟨next, mode', rest', htodo', hlt⟩
          · exact ⟨j, .single hwaits, Or.inl hstep⟩
          · exact ⟨j, .single hwaits, Or.inr hstuck⟩
          · have hle := hbound next
            obtain ⟨k, hreach, hend⟩ := ih (bound - rank next) (by omega) j next mode' rest'
              htodo' rfl
            exact ⟨k, .head hwaits hreach, hend⟩
  rcases canStep_or_waits hi with hstep | ⟨_, mutex, mode, _, rest, htodo, _⟩
  · exact ⟨i, .refl, Or.inl hstep⟩
  · exact hchain _ i mutex mode rest htodo rfl

/-! ## Waiting for oneself -/

omit [DecidableEq ι] [DecidableEq μ] in
theorem Stuck.cannot_acquire {mutex : μ} {i : ι} {s : State ι μ} (h : Stuck mutex i s) {j : ι}
    {mode : Mode} {rest : List (Op μ)} (htodo : (s j).todo = .acquire mutex mode :: rest) :
    ¬CanStep s j := by
  intro hstep
  unfold CanStep at hstep
  rw [htodo] at hstep
  cases (hstep i .exclusive h.1).2

/-- A stuck thread stays as it is, and no other one gets past an acquisition of the
mutex. -/
theorem Stuck.step {mutex : μ} {i : ι} {s : State ι μ} (h : Stuck mutex i s) {e : Event ι μ}
    (henabled : (system work).enabled s e) :
    (system work).step s e i = s i ∧
      ∀ j mode, .acquire mutex mode ∈ (s j).todo →
        .acquire mutex mode ∈ ((system work).step s e j).todo := by
  obtain ⟨hheld, own, after, htodo⟩ := h
  cases e with
  | start thread ops =>
      have hidle : (s thread).todo = [] := henabled.1
      have hother (j : ι) (hj : (s j).todo ≠ []) :
          (system work).step s (.start thread ops) j = s j := by
        apply Function.update_of_ne
        rintro rfl
        exact hj hidle
      constructor
      · apply hother
        rw [htodo]
        exact List.cons_ne_nil _ _
      · intro j mode hmem
        rw [hother j (List.ne_nil_of_mem hmem)]
        exact hmem
  | step thread =>
      have hmoves (j : ι) (hj : j ≠ thread) : (system work).step s (.step thread) j = s j :=
        Function.update_of_ne hj _ _
      have hself : (system work).step s (.step thread) thread = (s thread).step :=
        Function.update_self _ _ _
      constructor
      · apply hmoves
        rintro rfl
        exact Stuck.cannot_acquire ⟨hheld, own, after, htodo⟩ htodo henabled
      · intro j mode hmem
        by_cases hj : j = thread
        · rw [hj] at hmem ⊢
          rw [hself]
          unfold Thread.step
          cases hnext : (s thread).todo with
          | nil =>
              rw [hnext] at hmem
              cases hmem
          | cons op rest =>
              rw [hnext] at hmem
              rcases List.mem_cons.mp hmem with hhead | hrest
              · -- the thread would acquire the mutex now
                rw [← hhead] at hnext
                exact absurd henabled (Stuck.cannot_acquire ⟨hheld, own, after, htodo⟩ hnext)
              · cases op with
                | acquire mutex' mode' => exact hrest
                | release mutex' mode' => exact hrest
        · rw [hmoves j hj]
          exact hmem

theorem Stuck.run {mutex : μ} {i : ι} {s s' : State ι μ} {es : List (Event ι μ)}
    (h : Stuck mutex i s) (hrun : (system work).Run s es s') :
    s' i = s i ∧ ∀ j mode, .acquire mutex mode ∈ (s j).todo →
      .acquire mutex mode ∈ (s' j).todo := by
  refine hrun.preserves
    (P := fun t => t i = s i ∧ ∀ j mode, .acquire mutex mode ∈ (s j).todo →
      .acquire mutex mode ∈ (t j).todo) ?_ ⟨rfl, fun _ _ => id⟩
  rintro t e ⟨hsame, hkept⟩ henabled
  have hstuck : Stuck mutex i t := by
    unfold Stuck
    rw [hsame]
    exact h
  obtain ⟨hstays, hwaits⟩ := hstuck.step henabled
  refine ⟨hstays.trans hsame, ?_⟩
  intro j mode hmem
  exact hwaits j mode (hkept j mode hmem)

/-! ## Finishing the work in hand -/

section Drain

variable [Fintype ι]

def pending (s : State ι μ) : Nat := ∑ i, (s i).todo.length

theorem pending_step {s : State ι μ} {i : ι} (h : (system work).enabled s (.step i)) :
    pending ((system work).step s (.step i)) + 1 = pending s := by
  have hlength : (s i).step.todo.length + 1 = (s i).todo.length := by
    change CanStep s i at h
    unfold CanStep at h
    unfold Thread.step
    cases htodo : (s i).todo with
    | nil =>
        rw [htodo] at h
        exact h.elim
    | cons op rest => cases op <;> rfl
  have hrest : ∑ j ∈ Finset.univ.erase i, ((system work).step s (.step i) j).todo.length =
      ∑ j ∈ Finset.univ.erase i, (s j).todo.length := by
    apply Finset.sum_congr rfl
    intro j hj
    rw [show (system work).step s (.step i) j = s j from
      Function.update_of_ne (Finset.ne_of_mem_erase hj) _ _]
  have hself : ((system work).step s (.step i) i).todo.length + 1 = (s i).todo.length := by
    rw [show (system work).step s (.step i) i = (s i).step from Function.update_self _ _ _]
    exact hlength
  unfold pending
  rw [← Finset.add_sum_erase _ _ (Finset.mem_univ i), ← Finset.add_sum_erase _ _
    (Finset.mem_univ i), hrest]
  omega

theorem pending_run {s s' : State ι μ} {es : List (Event ι μ)} (h : (system work).Run s es s')
    (hsteps : ∀ e ∈ es, ∃ i, e = .step i) : es.length + pending s' = pending s := by
  induction h with
  | nil => exact Nat.zero_add _
  | @snoc es t e _ henabled ih =>
      obtain ⟨i, rfl⟩ := hsteps e (List.mem_append_right es List.mem_cons_self)
      have hbefore := ih fun e' he' => hsteps e' (List.mem_append_left _ he')
      have hone := pending_step henabled
      rw [List.length_append, List.length_singleton]
      omega

end Drain

end Runs

end JellyBroker.Lib.Locks
