import JellyBroker.Lib.Transition
import Mathlib.Tactic
/-!
# Timers

`Timer` keeps a callback and a flag around a `steady_timer` of the I/O library.  The library
is a parameter: `SteadyTimer` has the operations that the code calls and what the library does
on its own, and `SteadyTimer.Lawful` names what is assumed of them.  That a timer calls back
at most once for a start rests on no assumption.  `on_tick` cannot tell which start or reset a
completion belongs to; only the flag decides.
-/

namespace JellyBroker.Utils

open JellyBroker.Lib

/-! ## The timer of the library -/

/-- A timer of the I/O library in a state `ω`, with its part of the queue of completions. -/
structure SteadyTimer (ω : Type) where
  Created : ω → Prop
  cancel : ω → ω
  expiresAfter : Int → ω → ω
  asyncWait : ω → ω
  /-- Time passes or waits expire. -/
  Proceeds : ω → ω → Prop
  /-- The handler of a wait is called, with `operation_aborted` or without. -/
  Completes : Bool → ω → ω → Prop
  now : ω → Int
  /-- A wait has neither expired nor been aborted, and ends at this time. -/
  WaitsUntil : ω → Int → Prop
  /-- A wait has expired, and its handler is in the queue. -/
  Expired : ω → Prop

variable {ω : Type}

/-- What the code relies on.  A wait that has expired stays so whatever is done with the timer
before its handler is called. -/
structure SteadyTimer.Lawful (lib : SteadyTimer ω) : Prop where
  created_waits : ∀ w time, lib.Created w → ¬lib.WaitsUntil w time
  created_expired : ∀ w, lib.Created w → ¬lib.Expired w
  cancel_now : ∀ w, lib.now (lib.cancel w) = lib.now w
  cancel_waits : ∀ w time, ¬lib.WaitsUntil (lib.cancel w) time
  cancel_expired : ∀ w, lib.Expired (lib.cancel w) ↔ lib.Expired w
  wait_now : ∀ duration w, lib.now (lib.asyncWait (lib.expiresAfter duration w)) = lib.now w
  /-- `expires_after` aborts earlier waits. -/
  wait_waits : ∀ duration w time,
    lib.WaitsUntil (lib.asyncWait (lib.expiresAfter duration w)) time ↔
      time = lib.now w + duration
  wait_expired : ∀ duration w,
    lib.Expired (lib.asyncWait (lib.expiresAfter duration w)) ↔ lib.Expired w
  proceeds_now : ∀ w w', lib.Proceeds w w' → lib.now w ≤ lib.now w'
  proceeds_waits : ∀ w w' time, lib.Proceeds w w' → lib.WaitsUntil w' time → lib.WaitsUntil w time
  /-- No wait expires before its time. -/
  proceeds_expired : ∀ w w', lib.Proceeds w w' → lib.Expired w' →
    lib.Expired w ∨ ∃ time, lib.WaitsUntil w time ∧ time ≤ lib.now w'
  /-- No wait is forgotten. -/
  proceeds_keeps : ∀ w w' time, lib.Proceeds w w' → lib.WaitsUntil w time →
    lib.WaitsUntil w' time ∨ lib.Expired w'
  proceeds_queued : ∀ w w', lib.Proceeds w w' → lib.Expired w → lib.Expired w'
  completes_now : ∀ aborted w w', lib.Completes aborted w w' → lib.now w' = lib.now w
  completes_waits : ∀ aborted w w' time, lib.Completes aborted w w' →
    (lib.WaitsUntil w' time ↔ lib.WaitsUntil w time)
  completes_expired : ∀ w w', lib.Completes false w w' → lib.Expired w
  completes_aborted : ∀ w w', lib.Completes true w w' → (lib.Expired w' ↔ lib.Expired w)
  /-- A wait that is due can expire. -/
  expires : ∀ w time, lib.WaitsUntil w time → time ≤ lib.now w →
    ∃ w', lib.Proceeds w w' ∧ lib.Expired w'
  /-- The handler of a wait that has expired can be called. -/
  runs : ∀ w, lib.Expired w → ∃ w', lib.Completes false w w'

/-! ## The wrapper -/

structure Timer (κ ω : Type) where
  timer : ω
  callback : Option κ := none
  duration : Int := 0
  active : Bool := false
  /-- The callbacks that have run. -/
  calls : List κ := []

namespace Timer

variable {κ : Type} (lib : SteadyTimer ω)

def cancel (t : Timer κ ω) : Timer κ ω := { t with active := false, timer := lib.cancel t.timer }

/-- `expires_after` and `async_wait`. -/
def arm (t : Timer κ ω) : Timer κ ω :=
  { t with timer := lib.asyncWait (lib.expiresAfter t.duration t.timer) }

def start (duration : Int) (callback : κ) (t : Timer κ ω) : Timer κ ω :=
  arm lib { cancel lib t with duration, callback := some callback, active := true }

def reset (t : Timer κ ω) : Timer κ ω :=
  if t.active && decide (t.duration > 0) then arm lib { t with timer := lib.cancel t.timer } else t

def onTick (aborted : Bool) (t : Timer κ ω) : Timer κ ω :=
  if aborted || !t.active then t
  else { t with active := false, calls := t.calls ++ t.callback.toList }

inductive Event (κ ω : Type) where
  | start (duration : Int) (callback : κ)
  | cancel
  | reset
  | proceed (timer : ω)
  | complete (aborted : Bool) (timer : ω)

def Event.OfLibrary : Event κ ω → Prop
  | .proceed _ | .complete _ _ => True
  | _ => False

def Enabled (t : Timer κ ω) : Event κ ω → Prop
  | .start _ _ | .cancel | .reset => True
  | .proceed timer => lib.Proceeds t.timer timer
  | .complete aborted timer => lib.Completes aborted t.timer timer

def step (t : Timer κ ω) : Event κ ω → Timer κ ω
  | .start duration callback => start lib duration callback t
  | .cancel => cancel lib t
  | .reset => reset lib t
  | .proceed timer => { t with timer }
  | .complete aborted timer => onTick aborted { t with timer }

end Timer

def timers (lib : SteadyTimer ω) (κ : Type) : System (Timer κ ω) (Timer.Event κ ω) where
  init t := ∃ timer, lib.Created timer ∧ t = { timer }
  enabled := Timer.Enabled lib
  step := Timer.step lib

/-! ## A timer of the library with a queue -/

/-- The expiry, the waits that have not completed, and for each completion in the queue
whether it was aborted. -/
structure QueuedWaits where
  now : Int := 0
  expiry : Int := 0
  waits : Nat := 0
  completions : List Bool := []

namespace QueuedWaits

def flush (aborted : Bool) (w : QueuedWaits) : QueuedWaits :=
  { w with completions := w.completions ++ List.replicate w.waits aborted, waits := 0 }

def lib : SteadyTimer QueuedWaits where
  Created w := ∃ now, w = { now }
  cancel := flush true
  expiresAfter duration w := { flush true w with expiry := w.now + duration }
  asyncWait w := { w with waits := w.waits + 1 }
  Proceeds w w' := (∃ now, w.now ≤ now ∧ w' = { w with now }) ∨
    w.expiry ≤ w.now ∧ w' = flush false w
  Completes aborted w w' := aborted ∈ w.completions ∧
    w' = { w with completions := w.completions.erase aborted }
  now := now
  WaitsUntil w time := 0 < w.waits ∧ time = w.expiry
  Expired w := false ∈ w.completions

theorem mem_flush (aborted : Bool) (w : QueuedWaits) :
    false ∈ (flush aborted w).completions ↔
      false ∈ w.completions ∨ aborted = false ∧ 0 < w.waits := by
  simp only [flush, List.mem_append, List.mem_replicate]
  constructor
  · rintro (hqueued | ⟨hwaits, rfl⟩)
    · exact Or.inl hqueued
    · exact Or.inr ⟨rfl, Nat.pos_of_ne_zero hwaits⟩
  · rintro (hqueued | ⟨rfl, hwaits⟩)
    · exact Or.inl hqueued
    · exact Or.inr ⟨hwaits.ne', rfl⟩

theorem expired_flush_true (w : QueuedWaits) :
    false ∈ (flush true w).completions ↔ false ∈ w.completions := by
  simp [mem_flush]

theorem lawful : lib.Lawful where
  created_waits := by
    rintro _ time ⟨now, rfl⟩ ⟨hwaits, _⟩
    exact absurd hwaits (lt_irrefl 0)
  created_expired := by
    rintro _ ⟨now, rfl⟩ hqueued
    cases hqueued
  cancel_now _ := rfl
  cancel_waits := by
    rintro w time ⟨hwaits, _⟩
    exact absurd hwaits (lt_irrefl 0)
  cancel_expired := expired_flush_true
  wait_now _ _ := rfl
  wait_waits duration w time := and_iff_right (Nat.succ_pos 0)
  wait_expired _ w := expired_flush_true w
  proceeds_now := by
    rintro w _ (⟨now, hnow, rfl⟩ | ⟨_, rfl⟩)
    · exact hnow
    · exact le_refl w.now
  proceeds_waits := by
    rintro w _ time (⟨now, _, rfl⟩ | ⟨_, rfl⟩) hwaits
    · exact hwaits
    · exact absurd hwaits.1 (lt_irrefl 0)
  proceeds_expired := by
    rintro w _ (⟨now, _, rfl⟩ | ⟨hdue, rfl⟩) hqueued
    · exact Or.inl hqueued
    · rcases (mem_flush false w).mp hqueued with hqueued | ⟨_, hwaits⟩
      · exact Or.inl hqueued
      · exact Or.inr ⟨w.expiry, ⟨hwaits, rfl⟩, hdue⟩
  proceeds_keeps := by
    rintro w _ time (⟨now, _, rfl⟩ | ⟨_, rfl⟩) hwaits
    · exact Or.inl hwaits
    · exact Or.inr ((mem_flush false w).mpr (Or.inr ⟨rfl, hwaits.1⟩))
  proceeds_queued := by
    rintro w _ (⟨now, _, rfl⟩ | ⟨_, rfl⟩) hqueued
    · exact hqueued
    · exact (mem_flush false w).mpr (Or.inl hqueued)
  completes_now := by
    rintro aborted w _ ⟨_, rfl⟩
    rfl
  completes_waits := by
    rintro aborted w _ time ⟨_, rfl⟩
    exact Iff.rfl
  completes_expired := by
    rintro w _ ⟨hqueued, _⟩
    exact hqueued
  completes_aborted := by
    rintro w _ ⟨_, rfl⟩
    exact List.mem_erase_of_ne (by decide)
  expires := by
    rintro w time ⟨hwaits, rfl⟩ hdue
    exact ⟨flush false w, Or.inr ⟨hdue, rfl⟩, (mem_flush false w).mpr (Or.inr ⟨rfl, hwaits⟩)⟩
  runs w hqueued := ⟨_, hqueued, rfl⟩

end QueuedWaits

namespace Timer

variable {κ : Type} {lib : SteadyTimer ω}

/-! ## No lost timeout -/

theorem active_onTick (t : Timer κ ω) : (onTick false t).active = false := by
  unfold onTick
  by_cases hactive : t.active = true
  · simp [hactive]
  · simp [hactive]

theorem timer_onTick (aborted : Bool) (t : Timer κ ω) :
    (onTick aborted t).timer = t.timer ∧ (onTick aborted t).duration = t.duration := by
  unfold onTick
  split_ifs
  · exact ⟨rfl, rfl⟩
  · exact ⟨rfl, rfl⟩

theorem callback_reachable {t : Timer κ ω} (h : (timers lib κ).Reachable t)
    (hactive : t.active = true) : ∃ callback, t.callback = some callback := by
  rw [← Option.isSome_iff_exists]
  revert hactive
  refine h.invariant (P := fun t => t.active = true → t.callback.isSome = true) ?_ ?_
  · rintro _ ⟨timer, _, rfl⟩ hactive
    cases hactive
  · intro t e ht _
    cases e with
    | start duration callback => exact fun _ => rfl
    | cancel =>
        intro hactive
        cases hactive
    | reset =>
        change (Timer.reset lib t).active = true → (Timer.reset lib t).callback.isSome = true
        unfold Timer.reset
        split_ifs
        · exact ht
        · exact ht
    | proceed timer => exact ht
    | complete aborted timer =>
        change (onTick aborted _).active = true → (onTick aborted _).callback.isSome = true
        unfold onTick
        split_ifs
        · exact ht
        · intro hactive
          cases hactive

def Pending (lib : SteadyTimer ω) (t : Timer κ ω) : Prop :=
  (∃ time, lib.WaitsUntil t.timer time) ∨ lib.Expired t.timer

theorem pending_arm (hlib : lib.Lawful) (t : Timer κ ω) : (arm lib t).Pending lib :=
  Or.inl ⟨_, (hlib.wait_waits t.duration t.timer _).mpr rfl⟩

theorem pending_step (hlib : lib.Lawful) {t : Timer κ ω} {e : Event κ ω}
    (henabled : t.Enabled lib e) (h : t.active = true → t.Pending lib)
    (hactive : (t.step lib e).active = true) : (t.step lib e).Pending lib := by
  cases e with
  | start duration callback => exact pending_arm hlib _
  | cancel => cases hactive
  | reset =>
      change (Timer.reset lib t).active = true at hactive
      change (Timer.reset lib t).Pending lib
      unfold Timer.reset at hactive ⊢
      split_ifs at hactive ⊢
      · exact pending_arm hlib _
      · exact h hactive
  | proceed timer =>
      rcases h hactive with ⟨time, hwaits⟩ | hqueued
      · rcases hlib.proceeds_keeps _ _ time henabled hwaits with hwaits' | hqueued
        · exact Or.inl ⟨time, hwaits'⟩
        · exact Or.inr hqueued
      · exact Or.inr (hlib.proceeds_queued _ _ henabled hqueued)
  | complete aborted timer =>
      cases aborted with
      | false =>
          have hidle := active_onTick { t with timer }
          exact absurd (hidle.symm.trans hactive) (by decide)
      | true =>
          rcases h hactive with ⟨time, hwaits⟩ | hqueued
          · exact Or.inl ⟨time, (hlib.completes_waits _ _ _ time henabled).mpr hwaits⟩
          · exact Or.inr ((hlib.completes_aborted _ _ henabled).mpr hqueued)

theorem pending_reachable (hlib : lib.Lawful) {t : Timer κ ω} (h : (timers lib κ).Reachable t)
    (hactive : t.active = true) : t.Pending lib := by
  revert hactive
  refine h.invariant (P := fun t => t.active = true → t.Pending lib) ?_ ?_
  · rintro _ ⟨timer, _, rfl⟩ hactive
    cases hactive
  · intro t e ht henabled
    exact pending_step hlib henabled ht

/-- A queued expiry runs the callback of an active timer. -/
theorem calls_complete (lib : SteadyTimer ω) {t : Timer κ ω} {callback : κ}
    (hactive : t.active = true) (hcallback : t.callback = some callback) (timer : ω) :
    (t.step lib (.complete false timer)).calls = t.calls ++ [callback] := by
  simp [Timer.step, onTick, hactive, hcallback]

/-! ## At most one call for a start -/

def charge (t : Timer κ ω) : Nat := t.calls.length + t.active.toNat

def Event.isStart : Event κ ω → Bool
  | .start _ _ => true
  | _ => false

theorem charge_onTick (aborted : Bool) (t : Timer κ ω) : (onTick aborted t).charge ≤ t.charge := by
  unfold onTick charge
  split_ifs with hignored
  · exact le_refl _
  · have hactive : t.active = true := by simp_all
    cases hcallback : t.callback with
    | none => simp [hactive]
    | some callback => simp [hactive]

theorem charge_step (lib : SteadyTimer ω) (t : Timer κ ω) (e : Event κ ω) :
    (t.step lib e).charge ≤ t.charge + e.isStart.toNat := by
  cases e with
  | start duration callback =>
      change t.calls.length + 1 ≤ t.calls.length + t.active.toNat + 1
      omega
  | cancel =>
      change t.calls.length + 0 ≤ t.calls.length + t.active.toNat + 0
      omega
  | reset =>
      change (Timer.reset lib t).charge ≤ t.charge + 0
      unfold Timer.reset
      split_ifs
      · exact le_refl _
      · exact le_refl _
  | proceed timer => exact le_refl _
  | complete aborted timer => exact charge_onTick aborted _

theorem charge_run {t t' : Timer κ ω} {es : List (Event κ ω)} (h : (timers lib κ).Run t es t') :
    t'.charge ≤ t.charge + es.countP Event.isStart := by
  induction h with
  | nil => exact Nat.le_add_right _ _
  | @snoc es u e _ _ ih =>
      have hstep := charge_step lib u e
      rw [List.countP_append, List.countP_singleton]
      change (u.step lib e).charge ≤ _
      cases hstart : e.isStart
      · rw [hstart, Bool.toNat_false] at hstep
        simp only [Bool.false_eq_true, if_false]
        omega
      · rw [hstart, Bool.toNat_true] at hstep
        simp only [if_true]
        omega

/-- Whatever the library does, over any run a timer calls back at most once for each start,
and once more if it was active before: never after a `cancel`, unless it is started again.
With a lawful library the call of an active timer whose waits are due is not lost: the
library leads to it without another use of the timer. -/
theorem calls_back_once (lib : SteadyTimer ω) {t : Timer κ ω} (h : (timers lib κ).Reachable t) :
    (∀ es t', (timers lib κ).Run t es t' →
      t'.calls.length ≤ t.calls.length + t.active.toNat + es.countP Event.isStart) ∧
    (lib.Lawful → t.active = true →
      (∀ time, lib.WaitsUntil t.timer time → time ≤ lib.now t.timer) →
      ∃ es t' callback, (timers lib κ).Run t es t' ∧ (∀ e ∈ es, e.OfLibrary) ∧
        t.callback = some callback ∧ t'.calls = t.calls ++ [callback]) := by
  constructor
  · intro es t' hrun
    have hcharge := charge_run hrun
    unfold charge at hcharge
    omega
  · intro hlib hactive hdue
    obtain ⟨callback, hcallback⟩ := callback_reachable h hactive
    rcases pending_reachable hlib h hactive with ⟨time, hwaits⟩ | hqueued
    · obtain ⟨w, hexpires, hqueued⟩ := hlib.expires _ time hwaits (hdue time hwaits)
      obtain ⟨w', hruns⟩ := hlib.runs w hqueued
      refine ⟨[.proceed w, .complete false w'], _, callback,
        .of_allowed ⟨hexpires, hruns, trivial⟩, ?_, hcallback, ?_⟩
      · intro e he
        simp only [List.mem_cons, List.not_mem_nil, or_false] at he
        rcases he with rfl | rfl
        · trivial
        · trivial
      · exact calls_complete lib (t := t.step lib (.proceed w)) hactive hcallback w'
    · obtain ⟨w, hruns⟩ := hlib.runs _ hqueued
      refine ⟨[.complete false w], _, callback, .of_allowed ⟨hruns, trivial⟩, ?_, hcallback, ?_⟩
      · intro e he
        rw [List.mem_singleton.mp he]
        trivial
      · exact calls_complete lib hactive hcallback w

def dueEvents : List (Event String QueuedWaits) :=
  [.start 5 "retry", .proceed { now := 5, expiry := 5, waits := 1 }]

def dueTimer : Timer String QueuedWaits :=
  (timers QueuedWaits.lib String).after { timer := {} } dueEvents

theorem calls_back_once_retry :
    dueTimer.calls = [] ∧ ∃ es t', (timers QueuedWaits.lib String).Run dueTimer es t' ∧
      t'.calls = ["retry"] := by
  have hreachable : (timers QueuedWaits.lib String).Reachable dueTimer := by
    refine .of_allowed ⟨{}, ⟨0, rfl⟩, rfl⟩ ⟨trivial, Or.inl ⟨5, ?_, rfl⟩, trivial⟩
    change (0 : Int) ≤ 5
    decide
  have hdue : ∀ time, QueuedWaits.lib.WaitsUntil dueTimer.timer time →
      time ≤ QueuedWaits.lib.now dueTimer.timer := by
    rintro time ⟨_, rfl⟩
    change (5 : Int) ≤ 5
    decide
  obtain ⟨es, t', callback, hrun, _, hcallback, hcalls⟩ :=
    (calls_back_once QueuedWaits.lib hreachable).2 QueuedWaits.lawful rfl hdue
  refine ⟨rfl, es, t', hrun, ?_⟩
  rw [hcalls, ← Option.some.inj hcallback]
  rfl

/-! ## No early timeout -/

/-- The time of the last `start` or effective `reset`. -/
def noteArmed (lib : SteadyTimer ω) (t : Timer κ ω) (e : Event κ ω) (_ : Timer κ ω)
    (armed : Option Int) : Option Int :=
  match e with
  | .start _ _ => some (lib.now t.timer)
  | .reset => if t.active && decide (t.duration > 0) then some (lib.now t.timer) else armed
  | _ => armed

/-- The timer is not armed while an expiry of it waits in the queue. -/
def Prompt (lib : SteadyTimer ω) (t : Timer κ ω) : Event κ ω → Prop
  | .start _ _ | .reset => ¬lib.Expired t.timer
  | _ => True

/-- A wait, and an expiry in the queue, are those of the last time the timer was armed. -/
structure Punctual (lib : SteadyTimer ω) (t : Timer κ ω) (armed : Option Int) : Prop where
  wait : ∀ time, lib.WaitsUntil t.timer time →
    ∃ since, armed = some since ∧ time = since + t.duration
  queued : lib.Expired t.timer →
    ∃ since, armed = some since ∧ since + t.duration ≤ lib.now t.timer

theorem Punctual.arm (hlib : lib.Lawful) {t : Timer κ ω} (h : ¬lib.Expired t.timer) :
    (arm lib t).Punctual lib (some (lib.now t.timer)) where
  wait time hwaits := ⟨lib.now t.timer, rfl, (hlib.wait_waits _ _ time).mp hwaits⟩
  queued hqueued := absurd ((hlib.wait_expired _ _).mp hqueued) h

theorem Punctual.rearm (hlib : lib.Lawful) {t : Timer κ ω} {old : ω}
    (htimer : t.timer = lib.cancel old) (h : ¬lib.Expired old) :
    (Timer.arm lib t).Punctual lib (some (lib.now old)) := by
  rw [← hlib.cancel_now, ← htimer]
  apply Punctual.arm hlib
  rwa [htimer, hlib.cancel_expired]

theorem Punctual.step (hlib : lib.Lawful) {t : Timer κ ω} {armed : Option Int}
    (h : t.Punctual lib armed) {e : Event κ ω} (henabled : t.Enabled lib e)
    (hprompt : t.Prompt lib e) :
    (t.step lib e).Punctual lib (noteArmed lib t e (t.step lib e) armed) := by
  cases e with
  | start duration callback => exact .rearm hlib rfl hprompt
  | cancel =>
      constructor
      · intro time hwaits
        exact absurd hwaits (hlib.cancel_waits _ time)
      · intro hqueued
        change ∃ since, armed = some since ∧ since + t.duration ≤ lib.now (lib.cancel t.timer)
        rw [hlib.cancel_now]
        exact h.queued ((hlib.cancel_expired _).mp hqueued)
  | reset =>
      change (Timer.reset lib t).Punctual lib (if _ then _ else _)
      unfold Timer.reset
      split_ifs
      · exact .rearm hlib rfl hprompt
      · exact h
  | proceed timer =>
      refine ⟨fun time hwaits => h.wait time (hlib.proceeds_waits _ _ time henabled hwaits), ?_⟩
      intro hqueued
      rcases hlib.proceeds_expired _ _ henabled hqueued with hbefore | ⟨time, hwaits, hdue⟩
      · obtain ⟨since, harmed, hover⟩ := h.queued hbefore
        exact ⟨since, harmed, hover.trans (hlib.proceeds_now _ _ henabled)⟩
      · obtain ⟨since, harmed, rfl⟩ := h.wait time hwaits
        exact ⟨since, harmed, hdue⟩
  | complete aborted timer =>
      obtain ⟨htimer, hduration⟩ := timer_onTick aborted { t with timer }
      have hnow : lib.now timer = lib.now t.timer := hlib.completes_now _ _ _ henabled
      constructor
      · change ∀ time, lib.WaitsUntil (onTick aborted _).timer time →
          ∃ since, armed = some since ∧ time = since + (onTick aborted _).duration
        rw [htimer, hduration]
        intro time hwaits
        exact h.wait time ((hlib.completes_waits _ _ _ time henabled).mp hwaits)
      · change lib.Expired (onTick aborted _).timer → ∃ since, armed = some since ∧
          since + (onTick aborted _).duration ≤ lib.now (onTick aborted _).timer
        rw [htimer, hduration]
        dsimp only
        rw [hnow]
        intro hqueued
        apply h.queued
        cases aborted with
        | false => exact hlib.completes_expired _ _ henabled
        | true => exact (hlib.completes_aborted _ _ henabled).mp hqueued

theorem eq_complete_of_calls {t : Timer κ ω} {e : Event κ ω}
    (h : (t.step lib e).calls ≠ t.calls) : ∃ timer, e = .complete false timer := by
  cases e with
  | complete aborted timer =>
      cases aborted with
      | false => exact ⟨timer, rfl⟩
      | true => exact absurd rfl h
  | reset =>
      refine absurd ?_ h
      change (Timer.reset lib t).calls = t.calls
      unfold Timer.reset
      split_ifs <;> rfl
  | start duration callback => exact absurd rfl h
  | cancel => exact absurd rfl h
  | proceed timer => exact absurd rfl h

theorem punctual_reachable (hlib : lib.Lawful) {t : Timer κ ω} {armed : Option Int}
    (h : (((timers lib κ).restrict (Prompt lib)).watch none (noteArmed lib)).Reachable (t, armed)) :
    t.Punctual lib armed := by
  refine h.invariant (P := fun p => p.1.Punctual lib p.2) ?_ ?_
  · rintro ⟨_, _⟩ ⟨⟨timer, hcreated, rfl⟩, rfl⟩
    constructor
    · intro time hwaits
      exact absurd hwaits (hlib.created_waits timer time hcreated)
    · intro hqueued
      exact absurd hqueued (hlib.created_expired timer hcreated)
  · rintro ⟨t, armed⟩ e ht ⟨henabled, hprompt⟩
    exact ht.step hlib henabled hprompt

theorem reset_keeps (hlib : lib.Lawful) (t : Timer κ ω) :
    (t.reset lib).active = t.active ∧ (t.reset lib).callback = t.callback ∧
      (lib.Expired (t.reset lib).timer ↔ lib.Expired t.timer) ∧
      lib.now (t.reset lib).timer = lib.now t.timer ∧ (t.reset lib).calls = t.calls := by
  unfold Timer.reset
  split_ifs
  · refine ⟨rfl, rfl, ?_, ?_, rfl⟩
    · exact (hlib.wait_expired _ _).trans (hlib.cancel_expired _)
    · exact (hlib.wait_now _ _).trans (hlib.cancel_now _)
  · exact ⟨rfl, rfl, Iff.rfl, rfl, rfl⟩

/-- With a lawful library: if the timer is never armed while an expiry of it is in the queue,
it calls back only when the duration has passed since it was last armed.  An expiry that is in
the queue when the timer is reset can call back all the same, however short the time since. -/
theorem never_early_if_prompt (lib : SteadyTimer ω) (hlib : lib.Lawful) :
    (∀ (t : Timer κ ω) (armed : Option Int) (e : Event κ ω),
      (((timers lib κ).restrict (Prompt lib)).watch none (noteArmed lib)).Reachable (t, armed) →
      t.Enabled lib e → (t.step lib e).calls ≠ t.calls →
      ∃ since, armed = some since ∧ since + t.duration ≤ lib.now t.timer) ∧
    ∀ t : Timer κ ω, (timers lib κ).Reachable t → t.active = true → lib.Expired t.timer →
      ∃ timer, (timers lib κ).enabled (t.step lib .reset) (.complete false timer) ∧
        lib.now timer = lib.now t.timer ∧
        ((t.step lib .reset).step lib (.complete false timer)).calls ≠ t.calls := by
  constructor
  · intro t armed e h henabled hcalls
    obtain ⟨timer, rfl⟩ := eq_complete_of_calls hcalls
    exact (punctual_reachable hlib h).queued (hlib.completes_expired _ _ henabled)
  · intro t h hactive hqueued
    obtain ⟨callback, hcallback⟩ := callback_reachable h hactive
    obtain ⟨hactive', hcallback', hqueued', hnow, hcalls⟩ := reset_keeps hlib t
    obtain ⟨timer, hruns⟩ := hlib.runs _ (hqueued'.mpr hqueued)
    refine ⟨timer, hruns, (hlib.completes_now _ _ _ hruns).trans hnow, ?_⟩
    have hcalled := calls_complete lib (hactive'.trans hactive)
      (hcallback'.trans hcallback) timer
    change (((t.reset lib).step lib (.complete false timer)).calls) ≠ t.calls
    rw [hcalled, hcalls]
    simp

def resetEvents : List (Event String QueuedWaits) :=
  [.start 5 "keepalive", .proceed { now := 3, expiry := 5, waits := 1 }, .reset,
    .proceed { now := 8, expiry := 8, waits := 1, completions := [true] },
    .proceed { now := 8, expiry := 8, completions := [true, false] }]

def resetTimer : Timer String QueuedWaits × Option Int :=
  (((timers QueuedWaits.lib String).restrict (Prompt QueuedWaits.lib)).watch none
    (noteArmed QueuedWaits.lib)).after ({ timer := {} }, none) resetEvents

def resetHandled : QueuedWaits := { now := 8, expiry := 8, completions := [true] }

theorem never_early_if_prompt_reset :
    (resetTimer.1.step QueuedWaits.lib (.complete false resetHandled)).calls = ["keepalive"] ∧
    ∃ since, resetTimer.2 = some since ∧
      since + resetTimer.1.duration ≤ QueuedWaits.lib.now resetTimer.1.timer := by
  have hnone : false ∉ ([] : List Bool) := List.not_mem_nil
  have hreachable : (((timers QueuedWaits.lib String).restrict (Prompt QueuedWaits.lib)).watch none
      (noteArmed QueuedWaits.lib)).Reachable (resetTimer.1, resetTimer.2) := by
    refine .of_allowed ⟨⟨{}, ⟨0, rfl⟩, rfl⟩, rfl⟩ ⟨⟨trivial, hnone⟩,
      ⟨Or.inl ⟨3, ?_, rfl⟩, trivial⟩, ⟨trivial, hnone⟩, ⟨Or.inl ⟨8, ?_, rfl⟩, trivial⟩,
      ⟨Or.inr ⟨?_, rfl⟩, trivial⟩, trivial⟩
    · change (0 : Int) ≤ 3
      decide
    · change (3 : Int) ≤ 8
      decide
    · change (8 : Int) ≤ 8
      decide
  have hcalls : (resetTimer.1.step QueuedWaits.lib (.complete false resetHandled)).calls =
      ["keepalive"] := rfl
  have hqueued : false ∈ [true, false] := by decide
  have henabled : resetTimer.1.Enabled QueuedWaits.lib (.complete false resetHandled) :=
    ⟨hqueued, rfl⟩
  refine ⟨hcalls, (never_early_if_prompt QueuedWaits.lib QueuedWaits.lawful).1 _ _ _ hreachable
    henabled ?_⟩
  rw [hcalls]
  exact List.cons_ne_nil _ _

end Timer

end JellyBroker.Utils
