import Mathlib.Logic.Relation
/-!
# Transition systems

Deterministic systems driven by events.  `invariant` is the induction over
runs, packaged once.  `restrict` keeps the runs whose steps all meet a
condition, and `watch` adds an observer to a system.
-/

namespace JellyBroker.Lib

structure System (σ ε : Type) where
  init : σ → Prop
  enabled : σ → ε → Prop
  step : σ → ε → σ

namespace System

variable {σ ε : Type}

/-- `Run s es t`: the events `es` lead from `s` to `t`. -/
inductive Run (S : System σ ε) (s : σ) : List ε → σ → Prop
  | nil : Run S s [] s
  | snoc {es : List ε} {t : σ} {e : ε} :
      Run S s es t → S.enabled t e → Run S s (es ++ [e]) (S.step t e)

def Reachable (S : System σ ε) (t : σ) : Prop :=
  ∃ s es, S.init s ∧ S.Run s es t

/-- The system without the steps that miss the condition. -/
def restrict (S : System σ ε) (condition : σ → ε → Prop) : System σ ε where
  init := S.init
  enabled s e := S.enabled s e ∧ condition s e
  step := S.step

/-- The system together with a record that an observer updates at every step,
from the states before and after it. -/
def watch {μ : Type} (S : System σ ε) (start : μ) (note : σ → ε → σ → μ → μ) :
    System (σ × μ) ε where
  init p := S.init p.1 ∧ p.2 = start
  enabled p e := S.enabled p.1 e
  step p e := (S.step p.1 e, note p.1 e (S.step p.1 e) p.2)

def after (S : System σ ε) (s : σ) (es : List ε) : σ := es.foldl S.step s

def Allowed (S : System σ ε) (s : σ) : List ε → Prop
  | [] => True
  | e :: es => S.enabled s e ∧ S.Allowed (S.step s e) es

variable {S : System σ ε}

theorem Run.append {s t u : σ} {es es' : List ε} (h : S.Run s es t) (h' : S.Run t es' u) :
    S.Run s (es ++ es') u := by
  induction h' with
  | nil => rwa [List.append_nil]
  | snoc _ henabled ih =>
      rw [← List.append_assoc]
      exact .snoc ih henabled

theorem Run.of_allowed {s : σ} {es : List ε} (h : S.Allowed s es) :
    S.Run s es (S.after s es) := by
  induction es generalizing s with
  | nil => exact .nil
  | cons e es ih =>
      have hfirst : S.Run s [e] (S.step s e) := .snoc .nil h.1
      exact hfirst.append (ih h.2)

theorem allowed_of_enabled (h : ∀ s e, S.enabled s e) (s : σ) (es : List ε) : S.Allowed s es := by
  induction es generalizing s with
  | nil => trivial
  | cons e es ih => exact ⟨h s e, ih _⟩

theorem Reachable.of_allowed {s : σ} {es : List ε} (hs : S.init s) (h : S.Allowed s es) :
    S.Reachable (S.after s es) :=
  ⟨s, es, hs, .of_allowed h⟩

theorem Run.preserves {P : σ → Prop} (hstep : ∀ s e, P s → S.enabled s e → P (S.step s e))
    {s t : σ} {es : List ε} (h : S.Run s es t) (hs : P s) : P t := by
  induction h with
  | nil => exact hs
  | snoc _ henabled ih => exact hstep _ _ ih henabled

/-- What holds initially and is preserved by every step holds in every
reachable state. -/
theorem Reachable.invariant {P : σ → Prop} (hinit : ∀ s, S.init s → P s)
    (hstep : ∀ s e, P s → S.enabled s e → P (S.step s e)) {t : σ} (h : S.Reachable t) :
    P t := by
  obtain ⟨s, es, hs, hrun⟩ := h
  exact hrun.preserves hstep (hinit s hs)

theorem Reachable.step {s : σ} (h : S.Reachable s) {e : ε} (henabled : S.enabled s e) :
    S.Reachable (S.step s e) := by
  obtain ⟨s₀, es, hs, hrun⟩ := h
  exact ⟨s₀, es ++ [e], hs, .snoc hrun henabled⟩

theorem Reachable.of_restrict {condition : σ → ε → Prop} {t : σ}
    (h : (S.restrict condition).Reachable t) : S.Reachable t := by
  refine h.invariant (P := S.Reachable) ?_ ?_
  · intro s hs
    exact ⟨s, [], hs, .nil⟩
  · intro s e hs henabled
    exact hs.step henabled.1

end System

end JellyBroker.Lib
