import Mathlib.Tactic
/-!
# Data refinement of fallible stateful code

Code over a concrete state refines code over an abstract one, along a view of the state,
if it returns the same value or fails with the same error, and the states it leaves
correspond.  The rules follow the control flow, so that a function over the concrete
state is compared with its abstract version step by step.
-/

namespace JellyBroker.Lib

variable {σ τ ε β γ : Type} {view : σ → τ}

/-- The concrete code behaves as the abstract one does on the view of its state. -/
def Refines (view : σ → τ) (concrete : StateT σ (Except ε) β) (abstract : StateT τ (Except ε) β) :
    Prop :=
  ∀ s, (concrete s).map (Prod.map id view) = abstract (view s)

namespace Refines

theorem pure (value : β) :
    Refines view (Pure.pure value : StateT σ (Except ε) β) (Pure.pure value) := by
  intro s
  rfl

theorem throw (e : ε) :
    Refines view (MonadExcept.throw e : StateT σ (Except ε) β) (MonadExcept.throw e) := by
  intro s
  rfl

theorem bind {concrete : StateT σ (Except ε) β} {abstract : StateT τ (Except ε) β}
    (h : Refines view concrete abstract) {next : β → StateT σ (Except ε) γ}
    {next' : β → StateT τ (Except ε) γ} (hnext : ∀ value, Refines view (next value) (next' value)) :
    Refines view (concrete >>= next) (abstract >>= next') := by
  intro s
  have hs := h s
  change ((concrete s).bind fun p => next p.1 p.2).map (Prod.map id view) =
    (abstract (view s)).bind fun p => next' p.1 p.2
  cases hconcrete : concrete s with
  | error e =>
      rw [hconcrete] at hs
      rw [← hs]
      rfl
  | ok p =>
      rw [hconcrete] at hs
      rw [← hs]
      exact hnext p.1 p.2

/-- Code that looks at the state: the continuations need to agree only on what they see
of one and the same state. -/
theorem get {next : σ → StateT σ (Except ε) β} {next' : τ → StateT τ (Except ε) β}
    (h : ∀ s, (next s s).map (Prod.map id view) = next' (view s) (view s)) :
    Refines view (MonadState.get >>= next) (MonadState.get >>= next') := h

theorem ite {condition : Prop} [Decidable condition]
    {concrete concrete' : StateT σ (Except ε) β} {abstract abstract' : StateT τ (Except ε) β}
    (h : Refines view concrete abstract) (h' : Refines view concrete' abstract') :
    Refines view (if condition then concrete else concrete')
      (if condition then abstract else abstract') := by
  split
  · exact h
  · exact h'

end Refines

end JellyBroker.Lib
