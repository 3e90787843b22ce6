import Mathlib.Tactic
/-!
# Depth-first walks with an explicit stack

A worklist loop pops a frame, emits what the frame yields and pushes the
frames it expands to.  `StackWalk.run` is that loop with a bound on the number
of pops.  `StackWalk.run_eq` replaces it by the recursive traversal the stack
stands for, once a weight bounds the pops still to come.
-/

namespace JellyBroker.Lib.StackWalk

variable {φ ω : Type}

/-- Pop frames until the stack is empty or `fuel` pops were made.  `visit`
returns what a frame emits and the frames it pushes, topmost first. -/
def run (visit : φ → List ω × List φ) : Nat → List φ → List ω → List ω
  | 0, _, result => result
  | _ + 1, [], result => result
  | fuel + 1, frame :: stack, result =>
      run visit fuel ((visit frame).2 ++ stack) (result ++ (visit frame).1)

variable {visit : φ → List ω × List φ} {weight : φ → Nat} {collect : φ → List ω}

/-- The loop emits exactly the recursive traversals of the stacked frames,
top of the stack first. -/
theorem run_eq
    (hweight : ∀ frame, ((visit frame).2.map weight).sum + 1 ≤ weight frame)
    (hcollect : ∀ frame,
      collect frame = (visit frame).1 ++ (visit frame).2.flatMap collect)
    (fuel : Nat) (stack : List φ) (result : List ω)
    (hfuel : (stack.map weight).sum ≤ fuel) :
    run visit fuel stack result = result ++ stack.flatMap collect := by
  induction fuel generalizing stack result with
  | zero =>
      cases stack with
      | nil => simp [run]
      | cons frame stack =>
          have hpos := hweight frame
          simp only [List.map_cons, List.sum_cons] at hfuel
          omega
  | succ fuel ih =>
      cases stack with
      | nil => simp [run]
      | cons frame stack =>
          have hpos := hweight frame
          have hrest : (((visit frame).2 ++ stack).map weight).sum ≤ fuel := by
            simp only [List.map_cons, List.sum_cons] at hfuel
            simp only [List.map_append, List.sum_append]
            omega
          rw [run, ih _ _ hrest, List.flatMap_append, List.flatMap_cons,
            hcollect frame]
          simp only [List.append_assoc]

end JellyBroker.Lib.StackWalk
