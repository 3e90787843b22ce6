import Mathlib.Data.Finmap
/-!
# Finite maps with a constant value type

Hash maps are modelled by `Finmap`, which has one entry per key and forgets
the iteration order.  This module fixes the value type and states the
lookup laws in the `if` form that state-update proofs rewrite with.
-/

namespace JellyBroker.Lib

abbrev Map (κ ν : Type) := Finmap (fun _ : κ => ν)

namespace Map

variable {κ ν : Type} [DecidableEq κ]

theorem lookup_insert_ite (m : Map κ ν) (k k' : κ) (v : ν) :
    (m.insert k v).lookup k' = if k' = k then some v else m.lookup k' := by
  by_cases h : k' = k
  · subst h
    simp
  · rw [Finmap.lookup_insert_of_ne m h, if_neg h]

theorem lookup_erase_ite (m : Map κ ν) (k k' : κ) :
    (m.erase k).lookup k' = if k' = k then none else m.lookup k' := by
  by_cases h : k' = k
  · subst h
    simp
  · rw [Finmap.lookup_erase_ne h, if_neg h]

end Map

end JellyBroker.Lib
