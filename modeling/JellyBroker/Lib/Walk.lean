import Mathlib.Tactic
/-!
# Walks

A partial function that leads from place to place.  Among finitely many places
a walk comes to an end exactly when it meets no cycle.
-/

namespace JellyBroker.Lib.Walk

open Relation

variable {α : Type}

def Step (next : α → Option α) (place place' : α) : Prop := next place = some place'

/-- The walk from a place ends after fewer than `steps` steps. -/
def EndsWithin (next : α → Option α) : Nat → α → Prop
  | 0, _ => False
  | steps + 1, place => ∀ place', Step next place place' → EndsWithin next steps place'

def MeetsCycle (next : α → Option α) (place : α) : Prop :=
  ∃ place', ReflTransGen (Step next) place place' ∧ TransGen (Step next) place' place'

variable {next : α → Option α} {place place' : α} {steps : Nat}

theorem endsWithin_of_end (h : next place = none) : EndsWithin next (steps + 1) place := by
  intro place' hstep
  rw [Step, h] at hstep
  cases hstep

theorem endsWithin_of_step (h : next place = some place') :
    EndsWithin next (steps + 1) place ↔ EndsWithin next steps place' := by
  constructor
  · intro hends
    exact hends place' h
  · intro hends other hstep
    have hsame : place' = other := Option.some.inj (h.symm.trans hstep)
    rwa [← hsame]

theorem EndsWithin.of_transGen (hwalk : TransGen (Step next) place place')
    (h : EndsWithin next steps place) : ∃ fewer < steps, EndsWithin next fewer place' := by
  induction hwalk with
  | single hstep =>
      cases steps with
      | zero => exact h.elim
      | succ fewer => exact ⟨fewer, by omega, h _ hstep⟩
  | tail _ hstep ih =>
      obtain ⟨fewer, hfewer, hends⟩ := ih
      cases fewer with
      | zero => exact hends.elim
      | succ least => exact ⟨least, by omega, hends _ hstep⟩

theorem EndsWithin.of_reflTransGen (hwalk : ReflTransGen (Step next) place place')
    (h : EndsWithin next steps place) : ∃ fewer, EndsWithin next fewer place' := by
  rcases reflTransGen_iff_eq_or_transGen.mp hwalk with heq | htrans
  · exact ⟨steps, heq ▸ h⟩
  · obtain ⟨fewer, _, hends⟩ := h.of_transGen htrans
    exact ⟨fewer, hends⟩

theorem not_endsWithin_of_cycle (h : TransGen (Step next) place place) :
    ¬EndsWithin next steps place := by
  induction steps using Nat.strong_induction_on with
  | _ steps ih =>
      intro hends
      obtain ⟨fewer, hfewer, hends'⟩ := hends.of_transGen h
      exact ih fewer hfewer hends'

/-- Without a cycle the places still to come form a well-founded order. -/
theorem exists_endsWithin (hfinite : {p | ReflTransGen (Step next) place p}.Finite)
    (h : ¬MeetsCycle next place) : ∃ steps, EndsWithin next steps place := by
  let later (p q : {p | ReflTransGen (Step next) place p}) : Prop :=
    TransGen (Step next) q.val p.val
  have : Finite {p | ReflTransGen (Step next) place p} := hfinite
  have : IsTrans _ later := ⟨fun _ _ _ hpq hqr => hqr.trans hpq⟩
  have : Std.Irrefl later := ⟨fun p hcycle => h ⟨p.val, p.property, hcycle⟩⟩
  have hwf : WellFounded later := Finite.wellFounded_of_trans_of_irrefl later
  have hall : ∀ p : {p | ReflTransGen (Step next) place p},
      ∃ steps, EndsWithin next steps p.val := by
    intro p
    induction p using hwf.induction with
    | _ p ih =>
        cases hnext : next p.val with
        | none => exact ⟨0 + 1, endsWithin_of_end hnext⟩
        | some q =>
            have hvisited : ReflTransGen (Step next) place q := p.property.tail hnext
            obtain ⟨steps, hends⟩ := ih ⟨q, hvisited⟩ (TransGen.single hnext)
            exact ⟨steps + 1, (endsWithin_of_step hnext).mpr hends⟩
  exact hall ⟨place, ReflTransGen.refl⟩

theorem exists_endsWithin_iff (hfinite : {p | ReflTransGen (Step next) place p}.Finite) :
    (∃ steps, EndsWithin next steps place) ↔ ¬MeetsCycle next place := by
  constructor
  · rintro ⟨steps, hends⟩ ⟨place', hwalk, hcycle⟩
    obtain ⟨fewer, hends'⟩ := hends.of_reflTransGen hwalk
    exact not_endsWithin_of_cycle hcycle hends'
  · exact exists_endsWithin hfinite

/-- The places of a walk are finitely many when all steps lead into one finite
set. -/
theorem finite_visited {places : Set α} (hplaces : places.Finite)
    (h : ∀ p q, next p = some q → q ∈ places) :
    {p | ReflTransGen (Step next) place p}.Finite := by
  apply (hplaces.insert place).subset
  intro p hwalk
  rcases ReflTransGen.cases_tail hwalk with heq | ⟨q, _, hstep⟩
  · exact Or.inl heq
  · exact Or.inr (h q p hstep)

end JellyBroker.Lib.Walk
