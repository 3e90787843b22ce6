import JellyBroker.Lib.Transition
/-!
# The past of a run

A system that keeps the steps of its run, so that a statement about a state can say
where something in it came from.  `of_past` is the induction for such statements: what
a step adds has its origin in the step itself, and everything else keeps the origin it
had.
-/

namespace JellyBroker.Lib.System

variable {σ ε : Type}

/-- The system with the steps of its run, each one the state it left and its event. -/
def recorded (S : System σ ε) : System (σ × List (σ × ε)) ε :=
  S.watch [] fun s e _ past => past ++ [(s, e)]

variable {S : System σ ε}

/-- What holds initially without a past, and goes on to hold when a step joins the
past, holds of every state with its past. -/
theorem Reachable.of_past {P : List (σ × ε) → σ → Prop} (hinit : ∀ s, S.init s → P [] s)
    (hstep : ∀ past s e, S.recorded.Reachable (s, past) → P past s → S.enabled s e →
      P (past ++ [(s, e)]) (S.step s e))
    {t : σ × List (σ × ε)} (h : S.recorded.Reachable t) : P t.2 t.1 := by
  refine (h.invariant (P := fun t => S.recorded.Reachable t ∧ P t.2 t.1) ?_ ?_).2
  · rintro ⟨s, past⟩ ⟨hs, hpast⟩
    change past = [] at hpast
    rw [hpast]
    exact ⟨⟨(s, []), [], ⟨hs, rfl⟩, .nil⟩, hinit s hs⟩
  · rintro ⟨s, past⟩ e ⟨hs, hP⟩ henabled
    exact ⟨hs.step henabled, hstep past s e hs hP henabled⟩

/-- A step of the past started in a reachable state and was possible there. -/
theorem Reachable.of_mem_past {t : σ × List (σ × ε)} (h : S.recorded.Reachable t) :
    S.Reachable t.1 ∧ ∀ step ∈ t.2, S.Reachable step.1 ∧ S.enabled step.1 step.2 := by
  refine h.of_past
    (P := fun past s => S.Reachable s ∧ ∀ step ∈ past, S.Reachable step.1 ∧
      S.enabled step.1 step.2) ?_ ?_
  · intro s hs
    exact ⟨⟨s, [], hs, .nil⟩, by simp⟩
  · intro past s e _ hs henabled
    refine ⟨hs.1.step henabled, ?_⟩
    intro step hmem
    rcases List.mem_append.mp hmem with hold | hnew
    · exact hs.2 step hold
    · rw [List.mem_singleton.mp hnew]
      exact ⟨hs.1, henabled⟩

/-- What came before a step of the past is the past of the state that the step left. -/
theorem Reachable.of_before {t s : σ} {e : ε} {past before after : List (σ × ε)}
    (h : S.recorded.Reachable (t, past)) (hpast : past = before ++ (s, e) :: after) :
    S.recorded.Reachable (s, before) := by
  have hall := h.of_past (P := fun past _ => ∀ before s e after, past = before ++ (s, e) :: after →
    S.recorded.Reachable (s, before)) ?_ ?_
  · exact hall before s e after hpast
  · rintro _ _ before _ _ after heq
    have hempty := congrArg List.length heq
    simp at hempty
  · intro past s e hs hbefore _ before m e' after heq
    rcases List.eq_nil_or_concat after with rfl | ⟨init, last, rfl⟩
    · obtain ⟨rfl, hlast⟩ := List.append_inj' heq rfl
      obtain ⟨rfl, _⟩ := Prod.mk.inj (List.cons.inj hlast).1
      exact hs
    · rw [List.concat_eq_append, ← List.cons_append, ← List.append_assoc] at heq
      exact hbefore before m e' init (List.append_inj' heq rfl).1

theorem Reachable.run_recorded {s t : σ} {past : List (σ × ε)} {es : List ε}
    (h : S.recorded.Reachable (s, past)) (hrun : S.Run s es t) :
    ∃ later, S.recorded.Reachable (t, past ++ later) := by
  induction hrun with
  | nil =>
      refine ⟨[], ?_⟩
      rwa [List.append_nil]
  | @snoc es t e _ henabled ih =>
      obtain ⟨later, hlater⟩ := ih
      refine ⟨later ++ [(t, e)], ?_⟩
      rw [← List.append_assoc]
      exact hlater.step henabled

end JellyBroker.Lib.System
