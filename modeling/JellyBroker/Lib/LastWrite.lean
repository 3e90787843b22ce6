import JellyBroker.Lib.Past
import Mathlib.Data.List.Induction
/-!
# Registers that the last write decides

A view of a state that some steps set and all others leave alone.  Its value is the one
of the last step that set it, in a loop over a list as in the past of a run.
-/

namespace JellyBroker.Lib

variable {α : Type}

def LastWith (P : α → Prop) (xs : List α) (x : α) : Prop :=
  P x ∧ ∃ before after, xs = before ++ x :: after ∧ ∀ y ∈ after, ¬P y

theorem LastWith.mem {P : α → Prop} {xs : List α} {x : α} (h : LastWith P xs x) : x ∈ xs := by
  obtain ⟨_, before, after, rfl, _⟩ := h
  exact List.mem_append_right _ List.mem_cons_self

theorem LastWith.congr {P Q : α → Prop} {xs : List α} {x : α} (h : LastWith P xs x)
    (hiff : ∀ y ∈ xs, P y ↔ Q y) : LastWith Q xs x := by
  have hx := (hiff x h.mem).mp h.1
  obtain ⟨_, before, after, rfl, hafter⟩ := h
  refine ⟨hx, before, after, rfl, ?_⟩
  intro y hy hQ
  have hmem : y ∈ before ++ x :: after :=
    List.mem_append_right _ (List.mem_cons_of_mem _ hy)
  exact hafter y hy ((hiff y hmem).mpr hQ)

theorem lastWith_congr {P Q : α → Prop} {xs : List α} {x : α} (h : ∀ y ∈ xs, P y ↔ Q y) :
    LastWith P xs x ↔ LastWith Q xs x :=
  ⟨fun hlast => hlast.congr h, fun hlast => hlast.congr fun y hy => (h y hy).symm⟩

theorem lastWith_concat {P : α → Prop} {x : α} (h : P x) (xs : List α) :
    LastWith P (xs ++ [x]) x := by
  refine ⟨h, xs, [], rfl, ?_⟩
  intro y hy
  cases hy

theorem LastWith.concat {P : α → Prop} {xs : List α} {x y : α} (h : LastWith P xs x)
    (hy : ¬P y) : LastWith P (xs ++ [y]) x := by
  obtain ⟨hx, before, after, rfl, hafter⟩ := h
  refine ⟨hx, before, after ++ [y], by rw [List.append_assoc, List.cons_append], ?_⟩
  intro z hz
  rcases List.mem_append.mp hz with hz | hz
  · exact hafter z hz
  · rw [List.mem_singleton.mp hz]
    exact hy

theorem lastWith_concat_iff {P : α → Prop} {xs : List α} {x y : α} :
    LastWith P (xs ++ [y]) x ↔ P y ∧ x = y ∨ ¬P y ∧ LastWith P xs x := by
  constructor
  · rintro ⟨hx, before, after, heq, hafter⟩
    rcases List.eq_nil_or_concat after with rfl | ⟨init, last, rfl⟩
    · obtain ⟨_, hlast⟩ := List.append_inj' heq rfl
      obtain rfl := (List.cons.inj hlast).1
      exact Or.inl ⟨hx, rfl⟩
    · rw [List.concat_eq_append] at heq hafter
      rw [← List.cons_append, ← List.append_assoc] at heq
      obtain ⟨hxs, hlast⟩ := List.append_inj' heq rfl
      obtain rfl := (List.cons.inj hlast).1
      refine Or.inr ⟨hafter y (List.mem_append_right _ List.mem_cons_self), hx, before, init, hxs,
        ?_⟩
      intro z hz
      exact hafter z (List.mem_append_left _ hz)
  · rintro (⟨hy, rfl⟩ | ⟨hy, hx⟩)
    · exact lastWith_concat hy xs
    · exact hx.concat hy

theorem exists_lastWith {P : α → Prop} {xs : List α} (h : ∃ x ∈ xs, P x) :
    ∃ x, LastWith P xs x := by
  induction xs using List.reverseRecOn with
  | nil =>
      obtain ⟨x, hx, _⟩ := h
      cases hx
  | append_singleton xs y ih =>
      by_cases hy : P y
      · exact ⟨y, lastWith_concat hy xs⟩
      · obtain ⟨x, hx, hPx⟩ := h
        rcases List.mem_append.mp hx with hx | hx
        · obtain ⟨z, hz⟩ := ih ⟨x, hx, hPx⟩
          exact ⟨z, hz.concat hy⟩
        · rw [List.mem_singleton.mp hx] at hPx
          exact absurd hPx hy

/-! ## Loops -/

section Loop

variable {σ β : Type} (value : σ → β) {turn : σ → α → σ} {P : α → Prop}

theorem foldl_of_none (hkeep : ∀ s x, ¬P x → value (turn s x) = value s) {xs : List α}
    (h : ∀ x ∈ xs, ¬P x) (s : σ) : value (xs.foldl turn s) = value s := by
  induction xs generalizing s with
  | nil => rfl
  | cons x xs ih =>
      rw [List.foldl_cons, ih fun y hy => h y (List.mem_cons_of_mem x hy)]
      exact hkeep s x (h x List.mem_cons_self)

theorem foldl_of_lastWith (hkeep : ∀ s x, ¬P x → value (turn s x) = value s) {xs : List α} {x : α}
    (h : LastWith P xs x) {v : β} (hwrite : ∀ s, value (turn s x) = v) (s : σ) :
    value (xs.foldl turn s) = v := by
  obtain ⟨_, before, after, rfl, hafter⟩ := h
  rw [List.foldl_append, List.foldl_cons, foldl_of_none value hkeep hafter]
  exact hwrite _

end Loop

/-! ## Runs -/

namespace System

variable {σ ε β : Type} {S : System σ ε} {start : β}

/-- A value other than the one at the start is that of the last step that wrote one. -/
theorem Reachable.lastWrite_iff (value : σ → β) (Writes : σ → ε → β → Prop)
    (hinit : ∀ s, S.init s → value s = start)
    (hwrite : ∀ s e v, S.Reachable s → S.enabled s e → Writes s e v → value (S.step s e) = v)
    (hkeep : ∀ s e, S.Reachable s → S.enabled s e → (∀ v, ¬Writes s e v) →
      value (S.step s e) = value s)
    {t : σ × List (σ × ε)} (h : S.recorded.Reachable t) {v : β} (hv : v ≠ start) :
    value t.1 = v ↔
      ∃ step, LastWith (fun step => ∃ v, Writes step.1 step.2 v) t.2 step ∧
        Writes step.1 step.2 v := by
  refine h.of_past (P := fun past s => value s = v ↔
    ∃ step, LastWith (fun step => ∃ v, Writes step.1 step.2 v) past step ∧
      Writes step.1 step.2 v) ?_ ?_
  · intro s hs
    constructor
    · intro hvalue
      exact absurd (hvalue.symm.trans (hinit s hs)) hv
    · rintro ⟨step, hlast, _⟩
      have hmem := hlast.mem
      cases hmem
  · intro past s e hpast hlater henabled
    have hs := hpast.of_mem_past.1
    by_cases hwrites : ∃ v, Writes s e v
    · constructor
      · intro hvalue
        obtain ⟨w, hw⟩ := hwrites
        obtain rfl : w = v := (hwrite s e w hs henabled hw).symm.trans hvalue
        exact ⟨(s, e), lastWith_concat ⟨w, hw⟩ past, hw⟩
      · rintro ⟨step, hlast, hstep⟩
        rcases lastWith_concat_iff.mp hlast with ⟨_, rfl⟩ | ⟨hnone, _⟩
        · exact hwrite s e v hs henabled hstep
        · exact absurd hwrites hnone
    · rw [hkeep s e hs henabled (not_exists.mp hwrites), hlater]
      constructor
      · rintro ⟨step, hlast, hstep⟩
        exact ⟨step, hlast.concat hwrites, hstep⟩
      · rintro ⟨step, hlast, hstep⟩
        rcases lastWith_concat_iff.mp hlast with ⟨hsome, _⟩ | ⟨_, hlast⟩
        · exact absurd hsome hwrites
        · exact ⟨step, hlast, hstep⟩

end System

end JellyBroker.Lib
