import Mathlib

set_option autoImplicit false

/-! # Transition systems with a history

A labelled transition system `step : σ → List ε → σ → Prop` records in each step the events it
adds to the history. `Steps` is a sequence of steps with the events of all of them. Two
induction rules are all that is used of it: an invariant of the state, and a relation between
the history and the state, each of which has to be checked for one step only.
-/

namespace C11Omo.Lib

variable {σ ε : Type} {step : σ → List ε → σ → Prop}

/-- A sequence of steps and the events they record. -/
inductive Steps (step : σ → List ε → σ → Prop) : σ → List ε → σ → Prop
  | refl (s : σ) : Steps step s [] s
  | head {s t u : σ} {es fs : List ε} : step s es t → Steps step t fs u → Steps step s (es ++ fs) u

namespace Steps

theorem single {s t : σ} {es : List ε} (h : step s es t) : Steps step s es t := by
  have := Steps.head h (Steps.refl t)
  rwa [List.append_nil] at this

theorem trans {s t u : σ} {es fs : List ε} (h₁ : Steps step s es t) (h₂ : Steps step t fs u) :
    Steps step s (es ++ fs) u := by
  induction h₁ with
  | refl => exact h₂
  | head h _ ih =>
      rw [List.append_assoc]
      exact .head h (ih h₂)

/-- What every step preserves, a sequence of steps preserves. -/
theorem invariant {P : σ → Prop} (hP : ∀ {s es t}, step s es t → P s → P t)
    {s t : σ} {es : List ε} (h : Steps step s es t) (hs : P s) : P t := by
  induction h with
  | refl => exact hs
  | head h _ ih => exact ih (hP h hs)

/-- A relation between history and state that every step extends holds after a sequence of
steps, with their events appended to the history. -/
theorem history {R : List ε → σ → Prop}
    (hR : ∀ {hist s es t}, step s es t → R hist s → R (hist ++ es) t)
    {hist : List ε} {s t : σ} {es : List ε} (h : Steps step s es t) (hs : R hist s) :
    R (hist ++ es) t := by
  induction h generalizing hist with
  | refl => rwa [List.append_nil]
  | head h _ ih =>
      rw [← List.append_assoc]
      exact ih (hR h hs)

end Steps

/-- An element of a list with one more element at its end is that element, or it stands before. -/
theorem snoc_eq_append_cons {α : Type} {xs before after : List α} {x y : α}
    (h : xs ++ [x] = before ++ y :: after) :
    (after = [] ∧ xs = before ∧ x = y)
      ∨ ∃ after', after = after' ++ [x] ∧ xs = before ++ y :: after' := by
  rcases List.eq_nil_or_concat after with rfl | ⟨after', last, rfl⟩
  · obtain ⟨hxs, hx⟩ := List.append_inj' h rfl
    exact Or.inl ⟨rfl, hxs, List.singleton_inj.mp hx⟩
  · rw [List.concat_eq_append, ← List.cons_append, ← List.append_assoc] at h
    obtain ⟨hxs, hx⟩ := List.append_inj' h rfl
    refine Or.inr ⟨after', ?_, hxs⟩
    rw [List.concat_eq_append, List.singleton_inj.mp hx]

end C11Omo.Lib
