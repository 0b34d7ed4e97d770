import Mathlib

set_option autoImplicit false

/-! # Edited inputs

A machine reads a list of inputs, one after the other. Some changes of an input cannot be seen by
the machine, and some inputs leave no trace in its state, so that they may as well be there or not.
`Edits` relates two lists that differ in such ways only. Which inputs leave no trace may depend on
the state in which they are read: it is the state of the machine that reads the first list. Edited
lists lead to related states (`Edits.foldl`) if one edit does.
-/

namespace C11Omo.Lib

variable {σ ε : Type}

/-- Two lists of inputs for the machine `next`, read from a given state on, that differ in changed
inputs and in inputs without a trace. -/
inductive Edits (next : σ → ε → σ) (Changed : ε → ε → Prop) (Inert : σ → ε → Prop) :
    σ → List ε → List ε → Prop
  | nil (s : σ) : Edits next Changed Inert s [] []
  | change {s : σ} {e e' : ε} {es es' : List ε} :
      Changed e e' → Edits next Changed Inert (next s e) es es' →
        Edits next Changed Inert s (e :: es) (e' :: es')
  | insert {s : σ} {e : ε} {es es' : List ε} :
      Inert s e → Edits next Changed Inert s es es' → Edits next Changed Inert s es (e :: es')
  | delete {s : σ} {e : ε} {es es' : List ε} :
      Inert s e → Edits next Changed Inert (next s e) es es' →
        Edits next Changed Inert s (e :: es) es'

namespace Edits

variable {next : σ → ε → σ} {Changed : ε → ε → Prop} {Inert : σ → ε → Prop}

/-- **Edited inputs lead to related states.** -/
theorem foldl {R : σ → σ → Prop}
    (hchange : ∀ {s s' e e'}, R s s' → Changed e e' → R (next s e) (next s' e'))
    (hinsert : ∀ {s s' e}, R s s' → Inert s e → R s (next s' e))
    (hdelete : ∀ {s s' e}, R s s' → Inert s e → R (next s e) s')
    {s s' : σ} {es es' : List ε} (h : Edits next Changed Inert s es es') (hs : R s s') :
    R (es.foldl next s) (es'.foldl next s') := by
  induction h generalizing s' with
  | nil => exact hs
  | change hc _ ih => exact ih (hchange hs hc)
  | insert hi _ ih => exact ih (hinsert hs hi)
  | delete hi _ ih => exact ih (hdelete hs hi)

/-- Inputs that always leave a trace are neither inserted nor deleted. -/
theorem countP {p : ε → Bool} (hchange : ∀ {e e'}, Changed e e' → p e' = p e)
    (hinert : ∀ {s e}, Inert s e → p e = false) {s : σ} {es es' : List ε}
    (h : Edits next Changed Inert s es es') : es'.countP p = es.countP p := by
  induction h with
  | nil => rfl
  | change hc _ ih => rw [List.countP_cons, List.countP_cons, hchange hc, ih]
  | insert hi _ ih => rw [List.countP_cons_of_neg (by simp [hinert hi]), ih]
  | delete hi _ ih => rw [List.countP_cons_of_neg (by simp [hinert hi]), ih]

end Edits

end C11Omo.Lib
