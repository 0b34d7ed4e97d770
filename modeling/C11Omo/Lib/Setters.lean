import Mathlib

set_option autoImplicit false

/-! # Folds of setters

A fold over inputs that each set a field of a record, or leave it alone. To a field that is only
ever set to one value the order of the inputs does not matter, nor how many of them set it.
-/

namespace C11Omo.Lib

variable {σ ε β : Type} {next : σ → ε → σ} {es : List ε} {f : σ → β} {v : β}

/-- A field that inputs set to the value it has. -/
theorem foldl_stays (hnext : ∀ e ∈ es, ∀ s, f (next s e) = v ∨ f (next s e) = f s) {s : σ}
    (hs : f s = v) : f (es.foldl next s) = v := by
  induction es generalizing s with
  | nil => exact hs
  | cons e es ih =>
      apply ih (fun e' he' => hnext e' (List.mem_cons_of_mem e he'))
      rcases hnext e List.mem_cons_self s with hv | hv
      · exact hv
      · rw [hv, hs]

/-- **A field that is set to one value only** has that value if it had it before, or as soon as one
input sets it. -/
theorem foldl_sets (hnext : ∀ e ∈ es, ∀ s, f (next s e) = v ∨ f (next s e) = f s) {s : σ}
    (h : f s = v ∨ ∃ e ∈ es, ∀ s, f (next s e) = v) : f (es.foldl next s) = v := by
  induction es generalizing s with
  | nil =>
      rcases h with hs | ⟨e, he, -⟩
      · exact hs
      · cases he
  | cons e es ih =>
      have hrest : ∀ e' ∈ es, ∀ s, f (next s e') = v ∨ f (next s e') = f s :=
        fun e' he' => hnext e' (List.mem_cons_of_mem e he')
      rcases h with hs | ⟨e', he', hv⟩
      · exact foldl_stays hnext hs
      · rw [List.foldl_cons]
        rcases List.mem_cons.mp he' with rfl | hmem
        · exact foldl_stays hrest (hv s)
        · exact ih hrest (.inr ⟨e', hmem, hv⟩)

end C11Omo.Lib
