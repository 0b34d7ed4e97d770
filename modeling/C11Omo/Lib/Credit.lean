import Mathlib

set_option autoImplicit false

/-! # Computations that need room

A computation in a bounded space stops (`none`) when it runs out of room. Beside it stands the
same computation with room for everything. What a state holds of the room is its load, a number
that may count in advance what later steps will need: a step that uses what was counted costs
nothing. `Affords` says that `cost` units of free room are enough for a computation and that it
adds no more than them to the load; costs of computations in a row add up (`Affords.bind`).
-/

namespace C11Omo.Lib

/-- With `cost` free units beside the `held` ones the computation `tried` does not run out of room
and gives `result`, whose load is at most `cost` above what was held. -/
def Affords {ρ : Type} (room : Nat) (load : ρ → Nat) (held cost : Nat) (tried : Option ρ)
    (result : ρ) : Prop :=
  held + cost ≤ room → tried = some result ∧ load result ≤ held + cost

namespace Affords

variable {ρ ρ' : Type} {room held cost : Nat} {load : ρ → Nat} {load' : ρ' → Nat}
  {tried : Option ρ} {result : ρ}

/-- A step that needs no room. -/
theorem pure (h : load result ≤ held + cost) : Affords room load held cost (some result) result :=
  fun _ => ⟨rfl, h⟩

/-- More may be held or spent: also what was spent before the computation. -/
theorem weaken (h : Affords room load held cost tried result) {held' cost' : Nat}
    (hle : held + cost ≤ held' + cost') : Affords room load held' cost' tried result := by
  intro hroom
  obtain ⟨hres, hload⟩ := h (hle.trans hroom)
  exact ⟨hres, hload.trans hle⟩

/-- **Two computations in a row.** -/
theorem bind (h : Affords room load held cost tried result) {next : ρ → Option ρ'} {result' : ρ'}
    {cost' : Nat} (hnext : Affords room load' (load result) cost' (next result) result') :
    Affords room load' held (cost + cost') (tried.bind next) result' := by
  intro hroom
  obtain ⟨hres, hload⟩ := h (by omega)
  obtain ⟨hres', hload'⟩ := hnext (by omega)
  refine ⟨?_, by omega⟩
  rw [hres, Option.bind_some]
  exact hres'

end Affords

end C11Omo.Lib
