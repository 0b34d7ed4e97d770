import Mathlib

set_option autoImplicit false

/-! # Working off a list within a budget

A list is worked off from its front. Some of its elements give a report, and the work stops when
there have been `n` reports. What has been worked off is a prefix, its reports are the first `n`
reports of the list (`workOff_reports`), and a list in two parts is worked off part by part
(`workOff_parts`).
-/

namespace C11Omo.Lib

variable {α β : Type} (report : α → Option β)

/-- What is worked off within a budget of `n` reports, and what is left. -/
def workOff : Nat → List α → List α × List α
  | 0, xs => ([], xs)
  | _ + 1, [] => ([], [])
  | n + 1, x :: xs =>
      let next := workOff (if (report x).isSome then n else n + 1) xs
      (x :: next.1, next.2)

@[simp] theorem workOff_zero (xs : List α) : workOff report 0 xs = ([], xs) := by
  cases xs <;> rfl

@[simp] theorem workOff_nil (n : Nat) : workOff report n [] = ([], []) := by
  cases n <;> rfl

/-- Nothing is lost, and the order is kept. -/
theorem workOff_append (n : Nat) (xs : List α) :
    (workOff report n xs).1 ++ (workOff report n xs).2 = xs := by
  induction xs generalizing n with
  | nil => simp
  | cons x xs ih =>
      cases n with
      | zero => simp
      | succ n =>
          rw [workOff, List.cons_append, ih]

/-- The reports are the first ones of the list. -/
theorem workOff_reports (n : Nat) (xs : List α) :
    (workOff report n xs).1.filterMap report = (xs.filterMap report).take n := by
  induction xs generalizing n with
  | nil => simp
  | cons x xs ih =>
      cases n with
      | zero => simp
      | succ n =>
          rcases hx : report x with _ | b
          · rw [workOff, List.filterMap_cons_none hx, List.filterMap_cons_none hx, ih, hx]
            rfl
          · rw [workOff, List.filterMap_cons_some hx, List.filterMap_cons_some hx, ih, hx]
            rfl

/-- **A list in two parts**: the second part is worked off with what the first one has left of
the budget. -/
theorem workOff_parts (n : Nat) (xs ys : List α) :
    workOff report n (xs ++ ys)
      = ((workOff report n xs).1
          ++ (workOff report (n - ((workOff report n xs).1.filterMap report).length) ys).1,
        (workOff report n xs).2
          ++ (workOff report (n - ((workOff report n xs).1.filterMap report).length) ys).2) := by
  induction xs generalizing n with
  | nil => simp
  | cons x xs ih =>
      cases n with
      | zero => simp
      | succ n =>
          rw [List.cons_append, workOff, workOff, ih]
          rcases hx : report x with _ | b
          · rw [List.filterMap_cons_none hx]
            rfl
          · rw [List.filterMap_cons_some hx, List.length_cons, Nat.add_sub_add_right]
            rfl

/-- An element with a report is among the reported ones, unless `n` elements before it were. -/
theorem workOff_mem {n : Nat} {before after : List α} {x : α} {b : β} (hx : report x = some b) :
    b ∈ (workOff report n (before ++ x :: after)).1.filterMap report
      ∨ (workOff report n (before ++ x :: after)).1.filterMap report
          = (before.filterMap report).take n
        ∧ ((before.filterMap report).take n).length = n := by
  rw [workOff_reports, List.filterMap_append, List.filterMap_cons_some hx, List.take_append]
  by_cases hroom : (before.filterMap report).length < n
  · left
    obtain ⟨k, hk⟩ := Nat.exists_eq_succ_of_ne_zero (Nat.sub_ne_zero_of_lt hroom)
    rw [hk, List.take_succ_cons]
    exact List.mem_append_right _ List.mem_cons_self
  · right
    have hnone : n - (before.filterMap report).length = 0 := by omega
    rw [hnone, List.take_zero, List.append_nil, List.length_take]
    exact ⟨rfl, by omega⟩

end C11Omo.Lib
