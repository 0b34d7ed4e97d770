import Mathlib

set_option autoImplicit false

/-! # Sessions with resources

A system opens resources, uses and closes them; a resource is known by a key, and the key may be
given to another resource once the first is closed. A trace lists the accesses to all resources in
the order in which they happen. `Sessions.run` follows a trace and keeps the log of every open
resource. It stops at an access that is out of order: a key that is opened twice, or that is used
or closed without being open.

A trace is *sound* for a property of logs if nothing in it is out of order and the log of every
open resource has the property at every moment. The rules (`Sound.append`, `Sound.opened`,
`Sound.uses`, `Sound.closed`) put a sound trace together from its parts.
-/

namespace C11Omo.Lib

/-- One access to a resource. -/
inductive Access (κ α : Type)
  | opened (key : κ)
  | used (key : κ) (use : α)
  | closed (key : κ)
  deriving DecidableEq

/-- The log of every resource that is open. -/
def Sessions (κ α : Type) : Type := κ → Option (List α)

namespace Sessions

variable {κ α : Type}

/-- Nothing is open. -/
def none : Sessions κ α := fun _ => .none

/-- The log of one key is replaced. -/
def set [DecidableEq κ] (s : Sessions κ α) (key : κ) (log : Option (List α)) : Sessions κ α :=
  Function.update s key log

section

variable [DecidableEq κ] {s s' : Sessions κ α} {key : κ} {log : List α}
  {trace trace' : List (Access κ α)}

@[simp] theorem set_self (s : Sessions κ α) (key : κ) (log : Option (List α)) :
    s.set key log key = log := Function.update_self ..

theorem set_ne {key' : κ} (h : key' ≠ key) (s : Sessions κ α) (log : Option (List α)) :
    s.set key log key' = s key' := Function.update_of_ne h ..

@[simp] theorem set_set (s : Sessions κ α) (key : κ) (log log' : Option (List α)) :
    (s.set key log).set key log' = s.set key log' := Function.update_idem ..

theorem set_same {log : Option (List α)} (h : s key = log) : s.set key log = s := by
  rw [← h]
  exact Function.update_eq_self ..

/-- One access, if it is in order. -/
def step (s : Sessions κ α) : Access κ α → Option (Sessions κ α)
  | .opened key => if (s key).isSome then .none else some (s.set key (some []))
  | .used key use => (s key).map fun log => s.set key (some (log ++ [use]))
  | .closed key => (s key).map fun _ => s.set key .none

/-- Accesses in a row, if all of them are in order. -/
def run (s : Sessions κ α) (trace : List (Access κ α)) : Option (Sessions κ α) :=
  trace.foldlM step s

@[simp] theorem run_nil (s : Sessions κ α) : s.run [] = some s := rfl

theorem run_cons (s : Sessions κ α) (access : Access κ α) :
    s.run (access :: trace) = (s.step access).bind fun s' => s'.run trace := by
  rw [run, List.foldlM_cons]
  rfl

theorem run_append (s : Sessions κ α) :
    s.run (trace ++ trace') = (s.run trace).bind fun s' => s'.run trace' := by
  rw [run, List.foldlM_append]
  rfl

theorem run_append_of (h : s.run trace = some s') : s.run (trace ++ trace') = s'.run trace' := by
  rw [run_append, h, Option.bind_some]

/-- The log of a resource that is open after a trace from the start. -/
def logAfter (trace : List (Access κ α)) (key : κ) : Option (List α) :=
  (none.run trace).bind fun s => s key

theorem logAfter_eq_some (h : logAfter trace key = some log) :
    ∃ s : Sessions κ α, none.run trace = some s ∧ s key = some log := Option.bind_eq_some_iff.mp h

/-- **Uses of one open resource** are put to its log. -/
theorem run_uses (h : s key = some log) (uses : List α) :
    s.run (uses.map (.used key)) = some (s.set key (some (log ++ uses))) := by
  induction uses generalizing s log with
  | nil => rw [List.append_nil, set_same h, List.map_nil, run_nil]
  | cons use uses ih =>
      have hstep : s.step (.used key use) = some (s.set key (some (log ++ [use]))) := by
        rw [step, h, Option.map_some]
      rw [List.map_cons, run_cons, hstep, Option.bind_some, ih (set_self s key _), set_set,
        List.append_assoc, List.singleton_append]

/-! ## Sound traces -/

/-- Every open resource has a log with the property. -/
def All (P : List α → Prop) (s : Sessions κ α) : Prop := ∀ key log, s key = some log → P log

/-- At every moment of the trace all accesses so far are in order, and the log of every open
resource has the property. -/
def Sound (P : List α → Prop) (s : Sessions κ α) (trace : List (Access κ α)) : Prop :=
  ∀ before, before <+: trace → ∃ s', s.run before = some s' ∧ s'.All P

variable {P : List α → Prop}

omit [DecidableEq κ] in
theorem none_all : (none : Sessions κ α).All P := fun _ _ h => by cases h

theorem All.set (h : s.All P) {log : Option (List α)} (hlog : ∀ l ∈ log, P l) :
    (s.set key log).All P := by
  intro key' l hl
  by_cases hkey : key' = key
  · subst hkey
    rw [set_self] at hl
    exact hlog l hl
  · rw [set_ne hkey] at hl
    exact h key' l hl

theorem Sound.nil (h : s.All P) : s.Sound P [] := by
  intro before hpre
  rw [List.prefix_nil.mp hpre]
  exact ⟨s, rfl, h⟩

/-- A sound trace can be followed to its end. -/
theorem Sound.run (h : s.Sound P trace) : ∃ s', s.run trace = some s' ∧ s'.All P :=
  h trace List.prefix_rfl

theorem Sound.all (h : s.Sound P trace) (hrun : s.run trace = some s') : s'.All P := by
  obtain ⟨t, ht, hall⟩ := h.run
  rw [hrun] at ht
  rwa [Option.some.inj ht]

/-- One part after the other. -/
theorem Sound.append (h : s.Sound P trace) (hrun : s.run trace = some s')
    (h' : s'.Sound P trace') : s.Sound P (trace ++ trace') := by
  intro before hpre
  rcases List.prefix_or_prefix_of_prefix hpre (List.prefix_append trace trace') with hin | ⟨rest, rfl⟩
  · exact h before hin
  · obtain ⟨t, ht, hall⟩ := h' rest ((List.prefix_append_right_inj trace).mp hpre)
    exact ⟨t, by rw [run_append_of hrun, ht], hall⟩

/-- One access. -/
theorem Sound.single {access : Access κ α} (h : s.All P) (hstep : s.step access = some s')
    (h' : s'.All P) : s.Sound P [access] := by
  intro before hpre
  rcases before with _ | ⟨first, rest⟩
  · exact ⟨s, rfl, h⟩
  · obtain ⟨rfl, hrest⟩ := List.cons_prefix_cons.mp hpre
    rw [List.prefix_nil.mp hrest]
    exact ⟨s', by rw [run_cons, hstep, Option.bind_some, run_nil], h'⟩

/-- A resource that is not open is opened. -/
theorem Sound.opened (h : s.All P) (hclosed : s key = .none) (hnil : P []) :
    s.Sound P [.opened key] ∧ s.run [.opened key] = some (s.set key (some [])) := by
  have hstep : s.step (.opened key) = some (s.set key (some [])) := by
    rw [step, hclosed]
    rfl
  refine ⟨.single h hstep (h.set ?_), ?_⟩
  · intro l hl
    rwa [← Option.some.inj hl]
  · rw [run_cons, hstep, Option.bind_some, run_nil]

/-- A resource that is open is closed. -/
theorem Sound.closed (h : s.All P) (hopen : s key = some log) :
    s.Sound P [.closed key] ∧ s.run [.closed key] = some (s.set key .none) := by
  have hstep : s.step (.closed key) = some (s.set key .none) := by
    rw [step, hopen, Option.map_some]
  refine ⟨.single h hstep (h.set ?_), ?_⟩
  · intro l hl
    cases hl
  · rw [run_cons, hstep, Option.bind_some, run_nil]

/-- An open resource is used: every part of the uses keeps the property. -/
theorem Sound.uses (h : s.All P) (hopen : s key = some log) {uses : List α}
    (hP : ∀ before, before <+: uses → P (log ++ before)) : s.Sound P (uses.map (.used key)) := by
  intro before hpre
  obtain ⟨first, hfirst, rfl⟩ : ∃ first, first <+: uses ∧ before = first.map (.used key) := by
    obtain ⟨rest, hrest⟩ := hpre
    obtain ⟨first, last, rfl, hmap, -⟩ := List.map_eq_append_iff.mp hrest.symm
    exact ⟨first, List.prefix_append first last, hmap.symm⟩
  refine ⟨_, run_uses hopen first, h.set ?_⟩
  intro l hl
  rw [← Option.some.inj hl]
  exact hP first hfirst

end

end Sessions

end C11Omo.Lib
