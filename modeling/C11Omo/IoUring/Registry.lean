import Mathlib.Logic.Relation
import C11Omo.IoUring.UserData

set_option autoImplicit false

/-! # The registry

What the backend is about: the table of descriptors, and the requests that have been made and whose
completions have not been processed. Here it does not matter where a request is, in the submission
queue, in the kernel, in the ring or among the saved completions. The moves are what can happen
to the two; every call of the backend is a sequence of moves (`Runs.lean`), so an invariant of the
moves is an invariant of the backend.
-/

namespace C11Omo.IoUring

/-- The entries of the descriptors, and the user_data and registrations of the requests that are
outstanding. -/
structure Registry where
  fds : Fin uringMaxFds → FdState
  outstanding : Multiset (Nat × Nat)

namespace Registry

/-- The poll of the current registration of a descriptor. -/
def pollTag (r : Registry) (i : Fin uringMaxFds) : Nat × Nat :=
  (pollUserData i (r.fds i).generation, (r.fds i).registrations)

/-- Its cancellation. -/
def cancelTag (r : Registry) (i : Fin uringMaxFds) : Nat × Nat :=
  (cancelUserData i (r.fds i).generation, (r.fds i).registrations)

/-- The request whose completion is a timeout. -/
def timeoutTag : Nat × Nat := (uringTimeoutFlag, 0)

/-- A completion is taken to be for the current registration of a descriptor. -/
def Current (r : Registry) (i : Fin uringMaxFds) (tag : Nat × Nat) : Prop :=
  isTimeoutUserData tag.1 = false ∧ userDataFd tag.1 = i
    ∧ userDataGeneration tag.1 = (r.fds i).generation

/-- The entry of a descriptor that is registered. -/
def registered (state : FdState) (events : Nat) : FdState :=
  if state.used then { state with events }
  else
    { state with
      used := true
      events
      generation := (state.generation + 1) % 2 ^ 30
      registrations := state.registrations + 1 }

def setSlot (r : Registry) (i : Fin uringMaxFds) (state : FdState) : Registry :=
  { r with fds := Function.update r.fds i state }

/-- What can happen to the registry. -/
inductive Move
  | register (i : Fin uringMaxFds) (events : Nat)
  | arm (i : Fin uringMaxFds)
  | timeout
  | cancel (i : Fin uringMaxFds)
  | ignore (tag : Nat × Nat)
  | settle (i : Fin uringMaxFds) (tag : Nat × Nat)
  | answer (i : Fin uringMaxFds) (tag : Nat × Nat)
  | duplicate (tag : Nat × Nat)
  | clear (i : Fin uringMaxFds)

/-- The moves. A completion that is for no current registration is ignored, others settle theirs.
The answer to a cancellation is what a removal waits for. -/
inductive Does : Move → Registry → Registry → Prop
  | register {r : Registry} (i : Fin uringMaxFds) (events : Nat) :
      Does (.register i events) r (r.setSlot i (registered (r.fds i) events))
  | arm {r : Registry} (i : Fin uringMaxFds) (hused : (r.fds i).used = true)
      (hactive : (r.fds i).active = false) :
      Does (.arm i) r { r.setSlot i { r.fds i with active := true } with
        outstanding := r.outstanding + {r.pollTag i} }
  | timeout {r : Registry} :
      Does .timeout r { r with outstanding := r.outstanding + {timeoutTag} }
  | cancel {r : Registry} (i : Fin uringMaxFds) (hused : (r.fds i).used = true)
      (hactive : (r.fds i).active = true) :
      Does (.cancel i) r { r with outstanding := r.outstanding + {r.cancelTag i} }
  | ignore {r : Registry} (tag : Nat × Nat) (hmem : tag ∈ r.outstanding)
      (hstale : ∀ i, ¬ r.Current i tag) :
      Does (.ignore tag) r { r with outstanding := r.outstanding.erase tag }
  | settle {r : Registry} (i : Fin uringMaxFds) (tag : Nat × Nat) (hmem : tag ∈ r.outstanding)
      (hcurrent : r.Current i tag) :
      Does (.settle i tag) r { r.setSlot i { r.fds i with active := false } with
        outstanding := r.outstanding.erase tag }
  | answer {r : Registry} (i : Fin uringMaxFds) (tag : Nat × Nat) (hmem : tag ∈ r.outstanding)
      (hcancel : tag.1 = cancelUserData i (r.fds i).generation) :
      Does (.answer i tag) r { r with outstanding := r.outstanding.erase tag }
  | duplicate {r : Registry} (tag : Nat × Nat) (hmem : tag ∈ r.outstanding) :
      Does (.duplicate tag) r { r with outstanding := r.outstanding + {tag} }
  | clear {r : Registry} (i : Fin uringMaxFds) :
      Does (.clear i) r
        (r.setSlot i { r.fds i with active := false, used := false, events := 0 })

/-- Sequences of moves that each meet a condition. -/
def Moves (good : Registry → Move → Prop) : Registry → Registry → Prop :=
  Relation.ReflTransGen fun r r' => ∃ m, good r m ∧ Does m r r'

variable {good : Registry → Move → Prop} {r r' : Registry} {i j : Fin uringMaxFds}

theorem Moves.one {m : Move} (hgood : good r m) (h : Does m r r') : Moves good r r' :=
  .single ⟨m, hgood, h⟩

theorem Moves.trans {r'' : Registry} (h : Moves good r r') (h' : Moves good r' r'') :
    Moves good r r'' := Relation.ReflTransGen.trans h h'

/-- What every move preserves is preserved by a sequence of moves. -/
theorem Moves.invariant {P : Registry → Prop}
    (hmove : ∀ {r r' : Registry} {m : Move}, good r m → Does m r r' → P r → P r')
    (h : Moves good r r') (hr : P r) : P r' := by
  induction h with
  | refl => exact hr
  | tail _ hstep ih =>
      obtain ⟨m, hgood, hdoes⟩ := hstep
      exact hmove hgood hdoes ih

@[simp] theorem setSlot_same (r : Registry) (i : Fin uringMaxFds) (state : FdState) :
    (r.setSlot i state).fds i = state := Function.update_self ..

theorem setSlot_ne (r : Registry) (h : j ≠ i) (state : FdState) :
    (r.setSlot i state).fds j = r.fds j := Function.update_of_ne h _ _

@[simp] theorem setSlot_outstanding (r : Registry) (i : Fin uringMaxFds) (state : FdState) :
    (r.setSlot i state).outstanding = r.outstanding := rfl

end Registry

end C11Omo.IoUring
