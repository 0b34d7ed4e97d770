import C11Omo.IoUring.Queues
import C11Omo.IoUring.Registry

set_option autoImplicit false

/-! # Runs of the backend

A run is a sequence of calls of the functions of `io.h`, with the kernel completing requests in
flight at any time and in any order. Each call is a sequence of moves of the registry
(`call_moves`), so what the moves preserve holds after every run.
-/

namespace C11Omo.IoUring

open C11Omo.Http2 C11Omo.Lib

/-- A call of the backend that returns, or the kernel completing requests between two calls. -/
inductive Call
  | addListener (fd : Int)
  | addConnection (fd : Int)
  | modConnection (fd : Int) (wantWrite : Bool)
  | remove (fd : Int) (answer : Entered) (rounds : List Uring.Round)
  | wait (eventCap : Nat) (timeoutMs : Int) (extArg : Bool) (w : Uring.Waiting)
  | kernel (ps : List Post)

namespace Uring

/-- The state after a call, if it returns. -/
def call (u : Uring) : Call → Option Uring
  | .addListener fd => some (u.addListener fd).2
  | .addConnection fd => some (u.addConnection fd).2
  | .modConnection fd wantWrite => some (u.modConnection fd wantWrite).2
  | .remove fd answer rounds => (u.remove fd answer rounds).map Prod.snd
  | .wait eventCap timeoutMs extArg w => some (u.wait eventCap timeoutMs extArg w).2
  | .kernel ps => some (u.posts ps)

/-- A run whose calls all meet a condition. -/
def Runs (allowed : Uring → Call → Prop) : Uring → Uring → Prop :=
  Relation.ReflTransGen fun u v => ∃ c, allowed u c ∧ u.call c = some v

variable {u v : Uring} {i : Fin uringMaxFds} {fd : Int}

theorem Runs.trans {allowed : Uring → Call → Prop} {w : Uring} (h : Runs allowed u v)
    (h' : Runs allowed v w) : Runs allowed u w := Relation.ReflTransGen.trans h h'

theorem Runs.call {allowed : Uring → Call → Prop} {w : Uring} {c : Call} (h : Runs allowed u v)
    (hallowed : allowed v c) (hret : v.call c = some w) : Runs allowed u w :=
  Relation.ReflTransGen.tail h ⟨c, hallowed, hret⟩

/-- What every call preserves that meets the condition is preserved by a run. -/
theorem Runs.invariant {allowed : Uring → Call → Prop} {P : Uring → Prop}
    (hcall : ∀ {u v : Uring} {c : Call}, allowed u c → u.call c = some v → P u → P v)
    (h : Runs allowed u v) (hu : P u) : P v := by
  induction h with
  | refl => exact hu
  | tail _ hstep ih =>
      obtain ⟨c, hallowed, hret⟩ := hstep
      exact hcall hallowed hret ih

/-! ## Registration -/

/-- **`h2_uring_set_fd`** for a registration. -/
theorem setFd_eq (u : Uring) (fd : Int) (events : Nat) : u.setFd fd true events
    = match fdSlot fd with
      | none => (-1, u)
      | some i => (0, u.setSlot i (Registry.registered (u.fds i) events)) := by
  have hmask : ∀ n, n &&& uringGenerationMask = n % 2 ^ 30 := fun n =>
    Nat.and_two_pow_sub_one_eq_mod n 30
  rw [setFd]
  rcases fdSlot fd with _ | i
  · rfl
  · rcases hused : (u.fds i).used with _ | _
    · simp [Registry.registered, hused, hmask]
    · simp [Registry.registered, hused]

/-- A call that registers a descriptor. -/
def Registers (c : Call) (fd : Int) : Prop :=
  c = .addListener fd ∨ c = .addConnection fd ∨ ∃ wantWrite, c = .modConnection fd wantWrite

theorem Registers.call_eq {c : Call} (h : Registers c fd) : ∃ events, u.call c
    = match fdSlot fd with
      | none => some u
      | some i => some (u.setSlot i (Registry.registered (u.fds i) events)) := by
  have hset : ∀ events, some (u.setFd fd true events).2 = match fdSlot fd with
      | none => some u
      | some i => some (u.setSlot i (Registry.registered (u.fds i) events)) := by
    intro events
    rw [setFd_eq]
    rcases fdSlot fd with _ | i <;> rfl
  rcases h with rfl | rfl | ⟨wantWrite, rfl⟩
  · exact ⟨_, hset _⟩
  · exact ⟨_, hset _⟩
  · exact ⟨_, hset _⟩

/-! ## The moves of a call -/

/-- The table, and the outstanding requests wherever they are. -/
def registry (u : Uring) : Registry where
  fds := u.fds
  outstanding := u.outstanding

/-- The moves that neither register a descriptor nor settle or duplicate a completion. -/
def Quiet : Registry.Move → Prop
  | .register _ _ => False
  | .settle _ _ => False
  | .duplicate _ => False
  | _ => True

variable {good : Registry → Registry.Move → Prop}

/-- The condition holds whenever one of the completions settles a registration. -/
def SettlesWell (good : Registry → Registry.Move → Prop) (u : Uring) (cqes : List Cqe) : Prop :=
  ∀ before cqe after i, cqes = before ++ cqe :: after → (u.settleAll before).current cqe = some i →
    ∀ outstanding, good ⟨(u.settleAll before).fds, outstanding⟩ (.settle i cqe.tag)

/-- The moves of a call meet a condition: those that register a descriptor, that duplicate a
completion, and that settle one. All others always do. -/
structure Meets (good : Registry → Registry.Move → Prop) (u : Uring) (c : Call) : Prop where
  quiet : ∀ r m, Quiet m → good r m
  register : ∀ fd i events, Registers c fd → fdSlot fd = some i →
    good u.registry (.register i events)
  duplicate : ∀ fd answer rounds i, c = .remove fd answer rounds → fdSlot fd = some i →
    u.RemovalOverruns i answer rounds → ∀ r tag, good r (.duplicate tag)
  settle : ∀ eventCap timeoutMs extArg w, c = .wait eventCap timeoutMs extArg w →
    ∀ processed, u.Processed (u.armedFor eventCap w) processed (u.wait eventCap timeoutMs extArg w) →
      SettlesWell good (u.armedFor eventCap w) processed

open Registry

theorem arms_moves (hquiet : ∀ r m, Quiet m → good r m) (h : Relation.ReflTransGen Arms u v) :
    Moves good u.registry v.registry := by
  induction h with
  | refl => exact .refl
  | @tail v _ _ hstep ih =>
      obtain ⟨i, hused, hactive, rfl⟩ := hstep
      have harmed : (v.arm i).registry = { v.registry.setSlot i { v.fds i with active := true } with
          outstanding := v.outstanding + {v.registry.pollTag i} } := by
        rw [registry, arm_outstanding]
        rfl
      rw [harmed]
      exact .tail ih ⟨.arm i, hquiet _ _ trivial, .arm i hused hactive⟩

theorem timeouts_moves (hquiet : ∀ r m, Quiet m → good r m) (r : Registry) (n : Nat) :
    Moves good r { r with outstanding := r.outstanding + Multiset.replicate n timeoutTag } := by
  induction n with
  | zero =>
      rw [Multiset.replicate_zero, add_zero]
      exact .refl
  | succ n ih =>
      have hone := @Does.timeout
        { r with outstanding := r.outstanding + Multiset.replicate n timeoutTag }
      rw [add_assoc, add_comm (Multiset.replicate n timeoutTag), Multiset.singleton_add,
        ← Multiset.replicate_succ] at hone
      exact .tail ih ⟨.timeout, hquiet _ _ trivial, hone⟩

/-- Completions are processed one after the other. -/
theorem settleAll_moves (hquiet : ∀ r m, Quiet m → good r m) (outstanding : Multiset (Nat × Nat))
    (u : Uring) (cqes : List Cqe) (hsettle : SettlesWell good u cqes) :
    Moves good ⟨u.fds, outstanding + (cqes.map Cqe.tag : Multiset (Nat × Nat))⟩
      ⟨(u.settleAll cqes).fds, outstanding⟩ := by
  induction cqes generalizing u with
  | nil =>
      rw [List.map_nil, Multiset.coe_nil, add_zero]
      exact .refl
  | cons cqe cqes ih =>
      obtain ⟨r, hr⟩ : ∃ r : Registry, r = ⟨u.fds,
          outstanding + ((cqe :: cqes).map Cqe.tag : Multiset (Nat × Nat))⟩ := ⟨_, rfl⟩
      have hmem : cqe.tag ∈ r.outstanding := by
        rw [hr]
        exact Multiset.mem_add.mpr (Or.inr List.mem_cons_self)
      have herase : r.outstanding.erase cqe.tag
          = outstanding + (cqes.map Cqe.tag : Multiset (Nat × Nat)) := by
        rw [hr, List.map_cons, ← Multiset.cons_coe, Multiset.add_cons, Multiset.erase_cons_head]
      have hrest := ih (u.settle cqe) fun before cqe' after i hsplit =>
        hsettle (cqe :: before) cqe' after i (by rw [hsplit]; rfl)
      rw [← hr, settleAll_cons]
      rcases hcur : u.current cqe with _ | i
      · -- for no current registration
        have hdoes := @Does.ignore r cqe.tag hmem fun i hi => by
          rw [hr] at hi
          have hsome := (@current_eq_some u cqe i).mpr hi
          rw [hcur] at hsome
          cases hsome
        have hsame : u.settle cqe = u := by rw [settle, hcur]
        have hfds : r.fds = u.fds := by rw [hr]
        rw [herase, hfds] at hdoes
        rw [hsame] at hrest ⊢
        exact .head ⟨.ignore cqe.tag, hquiet _ _ trivial, hdoes⟩ hrest
      · -- for the current registration of `i`
        have hi : r.Current i cqe.tag := by
          rw [hr]
          exact current_eq_some.mp hcur
        have hdoes := Does.settle i cqe.tag hmem hi
        have hgood := hsettle [] cqe cqes i rfl hcur r.outstanding
        have hslot : u.settle cqe = u.setSlot i { u.fds i with active := false } := by
          rw [settle, hcur]
        have hfds : r.fds = u.fds := by rw [hr]
        rw [hslot] at hrest ⊢
        refine .head ⟨.settle i cqe.tag, ?_, ?_⟩ hrest
        · rw [hr]
          rw [hr] at hgood
          exact hgood
        · rw [herase, Registry.setSlot, hfds] at hdoes
          exact hdoes

/-- The moves of `h2_io_wait` before it processes completions. -/
theorem wait_submits (hquiet : ∀ r m, Quiet m → good r m) (u : Uring) (eventCap : Nat)
    (timeoutMs : Int) (extArg : Bool) (w : Waiting) : ∃ processed,
    u.Processed (u.armedFor eventCap w) processed (u.wait eventCap timeoutMs extArg w)
      ∧ Moves good u.registry ⟨(u.armedFor eventCap w).fds,
        (u.wait eventCap timeoutMs extArg w).2.outstanding
          + (processed.map Cqe.tag : Multiset (Nat × Nat))⟩ := by
  obtain ⟨processed, n, hprocessed, hout⟩ := wait_work u eventCap timeoutMs extArg w
  obtain ⟨armed, n', harms, hfds, hsubmitted⟩ := armedFor_arms u eventCap w
  have harm := arms_moves hquiet harms
  have htimeout := timeouts_moves hquiet armed.registry (n' + n)
  -- between the submission and the delivery only timeouts are added
  have hbetween : (⟨(u.armedFor eventCap w).fds, (u.wait eventCap timeoutMs extArg w).2.outstanding
        + (processed.map Cqe.tag : Multiset (Nat × Nat))⟩ : Registry)
      = { armed.registry with
          outstanding := armed.outstanding + Multiset.replicate (n' + n) timeoutTag } := by
    rw [hout, hfds, hsubmitted, add_assoc, Multiset.replicate_add]
    rfl
  refine ⟨processed, hprocessed, ?_⟩
  rw [hbetween]
  exact harm.trans htimeout

/-- **The moves of `h2_io_wait`.** -/
theorem wait_moves (hquiet : ∀ r m, Quiet m → good r m) (eventCap : Nat) (timeoutMs : Int)
    (extArg : Bool) (w : Waiting)
    (hsettle : ∀ processed, u.Processed (u.armedFor eventCap w) processed
      (u.wait eventCap timeoutMs extArg w) → SettlesWell good (u.armedFor eventCap w) processed) :
    Moves good u.registry (u.wait eventCap timeoutMs extArg w).2.registry := by
  obtain ⟨processed, hprocessed, hsubmits⟩ := wait_submits hquiet u eventCap timeoutMs extArg w
  have hwell := hsettle processed hprocessed
  have hwork := settleAll_moves hquiet (u.wait eventCap timeoutMs extArg w).2.outstanding
    (u.armedFor eventCap w) processed hwell
  obtain ⟨new, -, -, -, hsettled⟩ := hprocessed
  rw [← hsettled] at hwork
  exact hsubmits.trans hwork

/-- Some completions are there twice. -/
theorem duplicates_moves (r : Registry) (tags : Multiset (Nat × Nat))
    (hmem : ∀ tag ∈ tags, tag ∈ r.outstanding) (hgood : ∀ r, ∀ tag ∈ tags, good r (.duplicate tag)) :
    Moves good r { r with outstanding := r.outstanding + tags } := by
  induction tags using Multiset.induction with
  | empty =>
      rw [add_zero]
      exact .refl
  | cons tag tags ih =>
      have hrest := ih (fun tag' h => hmem tag' (Multiset.mem_cons_of_mem h))
        fun r tag' h => hgood r tag' (Multiset.mem_cons_of_mem h)
      have hone := @Does.duplicate { r with outstanding := r.outstanding + tags } tag
        (Multiset.mem_add.mpr (Or.inl (hmem tag (Multiset.mem_cons_self tag tags))))
      rw [add_assoc, add_comm tags, Multiset.singleton_add] at hone
      exact .tail hrest ⟨.duplicate tag, hgood _ tag (Multiset.mem_cons_self tag tags), hone⟩

/-- Answers to cancellations of a descriptor are taken. -/
theorem answers_moves (hquiet : ∀ r m, Quiet m → good r m) (r : Registry) (i : Fin uringMaxFds)
    (tags : Multiset (Nat × Nat))
    (hcancel : ∀ tag ∈ tags, tag.1 = cancelUserData i (r.fds i).generation) :
    Moves good { r with outstanding := r.outstanding + tags } r := by
  induction tags using Multiset.induction with
  | empty =>
      rw [add_zero]
      exact .refl
  | cons tag tags ih =>
      have hrest := ih fun tag' h => hcancel tag' (Multiset.mem_cons_of_mem h)
      have hone := @Does.answer { r with outstanding := r.outstanding + tag ::ₘ tags } i tag
        (Multiset.mem_add.mpr (Or.inr (Multiset.mem_cons_self tag tags)))
        (hcancel tag (Multiset.mem_cons_self tag tags))
      simp only [Multiset.add_cons, Multiset.erase_cons_head] at hone
      rw [Multiset.add_cons]
      exact .head ⟨.answer i tag, hquiet _ _ trivial, hone⟩ hrest

theorem drain_moves (hquiet : ∀ r m, Quiet m → good r m) {rounds : List Round} {ret : Int}
    (hdup : u.Overruns i rounds → ∀ r tag, good r (.duplicate tag))
    (h : drainUntilCancel i rounds u = some (ret, v)) : Moves good u.registry v.registry := by
  obtain ⟨gone, more, hout, hgone, hmore, hnone⟩ := drainUntilCancel_outstanding h
  obtain ⟨_, -, hfds, -⟩ := drainUntilCancel_outcome h
  have hgrow : Moves good u.registry { u.registry with outstanding := u.outstanding + more } := by
    by_cases hrun : u.Overruns i rounds
    · exact duplicates_moves u.registry more hmore fun r tag _ => hdup hrun r tag
    · rw [hnone hrun, add_zero]
      exact .refl
  have htake := answers_moves hquiet v.registry i gone fun tag htag => by
    rw [hgone tag htag, registry, hfds]
  have hbetween : ({ v.registry with outstanding := v.outstanding + gone } : Registry)
      = { u.registry with outstanding := u.outstanding + more } := by
    rw [hout, registry, registry, hfds]
  rw [registry] at htake
  exact hgrow.trans (hbetween ▸ htake)

/-- **The moves of `h2_io_remove`.** -/
theorem remove_moves (hquiet : ∀ r m, Quiet m → good r m) {answer : Entered} {rounds : List Round}
    {ret : Int} (hdup : u.RemovalOverruns i answer rounds → ∀ r tag, good r (.duplicate tag))
    (h : RemoveEnd u i answer rounds ret v) : Moves good u.registry v.registry := by
  have hclear : ∀ w : Uring, Moves good w.registry (w.clear i).registry := fun w =>
    .one (hquiet w.registry (.clear i) trivial) (.clear i)
  have hcancel : (u.fds i).used = true → (u.fds i).active = true →
      Moves good u.registry (u.cancelling i answer).registry := by
    intro hused hactive
    have hafter : (u.cancelling i answer).registry = { u.registry with
        outstanding := u.outstanding + {u.registry.cancelTag i} } := by
      rw [registry, cancelling_outstanding]
      rfl
    rw [hafter]
    exact .one (hquiet _ (.cancel i) trivial) (.cancel i hused hactive)
  cases h with
  | unused => exact .refl
  | inactive => exact hclear u
  | noRoom => exact .refl
  | rejected hused hactive => exact hcancel hused hactive
  | cancelled hused hactive hroom hres hdrain =>
      have hdrains := drain_moves hquiet
        (fun hover => hdup ⟨hused, hactive, hroom, ⟨_, hres⟩, hover⟩) hdrain
      exact ((hcancel hused hactive).trans hdrains).trans (hclear _)
  | failed hused hactive hroom hres _ hdrain =>
      have hdrains := drain_moves hquiet
        (fun hover => hdup ⟨hused, hactive, hroom, ⟨_, hres⟩, hover⟩) hdrain
      exact (hcancel hused hactive).trans hdrains

/-- **Every call of the backend is a sequence of moves of the registry.** -/
theorem call_moves {c : Call} (hmeets : Meets good u c) (hret : u.call c = some v) :
    Moves good u.registry v.registry := by
  have hregister : ∀ fd, Registers c fd → Moves good u.registry v.registry := by
    intro fd hc
    obtain ⟨events, hcall⟩ := hc.call_eq (u := u)
    rw [hret] at hcall
    rcases hslot : fdSlot fd with _ | i
    · rw [hslot] at hcall
      rw [Option.some.inj hcall]
      exact .refl
    · rw [hslot] at hcall
      rw [Option.some.inj hcall]
      exact .one (hmeets.register fd i events hc hslot) (.register i events)
  cases c with
  | addListener fd => exact hregister fd (Or.inl rfl)
  | addConnection fd => exact hregister fd (Or.inr (Or.inl rfl))
  | modConnection fd wantWrite => exact hregister fd (Or.inr (Or.inr ⟨wantWrite, rfl⟩))
  | remove fd answer rounds =>
      rw [call, Option.map_eq_some_iff] at hret
      obtain ⟨⟨ret, w⟩, hremove, rfl⟩ := hret
      rcases hslot : fdSlot fd with _ | i
      · rw [remove, hslot] at hremove
        cases hremove
        exact .refl
      · exact remove_moves hmeets.quiet (hmeets.duplicate fd answer rounds i rfl hslot)
          (remove_outcome hslot hremove)
  -- the polls that are missing, the timeout, and then the completions
  | wait eventCap timeoutMs extArg w =>
      cases hret
      exact wait_moves hmeets.quiet eventCap timeoutMs extArg w
        (hmeets.settle eventCap timeoutMs extArg w rfl)
  | kernel ps =>
      cases hret
      obtain ⟨new, inFlight, -, hposts⟩ := posts_eq u ps
      have hsame : (u.posts ps).registry = u.registry := by
        rw [registry, posts_outstanding, hposts]
        rfl
      rw [hsame]
      exact .refl

end Uring

end C11Omo.IoUring
