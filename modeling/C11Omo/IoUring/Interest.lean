import C11Omo.IoUring.Submissions

set_option autoImplicit false

/-! # Interest in events

`h2_io_add_listener`, `h2_io_add_connection` and `h2_io_mod_connection` store the events that a
descriptor is polled for. The epoll backend (`src/io_epoll.c`) hands them to the kernel at once. The
io_uring backend only stores them, and the next poll that is armed for the descriptor carries them;
a poll that the kernel already has keeps its own (`interest_lost`). So the poll that is in flight
when the program goes to sleep carries the events of the last call, if no such call is made while a
poll with other events is in flight (`interest_effective`).
-/

namespace C11Omo.IoUring

open C11Omo.Http2 C11Omo.Lib

namespace Call

/-- The descriptor that a call of `h2_io_add_*` or `h2_io_mod_connection` is for. -/
def target : Call → Option Int
  | .addListener fd => some fd
  | .addConnection fd => some fd
  | .modConnection fd _ => some fd
  | _ => none

/-- The events that the call stores in the io_uring backend. -/
def uringMask : Call → Nat
  | .addListener _ => pollIn ||| pollErr ||| pollHup
  | .addConnection _ => pollIn ||| pollRdHup ||| pollErr ||| pollHup
  | .modConnection _ wantWrite =>
      if wantWrite then pollIn ||| pollRdHup ||| pollErr ||| pollHup ||| pollOut
      else pollIn ||| pollRdHup ||| pollErr ||| pollHup
  | _ => 0

/-- The events that it registers in the epoll backend. `EPOLLIN`, `EPOLLOUT` and `EPOLLRDHUP` have
the values of `POLLIN`, `POLLOUT` and `POLLRDHUP`, and `EPOLLERR` and `EPOLLHUP` are always
reported. -/
def epollMask : Call → Nat
  | .addListener _ => pollIn ||| pollRdHup
  | .addConnection _ => pollIn ||| pollRdHup
  | .modConnection _ wantWrite =>
      if wantWrite then pollIn ||| pollRdHup ||| pollOut else pollIn ||| pollRdHup
  | _ => 0

theorem uringMask_lt (c : Call) : c.uringMask < 65536 := by
  have hlisten : pollIn ||| pollErr ||| pollHup < 65536 := by decide
  have hread : pollIn ||| pollRdHup ||| pollErr ||| pollHup < 65536 := by decide
  have hwrite : pollIn ||| pollRdHup ||| pollErr ||| pollHup ||| pollOut < 65536 := by decide
  cases c with
  | addListener fd => exact hlisten
  | addConnection fd => exact hread
  | modConnection fd wantWrite =>
      rw [uringMask]
      split_ifs
      · exact hwrite
      · exact hread
  | _ => exact Nat.zero_lt_succ _

end Call

/-- The last call of `h2_io_add_*` or `h2_io_mod_connection` for a descriptor. -/
def lastRequest (past : List (Uring × Call)) (fd : Int) : Option Call :=
  (past.map Prod.snd).find? fun c => c.target = some fd

/-! ## The epoll backend -/

inductive EpollOp
  | add
  | mod
  | del

/-- The interest list of the kernel. -/
structure Epoll where
  interest : Int → Option Nat

namespace Epoll

def init : Epoll where
  interest := fun _ => none

/-- `epoll_ctl`: a descriptor is added that is not in the list, and one that is in it is modified or
deleted. -/
def ctl (e : Epoll) (op : EpollOp) (fd : Int) (events : Nat) : Int × Epoll :=
  match op, e.interest fd with
  | .add, none => (0, { interest := Function.update e.interest fd (some events) })
  | .mod, some _ => (0, { interest := Function.update e.interest fd (some events) })
  | .del, some _ => (0, { interest := Function.update e.interest fd none })
  | _, _ => (-1, e)

/-- `h2_io_add_listener`. -/
def addListener (e : Epoll) (fd : Int) : Int × Epoll := e.ctl .add fd (pollIn ||| pollRdHup)

/-- `h2_io_add_connection`. -/
def addConnection (e : Epoll) (fd : Int) : Int × Epoll := e.ctl .add fd (pollIn ||| pollRdHup)

/-- `h2_io_mod_connection`. -/
def modConnection (e : Epoll) (fd : Int) (wantWrite : Bool) : Int × Epoll :=
  let events := pollIn ||| pollRdHup
  let events := if wantWrite then events ||| pollOut else events
  e.ctl .mod fd events

/-- `h2_io_remove`, which does not look at the result. -/
def remove (e : Epoll) (fd : Int) : Int × Epoll := (0, (e.ctl .del fd 0).2)

/-- The same calls in the epoll backend. Waiting leaves the interest list alone. -/
def call (e : Epoll) : Call → Int × Epoll
  | .addListener fd => e.addListener fd
  | .addConnection fd => e.addConnection fd
  | .modConnection fd wantWrite => e.modConnection fd wantWrite
  | .remove fd _ _ => e.remove fd
  | .wait _ _ _ _ => (0, e)
  | .kernel _ => (0, e)

/-- The epoll backend after the calls of a run. -/
def after : List (Uring × Call) → Epoll
  | [] => init
  | (_, c) :: past => ((after past).call c).2

/-- All these calls succeed in the epoll backend. -/
def Succeeds : List (Uring × Call) → Prop
  | [] => True
  | (_, c) :: past => Succeeds past ∧ ((after past).call c).1 = 0

/-- A call that asks for events and succeeds takes effect at once. -/
theorem call_target {e : Epoll} {c : Call} {fd : Int} (h : c.target = some fd)
    (hok : (e.call c).1 = 0) :
    (e.call c).2.interest = Function.update e.interest fd (some c.epollMask) := by
  -- `epoll_ctl` fails, or sets the entry; `ADD` needs a free one and `MOD` one that is there
  have hadd : ∀ events, (e.ctl .add fd events).1 = 0 →
      (e.ctl .add fd events).2.interest = Function.update e.interest fd (some events) := by
    intro events
    unfold ctl
    rcases e.interest fd with _ | old
    · exact fun _ => rfl
    · intro hfail
      cases hfail
  have hmod : ∀ events, (e.ctl .mod fd events).1 = 0 →
      (e.ctl .mod fd events).2.interest = Function.update e.interest fd (some events) := by
    intro events
    unfold ctl
    rcases e.interest fd with _ | old
    · intro hfail
      cases hfail
    · exact fun _ => rfl
  cases c with
  | addListener fd' =>
      obtain rfl : fd' = fd := Option.some.inj h
      exact hadd _ hok
  | addConnection fd' =>
      obtain rfl : fd' = fd := Option.some.inj h
      exact hadd _ hok
  | modConnection fd' wantWrite =>
      obtain rfl : fd' = fd := Option.some.inj h
      exact hmod _ hok
  | _ => cases h

/-- A removal leaves the other descriptors in the list. -/
theorem remove_other (e : Epoll) {fd fd' : Int} (h : fd' ≠ fd) :
    (e.remove fd).2.interest fd' = e.interest fd' := by
  unfold remove ctl
  rcases e.interest fd with _ | old
  · rfl
  · exact Function.update_of_ne h _ _

end Epoll

/-! ## Slots -/

namespace Registry

variable {r r' : Registry} {m : Move}

/-- The move is not a registration. -/
def Move.Keeps (_ : Registry) : Move → Prop
  | .register _ _ => False
  | _ => True

theorem keeps_quiet (r : Registry) (m : Move) (hquiet : Uring.Quiet m) : m.Keeps r := by
  cases m with
  | register => cases hquiet
  | _ => trivial

/-- The descriptors in use were in use before, with the same events and in the same registration. -/
def KeepsSlots (fds fds' : Fin uringMaxFds → FdState) : Prop :=
  ∀ i, (fds' i).used = true → (fds i).used = true ∧ (fds' i).events = (fds i).events
    ∧ (fds' i).generation = (fds i).generation

theorem KeepsSlots.refl (fds : Fin uringMaxFds → FdState) : KeepsSlots fds fds :=
  fun _ hused => ⟨hused, rfl, rfl⟩

theorem KeepsSlots.trans {fds fds' fds'' : Fin uringMaxFds → FdState} (h : KeepsSlots fds fds')
    (h' : KeepsSlots fds' fds'') : KeepsSlots fds fds'' := by
  intro i hused
  obtain ⟨hused', hevents', hgen'⟩ := h' i hused
  obtain ⟨hused, hevents, hgen⟩ := h i hused'
  exact ⟨hused, hevents'.trans hevents, hgen'.trans hgen⟩

/-- Only a registration changes the events of a descriptor in use. -/
theorem Does.keepsSlots (hkeeps : m.Keeps r) (h : Does m r r') : KeepsSlots r.fds r'.fds := by
  have hslot : ∀ (j : Fin uringMaxFds) (state : FdState),
      (state.used = true → (r.fds j).used = true ∧ state.events = (r.fds j).events
        ∧ state.generation = (r.fds j).generation) →
      KeepsSlots r.fds (Function.update r.fds j state) := by
    intro j state hstate i hused
    by_cases hij : i = j
    · rw [hij, Function.update_self] at hused ⊢
      exact hstate hused
    · rw [Function.update_of_ne hij] at hused ⊢
      exact ⟨hused, rfl, rfl⟩
  cases h with
  | register => cases hkeeps
  | arm i hused => exact hslot i _ fun _ => ⟨hused, rfl, rfl⟩
  | settle i => exact hslot i _ fun hused => ⟨hused, rfl, rfl⟩
  | clear i =>
      refine hslot i _ fun hused => ?_
      cases hused
  | _ => exact .refl _

theorem Moves.keepsSlots (h : Moves (fun r m => m.Keeps r) r r') : KeepsSlots r.fds r'.fds :=
  h.invariant (P := fun r' => KeepsSlots r.fds r'.fds)
    (fun hkeeps hdoes hr => hr.trans (hdoes.keepsSlots hkeeps)) (.refl _)

end Registry

namespace Uring

open Registry

variable {u v : Uring} {i : Fin uringMaxFds} {c : Call} {past : List (Uring × Call)}

/-- **`h2_uring_set_fd`** for the calls that ask for events. -/
theorem call_target {fd : Int} (h : c.target = some fd) :
    u.call c = some (u.setFd fd true c.uringMask).2 := by
  cases c with
  | addListener fd' =>
      obtain rfl : fd' = fd := Option.some.inj h
      rfl
  | addConnection fd' =>
      obtain rfl : fd' = fd := Option.some.inj h
      rfl
  | modConnection fd' wantWrite =>
      obtain rfl : fd' = fd := Option.some.inj h
      rfl
  | _ => cases h

theorem call_keepsSlots (hc : c.target = none) (hret : u.call c = some v) :
    KeepsSlots u.fds v.fds := by
  have hmeets : Meets (fun r m => m.Keeps r) u c := by
    refine ⟨keeps_quiet, ?_, fun _ _ _ _ _ _ _ _ _ => trivial, ?_⟩
    · rintro fd i events (rfl | rfl | ⟨wantWrite, rfl⟩) _
      · cases hc
      · cases hc
      · cases hc
    · intro eventCap timeoutMs extArg w _ processed _ before cqe after i _ _ outstanding
      trivial
  exact (call_moves hmeets hret).keepsSlots

/-! ## Requests -/

/-- The requests that have not been completed. -/
def requests (u : Uring) : List Sqe := u.sq ++ u.inFlight

theorem mem_requests {sqe : Sqe} : sqe ∈ u.requests ↔ sqe ∈ u.sq ∨ sqe ∈ u.inFlight :=
  List.mem_append

theorem posts_requests (u : Uring) (ps : List Post) : (u.posts ps).requests ⊆ u.requests := by
  induction ps generalizing u with
  | nil => exact fun _ h => h
  | cons p ps ih =>
      refine List.Subset.trans (ih (u.post p)) ?_
      rw [post]
      rcases u.inFlight[p.pos]? with _ | sqe
      · exact fun _ h => h
      · intro sqe' hmem
        rcases mem_requests.mp hmem with hsq | hflight
        · exact mem_requests.mpr (Or.inl hsq)
        · exact mem_requests.mpr (Or.inr (List.mem_of_mem_eraseIdx hflight))

theorem enter_requests (u : Uring) (toSubmit minComplete : Nat) (answer : Entered) :
    (u.enter toSubmit minComplete answer).2.requests ⊆ u.requests := by
  intro sqe hmem
  rcases mem_requests.mp hmem with hsq | hflight
  · exact mem_requests.mpr (Or.inl (List.mem_of_mem_drop hsq))
  · rcases List.mem_append.mp hflight with hold | htaken
    · exact mem_requests.mpr (Or.inr hold)
    · exact mem_requests.mpr (Or.inl (List.mem_of_mem_take htaken))

theorem drainRing_requests (u : Uring) (fd : Fin uringMaxFds) (cqes : List Cqe) :
    (drainRing fd cqes u).2.requests = u.requests := by
  rcases drainRing_outcome u fd cqes with ⟨-, h⟩ | ⟨-, ⟨cqe, rest, -, h⟩ | ⟨-, h⟩⟩
  · rw [h]
    rfl
  · rw [h]
    rfl
  · rw [h]
    rfl

theorem drainUntilCancel_requests {fd : Fin uringMaxFds} {rounds : List Round} {ret : Int}
    (h : drainUntilCancel fd rounds u = some (ret, v)) : v.requests ⊆ u.requests := by
  -- requests are completed and completions are moved; neither makes a request
  induction rounds generalizing u with
  | nil => cases h
  | cons round rounds ih =>
      obtain ⟨entered, hdrain⟩ := drainUntilCancel_cons fd round rounds u
      obtain ⟨e, he⟩ : ∃ e : Uring, e = { u.posts round.posted with entered } := ⟨_, rfl⟩
      have hposted : e.requests ⊆ u.requests := by
        rw [he]
        exact posts_requests u round.posted
      rw [hdrain, ← he] at h
      rcases hres : (if (u.posts round.posted).cq = [] then round.answer.result else .ok 0) with
        err | n
      · rw [hres] at h
        have hend : drainUntilCancel fd rounds e = some (ret, v) ∨ e = v := by
          cases err with
          | eintr => exact Or.inl h
          | _ =>
              right
              exact congrArg Prod.snd (Option.some.inj h)
        rcases hend with hagain | rfl
        · exact List.Subset.trans (ih hagain) hposted
        · exact hposted
      · rw [hres] at h
        have hlater := List.Subset.trans (posts_requests e round.later) hposted
        have hring := drainRing_requests (e.posts round.later) fd (e.posts round.later).cq
        rcases hlook : drainRing fd (e.posts round.later).cq (e.posts round.later) with
          ⟨ret' | ret', w⟩
        · rw [hlook] at h hring
          replace hring : w.requests = (e.posts round.later).requests := hring
          refine List.Subset.trans (ih h) ?_
          rw [hring]
          exact hlater
        · rw [hlook] at h hring
          replace hring : w.requests = (e.posts round.later).requests := hring
          obtain rfl : w = v := congrArg Prod.snd (Option.some.inj h)
          rw [hring]
          exact hlater

theorem settleAll_requests (u : Uring) (cqes : List Cqe) :
    (u.settleAll cqes).requests = u.requests := by
  rw [settleAll_eq]
  rfl

theorem deliver_requests (u : Uring) (eventCap : Nat) (later : List Post) :
    (u.deliver eventCap later).2.requests ⊆ u.requests := by
  have hloop := @finishSavedLoop_eq [] eventCap u u.pendingCqes [] (Nat.zero_le eventCap)
  obtain ⟨saved, hsaved⟩ : ∃ saved, u.finishSavedCqes [] eventCap = saved := ⟨_, rfl⟩
  have hsame : saved.2.requests = u.requests := by
    rw [← hsaved, finishSavedCqes, hloop]
    exact settleAll_requests u _
  have hlen : saved.1.length ≤ eventCap := by
    rw [← hsaved, finishSavedCqes, hloop, List.length_nil, Nat.sub_zero, List.nil_append,
      workOff_reports, List.length_take]
    exact min_le_left _ _
  have hring := finishRing_eq (saved.2.posts later) (saved.2.posts later).cq hlen
  have hend : (u.deliver eventCap later).2.requests = (saved.2.posts later).requests := by
    rw [deliver, hsaved]
    simp only [hring]
    exact settleAll_requests _ _
  rw [hend, ← hsame]
  exact posts_requests saved.2 later

/-! ## What the polls carry -/

/-- If a request is the poll of a descriptor in use, then it carries the events of the
descriptor. -/
def Carries (u : Uring) (sqe : Sqe) : Prop :=
  ∀ i : Fin uringMaxFds, (u.fds i).used = true →
    sqe.userData = pollUserData i (u.fds i).generation → sqe.pollEvents = (u.fds i).events % 65536

theorem Carries.keeps {sqe : Sqe} (h : u.Carries sqe) (hkeeps : KeepsSlots u.fds v.fds) :
    v.Carries sqe := by
  intro i hused hpoll
  obtain ⟨hused', hevents, hgen⟩ := hkeeps i hused
  rw [hgen] at hpoll
  rw [hevents]
  exact h i hused' hpoll

/-- A request that is no poll. -/
theorem carries_other {sqe : Sqe}
    (h : isTimeoutUserData sqe.userData = true ∨ isCancelUserData sqe.userData = true) :
    u.Carries sqe := by
  intro i _ hpoll
  rw [hpoll, isTimeoutUserData_poll, isCancelUserData_poll] at h
  rcases h with h | h <;> cases h

theorem arms_keepsSlots (h : Relation.ReflTransGen Arms u v) : KeepsSlots u.fds v.fds :=
  (arms_moves keeps_quiet h).keepsSlots

/-- **The polls that are armed** carry the events of their descriptors. -/
theorem arms_carries (h : Relation.ReflTransGen Arms u v) (hu : ∀ sqe ∈ u.requests, u.Carries sqe) :
    ∀ sqe ∈ v.requests, u.Carries sqe := by
  induction h with
  | refl => exact hu
  | @tail v _ harms hstep ih =>
      obtain ⟨i, hused, -, rfl⟩ := hstep
      intro sqe hmem
      have hnew : sqe ∈ v.requests ∨ sqe = v.pollSqe i := by
        rcases mem_requests.mp hmem with hsq | hflight
        · rw [arm_sq] at hsq
          rcases List.mem_append.mp hsq with hold | hlast
          · exact Or.inl (mem_requests.mpr (Or.inl hold))
          · exact Or.inr (List.mem_singleton.mp hlast)
        · exact Or.inl (mem_requests.mpr (Or.inr hflight))
      rcases hnew with hold | rfl
      · exact ih sqe hold
      · intro j _ hpoll
        obtain ⟨-, hevents, -⟩ := arms_keepsSlots harms i hused
        -- the poll is of one descriptor only
        have hij : i = j := by
          by_contra hne
          exact pollUserData_slot_ne hne _ _ hpoll
        rw [← hij, ← hevents]
        rfl

theorem submitMissing_carries (answer : Entered) (hu : ∀ sqe ∈ u.requests, u.Carries sqe) :
    ∀ sqe ∈ (u.submitMissing answer).2.requests, u.Carries sqe := by
  have harms := submitMissingLoop_arms (List.finRange uringMaxFds) 0 u
  have hloop := arms_carries harms hu
  unfold submitMissing
  generalize List.finRange uringMaxFds = is at hloop ⊢
  rcases hqueued : submitMissingLoop is 0 u with ⟨submitted, armed⟩
  rw [hqueued] at hloop
  cases submitted with
  | zero => exact hloop
  | succ n => exact fun sqe hmem => hloop sqe (enter_requests armed (n + 1) 0 answer hmem)

theorem waitForEvent_requests (u : Uring) (timeoutMs : Int) (extArg : Bool) (answer : Entered) :
    ∀ sqe ∈ (u.waitForEvent timeoutMs extArg answer).2.requests,
      sqe ∈ u.requests ∨ isTimeoutUserData sqe.userData = true := by
  rw [waitForEvent]
  split_ifs
  · exact fun _ => Or.inl
  · exact fun _ hmem => Or.inl (enter_requests u 0 1 answer hmem)
  · exact fun _ hmem => Or.inl (enter_requests u 0 1 answer hmem)
  · rw [submitTimeoutSqe, getSqe]
    split_ifs
    · exact fun _ => Or.inl
    · intro sqe hmem
      rcases mem_requests.mp (enter_requests _ 1 1 answer hmem) with hsq | hflight
      · rcases List.mem_append.mp hsq with hold | hlast
        · exact Or.inl (mem_requests.mpr (Or.inl hold))
        · rw [List.mem_singleton.mp hlast]
          exact Or.inr isTimeoutUserData_timeout
      · exact Or.inl (mem_requests.mpr (Or.inr hflight))

theorem waits_requests (u : Uring) (timeoutMs : Int) (extArg : Bool) (w : Waiting) :
    ∀ sqe ∈ (u.waits timeoutMs extArg w).2.requests,
      sqe ∈ u.requests ∨ isTimeoutUserData sqe.userData = true := by
  intro sqe hmem
  rw [waits] at hmem
  by_cases hempty : (u.posts w.posted).cq = []
  · simp only [if_pos hempty] at hmem
    rcases waitForEvent_requests _ timeoutMs extArg w.wait sqe hmem with hold | htimeout
    · exact Or.inl (posts_requests u w.posted hold)
    · exact Or.inr htimeout
  · simp only [if_neg hempty] at hmem
    exact Or.inl (posts_requests u w.posted hmem)

theorem wait_carries (eventCap : Nat) (timeoutMs : Int) (extArg : Bool) (w : Waiting)
    (hu : ∀ sqe ∈ u.requests, u.Carries sqe) :
    ∀ sqe ∈ (u.wait eventCap timeoutMs extArg w).2.requests, u.Carries sqe := by
  by_cases hcap : eventCap = 0
  · rw [wait, if_pos hcap]
    exact hu
  · obtain ⟨armed, harmed⟩ : ∃ armed, armed = (u.submitMissing w.submit).2 := ⟨_, rfl⟩
    obtain ⟨waited, hwaited⟩ : ∃ waited, waited = (armed.waits timeoutMs extArg w).2 := ⟨_, rfl⟩
    have hsubmits : ∀ sqe ∈ armed.requests, u.Carries sqe := by
      rw [harmed]
      exact submitMissing_carries w.submit hu
    have hwaits : ∀ sqe ∈ waited.requests, u.Carries sqe := by
      intro sqe hmem
      rw [hwaited] at hmem
      rcases waits_requests armed timeoutMs extArg w sqe hmem with hold | htimeout
      · exact hsubmits sqe hold
      · exact carries_other (Or.inl htimeout)
    rcases wait_outcome u hcap timeoutMs extArg w harmed hwaited with
      ⟨-, hend⟩ | ⟨-, hend⟩ | ⟨-, hend⟩
    · rw [hend]
      exact hsubmits
    · rcases hend with hend | hend
      · rw [hend]
        exact hwaits
      · rw [hend]
        exact hwaits
    · rw [hend]
      exact fun sqe hmem => hwaits sqe (deliver_requests waited eventCap w.later hmem)

theorem remove_carries {fd : Int} {answer : Entered} {rounds : List Round} {ret : Int}
    (h : u.remove fd answer rounds = some (ret, v)) (hu : ∀ sqe ∈ u.requests, u.Carries sqe) :
    ∀ sqe ∈ v.requests, u.Carries sqe := by
  rcases hslot : fdSlot fd with _ | i
  · rw [remove, hslot] at h
    obtain rfl : u = v := congrArg Prod.snd (Option.some.inj h)
    exact hu
  · have hcancelling : ∀ sqe ∈ (u.cancelling i answer).requests, u.Carries sqe := by
      intro sqe hmem
      rcases mem_requests.mp (enter_requests _ 1 0 answer hmem) with hsq | hflight
      · rcases List.mem_append.mp hsq with hold | hlast
        · exact hu sqe (mem_requests.mpr (Or.inl hold))
        · rw [List.mem_singleton.mp hlast]
          exact carries_other (Or.inr (isCancelUserData_cancel _ _))
      · exact hu sqe (mem_requests.mpr (Or.inr hflight))
    cases remove_outcome hslot h with
    | unused => exact hu
    | inactive => exact hu
    | noRoom => exact hu
    | rejected => exact hcancelling
    | cancelled _ _ _ _ hdrain =>
        exact fun sqe hmem => hcancelling sqe (drainUntilCancel_requests hdrain hmem)
    | failed _ _ _ _ _ hdrain =>
        exact fun sqe hmem => hcancelling sqe (drainUntilCancel_requests hdrain hmem)

/-- **Calls that ask for no events** leave every poll with the events of its descriptor. -/
theorem call_carries (hc : c.target = none) (hret : u.call c = some v)
    (hu : ∀ sqe ∈ u.requests, u.Carries sqe) : ∀ sqe ∈ v.requests, v.Carries sqe := by
  have hkeeps := call_keepsSlots hc hret
  suffices hall : ∀ sqe ∈ v.requests, u.Carries sqe from
    fun sqe hmem => (hall sqe hmem).keeps hkeeps
  cases c with
  | addListener => cases hc
  | addConnection => cases hc
  | modConnection => cases hc
  | remove fd answer rounds =>
      rw [call, Option.map_eq_some_iff] at hret
      obtain ⟨⟨ret, w⟩, hremove, rfl⟩ := hret
      exact remove_carries hremove hu
  | wait eventCap timeoutMs extArg w =>
      cases hret
      exact wait_carries eventCap timeoutMs extArg w hu
  | kernel ps =>
      cases hret
      exact fun sqe hmem => hu sqe (posts_requests u ps hmem)

/-! ## Falling asleep -/

/-- The number of descriptors in use. -/
def usedCount (u : Uring) : Nat := (List.finRange uringMaxFds).countP fun i => (u.fds i).used

/-- A descriptor in use has no poll. -/
def lacksPoll (u : Uring) (i : Fin uringMaxFds) : Bool := (u.fds i).used && !(u.fds i).active

/-- With room for all polls that are missing, `h2_uring_submit_missing` arms them all. -/
theorem submitMissingLoop_all (is : List (Fin uringMaxFds)) (submitted : Nat) (u : Uring)
    (hroom : u.sq.length + is.countP u.lacksPoll ≤ uringEntries) :
    ∀ i ∈ is, (u.fds i).used = true →
      ((submitMissingLoop is submitted u).2.fds i).active = true := by
  induction is generalizing submitted u with
  | nil =>
      intro i hi
      cases hi
  | cons i is ih =>
      intro j hj hused
      have harms := submitMissingLoop_arms (i :: is) submitted u
      rw [submitMissingLoop] at harms ⊢
      by_cases hskip : (u.fds i).used = false ∨ (u.fds i).active = true
      · rw [if_pos hskip] at harms ⊢
        have hno : ¬ u.lacksPoll i = true := by
          rcases hskip with h | h <;> simp [lacksPoll, h]
        rw [List.countP_cons_of_neg hno] at hroom
        rcases List.mem_cons.mp hj with rfl | hlater
        · refine arms_active harms (hskip.resolve_left ?_)
          simp [hused]
        · exact ih submitted u hroom j hlater hused
      · -- there is room for this poll, and room is left for those behind it
        obtain ⟨hiused, hiactive⟩ := not_or.mp hskip
        have hyes : u.lacksPoll i = true := by
          simp only [Bool.not_eq_false, Bool.not_eq_true] at hiused hiactive
          simp [lacksPoll, hiused, hiactive]
        rw [List.countP_cons_of_pos hyes] at hroom
        have hfree : ¬ u.sq.length ≥ uringEntries := by omega
        rw [if_neg hskip, getSqe, if_neg hfree]
        show ((submitMissingLoop is (submitted + 1) (u.arm i)).2.fds j).active = true
        by_cases hji : j = i
        · rw [hji]
          exact arms_active (submitMissingLoop_arms is (submitted + 1) (u.arm i)) (by rw [arm_same])
        · refine ih (submitted + 1) (u.arm i) ?_ j ((List.mem_cons.mp hj).resolve_left hji) ?_
          · -- one more entry, and one poll less to arm
            have hless : is.countP (u.arm i).lacksPoll ≤ is.countP u.lacksPoll := by
              apply List.countP_mono_left
              intro k _ hk
              unfold lacksPoll at hk ⊢
              by_cases hki : k = i
              · rw [hki, arm_same] at hk
                simp at hk
              · rwa [arm_ne u hki] at hk
            have hlen : (u.arm i).sq.length = u.sq.length + 1 := by
              rw [arm_sq, List.length_append, List.length_singleton]
            omega
          · rw [arm_ne u hji]
            exact hused

theorem submitMissing_all (hsq : u.sq = []) (hfew : u.usedCount ≤ uringEntries) (answer : Entered)
    (hused : (u.fds i).used = true) : ((u.submitMissing answer).2.fds i).active = true := by
  have hmem := List.mem_finRange i
  rw [usedCount] at hfew
  unfold submitMissing
  generalize List.finRange uringMaxFds = is at hfew hmem ⊢
  have hroom : u.sq.length + is.countP u.lacksPoll ≤ uringEntries := by
    have hless : is.countP u.lacksPoll ≤ is.countP fun i => (u.fds i).used := by
      apply List.countP_mono_left
      intro k _ hk
      exact (Bool.and_eq_true_iff.mp hk).1
    rw [hsq, List.length_nil]
    omega
  have hall := submitMissingLoop_all is 0 u hroom i hmem hused
  rcases hloop : submitMissingLoop is 0 u with ⟨submitted, armed⟩
  rw [hloop] at hall
  cases submitted with
  | zero => exact hall
  | succ n => exact hall

/-- The state in which `h2_io_wait` tests whether the ring is empty. If it is, and the timeout is
not zero, then the program sleeps from here. -/
def asleep (u : Uring) (w : Waiting) : Uring := (u.submitMissing w.submit).2.posts w.posted

theorem asleep_tracked (hr : u.registry.Tracked) (w : Waiting) : (u.asleep w).registry.Tracked := by
  obtain ⟨armed, harms, hadv, -⟩ := submitMissing_outcome u w.submit
  obtain ⟨n, hn⟩ := hadv.outstanding
  have hmoves : Moves (fun _ _ => True) u.registry { armed.registry with
      outstanding := armed.outstanding + Multiset.replicate n timeoutTag } :=
    (arms_moves (fun _ _ _ => trivial) harms).trans
      (timeouts_moves (fun _ _ _ => trivial) armed.registry n)
  have hsame : (u.asleep w).registry
      = { armed.registry with outstanding := armed.outstanding + Multiset.replicate n timeoutTag } := by
    have hfds := (posts_advances (u.submitMissing w.submit).2 w.posted).fds.trans hadv.fds
    have hout := (posts_outstanding (u.submitMissing w.submit).2 w.posted).trans hn
    rw [registry, asleep, hfds, hout]
    rfl
  rw [hsame]
  exact hmoves.invariant (fun _ hdoes hr => hr.does hdoes) hr

/-! ## Runs -/

/-- A call returns what its caller takes for success. -/
def Succeeds (u : Uring) : Call → Prop
  | .addListener fd => (u.addListener fd).1 = 0
  | .addConnection fd => (u.addConnection fd).1 = 0
  | .modConnection fd wantWrite => (u.modConnection fd wantWrite).1 = 0
  | .remove fd answer rounds => ∃ v, u.remove fd answer rounds = some (0, v)
  | .wait eventCap timeoutMs extArg w => (u.wait eventCap timeoutMs extArg w).1 ≠ none
  | .kernel _ => True

/-- A call succeeds, and the kernel takes all that is submitted. -/
structure Faultless (u : Uring) (c : Call) : Prop where
  whole : u.TakesWhole c
  submits : u.Submits c
  succeeds : u.Succeeds c

/-- Without submissions only the call itself can fail. -/
theorem Faultless.of_nil (hnone : u.submissions c = []) (hsucceeds : u.Succeeds c) :
    u.Faultless c := by
  refine ⟨?_, ?_, hsucceeds⟩
  · intro s hs
    rw [hnone] at hs
    cases hs
  · intro s hs
    rw [hnone] at hs
    cases hs

/-- When a call asks for events, then no poll with other events is in flight that is for the
registration the descriptor has after the call. -/
def InTime (u : Uring) (c : Call) : Prop :=
  ∀ fd i, c.target = some fd → fdSlot fd = some i → ∀ sqe ∈ u.inFlight,
    sqe.userData = pollUserData i (registered (u.fds i) c.uringMask).generation →
      sqe.pollEvents = c.uringMask

theorem Ran.mono {allowed allowed' : Uring → Call → Prop} (h : Ran allowed past u)
    (hle : ∀ {u c}, allowed u c → allowed' u c) : Ran allowed' past u := by
  induction h with
  | init => exact .init
  | call _ hallowed hret ih => exact ih.call (hle hallowed) hret

/-- No entry is stranded in a run without faults. -/
theorem Ran.sq_nil {allowed : Uring → Call → Prop} (h : Ran allowed past u)
    (hle : ∀ {u c}, allowed u c → u.Faultless c) : u.sq = [] := by
  apply (h.mono fun hallowed => (hle hallowed).whole).sq_eq_nil.mpr
  induction h with
  | init =>
      intro p hp
      cases hp
  | @call past u v c _ hallowed _ ih =>
      intro p hp
      rcases List.mem_cons.mp hp with rfl | hearlier
      · exact (hle hallowed).submits
      · exact ih p hearlier

/-- What a run without faults keeps up, if events are always asked for in time. -/
structure UpToDate (past : List (Uring × Call)) (u : Uring) : Prop where
  carries : ∀ sqe ∈ u.requests, u.Carries sqe
  last : ∀ i : Fin uringMaxFds, (u.fds i).used = true → ∃ c, lastRequest past i = some c
    ∧ (u.fds i).events = c.uringMask
    ∧ (Epoll.Succeeds past → (Epoll.after past).interest i = some c.epollMask)

theorem UpToDate.init : UpToDate [] Uring.init where
  carries := fun _ hmem => by cases hmem
  last := fun _ hused => by cases hused

theorem lastRequest_skip (hc : c.target = none) (fd : Int) :
    lastRequest ((u, c) :: past) fd = lastRequest past fd := by
  rw [lastRequest, lastRequest, List.map_cons, List.find?_cons_of_neg]
  simp [hc]

theorem lastRequest_target {fd : Int} (hc : c.target = some fd) (fd' : Int) :
    lastRequest ((u, c) :: past) fd' = if fd' = fd then some c else lastRequest past fd' := by
  rw [lastRequest, lastRequest, List.map_cons]
  by_cases hfd : fd' = fd
  · rw [if_pos hfd, List.find?_cons_of_pos]
    simp [hc, hfd]
  · rw [if_neg hfd, List.find?_cons_of_neg]
    simp [hc, Ne.symm hfd]

/-- A call that asks for events. -/
theorem UpToDate.request (h : UpToDate past u) (hsq : u.sq = []) {fd : Int}
    (hc : c.target = some fd) (hintime : u.InTime c) (hsucceeds : u.Succeeds c)
    (hret : u.call c = some v) : UpToDate ((u, c) :: past) v := by
  have hset := call_target (u := u) hc
  rw [hret, setFd_eq] at hset
  rcases hslot : fdSlot fd with _ | i
  · -- the call fails
    have hfails : ∀ events, (u.setFd fd true events).1 ≠ 0 := by
      intro events
      rw [setFd_eq, hslot]
      exact fun h => absurd h (by decide : (-1 : Int) ≠ 0)
    cases c with
    | addListener fd' =>
        obtain rfl : fd' = fd := Option.some.inj hc
        exact absurd hsucceeds (hfails _)
    | addConnection fd' =>
        obtain rfl : fd' = fd := Option.some.inj hc
        exact absurd hsucceeds (hfails _)
    | modConnection fd' wantWrite =>
        obtain rfl : fd' = fd := Option.some.inj hc
        exact absurd hsucceeds (hfails _)
    | _ => cases hc
  · rw [hslot] at hset
    replace hset : v = u.setSlot i (registered (u.fds i) c.uringMask) := Option.some.inj hset
    have hsame : v.fds i = registered (u.fds i) c.uringMask := by
      rw [hset, setSlot_same]
    have hother : ∀ j, j ≠ i → v.fds j = u.fds j := by
      intro j hj
      rw [hset, setSlot_ne u hj]
    have hevents : (v.fds i).events = c.uringMask := by
      rw [hsame, registered]
      rcases (u.fds i).used with _ | _ <;> rfl
    have hfd : (i : Int) = fd := (fdSlot_eq_some.mp hslot).symm
    constructor
    · intro sqe hmem j hused hpoll
      -- requests out there: the events of entry `i` change, which is in time for the polls it has
      have hold : sqe ∈ u.requests := by
        rw [hset] at hmem
        exact hmem
      -- the poll is of this registration, or of another descriptor
      by_cases hj : j = i
      · rw [hj] at hpoll ⊢
        have hflight : sqe ∈ u.inFlight := by
          rw [requests, hsq] at hold
          exact hold
        rw [hevents, Nat.mod_eq_of_lt c.uringMask_lt]
        rw [hsame] at hpoll
        exact hintime fd i hc hslot sqe hflight hpoll
      · rw [hother j hj] at hused hpoll ⊢
        exact h.carries sqe hold j hused hpoll
    · intro j hused
      rw [lastRequest_target hc]
      by_cases hj : j = i
      · rw [hj, if_pos hfd]
        refine ⟨c, rfl, hevents, ?_⟩
        rintro ⟨-, hok⟩
        rw [Epoll.after, Epoll.call_target hc hok, hfd, Function.update_self]
      · have hne : ¬ (j : Int) = fd := by
          rw [← hfd]
          exact fun heq => hj (Fin.ext (by exact_mod_cast heq))
        rw [hother j hj] at hused ⊢
        rw [if_neg hne]
        obtain ⟨c', hlast, hevents', hepoll⟩ := h.last j hused
        refine ⟨c', hlast, hevents', ?_⟩
        rintro ⟨hpast, hok⟩
        rw [Epoll.after, Epoll.call_target hc hok, Function.update_of_ne hne]
        exact hepoll hpast

/-- Any other call. -/
theorem UpToDate.other (h : UpToDate past u) (hc : c.target = none) (hsucceeds : u.Succeeds c)
    (hret : u.call c = some v) : UpToDate ((u, c) :: past) v := by
  refine ⟨call_carries hc hret h.carries, ?_⟩
  intro i hused
  obtain ⟨hused', hevents, -⟩ := call_keepsSlots hc hret i hused
  obtain ⟨c', hlast, hevents', hepoll⟩ := h.last i hused'
  refine ⟨c', (lastRequest_skip hc i).trans hlast, hevents.trans hevents', ?_⟩
  rintro ⟨hpast, -⟩
  rw [← hepoll hpast, Epoll.after]
  cases c with
  | addListener => cases hc
  | addConnection => cases hc
  | modConnection => cases hc
  | remove fd answer rounds =>
      apply Epoll.remove_other
      -- the descriptor that is removed is not in use any more
      rintro rfl
      obtain ⟨w, hremove⟩ := hsucceeds
      rw [call, hremove] at hret
      obtain rfl : w = v := Option.some.inj hret
      have hunused := remove_unused (fdSlot_slot i) hremove
      exact absurd (hused.symm.trans hunused) (by decide)
  | wait => rfl
  | kernel => rfl

/-- **A run without faults keeps the polls up to date**, if events are always asked for in time. -/
theorem Ran.upToDate (h : Ran (fun u c => u.Faultless c ∧ u.InTime c) past u) :
    UpToDate past u := by
  induction h with
  | init => exact .init
  | @call past u v c hran hallowed hret ih =>
      have hsq := hran.sq_nil fun h => h.1
      rcases hc : c.target with _ | fd
      · exact ih.other hc hallowed.1.succeeds hret
      · exact ih.request hsq hc hallowed.2 hallowed.1.succeeds hret

/-- A blocking `h2_io_wait`: the program goes to sleep until the kernel completes a request. -/
def Blocks (u : Uring) (eventCap : Nat) (timeoutMs : Int) (w : Waiting) : Prop :=
  eventCap ≠ 0 ∧ timeoutMs ≠ 0 ∧ (u.asleep w).cq = []

/-- The completion of the poll of a descriptor in use has been saved. -/
def HasSaved (u : Uring) : Prop :=
  ∃ cqe ∈ u.pendingCqes, ∃ i : Fin uringMaxFds, (u.fds i).used = true
    ∧ cqe.userData = pollUserData i (u.fds i).generation

theorem asleep_sq (hsq : u.sq = []) {eventCap : Nat} {timeoutMs : Int} {extArg : Bool} {w : Waiting}
    (hcap : eventCap ≠ 0) (hfaultless : u.Faultless (.wait eventCap timeoutMs extArg w)) :
    (u.asleep w).sq = [] := by
  rw [asleep, posts_sq]
  obtain ⟨new, hlen, -, hnone, hsome⟩ := submitMissing_queue u w.submit
  by_cases hmissing : u.missing = 0
  · rw [(hnone hmissing).2, hsq]
  · have htaken := submits_taken hcap hmissing hfaultless.whole hfaultless.submits
    rw [(hsome hmissing).2, hsq, htaken, min_self, List.nil_append, ← hlen, List.drop_length]

/-- The descriptors in use have a poll in flight when the program sleeps. -/
theorem asleep_polled (htracked : u.registry.Tracked) (hsq : u.sq = []) {eventCap : Nat}
    {timeoutMs : Int} {extArg : Bool} {w : Waiting}
    (hfaultless : u.Faultless (.wait eventCap timeoutMs extArg w))
    (hblocks : u.Blocks eventCap timeoutMs w) (hfew : u.usedCount ≤ uringEntries)
    (hsaved : ¬ u.HasSaved) (hused : (u.fds i).used = true) :
    ∃ sqe ∈ (u.asleep w).inFlight, sqe.userData = pollUserData i (u.fds i).generation := by
  obtain ⟨hcap, -, hcq⟩ := hblocks
  obtain ⟨hsame, hpend, -, -⟩ := submitMissing_frame u w.submit
  have hadv := posts_advances (u.submitMissing w.submit).2 w.posted
  have hslot : (u.asleep w).fds i = (u.submitMissing w.submit).2.fds i := by
    rw [asleep, hadv.fds]
  have hactive : ((u.asleep w).fds i).active = true := by
    rw [hslot]
    exact submitMissing_all hsq hfew w.submit hused
  have hgen : ((u.asleep w).fds i).generation = (u.fds i).generation := by
    rw [hslot]
    exact (hsame i).2.1
  have hpolled := polled_of_empty (asleep_tracked htracked w) (asleep_sq hsq hcap hfaultless) hactive
  rw [Polled, hgen] at hpolled
  rcases hpolled with hflight | ⟨cqe, hmem, hpoll⟩
  · exact hflight
  · -- the ring is empty, so the completion would have been saved
    have hpending : (u.asleep w).pendingCqes = u.pendingCqes := hadv.pendingCqes.trans hpend
    rw [queue, hcq, List.append_nil, hpending] at hmem
    exact absurd ⟨cqe, hmem, i, hused, hpoll⟩ hsaved

theorem submitMissing_inFlight (u : Uring) (answer : Entered) :
    u.inFlight ⊆ (u.submitMissing answer).2.inFlight := by
  have harms := submitMissingLoop_arms (List.finRange uringMaxFds) 0 u
  obtain ⟨-, sq, fds, hframe⟩ := armed_frame harms
  unfold submitMissing
  generalize List.finRange uringMaxFds = is at hframe ⊢
  rcases hloop : submitMissingLoop is 0 u with ⟨submitted, armed⟩
  rw [hloop] at hframe
  replace hframe : armed.inFlight = u.inFlight := by
    have hsame : armed = { u with sq, fds } := hframe
    rw [hsame]
  cases submitted with
  | zero =>
      intro sqe hmem
      show sqe ∈ armed.inFlight
      rw [hframe]
      exact hmem
  | succ n =>
      intro sqe hmem
      refine List.mem_append_left _ ?_
      rw [hframe]
      exact hmem

/-- A call that comes too late: the program falls asleep with a poll in flight that carries other
events, unless the kernel completes it first. -/
theorem late_request (hlate : ¬ u.InTime c) (hret : u.call c = some v) {w : Waiting}
    (hquiet : w.posted = []) : ∃ i : Fin uringMaxFds, c.target = some (i : Int)
      ∧ (v.fds i).used = true ∧ ∃ sqe ∈ (v.asleep w).inFlight,
        sqe.userData = pollUserData i (v.fds i).generation ∧ sqe.pollEvents ≠ c.uringMask := by
  unfold InTime at hlate
  push Not at hlate
  obtain ⟨fd, i, hc, hslot, sqe, hflight, hpoll, hother⟩ := hlate
  have hset := call_target (u := u) hc
  rw [hret, setFd_eq, hslot] at hset
  replace hset : v = u.setSlot i (registered (u.fds i) c.uringMask) := Option.some.inj hset
  have hsame : v.fds i = registered (u.fds i) c.uringMask := by
    rw [hset, setSlot_same]
  refine ⟨i, ?_, ?_, sqe, ?_, ?_, hother⟩
  · rw [hc, fdSlot_eq_some.mp hslot]
  · rw [hsame, registered]
    rcases (u.fds i).used with _ | _ <;> rfl
  · have hmem : sqe ∈ v.inFlight := by
      rw [hset]
      exact hflight
    have hstays := submitMissing_inFlight v w.submit hmem
    unfold asleep
    generalize (v.submitMissing w.submit).2 = armed at hstays ⊢
    rw [hquiet]
    exact hstays
  · rw [hsame]
    exact hpoll

/-- **The events asked for last take effect**, if they are always asked for while no poll with other
events is in flight. In a run in which all calls succeed, whenever the program goes to sleep with at
most 256 descriptors in use, and no completion of their polls among the saved ones: each of them has
a poll in flight, and all its polls in flight carry the events of the last call for it. These are
the events that the epoll backend has then, if the same calls succeed there. After a call that comes
too late the next sleep begins with a poll that carries other events. -/
theorem interest_effective (h : Ran (fun u c => u.Faultless c ∧ u.InTime c) past u) :
    (∀ eventCap timeoutMs extArg w, u.Faultless (.wait eventCap timeoutMs extArg w) →
        u.Blocks eventCap timeoutMs w → u.usedCount ≤ uringEntries → ¬ u.HasSaved →
        ∀ i, (u.fds i).used = true → ∃ c, lastRequest past i = some c
          ∧ (∃ sqe ∈ (u.asleep w).inFlight, sqe.userData = pollUserData i (u.fds i).generation)
          ∧ (∀ sqe ∈ (u.asleep w).inFlight, sqe.userData = pollUserData i (u.fds i).generation →
            sqe.pollEvents = c.uringMask)
          ∧ (Epoll.Succeeds past → (Epoll.after past).interest i = some c.epollMask))
      ∧ ∀ c, ¬ u.InTime c → ∀ v, u.call c = some v → ∀ w : Waiting, w.posted = [] →
        ∃ i : Fin uringMaxFds, c.target = some (i : Int) ∧ (v.fds i).used = true
          ∧ ∃ sqe ∈ (v.asleep w).inFlight, sqe.userData = pollUserData i (v.fds i).generation
            ∧ sqe.pollEvents ≠ c.uringMask := by
  have hdate := h.upToDate
  have hsq := h.sq_nil fun h => h.1
  constructor
  · intro eventCap timeoutMs extArg w hfaultless hblocks hfew hsaved i hused
    obtain ⟨c, hlast, hevents, hepoll⟩ := hdate.last i hused
    refine ⟨c, hlast, ?_, ?_, hepoll⟩
    · exact asleep_polled h.runs.tracked hsq hfaultless hblocks hfew hsaved hused
    · intro sqe hflight hpoll
      have hmem : sqe ∈ (u.submitMissing w.submit).2.requests :=
        posts_requests _ w.posted (mem_requests.mpr (Or.inr hflight))
      have hcarries := submitMissing_carries w.submit hdate.carries sqe hmem i hused hpoll
      rw [hcarries, hevents, Nat.mod_eq_of_lt c.uringMask_lt]
  · intro c hlate v hret w hquiet
    exact late_request hlate hret hquiet

/-- With one descriptor in use. -/
theorem usedCount_one (h : ∀ j, (u.fds j).used = true → j = i) : u.usedCount ≤ uringEntries := by
  have hcount : u.usedCount ≤ (List.finRange uringMaxFds).count i := by
    rw [usedCount, List.count]
    apply List.countP_mono_left
    intro j _ hj
    rw [h j hj]
    exact beq_self_eq_true i
  have hone := List.nodup_iff_count_le_one.mp (List.nodup_finRange uringMaxFds) i
  exact (hcount.trans hone).trans (by decide)

/-- Descriptor 5 has been registered, and no other. -/
def registeredOnce : Uring := (Uring.init.addConnection 5).2

theorem registeredOnce_used (j : Fin uringMaxFds) (hused : (registeredOnce.fds j).used = true) :
    j = 5 := by
  by_contra hj
  have hinit : registeredOnce.fds j = Uring.init.fds j := Function.update_of_ne hj _ _
  rw [hinit] at hused
  cases hused

theorem registeredOnce_others (j : Fin uringMaxFds) (hj : j ≠ 5)
    (hused : (registeredOnce.fds j).used = true) : (registeredOnce.fds j).active = true :=
  absurd (registeredOnce_used j hused) hj

theorem registeredOnce_submit : registeredOnce.submitMissing takingWaiting.submit
    = (registeredOnce.arm 5).enter 1 0 takingWaiting.submit :=
  submitMissing_one rfl rfl registeredOnce_others (by decide) _

theorem registeredOnce_faultless (timeoutMs : Int) :
    registeredOnce.Faultless (.wait 1 timeoutMs true takingWaiting) := by
  have hsubmissions : registeredOnce.submissions (.wait 1 timeoutMs true takingWaiting)
      = [{ toSubmit := 1, answer := takingWaiting.submit }] :=
    submissions_one rfl rfl registeredOnce_others (by decide) timeoutMs _
  constructor
  · exact (takesWhole_single hsubmissions).mpr rfl
  · exact (submits_single hsubmissions).mpr rfl
  · show (registeredOnce.wait 1 timeoutMs true takingWaiting).1 ≠ none
    obtain ⟨armed, harmed⟩ : ∃ armed,
        (registeredOnce.arm 5).enter 1 0 takingWaiting.submit = (.ok 1, armed) := ⟨_, rfl⟩
    -- with the extended argument `h2_io_wait` submits nothing more
    have hok : ∃ n, (armed.waits timeoutMs true takingWaiting).1 = .ok n := by
      rw [waits]
      split_ifs
      · rw [waitForEvent]
        split_ifs
        · exact ⟨0, rfl⟩
        · exact ⟨0, rfl⟩
        · exact ⟨0, rfl⟩
        · rename_i hext
          exact absurd rfl hext
      · exact ⟨0, rfl⟩
    obtain ⟨n, hok⟩ := hok
    rcases hwaits : armed.waits timeoutMs true takingWaiting with ⟨res, waited⟩
    rw [hwaits] at hok
    obtain rfl : res = .ok n := hok
    rw [wait_delivers Nat.one_ne_zero (registeredOnce_submit.trans harmed) hwaits]
    exact Option.some_ne_none _

theorem registeredOnce_ran {allowed : Uring → Call → Prop}
    (h : allowed Uring.init (.addConnection 5)) :
    Ran allowed [(Uring.init, .addConnection 5)] registeredOnce := .call .init h rfl

theorem init_faultless : Uring.init.Faultless (.addConnection 5) := .of_nil rfl rfl

/-- The first sleep after the first registration. -/
theorem interest_effective_first : ∃ c, lastRequest [(Uring.init, .addConnection 5)] 5 = some c
    ∧ (∃ sqe ∈ (registeredOnce.asleep takingWaiting).inFlight, sqe.userData = pollUserData 5 1)
    ∧ (∀ sqe ∈ (registeredOnce.asleep takingWaiting).inFlight,
      sqe.userData = pollUserData 5 1 → sqe.pollEvents = c.uringMask)
    ∧ (Epoll.Succeeds [(Uring.init, .addConnection 5)] →
      (Epoll.after [(Uring.init, .addConnection 5)]).interest 5 = some c.epollMask) := by
  have hran : Ran (fun u c => u.Faultless c ∧ u.InTime c) [(Uring.init, .addConnection 5)]
      registeredOnce :=
    registeredOnce_ran ⟨init_faultless, fun fd i _ _ sqe hmem => by cases hmem⟩
  refine (interest_effective hran).1 1 (-1) true takingWaiting
    (registeredOnce_faultless (-1)) ⟨Nat.one_ne_zero, by decide, ?_⟩
    (usedCount_one registeredOnce_used) ?_ 5 rfl
  · rw [asleep, registeredOnce_submit]
    rfl
  · rintro ⟨cqe, hmem, -⟩
    cases hmem

/-- The poll of descriptor 5 is in flight when the program asks to write to it. -/
def asksToWrite : Uring := (polling.modConnection 5 true).2

theorem asksToWrite_eq : asksToWrite = polling.setSlot 5 { polling.fds 5 with events := 0x201d } := by
  rw [asksToWrite, modConnection, setFd_eq, show fdSlot 5 = some 5 from fdSlot_slot 5]
  rfl

theorem asksToWrite_used (j : Fin uringMaxFds) (hused : (asksToWrite.fds j).used = true) :
    j = 5 := by
  by_contra hj
  have hinit : asksToWrite.fds j = Uring.init.fds j := by
    rw [asksToWrite_eq, setSlot_ne polling hj]
    exact Function.update_of_ne hj _ _
  rw [hinit] at hused
  cases hused

theorem asksToWrite_armed (j : Fin uringMaxFds) (hused : (asksToWrite.fds j).used = true) :
    (asksToWrite.fds j).active = true := by
  rw [asksToWrite_used j hused, asksToWrite_eq, setSlot_same]
  rfl

/-- The program sleeps with a poll in flight that does not carry `POLLOUT`; the epoll backend has
registered `EPOLLOUT`. -/
theorem interest_lost : ∃ past, Ran Faultless past asksToWrite
    ∧ asksToWrite.Faultless (.wait 1 (-1) true quietWaiting)
    ∧ asksToWrite.Blocks 1 (-1) quietWaiting ∧ asksToWrite.usedCount ≤ uringEntries
    ∧ ¬ asksToWrite.HasSaved ∧ (asksToWrite.fds 5).used = true
    ∧ lastRequest past 5 = some (.modConnection 5 true)
    ∧ (∀ sqe ∈ (asksToWrite.asleep quietWaiting).inFlight,
      sqe.userData = pollUserData 5 1 → sqe.pollEvents ≠ (Call.modConnection 5 true).uringMask)
    ∧ Epoll.Succeeds past ∧ (Epoll.after past).interest 5 = some (pollIn ||| pollRdHup ||| pollOut) := by
  -- the poll of the old mask is still active, so no other is submitted
  have hidle : asksToWrite.submitMissing quietWaiting.submit = (.ok 0, asksToWrite) :=
    submitMissing_idle asksToWrite_armed quietWaiting.submit
  have hsubmissions : asksToWrite.submissions (.wait 1 (-1) true quietWaiting) = [] := by
    rw [submissions, if_neg Nat.one_ne_zero, if_pos (missing_idle asksToWrite_armed), hidle]
    rfl
  have hasleep : asksToWrite.asleep quietWaiting = asksToWrite := by
    rw [asleep, hidle]
    rfl
  obtain ⟨u, hu, hpolling⟩ := @polling_reached (.addConnection 5) (Or.inl rfl)
  obtain rfl : registeredOnce = u := Option.some.inj hu
  have hmod : polling.Faultless (.modConnection 5 true) := .of_nil rfl rfl
  have hrun := ((registeredOnce_ran init_faultless).call (registeredOnce_faultless 0) hpolling).call
    hmod rfl
  refine ⟨_, hrun, .of_nil hsubmissions ?_, ⟨Nat.one_ne_zero, by decide, ?_⟩, usedCount_one asksToWrite_used,
    ?_, ?_, rfl, ?_, ⟨⟨⟨trivial, rfl⟩, rfl⟩, rfl⟩, rfl⟩
  · show (asksToWrite.wait 1 (-1) true quietWaiting).1 ≠ none
    rw [wait, if_neg Nat.one_ne_zero, hidle]
    exact Option.some_ne_none _
  · rw [hasleep]
    rfl
  · rintro ⟨cqe, hmem, -⟩
    cases hmem
  · rw [asksToWrite_eq, setSlot_same]
    rfl
  · intro sqe hmem hpoll
    rw [hasleep] at hmem
    rw [List.mem_singleton.mp hmem]
    decide

end Uring

end C11Omo.IoUring
