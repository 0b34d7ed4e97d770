import C11Omo.Lib.Budget
import C11Omo.IoUring.UserData

set_option autoImplicit false

/-! # Completions

`h2_io_wait` works off the saved completions and then the ring, within the capacity for events.
Each completion settles the registration it is for (`settle`) and may give an event (`report`);
which events there are does not depend on what is settled before. So a call of `h2_io_wait` is one
run of `workOff` over the two queues together (`deliver_eq`).
-/

namespace C11Omo.IoUring

open C11Omo.Http2 C11Omo.Lib

/-- What a request and its completion have in common. -/
def Sqe.tag (sqe : Sqe) : Nat × Nat := (sqe.userData, sqe.registration)
def Cqe.tag (cqe : Cqe) : Nat × Nat := (cqe.userData, cqe.registration)

namespace Uring

variable {u u' : Uring} {cqe : Cqe} {events : List IoEvent} {eventCap : Nat}
  {i : Fin uringMaxFds}

@[simp] theorem setSlot_same (u : Uring) (i : Fin uringMaxFds) (fd : FdState) :
    (u.setSlot i fd).fds i = fd := Function.update_self ..

theorem setSlot_ne (u : Uring) {i j : Fin uringMaxFds} (h : j ≠ i) (fd : FdState) :
    (u.setSlot i fd).fds j = u.fds j := Function.update_of_ne h _ _

/-- The completions that have not been processed: the saved ones, and then the ring. -/
def queue (u : Uring) : List Cqe := u.pendingCqes ++ u.cq

/-! ## One completion -/

/-- The slot whose current registration a completion is for. -/
def current (u : Uring) (cqe : Cqe) : Option (Fin uringMaxFds) :=
  if isTimeoutUserData cqe.userData then none
  else
    match fdSlot (userDataFd cqe.userData) with
    | none => none
    | some i => if userDataGeneration cqe.userData = (u.fds i).generation then some i else none

/-- What a completion does to the table of descriptors. -/
def settle (u : Uring) (cqe : Cqe) : Uring :=
  match u.current cqe with
  | none => u
  | some i => u.setSlot i { u.fds i with active := false }

/-- The event of a completion: it has one unless it is a timeout or a cancellation, of a stale
generation, or for a descriptor that is not in use. -/
def report (u : Uring) (cqe : Cqe) : Option IoEvent :=
  match u.current cqe with
  | none => none
  | some i =>
      if isCancelUserData cqe.userData = false ∧ (u.fds i).used then
        some (pollEvent (userDataFd cqe.userData) cqe.res)
      else none

theorem current_eq_some : u.current cqe = some i
    ↔ isTimeoutUserData cqe.userData = false ∧ userDataFd cqe.userData = i
      ∧ userDataGeneration cqe.userData = (u.fds i).generation := by
  rw [current]
  rcases htime : isTimeoutUserData cqe.userData with _ | _
  · rw [if_neg (by simp), ← fdSlot_eq_some]
    rcases fdSlot (userDataFd cqe.userData) with _ | j
    · simp
    · simp only [Option.some.injEq, true_and]
      constructor
      · intro h
        split_ifs at h with hgen
        obtain rfl := Option.some.inj h
        exact ⟨rfl, hgen⟩
      · rintro ⟨rfl, hgen⟩
        rw [if_pos hgen]
  · simp

theorem report_eq_some {event : IoEvent} : u.report cqe = some event
    ↔ ∃ i, u.current cqe = some i ∧ isCancelUserData cqe.userData = false
      ∧ (u.fds i).used = true ∧ event = pollEvent i cqe.res := by
  rw [report]
  rcases hcur : u.current cqe with _ | i
  · simp
  · have hfd := (current_eq_some.mp hcur).2.1
    simp only [Option.some.injEq, exists_eq_left', hfd]
    constructor
    · intro h
      split_ifs at h with hcond
      exact ⟨hcond.1, hcond.2, (Option.some.inj h).symm⟩
    · rintro ⟨hpoll, hused, rfl⟩
      rw [if_pos ⟨hpoll, hused⟩]

/-- **`h2_uring_finish_cqe`** with room for an event. -/
theorem finishCqe_eq (u : Uring) (cqe : Cqe) (hroom : events.length < eventCap) :
    u.finishCqe cqe events eventCap = (events ++ (u.report cqe).toList, u.settle cqe) := by
  rw [finishCqe, report, settle, current]
  rcases isTimeoutUserData cqe.userData with _ | _
  · rw [if_neg (by simp), if_neg (by simp)]
    rcases fdSlot (userDataFd cqe.userData) with _ | i
    · simp
    · by_cases hgen : userDataGeneration cqe.userData = (u.fds i).generation
      · rcases isCancelUserData cqe.userData with _ | _
        · rcases hused : (u.fds i).used with _ | _
          · simp [hgen, hused]
          · simp [hgen, hused, hroom]
        · simp [hgen]
      · simp [hgen]
  · simp

/-! ## Which events there are -/

/-- The descriptors have the same registrations. -/
def SameRegistrations (u u' : Uring) : Prop :=
  ∀ i, (u'.fds i).used = (u.fds i).used ∧ (u'.fds i).generation = (u.fds i).generation
    ∧ (u'.fds i).registrations = (u.fds i).registrations

theorem SameRegistrations.refl (u : Uring) : SameRegistrations u u := fun _ => ⟨rfl, rfl, rfl⟩

theorem SameRegistrations.of_fds (h : u'.fds = u.fds) : SameRegistrations u u' :=
  fun i => by rw [h]; exact ⟨rfl, rfl, rfl⟩

theorem SameRegistrations.trans {u'' : Uring} (h : SameRegistrations u u')
    (h' : SameRegistrations u' u'') : SameRegistrations u u'' := by
  intro i
  obtain ⟨hused, hgen, hreg⟩ := h i
  obtain ⟨hused', hgen', hreg'⟩ := h' i
  exact ⟨hused'.trans hused, hgen'.trans hgen, hreg'.trans hreg⟩

theorem SameRegistrations.current (h : SameRegistrations u u') (cqe : Cqe) :
    u'.current cqe = u.current cqe := by
  rw [Uring.current, Uring.current]
  rcases fdSlot (userDataFd cqe.userData) with _ | i
  · rfl
  · simp only [(h i).2.1]

/-- Events depend on the registrations only. -/
theorem SameRegistrations.report (h : SameRegistrations u u') : u'.report = u.report := by
  funext cqe
  rw [Uring.report, Uring.report, h.current]
  rcases u.current cqe with _ | i
  · rfl
  · simp only [(h i).1]

/-- The active flag is not part of a registration. -/
theorem setSlot_sameRegistrations (u : Uring) (i : Fin uringMaxFds) (active : Bool) :
    SameRegistrations u (u.setSlot i { u.fds i with active }) := by
  intro j
  by_cases hj : j = i
  · rw [hj, setSlot_same]
    exact ⟨rfl, rfl, rfl⟩
  · rw [setSlot_ne u hj]
    exact ⟨rfl, rfl, rfl⟩

theorem settle_sameRegistrations (u : Uring) (cqe : Cqe) : SameRegistrations u (u.settle cqe) := by
  rw [settle]
  rcases u.current cqe with _ | i
  · exact .refl u
  · exact setSlot_sameRegistrations u i false

/-- All completions of a list settled in turn. -/
def settleAll (u : Uring) (cqes : List Cqe) : Uring := cqes.foldl settle u

theorem settleAll_cons (u : Uring) (cqe : Cqe) (cqes : List Cqe) :
    u.settleAll (cqe :: cqes) = (u.settle cqe).settleAll cqes := rfl

theorem settleAll_append (u : Uring) (cqes cqes' : List Cqe) :
    u.settleAll (cqes ++ cqes') = (u.settleAll cqes).settleAll cqes' := List.foldl_append

theorem settleAll_sameRegistrations (u : Uring) (cqes : List Cqe) :
    SameRegistrations u (u.settleAll cqes) := by
  induction cqes generalizing u with
  | nil => exact .refl u
  | cons cqe cqes ih => exact (settle_sameRegistrations u cqe).trans (ih (u.settle cqe))

/-- Settling changes the table of descriptors only, and depends on nothing else. -/
theorem settle_eq (u : Uring) (cqe : Cqe) : u.settle cqe = { u with fds := (u.settle cqe).fds } := by
  rw [settle]
  rcases u.current cqe with _ | i <;> rfl

theorem settleAll_eq (u : Uring) (cqes : List Cqe) :
    u.settleAll cqes = { u with fds := (u.settleAll cqes).fds } := by
  induction cqes generalizing u with
  | nil => rfl
  | cons cqe cqes ih =>
      calc u.settleAll (cqe :: cqes)
          = { u.settle cqe with fds := ((u.settle cqe).settleAll cqes).fds } := ih (u.settle cqe)
        _ = { u with fds := ((u.settle cqe).settleAll cqes).fds } := by rw [settle_eq]

theorem settle_congr (h : u'.fds = u.fds) (cqe : Cqe) : (u'.settle cqe).fds = (u.settle cqe).fds := by
  rw [settle, settle, (SameRegistrations.of_fds h).current]
  rcases u.current cqe with _ | i
  · exact h
  · show Function.update u'.fds i { u'.fds i with active := false }
      = Function.update u.fds i { u.fds i with active := false }
    rw [h]

theorem settleAll_congr (h : u'.fds = u.fds) (cqes : List Cqe) :
    (u'.settleAll cqes).fds = (u.settleAll cqes).fds := by
  induction cqes generalizing u u' with
  | nil => exact h
  | cons cqe cqes ih => exact ih (settle_congr h cqe)

/-! ## The two loops -/

/-- **`h2_uring_finish_saved_cqes`** from one position on. -/
theorem finishSavedLoop_eq (u : Uring) (rest kept : List Cqe) (hcap : events.length ≤ eventCap) :
    finishSavedLoop eventCap rest kept events u
      = (events ++ (workOff u.report (eventCap - events.length) rest).1.filterMap u.report,
        { u.settleAll (workOff u.report (eventCap - events.length) rest).1 with
          pendingCqes := kept ++ (workOff u.report (eventCap - events.length) rest).2 }) := by
  induction rest generalizing u kept events with
  | nil => simp [finishSavedLoop, settleAll]
  | cons cqe rest ih =>
      rw [finishSavedLoop]
      by_cases hroom : events.length < eventCap
      · have hsucc : eventCap - events.length = eventCap - events.length - 1 + 1 := by omega
        rw [if_pos hroom, finishCqe_eq u cqe hroom, hsucc, workOff]
        simp only
        have hsame := (settle_sameRegistrations u cqe).report
        rcases hrep : u.report cqe with _ | event
        · rw [Option.toList_none, List.append_nil, ih _ kept hcap, hsame,
            List.filterMap_cons_none hrep, settleAll_cons, Option.isSome_none, if_neg (by simp),
            ← hsucc]
        · have hlen : (events ++ [event]).length = events.length + 1 := List.length_append
          rw [Option.toList_some, ih _ kept (by omega), hsame, List.filterMap_cons_some hrep,
            settleAll_cons, Option.isSome_some, if_pos rfl, hlen, List.append_assoc, Nat.sub_sub]
          rfl
      · have hzero : eventCap - events.length = 0 := by omega
        rw [if_neg hroom, ih u (kept ++ [cqe]) hcap, hzero, workOff_zero, workOff_zero,
          List.append_assoc]
        rfl

/-- **The loop of `h2_io_wait`** from one completion in the ring on. -/
theorem finishRing_eq (u : Uring) (rest : List Cqe) (hcap : events.length ≤ eventCap) :
    finishRing eventCap rest events u
      = (events ++ (workOff u.report (eventCap - events.length) rest).1.filterMap u.report,
        { u.settleAll (workOff u.report (eventCap - events.length) rest).1 with
          cq := (workOff u.report (eventCap - events.length) rest).2 }) := by
  induction rest generalizing u events with
  | nil => simp [finishRing, settleAll]
  | cons cqe rest ih =>
      rw [finishRing]
      by_cases hroom : events.length < eventCap
      · have hsucc : eventCap - events.length = eventCap - events.length - 1 + 1 := by omega
        rw [if_pos hroom, finishCqe_eq u cqe hroom, hsucc, workOff]
        simp only
        have hsame := (settle_sameRegistrations u cqe).report
        rcases hrep : u.report cqe with _ | event
        · rw [Option.toList_none, List.append_nil, ih _ hcap, hsame,
            List.filterMap_cons_none hrep, settleAll_cons, Option.isSome_none, if_neg (by simp),
            ← hsucc]
        · have hlen : (events ++ [event]).length = events.length + 1 := List.length_append
          rw [Option.toList_some, ih _ (by omega), hsame, List.filterMap_cons_some hrep,
            settleAll_cons, Option.isSome_some, if_pos rfl, hlen, List.append_assoc, Nat.sub_sub]
          rfl
      · have hzero : eventCap - events.length = 0 := by omega
        rw [if_neg hroom, hzero, workOff_zero]
        simp [settleAll]

/-! ## The kernel -/

/-- The kernel has completed some of its requests, and others are left. -/
def Completes (inFlight : List Sqe) (new : List Cqe) (left : List Sqe) : Prop :=
  (new.map Cqe.tag ++ left.map Sqe.tag).Perm (inFlight.map Sqe.tag)

theorem Completes.refl (inFlight : List Sqe) : Completes inFlight [] inFlight := List.Perm.refl _

theorem Completes.trans {inFlight left left' : List Sqe} {new new' : List Cqe}
    (h : Completes inFlight new left) (h' : Completes left new' left') :
    Completes inFlight (new ++ new') left' := by
  rw [Completes, List.map_append, List.append_assoc]
  exact (List.Perm.append_left _ h').trans h

/-- **What the kernel posts** comes to the end of the ring, and is in flight no longer. -/
theorem posts_eq (u : Uring) (ps : List Post) : ∃ new inFlight, Completes u.inFlight new inFlight
    ∧ u.posts ps = { u with inFlight, cq := u.cq ++ new, posted := u.posted ++ new } := by
  induction ps generalizing u with
  | nil => exact ⟨[], u.inFlight, .refl _, by simp [posts]⟩
  | cons p ps ih =>
      have hone : ∃ new inFlight, Completes u.inFlight new inFlight
          ∧ u.post p = { u with inFlight, cq := u.cq ++ new, posted := u.posted ++ new } := by
        rw [post]
        rcases hpos : u.inFlight[p.pos]? with _ | sqe
        · exact ⟨[], u.inFlight, .refl _, by simp⟩
        · refine ⟨[_], u.inFlight.eraseIdx p.pos, ?_, rfl⟩
          obtain ⟨hlt, rfl⟩ := List.getElem?_eq_some_iff.mp hpos
          exact (List.getElem_cons_eraseIdx_perm hlt).map Sqe.tag
      obtain ⟨new, inFlight, hcomp, hnew⟩ := hone
      obtain ⟨new', inFlight', hcomp', hrest⟩ := ih (u.post p)
      refine ⟨new ++ new', inFlight', hcomp.trans ?_, ?_⟩
      · rwa [hnew] at hcomp'
      · calc u.posts (p :: ps) = (u.post p).posts ps := rfl
          _ = _ := by rw [hrest, hnew]; simp only [List.append_assoc]

/-! ## Delivery -/

/-- **Delivery**: the two queues are worked off as one, together with what the kernel has posted
in the meantime. -/
theorem deliver_eq (u : Uring) (eventCap : Nat) (later : List Post) : ∃ new inFlight,
    Completes u.inFlight new inFlight
      ∧ (u.deliver eventCap later).1
        = (workOff u.report eventCap (u.queue ++ new)).1.filterMap u.report
      ∧ (u.deliver eventCap later).2.queue = (workOff u.report eventCap (u.queue ++ new)).2
      ∧ ∃ pendingCqes cq, (u.deliver eventCap later).2
        = { u with
          inFlight
          cq
          pendingCqes
          fds := (u.settleAll (workOff u.report eventCap (u.queue ++ new)).1).fds
          posted := u.posted ++ new } := by
  obtain ⟨saved, hworked⟩ : ∃ saved, workOff u.report eventCap u.pendingCqes = saved := ⟨_, rfl⟩
  obtain ⟨new, inFlight, hperm, hposts⟩ :=
    posts_eq { u with pendingCqes := saved.2, fds := (u.settleAll saved.1).fds } later
  have hsaved : u.finishSavedCqes [] eventCap = (saved.1.filterMap u.report,
      { u with pendingCqes := saved.2, fds := (u.settleAll saved.1).fds }) := by
    have hloop := @finishSavedLoop_eq [] eventCap u u.pendingCqes [] (Nat.zero_le eventCap)
    rw [List.length_nil, Nat.sub_zero, hworked, settleAll_eq] at hloop
    exact hloop
  have hlen : (saved.1.filterMap u.report).length ≤ eventCap := by
    rw [← hworked, workOff_reports, List.length_take]
    exact min_le_left _ _
  -- the ring is worked off in the state that the saved completions leave
  obtain ⟨v, hv⟩ : ∃ v : Uring, v = { u with
      inFlight
      cq := u.cq ++ new
      pendingCqes := saved.2
      fds := (u.settleAll saved.1).fds
      posted := u.posted ++ new } := ⟨_, rfl⟩
  have hreport : v.report = u.report := by
    have hfds : v.fds = (u.settleAll saved.1).fds := by rw [hv]
    exact (SameRegistrations.of_fds hfds).report.trans (settleAll_sameRegistrations u _).report
  have hcq : v.cq = u.cq ++ new := by rw [hv]
  have hring := finishRing_eq v (u.cq ++ new) hlen
  have hparts := workOff_parts u.report eventCap u.pendingCqes (u.cq ++ new)
  have hqueue : u.queue ++ new = u.pendingCqes ++ (u.cq ++ new) := List.append_assoc _ _ _
  rw [hreport] at hring
  rw [hworked, ← hqueue] at hparts
  generalize workOff u.report (eventCap - (saved.1.filterMap u.report).length) (u.cq ++ new)
    = rest at hring hparts
  -- the flags are cleared for the saved completions, then for those of the ring
  have hfds : (v.settleAll rest.1).fds = (u.settleAll (saved.1 ++ rest.1)).fds := by
    rw [settleAll_append]
    exact settleAll_congr (by rw [hv]) rest.1
  have hend : u.deliver eventCap later
      = (saved.1.filterMap u.report ++ rest.1.filterMap u.report,
        { u with
          inFlight
          cq := rest.2
          pendingCqes := saved.2
          fds := (u.settleAll (saved.1 ++ rest.1)).fds
          posted := u.posted ++ new }) := by
    calc u.deliver eventCap later
        = finishRing eventCap (u.cq ++ new) (saved.1.filterMap u.report) v := by
          rw [deliver, hsaved]
          simp only [hposts, hv]
      _ = (saved.1.filterMap u.report ++ rest.1.filterMap u.report,
            { v.settleAll rest.1 with cq := rest.2 }) := hring
      _ = _ := by rw [settleAll_eq, hfds, hv]
  refine ⟨new, inFlight, hperm, ?_⟩
  rw [hparts, hend]
  exact ⟨List.filterMap_append.symm, rfl, saved.2, rest.2, rfl⟩

/-! ## Submission and waiting -/

/-- The requests and completions that have not been processed, wherever they are. -/
def outstanding (u : Uring) : Multiset (Nat × Nat) :=
  (u.sq.map Sqe.tag + u.inFlight.map Sqe.tag : Multiset (Nat × Nat)) + u.queue.map Cqe.tag

/-- The kernel completes requests, and the queue changes. -/
theorem outstanding_completes {u v : Uring} {new : List Cqe} {gone more : Multiset (Nat × Nat)}
    (hsq : v.sq = u.sq) (hcomp : Completes u.inFlight new v.inFlight)
    (hqueue : (v.queue.map Cqe.tag : Multiset (Nat × Nat)) + gone
      = (u.queue ++ new).map Cqe.tag + more) : v.outstanding + gone = u.outstanding + more := by
  have hsum := Multiset.coe_eq_coe.mpr hcomp
  rw [← Multiset.coe_add] at hsum
  rw [List.map_append, ← Multiset.coe_add] at hqueue
  calc v.outstanding + gone
      = u.sq.map Sqe.tag + v.inFlight.map Sqe.tag + (v.queue.map Cqe.tag + gone) := by
        rw [outstanding, hsq, add_assoc]
    _ = u.sq.map Sqe.tag + (new.map Cqe.tag + v.inFlight.map Sqe.tag) + u.queue.map Cqe.tag
          + more := by
        rw [hqueue]
        abel
    _ = u.outstanding + more := by rw [hsum, outstanding]

/-- What is taken from the front of the queue is outstanding no longer. -/
theorem outstanding_taken {u v : Uring} {new processed : List Cqe} (hsq : v.sq = u.sq)
    (hcomp : Completes u.inFlight new v.inFlight) (hqueue : u.queue ++ new = processed ++ v.queue) :
    v.outstanding + processed.map Cqe.tag = u.outstanding := by
  have htaken := @outstanding_completes u v new (processed.map Cqe.tag) 0 hsq hcomp (by
    rw [hqueue, List.map_append, ← Multiset.coe_add, add_zero, add_comm])
  rwa [add_zero] at htaken

/-- Requests have been submitted and completed, and perhaps a timeout has been queued; the program
has not looked at a completion. -/
structure Advances (u v : Uring) : Prop where
  pendingCqes : v.pendingCqes = u.pendingCqes
  fds : v.fds = u.fds
  posted : ∃ new, v.cq = u.cq ++ new ∧ v.posted = u.posted ++ new
  entered : ∃ calls, v.entered = u.entered ++ calls
  outstanding : ∃ n, v.outstanding = u.outstanding + Multiset.replicate n (uringTimeoutFlag, 0)

variable {v w : Uring}

theorem Advances.refl (u : Uring) : Advances u u :=
  ⟨rfl, rfl, ⟨[], by simp⟩, ⟨[], by simp⟩, ⟨0, by simp⟩⟩

theorem Advances.trans (h : Advances u v) (h' : Advances v w) : Advances u w := by
  obtain ⟨new, hcq, hposted⟩ := h.posted
  obtain ⟨new', hcq', hposted'⟩ := h'.posted
  obtain ⟨calls, hcalls⟩ := h.entered
  obtain ⟨calls', hcalls'⟩ := h'.entered
  obtain ⟨n, hn⟩ := h.outstanding
  obtain ⟨n', hn'⟩ := h'.outstanding
  constructor
  · exact h'.pendingCqes.trans h.pendingCqes
  · exact h'.fds.trans h.fds
  · exact ⟨new ++ new', by rw [hcq', hcq, List.append_assoc],
      by rw [hposted', hposted, List.append_assoc]⟩
  · exact ⟨calls ++ calls', by rw [hcalls', hcalls, List.append_assoc]⟩
  · exact ⟨n + n', by rw [hn', hn, add_assoc, Multiset.replicate_add]⟩

/-- The queue grows by what the kernel posts. -/
theorem Advances.queue (h : Advances u v) :
    ∃ new, v.posted = u.posted ++ new ∧ v.queue = u.queue ++ new := by
  obtain ⟨new, hcq, hposted⟩ := h.posted
  exact ⟨new, hposted, by rw [Uring.queue, Uring.queue, h.pendingCqes, hcq, List.append_assoc]⟩

theorem posts_outstanding (u : Uring) (ps : List Post) :
    (u.posts ps).outstanding = u.outstanding := by
  obtain ⟨new, inFlight, hcomp, hposts⟩ := posts_eq u ps
  have hsame := @outstanding_completes u (u.posts ps) new 0 0 (by rw [hposts])
    (by rw [hposts]; exact hcomp) (by rw [hposts, queue, queue, List.append_assoc])
  rwa [add_zero, add_zero] at hsame

theorem posts_advances (u : Uring) (ps : List Post) : Advances u (u.posts ps) := by
  have hsame := posts_outstanding u ps
  obtain ⟨new, inFlight, -, hposts⟩ := posts_eq u ps
  rw [hposts] at hsame ⊢
  refine ⟨rfl, rfl, ⟨new, rfl, rfl⟩, ⟨[], by simp⟩, ⟨0, ?_⟩⟩
  rw [Multiset.replicate_zero, add_zero, hsame]

theorem enter_outstanding (u : Uring) (toSubmit minComplete : Nat) (answer : Entered) :
    (u.enter toSubmit minComplete answer).2.outstanding = u.outstanding := by
  have htaken := List.take_append_drop (min answer.consumed toSubmit) u.sq
  have hsum : (u.sq.map Sqe.tag : Multiset (Nat × Nat))
      = (u.sq.take (min answer.consumed toSubmit)).map Sqe.tag
        + (u.sq.drop (min answer.consumed toSubmit)).map Sqe.tag := by
    rw [Multiset.coe_add, ← List.map_append, htaken]
  rw [Uring.outstanding, Uring.outstanding, hsum]
  simp only [enter, Uring.queue, List.map_append, ← Multiset.coe_add]
  abel

theorem enter_advances (u : Uring) (toSubmit minComplete : Nat) (answer : Entered) :
    Advances u (u.enter toSubmit minComplete answer).2 := by
  refine ⟨rfl, rfl, ⟨[], by simp [enter]⟩, ⟨_, rfl⟩, ⟨0, ?_⟩⟩
  rw [Multiset.replicate_zero, add_zero, enter_outstanding]

theorem waitForEvent_advances (u : Uring) (timeoutMs : Int) (extArg : Bool) (answer : Entered) :
    Advances u (u.waitForEvent timeoutMs extArg answer).2 := by
  rw [waitForEvent]
  by_cases h0 : timeoutMs = 0
  · rw [if_pos h0]
    exact .refl u
  · rw [if_neg h0]
    by_cases hneg : timeoutMs < 0
    · rw [if_pos hneg]
      exact enter_advances u 0 1 answer
    · rw [if_neg hneg]
      cases extArg with
      | true => exact enter_advances u 0 1 answer
      | false =>
          rw [if_neg (by simp), submitTimeoutSqe, getSqe]
          by_cases hfull : u.sq.length ≥ uringEntries
          · rw [if_pos hfull]
            exact .refl u
          · rw [if_neg hfull]
            refine .trans ?_ (enter_advances _ 1 1 answer)
            refine ⟨rfl, rfl, ⟨[], by simp⟩, ⟨[], by simp⟩, ⟨1, ?_⟩⟩
            simp only [Uring.outstanding, Uring.queue, List.map_append, List.map_cons, List.map_nil,
              ← Multiset.coe_add, Sqe.tag, Multiset.replicate_one, Multiset.coe_singleton]
            abel

theorem waits_advances (u : Uring) (timeoutMs : Int) (extArg : Bool) (w : Waiting) :
    Advances u (u.waits timeoutMs extArg w).2 := by
  have hposts := posts_advances u w.posted
  rw [waits]
  by_cases hempty : (u.posts w.posted).cq = []
  · simp only [if_pos hempty]
    exact hposts.trans (waitForEvent_advances _ timeoutMs extArg w.wait)
  · simp only [if_neg hempty]
    exact hposts

/-- A poll is armed for a descriptor. -/
def arm (u : Uring) (i : Fin uringMaxFds) : Uring :=
  { u with
    sq := u.sq ++ [{
      opcode := .pollAdd
      fd := i
      pollEvents := (u.fds i).events % 65536
      addr := 0
      userData := pollUserData i (u.fds i).generation
      registration := (u.fds i).registrations }]
    fds := Function.update u.fds i { u.fds i with active := true } }

/-- The request is outstanding from then on. -/
theorem arm_outstanding (u : Uring) (i : Fin uringMaxFds) : (u.arm i).outstanding
    = u.outstanding + {(pollUserData i (u.fds i).generation, (u.fds i).registrations)} := by
  simp only [arm, outstanding, queue, List.map_append, List.map_cons, List.map_nil, Sqe.tag,
    ← Multiset.coe_add, Multiset.coe_singleton]
  abel

/-- A poll is armed for a descriptor that lacks one. -/
def Arms (u v : Uring) : Prop :=
  ∃ i, (u.fds i).used = true ∧ (u.fds i).active = false ∧ v = u.arm i

/-- **`h2_uring_submit_missing`** arms polls one after the other. -/
theorem submitMissingLoop_arms (is : List (Fin uringMaxFds)) (submitted : Nat) (u : Uring) :
    Relation.ReflTransGen Arms u (submitMissingLoop is submitted u).2 := by
  induction is generalizing submitted u with
  | nil => exact .refl
  | cons i is ih =>
      rw [submitMissingLoop]
      by_cases hskip : (u.fds i).used = false ∨ (u.fds i).active = true
      · rw [if_pos hskip]
        exact ih submitted u
      · rw [if_neg hskip, getSqe]
        obtain ⟨hused, hactive⟩ := not_or.mp hskip
        by_cases hfull : u.sq.length ≥ uringEntries
        · rw [if_pos hfull]
        · rw [if_neg hfull]
          exact .head ⟨i, by simpa using hused, by simpa using hactive, rfl⟩ (ih _ _)

theorem armed_frame (h : Relation.ReflTransGen Arms u v) : SameRegistrations u v
    ∧ ∃ sq fds, v = { u with sq, fds } := by
  induction h with
  | refl => exact ⟨.refl u, u.sq, u.fds, rfl⟩
  | tail _ hstep ih =>
      obtain ⟨i, -, -, rfl⟩ := hstep
      obtain ⟨hsame, sq, fds, rfl⟩ := ih
      exact ⟨hsame.trans (setSlot_sameRegistrations _ i true), _, _, rfl⟩

/-- `h2_uring_submit_missing` does not block, and fails only if `io_uring_enter` does. -/
theorem submitMissing_outcome (u : Uring) (answer : Entered) : ∃ armed,
    Relation.ReflTransGen Arms u armed ∧ Advances armed (u.submitMissing answer).2
      ∧ ((u.submitMissing answer).1 = .ok 0 ∨ (u.submitMissing answer).1 = answer.result)
      ∧ ∃ calls, (u.submitMissing answer).2.entered = u.entered ++ calls
        ∧ ∀ call ∈ calls, call.minComplete = 0 := by
  have harms := submitMissingLoop_arms (List.finRange uringMaxFds) 0 u
  obtain ⟨-, sq, fds, hframe⟩ := armed_frame harms
  unfold submitMissing
  generalize List.finRange uringMaxFds = is at harms hframe ⊢
  rcases hloop : submitMissingLoop is 0 u with ⟨submitted, armed⟩
  rw [hloop] at harms
  replace hframe : armed = { u with sq, fds } := by rw [← hframe, hloop]
  have hentered : armed.entered = u.entered := by rw [hframe]
  cases submitted with
  | zero => exact ⟨armed, harms, .refl armed, Or.inl rfl, [], by simp [hentered], by simp⟩
  | succ n =>
      refine ⟨armed, harms, enter_advances armed (n + 1) 0 answer, Or.inr rfl,
        [{ toSubmit := n + 1, minComplete := 0 }], ?_, by simp⟩
      rw [← hentered]
      rfl

/-- The submission leaves the registrations and the queue alone. -/
theorem submitMissing_frame (u : Uring) (answer : Entered) :
    SameRegistrations u (u.submitMissing answer).2
      ∧ (u.submitMissing answer).2.pendingCqes = u.pendingCqes
      ∧ (u.submitMissing answer).2.cq = u.cq ∧ (u.submitMissing answer).2.posted = u.posted := by
  have harms := submitMissingLoop_arms (List.finRange uringMaxFds) 0 u
  obtain ⟨hsame, sq, fds, hframe⟩ := armed_frame harms
  unfold submitMissing
  generalize List.finRange uringMaxFds = is at harms hframe hsame ⊢
  rcases hloop : submitMissingLoop is 0 u with ⟨submitted, armed⟩
  rw [hloop] at hsame
  replace hframe : armed = { u with sq, fds } := by rw [← hframe, hloop]
  subst hframe
  cases submitted with
  | zero => exact ⟨hsame, rfl, rfl, rfl⟩
  | succ n => exact ⟨hsame.trans (.of_fds rfl), rfl, rfl, rfl⟩

/-! ## One call of `h2_io_wait` -/

/-- **How `h2_io_wait` ends**: when the submission fails, when waiting fails, or with delivery. -/
theorem wait_outcome (u : Uring) {eventCap : Nat} (hcap : eventCap ≠ 0) (timeoutMs : Int)
    (extArg : Bool) (w : Waiting) {armed waited : Uring}
    (harmed : armed = (u.submitMissing w.submit).2)
    (hwaited : waited = (armed.waits timeoutMs extArg w).2) :
    ((∃ err, (u.submitMissing w.submit).1 = .error err)
        ∧ u.wait eventCap timeoutMs extArg w = (none, armed))
      ∨ (∃ err, (armed.waits timeoutMs extArg w).1 = .error err)
        ∧ (u.wait eventCap timeoutMs extArg w = (none, waited)
          ∨ u.wait eventCap timeoutMs extArg w = (some [], waited))
      ∨ (∃ n, (armed.waits timeoutMs extArg w).1 = .ok n)
        ∧ u.wait eventCap timeoutMs extArg w
          = (some (waited.deliver eventCap w.later).1, (waited.deliver eventCap w.later).2) := by
  rw [wait, if_neg hcap]
  rcases hsub : u.submitMissing w.submit with ⟨err | n, v⟩
  · rw [hsub] at harmed
    exact Or.inl ⟨⟨err, rfl⟩, by rw [harmed]⟩
  · rw [hsub] at harmed
    obtain rfl : armed = v := harmed
    rcases hw : armed.waits timeoutMs extArg w with ⟨err | m, v⟩
    · rw [hw] at hwaited
      obtain rfl : waited = v := hwaited
      simp only [hw]
      cases err <;> simp
    · rw [hw] at hwaited
      obtain rfl : waited = v := hwaited
      simp only [hw]
      exact Or.inr (Or.inr ⟨⟨m, rfl⟩, trivial⟩)

end Uring

end C11Omo.IoUring
